import Mkey.Core.Ssp
import Mkey.Lib.Crc

/-!
# The checksums

One code under two optimisations: the SSP checksum takes a byte as two nibbles
and multiplies, the key-hash checksum looks a byte up in a table. Both are the
bit-serial register of the reflected polynomial 0x8408. An SSP frame with its
checksum behind it leaves that register clear, so a frame damaged within two
adjacent bytes is found out.
-/
namespace Mkey

/-- The bits of a byte, lowest first. -/
def byteBits (byte : UInt8) : List Bool := (List.range 8).map fun i => byte.toBitVec.getLsbD i

/-- The bit-serial CRC-16 of the reflected polynomial 0x8408. -/
def serialCrc (start : UInt16) (data : List UInt8) : UInt16 :=
  UInt16.ofBitVec (Crc.bits 0x8408#16 start.toBitVec (data.flatMap byteBits))

@[simp] theorem length_byteBits (byte : UInt8) : (byteBits byte).length = 8 := by
  simp [byteBits]

theorem length_flatMap_byteBits (data : List UInt8) :
    (data.flatMap byteBits).length = 8 * data.length := by
  induction data with
  | nil => rfl
  | cons byte rest ih =>
    rw [List.flatMap_cons, List.length_append, length_byteBits, ih, List.length_cons]
    omega

theorem getD_byteBits (byte : UInt8) (i : Nat) :
    (byteBits byte).getD i false = byte.toBitVec.getLsbD i := by
  rw [byteBits, List.getD_eq_getElem?_getD, List.getElem?_map]
  by_cases low : i < 8
  · simp [low]
  · simp [low, BitVec.getLsbD_of_ge _ _ (Nat.le_of_not_lt low)]

theorem pack_byteBits (byte : UInt8) :
    (Crc.pack (byteBits byte) : BitVec 16) = byte.toBitVec.setWidth 16 := by
  apply BitVec.eq_of_getLsbD_eq
  intro i _
  rw [Crc.getLsbD_pack, BitVec.getLsbD_setWidth, getD_byteBits]

/-- Bytes with the same bits are the same bytes. -/
theorem flatMap_byteBits_injective {left right : List UInt8}
    (same : left.flatMap byteBits = right.flatMap byteBits) : left = right := by
  have counted := congrArg List.length same
  simp only [length_flatMap_byteBits] at counted
  induction left generalizing right with
  | nil =>
    rw [List.length_nil] at counted
    exact (List.length_eq_zero_iff.mp (by omega)).symm
  | cons byte rest ih =>
    cases right with
    | nil =>
      rw [List.length_nil, List.length_cons] at counted
      omega
    | cons byte' rest' =>
      obtain ⟨first, later⟩ := List.append_inj same (by simp)
      have packed := congrArg (Crc.pack (w := 16)) first
      rw [pack_byteBits, pack_byteBits] at packed
      have bytes : byte.toBitVec = byte'.toBitVec := by
        have narrowed := congrArg (BitVec.setWidth 8) packed
        simpa using narrowed
      rw [UInt8.toBitVec_inj.mp bytes,
        ih later (by rw [List.length_cons, List.length_cons] at counted; omega)]

/-! ### The two byte steps -/

/-- A byte into the serial register: eight shifts of the register met by the byte. -/
theorem serial_byte (register : UInt16) (byte : UInt8) :
    Crc.bits 0x8408#16 register.toBitVec (byteBits byte) =
      (Crc.shift 0x8408#16)^[8] (register.toBitVec ^^^ byte.toBitVec.setWidth 16) := by
  have fits : (byteBits byte).length ≤ 16 := by
    rw [length_byteBits]
    decide
  rw [Crc.bits_eq_shift _ fits, length_byteBits, pack_byteBits]

theorem getLsbD_nibble_mask (i : Nat) (_ : i < 16) :
    (0x0F#16).getLsbD i = decide (i < 4) := by
  decide +revert

theorem getLsbD_byte_mask (i : Nat) (_ : i < 16) :
    (0xFF#16).getLsbD i = decide (i < 8) := by
  decide +revert

/-- The copies of a nibble that 4225 adds up never overlap: four bit steps. -/
theorem nibble_product (v : BitVec 16) :
    (Crc.shift 0x8408#16)^[4] (v &&& 0x0F#16) = (v &&& 0x0F#16) * 4225#16 := by
  have small : ∀ n < 16,
      (Crc.shift 0x8408#16)^[4] (BitVec.ofNat 16 n) = BitVec.ofNat 16 n * 4225#16 := by
    decide
  have below : (v &&& 0x0F#16).toNat < 16 := by
    rw [BitVec.toNat_and]
    exact Nat.lt_succ_of_le Nat.and_le_right
  have all := small _ below
  rwa [BitVec.ofNat_toNat, BitVec.setWidth_eq] at all

theorem toBitVec_crc16SspNibble (crc nibble : UInt16) :
    (crc16SspNibble crc nibble).toBitVec = (crc.toBitVec >>> 4) ^^^
      (Crc.shift 0x8408#16)^[4] ((crc.toBitVec ^^^ nibble.toBitVec) &&& 0x0F#16) := by
  rw [nibble_product]
  rfl

/-- Eight shifts move a byte out of the register. -/
theorem byte_shifted_out (byte : UInt8) : byte.toBitVec.setWidth 16 >>> 8 = 0#16 := by
  apply BitVec.eq_of_getLsbD_eq
  intro i _
  rw [BitVec.getLsbD_ushiftRight, BitVec.getLsbD_setWidth,
    BitVec.getLsbD_of_ge _ _ (Nat.le_add_right 8 i), Bool.and_false, BitVec.getLsbD_zero]

theorem toBitVec_crc16SspByte (crc : UInt16) (byte : UInt8) :
    (crc16SspByte crc byte).toBitVec = Crc.bits 0x8408#16 crc.toBitVec (byteBits byte) := by
  have high : (byte >>> 4).toUInt16.toBitVec = byte.toBitVec.setWidth 16 >>> 4 := by
    apply BitVec.eq_of_toNat_eq
    simp
  have gone : byte.toBitVec.setWidth 16 >>> 4 >>> 4 = 0#16 := by
    rw [← BitVec.shiftRight_add]
    exact byte_shifted_out byte
  -- the high nibble waits four places up, clear of the shifts the low one takes
  rw [serial_byte, Function.iterate_add_apply _ 4 4,
    Crc.shift_iterate_mask _ getLsbD_nibble_mask (crc.toBitVec ^^^ _),
    BitVec.ushiftRight_xor_distrib, crc16SspByte, toBitVec_crc16SspNibble,
    toBitVec_crc16SspNibble, high, UInt8.toBitVec_toUInt16]
  generalize (Crc.shift 0x8408#16)^[4] ((crc.toBitVec ^^^ byte.toBitVec.setWidth 16) &&& 0x0F#16) =
    low
  have regroup : crc.toBitVec >>> 4 ^^^ byte.toBitVec.setWidth 16 >>> 4 ^^^ low =
      (crc.toBitVec >>> 4 ^^^ low) ^^^ byte.toBitVec.setWidth 16 >>> 4 := by
    rw [BitVec.xor_assoc, BitVec.xor_comm _ low, BitVec.xor_assoc]
  rw [regroup, Crc.shift_iterate_mask _ getLsbD_nibble_mask (crc.toBitVec >>> 4 ^^^ low ^^^ _),
    BitVec.ushiftRight_xor_distrib _ (byte.toBitVec.setWidth 16 >>> 4), gone, BitVec.xor_zero]

theorem toBitVec_hasherBit (crc : UInt16) :
    (hasherBit crc).toBitVec = Crc.shift 0x8408#16 crc.toBitVec := by
  have low : crc &&& 1 ≠ 0 ↔ crc.toBitVec.getLsbD 0 = true := by
    rw [Ne, ← UInt16.toBitVec_inj, UInt16.toBitVec_and]
    have bit : crc.toBitVec &&& UInt16.toBitVec 1 =
        (BitVec.ofBool (crc.toBitVec.getLsbD 0)).setWidth 16 :=
      BitVec.and_one_eq_setWidth_ofBool_getLsbD
    rw [bit]
    cases crc.toBitVec.getLsbD 0 <;> decide
  rw [hasherBit, Crc.shift]
  simp only [low]
  split <;> rfl

theorem toBitVec_hasherTable (index : UInt8) :
    (hasherTable index).toBitVec = (Crc.shift 0x8408#16)^[8] (index.toBitVec.setWidth 16) := by
  have steps : ∀ (count : Nat) (crc : UInt16),
      (hasherBit^[count] crc).toBitVec = (Crc.shift 0x8408#16)^[count] crc.toBitVec := by
    intro count
    induction count with
    | zero => exact fun _ => rfl
    | succ count ih =>
      intro crc
      rw [Function.iterate_succ_apply, Function.iterate_succ_apply, ih, toBitVec_hasherBit]
  rw [hasherTable, steps, UInt8.toBitVec_toUInt16]

theorem toBitVec_crc16HasherByte (seed : UInt16) (byte : UInt8) :
    (crc16HasherByte seed byte).toBitVec = Crc.bits 0x8408#16 seed.toBitVec (byteBits byte) := by
  have index : ((seed &&& 0xFF) ^^^ byte.toUInt16).toUInt8.toBitVec.setWidth 16 =
      (seed.toBitVec ^^^ byte.toBitVec.setWidth 16) &&& 0xFF#16 := by
    apply BitVec.eq_of_getLsbD_eq
    intro i inside
    rw [UInt16.toBitVec_toUInt8, UInt16.toBitVec_xor, UInt16.toBitVec_and,
      UInt8.toBitVec_toUInt16, BitVec.getLsbD_and, getLsbD_byte_mask i inside]
    have mask : (UInt16.toBitVec 0xFF).getLsbD i = decide (i < 8) := getLsbD_byte_mask i inside
    simp only [BitVec.getLsbD_setWidth, BitVec.getLsbD_xor, BitVec.getLsbD_and, mask, inside,
      decide_true, Bool.true_and]
    by_cases low : i < 8
    · simp only [low, decide_true, Bool.true_and, Bool.and_true]
    · simp only [low, decide_false, Bool.false_and, Bool.and_false]
  have moved : seed.toBitVec >>> 8 =
      (seed.toBitVec ^^^ byte.toBitVec.setWidth 16) >>> 8 := by
    rw [BitVec.ushiftRight_xor_distrib, byte_shifted_out, BitVec.xor_zero]
  rw [serial_byte, Crc.shift_iterate_mask _ getLsbD_byte_mask, ← moved, ← index,
    ← toBitVec_hasherTable, BitVec.xor_comm]
  rfl

/-! ### Whole messages -/

/-- A byte step that is eight bit steps takes a message as the serial register does. -/
theorem foldl_eq_serialCrc {step : UInt16 → UInt8 → UInt16}
    (serial : ∀ crc byte,
      (step crc byte).toBitVec = Crc.bits 0x8408#16 crc.toBitVec (byteBits byte))
    (start : UInt16) (data : List UInt8) : data.foldl step start = serialCrc start data := by
  induction data generalizing start with
  | nil => rfl
  | cons byte rest ih =>
    rw [List.foldl_cons, ih, serialCrc, serialCrc, serial, List.flatMap_cons, Crc.bits_append]

/-- Multiplication and table are one register update, and both checksums the serial code: the
SSP one from 0x6363 as it stands, the key-hash one from 0xFFFF complemented. -/
theorem checksums_are_serial :
    (∀ data, crc16Ssp data = littleEndian (serialCrc 0x6363 data)) ∧
    (∀ data, crc16Hasher data = littleEndian (~~~ serialCrc 0xFFFF data)) ∧
    (∀ register byte, crc16SspByte register byte = crc16HasherByte register byte) ∧
    (∀ register nibble : UInt16, ((register ^^^ nibble) &&& 0x0F).toNat * 4225 < 2 ^ 16) := by
  refine ⟨?_, ?_, ?_, ?_⟩
  · intro data
    rw [crc16Ssp, foldl_eq_serialCrc toBitVec_crc16SspByte]
  · intro data
    have complement : serialCrc 0xFFFF data ^^^ 0xFFFF = ~~~ serialCrc 0xFFFF data :=
      UInt16.xor_neg_one
    rw [crc16Hasher, foldl_eq_serialCrc toBitVec_crc16HasherByte, complement]
  · intro register byte
    apply UInt16.toBitVec_inj.mp
    rw [toBitVec_crc16SspByte, toBitVec_crc16HasherByte]
  · intro register nibble
    have below : ((register ^^^ nibble) &&& 0x0F).toNat ≤ 15 := by
      rw [UInt16.toNat_and]
      exact Nat.and_le_right
    omega

/-! ### Damaged frames -/

theorem getLsbD_lowByte (v : UInt16) {i : Nat} (below : i < 8) :
    (v &&& 0xFF).toUInt8.toBitVec.getLsbD i = v.toBitVec.getLsbD i := by
  have mask : (UInt16.toBitVec 0xFF).getLsbD i = decide (i < 8) := getLsbD_byte_mask i (by omega)
  rw [UInt16.toBitVec_toUInt8, BitVec.getLsbD_setWidth, UInt16.toBitVec_and, BitVec.getLsbD_and,
    mask]
  simp only [below, decide_true, Bool.true_and, Bool.and_true]

theorem pack_littleEndian (crc : UInt16) :
    Crc.pack ((littleEndian crc).flatMap byteBits) = crc.toBitVec := by
  have high : ∀ i < 8, ((crc >>> 8) &&& 0xFF).toUInt8.toBitVec.getLsbD i =
      crc.toBitVec.getLsbD (8 + i) := by
    intro i below
    have moved : (crc >>> 8).toBitVec = crc.toBitVec >>> 8 := rfl
    rw [getLsbD_lowByte _ below, moved, BitVec.getLsbD_ushiftRight]
  apply BitVec.eq_of_getLsbD_eq
  intro i inside
  rw [Crc.getLsbD_pack, littleEndian, List.flatMap_cons, List.flatMap_cons, List.flatMap_nil,
    List.append_nil]
  by_cases first : i < 8
  · rw [List.getD_append _ _ _ _ (by rwa [length_byteBits]), getD_byteBits,
      getLsbD_lowByte crc first]
    simp only [inside, decide_true, Bool.true_and]
  · have split : 8 + (i - 8) = i := by omega
    rw [List.getD_append_right _ _ _ _ (by rw [length_byteBits]; omega), getD_byteBits,
      length_byteBits, high (i - 8) (by omega), split]
    simp only [inside, decide_true, Bool.true_and]

/-- A frame leaves the register clear exactly when its last two bytes are the checksum of the
bytes before them. -/
theorem residue_iff (data tail : List UInt8) (short : tail.length = 2) :
    Crc.bits 0x8408#16 (UInt16.toBitVec 0x6363) ((data ++ tail).flatMap byteBits) = 0#16 ↔
      tail = crc16Ssp data := by
  have width : (tail.flatMap byteBits).length = 16 := by
    rw [length_flatMap_byteBits, short]
  rw [List.flatMap_append, Crc.bits_append, Crc.bits_eq_zero (by decide) width]
  have register : Crc.bits 0x8408#16 (UInt16.toBitVec 0x6363) (data.flatMap byteBits) =
      (Crc.pack ((crc16Ssp data).flatMap byteBits) : BitVec 16) := by
    rw [crc16Ssp, foldl_eq_serialCrc toBitVec_crc16SspByte, pack_littleEndian, serialCrc]
  rw [register]
  constructor
  · intro packed
    apply flatMap_byteBits_injective
    apply Crc.pack_injective _ (Nat.le_of_eq width) packed
    rw [length_flatMap_byteBits, length_flatMap_byteBits, short, length_crc16Ssp]
  · rintro rfl
    rfl

/-- Two frames of one length that differ, but only within two adjacent bytes. -/
structure Burst (sent received : List UInt8) : Prop where
  length : received.length = sent.length
  differ : received ≠ sent
  adjacent : ∃ i, ∀ j, j ≠ i → j ≠ i + 1 → received[j]? = sent[j]?

/-- A burst replaces at most two bytes between a common front and a common back. -/
theorem Burst.split {sent received : List UInt8} (burst : Burst sent received) :
    ∃ front mid mid' back, sent = front ++ mid ++ back ∧ received = front ++ mid' ++ back ∧
      mid.length = mid'.length ∧ mid.length ≤ 2 ∧ mid ≠ mid' := by
  obtain ⟨length, differ, i, elsewhere⟩ := burst
  have front : received.take i = sent.take i := by
    apply List.ext_getElem?
    intro j
    by_cases before : j < i
    · rw [List.getElem?_take_of_lt before, List.getElem?_take_of_lt before]
      exact elsewhere j (by omega) (by omega)
    · rw [List.getElem?_take_eq_none (by omega), List.getElem?_take_eq_none (by omega)]
  have back : received.drop (i + 2) = sent.drop (i + 2) := by
    apply List.ext_getElem?
    intro j
    rw [List.getElem?_drop, List.getElem?_drop]
    exact elsewhere _ (by omega) (by omega)
  have cut : ∀ frame : List UInt8,
      frame = frame.take i ++ (frame.drop i).take 2 ++ frame.drop (i + 2) := by
    intro frame
    rw [List.append_assoc, ← List.drop_drop, List.take_append_drop, List.take_append_drop]
  refine ⟨sent.take i, (sent.drop i).take 2, (received.drop i).take 2, sent.drop (i + 2),
    cut sent, ?_, ?_, ?_, ?_⟩
  · rw [← front, ← back]
    exact cut received
  · simp only [List.length_take, List.length_drop, length]
  · exact List.length_take_le _ _
  · intro equal
    apply differ
    rw [cut received, front, back, ← equal, ← cut sent]

/-- A frame damaged within two adjacent bytes does not carry the checksum of its data. -/
theorem Burst.checksum_differs {data frame : List UInt8}
    (burst : Burst (data ++ crc16Ssp data) frame) :
    frame.drop (frame.length - 2) ≠ crc16Ssp (frame.take (frame.length - 2)) := by
  intro passes
  obtain ⟨front, mid, mid', back, sent, received, same, fits, differ⟩ := burst.split
  have long : 2 ≤ frame.length := by
    rw [burst.length, List.length_append, length_crc16Ssp]
    exact Nat.le_add_left 2 _
  -- both frames leave the register clear, the sent one and the one that passes
  have sentClear := (residue_iff data _ (length_crc16Ssp data)).mpr rfl
  have frameClear := (residue_iff (frame.take (frame.length - 2)) (frame.drop (frame.length - 2))
    (by rw [List.length_drop]; omega)).mpr passes
  rw [List.take_append_drop] at frameClear
  have counts : (mid.flatMap byteBits).length = (mid'.flatMap byteBits).length := by
    rw [length_flatMap_byteBits, length_flatMap_byteBits, same]
  have width : (mid.flatMap byteBits).length ≤ 16 := by
    rw [length_flatMap_byteBits]
    omega
  have bits : mid.flatMap byteBits ≠ mid'.flatMap byteBits :=
    fun equal => differ (flatMap_byteBits_injective equal)
  apply @Crc.burst_detected 16 0x8408#16 (by decide) _ _ counts width bits
    (UInt16.toBitVec 0x6363) (front.flatMap byteBits) (back.flatMap byteBits)
  rw [← List.flatMap_append, ← List.flatMap_append, ← List.flatMap_append, ← List.flatMap_append,
    ← sent, ← received, sentClear, frameClear]

/-- A body that decrypts to some padding of a frame is long enough to be decrypted. -/
theorem decrypted_long (aes : BlockCipher) {key iv : Block} {body padded frame : List UInt8}
    (decrypts : decryptAesCbc aes key iv body = .ok padded)
    (unpads : removePadding padded = .ok frame) : 16 ≤ body.length ∧ 16 ∣ body.length := by
  rw [decryptAesCbc] at decrypts
  split at decrypts
  next aligned =>
    refine ⟨?_, aligned⟩
    by_contra short
    have none : body.length = 0 := by omega
    rw [List.length_eq_zero_iff.mp none] at decrypts
    cases decrypts
    cases unpads
  next => cases decrypts

/-- The SSP checksum detects every burst: the damaged frame does not end in its checksum, and a
packet that carries it is answered `invalidCrc`. -/
theorem burst_is_detected {data frame : List UInt8}
    (burst : Burst (data ++ crc16Ssp data) frame) :
    frame.drop (frame.length - 2) ≠ crc16Ssp (frame.take (frame.length - 2)) ∧
    ∀ (aes : BlockCipher) (s : SecureProtocolManager) (body padded : List UInt8),
      decryptAesCbc aes s.currentEncryptionKey s.iv body = .ok padded →
      removePadding padded = .ok frame → (s.decryptPayload aes body).2 = .error .invalidCrc := by
  refine ⟨burst.checksum_differs, ?_⟩
  intro aes s body padded decrypts unpads
  have long : ¬frame.length < 2 := by
    rw [burst.length, List.length_append, length_crc16Ssp]
    omega
  obtain ⟨whole, aligned⟩ := decrypted_long aes decrypts unpads
  have accepted : ¬(body.length < 16 ∨ ¬16 ∣ body.length) := by
    omega
  rw [SecureProtocolManager.decryptPayload, if_neg accepted, decrypts]
  simp only [unpads, if_neg long]
  rw [if_pos burst.checksum_differs]

/-- A version reply whose last data byte and first checksum byte were damaged together. -/
theorem burst_is_detected_straddling :
    (SecureProtocolManager.decryptPayload aes128
      (.withRandom (Block.replicate 0) ⟨fun _ => Block.replicate 0, 0⟩)
      (encryptAesCbc aes128 (Block.replicate 0) (Block.replicate 0)
        (applyPadding [0x04, 0x01, 0x80, 0x00, 0xdf]) (applyPadding_aligned _))).2 =
      .error .invalidCrc := by
  have burst : Burst ([0x04, 0x01, 0x00] ++ crc16Ssp [0x04, 0x01, 0x00])
      [0x04, 0x01, 0x80, 0x00, 0xdf] := by
    have sent : crc16Ssp [0x04, 0x01, 0x00] = [0xad, 0xdf] := by decide
    rw [sent]
    refine ⟨rfl, by decide, 2, ?_⟩
    intro j notThird notFourth
    have bounded : ∀ j < 5, j ≠ 2 → j ≠ 2 + 1 →
        [0x04, 0x01, 0x80, 0x00, 0xdf][j]? =
          ([0x04, 0x01, 0x00] ++ [0xad, (0xdf : UInt8)])[j]? := by
      decide
    by_cases inside : j < 5
    · exact bounded j inside notThird notFourth
    · rw [List.getElem?_eq_none (Nat.le_of_not_lt inside),
        List.getElem?_eq_none (Nat.le_of_not_lt inside)]
  exact (burst_is_detected burst).2 aes128 _ _ _
    (decryptAesCbc_encryptAesCbc _ _ _ _ _) (removePadding_applyPadding _)

end Mkey
