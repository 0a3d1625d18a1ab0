import Mkey.Core.Base62
import Mkey.Lib.Guarded

/-!
# The primitives with their checks

The functions of the primitives once more, with every index, slice, copy and
multiplication as the source writes it. None of them is ever out of place: each
returns what the unguarded function does. Functions of the source without such an
operation are used as they are, and sums of the lengths of buffers at hand, which
stay within an address, are not guarded.
-/
namespace Mkey.Checked

open Guarded

/-! ### AES-CBC -/

section Aes

variable (aes : BlockCipher)

/-- The cipher refuses a length that is no multiple of the block. -/
def encryptAesCbc (key iv : Block) (plaintext : List UInt8) : Guarded (List UInt8) := do
  let filled ← copyFromSlice (buffer plaintext.length 0) plaintext
  expect (if aligned : 16 ∣ filled.toList.length then
    some (Mkey.encryptAesCbc aes key iv filled.toList aligned) else none)

def decryptAesCbc (key iv : Block) (ciphertext : List UInt8) :
    Guarded (Except Error (List UInt8)) := do
  let filled ← copyFromSlice (buffer ciphertext.length 0) ciphertext
  return Mkey.decryptAesCbc aes key iv filled.toList

theorem encryptAesCbc_eq (key iv : Block) {plaintext : List UInt8}
    (aligned : 16 ∣ plaintext.length) :
    encryptAesCbc aes key iv plaintext = .ok (Mkey.encryptAesCbc aes key iv plaintext aligned) := by
  rw [encryptAesCbc, copyFromSlice_of_length _ rfl, ok_bind]
  dsimp only
  rw [dif_pos aligned]
  rfl

theorem decryptAesCbc_eq (key iv : Block) (ciphertext : List UInt8) :
    decryptAesCbc aes key iv ciphertext = .ok (Mkey.decryptAesCbc aes key iv ciphertext) := by
  rw [decryptAesCbc, copyFromSlice_of_length _ rfl]
  rfl

end Aes

/-! ### Padding -/

/-- The walk back over trailing zeros, from a length on. -/
def withoutZeros (data : List UInt8) : Nat → Guarded Nat
  | 0 => return 0
  | len + 1 => do
      if (← index data (← sub (len + 1) 1)) = 0x00 then withoutZeros data len else return len + 1

def removePadding (data : List UInt8) : Guarded (Except Error (List UInt8)) := do
  let len ← withoutZeros data data.length
  if len > 0 then
    if (← index data (← sub len 1)) = 0x80 then
      let len ← sub len 1
      return .ok (← sliceTo data len)
    else return .error .invalidPadding
  else return .error .invalidPadding

/-- The walk ends where walking the reversed bytes ends. -/
theorem withoutZeros_eq {data : List UInt8} {len : Nat} (inside : len ≤ data.length) :
    ∃ kept ≤ len, withoutZeros data len = .ok kept ∧
      (data.take len).reverse.dropWhile (· == 0x00) = (data.take kept).reverse := by
  induction len with
  | zero => exact ⟨0, le_rfl, rfl, rfl⟩
  | succ len ih =>
    have here : len < data.length := by omega
    have last : (data.take (len + 1)).reverse = data[len] :: (data.take len).reverse := by
      rw [List.take_succ_eq_append_getElem here, List.reverse_append]
      rfl
    rw [withoutZeros, sub_of_le (by omega), ok_bind, Nat.add_sub_cancel, index_of_lt here, ok_bind,
      last, List.dropWhile_cons]
    split
    next zero =>
      obtain ⟨kept, bound, walked, rest⟩ := ih (by omega)
      exact ⟨kept, by omega, walked, by simpa [zero] using rest⟩
    next other => exact ⟨len + 1, le_rfl, rfl, by simp [other, last]⟩

theorem removePadding_eq (data : List UInt8) :
    removePadding data = .ok (Mkey.removePadding data) := by
  obtain ⟨kept, bound, walked, rest⟩ := @withoutZeros_eq data data.length le_rfl
  rw [List.take_length] at rest
  rw [removePadding, walked, ok_bind, Mkey.removePadding, rest]
  cases kept with
  | zero => rfl
  | succ kept =>
    have last : (data.take (kept + 1)).reverse = data[kept] :: (data.take kept).reverse := by
      rw [List.take_succ_eq_append_getElem bound, List.reverse_append]
      rfl
    rw [if_pos (Nat.succ_pos kept), sub_of_le (by omega), ok_bind, Nat.add_sub_cancel,
      index_of_lt bound, ok_bind, last]
    dsimp only
    split
    · rw [ok_bind, sliceTo_of_le (by omega), List.reverse_reverse]
      rfl
    · rfl

/-! ### Checksums -/

def crc16SspNibble (crc nibble : UInt16) : Guarded UInt16 := do
  let product ← mulU16 ((crc ^^^ nibble) &&& 0x0F) 4225
  return (crc >>> 4) ^^^ product

def crc16SspByte (crc : UInt16) (byte : UInt8) : Guarded UInt16 := do
  let temp ← crc16SspNibble crc byte.toUInt16
  crc16SspNibble temp (byte >>> 4).toUInt16

def crc16Ssp (data : List UInt8) : Guarded (List UInt8) := do
  return littleEndian (← data.foldlM crc16SspByte 0x6363)

/-- The table the hasher looks up in. -/
def hasherEntries : List UInt16 := (List.range 256).map fun i => hasherBit^[8] i.toUInt16

def crc16HasherByte (seed : UInt16) (byte : UInt8) : Guarded UInt16 := do
  let entry ← index hasherEntries ((seed &&& 0xFF) ^^^ byte.toUInt16).toNat
  return entry ^^^ (seed >>> 8)

def crc16Hasher (data : List UInt8) : Guarded (List UInt8) := do
  let seed ← data.foldlM crc16HasherByte 0xFFFF
  return littleEndian (seed ^^^ 0xFFFF)

/-- A fold whose steps all return, returns. -/
theorem foldlM_eq {α β : Type} {step : α → β → Guarded α} {pure_ : α → β → α}
    (returns : ∀ a b, step a b = .ok (pure_ a b)) (bs : List β) (a : α) :
    bs.foldlM step a = .ok (bs.foldl pure_ a) := by
  induction bs generalizing a with
  | nil => rfl
  | cons b bs ih => rw [List.foldlM_cons, returns, ok_bind, ih, List.foldl_cons]

/-- A nibble times 4225 fits into sixteen bits. -/
theorem crc16SspNibble_eq (crc nibble : UInt16) :
    crc16SspNibble crc nibble = .ok (Mkey.crc16SspNibble crc nibble) := by
  have small : ((crc ^^^ nibble) &&& 0x0F).toNat ≤ 15 := by
    rw [UInt16.toNat_and]
    exact Nat.and_le_right
  have fits : ((crc ^^^ nibble) &&& 0x0F).toNat * (4225 : UInt16).toNat < 2 ^ 16 := by
    simp only [UInt16.reduceToNat]
    omega
  rw [crc16SspNibble, mulU16, if_pos fits]
  rfl

theorem crc16Ssp_eq (data : List UInt8) : crc16Ssp data = .ok (Mkey.crc16Ssp data) := by
  have returns (crc : UInt16) (byte : UInt8) :
      crc16SspByte crc byte = .ok (Mkey.crc16SspByte crc byte) := by
    rw [crc16SspByte, crc16SspNibble_eq, ok_bind, crc16SspNibble_eq]
    rfl
  rw [crc16Ssp, foldlM_eq returns]
  rfl

theorem crc16HasherByte_eq (seed : UInt16) (byte : UInt8) :
    crc16HasherByte seed byte = .ok (Mkey.crc16HasherByte seed byte) := by
  have small : ((seed &&& 0xFF) ^^^ byte.toUInt16).toNat < 256 := by
    rw [UInt16.toNat_xor, UInt16.toNat_and]
    exact Nat.xor_lt_two_pow (n := 8) (Nat.lt_of_le_of_lt Nat.and_le_right (by decide))
      (by simpa using byte.toNat_lt)
  have inside : ((seed &&& 0xFF) ^^^ byte.toUInt16).toNat < hasherEntries.length := by
    simpa [hasherEntries] using small
  have same : ((seed &&& 0xFF) ^^^ byte.toUInt16).toUInt8.toUInt16 =
      (seed &&& 0xFF) ^^^ byte.toUInt16 := by
    rw [← UInt16.toNat_inj, UInt8.toNat_toUInt16, UInt16.toNat_toUInt8]
    exact Nat.mod_eq_of_lt small
  have entry : hasherEntries[((seed &&& 0xFF) ^^^ byte.toUInt16).toNat] =
      hasherTable ((seed &&& 0xFF) ^^^ byte.toUInt16).toUInt8 := by
    rw [hasherTable, same]
    simp [hasherEntries]
  rw [crc16HasherByte, index_of_lt inside, entry]
  rfl

theorem crc16Hasher_eq (data : List UInt8) : crc16Hasher data = .ok (Mkey.crc16Hasher data) := by
  rw [crc16Hasher, foldlM_eq crc16HasherByte_eq]
  rfl

/-! ### Rotation and key derivation -/

def rotateRight (data : List UInt8) : Guarded (List UInt8) := do
  if data.isEmpty then return []
  let last ← expect data.getLast?
  let rest ← sliceTo data (← sub data.length 1)
  return last :: rest

def deriveSessionKey (randomA randomB : Block) : Guarded Block := do
  let key ← copyInto (buffer 16 0) 0 4 (← slice randomA.toList 0 4)
  let key ← copyInto key 4 8 (← slice randomB.toList 0 4)
  let key ← copyInto key 8 12 (← slice randomA.toList 12 16)
  copyInto key 12 16 (← slice randomB.toList 12 16)

theorem rotateRight_eq (data : List UInt8) : rotateRight data = .ok (Mkey.rotateRight data) := by
  rw [rotateRight, Mkey.rotateRight]
  rcases List.eq_nil_or_concat' data with rfl | ⟨front, last, rfl⟩
  · rfl
  · have size : (front ++ [last]).length - 1 = front.length := by simp
    have some_ : (front ++ [last]).getLast? = some last := by simp
    rw [if_neg (by simp), some_, expect_some, ok_bind, sub_of_le (by simp), ok_bind, size,
      sliceTo_of_le (by simp), List.take_left, List.dropLast_concat]
    rfl

theorem deriveSessionKey_eq (randomA randomB : Block) :
    deriveSessionKey randomA randomB = .ok (Mkey.deriveSessionKey randomA randomB) := by
  have sliced (b : Block) {start stop : Nat} (ordered : start ≤ stop) (inside : stop ≤ 16) :
      slice b.toList start stop = .ok ((b.toList.take stop).drop start) :=
    slice_of_le ordered (by rwa [b.length_toList])
  obtain ⟨one, copied, filled⟩ := @copyInto_filled _ _ (buffer 16 (0 : UInt8)) []
    (randomA.toList.take 4) 0 4 0 rfl rfl (by simp) (by decide)
  obtain ⟨two, copied₂, filled⟩ := @copyInto_filled _ _ one _ (randomB.toList.take 4) 4 8 0 filled
    (by simp) (by simp) (by decide)
  obtain ⟨three, copied₃, filled⟩ := @copyInto_filled _ _ two _ (randomA.toList.drop 12) 8 12 0
    filled (by simp) (by simp) (by decide)
  obtain ⟨four, copied₄, filled⟩ := @copyInto_filled _ _ three _ (randomB.toList.drop 12) 12 16 0
    filled (by simp) (by simp) (by decide)
  have whole (b : Block) : b.toList.take 16 = b.toList := List.take_of_length_le (by simp)
  rw [deriveSessionKey, sliced _ (by decide) (by decide), sliced _ (by decide) (by decide),
    sliced _ (by decide) (by decide), sliced _ (by decide) (by decide), List.drop_zero,
    List.drop_zero, whole, whole, ok_bind, copied, ok_bind, ok_bind, copied₂, ok_bind, ok_bind,
    copied₃, ok_bind, ok_bind, copied₄, Except.ok.injEq]
  apply Chunk.ext
  rw [filled]
  simp [Mkey.deriveSessionKey]

/-! ### Base62 and the key identifier -/

def asciiByte (c : Char) : UInt8 := c.toNat.toUInt8

/-- `BASE62_CHARS` -/
def base62Bytes : List UInt8 := base62Chars.map asciiByte

/-- The start moves on over leading zeros. -/
def skipZeros : List UInt8 → Guarded (List UInt8)
  | [] => return []
  | byte :: rest => do
      if (← index (byte :: rest) 0) = 0 then skipZeros rest else return byte :: rest

theorem skipZeros_eq (value : List UInt8) : skipZeros value = .ok (value.dropWhile (· == 0)) := by
  induction value with
  | nil => rfl
  | cons byte rest ih =>
    rw [skipZeros, index_of_lt (by simp), ok_bind, List.dropWhile_cons, ih]
    simp only [List.getElem_cons_zero, beq_iff_eq]
    split <;> rfl

/-- The division of what is left of the buffer, digit by digit. -/
def encodeBase62Loop (value digits : List UInt8) : Guarded (List UInt8) :=
  if value = [] then .ok digits
  else
    let division := divideBy62 0 value
    match index base62Bytes division.2.toNat with
    | .error panic => .error panic
    | .ok digit =>
      match _ : skipZeros division.1 with
      | .error panic => .error panic
      | .ok rest => encodeBase62Loop rest (digit :: digits)
termination_by Ber.bigEndian value + value.length
decreasing_by
  rename_i nonempty skipped
  rw [skipZeros_eq] at skipped
  cases skipped
  exact quotient_decreases nonempty

def encodeBase62 (data : List UInt8) : Guarded String := do
  if data.isEmpty then return ""
  if data.all (· == 0) then return String.ofList (List.replicate (data.length + 1) '0')
  let digits ← encodeBase62Loop data []
  expect (String.fromUTF8? digits.toByteArray)

def computeKeyIdentifier (keyId : List UInt8) : Guarded String := do
  let hash ← crc16Hasher keyId
  let input ← copyInto (buffer 10 0) 0 8 (← slice keyId 0 8)
  let input ← store input 8 (← index hash 0)
  let input ← store input 9 (← index hash (← sub hash.length 1))
  encodeBase62 input.toList

theorem base62Char_ascii (remainder : UInt16) : (base62Char remainder).toNat < 128 := by
  have all : base62Chars.all (fun c => decide (c.toNat < 128)) = true := by decide +kernel
  rw [base62Char, List.getD_eq_getElem?_getD]
  cases found : base62Chars[remainder.toNat]? with
  | none => decide
  | some c => exact of_decide_eq_true (List.all_eq_true.mp all c (List.mem_of_getElem? found))

/-- A remainder is in the alphabet. -/
theorem index_base62Bytes {remainder : UInt16} (small : remainder.toNat < 62) :
    index base62Bytes remainder.toNat = .ok (asciiByte (base62Char remainder)) := by
  have size : base62Chars.length = 62 := by decide
  have inside : remainder.toNat < base62Chars.length := by rwa [size]
  rw [index_eq_ok, base62Bytes, List.getElem?_map, List.getElem?_eq_getElem inside, base62Char,
    List.getD_eq_getElem _ _ inside]
  rfl

theorem encodeBase62Loop_eq (value : List UInt8) (digits : List Char) :
    encodeBase62Loop value (digits.map asciiByte) =
      .ok ((Mkey.encodeBase62Loop value digits).map asciiByte) := by
  induction value, digits using Mkey.encodeBase62Loop.induct with
  | case1 digits =>
    rw [encodeBase62Loop, Mkey.encodeBase62Loop, if_pos rfl, if_pos rfl]
  | case2 value digits nonempty division ih =>
    have small := (divideBy62_spec 0 value (by decide)).2.1
    rw [encodeBase62Loop, Mkey.encodeBase62Loop, if_neg nonempty, if_neg nonempty]
    dsimp only
    rw [index_base62Bytes small]
    dsimp only
    split
    next panic stopped =>
      rw [skipZeros_eq] at stopped
      cases stopped
    next rest skipped =>
      rw [skipZeros_eq] at skipped
      cases skipped
      exact ih

theorem encodeBase62Loop_ascii (value : List UInt8) (digits : List Char)
    (ascii : ∀ c ∈ digits, c.toNat < 128) :
    ∀ c ∈ Mkey.encodeBase62Loop value digits, c.toNat < 128 := by
  induction value, digits using Mkey.encodeBase62Loop.induct with
  | case1 digits =>
    rw [Mkey.encodeBase62Loop, if_pos rfl]
    exact ascii
  | case2 value digits nonempty division ih =>
    rw [Mkey.encodeBase62Loop, if_neg nonempty]
    apply ih
    intro c member
    rcases List.mem_cons.mp member with rfl | earlier
    · exact base62Char_ascii _
    · exact ascii c earlier

/-- ASCII bytes are a string. -/
theorem fromUTF8_ascii {chars : List Char} (ascii : ∀ c ∈ chars, c.toNat < 128) :
    String.fromUTF8? (chars.map asciiByte).toByteArray = some (String.ofList chars) := by
  have encoded : chars.map asciiByte = chars.flatMap String.utf8EncodeChar := by
    induction chars with
    | nil => rfl
    | cons c rest ih =>
      have small : c.toNat ≤ 127 := Nat.le_of_lt_succ (ascii c List.mem_cons_self)
      rw [List.map_cons, List.flatMap_cons,
        ih fun d member => ascii d (List.mem_cons_of_mem c member),
        String.utf8EncodeChar_eq_singleton (Char.utf8Size_eq_one_iff.mpr small)]
      rfl
  have bytes : (chars.map asciiByte).toByteArray = chars.utf8Encode := by
    rw [encoded]
    rfl
  rw [bytes, String.fromUTF8?, dif_pos ByteArray.isValidUTF8_utf8Encode]
  rfl

theorem encodeBase62_eq (data : List UInt8) :
    encodeBase62 data = .ok (Mkey.encodeBase62 data) := by
  have ascii := encodeBase62Loop_ascii data [] (by simp)
  have loop := encodeBase62Loop_eq data []
  rw [encodeBase62, Mkey.encodeBase62]
  simp only [List.isEmpty_iff]
  split_ifs with empty zeros
  · rfl
  · rfl
  · rw [List.map_nil] at loop
    rw [loop, ok_bind, fromUTF8_ascii ascii]
    rfl

theorem computeKeyIdentifier_eq {keyId : List UInt8} (long : 8 ≤ keyId.length) :
    computeKeyIdentifier keyId = .ok (Mkey.computeKeyIdentifier keyId) := by
  have hash := length_crc16Hasher keyId
  obtain ⟨one, copied, filled⟩ := @copyInto_filled _ _ (buffer 10 (0 : UInt8)) []
    (keyId.take 8) 0 8 0 rfl rfl (by simpa using long) (by decide)
  obtain ⟨two, stored, filled⟩ := @store_filled _ _ one _ 8 0 filled (by simpa using long)
    (by decide) (Mkey.crc16Hasher keyId)[0]
  obtain ⟨three, stored₂, filled⟩ := @store_filled _ _ two _ 9 0 filled (by simpa using long)
    (by decide) (Mkey.crc16Hasher keyId)[1]
  rw [computeKeyIdentifier, crc16Hasher_eq, ok_bind, slice_of_le (by decide) long, ok_bind,
    List.drop_zero, copied, ok_bind, index_of_lt (by rw [hash]; decide), ok_bind, stored, ok_bind,
    sub_of_le (by rw [hash]; decide)]
  simp only [hash]
  rw [ok_bind, index_of_lt (by rw [hash]; decide), ok_bind, stored₂, ok_bind, encodeBase62_eq,
    Mkey.computeKeyIdentifier, filled]
  simp [Mkey.crc16Hasher, littleEndian]

end Mkey.Checked
