import Mkey.Core.Justin
import Mkey.Checked.Base62

/-!
# Store identifiers

A key is looked up in the store under a base62 numeral of its id and checksum.
The numeral is the number of the bytes, exactly, so inputs of one length never
share a numeral and no key is found under another one's identifier.
-/
namespace Mkey

open Ber (bigEndian bigEndian_dropZeros dropZeros_of_zero bigEndian_ne_zero bigEndian_injective)

/-- The number a numeral spells, most significant digit first. -/
def base62Value (digits : List Char) : Nat :=
  digits.foldl (fun n c => 62 * n + base62Chars.idxOf c) 0

theorem base62Value_concat (front : List Char) (digit : Char) :
    base62Value (front ++ [digit]) = 62 * base62Value front + base62Chars.idxOf digit := by
  rw [base62Value, List.foldl_append]
  rfl

/-- Every remainder has a digit of its own in the alphabet. -/
theorem base62Char_spec {remainder : UInt16} (small : remainder.toNat < 62) :
    base62Char remainder ∈ base62Chars ∧
      base62Chars.idxOf (base62Char remainder) = remainder.toNat := by
  have all : ∀ i < 62, base62Chars.getD i '0' ∈ base62Chars ∧
      base62Chars.idxOf (base62Chars.getD i '0') = i := by
    decide +kernel
  exact all _ small

/-- What the encoder puts in front of the digits it has already: a numeral of what is left. -/
structure Numeral (value : List UInt8) (digits : List Char) : Prop where
  alphabet : ∀ c ∈ digits, c ∈ base62Chars
  spells : base62Value digits = bigEndian value
  leading : digits.head? ≠ some '0'

/-- One more digit behind the numeral of the quotient. -/
theorem Numeral.concat {value quotient : List UInt8} {digits : List Char} {remainder : UInt16}
    (small : remainder.toNat < 62) (nonzero : bigEndian value ≠ 0)
    (dividend : bigEndian value = bigEndian quotient * 62 + remainder.toNat)
    (front : Numeral quotient digits) : Numeral value (digits ++ [base62Char remainder]) := by
  obtain ⟨known, position⟩ := base62Char_spec small
  constructor
  · intro c member
    rcases List.mem_append.mp member with earlier | last
    · exact front.alphabet c earlier
    · rw [List.mem_singleton.mp last]
      exact known
  · rw [base62Value_concat, front.spells, position, dividend, Nat.mul_comm]
  · intro zero
    cases digits with
    | nil =>
      -- the only digit is the number itself, which is not zero
      have none : bigEndian quotient = 0 := front.spells.symm
      rw [Option.some.inj zero] at position
      have first : base62Chars.idxOf '0' = 0 := rfl
      omega
    | cons c rest => exact front.leading zero

/-- The encoder's loop, on a buffer that is not zero unless it is empty. -/
theorem encodeBase62Loop_spec (value : List UInt8) (digits : List Char)
    (nonzero : value ≠ [] → bigEndian value ≠ 0) :
    ∃ emitted, encodeBase62Loop value digits = emitted ++ digits ∧ Numeral value emitted := by
  induction value, digits using encodeBase62Loop.induct with
  | case1 digits =>
    refine ⟨[], ?_, ?_, rfl, ?_⟩
    · rw [encodeBase62Loop, if_pos rfl, List.nil_append]
    · simp
    · simp
  | case2 value digits nonempty division ih =>
    obtain ⟨_, small, dividend⟩ := divideBy62_spec 0 value (by decide)
    rw [← bigEndian_dropZeros (divideBy62 0 value).1] at dividend
    obtain ⟨emitted, later, front⟩ := ih (by
      intro more zero
      rw [bigEndian_dropZeros] at zero
      exact more (dropZeros_of_zero _ zero))
    refine ⟨emitted ++ [base62Char (divideBy62 0 value).2], ?_, ?_⟩
    · rw [encodeBase62Loop, if_neg nonempty, later, List.append_assoc, List.singleton_append]
    · apply front.concat small (nonzero nonempty)
      rw [← dividend, UInt16.toNat_zero, Nat.zero_mul, Nat.zero_add]

/-- The text of an input that is not all zeros is the numeral of its number. -/
theorem encodeBase62_numeral {data : List UInt8} (some : ∃ byte ∈ data, byte ≠ 0) :
    Numeral data (encodeBase62 data).toList := by
  obtain ⟨byte, member, nonzero⟩ := some
  have nonempty : data ≠ [] := List.ne_nil_of_mem member
  have mixed : ¬data.all (· == 0) = true := by
    intro zeros
    exact nonzero (by simpa using List.all_eq_true.mp zeros byte member)
  obtain ⟨emitted, text, numeral⟩ := encodeBase62Loop_spec data []
    fun _ => bigEndian_ne_zero ⟨byte, member, nonzero⟩
  rw [encodeBase62, if_neg nonempty, if_neg mixed, text, List.append_nil, String.toList_ofList]
  exact numeral

theorem numeral_of_mixed {data : List UInt8} (mixed : ¬∀ byte ∈ data, byte = 0) :
    Numeral data (encodeBase62 data).toList := by
  simp only [not_forall] at mixed
  obtain ⟨byte, member, nonzero⟩ := mixed
  exact encodeBase62_numeral ⟨byte, member, nonzero⟩

theorem encodeBase62_zeros {data : List UInt8} (nonempty : data ≠ [])
    (zeros : ∀ byte ∈ data, byte = 0) :
    encodeBase62 data = String.ofList (List.replicate (data.length + 1) '0') := by
  have all : data.all (· == 0) = true := by
    rw [List.all_eq_true]
    intro byte member
    rw [zeros byte member]
    rfl
  rw [encodeBase62, if_neg nonempty, if_pos all]

/-- Base62 is long division. The loops in place lose no bit and give the encoder's text; it is
the numeral of a number that is not zero, one `0` more than an all-zero input has bytes, and
empty for the empty input. -/
theorem encodeBase62_is_long_division (data : List UInt8) :
    InPlace.encodeBase62 data = .ok (encodeBase62 data) ∧
    ((∃ byte ∈ data, byte ≠ 0) →
      (∀ c ∈ (encodeBase62 data).toList, c ∈ base62Chars) ∧
      base62Value (encodeBase62 data).toList = bigEndian data ∧
      (encodeBase62 data).toList.head? ≠ some '0') ∧
    (0 < data.length → (∀ byte ∈ data, byte = 0) →
      encodeBase62 data = String.ofList (List.replicate (data.length + 1) '0')) ∧
    (data = [] → encodeBase62 data = "") := by
  refine ⟨InPlace.encodeBase62_eq data, ?_, ?_, ?_⟩
  · intro some
    obtain ⟨alphabet, spells, leading⟩ := encodeBase62_numeral some
    exact ⟨alphabet, spells, leading⟩
  · intro long zeros
    exact encodeBase62_zeros (List.length_pos_iff.mp long) zeros
  · rintro rfl
    rfl

/-! ### No two keys under one identifier -/

/-- An encoding starts with `0` exactly for an input of zeros. -/
theorem encodeBase62_head {data : List UInt8} (nonempty : data ≠ []) :
    (encodeBase62 data).toList.head? = some '0' ↔ ∀ byte ∈ data, byte = 0 := by
  constructor
  · intro zero
    by_contra mixed
    exact (numeral_of_mixed mixed).leading zero
  · intro zeros
    rw [encodeBase62_zeros nonempty zeros, String.toList_ofList]
    rfl

/-- On inputs of one length the encoding is injective: two numerals of one number have the same
bytes, and the text of the zeros starts with a digit no numeral starts with. -/
theorem encodeBase62_injective {left right : List UInt8} (same : left.length = right.length)
    (equal : encodeBase62 left = encodeBase62 right) : left = right := by
  by_cases empty : left = []
  · subst empty
    exact (List.length_eq_zero_iff.mp same.symm).symm
  · have nonempty : right ≠ [] := by
      rintro rfl
      exact empty (List.length_eq_zero_iff.mp same)
    have heads := encodeBase62_head empty
    rw [equal, encodeBase62_head nonempty] at heads
    by_cases zeros : ∀ byte ∈ left, byte = 0
    · rw [List.eq_replicate_of_mem zeros, List.eq_replicate_of_mem (heads.mpr zeros), same]
    · have zeros' : ¬∀ byte ∈ right, byte = 0 := fun all => zeros (heads.mp all)
      apply bigEndian_injective same
      rw [← (numeral_of_mixed zeros).spells, equal, (numeral_of_mixed zeros').spells]

/-- The identifier keeps the id: the checksum only follows it. -/
theorem computeKeyIdentifier_injective {left right : List UInt8} (eight : left.length = 8)
    (eight' : right.length = 8) (equal : computeKeyIdentifier left = computeKeyIdentifier right) :
    left = right := by
  rw [computeKeyIdentifier, computeKeyIdentifier] at equal
  have whole := encodeBase62_injective (by simp [eight, eight']) equal
  have front := (List.append_inj whole (by simp [eight, eight'])).1
  rwa [List.take_of_length_le eight.le, List.take_of_length_le eight'.le] at front

/-- An accepted OPEN connects the key the store holds under the identifier of the id. -/
theorem handleOpen_success {S : Type} [MobileKeyStore S] {j : JustinProtocolManager S}
    {payload : List UInt8} (opened : (j.handleOpen payload).2 = [CommandStatus.success.toByte]) :
    8 ≤ payload.length ∧ ∃ key, (j.handleOpen payload).1.currentKey = some key ∧
      MobileKeyStore.getKey j.keyStore (computeKeyIdentifier (payload.take 8)) = some key := by
  rw [JustinProtocolManager.handleOpen] at opened ⊢
  split_ifs at opened ⊢ with connected short
  · cases opened
  · cases opened
  · refine ⟨Nat.le_of_not_lt short, ?_⟩
    dsimp only at opened ⊢
    cases found : MobileKeyStore.getKey j.keyStore (computeKeyIdentifier (payload.take 8)) with
    | none =>
      rw [found] at opened
      cases opened
    | some key => exact ⟨key, rfl, rfl⟩

/-- Distinct eight-byte ids have distinct identifiers, so a store that files keys under the
identifiers of their own ids never opens one key for another's id. -/
theorem key_identifiers_do_not_collide :
    (∀ left right : List UInt8, left.length = 8 → right.length = 8 → left ≠ right →
      computeKeyIdentifier left ≠ computeKeyIdentifier right) ∧
    ∀ (S : Type) [MobileKeyStore S] (j : JustinProtocolManager S) (payload : List UInt8)
      (owns : List UInt8 → MobileKey → Prop),
      (∀ identifier key, MobileKeyStore.getKey j.keyStore identifier = some key →
        ∃ keyId, keyId.length = 8 ∧ computeKeyIdentifier keyId = identifier ∧ owns keyId key) →
      (j.handleOpen payload).2 = [CommandStatus.success.toByte] →
      ∃ key, (j.handleOpen payload).1.currentKey = some key ∧ owns (payload.take 8) key := by
  constructor
  · intro left right eight eight' differ equal
    exact differ (computeKeyIdentifier_injective eight eight' equal)
  · intro S _ j payload owns filed opened
    obtain ⟨long, key, current, found⟩ := handleOpen_success opened
    obtain ⟨keyId, eight, identifier, owner⟩ := filed _ key found
    have asked : keyId = payload.take 8 :=
      computeKeyIdentifier_injective eight (List.length_take_of_le long) identifier
    rw [asked] at owner
    exact ⟨key, current, owner⟩

end Mkey
