import Mkey.Core.Base62
import Mkey.Lib.Guarded

/-!
# Base62, in place

The two loops of the encoder as the source runs them: one buffer overwritten
byte by byte, a start index moving over its leading zeros, digits pushed at the
back. A shift that loses a bit, a cast that cuts one off and an index out of
the alphabet all stop the program here.
-/
namespace Mkey.InPlace

open Guarded Ber

/-- The inner loop, over the buffer from the start index on. -/
def divide (remainder : UInt16) : List UInt8 → Guarded (List UInt8 × UInt16)
  | [] => return ([], remainder)
  | byte :: rest => do
    let accumulator := (← shlU16 remainder 8) ||| byte.toUInt16
    let quotient ← narrowU8 (accumulator / 62)
    let (quotients, remainder) ← divide (accumulator % 62) rest
    return (quotient :: quotients, remainder)

/-- `while start < value.len() && value[start] == 0` -/
def skipZeros (value : List UInt8) (start : Nat) : Nat :=
  if _ : start < value.length then
    if value[start] = 0 then skipZeros value (start + 1) else start
  else start
termination_by value.length - start

theorem divide_eq {remainder : UInt16} (small : remainder.toNat < 62) (bytes : List UInt8) :
    divide remainder bytes = .ok (divideBy62 remainder bytes) := by
  induction bytes generalizing remainder with
  | nil => rfl
  | cons byte rest ih =>
    have dividend := accumulate_toNat remainder byte small
    have below := byte.toNat_lt
    have next : (accumulate remainder byte % 62).toNat < 62 := by
      rw [UInt16.toNat_mod]
      exact Nat.mod_lt _ (by decide)
    have kept : shlU16 remainder 8 = .ok (remainder <<< 8) := by
      rw [shlU16, if_pos (by omega)]
      rfl
    have fits : narrowU8 (accumulate remainder byte / 62) =
        .ok (accumulate remainder byte / 62).toUInt8 := by
      rw [narrowU8, if_pos]
      rw [UInt16.toNat_div, dividend]
      change _ / 62 < _
      omega
    rw [divide, kept, ok_bind]
    change (narrowU8 (accumulate remainder byte / 62) >>= _) = _
    rw [fits, ok_bind]
    change (divide (accumulate remainder byte % 62) rest >>= _) = _
    rw [ih next, ok_bind]
    rfl

theorem drop_skipZeros (value : List UInt8) (start : Nat) :
    value.drop (skipZeros value start) = (value.drop start).dropWhile (· == 0) := by
  fun_induction skipZeros value start with
  | case1 start inside zero ih =>
    rw [ih, List.drop_eq_getElem_cons inside, List.dropWhile_cons_of_pos (by simpa using zero)]
  | case2 start inside nonzero =>
    rw [List.drop_eq_getElem_cons inside, List.dropWhile_cons_of_neg (by simpa using nonzero)]
  | case3 start outside =>
    rw [List.drop_eq_nil_of_le (Nat.le_of_not_lt outside), List.dropWhile_nil]

/-- What the next pass reads of a buffer: the quotients without their leading zeros. -/
theorem drop_quotients {value : List UInt8} {start : Nat} (inside : start < value.length)
    (quotients : List UInt8) :
    (value.take start ++ quotients).drop (skipZeros (value.take start ++ quotients) start) =
      quotients.dropWhile (· == 0) := by
  have taken : (value.take start).length = start := by
    rw [List.length_take]
    omega
  rw [drop_skipZeros, List.drop_append_of_le_length taken.ge, List.drop_of_length_le taken.le,
    List.nil_append]

/-- The outer loop: a pass over the buffer, a digit, and on past the leading zeros. -/
def encodeLoop (value : List UInt8) (start : Nat) (digits : List Char) : Guarded (List Char) :=
  if _ : start < value.length then
    match _ : divide 0 (value.drop start) with
    | .error panic => .error panic
    | .ok (quotients, remainder) =>
      match index base62Chars remainder.toNat with
      | .error panic => .error panic
      | .ok digit =>
        let buffer := value.take start ++ quotients
        encodeLoop buffer (skipZeros buffer start) (digits ++ [digit])
  else .ok digits
termination_by bigEndian (value.drop start) + (value.drop start).length
decreasing_by
  rename_i inside divided
  rw [divide_eq (by decide)] at divided
  have quotients := congrArg Prod.fst (Except.ok.inj divided)
  simp only at quotients
  rw [drop_quotients inside, ← quotients]
  apply quotient_decreases
  rw [Ne, List.drop_eq_nil_iff]
  omega

def encodeBase62 (data : List UInt8) : Guarded String := do
  if data.isEmpty then return ""
  if data.all (· == 0) then return String.ofList (List.replicate (data.length + 1) '0')
  let digits ← encodeLoop data 0 []
  return String.ofList digits.reverse

theorem index_base62Chars {remainder : UInt16} (small : remainder.toNat < 62) :
    index base62Chars remainder.toNat = .ok (base62Char remainder) := by
  have inside : remainder.toNat < base62Chars.length := small
  rw [index_of_lt inside, base62Char, List.getD_eq_getElem _ _ inside]

/-- A pass over the buffer leaves the quotients and a remainder that has a digit. -/
theorem divided_eq {bytes quotients : List UInt8} {remainder : UInt16}
    (divided : divide 0 bytes = .ok (quotients, remainder)) :
    quotients = (divideBy62 0 bytes).1 ∧ remainder = (divideBy62 0 bytes).2 ∧
      index base62Chars remainder.toNat = .ok (base62Char remainder) := by
  rw [divide_eq (by decide)] at divided
  obtain ⟨_, small, _⟩ := divideBy62_spec 0 bytes (by decide)
  rw [Except.ok.inj divided] at small ⊢
  exact ⟨rfl, rfl, index_base62Chars small⟩

/-- The digits pushed are the encoder's, last one first. -/
theorem encodeLoop_eq (value : List UInt8) (start : Nat) (digits : List Char) :
    encodeLoop value start digits =
      .ok (encodeBase62Loop (value.drop start) digits.reverse).reverse := by
  fun_induction encodeLoop value start digits with
  | case1 value start digits inside panic stopped =>
    rw [divide_eq (by decide)] at stopped
    cases stopped
  | case2 value start digits inside quotients remainder divided panic stopped =>
    rw [(divided_eq divided).2.2] at stopped
    cases stopped
  | case3 value start digits inside quotients remainder divided digit found buffer ih =>
    obtain ⟨quotientsEq, remainderEq, indexed⟩ := divided_eq divided
    obtain rfl := Except.ok.inj (indexed.symm.trans found)
    have more : value.drop start ≠ [] := by
      rw [Ne, List.drop_eq_nil_iff]
      omega
    rw [ih, drop_quotients inside, encodeBase62Loop.eq_def (value.drop start), if_neg more,
      List.reverse_append, List.reverse_singleton, List.singleton_append, quotientsEq, remainderEq]
  | case4 value start digits outside =>
    rw [List.drop_eq_nil_of_le (Nat.le_of_not_lt outside), encodeBase62Loop, if_pos rfl,
      List.reverse_reverse]

/-- The source's loops lose no bit, and give the encoder's text. -/
theorem encodeBase62_eq (data : List UInt8) : encodeBase62 data = .ok (Mkey.encodeBase62 data) := by
  rw [encodeBase62, Mkey.encodeBase62]
  by_cases empty : data = []
  · rw [if_pos empty, empty]
    rfl
  · rw [if_neg empty, if_neg (by simpa using empty)]
    by_cases zeros : data.all (· == 0) = true
    · rw [if_pos zeros, if_pos zeros]
      rfl
    · rw [if_neg zeros, if_neg zeros]
      rw [encodeLoop_eq, ok_bind, List.reverse_reverse]
      rfl

end Mkey.InPlace
