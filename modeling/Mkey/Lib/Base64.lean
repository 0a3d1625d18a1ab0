import Mathlib

/-!
# Base 64

The standard alphabet with padding, in which every list of bytes has one
spelling: three bytes are four digits, and a text is read only when it is the
spelling of what it says.
-/
namespace Mkey.Base64

def alphabet : List Char :=
  "ABCDEFGHIJKLMNOPQRSTUVWXYZabcdefghijklmnopqrstuvwxyz0123456789+/".toList

def digit (n : Nat) : Char := alphabet.getD n 'A'

def value (c : Char) : Option Nat := alphabet.findIdx? (· = c)

/-- Six bits a digit, from the top; the last digit before the padding is filled up with zeros. -/
def encode : List UInt8 → List Char
  | [] => []
  | [a] => [digit (a.toNat / 4), digit (a.toNat % 4 * 16), '=', '=']
  | [a, b] =>
      [digit (a.toNat / 4), digit (a.toNat % 4 * 16 + b.toNat / 16), digit (b.toNat % 16 * 4), '=']
  | a :: b :: c :: rest =>
      digit (a.toNat / 4) :: digit (a.toNat % 4 * 16 + b.toNat / 16) ::
        digit (b.toNat % 16 * 4 + c.toNat / 64) :: digit (c.toNat % 64) :: encode rest

/-- The one byte of a last group with two digits. -/
def decodeOne (p q : Char) : Option (List UInt8) := do
  let u ← value p
  let v ← value q
  if v % 16 = 0 then some [UInt8.ofNat (u * 4 + v / 16)] else none

/-- The two bytes of a last group with three digits. -/
def decodeTwo (p q r : Char) : Option (List UInt8) := do
  let u ← value p
  let v ← value q
  let w ← value r
  if w % 4 = 0 then
    some [UInt8.ofNat (u * 4 + v / 16), UInt8.ofNat (v % 16 * 16 + w / 4)]
  else none

/-- The three bytes of a full group. -/
def decodeThree (p q r s : Char) : Option (List UInt8) := do
  let u ← value p
  let v ← value q
  let w ← value r
  let x ← value s
  return [UInt8.ofNat (u * 4 + v / 16), UInt8.ofNat (v % 16 * 16 + w / 4),
    UInt8.ofNat (w % 4 * 64 + x)]

/-- A text is read group by group; only the last may be padded, and with zero bits only. -/
def decode : List Char → Option (List UInt8)
  | [] => some []
  | p :: q :: r :: s :: rest =>
    if s = '=' then
      if rest ≠ [] then none else if r = '=' then decodeOne p q else decodeTwo p q r
    else do
      let group ← decodeThree p q r s
      let others ← decode rest
      return group ++ others
  | _ => none

/-! ### Digits -/

theorem value_digit {n : Nat} (small : n < 64) : value (digit n) = some n := by
  have each : ∀ m : Fin 64, value (digit m.val) = some m.val := by decide +kernel
  exact each ⟨n, small⟩

theorem digit_value {c : Char} {n : Nat} (read : value c = some n) : n < 64 ∧ digit n = c := by
  obtain ⟨inside, found, _⟩ := List.findIdx?_eq_some_iff_getElem.mp read
  have size : alphabet.length = 64 := by decide
  refine ⟨size ▸ inside, ?_⟩
  rw [digit, List.getD_eq_getElem _ _ inside]
  exact of_decide_eq_true found

theorem value_padding : value '=' = none := by decide +kernel

theorem digit_ne_padding {n : Nat} (small : n < 64) : digit n ≠ '=' := by
  intro pads
  have read := value_digit small
  rw [pads, value_padding] at read
  cases read

theorem digit_mem (n : Nat) : digit n ∈ alphabet := by
  have size : alphabet.length = 64 := by decide
  rcases Nat.lt_or_ge n 64 with small | large
  · rw [digit, List.getD_eq_getElem _ _ (size ▸ small)]
    exact List.getElem_mem _
  · rw [digit, List.getD_eq_default _ _ (size ▸ large)]
    decide

/-- Nothing is written but digits and padding. -/
theorem mem_encode {bytes : List UInt8} {c : Char} (member : c ∈ encode bytes) :
    c ∈ alphabet ∨ c = '=' := by
  fun_induction encode bytes with
  | case1 => cases member
  | case2 a =>
    simp only [List.mem_cons, List.not_mem_nil, or_false] at member
    rcases member with rfl | rfl | rfl | rfl <;> simp [digit_mem]
  | case3 a b =>
    simp only [List.mem_cons, List.not_mem_nil, or_false] at member
    rcases member with rfl | rfl | rfl | rfl <;> simp [digit_mem]
  | case4 a b d rest ih =>
    simp only [List.mem_cons] at member
    rcases member with rfl | rfl | rfl | rfl | later
    · exact .inl (digit_mem _)
    · exact .inl (digit_mem _)
    · exact .inl (digit_mem _)
    · exact .inl (digit_mem _)
    · exact ih later

/-! ### Groups -/

theorem decodeOne_encode (a : UInt8) :
    decodeOne (digit (a.toNat / 4)) (digit (a.toNat % 4 * 16)) = some [a] := by
  have byte := a.toNat_lt
  have whole : a.toNat / 4 * 4 + a.toNat % 4 * 16 / 16 = a.toNat := by omega
  have filled : a.toNat % 4 * 16 % 16 = 0 := by omega
  rw [decodeOne, value_digit (by omega), value_digit (by omega)]
  simp only [Option.bind_eq_bind, Option.bind_some, filled, if_true, whole, UInt8.ofNat_toNat]

theorem decodeTwo_encode (a b : UInt8) :
    decodeTwo (digit (a.toNat / 4)) (digit (a.toNat % 4 * 16 + b.toNat / 16))
      (digit (b.toNat % 16 * 4)) = some [a, b] := by
  have byte := a.toNat_lt
  have byte' := b.toNat_lt
  have first : a.toNat / 4 * 4 + (a.toNat % 4 * 16 + b.toNat / 16) / 16 = a.toNat := by omega
  have second : (a.toNat % 4 * 16 + b.toNat / 16) % 16 * 16 + b.toNat % 16 * 4 / 4 =
      b.toNat := by omega
  have filled : b.toNat % 16 * 4 % 4 = 0 := by omega
  rw [decodeTwo, value_digit (by omega), value_digit (by omega), value_digit (by omega)]
  simp only [Option.bind_eq_bind, Option.bind_some, filled, if_true, first, second,
    UInt8.ofNat_toNat]

theorem decodeThree_encode (a b c : UInt8) :
    decodeThree (digit (a.toNat / 4)) (digit (a.toNat % 4 * 16 + b.toNat / 16))
      (digit (b.toNat % 16 * 4 + c.toNat / 64)) (digit (c.toNat % 64)) = some [a, b, c] := by
  have byte := a.toNat_lt
  have byte' := b.toNat_lt
  have byte'' := c.toNat_lt
  have first : a.toNat / 4 * 4 + (a.toNat % 4 * 16 + b.toNat / 16) / 16 = a.toNat := by omega
  have second : (a.toNat % 4 * 16 + b.toNat / 16) % 16 * 16 +
      (b.toNat % 16 * 4 + c.toNat / 64) / 4 = b.toNat := by omega
  have third : (b.toNat % 16 * 4 + c.toNat / 64) % 4 * 64 + c.toNat % 64 = c.toNat := by omega
  rw [decodeThree, value_digit (by omega), value_digit (by omega), value_digit (by omega),
    value_digit (by omega)]
  simp only [Option.bind_eq_bind, Option.bind_some, Option.pure_def, first, second, third,
    UInt8.ofNat_toNat]

/-- What is written is read back. -/
theorem decode_encode (bytes : List UInt8) : decode (encode bytes) = some bytes := by
  fun_induction encode bytes with
  | case1 => rfl
  | case2 a => simp [decode, decodeOne_encode]
  | case3 a b =>
    have byte := b.toNat_lt
    simp [decode, decodeTwo_encode, digit_ne_padding (n := b.toNat % 16 * 4) (by omega)]
  | case4 a b c rest ih =>
    have byte := c.toNat_lt
    simp [decode, decodeThree_encode, ih, digit_ne_padding (n := c.toNat % 64) (by omega)]

example : encode [0x4D, 0x61] = "TWE=".toList := by decide +kernel

theorem decodeOne_eq_some {p q : Char} {bytes : List UInt8} (read : decodeOne p q = some bytes) :
    encode bytes = [p, q, '=', '='] := by
  simp only [decodeOne, Option.bind_eq_bind, Option.bind_eq_some_iff] at read
  obtain ⟨u, first, v, second, rest⟩ := read
  obtain ⟨smallU, rfl⟩ := digit_value first
  obtain ⟨smallV, rfl⟩ := digit_value second
  split_ifs at rest with filled
  obtain rfl := Option.some.inj rest
  have high : (u * 4 + v / 16) / 4 = u := by omega
  have low : (u * 4 + v / 16) % 4 * 16 = v := by omega
  rw [encode, UInt8.toNat_ofNat_of_lt' (show _ < 256 by omega), high, low]

theorem decodeTwo_eq_some {p q r : Char} {bytes : List UInt8}
    (read : decodeTwo p q r = some bytes) : encode bytes = [p, q, r, '='] := by
  simp only [decodeTwo, Option.bind_eq_bind, Option.bind_eq_some_iff] at read
  obtain ⟨u, first, v, second, w, third, rest⟩ := read
  obtain ⟨smallU, rfl⟩ := digit_value first
  obtain ⟨smallV, rfl⟩ := digit_value second
  obtain ⟨smallW, rfl⟩ := digit_value third
  split_ifs at rest with filled
  obtain rfl := Option.some.inj rest
  have high : (u * 4 + v / 16) / 4 = u := by omega
  have middle : (u * 4 + v / 16) % 4 * 16 + (v % 16 * 16 + w / 4) / 16 = v := by omega
  have low : (v % 16 * 16 + w / 4) % 16 * 4 = w := by omega
  rw [encode, UInt8.toNat_ofNat_of_lt' (show u * 4 + v / 16 < 256 by omega),
    UInt8.toNat_ofNat_of_lt' (show v % 16 * 16 + w / 4 < 256 by omega), high, middle, low]

theorem decodeThree_eq_some {p q r s : Char} {group : List UInt8}
    (read : decodeThree p q r s = some group) (others : List UInt8) :
    encode (group ++ others) = p :: q :: r :: s :: encode others := by
  simp only [decodeThree, Option.bind_eq_bind, Option.bind_eq_some_iff, Option.pure_def] at read
  obtain ⟨u, first, v, second, w, third, x, fourth, rest⟩ := read
  obtain ⟨smallU, rfl⟩ := digit_value first
  obtain ⟨smallV, rfl⟩ := digit_value second
  obtain ⟨smallW, rfl⟩ := digit_value third
  obtain ⟨smallX, rfl⟩ := digit_value fourth
  obtain rfl := Option.some.inj rest
  have high : (u * 4 + v / 16) / 4 = u := by omega
  have middle : (u * 4 + v / 16) % 4 * 16 + (v % 16 * 16 + w / 4) / 16 = v := by omega
  have next : (v % 16 * 16 + w / 4) % 16 * 4 + (w % 4 * 64 + x) / 64 = w := by omega
  have low : (w % 4 * 64 + x) % 64 = x := by omega
  rw [List.cons_append, List.cons_append, List.cons_append, List.nil_append, encode,
    UInt8.toNat_ofNat_of_lt' (show u * 4 + v / 16 < 256 by omega),
    UInt8.toNat_ofNat_of_lt' (show v % 16 * 16 + w / 4 < 256 by omega),
    UInt8.toNat_ofNat_of_lt' (show w % 4 * 64 + x < 256 by omega), high, middle, next, low]

/-- A text that is read is the spelling of what it was read as. -/
theorem encode_of_decode {t : List Char} {bytes : List UInt8} (read : decode t = some bytes) :
    encode bytes = t := by
  fun_induction decode t generalizing bytes with
  | case1 =>
    obtain rfl := Option.some.inj read
    rfl
  | case2 => cases read
  | case3 p q rest last =>
    obtain rfl := not_not.mp last
    exact decodeOne_eq_some read
  | case4 p q r rest last =>
    obtain rfl := not_not.mp last
    exact decodeTwo_eq_some read
  | case5 p q r s rest _ ih =>
    simp only [Option.bind_eq_bind, Option.bind_eq_some_iff, Option.pure_def] at read
    obtain ⟨group, first, others, later, whole⟩ := read
    obtain rfl := Option.some.inj whole
    rw [decodeThree_eq_some first, ih later]
  | case6 => cases read

/-- A text is read as some bytes exactly when it is their spelling. -/
theorem decode_eq_some_iff (t : List Char) (bytes : List UInt8) :
    decode t = some bytes ↔ t = encode bytes := by
  constructor
  · exact fun read => (encode_of_decode read).symm
  · rintro rfl
    exact decode_encode bytes

end Mkey.Base64
