import Mathlib

/-!
# Cyclic codes, bit by bit

A reflected cyclic code: the register gives up its low bit at every shift, and
a set one feeds the polynomial back. Shifting is linear, so a message of at
most a register's width acts on the register as one word.
-/
namespace Mkey.Crc

variable {w : Nat} (poly : BitVec w)

/-- The low bit leaves; a set one feeds the polynomial back. -/
def shift (r : BitVec w) : BitVec w := if r.getLsbD 0 then (r >>> 1) ^^^ poly else r >>> 1

/-- A message bit meets the register at its low end. -/
def bit (r : BitVec w) (b : Bool) : BitVec w := shift poly (r ^^^ (BitVec.ofBool b).setWidth w)

/-- The register after a message, first bit first. -/
def bits (r : BitVec w) (message : List Bool) : BitVec w := message.foldl (bit poly) r

/-- A message of at most a register's width as a word, first bit lowest. -/
def pack (message : List Bool) : BitVec w := (BitVec.ofBoolListLE message).setWidth w

theorem getLsbD_pack (message : List Bool) (i : Nat) :
    (pack message : BitVec w).getLsbD i = (decide (i < w) && message.getD i false) := by
  rw [pack, BitVec.getLsbD_setWidth, BitVec.getLsbD_ofBoolListLE]

@[simp] theorem pack_nil : (pack [] : BitVec w) = 0#w := by
  apply BitVec.eq_of_getLsbD_eq
  intro i _
  simp [getLsbD_pack]

/-- The first bit stands alone below the rest. -/
theorem pack_cons (b : Bool) (rest : List Bool) :
    (pack (b :: rest) : BitVec w) = (BitVec.ofBool b).setWidth w ^^^ (pack rest <<< 1) := by
  apply BitVec.eq_of_getLsbD_eq
  intro i inside
  simp only [getLsbD_pack, BitVec.getLsbD_xor, BitVec.getLsbD_setWidth, BitVec.getLsbD_ofBool,
    BitVec.getLsbD_shiftLeft, inside, decide_true, Bool.true_and]
  cases i with
  | zero => simp
  | succ i =>
    have below : i < w := Nat.lt_of_succ_lt inside
    simp [below]

theorem pack_injective {left right : List Bool} (same : left.length = right.length)
    (fits : left.length ≤ w) (packed : (pack left : BitVec w) = pack right) : left = right := by
  apply List.ext_getElem same
  intro i inLeft inRight
  have inside : i < w := Nat.lt_of_lt_of_le inLeft fits
  have bit := congrArg (fun word : BitVec w => word.getLsbD i) packed
  simp only [getLsbD_pack, inside, decide_true, Bool.true_and,
    List.getD_eq_getElem _ _ inLeft, List.getD_eq_getElem _ _ inRight] at bit
  exact bit

theorem bits_append (r : BitVec w) (front back : List Bool) :
    bits poly r (front ++ back) = bits poly (bits poly r front) back :=
  List.foldl_append

/-! ### Shifting -/

theorem shift_xor (a b : BitVec w) : shift poly (a ^^^ b) = shift poly a ^^^ shift poly b := by
  simp only [shift, BitVec.getLsbD_xor, BitVec.ushiftRight_xor_distrib]
  cases a.getLsbD 0 <;> cases b.getLsbD 0
  · simp
  · simp [BitVec.xor_assoc]
  · simp [BitVec.xor_assoc, BitVec.xor_comm poly]
  · -- two polynomials fed back cancel
    simp only [Bool.bne_true, Bool.not_true, Bool.false_eq_true, if_false, if_true]
    rw [BitVec.xor_assoc, ← BitVec.xor_assoc poly, BitVec.xor_comm poly, BitVec.xor_assoc,
      BitVec.xor_self, BitVec.xor_zero]

theorem shift_iterate_xor (count : Nat) (a b : BitVec w) :
    (shift poly)^[count] (a ^^^ b) = (shift poly)^[count] a ^^^ (shift poly)^[count] b := by
  induction count generalizing a b with
  | zero => rfl
  | succ count ih =>
    rw [Function.iterate_succ_apply, Function.iterate_succ_apply, Function.iterate_succ_apply,
      shift_xor, ih]

/-- While clear bits leave, nothing is fed back. -/
theorem shift_iterate_clear {count : Nat} {r : BitVec w}
    (clear : ∀ i < count, r.getLsbD i = false) : (shift poly)^[count] r = r >>> count := by
  induction count generalizing r with
  | zero => simp
  | succ count ih =>
    have first : shift poly r = r >>> 1 := by
      rw [shift, clear 0 (by omega), if_neg (by decide)]
    rw [Function.iterate_succ_apply, first, ih, ← BitVec.shiftRight_add, Nat.add_comm]
    intro i below
    rw [BitVec.getLsbD_ushiftRight]
    exact clear (1 + i) (by omega)

/-- The bits that leave decide what is fed back; the others only move down. -/
theorem shift_iterate_mask {count : Nat} {mask : BitVec w}
    (low : ∀ i < w, mask.getLsbD i = decide (i < count)) (r : BitVec w) :
    (shift poly)^[count] r = (r >>> count) ^^^ (shift poly)^[count] (r &&& mask) := by
  have split : r = (r ^^^ (r &&& mask)) ^^^ (r &&& mask) := by
    rw [BitVec.xor_assoc, BitVec.xor_self, BitVec.xor_zero]
  have gone : (r &&& mask) >>> count = 0#w := by
    apply BitVec.eq_of_getLsbD_eq
    intro i _
    simp only [BitVec.getLsbD_ushiftRight, BitVec.getLsbD_and, BitVec.getLsbD_zero]
    by_cases inside : count + i < w
    · simp [low _ inside]
    · simp [BitVec.getLsbD_of_ge _ _ (Nat.le_of_not_lt inside)]
  conv_lhs => rw [split]
  rw [shift_iterate_xor, shift_iterate_clear, BitVec.ushiftRight_xor_distrib, gone,
    BitVec.xor_zero]
  intro i below
  by_cases inside : i < w
  · simp [low i inside, below]
  · exact BitVec.getLsbD_of_ge _ _ (Nat.le_of_not_lt inside)

/-- A message no wider than the register acts as one word. -/
theorem bits_eq_shift {message : List Bool} (fits : message.length ≤ w) (r : BitVec w) :
    bits poly r message = (shift poly)^[message.length] (r ^^^ pack message) := by
  induction message generalizing r with
  | nil => simp [bits]
  | cons b rest ih =>
    -- the bits behind the first one wait above it and reach the low end one shift later
    have waits : shift poly (pack rest <<< 1) = pack rest := by
      have clear : shift poly (pack rest <<< 1) = (pack rest <<< 1) >>> 1 := by
        rw [shift, if_neg]
        simp
      rw [clear]
      apply BitVec.eq_of_getLsbD_eq
      intro i inside
      rw [BitVec.getLsbD_ushiftRight, BitVec.getLsbD_shiftLeft, Nat.add_sub_cancel_left,
        getLsbD_pack]
      by_cases top : 1 + i < w
      · simp [top]
      · have beyond : rest.length ≤ i := by
          simp only [List.length_cons] at fits
          omega
        simp [top, List.getElem?_eq_none beyond]
    calc bits poly r (b :: rest)
        = bits poly (bit poly r b) rest := rfl
      _ = (shift poly)^[rest.length] (bit poly r b ^^^ pack rest) :=
        ih (Nat.le_of_succ_le fits) _
      _ = (shift poly)^[rest.length] (shift poly (r ^^^ pack (b :: rest))) := by
        rw [pack_cons, ← BitVec.xor_assoc, shift_xor, waits, bit]
      _ = (shift poly)^[(b :: rest).length] (r ^^^ pack (b :: rest)) := by
        rw [List.length_cons, Function.iterate_succ_apply]

/-! ### Bursts

A polynomial with its top bit set loses no register, so messages that differ
within a register's width leave different registers.
-/

section Burst

variable {poly} (top : poly.getLsbD (w - 1) = true)

include top

theorem shift_eq_zero {r : BitVec w} (zero : shift poly r = 0#w) : r = 0#w := by
  have vanish : ∀ i, (shift poly r).getLsbD i = false := by
    intro i
    rw [zero, BitVec.getLsbD_zero]
  have low : r.getLsbD 0 = false := by
    by_contra set
    have fed := vanish (w - 1)
    rw [shift, if_pos (by simpa using set), BitVec.getLsbD_xor, top,
      BitVec.getLsbD_ushiftRight, BitVec.getLsbD_of_ge _ _ (by omega)] at fed
    cases fed
  apply BitVec.eq_of_getLsbD_eq
  intro i _
  cases i with
  | zero => rw [low, BitVec.getLsbD_zero]
  | succ i =>
    have above := vanish i
    rw [shift, low, if_neg (by decide), BitVec.getLsbD_ushiftRight, Nat.add_comm] at above
    rw [above, BitVec.getLsbD_zero]

theorem shift_injective : Function.Injective (shift poly) := by
  intro a b same
  apply BitVec.xor_eq_zero_iff.mp
  apply shift_eq_zero top
  rw [shift_xor, same, BitVec.xor_self]

theorem bits_injective (message : List Bool) : Function.Injective (bits poly · message) := by
  induction message with
  | nil => exact fun _ _ same => same
  | cons b rest ih =>
    intro r s same
    exact (BitVec.xor_left_inj _).mp (shift_injective top (ih same))

/-- Messages that differ only within a register's width leave different registers. -/
theorem burst_detected {mid mid' : List Bool} (same : mid.length = mid'.length)
    (fits : mid.length ≤ w) (differ : mid ≠ mid') (r : BitVec w) (front back : List Bool) :
    bits poly r (front ++ mid ++ back) ≠ bits poly r (front ++ mid' ++ back) := by
  intro equal
  rw [bits_append, bits_append, bits_append, bits_append] at equal
  have burst := bits_injective top back equal
  have fits' : mid'.length ≤ w := same.ge.trans fits
  simp only [bits_eq_shift poly fits, bits_eq_shift poly fits'] at burst
  rw [← same] at burst
  have words := (BitVec.xor_right_inj _).mp ((shift_injective top).iterate _ burst)
  exact differ (pack_injective same fits words)

/-- A register's width of message clears the register exactly when it spells it. -/
theorem bits_eq_zero {message : List Bool} (width : message.length = w) (r : BitVec w) :
    bits poly r message = 0#w ↔ pack message = r := by
  have fixed : (shift poly)^[w] 0#w = 0#w := by
    apply Function.iterate_fixed
    simp [shift]
  rw [bits_eq_shift poly (Nat.le_of_eq width), width]
  constructor
  · intro cleared
    have zero := (shift_injective top).iterate w (cleared.trans fixed.symm)
    exact (BitVec.xor_eq_zero_iff.mp zero).symm
  · rintro rfl
    rw [BitVec.xor_self, fixed]

end Burst

end Mkey.Crc
