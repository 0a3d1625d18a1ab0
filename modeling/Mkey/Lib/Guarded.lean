import Mkey.Lib.Chunks
import Mkey.Lib.Machine

/-!
# Operations with a domain

An operation used out of its domain stops the program. A guarded computation
says so, and a program is safe when it returns.
-/
namespace Mkey

/-- What a program can stop at. -/
inductive Panic where
  | outOfBounds
  | badRange
  | lengthMismatch
  | overflow
  | unwrapped
  | unreachable
  | exhausted
  deriving DecidableEq

/-- A computation that returns or stops. -/
abbrev Guarded (α : Type) := Except Panic α

namespace Guarded

variable {α β : Type} {n : Nat}

instance decidableEqResult [DecidableEq α] : DecidableEq (Guarded α)
  | .ok a, .ok b => decidable_of_iff (a = b) (by simp)
  | .error a, .error b => decidable_of_iff (a = b) (by simp)
  | .ok _, .error _ => isFalse (by simp)
  | .error _, .ok _ => isFalse (by simp)

/-- The element at an index. -/
def index (xs : List α) (i : Nat) : Guarded α :=
  match xs[i]? with
  | some x => .ok x
  | none => .error .outOfBounds

/-- The elements before an index. -/
def sliceTo (xs : List α) (stop : Nat) : Guarded (List α) :=
  if stop ≤ xs.length then .ok (xs.take stop) else .error .badRange

/-- The elements from an index on. -/
def sliceFrom (xs : List α) (start : Nat) : Guarded (List α) :=
  if start ≤ xs.length then .ok (xs.drop start) else .error .badRange

/-- The elements from one index to another. -/
def slice (xs : List α) (start stop : Nat) : Guarded (List α) :=
  if start ≤ stop ∧ stop ≤ xs.length then .ok ((xs.take stop).drop start) else .error .badRange

/-- The value that is there. -/
def expect : Option α → Guarded α
  | some a => .ok a
  | none => .error .unwrapped

/-- A buffer of one value. -/
def buffer (n : Nat) (a : α) : Chunk α n := ⟨List.replicate n a, List.length_replicate⟩

/-- A buffer filled from a slice of its own length. -/
def copyFromSlice (_ : Chunk α n) (source : List α) : Guarded (Chunk α n) :=
  if same : source.length = n then .ok ⟨source, same⟩ else .error .lengthMismatch

/-- A part of a buffer filled from a slice of the part's length. -/
def copyInto (buffer : Chunk α n) (start stop : Nat) (source : List α) : Guarded (Chunk α n) :=
  if part : start ≤ stop ∧ stop ≤ n then
    if same : source.length = stop - start then
      .ok ⟨buffer.toList.take start ++ source ++ buffer.toList.drop stop, by simp; omega⟩
    else .error .lengthMismatch
  else .error .badRange

/-- One element of a buffer overwritten. -/
def store (buffer : Chunk α n) (i : Nat) (a : α) : Guarded (Chunk α n) :=
  if i < n then .ok ⟨buffer.toList.set i a, by simp⟩ else .error .outOfBounds

/-! Arithmetic that must not leave its type. -/

def sub (a b : Nat) : Guarded Nat := if b ≤ a then .ok (a - b) else .error .overflow

def mulU16 (a b : UInt16) : Guarded UInt16 :=
  if a.toNat * b.toNat < 2 ^ 16 then .ok (a * b) else .error .overflow

/-- A shift that loses no bit. -/
def shlU16 (a : UInt16) (n : Nat) : Guarded UInt16 :=
  if a.toNat * 2 ^ n < 2 ^ 16 then .ok (a <<< UInt16.ofNat n) else .error .overflow

/-- A cast that cuts nothing off. -/
def narrowU8 (a : UInt16) : Guarded UInt8 :=
  if a.toNat < 2 ^ 8 then .ok a.toUInt8 else .error .overflow

def incrU32 (a : UInt32) : Guarded UInt32 :=
  if a.toNat + 1 < 2 ^ 32 then .ok (a + 1) else .error .overflow

/-- Reads some elements in a row as a pattern; the first that differs ends it. -/
def readsAs [DecidableEq α] (xs : List α) : Nat → List α → Guarded Bool
  | _, [] => .ok true
  | i, p :: rest => do
      if (← index xs i) = p then readsAs xs (i + 1) rest else return false

/-! ### When they return -/

@[simp] theorem ok_bind (a : α) (f : α → Guarded β) : ((Except.ok a : Guarded α) >>= f) = f a := rfl

@[simp] theorem error_bind (p : Panic) (f : α → Guarded β) :
    ((Except.error p : Guarded α) >>= f) = .error p := rfl

@[simp] theorem pure_eq_ok (a : α) : (pure a : Guarded α) = .ok a := rfl

@[simp] theorem expect_some (a : α) : expect (some a) = .ok a := rfl

theorem bind_eq_ok {m : Guarded α} {f : α → Guarded β} {b : β} :
    (m >>= f) = .ok b ↔ ∃ a, m = .ok a ∧ f a = .ok b := by
  cases m with
  | ok a => simp
  | error p => simp

theorem index_eq_ok {xs : List α} {i : Nat} {x : α} : index xs i = .ok x ↔ xs[i]? = some x := by
  rw [index]
  cases xs[i]? <;> simp

theorem index_of_lt {xs : List α} {i : Nat} (inside : i < xs.length) : index xs i = .ok xs[i] :=
  index_eq_ok.mpr (List.getElem?_eq_getElem inside)

theorem sliceTo_of_le {xs : List α} {stop : Nat} (inside : stop ≤ xs.length) :
    sliceTo xs stop = .ok (xs.take stop) := if_pos inside

theorem sliceFrom_of_le {xs : List α} {start : Nat} (inside : start ≤ xs.length) :
    sliceFrom xs start = .ok (xs.drop start) := if_pos inside

theorem slice_of_le {xs : List α} {start stop : Nat} (ordered : start ≤ stop)
    (inside : stop ≤ xs.length) : slice xs start stop = .ok ((xs.take stop).drop start) :=
  if_pos ⟨ordered, inside⟩

theorem sub_of_le {a b : Nat} (less : b ≤ a) : sub a b = .ok (a - b) := if_pos less

theorem incrU32_of_lt {a : UInt32} (fits : a.toNat + 1 < 2 ^ 32) : incrU32 a = .ok (a + 1) :=
  if_pos fits

theorem copyFromSlice_of_length (buffer : Chunk α n) {source : List α}
    (same : source.length = n) : copyFromSlice buffer source = .ok ⟨source, same⟩ := dif_pos same

theorem copyFromSlice_toList (buffer source : Chunk α n) :
    copyFromSlice buffer source.toList = .ok source := dif_pos source.length_toList

/-- A buffer filled up to a place is filled further from there. -/
theorem copyInto_filled {buffer : Chunk α n} {front source : List α} {start stop : Nat} {a : α}
    (filled : buffer.toList = front ++ List.replicate (n - start) a) (at_ : front.length = start)
    (part : start + source.length = stop) (inside : stop ≤ n) :
    ∃ next, copyInto buffer start stop source = .ok next ∧
      next.toList = front ++ source ++ List.replicate (n - stop) a := by
  have same : source.length = stop - start := by omega
  have rest : buffer.toList.drop stop = List.replicate (n - stop) a := by
    rw [filled, List.drop_append, List.drop_of_length_le (by omega), List.nil_append,
      List.drop_replicate, at_]
    congr 1
    omega
  refine ⟨_, by rw [copyInto, dif_pos ⟨by omega, inside⟩, dif_pos same], ?_⟩
  dsimp only
  rw [rest, filled, ← at_, List.take_left]

theorem store_filled {buffer : Chunk α n} {front : List α} {i : Nat} {a : α}
    (filled : buffer.toList = front ++ List.replicate (n - i) a) (at_ : front.length = i)
    (inside : i < n) (x : α) :
    ∃ next, store buffer i x = .ok next ∧
      next.toList = front ++ [x] ++ List.replicate (n - (i + 1)) a := by
  refine ⟨_, by rw [store, if_pos inside], ?_⟩
  dsimp only
  have more : n - i = n - (i + 1) + 1 := by omega
  rw [filled, more, List.replicate_succ, ← at_, List.set_append_right _ _ le_rfl, Nat.sub_self,
    List.set_cons_zero, List.append_assoc]
  rfl

theorem readsAs_of_le [DecidableEq α] {xs : List α} {i : Nat} {pattern : List α}
    (inside : i + pattern.length ≤ xs.length) :
    readsAs xs i pattern = .ok (decide (pattern <+: xs.drop i)) := by
  induction pattern generalizing i with
  | nil => simp [readsAs]
  | cons p rest ih =>
    simp only [List.length_cons] at inside
    have here : i < xs.length := by omega
    rw [readsAs, index_of_lt here, ok_bind, List.drop_eq_getElem_cons here]
    split
    next same => rw [ih (by omega), same]; simp
    next different =>
      have starts : ¬p :: rest <+: xs[i] :: xs.drop (i + 1) := by
        rw [List.cons_prefix_cons]
        exact fun both => different both.1.symm
      simp only [starts, decide_false, pure_eq_ok]

/-! ### Runs -/

section Runs

open Machine

variable {σ ι ο : Type}

/-- The run of a machine that may stop: its last state and its answers. -/
def runs (step : σ → ι → Guarded (σ × ο)) : σ → List ι → Guarded (σ × List ο)
  | s, [] => return (s, [])
  | s, i :: rest => do
      let (next, output) ← step s i
      let (last, later) ← runs step next rest
      return (last, output :: later)

/-- A machine that returns what another answers, wherever the other gets, never stops. -/
theorem runs_eq {guarded : σ → ι → Guarded (σ × ο)} {step : σ → ι → σ × ο} {s : σ}
    {inputs : List ι}
    (returns : ∀ front i back, inputs = front ++ i :: back →
      guarded (run step s front) i = .ok (step (run step s front) i)) :
    runs guarded s inputs = .ok (run step s inputs, outputs step s inputs) := by
  induction inputs generalizing s with
  | nil => rfl
  | cons i rest ih =>
    have first := returns [] i rest rfl
    have later := @ih (step s i).1 fun front j back split =>
      returns (i :: front) j back (by rw [split]; rfl)
    rw [runs, show guarded s i = .ok (step s i) from first, ok_bind]
    dsimp only
    rw [later]
    rfl

end Runs

end Guarded

end Mkey
