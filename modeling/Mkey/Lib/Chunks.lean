import Mathlib

/-! Lists of one fixed length, and cutting longer lists into them. -/
namespace Mkey

/-- A list that carries the proof of its length. -/
@[ext]
structure Chunk (α : Type) (n : Nat) where
  toList : List α
  length_toList : toList.length = n
  deriving DecidableEq

namespace Chunk

variable {α : Type} {n : Nat}

attribute [simp] length_toList

def zipWith (f : α → α → α) (a b : Chunk α n) : Chunk α n :=
  ⟨List.zipWith f a.toList b.toList, by simp⟩

/-- Combining twice with the same chunk cancels as soon as it does entry by entry. -/
theorem zipWith_cancel {f : α → α → α} (cancel : ∀ x y, f (f x y) y = x) (a b : Chunk α n) :
    zipWith f (zipWith f a b) b = a := by
  apply Chunk.ext
  apply List.ext_getElem
  · simp
  · intro i _ _
    simp [zipWith, cancel]

/-- The first `count` chunks of a list, as far as they are complete. -/
def split (n : Nat) : Nat → List α → List (Chunk α n)
  | 0, _ => []
  | count + 1, xs =>
      if h : n ≤ xs.length then
        Chunk.mk (xs.take n) (by simp [h]) :: split n count (xs.drop n)
      else []

def glue (vs : List (Chunk α n)) : List α := vs.flatMap toList

@[simp] theorem glue_nil : glue ([] : List (Chunk α n)) = [] := rfl

@[simp] theorem glue_cons (v : Chunk α n) (vs : List (Chunk α n)) :
    glue (v :: vs) = v.toList ++ glue vs := rfl

theorem length_glue (vs : List (Chunk α n)) : (glue vs).length = vs.length * n := by
  induction vs with
  | nil => simp
  | cons v vs ih =>
    simp only [glue_cons, List.length_append, length_toList, ih, List.length_cons]
    rw [Nat.succ_mul, Nat.add_comm]

theorem split_glue (vs : List (Chunk α n)) : split n vs.length (glue vs) = vs := by
  induction vs with
  | nil => rfl
  | cons v vs ih =>
    -- the first n entries are the first chunk, whatever follows
    have front : (glue (v :: vs)).take n = v.toList := by simp
    have back : (glue (v :: vs)).drop n = glue vs := by simp
    have fits : n ≤ (glue (v :: vs)).length := by simp
    rw [List.length_cons, split, dif_pos fits, back, ih]
    exact congrArg (· :: vs) (Chunk.ext front)

theorem glue_split (count : Nat) (xs : List α) (exact : xs.length = count * n) :
    glue (split n count xs) = xs := by
  induction count generalizing xs with
  | zero => simpa [split, eq_comm] using exact
  | succ count ih =>
    rw [Nat.succ_mul] at exact
    have fits : n ≤ xs.length := by omega
    have rest : (xs.drop n).length = count * n := by rw [List.length_drop]; omega
    rw [split, dif_pos fits, glue_cons, ih _ rest]
    exact List.take_append_drop n xs

theorem length_split (count : Nat) (xs : List α) (exact : xs.length = count * n) :
    (split n count xs).length = count := by
  induction count generalizing xs with
  | zero => rfl
  | succ count ih =>
    rw [Nat.succ_mul] at exact
    have fits : n ≤ xs.length := by omega
    have rest : (xs.drop n).length = count * n := by rw [List.length_drop]; omega
    rw [split, dif_pos fits, List.length_cons, ih _ rest]

end Chunk

end Mkey
