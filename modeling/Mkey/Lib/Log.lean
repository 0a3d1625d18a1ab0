import Mathlib

/-!
# Logs

A log grows at its end. A rule says which entry may follow which past; a stretch
keeps to it when each of its entries may follow what stands before it.
-/
namespace Mkey.Log

variable {α : Type} (allowed : List α → α → Prop)

def Keeps : List α → List α → Prop
  | _, [] => True
  | past, a :: rest => allowed past a ∧ Keeps (past ++ [a]) rest

variable {allowed}

theorem keeps_append {past front back : List α} :
    Keeps allowed past (front ++ back) ↔
      Keeps allowed past front ∧ Keeps allowed (past ++ front) back := by
  induction front generalizing past with
  | nil => simp [Keeps]
  | cons a rest ih =>
    simp only [List.cons_append, Keeps, ih, List.append_assoc, List.nil_append]
    exact and_assoc.symm

/-- Every entry of a stretch that keeps to the rule was allowed where it stands. -/
theorem keeps_iff {past calls : List α} :
    Keeps allowed past calls ↔
      ∀ front a back, calls = front ++ a :: back → allowed (past ++ front) a := by
  constructor
  · rintro keeps front a back rfl
    exact (keeps_append.mp keeps).2.1
  · intro each
    induction calls generalizing past with
    | nil => trivial
    | cons a rest ih =>
      refine ⟨by simpa using each [] a rest rfl, ih fun front b back split => ?_⟩
      have later := each (a :: front) b back (by rw [split]; rfl)
      simpa using later

/-- A stretch of entries that may follow anything. -/
theorem keeps_of_forall {past calls : List α} (free : ∀ a ∈ calls, ∀ before, allowed before a) :
    Keeps allowed past calls :=
  keeps_iff.mpr fun front a back split => free a (by simp [split]) _

/-- An entry that tells nothing adds nothing to what a log tells. -/
theorem filterMap_concat_none {β : Type} {tells : α → Option β} {a : α} (past : List α)
    (silent : tells a = none) : (past ++ [a]).filterMap tells = past.filterMap tells := by
  rw [List.filterMap_append, List.filterMap_cons_none silent, List.filterMap_nil, List.append_nil]

end Mkey.Log
