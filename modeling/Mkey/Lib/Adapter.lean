import Mkey.Lib.Machine

/-!
# Machines behind an adapter

An adapter hears calls of its own, passes on those it understands, and hands out
what the machine behind it said. Over every run it is that machine, on the calls
that were passed on.
-/
namespace Mkey.Adapter

open Machine

variable {σ τ ι κ ο π α : Type}

/-- One call of an adapter, against the machine behind it: passed on, or refused without effect. -/
structure Adapts (outer : σ → ι → σ × ο) (inner : τ → κ → τ × π) (behind : σ → τ)
    (hears : ι → Option κ) (hands : ο → List α) (said : π → List α) : Prop where
  passes : ∀ s i j, hears i = some j →
    behind (outer s i).1 = (inner (behind s) j).1 ∧
      hands (outer s i).2 = said (inner (behind s) j).2
  refuses : ∀ s i, hears i = none → behind (outer s i).1 = behind s ∧ hands (outer s i).2 = []

variable {outer : σ → ι → σ × ο} {inner : τ → κ → τ × π} {behind : σ → τ} {hears : ι → Option κ}
  {hands : ο → List α} {said : π → List α}

theorem Adapts.run (adapts : Adapts outer inner behind hears hands said) (s : σ) (calls : List ι) :
    behind (run outer s calls) = Machine.run inner (behind s) (calls.filterMap hears) := by
  induction calls generalizing s with
  | nil => rfl
  | cons i rest ih =>
    cases heard : hears i with
    | none =>
      rw [List.filterMap_cons_none heard, Machine.run, ih, (adapts.refuses s i heard).1]
    | some j =>
      rw [List.filterMap_cons_some heard, Machine.run, Machine.run, ih,
        (adapts.passes s i j heard).1]

/-- What an adapter has handed out is what the machine behind it has said, in order. -/
theorem Adapts.handed (adapts : Adapts outer inner behind hears hands said) (s : σ)
    (calls : List ι) :
    (outputs outer s calls).flatMap hands =
      (outputs inner (behind s) (calls.filterMap hears)).flatMap said := by
  induction calls generalizing s with
  | nil => rfl
  | cons i rest ih =>
    have later := ih (outer s i).1
    simp only [outputs, trace, List.map_cons, List.flatMap_cons, stepAt] at later ⊢
    cases heard : hears i with
    | none =>
      obtain ⟨same, silent⟩ := adapts.refuses s i heard
      rw [List.filterMap_cons_none heard, silent, List.nil_append, later, same]
    | some j =>
      obtain ⟨same, spoken⟩ := adapts.passes s i j heard
      rw [List.filterMap_cons_some heard, later, same, spoken]
      rfl

end Mkey.Adapter
