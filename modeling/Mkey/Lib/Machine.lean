import Mathlib

/-! Runs of deterministic machines that answer every input. -/
namespace Mkey.Machine

variable {σ ι ο : Type}

/-- One call: the state it met, what it was given and answered, the state it left. -/
structure Step (σ ι ο : Type) where
  before : σ
  input : ι
  output : ο
  after : σ

/-- The step a machine takes on one input. -/
def stepAt (step : σ → ι → σ × ο) (s : σ) (i : ι) : Step σ ι ο :=
  ⟨s, i, (step s i).2, (step s i).1⟩

/-- The state after a sequence of inputs. -/
def run (step : σ → ι → σ × ο) : σ → List ι → σ
  | s, [] => s
  | s, i :: rest => run step (step s i).1 rest

/-- Every call of a run, in order. -/
def trace (step : σ → ι → σ × ο) : σ → List ι → List (Step σ ι ο)
  | _, [] => []
  | s, i :: rest => stepAt step s i :: trace step (step s i).1 rest

/-- The answers of a run, in order. -/
def outputs (step : σ → ι → σ × ο) (s : σ) (inputs : List ι) : List ο :=
  (trace step s inputs).map Step.output

variable {step : σ → ι → σ × ο}

theorem run_append (s : σ) (front back : List ι) :
    run step s (front ++ back) = run step (run step s front) back := by
  induction front generalizing s with
  | nil => rfl
  | cons i rest ih => exact ih _

theorem trace_append (s : σ) (front back : List ι) :
    trace step s (front ++ back) = trace step s front ++ trace step (run step s front) back := by
  induction front generalizing s with
  | nil => rfl
  | cons i rest ih => simp only [List.cons_append, trace, run, ih]

theorem run_snoc (s : σ) (inputs : List ι) (i : ι) :
    run step s (inputs ++ [i]) = (step (run step s inputs) i).1 := by
  rw [run_append]
  rfl

theorem trace_snoc (s : σ) (inputs : List ι) (i : ι) :
    trace step s (inputs ++ [i]) = trace step s inputs ++ [stepAt step (run step s inputs) i] := by
  rw [trace_append]
  rfl

/-- Every step of a trace is the machine's own step, taken after a prefix of the run. -/
theorem mem_trace_iff (s : σ) (inputs : List ι) (x : Step σ ι ο) :
    x ∈ trace step s inputs ↔
      ∃ front i back, inputs = front ++ i :: back ∧ x = stepAt step (run step s front) i := by
  constructor
  · intro member
    induction inputs generalizing s with
    | nil => simp [trace] at member
    | cons i rest ih =>
      rcases List.mem_cons.mp member with rfl | later
      · exact ⟨[], i, rest, rfl, rfl⟩
      · obtain ⟨front, j, back, rfl, rfl⟩ := ih _ later
        exact ⟨i :: front, j, back, rfl, rfl⟩
  · rintro ⟨front, i, back, rfl, rfl⟩
    rw [trace_append]
    exact List.mem_append_right _ (List.mem_cons_self)

theorem mem_outputs_iff (s : σ) (inputs : List ι) (o : ο) :
    o ∈ outputs step s inputs ↔
      ∃ front i back, inputs = front ++ i :: back ∧ o = (step (run step s front) i).2 := by
  rw [outputs, List.mem_map]
  constructor
  · rintro ⟨x, taken, rfl⟩
    obtain ⟨front, i, back, split, rfl⟩ := (mem_trace_iff s inputs x).mp taken
    exact ⟨front, i, back, split, rfl⟩
  · rintro ⟨front, i, back, split, rfl⟩
    exact ⟨_, (mem_trace_iff s inputs _).mpr ⟨front, i, back, split, rfl⟩, rfl⟩

/-- What one step preserves holds after every run. -/
theorem run_invariant (inv : σ → Prop) (preserved : ∀ s i, inv s → inv (step s i).1)
    (s : σ) (initial : inv s) (inputs : List ι) : inv (run step s inputs) := by
  induction inputs generalizing s with
  | nil => exact initial
  | cons i rest ih => exact ih _ (preserved s i initial)

/-- What every step taken under an invariant has, every step of a run has. -/
theorem forall_trace (inv : σ → Prop) (preserved : ∀ s i, inv s → inv (step s i).1)
    (claim : Step σ ι ο → Prop) (holds : ∀ s i, inv s → claim (stepAt step s i))
    (s : σ) (initial : inv s) (inputs : List ι) : ∀ x ∈ trace step s inputs, claim x := by
  intro x member
  obtain ⟨front, i, back, rfl, rfl⟩ := (mem_trace_iff s inputs x).mp member
  exact holds _ _ (run_invariant inv preserved s initial front)

/-- An invariant that also speaks of the steps taken so far. -/
theorem history_invariant (inv : List (Step σ ι ο) → σ → Prop)
    (s : σ) (initial : inv [] s)
    (preserved : ∀ past t i, inv past t → inv (past ++ [stepAt step t i]) (step t i).1)
    (inputs : List ι) : inv (trace step s inputs) (run step s inputs) := by
  induction inputs using List.reverseRecOn with
  | nil => exact initial
  | append_singleton front i ih =>
    rw [trace_snoc, run_snoc]
    exact preserved _ _ _ ih

/-- Two machines kept in a relation by every allowed input give the same answers. -/
theorem related_runs {τ : Type} {other : τ → ι → τ × ο} (rel : σ → τ → Prop) (allowed : ι → Prop)
    (agree : ∀ s t i, rel s t → allowed i →
      (step s i).2 = (other t i).2 ∧ rel (step s i).1 (other t i).1)
    (s : σ) (t : τ) (initial : rel s t) (inputs : List ι) (all : ∀ i ∈ inputs, allowed i) :
    outputs step s inputs = outputs other t inputs ∧
      rel (run step s inputs) (run other t inputs) := by
  induction inputs generalizing s t with
  | nil => exact ⟨rfl, initial⟩
  | cons i rest ih =>
    -- equal answers now, and the relation carries over to the rest of the inputs
    obtain ⟨same, kept⟩ := agree s t i initial (all i List.mem_cons_self)
    obtain ⟨answers, final⟩ := ih _ _ kept (fun j hj => all j (List.mem_cons_of_mem i hj))
    refine ⟨?_, final⟩
    simp only [outputs, trace, List.map_cons, stepAt, same] at answers ⊢
    rw [answers]

end Mkey.Machine
