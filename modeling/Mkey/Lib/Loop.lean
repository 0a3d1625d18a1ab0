import Mathlib

/-!
# Loops

A loop turns until it returns, leaving a record of its calls. A run that
returns is a series of turns that go on and one that does not.
-/
namespace Mkey.Loop

variable {σ κ ρ : Type} (turn : σ → List κ × (σ ⊕ ρ))

/-- The calls made and the value returned, when the fuel suffices. -/
def run : Nat → σ → Option (List κ × ρ)
  | 0, _ => none
  | fuel + 1, s =>
    match turn s with
    | (calls, .inl next) => (run fuel next).map fun (later, r) => (calls ++ later, r)
    | (calls, .inr r) => some (calls, r)

/-- The states a loop turns in. -/
inductive Reaches (s : σ) : σ → Prop
  | here : Reaches s s
  | turn {t next : σ} : Reaches s t → (turn t).2 = .inl next → Reaches s next

variable {turn}

/-- A turn that goes on costs one unit of fuel. -/
theorem run_goes {s next : σ} {calls : List κ} (goes : turn s = (calls, .inl next)) (fuel : Nat) :
    run turn (fuel + 1) s = (run turn fuel next).map fun (later, r) => (calls ++ later, r) := by
  rw [run, goes]

/-- From one state to another in so many turns, with these calls, whatever comes after. -/
def Goes (turn : σ → List κ × (σ ⊕ ρ)) (turns : Nat) (calls : List κ) (s next : σ) : Prop :=
  ∀ fuel, run turn (fuel + turns) s =
    (run turn fuel next).map fun (later, r) => (calls ++ later, r)

theorem Goes.none (s : σ) : Goes turn 0 [] s s := fun fuel => by simp

theorem Goes.one {s next : σ} {calls : List κ} (goes : turn s = (calls, .inl next)) :
    Goes turn 1 calls s next := run_goes goes

theorem Goes.trans {s t u : σ} {n m : Nat} {calls later : List κ}
    (first : Goes turn n calls s t) (second : Goes turn m later t u) :
    Goes turn (n + m) (calls ++ later) s u := by
  intro fuel
  rw [Nat.add_comm n m, ← Nat.add_assoc, first, second, Option.map_map]
  congr 1
  funext r
  simp [List.append_assoc]

/-- Fuel for the turns up to a state and for the turn that returns there is enough. -/
theorem Goes.returns {s t : σ} {n : Nat} {calls last : List κ} {r : ρ}
    (goes : Goes turn n calls s t) (ends : turn t = (last, .inr r)) (more : Nat) :
    run turn (n + 1 + more) s = some (calls ++ last, r) := by
  rw [Nat.add_assoc, Nat.add_comm n, goes, Nat.add_comm 1, run, ends]
  rfl

theorem Reaches.step {s next t : σ} (first : (turn s).2 = .inl next)
    (later : Reaches turn next t) : Reaches turn s t := by
  induction later with
  | here => exact .turn .here first
  | turn _ again ih => exact .turn ih again

/-- What every turn keeps, every state reached has. -/
theorem Reaches.invariant (inv : σ → Prop)
    (kept : ∀ s next, inv s → (turn s).2 = .inl next → inv next) {s t : σ} (initial : inv s)
    (reached : Reaches turn s t) : inv t := by
  induction reached with
  | here => exact initial
  | turn _ again ih => exact kept _ _ ih again

/-- A state reached is the first one, or reached from the one after it. -/
theorem Reaches.head {s t : σ} (reached : Reaches turn s t) :
    t = s ∨ ∃ next, (turn s).2 = .inl next ∧ Reaches turn next t := by
  induction reached with
  | here => exact .inl rfl
  | turn _ again ih =>
    rcases ih with rfl | ⟨next, first, later⟩
    · exact .inr ⟨_, again, .here⟩
    · exact .inr ⟨next, first, .turn later again⟩

/-- A loop turns in one order: of two states reached, one is reached from the other. -/
theorem Reaches.total {s t u : σ} (left : Reaches turn s t) (right : Reaches turn s u) :
    Reaches turn t u ∨ Reaches turn u t := by
  -- follow the first state along its turns: the second is ahead of it until they meet
  induction left with
  | here => exact .inl right
  | turn _ again ih =>
    rcases ih with later | earlier
    · rcases later.head with rfl | ⟨next, first, rest⟩
      · exact .inr (.turn .here again)
      · rw [again, Sum.inl.injEq] at first
        subst first
        exact .inl rest
    · exact .inr (.turn earlier again)

/-- There is one turn at most that returns. -/
theorem Reaches.last_unique {s t u : σ} (left : Reaches turn s t) (right : Reaches turn s u)
    {r r' : ρ} (ends : (turn t).2 = .inr r) (ends' : (turn u).2 = .inr r') : t = u := by
  have stuck {v w : σ} {r : ρ} (ends : (turn v).2 = .inr r) (on : Reaches turn v w) : w = v := by
    rcases on.head with same | ⟨next, goes, _⟩
    · exact same
    · rw [ends] at goes
      cases goes
  rcases left.total right with on | on
  · exact (stuck ends on).symm
  · exact stuck ends' on

/-- The last turn of a run that returns, and the calls of the turns before it. -/
theorem run_last {fuel : Nat} {s : σ} {calls : List κ} {r : ρ}
    (returned : run turn fuel s = some (calls, r)) :
    ∃ front last t, calls = front ++ last ∧ Reaches turn s t ∧ turn t = (last, .inr r) ∧
      ∀ c ∈ front, ∃ u next, Reaches turn s u ∧ (turn u).2 = .inl next ∧ c ∈ (turn u).1 := by
  induction fuel generalizing s calls with
  | zero => cases returned
  | succ fuel ih =>
    rw [run] at returned
    cases turned : turn s with
    | mk now next =>
      rw [turned] at returned
      cases next with
      | inr r' =>
        simp only [Option.some.injEq, Prod.mk.injEq] at returned
        obtain ⟨rfl, rfl⟩ := returned
        exact ⟨[], now, s, rfl, .here, turned, by simp⟩
      | inl next =>
        simp only [Option.map_eq_some_iff, Prod.exists, Prod.mk.injEq] at returned
        obtain ⟨later, r', rest, rfl, rfl⟩ := returned
        -- the calls of this turn join those of the turns that went on
        have first : (turn s).2 = .inl next := by rw [turned]
        obtain ⟨front, last, t, rfl, reached, ends, before⟩ := ih rest
        refine ⟨now ++ front, last, t, (List.append_assoc ..).symm, reached.step first, ends,
          ?_⟩
        intro c member
        rcases List.mem_append.mp member with here | on
        · exact ⟨s, next, .here, first, by rwa [turned]⟩
        · obtain ⟨u, after, reached', goes, inside⟩ := before c on
          exact ⟨u, after, reached'.step first, goes, inside⟩

/-- An invariant that also speaks of the calls made so far holds up to the turn that returns. -/
theorem run_history {inv : List κ → σ → Prop}
    (kept : ∀ past s calls next, inv past s → turn s = (calls, .inl next) →
      inv (past ++ calls) next)
    {past : List κ} {s : σ} (initial : inv past s) {fuel : Nat} {calls : List κ} {r : ρ}
    (returned : run turn fuel s = some (calls, r)) :
    ∃ front last t, calls = front ++ last ∧ inv (past ++ front) t ∧ turn t = (last, .inr r) := by
  induction fuel generalizing past s calls with
  | zero => cases returned
  | succ fuel ih =>
    cases turned : turn s with
    | mk now after =>
      cases after with
      | inr r' =>
        rw [run, turned] at returned
        simp only [Option.some.injEq, Prod.mk.injEq] at returned
        obtain ⟨rfl, rfl⟩ := returned
        exact ⟨[], now, s, rfl, by rwa [List.append_nil], turned⟩
      | inl next =>
        rw [run_goes turned] at returned
        simp only [Option.map_eq_some_iff, Prod.exists, Prod.mk.injEq] at returned
        obtain ⟨later, r', rest, rfl, rfl⟩ := returned
        obtain ⟨front, last, t, rfl, holds, ends⟩ := ih (kept past s now next initial turned) rest
        rw [List.append_assoc] at holds
        exact ⟨now ++ front, last, t, (List.append_assoc ..).symm, holds, ends⟩

/-- A loop whose turns use up a budget returns within it. -/
theorem returns_of_budget {inv : σ → Prop} {budget : σ → Nat}
    (kept : ∀ s next, inv s → (turn s).2 = .inl next → inv next ∧ budget next < budget s)
    {s : σ} (initial : inv s) {fuel : Nat} (enough : budget s < fuel) :
    ∃ out, run turn fuel s = some out := by
  induction fuel generalizing s with
  | zero => exact absurd enough (Nat.not_lt_zero _)
  | succ fuel ih =>
    cases turned : turn s with
    | mk calls after =>
      cases after with
      | inr r => exact ⟨(calls, r), by rw [run, turned]⟩
      | inl next =>
        obtain ⟨holds, less⟩ := kept s next initial (by rw [turned])
        obtain ⟨⟨later, r⟩, rest⟩ := ih holds (by omega)
        exact ⟨(calls ++ later, r), by rw [run_goes turned, rest, Option.map_some]⟩

/-- A loop returns when a turn it comes to does, and not otherwise. -/
theorem returns_iff {s : σ} :
    (∃ fuel out, run turn fuel s = some out) ↔
      ∃ t r, Reaches turn s t ∧ (turn t).2 = .inr r := by
  constructor
  · rintro ⟨fuel, ⟨calls, r⟩, returned⟩
    obtain ⟨_, _, t, _, reached, ends, _⟩ := run_last returned
    exact ⟨t, r, reached, by rw [ends]⟩
  · rintro ⟨t, r, reached, ends⟩
    have here : ∃ fuel out, run turn fuel t = some out := by
      cases turned : turn t with
      | mk calls next =>
        rw [turned] at ends
        dsimp only at ends
        exact ⟨1, (calls, r), by simp [run, turned, ends]⟩
    -- one more turn in front costs one more unit of fuel
    clear ends
    induction reached with
    | here => exact here
    | @turn t next _ again ih =>
      obtain ⟨fuel, ⟨later, r'⟩, returned⟩ := here
      refine ih ⟨fuel + 1, ((turn t).1 ++ later, r'), ?_⟩
      rw [run]
      cases turned : turn t with
      | mk calls goes =>
        rw [turned] at again
        dsimp only at again
        simp [again, returned]

end Mkey.Loop
