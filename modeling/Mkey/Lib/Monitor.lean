import Mathlib

/-!
# Monitors

A monitor reads a word letter by letter and may refuse. What every word it
accepts has in common is read off single transitions.
-/
namespace Mkey.Monitor

variable {Q α : Type} (next : Q → α → Option Q)

/-- Where a monitor stands after a word, unless it refused a letter. -/
def run : Q → List α → Option Q
  | q, [] => some q
  | q, a :: word => (next q a).bind fun r => run r word

variable {next}

theorem run_append (q : Q) (front back : List α) :
    run next q (front ++ back) = (run next q front).bind fun r => run next r back := by
  induction front generalizing q with
  | nil => rfl
  | cons a rest ih =>
    simp only [List.cons_append, run, ih, Option.bind_assoc]

theorem run_map {β : Type} (f : β → α) (q : Q) (word : List β) :
    run next q (word.map f) = run (fun q b => next q (f b)) q word := by
  induction word generalizing q with
  | nil => rfl
  | cons b rest ih =>
    simp only [List.map_cons, run, ih]

/-- A letter of an accepted word is read at some stage, and the rest from the stage after it. -/
theorem run_split {q r : Q} {front back : List α} {a : α}
    (accepted : run next q (front ++ a :: back) = some r) :
    ∃ before after, run next q front = some before ∧ next before a = some after ∧
      run next after back = some r := by
  rw [run_append, Option.bind_eq_some_iff] at accepted
  obtain ⟨before, reached, rest⟩ := accepted
  rw [run, Option.bind_eq_some_iff] at rest
  obtain ⟨after, read, tail⟩ := rest
  exact ⟨before, after, reached, read, tail⟩

/-- Nothing is read from a stage without transitions. -/
theorem run_dead {q r : Q} {word : List α} (dead : ∀ a, next q a = none)
    (accepted : run next q word = some r) : word = [] := by
  cases word with
  | nil => rfl
  | cons a rest => simp [run, dead] at accepted

/-- A word that leaves its stage begins with a letter read there. -/
theorem run_head {q r : Q} {word : List α} (left : r ≠ q)
    (accepted : run next q word = some r) :
    ∃ a rest after, word = a :: rest ∧ next q a = some after ∧ run next after rest = some r := by
  cases word with
  | nil => exact absurd (Option.some.inj accepted).symm left
  | cons a rest =>
    rw [run, Option.bind_eq_some_iff] at accepted
    obtain ⟨after, read, tail⟩ := accepted
    exact ⟨a, rest, after, rfl, read, tail⟩

/-- A word that reaches a new stage ends with a letter read into it. -/
theorem run_last {q r : Q} {word : List α} (moved : q ≠ r) (accepted : run next q word = some r) :
    ∃ front a before, word = front ++ [a] ∧ next before a = some r := by
  rcases List.eq_nil_or_concat word with rfl | ⟨front, a, rfl⟩
  · exact absurd (Option.some.inj accepted) moved
  · rw [List.concat_eq_append] at accepted ⊢
    obtain ⟨before, after, _, read, done⟩ := run_split accepted
    rw [← Option.some.inj done]
    exact ⟨front, a, before, rfl, read⟩

/-- A word of letters that leave a stage where it is ends at that stage. -/
theorem run_stays {q : Q} {word : List α} (stays : ∀ a ∈ word, next q a = some q) :
    run next q word = some q := by
  induction word with
  | nil => rfl
  | cons a rest ih =>
    rw [run, stays a List.mem_cons_self, Option.bind_some]
    exact ih fun b member => stays b (List.mem_cons_of_mem a member)

/-- Stages closed under reading some letters are kept by words of these letters. -/
theorem run_closed (inside : Q → Prop) (letter : α → Prop)
    (closed : ∀ q a r, inside q → letter a → next q a = some r → inside r)
    {q r : Q} {word : List α} (start : inside q) (letters : ∀ a ∈ word, letter a)
    (accepted : run next q word = some r) : inside r := by
  induction word generalizing q with
  | nil =>
    obtain rfl : q = r := Option.some.inj accepted
    exact start
  | cons a rest ih =>
    rw [run, Option.bind_eq_some_iff] at accepted
    obtain ⟨middle, read, tail⟩ := accepted
    exact ih (closed q a middle start (letters a List.mem_cons_self) read)
      (fun b member => letters b (List.mem_cons_of_mem a member)) tail

/-- A letter that no stage of a closed set reads does not occur from there on. -/
theorem run_without (inside : Q → Prop) (letter : α → Prop)
    (closed : ∀ q a r, inside q → next q a = some r → inside r ∧ ¬letter a)
    {q r : Q} {word : List α} (start : inside q) (accepted : run next q word = some r) :
    ∀ a ∈ word, ¬letter a := by
  induction word generalizing q with
  | nil => simp
  | cons a rest ih =>
    rw [run, Option.bind_eq_some_iff] at accepted
    obtain ⟨middle, read, tail⟩ := accepted
    obtain ⟨kept, other⟩ := closed q a middle start read
    intro b member
    rcases List.mem_cons.mp member with rfl | later
    · exact other
    · exact ih kept tail b later

/-- A letter read only where a stage is left for good occurs once at most. -/
theorem run_countP_le_one (letter : α → Bool) (early : Q → Prop)
    (back : ∀ q a r, next q a = some r → early r → early q)
    (crosses : ∀ q a r, next q a = some r → letter a → early q ∧ ¬early r)
    {q r : Q} {word : List α} (accepted : run next q word = some r) :
    word.countP letter ≤ 1 := by
  induction word generalizing q with
  | nil => simp
  | cons a rest ih =>
    rw [run, Option.bind_eq_some_iff] at accepted
    obtain ⟨middle, read, tail⟩ := accepted
    by_cases here : letter a
    · -- past the border the letter is not read again
      have none_left : ∀ b ∈ rest, ¬letter b = true := by
        refine run_without (fun q => ¬early q) (fun b => letter b) ?_
          (crosses q a middle read here).2 tail
        intro q' b r' late read'
        exact ⟨fun early' => late (back q' b r' read' early'),
          fun again => late (crosses q' b r' read' again).1⟩
      rw [List.countP_cons_of_pos here, List.countP_eq_zero.mpr none_left]
    · rw [List.countP_cons_of_neg here]
      exact ih tail

/-- The marks a word leaves come in the order in which its stages allow them. -/
theorem run_marks {β : Type} (mark : α → Option β) (allowed : Q → List β)
    (ordered : ∀ q a r, next q a = some r →
      ((mark a).toList ++ allowed r).Sublist (allowed q))
    {q r : Q} {word : List α} (accepted : run next q word = some r) :
    (word.filterMap mark).Sublist (allowed q) := by
  induction word generalizing q with
  | nil => simp
  | cons a rest ih =>
    rw [run, Option.bind_eq_some_iff] at accepted
    obtain ⟨middle, read, tail⟩ := accepted
    have here := ordered q a middle read
    have later := ih tail
    -- an unmarked letter may still use up what is allowed
    cases marked : mark a with
    | none =>
      rw [List.filterMap_cons_none marked]
      rw [marked] at here
      exact later.trans here
    | some b =>
      rw [List.filterMap_cons_some marked]
      rw [marked] at here
      exact (later.cons_cons b).trans here

end Mkey.Monitor
