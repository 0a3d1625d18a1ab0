import Mathlib

/-!
# First occurrences

The first place of a pattern in a list, and the search over all windows that
finds it.
-/
namespace Mkey.Search

variable {α : Type}

/-- A pattern stands somewhere behind a number of elements, and nowhere before. -/
structure FirstAfter (pattern front back xs : List α) : Prop where
  split : xs = front ++ pattern ++ back
  first : ∀ front' back', xs = front' ++ pattern ++ back' → front.length ≤ front'.length

/-- All stretches of a length, in their order. -/
def windows (n : Nat) (xs : List α) : List (List α) :=
  (List.range (xs.length + 1 - n)).map fun i => (xs.drop i).take n

theorem prefix_drop_iff {pattern xs : List α} {i : Nat} (inside : i ≤ xs.length) :
    pattern <+: xs.drop i ↔
      ∃ front back, xs = front ++ pattern ++ back ∧ front.length = i := by
  constructor
  · rintro ⟨back, split⟩
    refine ⟨xs.take i, back, ?_, List.length_take_of_le inside⟩
    rw [List.append_assoc, split, List.take_append_drop]
  · rintro ⟨front, back, rfl, rfl⟩
    exact ⟨back, by simp⟩

/-- The least index that passes a test on what follows it is that of a first occurrence. -/
theorem firstAfter_iff {pattern xs : List α} {i : Nat} (inside : i ≤ xs.length) :
    (pattern <+: xs.drop i ∧ ∀ j < i, ¬pattern <+: xs.drop j) ↔
      ∃ front back, FirstAfter pattern front back xs ∧ front.length = i := by
  constructor
  · rintro ⟨here, none_⟩
    obtain ⟨front, back, split, rfl⟩ := (prefix_drop_iff inside).mp here
    refine ⟨front, back, ⟨split, fun front' back' split' => ?_⟩, rfl⟩
    by_contra less
    have bound : front'.length ≤ xs.length := by omega
    exact none_ _ (not_le.mp less) ((prefix_drop_iff bound).mpr ⟨front', back', split', rfl⟩)
  · rintro ⟨front, back, occurs, rfl⟩
    refine ⟨(prefix_drop_iff inside).mpr ⟨front, back, occurs.split, rfl⟩, ?_⟩
    intro j less earlier
    obtain ⟨front', back', split', rfl⟩ := (prefix_drop_iff (by omega)).mp earlier
    exact absurd (occurs.first front' back' split') (not_le.mpr less)

/-- A list with one marked element is split at a marked element in one way. -/
theorem split_at_only {marked : α → Bool} {front back front' back' : List α} {x y : α}
    (same : front ++ x :: back = front' ++ y :: back') (before : ∀ z ∈ front, marked z = false)
    (after : ∀ z ∈ back, marked z = false) (here : marked y) : front = front' ∧ x = y := by
  rcases List.append_eq_append_iff.mp same with ⟨more, rfl, rest⟩ | ⟨more, rfl, rest⟩
  · cases more with
    | nil => exact ⟨(List.append_nil front).symm, (List.cons.inj rest).1⟩
    | cons z zs =>
      obtain ⟨_, rfl⟩ := List.cons.inj rest
      have unmarked := after y (by simp)
      rw [here] at unmarked
      cases unmarked
  · cases more with
    | nil => exact ⟨List.append_nil front', (List.cons.inj rest).1.symm⟩
    | cons z zs =>
      obtain ⟨rfl, _⟩ := List.cons.inj rest
      have unmarked := before y (by simp)
      rw [here] at unmarked
      cases unmarked

@[simp] theorem length_windows (n : Nat) (xs : List α) :
    (windows n xs).length = xs.length + 1 - n := by simp [windows]

theorem getElem_windows {n : Nat} {xs : List α} {i : Nat} (inside : i < (windows n xs).length) :
    (windows n xs)[i] = (xs.drop i).take n := by simp [windows]

/-- A pattern cannot start where no window does. -/
theorem lt_windows_of_prefix {pattern xs : List α} {i : Nat} (inside : i ≤ xs.length)
    (here : pattern <+: xs.drop i) : i < (windows pattern.length xs).length := by
  have fits := here.length_le
  rw [List.length_drop] at fits
  rw [length_windows]
  omega

variable [DecidableEq α]

theorem window_eq_iff {pattern xs : List α} {i : Nat}
    (inside : i < (windows pattern.length xs).length) :
    decide ((windows pattern.length xs)[i] = pattern) = true ↔ pattern <+: xs.drop i := by
  rw [getElem_windows, decide_eq_true_eq, List.prefix_iff_eq_take, eq_comm]

/-- The search through the windows finds the first occurrence. -/
theorem position_eq_some_iff {pattern xs : List α} {i : Nat} :
    (windows pattern.length xs).findIdx? (· = pattern) = some i ↔
      ∃ front back, FirstAfter pattern front back xs ∧ front.length = i := by
  rw [List.findIdx?_eq_some_iff_getElem]
  constructor
  · rintro ⟨inside, here, earlier⟩
    have bound : i < xs.length + 1 - pattern.length := by rwa [length_windows] at inside
    rw [← firstAfter_iff (by omega)]
    refine ⟨(window_eq_iff inside).mp here, fun j less => ?_⟩
    rw [← window_eq_iff (less.trans inside)]
    exact earlier j less
  · rintro ⟨front, back, occurs, rfl⟩
    have bound : front.length ≤ xs.length := by
      rw [occurs.split]
      simp only [List.length_append]
      omega
    obtain ⟨here, earlier⟩ := (firstAfter_iff bound).mpr ⟨front, back, occurs, rfl⟩
    have inside := lt_windows_of_prefix bound here
    refine ⟨inside, (window_eq_iff inside).mpr here, fun j less => ?_⟩
    rw [window_eq_iff (less.trans inside)]
    exact earlier j less

theorem position_eq_none_iff {pattern xs : List α} :
    (windows pattern.length xs).findIdx? (· = pattern) = none ↔
      ∀ front back, ¬FirstAfter pattern front back xs := by
  rw [Option.eq_none_iff_forall_ne_some]
  constructor
  · intro missing front back occurs
    exact missing front.length (position_eq_some_iff.mpr ⟨front, back, occurs, rfl⟩)
  · intro missing i found
    obtain ⟨front, back, occurs, _⟩ := position_eq_some_iff.mp found
    exact missing front back occurs

end Mkey.Search
