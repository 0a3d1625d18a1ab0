import Mkey.Session.Protocol

/-!
# What the shell sees of a session

The clauses of the contract, each read off the transitions of the monitor, for
the concatenated actions of any run from a fresh session.
-/
namespace Mkey.Session

open Machine

def phaseOf : Action → Option Phase
  | .phase phase => some phase
  | _ => none

def isAnnounce : Action → Bool
  | .announceAppProtocol => true
  | _ => false

def isRead : Action → Bool
  | .readProtocolInfo _ => true
  | _ => false

def isSubscribe : Action → Bool
  | .subscribe => true
  | _ => false

/-- The actions that need notifications enabled. -/
def isLate : Action → Bool
  | .write _ | .setTimer _ _ => true
  | _ => false

namespace Stage

variable {options : Options} {q r : Stage} {a : Action}

/-- The phases still to come. -/
def phasesLeft : Stage → List Phase
  | idle => [.detectingVersion, .authenticating, .exchanging, .finished]
  | detecting | announced | reading | subscribed => [.authenticating, .exchanging, .finished]
  | authenticating => [.exchanging, .finished]
  | exchanging => [.finished]
  | finishing | ended => []

theorem next_phases (read : Stage.next options q a = some r) :
    ((phaseOf a).toList ++ phasesLeft r).Sublist (phasesLeft q) := by
  cases next_reads read with
  | traced _ | write _ | pause _ | setTimer _ => simp [phaseOf]
  | subscribe at_ | finish at_ => rcases at_ with rfl | rfl | rfl | rfl <;> decide
  | _ => simp [phaseOf, phasesLeft]

/-- How far along a stage is. -/
def rank : Stage → Nat
  | idle => 0
  | detecting => 1
  | announced => 2
  | reading => 3
  | subscribed => 4
  | authenticating => 5
  | exchanging => 6
  | finishing => 7
  | ended => 8

/-- A session never falls back to an earlier stage. -/
theorem next_rank (read : Stage.next options q a = some r) : q.rank ≤ r.rank := by
  cases next_reads read with
  -- the actions that may come at any time leave the stage as it is
  | traced _ | write _ | pause _ | setTimer _ => exact le_rfl
  | subscribe at_ | finish at_ => rcases at_ with rfl | rfl | rfl | rfl <;> decide
  | _ => decide

/-- A letter that takes the session past a stage is read once at most. -/
theorem countP_le_one (border : Stage) (letter : Action → Bool)
    (crosses : ∀ q a r, Stage.next options q a = some r → letter a →
      q.rank ≤ border.rank ∧ border.rank < r.rank)
    {word : List Action} (accepted : Monitor.run (Stage.next options) q word = some r) :
    word.countP letter ≤ 1 := by
  refine Monitor.run_countP_le_one letter (fun q => q.rank ≤ border.rank) ?_ ?_ accepted
  · intro q a r read early
    exact (next_rank read).trans early
  · intro q a r read letter
    obtain ⟨early, late⟩ := crosses q a r read letter
    exact ⟨early, Nat.not_le.mpr late⟩

theorem announce_crosses (read : Stage.next options q a = some r) (announce : isAnnounce a) :
    q.rank ≤ detecting.rank ∧ detecting.rank < r.rank := by
  cases next_reads read with
  | announce => decide
  | _ => cases announce

theorem read_crosses (read : Stage.next options q a = some r) (asks : isRead a) :
    q.rank ≤ announced.rank ∧ announced.rank < r.rank := by
  cases next_reads read with
  | readAnnounced | readDirectly => decide
  | _ => cases asks

theorem subscribe_crosses (read : Stage.next options q a = some r) (subscribes : isSubscribe a) :
    q.rank ≤ reading.rank ∧ reading.rank < r.rank := by
  cases next_reads read with
  | subscribe at_ => rcases at_ with rfl | rfl <;> decide
  | _ => cases subscribes

theorem done_crosses (read : Stage.next options q a = some r) (ends : isDone a) :
    q.rank ≤ finishing.rank ∧ finishing.rank < r.rank := by
  cases next_reads read with
  | done => decide
  | _ => cases ends

/-- From the subscription on, nothing is probed for. -/
theorem next_subscribed (past : subscribed.rank ≤ q.rank)
    (read : Stage.next options q a = some r) :
    subscribed.rank ≤ r.rank ∧ ¬(isAnnounce a ∨ isRead a) := by
  refine ⟨past.trans (next_rank read), ?_⟩
  rintro (announce | asks)
  · exact absurd (past.trans (announce_crosses read announce).1) (by decide)
  · exact absurd (past.trans (read_crosses read asks).1) (by decide)

/-- Without a subscription, the stages before it and the end are all there is. -/
def Unsubscribed : Stage → Prop
  | idle | detecting | announced | reading | finishing | ended => True
  | _ => False

theorem next_unsubscribed (before : Unsubscribed q) (other : ¬isSubscribe a)
    (read : Stage.next options q a = some r) : Unsubscribed r := by
  cases next_reads read with
  | traced _ | write _ | pause _ | setTimer _ => exact before
  | subscribe _ => simp [isSubscribe] at other
  | authenticate | exchange => exact before.elim
  | _ => trivial

theorem next_late (late : isLate a) (read : Stage.next options q a = some r) :
    ¬Unsubscribed q := by
  cases next_reads read with
  | write at_ | setTimer at_ => rcases at_ with rfl | rfl <;> exact id
  | _ => cases late

/-- Probing is allowed by the options only. -/
def MayProbe (options : Options) : Prop := options.notifyReadable ∧ options.detection ≠ .none

theorem next_announced (read : Stage.next options q a = some r) (announced : r = .announced) :
    MayProbe options := by
  cases next_reads read with
  | announce readable mode => exact ⟨readable, by simp [mode]⟩
  | traced at_ | write at_ | pause at_ | setTimer at_ => simp [announced] at at_
  | _ => cases announced

theorem next_probing (probe : isAnnounce a ∨ isRead a) (read : Stage.next options q a = some r) :
    q = announced ∨ MayProbe options := by
  cases next_reads read with
  | announce readable mode | readDirectly readable mode => exact .inr ⟨readable, by simp [mode]⟩
  | readAnnounced => exact .inl rfl
  | _ => simp [isAnnounce, isRead] at probe

end Stage

/-- The order in which a session asks for things, batch by batch. -/
structure Orderly (options : Options) (batches : List (List Action)) : Prop where
  phases : (batches.flatten.filterMap phaseOf).Sublist
    [.detectingVersion, .authenticating, .exchanging, .finished]
  announceOnce : batches.flatten.countP isAnnounce ≤ 1
  readOnce : batches.flatten.countP isRead ≤ 1
  probing : ∀ a ∈ batches.flatten, isAnnounce a ∨ isRead a →
    options.notifyReadable ∧ options.detection ≠ .none
  probesFirst : ∀ front back, batches.flatten = front ++ .subscribe :: back →
    ∀ a ∈ back, ¬(isAnnounce a ∨ isRead a)
  announcement : ∀ front back, batches.flatten = front ++ .announceAppProtocol :: back →
    options.detection = .appProtocol ∧ ∃ ms rest, back = .readProtocolInfo ms :: rest
  subscribeOnce : batches.flatten.countP isSubscribe ≤ 1
  subscribed : ∀ front a back, batches.flatten = front ++ a :: back → isLate a →
    .subscribe ∈ front
  doneOnce : batches.flatten.countP isDone ≤ 1
  doneLast : ∀ batch ∈ batches, ∀ front result back, batch = front ++ .done result :: back →
    back = [] ∧ ∃ before, front = before ++ [.phase .finished]
  finishedLast : ∀ batch ∈ batches, ∀ front back, batch = front ++ .phase .finished :: back →
    ∃ result, back = [.done result]

section Runs

variable (aes : BlockCipher) (os : RandomSource)

theorem poll_options (s : Session) (event : Event) :
    (s.poll aes os event).1.options = s.options := (poll_follows os aes s event).1

theorem run_options (s : Session) (events : List Event) :
    (run (poll aes os) s events).options = s.options :=
  run_invariant (fun t => t.options = s.options)
    (fun t event same => (poll_options aes os t event).trans same) s rfl events

/-- The actions of a run take the monitor from the stage it starts at to the stage it ends at. -/
theorem run_accepted (s : Session) (events : List Event) :
    Monitor.run (Stage.next s.options) s.stage (outputs (poll aes os) s events).flatten =
      some (run (poll aes os) s events).stage := by
  induction events generalizing s with
  | nil => rfl
  | cons event rest ih =>
    obtain ⟨same, accepted⟩ := poll_follows os aes s event
    have tail := ih (s.poll aes os event).1
    rw [same] at tail
    simp only [outputs, trace, List.map_cons, List.flatten_cons] at tail ⊢
    rw [Monitor.run_append, stepAt, accepted, Option.bind_some, tail]
    rfl

/-- Each batch is read from the stage of one session to the stage of the next. -/
theorem batch_accepted (s : Session) (events : List Event) :
    ∀ batch ∈ outputs (poll aes os) s events, ∃ t t' : Session,
      Monitor.run (Stage.next s.options) t.stage batch = some t'.stage := by
  intro batch member
  obtain ⟨front, event, back, _, rfl⟩ := (mem_outputs_iff s events batch).mp member
  have accepted := (poll_follows os aes (run (poll aes os) s front) event).2
  rw [run_options] at accepted
  exact ⟨_, _, accepted⟩

end Runs

section Accepted

variable {options : Options} {r : Stage} {word : List Action}

theorem reached_announced
    (accepted : Monitor.run (Stage.next options) .idle word = some .announced) :
    Stage.MayProbe options :=
  Monitor.run_closed (fun q => q = .announced → Stage.MayProbe options) (fun _ => True)
    (fun _ _ _ _ _ read => Stage.next_announced read) (by simp) (fun _ _ => trivial) accepted rfl

theorem accepted_probing (accepted : Monitor.run (Stage.next options) .idle word = some r)
    {a : Action} (member : a ∈ word) (probe : isAnnounce a ∨ isRead a) :
    Stage.MayProbe options := by
  obtain ⟨front, back, rfl⟩ := List.append_of_mem member
  obtain ⟨before, _, reached, read, _⟩ := Monitor.run_split accepted
  rcases Stage.next_probing probe read with rfl | may
  · exact reached_announced reached
  · exact may

theorem accepted_announcement {front back : List Action} (rests : r ≠ .announced)
    (accepted : Monitor.run (Stage.next options) .idle (front ++ .announceAppProtocol :: back) =
      some r) :
    options.detection = .appProtocol ∧ ∃ ms rest, back = .readProtocolInfo ms :: rest := by
  obtain ⟨before, after, _, read, tail⟩ := Monitor.run_split accepted
  cases Stage.next_reads read with
  | announce _ mode =>
    -- the run cannot rest on the announcement, and only the read leaves it
    obtain ⟨a, rest, _, rfl, follows, _⟩ := Monitor.run_head rests tail
    cases Stage.next_reads follows with
    | readAnnounced => exact ⟨mode, _, rest, rfl⟩
    | traced at_ | write at_ | pause at_ | setTimer at_ | subscribe at_ | finish at_ =>
      simp at at_

theorem accepted_subscribed {front back : List Action} {a : Action} (late : isLate a)
    (accepted : Monitor.run (Stage.next options) .idle (front ++ a :: back) = some r) :
    .subscribe ∈ front := by
  obtain ⟨before, after, reached, read, _⟩ := Monitor.run_split accepted
  by_contra missing
  have first : Stage.Unsubscribed .idle := trivial
  -- without a subscription in front the monitor is at a stage where no such action is read
  refine Stage.next_late late read (Monitor.run_closed Stage.Unsubscribed
    (fun a => ¬isSubscribe a) (fun _ _ _ => Stage.next_unsubscribed) first ?_ reached)
  intro b member subscribes
  obtain rfl : b = .subscribe := by
    unfold isSubscribe at subscribes
    split at subscribes
    · rfl
    · cases subscribes
  exact missing member

theorem accepted_probesFirst {front back : List Action}
    (accepted : Monitor.run (Stage.next options) .idle (front ++ .subscribe :: back) = some r) :
    ∀ a ∈ back, ¬(isAnnounce a ∨ isRead a) := by
  obtain ⟨before, after, _, read, tail⟩ := Monitor.run_split accepted
  cases Stage.next_reads read with
  | subscribe =>
    exact Monitor.run_without (fun q => Stage.subscribed.rank ≤ q.rank)
      (fun a => isAnnounce a ∨ isRead a) (fun _ _ _ => Stage.next_subscribed) le_rfl tail

/-- The end is reached by the action that announces it, and by no other. -/
theorem accepted_ended (accepted : Monitor.run (Stage.next options) .idle word = some r) :
    r = .ended ↔ ∃ result, .done result ∈ word := by
  constructor
  · rintro rfl
    obtain ⟨front, a, before, rfl, read⟩ := Monitor.run_last (by decide) accepted
    cases Stage.next_reads read with
    | @done result => exact ⟨result, by simp⟩
    | traced at_ | write at_ | pause at_ | setTimer at_ => simp at at_
  · rintro ⟨result, member⟩
    exact accepted_done accepted member

end Accepted

/-- The shell contract of a session, over every sequence of events. -/
theorem action_trace_protocol (aes : BlockCipher) (os : RandomSource) (key : MobileKey)
    (options : Options) (random : Option RandomSource) (events : List Event) :
    let batches := outputs (poll aes os) (start key options random) events
    let last := run (poll aes os) (start key options random) events
    Orderly options batches ∧
      (last.finished ↔ ∃ result, .done result ∈ batches.flatten) ∧
      (last.finished → ∀ later, ∀ batch ∈ outputs (poll aes os) last later, batch = []) := by
  intro batches last
  have accepted : Monitor.run (Stage.next options) .idle batches.flatten = some last.stage :=
    run_accepted aes os (start key options random) events
  have each := batch_accepted aes os (start key options random) events
  refine ⟨⟨?_, ?_, ?_, ?_, ?_, ?_, ?_, ?_, ?_, ?_, ?_⟩, ?_, ?_⟩
  · exact Monitor.run_marks phaseOf Stage.phasesLeft (fun _ _ _ => Stage.next_phases) accepted
  · exact Stage.countP_le_one .detecting isAnnounce (fun _ _ _ => Stage.announce_crosses) accepted
  · exact Stage.countP_le_one .announced isRead (fun _ _ _ => Stage.read_crosses) accepted
  · exact fun a member probe => accepted_probing accepted member probe
  · exact fun front back split => accepted_probesFirst (split ▸ accepted)
  · exact fun front back split =>
      accepted_announcement (stage_rests last).2.1 (split ▸ accepted)
  · exact Stage.countP_le_one .reading isSubscribe (fun _ _ _ => Stage.subscribe_crosses) accepted
  · exact fun front a back split late => accepted_subscribed late (split ▸ accepted)
  · exact Stage.countP_le_one .finishing isDone (fun _ _ _ => Stage.done_crosses) accepted
  · intro batch member front result back split
    obtain ⟨t, t', read⟩ := each batch member
    exact batch_done (stage_rests t).2.2 (split ▸ read)
  · intro batch member front back split
    obtain ⟨t, t', read⟩ := each batch member
    exact batch_finished (stage_rests t').2.2 (split ▸ read)
  · rw [← stage_ended, accepted_ended accepted]
  · intro ended later batch member
    obtain ⟨front, event, _, _, rfl⟩ := (mem_outputs_iff last later batch).mp member
    rw [run_finished aes os ended, poll_finished aes os ended]

end Mkey.Session
