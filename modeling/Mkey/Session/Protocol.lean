import Mkey.Lib.Machine
import Mkey.Lib.Monitor
import Mkey.Session.Steps

/-!
# The contract between session and shell

A monitor over actions states in which order a session may ask for what. Every
poll moves a session from the stage its state stands for to the next one along
the monitor, so the concatenated actions of any run are accepted by it.
-/
namespace Mkey.Session

/-- How far the actions emitted so far have come. -/
inductive Stage where
  | idle
  | detecting
  | announced
  | reading
  | subscribed
  | authenticating
  | exchanging
  | finishing
  | ended
  deriving DecidableEq

/-- What may follow at each stage. Nothing follows the end. -/
def Stage.next (options : Options) (q : Stage) (a : Action) : Option Stage :=
  match q with
  | idle =>
    match a with
    | .phase .detectingVersion => some detecting
    | .phase .finished => some finishing
    | _ => none
  | detecting =>
    match a with
    -- what is not known of the lock yet may be noted, and nothing else
    | .trace _ => some detecting
    | .announceAppProtocol =>
        -- the announcement is for the read that follows it
        if options.notifyReadable && options.detection = .appProtocol then some announced else none
    | .readProtocolInfo _ =>
        if options.notifyReadable && options.detection = .readOnly then some reading else none
    | .subscribe => some subscribed
    | _ => none
  | announced =>
    match a with
    | .readProtocolInfo _ => some reading
    | _ => none
  | reading =>
    match a with
    -- the next poll comes in here, with the bytes that were read or without
    | .trace _ => some reading
    | .subscribe => some subscribed
    | .phase .finished => some finishing
    | _ => none
  | subscribed =>
    match a with
    | .phase .authenticating => some authenticating
    | _ => none
  | authenticating =>
    match a with
    -- both protocols write and wait before they report an exchange
    | .trace _ | .write _ | .pause _ | .setTimer _ _ => some authenticating
    | .phase .exchanging => some exchanging
    | .phase .finished => some finishing
    | _ => none
  | exchanging =>
    match a with
    | .trace _ | .write _ | .pause _ | .setTimer _ _ => some exchanging
    | .phase .finished => some finishing
    | _ => none
  | finishing =>
    match a with
    | .done _ => some ended
    | _ => none
  | ended => none

/-- The transitions of the monitor, one by one. -/
inductive Stage.Reads (options : Options) : Stage → Action → Stage → Prop
  | detect : Reads options idle (.phase .detectingVersion) detecting
  | traced {q : Stage} {t : Trace} :
      q = detecting ∨ q = reading ∨ q = authenticating ∨ q = exchanging →
      Reads options q (.trace t) q
  | announce : options.notifyReadable → options.detection = .appProtocol →
      Reads options detecting .announceAppProtocol announced
  | readAnnounced {ms : UInt32} : Reads options announced (.readProtocolInfo ms) reading
  | readDirectly {ms : UInt32} : options.notifyReadable → options.detection = .readOnly →
      Reads options detecting (.readProtocolInfo ms) reading
  | subscribe {q : Stage} : q = detecting ∨ q = reading → Reads options q .subscribe subscribed
  | authenticate : Reads options subscribed (.phase .authenticating) authenticating
  | exchange : Reads options authenticating (.phase .exchanging) exchanging
  | write {q : Stage} {bytes : List UInt8} : q = authenticating ∨ q = exchanging →
      Reads options q (.write bytes) q
  | pause {q : Stage} {ms : UInt32} : q = authenticating ∨ q = exchanging →
      Reads options q (.pause ms) q
  | setTimer {q : Stage} {id : TimerId} {ms : UInt32} : q = authenticating ∨ q = exchanging →
      Reads options q (.setTimer id ms) q
  | finish {q : Stage} : q = idle ∨ q = reading ∨ q = authenticating ∨ q = exchanging →
      Reads options q (.phase .finished) finishing
  | done {result : Except Error Outcome} : Reads options finishing (.done result) ended

theorem Stage.next_reads {options : Options} {q r : Stage} {a : Action}
    (read : Stage.next options q a = some r) : Reads options q a r := by
  unfold Stage.next at read
  cases q with
  | detecting =>
    dsimp only at read
    split at read
    · cases read
      exact .traced (by simp)
    · split at read
      next allowed =>
        cases read
        simp only [Bool.and_eq_true, decide_eq_true_eq] at allowed
        exact .announce allowed.1 allowed.2
      · cases read
    · split at read
      next allowed =>
        cases read
        simp only [Bool.and_eq_true, decide_eq_true_eq] at allowed
        exact .readDirectly allowed.1 allowed.2
      · cases read
    · cases read
      exact .subscribe (by simp)
    · cases read
  | ended => cases read
  | _ =>
    -- at the other stages no option matters, and what is read names the transition
    dsimp only at read
    split at read
    all_goals cases read
    all_goals constructor
    all_goals simp

def exchangingStage (exchanging : Bool) : Stage :=
  if exchanging then .exchanging else .authenticating

/-- The stage an unfinished session is at between two polls. -/
def stageOf : State → Stage
  | .idle => .idle
  | .detecting => .reading
  | .v0200 session => exchangingStage session.exchanging
  | .v0100 session => exchangingStage (session.step = .awaitingResult)

def stage (s : Session) : Stage := if s.finished then .ended else stageOf s.state

/-- A poll answer that carries the monitor from a stage to the stage of the session it leaves. -/
def Follows (options : Options) (at_ : Stage) (polled : Polled) : Prop :=
  polled.1.options = options ∧
    Monitor.run (Stage.next options) at_ polled.2 = some polled.1.stage

section Follows

variable {options : Options} {q r : Stage} {s : Session}

theorem follows_emit {actions : List Action} {polled : Polled}
    (first : Monitor.run (Stage.next options) q actions = some r)
    (rest : Follows options r polled) : Follows options q (emit actions polled) := by
  refine ⟨rest.1, ?_⟩
  rw [emit, Monitor.run_append, first, Option.bind_some, rest.2]

/-- Wherever the end may be announced, it may be reached. -/
theorem follows_finish (result : Except Error Outcome) (same : s.options = options)
    (may : Stage.next options q (.phase .finished) = some .finishing) :
    Follows options q (s.finish result) := by
  refine ⟨same, ?_⟩
  dsimp only [finish]
  rw [Monitor.run, may]
  rfl

theorem finish_exchangingStage (exchanging : Bool) :
    Stage.next options (exchangingStage exchanging) (.phase .finished) = some .finishing := by
  cases exchanging <;> rfl

/-- While packets are exchanged, anything but a phase leaves the stage as it is. -/
theorem run_exchanging (exchanging : Bool) {actions : List Action}
    (quiet : ∀ a ∈ actions, (∃ t, a = .trace t) ∨ (∃ bytes, a = .write bytes) ∨
      (∃ ms, a = .pause ms) ∨ ∃ id ms, a = .setTimer id ms) :
    Monitor.run (Stage.next options) (exchangingStage exchanging) actions =
      some (exchangingStage exchanging) := by
  apply Monitor.run_stays
  intro a member
  rcases quiet a member with ⟨t, rfl⟩ | ⟨bytes, rfl⟩ | ⟨ms, rfl⟩ | ⟨id, ms, rfl⟩ <;>
    cases exchanging <;> rfl

end Follows

def isDone : Action → Bool
  | .done _ => true
  | _ => false

section Polls

variable (os : RandomSource) {s : Session}

theorem stage_running (running : s.finished = false) : s.stage = stageOf s.state := by
  rw [stage, running, if_neg Bool.false_ne_true]

theorem stage_v0200 (running : s.finished = false) {session : V0200}
    (current : s.state = .v0200 session) : s.stage = exchangingStage session.exchanging := by
  rw [stage_running running, current, stageOf]

theorem stage_v0100 (running : s.finished = false) {session : V0100}
    (current : s.state = .v0100 session) :
    s.stage = exchangingStage (session.step = .awaitingResult) := by
  rw [stage_running running, current, stageOf]

theorem beginV0100_follows (unfinished : s.finished = false) :
    Follows s.options .authenticating s.beginV0100 := by
  refine ⟨rfl, ?_⟩
  simp [beginV0100, Monitor.run, Stage.next, stage, stageOf, exchangingStage, unfinished]

theorem beginV0200_follows (unfinished : s.finished = false) :
    Follows s.options .authenticating (s.beginV0200 os) := by
  refine ⟨rfl, ?_⟩
  simp [beginV0200, Monitor.run, Stage.next, stage, stageOf, exchangingStage, unfinished]

theorem enterExchange_phase (session : V0200) :
    ∀ a ∈ session.enterExchange.2, a = .phase .exchanging := by
  rw [V0200.enterExchange]
  split <;> simp

theorem traceRefusals_quiet (session : V0200) :
    ∀ a ∈ session.traceRefusals.2, ∃ t, a = .trace t := by
  unfold V0200.traceRefusals
  dsimp only
  split <;> simp [info]

/-- A running session may be ended wherever it rests. -/
theorem next_finished (running : s.finished = false) :
    Stage.next s.options s.stage (.phase .finished) = some .finishing := by
  rw [stage_running running]
  cases s.state with
  | idle => rfl
  | detecting => rfl
  | v0200 session => exact finish_exchangingStage _
  | v0100 session => exact finish_exchangingStage _

/-- A flow is prepared and opened from wherever it may start. -/
theorem run_opening (running : s.finished = false) {event : Event} (starts : s.Starts event)
    {notes : List Action} (preparing : Preparing s.state notes) :
    Monitor.run (Stage.next s.options) s.stage (notes ++ opening) = some .authenticating := by
  obtain ⟨noted, quiet, rfl⟩ := preparing
  -- a note leaves the stage as it is, be it the first one of the session or not
  have noting {q : Stage} (stays : ∀ t, Stage.next s.options q (.trace t) = some q) :
      Monitor.run (Stage.next s.options) q noted = some q := by
    apply Monitor.run_stays
    intro a member
    rcases quiet a member with ⟨message, rfl, _⟩ | ⟨bytes, rfl⟩ <;> exact stays _
  rw [stage_running running]
  rcases starts with ⟨idle, _⟩ | ⟨detecting, _⟩
  · rw [idle, stageOf, List.cons_append, Monitor.run]
    dsimp only [Stage.next]
    rw [Option.bind_some, Monitor.run_append, noting fun _ => rfl]
    rfl
  · rw [detecting, stageOf, Monitor.run_append, noting fun _ => rfl]
    rfl

/-- The phase reported on entering the exchange is the step of the monitor. -/
theorem run_enterExchange (options : Options) (session : V0200) :
    Monitor.run (Stage.next options) (exchangingStage session.exchanging) session.enterExchange.2 =
      some (exchangingStage session.enterExchange.1.exchanging) := by
  rw [V0200.enterExchange]
  split
  next entered =>
    have fresh : session.exchanging = false := by
      cases exchanging : session.exchanging <;> simp_all
    rw [fresh]
    rfl
  · rfl

/-- The phase of the exchange is the last thing said with an answer. -/
theorem run_replied (options : Options) (session : V0200) (stack : JustinStack0100 NoopKeyStore)
    (packet response : List UInt8) :
    Monitor.run (Stage.next options) (exchangingStage session.exchanging)
      (session.replied stack packet response) =
        some (exchangingStage (session.afterAnswer stack).exchanging) := by
  have quiet := traceRefusals_quiet { session with stack }
  have kept := V0200.traceRefusals_exchanging { session with stack }
  have entered := run_enterExchange options ({ session with stack } : V0200).traceRefusals.1
  rw [kept] at entered
  rw [V0200.replied, Monitor.run_append, run_exchanging, Option.bind_some, entered,
    V0200.afterAnswer, V0200.latchVerdict_exchanging]
  intro a member
  simp only [List.mem_append, List.mem_cons, List.not_mem_nil, or_false] at member
  rcases member with ((rfl | rfl) | noise) | rfl
  · exact .inl ⟨_, rfl⟩
  · exact .inl ⟨_, rfl⟩
  · exact .inl (quiet a noise)
  · exact .inr (.inl ⟨_, rfl⟩)

/-- Every poll takes the monitor from the stage of the session to the stage it leaves. -/
theorem poll_follows (aes : BlockCipher) (s : Session) (event : Event) :
    Follows s.options s.stage (s.poll aes os event) := by
  have step := poll_step aes os s event
  generalize s.poll aes os event = polled at step
  -- an end behind a trace: the stage is still the one the session was at
  have ends {t : Trace} (running : s.finished = false)
      (traced : Monitor.run (Stage.next s.options) s.stage [.trace t] = some s.stage)
      (result : Except Error Outcome) :
      Follows s.options s.stage (emit [.trace t] (s.finish result)) :=
    follows_emit traced (follows_finish _ rfl (next_finished running))
  cases step with
  | halted => exact ⟨rfl, rfl⟩
  | cancelled running | unexpected running | disconnected running =>
    exact follows_finish _ rfl (next_finished running)
  | detecting running idle readable announced =>
    refine ⟨rfl, ?_⟩
    rw [stage_running running, idle]
    rcases announced with ⟨option, rfl⟩ | ⟨option, rfl⟩ <;>
      simp [Monitor.run, Stage.next, stageOf, stage, running, readable, option]
  | version running detecting =>
    refine ends running ?_ _
    rw [stage_running running, detecting]
    rfl
  | beganV0200 running starts preparing =>
    exact follows_emit (run_opening running starts preparing) (beginV0200_follows os running)
  | beganV0100 running detecting =>
    refine follows_emit ?_ (beginV0100_follows running)
    rw [stage_running running, detecting]
    rfl
  | answered running current =>
    refine ⟨rfl, ?_⟩
    rw [stage_v0200 running current, Monitor.run_append, run_replied, Option.bind_some,
      run_exchanging _ (by simp)]
    simp [stage, stageOf, running]
  | closed running current =>
    rw [stage_v0200 running current]
    exact follows_emit (run_replied _ _ _ _ _)
      (follows_finish _ rfl (finish_exchangingStage _))
  | refused running current =>
    rw [stage_v0200 running current]
    exact follows_emit (run_exchanging _ (by simp))
      (follows_finish _ rfl (finish_exchangingStage _))
  | silentV0200 running current | lostV0200 running current =>
    refine ends running ?_ _
    rw [stage_v0200 running current]
    exact run_exchanging _ (by simp)
  | ignored running current =>
    refine ⟨rfl, ?_⟩
    rw [stage_v0100 running current]
    exact run_exchanging _ (by simp [info])
  | signed running current awaiting =>
    refine ⟨rfl, ?_⟩
    rw [stage_v0100 running current, awaiting]
    simp [Monitor.run, Stage.next, exchangingStage, stageOf, stage, running]
  | resulted running current | shortV0100 running current | silentV0100 running current =>
    refine ends running ?_ _
    rw [stage_v0100 running current]
    exact run_exchanging _ (by simp)

end Polls

section Ends

theorem ended_dead {options : Options} (a : Action) : Stage.next options .ended a = none := by
  cases read : Stage.next options .ended a with
  | none => rfl
  | some r =>
    cases Stage.next_reads read with
    | traced at_ | write at_ | pause at_ | setTimer at_ | subscribe at_ | finish at_ =>
      simp at at_

/-- Wherever a word starts, nothing follows the end of the session. -/
theorem accepted_done {options : Options} {q r : Stage} {word : List Action}
    {result : Except Error Outcome} (accepted : Monitor.run (Stage.next options) q word = some r)
    (member : .done result ∈ word) : r = .ended := by
  obtain ⟨front, back, rfl⟩ := List.append_of_mem member
  obtain ⟨before, after, _, read, tail⟩ := Monitor.run_split accepted
  cases Stage.next_reads read with
  | done =>
    rw [Monitor.run_dead ended_dead tail] at tail
    exact (Option.some.inj tail).symm

theorem Stage.next_finishing {options : Options} {q : Stage} {a : Action}
    (read : Stage.next options q a = some .finishing) : a = .phase .finished := by
  cases next_reads read with
  | finish => rfl
  | traced at_ | write at_ | pause at_ | setTimer at_ => simp at at_

/-- The end closes its batch, right after it is announced. -/
theorem batch_done {options : Options} {q r : Stage} (rests : q ≠ .finishing)
    {front back : List Action} {result : Except Error Outcome}
    (accepted : Monitor.run (Stage.next options) q (front ++ .done result :: back) = some r) :
    back = [] ∧ ∃ before, front = before ++ [.phase .finished] := by
  obtain ⟨before, after, reached, read, tail⟩ := Monitor.run_split accepted
  cases Stage.next_reads read with
  | done =>
    obtain ⟨first, a, _, rfl, last⟩ := Monitor.run_last rests reached
    rw [Stage.next_finishing last]
    exact ⟨Monitor.run_dead ended_dead tail, first, rfl⟩

theorem batch_finished {options : Options} {q r : Stage} (rests : r ≠ .finishing)
    {front back : List Action}
    (accepted : Monitor.run (Stage.next options) q (front ++ .phase .finished :: back) = some r) :
    ∃ result, back = [.done result] := by
  obtain ⟨before, after, _, read, tail⟩ := Monitor.run_split accepted
  cases Stage.next_reads read with
  | finish =>
    -- the monitor cannot rest on an announced end, so the end itself follows
    obtain ⟨a, rest, _, rfl, follows, tail⟩ := Monitor.run_head rests tail
    cases Stage.next_reads follows with
    | @done result =>
      rw [Monitor.run_dead ended_dead tail]
      exact ⟨result, rfl⟩
    | traced at_ | write at_ | pause at_ | setTimer at_ | subscribe at_ | finish at_ =>
      simp at at_

/-- Between polls the monitor is at rest. -/
theorem stage_rests (s : Session) :
    s.stage ≠ .detecting ∧ s.stage ≠ .announced ∧ s.stage ≠ .finishing := by
  unfold stage stageOf exchangingStage
  split
  · decide
  · split
    · decide
    · decide
    · split <;> decide
    · split <;> decide

theorem stage_idle {s : Session} (fresh : s.stage = .idle) :
    s.finished = false ∧ s.state = .idle := by
  unfold stage stageOf exchangingStage at fresh
  split at fresh
  · cases fresh
  next running =>
    refine ⟨by simpa using running, ?_⟩
    split at fresh
    next idle => exact idle
    · cases fresh
    · split at fresh <;> cases fresh
    · split at fresh <;> cases fresh

theorem stage_ended (s : Session) : s.stage = .ended ↔ s.finished := by
  rw [stage]
  split
  next ended => simp [ended]
  next unfinished =>
    simp only [unfinished]
    unfold stageOf exchangingStage
    split
    · decide
    · decide
    · split <;> decide
    · split <;> decide

variable (aes : BlockCipher) (os : RandomSource) {s : Session}

theorem poll_finished (halted : s.finished) (event : Event) :
    s.poll aes os event = (s, []) := by
  rw [poll, if_pos halted]

theorem run_finished (halted : s.finished) (events : List Event) :
    Machine.run (poll aes os) s events = s := by
  induction events with
  | nil => rfl
  | cons event rest ih => rwa [Machine.run, poll_finished aes os halted]

/-- The end is reported by the poll that finishes the session. -/
theorem finished_of_done {event : Event} {result : Except Error Outcome}
    (reported : .done result ∈ (s.poll aes os event).2) : (s.poll aes os event).1.finished :=
  (stage_ended _).mp (accepted_done (poll_follows os aes s event).2 reported)

end Ends

end Mkey.Session
