import Mkey.Core.StackSteps
import Mkey.Session.Batches

/-!
# The verdict of a v0200 session

The command layer remembers the latest audit write, the session the first one
that is final. Sampled once a packet, the two latches together keep the first
final value of the whole run, which is what an outcome reports.
-/
namespace Mkey

namespace JustinStack0100

variable (aes : BlockCipher) (stack : JustinStack0100 NoopKeyStore)

/-- The result a packet reports: the first byte of an audit write answered with success. -/
def auditWrite (packet : List UInt8) : Option UInt8 :=
  match stack.command aes packet with
  | some (0x03 :: id :: first :: _, _) =>
      if id = tagAudit ∧ stack.answered aes packet = some (.ok [CommandStatus.success.toByte]) then
        some first
      else none
  | _ => none

/-- The command layer remembers an audit write, and any other packet leaves its memory alone. -/
theorem handlePacket_lastAudit (packet : List UInt8) :
    (stack.handlePacket aes packet).1.justin.lastAuditOpResult =
      (stack.auditWrite aes packet).or stack.justin.lastAuditOpResult := by
  rw [handlePacket_justin]
  rw [auditWrite]
  cases carried : stack.command aes packet with
  | none => rfl
  | some command =>
    obtain ⟨payload, secure⟩ := command
    dsimp only
    have answered : stack.answered aes packet = some (stack.justin.call payload secure).2 := by
      rw [JustinStack0100.answered, carried, Option.map_some]
    rw [answered]
    have step := stack.justin.call_step secure payload
    generalize stack.justin.call payload secure = result at step
    cases step with
    | failed => split <;> simp
    -- an answer that leaves no trace is no success of a write
    | @answered _ reply write =>
      split
      next id first more _ same =>
        obtain ⟨rfl, _⟩ := Prod.mk.inj (Option.some.inj same)
        simp [write rfl]
      · rfl
    | refused | closed => rfl
    | opened => rfl
    | @wrote id first more key tag =>
      by_cases audit : id = tagAudit
      · simp [JustinProtocolManager.wrote, audit]
      · simp [JustinProtocolManager.wrote, audit]

/-- A packet the stack fails on reports nothing. -/
theorem auditWrite_failed {packet : List UInt8}
    (failed : (stack.handlePacket aes packet).2.isOk = false) :
    stack.auditWrite aes packet = none := by
  rw [auditWrite]
  split
  · split
    next written =>
      rw [handlePacket_isOk aes stack written.2] at failed
      cases failed
    · rfl
  · rfl

theorem auditWrite_answered {packet : List UInt8} {r : UInt8}
    (written : stack.auditWrite aes packet = some r) :
    stack.answered aes packet = some (.ok [CommandStatus.success.toByte]) := by
  rw [auditWrite] at written
  split at written
  · split at written
    next audit => exact audit.2
    next => cases written
  · cases written

end JustinStack0100

namespace V0200

/-- The latch takes the latest audit write if it is final and nothing was latched before. -/
theorem latchVerdict_finalOpResult (session : V0200) :
    session.latchVerdict.finalOpResult = session.finalOpResult.or
      (session.stack.justin.lastAuditOpResult.filter fun r => (OpResultGroup.of r).isFinal) := by
  rw [latchVerdict]
  cases latched : session.finalOpResult with
  | some r => simp [latched]
  | none =>
    cases session.stack.justin.lastAuditOpResult with
    | none => simp [latched]
    | some r =>
      dsimp only
      split <;> simp_all [Option.filter]

theorem afterAnswer_finalOpResult (session : V0200) (stack : JustinStack0100 NoopKeyStore) :
    (session.afterAnswer stack).finalOpResult = session.finalOpResult.or
      (stack.justin.lastAuditOpResult.filter fun r => (OpResultGroup.of r).isFinal) := by
  rw [afterAnswer, latchVerdict_finalOpResult]
  simp

end V0200

namespace Session

open Machine

variable (aes : BlockCipher) (os : RandomSource)

/-- The result an event reports to an unfinished v0200 session. -/
def reported (s : Session) (event : Event) : Option UInt8 :=
  if s.finished then none
  else
    match s.stack, event with
    | some stack, .notification packet => stack.auditWrite aes packet
    | _, _ => none

/-- Every result reported in a run, in order. -/
def auditLog (s : Session) (events : List Event) : List UInt8 :=
  (trace (poll aes os) s events).filterMap fun x => x.before.reported aes x.input

def isVerdict (opResult : UInt8) : Bool := (OpResultGroup.of opResult).isFinal

/-- What a session has latched, against the results reported so far. -/
def Latched (log : List UInt8) (s : Session) : Prop :=
  match s.state with
  | .v0200 session =>
      session.finalOpResult = log.find? isVerdict ∧
        session.stack.justin.lastAuditOpResult = log.getLast?
  | _ => log = []

/-- A session that has not begun its exchange has nothing to latch. -/
theorem latched_before {s : Session} (event : Event)
    (before : ∀ session, s.state ≠ .v0200 session) :
    Latched [] (s.poll aes os event).1 := by
  rw [Latched]
  split
  next session after =>
    obtain ⟨ssp, key, rfl⟩ := poll_fresh aes os before event after
    exact ⟨rfl, rfl⟩
  · rfl

/-- A packet moves the stack, and the latch when the stack has an answer. -/
theorem poll_packet {s : Session} {session : V0200} (running : s.finished = false)
    (current : s.state = .v0200 session) (packet : List UInt8) :
    ∃ session', (s.poll aes os (.notification packet)).1.state = .v0200 session' ∧
      session'.stack = (session.stack.handlePacket aes packet).1 ∧
      session'.finalOpResult = session.finalOpResult.or
        (if (session.stack.handlePacket aes packet).2.isOk then
          (session.stack.handlePacket aes packet).1.justin.lastAuditOpResult.filter isVerdict
        else none) := by
  cases handled : session.stack.handlePacket aes packet with
  | mk stack answer =>
    cases answer with
    -- an error ends the poll before anything is latched
    | error e =>
      rw [poll_refused aes os running current handled]
      exact ⟨{ session with stack }, rfl, rfl, by simp [Except.isOk, Except.toBool]⟩
    | ok response =>
      rw [poll_answered aes os running current handled, emit_fst]
      have latched := session.afterAnswer_finalOpResult stack
      split
      · exact ⟨session.afterAnswer stack, rfl, session.afterAnswer_stack stack, latched⟩
      · exact ⟨_, rfl, session.afterAnswer_stack stack, latched⟩

/-- Whatever is no packet leaves an exchange as it is. -/
theorem poll_unmoved {s : Session} {session : V0200} (current : s.state = .v0200 session)
    {event : Event} (other : ∀ packet, event ≠ .notification packet) :
    (s.poll aes os event).1.state = s.state := by
  have step := poll_step aes os s event
  generalize s.poll aes os event = polled at step
  cases step with
  | halted | cancelled | unexpected | disconnected | version => rfl
  | silentV0200 | lostV0200 | silentV0100 => rfl
  | detecting _ early | beganV0100 _ early =>
    rw [current] at early
    cases early
  | beganV0200 _ starts =>
    rcases starts with ⟨early, _⟩ | ⟨early, _⟩ <;> rw [current] at early <;> cases early
  | answered | closed | refused | ignored | signed | resulted | shortV0100 =>
    exact absurd rfl (other _)

/-- The last entry of a log is final only if some entry of it is. -/
theorem find?_or_last (log : List UInt8) :
    (log.find? isVerdict).or (log.getLast?.filter isVerdict) = log.find? isVerdict := by
  cases found : log.find? isVerdict with
  | some r => rfl
  | none =>
    rw [Option.none_or, Option.filter_eq_none_iff]
    intro r last
    exact List.find?_eq_none.mp found r (List.mem_of_getLast? last)

/-- One poll keeps the latches in step with the log. -/
theorem Latched.step {log : List UInt8} {s : Session} (latched : Latched log s) (event : Event) :
    Latched (log ++ (s.reported aes event).toList) (s.poll aes os event).1 := by
  -- before the exchange there is nothing to report and nothing to latch
  by_cases before : ∀ session, s.state ≠ .v0200 session
  · have silent : s.reported aes event = none := by
      unfold reported stack
      cases current : s.state with
      | v0200 session => exact absurd current (before session)
      | _ => simp
    have empty : log = [] := by
      unfold Latched at latched
      split at latched
      next session current => exact absurd current (before session)
      · exact latched
    rw [silent, empty]
    exact latched_before aes os event before
  · push Not at before
    obtain ⟨session, current⟩ := before
    have kept {t : Session} (state : t.state = s.state) : Latched (log ++ []) t := by
      rw [Latched, state, List.append_nil]
      exact latched
    by_cases packets : ∃ packet, event = .notification packet
    · obtain ⟨packet, rfl⟩ := packets
      cases halted : s.finished with
      | true =>
        have silent : s.reported aes (.notification packet) = none := by simp [reported, halted]
        rw [silent, poll_finished aes os halted]
        exact kept rfl
      | false =>
        have listens : s.reported aes (.notification packet) =
            session.stack.auditWrite aes packet := by
          simp [reported, halted, Session.stack, current]
        rw [listens]
        obtain ⟨session', state, stack, verdict⟩ := poll_packet aes os halted current packet
        rw [Latched, current] at latched
        obtain ⟨first, last⟩ := latched
        -- the command layer has the last entry of the log, the session its first final one
        have remembered := session.stack.handlePacket_lastAudit aes packet
        rw [last] at remembered
        rw [Latched, state]
        rw [first, remembered] at verdict
        refine ⟨?_, ?_⟩
        · rw [verdict, List.find?_append]
          cases answered : (session.stack.handlePacket aes packet).2.isOk with
          -- no answer, no latch: and the packet reported nothing either
          | false => simp [session.stack.auditWrite_failed aes answered]
          | true =>
            cases session.stack.auditWrite aes packet with
            | none => simp [find?_or_last]
            -- a final entry is latched now unless an earlier one was
            | some r => by_cases final : isVerdict r <;> simp [Option.filter, final]
        · rw [stack, remembered, List.getLast?_append]
          cases session.stack.auditWrite aes packet <;> simp
    · have other : ∀ packet, event ≠ .notification packet :=
        fun packet same => packets ⟨packet, same⟩
      have silent : s.reported aes event = none := by
        unfold reported
        cases event <;> simp at other ⊢
      rw [silent]
      exact kept (poll_unmoved aes os current other)

theorem latched_run (key : MobileKey) (options : Options) (random : Option RandomSource)
    (events : List Event) :
    Latched (auditLog aes os (start key options random) events)
      (run (poll aes os) (start key options random) events) := by
  let heard (past : List (Step Session Event (List Action))) : List UInt8 :=
    past.filterMap fun x => x.before.reported aes x.input
  have first : Latched (heard []) (start key options random) := rfl
  have preserved (past : List (Step Session Event (List Action))) (s : Session) (event : Event)
      (latched : Latched (heard past) s) :
      Latched (heard (past ++ [stepAt (poll aes os) s event])) (s.poll aes os event).1 := by
    have next := latched.step aes os event
    cases result : s.reported aes event <;> simpa [heard, stepAt, result] using next
  exact history_invariant (fun past s => Latched (heard past) s) _ first preserved events

/-! ### What an end reports -/

/-- A success reported by a session in its v0200 exchange reports the latch. -/
def Honest (polled : Polled) : Prop :=
  ∀ outcome session, .done (.ok outcome) ∈ polled.2 → polled.1.state = .v0200 session →
    outcome = Outcome.new 2 session.finalOpResult

theorem honest_emit {actions : List Action} {polled : Polled}
    (quiet : ∀ a ∈ actions, isDone a = false) (honest : Honest polled) :
    Honest (emit actions polled) := by
  intro outcome session reported current
  rcases List.mem_append.mp reported with early | late
  · exact absurd (quiet _ early) (by simp [isDone])
  · exact honest outcome session late current

theorem honest_quiet {polled : Polled} (quiet : ∀ a ∈ polled.2, isDone a = false) :
    Honest polled := fun _ _ reported _ => absurd (quiet _ reported) (by simp [isDone])

theorem honest_error (s : Session) (e : Error) : Honest (s.finish (.error e)) := by
  intro outcome session reported _
  simp [finish] at reported

theorem honest_outcome {s : Session} {session : V0200} (current : s.state = .v0200 session) :
    Honest (s.finish (.ok (Outcome.new 2 session.finalOpResult))) := by
  intro outcome session' reported current'
  rw [finish_state, current, State.v0200.injEq] at current'
  subst current'
  simpa [finish] using reported

theorem honest_elsewhere {polled : Polled}
    (elsewhere : ∀ session, polled.1.state ≠ .v0200 session) :
    Honest polled := fun _ session _ current => absurd current (elsewhere session)

theorem honest_poll (s : Session) (event : Event) : Honest (s.poll aes os event) := by
  have step := poll_step aes os s event
  generalize s.poll aes os event = polled at step
  cases step with
  | halted => exact honest_quiet (by simp)
  | cancelled | unexpected | disconnected => exact honest_error s _
  | version | refused | shortV0100 | silentV0100 =>
    exact honest_emit (by simp [info, isDone]) (honest_error _ _)
  | detecting _ _ _ announced =>
    rcases announced with ⟨_, rfl⟩ | ⟨_, rfl⟩ <;> exact honest_quiet (by simp [isDone])
  | beganV0200 _ _ preparing =>
    exact honest_emit preparing.quiet (honest_quiet (by simp [beginV0200, isDone]))
  | beganV0100 => exact honest_quiet (by simp [emit, beginV0100, opening, isDone])
  | answered =>
    apply honest_quiet
    intro a member
    rcases List.mem_append.mp member with sent | armed
    · exact replied_quiet _ _ _ _ a sent
    · rw [List.mem_singleton.mp armed]
      rfl
  | closed => exact honest_emit (replied_quiet _ _ _ _) (honest_outcome rfl)
  | @silentV0200 session id message result _ current _ told =>
    refine honest_emit (by simp [info, isDone]) ?_
    cases latched : session.finalOpResult with
    | none =>
      rw [told, latched]
      exact honest_error s _
    | some opResult =>
      have honest := honest_outcome current
      rw [latched] at honest
      rw [told, latched]
      exact honest
  | lostV0200 _ current => exact honest_emit (by simp [info, isDone]) (honest_outcome current)
  | ignored _ current | resulted _ current => exact honest_elsewhere (by simp [current])
  | signed => exact honest_elsewhere (by simp)

/-- Over a whole run, a success reports what is latched when all is over. -/
theorem honest_run (s : Session) (events : List Event) {outcome : Outcome} {session : V0200}
    (reported : .done (.ok outcome) ∈ (outputs (poll aes os) s events).flatten)
    (current : (run (poll aes os) s events).state = .v0200 session) :
    outcome = Outcome.new 2 session.finalOpResult := by
  obtain ⟨batch, member, inside⟩ := List.mem_flatten.mp reported
  obtain ⟨front, event, back, rfl, rfl⟩ := (mem_outputs_iff s events batch).mp member
  have halted := finished_of_done aes os inside
  -- the session that reported the end is the one the run leaves
  rw [run_append, run, run_finished aes os halted] at current
  exact honest_poll aes os _ event outcome session inside current

/-- The first final result of a run, when the lock has made one known. -/
def verdict (log : List UInt8) : Option UInt8 := log.find? isVerdict

/-- Every result on record is that of a packet the lock is written the success of. -/
theorem reported_written {s : Session} {event : Event} {r : UInt8}
    (reports : s.reported aes event = some r) :
    ∃ session packet, s.finished = false ∧ s.state = .v0200 session ∧
      event = .notification packet ∧
      .write (session.stack.replyTo aes packet [CommandStatus.success.toByte]) ∈
        (s.poll aes os event).2 := by
  cases running : s.finished with
  | true =>
    unfold reported at reports
    rw [if_pos running] at reports
    cases reports
  | false =>
    unfold reported at reports
    rw [if_neg (by simp [running])] at reports
    split at reports
    next stack packet held =>
      rw [Session.stack] at held
      split at held
      next session state =>
        obtain rfl := Option.some.inj held
        refine ⟨session, packet, rfl, state, rfl, ?_⟩
        have replied := session.stack.handlePacket_answered aes
          (session.stack.auditWrite_answered aes reports)
        cases handled : session.stack.handlePacket aes packet with
        | mk stack answer =>
          rw [handled] at replied
          dsimp only at replied
          subst replied
          have polled := poll_answered aes os running state handled
          simp [polled, emit, V0200.replied]
      next => cases held
    next => cases reports

/-- A v0200 session that ends in success reports the first final audit write of its run, and the
lock has been written the success of every audit write that counts. -/
theorem verdict_correct (key : MobileKey) (options : Options) (random : Option RandomSource)
    (events : List Event) (session : V0200) (outcome : Outcome)
    (v0200 : (run (poll aes os) (start key options random) events).state = .v0200 session)
    (succeeded : .done (.ok outcome) ∈
      (outputs (poll aes os) (start key options random) events).flatten) :
    outcome.protocolVersion = 2 ∧
      outcome.opResult = verdict (auditLog aes os (start key options random) events) ∧
      (outcome.accepted ↔ ∃ r, verdict (auditLog aes os (start key options random) events) =
        some r ∧ r.toNat % 4 = 2) ∧
      ∀ x ∈ trace (poll aes os) (start key options random) events, ∀ r,
        x.before.reported aes x.input = some r →
        ∃ session packet, x.before.state = .v0200 session ∧ x.input = .notification packet ∧
          .write (session.stack.replyTo aes packet [CommandStatus.success.toByte]) ∈ x.output := by
  have latched := latched_run aes os key options random events
  rw [Latched, v0200] at latched
  have honest := honest_run aes os _ events succeeded v0200
  rw [latched.1] at honest
  subst honest
  refine ⟨rfl, rfl, ?_, ?_⟩
  rotate_left
  · intro x member r reports
    obtain ⟨front, event, back, _, rfl⟩ := (mem_trace_iff _ _ x).mp member
    obtain ⟨session, packet, _, state, same, written⟩ := reported_written aes os reports
    exact ⟨session, packet, state, same, written⟩
  rw [verdict]
  cases (auditLog aes os (start key options random) events).find? isVerdict with
  | none => simp [Outcome.new, OpResultGroup.isAccepted]
  | some r => simp [Outcome.new, OpResultGroup.isAccepted_iff]

/-- A key with the audit tags that parsing always puts in. -/
def auditKey : MobileKey :=
  { MobileKey.new (Block.replicate 0x42) with tags := MobileKey.materialise fun _ => none }

def undetected : Options := { Options.default with detection := .none }

def zeroes : RandomSource := ⟨fun _ => Block.replicate 0, 0⟩

/-- The lock writes `opResult` to the audit tag, in the clear. -/
def auditPacket (opResult : UInt8) : Event := .notification [0x00, 0x03, tagAudit, opResult]

/-- The ends among some actions. -/
def ends (actions : List Action) : List (Except Error Outcome) :=
  actions.filterMap fun
    | .done result => some result
    | _ => none

theorem mem_ends {actions : List Action} {result : Except Error Outcome} :
    result ∈ ends actions ↔ .done result ∈ actions := by
  rw [ends]
  rw [List.mem_filterMap]
  constructor
  · rintro ⟨a, member, same⟩
    split at same
    · cases same
      exact member
    · cases same
  · exact fun member => ⟨_, member, rfl⟩

theorem verdict_correct_first_of_three :
    ∃ session, (run (poll aes128 zeroes) (start auditKey undetected none)
      [.started, auditPacket 1, auditPacket 2, auditPacket 3, .linkClosed]).state =
        .v0200 session ∧
      (Outcome.new 2 (some 2)).protocolVersion = 2 ∧
      (Outcome.new 2 (some 2)).opResult = verdict (auditLog aes128 zeroes
        (start auditKey undetected none)
        [.started, auditPacket 1, auditPacket 2, auditPacket 3, .linkClosed]) ∧
      ((Outcome.new 2 (some 2)).accepted ↔ ∃ r, verdict (auditLog aes128 zeroes
        (start auditKey undetected none)
        [.started, auditPacket 1, auditPacket 2, auditPacket 3, .linkClosed]) = some r ∧
          r.toNat % 4 = 2) := by
  obtain ⟨version, result, accepted, _⟩ := verdict_correct aes128 zeroes auditKey undetected none
    [.started, auditPacket 1, auditPacket 2, auditPacket 3, .linkClosed] _
    (Outcome.new 2 (some 2)) rfl (mem_ends.mp (by decide +kernel))
  exact ⟨_, rfl, version, result, accepted⟩

/-! ### What becomes of a verdict -/

/-- The events a shell may still feed to a v0200 session, short of aborting it. -/
def ofLock : Event → Bool
  | .notification _ | .timer _ | .linkClosed => true
  | .started | .protocolInfo _ | .aborted => false

/-- A v0200 exchange in which a verdict is latched. -/
def Decided (r : UInt8) (s : Session) : Prop :=
  ∃ session, s.state = .v0200 session ∧ session.finalOpResult = some r

/-- A verdict is latched for good, to the end of the exchange and beyond. -/
theorem Decided.poll {r : UInt8} {s : Session} (decided : Decided r s) (event : Event) :
    Decided r (s.poll aes os event).1 := by
  obtain ⟨session, current, held⟩ := decided
  by_cases packets : ∃ packet, event = .notification packet
  · obtain ⟨packet, rfl⟩ := packets
    cases halted : s.finished with
    | true =>
      rw [poll_finished aes os halted]
      exact ⟨session, current, held⟩
    | false =>
      obtain ⟨session', state, _, latch⟩ := poll_packet aes os halted current packet
      exact ⟨session', state, by rw [latch, held, Option.some_or]⟩
  · refine ⟨session, ?_, held⟩
    rw [← current]
    exact poll_unmoved aes os current fun packet same => packets ⟨packet, same⟩

theorem Decided.run {r : UInt8} {s : Session} (decided : Decided r s) (events : List Event) :
    Decided r (run (Session.poll aes os) s events) :=
  run_invariant (Decided r) (fun _ event decided => decided.poll aes os event) s decided events

/-- Among the events of the lock, a refused packet ends in an error, and silence before a verdict;
nothing else does. -/
theorem poll_error {s : Session} {session : V0200} {event : Event} {e : Error}
    (running : s.finished = false) (current : s.state = .v0200 session) (lock : ofLock event)
    (reported : .done (.error e) ∈ (s.poll aes os event).2) :
    (∃ packet, event = .notification packet ∧
      (session.stack.handlePacket aes packet).2.isOk = false) ∨ session.finalOpResult = none := by
  cases event with
  | notification packet =>
    refine .inl ⟨packet, rfl, ?_⟩
    cases handled : session.stack.handlePacket aes packet with
    | mk stack answer =>
      cases answer with
      | error _ => rfl
      | ok response =>
        rw [poll_answered aes os running current handled] at reported
        rcases List.mem_append.mp reported with sent | last
        · -- the answer goes out, and then the end is a success or there is none
          have quiet := replied_quiet session stack packet response _ sent
          cases quiet
        · split at last <;> simp [finish] at last
  | timer id =>
    refine .inr ?_
    rw [poll_v0200 aes os running current (by simp), pollV0200] at reported
    dsimp only at reported
    split at reported
    · simp [emit, info, finish] at reported
    next none => exact none
  | linkClosed =>
    rw [poll_v0200 aes os running current (by simp)] at reported
    simp [pollV0200, emit, info, finish] at reported
  | started | protocolInfo | aborted => cases lock

/-- Once the run has a verdict, the session holds it. -/
theorem decided_run {key : MobileKey} {options : Options} {random : Option RandomSource}
    {events : List Event} {session : V0200} {r : UInt8}
    (current : (run (poll aes os) (start key options random) events).state = .v0200 session)
    (reached : verdict (auditLog aes os (start key options random) events) = some r) :
    Decided r (run (poll aes os) (start key options random) events) := by
  have latched := latched_run aes os key options random events
  rw [Latched, current] at latched
  exact ⟨session, current, latched.1.trans reached⟩

theorem refused_error {s : Session} {session : V0200} {packet : List UInt8}
    (running : s.finished = false) (current : s.state = .v0200 session)
    (refused : (session.stack.handlePacket aes packet).2.isOk = false) :
    ∃ e, .done (.error e) ∈ (s.poll aes os (.notification packet)).2 := by
  cases handled : session.stack.handlePacket aes packet with
  | mk stack answer =>
    cases answer with
    | error e =>
      rw [poll_refused aes os running current handled]
      exact ⟨e, by simp [emit, finish]⟩
    | ok response => simp [handled, Except.isOk, Except.toBool] at refused

/-- A packet with an answer, silence or a lost link: whatever ends the session, the verdict is
reported. -/
theorem Decided.reported {r : UInt8} {s : Session} (decided : Decided r s)
    (running : s.finished = false) {event : Event} (lock : ofLock event)
    (accepts : ∀ packet stack, event = .notification packet → s.stack = some stack →
      stack.Accepts aes packet)
    {result : Except Error Outcome} (ended : .done result ∈ (s.poll aes os event).2) :
    ∃ outcome, result = .ok outcome ∧ outcome.opResult = some r := by
  cases result with
  | ok outcome =>
    obtain ⟨session', after, kept⟩ := decided.poll aes os event
    have honest := honest_poll aes os s event outcome session' ended after
    exact ⟨outcome, rfl, by rw [honest, kept]; rfl⟩
  | error e =>
    obtain ⟨session, current, held⟩ := decided
    rcases poll_error aes os running current lock ended with ⟨packet, rfl, refused⟩ | silent
    · have meant := accepts packet session.stack rfl (by simp [Session.stack, current])
      rw [← JustinStack0100.handlePacket_isOk_iff, refused] at meant
      cases meant
    · rw [held] at silent
      cases silent

/-- After a verdict, the events of the lock end the session with it exactly when every packet
among them that a running session gets is one its stack has an answer to. -/
theorem verdict_kept_iff (key : MobileKey) (options : Options) (random : Option RandomSource)
    (events : List Event) (session : V0200) (r : UInt8)
    (v0200 : (run (poll aes os) (start key options random) events).state = .v0200 session)
    (decided : verdict (auditLog aes os (start key options random) events) = some r)
    (continuation : List Event) (lock : ∀ event ∈ continuation, ofLock event) :
    (∀ result, .done result ∈ (outputs (poll aes os)
        (run (poll aes os) (start key options random) events) continuation).flatten →
      ∃ outcome, result = .ok outcome ∧ outcome.opResult = some r) ↔
    (∀ front packet back stack, continuation = front ++ .notification packet :: back →
      (run (poll aes os) (start key options random) (events ++ front)).finished = false →
      (run (poll aes os) (start key options random) (events ++ front)).stack = some stack →
      stack.Accepts aes packet) := by
  constructor
  · intro kept front packet back stack split running current
    rw [run_append] at running current
    generalize reached : run (poll aes os) (run (poll aes os) (start key options random) events)
      front = t at running current
    -- a packet refused here would be an end in error
    obtain ⟨session', state, rfl⟩ : ∃ session', t.state = .v0200 session' ∧
        session'.stack = stack := by
      rw [Session.stack] at current
      split at current
      next session' state => exact ⟨session', state, Option.some.inj current⟩
      · cases current
    by_contra refused
    rw [← JustinStack0100.handlePacket_isOk_iff, Bool.not_eq_true] at refused
    obtain ⟨e, ended⟩ := refused_error aes os running state refused
    have reported : .done (.error e) ∈ (outputs (poll aes os)
        (run (poll aes os) (start key options random) events) continuation).flatten := by
      refine List.mem_flatten.mpr ⟨_, (mem_outputs_iff _ _ _).mpr ⟨front, _, back, split, rfl⟩, ?_⟩
      rw [reached]
      exact ended
    obtain ⟨outcome, same, _⟩ := kept _ reported
    cases same
  · intro accepted result reported
    obtain ⟨batch, member, inside⟩ := List.mem_flatten.mp reported
    obtain ⟨front, event, back, rfl, rfl⟩ := (mem_outputs_iff _ _ batch).mp member
    have latched := (decided_run aes os v0200 decided).run aes os front
    have accepted := accepted front
    rw [run_append] at accepted
    generalize run (poll aes os) (run (poll aes os) (start key options random) events) front = t
      at inside latched accepted
    -- a session that is over takes no event at all, so this one was still running
    have running : t.finished = false := by
      by_contra halted
      rw [Bool.not_eq_false] at halted
      simp [poll_finished aes os halted] at inside
    refine latched.reported aes os running (lock event (by simp)) ?_ inside
    rintro packet stack rfl current
    exact accepted packet back stack rfl running current

/-- A packet of one byte, after the door has been opened, turns the answer into an error. -/
theorem verdict_lost_to_short_packet :
    verdict (auditLog aes128 zeroes (start auditKey undetected none)
      [.started, auditPacket 2]) = some 2 ∧
    ¬∀ result, .done result ∈ (outputs (poll aes128 zeroes)
        (run (poll aes128 zeroes) (start auditKey undetected none) [.started, auditPacket 2])
        [.notification [0x00]]).flatten →
      ∃ outcome, result = .ok outcome ∧ outcome.opResult = some 2 := by
  refine ⟨by decide +kernel, ?_⟩
  intro kept
  obtain ⟨outcome, same, _⟩ := kept (.error (.invalidData "SSP packet too short"))
    (mem_ends.mp (by decide +kernel))
  cases same

theorem verdict_kept_iff_link_closed :
    (∀ result, .done result ∈ (outputs (poll aes128 zeroes)
        (run (poll aes128 zeroes) (start auditKey undetected none) [.started, auditPacket 2])
        [auditPacket 3, .linkClosed]).flatten →
      ∃ outcome, result = .ok outcome ∧ outcome.opResult = some 2) ↔
    (∀ front packet back stack,
      [auditPacket 3, .linkClosed] = front ++ .notification packet :: back →
      (run (poll aes128 zeroes) (start auditKey undetected none)
        ([.started, auditPacket 2] ++ front)).finished = false →
      (run (poll aes128 zeroes) (start auditKey undetected none)
        ([.started, auditPacket 2] ++ front)).stack = some stack →
      stack.Accepts aes128 packet) :=
  verdict_kept_iff aes128 zeroes auditKey undetected none [.started, auditPacket 2] _ 2 rfl
    (by decide +kernel) _ (by decide)

end Session

end Mkey
