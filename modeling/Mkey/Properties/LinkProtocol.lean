import Mkey.Lib.Monitor
import Mkey.Properties.LockLifecycle
import Mkey.Properties.PumpContract

/-!
# The order of calls on a link

A transport has rules for its callers: nothing is read or written before a
connect has succeeded, the protocol info is read before notifications are on and
the exchange goes on after, and nothing follows the disconnect but another one. A
monitor states them; session, pump and driver keep to it together, call after call.

## Proof strategy

The monitor over actions that the session follows is mapped to the one over
calls: what an action is carried out by takes the link from where the stage
before it stands to where the stage after it stands.
-/
namespace Mkey

/-- Where a link stands for its caller. -/
inductive Link where
  | apart
  | linked
  | listening
  deriving DecidableEq

namespace Link

/-- What a pump may do at each stand of the link. -/
def pumps (link : Link) (call : PumpCall) : Option Link :=
  match link with
  | apart => none
  | linked =>
    match call with
    -- before the exchange: the announcement and the read that may follow it
    | .write bytes => if bytes = appProtocolRequest then some linked else none
    | .readNotifyValue _ | .phase _ | .trace _ => some linked
    | .subscribe => some listening
    | .disconnect => some apart
    | .receive | .pause _ => none
  | listening =>
    match call with
    | .write _ | .receive | .pause _ | .phase _ | .trace _ => some listening
    | .disconnect => some apart
    | .readNotifyValue _ | .subscribe => none

/-- The stand of the link that goes with a stage of the session. -/
def Fits : Session.Stage → Link → Prop
  | .idle, link | .detecting, link | .announced, link | .reading, link => link = linked
  | .subscribed, link | .authenticating, link | .exchanging, link => link = listening
  | .finishing, link | .ended, link => link ≠ apart

variable {link : Link} {q : Session.Stage}

theorem Fits.up (fits : Fits q link) : link ≠ apart := by
  cases q with
  | finishing | ended => exact fits
  | _ =>
    obtain rfl := fits
    decide

theorem pumps_phase (up : link ≠ apart) (phase : Phase) :
    pumps link (.phase phase) = some link := by
  cases link with
  | apart => exact absurd rfl up
  | linked | listening => rfl

theorem pumps_trace (up : link ≠ apart) (trace : Trace) :
    pumps link (.trace trace) = some link := by
  cases link with
  | apart => exact absurd rfl up
  | linked | listening => rfl

end Link

namespace Pump

open Link Session

variable {T : Type} [BleTransport T]

theorem run_announce (res : Except Error Unit) :
    Monitor.run pumps linked [.write appProtocolRequest, announceNote res] = some linked := by
  cases res with
  | ok done => rfl
  | error e => rfl

/-- What an action is carried out by takes the link along with the session. -/
theorem applyActions_pumps (t : T) (info : Option (Option (List UInt8)))
    (deadline : Option Deadline) {options : Options} {actions : List Action} {q r : Stage}
    (accepted : Monitor.run (Stage.next options) q actions = some r) {link : Link}
    (fits : Fits q link) :
    ∃ link', Monitor.run pumps link (applyActions t info deadline actions).2.1 = some link' ∧
      link' ≠ apart ∧ ∀ info' deadline',
        (applyActions t info deadline actions).2.2 = .wholly info' deadline' → Fits r link' := by
  induction actions generalizing t info deadline q link with
  | nil =>
    obtain rfl := Option.some.inj accepted
    exact ⟨link, rfl, fits.up, fun _ _ _ => fits⟩
  | cons a rest ih =>
    rw [Monitor.run, Option.bind_eq_some_iff] at accepted
    obtain ⟨middle, read, accepted⟩ := accepted
    -- the calls of this action, then those of the rest
    have onward (calls : List PumpCall) (t' : T) (info' : Option (Option (List UInt8)))
        (deadline' : Option Deadline) (link' : Link)
        (here : Monitor.run pumps link calls = some link') (fits' : Fits middle link') :
        ∃ last, Monitor.run pumps link
            (andThen calls (applyActions t' info' deadline' rest)).2.1 = some last ∧
          last ≠ apart ∧ ∀ info'' deadline'',
            (andThen calls (applyActions t' info' deadline' rest)).2.2 =
              .wholly info'' deadline'' → Fits r last := by
      obtain ⟨last, later, up, wholly⟩ := ih t' info' deadline' accepted fits'
      refine ⟨last, ?_, up, wholly⟩
      rw [andThen, Monitor.run_append, here]
      exact later
    have up := fits.up
    cases Stage.next_reads read with
    | detect =>
      obtain rfl := fits
      exact onward [_] t info deadline linked rfl rfl
    | traced at_ =>
      exact onward [_] t info deadline link (by rw [Monitor.run, pumps_trace up]; rfl) fits
    | announce =>
      obtain rfl := fits
      exact onward [_, _] _ info deadline linked (run_announce _) rfl
    | readAnnounced | readDirectly =>
      obtain rfl := fits
      refine onward (_ :: _) _ _ deadline linked ?_ rfl
      unfold readNote
      split <;> rfl
    | subscribe at_ =>
      have linked_ : link = linked := by rcases at_ with rfl | rfl <;> exact fits
      subst linked_
      rw [applyActions]
      split
      · exact ⟨listening, rfl, by decide, by simp⟩
      · exact onward [_] _ info deadline listening rfl rfl
    | authenticate =>
      obtain rfl := fits
      exact onward [_] t info deadline listening rfl rfl
    | exchange =>
      obtain rfl := fits
      exact onward [_] t info deadline listening rfl rfl
    | write at_ =>
      have listening_ : link = listening := by rcases at_ with rfl | rfl <;> exact fits
      subst listening_
      rw [applyActions]
      split
      · exact ⟨listening, rfl, by decide, by simp⟩
      · exact onward [_] _ info deadline listening rfl fits
    | pause at_ =>
      have listening_ : link = listening := by rcases at_ with rfl | rfl <;> exact fits
      subst listening_
      exact onward [_] _ info deadline listening rfl fits
    | setTimer at_ => exact onward [] t info _ link rfl fits
    | finish at_ =>
      exact onward [_] t info deadline link (by rw [Monitor.run, pumps_phase up]; rfl) up
    | done => exact ⟨link, rfl, up, by simp [applyActions]⟩

variable (aes : BlockCipher) (os : RandomSource) {loop : Turn T}

/-- A turn keeps to the order, and receives only while it is listening. -/
theorem turn_pumps (agree : Agree loop) {link : Link} (fits : Fits loop.session.stage link) :
    ∃ link', Monitor.run pumps link (turn aes os loop).1 = some link' ∧ link' ≠ apart ∧
      ∀ next, (turn aes os loop).2 = .inl next → Fits next.session.stage link' := by
  have accepted := (poll_follows os aes loop.session loop.pending).2
  obtain ⟨link', carried, up, wholly⟩ :=
    applyActions_pumps loop.transport none loop.deadline accepted fits
  change Monitor.run pumps link (applied aes os loop).2.1 = some link' at carried
  change ∀ info' deadline', (applied aes os loop).2.2 = .wholly info' deadline' →
    Fits (polled aes os loop).1.stage link' at wholly
  have step := turn_step aes os loop
  generalize turn aes os loop = result at step
  cases step with
  | returned applies | idle applies =>
    rw [applies] at carried
    exact ⟨link', carried, up, by simp⟩
  | asked applies =>
    rw [applies] at carried wholly
    refine ⟨link', carried, up, ?_⟩
    rintro next goes
    obtain rfl := Sum.inl.inj goes
    exact wholly _ _ rfl
  | @waited t calls id expires arrived t' applies =>
    have fits' := wholly _ _ (congrArg (·.2.2) applies)
    rw [applies] at carried
    -- a wait is made in a flow only, and a flow begins with the subscription
    obtain ⟨running, armed, flows⟩ := agree.applied aes os (congrArg (·.2.2) applies)
    have listening_ : link' = listening := by
      have flowing (exchanging : Bool) (same : (polled aes os loop).1.stage =
          exchangingStage exchanging) : link' = listening := by
        rw [same] at fits'
        cases exchanging with
        | false | true => exact fits'
      rcases flows.2 with ⟨session, current⟩ | ⟨session, current⟩
      · exact flowing session.exchanging (stage_v0200 running current)
      · exact flowing (session.step = .awaitingResult) (stage_v0100 running current)
    subst listening_
    refine ⟨listening, ?_, by decide, ?_⟩
    · have heard_ : Monitor.run pumps listening (.receive :: (heard id arrived).1) =
          some listening := by
        unfold heard
        split <;> rfl
      rw [Monitor.run_append, carried, Option.bind_some, heard_]
    · rintro next goes
      obtain rfl := Sum.inl.inj goes
      exact fits'

/-- An attempt keeps to the order from a fresh link to the disconnect. -/
theorem runSession_pumps (t : T) (key : MobileKey) (options : Options)
    (random : Option RandomSource) {fuel : Nat} {calls : List PumpCall} {out : Return T}
    (returned : runSession aes os fuel t (start key options random) = some (calls, out)) :
    Monitor.run pumps linked calls = some apart := by
  simp only [runSession, pump, Option.map_eq_some_iff, Prod.exists, Prod.mk.injEq] at returned
  obtain ⟨body, t', session, result, ran, rfl, rfl⟩ := returned
  have kept (past : List PumpCall) (loop : Turn T) (calls : List PumpCall) (next : Turn T)
      (holds : Agree loop ∧ ∃ link, Monitor.run pumps linked past = some link ∧
        Fits loop.session.stage link)
      (goes : turn aes os loop = (calls, .inl next)) :
      Agree next ∧ ∃ link, Monitor.run pumps linked (past ++ calls) = some link ∧
        Fits next.session.stage link := by
    obtain ⟨agree, link, before, fits⟩ := holds
    have on : (turn aes os loop).2 = .inl next := by rw [goes]
    obtain ⟨link', after, _, fits'⟩ := turn_pumps aes os agree fits
    rw [goes] at after
    refine ⟨agree.turn aes os on, link', ?_, fits' next on⟩
    rw [Monitor.run_append, before]
    exact after
  have initial : Agree (first t (start key options random)) ∧
      ∃ link, Monitor.run pumps linked [] = some link ∧
        Fits (start key options random).stage link := ⟨⟨rfl, rfl⟩, linked, rfl, rfl⟩
  obtain ⟨past, last, loop, rfl, ⟨agree, link, before, fits⟩, turned⟩ :=
    Loop.run_history kept initial ran
  obtain ⟨link', after, up, _⟩ := turn_pumps aes os agree fits
  rw [turned] at after
  -- the end reported in the session's place changes nothing, and the disconnect is the last call
  have ending : Monitor.run pumps link'
      ((if session.finished then [] else [.phase .finished]) ++ [.disconnect]) = some apart := by
    cases link' with
    | apart => exact absurd rfl up
    | linked | listening => split <;> rfl
  rw [List.nil_append] at before
  rw [List.append_assoc, List.append_assoc, Monitor.run_append, before, Option.bind_some,
    Monitor.run_append, after, Option.bind_some, ending]

end Pump

/-- What a driver may do at each stand of the link, with the success of what it did. The disconnect
a pump ends with is the end of the link, whatever comes of it, as the driver takes it to be; that of
the driver itself is one if it succeeds, and may be made at any time, and again. -/
def Link.next (link : Link) : LockCall × Bool → Option Link
  | (.scanAndConnect _, ok) | (.connectById _ _, ok) =>
    -- one link at a time
    if link = apart then some (if ok then linked else apart) else none
  | (.notifyReadable, _) => if link = linked then some linked else none
  | (.pump call, _) => link.pumps call
  | (.disconnect, ok) => some (if ok then apart else link)

namespace SaltoLock

open Link

variable {T : Type} [LockTransport T] (aes : BlockCipher)

/-- The runs of a driver, each with the calls it made and whether they succeeded. -/
inductive Ran : SaltoLock T → List (LockCall × Bool) → Prop
  | made (transport : T) (handshake : HandshakePlan) (timeouts : Timeouts)
      (random : Option RandomSource) :
      Ran { withTransport transport with handshake, timeouts, random } []
  | performed {lock next : SaltoLock T} {record : List (LockCall × Bool)}
      {calls : List LockCall} {failed : Option Error} (operation : LockOperation) :
      Ran lock record → lock.perform aes operation = some (next, calls, failed) →
      Ran next (record ++ calls.map fun call => (call, failed.isNone))

/-- The stand of the link by what the driver takes its state to be. -/
def standing (lock : SaltoLock T) : Link :=
  if lock.state = .disconnected then apart else linked

omit [LockTransport T] in
theorem standing_apart (lock : SaltoLock T) (away : lock.state = .disconnected) :
    lock.standing = apart := if_pos away

omit [LockTransport T] in
theorem standing_linked {lock : SaltoLock T} (there : lock.state ≠ .disconnected) :
    lock.standing = linked := if_neg there

omit [LockTransport T] in
/-- A driver that stays as it is asks nothing. -/
theorem next_still (lock : SaltoLock T) (ok : Bool) :
    Monitor.run Link.next lock.standing (([] : List LockCall).map fun call => (call, ok)) =
      some lock.standing := rfl

omit [LockTransport T] in
/-- A connection attempt, made while there is no link. -/
theorem connected_next {lock : SaltoLock T} (away : lock.state = .disconnected) (call : LockCall)
    (connects : ∀ ok, Link.next apart (call, ok) = some (if ok then linked else apart))
    (answer : T × Except Error ConnectedLock) :
    Monitor.run Link.next lock.standing ((settled (lock.connected call answer)).2.1.map
        fun made => (made, (settled (lock.connected call answer)).2.2.isNone)) =
      some (settled (lock.connected call answer)).1.standing := by
  rw [standing_apart lock away]
  obtain ⟨transport, e | found⟩ := answer
  · change (Link.next apart (call, false)).bind _ = some (standing { lock with transport })
    rw [connects, standing_apart { lock with transport } away]
    rfl
  · change (Link.next apart (call, true)).bind _ = some linked
    rw [connects]
    rfl

/-- One call of the driver takes the link from where it stood to where it stands. -/
theorem perform_next {lock next : SaltoLock T} {operation : LockOperation}
    {calls : List LockCall} {failed : Option Error}
    (performed : lock.perform aes operation = some (next, calls, failed)) :
    Monitor.run Link.next lock.standing (calls.map fun call => (call, failed.isNone)) =
      some next.standing := by
  by_cases refused : ∃ expected, operation.expects = some expected ∧ lock.state ≠ expected
  · -- a refused call asks nothing of the transport
    obtain ⟨expected, expects, missed⟩ := refused
    rw [perform_refused aes expects missed] at performed
    cases performed
    exact next_still lock _
  · have met : ∀ expected, operation.expects = some expected → lock.state = expected := by
      intro expected expects
      by_contra missed
      exact refused ⟨expected, expects, missed⟩
    cases operation with
    | scanAndConnectFiltered timeout filter =>
      rw [perform, scanAndConnectFiltered, expectState_ok (met _ rfl)] at performed
      cases performed
      exact connected_next (met _ rfl) (.scanAndConnect (timeout.getD defaultScanDuration))
        (fun _ => rfl) (LockTransport.scanAndConnect lock.transport (timeout.getD _) filter)
    | connectById lockId timeout =>
      rw [perform, connectById, expectState_ok (met _ rfl)] at performed
      cases performed
      exact connected_next (met _ rfl) (.connectById lockId (timeout.getD defaultTimeout))
        (fun _ => rfl) (LockTransport.connectById lock.transport lockId (timeout.getD _))
    | authenticate mobileKey =>
      have there := met _ rfl
      rw [perform, authenticate, expectState_ok there] at performed
      cases performed
      rw [standing_linked (by rw [there]; decide)]
      rfl
    | openObserved os fuel mode =>
      have there := met _ rfl
      rw [perform, openObserved, expectState_ok there] at performed
      rw [standing_linked (by rw [there]; decide)]
      cases loaded : lock.mobileKey with
      | none =>
        simp only [loaded] at performed
        cases performed
        exact congrArg some (standing_linked (by rw [there]; decide)).symm
      | some key =>
        simp only [loaded, attempt, Option.map_map, Option.map_eq_some_iff] at performed
        obtain ⟨⟨pumped, out⟩, returned, same⟩ := performed
        cases same
        have kept := Pump.runSession_pumps aes os _ _ _ _ returned
        rw [List.map_cons, List.map_map, Monitor.run, Option.bind_eq_some_iff]
        refine ⟨linked, rfl, ?_⟩
        exact (Monitor.run_map _ _ _).trans kept
    | writeTag tagId data =>
      rw [perform, writeTag] at performed
      split at performed
      · cases performed
        rfl
      · cases performed
        rfl
    | disconnect =>
      rw [perform, disconnect] at performed
      split at performed
      · cases performed
        rfl
      · cases performed
        rfl

/-- Over every run of a driver, whatever the transport does, the calls it makes keep to the order
of the link, and the state of the driver tells where the link stands: a disconnect within an attempt
counts as made, a failed one of the driver's own does not. -/
theorem link_protocol {lock : SaltoLock T} {record : List (LockCall × Bool)}
    (ran : Ran aes lock record) : Monitor.run Link.next apart record = some lock.standing := by
  induction ran with
  | made => rfl
  | performed operation _ performed ih =>
    rw [Monitor.run_append, ih]
    exact perform_next aes performed

/-- A lock that hangs up as soon as it is listened to. -/
theorem link_protocol_hanging_up :
    let os : RandomSource := ⟨fun _ => Block.replicate 0, 0⟩
    let lock := (((withTransport Pump.HangingUp.mk).connectById "lock" none).1.authenticate
      (MobileKey.new (Block.replicate 0x42))).1
    ∃ next calls failed,
      lock.perform aes128 (.openObserved os 3 .standard) = some (next, calls, failed) ∧
      Monitor.run Link.next apart ([(.connectById "lock" defaultTimeout, true)] ++
        calls.map fun call => (call, failed.isNone)) = some next.standing := by
  intro os lock
  have connected : Ran aes128 lock [(.connectById "lock" defaultTimeout, true)] :=
    .performed (.authenticate (MobileKey.new (Block.replicate 0x42)))
      (.performed (.connectById "lock" none)
        (.made Pump.HangingUp.mk .auto .default none) rfl) rfl
  refine ⟨_, _, _, rfl, ?_⟩
  exact link_protocol aes128 (.performed (.openObserved os 3 .standard) connected rfl)

end SaltoLock

end Mkey
