import Mkey.Properties.PumpContract

/-!
# What passes through the pump

The pump adds nothing to what the session asks of the link and leaves nothing
out, and hands every reply of the link to the session, in order. A log kept
beside an arbitrary transport makes the second half sayable.
-/
namespace Mkey

open Machine

/-- What the link answers to a wait for it. -/
inductive Reply where
  | read (answer : Option (Except Error (List UInt8)))
  | received (answer : Option (Except Error (Option (List UInt8))))

/-- A transport with a log of the replies it has given, and another of its answers to what was
written and subscribed. -/
structure Logged (T : Type) where
  transport : T
  log : List Reply
  answers : List (PumpCall × Except Error Unit)

namespace Logged

variable {T : Type} [BleTransport T]

instance : BleTransport (Logged T) where
  now t := BleTransport.now t.transport
  sleep t ms := { t with transport := BleTransport.sleep t.transport ms }
  write t bytes :=
    let (transport, answer) := BleTransport.write t.transport bytes
    ({ t with transport, answers := t.answers ++ [(.write bytes, answer)] }, answer)
  subscribe t :=
    let (transport, answer) := BleTransport.subscribe t.transport
    ({ t with transport, answers := t.answers ++ [(.subscribe, answer)] }, answer)
  readNotifyValue t ms :=
    let (transport, answer) := BleTransport.readNotifyValue t.transport ms
    ({ t with transport, log := t.log ++ [.read answer] }, answer)
  receive t deadline :=
    let (transport, answer) := BleTransport.receive t.transport deadline
    ({ t with transport, log := t.log ++ [.received answer] }, answer)
  disconnect t :=
    let (transport, answer) := BleTransport.disconnect t.transport
    ({ t with transport }, answer)

end Logged

namespace Pump

open Session

/-- The event a reply is to become; which timer has run out is not the link's to say. -/
def Brings : Event → Reply → Prop
  | .protocolInfo bytes, .read answer => bytes = readBytes answer
  | .notification packet, .received answer => answer = some (.ok (some packet))
  | .linkClosed, .received answer => answer = some (.ok none) ∨ ∃ e, answer = some (.error e)
  | .timer _, .received answer => answer = none
  | _, _ => False

theorem brings_heard (id : TimerId) (answer : Option (Except Error (Option (List UInt8)))) :
    Brings (heard id answer).2 (.received answer) := by
  unfold heard
  split
  · exact rfl
  · exact .inl rfl
  · exact .inr ⟨_, rfl⟩
  · exact rfl

/-- What an action asks of the link. -/
def asked : Action → Option PumpCall
  | .announceAppProtocol => some (.write appProtocolRequest)
  | .readProtocolInfo timeoutMs => some (.readNotifyValue timeoutMs)
  | .subscribe => some .subscribe
  | .write bytes => some (.write bytes)
  | .pause ms => some (.pause ms)
  | .setTimer _ _ | .phase _ | .trace _ | .done _ => none

/-- The calls on the link that a session can ask for: waits and the last disconnect are the
pump's own. -/
def onLink (calls : List PumpCall) : List PumpCall :=
  calls.filter fun
    | .write _ | .subscribe | .readNotifyValue _ | .pause _ => true
    | .receive | .disconnect | .phase _ | .trace _ => false

@[simp] theorem onLink_append (front back : List PumpCall) :
    onLink (front ++ back) = onLink front ++ onLink back := List.filter_append ..

/-- The calls whose failure ends the pump. -/
def mustSucceed : Action → Option PumpCall
  | .subscribe => some .subscribe
  | .write bytes => some (.write bytes)
  | _ => none

/-- The actions that the link answers with success or failure. -/
def isAnswered : Action → Bool
  | .announceAppProtocol | .subscribe | .write _ => true
  | _ => false

/-- An answer that lets the pump go on: whether the announcement was taken does not matter. -/
def Taken (a : Action) (given : PumpCall × Except Error Unit) : Prop :=
  asked a = some given.1 ∧ (mustSucceed a = some given.1 → given.2 = .ok ())

/-- Actions that were all carried out, by the answers to them. -/
def AllTaken (actions : List Action) (answers : List (PumpCall × Except Error Unit)) : Prop :=
  List.Forall₂ Taken (actions.filter isAnswered) answers

theorem AllTaken.append {front back : List Action}
    {answers later : List (PumpCall × Except Error Unit)} (first : AllTaken front answers)
    (second : AllTaken back later) : AllTaken (front ++ back) (answers ++ later) := by
  rw [AllTaken, List.filter_append]
  exact List.rel_append first second

/-- How far a batch was carried out, with the answers to it: wholly, up to the end it holds, or up
to the call that failed, which is the last to be answered. -/
inductive CarriedOut (actions : List Action) :
    List (PumpCall × Except Error Unit) → List PumpCall × Applied → Prop
  | wholly {answers : List (PumpCall × Except Error Unit)} {calls : List PumpCall}
      {info : Option (Option (List UInt8))} {deadline : Option Deadline} :
      onLink calls = actions.filterMap asked → AllTaken actions answers →
      CarriedOut actions answers (calls, .wholly info deadline)
  | ended {answers : List (PumpCall × Except Error Unit)} {calls : List PumpCall}
      (front back : List Action) {result : Except Error Outcome} :
      actions = front ++ .done result :: back → onLink calls = front.filterMap asked →
      AllTaken front answers → CarriedOut actions answers (calls, .returned result)
  | failed {answers : List (PumpCall × Except Error Unit)} {calls : List PumpCall}
      (front back : List Action) {a : Action} {call : PumpCall} {e : Error} :
      actions = front ++ a :: back → mustSucceed a = some call →
      onLink calls = (front ++ [a]).filterMap asked → AllTaken front answers →
      CarriedOut actions (answers ++ [(call, .error e)]) (calls, .returned (.error e))

variable {T : Type} [BleTransport T]

theorem CarriedOut.cons {a : Action} {rest : List Action} (calls : List PumpCall)
    {given answers : List (PumpCall × Except Error Unit)} {later : List PumpCall}
    {applied : Applied} (carried : CarriedOut rest answers (later, applied))
    (here : onLink calls = [a].filterMap asked) (taken : AllTaken [a] given) :
    CarriedOut (a :: rest) (given ++ answers) (calls ++ later, applied) := by
  cases carried with
  | wholly same all =>
    refine .wholly ?_ (taken.append all)
    rw [onLink_append, here, same, ← List.filterMap_append, List.singleton_append]
  | ended front back split same all =>
    refine .ended (a :: front) back (by rw [split]; rfl) ?_ (taken.append all)
    rw [onLink_append, here, same, ← List.filterMap_append, List.singleton_append]
  | failed front back split fails same all =>
    rw [← List.append_assoc]
    refine .failed (a :: front) back (by rw [split]; rfl) fails ?_ (taken.append all)
    rw [onLink_append, here, same, ← List.filterMap_append, List.singleton_append]
    rfl

theorem applyActions_carriedOut (t : Logged T) (info : Option (Option (List UInt8)))
    (deadline : Option Deadline) (actions : List Action) :
    ∃ answers, (applyActions t info deadline actions).1.answers = t.answers ++ answers ∧
      CarriedOut actions answers (applyActions t info deadline actions).2 := by
  induction actions generalizing t info deadline with
  | nil => exact ⟨[], (List.append_nil _).symm, .wholly rfl .nil⟩
  | cons a rest ih =>
    -- a call that the link does not answer so
    have onward (calls : List PumpCall) (t' : Logged T) (info' : Option (Option (List UInt8)))
        (deadline' : Option Deadline) {given : List (PumpCall × Except Error Unit)}
        (answered : t'.answers = t.answers ++ given) (here : onLink calls = [a].filterMap asked)
        (taken : AllTaken [a] given) :
        ∃ answers, (andThen calls (applyActions t' info' deadline' rest)).1.answers =
            t.answers ++ answers ∧
          CarriedOut (a :: rest) answers
            (andThen calls (applyActions t' info' deadline' rest)).2 := by
      obtain ⟨answers, log, carried⟩ := ih t' info' deadline'
      refine ⟨given ++ answers, ?_, carried.cons calls here taken⟩
      rw [← List.append_assoc, ← answered]
      exact log
    cases a with
    | subscribe =>
      have log : (BleTransport.subscribe t).1.answers =
          t.answers ++ [(.subscribe, (BleTransport.subscribe t).2)] := rfl
      rw [applyActions]
      split
      next t' e failed =>
        rw [failed] at log
        exact ⟨_, log, .failed [] rest rfl rfl rfl .nil⟩
      next t' passed =>
        rw [passed] at log
        exact onward _ _ _ _ log rfl (.cons ⟨rfl, fun _ => rfl⟩ .nil)
    | write bytes =>
      have log : (BleTransport.write t bytes).1.answers =
          t.answers ++ [(.write bytes, (BleTransport.write t bytes).2)] := rfl
      rw [applyActions]
      split
      next t' e failed =>
        rw [failed] at log
        exact ⟨_, log, .failed [] rest rfl rfl rfl .nil⟩
      next t' passed =>
        rw [passed] at log
        exact onward _ _ _ _ log rfl (.cons ⟨rfl, fun _ => rfl⟩ .nil)
    | done result =>
      exact ⟨[], (List.append_nil _).symm, .ended [] rest rfl rfl .nil⟩
    | announceAppProtocol =>
      have noted (res : Except Error Unit) : onLink [.write appProtocolRequest, announceNote res] =
          [Action.announceAppProtocol].filterMap asked := by
        cases res with
        | ok done => rfl
        | error e => rfl
      exact onward _ _ _ _ rfl (noted _) (.cons ⟨rfl, fun must => by cases must⟩ .nil)
    | readProtocolInfo ms =>
      have noted (read : Option (Except Error (List UInt8))) :
          onLink (.readNotifyValue ms :: readNote ms read) =
            [Action.readProtocolInfo ms].filterMap asked := by
        unfold readNote
        split <;> rfl
      exact onward _ (BleTransport.readNotifyValue t ms).1 _ _ (List.append_nil _).symm
        (noted _) .nil
    | setTimer id ms => exact onward [] t _ _ (List.append_nil _).symm rfl .nil
    | pause ms | phase p | trace note =>
      exact onward [_] _ _ _ (List.append_nil _).symm rfl .nil

/-! ### The log -/

/-- A batch that does not ask for the protocol info gets no reply. -/
theorem applyActions_log (t : Logged T) (info : Option (Option (List UInt8)))
    (deadline : Option Deadline) {actions : List Action} (quiet : ¬Asks actions) :
    (applyActions t info deadline actions).1.log = t.log := by
  induction actions generalizing t info deadline with
  | nil => rfl
  | cons a rest ih =>
    rw [asks_cons, not_or] at quiet
    obtain ⟨here, later⟩ := quiet
    cases a with
    | readProtocolInfo ms => exact absurd ⟨ms, rfl⟩ here
    | subscribe | write bytes =>
      rw [applyActions]
      split
      next failed => exact congrArg (·.1.log) failed.symm
      next passed =>
        exact (ih _ _ _ later).trans (congrArg (·.1.log) passed.symm)
    | done result => rfl
    | announceAppProtocol | setTimer id ms | pause ms | phase p | trace note => exact ih _ _ _ later

variable (aes : BlockCipher) (os : RandomSource)

/-- The one batch that asks for the protocol info asks for nothing after it. -/
theorem asks_batch {s : Session} {event : Event} (asks : Asks (s.poll aes os event).2) :
    ∃ announced ms, (announced = [] ∨ announced = [.announceAppProtocol]) ∧
      (s.poll aes os event).2 =
        .phase .detectingVersion :: (announced ++ [.readProtocolInfo ms]) := by
  obtain ⟨ms, member⟩ := asks
  obtain rfl := asks_started aes os member
  have step := poll_step aes os s .started
  generalize s.poll aes os .started = polled at step member
  cases step with
  | halted => cases member
  | unexpected => simp [unexpected, finish] at member
  | detecting _ _ _ kind =>
    rcases kind with ⟨_, rfl⟩ | ⟨_, rfl⟩
    · exact ⟨_, _, .inl rfl, rfl⟩
    · exact ⟨_, _, .inr rfl, rfl⟩
  | beganV0200 _ _ preparing =>
    rcases List.mem_append.mp member with early | late
    · rcases List.mem_append.mp early with noted | opens
      · rcases preparing.mem noted with same | ⟨_, same, _⟩ | ⟨_, same⟩ <;> cases same
      · simp [opening] at opens
    · simp [beginV0200] at late

theorem applyActions_asking (t : Logged T) (deadline : Option Deadline) {announced : List Action}
    (ms : UInt32) (kind : announced = [] ∨ announced = [.announceAppProtocol]) :
    ∃ t' calls answer, t'.log = t.log ++ [.read answer] ∧ applyActions t none deadline
        (.phase .detectingVersion :: (announced ++ [.readProtocolInfo ms])) =
      (t', calls, .wholly (some (readBytes answer)) deadline) := by
  rcases kind with rfl | rfl
  · exact ⟨_, _, _, rfl, rfl⟩
  · exact ⟨_, _, _, rfl, rfl⟩

/-! ### One turn -/

/-- What a turn leaves of a log: one reply more, which is the next event, or nothing new. -/
theorem turn_log (loop : Turn (Logged T)) :
    match (turn aes os loop).2 with
    | .inl next => ∃ reply, next.transport.log = loop.transport.log ++ [reply] ∧
        Brings next.pending reply
    | .inr (t, _, _) => t.log = loop.transport.log := by
  by_cases asks : Asks (polled aes os loop).2
  · obtain ⟨announced, ms, kind, batch⟩ := asks_batch aes os asks
    obtain ⟨t, calls, answer, log, same⟩ :=
      applyActions_asking loop.transport loop.deadline ms kind
    rw [← batch] at same
    have step := turn_step aes os loop
    have applied_ : applied aes os loop = _ := same
    generalize turn aes os loop = result at step
    cases step with
    | asked applies =>
      rw [applied_] at applies
      cases applies
      exact ⟨_, log, rfl⟩
    | returned applies | idle applies | waited applies _ =>
      rw [applied_] at applies
      cases applies
  · have quiet : (applied aes os loop).1.log = loop.transport.log := applyActions_log _ _ _ asks
    have step := turn_step aes os loop
    generalize turn aes os loop = result at step
    cases step with
    | returned applies | idle applies =>
      rw [applies] at quiet
      exact quiet
    | asked applies =>
      have read := (applyActions_wholly loop.transport (congrArg (·.2.2) applies)).1
      exact absurd (by simpa using read) asks
    | @waited t calls id expires arrived t' applies receives =>
      rw [applies] at quiet
      refine ⟨.received arrived, ?_, brings_heard id arrived⟩
      have log : (BleTransport.receive t expires).1.log =
          t.log ++ [.received (BleTransport.receive t expires).2] := rfl
      rw [receives, quiet] at log
      exact log

theorem turn_onLink {loop next : Turn (Logged T)} (goes : (turn aes os loop).2 = .inl next) :
    onLink (turn aes os loop).1 = (polled aes os loop).2.filterMap asked ∧
    ∃ answers, next.transport.answers = loop.transport.answers ++ answers ∧
      AllTaken (polled aes os loop).2 answers := by
  obtain ⟨answers, log, carried⟩ :=
    applyActions_carriedOut loop.transport none loop.deadline (polled aes os loop).2
  change (applied aes os loop).1.answers = _ at log
  change CarriedOut _ _ (applied aes os loop).2 at carried
  have step := turn_step aes os loop
  generalize turn aes os loop = result at step goes
  cases step with
  | returned | idle => cases goes
  | asked applies =>
    cases goes
    rw [applies] at carried log
    cases carried with
    | wholly same all => exact ⟨same, answers, log, all⟩
  | @waited t calls id expires arrived t' applies receives =>
    cases goes
    rw [applies] at carried log
    have silent : onLink (.receive :: (heard id arrived).1) = [] := by
      unfold heard
      split <;> rfl
    have waits : (BleTransport.receive t expires).1.answers = t.answers := rfl
    rw [receives] at waits
    cases carried with
    | wholly same all =>
      refine ⟨?_, answers, waits.trans log, all⟩
      rw [onLink_append, silent, List.append_nil, same]

/-- How the last turn carried out its batch, and with what result. -/
theorem turn_last {loop : Turn (Logged T)} (agree : Agree loop) {t : Logged T}
    {s : Session} {result : Except Error Outcome}
    (returned : (turn aes os loop).2 = .inr (t, s, result)) :
    ∃ answers, (.done result ∈ (polled aes os loop).2 ∧
      onLink (turn aes os loop).1 = (polled aes os loop).2.filterMap asked ∧
      t.answers = loop.transport.answers ++ answers ∧ AllTaken (polled aes os loop).2 answers) ∨
    ∃ front a back call e, (polled aes os loop).2 = front ++ a :: back ∧
      mustSucceed a = some call ∧ result = .error e ∧
      onLink (turn aes os loop).1 = (front ++ [a]).filterMap asked ∧
      t.answers = loop.transport.answers ++ answers ++ [(call, .error e)] ∧
      AllTaken front answers := by
  obtain ⟨answers, log, carried⟩ :=
    applyActions_carriedOut loop.transport none loop.deadline (polled aes os loop).2
  change (applied aes os loop).1.answers = _ at log
  change CarriedOut _ _ (applied aes os loop).2 at carried
  have step := turn_step aes os loop
  generalize turn aes os loop = out at step returned
  cases step with
  | asked | waited => cases returned
  | idle applies =>
    have left_ := (agree.applied aes os (congrArg (·.2.2) applies)).2
    simp at left_
  | returned applies =>
    cases returned
    rw [applies] at carried log
    cases carried with
    | @failed answers _ front back a call e split fails same all =>
      refine ⟨answers, .inr ⟨front, a, back, call, e, split, fails, rfl, same, ?_, all⟩⟩
      rw [List.append_assoc]
      exact log
    | ended front back split same all =>
      -- nothing follows the end of a batch
      have accepted := (poll_follows os aes loop.session loop.pending).2
      change Monitor.run _ _ (polled aes os loop).2 = _ at accepted
      rw [split] at accepted
      obtain ⟨rfl, _⟩ := batch_done (stage_rests _).2.2 accepted
      have none_after : AllTaken [.done result] [] := .nil
      refine ⟨answers, .inl ⟨by simp [split], ?_, log, ?_⟩⟩
      · rw [same, split, List.filterMap_append]
        exact (List.append_nil _).symm
      · rw [split, ← List.append_nil answers]
        exact all.append none_after

/-! ### The whole run -/

variable (key : MobileKey) (options : Options) (random : Option RandomSource)

/-- Every action of a run over some events, in order. -/
def actionsOf (events : List Event) : List Action :=
  (outputs (Session.poll aes os) (start key options random) events).flatten

theorem actionsOf_snoc (events : List Event) (event : Event) :
    actionsOf aes os key options random (events ++ [event]) =
      actionsOf aes os key options random events ++
        ((run (Session.poll aes os) (start key options random) events).poll aes os event).2 := by
  simp [actionsOf, outputs, trace_snoc, stepAt]

/-- What is known before every turn: the session is where the events so far took it, the link has
seen and taken what they asked of it, and the events after the start are the replies of the
link. -/
structure Passed (past : List PumpCall) (loop : Turn (Logged T)) : Prop where
  agree : Agree loop
  passed : ∃ events heard, events ++ [loop.pending] = .started :: heard ∧
    List.Forall₂ Brings heard loop.transport.log ∧
    loop.session = run (Session.poll aes os) (start key options random) events ∧
    onLink past = (actionsOf aes os key options random events).filterMap asked ∧
    AllTaken (actionsOf aes os key options random events) loop.transport.answers

theorem Passed.turn {past calls : List PumpCall} {loop next : Turn (Logged T)}
    (passed : Passed aes os key options random past loop)
    (goes : Pump.turn aes os loop = (calls, .inl next)) :
    Passed aes os key options random (past ++ calls) next := by
  obtain ⟨agree, events, heard, split, brought, state, link, taken⟩ := passed
  have on : (Pump.turn aes os loop).2 = .inl next := by rw [goes]
  have logged := turn_log aes os loop
  rw [on] at logged
  obtain ⟨reply, log, brings⟩ := logged
  obtain ⟨batch, answers, answered, all⟩ := turn_onLink aes os on
  rw [goes] at batch
  refine ⟨agree.turn aes os on, events ++ [loop.pending], heard ++ [next.pending],
    ?_, ?_, ?_, ?_, ?_⟩
  · rw [split, List.cons_append]
  · rw [log]
    exact List.rel_append brought (.cons brings .nil)
  · rw [turn_goes aes os on, run_snoc, ← state]
    rfl
  · rw [onLink_append, link, batch, actionsOf_snoc, ← state, List.filterMap_append]
    rfl
  · rw [actionsOf_snoc, ← state, answered]
    exact taken.append all

/-- Every reply of the link is handed to the session once and in order, and what the session asks
of the link is carried out in order and once, up to the end it announces or to the subscription
or write that failed, the first the link did not take; the result is the session's own, or the
error that the link answered to that call. -/
theorem pump_is_faithful (t : T) (fuel : Nat) {calls : List PumpCall} {t' : Logged T}
    {s' : Session} {result : Except Error Outcome}
    (returned : runSession aes os fuel (Logged.mk t [] []) (start key options random) =
      some (calls, t', s', result)) :
    ∃ heard, List.Forall₂ Brings heard t'.log ∧
      s' = run (Session.poll aes os) (start key options random) (.started :: heard) ∧
      let actions := actionsOf aes os key options random (.started :: heard)
      (.done result ∈ actions ∧ onLink calls = actions.filterMap asked ∧
          AllTaken actions t'.answers) ∨
        ∃ front a back call e answers, actions = front ++ a :: back ∧ mustSucceed a = some call ∧
          result = .error e ∧ onLink calls = (front ++ [a]).filterMap asked ∧
          t'.answers = answers ++ [(call, .error e)] ∧ AllTaken front answers := by
  simp only [runSession, pump, Option.map_eq_some_iff, Prod.exists, Prod.mk.injEq] at returned
  obtain ⟨body, left, session, result, ran, rfl, rfl, rfl, rfl⟩ := returned
  have initial : Passed aes os key options random []
      (first (Logged.mk t [] []) (start key options random)) :=
    ⟨⟨rfl, rfl⟩, [], [], rfl, .nil, rfl, rfl, .nil⟩
  obtain ⟨past, last, loop, rfl, passed, turned⟩ := Loop.run_history
    (fun past loop calls next passed goes => passed.turn aes os key options random goes)
    initial ran
  rw [List.nil_append] at passed
  obtain ⟨agree, events, heard, split, brought, state, link, taken⟩ := passed
  have ends : (turn aes os loop).2 = .inr (left, session, result) := by rw [turned]
  have logged := turn_log aes os loop
  rw [ends] at logged
  -- the end reported in the session's place and the disconnect are not the session's to ask
  have same : onLink (past ++ last ++ (if session.finished then [] else [.phase .finished]) ++
      [.disconnect]) = onLink past ++ onLink last := by
    split <;> simp [onLink]
  have batch := actionsOf_snoc aes os key options random events loop.pending
  rw [split, ← state] at batch
  have parted : (BleTransport.disconnect left).1.answers = left.answers := rfl
  refine ⟨heard, ?_, ?_, ?_⟩
  · rw [← logged] at brought
    exact brought
  · rw [← split, run_snoc, ← state]
    exact turn_returns aes os ends
  · dsimp only
    rw [same, link, batch, parted]
    obtain ⟨answers, last_⟩ := turn_last aes os agree ends
    rw [turned] at last_
    rcases last_ with
      ⟨ended, sent, answered, all⟩ | ⟨front, a, back, call, e, cut, fails, rfl, sent, answered, all⟩
    · refine .inl ⟨List.mem_append_right _ ended, ?_, ?_⟩
      · rw [sent, List.filterMap_append]
        rfl
      · rw [answered]
        exact taken.append all
    · refine .inr ⟨actionsOf aes os key options random events ++ front, a, back, call, e,
        loop.transport.answers ++ answers, ?_, fails, rfl, ?_, answered, taken.append all⟩
      · rw [List.append_assoc, ← cut]
        rfl
      · rw [sent, List.append_assoc, ← List.filterMap_append]

/-- The answer to a lock that closes the key at once cannot be written, and that is the result. -/
theorem pump_is_faithful_hanging_up :
    let os : RandomSource := ⟨fun _ => Block.replicate 0, 0⟩
    let key := MobileKey.new (Block.replicate 0x42)
    let options := { Options.default with detection := .none }
    ∃ calls t' s' result, runSession aes128 os 2 (Logged.mk HangingUp.mk [] [])
        (start key options none) = some (calls, t', s', result) ∧
      t'.answers = [(.subscribe, .ok ()),
        (.write [0x00, 0x00], .error (.gattOperationFailed "the link is gone"))] ∧
      ∃ heard, List.Forall₂ Brings heard t'.log ∧
        s' = run (Session.poll aes128 os) (start key options none) (.started :: heard) ∧
        let actions := actionsOf aes128 os key options none (.started :: heard)
        (.done result ∈ actions ∧ onLink calls = actions.filterMap asked ∧
            AllTaken actions t'.answers) ∨
          ∃ front a back call e answers, actions = front ++ a :: back ∧
            mustSucceed a = some call ∧ result = .error e ∧
            onLink calls = (front ++ [a]).filterMap asked ∧
            t'.answers = answers ++ [(call, .error e)] ∧ AllTaken front answers :=
  ⟨_, _, _, _, rfl, rfl, pump_is_faithful aes128 ⟨fun _ => Block.replicate 0, 0⟩
    (MobileKey.new (Block.replicate 0x42)) { Options.default with detection := .none } none
    HangingUp.mk 2 rfl⟩

/-! ### The end of a run -/

/-- A bound on the packets a transport still delivers: no call raises it, and every packet
lowers it. -/
structure Bounds {T : Type} [BleTransport T] (packets : T → Nat) : Prop where
  sleep : ∀ t ms, packets (BleTransport.sleep t ms) ≤ packets t
  write : ∀ t bytes, packets (BleTransport.write t bytes).1 ≤ packets t
  subscribe : ∀ t : T, packets (BleTransport.subscribe t).1 ≤ packets t
  read : ∀ t ms, packets (BleTransport.readNotifyValue t ms).1 ≤ packets t
  receive : ∀ (t t' : T) deadline packet,
    BleTransport.receive t deadline = (t', some (.ok (some packet))) → packets t' < packets t

section Bounds

variable {packets : T → Nat} {loop : Turn T}

theorem Bounds.applyActions (bounds : Bounds packets) (t : T)
    (info : Option (Option (List UInt8))) (deadline : Option Deadline) (actions : List Action) :
    packets (applyActions t info deadline actions).1 ≤ packets t := by
  induction actions generalizing t info deadline with
  | nil => exact le_refl _
  | cons a rest ih =>
    cases a with
    | subscribe =>
      rw [Pump.applyActions]
      have here := bounds.subscribe t
      split
      next failed => rwa [failed] at here
      next passed =>
        rw [passed] at here
        exact (ih _ _ _).trans here
    | write bytes =>
      rw [Pump.applyActions]
      have here := bounds.write t bytes
      split
      next failed => rwa [failed] at here
      next passed =>
        rw [passed] at here
        exact (ih _ _ _).trans here
    | announceAppProtocol => exact (ih _ _ _).trans (bounds.write t _)
    | readProtocolInfo ms => exact (ih _ _ _).trans (bounds.read t ms)
    | pause ms => exact (ih _ _ _).trans (bounds.sleep t ms)
    | done result => exact le_refl _
    | setTimer id ms | phase p | trace note => exact ih _ _ _

/-- How many turns may follow, by what is to be polled next. -/
def turnsLeft (packets : T → Nat) (loop : Turn T) : Nat :=
  match loop.pending with
  | .started => packets loop.transport + 2
  | .protocolInfo _ | .notification _ => packets loop.transport + 1
  | .timer _ | .linkClosed | .aborted => 0

/-- A turn that goes on has been started, or brought the protocol info or a packet. -/
theorem turnsLeft_goes (packets : T → Nat) (running : Running loop.session)
    (agree : Agree loop) {next : Turn T}
    (goes : (turn aes os loop).2 = .inl next) :
    packets loop.transport + 1 ≤ turnsLeft packets loop := by
  have silent (quiet : loop.pending = .linkClosed ∨ ∃ id, loop.pending = .timer id) : False := by
    have halted := silence_finishes aes os (s := loop.session) quiet
    have alive := (running.turn aes os goes).1
    rw [turn_goes aes os goes, polled, halted] at alive
    cases alive
  have expected := agree.expected
  unfold turnsLeft
  split at expected
  · rw [expected]
    exact Nat.add_le_add_left (by decide) _
  · obtain ⟨bytes, arrived⟩ := expected
    rw [arrived]
  all_goals
    obtain ⟨_, ⟨packet, arrived⟩ | waited⟩ := expected
    · rw [arrived]
    · exact (silent waited.symm).elim

theorem turnsLeft_turn (bounds : Bounds packets) (running : Running loop.session)
    (agree : Agree loop) {next : Turn T} (goes : (turn aes os loop).2 = .inl next) :
    turnsLeft packets next < turnsLeft packets loop := by
  have enough := turnsLeft_goes aes os packets running agree goes
  have spent := bounds.applyActions loop.transport none loop.deadline (polled aes os loop).2
  change packets (applied aes os loop).1 ≤ _ at spent
  have step := turn_step aes os loop
  generalize turn aes os loop = result at step goes
  cases step with
  | returned | idle => cases goes
  | asked applies =>
    cases goes
    rw [applies] at spent
    -- only a start asks for the protocol info
    rcases applyActions_asked loop.transport loop.deadline (congrArg (·.2.2) applies) with
      known | ⟨ms, asked⟩
    · cases known
    · have started := asks_started aes os asked
      unfold turnsLeft
      rw [started]
      exact Nat.add_lt_add_of_le_of_lt spent (by decide)
  | @waited t _ id expires arrived t' applies receives =>
    cases goes
    rw [applies] at spent
    refine Nat.lt_of_lt_of_le ?_ enough
    unfold heard
    split
    next packet =>
      have fewer := bounds.receive t t' expires packet receives
      exact Nat.succ_lt_succ (Nat.lt_of_lt_of_le fewer spent)
    all_goals exact Nat.succ_pos _

/-- A run comes to its end three turns after the packets do at the latest, whatever else the link
does: no reply of the lock and no failure can keep the pump waiting in a finished session. -/
theorem pump_returns (bounds : Bounds packets) (t : T) :
    ∃ out, runSession aes os (packets t + 3) t (start key options random) = some out := by
  have kept (loop next : Turn T) (well : Running loop.session ∧ Agree loop)
      (goes : (turn aes os loop).2 = .inl next) :
      (Running next.session ∧ Agree next) ∧
        turnsLeft packets next < turnsLeft packets loop :=
    ⟨⟨well.1.turn aes os goes, well.2.turn aes os goes⟩,
      turnsLeft_turn aes os bounds well.1 well.2 goes⟩
  have initial : Running (first t (start key options random)).session ∧
      Agree (first t (start key options random)) :=
    ⟨reached_running aes os t key options random .here,
      agree_reached aes os t key options random .here⟩
  have enough : turnsLeft packets (first t (start key options random)) < packets t + 3 :=
    Nat.lt_succ_self _
  obtain ⟨out, ran⟩ := Loop.returns_of_budget kept initial enough
  exact ⟨_, by rw [runSession, pump, ran, Option.map_some]⟩

end Bounds

/-- A lock that asks for the kN key in the clear as often as it is told to, then falls silent. -/
structure Asking where
  times : Nat

instance : BleTransport Asking where
  now _ := 0
  sleep t _ := t
  write t _ := (t, .ok ())
  subscribe t := (t, .ok ())
  readNotifyValue t _ := (t, none)
  receive t _ :=
    match t.times with
    | 0 => (t, none)
    | times + 1 => (⟨times⟩, some (.ok (some [0x00, 0x02, 0x02])))
  disconnect t := (t, .ok ())

theorem bounds_asking : Bounds Asking.times where
  sleep _ _ := le_refl _
  write _ _ := le_refl _
  subscribe _ := le_refl _
  read _ _ := le_refl _
  receive := by
    rintro ⟨times⟩ t' deadline packet received
    cases times with
    | zero => cases received
    | succ times =>
      cases received
      exact Nat.lt_succ_self times

theorem pump_returns_asking :
    ∃ out, runSession aes128 ⟨fun _ => Block.replicate 0, 0⟩ (4 + 3) (Asking.mk 4)
      (start (MobileKey.new (Block.replicate 0x42)) Options.default none) = some out :=
  pump_returns aes128 _ (MobileKey.new (Block.replicate 0x42)) Options.default none bounds_asking
    (Asking.mk 4)

end Pump

end Mkey
