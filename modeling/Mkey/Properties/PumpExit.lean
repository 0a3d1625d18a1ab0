import Mkey.Ble.Pump
import Mkey.Session.Batches

/-!
# How a run ends

The session announces its own end, as an action; for a transport that fails the
pump returns early and the end is announced in the session's place, unless the
session has finished by then. A run reports its end exactly when the answer to
the command that closes the session can be written.
-/
namespace Mkey.Pump

open Session

/-- The phases reported in a series of calls. -/
def phases (calls : List PumpCall) : List Phase :=
  calls.filterMap fun
    | .phase phase => some phase
    | _ => none

/-- The end is the last phase reported, once, before the one disconnect that comes last. -/
def ReportsEnd (calls : List PumpCall) : Prop :=
  ∃ front, calls = front ++ [.disconnect] ∧ .disconnect ∉ front ∧
    ∃ before, phases front = before ++ [.finished] ∧ .finished ∉ before

/-- Calls that have nothing to do with the end. -/
def Ordinary (calls : List PumpCall) : Prop := .disconnect ∉ calls ∧ .phase .finished ∉ calls

theorem Ordinary.append {front back : List PumpCall} (first : Ordinary front)
    (second : Ordinary back) : Ordinary (front ++ back) := by
  simp_all [Ordinary]

theorem mem_phases {calls : List PumpCall} {p : Phase} : p ∈ phases calls ↔ .phase p ∈ calls := by
  rw [phases]
  rw [List.mem_filterMap]
  constructor
  · rintro ⟨c, member, same⟩
    split at same
    · cases same
      exact member
    · cases same
  · exact fun member => ⟨_, member, rfl⟩

theorem phases_append (front back : List PumpCall) :
    phases (front ++ back) = phases front ++ phases back := List.filterMap_append ..

/-- Reporting the end right before the disconnect is what is asked for. -/
theorem reportsEnd_of_last {calls : List PumpCall} (ordinary : Ordinary calls) :
    ReportsEnd (calls ++ [.phase .finished] ++ [.disconnect]) := by
  refine ⟨_, rfl, ?_, phases calls, phases_append .., ?_⟩
  · simpa using ordinary.1
  · intro member
    exact ordinary.2 (mem_phases.mp member)

theorem not_reportsEnd {calls : List PumpCall} (ordinary : Ordinary calls) :
    ¬ReportsEnd (calls ++ [.disconnect]) := by
  rintro ⟨front, same, _, before, split, _⟩
  obtain ⟨rfl, _⟩ := List.append_inj' same rfl
  have announced : .finished ∈ phases calls := by simp [split]
  exact ordinary.2 (mem_phases.mp announced)

variable {T : Type} [BleTransport T]

/-! ### One batch -/

theorem ordinary_announceNote (res : Except Error Unit) :
    Ordinary [.write appProtocolRequest, announceNote res] := by
  cases res <;> simp [Ordinary, announceNote, traceInfo]

theorem ordinary_readNote (timeoutMs : UInt32) (read : Option (Except Error (List UInt8))) :
    Ordinary (.readNotifyValue timeoutMs :: readNote timeoutMs read) := by
  unfold readNote
  split <;> simp [Ordinary, traceInfo]

theorem ordinary_heard (id : TimerId) (arrived : Option (Except Error (Option (List UInt8)))) :
    Ordinary (.receive :: (heard id arrived).1) := by
  unfold heard
  split <;> simp [Ordinary, traceInfo]

/-- The calls a batch leads to are ordinary, but for an end it holds itself. -/
theorem applyActions_ordinary (t : T) (info : Option (Option (List UInt8)))
    (deadline : Option Deadline) {actions : List Action} (open_ : .phase .finished ∉ actions) :
    Ordinary (applyActions t info deadline actions).2.1 := by
  induction actions generalizing t info deadline with
  | nil => simp [applyActions, Ordinary]
  | cons a rest ih =>
    rw [List.mem_cons, not_or] at open_
    obtain ⟨here, later⟩ := open_
    cases a with
    | announceAppProtocol => exact (ordinary_announceNote _).append (ih _ _ _ later)
    | readProtocolInfo ms => exact (ordinary_readNote ms _).append (ih _ _ _ later)
    | subscribe =>
      rw [applyActions]
      split
      · simp [Ordinary]
      · exact Ordinary.append (by simp [Ordinary]) (ih _ _ _ later)
    | write bytes =>
      rw [applyActions]
      split
      · simp [Ordinary]
      · exact Ordinary.append (by simp [Ordinary]) (ih _ _ _ later)
    | pause ms | trace note => exact Ordinary.append (by simp [Ordinary]) (ih _ _ _ later)
    -- arming a timer is no call at all
    | setTimer id ms => exact ih _ _ _ later
    | phase p => exact Ordinary.append (by simpa [Ordinary] using here) (ih _ _ _ later)
    | done result => simp [applyActions, Ordinary]

/-- What the observer is told of an action. -/
def observed : Action → Option PumpCall
  | .trace trace => some (.trace trace)
  | .phase phase => some (.phase phase)
  | _ => none

theorem ordinary_observed {actions : List Action} (open_ : .phase .finished ∉ actions) :
    Ordinary (actions.filterMap observed) := by
  rw [Ordinary]
  simp only [List.mem_filterMap, not_exists, not_and]
  constructor
  · intro a _ same
    cases a <;> simp [observed] at same
  · intro a member same
    cases a with
    | phase p =>
      obtain rfl : p = .finished := by simpa [observed] using same
      exact open_ member
    | _ => simp [observed] at same

theorem notes_shown {notes : List Action} (noted : Notes notes) :
    ∀ a ∈ notes, (observed a).isSome := by
  intro a member
  obtain ⟨t, rfl⟩ := noted a member
  rfl

theorem notes_open {notes : List Action} (noted : Notes notes) : .phase .finished ∉ notes := by
  intro member
  obtain ⟨t, same⟩ := noted _ member
  cases same

/-- Actions meant for the observer leave the transport alone. -/
theorem applyActions_observed (t : T) (info : Option (Option (List UInt8)))
    (deadline : Option Deadline) {actions : List Action}
    (shown : ∀ a ∈ actions, (observed a).isSome) (rest : List Action) :
    applyActions t info deadline (actions ++ rest) =
      andThen (actions.filterMap observed) (applyActions t info deadline rest) := by
  induction actions with
  | nil => rfl
  | cons a later ih =>
    have tail := ih fun b member => shown b (List.mem_cons_of_mem a member)
    have here := shown a List.mem_cons_self
    cases a with
    | trace note | phase p =>
      simp only [List.cons_append, applyActions, tail]
      rfl
    | _ => simp [observed] at here

/-- A batch that ends the session returns, whatever becomes of the actions before the end. -/
theorem applyActions_done (t : T) (info : Option (Option (List UInt8)))
    (deadline : Option Deadline) {actions : List Action} {result : Except Error Outcome}
    (ended : .done result ∈ actions) :
    ∃ result', (applyActions t info deadline actions).2.2 = .returned result' := by
  induction actions generalizing t info deadline with
  | nil => cases ended
  | cons a rest ih =>
    cases a with
    | done result' => exact ⟨result', rfl⟩
    -- the two actions that may fail: a failure returns as well
    | subscribe | write bytes =>
      rcases List.mem_cons.mp ended with same | later
      · cases same
      · rw [applyActions]
        split
        · exact ⟨_, rfl⟩
        · exact ih _ _ _ later
    | _ =>
      rcases List.mem_cons.mp ended with same | later
      · cases same
      · exact ih _ _ _ later

/-- The call that a batch was left at, and what the transport answered to it. -/
inductive LeftAt (T : Type) [BleTransport T] (calls : List PumpCall) (e : Error) : Prop
  | subscribe {front : List PumpCall} (t : T) : calls = front ++ [.subscribe] →
      (BleTransport.subscribe t).2 = .error e → LeftAt T calls e
  | write {front : List PumpCall} {bytes : List UInt8} (t : T) : calls = front ++ [.write bytes] →
      (BleTransport.write t bytes).2 = .error e → LeftAt T calls e

theorem LeftAt.after {calls : List PumpCall} {e : Error} (left_ : LeftAt T calls e)
    (before : List PumpCall) : LeftAt T (before ++ calls) e := by
  cases left_ with
  | subscribe t split failed => exact .subscribe t (by rw [split, List.append_assoc]) failed
  | write t split failed => exact .write t (by rw [split, List.append_assoc]) failed

/-- A batch returns with the end it holds, or with the error of the call it was left at. -/
theorem applyActions_returned (t : T) (info : Option (Option (List UInt8)))
    (deadline : Option Deadline) {actions : List Action} {result : Except Error Outcome}
    (returned : (applyActions t info deadline actions).2.2 = .returned result) :
    .done result ∈ actions ∨
      ∃ e, result = .error e ∧ LeftAt T (applyActions t info deadline actions).2.1 e := by
  induction actions generalizing t info deadline with
  | nil => cases returned
  | cons a rest ih =>
    -- an end behind this action is one of the batch, and so is a call it was left at
    have later (u : T) {info : Option (Option (List UInt8))} {deadline : Option Deadline}
        (before : List PumpCall)
        (returned : (applyActions u info deadline rest).2.2 = .returned result) :
        .done result ∈ a :: rest ∨ ∃ e, result = .error e ∧
          LeftAt T (before ++ (applyActions u info deadline rest).2.1) e := by
      rcases ih u info deadline returned with ended | ⟨e, same, left_⟩
      · exact .inl (List.mem_cons_of_mem a ended)
      · exact .inr ⟨e, same, left_.after before⟩
    cases a with
    | subscribe =>
      rw [applyActions] at returned ⊢
      split at returned
      next u e failed =>
        cases returned
        exact .inr ⟨e, rfl, .subscribe t (List.nil_append _).symm (by rw [failed])⟩
      next u succeeded => exact later u _ returned
    | write bytes =>
      rw [applyActions] at returned ⊢
      split at returned
      next u e failed =>
        cases returned
        exact .inr ⟨e, rfl, .write t (List.nil_append _).symm (by rw [failed])⟩
      next u succeeded => exact later u _ returned
    | done result' =>
      cases returned
      exact .inl List.mem_cons_self
    | setTimer id afterMs => exact later t [] returned
    | _ => exact later _ _ returned

/-- A protocol info is at hand only when a batch asked for it. -/
theorem applyActions_asked (t : T) {info : Option (Option (List UInt8))}
    (deadline : Option Deadline) {actions : List Action} {answer : Option (List UInt8)}
    {deadline' : Option Deadline}
    (applied : (applyActions t info deadline actions).2.2 = .wholly (some answer) deadline') :
    info = some answer ∨ ∃ ms, .readProtocolInfo ms ∈ actions := by
  induction actions generalizing t info deadline with
  | nil =>
    rw [applyActions, Applied.wholly.injEq] at applied
    exact .inl applied.1
  | cons a rest ih =>
    have later {t : T} {deadline : Option Deadline}
        (applied : (applyActions t info deadline rest).2.2 = .wholly (some answer) deadline') :
        info = some answer ∨ ∃ ms, .readProtocolInfo ms ∈ a :: rest := by
      rcases ih t deadline applied with known | ⟨ms, asked⟩
      · exact .inl known
      · exact .inr ⟨ms, List.mem_cons_of_mem a asked⟩
    cases a with
    -- every other action hands on what was at hand before it
    | readProtocolInfo ms => exact .inr ⟨ms, List.mem_cons_self⟩
    | subscribe | write bytes =>
      rw [applyActions] at applied
      split at applied
      · cases applied
      · exact later applied
    | done result => cases applied
    | _ => exact later applied

/-! ### One turn -/

variable (aes : BlockCipher) (os : RandomSource)

/-- The poll of a turn. -/
def polled (loop : Turn T) : Polled := loop.session.poll aes os loop.pending

/-- What a turn makes of its batch. -/
def applied (loop : Turn T) : T × List PumpCall × Applied :=
  applyActions loop.transport none loop.deadline (polled aes os loop).2

/-- What the pump itself says of a session that would have it wait for nothing. -/
def stalled : Error :=
  .invalidState "a pending wait or a finished session"
    "the session asked for nothing and did not finish"

/-- The ways a turn can go: its batch returned, asked for the protocol info, left nothing to wait
for, or armed a timer. -/
inductive TurnStep (loop : Turn T) : List PumpCall × (Turn T ⊕ Return T) → Prop
  | returned {t : T} {calls : List PumpCall} {result : Except Error Outcome} :
      applied aes os loop = (t, calls, .returned result) →
      TurnStep loop (calls, .inr (t, (polled aes os loop).1, result))
  | asked {t : T} {calls : List PumpCall} {info : Option (List UInt8)}
      {deadline : Option Deadline} :
      applied aes os loop = (t, calls, .wholly (some info) deadline) →
      TurnStep loop (calls, .inl ⟨t, (polled aes os loop).1, .protocolInfo info, deadline⟩)
  | idle {t : T} {calls : List PumpCall} :
      applied aes os loop = (t, calls, .wholly none none) →
      TurnStep loop (calls, .inr (t, (polled aes os loop).1, .error stalled))
  | waited {t : T} {calls : List PumpCall} {id : TimerId} {expires : Nat}
      {arrived : Option (Except Error (Option (List UInt8)))} {t' : T} :
      applied aes os loop = (t, calls, .wholly none (some (id, expires))) →
      BleTransport.receive t expires = (t', arrived) →
      TurnStep loop (calls ++ .receive :: (heard id arrived).1,
        .inl ⟨t', (polled aes os loop).1, (heard id arrived).2, some (id, expires)⟩)

theorem turn_step (loop : Turn T) : TurnStep aes os loop (turn aes os loop) := by
  rw [turn]
  split
  next session actions polls =>
    have session_ : (polled aes os loop).1 = session := by rw [polled, polls]
    have batch : applied aes os loop = applyActions loop.transport none loop.deadline actions := by
      rw [applied, polled, polls]
    rw [← session_]
    split
    next applies => exact .returned (batch.trans applies)
    next applies => exact .asked (batch.trans applies)
    next applies => exact .idle (batch.trans applies)
    next applies => exact .waited (batch.trans applies) rfl

/-- A session that is still running, and not at odds with its command layer. -/
def Running (session : Session) : Prop := session.finished = false ∧ Connected session

/-- A turn that goes on leaves the session its poll left. -/
theorem turn_goes {loop next : Turn T} (goes : (turn aes os loop).2 = .inl next) :
    next.session = (polled aes os loop).1 := by
  have step := turn_step aes os loop
  generalize turn aes os loop = result at step goes
  cases step with
  | returned | idle => cases goes
  | asked | waited =>
    cases goes
    rfl

/-- So does one that returns. -/
theorem turn_returns {loop : Turn T} {out : Return T} (returned : (turn aes os loop).2 = .inr out) :
    out.2.1 = (polled aes os loop).1 := by
  have step := turn_step aes os loop
  generalize turn aes os loop = result at step returned
  cases step with
  | returned | idle =>
    cases returned
    rfl
  | asked | waited => cases returned

/-- The calls of a turn are ordinary while those of its batch are. -/
theorem turn_ordinary (loop : Turn T) (ordinary : Ordinary (applied aes os loop).2.1) :
    Ordinary (turn aes os loop).1 := by
  have step := turn_step aes os loop
  generalize turn aes os loop = result at step
  cases step with
  | returned applies | asked applies | idle applies =>
    rw [applies] at ordinary
    exact ordinary
  | waited applies receives =>
    rw [applies] at ordinary
    exact ordinary.append (ordinary_heard _ _)

/-- A turn whose batch holds the end of the session returns with the calls of the batch. -/
theorem turn_done {loop : Turn T} {result : Except Error Outcome}
    (ended : .done result ∈ (polled aes os loop).2) :
    (turn aes os loop).1 = (applied aes os loop).2.1 ∧
      ∃ out, (turn aes os loop).2 = .inr out := by
  obtain ⟨result', returned⟩ := applyActions_done loop.transport none loop.deadline ended
  have step := turn_step aes os loop
  have applied_ : (applied aes os loop).2.2 = .returned result' := returned
  generalize turn aes os loop = result at step
  cases step with
  | returned applies => exact ⟨by rw [applies], _, rfl⟩
  | asked applies | idle applies | waited applies _ =>
    rw [applies] at applied_
    cases applied_

/-- The command that closes the session is answered, and the answer cannot be written. -/
def LosesClose (loop : Turn T) : Prop :=
  ∃ response e, Closing aes loop.session loop.pending response ∧
    (BleTransport.write loop.transport response).2 = .error e

section Running

variable {loop : Turn T}

/-- The end of a batch that ends the session reaches the observer. -/
theorem applyActions_end (t : T) (info : Option (Option (List UInt8))) (deadline : Option Deadline)
    {actions : List Action} (shown : ∀ a ∈ actions, (observed a).isSome)
    (result : Except Error Outcome) :
    (applyActions t info deadline (actions ++ [.phase .finished, .done result])).2.1 =
      actions.filterMap observed ++ [.phase .finished] := by
  rw [applyActions_observed t info deadline shown]
  rfl

theorem running_calls (still : (polled aes os loop).1.finished = false) :
    Ordinary (turn aes os loop).1 :=
  turn_ordinary aes os loop
    (applyActions_ordinary _ _ _ (running_batch aes os still).1)

/-- A session that ends without an answer to close it is seen to end. -/
theorem quiet_calls (running : Running loop.session)
    (unclosed : ∀ response, ¬Closing aes loop.session loop.pending response)
    (halted : (polled aes os loop).1.finished = true) :
    (∃ out, (turn aes os loop).2 = .inr out) ∧
      ∃ calls, Ordinary calls ∧ (turn aes os loop).1 = calls ++ [.phase .finished] := by
  obtain ⟨notes, result, noted, split⟩ := quiet_batch aes os running.1 running.2 unclosed halted
  have ended : .done result ∈ (polled aes os loop).2 := by
    rw [polled, split]
    simp
  obtain ⟨calls, returned⟩ := turn_done aes os ended
  refine ⟨returned, notes.filterMap observed, ordinary_observed (notes_open noted), ?_⟩
  rw [calls, applied, polled, split]
  exact applyActions_end _ _ _ (notes_shown noted) result

/-- The end of a session closed in order is seen unless the answer cannot be written. -/
theorem closing_calls (running : Running loop.session) {response : List UInt8}
    (closing : Closing aes loop.session loop.pending response) :
    (polled aes os loop).1.finished = true ∧ (∃ out, (turn aes os loop).2 = .inr out) ∧
      ∃ calls, Ordinary calls ∧ (turn aes os loop).1 =
        match (BleTransport.write loop.transport response).2 with
        | .error _ => calls
        | .ok () => calls ++ [.phase .finished] := by
  obtain ⟨halted, notes, entered, result, noted, phases, split⟩ :=
    closing_batch aes os running.1 running.2 closing
  have shown : ∀ a ∈ entered, (observed a).isSome := by
    intro a member
    rw [phases a member]
    rfl
  have unended : .phase .finished ∉ entered := by
    intro member
    have same := phases _ member
    cases same
  have ended : .done result ∈ (polled aes os loop).2 := by
    rw [polled, split]
    simp
  obtain ⟨calls, returned⟩ := turn_done aes os ended
  refine ⟨halted, returned, ?_⟩
  rw [calls, applied, polled, split, applyActions_observed _ _ _ (notes_shown noted)]
  have before := ordinary_observed (notes_open noted)
  -- up to the answer nothing but notes; what the write returns decides the rest
  have wrote : Ordinary [.write response] := by simp [Ordinary]
  simp only [andThen, applyActions]
  cases writes : BleTransport.write loop.transport response with
  | mk t answer =>
    cases answer with
    | error e => exact ⟨_, before.append wrote, rfl⟩
    | ok _ =>
      refine ⟨_, (before.append wrote).append (ordinary_observed unended), ?_⟩
      simp [applyActions_end _ _ _ shown]

/-- A turn that goes on leaves a session that does. -/
theorem Running.turn {next : Turn T} (running : Running loop.session)
    (goes : (turn aes os loop).2 = .inl next) : Running next.session := by
  rw [turn_goes aes os goes]
  refine ⟨?_, running.2.poll aes os loop.pending⟩
  by_contra halted
  rw [Bool.not_eq_false] at halted
  -- a session that finished had its end in the batch, and the turn returned
  have returned : ∃ out, (Pump.turn aes os loop).2 = .inr out := by
    by_cases closing : ∃ response, Closing aes loop.session loop.pending response
    · obtain ⟨response, closing⟩ := closing
      exact (closing_calls aes os running closing).2.1
    · exact (quiet_calls aes os running (not_exists.mp closing) halted).1
  obtain ⟨out, returned⟩ := returned
  rw [goes] at returned
  cases returned

theorem going_calls {next : Turn T} (running : Running loop.session)
    (goes : (turn aes os loop).2 = .inl next) : Ordinary (turn aes os loop).1 := by
  apply running_calls aes os
  rw [← turn_goes aes os goes]
  exact (running.turn aes os goes).1

/-- What the last turn reports, with what is reported in place of a session that is not over. -/
theorem last_calls (running : Running loop.session) {out : Return T}
    (returned : (turn aes os loop).2 = .inr out) :
    let calls := (turn aes os loop).1 ++ if out.2.1.finished then [] else [.phase .finished]
    (LosesClose aes loop → Ordinary calls) ∧
      (¬LosesClose aes loop → ∃ front, Ordinary front ∧ calls = front ++ [.phase .finished]) := by
  rw [turn_returns aes os returned]
  by_cases closing : ∃ response, Closing aes loop.session loop.pending response
  · obtain ⟨response, closing⟩ := closing
    obtain ⟨halted, _, front, ordinary, calls⟩ := closing_calls aes os running closing
    -- there is one answer, so losing it is a matter of one write
    have loses : LosesClose aes loop ↔
        ∃ e, (BleTransport.write loop.transport response).2 = .error e := by
      refine ⟨?_, fun ⟨e, failed⟩ => ⟨response, e, closing, failed⟩⟩
      rintro ⟨response', e, closing', failed⟩
      rw [closing.unique aes closing']
      exact ⟨e, failed⟩
    rw [loses, halted, if_pos rfl, List.append_nil, calls]
    cases (BleTransport.write loop.transport response).2 with
    | error e => exact ⟨fun _ => ordinary, fun fine => absurd ⟨e, rfl⟩ fine⟩
    | ok _ => exact ⟨fun ⟨e, failed⟩ => (by cases failed), fun _ => ⟨front, ordinary, rfl⟩⟩
  · have fine : ¬LosesClose aes loop := fun ⟨response, _, closing', _⟩ =>
      closing ⟨response, closing'⟩
    refine ⟨fun lost => absurd lost fine, ?_⟩
    intro _
    cases halted : (polled aes os loop).1.finished with
    | true =>
      obtain ⟨_, front, ordinary, calls⟩ :=
        quiet_calls aes os running (not_exists.mp closing) halted
      exact ⟨front, ordinary, by rw [calls, if_pos rfl, List.append_nil]⟩
    -- the pump returned early: the end is announced in the session's place
    | false => exact ⟨_, running_calls aes os halted, by rw [if_neg Bool.false_ne_true]⟩

end Running

/-! ### The whole run -/

section Run

variable (t : T) (key : MobileKey) (options : Options) (random : Option RandomSource)

theorem reached_running {loop : Turn T}
    (reached : Loop.Reaches (turn aes os) (first t (Session.start key options random)) loop) :
    Running loop.session := by
  refine reached.invariant (fun loop => Running loop.session)
    (fun _ _ running goes => running.turn aes os goes) ⟨rfl, ?_⟩
  intro _ session current
  cases current

/-- The transport keeps a run going: it takes what the batch writes to it, and it brings a packet
to the wait after it, unless that is the wait of the first turn. -/
def KeepsTalking (loop : Turn T) : Prop :=
  (∃ info deadline, (applied aes os loop).2.2 = .wholly (some info) deadline) ∨
    ∃ id expires, (applied aes os loop).2.2 = .wholly none (some (id, expires)) ∧
      (loop.pending = .started ∨
        ∃ packet, (BleTransport.receive (applied aes os loop).1 expires).2 =
          some (.ok (some packet)))

/-- A loop that goes on, and on after that, was brought a packet. -/
theorem keepsTalking_of_goes {loop next after : Turn T} (running : Running loop.session)
    (goes : (turn aes os loop).2 = .inl next) (again : (turn aes os next).2 = .inl after) :
    KeepsTalking aes os loop := by
  have alive : Running after.session := (running.turn aes os goes).turn aes os again
  have silent (quiet : next.pending = .linkClosed ∨ ∃ id, next.pending = .timer id) : False := by
    have halted : after.session.finished = true := by
      rw [turn_goes aes os again]
      exact silence_finishes aes os quiet
    rw [alive.1] at halted
    cases halted
  have step := turn_step aes os loop
  generalize turn aes os loop = result at step goes
  cases step with
  | returned | idle => cases goes
  | asked applies => exact .inl ⟨_, _, congrArg (·.2.2) applies⟩
  -- silence or a lost link would have ended the session on the next turn
  | @waited t _ id expires arrived _ applies receives =>
    obtain rfl := Sum.inl.inj goes
    refine .inr ⟨id, expires, congrArg (·.2.2) applies, .inr ?_⟩
    rw [applies, receives]
    dsimp only at silent ⊢
    unfold heard at silent
    split at silent
    · exact ⟨_, rfl⟩
    all_goals simp at silent

/-- A turn that is kept going goes on. -/
theorem KeepsTalking.goes {loop : Turn T} (talks : KeepsTalking aes os loop) :
    ∃ next, (turn aes os loop).2 = .inl next := by
  have step := turn_step aes os loop
  generalize turn aes os loop = result at step
  cases step with
  | returned applies | idle applies =>
    rcases talks with ⟨info, deadline, same⟩ | ⟨id, expires, same, _⟩ <;>
      · rw [applies] at same
        cases same
  | asked | waited => exact ⟨_, rfl⟩

/-- A run comes to an end unless the lock talks for ever. -/
theorem returns_iff_quiet :
    (∃ fuel out, runSession aes os fuel t (Session.start key options random) = some out) ↔
      ∃ loop, Loop.Reaches (turn aes os) (first t (Session.start key options random)) loop ∧
        ¬KeepsTalking aes os loop := by
  simp only [← Option.isSome_iff_exists, runSession, pump, Option.isSome_map]
  simp only [Option.isSome_iff_exists]
  rw [Loop.returns_iff]
  constructor
  · rintro ⟨loop, out, reached, returned⟩
    refine ⟨loop, reached, fun talks => ?_⟩
    obtain ⟨next, goes⟩ := talks.goes
    rw [returned] at goes
    cases goes
  · -- a loop that never returns goes on twice from every turn, so the lock keeps talking
    rintro ⟨loop, reached, quiet⟩
    by_contra never
    push Not at never
    have goes {loop : Turn T}
        (reached : Loop.Reaches (turn aes os) (first t (Session.start key options random)) loop) :
        ∃ next, (turn aes os loop).2 = .inl next := by
      cases turned : (turn aes os loop).2 with
      | inl next => exact ⟨next, rfl⟩
      | inr out => exact absurd turned (never loop out reached)
    obtain ⟨next, on⟩ := goes reached
    obtain ⟨after, again⟩ := goes (reached.turn on)
    exact quiet (keepsTalking_of_goes aes os (reached_running aes os t key options random reached)
      on again)

/-- The end of a run is reported exactly when its last turn does not lose the close. -/
theorem reportsEnd_iff {fuel : Nat} {calls : List PumpCall} {out : Return T}
    (returned : runSession aes os fuel t (Session.start key options random) = some (calls, out)) :
    ReportsEnd calls ↔ ∀ loop,
      Loop.Reaches (turn aes os) (first t (Session.start key options random)) loop →
        ¬LosesClose aes loop := by
  simp only [runSession, pump, Option.map_eq_some_iff, Prod.exists] at returned
  obtain ⟨body, t', session, result, ran, rest⟩ := returned
  obtain ⟨rfl, _⟩ := Prod.mk.inj rest
  obtain ⟨front, last, loop, rfl, reached, turned, before⟩ := Loop.run_last ran
  have running {loop : Turn T}
      (reached : Loop.Reaches (turn aes os) (first t (Session.start key options random)) loop) :
      Running loop.session := reached_running aes os t key options random reached
  have ends : (turn aes os loop).2 = .inr (t', session, result) := by rw [turned]
  have ordinary : Ordinary front := by
    have calls (c : PumpCall) (member : c ∈ front) : ∃ calls, Ordinary calls ∧ c ∈ calls := by
      obtain ⟨u, next, reached', goes, inside⟩ := before c member
      exact ⟨_, going_calls aes os (running reached') goes, inside⟩
    constructor
    · intro member
      obtain ⟨calls, ordinary, inside⟩ := calls _ member
      exact ordinary.1 inside
    · intro member
      obtain ⟨calls, ordinary, inside⟩ := calls _ member
      exact ordinary.2 inside
  -- only the last turn can lose the close, because a turn that closes returns
  have only : (∀ loop,
      Loop.Reaches (turn aes os) (first t (Session.start key options random)) loop →
        ¬LosesClose aes loop) ↔ ¬LosesClose aes loop := by
    refine ⟨fun all => all loop reached, ?_⟩
    intro fine other reached' lost
    obtain ⟨response, e, closing, failed⟩ := lost
    obtain ⟨_, ⟨out, ends'⟩, _⟩ := closing_calls aes os (running reached') closing
    obtain rfl := reached.last_unique reached' ends ends'
    exact fine ⟨response, e, closing, failed⟩
  obtain ⟨lost, kept⟩ := last_calls aes os (running reached) ends
  simp only [turned] at lost kept
  rw [only]
  constructor
  · intro reports loses
    rw [List.append_assoc front] at reports
    exact not_reportsEnd (ordinary.append (lost loses)) reports
  · intro fine
    obtain ⟨calls, plain, split⟩ := kept fine
    rw [List.append_assoc front, split, ← List.append_assoc]
    exact reportsEnd_of_last (ordinary.append plain)

/-- A run ends in an orderly report exactly when the lock does not talk for ever and the answer
to the command that closes the session, if it comes, can be written. -/
theorem end_reported_iff :
    let start := first t (Session.start key options random)
    (∃ fuel calls out, runSession aes os fuel t (Session.start key options random) =
        some (calls, out) ∧ ReportsEnd calls) ↔
      (∃ loop, Loop.Reaches (turn aes os) start loop ∧ ¬KeepsTalking aes os loop) ∧
        ∀ loop, Loop.Reaches (turn aes os) start loop → ¬LosesClose aes loop := by
  intro start
  constructor
  · rintro ⟨fuel, calls, out, returned, reports⟩
    exact ⟨(returns_iff_quiet aes os t key options random).mp ⟨fuel, _, returned⟩,
      (reportsEnd_iff aes os t key options random returned).mp reports⟩
  · rintro ⟨quiet, fine⟩
    obtain ⟨fuel, ⟨calls, out⟩, returned⟩ :=
      (returns_iff_quiet aes os t key options random).mpr quiet
    exact ⟨fuel, calls, out, returned,
      (reportsEnd_iff aes os t key options random returned).mpr fine⟩

/-- A lock that closes the session at once and takes no more writes. -/
structure HangingUp where

instance : BleTransport HangingUp where
  now _ := 0
  sleep t _ := t
  write t _ := (t, .error (.gattOperationFailed "the link is gone"))
  subscribe t := (t, .ok ())
  readNotifyValue t _ := (t, none)
  receive t _ := (t, some (.ok (some [0x00, 0x01])))
  disconnect t := (t, .ok ())

/-- The command to close finishes the session, and the lost answer hides that it did. -/
theorem end_hidden_by_lost_close :
    ∃ calls out, runSession aes128 ⟨fun _ => Block.replicate 0, 0⟩ 2 (HangingUp.mk)
        (Session.start (MobileKey.new (Block.replicate 0x42))
          { Options.default with detection := .none } none) = some (calls, out) ∧
      ¬ReportsEnd calls := by
  have ordinary : Ordinary [.phase .detectingVersion,
      traceInfo "Version detection skipped, subscribing straight away", .subscribe,
      .phase .authenticating, .receive, .trace (.rx [0x00, 0x01]), .trace (.tx [0x00, 0x00]),
      .write [0x00, 0x00]] := by
    rw [Ordinary]
    decide
  exact ⟨_, _, rfl, not_reportsEnd ordinary⟩

end Run

end Mkey.Pump
