import Mkey.Properties.PumpExit
import Mkey.Session.Steps

/-!
# The pump keeps the shell contract

The pump remembers a deadline and a read it has made, the session its state and
flow. In every turn the two agree on what the session is waiting for.
-/
namespace Mkey.Pump

open Loop Session

/-- The batch asks for the protocol info. -/
def Asks (actions : List Action) : Prop := ∃ ms, .readProtocolInfo ms ∈ actions

/-- The batch arms a timer. -/
def Arms (actions : List Action) : Prop := ∃ id ms, .setTimer id ms ∈ actions

/-- The batch holds the end of the session. -/
def Ends (actions : List Action) : Prop := ∃ result, .done result ∈ actions

theorem asks_cons (a : Action) (rest : List Action) :
    Asks (a :: rest) ↔ (∃ ms, a = .readProtocolInfo ms) ∨ Asks rest := by
  simp [Asks, exists_or, eq_comm]

theorem arms_cons (a : Action) (rest : List Action) :
    Arms (a :: rest) ↔ (∃ id ms, a = .setTimer id ms) ∨ Arms rest := by
  simp [Arms, exists_or, eq_comm]

/-- A batch that asks for the protocol info leaves a session that waits for it. -/
theorem asks_detecting (aes : BlockCipher) (os : RandomSource) {s : Session} {event : Event}
    (asked : Asks (s.poll aes os event).2) : (s.poll aes os event).1.state = .detecting := by
  obtain ⟨ms, member⟩ := asked
  obtain rfl := asks_started aes os member
  have step := poll_step aes os s .started
  generalize s.poll aes os .started = polled at step member
  cases step with
  | halted => cases member
  | unexpected => simp [unexpected, finish] at member
  | detecting => rfl
  | beganV0200 _ _ preparing =>
    rcases List.mem_append.mp member with early | late
    · rcases List.mem_append.mp early with noted | opens
      · rcases preparing.mem noted with same | ⟨_, same, _⟩ | ⟨_, same⟩ <;> cases same
      · simp [opening] at opens
    · simp [beginV0200] at late

theorem asks_last (front : List Action) (ms : UInt32) : Asks (front ++ [.readProtocolInfo ms]) :=
  ⟨ms, List.mem_append_right front List.mem_cons_self⟩

theorem arms_last (front : List Action) (id : TimerId) (ms : UInt32) :
    Arms (front ++ [.setTimer id ms]) :=
  ⟨id, ms, List.mem_append_right front List.mem_cons_self⟩

theorem ends_finish (front : List Action) (s : Session) (result : Except Error Outcome) :
    Ends (emit front (s.finish result)).2 := by
  refine ⟨result, ?_⟩
  simp [emit, finish]

section Turns

variable {T : Type} [BleTransport T]

/-- A batch that is applied to its end leaves a protocol info if it asked for one, and a deadline
if it armed one, besides those there were. -/
theorem applyActions_wholly (t : T) {info info' : Option (Option (List UInt8))}
    {deadline deadline' : Option Deadline} {actions : List Action}
    (applied : (applyActions t info deadline actions).2.2 = .wholly info' deadline') :
    (info'.isSome ↔ info.isSome ∨ Asks actions) ∧
      (deadline'.isSome ↔ deadline.isSome ∨ Arms actions) := by
  induction actions generalizing t info deadline with
  | nil =>
    rw [applyActions, Applied.wholly.injEq] at applied
    obtain ⟨rfl, rfl⟩ := applied
    simp [Asks, Arms]
  | cons a rest ih =>
    simp only [asks_cons, arms_cons]
    cases a with
    -- what an action that may fail hands on, it hands on unchanged
    | subscribe | write bytes =>
      rw [applyActions] at applied
      split at applied
      · cases applied
      · simpa using ih _ applied
    | done result => cases applied
    | _ => simpa using ih _ applied

/-! ### One poll -/

/-- Pump and session agree on what comes next: the start, the protocol info the session asked for,
or anything a running flow waits for while a timer is armed. -/
structure Agree (loop : Turn T) : Prop where
  running : loop.session.finished = false
  expected : match loop.session.state with
    | .idle => loop.pending = .started
    | .detecting => ∃ bytes, loop.pending = .protocolInfo bytes
    | .v0200 _ | .v0100 _ => loop.deadline.isSome ∧
        ((∃ packet, loop.pending = .notification packet) ∨ (∃ id, loop.pending = .timer id) ∨
          loop.pending = .linkClosed)

/-- A flow has begun. -/
def Flows (s : Session) : Prop :=
  s.finished = false ∧ ((∃ session, s.state = .v0200 session) ∨ ∃ session, s.state = .v0100 session)

/-- What a batch leaves the shell to do: nothing more, a read, or a wait. -/
inductive Leaves (loop : Turn T) (polled : Polled) : Prop
  | ended : Ends polled.2 → Leaves loop polled
  | asked : Asks polled.2 → polled.1.finished = false → polled.1.state = .detecting →
      Leaves loop polled
  | waits : loop.deadline.isSome ∨ Arms polled.2 → Flows polled.1 → Leaves loop polled

variable (aes : BlockCipher) (os : RandomSource) {loop : Turn T}

omit [BleTransport T] in
theorem Agree.leaves (agree : Agree loop) : Leaves loop (polled aes os loop) := by
  obtain ⟨running, expected⟩ := agree
  have step := poll_step aes os loop.session loop.pending
  rw [polled]
  generalize loop.session.poll aes os loop.pending = batch at step
  generalize loop.pending = pending at step expected
  cases step with
  | halted halted =>
    rw [running] at halted
    cases halted
  | cancelled | unexpected | disconnected => exact .ended (ends_finish [] _ _)
  | version | closed | refused | silentV0200 | lostV0200 | resulted | shortV0100 | silentV0100 =>
    exact .ended (ends_finish _ _ _)
  | detecting => exact .asked (asks_last _ _) running rfl
  | beganV0200 => exact .waits (.inr (arms_last _ _ _)) ⟨running, .inl ⟨_, rfl⟩⟩
  | beganV0100 =>
    exact .waits (.inr (arms_last [_, _, _, _, _, _] _ _)) ⟨running, .inr ⟨_, rfl⟩⟩
  | answered => exact .waits (.inr (arms_last _ _ _)) ⟨running, .inl ⟨_, rfl⟩⟩
  | signed => exact .waits (.inr (arms_last [_, _, _, _] _ _)) ⟨running, .inr ⟨_, rfl⟩⟩
  -- noise arms nothing: the timer armed before it goes on running
  | ignored _ current =>
    rw [current] at expected
    exact .waits (.inl expected.1) ⟨running, .inr ⟨_, current⟩⟩

/-! ### One turn -/

theorem open_of_wholly {info : Option (Option (List UInt8))} {deadline : Option Deadline}
    (applies : (applied aes os loop).2.2 = .wholly info deadline) :
    ¬Ends (polled aes os loop).2 := by
  rintro ⟨result, ended⟩
  obtain ⟨result', returned⟩ := applyActions_done loop.transport none loop.deadline ended
  rw [applied, returned] at applies
  cases applies

/-- A batch applied to its end leaves the pump what the session waits for: the protocol info while
the version is being detected, and a deadline in a flow. -/
theorem Agree.applied (agree : Agree loop) {info : Option (Option (List UInt8))}
    {deadline : Option Deadline} (applies : (applied aes os loop).2.2 = .wholly info deadline) :
    (polled aes os loop).1.finished = false ∧
      if info.isSome then (polled aes os loop).1.state = .detecting
      else deadline.isSome ∧ Flows (polled aes os loop).1 := by
  obtain ⟨read, armed⟩ := applyActions_wholly loop.transport applies
  cases agree.leaves aes os with
  | ended ended => exact absurd ended (open_of_wholly aes os applies)
  | asked asked running detecting =>
    rw [if_pos (read.mpr (.inr asked))]
    exact ⟨running, detecting⟩
  | waits waits flows =>
    refine ⟨flows.1, ?_⟩
    split
    next asked =>
      have asks : Asks (polled aes os loop).2 := by simpa using read.mp asked
      exact asks_detecting aes os asks
    next => exact ⟨armed.mpr waits, flows⟩

/-- A turn that goes on keeps the agreement. -/
theorem Agree.turn {next : Turn T} (agree : Agree loop) (goes : (turn aes os loop).2 = .inl next) :
    Agree next := by
  have step := turn_step aes os loop
  generalize Pump.turn aes os loop = result at step goes
  cases step with
  | returned | idle => cases goes
  | asked applies =>
    obtain rfl := Sum.inl.inj goes
    obtain ⟨running, detecting⟩ := agree.applied aes os (congrArg (·.2.2) applies)
    rw [Option.isSome_some, if_pos rfl] at detecting
    exact ⟨running, by rw [detecting]; exact ⟨_, rfl⟩⟩
  | @waited t calls id expires arrived t' applies receives =>
    obtain rfl := Sum.inl.inj goes
    obtain ⟨running, armed, flows⟩ := agree.applied aes os (congrArg (·.2.2) applies)
    -- whatever the wait ends in, a flow takes it
    have heard_ : (∃ packet, (heard id arrived).2 = .notification packet) ∨
        (∃ id', (heard id arrived).2 = .timer id') ∨ (heard id arrived).2 = .linkClosed := by
      unfold heard
      split <;> simp
    rcases flows.2 with ⟨session, current⟩ | ⟨session, current⟩
    · exact ⟨running, by rw [current]; exact ⟨rfl, heard_⟩⟩
    · exact ⟨running, by rw [current]; exact ⟨rfl, heard_⟩⟩

omit [BleTransport T] in
/-- What the session is handed in agreement it does not find unexpected. -/
theorem Agree.expects (agree : Agree loop) (when_ : String) :
    loop.session.poll aes os loop.pending ≠ loop.session.unexpected loop.pending when_ := by
  intro same
  have halted : (loop.session.poll aes os loop.pending).1.finished = true := by
    rw [same]
    rfl
  have batch : (loop.session.poll aes os loop.pending).2.length = 2 := by
    rw [same]
    rfl
  have loud : (loop.session.poll aes os loop.pending).2.getLast? =
      some (.done (.error (.invalidState s!"no {describe loop.pending} {when_}"
        s!"{describe loop.pending} {when_}"))) := by
    rw [same]
    rfl
  obtain ⟨running, expected⟩ := agree
  have step := poll_step aes os loop.session loop.pending
  generalize loop.session.poll aes os loop.pending = result at step halted batch loud
  generalize loop.pending = pending at step expected loud
  cases step with
  | halted => cases batch
  -- ends of their own, in another error
  | cancelled | disconnected => simp [finish] at loud
  | unexpected _ rejects =>
    cases state : loop.session.state with
    | idle =>
      rw [state] at expected rejects
      exact rejects.1 expected
    | detecting =>
      rw [state] at expected rejects
      obtain ⟨bytes, rfl⟩ := expected
      exact rejects.2 bytes rfl
    | v0200 | v0100 =>
      rw [state] at expected rejects
      obtain ⟨_, ⟨packet, rfl⟩ | ⟨id, rfl⟩ | rfl⟩ := expected
      · exact rejects.2.1 packet rfl
      · exact rejects.2.2 id rfl
      · exact rejects.1 rfl
  -- anything else that ends the session notes something first
  | version | refused | silentV0200 | lostV0200 | resulted | shortV0100 | silentV0100 => cases batch
  | closed => simp [emit, finish, V0200.replied] at batch
  | detecting | beganV0200 | beganV0100 | answered | ignored | signed =>
    exact Bool.false_ne_true (running.symm.trans halted)

variable (t : T) (key : MobileKey) (options : Options) (random : Option RandomSource)

theorem agree_reached {loop : Turn T}
    (reached : Reaches (turn aes os) (first t (start key options random)) loop) : Agree loop :=
  reached.invariant Agree (fun _ _ agree goes => agree.turn aes os goes) ⟨rfl, rfl⟩

/-- In every turn of the pump: the session is running when it is polled, it takes the event it is
handed, and a batch that does not end it has asked for the protocol info or finds a timer armed,
so the pump is never left without anything to wait for. It returns what the session ends in or the
error of the subscription or write it stops at, and never an error of its own. -/
theorem pump_keeps_contract {loop : Turn T}
    (reached : Reaches (turn aes os) (first t (start key options random)) loop) :
    loop.session.finished = false ∧
    (∀ when_, loop.session.poll aes os loop.pending ≠
      loop.session.unexpected loop.pending when_) ∧
    (applied aes os loop).2.2 ≠ .wholly none none ∧
    (∀ next, (turn aes os loop).2 = .inl next → ¬Ends (polled aes os loop).2) ∧
    (¬Ends (polled aes os loop).2 →
      Asks (polled aes os loop).2 ∨ loop.deadline.isSome ∨ Arms (polled aes os loop).2) ∧
    ∀ out, (turn aes os loop).2 = .inr out →
      .done out.2.2 ∈ (polled aes os loop).2 ∨
        ∃ e, out.2.2 = .error e ∧ LeftAt T (turn aes os loop).1 e := by
  have agree := agree_reached aes os t key options random reached
  have busy : (applied aes os loop).2.2 ≠ .wholly none none := by
    intro idle
    have left_ := (agree.applied aes os idle).2
    simp at left_
  refine ⟨agree.running, agree.expects aes os, busy, ?_, ?_, ?_⟩
  · intro next goes ended
    obtain ⟨result, ended⟩ := ended
    obtain ⟨_, out, returned⟩ := turn_done aes os ended
    rw [goes] at returned
    cases returned
  · intro open_
    cases agree.leaves aes os with
    | ended ended => exact absurd ended open_
    | asked asked => exact .inl asked
    | waits waits => exact .inr waits
  · intro out returned
    have step := turn_step aes os loop
    generalize Pump.turn aes os loop = result at step returned
    cases step with
    | returned applies =>
      -- the turn's calls are its batch's, which stops where it returns
      obtain rfl := Sum.inr.inj returned
      have ends := applyActions_returned loop.transport none loop.deadline
        (congrArg (·.2.2) applies)
      have calls :
          (applyActions loop.transport none loop.deadline (polled aes os loop).2).2.1 = _ :=
        congrArg (·.2.1) applies
      rwa [calls] at ends
    | idle applies => exact absurd (congrArg (·.2.2) applies) busy
    | asked | waited => cases returned

end Turns

/-- A lock of the older protocol that sends what it has to send, and takes everything. -/
structure Talkative where
  packets : List (List UInt8)

instance : BleTransport Talkative where
  now _ := 0
  sleep t _ := t
  write t _ := (t, .ok ())
  subscribe t := (t, .ok ())
  readNotifyValue t _ := (t, some (.ok [0x01, 0x00, 0x01]))
  receive t _ :=
    match t.packets with
    | [] => (t, none)
    | packet :: rest => (⟨rest⟩, some (.ok (some packet)))
  disconnect t := (t, .ok ())

/-- The third turn, on a packet that is noise: it arms nothing, and the timer armed before runs. -/
theorem pump_keeps_contract_noise :
    let os : RandomSource := ⟨fun _ => Block.replicate 0, 0⟩
    ∃ loop : Turn Talkative, loop.pending = .notification [0x05] ∧
      ¬Arms (polled aes128 os loop).2 ∧ loop.deadline.isSome ∧
      loop.session.finished = false ∧
      (∀ when_, loop.session.poll aes128 os loop.pending ≠
        loop.session.unexpected loop.pending when_) ∧
      (applied aes128 os loop).2.2 ≠ .wholly none none := by
  intro os
  let start := first (Talkative.mk [[0x05], [0x06]])
    (start (MobileKey.new (Block.replicate 0x42)) Options.default none)
  have asked : Reaches (turn aes128 os) start _ := .turn .here rfl
  have waited : Reaches (turn aes128 os) start _ := .turn asked rfl
  have contract := pump_keeps_contract aes128 os (Talkative.mk [[0x05], [0x06]])
    (MobileKey.new (Block.replicate 0x42)) Options.default none waited
  refine ⟨_, rfl, ?_, rfl, contract.1, contract.2.1, contract.2.2.1⟩
  rintro ⟨id, ms, armed⟩
  -- all that is said of noise is that it is ignored
  change .setTimer id ms ∈ [.trace (.rx [0x05]), info "Ignoring an unexpected packet 05"] at armed
  simp [info] at armed

end Mkey.Pump
