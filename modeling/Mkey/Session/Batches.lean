import Mkey.Core.StackSteps
import Mkey.Session.Protocol

/-!
# Batches

What a shell has to apply after one poll: a batch that goes on holds no end, and
one that ends the session holds traces, a last answer at most, and the end.
-/
namespace Mkey.Session

variable (aes : BlockCipher) (os : RandomSource) {s : Session}

theorem poll_v0200 {s : Session} {session : V0200} (unfinished : s.finished = false)
    (current : s.state = .v0200 session) {event : Event} (running : event ≠ .aborted) :
    s.poll aes os event = s.pollV0200 aes session event := by
  rw [poll, unfinished, if_neg Bool.false_ne_true, if_neg running, current]

/-- A batch that leaves the session running neither announces an end nor brings one. -/
theorem running_batch {event : Event} (running : (s.poll aes os event).1.finished = false) :
    .phase .finished ∉ (s.poll aes os event).2 ∧
      ∀ result, .done result ∉ (s.poll aes os event).2 := by
  have open_ (result : Except Error Outcome) : .done result ∉ (s.poll aes os event).2 := by
    intro ended
    rw [finished_of_done aes os ended] at running
    cases running
  refine ⟨?_, open_⟩
  intro announced
  obtain ⟨front, back, split⟩ := List.append_of_mem announced
  have accepted := (poll_follows os aes s event).2
  rw [split] at accepted
  -- an end once announced is brought in the same batch
  obtain ⟨result, rfl⟩ := batch_finished (stage_rests _).2.2 accepted
  exact open_ result (by simp [split])

/-- Whatever the session is waiting for, neither silence nor a lost link lets it go on. -/
theorem silence_finishes {event : Event} (silent : event = .linkClosed ∨ ∃ id, event = .timer id) :
    (s.poll aes os event).1.finished = true := by
  have step := poll_step aes os s event
  generalize s.poll aes os event = polled at step
  cases step with
  | halted halted => exact halted
  | cancelled | unexpected | disconnected | version => rfl
  | closed | refused | silentV0200 | lostV0200 => rfl
  | resulted | shortV0100 | silentV0100 => rfl
  | beganV0200 _ starts =>
    rcases starts with ⟨_, rfl⟩ | ⟨_, bytes, rfl⟩ <;> simp at silent
  | detecting | beganV0100 | answered | ignored | signed => simp at silent

/-- Only a session that is being started asks for the protocol info. -/
theorem asks_started {event : Event} {ms : UInt32}
    (asked : .readProtocolInfo ms ∈ (s.poll aes os event).2) : event = .started := by
  -- from the stages past the start no transition asks for a read
  let past (q : Stage) : Prop := q ≠ .idle ∧ q ≠ .detecting ∧ q ≠ .announced
  have closed (q : Stage) (a : Action) (r : Stage) (inside : past q)
      (read : Stage.next s.options q a = some r) : past r ∧ ¬∃ ms, a = .readProtocolInfo ms := by
    obtain ⟨notIdle, notDetecting, notAnnounced⟩ := inside
    cases Stage.next_reads read with
    | detect => exact absurd rfl notIdle
    | announce | readDirectly => exact absurd rfl notDetecting
    | readAnnounced => exact absurd rfl notAnnounced
    | _ => simp_all [past]
  have accepted := (poll_follows os aes s event).2
  have early : s.stage = .idle := by
    by_contra notIdle
    have inside : past s.stage := ⟨notIdle, (stage_rests s).1, (stage_rests s).2.1⟩
    exact Monitor.run_without past _ closed inside accepted _ asked ⟨ms, rfl⟩
  obtain ⟨running, idle⟩ := stage_idle early
  rw [poll, running, if_neg Bool.false_ne_true, idle] at asked
  cases event with
  | started => rfl
  | _ => simp [pollIdle, unexpected, finish] at asked

/-- Actions that leave the link alone. -/
def Notes (actions : List Action) : Prop := ∀ a ∈ actions, ∃ t, a = .trace t

theorem notes_one (t : Trace) : Notes [.trace t] := by simp [Notes]

/-- What goes out with an answer: notes, the answer, and the next phase if it is due. -/
theorem replied_eq (session : V0200) (stack : JustinStack0100 NoopKeyStore)
    (packet response : List UInt8) :
    ∃ notes entered, Notes notes ∧ (∀ a ∈ entered, a = .phase .exchanging) ∧
      session.replied stack packet response = notes ++ .write response :: entered := by
  let refused := ({ session with stack } : V0200).traceRefusals
  refine ⟨[.trace (.rx packet), .trace (.tx response)] ++ refused.2, refused.1.enterExchange.2,
    ?_, enterExchange_phase _, ?_⟩
  · intro a member
    rcases List.mem_append.mp member with sent | noise
    · simp only [List.mem_cons, List.not_mem_nil, or_false] at sent
      rcases sent with rfl | rfl <;> exact ⟨_, rfl⟩
    · exact traceRefusals_quiet _ a noise
  · rw [V0200.replied, List.append_assoc _ [_], List.singleton_append]

/-- What goes out with an answer is no end. -/
theorem replied_quiet (session : V0200) (stack : JustinStack0100 NoopKeyStore)
    (packet response : List UInt8) :
    ∀ a ∈ session.replied stack packet response, isDone a = false := by
  obtain ⟨notes, entered, noted, phases, same⟩ := replied_eq session stack packet response
  rw [same]
  intro a member
  rcases List.mem_append.mp member with early | late
  · obtain ⟨t, rfl⟩ := noted a early
    rfl
  · rcases List.mem_cons.mp late with rfl | later
    · rfl
    · rw [phases a later]
      rfl

theorem Preparing.quiet {state : State} {notes : List Action} (preparing : Preparing state notes) :
    ∀ a ∈ notes ++ opening, isDone a = false := by
  intro a member
  rcases List.mem_append.mp member with noted | opens
  · rcases preparing.mem noted with rfl | ⟨_, rfl, _⟩ | ⟨_, rfl⟩ <;> rfl
  · simp only [opening, List.mem_cons, List.not_mem_nil, or_false] at opens
    rcases opens with rfl | rfl <;> rfl

/-! ### Where an exchange comes from -/

/-- A v0200 exchange before its first packet. -/
def Fresh (session : V0200) : Prop :=
  ∃ ssp key, session = ⟨⟨ssp, .newWithKey key⟩, true, none, false, 0⟩

/-- A session enters the exchange by beginning it. -/
theorem poll_fresh (before : ∀ session, s.state ≠ .v0200 session) (event : Event) {session : V0200}
    (after : (s.poll aes os event).1.state = .v0200 session) : Fresh session := by
  have step := poll_step aes os s event
  generalize s.poll aes os event = polled at step after
  cases step with
  | beganV0200 => exact ⟨_, _, (State.v0200.inj after).symm⟩
  | detecting | beganV0100 | signed => cases after
  -- the other ways leave the state as it is, or need a v0200 exchange
  | halted | cancelled | unexpected | disconnected | version => exact absurd after (before session)
  | ignored | resulted | shortV0100 | silentV0100 => exact absurd after (before session)
  | answered _ current | closed _ current | refused _ current => exact absurd current (before _)
  | silentV0200 _ current | lostV0200 _ current => exact absurd current (before _)

/-- While a v0200 session runs, its command layer has the key selected. -/
def Connected (s : Session) : Prop :=
  s.finished = false → ∀ session, s.state = .v0200 session →
    session.stack.justin.state = .connected

theorem Connected.poll (connected : Connected s) (event : Event) :
    Connected (s.poll aes os event).1 := by
  have step := poll_step aes os s event
  generalize s.poll aes os event = polled at step
  intro running session after
  cases step with
  | halted | ignored => exact connected running session after
  -- just begun: the key is selected beforehand
  | beganV0200 =>
    obtain rfl := State.v0200.inj after
    rfl
  | detecting | beganV0100 | signed => cases after
  -- an answer that does not end the session: the lock has not let go of the key
  | @answered exchange _ _ stack _ _ _ unready =>
    obtain rfl := State.v0200.inj after
    cases state : stack.justin.state with
    | ready => exact absurd state unready
    | connected => exact (congrArg (fun next => next.justin.state)
        (exchange.afterAnswer_stack stack)).trans state
  | cancelled | unexpected | disconnected | version | closed | refused => cases running
  | silentV0200 | lostV0200 | resulted | shortV0100 | silentV0100 => cases running

/-! ### The batch that ends a session -/

/-- A poll answer that ends the session, if it does, on nothing but notes and the end. -/
def EndsQuietly (polled : Polled) : Prop :=
  polled.1.finished = true →
    ∃ notes result, Notes notes ∧ polled.2 = notes ++ [.phase .finished, .done result]

theorem endsQuietly_finish (t : Session) (result : Except Error Outcome) :
    EndsQuietly (t.finish result) := fun _ => ⟨[], result, by simp [Notes], rfl⟩

theorem endsQuietly_running {polled : Polled} (running : polled.1.finished = false) :
    EndsQuietly polled := by
  intro halted
  rw [running] at halted
  cases halted

theorem endsQuietly_emit {actions : List Action} {polled : Polled} (noted : Notes actions)
    (quiet : EndsQuietly polled) : EndsQuietly (emit actions polled) := by
  intro halted
  obtain ⟨notes, result, rest, split⟩ := quiet halted
  refine ⟨actions ++ notes, result, ?_, ?_⟩
  · intro a member
    rcases List.mem_append.mp member with early | late
    · exact noted a early
    · exact rest a late
  · rw [emit, split, List.append_assoc]

/-- The event that closes a v0200 session in order, and the answer to it. -/
def Closing (s : Session) (event : Event) (response : List UInt8) : Prop :=
  ∃ packet session, event = .notification packet ∧ s.state = .v0200 session ∧
    session.stack.Closes aes packet ∧ (session.stack.handlePacket aes packet).2 = .ok response

theorem Closing.unique {event : Event} {response response' : List UInt8}
    (closing : Closing aes s event response) (closing' : Closing aes s event response') :
    response = response' := by
  obtain ⟨packet, session, rfl, current, _, answer⟩ := closing
  obtain ⟨_, _, same, current', _, answer'⟩ := closing'
  cases same
  obtain rfl := State.v0200.inj (current.symm.trans current')
  exact Except.ok.inj (answer.symm.trans answer')

/-- A packet that a running v0200 session has no answer to ends it in the error of the stack. -/
theorem poll_refused {session : V0200} {packet : List UInt8} {stack : JustinStack0100 NoopKeyStore}
    {e : Error} (running : s.finished = false) (current : s.state = .v0200 session)
    (handled : session.stack.handlePacket aes packet = (stack, .error e)) :
    s.poll aes os (.notification packet) = emit [.trace (.rx packet)]
      (({ s with state := .v0200 { session with stack } } : Session).finish (.error e)) := by
  rw [poll_v0200 aes os running current (by simp), pollV0200]
  dsimp only
  rw [handled]

/-- A packet that a running v0200 session has an answer to is answered, and the session closed
with it if the lock has let go of the key. -/
theorem poll_answered {session : V0200} {packet response : List UInt8}
    {stack : JustinStack0100 NoopKeyStore} (running : s.finished = false)
    (current : s.state = .v0200 session)
    (handled : session.stack.handlePacket aes packet = (stack, .ok response)) :
    s.poll aes os (.notification packet) = emit (session.replied stack packet response)
      (if stack.justin.state = .ready then
        ({ s with state := .v0200 (session.afterAnswer stack) } : Session).finish
          (.ok (Outcome.new 2 (session.afterAnswer stack).finalOpResult))
      else
        let waiting := { session.afterAnswer stack with firstPacket := false }
        let (id, afterMs) := waiting.nextWait s.options.timeouts
        ({ s with state := .v0200 waiting }, [.setTimer id afterMs])) := by
  rw [poll_v0200 aes os running current (by simp), pollV0200]
  dsimp only
  rw [handled]
  dsimp only
  rw [emit_emit]
  cases state : stack.justin.state with
  | ready => simp [V0200.afterAnswer, V0200.replied, state]
  | connected => simp [V0200.afterAnswer, V0200.replied, state]

/-- The answer goes out before the end is announced. -/
theorem closing_batch {event : Event} {response : List UInt8} (running : s.finished = false)
    (connected : Connected s) (closing : Closing aes s event response) :
    (s.poll aes os event).1.finished = true ∧ ∃ notes entered result, Notes notes ∧
      (∀ a ∈ entered, a = .phase .exchanging) ∧
      (s.poll aes os event).2 =
        notes ++ .write response :: (entered ++ [.phase .finished, .done result]) := by
  obtain ⟨packet, session, rfl, current, closes, answer⟩ := closing
  obtain ⟨stack, handled⟩ : ∃ stack, session.stack.handlePacket aes packet =
      (stack, .ok response) := ⟨_, by rw [← answer]⟩
  rw [← session.stack.handlePacket_ready_iff aes (connected running session current),
    handled] at closes
  obtain ⟨notes, entered, noted, phases, same⟩ := replied_eq session stack packet response
  rw [poll_answered aes os running current handled, if_pos closes]
  refine ⟨rfl, notes, entered, .ok (Outcome.new 2 (session.afterAnswer stack).finalOpResult),
    noted, phases, ?_⟩
  rw [emit, same, List.append_assoc, List.cons_append]
  rfl

/-- Any other end comes with notes at most. -/
theorem quiet_batch {event : Event} (running : s.finished = false) (connected : Connected s)
    (unclosed : ∀ response, ¬Closing aes s event response) :
    EndsQuietly (s.poll aes os event) := by
  have step := poll_step aes os s event
  generalize s.poll aes os event = polled at step
  cases step with
  | halted halted =>
    rw [running] at halted
    cases halted
  | detecting | beganV0200 | beganV0100 | answered | ignored | signed =>
    exact endsQuietly_running running
  | cancelled | unexpected | disconnected => exact endsQuietly_finish s _
  | version | refused | silentV0200 | lostV0200 | resulted | shortV0100 | silentV0100 =>
    exact endsQuietly_emit (notes_one _) (endsQuietly_finish _ _)
  -- the one end that comes with an answer
  | @closed session packet response stack _ current handled ready =>
    have closes : session.stack.Closes aes packet := by
      rw [← session.stack.handlePacket_ready_iff aes (connected running session current), handled]
      exact ready
    exact absurd ⟨packet, session, rfl, current, closes, by rw [handled]⟩ (unclosed response)

end Mkey.Session
