import Mkey.Session.Session

/-!
# What one poll can do

`poll_step` lists the ways a poll can go, each with the event it takes, the
session it leaves and the actions it returns. Claims about runs are read off it.
-/
namespace Mkey

/-- What is traced of a refusal to hand out the kN key. -/
def refusedKnMessage : String :=
  "Refused to hand out the kN key: the lock asked for tag 0x02 outside a secure session"

/-- A message that starts otherwise is another message, whatever it goes on with. -/
theorem ne_refusedKn {text rest : String} (other : text.toList.head? ≠ some 'R')
    (nonempty : text.toList ≠ []) : text ++ rest ≠ refusedKnMessage := by
  intro same
  have first := congrArg (fun message : String => message.toList.head?) same
  rw [String.toList_append, List.head?_append_of_ne_nil _ nonempty] at first
  exact other (first.trans (by decide))

namespace V0200

theorem traceRefusals_eq (session : V0200) :
    session.traceRefusals =
      if session.stack.justin.knReadRefusals > session.tracedKnRefusals then
        ({ session with tracedKnRefusals := session.stack.justin.knReadRefusals },
          [info refusedKnMessage])
      else (session, []) := by
  have text : "Refused to hand out the kN key: the lock asked for tag 0x02 outside a secure " ++
      "session" = refusedKnMessage := by decide
  rw [← text]
  rfl

@[simp] theorem enterExchange_tracedKnRefusals (session : V0200) :
    session.enterExchange.1.tracedKnRefusals = session.tracedKnRefusals := by
  rw [enterExchange]
  split <;> rfl

@[simp] theorem latchVerdict_tracedKnRefusals (session : V0200) :
    session.latchVerdict.tracedKnRefusals = session.tracedKnRefusals := by
  rw [latchVerdict]
  split
  · split <;> rfl
  · rfl

/-- The exchange after an answer: a refusal traced, the phase entered, the verdict latched. -/
def afterAnswer (session : V0200) (stack : JustinStack0100 NoopKeyStore) : V0200 :=
  ({ session with stack } : V0200).traceRefusals.1.enterExchange.1.latchVerdict

/-- What goes out with an answer, in the order of the source. -/
def replied (session : V0200) (stack : JustinStack0100 NoopKeyStore)
    (packet response : List UInt8) : List Action :=
  [.trace (.rx packet), .trace (.tx response)] ++
    ({ session with stack } : V0200).traceRefusals.2 ++ [.write response] ++
    ({ session with stack } : V0200).traceRefusals.1.enterExchange.2

@[simp] theorem afterAnswer_stack (session : V0200) (stack : JustinStack0100 NoopKeyStore) :
    (session.afterAnswer stack).stack = stack := by
  simp [afterAnswer]

end V0200

namespace Session

/-- The actions a flow starts with. -/
def opening : List Action := [.subscribe, .phase .authenticating]

/-- A note that is no traffic. -/
def IsNote (a : Action) : Prop :=
  (∃ message, a = info message ∧ message ≠ refusedKnMessage) ∨ ∃ bytes, a = .trace (.read bytes)

/-- Actions before a flow starts: notes, behind the phase that precedes it if it has not been
reported yet. -/
def Preparing (state : State) (actions : List Action) : Prop :=
  ∃ notes, (∀ a ∈ notes, IsNote a) ∧ actions = match state with
    | .idle => .phase .detectingVersion :: notes
    | _ => notes

theorem Preparing.mem {state : State} {actions : List Action} (preparing : Preparing state actions)
    {a : Action} (member : a ∈ actions) : a = .phase .detectingVersion ∨ IsNote a := by
  obtain ⟨notes, noted, rfl⟩ := preparing
  split at member
  · rcases List.mem_cons.mp member with rfl | later
    · exact .inl rfl
    · exact .inr (noted a later)
  · exact .inr (noted a member)

/-- The states in which an event is not expected. -/
def Rejects : State → Event → Prop
  | .idle, event => event ≠ .started ∧ event ≠ .linkClosed
  | .detecting, event => event ≠ .linkClosed ∧ ∀ bytes, event ≠ .protocolInfo bytes
  | .v0200 _, event | .v0100 _, event =>
      event ≠ .linkClosed ∧ (∀ packet, event ≠ .notification packet) ∧ ∀ id, event ≠ .timer id

/-- A flow begins out of one of these. -/
def Starts (s : Session) (event : Event) : Prop :=
  s.state = .idle ∧ event = .started ∨ s.state = .detecting ∧ ∃ bytes, event = .protocolInfo bytes

section Steps

variable (aes : BlockCipher) (os : RandomSource) (s : Session)

/-- The answer to a nonce: the nonce encrypted under kN. -/
def signedNonce (knKey nonce : Block) : List UInt8 :=
  V0100Prefix.signedNonce ::
    encryptAesCbc aes knKey v0100SignIv nonce.toList ⟨1, Chunk.length_toList _⟩

/-- The ways a poll can go. -/
inductive PollStep : Event → Polled → Prop
  | halted {event : Event} : s.finished = true → PollStep event (s, [])
  | cancelled : s.finished = false → PollStep .aborted (s.finish (.error .cancelled))
  | unexpected {event : Event} {when_ : String} : s.finished = false → Rejects s.state event →
      PollStep event (s.unexpected event when_)
  | disconnected : s.finished = false → (∀ session, s.state ≠ .v0200 session) →
      PollStep .linkClosed (s.finish (.error .disconnected))
  | detecting {announced : List Action} : s.finished = false → s.state = .idle →
      s.options.notifyReadable = true →
      s.options.detection = .readOnly ∧ announced = [] ∨
        s.options.detection = .appProtocol ∧ announced = [.announceAppProtocol] →
      PollStep .started ({ s with state := .detecting }, .phase .detectingVersion :: announced ++
        [.readProtocolInfo s.options.timeouts.protocolInfoReadMs])
  | version {bytes : List UInt8} {e : Error} : s.finished = false → s.state = .detecting →
      PollStep (.protocolInfo (some bytes)) (emit [.trace (.read bytes)] (s.finish (.error e)))
  | beganV0200 {event : Event} {notes : List Action} : s.finished = false → Starts s event →
      Preparing s.state notes → PollStep event (emit (notes ++ opening) (s.beginV0200 os))
  | beganV0100 {bytes : List UInt8} : s.finished = false → s.state = .detecting →
      majorVersion bytes = some 1 →
      PollStep (.protocolInfo (some bytes)) (emit ([.trace (.read bytes)] ++ opening) s.beginV0100)
  | answered {session : V0200} {packet response : List UInt8}
      {stack : JustinStack0100 NoopKeyStore} : s.finished = false → s.state = .v0200 session →
      session.stack.handlePacket aes packet = (stack, .ok response) →
      stack.justin.state ≠ .ready →
      PollStep (.notification packet)
        ({ s with state := .v0200 { session.afterAnswer stack with firstPacket := false } },
          session.replied stack packet response ++
            [.setTimer
              (({ session.afterAnswer stack with firstPacket := false } : V0200).nextWait
                s.options.timeouts).1
              (({ session.afterAnswer stack with firstPacket := false } : V0200).nextWait
                s.options.timeouts).2])
  | closed {session : V0200} {packet response : List UInt8}
      {stack : JustinStack0100 NoopKeyStore} : s.finished = false → s.state = .v0200 session →
      session.stack.handlePacket aes packet = (stack, .ok response) →
      stack.justin.state = .ready →
      PollStep (.notification packet) (emit (session.replied stack packet response)
        (({ s with state := .v0200 (session.afterAnswer stack) } : Session).finish
          (.ok (Outcome.new 2 (session.afterAnswer stack).finalOpResult))))
  | refused {session : V0200} {packet : List UInt8} {e : Error}
      {stack : JustinStack0100 NoopKeyStore} : s.finished = false → s.state = .v0200 session →
      session.stack.handlePacket aes packet = (stack, .error e) →
      PollStep (.notification packet) (emit [.trace (.rx packet)]
        (({ s with state := .v0200 { session with stack } } : Session).finish (.error e)))
  | silentV0200 {session : V0200} {id : TimerId} {message : String}
      {result : Except Error Outcome} : s.finished = false → s.state = .v0200 session →
      message ≠ refusedKnMessage →
      result = (match session.finalOpResult with
        | some opResult => .ok (Outcome.new 2 (some opResult))
        | none => .error (.timeout (session.nextWait s.options.timeouts).2.toUInt64)) →
      PollStep (.timer id) (emit [info message] (s.finish result))
  | lostV0200 {session : V0200} : s.finished = false → s.state = .v0200 session →
      PollStep .linkClosed (emit [info lockDisconnectedMessage]
        (s.finish (.ok (Outcome.new 2 session.finalOpResult))))
  | ignored {session : V0100} {packet : List UInt8} {message : String} : s.finished = false →
      s.state = .v0100 session → packet.head? ≠ some session.step.expectedPrefix →
      message ≠ refusedKnMessage →
      PollStep (.notification packet) (s, [.trace (.rx packet), info message])
  | signed {session : V0100} {packet : List UInt8} {nonce : Block} : s.finished = false →
      s.state = .v0100 session → session.step = .awaitingNonce →
      packet.head? = some V0100Prefix.nonce → 17 ≤ packet.length →
      nonce.toList = (packet.drop 1).take 16 →
      PollStep (.notification packet)
        ({ s with state := .v0100 { session with step := .awaitingResult } },
          [.trace (.rx packet), .phase .exchanging,
            .trace (.tx (signedNonce aes session.knKey nonce)),
            .write (signedNonce aes session.knKey nonce),
            .setTimer .packet s.options.timeouts.packetMs])
  | resulted {session : V0100} {packet rest : List UInt8} {opResult : UInt8} :
      s.finished = false → s.state = .v0100 session → session.step = .awaitingResult →
      packet = V0100Prefix.result :: opResult :: rest →
      PollStep (.notification packet)
        (emit [.trace (.rx packet)] (s.finish (.ok (Outcome.new 1 (some opResult)))))
  | shortV0100 {session : V0100} {packet : List UInt8} {message : String} : s.finished = false →
      s.state = .v0100 session → packet.head? = some session.step.expectedPrefix →
      (session.step = .awaitingNonce → packet.length < 17) →
      (session.step = .awaitingResult → packet.length < 2) →
      PollStep (.notification packet)
        (emit [.trace (.rx packet)] (s.finish (.error (.invalidData message))))
  | silentV0100 {session : V0100} {id : TimerId} {message : String} : s.finished = false →
      s.state = .v0100 session → message ≠ refusedKnMessage →
      PollStep (.timer id) (emit [info message] (s.finish (.error (.timeout
        (match session.step with
        | .awaitingNonce => s.options.timeouts.firstPacketMs
        | .awaitingResult => s.options.timeouts.packetMs).toUInt64))))

variable {s}

theorem emit_emit (first second : List Action) (polled : Polled) :
    emit first (emit second polled) = emit (first ++ second) polled := by
  simp [emit]

theorem pollIdle_step (running : s.finished = false) (idle : s.state = .idle) (event : Event) :
    PollStep aes os s event (s.pollIdle os event) := by
  unfold pollIdle
  split
  · have direct (message : String) (other : message ≠ refusedKnMessage) : PollStep aes os s .started
        (emit [.phase .detectingVersion] (emit [info message] (s.begin os none))) := by
      rw [begin, emit_emit, emit_emit]
      refine .beganV0200 running (.inl ⟨idle, rfl⟩) ?_
      rw [idle]
      exact ⟨[info message], by simp [IsNote, info, other], rfl⟩
    -- without detection, or without a readable characteristic, the flow begins right away
    split_ifs with skipped unreadable announced
    · exact direct _ (by decide)
    · exact direct _ (by decide)
    · exact .detecting running idle (by simpa using unreadable) (.inr ⟨announced, rfl⟩)
    · refine .detecting running idle (by simpa using unreadable) (.inl ⟨?_, rfl⟩)
      cases detection : s.options.detection with
      | none => exact absurd detection skipped
      | readOnly => rfl
      | appProtocol => exact absurd detection announced
  · exact .disconnected running (by simp [idle])
  next notStarted notClosed =>
    exact .unexpected running (by rw [idle]; exact ⟨notStarted, notClosed⟩)

theorem pollDetecting_step (running : s.finished = false) (detecting : s.state = .detecting)
    (event : Event) : PollStep aes os s event (s.pollDetecting os event) := by
  have noted {notes : List Action} (quiet : ∀ a ∈ notes, IsNote a) :
      Preparing s.state notes := by
    rw [detecting]
    exact ⟨notes, quiet, rfl⟩
  unfold pollDetecting
  split
  next bytes =>
    have starts : Starts s (.protocolInfo (some bytes)) := .inr ⟨detecting, _, rfl⟩
    split
    next major known =>
      rw [begin]
      split_ifs with other one
      · exact .version running detecting
      · subst one
        rw [emit_emit]
        exact .beganV0100 running detecting known
      · rw [emit_emit]
        exact .beganV0200 running starts (noted (by simp [IsNote]))
    next unknown =>
      rw [begin, emit_emit, emit_emit]
      refine .beganV0200 running starts (noted ?_)
      simp [IsNote, info]
      decide
  · rw [begin, emit_emit]
    refine .beganV0200 running (.inr ⟨detecting, _, rfl⟩) (noted ?_)
    simp [IsNote, info]
    decide
  · exact .disconnected running (by simp [detecting])
  next notRead notFailed notClosed =>
    refine .unexpected running ?_
    rw [detecting]
    refine ⟨notClosed, ?_⟩
    rintro (_ | bytes) rfl
    · exact notFailed rfl
    · exact notRead bytes rfl

theorem pollV0200_step (running : s.finished = false) {session : V0200}
    (current : s.state = .v0200 session) (event : Event) :
    PollStep aes os s event (s.pollV0200 aes session event) := by
  unfold pollV0200
  split
  next packet =>
    split
    next stack e handled => exact .refused running current handled
    next stack response handled =>
      dsimp only
      split
      next ready =>
        rw [emit_emit]
        have ready : stack.justin.state = .ready := by simpa using ready
        exact .closed running current handled ready
      next connected =>
        rw [emit_emit]
        have connected : stack.justin.state ≠ .ready := by simpa using connected
        exact .answered running current handled connected
  · dsimp only
    split
    next latched => exact .silentV0200 running current (by decide) (by rw [latched])
    next unlatched =>
      refine .silentV0200 running current ?_ (by rw [unlatched])
      rw [String.append_assoc]
      exact ne_refusedKn (by decide) (by decide)
  · exact .lostV0200 running current
  next notPacket notTimer notClosed =>
    refine .unexpected running ?_
    rw [current]
    exact ⟨notClosed, notPacket, notTimer⟩

theorem pollV0100_step (running : s.finished = false) {session : V0100}
    (current : s.state = .v0100 session) (event : Event) :
    PollStep aes os s event (s.pollV0100 aes session event) := by
  unfold pollV0100
  split
  next packet =>
    split
    next other => exact .ignored running current other (ne_refusedKn (by decide) (by decide))
    next expected =>
      rw [not_not] at expected
      unfold receiveV0100
      split
      next awaiting =>
        split
        next short =>
          exact .shortV0100 running current expected (fun _ => short) (by simp [awaiting])
        next long =>
          rw [awaiting] at expected
          exact .signed running current awaiting expected (Nat.le_of_not_lt long) rfl
      next awaiting =>
        rw [awaiting] at expected
        split
        next first opResult rest =>
          obtain rfl := Option.some.inj expected
          exact .resulted running current awaiting rfl
        next noByte =>
          have short : packet.length < 2 := by
            rcases packet with _ | ⟨first, _ | ⟨opResult, rest⟩⟩
            · simp
            · simp
            · exact (noByte first opResult rest rfl).elim
          refine .shortV0100 running current ?_ (by simp [awaiting]) (fun _ => short)
          rw [awaiting]
          exact expected
  · refine .silentV0100 running current ?_
    simp only [String.append_assoc]
    exact ne_refusedKn (by decide) (by decide)
  · exact .disconnected running (by simp [current])
  next notPacket notTimer notClosed =>
    refine .unexpected running ?_
    rw [current]
    exact ⟨notClosed, notPacket, notTimer⟩

theorem poll_step (s : Session) (event : Event) :
    PollStep aes os s event (s.poll aes os event) := by
  rw [poll]
  split
  next halted => exact .halted halted
  next running =>
    rw [Bool.not_eq_true] at running
    split
    next aborted =>
      subst aborted
      exact .cancelled running
    · split
      next idle => exact pollIdle_step aes os running idle event
      next detecting => exact pollDetecting_step aes os running detecting event
      next session current => exact pollV0200_step aes os running current event
      next session current => exact pollV0100_step aes os running current event

end Steps

end Session

end Mkey
