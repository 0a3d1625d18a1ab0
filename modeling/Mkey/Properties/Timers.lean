import Mkey.Session.History

/-!
# The timer that runs is the wait that is meant

A session does not store how long it waits. It works the duration out when it
arms a timer and again when one fires, from flags that other branches set. Over
every run the two agree.
-/
namespace Mkey.Session

open Machine

/-- A packet that is signed: a nonce of full length. -/
def IsNonce (packet : List UInt8) : Prop :=
  packet.head? = some V0100Prefix.nonce ∧ 1 + v0100NonceLength ≤ packet.length

instance decidableIsNonce (packet : List UInt8) : Decidable (IsNonce packet) :=
  inferInstanceAs (Decidable (_ ∧ _))

/-- What a v0200 flow waits for after some packets. -/
def awaitedV0200 (timeouts : Timeouts) (verdict : Option UInt8) (packets : List (List UInt8)) :
    TimerId × UInt32 :=
  if verdict.isSome then (.afterFinalResult, timeouts.afterFinalResultMs)
  else if packets = [] then (.firstPacket, timeouts.firstPacketMs)
  else (.packet, timeouts.packetMs)

def NonceTaken (packets : List (List UInt8)) : Prop := ∃ packet ∈ packets, IsNonce packet

instance decidableNonceTaken (packets : List (List UInt8)) : Decidable (NonceTaken packets) :=
  inferInstanceAs (Decidable (∃ packet ∈ packets, IsNonce packet))

theorem nonceTaken_snoc (packets : List (List UInt8)) (packet : List UInt8) :
    NonceTaken (packets ++ [packet]) ↔ NonceTaken packets ∨ IsNonce packet := by
  simp [NonceTaken, or_and_right, exists_or]

/-- What a v0100 flow waits for after some packets. -/
def awaitedV0100 (timeouts : Timeouts) (packets : List (List UInt8)) : TimerId × UInt32 :=
  if NonceTaken packets then (.packet, timeouts.packetMs)
  else (.firstPacket, timeouts.firstPacketMs)

/-- The flags of a flow tell the packets taken so far, and the timer armed last is the wait they
stand for. -/
def Coherent (options : Options) (past : List PollRecord) (s : Session) : Prop :=
  s.options = options ∧ (s.finished = false →
    match s.state with
    | .idle | .detecting => packetsTaken past = []
    | .v0200 session => (session.firstPacket = true ↔ packetsTaken past = []) ∧
        lastTimer (actions past) =
          some (awaitedV0200 options.timeouts session.finalOpResult (packetsTaken past))
    | .v0100 session =>
        (session.step = .awaitingResult ↔ NonceTaken (packetsTaken past)) ∧
        lastTimer (actions past) = some (awaitedV0100 options.timeouts (packetsTaken past)))

theorem nextWait_awaited {session : V0200} {packets : List (List UInt8)}
    (first : session.firstPacket = true ↔ packets = []) (timeouts : Timeouts) :
    session.nextWait timeouts = awaitedV0200 timeouts session.finalOpResult packets := by
  unfold V0200.nextWait awaitedV0200
  split_ifs <;> simp_all

theorem coherent_halted {options : Options} {past : List PollRecord} {s : Session}
    (same : s.options = options) (halted : s.finished = true) : Coherent options past s := by
  refine ⟨same, fun running => ?_⟩
  rw [running] at halted
  cases halted

variable (aes : BlockCipher) (os : RandomSource)

theorem Coherent.poll {options : Options} {past : List PollRecord} {s : Session}
    (coherent : Coherent options past s) (event : Event) :
    Coherent options (past ++ [stepAt (poll aes os) s event]) (s.poll aes os event).1 := by
  obtain ⟨same, holds⟩ := coherent
  have step := poll_step aes os s event
  have record : stepAt (Session.poll aes os) s event =
    ⟨s, event, (s.poll aes os event).2, (s.poll aes os event).1⟩ := rfl
  rw [record]
  generalize s.poll aes os event = polled at step
  cases step with
  | halted halted => exact coherent_halted same halted
  | cancelled | unexpected | disconnected | version | closed | refused | silentV0200 | lostV0200
  | resulted | shortV0100 | silentV0100 => exact coherent_halted same rfl
  | detecting running idle =>
    have none_ := holds running
    rw [idle] at none_
    refine ⟨same, fun _ => ?_⟩
    dsimp only
    rw [packetsTaken_other _ _ (by simp), none_]
  | beganV0200 running starts =>
    have none_ : packetsTaken past = [] := by
      have held := holds running
      rcases starts with ⟨early, _⟩ | ⟨early, _⟩ <;> rwa [early] at held
    refine ⟨same, fun _ => ?_⟩
    dsimp only [emit, beginV0200]
    rw [packetsTaken_other _ _ starts.not_packet, none_, actions_snoc, ← List.append_assoc,
      lastTimer_last, same]
    simp [awaitedV0200]
  | @beganV0100 bytes running detecting =>
    have none_ := holds running
    rw [detecting] at none_
    refine ⟨same, fun _ => ?_⟩
    dsimp only [emit, beginV0100]
    have armed : lastTimer ([.trace (.read bytes)] ++ opening ++ s.beginV0100.2) =
        some (.firstPacket, options.timeouts.firstPacketMs) := by
      rw [← same]
      rfl
    rw [packetsTaken_other _ _ (by simp), none_, actions_snoc, lastTimer_append]
    refine ⟨by simp [NonceTaken], ?_⟩
    rw [beginV0100] at armed
    rw [armed]
    simp [awaitedV0100, NonceTaken]
  | @answered session packet response stack running current =>
    refine ⟨same, fun _ => ?_⟩
    dsimp only
    rw [packetsTaken_packet past (flowing_v0200 running current), actions_snoc,
      ← List.append_assoc, lastTimer_last, same]
    have later : ({ session.afterAnswer stack with firstPacket := false } : V0200).firstPacket =
        true ↔ packetsTaken past ++ [packet] = [] := by simp
    refine ⟨later, ?_⟩
    rw [Prod.mk.eta, nextWait_awaited later]
  -- noise: another packet taken, no timer armed, and the wait is still the same
  | @ignored session packet message running current other =>
    obtain ⟨before, armed⟩ : (session.step = .awaitingResult ↔ NonceTaken (packetsTaken past)) ∧
        lastTimer (actions past) = some (awaitedV0100 options.timeouts (packetsTaken past)) := by
      have held := holds running
      rwa [current] at held
    have unchanged :
        NonceTaken (packetsTaken past ++ [packet]) ↔ NonceTaken (packetsTaken past) := by
      rw [nonceTaken_snoc, or_iff_left_iff_imp]
      intro nonce
      -- a nonce is noise only once another one has been signed
      rw [← before]
      cases step : session.step with
      | awaitingNonce =>
        rw [step] at other
        exact absurd nonce.1 other
      | awaitingResult => rfl
    refine ⟨same, fun _ => ?_⟩
    dsimp only
    rw [current, packetsTaken_packet past (flowing_v0100 running current), actions_snoc,
      lastTimer_append]
    refine ⟨before.trans unchanged.symm, ?_⟩
    simp only [awaitedV0100, unchanged]
    exact armed
  | @signed session packet nonce running current awaiting expected long =>
    have taken_ : NonceTaken (packetsTaken past ++ [packet]) :=
      (nonceTaken_snoc _ _).mpr (.inr ⟨expected, long⟩)
    refine ⟨same, fun _ => ?_⟩
    dsimp only
    rw [packetsTaken_packet past (flowing_v0100 running current), actions_snoc, lastTimer_append,
      awaitedV0100, if_pos taken_, ← same]
    exact ⟨iff_of_true rfl taken_, rfl⟩

/-- A timer brings the verdict that is latched, or the wait that has passed. -/
theorem poll_timer_v0200 {s : Session} (running : s.finished = false) {session : V0200}
    (current : s.state = .v0200 session) (fired : TimerId) :
    ∃ message, (s.poll aes os (.timer fired)).2 =
      [info message, .phase .finished, .done (match session.finalOpResult with
        | some opResult => .ok (Outcome.new 2 (some opResult))
        | none => .error (.timeout (session.nextWait s.options.timeouts).2.toUInt64))] := by
  rw [poll_v0200 aes os running current (by simp), pollV0200]
  dsimp only
  cases session.finalOpResult with
  | some opResult => exact ⟨_, rfl⟩
  | none => exact ⟨_, rfl⟩

theorem poll_timer_v0100 {s : Session} (running : s.finished = false) {session : V0100}
    (current : s.state = .v0100 session) (fired : TimerId) :
    ∃ message, (s.poll aes os (.timer fired)).2 =
      [info message, .phase .finished, .done (.error (.timeout
        (match session.step with
        | .awaitingNonce => s.options.timeouts.firstPacketMs
        | .awaitingResult => s.options.timeouts.packetMs).toUInt64))] := by
  rw [poll, running, if_neg Bool.false_ne_true, if_neg (by simp), current]
  exact ⟨_, rfl⟩

/-- Outside a flow a timer is not waited for, and reports no timeout. -/
theorem flowing_of_timeout {s : Session} {fired : TimerId} {ms : UInt64}
    (reported : .done (.error (.timeout ms)) ∈ (s.poll aes os (.timer fired)).2) :
    s.flowing = true := by
  have step := poll_step aes os s (.timer fired)
  generalize s.poll aes os (.timer fired) = polled at step reported
  cases step with
  | halted => cases reported
  | unexpected => simp [unexpected, finish] at reported
  | beganV0200 _ starts =>
    rcases starts with ⟨_, same⟩ | ⟨_, bytes, same⟩ <;> cases same
  | silentV0200 running current => exact flowing_v0200 running current
  | silentV0100 running current => exact flowing_v0100 running current

/-- What a running flow waits for is told by the packets it has taken, the timer armed last is
armed for that, and a timeout that is reported is the duration of that timer. -/
theorem timer_coherence (key : MobileKey) (options : Options) (random : Option RandomSource)
    (events : List Event) :
    let s := run (poll aes os) (start key options random) events
    let past := trace (poll aes os) (start key options random) events
    (s.finished = false → ∀ session, s.state = .v0200 session → ∃ id ms,
      lastTimer (actions past) = some (id, ms) ∧
      (id, ms) = awaitedV0200 options.timeouts session.finalOpResult (packetsTaken past) ∧
      ∀ fired, ∃ message, (s.poll aes os (.timer fired)).2 =
        [info message, .phase .finished, .done (match session.finalOpResult with
          | some opResult => .ok (Outcome.new 2 (some opResult))
          | none => .error (.timeout ms.toUInt64))]) ∧
    (s.finished = false → ∀ session, s.state = .v0100 session → ∃ id ms,
      lastTimer (actions past) = some (id, ms) ∧
      (id, ms) = awaitedV0100 options.timeouts (packetsTaken past) ∧
      ∀ fired, ∃ message, (s.poll aes os (.timer fired)).2 =
        [info message, .phase .finished, .done (.error (.timeout ms.toUInt64))]) ∧
    ∀ fired ms, .done (.error (.timeout ms)) ∈ (s.poll aes os (.timer fired)).2 →
      s.flowing = true := by
  intro s past
  have coherent : Coherent options past s :=
    history_invariant (Coherent options) _ ⟨rfl, fun _ => rfl⟩
      (fun _ _ event coherent => coherent.poll aes os event) events
  obtain ⟨same, holds⟩ := coherent
  refine ⟨?_, ?_, fun fired ms => flowing_of_timeout aes os⟩
  · intro running session current
    have held := holds running
    rw [current] at held
    obtain ⟨first, armed⟩ := held
    rw [← nextWait_awaited first] at armed ⊢
    refine ⟨(session.nextWait options.timeouts).1, (session.nextWait options.timeouts).2, armed,
      rfl, ?_⟩
    rw [← same]
    exact poll_timer_v0200 aes os running current
  · intro running session current
    have held := holds running
    rw [current] at held
    obtain ⟨nonce, armed⟩ := held
    let awaited := awaitedV0100 options.timeouts (packetsTaken past)
    refine ⟨awaited.1, awaited.2, armed, rfl, ?_⟩
    intro fired
    -- the step of the flow is the nonce having been taken, or not
    have waited : awaited.2 =
        match session.step with
        | .awaitingNonce => s.options.timeouts.firstPacketMs
        | .awaitingResult => s.options.timeouts.packetMs := by
      rw [same]
      unfold awaited awaitedV0100
      cases step : session.step with
      | awaitingNonce => rw [if_neg (by rw [← nonce, step]; simp)]
      | awaitingResult => rw [if_pos (by rw [← nonce, step])]
    rw [waited]
    exact poll_timer_v0100 aes os running current fired

end Mkey.Session
