import Mkey.Properties.Timers

/-!
# The handshake of the older protocol

A v0100 lock sends a nonce, gets it back signed, and sends its result. Anything
that does not start with the byte expected at that point is noise: a run asks
for the same with it and without it, and ends well by the handshake alone.
-/
namespace Mkey.Session

open Machine

/-- What a flow waits for once it has been given a packet. -/
def stepAfter (step : V0100Step) (packet : List UInt8) : V0100Step :=
  if IsNonce packet then .awaitingResult else step

/-- What is left of some events without the packets that are noise at their point. -/
def withoutNoise : V0100Step → List Event → List Event
  | _, [] => []
  | step, .notification packet :: rest =>
      if packet.head? = some step.expectedPrefix then
        .notification packet :: withoutNoise (stepAfter step packet) rest
      else withoutNoise step rest
  | step, event :: rest => event :: withoutNoise step rest

def isTrace : Action → Bool
  | .trace _ => true
  | _ => false

/-- What a run asks of the shell. -/
def asked (actions : List Action) : List Action := actions.filter fun a => !isTrace a

variable (aes : BlockCipher) (os : RandomSource)

/-- The actions of a run. -/
def said (s : Session) (events : List Event) : List Action :=
  (outputs (poll aes os) s events).flatten

theorem said_cons (s : Session) (event : Event) (rest : List Event) :
    said aes os s (event :: rest) =
      (s.poll aes os event).2 ++ said aes os (s.poll aes os event).1 rest := rfl

theorem said_finished {s : Session} (halted : s.finished = true) (events : List Event) :
    said aes os s events = [] := by
  induction events with
  | nil => rfl
  | cons event rest ih => rw [said_cons, poll_finished aes os halted, ih]; rfl

/-- The ways a packet or an event can go in a v0100 flow: noise, a nonce that is signed, a result,
or an end in error. -/
inductive HandshakeStep (s : Session) (session : V0100) : Event → Polled → Prop
  | noise {packet : List UInt8} {message : String} :
      packet.head? ≠ some session.step.expectedPrefix →
      HandshakeStep s session (.notification packet) (s, [.trace (.rx packet), info message])
  | signed {packet : List UInt8} {nonce : Block} : session.step = .awaitingNonce →
      IsNonce packet → nonce.toList = (packet.drop 1).take 16 →
      HandshakeStep s session (.notification packet)
        ({ s with state := .v0100 { session with step := .awaitingResult } },
          [.trace (.rx packet), .phase .exchanging,
            .trace (.tx (signedNonce aes session.knKey nonce)),
            .write (signedNonce aes session.knKey nonce),
            .setTimer .packet s.options.timeouts.packetMs])
  | resulted {opResult : UInt8} {rest : List UInt8} : session.step = .awaitingResult →
      HandshakeStep s session (.notification (V0100Prefix.result :: opResult :: rest))
        (emit [.trace (.rx (V0100Prefix.result :: opResult :: rest))]
          (s.finish (.ok (Outcome.new 1 (some opResult)))))
  | failed {event : Event} {notes : List Action} {e : Error} :
      (∀ packet, event = .notification packet →
        packet.head? = some session.step.expectedPrefix) →
      Notes notes → HandshakeStep s session event (emit notes (s.finish (.error e)))

theorem handshake_step {s : Session} {session : V0100} (running : s.finished = false)
    (current : s.state = .v0100 session) (event : Event) :
    HandshakeStep aes s session event (s.poll aes os event) := by
  have step := poll_step aes os s event
  generalize s.poll aes os event = polled at step
  cases step with
  | halted halted =>
    rw [running] at halted
    cases halted
  | cancelled | disconnected =>
    change HandshakeStep aes s session _ (emit [] (s.finish (.error _)))
    exact .failed (by simp) (by simp [Notes])
  | unexpected _ rejects =>
    rw [current] at rejects
    change HandshakeStep aes s session _ (emit [] (s.finish (.error _)))
    exact .failed (fun packet same => absurd same (rejects.2.1 packet)) (by simp [Notes])
  | detecting _ other | version _ other | beganV0100 _ other | answered _ other | closed _ other
  | refused _ other | silentV0200 _ other | lostV0200 _ other =>
    rw [current] at other
    cases other
  | beganV0200 _ starts =>
    rcases starts with ⟨other, _⟩ | ⟨other, _⟩ <;>
    · rw [current] at other
      cases other
  | ignored _ current' other =>
    obtain rfl := State.v0100.inj (current.symm.trans current')
    exact .noise other
  | signed _ current' awaiting expected long nonce =>
    obtain rfl := State.v0100.inj (current.symm.trans current')
    exact .signed awaiting ⟨expected, long⟩ nonce
  | resulted _ current' awaiting same =>
    obtain rfl := State.v0100.inj (current.symm.trans current')
    subst same
    exact .resulted awaiting
  | shortV0100 _ current' expected =>
    obtain rfl := State.v0100.inj (current.symm.trans current')
    refine .failed ?_ (notes_one _)
    rintro packet same
    cases same
    exact expected
  | silentV0100 => exact .failed (by simp) (notes_one _)

/-! ### With and without noise -/

theorem withoutNoise_expected {step : V0100Step} {event : Event} (rest : List Event)
    (expected : ∀ packet, event = .notification packet →
      packet.head? = some step.expectedPrefix) :
    ∃ next, withoutNoise step (event :: rest) = event :: withoutNoise next rest := by
  cases event with
  | notification packet =>
    rw [withoutNoise, if_pos (expected packet rfl)]
    exact ⟨_, rfl⟩
  | _ => exact ⟨step, rfl⟩

/-- Two continuations of a session that cannot be told apart. -/
def Alike (s : Session) (first second : List Event) : Prop :=
  asked (said aes os s first) = asked (said aes os s second) ∧
    run (poll aes os) s first = run (poll aes os) s second

theorem Alike.cons {s : Session} {event : Event} {first second : List Event}
    (later : Alike aes os (s.poll aes os event).1 first second) :
    Alike aes os s (event :: first) (event :: second) := by
  refine ⟨?_, later.2⟩
  rw [said_cons, said_cons, asked, asked, List.filter_append, List.filter_append]
  exact congrArg _ later.1

theorem Alike.over {s : Session} (halted : s.finished = true) (first second : List Event) :
    Alike aes os s first second := by
  rw [Alike, said_finished aes os halted, said_finished aes os halted, run_finished aes os halted,
    run_finished aes os halted]
  exact ⟨rfl, rfl⟩

/-- Noise changes neither what a v0100 flow asks for nor where it ends up. -/
theorem alike_withoutNoise {s : Session} {session : V0100} (running : s.finished = false)
    (current : s.state = .v0100 session) (events : List Event) :
    Alike aes os s events (withoutNoise session.step events) := by
  induction events generalizing s session with
  | nil => exact ⟨rfl, rfl⟩
  | cons event rest ih =>
    have step := handshake_step aes os running current event
    generalize polls : s.poll aes os event = polled at step
    cases step with
    | noise other =>
      -- the packet is traced and forgotten
      rw [withoutNoise, if_neg other, Alike, said_cons, polls, run, polls]
      exact ih running current
    | signed awaiting nonce =>
      rw [withoutNoise, if_pos (by rw [awaiting]; exact nonce.1), stepAfter, if_pos nonce]
      apply Alike.cons
      rw [polls]
      exact @ih _ { session with step := .awaitingResult } running rfl
    | resulted awaiting =>
      rw [withoutNoise, if_pos (by rw [awaiting]; rfl)]
      apply Alike.cons
      rw [polls]
      exact .over aes os rfl _ _
    | failed expected =>
      obtain ⟨next, clean⟩ := withoutNoise_expected rest expected
      rw [clean]
      apply Alike.cons
      rw [polls]
      exact .over aes os rfl _ _

/-! ### How it can end -/

/-- The result of the lock is in some events, and the outcome reports it. -/
def ResultIn (events : List Event) (outcome : Outcome) : Prop :=
  ∃ middle opResult rest back,
    events = middle ++ .notification (V0100Prefix.result :: opResult :: rest) :: back ∧
    outcome = Outcome.new 1 (some opResult)

/-- An end in error writes nothing and is no good end. -/
theorem failed_quietly {notes : List Action} (noted : Notes notes) {s : Session} {e : Error} :
    (emit notes (s.finish (.error e))).2.filterMap writeOf = [] ∧
      ∀ outcome, .done (.ok outcome) ∉ (emit notes (s.finish (.error e))).2 := by
  constructor
  · rw [emit, List.filterMap_append, List.filterMap_eq_nil_iff.mpr]
    · rfl
    · intro a member
      obtain ⟨t, rfl⟩ := noted a member
      rfl
  · intro outcome member
    rcases List.mem_append.mp member with note | last
    · obtain ⟨t, same⟩ := noted _ note
      cases same
    · simp [finish] at last

/-- A flow that waits for the result writes nothing, and ends well by the result alone. -/
theorem awaiting_result {s : Session} {session : V0100} (running : s.finished = false)
    (current : s.state = .v0100 session) (awaiting : session.step = .awaitingResult)
    (events : List Event) :
    (said aes os s events).filterMap writeOf = [] ∧
      ∀ outcome, .done (.ok outcome) ∈ said aes os s events → ResultIn events outcome := by
  induction events with
  | nil => exact ⟨rfl, by simp [said, outputs, trace]⟩
  | cons event rest ih =>
    rw [said_cons, List.filterMap_append]
    have step := handshake_step aes os running current event
    generalize s.poll aes os event = polled at step
    cases step with
    | noise other =>
      obtain ⟨quiet, ends⟩ := ih
      refine ⟨by rw [quiet]; rfl, ?_⟩
      intro outcome member
      obtain ⟨middle, opResult, more, back, rfl, told⟩ :=
        ends outcome (by simpa [info] using member)
      exact ⟨_ :: middle, opResult, more, back, rfl, told⟩
    | signed other =>
      rw [awaiting] at other
      cases other
    | @resulted opResult more _ =>
      rw [said_finished aes os rfl]
      refine ⟨rfl, ?_⟩
      intro outcome member
      refine ⟨[], opResult, more, rest, rfl, ?_⟩
      simpa [emit, finish] using member
    | failed _ noted =>
      rw [said_finished aes os rfl]
      obtain ⟨quiet, unwell⟩ := failed_quietly noted
      rw [quiet, List.append_nil]
      exact ⟨rfl, fun outcome member => absurd member (unwell outcome)⟩

/-- A flow that waits for a nonce signs the first one it takes, at most. -/
theorem awaiting_nonce {s : Session} {session : V0100} (running : s.finished = false)
    (current : s.state = .v0100 session) (awaiting : session.step = .awaitingNonce)
    (events : List Event) :
    (said aes os s events).filterMap writeOf = [] ∧
        (∀ outcome, .done (.ok outcome) ∉ said aes os s events) ∨
      ∃ front packet back nonce, events = front ++ .notification packet :: back ∧
        (∀ earlier, .notification earlier ∈ front → earlier.head? ≠ some V0100Prefix.nonce) ∧
        IsNonce packet ∧ nonce.toList = (packet.drop 1).take 16 ∧
        (said aes os s events).filterMap writeOf = [signedNonce aes session.knKey nonce] ∧
        ∀ outcome, .done (.ok outcome) ∈ said aes os s events → ResultIn back outcome := by
  induction events with
  | nil => exact .inl ⟨rfl, by simp [said, outputs, trace]⟩
  | cons event rest ih =>
    rw [said_cons, List.filterMap_append]
    have step := handshake_step aes os running current event
    generalize s.poll aes os event = polled at step
    cases step with
    | @noise packet message other =>
      have silent (outcome : Outcome) : Action.done (.ok outcome) ∉
          [Action.trace (.rx packet), info message] := by simp [info]
      rcases ih with ⟨quiet, unwell⟩ | ⟨front, taken, back, nonce, rfl, first, isNonce, value, once,
        ends⟩
      · left
        refine ⟨by rw [quiet]; rfl, ?_⟩
        intro outcome member
        rcases List.mem_append.mp member with here | later
        · exact silent outcome here
        · exact unwell outcome later
      · right
        refine ⟨.notification packet :: front, taken, back, nonce, rfl, ?_, isNonce, value,
          by rw [once]; rfl, ?_⟩
        · intro earlier member
          rcases List.mem_cons.mp member with same | before
          · obtain rfl := Event.notification.inj same
            rw [awaiting] at other
            exact other
          · exact first earlier before
        · intro outcome member
          rcases List.mem_append.mp member with here | later
          · exact absurd here (silent outcome)
          · exact ends outcome later
    | @signed packet nonce _ isNonce value =>
      right
      let later : Session := { s with state := .v0100 { session with step := .awaitingResult } }
      have started : later.state = .v0100 { session with step := .awaitingResult } := rfl
      have going : later.finished = false := running
      obtain ⟨quiet, ends⟩ := @awaiting_result aes os later _ going started rfl rest
      refine ⟨[], packet, rest, nonce, rfl, by simp, isNonce, value, by rw [quiet]; rfl, ?_⟩
      intro outcome member
      exact ends outcome (by simpa using member)
    | resulted other =>
      rw [awaiting] at other
      cases other
    | failed _ noted =>
      left
      rw [said_finished aes os rfl]
      obtain ⟨quiet, unwell⟩ := failed_quietly noted
      rw [quiet, List.append_nil]
      exact ⟨rfl, unwell⟩

/-! ### The whole session -/

theorem poll_key (s : Session) (event : Event) : (s.poll aes os event).1.key = s.key := by
  have step := poll_step aes os s event
  generalize s.poll aes os event = polled at step
  cases step <;> rfl

theorem run_key (s : Session) (events : List Event) :
    (run (poll aes os) s events).key = s.key :=
  run_invariant (fun t => t.key = s.key) (fun t event same => (poll_key aes os t event).trans same)
    s rfl events

/-- As long as no flow has begun nothing is written. -/
def Unwritten (past : List PollRecord) (s : Session) : Prop :=
  s.finished = false → s.state = .idle ∨ s.state = .detecting →
    (actions past).filterMap writeOf = []

theorem Unwritten.poll {past : List PollRecord} {s : Session} (unwritten : Unwritten past s)
    (event : Event) :
    Unwritten (past ++ [stepAt (poll aes os) s event]) (s.poll aes os event).1 := by
  intro running early
  rw [actions_snoc]
  dsimp only [stepAt]
  have step := poll_step aes os s event
  generalize s.poll aes os event = polled at step running early
  cases step with
  | halted halted =>
    rw [halted] at running
    cases running
  | cancelled | unexpected | disconnected | version | closed | refused | silentV0200 | lostV0200
  | resulted | shortV0100 | silentV0100 => cases running
  | detecting running' idle _ announced =>
    rw [List.filterMap_append, unwritten running' (.inl idle)]
    rcases announced with ⟨_, rfl⟩ | ⟨_, rfl⟩ <;> rfl
  | beganV0200 | beganV0100 | answered | signed => rcases early with early | early <;> cases early
  | ignored _ current => rcases early with early | early <;> rw [current] at early <;> cases early

theorem unwritten_run (key : MobileKey) (options : Options) (random : Option RandomSource)
    (events : List Event) :
    Unwritten (trace (poll aes os) (start key options random) events)
      (run (poll aes os) (start key options random) events) :=
  history_invariant Unwritten _ (fun _ _ => rfl)
    (fun _ _ event unwritten => unwritten.poll aes os event) events

theorem said_eq (s : Session) (events : List Event) :
    said aes os s events = actions (trace (poll aes os) s events) := by
  rw [said, outputs, actions, List.flatMap_def]

theorem said_append (s : Session) (front back : List Event) :
    said aes os s (front ++ back) =
      said aes os s front ++ said aes os (run (poll aes os) s front) back := by
  rw [said, said, said, outputs, outputs, outputs, trace_append, List.map_append,
    List.flatten_append]

/-- A lock that says major 1 is identified to. -/
theorem poll_major_one {s : Session} (running : s.finished = false)
    (detecting : s.state = .detecting) {bytes : List UInt8} (major : majorVersion bytes = some 1) :
    s.poll aes os (.protocolInfo (some bytes)) =
      emit ([.trace (.read bytes)] ++ opening) s.beginV0100 := by
  rw [poll, running, if_neg Bool.false_ne_true, if_neg (by simp), detecting]
  dsimp only [pollDetecting]
  rw [major]
  rfl

/-- The discipline of a v0100 flow that begins with some protocol info: what it asks for does not
depend on noise, it ends well only by a nonce and a later result, which it reports, and the
session as a whole writes its identification and at most one signed nonce, that of the first
nonce packet. -/
structure Handshake (s₀ : Session) (before : List Event) (bytes : List UInt8)
    (events : List Event) : Prop where
  noise : Alike aes os (run (poll aes os) s₀ (before ++ [.protocolInfo (some bytes)]))
    events (withoutNoise .awaitingNonce events)
  ends : ∀ outcome,
    .done (.ok outcome) ∈
      said aes os (run (poll aes os) s₀ (before ++ [.protocolInfo (some bytes)])) events →
    ∃ front nonce middle opResult rest back,
      events = front ++ .notification nonce ::
        (middle ++ .notification (V0100Prefix.result :: opResult :: rest) :: back) ∧
      IsNonce nonce ∧ outcome = Outcome.new 1 (some opResult)
  signs : ∃ signed,
    (said aes os s₀ (before ++ .protocolInfo (some bytes) :: events)).filterMap writeOf =
      (V0100Prefix.identify :: s₀.key.tag1) :: signed ∧
    (signed = [] ∨ ∃ front packet back nonce, events = front ++ .notification packet :: back ∧
      (∀ earlier, .notification earlier ∈ front → earlier.head? ≠ some V0100Prefix.nonce) ∧
      IsNonce packet ∧ nonce.toList = (packet.drop 1).take 16 ∧
      signed = [signedNonce aes s₀.key.knKey nonce])

theorem handshake_v0100 (key : MobileKey) (options : Options) (random : Option RandomSource)
    (before : List Event) {bytes : List UInt8}
    (running : (run (poll aes os) (start key options random) before).finished = false)
    (detecting : (run (poll aes os) (start key options random) before).state = .detecting)
    (major : majorVersion bytes = some 1) (events : List Event) :
    Handshake aes os (start key options random) before bytes events := by
  let s := run (poll aes os) (start key options random) (before ++ [.protocolInfo (some bytes)])
  let t := run (poll aes os) (start key options random) before
  have same : t.key = key := run_key aes os (start key options random) before
  have begun : t.poll aes os (.protocolInfo (some bytes)) =
      emit ([.trace (.read bytes)] ++ opening) t.beginV0100 :=
    poll_major_one aes os running detecting major
  have reached : s = t.beginV0100.1 := by
    rw [← emit_fst ([.trace (.read bytes)] ++ opening), ← begun]
    exact run_snoc _ _ _
  have running' : s.finished = false := by rw [reached]; exact running
  have current : s.state = .v0100 ⟨key.knKey, .awaitingNonce⟩ := by
    rw [reached, ← same]
    rfl
  -- before the flow nothing, and at its start the identification
  have earlier : (said aes os (start key options random)
      (before ++ .protocolInfo (some bytes) :: events)).filterMap writeOf =
      (V0100Prefix.identify :: key.tag1) :: (said aes os s events).filterMap writeOf := by
    have nothing := unwritten_run aes os key options random before running (.inr detecting)
    rw [← said_eq] at nothing
    rw [said_append, List.filterMap_append, nothing, said_cons, List.filterMap_append, begun,
      emit_fst, ← reached, ← same]
    rfl
  have handshake := awaiting_nonce aes os running' current rfl events
  refine ⟨alike_withoutNoise aes os running' current events, ?_, _, earlier, ?_⟩
  · intro outcome member
    rcases handshake with ⟨_, unwell⟩ | ⟨front, nonce, back, _, split, _, isNonce, _, _, ends⟩
    · exact absurd member (unwell outcome)
    · obtain ⟨middle, opResult, rest, after, result, told⟩ := ends outcome member
      exact ⟨front, nonce, middle, opResult, rest, after, by rw [split, result], isNonce, told⟩
  · rcases handshake with ⟨quiet, _⟩ | ⟨front, packet, back, nonce, split, first, isNonce, value,
      once, _⟩
    · exact .inl quiet
    · exact .inr ⟨front, packet, back, nonce, split, first, isNonce, value, once⟩

/-- A lock that greets, sends an empty packet, asks its question, asks again, answers, and asks
once more. -/
def noisyEvents : List Event :=
  [.notification [0x05, 0x02], .notification [], .notification (0x03 :: List.replicate 16 0x77),
    .notification (0x03 :: List.replicate 16 0x78), .notification [0x05, 0x02],
    .notification (0x03 :: List.replicate 16 0x79)]

theorem handshake_v0100_noisy :
    Handshake aes128 ⟨fun _ => Block.replicate 0, 0⟩
      (start (MobileKey.new (Block.replicate 0x42)) Options.default none) [.started]
      [0x01, 0x00, 0x01] noisyEvents :=
  handshake_v0100 aes128 _ (MobileKey.new (Block.replicate 0x42)) Options.default none [.started]
    rfl rfl rfl noisyEvents

end Mkey.Session
