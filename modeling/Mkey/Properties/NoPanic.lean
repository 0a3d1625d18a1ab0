import Mkey.Checked.Session

/-!
# Nothing a lock sends stops the phone

The guarded session returns on every run, and returns what the unguarded one does.
Two of its checks hold for the run as a whole: a random value is drawn once, since a
failed authentication that would allow a second draw ends the session, and the count
of refusals is the number of refused reads.
-/
namespace Mkey

open Machine

namespace SecureProtocolManager

/-- No value is drawn while a challenge can still be asked for, and one at most after it. -/
def AtMostOnce (first : Nat) (s : SecureProtocolManager) : Prop :=
  s.random.next ≤ first + 1 ∧ (s.state = .ready → s.random.next = first)

theorem AtMostOnce.of_random {first : Nat} {s t : SecureProtocolManager}
    (once : s.AtMostOnce first) (random : t.random = s.random)
    (state : t.state = .ready → s.state = .ready) : t.AtMostOnce first := by
  rw [AtMostOnce, random]
  exact ⟨once.1, fun ready => once.2 (state ready)⟩

theorem AtMostOnce.received {first : Nat} {s : SecureProtocolManager} (once : s.AtMostOnce first)
    (packet : List UInt8) : (s.received packet).AtMostOnce first :=
  once.of_random (received_random s packet) (by simp)

theorem AtMostOnce.updateIv {first : Nat} {s : SecureProtocolManager} (once : s.AtMostOnce first)
    (ciphertext : List UInt8) : (s.updateIvFromCiphertext ciphertext).AtMostOnce first :=
  once.of_random (updateIv_random s ciphertext) (by simp)

/-- A packet draws at most one value, and opens the way for another one only with the failure that
ends the session. -/
theorem AtMostOnce.processPacket {first : Nat} {s : SecureProtocolManager}
    (once : s.AtMostOnce first) (aes : BlockCipher) (packet : List UInt8) :
    (s.processPacket aes packet).1.random.next ≤ first + 1 ∧
      ((s.processPacket aes packet).2.isOk → (s.processPacket aes packet).1.AtMostOnce first) := by
  have step := processPacket_step aes s packet
  generalize s.processPacket aes packet = result at step
  cases step with
  | rejected | version | data => exact ⟨(once.received _).1, fun _ => once.received _⟩
  | mismatch =>
    -- back to READY with a value drawn, but the failure is the end
    refine ⟨?_, fun ok => by cases ok⟩
    dsimp only
    rw [received_random]
    exact once.1
  | challenged _ _ ready =>
    have drawn : (s.afterChallenge aes).random.next = first + 1 := by
      rw [← once.2 ready]
      simp [afterChallenge, RandomSource.random16]
    refine ⟨drawn.le, fun _ => ⟨drawn.le, fun again => ?_⟩⟩
    simp [afterChallenge] at again
  | @authenticated c body rest a b =>
    have kept : ((s.received (c :: body)).afterProof aes a b).AtMostOnce first :=
      (once.received (c :: body)).of_random (by simp [afterProof]) (by simp [afterProof])
    exact ⟨kept.1, fun _ => kept⟩
  | @rekeyed c x body rest key =>
    have kept : ((s.received (c :: body)).afterRekey aes key).AtMostOnce first :=
      (once.received (c :: body)).of_random (by simp [afterRekey]) (by simp [afterRekey])
    exact ⟨kept.1, fun _ => kept⟩

end SecureProtocolManager

namespace JustinStack0100

variable {S : Type} [MobileKeyStore S] {stack : JustinStack0100 S}

theorem handlePacket_atMostOnce {first : Nat} (once : stack.ssp.AtMostOnce first)
    (aes : BlockCipher) (packet : List UInt8) :
    (stack.handlePacket aes packet).1.ssp.random.next ≤ first + 1 ∧
      ((stack.handlePacket aes packet).2.isOk →
        (stack.handlePacket aes packet).1.ssp.AtMostOnce first) := by
  have step := stack.handlePacket_step aes packet
  generalize stack.handlePacket aes packet = result at step
  cases step with
  | short | clear => exact ⟨once.1, fun _ => once⟩
  | @control c body => exact once.processPacket aes (c :: body)
  | @undeciphered c body =>
    have kept := once.received (c :: body)
    exact ⟨kept.1, fun _ => kept⟩
  | @enciphered c body payload =>
    have kept := once.received (c :: body)
    cases stack.justin.call payload true with
    | mk justin answer =>
      cases answer with
      | error e => exact ⟨kept.1, fun _ => kept⟩
      | ok reply =>
        exact ⟨(kept.updateIv _).1, fun _ => kept.updateIv _⟩

end JustinStack0100

namespace Session

variable (aes : BlockCipher) (os : RandomSource)

/-- The random values of a session: none is drawn before the v0200 flow, one at most in it. -/
def Drawn (first : Nat) (s : Session) : Prop :=
  match s.state with
  | .idle | .detecting => (s.random.getD os).next = first
  | .v0200 session => session.stack.ssp.random.next ≤ first + 1 ∧
      (s.finished = false → session.stack.ssp.AtMostOnce first)
  | .v0100 _ => True

/-- The end of a session leaves its random values as they are. -/
theorem Drawn.ended {first : Nat} {s t : Session} (drawn : Drawn os first s)
    (state : t.state = s.state) (random : t.random = s.random) (over_ : t.finished = true) :
    Drawn os first t := by
  rw [Drawn] at drawn ⊢
  rw [state, random]
  cases current : s.state with
  | idle | detecting | v0100 =>
    rw [current] at drawn
    exact drawn
  | v0200 session =>
    rw [current] at drawn
    refine ⟨drawn.1, fun running => ?_⟩
    rw [over_] at running
    cases running

theorem Drawn.poll {first : Nat} {s : Session} (drawn : Drawn os first s) (event : Event) :
    Drawn os first (s.poll aes os event).1 := by
  have step := poll_step aes os s event
  generalize s.poll aes os event = polled at step
  cases step with
  | halted | ignored => exact drawn
  | cancelled | unexpected | disconnected | version | silentV0200 | lostV0200 | resulted
  | shortV0100 | silentV0100 => exact drawn.ended os rfl rfl rfl
  | detecting _ idle =>
    rw [Drawn, idle] at drawn
    exact drawn
  | beganV0200 _ starts =>
    have fresh : (s.random.getD os).next = first := by
      rcases starts with ⟨early, _⟩ | ⟨early, _⟩ <;> rwa [Drawn, early] at drawn
    exact ⟨Nat.le_succ_of_le fresh.le, fun _ => ⟨Nat.le_succ_of_le fresh.le, fun _ => fresh⟩⟩
  | beganV0100 | signed => trivial
  | @answered session packet response stack running current handled =>
    rw [Drawn, current] at drawn
    obtain ⟨bound, kept⟩ := JustinStack0100.handlePacket_atMostOnce (drawn.2 running) aes packet
    rw [handled] at bound kept
    rw [Drawn]
    dsimp only
    rw [V0200.afterAnswer_stack]
    exact ⟨bound, fun _ => kept rfl⟩
  | @closed session packet response stack running current handled =>
    rw [Drawn, current] at drawn
    obtain ⟨bound, _⟩ := JustinStack0100.handlePacket_atMostOnce (drawn.2 running) aes packet
    rw [handled] at bound
    rw [Drawn, emit_fst, finish_state]
    dsimp only
    rw [V0200.afterAnswer_stack]
    exact ⟨bound, fun going => by cases going⟩
  | @refused session packet e stack running current handled =>
    rw [Drawn, current] at drawn
    obtain ⟨bound, _⟩ := JustinStack0100.handlePacket_atMostOnce (drawn.2 running) aes packet
    rw [handled] at bound
    exact ⟨bound, fun going => by cases going⟩

theorem drawn_run (key : MobileKey) (options : Options) (random : Option RandomSource)
    (events : List Event) :
    Drawn os (random.getD os).next (run (poll aes os) (start key options random) events) := by
  have fresh : Drawn os (random.getD os).next (start key options random) := rfl
  exact run_invariant (Drawn os (random.getD os).next)
    (fun _ event drawn => drawn.poll aes os event) _ fresh events

/-- A refusal still to come in a run finds room in the counter. -/
theorem fits_run (key : MobileKey) (options : Options) (random : Option RandomSource)
    {events front back : List Event} {packet : List UInt8} {session : V0200}
    (few : (trace (poll aes os) (start key options random) events).countP (refusedKn aes) < 2 ^ 32)
    (split : events = front ++ .notification packet :: back)
    (running : (run (poll aes os) (start key options random) front).finished = false)
    (current : (run (poll aes os) (start key options random) front).state = .v0200 session)
    (refused : session.stack.refusesKn aes packet) : Checked.Fits session.stack.justin := by
  have counted := counted_run aes os key options random front running
  rw [current] at counted
  rw [split, trace_append, List.countP_append, trace, List.countP_cons] at few
  have one : refusedKn aes (stepAt (poll aes os)
      (run (poll aes os) (start key options random) front) (.notification packet)) = true := by
    rw [stepAt, refusedKn_packet aes running current]
    exact refused
  rw [one, if_pos rfl] at few
  obtain ⟨count, _⟩ := counted.2.2 (by omega)
  rw [Checked.Fits, count]
  omega

/-- Nothing in a run stops the program: neither what the lock sends nor a source that holds a
single random value, which is asked for it at most once. -/
theorem poll_never_panics (key : MobileKey) (options : Options) (random : Option RandomSource)
    {limit : Nat} (stocked : (random.getD os).next < limit) (events : List Event)
    (few : (trace (poll aes os) (start key options random) events).countP (refusedKn aes) <
      2 ^ 32) :
    Guarded.runs (Checked.poll aes limit os) (start key options random) events =
        .ok (run (poll aes os) (start key options random) events,
          outputs (poll aes os) (start key options random) events) ∧
      ∀ stack, (run (poll aes os) (start key options random) events).stack = some stack →
        stack.ssp.random.next ≤ (random.getD os).next + 1 := by
  constructor
  · apply Guarded.runs_eq
    intro front event back split
    apply Checked.poll_eq
    · intro session running current ready
      have drawn := drawn_run aes os key options random front
      rw [Drawn, current] at drawn
      rw [(drawn.2 running).2 ready]
      exact stocked
    · rintro session packet running current rfl refused
      exact fits_run aes os key options random few split running current refused
  · intro stack_ held
    have drawn := drawn_run aes os key options random events
    rw [stack] at held
    split at held
    next session current =>
      cases held
      rw [Drawn, current] at drawn
      exact drawn.1
    next => cases held

/-- A source that holds a single value. -/
def single (value : Block) : RandomSource := ⟨fun _ => value, 0⟩

/-- A challenge, a second one, which ends the session, and more of both kinds of request. -/
def pressingEvents : List Event :=
  [.started, .protocolInfo (some [0x01, 0x00, 0x02]), .notification [0x00, 0x02, 0x02],
    .notification [0x01, 0x01], .notification [0x01, 0x01], .notification [0x00, 0x02, 0x02]]

theorem poll_never_panics_single :
    let key := MobileKey.new (Block.replicate 0x42)
    let random := some (single (Block.replicate 0x22))
    let os := single (Block.replicate 0)
    Guarded.runs (Checked.poll aes128 1 os) (start key Options.default random) pressingEvents =
        .ok (run (poll aes128 os) (start key Options.default random) pressingEvents,
          outputs (poll aes128 os) (start key Options.default random) pressingEvents) ∧
      ∀ stack, (run (poll aes128 os) (start key Options.default random) pressingEvents).stack =
          some stack →
        stack.ssp.random.next ≤ (random.getD os).next + 1 :=
  poll_never_panics aes128 (single (Block.replicate 0)) (MobileKey.new (Block.replicate 0x42))
    Options.default (some (single (Block.replicate 0x22))) (by decide) pressingEvents
    (by decide +kernel)

end Session

end Mkey
