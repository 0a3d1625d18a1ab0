import Mkey.Checked.Stack
import Mkey.Session.History

/-!
# The session with its checks

A poll dispatches on the state once and each flow takes it for granted. Branches
without an operation that can stop are those of the unguarded session.
-/
namespace Mkey.Checked

open Guarded Session

def protocolInfoLength : Nat := 3
def protocolInfoMajorIndex : Nat := 2

/-- The major version of a protocol info, if it has the shape of one. -/
def majorVersion (infoBytes : List UInt8) : Guarded (Option UInt8) := do
  if infoBytes.length ≥ protocolInfoLength then
    if (← index infoBytes 0) = protocolInfoPrefix then
      return some (← index infoBytes protocolInfoMajorIndex)
    else return none
  else return none

def pollDetecting (os : RandomSource) (s : Session) (event : Event) : Guarded Polled := do
  match event with
  | .protocolInfo (some bytes) =>
    match ← majorVersion bytes with
    | some major => return emit [.trace (.read bytes)] (s.begin os (some major))
    | none =>
      return emit [.trace (.read bytes)] <|
        emit [info "Protocol info has an unexpected shape, protocol version unknown"]
          (s.begin os none)
  | other => return s.pollDetecting os other

section Aes

variable (aes : BlockCipher) (limit : Nat)

def pollV0200 (s : Session) (event : Event) : Guarded Polled := do
  match s.state with
  | .v0200 session =>
    match event with
    | .notification packet =>
      match ← handlePacket aes limit session.stack packet with
      | (stack, .error e) =>
        return emit [.trace (.rx packet)]
          (({ s with state := .v0200 { session with stack } } : Session).finish (.error e))
      | (stack, .ok response) =>
        let (session, refused) := ({ session with stack } : V0200).traceRefusals
        let (session, entered) := session.enterExchange
        let session := session.latchVerdict
        let actions := [.trace (.rx packet)] ++
          ([.trace (.tx response)] ++ refused ++ [.write response] ++ entered)
        if session.stack.justin.state = .ready then
          return emit actions (({ s with state := .v0200 session } : Session).finish
            (.ok (Outcome.new 2 session.finalOpResult)))
        let session := { session with firstPacket := false }
        let (id, afterMs) := session.nextWait s.options.timeouts
        return emit actions ({ s with state := .v0200 session }, [.setTimer id afterMs])
    | other => return s.pollV0200 aes session other
  | _ => throw .unreachable

def pollV0100 (s : Session) (event : Event) : Guarded Polled := do
  match s.state with
  | .v0100 session =>
    match event with
    | .notification packet =>
      if packet.head? ≠ some session.step.expectedPrefix then
        return (s, [.trace (.rx packet),
          info s!"Ignoring an unexpected packet {Hex.encode packet}"])
      match session.step with
      | .awaitingNonce =>
        if packet.length < 1 + v0100NonceLength then
          return emit [.trace (.rx packet)] (s.finish (.error (.invalidData
            s!"v0100 nonce packet too short: {packet.length} bytes")))
        let signed ← encryptAesCbc aes session.knKey v0100SignIv
          (← slice packet 1 (1 + v0100NonceLength))
        let signedPacket := V0100Prefix.signedNonce :: signed
        return ({ s with state := .v0100 { session with step := .awaitingResult } },
          [.trace (.rx packet), .phase .exchanging, .trace (.tx signedPacket),
            .write signedPacket, .setTimer .packet s.options.timeouts.packetMs])
      | .awaitingResult =>
        if packet.length < 2 then
          return emit [.trace (.rx packet)] (s.finish (.error (.invalidData
            s!"v0100 result packet too short: {packet.length} bytes")))
        let opResult ← index packet 1
        return emit [.trace (.rx packet)] (s.finish (.ok (Outcome.new 1 (some opResult))))
    | other => return s.pollV0100 aes session other
  | _ => throw .unreachable

def poll (os : RandomSource) (s : Session) (event : Event) : Guarded Polled := do
  if s.finished then return (s, [])
  if event = .aborted then return s.finish (.error .cancelled)
  match s.state with
  | .idle => return s.pollIdle os event
  | .detecting => pollDetecting os s event
  | .v0200 _ => pollV0200 aes limit s event
  | .v0100 _ => pollV0100 aes s event

/-! ### They return what the unguarded functions do -/

omit aes limit in
theorem majorVersion_eq (bytes : List UInt8) :
    majorVersion bytes = .ok (Session.majorVersion bytes) := by
  match bytes with
  | [] | [_] | [_, _] => rfl
  | first :: second :: major :: rest =>
    rw [majorVersion, if_pos (by simp [protocolInfoLength]), index_of_lt (by simp), ok_bind,
      List.getElem_cons_zero, Session.majorVersion]
    split <;> rfl

omit aes limit in
theorem pollDetecting_eq (os : RandomSource) (s : Session) (event : Event) :
    pollDetecting os s event = .ok (s.pollDetecting os event) := by
  unfold pollDetecting
  split
  next bytes =>
    rw [majorVersion_eq, ok_bind, Session.pollDetecting]
    cases Session.majorVersion bytes with
    | some major => rfl
    | none => rfl
  next => rfl

theorem pollV0200_eq {s : Session} {session : V0200} (current : s.state = .v0200 session)
    (left : session.stack.ssp.state = .ready → session.stack.ssp.random.next < limit)
    {event : Event}
    (fits : ∀ packet, event = .notification packet → session.stack.refusesKn aes packet →
      Fits session.stack.justin) :
    pollV0200 aes limit s event = .ok (s.pollV0200 aes session event) := by
  rw [pollV0200, current]
  dsimp only
  split
  next packet =>
    rw [handlePacket_eq session.stack aes left (fits packet rfl), ok_bind, Session.pollV0200]
    cases session.stack.handlePacket aes packet with
    | mk stack result =>
      cases result with
      | error e => rfl
      | ok response =>
        dsimp only
        rw [emit_emit]
        split <;> rfl
  next => rfl

theorem pollV0100_eq {s : Session} {session : V0100} (current : s.state = .v0100 session)
    (event : Event) : pollV0100 aes s event = .ok (s.pollV0100 aes session event) := by
  rw [pollV0100, current]
  dsimp only
  split
  next packet =>
    rw [Session.pollV0100]
    split
    · rfl
    unfold receiveV0100
    cases session.step with
    | awaitingNonce =>
      dsimp only
      split
      · rfl
      next long =>
        have fits : 1 + 16 ≤ packet.length := Nat.le_of_not_lt long
        have nonce : slice packet 1 (1 + v0100NonceLength) =
            .ok (Block.slice packet 1 fits).toList := slice_block fits rfl
        rw [nonce, ok_bind, encryptAesCbc_eq aes _ _ ⟨1, Chunk.length_toList _⟩]
        rfl
    | awaitingResult =>
      rcases packet with _ | ⟨first, _ | ⟨opResult, rest⟩⟩
      · rfl
      · rfl
      · rfl
  next => rfl

/-- A poll stops at nothing but a random value or a refusal too many. -/
theorem poll_eq (os : RandomSource) {s : Session} {event : Event}
    (left : ∀ session, s.finished = false → s.state = .v0200 session →
      session.stack.ssp.state = .ready → session.stack.ssp.random.next < limit)
    (fits : ∀ session packet, s.finished = false → s.state = .v0200 session →
      event = .notification packet → session.stack.refusesKn aes packet →
      Fits session.stack.justin) :
    poll aes limit os s event = .ok (s.poll aes os event) := by
  rw [poll, Session.poll]
  split
  · rfl
  next running =>
    rw [Bool.not_eq_true] at running
    split
    · rfl
    cases current : s.state with
    | idle => rfl
    | detecting => exact pollDetecting_eq os s event
    | v0200 session =>
      exact pollV0200_eq aes limit current (left session running current)
        (fun packet => fits session packet running current)
    | v0100 session => exact pollV0100_eq aes current event

end Aes

end Mkey.Checked
