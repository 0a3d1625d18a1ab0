import Mkey.Properties.Attempt
import Mkey.Properties.Handshake0100

/-!
# An attempt against a lock of the older protocol

The lock waits for an identification, sends a nonce, and sends its result once
the nonce has come back signed. It may send any noise in between. The attempt
returns what the lock makes of the signature, however much noise there is.
-/
namespace Mkey

open Session Pump

/-- Packets nobody waits for at a step. -/
abbrev Noise (step : V0100Step) := {packet : List UInt8 // packet.head? ≠ some step.expectedPrefix}

/-- A lock that speaks major version 1. `judge` is the result it sends, by whether the nonce came
back signed with its own key. -/
structure NonceLock where
  knKey : Block
  nonce : Block
  judge : Bool → UInt8
  info : List UInt8
  version : majorVersion info = some 1
  before : List (Noise .awaitingNonce)
  between : List (Noise .awaitingResult)

namespace NonceLock

variable (aes : BlockCipher) (lock : NonceLock)

def challenge : List (List UInt8) :=
  lock.before.map Subtype.val ++ [V0100Prefix.nonce :: lock.nonce.toList]

/-- The byte the lock answers a signed nonce with. -/
def opResult (signed : List UInt8) : UInt8 :=
  lock.judge (signed = signedNonce aes lock.knKey lock.nonce)

def answer (signed : List UInt8) : List (List UInt8) :=
  lock.between.map Subtype.val ++ [[V0100Prefix.result, lock.opResult aes signed]]

end NonceLock

/-- The lock behind the transport: what it is about to send, and what was written to it. -/
structure NonceLink (aes : BlockCipher) where
  lock : NonceLock
  sending : List (List UInt8)
  written : List (List UInt8)

namespace NonceLink

variable {aes : BlockCipher}

def new (aes : BlockCipher) (lock : NonceLock) : NonceLink aes := ⟨lock, [], []⟩

def take (link : NonceLink aes) (bytes : List UInt8) : NonceLink aes :=
  let link := { link with written := link.written ++ [bytes] }
  if bytes.head? = some V0100Prefix.identify then
    { link with sending := link.sending ++ link.lock.challenge }
  else if bytes.head? = some V0100Prefix.signedNonce then
    { link with sending := link.sending ++ link.lock.answer aes bytes }
  else link

instance : BleTransport (NonceLink aes) where
  now _ := 0
  sleep link _ := link
  write link bytes := (link.take bytes, .ok ())
  subscribe link := (link, .ok ())
  readNotifyValue link _ := (link, some (.ok link.lock.info))
  receive link _ :=
    match link.sending with
    | [] => (link, some (.ok none))
    | packet :: rest => ({ link with sending := rest }, some (.ok (some packet)))
  disconnect link := (link, .ok ())

variable (aes) (os : RandomSource)

/-- The turn that follows a wait for the lock. -/
def waiting (link : NonceLink aes) (s : Session) (deadline : Deadline) : Turn (NonceLink aes) :=
  ⟨(BleTransport.receive link deadline.2).1, s,
    (heard deadline.1 (BleTransport.receive link deadline.2).2).2, some deadline⟩

/-- A session in the flow of the older protocol, at a step of it. -/
def Flows (s : Session) (knKey : Block) (step : V0100Step) : Prop :=
  s.finished = false ∧ s.state = .v0100 ⟨knKey, step⟩

variable {aes} {link : NonceLink aes} {s : Session} {knKey : Block} {step : V0100Step}

theorem poll_flows (flows : Flows s knKey step) (packet : List UInt8) :
    s.poll aes os (.notification packet) =
      s.pollV0100 aes ⟨knKey, step⟩ (.notification packet) := by
  rw [poll, flows.1, flows.2, if_neg Bool.false_ne_true, if_neg (by simp)]

theorem waiting_sending {packet : List UInt8} {rest : List (List UInt8)}
    (sends : link.sending = packet :: rest) (deadline : Deadline) :
    waiting aes link s deadline =
      ⟨{ link with sending := rest }, s, .notification packet, some deadline⟩ := by
  simp only [waiting, BleTransport.receive, sends, heard]

/-- Noise costs a turn, and leaves the session and its deadline alone. -/
theorem turn_noise (flows : Flows s knKey step) (packet : Noise step) {rest : List (List UInt8)}
    (sends : link.sending = packet.val :: rest) (deadline : Deadline) :
    ∃ calls, turn aes os (waiting aes link s deadline) =
      (calls, .inl (waiting aes { link with sending := rest } s deadline)) := by
  rw [waiting_sending sends, turn]
  dsimp only
  rw [poll_flows os flows, pollV0100, if_pos packet.property]
  exact ⟨_, rfl⟩

theorem run_noise (flows : Flows s knKey step) (noise : List (Noise step))
    {rest : List (List UInt8)} (sends : link.sending = noise.map Subtype.val ++ rest)
    (deadline : Deadline) :
    ∃ calls, Loop.Goes (turn aes os) noise.length calls (waiting aes link s deadline)
      (waiting aes { link with sending := rest } s deadline) := by
  induction noise generalizing link with
  | nil =>
    obtain rfl : link.sending = rest := sends
    exact ⟨[], .none _⟩
  | cons packet others ih =>
    have first : link.sending = packet.val :: (others.map Subtype.val ++ rest) := sends
    obtain ⟨calls, goes⟩ := turn_noise os flows packet first deadline
    obtain ⟨later, runs⟩ := @ih { link with sending := others.map Subtype.val ++ rest } rfl
    rw [List.length_cons, Nat.add_comm]
    exact ⟨calls ++ later, (Loop.Goes.one goes).trans runs⟩

/-- A nonce is signed with the key of the phone, and the lock answers it. -/
theorem turn_nonce (flows : Flows s knKey .awaitingNonce) (nonce : Block)
    (sends : link.sending = [V0100Prefix.nonce :: nonce.toList]) (deadline : Deadline) :
    ∃ calls s' deadline', Flows s' knKey .awaitingResult ∧
      turn aes os (waiting aes link s deadline) =
        (calls, .inl (waiting aes
          { link with
              sending := link.lock.answer aes (signedNonce aes knKey nonce)
              written := link.written ++ [signedNonce aes knKey nonce] } s' deadline')) := by
  have long : ¬(V0100Prefix.nonce :: nonce.toList).length < 1 + v0100NonceLength := by
    simp [v0100NonceLength]
  have signs : s.pollV0100 aes ⟨knKey, .awaitingNonce⟩
      (.notification (V0100Prefix.nonce :: nonce.toList)) =
        ({ s with state := .v0100 ⟨knKey, .awaitingResult⟩ },
          [.trace (.rx (V0100Prefix.nonce :: nonce.toList)), .phase .exchanging,
            .trace (.tx (signedNonce aes knKey nonce)), .write (signedNonce aes knKey nonce),
            .setTimer .packet s.options.timeouts.packetMs]) := by
    have same (fits) : Block.slice (V0100Prefix.nonce :: nonce.toList) 1 fits = nonce := by
      simp [Block.slice, Chunk.ext_iff]
    rw [pollV0100, if_neg (by simp [V0100Step.expectedPrefix])]
    unfold receiveV0100
    dsimp only
    rw [dif_neg long]
    simp only [same]
    rfl
  rw [waiting_sending sends, turn]
  dsimp only
  rw [poll_flows os flows, signs]
  exact ⟨_, { s with state := .v0100 ⟨knKey, .awaitingResult⟩ },
    (.packet, 0 + s.options.timeouts.packetMs.toNat), ⟨flows.1, rfl⟩, rfl⟩

theorem turn_result (flows : Flows s knKey .awaitingResult) (opResult : UInt8)
    (sends : link.sending = [[V0100Prefix.result, opResult]]) (deadline : Deadline) :
    ∃ calls s', turn aes os (waiting aes link s deadline) =
      (calls, .inr ({ link with sending := [] }, s', .ok (Outcome.new 1 (some opResult)))) := by
  rw [waiting_sending sends, turn]
  dsimp only
  rw [poll_flows os flows, pollV0100, if_neg (by simp [V0100Step.expectedPrefix]), receiveV0100]
  exact ⟨_, _, rfl⟩

/-! ### From the start to the end -/

variable (key : MobileKey) (options : Options) (random : Option RandomSource) (lock : NonceLock)

/-- What is written to the lock before it is asked for its version: nothing in a detection that only
reads. -/
def announced (options : Options) : List (List UInt8) :=
  if options.detection = .appProtocol then [appProtocolRequest] else []

theorem turn_started (reads : options.notifyReadable = true) (detects : options.detection ≠ .none) :
    ∃ calls, turn aes os (first (new aes lock) (start key options random)) =
      (calls, .inl ⟨⟨lock, [], announced options⟩,
        { start key options random with state := .detecting }, .protocolInfo (some lock.info),
        none⟩) := by
  rw [turn, first]
  dsimp only
  rw [HonestLink.poll_asking os key options random (by simp [reads, detects]), announced]
  split_ifs
  · exact ⟨_, rfl⟩
  · exact ⟨_, rfl⟩

theorem turn_identified :
    ∃ calls s' deadline, Flows s' key.knKey .awaitingNonce ∧
      turn aes os ⟨(⟨lock, [], announced options⟩ : NonceLink aes),
        { start key options random with state := .detecting }, .protocolInfo (some lock.info),
        none⟩ =
        (calls, .inl (waiting aes
          ⟨lock, lock.challenge, announced options ++ [V0100Prefix.identify :: key.tag1]⟩
          s' deadline)) := by
  let s : Session := { start key options random with state := .detecting }
  have polls : s.poll aes os (.protocolInfo (some lock.info)) =
      emit [.trace (.read lock.info)] (emit [.subscribe, .phase .authenticating] s.beginV0100) := by
    change s.pollDetecting os (.protocolInfo (some lock.info)) = _
    rw [pollDetecting, lock.version]
    rfl
  rw [turn]
  dsimp only
  rw [polls]
  exact ⟨_, s.beginV0100.1, (.firstPacket, 0 + options.timeouts.firstPacketMs.toNat), ⟨rfl, rfl⟩,
    rfl⟩

/-- An attempt against a lock of the older protocol returns the lock's own result, by whether the
nonce came back signed with its key. It is written who asks and the signature, behind the
announcement where there is one. Noise costs a turn a packet, and nothing else. -/
theorem honest_attempt_0100 (aes : BlockCipher) (os : RandomSource) (key : MobileKey)
    (options : Options) (random : Option RandomSource) (lock : NonceLock)
    (reads : options.notifyReadable = true) (detects : options.detection ≠ .none) (more : Nat) :
    let signed := signedNonce aes key.knKey lock.nonce
    ∃ calls link session, runSession aes os (lock.before.length + lock.between.length + 4 + more)
        (new aes lock) (start key options random) =
          some (calls, link, session, .ok (Outcome.new 1 (some (lock.opResult aes signed)))) ∧
      link.written = announced options ++ [V0100Prefix.identify :: key.tag1, signed] := by
  intro signed
  obtain ⟨asking, started⟩ := @turn_started aes os key options random lock reads detects
  obtain ⟨identifying, s₁, d₁, awaits, identified⟩ :=
    @turn_identified aes os key options random lock
  let identity := announced options ++ [V0100Prefix.identify :: key.tag1]
  obtain ⟨ignoring, ignores⟩ :=
    @run_noise aes os ⟨lock, lock.challenge, identity⟩ _ _ _ awaits lock.before _ rfl d₁
  obtain ⟨signing, s₂, d₂, signs, signed_⟩ := @turn_nonce aes os
    ⟨lock, [V0100Prefix.nonce :: lock.nonce.toList], identity⟩ _ _ awaits lock.nonce rfl d₁
  obtain ⟨ignoring', ignores'⟩ := @run_noise aes os
    ⟨lock, lock.answer aes signed, identity ++ [signed]⟩ _ _ _ signs lock.between _ rfl d₂
  obtain ⟨ending, s₃, ends⟩ := @turn_result aes os
    ⟨lock, [[V0100Prefix.result, lock.opResult aes signed]], identity ++ [signed]⟩ _ _ signs _ rfl
    d₂
  -- the start, the identification, the noise, the nonce, the noise, and the result
  have goes := ((((Loop.Goes.one started).trans (.one identified)).trans ignores).trans
    (.one signed_)).trans ignores'
  have fuel : lock.before.length + lock.between.length + 4 + more =
      1 + 1 + lock.before.length + 1 + lock.between.length + 1 + more := by
    omega
  have pumped := goes.returns ends more
  rw [← fuel] at pumped
  simp only [runSession, pump, pumped]
  exact ⟨_, _, _, rfl, List.append_assoc _ _ _⟩

/-- A lock that repeats itself, and grants access to its own key. -/
def repeatingLock : NonceLock where
  knKey := Block.replicate 0x42
  nonce := Block.replicate 0x24
  judge := fun own => if own then 2 else 3
  info := [0x01, 0x03, 0x01]
  version := by decide
  before := [⟨[0x05, 0x02], by decide⟩]
  between := [⟨0x03 :: (Block.replicate 0x25).toList, by decide⟩, ⟨[], by decide⟩]

theorem honest_attempt_0100_granted :
    let os : RandomSource := ⟨fun _ => Block.replicate 0, 0⟩
    let key := MobileKey.new (Block.replicate 0x42)
    let signed := signedNonce aes128 key.knKey repeatingLock.nonce
    ∃ calls link session, runSession aes128 os (1 + 2 + 4 + 0) (new aes128 repeatingLock)
        (start key .default none) = some (calls, link, session, .ok (Outcome.new 1 (some 2))) ∧
      link.written = [appProtocolRequest, V0100Prefix.identify :: key.tag1, signed] := by
  obtain ⟨calls, link, session, returned, written⟩ := honest_attempt_0100 aes128
    ⟨fun _ => Block.replicate 0, 0⟩ (MobileKey.new (Block.replicate 0x42)) .default none
    repeatingLock rfl (by decide) 0
  have granted : repeatingLock.opResult aes128
      (signedNonce aes128 (Block.replicate 0x42) repeatingLock.nonce) = 2 := by
    rw [NonceLock.opResult, repeatingLock, decide_eq_true rfl]
    rfl
  exact ⟨calls, link, session, returned.trans (by rw [← granted]; rfl), written⟩

end NonceLink

end Mkey
