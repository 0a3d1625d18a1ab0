import Mkey.Core.StackSteps
import Mkey.Properties.KeyIntegrity

/-!
# When a peer is let into a session

The stack enters a session on one kind of packet: an encrypted control packet
that opens, under kN, to the challenge last issued, rotated. The history
invariant ties the stored challenge to the answer that carried it.
-/
namespace Mkey.JustinStack0100

open Control Machine SecureProtocolManager

section Steps

variable {S : Type} [MobileKeyStore S] (aes : BlockCipher)

/-- A stack whose key is chosen beforehand, before any packet. -/
def fresh (knKey : Block) (random : RandomSource) (key : MobileKey) :
    JustinStack0100 NoopKeyStore :=
  ⟨withRandom knKey random, .newWithKey key⟩

abbrev PacketStep (S : Type) := Step (JustinStack0100 S) (List UInt8) (Except Error (List UInt8))

/-- The RandomB that an accepted OpenSessionStep1 hands to the peer. -/
def issued (x : PacketStep S) : Option Block :=
  match x.input with
  | c :: opcode :: _ =>
    if isControl c && !isEncrypted c && opcode == 0x01 && x.output.isOk then
      some x.before.ssp.nextChallenge
    else none
  | _ => none

def lastIssued (past : List (PacketStep S)) : Option Block := (past.filterMap issued).getLast?

omit [MobileKeyStore S] in
theorem lastIssued_snoc (past : List (PacketStep S)) (x : PacketStep S) :
    lastIssued (past ++ [x]) = (issued x).or (lastIssued past) := by
  unfold lastIssued
  cases challenge : issued x <;> simp [challenge]

/-- A packet that answers challenge `b` under kN, and brings the peer's `a`. -/
structure Authenticates (knKey : Block) (past : List (PacketStep S)) (stack : JustinStack0100 S)
    (packet : List UInt8) (a b : Block) : Prop where
  waiting : stack.ssp.state = .authStep1
  challenge : lastIssued past = some b
  answer : ∃ c body rest, packet = c :: body ∧ isControl c ∧ isEncrypted c ∧
    Opens aes knKey stack.ssp.iv body (0x02 :: (a.toList ++ (rotateRight b.toList ++ rest)))

/-- What the run so far says about the SSP layer. -/
structure Tracks (knKey : Block) (past : List (PacketStep S)) (stack : JustinStack0100 S) :
    Prop where
  knKey : stack.ssp.knKey = knKey
  keyed : Keyed stack.ssp
  challenge : stack.ssp.randomB = lastIssued past

theorem received_onlyIv (s : SecureProtocolManager) (packet : List UInt8) :
    ∃ iv, s.received packet = { s with iv } := by
  rcases s.received_cases packet with same | ⟨body, moved⟩
  · exact ⟨s.iv, same⟩
  · rw [moved, updateIvFromCiphertext]
    split
    · exact ⟨_, rfl⟩
    · exact ⟨s.iv, rfl⟩

/-- A packet is a control packet for the SSP layer, or moves at most the IV there. -/
theorem handlePacket_ssp (stack : JustinStack0100 S) (packet : List UInt8) :
    (∃ c body, packet = c :: body ∧ isControl c ∧
      stack.handlePacket aes packet =
        ({ stack with ssp := (stack.ssp.processPacket aes packet).1 },
          (stack.ssp.processPacket aes packet).2)) ∨
    ((packet.head?.all fun c => !isControl c) ∨ (stack.handlePacket aes packet).2.isOk = false) ∧
      ∃ iv, (stack.handlePacket aes packet).1.ssp = { stack.ssp with iv } := by
  have step := handlePacket_step aes stack packet
  generalize stack.handlePacket aes packet = result at step
  cases step with
  | short => exact .inr ⟨.inr rfl, stack.ssp.iv, rfl⟩
  | control control => exact .inl ⟨_, _, rfl, control, rfl⟩
  | undeciphered => exact .inr ⟨.inr rfl, received_onlyIv stack.ssp _⟩
  | clear data => exact .inr ⟨.inl (by simp [data]), stack.ssp.iv, rfl⟩
  | @enciphered c body payload data =>
    refine .inr ⟨.inl (by simp [data]), ?_⟩
    obtain ⟨iv, moved⟩ := received_onlyIv stack.ssp (c :: body)
    rcases stack.justin.call payload true with ⟨justin, e | reply⟩
    · exact ⟨iv, moved⟩
    · -- two steps of the chain: the received body, and the answer sealed after it
      unfold sealAnswer updateIvFromCiphertext
      simp only [moved]
      split
      · exact ⟨_, rfl⟩
      · exact ⟨_, rfl⟩

omit [MobileKeyStore S] in
theorem issued_of_failed {x : PacketStep S} (failed : x.output.isOk = false) : issued x = none := by
  rw [issued]
  split
  · rw [failed, Bool.and_false]
    rfl
  · rfl

omit [MobileKeyStore S] in
theorem issued_of_data {x : PacketStep S} (data : x.input.head?.all fun c => !isControl c) :
    issued x = none := by
  rw [issued]
  split
  next input =>
    rw [input] at data
    simp_all
  · rfl

omit [MobileKeyStore S] in
/-- A challenge is issued in the clear, and by its own opcode. -/
theorem issued_of_other {x : PacketStep S} {c : UInt8} {body payload : List UInt8} {opcode : UInt8}
    (input : x.input = c :: body)
    (carries : x.before.ssp.Carries aes c body (opcode :: payload)) (other : opcode ≠ 0x01) :
    issued x = none := by
  rw [issued]
  rw [input]
  cases encrypted : isEncrypted c with
  | true =>
    split
    next same => simp [← (List.cons.inj same).1, encrypted]
    · rfl
  | false =>
    simp [← carries.eq encrypted, other]

/-- The stored challenge is the one the packet issued, else the one stored before. -/
theorem processPacket_randomB {stack : JustinStack0100 S} {c : UInt8} {body : List UInt8}
    (routed : stack.handlePacket aes (c :: body) =
      ({ stack with ssp := (stack.ssp.processPacket aes (c :: body)).1 },
        (stack.ssp.processPacket aes (c :: body)).2)) :
    (stack.ssp.processPacket aes (c :: body)).1.randomB =
      (issued (stepAt (handlePacket aes) stack (c :: body))).or stack.ssp.randomB := by
  have output : (stepAt (handlePacket aes) stack (c :: body)).output =
      (stack.ssp.processPacket aes (c :: body)).2 := congrArg Prod.snd routed
  generalize before : stepAt (handlePacket aes) stack (c :: body) = x at output
  have input : x.input = c :: body := by rw [← before]; rfl
  have same : x.before = stack := by rw [← before]; rfl
  rw [← same] at output ⊢
  have step := processPacket_step aes x.before.ssp (c :: body)
  generalize x.before.ssp.processPacket aes (c :: body) = result at step output
  cases step with
  | rejected => rw [issued_of_failed (by rw [output]; rfl), received_randomB, Option.none_or]
  -- a failed proof leaves the challenge in place, for a session that has to start over
  | mismatch =>
    rw [issued_of_failed (by rw [output]; rfl), Option.none_or]
    exact received_randomB ..
  | challenged control plain =>
    -- the only step that issues, and it stores what it hands out
    have handed : issued x = some x.before.ssp.nextChallenge := by
      simp [issued, input, output, control, plain, Except.isOk, Except.toBool]
    rw [handed, Option.some_or]
    simp [afterChallenge]
  | authenticated _ encrypted opens =>
    rw [issued_of_other aes input (carries_of_opens encrypted opens) (by decide), Option.none_or]
    simp [afterProof]
  | rekeyed _ carries =>
    rw [issued_of_other aes input carries (by decide), Option.none_or]
    simp [afterRekey]
  | version _ carries =>
    rw [issued_of_other aes input carries (by decide), Option.none_or, received_randomB]
  | data data =>
    rw [issued_of_data (by simp [input, data]), Option.none_or, received_randomB]

/-! ### Runs -/

theorem handlePacket_control (stack : JustinStack0100 S) {c : UInt8} {body : List UInt8}
    (control : isControl c) (nonempty : body ≠ []) :
    stack.handlePacket aes (c :: body) =
      ({ stack with ssp := (stack.ssp.processPacket aes (c :: body)).1 },
        (stack.ssp.processPacket aes (c :: body)).2) := by
  obtain ⟨b, rest, rfl⟩ := List.exists_cons_of_ne_nil nonempty
  simp [handlePacket, control]

variable {knKey : Block} {past : List (PacketStep S)} {stack : JustinStack0100 S}

theorem Tracks.step (tracks : Tracks knKey past stack) (packet : List UInt8) :
    Tracks knKey (past ++ [stepAt (handlePacket aes) stack packet])
      (stack.handlePacket aes packet).1 := by
  rcases handlePacket_ssp aes stack packet with ⟨c, body, rfl, _, routed⟩ | ⟨quiet, iv, moved⟩
  · refine ⟨?_, ?_, ?_⟩
    · rw [routed]
      exact (processPacket_knKey aes _ _).trans tracks.knKey
    · rw [routed]
      exact tracks.keyed.processPacket aes _
    · rw [lastIssued_snoc, ← tracks.challenge, ← processPacket_randomB aes routed, routed]
  · refine ⟨by rw [moved]; exact tracks.knKey,
      tracks.keyed.of_eq (by rw [moved]) (by rw [moved]), ?_⟩
    have silent : issued (stepAt (handlePacket aes) stack packet) = none := by
      rcases quiet with data | failed
      · exact issued_of_data data
      · exact issued_of_failed failed
    rw [lastIssued_snoc, silent, Option.none_or, moved]
    exact tracks.challenge

/-- What the authenticating packet does: the peer's half goes into the key and comes back
rotated, under kN. -/
theorem Authenticates.effect (tracks : Tracks knKey past stack) {packet : List UInt8} {a b : Block}
    (auth : Authenticates aes knKey past stack packet a b) :
    stack.handlePacket aes packet =
      ({ stack with ssp := (stack.ssp.received packet).afterProof aes a b },
        .ok (0x03 :: sealPayload aes knKey (stack.ssp.received packet).iv
          (0x02 :: rotateRight a.toList))) := by
  obtain ⟨c, body, rest, rfl, control, encrypted, opens⟩ := auth.answer
  have inForce : stack.ssp.currentEncryptionKey = knKey := by
    rw [tracks.keyed.currentEncryptionKey (by simp [auth.waiting]), tracks.knKey]
  have nonempty : body ≠ [] := by
    rintro rfl
    exact absurd opens.1 (by simp)
  rw [← inForce] at opens
  rw [handlePacket_control aes stack control nonempty, processPacket_authenticated aes control
    encrypted opens auth.waiting (tracks.challenge.trans auth.challenge)]
  simp only [proofReply, received_currentEncryptionKey, inForce]

/-- The only way into a session. -/
theorem enters_iff (tracks : Tracks knKey past stack) (packet : List UInt8) :
    (stack.ssp.state ≠ .inSession ∧ (stack.handlePacket aes packet).1.ssp.state = .inSession) ↔
      ∃ a b, Authenticates aes knKey past stack packet a b := by
  constructor
  · rintro ⟨outside, inside⟩
    rcases handlePacket_ssp aes stack packet with ⟨c, body, rfl, _, routed⟩ | ⟨_, iv, moved⟩
    · rw [routed] at inside
      have step := processPacket_step aes stack.ssp (c :: body)
      generalize stack.ssp.processPacket aes (c :: body) = result at step inside
      cases step with
      | rejected | version | data => exact absurd (by simpa using inside) outside
      | mismatch => cases inside
      | challenged => cases inside
      -- a new key is for a session that is open already
      | rekeyed _ _ already => exact absurd already outside
      | @authenticated _ _ rest a b control encrypted opens waiting stored =>
        rw [tracks.keyed.currentEncryptionKey outside, tracks.knKey] at opens
        exact ⟨a, b, waiting, tracks.challenge.symm.trans stored,
          c, body, rest, rfl, control, encrypted, opens⟩
    · rw [moved] at inside
      exact absurd inside outside
  · rintro ⟨a, b, auth⟩
    rw [auth.effect aes tracks]
    exact ⟨by simp [auth.waiting], rfl⟩

end Steps

section Runs

variable (aes : BlockCipher) (knKey : Block) (random : RandomSource) (key : MobileKey)

/-- Every packet a fresh stack was given, with its answer. -/
def history (packets : List (List UInt8)) : List (PacketStep NoopKeyStore) :=
  trace (handlePacket aes) (fresh knKey random key) packets

def afterPackets (packets : List (List UInt8)) : JustinStack0100 NoopKeyStore :=
  run (handlePacket aes) (fresh knKey random key) packets

theorem tracks_afterPackets (packets : List (List UInt8)) :
    Tracks knKey (history aes knKey random key packets)
      (afterPackets aes knKey random key packets) :=
  history_invariant (Tracks knKey) _ ⟨rfl, keyed_withRandom knKey random, rfl⟩
    (fun _ _ packet tracks => tracks.step aes packet) packets

/-- A session that is open was opened by some packet of the run. -/
theorem inSession_authenticated (packets : List (List UInt8))
    (inside : (afterPackets aes knKey random key packets).ssp.state = .inSession) :
    ∃ front proof back a b, packets = front ++ proof :: back ∧
      Authenticates aes knKey (history aes knKey random key front)
        (afterPackets aes knKey random key front) proof a b := by
  induction packets using List.reverseRecOn with
  | nil => cases inside
  | append_singleton front packet ih =>
    rw [afterPackets, run_snoc] at inside
    -- either the session was open before the last packet, or this packet opened it
    by_cases already : (afterPackets aes knKey random key front).ssp.state = .inSession
    · obtain ⟨front', proof, back, a, b, rfl, auth⟩ := ih already
      exact ⟨front', proof, back ++ [packet], a, b, by simp, auth⟩
    · obtain ⟨a, b, auth⟩ := (enters_iff aes (tracks_afterPackets aes knKey random key front)
        packet).mp ⟨already, inside⟩
      exact ⟨front, packet, [], a, b, rfl, auth⟩

/-- Sound and complete: a packet opens a session exactly when it authenticates, what it then
leaves and answers is fixed, and no command runs as secure before one has. -/
theorem authentication_sound_and_complete (aes : BlockCipher) (knKey : Block)
    (random : RandomSource) (key : MobileKey) (packets : List (List UInt8)) (packet : List UInt8) :
    let past := history aes knKey random key packets
    let stack := afterPackets aes knKey random key packets
    ((stack.ssp.state ≠ .inSession ∧ (stack.handlePacket aes packet).1.ssp.state = .inSession) ↔
      ∃ a b, Authenticates aes knKey past stack packet a b) ∧
    (∀ a b, Authenticates aes knKey past stack packet a b →
      (stack.handlePacket aes packet).1.ssp.sessionKey = some (deriveSessionKey a b) ∧
      ∃ iv : Block, iv.toList = packet.drop (packet.length - 16) ∧
        (stack.handlePacket aes packet).2 =
          .ok (0x03 :: sealPayload aes knKey iv (0x02 :: rotateRight a.toList))) ∧
    (∀ payload, stack.command aes packet = some (payload, true) →
      stack.handlePacket aes packet =
        sealAnswer aes (stack.ssp.received packet) (stack.justin.call payload true) ∧
      ∃ front proof back a b, packets = front ++ proof :: back ∧
        Authenticates aes knKey (history aes knKey random key front)
          (afterPackets aes knKey random key front) proof a b) := by
  intro past stack
  have tracks : Tracks knKey past stack := tracks_afterPackets aes knKey random key packets
  refine ⟨enters_iff aes tracks packet, ?_, ?_⟩
  · intro a b auth
    obtain ⟨c, body, rest, same, control, encrypted, opens⟩ := auth.answer
    rw [auth.effect aes tracks]
    refine ⟨rfl, _, ?_, rfl⟩
    rw [same]
    exact received_iv aes stack.ssp encrypted opens
  · intro payload secure
    exact ⟨handlePacket_secure aes stack secure,
      inSession_authenticated aes knKey random key packets (command_secure aes _ secure)⟩

end Runs

end Mkey.JustinStack0100
