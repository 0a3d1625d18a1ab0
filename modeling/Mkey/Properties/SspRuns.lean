import Mkey.Properties.KeyIntegrity

/-!
# Runs of the SSP layer

Any sequence of calls and resets of one manager. State and fields say the same
thing about the session at every point of a run, and the IV is where the last
ciphertext of either direction left it.
-/
namespace Mkey.SecureProtocolManager

open Control Machine

/-- What a manager can be asked to do: one of its calls, or to forget the session. -/
inductive Operation where
  | call (c : Call)
  | reset

variable (aes : BlockCipher)

/-- An operation with its answer; a reset has none. -/
def perform (s : SecureProtocolManager) :
    Operation → SecureProtocolManager × Option (Except Error (List UInt8))
  | .call c => ((s.answer aes c).1, some (s.answer aes c).2)
  | .reset => (s.reset, none)

/-- An operation of a run, with the states around it. -/
abbrev Taken := Step SecureProtocolManager Operation (Option (Except Error (List UInt8)))

/-! ### The ciphertexts of an operation -/

/-- The ciphertext a packet brings: a body marked as encrypted, of whole blocks. -/
def broughtIn : List UInt8 → List (List UInt8)
  | [] => []
  | c :: body => if isEncrypted c ∧ body ≠ [] ∧ 16 ∣ body.length then [body] else []

/-- The ciphertext a sealed packet sends out. -/
def sentOut : Except Error (List UInt8) → List (List UInt8)
  | .ok (c :: body) => if isEncrypted c then [body] else []
  | _ => []

def brought : Operation → List (List UInt8)
  | .call (.processPacket packet) | .call (.unwrapData packet) => broughtIn packet
  | _ => []

/-- What a data packet or `unwrapData` hands up is plaintext. -/
def sent : Operation → Option (Except Error (List UInt8)) → List (List UInt8)
  | .call (.processPacket packet), some reply =>
    if packet.head?.any isControl then sentOut reply else []
  | .call (.wrapData _), some reply => sentOut reply
  | _, _ => []

/-- The ciphertexts of an operation, in order: the one received, then the one sent. -/
def ciphertexts (operation : Operation) (answer : Option (Except Error (List UInt8))) :
    List (List UInt8) :=
  brought operation ++ sent operation answer

theorem sent_error (c : Call) (e : Error) : sent (.call c) (some (.error e)) = [] := by
  cases c with
  | processPacket packet => exact ite_self _
  | wrapData data => rfl
  | unwrapData packet => rfl

theorem sent_sealed {c : UInt8} (control : isControl c) (body sealed : List UInt8) :
    sent (.call (.processPacket (c :: body))) (some (.ok (0x03 :: sealed))) = [sealed] :=
  if_pos control

theorem sent_version (packet : List UInt8) (major minor : UInt8) :
    sent (.call (.processPacket packet)) (some (.ok [0x01, 0x04, major, minor])) = [] :=
  ite_self _

theorem sent_data {c : UInt8} (data : isControl c = false) (body payload : List UInt8) :
    sent (.call (.processPacket (c :: body))) (some (.ok payload)) = [] :=
  if_neg (by simp [data])

/-- Where a chain stands after some ciphertexts: at the end of the last one. -/
def chain (iv : List UInt8) (ciphertexts : List (List UInt8)) : List UInt8 :=
  match ciphertexts.getLast? with
  | some ciphertext => ciphertext.drop (ciphertext.length - 16)
  | none => iv

@[simp] theorem chain_nil (iv : List UInt8) : chain iv [] = iv := rfl

@[simp] theorem chain_singleton (iv ciphertext : List UInt8) :
    chain iv [ciphertext] = ciphertext.drop (ciphertext.length - 16) := rfl

theorem chain_append (iv : List UInt8) (front back : List (List UInt8)) :
    chain iv (front ++ back) = chain (chain iv front) back := by
  simp only [chain, List.getLast?_append]
  cases back.getLast? <;> rfl

/-- The ciphertexts since the manager was made or last reset. -/
def seen (past : List Taken) : List (List UInt8) :=
  past.foldl (fun sofar step =>
    match step.input with
    | .reset => []
    | .call _ => sofar ++ ciphertexts step.input step.output) []

variable {aes}

/-! ### The IV chain -/

theorem updateIv_end (s : SecureProtocolManager) {ciphertext : List UInt8}
    (long : 16 ≤ ciphertext.length) :
    (s.updateIvFromCiphertext ciphertext).iv.toList =
      ciphertext.drop (ciphertext.length - 16) := by
  rw [updateIvFromCiphertext, dif_pos long, Block.slice]
  exact List.take_of_length_le (by rw [List.length_drop]; omega)

/-- A body moves the IV to its end exactly when it is some whole blocks. -/
theorem advance_chain (s : SecureProtocolManager) (body : List UInt8) :
    (s.advance body).iv.toList =
      chain s.iv.toList (if body ≠ [] ∧ 16 ∣ body.length then [body] else []) := by
  split
  next counted =>
    obtain ⟨nonempty, aligned⟩ := counted
    have long := Nat.le_of_dvd (List.length_pos_iff.mpr nonempty) aligned
    rw [advance_iv s aligned long, chain_singleton]
  next uncounted =>
    rw [advance, chain_nil]
    split
    next aligned =>
      have empty : body = [] := by
        by_contra nonempty
        exact uncounted ⟨nonempty, aligned⟩
      rw [empty]
      rfl
    next => rfl

/-- Reading a packet moves the IV to the end of the ciphertext it brings, if it brings one. -/
theorem received_chain (s : SecureProtocolManager) (packet : List UInt8) :
    (s.received packet).iv.toList = chain s.iv.toList (broughtIn packet) := by
  rcases packet with _ | ⟨c, _ | ⟨b, rest⟩⟩
  · rfl
  · rw [broughtIn, if_neg fun counted => counted.2.1 rfl]
    rfl
  · rw [received, broughtIn]
    by_cases encrypted : isEncrypted c = true
    · rw [if_pos encrypted, advance_chain]
      simp only [encrypted, true_and]
    · rw [if_neg encrypted, if_neg fun counted => encrypted counted.1, chain_nil]

theorem sealed_chain (s : SecureProtocolManager) (key iv : Block) (data : List UInt8) :
    (s.updateIvFromCiphertext (sealPayload aes key iv data)).iv.toList =
      chain s.iv.toList [sealPayload aes key iv data] := by
  rw [updateIv_end s (sealPayload_long aes key iv data).1, chain_singleton]

theorem processPacket_chain (s : SecureProtocolManager) (packet : List UInt8) :
    (s.processPacket aes packet).1.iv.toList = chain s.iv.toList
      (ciphertexts (.call (.processPacket packet)) (some (s.processPacket aes packet).2)) := by
  have step := processPacket_step aes s packet
  have moved := received_chain s packet
  generalize s.processPacket aes packet = result at step
  rw [ciphertexts, brought, chain_append, ← moved]
  cases step with
  -- a refusal sends nothing: the IV is where reading the packet left it
  | rejected => rw [sent_error, chain_nil]
  | mismatch => rw [sent_error, chain_nil]
  -- a sealed answer moves it once more
  | @challenged c args control plain =>
    have untouched : s.received (c :: 0x01 :: args) = s := by simp [received, plain]
    rw [untouched, sent_sealed control, afterChallenge, challengeReply, sealed_chain]
  | authenticated control => rw [sent_sealed control, afterProof, proofReply, sealed_chain]
  | rekeyed control => rw [sent_sealed control, afterRekey, rekeyReply, sealed_chain]
  -- version and data go out in the clear
  | version => rw [sent_version, chain_nil]
  | data notControl => rw [sent_data notControl, chain_nil]

theorem wrapData_chain (s : SecureProtocolManager) (data : List UInt8) :
    (s.wrapData aes data).1.iv.toList = chain s.iv.toList
      (ciphertexts (.call (.wrapData data)) (some (s.wrapData aes data).2)) := by
  by_cases inside : s.state = .inSession
  · rw [wrapData_inSession aes s inside, sealed_chain]
    rfl
  · rw [wrapData, if_pos inside]
    rfl

theorem unwrapData_chain (s : SecureProtocolManager) (packet : List UInt8) :
    (s.unwrapData aes packet).1.iv.toList = chain s.iv.toList
      (ciphertexts (.call (.unwrapData packet)) (some (s.unwrapData aes packet).2)) := by
  have quiet : sent (.call (.unwrapData packet)) (some (s.unwrapData aes packet).2) = [] := rfl
  rw [ciphertexts, quiet, List.append_nil, brought]
  cases packet with
  | nil => rfl
  | cons c body =>
    rw [unwrapData_fst, broughtIn]
    by_cases encrypted : isEncrypted c = true
    · rw [if_pos encrypted, advance_chain]
      simp only [encrypted, true_and]
    · rw [if_neg encrypted, if_neg fun counted => encrypted counted.1, chain_nil]

theorem perform_chain (s : SecureProtocolManager) (c : Call) :
    (s.perform aes (.call c)).1.iv.toList =
      chain s.iv.toList (ciphertexts (.call c) (s.perform aes (.call c)).2) := by
  cases c with
  | processPacket packet => exact processPacket_chain s packet
  | wrapData data => exact wrapData_chain s data
  | unwrapData packet => exact unwrapData_chain s packet

theorem seen_snoc (past : List Taken) (s : SecureProtocolManager) (c : Call) :
    seen (past ++ [stepAt (perform aes) s (.call c)]) =
      seen past ++ ciphertexts (.call c) (s.perform aes (.call c)).2 := by
  rw [seen, List.foldl_append]
  rfl

theorem seen_reset (past : List Taken) (s : SecureProtocolManager) :
    seen (past ++ [stepAt (perform aes) s .reset]) = [] := by
  rw [seen, List.foldl_append]
  rfl

/-- The IV of a manager stands at the end of the last ciphertext of either direction since it was
made or reset, at zeros before the first one, and an operation without a ciphertext leaves it. -/
theorem iv_follows_ciphertexts (aes : BlockCipher) (knKey : Block) (random : RandomSource)
    (operations : List Operation) :
    (run (perform aes) (withRandom knKey random) operations).iv.toList =
      chain (List.replicate 16 0)
        (seen (trace (perform aes) (withRandom knKey random) operations)) ∧
    ∀ step ∈ trace (perform aes) (withRandom knKey random) operations,
      step.input ≠ .reset → ciphertexts step.input step.output = [] →
        step.after.iv = step.before.iv := by
  constructor
  · apply history_invariant (fun past s => s.iv.toList = chain (List.replicate 16 0) (seen past))
    · rfl
    · intro past s operation stands
      cases operation with
      | call c => rw [seen_snoc, chain_append, ← stands, ← perform_chain]
      | reset =>
        rw [seen_reset]
        rfl
  · refine forall_trace (fun _ => True) (fun _ _ _ => trivial)
      (fun step : Taken => step.input ≠ .reset → ciphertexts step.input step.output = [] →
        step.after.iv = step.before.iv) ?_ _ trivial _
    intro s operation _ called nothing
    cases operation with
    | reset => exact absurd rfl called
    | call c =>
      have moved := @perform_chain aes s c
      change ciphertexts (.call c) (s.perform aes (.call c)).2 = [] at nothing
      rw [nothing, chain_nil] at moved
      exact Chunk.ext moved

/-! ### State and fields -/

/-- The fields of a session say what the state says. -/
structure FieldsAgree (s : SecureProtocolManager) : Prop where
  keyed : Keyed s
  proven : s.state = .inSession ↔ s.randomA.isSome
  challenged : s.state = .authStep1 ∨ s.state = .inSession → s.randomB.isSome

theorem fieldsAgree_withRandom (knKey : Block) (random : RandomSource) :
    FieldsAgree (withRandom knKey random) :=
  ⟨keyed_withRandom knKey random, by simp [withRandom], by simp [withRandom]⟩

/-- Moving the IV keeps the agreement. -/
theorem FieldsAgree.of_eq {s t : SecureProtocolManager} (agree : FieldsAgree s)
    (state : t.state = s.state) (key : t.sessionKey = s.sessionKey)
    (randomA : t.randomA = s.randomA) (randomB : t.randomB = s.randomB) : FieldsAgree t := by
  refine ⟨agree.keyed.of_eq state key, ?_, ?_⟩
  · rw [state, randomA]
    exact agree.proven
  · rw [state, randomB]
    exact agree.challenged

theorem FieldsAgree.processPacket {s : SecureProtocolManager} (agree : FieldsAgree s)
    (packet : List UInt8) : FieldsAgree (s.processPacket aes packet).1 := by
  have keyed := agree.keyed.processPacket aes packet
  have step := processPacket_step aes s packet
  generalize s.processPacket aes packet = result at step keyed
  refine ⟨keyed, ?_, ?_⟩
  · cases step with
    | rejected | version | data => simpa using agree.proven
    -- outside a session RandomA is not there, and neither step puts it there
    | mismatch _ _ _ waiting => simpa [waiting] using agree.proven
    | challenged _ _ ready => simpa [afterChallenge, ready] using agree.proven
    | authenticated => simp [afterProof]
    | rekeyed => simpa [afterRekey] using agree.proven
  · cases step with
    | rejected | version | data => simpa using agree.challenged
    | mismatch => simp
    | challenged => simp [afterChallenge]
    | authenticated _ _ _ _ stored => simp [afterProof, stored]
    | rekeyed => simpa [afterRekey] using agree.challenged

/-- Outside of the control packets, a call moves the IV at most. -/
theorem dataCall_cases (aes : BlockCipher) (s : SecureProtocolManager) {c : Call}
    (data : ∀ packet, c ≠ .processPacket packet) :
    (s.answer aes c).1 = s ∨ ∃ body, (s.answer aes c).1 = s.updateIvFromCiphertext body := by
  cases c with
  | processPacket packet => exact absurd rfl (data packet)
  | wrapData data =>
    rw [answer, wrapData]
    split
    · exact .inl rfl
    · exact .inr ⟨_, rfl⟩
  | unwrapData packet =>
    cases packet with
    | nil => exact .inl rfl
    | cons c body =>
      rw [answer, unwrapData_fst]
      split
      · rw [advance]
        split
        · exact .inr ⟨_, rfl⟩
        · exact .inl rfl
      · exact .inl rfl

theorem FieldsAgree.perform {s : SecureProtocolManager} (agree : FieldsAgree s)
    (operation : Operation) : FieldsAgree (s.perform aes operation).1 := by
  cases operation with
  | reset =>
    change FieldsAgree s.reset
    exact ⟨by simp [Keyed, reset], by simp [reset], by simp [reset]⟩
  | call c =>
    change FieldsAgree (s.answer aes c).1
    by_cases control : ∃ packet, c = .processPacket packet
    · obtain ⟨packet, rfl⟩ := control
      exact agree.processPacket packet
    · rcases dataCall_cases aes s (not_exists.mp control) with same | ⟨body, moved⟩
      · rw [same]
        exact agree
      · rw [moved]
        exact agree.of_eq (by simp) (by simp) (by simp) (by simp)

/-! ### The error that says RandomB is gone -/

def randomBMissing : Error := .invalidState "RandomB stored" "RandomB not found"

theorem decryptPayload_ne_missing (s : SecureProtocolManager) (body : List UInt8) :
    (s.decryptPayload aes body).2 ≠ .error randomBMissing := by
  rw [decryptPayload]
  split
  · simp [randomBMissing]
  next good =>
    have aligned : 16 ∣ body.length := by
      by_contra ragged
      exact good (.inr ragged)
    rw [decryptAesCbc, if_pos aligned]
    dsimp only
    split
    next e unpadded =>
      rw [removePadding_error unpadded]
      simp [randomBMissing]
    next =>
      split_ifs
      · simp [randomBMissing]
      · simp [randomBMissing]
      · simp

/-- Only an OpenSessionStep2 met in AUTH_STEP_1 without a RandomB is told so. -/
theorem processControlPacket_missing {s : SecureProtocolManager} {payload : List UInt8}
    {encrypted : Bool}
    (missing : (s.processControlPacket aes payload encrypted).2 = .error randomBMissing) :
    s.state = .authStep1 ∧ s.randomB = none := by
  unfold processControlPacket at missing
  split at missing
  · simp [randomBMissing] at missing
  next byte rest =>
    rw [OpCode.tryFrom] at missing
    split_ifs at missing
    · simp [randomBMissing] at missing
    · dsimp only [handleOpenSessionStep1] at missing
      split_ifs at missing
      · simp [randomBMissing] at missing
      · simp [randomBMissing] at missing
      · cases missing
    · dsimp only [handleOpenSessionStep2] at missing
      split_ifs at missing with encrypted wrong short
      · simp [randomBMissing] at missing
      · simp [randomBMissing] at missing
      · -- the one place the error is raised
        refine ⟨not_not.mp wrong, ?_⟩
        split at missing
        next absent => exact absent
        next =>
          split_ifs at missing
          · cases missing
          · cases missing
      · simp [randomBMissing] at missing
    · dsimp only [handleSetKeyValue] at missing
      split_ifs at missing
      · simp [randomBMissing] at missing
      · simp [randomBMissing] at missing
      · cases missing
    · cases missing
    · simp [randomBMissing] at missing

theorem processPacket_missing {s : SecureProtocolManager} {packet : List UInt8}
    (missing : (s.processPacket aes packet).2 = .error randomBMissing) :
    s.state = .authStep1 ∧ s.randomB = none := by
  rcases packet with _ | ⟨c, _ | ⟨b, rest⟩⟩
  · simp [processPacket, randomBMissing] at missing
  · simp [processPacket, randomBMissing] at missing
  · by_cases meaning : ∃ payload, s.Carries aes c (b :: rest) payload
    · obtain ⟨payload, carries⟩ := meaning
      rw [processPacket_carries aes s carries (by simp)] at missing
      split at missing
      · have found := processControlPacket_missing missing
        rwa [received_state, received_randomB] at found
      · rw [processDataPacket] at missing
        split_ifs at missing
        simp [randomBMissing] at missing
    · have encrypted : isEncrypted c = true := by
        by_contra plain
        exact meaning ⟨b :: rest, carries_of_plain (by simpa using plain)⟩
      rcases s.decryptPayload_cases aes (b :: rest) with ⟨e, failed, _⟩ | ⟨data, _, opens⟩
      · have refused : (s.processPacket aes (c :: b :: rest)).2 = .error e := by
          simp [processPacket, encrypted, failed]
        have unread := @decryptPayload_ne_missing aes s (b :: rest)
        rw [failed, ← refused] at unread
        exact absurd missing unread
      · exact absurd ⟨data, carries_of_opens encrypted opens⟩ meaning

theorem perform_ne_missing {s : SecureProtocolManager} (agree : FieldsAgree s)
    (operation : Operation) :
    (s.perform aes operation).2 ≠ some (.error randomBMissing) := by
  intro missing
  cases operation with
  | reset => cases missing
  | call c =>
    have answered : (s.answer aes c).2 = .error randomBMissing := Option.some.inj missing
    cases c with
    | processPacket packet =>
      -- a manager that waits for the second step has kept its challenge
      obtain ⟨waiting, none⟩ := processPacket_missing answered
      have kept := agree.challenged (.inl waiting)
      rw [none] at kept
      cases kept
    | wrapData data =>
      rw [answer, wrapData] at answered
      split_ifs at answered
      · simp [randomBMissing] at answered
      · cases answered
    | unwrapData packet =>
      cases packet with
      | nil => simp [answer, unwrapData, randomBMissing] at answered
      | cons c body =>
        rw [answer, unwrapData] at answered
        split_ifs at answered
        · exact decryptPayload_ne_missing s body answered
        · simp [randomBMissing] at answered

/-! ### One operation of a run -/

variable (aes) in
/-- What an operation has to send: the data it is given, or the reply to a control packet. -/
inductive Owes (s : SecureProtocolManager) : Operation → List UInt8 → Prop
  | wrapped (data : List UInt8) : Owes s (.call (.wrapData data)) data
  | challenge {c : UInt8} {body : List UInt8} : s.state = .ready →
      Owes s (.call (.processPacket (c :: body))) (0x01 :: s.nextChallenge.toList)
  | proof {c : UInt8} {body rest : List UInt8} {a : Block} : s.state = .authStep1 →
      Opens aes s.currentEncryptionKey s.iv body (0x02 :: (a.toList ++ rest)) →
      Owes s (.call (.processPacket (c :: body))) (0x02 :: rotateRight a.toList)
  | rekeyed {c : UInt8} {body : List UInt8} : s.state = .inSession →
      Owes s (.call (.processPacket (c :: body))) [0x03]

/-- The IV an operation seals under: where the packet it takes has left the chain. -/
def sealingIv (s : SecureProtocolManager) : Operation → Block
  | .call (.processPacket packet) => (s.received packet).iv
  | _ => s.iv

variable (aes) in
/-- What an operation may do to a session, and what it seals under which key. -/
structure SessionStep (knKey : Block) (s : SecureProtocolManager) (operation : Operation)
    (result : SecureProtocolManager × Option (Except Error (List UInt8))) : Prop where
  left : s.state = .inSession → result.1.state ≠ .inSession → operation = .reset
  entered : s.state ≠ .inSession → result.1.state = .inSession → s.state = .authStep1
  stored : result.2 ≠ some (.error (.invalidState "RandomB stored" "RandomB not found"))
  outside : s.state ≠ .inSession → ∀ ciphertext ∈ sent operation result.2,
    ∃ data, Owes aes s operation data ∧
      ciphertext = sealPayload aes knKey (s.sealingIv operation) data
  inside : s.state = .inSession → ∀ ciphertext ∈ sent operation result.2,
    ∃ key data, result.1.sessionKey = some key ∧ Owes aes s operation data ∧
      ciphertext = sealPayload aes key (s.sealingIv operation) data

/-- An operation that sends nothing and leaves the state alone does nothing to the session. -/
theorem SessionStep.quiet {knKey : Block} {s : SecureProtocolManager} {operation : Operation}
    {result : SecureProtocolManager × Option (Except Error (List UInt8))}
    (stored : result.2 ≠ some (.error randomBMissing)) (state : result.1.state = s.state)
    (nothing : sent operation result.2 = []) : SessionStep aes knKey s operation result := by
  refine ⟨?_, ?_, stored, ?_, ?_⟩
  · intro inside outside
    exact absurd (state.trans inside) outside
  · intro outside inside
    exact absurd (state.symm.trans inside) outside
  · simp [nothing]
  · simp [nothing]

/-- Inside a session the key in force is the session key. -/
theorem Keyed.sessionKey {s : SecureProtocolManager} (keyed : Keyed s)
    (inside : s.state = .inSession) : s.sessionKey = some s.currentEncryptionKey := by
  obtain ⟨key, held⟩ := keyed.key inside
  rw [SecureProtocolManager.currentEncryptionKey, held, Option.getD_some]

theorem processPacket_sessionStep {s : SecureProtocolManager} (agree : FieldsAgree s)
    (packet : List UInt8) :
    SessionStep aes s.knKey s (.call (.processPacket packet))
      (s.perform aes (.call (.processPacket packet))) := by
  have stored := @perform_ne_missing aes s agree (.call (.processPacket packet))
  have step := processPacket_step aes s packet
  change SessionStep aes s.knKey s _
    ((s.processPacket aes packet).1, some (s.processPacket aes packet).2)
  change some (s.processPacket aes packet).2 ≠ _ at stored
  generalize s.processPacket aes packet = result at step stored
  cases step with
  | rejected => exact .quiet stored (received_state s packet) (sent_error _ _)
  | version => exact .quiet stored (received_state s _) (sent_version _ _ _)
  | data notControl => exact .quiet stored (received_state s _) (sent_data notControl _ _)
  | mismatch _ _ _ waiting =>
    refine ⟨?_, ?_, stored, ?_, ?_⟩
    · simp [waiting]
    · simp
    · simp [sent_error]
    · simp [sent_error]
  | challenged control plain ready =>
    refine ⟨?_, ?_, stored, ?_, ?_⟩
    · simp [ready]
    · simp [afterChallenge]
    · intro outside ciphertext emitted
      rw [sent_sealed control, List.mem_singleton] at emitted
      rw [emitted, challengeReply, agree.keyed.currentEncryptionKey outside]
      refine ⟨_, .challenge ready, ?_⟩
      -- a request in the clear leaves the chain where it is
      rw [sealingIv, received, if_neg (by simp [plain])]
    · simp [ready]
  | authenticated control _ opens waiting =>
    refine ⟨?_, ?_, stored, ?_, ?_⟩
    · simp [waiting]
    · exact fun _ _ => waiting
    · intro outside ciphertext emitted
      rw [sent_sealed control, List.mem_singleton] at emitted
      rw [emitted, proofReply, received_currentEncryptionKey,
        agree.keyed.currentEncryptionKey outside]
      exact ⟨_, .proof waiting opens, rfl⟩
    · simp [waiting]
  | rekeyed control _ inside =>
    refine ⟨?_, ?_, stored, ?_, ?_⟩
    · simp [afterRekey, inside]
    · simp [inside]
    · simp [inside]
    · intro _ ciphertext emitted
      rw [sent_sealed control, List.mem_singleton] at emitted
      rw [emitted, rekeyReply]
      exact ⟨_, _, by simp [afterRekey], .rekeyed inside, rfl⟩

theorem perform_sessionStep {s : SecureProtocolManager} (agree : FieldsAgree s)
    (operation : Operation) :
    SessionStep aes s.knKey s operation (s.perform aes operation) := by
  have stored := @perform_ne_missing aes s agree operation
  cases operation with
  | reset => exact ⟨fun _ _ => rfl, by simp [perform, reset], stored, by simp [sent], by
      simp [perform, sent]⟩
  | call c =>
    cases c with
    | processPacket packet => exact processPacket_sessionStep agree packet
    | wrapData data =>
      by_cases inside : s.state = .inSession
      · have wrapped : s.perform aes (.call (.wrapData data)) =
            (s.updateIvFromCiphertext (sealPayload aes s.currentEncryptionKey s.iv data),
              some (.ok (0x02 :: sealPayload aes s.currentEncryptionKey s.iv data))) := by
          rw [perform, answer, wrapData_inSession aes s inside]
        rw [wrapped] at stored ⊢
        refine ⟨?_, ?_, stored, ?_, ?_⟩
        · simp [inside]
        · simp [inside]
        · simp [inside]
        · intro _ ciphertext emitted
          have only : ciphertext = sealPayload aes s.currentEncryptionKey s.iv data :=
            List.mem_singleton.mp emitted
          exact ⟨_, _, by rw [updateIv_sessionKey, agree.keyed.sessionKey inside], .wrapped data,
            only⟩
      · have refused : s.perform aes (.call (.wrapData data)) =
            (s, some (.error (.invalidState "IN_SESSION" s.state.toString))) := by
          rw [perform, answer, wrapData, if_pos inside]
        rw [refused] at stored ⊢
        exact .quiet stored rfl (sent_error _ _)
    | unwrapData packet =>
      apply SessionStep.quiet stored _ rfl
      change (s.answer aes (.unwrapData packet)).1.state = s.state
      rcases dataCall_cases aes s (c := .unwrapData packet) (by simp) with same | ⟨body, moved⟩
      · rw [same]
      · rw [moved, updateIv_state]

theorem perform_knKey (s : SecureProtocolManager) (operation : Operation) :
    (s.perform aes operation).1.knKey = s.knKey := by
  cases operation with
  | reset => rfl
  | call c =>
    by_cases control : ∃ packet, c = .processPacket packet
    · obtain ⟨packet, rfl⟩ := control
      exact processPacket_knKey aes s packet
    · change (s.answer aes c).1.knKey = s.knKey
      rcases dataCall_cases aes s (not_exists.mp control) with same | ⟨body, moved⟩
      · rw [same]
      · rw [moved, updateIv_knKey]

/-- Over any run of calls and resets the state and the fields of a session agree, kN seals what
is sent outside a session and the session key what is sent inside, a session is entered from
AUTH_STEP_1 and left by a reset only, and no call finds RandomB missing. -/
theorem state_and_fields_agree (aes : BlockCipher) (knKey : Block) (random : RandomSource)
    (operations : List Operation) :
    FieldsAgree (run (perform aes) (withRandom knKey random) operations) ∧
    ((run (perform aes) (withRandom knKey random) operations).state ≠ .inSession →
      (run (perform aes) (withRandom knKey random) operations).currentEncryptionKey = knKey) ∧
    ((run (perform aes) (withRandom knKey random) operations).state = .inSession →
      (run (perform aes) (withRandom knKey random) operations).sessionKey =
        some (run (perform aes) (withRandom knKey random) operations).currentEncryptionKey) ∧
    ∀ operation, SessionStep aes knKey (run (perform aes) (withRandom knKey random) operations)
      operation
      ((run (perform aes) (withRandom knKey random) operations).perform aes operation) := by
  have agree : FieldsAgree (run (perform aes) (withRandom knKey random) operations) :=
    run_invariant FieldsAgree (fun _ operation agree => agree.perform operation) _
      (fieldsAgree_withRandom knKey random) operations
  have kept : (run (perform aes) (withRandom knKey random) operations).knKey = knKey :=
    run_invariant (fun s => s.knKey = knKey)
      (fun s operation same => (perform_knKey s operation).trans same) _ rfl operations
  generalize run (perform aes) (withRandom knKey random) operations = s at agree kept
  subst kept
  exact ⟨agree, agree.keyed.currentEncryptionKey, agree.keyed.sessionKey,
    perform_sessionStep agree⟩

end Mkey.SecureProtocolManager
