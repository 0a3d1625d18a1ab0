import Mkey.Core.StackSteps
import Mkey.Lib.Machine

/-!
# What a peer in the clear can learn

Two stacks that differ only in kN and in the values of secured tags answer
every run of unencrypted data packets alike, and go on differing in those
secrets only. The command layer sees no kN and no secured value on that path,
because the secure flag is down for the command and back up afterwards.
-/
namespace Mkey

/-- Readable by anyone, in the clear. -/
def Permissions.Public (p : Permissions) : Prop :=
  p.contains .readable ∧ p.contains .readWithoutSecurity

/-- Two tags that differ in a secured value at most. -/
structure GeneralPurposeTag.LowEq (t u : GeneralPurposeTag) : Prop where
  tagId : t.tagId = u.tagId
  permissions : t.permissions = u.permissions
  value : t.permissions.Public → t.value = u.value

/-- Two keys that differ in kN and in secured values at most. -/
structure MobileKey.LowEq (a b : MobileKey) : Prop where
  tag0 : a.tag0 = b.tag0
  tag1 : a.tag1 = b.tag1
  tags : ∀ id, Option.Rel GeneralPurposeTag.LowEq (a.tags id) (b.tags id)

theorem GeneralPurposeTag.LowEq.refl (t : GeneralPurposeTag) : t.LowEq t := ⟨rfl, rfl, fun _ => rfl⟩

namespace MobileKey

theorem LowEq.refl (key : MobileKey) : key.LowEq key := by
  refine ⟨rfl, rfl, ?_⟩
  intro id
  cases key.tags id with
  | none => exact .none
  | some tag => exact .some (.refl tag)

/-- A value is written to both keys: they agree on it even where they differed before. -/
theorem LowEq.setTagData {a b : MobileKey} (low : a.LowEq b) (id : UInt8) (data : List UInt8) :
    (a.setTagData id data).LowEq (b.setTagData id data) := by
  refine ⟨by simp [low.tag0], by simp [low.tag1], ?_⟩
  intro other
  have related := low.tags id
  unfold MobileKey.setTagData
  by_cases here : other = id
  · subst here
    cases left : a.tags other with
    | none =>
      cases right : b.tags other with
      | none => simp [GeneralPurposeTag.LowEq.refl]
      | some tag => simp [left, right] at related
    | some tag =>
      cases right : b.tags other with
      | none => simp [left, right] at related
      | some tag' =>
        rw [left, right, Option.rel_some_some] at related
        simp only [Tags.insert_self, Option.rel_some_some]
        -- the old values are gone on both sides, secured or not
        exact ⟨related.tagId, related.permissions, fun _ => rfl⟩
  · have elsewhere := low.tags other
    split <;> split <;> simpa [Tags.insert_of_ne _ _ here] using elsewhere

/-- Apart from kN, a tag is found in both keys or in neither, and a public one reads the same. -/
theorem LowEq.getTag {a b : MobileKey} (low : a.LowEq b) {id : UInt8} (other : id ≠ tagKnKey) :
    Option.Rel (fun t u : TagData => t.permissions = u.permissions ∧
      (isLegacyTag id ∨ t.permissions.Public → t.data = u.data)) (a.getTag id) (b.getTag id) := by
  unfold MobileKey.getTag
  split_ifs with h0 h1 h2
  · exact .some ⟨rfl, fun _ => low.tag0⟩
  · exact .some ⟨rfl, fun _ => low.tag1⟩
  · exact absurd h2 other
  · have modern : isLegacyTag id = false := by
      rw [isLegacyTag_false, ← UInt8.not_le]
      intro legacy
      rw [UInt8.le_iff_toNat_le] at legacy
      simp only [← UInt8.toNat_inj] at h0 h1 h2
      simp at h0 h1 h2 legacy
      omega
    have found := low.tags id
    generalize a.tags id = left, b.tags id = right at found
    cases found with
    | none => exact .none
    | some related =>
      refine .some ⟨related.permissions, fun readable => related.value ?_⟩
      simpa [modern] using readable

end MobileKey

namespace JustinProtocolManager

variable {S : Type}

/-- Command layers that differ in the secrets of their keys at most. -/
structure LowEq (j k : JustinProtocolManager S) : Prop where
  others : k = { j with currentKey := k.currentKey }
  key : Option.Rel MobileKey.LowEq j.currentKey k.currentKey

/-- Two answers a peer cannot tell apart, now or later. -/
def Agree (x y : Answer S) : Prop := x.2 = y.2 ∧ LowEq x.1 y.1

section Handlers

variable (j : JustinProtocolManager S) {key key' : Option MobileKey}

theorem agree_same (related : Option.Rel MobileKey.LowEq key key') (reply : List UInt8) :
    Agree ({ j with currentKey := key }, reply) ({ j with currentKey := key' }, reply) :=
  ⟨rfl, rfl, related⟩

theorem handleOpen_agree [MobileKeyStore S] (related : Option.Rel MobileKey.LowEq key key')
    (payload : List UInt8) :
    Agree (handleOpen { j with currentKey := key } payload)
      (handleOpen { j with currentKey := key' } payload) := by
  unfold handleOpen
  dsimp only
  split_ifs
  · exact agree_same j related _
  · exact agree_same j related _
  · cases MobileKeyStore.getKey j.keyStore (computeKeyIdentifier (payload.take 8)) with
    | none => exact agree_same j related _
    | some key => exact ⟨rfl, rfl, .some (.refl key)⟩

theorem handleClose_agree (related : Option.Rel MobileKey.LowEq key key') (payload : List UInt8) :
    Agree (handleClose { j with currentKey := key } payload)
      (handleClose { j with currentKey := key' } payload) := by
  unfold handleClose
  dsimp only
  split_ifs
  · exact agree_same j related _
  · exact agree_same { j with state := .ready } related _

/-- In the clear, what may be read is public. -/
theorem canReadTag_clear (clear : j.secureSession = false) {id : UInt8} {permissions : Permissions}
    (readable : j.canReadTag id permissions) : isLegacyTag id ∨ permissions.Public := by
  rw [canReadTag] at readable
  rw [Permissions.Public]
  split_ifs at readable <;> simp_all

theorem handleReadTag_agree (clear : j.secureSession = false)
    (related : Option.Rel MobileKey.LowEq key key') (payload : List UInt8) :
    Agree (handleReadTag { j with currentKey := key } payload)
      (handleReadTag { j with currentKey := key' } payload) := by
  unfold handleReadTag
  dsimp only
  split
  · exact agree_same j related _
  cases payload with
  | nil => exact agree_same j related _
  | cons id rest =>
    cases related with
    | none => exact agree_same j .none _
    | @some a b low =>
      dsimp only
      -- kN is refused before the key is compared, so the two values never meet
      by_cases kn : id = tagKnKey
      · subst kn
        have refused (key : Option MobileKey) :
            refusesKnKey { j with currentKey := key } tagKnKey = true := by
          simp [refusesKnKey, clear]
        simp only [MobileKey.getTag, refused]
        exact agree_same { j with knReadRefusals := j.knReadRefusals + 1 } (.some low) _
      · have asked (key : Option MobileKey) :
            refusesKnKey { j with currentKey := key } id = false := by
          simp [refusesKnKey, kn]
        have found := low.getTag kn
        generalize a.getTag id = left, b.getTag id = right at found
        cases found with
        | none => exact agree_same j (.some low) _
        | @some t u found =>
          obtain ⟨permissions, data⟩ := found
          -- the checks look at the permissions alone, on which the keys agree
          have may (key : Option MobileKey) : canReadTag { j with currentKey := key } id
              t.permissions = j.canReadTag id t.permissions := rfl
          simp only [asked, ← permissions, may, Bool.false_eq_true, if_false]
          cases readable : j.canReadTag id t.permissions with
          | false =>
            simp only [Bool.not_false, if_true]
            split <;> exact agree_same j (.some low) _
          | true =>
            -- what may be read in the clear is public, and public values agree
            rw [data (canReadTag_clear j clear readable)]
            exact agree_same j (.some low) _

theorem handleWriteTag_agree (related : Option.Rel MobileKey.LowEq key key')
    (payload : List UInt8) :
    Agree (handleWriteTag { j with currentKey := key } payload)
      (handleWriteTag { j with currentKey := key' } payload) := by
  unfold handleWriteTag
  dsimp only
  split
  · exact agree_same j related _
  split
  · exact agree_same j related _
  · exact agree_same j related _
  next id first more =>
    split
    · exact agree_same j related _
    next modern =>
      -- kN is a legacy tag, which was turned away just above
      have other : id ≠ tagKnKey := by
        rintro rfl
        exact modern rfl
      cases related with
      | none => exact agree_same j .none _
      | @some a b low =>
        dsimp only
        have found := low.getTag other
        generalize a.getTag id = left, b.getTag id = right at found
        cases found with
        | none => exact agree_same j (.some low) _
        | @some t u found =>
          have may (key : Option MobileKey) : canWriteTag { j with currentKey := key } id
              t.permissions = j.canWriteTag id t.permissions := rfl
          simp only [← found.1, may]
          have written := Option.Rel.some (low.setTagData id (first :: more))
          split
          · split <;> exact agree_same j (.some low) _
          · split
            · exact agree_same { j with lastAuditOpResult := some first } written _
            · exact agree_same j written _

end Handlers

variable [MobileKeyStore S]

/-- A command in the clear is answered alike, and leaves the same differences. -/
theorem call_lowEq {j k : JustinProtocolManager S} (low : LowEq j k) (payload : List UInt8) :
    (j.call payload false).2 = (k.call payload false).2 ∧
      LowEq (j.call payload false).1 (k.call payload false).1 := by
  obtain ⟨others, related⟩ := low
  rw [others]
  generalize k.currentKey = key' at related
  -- the flag is put back to one and the same value on both sides
  have restore {x y : Answer S} (agree : Agree x y) :
      LowEq (x.1.setSecureSession j.secureSession) (y.1.setSecureSession j.secureSession) := by
    obtain ⟨_, others, related⟩ := agree
    refine ⟨?_, related⟩
    rw [others]
    rfl
  have settled {x y : Answer S} (agree : Agree x y) :
      (Except.ok x.2 : Except Error (List UInt8)) = .ok y.2 ∧
        LowEq (x.1.setSecureSession j.secureSession) (y.1.setSecureSession j.secureSession) :=
    ⟨congrArg _ agree.1, restore agree⟩
  have lowered : (j.setSecureSession false).secureSession = false := rfl
  cases payload with
  | nil => exact ⟨rfl, rfl, related⟩
  | cons opcode args =>
    unfold call processCommand CommandOpCode.tryFrom
    dsimp only
    split_ifs
    · exact settled (handleOpen_agree (j.setSecureSession false) related args)
    · exact settled (handleClose_agree (j.setSecureSession false) related args)
    · exact settled (handleReadTag_agree (j.setSecureSession false) lowered related args)
    · exact settled (handleWriteTag_agree (j.setSecureSession false) related args)
    · exact ⟨rfl, rfl, related⟩

end JustinProtocolManager

namespace JustinStack0100

open Control Machine

variable {S : Type} [MobileKeyStore S]

/-- Stacks that differ in kN and in secured values at most, in any state. -/
structure LowEq (s t : JustinStack0100 S) : Prop where
  ssp : t.ssp = { s.ssp with knKey := t.ssp.knKey }
  justin : s.justin.LowEq t.justin

/-- A data packet in the clear: neither flag is set. -/
def InTheClear (packet : List UInt8) : Prop :=
  ∀ c ∈ packet.head?, isControl c = false ∧ isEncrypted c = false

theorem handlePacket_lowEq (aes : BlockCipher) {s t : JustinStack0100 S} (low : LowEq s t)
    {packet : List UInt8} (clear : InTheClear packet) :
    (s.handlePacket aes packet).2 = (t.handlePacket aes packet).2 ∧
      LowEq (s.handlePacket aes packet).1 (t.handlePacket aes packet).1 := by
  unfold handlePacket
  split
  · exact ⟨rfl, low⟩
  · exact ⟨rfl, low⟩
  next c first rest =>
    obtain ⟨data, plain⟩ := clear c rfl
    obtain ⟨same, kept⟩ := JustinProtocolManager.call_lowEq low.justin (first :: rest)
    simp only [data, plain, Bool.false_eq_true, if_false, processJustin_eq]
    generalize s.justin.call (first :: rest) false = x, t.justin.call (first :: rest) false = y
      at same kept
    obtain ⟨j, answer⟩ := x
    obtain ⟨k, answer'⟩ := y
    obtain rfl : answer = answer' := same
    cases answer with
    | error e => exact ⟨rfl, low.ssp, kept⟩
    | ok reply => exact ⟨rfl, low.ssp, kept⟩

/-- Runs in the clear answer alike from any two stacks that differ in secrets only. -/
theorem plaintext_noninterference (aes : BlockCipher) (s t : JustinStack0100 S) (low : LowEq s t)
    (packets : List (List UInt8)) (clear : ∀ packet ∈ packets, InTheClear packet) :
    outputs (handlePacket aes) s packets = outputs (handlePacket aes) t packets ∧
      LowEq (run (handlePacket aes) s packets) (run (handlePacket aes) t packets) := by
  refine related_runs LowEq InTheClear ?_ s t low packets clear
  intro s t packet low clear
  exact handlePacket_lowEq aes low clear

/-- A stack in the middle of a session, whose kN and secured tag 0x05 hold one secret byte. -/
def keeping (secret : UInt8) : JustinStack0100 NoopKeyStore :=
  ⟨{ SecureProtocolManager.withRandom (Block.replicate secret) ⟨fun _ => Block.replicate 0, 0⟩ with
      state := .inSession, sessionKey := some (Block.replicate 0x33) },
    .newWithKey ⟨[0x01], [0x02], Block.replicate secret, fun id =>
      if id = 0x05 then some ⟨0x05, .readable, [secret]⟩ else none⟩⟩

theorem keeping_lowEq (secret other : UInt8) : LowEq (keeping secret) (keeping other) := by
  refine ⟨rfl, rfl, .some ⟨rfl, rfl, ?_⟩⟩
  intro id
  by_cases here : id = 0x05
  · simp only [here, if_true]
    have secured : ¬Permissions.readable.Public := fun readable => absurd readable.2 (by decide)
    exact .some ⟨rfl, rfl, fun readable => absurd readable secured⟩
  · simp only [here, if_false]
    exact .none

theorem plaintext_noninterference_reads :
    outputs (handlePacket aes128) (keeping 0xA1) [[0x00, 0x02, 0x02], [0x00, 0x02, 0x05]] =
        outputs (handlePacket aes128) (keeping 0xB2) [[0x00, 0x02, 0x02], [0x00, 0x02, 0x05]] ∧
      LowEq (run (handlePacket aes128) (keeping 0xA1) [[0x00, 0x02, 0x02], [0x00, 0x02, 0x05]])
        (run (handlePacket aes128) (keeping 0xB2) [[0x00, 0x02, 0x02], [0x00, 0x02, 0x05]]) :=
  plaintext_noninterference aes128 _ _ (keeping_lowEq 0xA1 0xB2) _
    (by simp [InTheClear, isControl, isEncrypted])

end JustinStack0100

end Mkey
