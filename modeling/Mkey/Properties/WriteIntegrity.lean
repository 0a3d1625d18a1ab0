import Mkey.Core.StackSteps
import Mkey.Lib.Machine

/-!
# What packets can change in the key

With a key loaded beforehand the only thing a lock can move is the value of a
tag that exists, by a WRITE_TAG it was entitled to. Everything else about the
key stays as loaded, over any run.
-/
namespace Mkey

/-- Two keys that differ in the values of tags at most. -/
structure SameShape (loaded key : MobileKey) : Prop where
  tag0 : key.tag0 = loaded.tag0
  tag1 : key.tag1 = loaded.tag1
  knKey : key.knKey = loaded.knKey
  tags : ∀ id, (key.tags id).map (fun tag => (tag.tagId, tag.permissions)) =
    (loaded.tags id).map fun tag => (tag.tagId, tag.permissions)

theorem SameShape.refl (key : MobileKey) : SameShape key key := ⟨rfl, rfl, rfl, fun _ => rfl⟩

theorem SameShape.setTagData {loaded key : MobileKey} (same : SameShape loaded key) {id : UInt8}
    {tag : GeneralPurposeTag} (present : key.tags id = some tag) (data : List UInt8) :
    SameShape loaded (key.setTagData id data) := by
  refine ⟨by simp [same.tag0], by simp [same.tag1], by simp [same.knKey], ?_⟩
  intro other
  rw [MobileKey.setTagData_tags key present, ← same.tags other]
  by_cases here : other = id
  · rw [here, Tags.insert_self, present, Option.map_some, Option.map_some]
  · rw [Tags.insert_of_ne _ _ here]

namespace JustinStack0100

open Machine

section Steps

variable {S : Type} [MobileKeyStore S] (aes : BlockCipher) (stack : JustinStack0100 S)

/-- The packet is a WRITE_TAG of `data` to `id`, answered with success, that the peer had the
right to send. -/
structure Overwrites (key : MobileKey) (packet : List UInt8) (id : UInt8) (data : List UInt8)
    (tag : GeneralPurposeTag) : Prop where
  command : ∃ secure, stack.command aes packet = some (0x03 :: id :: data, secure) ∧
    (id = tagAudit ∨ tag.permissions.contains .writable ∧
      (secure ∧ stack.ssp.state = .inSession ∨ tag.permissions.contains .writeWithoutSecurity))
  success : stack.answered aes packet = some (.ok [CommandStatus.success.toByte])
  above : 0x02 < id
  present : key.tags id = some tag

end Steps

variable (aes : BlockCipher) (stack : JustinStack0100 NoopKeyStore)

/-- A packet leaves the key alone, or carries out one write. -/
theorem handlePacket_key {key : MobileKey} (held : stack.justin.currentKey = some key)
    (packet : List UInt8) :
    (stack.handlePacket aes packet).1.justin.currentKey = some key ∨
    ∃ id data tag, stack.Overwrites aes key packet id data tag ∧
      (stack.handlePacket aes packet).1.justin.currentKey = some (key.setTagData id data) := by
  rw [handlePacket_justin]
  cases carried : stack.command aes packet with
  | none => exact .inl held
  | some command =>
    obtain ⟨payload, secure⟩ := command
    dsimp only
    have answered : stack.answered aes packet = some (stack.justin.call payload secure).2 := by
      rw [JustinStack0100.answered, carried, Option.map_some]
    have step := stack.justin.call_step secure payload
    generalize stack.justin.call payload secure = result at step answered
    cases step with
    | failed | answered | refused | closed => exact .inl held
    -- the store of a preloaded key finds none, so no other key is ever opened
    | opened _ found => simp [MobileKeyStore.getKey] at found
    | @wrote id first more key' tag _ held' above present may =>
      obtain rfl : key = key' := by simpa [held] using held'
      refine .inr ⟨id, first :: more, tag, ⟨⟨secure, carried, ?_⟩, answered, above, present⟩, rfl⟩
      rcases may with audit | ⟨writable, secured | clear⟩
      · exact .inl audit
      · -- a command that came encrypted was taken in a session
        subst secured
        exact .inr ⟨writable, .inl ⟨rfl, command_secure aes stack carried⟩⟩
      · exact .inr ⟨writable, .inr clear⟩

/-- A key of the loaded shape is held after every packet. -/
def Holds (loaded : MobileKey) (stack : JustinStack0100 NoopKeyStore) : Prop :=
  ∃ key, stack.justin.currentKey = some key ∧ SameShape loaded key

theorem Holds.step {loaded : MobileKey} {stack : JustinStack0100 NoopKeyStore}
    (holds : Holds loaded stack) (packet : List UInt8) :
    Holds loaded (stack.handlePacket aes packet).1 := by
  obtain ⟨key, held, same⟩ := holds
  rcases handlePacket_key aes stack held packet with kept | ⟨id, data, tag, overwrites, changed⟩
  · exact ⟨key, kept, same⟩
  · exact ⟨_, changed, same.setTagData overwrites.present data⟩

/-- Over every run: the shape of the key is fixed, a tag changes by an entitled and successful
write of exactly that value, and nothing changes otherwise. -/
theorem tag_write_integrity (ssp : SecureProtocolManager) (loaded : MobileKey)
    (packets : List (List UInt8)) (packet : List UInt8) :
    let stack := run (handlePacket aes) ⟨ssp, .newWithKey loaded⟩ packets
    let next := (stack.handlePacket aes packet).1
    ∃ key key', stack.justin.currentKey = some key ∧ next.justin.currentKey = some key' ∧
      SameShape loaded key ∧ SameShape loaded key' ∧
      (∀ id, key'.tags id ≠ key.tags id → ∃ data tag, stack.Overwrites aes key packet id data tag ∧
        (stack.handlePacket aes packet).2 =
          .ok (stack.replyTo aes packet [CommandStatus.success.toByte]) ∧
        key'.tags = key.tags.insert id { tag with value := data }) ∧
      (stack.answered aes packet ≠ some (.ok [CommandStatus.success.toByte]) ∨
        (stack.handlePacket aes packet).2.isOk = false → key' = key) := by
  intro stack next
  have holds : Holds loaded stack :=
    run_invariant (Holds loaded) (fun _ packet holds => holds.step aes packet) _
      ⟨loaded, rfl, .refl loaded⟩ packets
  obtain ⟨key, held, same⟩ := holds
  rcases handlePacket_key aes stack held packet with kept | ⟨id, data, tag, overwrites, changed⟩
  · exact ⟨key, key, held, kept, same, same, fun id moved => absurd rfl moved, fun _ => rfl⟩
  · refine ⟨key, key.setTagData id data, held, changed, same,
      same.setTagData overwrites.present data, ?_, ?_⟩
    · intro other moved
      have tags := key.setTagData_tags overwrites.present data
      rw [tags] at moved
      -- one write moves one tag
      obtain rfl : other = id := by
        by_contra elsewhere
        exact moved (Tags.insert_of_ne _ _ elsewhere)
      exact ⟨data, tag, overwrites, handlePacket_answered aes stack overwrites.success, tags⟩
    · -- an entitled write is a success, and its answer reaches the peer
      intro failed
      rcases failed with other | failed
      · exact absurd overwrites.success other
      · rw [handlePacket_isOk aes stack overwrites.success] at failed
        cases failed

end JustinStack0100

end Mkey
