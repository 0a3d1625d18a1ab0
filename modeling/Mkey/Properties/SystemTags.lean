import Mkey.Properties.KeyCodec
import Mkey.Properties.WriteIntegrity
import Mkey.Session.Steps

/-!
# Where system tags come from

At the top level of the encoding the system tags are passed over, inside a
container they are taken in like any other tag, and the ones put in by the
parser give way to them. A key has its own system tags exactly when the last
tags of the audit numbers are no different and no container names an opening mode.
-/
namespace Mkey

namespace MobileKey

/-- The audit tags as the parser makes them, and no opening mode. -/
structure OwnSystemTags (key : MobileKey) : Prop where
  deprecatedAudit : key.tags tagSystemDeprecatedAudit = some (systemTag tagSystemDeprecatedAudit)
  audit : key.tags tagSystemAudit = some (systemTag tagSystemAudit)
  openingMode : key.tags tagSystemOpeningMode = none

/-- No container overrides a system tag: the last audit tags are as the parser would make them,
and there is no opening mode. -/
structure NoneOverridden (tags : List GeneralPurposeTag) : Prop where
  audits : ∀ id, id = tagSystemDeprecatedAudit ∨ id = tagSystemAudit →
    ∀ tag, lastTag tags id = some tag →
      tag.permissions = Permissions.writable.union .writeWithoutSecurity ∧ tag.value = []
  openingMode : ∀ tag ∈ tags, tag.tagId ≠ tagSystemOpeningMode

theorem lastTag_tagId {tags : List GeneralPurposeTag} {id : UInt8} {tag : GeneralPurposeTag}
    (last : lastTag tags id = some tag) : tag.tagId = id := by
  have member := List.mem_of_getLast? last
  simpa using (List.mem_filter.mp member).2

theorem lastTag_none {tags : List GeneralPurposeTag} {id : UInt8} :
    lastTag tags id = none ↔ ∀ tag ∈ tags, tag.tagId ≠ id := by
  rw [lastTag, List.getLast?_eq_none_iff, List.filter_eq_nil_iff]
  simp

variable (parseAll : List UInt8 → List Ber.Tlv)

theorem ownSystemTags_iff {data : List UInt8} {key : MobileKey}
    (read : fromBytes parseAll data = .ok key) :
    OwnSystemTags key ↔ NoneOverridden (wireTags parseAll data) := by
  -- an audit tag is its own unless the data brings another one
  have own (id : UInt8) (audit : id = tagSystemDeprecatedAudit ∨ id = tagSystemAudit) :
      key.tags id = some (systemTag id) ↔ ∀ tag, lastTag (wireTags parseAll data) id = some tag →
        tag.permissions = Permissions.writable.union .writeWithoutSecurity ∧ tag.value = [] := by
    rw [fromBytes_tags parseAll read, if_pos audit]
    cases last : lastTag (wireTags parseAll data) id with
    | none => simp
    | some tag =>
      have number := lastTag_tagId last
      simp only [Option.some_or, Option.some.injEq, forall_eq', systemTag]
      constructor
      · rintro rfl
        exact ⟨rfl, rfl⟩
      · rintro ⟨permissions, value⟩
        rw [← number, ← permissions, ← value]
  have mode : key.tags tagSystemOpeningMode = none ↔
      ∀ tag ∈ wireTags parseAll data, tag.tagId ≠ tagSystemOpeningMode := by
    rw [fromBytes_tags parseAll read, if_neg (by decide), Option.or_none, lastTag_none]
  constructor
  · rintro ⟨deprecated, audit, absent⟩
    refine ⟨?_, mode.mp absent⟩
    rintro id (rfl | rfl)
    · exact (own _ (.inl rfl)).mp deprecated
    · exact (own _ (.inr rfl)).mp audit
  · rintro ⟨audits, absent⟩
    exact ⟨(own _ (.inl rfl)).mpr (audits _ (.inl rfl)),
      (own _ (.inr rfl)).mpr (audits _ (.inr rfl)), mode.mpr absent⟩

end MobileKey

namespace Session

open Machine

/-- The key a v0200 exchange is given: the session's own, with the opening mode when it is asked
for. -/
def loadedKey (key : MobileKey) (mode : Mode) : MobileKey :=
  if mode = .office then
    { key with
      tags := key.tags.insert tagOpeningMode
        ⟨tagOpeningMode, Permissions.readable.union .readWithoutSecurity, [Mode.office.toByte]⟩ }
  else key

/-- Whatever the lock has written since, the exchange holds the tags it was given. -/
structure Loaded (key : MobileKey) (mode : Mode) (s : Session) : Prop where
  sameKey : s.key = key
  sameMode : s.options.mode = mode
  holds : ∀ session, s.state = .v0200 session →
    JustinStack0100.Holds (loadedKey key mode) session.stack

variable (aes : BlockCipher) (os : RandomSource)

theorem Loaded.poll {key : MobileKey} {mode : Mode} {s : Session} (loaded : Loaded key mode s)
    (event : Event) : Loaded key mode (s.poll aes os event).1 := by
  have step := poll_step aes os s event
  generalize s.poll aes os event = polled at step
  -- an exchange is begun with the key, and goes on holding it with every packet
  have packet {session : V0200} {stack : JustinStack0100 NoopKeyStore} {bytes : List UInt8}
      {res : Except Error (List UInt8)} (current : s.state = .v0200 session)
      (handled : session.stack.handlePacket aes bytes = (stack, res)) :
      JustinStack0100.Holds (loadedKey key mode) stack := by
    have held := (loaded.holds session current).step aes bytes
    rwa [handled] at held
  cases step with
  | halted | cancelled | unexpected | disconnected | version | silentV0200 | lostV0200 | ignored
  | resulted | shortV0100 | silentV0100 => exact ⟨loaded.sameKey, loaded.sameMode, loaded.holds⟩
  | detecting | beganV0100 | signed =>
    refine ⟨loaded.sameKey, loaded.sameMode, ?_⟩
    intro session same
    cases same
  | beganV0200 =>
    refine ⟨loaded.sameKey, loaded.sameMode, ?_⟩
    intro session same
    obtain rfl := State.v0200.inj same
    refine ⟨loadedKey key mode, ?_, .refl _⟩
    rw [← loaded.sameKey, ← loaded.sameMode]
    rfl
  | answered _ current handled | closed _ current handled =>
    refine ⟨loaded.sameKey, loaded.sameMode, ?_⟩
    intro session same
    obtain rfl := State.v0200.inj same
    simpa using packet current handled
  | refused _ current handled =>
    refine ⟨loaded.sameKey, loaded.sameMode, ?_⟩
    intro session same
    obtain rfl := State.v0200.inj same
    exact packet current handled

/-- A key without an opening mode of its own gets one in a session asked for office mode only. -/
theorem openingMode_asked {key : MobileKey} (absent : key.tags tagSystemOpeningMode = none)
    (options : Options) (random : Option RandomSource) (events : List Event)
    {stack : JustinStack0100 NoopKeyStore} {held : MobileKey}
    (current : (run (poll aes os) (start key options random) events).stack = some stack)
    (holds : stack.justin.currentKey = some held)
    (shown : (held.tags tagSystemOpeningMode).isSome) : options.mode = .office := by
  have loaded : Loaded key options.mode (run (poll aes os) (start key options random) events) :=
    run_invariant (Loaded key options.mode) (fun _ event loaded => loaded.poll aes os event) _
      ⟨rfl, rfl, by simp [start, new]⟩ events
  rw [Session.stack] at current
  split at current
  next session state =>
    obtain rfl := Option.some.inj current
    obtain ⟨key', holds', same⟩ := loaded.holds session state
    obtain rfl : held = key' := by simpa [holds] using holds'
    -- the tags held are those that were loaded, whatever their values
    have tags := same.tags tagSystemOpeningMode
    by_contra other
    rw [loadedKey, if_neg other, absent, Option.map_none, Option.map_eq_none_iff] at tags
    simp [tags] at shown
  · cases current

/-- System tags never come from outside: a key has its own ones, and no session but one asked for
office mode shows the lock an opening mode. -/
def SystemTagsOwn (key : MobileKey) : Prop :=
  key.OwnSystemTags ∧ ∀ options random events stack held,
    (run (poll aes os) (start key options random) events).stack = some stack →
    stack.justin.currentKey = some held →
    (held.tags tagSystemOpeningMode).isSome → options.mode = .office

/-- A key read from some data has its own system tags exactly when no container overrides one. -/
theorem system_tags_own_iff (parseAll : List UInt8 → List Ber.Tlv) {data : List UInt8}
    {key : MobileKey} (read : MobileKey.fromBytes parseAll data = .ok key) :
    SystemTagsOwn aes os key ↔ MobileKey.NoneOverridden (MobileKey.wireTags parseAll data) := by
  rw [← MobileKey.ownSystemTags_iff parseAll read]
  constructor
  · exact fun own => own.1
  · intro own
    refine ⟨own, ?_⟩
    intro options random events stack held current holds shown
    exact openingMode_asked aes os own.openingMode options random events current holds shown

/-- A container with an ordinary tag overrides nothing. -/
theorem system_tags_own_iff_ordinary :
    SystemTagsOwn aes128 ⟨fun _ => Block.replicate 0, 0⟩ (MobileKey.keyWith 0x05 [0x01, 0xAA]) ↔
      MobileKey.NoneOverridden
        (MobileKey.wireTags Ber.parseAll (MobileKey.keyBytes [0xC5, 0x02, 0x01, 0xAA])) :=
  system_tags_own_iff aes128 _ Ber.parseAll rfl

/-- An opening mode inside a container is taken for the key's own, whatever the caller asked for. -/
theorem opening_mode_from_wire :
    ∃ key, MobileKey.fromBytes Ber.parseAll (MobileKey.keyBytes [0xD0, 0x02, 0x01, 0xAA]) =
      .ok key ∧ ¬SystemTagsOwn aes128 ⟨fun _ => Block.replicate 0, 0⟩ key := by
  refine ⟨MobileKey.keyWith 0x10 [0x01, 0xAA], rfl, ?_⟩
  rintro ⟨own, _⟩
  have absent := own.openingMode
  cases absent

end Session

end Mkey
