import Mkey.Core.StackSteps
import Mkey.Lib.Machine
import Mkey.Properties.AuditLatch
import Mkey.Properties.TagWrites

/-!
# What READ_TAG answers

The peer never sees a key, it sees answers. From these it can tell what every
READ_TAG is to bring: the value last written since the key was opened, and
before the first write what the store had. A key that is closed and opened
again is the store's again.
-/
namespace Mkey

/-- The open key as the peer can know it: what the store had, and the writes carried out since. -/
structure Opened where
  key : MobileKey
  writes : List TagWrite

namespace Opened

/-- A write moves the value of its tag and leaves the permissions alone. -/
def getTag (opened : Opened) (tagId : UInt8) : Option TagData :=
  (opened.key.getTag tagId).map fun tag =>
    { tag with data := (lastWrite opened.writes tagId).getD tag.data }

def write (opened : Opened) (write : TagWrite) : Opened :=
  { opened with writes := opened.writes ++ [write] }

theorem getTag_write (opened : Opened) (write : TagWrite) (tagId : UInt8) :
    (opened.write write).getTag tagId =
      (opened.getTag tagId).map fun tag =>
        if write.1 = tagId then { tag with data := write.2 } else tag := by
  rw [getTag, getTag, Option.map_map]
  apply congrArg (Option.map · _)
  funext tag
  rw [Opened.write, lastWrite_snoc]
  by_cases same : write.1 = tagId
  · simp [same]
  · simp [same]

end Opened

/-- A write to a tag that is there moves its value alone. -/
theorem MobileKey.getTag_setTagData_present (key : MobileKey) {id : UInt8}
    {tag : GeneralPurposeTag} (above : 0x02 < id) (present : key.tags id = some tag)
    (data : List UInt8) (tagId : UInt8) :
    (key.setTagData id data).getTag tagId =
      (key.getTag tagId).map fun tag => if id = tagId then { tag with data := data } else tag := by
  by_cases fixed : tagId ≤ 0x02
  · have other : id ≠ tagId := by
      rintro rfl
      exact UInt8.not_lt.mpr fixed above
    simp [key.getTag_setTagData_fixed fixed (id, data), other]
  · have above' := UInt8.not_le.mp fixed
    rw [key.getTag_setTagData above' (id, data)]
    by_cases same : id = tagId
    · subst same
      simp [key.getTag_map above, present]
    · simp [same]

namespace JustinProtocolManager

variable {S : Type}

/-- The tag that commands reach. -/
def shown (j : JustinProtocolManager S) (tagId : UInt8) : Option TagData :=
  if j.state = .connected then j.currentKey.bind (·.getTag tagId) else none

theorem shown_connected {j : JustinProtocolManager S} (connected : j.state = .connected)
    (tagId : UInt8) : j.shown tagId = j.currentKey.bind (·.getTag tagId) := if_pos connected

/-- The right to read a tag, for a command that came encrypted or in the clear. -/
def MayRead (secure : Bool) (id : UInt8) (permissions : Permissions) : Prop :=
  (id = tagKnKey → secure) ∧
    (id ≤ 0x02 ∨ permissions.contains .readable ∧
      (secure ∨ permissions.contains .readWithoutSecurity))

/-- What the peer makes of one command and its answer. -/
def recorded [MobileKeyStore S] (store : S) (opened : Option Opened)
    (payload : List UInt8) (reply : Except Error (List UInt8)) : Option Opened :=
  if reply = .ok [CommandStatus.success.toByte] then
    match payload with
    | 0x00 :: args =>
        (MobileKeyStore.getKey store (computeKeyIdentifier (args.take 8))).map (⟨·, []⟩)
    | 0x01 :: _ => none
    | 0x03 :: id :: data => opened.map (·.write (id, data))
    | _ => opened
  else opened

/-- The tags that commands reach are the ones on the peer's record. -/
def Shows (opened : Option Opened) (j : JustinProtocolManager S) : Prop :=
  ∀ id, j.shown id = opened.bind (·.getTag id)

/-! ### Reading -/

theorem canReadTag_iff (j : JustinProtocolManager S) (id : UInt8) (permissions : Permissions) :
    j.canReadTag id permissions ↔ MayRead j.secureSession id permissions := by
  unfold canReadTag MayRead refusesKnKey isLegacyTag
  split_ifs with refused legacy hidden secure
  · simp_all
  · simp_all
  · simp_all
  · simp_all
  · simp_all

@[simp] theorem genericError_ne_success :
    CommandStatus.genericError.toByte ≠ CommandStatus.success.toByte := by decide

@[simp] theorem notFound_ne_success :
    CommandStatus.notFound.toByte ≠ CommandStatus.success.toByte := by decide

/-- A tag is read when it is there and may be read. -/
theorem handleReadTag_iff (j : JustinProtocolManager S) (id : UInt8) (args data : List UInt8) :
    (j.handleReadTag (id :: args)).2 = CommandStatus.success.toByte :: data ↔
      ∃ tag, j.shown id = some tag ∧ MayRead j.secureSession id tag.permissions ∧
        data = tag.data := by
  unfold handleReadTag shown
  split
  next => simp
  next here =>
    rw [if_pos (not_not.mp here)]
    dsimp only
    split
    next nothing => simp [nothing]
    next key held =>
      rw [held, Option.bind_some]
      split
      next absent => simp [absent]
      next tag found =>
        simp only [found, Option.some.injEq, exists_eq_left', ← canReadTag_iff]
        split_ifs with refused denied hidden
        · -- kN asked for in the clear may not be read either
          simp [canReadTag, refused]
        · simp_all
        · simp_all
        · have allowed : j.canReadTag id tag.permissions = true := by simpa using denied
          rw [allowed, List.cons.injEq]
          simp only [true_and]
          exact eq_comm

/-! ### One command -/

section Steps

variable [MobileKeyStore S] {j : JustinProtocolManager S} {opened : Option Opened}

theorem recorded_failed (store : S) {payload : List UInt8} {reply : Except Error (List UInt8)}
    (failed : reply ≠ .ok [CommandStatus.success.toByte]) :
    recorded store opened payload reply = opened := if_neg failed

/-- OPEN starts a new record when the store has the key, and leaves the old one alone otherwise. -/
theorem Shows.open (shows_ : Shows opened j) (args : List UInt8) (secure : Bool) :
    Shows (recorded j.keyStore opened (0x00 :: args) (j.call (0x00 :: args) secure).2)
      (j.call (0x00 :: args) secure).1 := by
  change Shows (recorded j.keyStore opened (0x00 :: args)
      (.ok ((j.setSecureSession secure).handleOpen args).2))
    (((j.setSecureSession secure).handleOpen args).1.setSecureSession j.secureSession)
  unfold handleOpen
  split_ifs with connected short
  · rw [recorded_failed _ (by simp)]
    exact shows_
  · rw [recorded_failed _ (by simp)]
    exact shows_
  · dsimp only
    split
    next key found =>
      have found : MobileKeyStore.getKey j.keyStore (computeKeyIdentifier (args.take 8)) =
        some key := found
      intro id
      simp [recorded, found, shown, setSecureSession, Opened.getTag, lastWrite]
    next =>
      rw [recorded_failed _ (by simp)]
      exact shows_

theorem Shows.close (shows_ : Shows opened j) (args : List UInt8) (secure : Bool) :
    Shows (recorded j.keyStore opened (0x01 :: args) (j.call (0x01 :: args) secure).2)
      (j.call (0x01 :: args) secure).1 := by
  change Shows (recorded j.keyStore opened (0x01 :: args)
      (.ok ((j.setSecureSession secure).handleClose args).2))
    (((j.setSecureSession secure).handleClose args).1.setSecureSession j.secureSession)
  unfold handleClose
  split_ifs with away
  · rw [recorded_failed _ (by simp)]
    exact shows_
  · intro id
    simp [recorded, shown, setSecureSession]

/-- Any other command: a write that is carried out is put on record, nothing else moves a tag. -/
theorem Shows.other (shows_ : Shows opened j) {payload : List UInt8} (secure : Bool)
    (opens : ∀ args, payload ≠ 0x00 :: args) (closes : ∀ args, payload ≠ 0x01 :: args) :
    Shows (recorded j.keyStore opened payload (j.call payload secure).2)
      (j.call payload secure).1 := by
  have step := j.call_step secure payload
  generalize j.call payload secure = result at step
  cases step with
  | failed =>
    rw [recorded_failed _ (by simp)]
    exact shows_
  | @answered payload reply unwritten =>
    have same : recorded j.keyStore opened payload (.ok reply) = opened := by
      unfold recorded
      split
      next success =>
        split
        · exact absurd rfl (opens _)
        · exact absurd rfl (closes _)
        · exact absurd (Except.ok.inj success) (unwritten rfl)
        · rfl
      · rfl
    rw [same]
    exact shows_
  | refused =>
    rw [recorded_failed _ (by simp)]
    exact shows_
  | opened => exact absurd rfl (opens _)
  | closed => exact absurd rfl (closes _)
  | @wrote id first more key tag connected held above present may =>
    have same : recorded j.keyStore opened (0x03 :: id :: first :: more)
        (.ok [CommandStatus.success.toByte]) = opened.map (·.write (id, first :: more)) := by
      simp [recorded]
    rw [same]
    intro other
    have before := shows_ other
    have written := shows_ id
    rw [shown_connected connected, held, Option.bind_some] at before written
    have after : (j.wrote key id first more).state = .connected := connected
    rw [shown_connected after]
    cases opened with
    | none => simp [MobileKey.getTag_map _ above, present] at written
    | some opened =>
      rw [Option.bind_some] at before
      rw [Option.map_some, Option.bind_some, Opened.getTag_write, ← before]
      exact key.getTag_setTagData_present above present (first :: more) other

/-- The peer's record stays right, whatever it sends. -/
theorem Shows.call (shows_ : Shows opened j) (payload : List UInt8) (secure : Bool) :
    Shows (recorded j.keyStore opened payload (j.call payload secure).2)
      (j.call payload secure).1 := by
  by_cases opens : ∃ args, payload = 0x00 :: args
  · obtain ⟨args, rfl⟩ := opens
    exact shows_.open args secure
  by_cases closes : ∃ args, payload = 0x01 :: args
  · obtain ⟨args, rfl⟩ := closes
    exact shows_.close args secure
  exact shows_.other secure (not_exists.mp opens) (not_exists.mp closes)

/-- The store is the one the manager was made with. -/
theorem call_keyStore (payload : List UInt8) (secure : Bool) :
    (j.call payload secure).1.keyStore = j.keyStore := by
  have step := j.call_step secure payload
  generalize j.call payload secure = result at step
  cases step <;> rfl

end Steps

end JustinProtocolManager

namespace JustinStack0100

open Machine JustinProtocolManager

variable {S : Type} [MobileKeyStore S] (aes : BlockCipher)

/-- What the peer makes of one packet: of the command it brought, and of what was answered. -/
def noted (store : S) (opened : Option Opened)
    (x : Step (JustinStack0100 S) (List UInt8) (Except Error (List UInt8))) : Option Opened :=
  match x.before.command aes x.input, x.before.answered aes x.input with
  | some (payload, _), some reply => recorded store opened payload reply
  | _, _ => opened

/-- The peer's record after a run: it starts from the key selected beforehand, if there was one,
and goes on with the commands of the run and their answers. -/
def record (start : JustinProtocolManager S)
    (past : List (Step (JustinStack0100 S) (List UInt8) (Except Error (List UInt8)))) :
    Option Opened :=
  past.foldl (noted aes start.keyStore)
    (if start.state = .connected then start.currentKey.map (⟨·, []⟩) else none)

/-- The manager after a part of the run, beside what the peer knows of it. -/
structure OnRecord (start : JustinProtocolManager S)
    (past : List (Step (JustinStack0100 S) (List UInt8) (Except Error (List UInt8))))
    (stack : JustinStack0100 S) : Prop where
  sameStore : stack.justin.keyStore = start.keyStore
  shows_ : Shows (record aes start past) stack.justin

theorem OnRecord.handlePacket {start : JustinProtocolManager S}
    {past : List (Step (JustinStack0100 S) (List UInt8) (Except Error (List UInt8)))}
    {stack : JustinStack0100 S} (known : OnRecord aes start past stack) (packet : List UInt8) :
    OnRecord aes start (past ++ [stepAt (JustinStack0100.handlePacket aes) stack packet])
      (stack.handlePacket aes packet).1 := by
  have noted_ :
      record aes start (past ++ [stepAt (JustinStack0100.handlePacket aes) stack packet]) =
      noted aes start.keyStore (record aes start past)
        (stepAt (JustinStack0100.handlePacket aes) stack packet) := by
    rw [record, List.foldl_append, List.foldl_cons, List.foldl_nil, ← record]
  have moved := handlePacket_justin aes stack packet
  cases carried : stack.command aes packet with
  | none =>
    rw [carried] at moved
    dsimp only at moved
    constructor
    · rw [moved]
      exact known.sameStore
    · rw [noted_, noted, stepAt]
      dsimp only
      rw [carried, moved]
      exact known.shows_
  | some command =>
    obtain ⟨payload, secure⟩ := command
    rw [carried] at moved
    dsimp only at moved
    constructor
    · rw [moved, call_keyStore]
      exact known.sameStore
    · have reply : stack.answered aes packet = some (stack.justin.call payload secure).2 := by
        rw [answered, carried, Option.map_some]
      rw [noted_, noted, stepAt]
      dsimp only
      rw [carried, reply, moved, ← known.sameStore]
      exact known.shows_.call payload secure

/-- Over every run, whatever the store and the packets: a READ_TAG is answered with a value
exactly when the peer's record has the tag and lets it be read, and the value is the one on
record. The peer gets that answer, in the clear or sealed as it asked. -/
theorem reads_what_was_written (ssp : SecureProtocolManager) (start : JustinProtocolManager S)
    (packets : List (List UInt8)) (packet : List UInt8) (id : UInt8) (args data : List UInt8)
    (secure : Bool) :
    let stack := run (handlePacket aes) ⟨ssp, start⟩ packets
    stack.command aes packet = some (0x02 :: id :: args, secure) →
    (stack.answered aes packet = some (.ok (CommandStatus.success.toByte :: data)) ↔
      ∃ opened tag, record aes start (trace (handlePacket aes) ⟨ssp, start⟩ packets) = some opened ∧
        opened.getTag id = some tag ∧ MayRead secure id tag.permissions ∧ data = tag.data) ∧
    ∃ answer, stack.answered aes packet = some (.ok answer) ∧
      (stack.handlePacket aes packet).2 = .ok (stack.replyTo aes packet answer) := by
  intro stack carried
  have known : OnRecord aes start (trace (handlePacket aes) ⟨ssp, start⟩ packets) stack := by
    apply history_invariant (OnRecord aes start)
    · refine ⟨rfl, ?_⟩
      intro tagId
      unfold shown record
      rw [List.foldl_nil]
      split
      · cases start.currentKey with
        | none => rfl
        | some key => simp [Opened.getTag, lastWrite]
      · rfl
    · intro past stack packet known
      exact known.handlePacket aes packet
  have reply : stack.answered aes packet =
      some (.ok ((stack.justin.setSecureSession secure).handleReadTag (id :: args)).2) := by
    rw [answered, carried, Option.map_some]
    rfl
  refine ⟨?_, _, reply, handlePacket_answered aes stack reply⟩
  rw [reply, Option.some.injEq, Except.ok.injEq, handleReadTag_iff]
  have same : (stack.justin.setSecureSession secure).shown id = stack.justin.shown id := rfl
  rw [same, known.shows_ id]
  simp only [Option.bind_eq_some_iff]
  constructor
  · rintro ⟨tag, ⟨opened, onRecord, found⟩, may, rfl⟩
    exact ⟨opened, tag, onRecord, found, may, rfl⟩
  · rintro ⟨opened, tag, onRecord, found, may, rfl⟩
    exact ⟨tag, ⟨opened, onRecord, found⟩, may, rfl⟩

/-- A key with a tag that can be read and written in the clear. -/
def notebookKey : MobileKey :=
  ⟨[], [], Block.replicate 0, Tags.insert (fun _ => none) 0x05 ⟨0x05, ⟨0x3C⟩, [0xAA]⟩⟩

/-- OPEN and two writes, all in the clear. -/
def twoWrites : List (List UInt8) :=
  [0x00 :: 0x00 :: List.replicate 8 1, [0x00, 0x03, 0x05, 0x01], [0x00, 0x03, 0x05, 0x02]]

/-- A tag written twice reads as written last. -/
theorem reads_what_was_written_twice :
    (run (handlePacket aes128) ⟨.withRandom (Block.replicate 0) ⟨fun _ => Block.replicate 0, 0⟩,
      .new (OneKeyStore.mk notebookKey)⟩ twoWrites).answered aes128 [0x00, 0x02, 0x05] =
      some (.ok [CommandStatus.success.toByte, 0x02]) := by
  apply (reads_what_was_written aes128 _ _ twoWrites [0x00, 0x02, 0x05] 0x05 [] [0x02] false
    rfl).1.mpr
  refine ⟨⟨notebookKey, [(0x05, [0x01]), (0x05, [0x02])]⟩, ⟨⟨0x3C⟩, [0x02]⟩, ?_, ?_, ?_, rfl⟩
  · rfl
  · rfl
  · refine ⟨?_, .inr ⟨?_, .inr ?_⟩⟩
    · intro knKey
      cases knKey
    · decide
    · decide

end JustinStack0100

end Mkey
