import Mkey.Properties.SystemTags
import Mkey.Properties.TagStore
import Mkey.Session.History

/-!
# What the lock is told of the opening mode

A session runs one stack, made when the flow begins, on the packets it takes.
What the lock reads from that stack is what the caller asked for: nothing it
sends in between moves the opening mode.
-/
namespace Mkey.Session

open Machine

variable (aes : BlockCipher) (os : RandomSource)

/-- The stack a v0200 flow begins with. -/
def beginning (key : MobileKey) (options : Options) (random : Option RandomSource) :
    JustinStack0100 NoopKeyStore :=
  ⟨.withRandom (loadedKey key options.mode).knKey (random.getD os),
    .newWithKey (loadedKey key options.mode)⟩

/-- Until a flow begins nothing is taken, and in a v0200 flow the stack has run on what was. -/
structure Drives (key : MobileKey) (options : Options) (random : Option RandomSource)
    (past : List PollRecord) (s : Session) : Prop where
  sameKey : s.key = key
  sameOptions : s.options = options
  before : s.state = .idle ∨ s.state = .detecting →
    s.random = random ∧ packetsTaken past = []
  exchange : ∀ session, s.state = .v0200 session → session.stack =
    run (JustinStack0100.handlePacket aes) (beginning os key options random) (packetsTaken past)

variable {key : MobileKey} {options : Options} {random : Option RandomSource}

/-- A poll that takes no packet and leaves the state as it is. -/
theorem Drives.still {past : List PollRecord} {s t : Session} {event : Event}
    {output : List Action} (drives : Drives aes os key options random past s)
    (untaken : taken ⟨s, event, output, t⟩ = none) (sameKey : t.key = s.key)
    (sameOptions : t.options = s.options) (sameRandom : t.random = s.random)
    (sameState : t.state = s.state) :
    Drives aes os key options random (past ++ [⟨s, event, output, t⟩]) t := by
  have same : packetsTaken (past ++ [⟨s, event, output, t⟩]) = packetsTaken past := by
    rw [packetsTaken_snoc, untaken, Option.toList_none, List.append_nil]
  refine ⟨sameKey.trans drives.sameKey, sameOptions.trans drives.sameOptions, ?_, ?_⟩
  · rw [sameState, sameRandom, same]
    exact drives.before
  · rw [sameState, same]
    exact drives.exchange

/-- A poll that ends the session, or leaves it, in a v0100 flow. -/
theorem Drives.elsewhere {past past' : List PollRecord} {s t : Session} {session : V0100}
    (drives : Drives aes os key options random past s) (sameKey : t.key = s.key)
    (sameOptions : t.options = s.options) (other : t.state = .v0100 session) :
    Drives aes os key options random past' t := by
  refine ⟨sameKey.trans drives.sameKey, sameOptions.trans drives.sameOptions, ?_, ?_⟩
  · rw [other]
    rintro (early | early)
    · cases early
    · cases early
  · intro exchange same
    rw [other] at same
    cases same

/-- A poll of a v0200 flow that takes a packet. -/
theorem Drives.packet {past : List PollRecord} {s t : Session} {session : V0200}
    {packet : List UInt8} {output : List Action} {res : Except Error (List UInt8)} (next : V0200)
    (drives : Drives aes os key options random past s)
    (running : s.finished = false) (current : s.state = .v0200 session)
    (handled : session.stack.handlePacket aes packet = (next.stack, res))
    (sameKey : t.key = s.key) (sameOptions : t.options = s.options)
    (after : t.state = .v0200 next) :
    Drives aes os key options random (past ++ [⟨s, .notification packet, output, t⟩]) t := by
  refine ⟨sameKey.trans drives.sameKey, sameOptions.trans drives.sameOptions, ?_, ?_⟩
  · rw [after]
    rintro (early | early)
    · cases early
    · cases early
  · intro exchange same
    rw [after] at same
    obtain rfl := State.v0200.inj same
    rw [packetsTaken_packet past (flowing_v0200 running current), run_snoc,
      ← drives.exchange session current, handled]

theorem Drives.poll {past : List PollRecord} {s : Session}
    (drives : Drives aes os key options random past s) (event : Event) :
    Drives aes os key options random (past ++ [stepAt (poll aes os) s event])
      (s.poll aes os event).1 := by
  have step := poll_step aes os s event
  have record : stepAt (Session.poll aes os) s event =
    ⟨s, event, (s.poll aes os event).2, (s.poll aes os event).1⟩ := rfl
  rw [record]
  generalize s.poll aes os event = polled at step
  cases step with
  | halted halted =>
    apply drives.still aes os (taken_unflowing (by simp [flowing, halted]))
    all_goals rfl
  | cancelled | disconnected | version | silentV0200 | lostV0200 | silentV0100 =>
    apply drives.still aes os (taken_other (by simp))
    all_goals rfl
  | unexpected _ rejects =>
    apply drives.still aes os rejects.taken
    all_goals rfl
  | detecting _ idle =>
    have nothing := drives.before (.inl idle)
    refine ⟨drives.sameKey, drives.sameOptions, ?_, ?_⟩
    · intro _
      rw [packetsTaken_other past _ (by simp)]
      exact nothing
    · intro session same
      cases same
  | beganV0200 _ starts =>
    have early : s.state = .idle ∨ s.state = .detecting :=
      starts.imp (fun idle => idle.1) (fun detecting => detecting.1)
    obtain ⟨sameRandom, nothing⟩ := drives.before early
    refine ⟨drives.sameKey, drives.sameOptions, ?_, ?_⟩
    · rintro (same | same)
      · cases same
      · cases same
    · intro session same
      obtain rfl := State.v0200.inj same
      rw [packetsTaken_other past _ starts.not_packet, nothing, ← drives.sameKey,
        ← drives.sameOptions, ← sameRandom]
      rfl
  | beganV0100 => exact drives.elsewhere aes os rfl rfl rfl
  | @answered session packet response stack running current handled =>
    exact drives.packet aes os { session.afterAnswer stack with firstPacket := false }
      running current (by simpa using handled) rfl rfl rfl
  | @closed session packet response stack running current handled =>
    exact drives.packet aes os (session.afterAnswer stack)
      running current (by simpa using handled) rfl rfl rfl
  | @refused session packet e stack running current handled =>
    exact drives.packet aes os { session with stack } running current handled rfl rfl rfl
  | ignored _ current | resulted _ current | shortV0100 _ current =>
    exact drives.elsewhere aes os rfl rfl current
  | signed => exact drives.elsewhere aes os rfl rfl rfl

/-- In every state of every run the stack of a v0200 flow has run on the packets taken. -/
theorem drives_run (key : MobileKey) (options : Options) (random : Option RandomSource)
    (events : List Event) :
    Drives aes os key options random (trace (Session.poll aes os) (start key options random) events)
      (run (Session.poll aes os) (start key options random) events) := by
  apply history_invariant (Drives aes os key options random)
  · refine ⟨rfl, rfl, fun _ => ⟨rfl, rfl⟩, ?_⟩
    intro session same
    cases same
  · intro past s event drives
    exact drives.poll aes os event

theorem connected_run (key : MobileKey) (options : Options) (random : Option RandomSource)
    (events : List Event) :
    Connected (run (Session.poll aes os) (start key options random) events) := by
  apply run_invariant Connected
  · intro s event connected
    exact connected.poll aes os event
  · intro _ session same
    cases same

/-! ### The opening mode -/

/-- The opening mode as the lock is given it: to read, in the clear as well. -/
def officeTag : GeneralPurposeTag :=
  ⟨tagOpeningMode, Permissions.readable.union .readWithoutSecurity, [Mode.office.toByte]⟩

theorem loadedKey_mode {key : MobileKey} {mode : Mode}
    (own : mode = .standard → key.tags tagOpeningMode = none) :
    (loadedKey key mode).tags tagOpeningMode = if mode = .office then some officeTag else none := by
  cases mode with
  | standard => exact own rfl
  | office =>
    rw [loadedKey, if_pos rfl, if_pos rfl]
    exact Tags.insert_self key.tags tagOpeningMode officeTag

/-- The key at hand has the opening mode it was loaded with. -/
def TellsMode (key : MobileKey) (mode : Mode) (stack : JustinStack0100 NoopKeyStore) : Prop :=
  ∃ held, stack.justin.currentKey = some held ∧
    held.tags tagOpeningMode = (loadedKey key mode).tags tagOpeningMode

theorem TellsMode.handlePacket {key : MobileKey} {mode : Mode}
    (own : mode = .standard → key.tags tagOpeningMode = none)
    {stack : JustinStack0100 NoopKeyStore} (tells : TellsMode key mode stack)
    (packet : List UInt8) : TellsMode key mode (stack.handlePacket aes packet).1 := by
  obtain ⟨held, holds, same⟩ := tells
  rcases stack.handlePacket_key aes holds packet with kept | ⟨id, data, tag, overwrites, changed⟩
  · exact ⟨held, kept, same⟩
  · refine ⟨_, changed, ?_⟩
    rw [held.setTagData_tags overwrites.present data, Tags.insert_of_ne, same]
    -- a write to the opening mode is one the lock had no right to
    rintro rfl
    have present := same.symm.trans overwrites.present
    rw [loadedKey_mode own] at present
    split at present
    · obtain rfl := Option.some.inj present
      obtain ⟨_, _, audit | ⟨writable, _⟩⟩ := overwrites.command
      · exact absurd audit (by decide)
      · exact absurd writable (by decide)
    · cases present

/-- What the lock is to read: the office mode, or that there is no such tag. -/
def modeAnswer : Mode → List UInt8
  | .standard => [CommandStatus.notFound.toByte]
  | .office => [CommandStatus.success.toByte, Mode.office.toByte]

theorem answered_mode {key : MobileKey} {mode : Mode}
    (own : mode = .standard → key.tags tagOpeningMode = none)
    {stack : JustinStack0100 NoopKeyStore} (tells : TellsMode key mode stack)
    (connected : stack.justin.state = .connected) {packet args : List UInt8} {secure : Bool}
    (carried : stack.command aes packet = some (0x02 :: tagOpeningMode :: args, secure)) :
    stack.answered aes packet = some (.ok (modeAnswer mode)) := by
  obtain ⟨held, holds, same⟩ := tells
  have above : 0x02 < tagOpeningMode := by decide
  have found : held.getTag tagOpeningMode =
      if mode = .office then some ⟨officeTag.permissions, officeTag.value⟩ else none := by
    rw [held.getTag_map above, same, loadedKey_mode own]
    split <;> rfl
  have reply : stack.answered aes packet = some (.ok
      ((stack.justin.setSecureSession secure).handleReadTag (tagOpeningMode :: args)).2) := by
    rw [JustinStack0100.answered, carried, Option.map_some]
    rfl
  rw [reply]
  cases mode with
  | standard =>
    simp [JustinProtocolManager.handleReadTag, JustinProtocolManager.setSecureSession, connected,
      holds, found, modeAnswer]
  | office =>
    -- the tag may be read however the command came
    have shown : (stack.justin.setSecureSession secure).shown tagOpeningMode =
        some ⟨officeTag.permissions, officeTag.value⟩ := by
      rw [JustinProtocolManager.shown_connected
        (j := stack.justin.setSecureSession secure) connected]
      change stack.justin.currentKey.bind _ = _
      rw [holds, Option.bind_some, found, if_pos rfl]
    apply congrArg (some ∘ Except.ok)
    apply (JustinProtocolManager.handleReadTag_iff _ _ _ _).mpr
    refine ⟨_, shown, ⟨?_, .inr ⟨by decide, .inr (by decide)⟩⟩, rfl⟩
    intro knKey
    exact absurd knKey (by decide)

/-- Whatever the lock has sent before, a READ_TAG of the opening mode brings the office mode in a
session asked for it, and finds nothing in another one, unless the key came with an opening mode. -/
theorem lock_reads_opening_mode (key : MobileKey) (options : Options)
    (random : Option RandomSource) (events : List Event) (stack : JustinStack0100 NoopKeyStore)
    (packet args : List UInt8) (secure : Bool)
    (own : options.mode = .standard → key.tags tagOpeningMode = none) :
    let s := run (poll aes os) (start key options random) events
    s.finished = false → s.stack = some stack →
    stack.command aes packet = some (0x02 :: tagOpeningMode :: args, secure) →
    stack.answered aes packet = some (.ok (modeAnswer options.mode)) ∧
      (stack.handlePacket aes packet).2 =
        .ok (stack.replyTo aes packet (modeAnswer options.mode)) := by
  intro s running current carried
  rw [Session.stack] at current
  split at current
  next session state =>
    obtain rfl := Option.some.inj current
    have connected := connected_run aes os key options random events running session state
    have tells : TellsMode key options.mode session.stack := by
      rw [(drives_run aes os key options random events).exchange session state]
      apply run_invariant (TellsMode key options.mode)
      · intro stack packet tells
        exact tells.handlePacket aes own packet
      · exact ⟨_, rfl, rfl⟩
    have answered := answered_mode aes own tells connected carried
    exact ⟨answered, session.stack.handlePacket_answered aes answered⟩
  next => cases current

/-- A lock that begins an authentication and would have the opening mode another one. -/
def meddlingPackets : List (List UInt8) :=
  [[0x01, 0x01], [0x00, 0x03, tagOpeningMode, 0x00], [0x00, 0x02, tagKnKey]]

/-- It is told of the office mode, in the clear as it asked. -/
theorem lock_reads_office_mode :
    let os : RandomSource := ⟨fun _ => Block.replicate 0, 0⟩
    let stack := run (JustinStack0100.handlePacket aes128)
      (beginning os (MobileKey.new (Block.replicate 0x42)) ⟨.office, .none, .default, true⟩ none)
      meddlingPackets
    stack.answered aes128 [0x00, 0x02, tagOpeningMode] =
        some (.ok [CommandStatus.success.toByte, 0x01]) ∧
      (stack.handlePacket aes128 [0x00, 0x02, tagOpeningMode]).2 =
        .ok [0x00, CommandStatus.success.toByte, 0x01] := by
  apply lock_reads_opening_mode aes128 ⟨fun _ => Block.replicate 0, 0⟩
    (MobileKey.new (Block.replicate 0x42)) ⟨.office, .none, .default, true⟩ none
    (.started :: meddlingPackets.map .notification) _ [0x00, 0x02, tagOpeningMode] [] false
  · intro standard
    cases standard
  · rfl
  · rfl
  · rfl

end Mkey.Session
