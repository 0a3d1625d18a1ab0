import Mkey.Lib.Adapter
import Mkey.Properties.ActionTrace
import Mkey.Properties.NoPanic
import Mkey.Wasm.Session

/-!
# The browser runs the same session

A session is built from the bytes of a key and what a caller sets, or not at all.
The objects handed to JavaScript are those of the actions of the session behind
it, in order, and a host tells every action from its object: of a failure, the
code and the message. The timer it is told to arm comes back by the name it was
given, and no call stops the module as long as one random value can be drawn.
-/
namespace Mkey.Wasm

open Machine

/-! ### What a host reads off an object -/

namespace JsValue

/-- A field by its name. -/
def field : JsValue → String → Option JsValue
  | object fields, name => fields.lookup name
  | _, _ => none

def asString : JsValue → Option String
  | string value => some value
  | _ => none

def asBytes : JsValue → Option (List UInt8)
  | bytes value => some value
  | _ => none

def asBoolean : JsValue → Option Bool
  | boolean value => some value
  | _ => none

def asNumber : JsValue → Option Nat
  | number value => some value
  | _ => none

/-- A byte, or the `null` that stands for none. -/
def asOptionalByte : JsValue → Option (Option UInt8)
  | number value => some (some (UInt8.ofNat value))
  | null => some none
  | _ => none

def text (v : JsValue) (name : String) : Option String := (v.field name).bind asString
def payload (v : JsValue) (name : String) : Option (List UInt8) := (v.field name).bind asBytes
def millis (v : JsValue) (name : String) : Option UInt32 :=
  ((v.field name).bind asNumber).map UInt32.ofNat

end JsValue

def WireTrace.deserialize (v : JsValue) : Option WireTrace :=
  match v.text "kind" with
  | some "rx" => (v.payload "bytes").map .rx
  | some "tx" => (v.payload "bytes").map .tx
  | some "read" => (v.payload "bytes").map .read
  | some "info" => (v.text "message").map .info
  | _ => none

def WireOutcome.deserialize (v : JsValue) : Option WireOutcome := do
  let version ← (v.field "protocolVersion").bind JsValue.asNumber
  let opResult ← (v.field "opResult").bind JsValue.asOptionalByte
  let opResultName ← v.text "opResultName"
  let group ← v.text "group"
  let accepted ← (v.field "accepted").bind JsValue.asBoolean
  return ⟨UInt8.ofNat version, opResult, opResultName, group, accepted⟩

def WireError.deserialize (v : JsValue) : Option WireError := do
  return ⟨← v.text "code", ← v.text "message"⟩

def WireResult.deserialize (v : JsValue) : Option WireResult :=
  match v.field "ok" with
  | some outcome => (WireOutcome.deserialize outcome).map .ok
  | none => ((v.field "error").bind WireError.deserialize).map .err

def WireAction.deserialize (v : JsValue) : Option WireAction :=
  match v.text "type" with
  | some "announce-app-protocol" => some .announceAppProtocol
  | some "read-protocol-info" => (v.millis "timeoutMs").map .readProtocolInfo
  | some "subscribe" => some .subscribe
  | some "write" => (v.payload "bytes").map .write
  | some "pause" => (v.millis "ms").map .pause
  | some "set-timer" => do return .setTimer (← v.text "id") (← v.millis "afterMs")
  | some "phase" => (v.text "phase").map .phase
  | some "trace" => (WireTrace.deserialize v).map .trace
  | some "done" => ((v.field "result").bind WireResult.deserialize).map .done
  | _ => none

theorem WireOutcome.deserialize_serialize (outcome : WireOutcome) :
    deserialize outcome.serialize = some outcome := by
  obtain ⟨version, opResult, opResultName, group, accepted⟩ := outcome
  calc deserialize (serialize ⟨version, opResult, opResultName, group, accepted⟩)
      = some ⟨UInt8.ofNat version.toNat, opResult.map fun r => UInt8.ofNat r.toNat, opResultName,
          group, accepted⟩ := by cases opResult <;> rfl
    _ = some ⟨version, opResult, opResultName, group, accepted⟩ := by
      cases opResult <;> simp only [Option.map, UInt8.ofNat_toNat]

theorem WireResult.deserialize_serialize (result : WireResult) :
    deserialize result.serialize = some result := by
  cases result with
  | ok outcome => exact congrArg (Option.map WireResult.ok) outcome.deserialize_serialize
  | err error => rfl

/-- What a host reads off an object is what was put into it. -/
theorem WireAction.deserialize_serialize (w : WireAction) : deserialize w.serialize = some w := by
  have read (ms : UInt32) : UInt32.ofNat ms.toNat = ms := UInt32.ofNat_toNat
  cases w with
  | readProtocolInfo timeoutMs =>
    exact congrArg (fun ms => some (WireAction.readProtocolInfo ms)) (read timeoutMs)
  | pause ms => exact congrArg (fun ms => some (WireAction.pause ms)) (read ms)
  | setTimer id afterMs =>
    exact congrArg (fun ms => some (WireAction.setTimer id ms)) (read afterMs)
  | trace t => cases t <;> rfl
  | done result => exact congrArg (Option.map WireAction.done) result.deserialize_serialize
  | announceAppProtocol | subscribe | write _ | phase _ => rfl

theorem WireAction.serialize_injective : Function.Injective WireAction.serialize := by
  intro w v same
  have both := deserialize_serialize w
  rw [same, deserialize_serialize v] at both
  exact (Option.some.inj both).symm

/-! ### What an object keeps of an action -/

/-- The same action, or the same failure as far as its code and its message tell. -/
def Alike (a b : Action) : Prop :=
  a = b ∨ ∃ e f : Error, a = .done (.error e) ∧ b = .done (.error f) ∧
    e.code = f.code ∧ e.display = f.display

theorem parseTimerId_timerId (id : TimerId) : parseTimerId (timerId id) = .ok id := by
  cases id <;> decide

theorem timerId_injective : Function.Injective timerId := by
  intro id other same
  have both := parseTimerId_timerId id
  rw [same, parseTimerId_timerId other] at both
  exact (Except.ok.inj both).symm

theorem outcomeOf_injective : Function.Injective outcomeOf := by
  intro o p same
  simp only [outcomeOf, WireOutcome.mk.injEq] at same
  obtain ⟨version, opResult, _, group, accepted⟩ := same
  obtain ⟨_, _, _, _⟩ := o
  obtain ⟨_, _, _, _⟩ := p
  simp_all [OpResultGroup.asStr_injective.eq_iff]

theorem WireTrace.from_injective : Function.Injective WireTrace.from := by
  intro t u same
  cases t <;> cases u <;> simp_all [WireTrace.from]

theorem WireResult.from_eq_iff (r q : Except Error Outcome) :
    WireResult.from r = WireResult.from q ↔ Alike (.done r) (.done q) := by
  cases r with
  | ok o =>
    cases q with
    | ok p => simp [WireResult.from, Alike, outcomeOf_injective.eq_iff]
    | error f => simp [WireResult.from, Alike]
  | error e =>
    cases q with
    | ok p => simp [WireResult.from, Alike]
    | error f =>
      simp only [WireResult.from, Alike, WireResult.err.injEq, WireError.mk.injEq,
        ErrorCode.asStr_injective.eq_iff, Action.done.injEq, Except.error.injEq]
      constructor
      · exact fun same => .inr ⟨e, f, rfl, rfl, same⟩
      · rintro (rfl | ⟨_, _, rfl, rfl, same⟩)
        · exact ⟨rfl, rfl⟩
        · exact same

theorem WireAction.from_eq_iff (a b : Action) :
    WireAction.from a = WireAction.from b ↔ Alike a b := by
  have kept (same : WireAction.from a = WireAction.from b)
      (other : ∀ r, a ≠ .done r) : a = b := by
    cases a with
    | done r => exact absurd rfl (other r)
    | _ =>
      cases b <;>
        simp_all [WireAction.from, timerId_injective.eq_iff, Phase.asStr_injective.eq_iff,
          WireTrace.from_injective.eq_iff]
  by_cases ends : ∃ r, a = .done r
  · obtain ⟨r, rfl⟩ := ends
    cases b with
    | done q => simpa [WireAction.from] using WireResult.from_eq_iff r q
    | _ => simp [WireAction.from, Alike]
  · constructor
    · exact fun same => .inl (kept same fun r is => ends ⟨r, is⟩)
    · rintro (rfl | ⟨e, _, rfl, _⟩)
      · rfl
      · exact absurd ⟨_, rfl⟩ ends

/-- The object an action is handed out as. -/
def object (a : Action) : JsValue := (WireAction.from a).serialize

theorem object_eq_iff (a b : Action) : object a = object b ↔ Alike a b := by
  rw [object, object, WireAction.serialize_injective.eq_iff, WireAction.from_eq_iff]

theorem objects_eq_iff (told actions : List Action) :
    told.map object = actions.map object ↔ List.Forall₂ Alike told actions := by
  induction told generalizing actions with
  | nil => cases actions <;> simp
  | cons a rest ih =>
    cases actions with
    | nil => simp
    | cons b others => simp [object_eq_iff, ih]

theorem object_ends (a : Action) :
    (object a).text "type" = some "done" ↔ Mkey.Session.isDone a := by
  cases a <;> simp [object, WireAction.from, WireAction.serialize, JsValue.text, JsValue.field,
    List.lookup, JsValue.asString, Mkey.Session.isDone]

/-! ### What a caller sets -/

/-- The name a caller gives an opening mode by. -/
def modeName : Mode → String
  | .standard => "standard"
  | .office => "office"

def detectionName : Detection → String
  | .appProtocol => "app-protocol"
  | .readOnly => "read-only"
  | .none => "none"

namespace JsOptions

/-- The settings a caller's options stand for: those named, and a session's own for the rest. -/
structure Means (options : JsOptions) (settings : Options) : Prop where
  mode : modeName settings.mode = options.mode.getD (modeName Options.default.mode)
  detection : detectionName settings.detection =
    options.detection.getD (detectionName Options.default.detection)
  timeouts : settings.timeouts =
    { protocolInfoReadMs :=
        options.protocolInfoReadMs.getD Options.default.timeouts.protocolInfoReadMs
      firstPacketMs := options.firstPacketMs.getD Options.default.timeouts.firstPacketMs
      packetMs := options.packetMs.getD Options.default.timeouts.packetMs
      afterFinalResultMs :=
        options.afterFinalResultMs.getD Options.default.timeouts.afterFinalResultMs }
  notifyReadable : settings.notifyReadable =
    options.notifyReadable.getD Options.default.notifyReadable

theorem openingMode_eq_ok_iff {named : Option String} {mode : Mode} :
    openingMode named = .ok mode ↔ modeName mode = named.getD (modeName Options.default.mode) := by
  cases named with
  | none => cases mode <;> simp [openingMode, modeName, Options.default]
  | some name =>
    rw [openingMode, Option.getD_some]
    split_ifs with standard office
    · cases mode <;> simp [modeName, standard]
    · cases mode <;> simp [modeName, office]
    · -- neither name is that of a mode
      cases mode <;> simp [modeName, Ne.symm standard, Ne.symm office]

theorem detectionMode_eq_ok_iff {named : Option String} {detection : Detection} :
    detectionMode named = .ok detection ↔
      detectionName detection = named.getD (detectionName Options.default.detection) := by
  cases named with
  | none => cases detection <;> simp [detectionMode, detectionName, Options.default]
  | some name =>
    rw [detectionMode, Option.getD_some]
    split_ifs with announced readOnly off
    · cases detection <;> simp [detectionName, announced]
    · cases detection <;> simp [detectionName, readOnly]
    · cases detection <;> simp [detectionName, off]
    · cases detection <;>
        simp [detectionName, Ne.symm announced, Ne.symm readOnly, Ne.symm off]

theorem intoOptions_eq_ok_iff {options : JsOptions} {settings : Options} :
    options.intoOptions = .ok settings ↔ options.Means settings := by
  unfold intoOptions
  constructor
  · intro read
    cases named : openingMode options.mode with
    | error e =>
      rw [named] at read
      cases read
    | ok mode =>
      cases detected : detectionMode options.detection with
      | error e =>
        rw [named, detected] at read
        cases read
      | ok detection =>
        rw [named, detected] at read
        cases read
        exact ⟨openingMode_eq_ok_iff.mp named, detectionMode_eq_ok_iff.mp detected, rfl, rfl⟩
  · intro means
    obtain ⟨mode, detection, timeouts, notifyReadable⟩ := settings
    obtain ⟨named, detected, rfl, rfl⟩ := means
    rw [openingMode_eq_ok_iff.mpr named, detectionMode_eq_ok_iff.mpr detected]
    rfl

/-- A random value can be drawn: one of those given, or one of the platform's. -/
def Stocked (options : JsOptions) (os : RandomSource) (platform : Nat) : Prop :=
  match options.random with
  | some values => values ≠ []
  | none => os.next < platform

end JsOptions

theorem randomValue_eq_ok_iff {value : List UInt8} {block : Block} :
    randomValue value = .ok block ↔ value = block.toList := by
  rw [randomValue]
  split
  next sixteen =>
    rw [Except.ok.injEq, Chunk.ext_iff]
  next other =>
    simp only [reduceCtorEq, false_iff]
    rintro rfl
    exact other block.length_toList

theorem randomValues_eq_ok_iff {values : List (List UInt8)} {blocks : List Block} :
    values.mapM randomValue = .ok blocks ↔ values = blocks.map Chunk.toList := by
  induction values generalizing blocks with
  | nil => cases blocks <;> simp [pure, Except.pure]
  | cons value rest ih =>
    rw [List.mapM_cons]
    cases blocks with
    | nil =>
      cases randomValue value with
      | error e => simp [bind, Except.bind]
      | ok first => cases rest.mapM randomValue <;> simp [bind, Except.bind, pure, Except.pure]
    | cons block others =>
      rw [List.map_cons, List.cons.injEq, ← randomValue_eq_ok_iff, ← ih]
      cases randomValue value with
      | error e => simp [bind, Except.bind]
      | ok first => cases rest.mapM randomValue <;> simp [bind, Except.bind, pure, Except.pure]

/-! ### Calls from JavaScript -/

inductive Call where
  | started
  | protocolInfo (info : Option (List UInt8))
  | notification (packet : List UInt8)
  | timer (id : String)
  | linkClosed
  | aborted

/-- The event a call is, unless it names a timer that there is not. -/
def Call.event : Call → Option Event
  | started => some .started
  | protocolInfo info => some (.protocolInfo info)
  | notification packet => some (.notification packet)
  | timer id => (parseTimerId id).toOption.map .timer
  | linkClosed => some .linkClosed
  | aborted => some .aborted

/-- What a call hands out. -/
def handed : Except JsValue JsValue → List JsValue
  | .ok (.array items) => items
  | _ => []

namespace Session

/-- A session is built from a key that can be read, settings that have a meaning and random values
of sixteen bytes, and from nothing else. -/
theorem new_eq_ok_iff {parseAll : List UInt8 → List Ber.Tlv} {platform : Nat}
    {mobileKeyTlv : List UInt8} {given : Option JsOptions} {s : Session} :
    new parseAll platform mobileKeyTlv given = .ok s ↔
      ∃ key settings values, MobileKey.fromBytes parseAll mobileKeyTlv = .ok key ∧
        (given.getD .default).Means settings ∧
        (given.getD .default).random = Option.map (List.map Chunk.toList) values ∧
        s = ⟨.start key settings (values.map fixedRandom),
          (values.map List.length).getD platform⟩ := by
  unfold new
  -- in the order of the constructor: the key, the options, the random values
  cases read : MobileKey.fromBytes parseAll mobileKeyTlv with
  | error e => simp [Except.mapError, bind, Except.bind]
  | ok key =>
    cases asked : (given.getD .default).intoOptions with
    | error e =>
      have meaningless : ∀ settings, ¬(given.getD .default).Means settings := by
        intro settings means
        rw [JsOptions.intoOptions_eq_ok_iff.mpr means] at asked
        cases asked
      simp [Except.mapError, bind, Except.bind, asked, meaningless]
    | ok settings =>
      have means : ∀ others, (given.getD .default).Means others ↔ others = settings := by
        intro others
        rw [← JsOptions.intoOptions_eq_ok_iff, asked, Except.ok.injEq, eq_comm]
      cases replayed : (given.getD .default).random with
      | none =>
        simp only [Except.mapError, bind, Except.bind, asked, replayed, means, pure, Except.pure]
        constructor
        · intro built
          cases built
          exact ⟨key, settings, none, rfl, rfl, rfl, rfl⟩
        · rintro ⟨_, _, values, same, rfl, unset, rfl⟩
          cases same
          cases values with
          | none => rfl
          | some _ => cases unset
      | some values =>
        simp only [Except.mapError, bind, Except.bind, asked, replayed, means, pure, Except.pure]
        cases drawn : values.mapM randomValue with
        | error e =>
          constructor
          · intro built
            cases built
          · rintro ⟨_, _, blocks, _, _, set, _⟩
            cases blocks with
            | none => cases set
            | some blocks =>
              rw [randomValues_eq_ok_iff.mpr (Option.some.inj set)] at drawn
              cases drawn
        | ok blocks =>
          constructor
          · intro built
            cases built
            exact ⟨key, settings, some blocks, rfl, rfl,
              congrArg some (randomValues_eq_ok_iff.mp drawn), rfl⟩
          · rintro ⟨_, _, others, same, rfl, set, rfl⟩
            cases same
            cases others with
            | none => cases set
            | some others =>
              rw [randomValues_eq_ok_iff.mpr (Option.some.inj set)] at drawn
              cases drawn
              rfl

variable (aes : BlockCipher) (os : RandomSource)

def call (s : Session) : Call → Guarded (Session × Except JsValue JsValue)
  | .started => s.started aes os
  | .protocolInfo info => s.protocolInfo aes os info
  | .notification packet => s.notification aes os packet
  | .timer id => s.timer aes os id
  | .linkClosed => s.linkClosed aes os
  | .aborted => s.aborted aes os

theorem call_event (s : Session) {call : Call} {event : Event} (heard : call.event = some event) :
    s.call aes os call = s.poll aes os event := by
  cases call with
  | timer id =>
    simp only [Call.event, Option.map_eq_some_iff] at heard
    obtain ⟨timer, parsed, rfl⟩ := heard
    rw [Session.call, Session.timer]
    cases told : parseTimerId id with
    | error e => simp [told, Except.toOption] at parsed
    | ok there =>
      obtain rfl : there = timer := by simpa [told, Except.toOption] using parsed
      rfl
  | _ =>
    cases heard
    rfl

/-- What a call that is refused is told. -/
def refusal : Call → JsValue
  | .timer id => .string s!"Invalid data received: unknown timer id {id}"
  | _ => .null

/-- A call that is no event names a timer nobody armed, and changes nothing. -/
theorem call_refused (s : Session) {call : Call} (heard : call.event = none) :
    (∃ name, call = .timer name ∧ ∀ id, name ≠ timerId id) ∧
      s.call aes os call = .ok (s, .error (refusal call)) := by
  cases call with
  | timer name =>
    refine ⟨⟨name, rfl, ?_⟩, ?_⟩
    · rintro id rfl
      rw [Call.event, parseTimerId_timerId] at heard
      cases heard
    · rw [Session.call, Session.timer]
      simp only [Call.event, Option.map_eq_none_iff] at heard
      unfold parseTimerId at heard ⊢
      split_ifs at heard ⊢ with first packet final
      · cases heard
      · cases heard
      · cases heard
      · rfl
  | _ => cases heard

/-- The name of a timer that there is. -/
theorem call_timer (s : Session) (id : TimerId) :
    s.call aes os (.timer (timerId id)) = s.poll aes os (.timer id) :=
  call_event aes os s (by rw [Call.event, parseTimerId_timerId]; rfl)

/-- A call throws exactly where it names a timer there is not, and changes nothing then. -/
theorem call_throws (s : Session) (c : Call) :
    (∀ t e, s.call aes os c = .ok (t, .error e) → t = s) ∧
      ((∃ t e, s.call aes os c = .ok (t, .error e)) ↔
        ∃ name, c = .timer name ∧ ∀ id, name ≠ timerId id) := by
  cases heard : c.event with
  | none =>
    obtain ⟨unknown, refused⟩ := call_refused aes os s heard
    simp [refused, unknown]
  | some event =>
    -- a call that is heard is answered with an array
    have answered (t : Session) (e : JsValue) : s.call aes os c ≠ .ok (t, .error e) := by
      rw [call_event aes os s heard, poll]
      intro thrown
      obtain ⟨polled, _, same⟩ := Guarded.bind_eq_ok.mp thrown
      cases same
    refine ⟨fun t e thrown => absurd thrown (answered t e), ?_⟩
    constructor
    · rintro ⟨t, e, thrown⟩
      exact absurd thrown (answered t e)
    · rintro ⟨name, rfl, unknown⟩
      -- a name that is heard is the name of a timer
      simp only [Call.event, Option.map_eq_some_iff] at heard
      obtain ⟨id, parsed, _⟩ := heard
      refine absurd ?_ (unknown id)
      unfold parseTimerId at parsed
      split_ifs at parsed with first packet final <;> cases parsed <;> assumption

/-! ### A session that nothing stops -/

/-- A call as it is answered where nothing stops it. -/
def answer (s : Session) (c : Call) : Session × Except JsValue JsValue :=
  match c.event with
  | none => (s, .error (refusal c))
  | some event =>
    let (inner, actions) := s.inner.poll aes os event
    ({ s with inner }, .ok (.array (actions.map object)))

theorem adapts : Adapter.Adapts (answer aes os) (Mkey.Session.poll aes os) Session.inner Call.event
    handed (fun actions => actions.map object) := by
  constructor
  · intro s call event heard
    rw [answer, heard]
    exact ⟨rfl, rfl⟩
  · intro s call heard
    rw [answer, heard]
    exact ⟨rfl, rfl⟩

theorem run_limit (s : Session) (calls : List Call) :
    (run (answer aes os) s calls).limit = s.limit := by
  apply run_invariant (fun t => t.limit = s.limit) ?_ s rfl calls
  intro t c kept
  rw [answer]
  split
  · exact kept
  · exact kept

/-- A call is answered as soon as its poll returns. -/
theorem call_eq_answer {s : Session} {c : Call}
    (returns : ∀ event, c.event = some event →
      Checked.poll aes s.limit os s.inner event = .ok (s.inner.poll aes os event)) :
    s.call aes os c = .ok (s.answer aes os c) := by
  cases heard : c.event with
  | none => rw [(call_refused aes os s heard).2, answer, heard]
  | some event =>
    rw [call_event aes os s heard, poll, returns event heard, answer, heard]
    rfl

/-- With one random value to draw, and fewer refusals than are counted, every call is answered. -/
theorem runs_answer {key : MobileKey} {settings : Options} {random : Option RandomSource}
    {limit : Nat} {calls : List Call} (stocked : (random.getD os).next < limit)
    (few : (trace (Mkey.Session.poll aes os) (.start key settings random)
      (calls.filterMap Call.event)).countP (Mkey.Session.refusedKn aes) < 2 ^ 32) :
    Guarded.runs (call aes os) ⟨.start key settings random, limit⟩ calls =
      .ok (run (answer aes os) ⟨.start key settings random, limit⟩ calls,
        outputs (answer aes os) ⟨.start key settings random, limit⟩ calls) := by
  apply Guarded.runs_eq
  intro front c back split
  apply call_eq_answer
  intro event heard
  have behind := (adapts aes os).run ⟨.start key settings random, limit⟩ front
  rw [run_limit, behind]
  apply Checked.poll_eq
  · -- a stack that may still draw has not drawn yet, and the one value is there
    intro session running current ready
    have drawn := Mkey.Session.drawn_run aes os key settings random (front.filterMap Call.event)
    rw [Mkey.Session.Drawn, current] at drawn
    rw [(drawn.2 running).2 ready]
    exact stocked
  · -- the refusals so far are among those of the whole run
    rintro session packet running current rfl refused
    have cut : calls.filterMap Call.event =
        front.filterMap Call.event ++ .notification packet :: back.filterMap Call.event := by
      rw [split, List.filterMap_append, List.filterMap_cons_some heard]
    exact Mkey.Session.fits_run aes os key settings random few cut running current refused

/-- A host's whole view of an attempt: a session built from the key and from what was set, its
actions told from their objects, the timer it is to arm under a name that comes back as that timer,
an end that is told once, and nothing thrown but for the name of a timer that there is not. -/
theorem browser_session {parseAll : List UInt8 → List Ber.Tlv} {platform : Nat}
    {mobileKeyTlv : List UInt8} {given : Option JsOptions} {s : Session}
    (built : new parseAll platform mobileKeyTlv given = .ok s)
    (stocked : (given.getD .default).Stocked os platform) (calls : List Call)
    (few : (trace (Mkey.Session.poll aes os) s.inner (calls.filterMap Call.event)).countP
      (Mkey.Session.refusedKn aes) < 2 ^ 32) :
    let events := calls.filterMap Call.event
    let actions := (outputs (Mkey.Session.poll aes os) s.inner events).flatten
    (∃ key settings values, MobileKey.fromBytes parseAll mobileKeyTlv = .ok key ∧
      (given.getD .default).Means settings ∧
      (given.getD .default).random = Option.map (List.map Chunk.toList) values ∧
      s.inner = .start key settings (values.map fixedRandom)) ∧
    ∃ last replies, Guarded.runs (call aes os) s calls = .ok (last, replies) ∧
      last.inner = run (Mkey.Session.poll aes os) s.inner events ∧
      (∀ told : List Action,
        replies.flatMap handed = told.map object ↔ List.Forall₂ Alike told actions) ∧
      List.Forall₂ (fun a o => ∀ id ms, a = .setTimer id ms →
        ∃ name, o.text "id" = some name ∧
          ∀ t : Session, t.call aes os (.timer name) = t.poll aes os (.timer id))
        actions (replies.flatMap handed) ∧
      (∀ (t : Session) (c : Call),
        (∀ u e, t.call aes os c = .ok (u, .error e) → u = t) ∧
          ((∃ u e, t.call aes os c = .ok (u, .error e)) ↔
            ∃ name, c = .timer name ∧ ∀ id, name ≠ timerId id)) ∧
      (last.finished ↔ ∃ o ∈ replies.flatMap handed, o.text "type" = some "done") ∧
      (replies.flatMap handed).countP (fun o => o.text "type" = some "done") ≤ 1 := by
  intro events actions
  obtain ⟨key, settings, values, read, means, given_, rfl⟩ := new_eq_ok_iff.mp built
  refine ⟨⟨key, settings, values, read, means, given_, rfl⟩, ?_⟩
  have one : ((values.map fixedRandom).getD os).next < (values.map List.length).getD platform := by
    rw [JsOptions.Stocked, given_] at stocked
    cases values with
    | none => exact stocked
    | some values =>
      rw [Option.map_some, Option.map_some, Option.getD_some, Option.getD_some]
      refine List.length_pos_iff.mpr ?_
      rintro rfl
      exact stocked rfl
  have simulated : (outputs (answer aes os) ⟨.start key settings (values.map fixedRandom),
      (values.map List.length).getD platform⟩ calls).flatMap handed = actions.map object := by
    rw [(adapts aes os).handed, List.map_flatten, List.flatMap_def]
  have accepted := Mkey.Session.run_accepted aes os
    (.start key settings (values.map fixedRandom)) events
  have behind := (adapts aes os).run
    ⟨.start key settings (values.map fixedRandom), (values.map List.length).getD platform⟩ calls
  refine ⟨_, _, runs_answer aes os one few, behind, ?_, ?_, call_throws aes os, ?_, ?_⟩
  · intro told
    rw [simulated, eq_comm, objects_eq_iff]
  · rw [simulated, List.forall₂_map_right_iff, List.forall₂_same]
    rintro a _ id ms rfl
    exact ⟨timerId id, rfl, fun t => call_timer aes os t id⟩
  · rw [Session.finished, behind, ← Mkey.Session.stage_ended,
      Mkey.Session.accepted_ended accepted, simulated]
    constructor
    · rintro ⟨result, member⟩
      exact ⟨_, List.mem_map_of_mem member, (object_ends _).mpr rfl⟩
    · rintro ⟨o, member, told⟩
      obtain ⟨a, among, rfl⟩ := List.mem_map.mp member
      -- only the end is told as an end
      have ends := (object_ends a).mp told
      cases a with
      | done result => exact ⟨result, among⟩
      | _ => cases ends
  · have once := Mkey.Session.Stage.countP_le_one .finishing Mkey.Session.isDone
      (fun _ _ _ => Mkey.Session.Stage.done_crosses) accepted
    rw [simulated, List.countP_map]
    convert once using 2
    funext a
    simp [object_ends]

/-- A recorded exchange, with the random value it was recorded with. -/
def replayOptions : JsOptions :=
  { JsOptions.default with mode := some "office", random := some [List.replicate 16 0x22] }

/-- A key that holds the tags it comes into memory with, and no other. -/
def bareKey : MobileKey :=
  { MobileKey.new (Block.replicate 0x42) with tags := MobileKey.materialise fun _ => none }

def replayed : Session :=
  ⟨.start bareKey { Options.default with mode := .office }
    (some (fixedRandom [Block.replicate 0x22])), 1⟩

/-- A challenge, then a timer that there is not, and one that there is. -/
def replayCalls : List Call :=
  [.started, .protocolInfo (some [0x01, 0x00, 0x02]), .notification [0x01, 0x01], .timer "late",
    .timer "packet"]

theorem browser_session_replayed :
    let os : RandomSource := ⟨fun _ => Block.replicate 0, 0⟩
    ∃ last replies, Guarded.runs (call aes128 os) replayed replayCalls = .ok (last, replies) ∧
      last.inner = run (Mkey.Session.poll aes128 os) replayed.inner
        (replayCalls.filterMap Call.event) ∧
      (last.finished ↔ ∃ o ∈ replies.flatMap handed, o.text "type" = some "done") ∧
      (replies.flatMap handed).countP (fun o => o.text "type" = some "done") ≤ 1 := by
  intro os
  have built : new Ber.parseAll 0 ([0xC0, 0x00, 0xC1, 0x00, 0xC2, 0x10] ++ List.replicate 16 0x42)
      (some replayOptions) = .ok replayed :=
    new_eq_ok_iff.mpr ⟨bareKey, { Options.default with mode := .office },
      some [Block.replicate 0x22], rfl, ⟨rfl, rfl, rfl, rfl⟩, rfl, rfl⟩
  have stocked : replayOptions.Stocked os 0 := by
    intro none_
    cases none_
  obtain ⟨_, last, replies, returned, behind, _, _, _, finished, once⟩ :=
    browser_session aes128 os built stocked replayCalls (by decide +kernel)
  exact ⟨last, replies, returned, behind, finished, once⟩

end Session

end Mkey.Wasm
