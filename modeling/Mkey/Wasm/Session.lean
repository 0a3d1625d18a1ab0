import Mkey.Checked.Session
import Mkey.Core.MobileKey
import Mkey.Wasm.Wire

/-!
# The session, as the browser has it

A call from JavaScript becomes an event, and the actions it answers with become
plain objects. What goes wrong is thrown as a string; a panic stops the module.
-/
namespace Mkey.Wasm

open Ber (Tlv)

/-- What a caller may set. `random` is there to replay a recorded exchange. -/
structure JsOptions where
  mode : Option String
  detection : Option String
  protocolInfoReadMs : Option UInt32
  firstPacketMs : Option UInt32
  packetMs : Option UInt32
  afterFinalResultMs : Option UInt32
  notifyReadable : Option Bool
  random : Option (List (List UInt8))

def JsOptions.default : JsOptions := ⟨none, none, none, none, none, none, none, none⟩

def jsError (message : String) : JsValue := .string message

namespace JsOptions

def openingMode : Option String → Except JsValue Mode
  | none => .ok .standard
  | some name =>
    if name = "standard" then .ok .standard
    else if name = "office" then .ok .office
    else .error (jsError s!"unknown opening mode {name}")

def detectionMode : Option String → Except JsValue Detection
  | none => .ok .appProtocol
  | some name =>
    if name = "app-protocol" then .ok .appProtocol
    else if name = "read-only" then .ok .readOnly
    else if name = "none" then .ok .none
    else .error (jsError s!"unknown detection mode {name}")

def intoOptions (options : JsOptions) : Except JsValue Options := do
  let defaults := Timeouts.default
  let mode ← openingMode options.mode
  let detection ← detectionMode options.detection
  return {
    mode, detection
    timeouts := {
      protocolInfoReadMs := options.protocolInfoReadMs.getD defaults.protocolInfoReadMs
      firstPacketMs := options.firstPacketMs.getD defaults.firstPacketMs
      packetMs := options.packetMs.getD defaults.packetMs
      afterFinalResultMs := options.afterFinalResultMs.getD defaults.afterFinalResultMs }
    notifyReadable := options.notifyReadable.getD true }

end JsOptions

/-- The values of a `FixedRandom`, which may be drawn no more often than there are values. -/
def randomValue (value : List UInt8) : Except JsValue Block :=
  if sixteen : value.length = 16 then .ok ⟨value, sixteen⟩
  else .error (jsError "every random value must be 16 bytes")

/-- Replays a list of values. What stands beyond them is never drawn: the session that replays them
stops there. -/
def fixedRandom (values : List Block) : RandomSource :=
  ⟨fun i => values.getD i (Block.replicate 0), 0⟩

/-- One opening attempt, and how many random values there are for it. -/
structure Session where
  inner : Mkey.Session
  limit : Nat

namespace Session

/-- Without options, every option is the default. The platform gives so many random values. -/
def new (parseAll : List UInt8 → List Tlv) (platform : Nat) (mobileKeyTlv : List UInt8)
    (options : Option JsOptions) : Except JsValue Session := do
  let key ← (MobileKey.fromBytes parseAll mobileKeyTlv).mapError fun e => jsError e.display
  let options := options.getD .default
  let settings ← options.intoOptions
  match options.random with
  | some values =>
    let values ← values.mapM randomValue
    return ⟨.start key settings (some (fixedRandom values)), values.length⟩
  | none => return ⟨.start key settings none, platform⟩

def finished (s : Session) : Bool := s.inner.finished

variable (aes : BlockCipher) (os : RandomSource)

/-- Every answer is the array of the actions' objects. -/
def poll (s : Session) (event : Event) : Guarded (Session × Except JsValue JsValue) := do
  let (inner, actions) ← Checked.poll aes s.limit os s.inner event
  return ({ s with inner },
    .ok (.array (actions.map fun action => (WireAction.from action).serialize)))

def started (s : Session) : Guarded (Session × Except JsValue JsValue) := s.poll aes os .started

def protocolInfo (s : Session) (info : Option (List UInt8)) :
    Guarded (Session × Except JsValue JsValue) := s.poll aes os (.protocolInfo info)

def notification (s : Session) (packet : List UInt8) :
    Guarded (Session × Except JsValue JsValue) := s.poll aes os (.notification packet)

def timer (s : Session) (id : String) : Guarded (Session × Except JsValue JsValue) :=
  match parseTimerId id with
  | .error e => return (s, .error (jsError e.display))
  | .ok id => s.poll aes os (.timer id)

def linkClosed (s : Session) : Guarded (Session × Except JsValue JsValue) :=
  s.poll aes os .linkClosed

def aborted (s : Session) : Guarded (Session × Except JsValue JsValue) := s.poll aes os .aborted

end Session

end Mkey.Wasm
