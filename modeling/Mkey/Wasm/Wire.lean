import Mkey.Session.Types

/-!
# The shapes that cross into JavaScript

An action of the session, written out under the spellings of the published
interface, and the plain object its serializer makes of it.
-/
namespace Mkey.Wasm

inductive WireTrace where
  | rx (bytes : List UInt8)
  | tx (bytes : List UInt8)
  | read (bytes : List UInt8)
  | info (message : String)
  deriving DecidableEq

structure WireOutcome where
  protocolVersion : UInt8
  opResult : Option UInt8
  opResultName : String
  group : String
  accepted : Bool
  deriving DecidableEq

structure WireError where
  code : String
  message : String
  deriving DecidableEq

inductive WireResult where
  | ok (ok : WireOutcome)
  | err (error : WireError)
  deriving DecidableEq

inductive WireAction where
  | announceAppProtocol
  | readProtocolInfo (timeoutMs : UInt32)
  | subscribe
  | write (bytes : List UInt8)
  | pause (ms : UInt32)
  | setTimer (id : String) (afterMs : UInt32)
  | phase (phase : String)
  | trace (trace : WireTrace)
  | done (result : WireResult)
  deriving DecidableEq

def timerId : TimerId → String
  | .firstPacket => "first-packet"
  | .packet => "packet"
  | .afterFinalResult => "after-final-result"

/-- A timer id coming back from JavaScript. -/
def parseTimerId (id : String) : Except Error TimerId :=
  if id = "first-packet" then .ok .firstPacket
  else if id = "packet" then .ok .packet
  else if id = "after-final-result" then .ok .afterFinalResult
  else .error (.invalidData s!"unknown timer id {id}")

def outcomeOf (outcome : Outcome) : WireOutcome :=
  { protocolVersion := outcome.protocolVersion
    opResult := outcome.opResult
    opResultName := outcome.opResultName
    group := outcome.group.asStr
    accepted := outcome.accepted }

def WireTrace.from : Trace → WireTrace
  | .rx bytes => .rx bytes
  | .tx bytes => .tx bytes
  | .read bytes => .read bytes
  | .info message => .info message

def WireResult.from : Except Error Outcome → WireResult
  | .ok outcome => .ok (outcomeOf outcome)
  | .error e => .err ⟨e.code.asStr, e.display⟩

def WireAction.from : Action → WireAction
  | .announceAppProtocol => .announceAppProtocol
  | .readProtocolInfo timeoutMs => .readProtocolInfo timeoutMs
  | .subscribe => .subscribe
  | .write bytes => .write bytes
  | .pause ms => .pause ms
  | .setTimer id afterMs => .setTimer (timerId id) afterMs
  | .phase p => .phase p.asStr
  | .trace t => .trace (.from t)
  | .done result => .done (.from result)

/-- A JavaScript value, as far as the serializer makes one. -/
inductive JsValue where
  | null
  | boolean (value : Bool)
  | number (value : Nat)
  | string (value : String)
  | bytes (value : List UInt8)
  | array (items : List JsValue)
  | object (fields : List (String × JsValue))

/-! An enumeration's tag comes first among the fields of its object; what is missing is `null`. -/

def WireTrace.fields : WireTrace → List (String × JsValue)
  | rx value => [("kind", .string "rx"), ("bytes", .bytes value)]
  | tx value => [("kind", .string "tx"), ("bytes", .bytes value)]
  | read value => [("kind", .string "read"), ("bytes", .bytes value)]
  | info message => [("kind", .string "info"), ("message", .string message)]

def WireOutcome.serialize (outcome : WireOutcome) : JsValue :=
  .object
    [("protocolVersion", .number outcome.protocolVersion.toNat),
     ("opResult", (outcome.opResult.map fun r => .number r.toNat).getD .null),
     ("opResultName", .string outcome.opResultName),
     ("group", .string outcome.group),
     ("accepted", .boolean outcome.accepted)]

def WireError.serialize (error : WireError) : JsValue :=
  .object [("code", .string error.code), ("message", .string error.message)]

/-- No tag tells the two results apart, only the name of their field. -/
def WireResult.serialize : WireResult → JsValue
  | ok outcome => .object [("ok", outcome.serialize)]
  | err error => .object [("error", error.serialize)]

def WireAction.serialize : WireAction → JsValue
  | announceAppProtocol => .object [("type", .string "announce-app-protocol")]
  | readProtocolInfo timeoutMs =>
      .object [("type", .string "read-protocol-info"), ("timeoutMs", .number timeoutMs.toNat)]
  | subscribe => .object [("type", .string "subscribe")]
  | write value => .object [("type", .string "write"), ("bytes", .bytes value)]
  | pause ms => .object [("type", .string "pause"), ("ms", .number ms.toNat)]
  | setTimer id afterMs =>
      .object
        [("type", .string "set-timer"), ("id", .string id), ("afterMs", .number afterMs.toNat)]
  | phase name => .object [("type", .string "phase"), ("phase", .string name)]
  | trace t => .object (("type", .string "trace") :: t.fields)
  | done result => .object [("type", .string "done"), ("result", result.serialize)]

end Mkey.Wasm
