import Mkey.Core.Error
import Mkey.Core.OpResult

/-! What crosses the line between the session and its shell. -/
namespace Mkey

/-- How the session works out which stack the lock speaks, before it subscribes. -/
inductive Detection where
  | appProtocol
  | readOnly
  | none
  deriving DecidableEq

inductive Mode where
  | standard
  | office
  deriving DecidableEq

def Mode.toByte : Mode → UInt8
  | standard => 0x00
  | office => 0x01

inductive Phase where
  | detectingVersion
  | authenticating
  | exchanging
  | finished
  deriving DecidableEq

def Phase.asStr : Phase → String
  | detectingVersion => "detecting-version"
  | authenticating => "authenticating"
  | exchanging => "exchanging"
  | finished => "finished"

theorem Phase.asStr_injective : Function.Injective Phase.asStr := by
  intro phase other
  cases phase <;> cases other <;> decide

inductive TimerId where
  | firstPacket
  | packet
  | afterFinalResult
  deriving DecidableEq

inductive Trace where
  | rx (bytes : List UInt8)
  | tx (bytes : List UInt8)
  | read (bytes : List UInt8)
  | info (message : String)
  deriving DecidableEq

structure Timeouts where
  protocolInfoReadMs : UInt32
  firstPacketMs : UInt32
  packetMs : UInt32
  afterFinalResultMs : UInt32

def Timeouts.default : Timeouts := ⟨1000, 30000, 10000, 3000⟩

structure Options where
  mode : Mode
  detection : Detection
  timeouts : Timeouts
  notifyReadable : Bool

def Options.default : Options := ⟨.standard, .appProtocol, .default, true⟩

/-- How the lock answered. A rejection is an answer, not an error. -/
structure Outcome where
  protocolVersion : UInt8
  opResult : Option UInt8
  group : OpResultGroup
  accepted : Bool
  deriving DecidableEq

def Outcome.new (protocolVersion : UInt8) (opResult : Option UInt8) : Outcome :=
  let group := (opResult.map .of).getD .unknown
  { protocolVersion, opResult, group, accepted := group.isAccepted }

def Outcome.opResultName (outcome : Outcome) : String :=
  (outcome.opResult.map decodeOpResult).getD "UNKNOWN"

/-- Something that happened to the link, or to the clock. -/
inductive Event where
  | started
  | protocolInfo (bytes : Option (List UInt8))
  | notification (packet : List UInt8)
  | timer (id : TimerId)
  | linkClosed
  | aborted
  deriving DecidableEq

/-- Something the shell must do, in the order given. -/
inductive Action where
  | announceAppProtocol
  | readProtocolInfo (timeoutMs : UInt32)
  | subscribe
  | write (bytes : List UInt8)
  | pause (ms : UInt32)
  | setTimer (id : TimerId) (afterMs : UInt32)
  | phase (phase : Phase)
  | trace (trace : Trace)
  | done (result : Except Error Outcome)

end Mkey
