import Mkey.Core.Base62
import Mkey.Core.MobileKey
import Mkey.Core.OpResult

/-!
# Command layer

OPEN, CLOSE, READ_TAG and WRITE_TAG against a mobile key. The layer keeps no
security context of its own: whether a command came encrypted is a flag its
caller sets around each call.
-/
namespace Mkey

inductive CommandOpCode where
  | openKey
  | close
  | readTag
  | writeTag
  deriving DecidableEq

def CommandOpCode.tryFrom (value : UInt8) : Except Error CommandOpCode :=
  if value = 0x00 then .ok .openKey
  else if value = 0x01 then .ok .close
  else if value = 0x02 then .ok .readTag
  else if value = 0x03 then .ok .writeTag
  else .error (.invalidData s!"Unknown command OpCode: 0x{Hex.byte true value}")

inductive CommandStatus where
  | success
  | genericError
  | notFound
  deriving DecidableEq

def CommandStatus.toByte : CommandStatus → UInt8
  | success => 0x00
  | genericError => 0x01
  | notFound => 0x02

inductive JustinState where
  | ready
  | connected
  deriving DecidableEq

class MobileKeyStore (S : Type) where
  getKey : S → String → Option MobileKey

/-- The store of a stack whose key is chosen beforehand: it never finds one. -/
inductive NoopKeyStore where
  | mk

instance : MobileKeyStore NoopKeyStore where
  getKey _ _ := none

structure JustinProtocolManager (S : Type) where
  state : JustinState
  keyStore : S
  currentKey : Option MobileKey
  secureSession : Bool
  lastAuditOpResult : Option UInt8
  knReadRefusals : UInt32

def tagAudit : UInt8 := 0x0B
def tagKnKey : UInt8 := 0x02

def isLegacyTag (tagId : UInt8) : Bool := decide (tagId ≤ 0x02)

namespace JustinProtocolManager

variable {S : Type}

def new (keyStore : S) : JustinProtocolManager S :=
  { state := .ready, keyStore, currentKey := none, secureSession := false,
    lastAuditOpResult := none, knReadRefusals := 0 }

def newWithKey (key : MobileKey) : JustinProtocolManager NoopKeyStore :=
  { state := .connected, keyStore := .mk, currentKey := some key, secureSession := false,
    lastAuditOpResult := none, knReadRefusals := 0 }

def setSecureSession (j : JustinProtocolManager S) (secure : Bool) : JustinProtocolManager S :=
  { j with secureSession := secure }

def reset (j : JustinProtocolManager S) : JustinProtocolManager S :=
  { j with state := .ready, currentKey := none, secureSession := false,
           lastAuditOpResult := none, knReadRefusals := 0 }

/-- Every command handler answers with a status byte, whatever it does. -/
abbrev Answer (S : Type) := JustinProtocolManager S × List UInt8

def refusesKnKey (j : JustinProtocolManager S) (tagId : UInt8) : Bool :=
  tagId == tagKnKey && !j.secureSession

def canReadTag (j : JustinProtocolManager S) (tagId : UInt8) (permissions : Permissions) : Bool :=
  if j.refusesKnKey tagId then false
  else if isLegacyTag tagId then true
  else if !permissions.contains .readable then false
  else if j.secureSession then true
  else permissions.contains .readWithoutSecurity

def canWriteTag (j : JustinProtocolManager S) (tagId : UInt8) (permissions : Permissions) : Bool :=
  if isLegacyTag tagId then false
  else if tagId == tagAudit then true
  else if !permissions.contains .writable then false
  else if j.secureSession then true
  else permissions.contains .writeWithoutSecurity

def handleOpen [MobileKeyStore S] (j : JustinProtocolManager S) (payload : List UInt8) :
    Answer S :=
  -- an open key has to be closed first, even to open the same one
  if j.state = .connected then (j, [CommandStatus.genericError.toByte])
  else if payload.length < 8 then (j, [CommandStatus.genericError.toByte])
  else
    let identifier := computeKeyIdentifier (payload.take 8)
    match MobileKeyStore.getKey j.keyStore identifier with
    | some key =>
        ({ j with currentKey := some key, state := .connected }, [CommandStatus.success.toByte])
    | none => (j, [CommandStatus.notFound.toByte])

def handleClose (j : JustinProtocolManager S) (_payload : List UInt8) : Answer S :=
  if j.state ≠ .connected then (j, [CommandStatus.genericError.toByte])
  -- the key stays behind, out of reach while nothing is connected
  else ({ j with state := .ready }, [CommandStatus.success.toByte])

def handleReadTag (j : JustinProtocolManager S) (payload : List UInt8) : Answer S :=
  if j.state ≠ .connected then (j, [CommandStatus.genericError.toByte])
  else
    match payload with
    | [] => (j, [CommandStatus.genericError.toByte])
    | tagId :: _ =>
      match j.currentKey with
      | none => (j, [CommandStatus.genericError.toByte])
      | some key =>
        match key.getTag tagId with
        | none => (j, [CommandStatus.notFound.toByte])
        | some tag =>
          -- kN asked for in the clear is the only refusal that is counted
          if j.refusesKnKey tagId then
            ({ j with knReadRefusals := j.knReadRefusals + 1 },
              [CommandStatus.genericError.toByte])
          else if !j.canReadTag tagId tag.permissions then
            -- an unreadable tag is denied as if it were not there
            if !tag.permissions.contains .readable then (j, [CommandStatus.notFound.toByte])
            else (j, [CommandStatus.genericError.toByte])
          else (j, CommandStatus.success.toByte :: tag.data)

def handleWriteTag (j : JustinProtocolManager S) (payload : List UInt8) : Answer S :=
  if j.state ≠ .connected then (j, [CommandStatus.genericError.toByte])
  else
    match payload with
    -- a write needs at least one byte of data behind the tag id
    | [] | [_] => (j, [CommandStatus.genericError.toByte])
    | tagId :: first :: more =>
      let data := first :: more
      if isLegacyTag tagId then (j, [CommandStatus.genericError.toByte])
      else
        match j.currentKey with
        | none => (j, [CommandStatus.genericError.toByte])
        | some key =>
          match key.getTag tagId with
          | none => (j, [CommandStatus.notFound.toByte])
          | some tag =>
            if !j.canWriteTag tagId tag.permissions then
              if !tag.permissions.contains .writable then (j, [CommandStatus.notFound.toByte])
              else (j, [CommandStatus.genericError.toByte])
            else
              let j := { j with currentKey := some (key.setTagData tagId data) }
              -- the reader's verdict: the first byte written to the audit tag
              let j := if tagId == tagAudit then { j with lastAuditOpResult := some first } else j
              (j, [CommandStatus.success.toByte])

def processCommand [MobileKeyStore S] (j : JustinProtocolManager S) (data : List UInt8) :
    JustinProtocolManager S × Except Error (List UInt8) :=
  match data with
  | [] => (j, .error (.invalidData "Empty command"))
  | opcode :: payload =>
    match CommandOpCode.tryFrom opcode with
    | .error e => (j, .error e)
    | .ok opcode =>
      let (j, response) :=
        match opcode with
        | .openKey => j.handleOpen payload
        | .close => j.handleClose payload
        | .readTag => j.handleReadTag payload
        | .writeTag => j.handleWriteTag payload
      (j, .ok response)

end JustinProtocolManager

end Mkey
