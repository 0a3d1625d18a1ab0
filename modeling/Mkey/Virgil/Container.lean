import Mkey.Core.Error
import Mkey.Lib.Guarded
import Mkey.Lib.Search

/-!
# Virgil containers

A mobile key comes encrypted in a container: a signature, a marker, a DER
SEQUENCE that says for whom it is, and the ciphertext.
-/
namespace Mkey.Virgil

open Guarded Search

/-- Everything provisioning can fail at. -/
inductive Error where
  | key (error : Mkey.Error)
  | container (message : String)
  | rsaDecryption (message : String)
  | wasm (message : String)
  deriving DecidableEq

structure VirgilContainer where
  messageInfo : List UInt8
  encryptedContent : List UInt8
  recipientId : List UInt8
  deriving DecidableEq

/-- `VIRGIL-DATA-SIGNATURE` -/
def marker : List UInt8 := "VIRGIL-DATA-SIGNATURE".toList.map fun c => c.toNat.toUInt8

/-- What stands before the id of a recipient. -/
def recipientPattern : List UInt8 := [0xA0, 0x22, 0x04, 0x20]

/-- The loop of `extractRecipientId`, over the places that are left. -/
def extractRecipientIdAt (messageInfo : List UInt8) : List Nat → Guarded (Option (List UInt8))
  | [] => return none
  | i :: rest => do
      if ← readsAs messageInfo i recipientPattern then
        let recipientId ← slice messageInfo (i + 4) (i + 4 + 32)
        return some recipientId
      else extractRecipientIdAt messageInfo rest

def extractRecipientId (messageInfo : List UInt8) : Guarded (Option (List UInt8)) :=
  extractRecipientIdAt messageInfo (List.range (messageInfo.length - 35))

/-- The length that `message_info` declares for its body, and how long its header is. -/
def messageInfoLength (afterMarker : List UInt8) : Guarded (Except Error (Nat × Nat)) := do
  let form ← index afterMarker 1
  if form < 0x80 then return .ok (form.toNat, 2)
  else if form = 0x81 then
    let length ← index afterMarker 2
    return .ok (length.toNat, 3)
  else if form = 0x82 then
    let high ← index afterMarker 2
    let low ← index afterMarker 3
    return .ok (high.toNat <<< 8 ||| low.toNat, 4)
  else
    return .error (.container s!"Unsupported ASN.1 length encoding: 0x{Hex.byte false form}")

/-- What `parseVirgilContainer` does with the bytes behind the marker. -/
def parseAfterMarker (afterMarker : List UInt8) : Guarded (Except Error VirgilContainer) := do
  if afterMarker = [] then
    return .error (.container "Expected SEQUENCE tag (0x30) at start of message_info")
  if (← index afterMarker 0) ≠ 0x30 then
    return .error (.container "Expected SEQUENCE tag (0x30) at start of message_info")
  match ← messageInfoLength afterMarker with
  | .error e => return .error e
  | .ok (messageInfoLen, headerLen) =>
    let messageInfo ← sliceTo afterMarker (headerLen + messageInfoLen)
    let encryptedContent ← sliceFrom afterMarker (headerLen + messageInfoLen)
    match ← extractRecipientId messageInfo with
    | none => return .error (.container "Failed to extract recipient_id from message_info")
    | some recipientId => return .ok ⟨messageInfo, encryptedContent, recipientId⟩

def parseVirgilContainer (data : List UInt8) : Guarded (Except Error VirgilContainer) := do
  match (windows marker.length data).findIdx? (· = marker) with
  | none => return .error (.container "VIRGIL-DATA-SIGNATURE marker not found")
  | some markerPos => parseAfterMarker (← sliceFrom data (markerPos + marker.length))

/-! ### The grammar of the split -/

/-- The forms in which a length is declared. -/
inductive IsLength : List UInt8 → Nat → Prop
  | short {n : UInt8} : n < 0x80 → IsLength [n] n.toNat
  | oneByte {n : UInt8} : IsLength [0x81, n] n.toNat
  | twoBytes {high low : UInt8} : IsLength [0x82, high, low] (high.toNat * 256 + low.toNat)

/-- A SEQUENCE with its body, all of it and no more. -/
def IsMessageInfo (bytes : List UInt8) : Prop :=
  ∃ length body, bytes = 0x30 :: length ++ body ∧ IsLength length body.length

/-- The id behind the first pattern that has a whole one behind it. -/
structure FirstRecipient (messageInfo recipientId : List UInt8) : Prop where
  size : recipientId.length = 32
  stands : ∃ front back, messageInfo = front ++ recipientPattern ++ recipientId ++ back ∧
    ∀ front' back', messageInfo = front' ++ recipientPattern ++ back' → 32 ≤ back'.length →
      front.length ≤ front'.length

/-- Some bytes as a container: its header, its `message_info` and its ciphertext. -/
structure Splits (data header messageInfo content : List UInt8) : Prop where
  first : FirstAfter marker header (messageInfo ++ content) data
  whole : IsMessageInfo messageInfo
  recipient : ∃ front back, messageInfo = front ++ recipientPattern ++ back ∧ 32 ≤ back.length

/-- A length that breaks off before it is told. -/
inductive CutLength : List UInt8 → Prop
  | absent : CutLength []
  | oneByte : CutLength [0x81]
  | twoBytes : CutLength [0x82]
  | half {high : UInt8} : CutLength [0x82, high]

/-- A SEQUENCE that breaks off: within its length, or before the end it declares. -/
inductive Truncated : List UInt8 → Prop
  | inLength {rest : List UInt8} : CutLength rest → Truncated (0x30 :: rest)
  | inBody {length body : List UInt8} {n : Nat} : IsLength length n → body.length < n →
      Truncated (0x30 :: length ++ body)

end Mkey.Virgil
