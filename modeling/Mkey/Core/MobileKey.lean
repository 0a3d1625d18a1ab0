import Mkey.Core.Crypto
import Mkey.Lib.Ber

/-! The mobile key: three fixed fields and a map of general-purpose tags. -/
namespace Mkey

open Ber (Tlv)

/-- Permission flags of a general-purpose tag. -/
structure Permissions where
  flags : UInt8
  deriving DecidableEq

namespace Permissions

def writeWithoutSecurity : Permissions := ⟨0x20⟩
def readWithoutSecurity : Permissions := ⟨0x10⟩
def writable : Permissions := ⟨0x08⟩
def readable : Permissions := ⟨0x04⟩

/-- Any common bit, not a subset test. -/
def contains (p other : Permissions) : Bool := p.flags &&& other.flags != 0

def union (p other : Permissions) : Permissions := ⟨p.flags ||| other.flags⟩

end Permissions

structure GeneralPurposeTag where
  tagId : UInt8
  permissions : Permissions
  value : List UInt8
  deriving DecidableEq

structure TagData where
  permissions : Permissions
  data : List UInt8
  deriving DecidableEq

/-- The tag map: at most one tag for each id, in no order. -/
abbrev Tags := UInt8 → Option GeneralPurposeTag

structure MobileKey where
  tag0 : List UInt8
  tag1 : List UInt8
  knKey : Block
  tags : Tags

def tagSystemDeprecatedAudit : UInt8 := 0x0A
def tagSystemAudit : UInt8 := 0x0B
def tagSystemOpeningMode : UInt8 := 0x10

def isSystemTag (id : UInt8) : Bool :=
  id == tagSystemDeprecatedAudit || id == tagSystemAudit || id == tagSystemOpeningMode

namespace Tags

def insert (tags : Tags) (id : UInt8) (tag : GeneralPurposeTag) : Tags :=
  Function.update tags id (some tag)

def orInsert (tags : Tags) (id : UInt8) (tag : GeneralPurposeTag) : Tags :=
  match tags id with
  | some _ => tags
  | none => tags.insert id tag

@[simp] theorem insert_self (tags : Tags) (id : UInt8) (tag : GeneralPurposeTag) :
    tags.insert id tag id = some tag := Function.update_self ..

@[simp] theorem insert_of_ne (tags : Tags) {id other : UInt8} (tag : GeneralPurposeTag)
    (ne : other ≠ id) : tags.insert id tag other = tags other := Function.update_of_ne ne ..

theorem orInsert_apply (tags : Tags) (id : UInt8) (tag : GeneralPurposeTag) (other : UInt8) :
    tags.orInsert id tag other = if other = id then some ((tags id).getD tag) else tags other := by
  cases present : tags id with
  | some found =>
    simp only [orInsert, present, Option.getD_some]
    split
    next same => rw [same, present]
    next => rfl
  | none =>
    simp only [orInsert, present, Option.getD_none]
    split
    next same => rw [same, insert_self]
    next ne => exact insert_of_ne _ _ ne

end Tags

/-! ### Encoding -/

/-- A private-class primitive TLV with the shortest of four length forms. -/
def encodeTlv (tagNumber : UInt8) (value : List UInt8) : List UInt8 :=
  let len := value.length
  let length :=
    if len < 128 then [UInt8.ofNat len]
    else if len < 256 then [0x81, UInt8.ofNat len]
    else if len < 65536 then [0x82, UInt8.ofNat (len >>> 8), UInt8.ofNat len]
    else [0x83, UInt8.ofNat (len >>> 16), UInt8.ofNat (len >>> 8), UInt8.ofNat len]
  -- five bits of tag number: a larger id is cut down, and 0x1F announces more tag bytes
  (0xC0 ||| (tagNumber &&& 0x1F)) :: (length ++ value)

/-- A general-purpose tag in its container: one permission byte, then the tag. -/
def encodeContainer (tag : GeneralPurposeTag) : List UInt8 :=
  encodeTlv 0x03 (tag.permissions.flags :: encodeTlv tag.tagId tag.value)

namespace MobileKey

/-- The orders in which the tag map may be visited: every id in it, once. -/
def Visits (key : MobileKey) (visit : List UInt8) : Prop :=
  visit.Nodup ∧ ∀ id, id ∈ visit ↔ (key.tags id).isSome

/-- The encoding, for one order of visiting the tag map. System tags are left out. -/
def toBytes (key : MobileKey) (visit : List UInt8) : List UInt8 :=
  encodeTlv 0x00 key.tag0 ++ encodeTlv 0x01 key.tag1 ++ encodeTlv 0x02 key.knKey.toList ++
    ((visit.filterMap key.tags).filter (fun tag => !isSystemTag tag.tagId)).flatMap encodeContainer

/-! ### Parsing -/

/-- What the tag loop of the parser has collected so far. -/
structure Parsed where
  tag0 : Option (List UInt8)
  tag1 : Option (List UInt8)
  knKey : Option Block
  tags : Tags

section Parsing

variable (parseAll : List UInt8 → List Tlv)

/-- One inner object of a container; constructed ones are skipped. -/
def readInner (permissions : Permissions) (tags : Tags) : Tlv → Tags
  | .primitive first _ value =>
      tags.insert (first &&& 0x1F) ⟨first &&& 0x1F, permissions, value⟩
  | .constructed .. => tags

/-- One top-level object; constructed ones and unknown numbers are skipped. -/
def readObject (parsed : Parsed) : Tlv → Except Error Parsed
  | .constructed .. => .ok parsed
  | .primitive first _ value =>
      let tagNumber := first &&& 0x1F
      if tagNumber = 0x00 then .ok { parsed with tag0 := some value }
      else if tagNumber = 0x01 then .ok { parsed with tag1 := some value }
      else if tagNumber = 0x02 then
        -- the one object that can stop the parser
        if exact : value.length = 16 then .ok { parsed with knKey := some ⟨value, exact⟩ }
        else .error (.invalidKeyLength value.length)
      else if tagNumber = 0x03 then
        match value with
        | [] => .ok parsed
        -- a tag read twice keeps its last value
        | permissions :: inner =>
          .ok { parsed with
            tags := (parseAll inner).foldl (readInner ⟨permissions⟩) parsed.tags }
      else .ok parsed

def readObjects (parsed : Parsed) : List Tlv → Except Error Parsed
  | [] => .ok parsed
  | object :: rest =>
    match readObject parseAll parsed object with
    | .error e => .error e
    | .ok parsed => readObjects parsed rest

/-- The audit tags live in memory only: the wire encoding leaves them out. -/
def systemTag (id : UInt8) : GeneralPurposeTag :=
  ⟨id, Permissions.writable.union .writeWithoutSecurity, []⟩

def materialise (tags : Tags) : Tags :=
  -- tags that came over the wire are kept as they came
  (tags.orInsert tagSystemDeprecatedAudit (systemTag tagSystemDeprecatedAudit)).orInsert
    tagSystemAudit (systemTag tagSystemAudit)

def fromBytes (data : List UInt8) : Except Error MobileKey :=
  match readObjects parseAll ⟨none, none, none, fun _ => none⟩ (parseAll data) with
  | .error e => .error e
  | .ok parsed =>
    match parsed.tag0 with
    | none => .error (.tlvError "missing tag 0")
    | some tag0 =>
      match parsed.tag1 with
      | none => .error (.tlvError "missing tag 1")
      | some tag1 =>
        match parsed.knKey with
        | none => .error (.tlvError "missing kN key")
        | some knKey => .ok ⟨tag0, tag1, knKey, materialise parsed.tags⟩

end Parsing

/-! ### Access -/

/-- Ids up to 0x02 are read-only views onto the fixed fields and shadow the map. -/
def getTag (key : MobileKey) (tagId : UInt8) : Option TagData :=
  if tagId = 0x00 then some ⟨.readable, key.tag0⟩
  else if tagId = 0x01 then some ⟨.readable, key.tag1⟩
  else if tagId = 0x02 then some ⟨.readable, key.knKey.toList⟩
  else (key.tags tagId).map fun tag => ⟨tag.permissions, tag.value⟩

def setTagData (key : MobileKey) (tagId : UInt8) (data : List UInt8) : MobileKey :=
  match key.tags tagId with
  | some tag => { key with tags := key.tags.insert tagId { tag with value := data } }
  | none =>
    -- a tag that was not there can be read and written, inside a session only
    let permissions := Permissions.readable.union .writable
    { key with tags := key.tags.insert tagId ⟨tagId, permissions, data⟩ }

/-- A key with no general-purpose tags. -/
def new (knKey : Block) : MobileKey := ⟨[], [], knKey, fun _ => none⟩

@[simp] theorem setTagData_tag0 (key : MobileKey) (id : UInt8) (data : List UInt8) :
    (key.setTagData id data).tag0 = key.tag0 := by unfold setTagData; split <;> rfl

@[simp] theorem setTagData_tag1 (key : MobileKey) (id : UInt8) (data : List UInt8) :
    (key.setTagData id data).tag1 = key.tag1 := by unfold setTagData; split <;> rfl

@[simp] theorem setTagData_knKey (key : MobileKey) (id : UInt8) (data : List UInt8) :
    (key.setTagData id data).knKey = key.knKey := by unfold setTagData; split <;> rfl

/-- Writing a tag that exists replaces its value and nothing else. -/
theorem setTagData_tags (key : MobileKey) {id : UInt8} {tag : GeneralPurposeTag}
    (present : key.tags id = some tag) (data : List UInt8) :
    (key.setTagData id data).tags = key.tags.insert id { tag with value := data } := by
  simp only [setTagData, present]

/-- Above the legacy ids, a tag is in the map or nowhere. -/
theorem getTag_map (key : MobileKey) {id : UInt8} (above : 0x02 < id) :
    key.getTag id = (key.tags id).map fun tag => ⟨tag.permissions, tag.value⟩ := by
  have h0 : id ≠ 0x00 := by rintro rfl; exact absurd above (by decide)
  have h1 : id ≠ 0x01 := by rintro rfl; exact absurd above (by decide)
  have h2 : id ≠ 0x02 := by rintro rfl; exact absurd above (by decide)
  rw [getTag, if_neg h0, if_neg h1, if_neg h2]

end MobileKey

end Mkey
