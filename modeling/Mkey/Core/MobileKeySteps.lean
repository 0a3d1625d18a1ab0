import Mkey.Core.MobileKey

/-!
# Keys on the wire

What the encoder writes in the grammar of BER-TLV, and what one object can do
to the fields collected by the parser.
-/
namespace Mkey

open Ber (Tlv Encodes EncodesAll LengthBytes lengthSize isLong isConstructed)

/-! ### Encoding -/

theorem or_and (a b c : UInt8) : (a ||| b) &&& c = (a &&& c) ||| (b &&& c) :=
  UInt8.toBitVec_inj.1 BitVec.and_or_distrib_right

/-- A private-class tag byte keeps the number it is made from. -/
theorem tagByte_number (id : UInt8) : (0xC0 ||| (id &&& 0x1F)) &&& 0x1F = id &&& 0x1F := by
  have top : (0xC0 : UInt8) &&& 0x1F = 0 := by decide
  rw [or_and, UInt8.and_assoc, top]
  simp

theorem tagByte_primitive (id : UInt8) : isConstructed (0xC0 ||| (id &&& 0x1F)) = false := by
  have top : (0xC0 : UInt8) &&& 0x20 = 0 := by decide
  have low : (0x1F : UInt8) &&& 0x20 = 0 := by decide
  rw [isConstructed, or_and, UInt8.and_assoc, top, low]
  simp

/-- The length bytes the encoder writes. -/
def lengthForm (len : Nat) : List UInt8 :=
  if len < 128 then [UInt8.ofNat len]
  else if len < 256 then [0x81, UInt8.ofNat len]
  else if len < 65536 then [0x82, UInt8.ofNat (len >>> 8), UInt8.ofNat len]
  else [0x83, UInt8.ofNat (len >>> 16), UInt8.ofNat (len >>> 8), UInt8.ofNat len]

theorem encodeTlv_eq (tagNumber : UInt8) (value : List UInt8) :
    encodeTlv tagNumber value =
      (0xC0 ||| (tagNumber &&& 0x1F)) :: (lengthForm value.length ++ value) := rfl

theorem lengthForm_length (n : Nat) : (lengthForm n).length = lengthSize n := by
  unfold lengthForm lengthSize
  split_ifs <;> rfl

theorem lengthForm_encodes {n : Nat} (small : n < 2 ^ 24) : LengthBytes n (lengthForm n) := by
  have digit (m : Nat) : (UInt8.ofNat m).toNat = m % 256 := UInt8.toNat_ofNat'
  -- the three long forms differ only in how many bytes spell the length
  have long {b : UInt8} {bytes : List UInt8} (count : b.toNat = 0x80 + bytes.length)
      (some_ : 1 ≤ bytes.length) (few : bytes.length ≤ 4) (value : Ber.bigEndian bytes = n) :
      LengthBytes n (b :: bytes) := value ▸ .long count some_ few
  rw [lengthForm]
  split_ifs with tiny byte word
  · have low : UInt8.ofNat n < 0x80 := by
      rw [UInt8.lt_iff_toNat_lt, digit]
      exact lt_of_le_of_lt (Nat.mod_le _ _) tiny
    have same : (UInt8.ofNat n).toNat = n := by
      rw [digit]
      omega
    have short := LengthBytes.short low
    rwa [same] at short
  · apply long rfl (by simp) (by simp)
    simp only [Ber.bigEndian, List.foldl_cons, List.foldl_nil, digit]
    omega
  · apply long rfl (by simp) (by simp)
    simp only [Ber.bigEndian, List.foldl_cons, List.foldl_nil, digit, Nat.shiftRight_eq_div_pow]
    omega
  · apply long rfl (by simp) (by simp)
    simp only [Ber.bigEndian, List.foldl_cons, List.foldl_nil, digit, Nat.shiftRight_eq_div_pow]
    omega

theorem encodeTlv_length (id : UInt8) (value : List UInt8) :
    (encodeTlv id value).length = 1 + lengthSize value.length + value.length := by
  rw [encodeTlv_eq, List.length_cons, List.length_append, lengthForm_length]
  omega

/-- What the encoder writes is one primitive object, unless its tag number asks for more bytes. -/
theorem encodeTlv_encodes {id : UInt8} {value : List UInt8} (short : id &&& 0x1F ≠ 0x1F)
    (small : value.length < 2 ^ 24) :
    Encodes (.primitive (0xC0 ||| (id &&& 0x1F)) [] value) (encodeTlv id value) := by
  refine .primitive (tagByte_primitive id) ?_ (lengthForm_encodes small)
  rw [Ber.WellTagged, isLong, tagByte_number, if_neg]
  simpa using short

namespace MobileKey

/-! ### Parsing -/

variable (parseAll : List UInt8 → List Tlv)

/-- A container of general-purpose tags: a permission byte, and the tags it goes for. -/
def IsContainer (object : Tlv) (permissions : UInt8) (inner : List UInt8) : Prop :=
  ∃ first more, object = .primitive first more (permissions :: inner) ∧ first &&& 0x1F = 0x03

/-- The tags after those of a container. -/
def readContainer (permissions : Permissions) (inner : List UInt8) (tags : Tags) : Tags :=
  (parseAll inner).foldl (readInner permissions) tags

/-- What an object that is not an error can do to the fields collected so far. -/
inductive ObjectStep (parsed : Parsed) : Tlv → Parsed → Prop
  | skipped {object : Tlv} : (∀ permissions inner, ¬IsContainer object permissions inner) →
      ObjectStep parsed object parsed
  | tag0 {first : UInt8} {more value : List UInt8} : first &&& 0x1F = 0x00 →
      ObjectStep parsed (.primitive first more value) { parsed with tag0 := some value }
  | tag1 {first : UInt8} {more value : List UInt8} : first &&& 0x1F = 0x01 →
      ObjectStep parsed (.primitive first more value) { parsed with tag1 := some value }
  | knKey {first : UInt8} {more value : List UInt8} {exact : value.length = 16} :
      first &&& 0x1F = 0x02 →
      ObjectStep parsed (.primitive first more value)
        { parsed with knKey := some ⟨value, exact⟩ }
  | container {object : Tlv} {permissions : UInt8} {inner : List UInt8} :
      IsContainer object permissions inner →
      ObjectStep parsed object
        { parsed with tags := readContainer parseAll ⟨permissions⟩ inner parsed.tags }

theorem readObject_step {parsed after : Parsed} {object : Tlv}
    (read : readObject parseAll parsed object = .ok after) :
    ObjectStep parseAll parsed object after := by
  cases object with
  | constructed first more children =>
    cases read
    refine .skipped ?_
    rintro _ _ ⟨_, _, same, _⟩
    cases same
  | primitive first more value =>
    simp only [readObject] at read
    -- one case per tag number; a kN of the wrong length is no step at all
    split_ifs at read with zero one two exact three
    · cases read
      exact .tag0 zero
    · cases read
      exact .tag1 one
    · cases read
      exact .knKey two
    · split at read
      · -- a container without even a permission byte is passed over
        cases read
        refine .skipped ?_
        rintro _ _ ⟨_, _, same, _⟩
        cases same
      · cases read
        exact .container ⟨first, more, rfl, three⟩
    · cases read
      refine .skipped ?_
      rintro _ _ ⟨_, _, same, number⟩
      cases same
      exact three number

/-- What every object keeps, the parser keeps. -/
theorem readObjects_invariant (inv : Parsed → Prop) {objects : List Tlv}
    (kept : ∀ object ∈ objects, ∀ parsed after, inv parsed →
      ObjectStep parseAll parsed object after → inv after)
    {parsed after : Parsed} (initial : inv parsed)
    (read : readObjects parseAll parsed objects = .ok after) : inv after := by
  induction objects generalizing parsed with
  | nil =>
    cases read
    exact initial
  | cons object rest ih =>
    rw [readObjects] at read
    split at read
    · cases read
    next middle first =>
      exact ih (fun object member => kept object (List.mem_cons_of_mem _ member))
        (kept object List.mem_cons_self _ _ initial (readObject_step parseAll first)) read

/-- A key that is read has all its fields, and the system tags besides those collected. -/
theorem fromBytes_ok_iff (data : List UInt8) (key : MobileKey) :
    fromBytes parseAll data = .ok key ↔ ∃ tags,
      readObjects parseAll ⟨none, none, none, fun _ => none⟩ (parseAll data) =
        .ok ⟨some key.tag0, some key.tag1, some key.knKey, tags⟩ ∧
      key.tags = materialise tags := by
  rw [fromBytes]
  constructor
  · intro read
    split at read
    · cases read
    next parsed collected =>
      obtain ⟨tag0, tag1, knKey, tags⟩ := parsed
      dsimp only at read
      split at read
      · cases read
      · split at read
        · cases read
        · split at read
          · cases read
          · cases read
            exact ⟨tags, collected, rfl⟩
  · rintro ⟨tags, collected, same⟩
    rw [collected]
    dsimp only
    rw [← same]

/-! ### Tags on the wire -/

/-- The general-purpose tag an inner object stands for. -/
def wireTag (permissions : Permissions) : Tlv → Option GeneralPurposeTag
  | .primitive first _ value => some ⟨first &&& 0x1F, permissions, value⟩
  | .constructed .. => none

/-- The tags a top-level object carries: those of a container, in order. -/
def containerTags : Tlv → List GeneralPurposeTag
  | .primitive first _ (permissions :: inner) =>
      if first &&& 0x1F = 0x03 then (parseAll inner).filterMap (wireTag ⟨permissions⟩) else []
  | .primitive _ _ [] | .constructed .. => []

/-- All tags the data carries, in order. -/
def wireTags (data : List UInt8) : List GeneralPurposeTag :=
  (parseAll data).flatMap (containerTags parseAll)

/-- The last of some tags that has a given id. -/
def lastTag (tags : List GeneralPurposeTag) (id : UInt8) : Option GeneralPurposeTag :=
  (tags.filter fun tag => tag.tagId == id).getLast?

/-- A later tag replaces an earlier one of its id. -/
def insertTag (tags : Tags) (tag : GeneralPurposeTag) : Tags := tags.insert tag.tagId tag

theorem foldl_insertTag (tags : Tags) (more : List GeneralPurposeTag) (id : UInt8) :
    more.foldl insertTag tags id = (lastTag more id).or (tags id) := by
  induction more using List.reverseRecOn with
  | nil => rfl
  | append_singleton front tag ih =>
    rw [List.foldl_append, List.foldl_cons, List.foldl_nil, insertTag, lastTag, List.filter_append]
    by_cases same : id = tag.tagId
    · subst same
      simp
    · rw [Tags.insert_of_ne _ _ same, ih, lastTag]
      simp [Ne.symm same]

theorem foldl_readInner (permissions : Permissions) (tags : Tags) (objects : List Tlv) :
    objects.foldl (readInner permissions) tags =
      (objects.filterMap (wireTag permissions)).foldl insertTag tags := by
  induction objects generalizing tags with
  | nil => rfl
  | cons object rest ih =>
    rw [List.foldl_cons, ih]
    cases object with
    | primitive | constructed => rfl

theorem ObjectStep.tags {parsed after : Parsed} {object : Tlv}
    (step : ObjectStep parseAll parsed object after) :
    after.tags = (containerTags parseAll object).foldl insertTag parsed.tags := by
  cases step with
  | skipped none =>
    unfold containerTags
    split
    · split_ifs with three
      · exact absurd ⟨_, _, rfl, three⟩ (none _ _)
      · rfl
    all_goals rfl
  | tag0 number | tag1 number | knKey number =>
    unfold containerTags
    split
    next same =>
      cases same
      rw [if_neg (by simp [number])]
      rfl
    all_goals rfl
  | container holds =>
    obtain ⟨first, more, rfl, three⟩ := holds
    rw [containerTags, if_pos three, ← foldl_readInner]
    rfl

/-- The parser collects the tags the data carries, the last one of each id. -/
theorem readObjects_tags {objects : List Tlv} {before after : Parsed}
    (read : readObjects parseAll before objects = .ok after) :
    after.tags = (objects.flatMap (containerTags parseAll)).foldl insertTag before.tags := by
  induction objects generalizing before with
  | nil =>
    cases read
    rfl
  | cons object rest ih =>
    rw [readObjects] at read
    split at read
    · cases read
    next middle first =>
      rw [ih read, (readObject_step parseAll first).tags, List.flatMap_cons, List.foldl_append]

/-- A key that is read has the last tag of every id its data carries, and the system tags. -/
theorem fromBytes_tags {data : List UInt8} {key : MobileKey}
    (read : fromBytes parseAll data = .ok key) (id : UInt8) :
    key.tags id =
      (lastTag (wireTags parseAll data) id).or
        (if id = tagSystemDeprecatedAudit ∨ id = tagSystemAudit then some (systemTag id)
        else none) := by
  obtain ⟨tags, collected, same⟩ := (fromBytes_ok_iff parseAll data key).mp read
  have carried : tags id = lastTag (wireTags parseAll data) id := by
    have all := congrFun (readObjects_tags parseAll collected) id
    rw [foldl_insertTag, Option.or_none] at all
    exact all
  rw [same, ← carried, materialise, Tags.orInsert_apply, Tags.orInsert_apply, Tags.orInsert_apply]
  by_cases audit : id = tagSystemAudit
  · subst audit
    cases tags tagSystemAudit <;> simp [tagSystemAudit, tagSystemDeprecatedAudit]
  · by_cases deprecated : id = tagSystemDeprecatedAudit
    · subst deprecated
      cases tags tagSystemDeprecatedAudit <;> simp [tagSystemAudit, tagSystemDeprecatedAudit]
    · simp [audit, deprecated]

end MobileKey

end Mkey
