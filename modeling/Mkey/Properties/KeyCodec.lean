import Mkey.Core.MobileKeySteps

/-!
# Reading back what was written

A key that was read from fewer than 2^24 bytes is written in lengths that the
encoder can express, so it is read back as it was, with one exception: a tag
whose number needs further bytes is kept under 0x1F and written without them.
-/
namespace Mkey.MobileKey

open Ber (Tlv Encodes EncodesAll lengthSize isLong Reader)

/-- The number under which a tag is kept whose number needs further bytes. -/
def tagLong : UInt8 := 0x1F

/-- What the encoder can express of a tag, and where the parser puts it. -/
def Fits (id : UInt8) (tag : GeneralPurposeTag) : Prop :=
  tag.tagId = id ∧ id &&& 0x1F = id ∧ 1 + (encodeTlv id tag.value).length < 2 ^ 24

/-- Everything collected fits. -/
structure Sized (parsed : Parsed) : Prop where
  tag0 : ∀ value, parsed.tag0 = some value → value.length < 2 ^ 24
  tag1 : ∀ value, parsed.tag1 = some value → value.length < 2 ^ 24
  tags : ∀ id tag, parsed.tags id = some tag → Fits id tag

section Reading

variable {parseAll : List UInt8 → List Tlv} (reader : Reader parseAll)
include reader

/-- A value takes less room than the data it is read from. -/
theorem size_of_mem {data : List UInt8} (small : data.length < 2 ^ 24) {first : UInt8}
    {more value : List UInt8} (member : .primitive first more value ∈ parseAll data) :
    (if isLong first then 2 else 1) + lengthSize value.length + value.length ≤ data.length := by
  obtain ⟨bytes, encoded, fits⟩ := reader.encoded member
  have room : value.length < 2 ^ 24 := by
    cases encoded
    simp only [List.length_cons, List.length_append] at fits
    omega
  exact (encoded.primitive_size room).trans fits

/-- The tags of a container fit if the container does. -/
theorem fits_readContainer {permissions : Permissions} {inner : List UInt8} {tags : Tags}
    (small : 1 + inner.length < 2 ^ 24) (before : ∀ id tag, tags id = some tag → Fits id tag) :
    ∀ id tag, readContainer parseAll permissions inner tags id = some tag → Fits id tag := by
  have each : ∀ object ∈ parseAll inner, ∀ first more value,
      object = .primitive first more value →
      Fits (first &&& 0x1F) ⟨first &&& 0x1F, permissions, value⟩ := by
    rintro _ member first more value rfl
    -- written again, a tag takes no more room than it took inside its container
    have room := size_of_mem reader (by omega) member
    refine ⟨rfl, by rw [UInt8.and_assoc, UInt8.and_self], ?_⟩
    rw [encodeTlv_length]
    dsimp only
    split at room <;> omega
  rw [readContainer]
  generalize parseAll inner = objects at each
  induction objects generalizing tags with
  | nil => exact before
  | cons object rest ih =>
    refine ih ?_ fun object member => each object (List.mem_cons_of_mem _ member)
    intro id tag found
    cases object with
    | constructed => exact before id tag found
    | primitive first more value =>
      rw [readInner] at found
      -- the tag just read replaces what was there under its number
      by_cases same : id = first &&& 0x1F
      · rw [same, Tags.insert_self, Option.some.injEq] at found
        rw [same, ← found]
        exact each _ List.mem_cons_self first more value rfl
      · rw [Tags.insert_of_ne _ _ same] at found
        exact before id tag found

/-- What is read from fewer than 2^24 bytes fits. -/
theorem sized_readObjects {data : List UInt8} (small : data.length < 2 ^ 24) {parsed : Parsed}
    (read : readObjects parseAll ⟨none, none, none, fun _ => none⟩ (parseAll data) = .ok parsed) :
    Sized parsed := by
  refine readObjects_invariant parseAll Sized ?_ ⟨by simp, by simp, by simp⟩ read
  intro object member before after sized step
  cases step with
  | skipped => exact sized
  | tag0 =>
    have room := size_of_mem reader small member
    refine ⟨?_, sized.tag1, sized.tags⟩
    intro value same
    obtain rfl := Option.some.inj same
    omega
  | tag1 =>
    have room := size_of_mem reader small member
    refine ⟨sized.tag0, ?_, sized.tags⟩
    intro value same
    obtain rfl := Option.some.inj same
    omega
  | knKey => exact ⟨sized.tag0, sized.tag1, sized.tags⟩
  | container holds =>
    obtain ⟨first, more, rfl, _⟩ := holds
    have room := size_of_mem reader small member
    rw [List.length_cons] at room
    exact ⟨sized.tag0, sized.tag1, fits_readContainer reader (by omega) sized.tags⟩

end Reading

/-! ### Tags with a long number -/

section Long

variable (parseAll : List UInt8 → List Tlv)

/-- A tag whose number needs further bytes. -/
def LongTag : Tlv → Prop
  | .primitive first _ _ => isLong first
  | .constructed .. => False

/-- A container with such a tag in it. -/
def HoldsLong (object : Tlv) : Prop :=
  ∃ permissions inner, IsContainer object permissions inner ∧ ∃ tag ∈ parseAll inner, LongTag tag

theorem readInner_long (permissions : Permissions) (tags : Tags) (object : Tlv) :
    (readInner permissions tags object tagLong).isSome ↔
      (tags tagLong).isSome ∨ LongTag object := by
  cases object with
  | constructed => simp [readInner, LongTag]
  | primitive first more value =>
    have number : isLong first ↔ first &&& 0x1F = tagLong := by simp [isLong, tagLong]
    rw [readInner, LongTag, number]
    by_cases same : first &&& 0x1F = tagLong
    · simp [same]
    · simp [same, Tags.insert_of_ne _ _ (Ne.symm same)]

theorem readContainer_long (permissions : Permissions) (inner : List UInt8) (tags : Tags) :
    (readContainer parseAll permissions inner tags tagLong).isSome ↔
      (tags tagLong).isSome ∨ ∃ tag ∈ parseAll inner, LongTag tag := by
  rw [readContainer]
  generalize parseAll inner = objects
  induction objects generalizing tags with
  | nil => simp
  | cons object rest ih =>
    rw [List.foldl_cons, ih, readInner_long]
    simp only [List.mem_cons, exists_eq_or_imp, or_assoc]

theorem ObjectStep.long {before after : Parsed} {object : Tlv}
    (step : ObjectStep parseAll before object after) :
    (after.tags tagLong).isSome ↔ (before.tags tagLong).isSome ∨ HoldsLong parseAll object := by
  have other {value : List UInt8} {first : UInt8} {more : List UInt8}
      (number : first &&& 0x1F ≠ 0x03) : ¬HoldsLong parseAll (.primitive first more value) := by
    rintro ⟨permissions, inner, ⟨_, _, same, three⟩, _⟩
    cases same
    exact number three
  cases step with
  | skipped none =>
    exact (or_iff_left fun ⟨permissions, inner, holds, _⟩ => none permissions inner holds).symm
  | tag0 number | tag1 number | knKey number =>
    exact (or_iff_left (other (by simp [number]))).symm
  | @container _ permissions inner holds =>
    dsimp only
    rw [readContainer_long]
    -- an object is a container in one way only
    refine or_congr_right ⟨fun long => ⟨permissions, inner, holds, long⟩, ?_⟩
    rintro ⟨permissions', inner', holds', long⟩
    obtain ⟨_, _, same, _⟩ := holds
    obtain ⟨_, _, same', _⟩ := holds'
    rw [same] at same'
    cases same'
    exact long

/-- The parser has a tag with a long number exactly when the data has one. -/
theorem readObjects_long {objects : List Tlv} {before after : Parsed}
    (read : readObjects parseAll before objects = .ok after) :
    (after.tags tagLong).isSome ↔
      (before.tags tagLong).isSome ∨ ∃ object ∈ objects, HoldsLong parseAll object := by
  induction objects generalizing before with
  | nil =>
    cases read
    simp
  | cons object rest ih =>
    rw [readObjects] at read
    split at read
    · cases read
    next middle first =>
      rw [ih read, (readObject_step parseAll first).long]
      simp only [List.mem_cons, exists_eq_or_imp, or_assoc]

end Long

/-! ### Reading back -/

/-- A key whose every field the encoder can express. -/
structure Expressible (key : MobileKey) : Prop where
  tag0 : key.tag0.length < 2 ^ 24
  tag1 : key.tag1.length < 2 ^ 24
  tags : ∀ id tag, key.tags id = some tag → Fits id tag

/-- Only the system tags are put in besides those collected. -/
theorem materialise_of_not_system (tags : Tags) {id : UInt8} (other : isSystemTag id = false) :
    materialise tags id = tags id := by
  simp only [isSystemTag, Bool.or_eq_false_iff, beq_eq_false_iff_ne] at other
  rw [materialise, Tags.orInsert_apply, if_neg other.1.2, Tags.orInsert_apply, if_neg other.1.1]

/-- The tags put in fit, as those collected do. -/
theorem fits_materialise {tags : Tags} (fits : ∀ id tag, tags id = some tag → Fits id tag) :
    ∀ id tag, materialise tags id = some tag → Fits id tag := by
  -- one system tag at a time: kept if it was collected, else empty and thus small
  have filled (tags : Tags) (system : UInt8) (fits : ∀ id tag, tags id = some tag → Fits id tag)
      (own : Fits system (systemTag system)) :
      ∀ id tag, tags.orInsert system (systemTag system) id = some tag → Fits id tag := by
    intro id tag found
    rw [Tags.orInsert_apply] at found
    split at found
    next same =>
      subst same
      cases kept : tags id with
      | none =>
        rw [kept] at found
        exact Option.some.inj found ▸ own
      | some old =>
        rw [kept] at found
        exact Option.some.inj found ▸ fits id old kept
    · exact fits id tag found
  exact filled _ _ (filled _ _ fits ⟨rfl, rfl, by decide⟩) ⟨rfl, rfl, by decide⟩

/-- The tags of a key that are written, in the order they are visited. -/
def written (key : MobileKey) (visit : List UInt8) : List GeneralPurposeTag :=
  (visit.filterMap key.tags).filter fun tag => !isSystemTag tag.tagId

theorem mem_written {key : MobileKey} (expressible : Expressible key) {visit : List UInt8}
    {tag : GeneralPurposeTag} : tag ∈ key.written visit ↔
      tag.tagId ∈ visit ∧ key.tags tag.tagId = some tag ∧ isSystemTag tag.tagId = false := by
  simp only [written, List.mem_filter, List.mem_filterMap, Bool.not_eq_true']
  constructor
  · rintro ⟨⟨id, visited, found⟩, other⟩
    obtain ⟨rfl, _⟩ := expressible.tags id tag found
    exact ⟨visited, found, other⟩
  · rintro ⟨visited, found, other⟩
    exact ⟨⟨_, visited, found⟩, other⟩

/-- The object a general-purpose tag is written as. -/
def containerObject (tag : GeneralPurposeTag) : Tlv :=
  .primitive 0xC3 [] (tag.permissions.flags :: encodeTlv tag.tagId tag.value)

theorem encodeContainer_encodes {id : UInt8} {tag : GeneralPurposeTag} (fits : Fits id tag) :
    Encodes (containerObject tag) (encodeContainer tag) := by
  obtain ⟨rfl, _, small⟩ := fits
  have short : (0x03 : UInt8) &&& 0x1F ≠ 0x1F := by decide
  exact encodeTlv_encodes short (by rw [List.length_cons]; omega)

/-- The encoding of a key is one of consecutive objects. -/
theorem toBytes_encodes {key : MobileKey} (expressible : Expressible key) (visit : List UInt8) :
    EncodesAll (.primitive 0xC0 [] key.tag0 :: .primitive 0xC1 [] key.tag1 ::
        .primitive 0xC2 [] key.knKey.toList :: (key.written visit).map containerObject)
      (key.toBytes visit) := by
  have zero : (0x00 : UInt8) &&& 0x1F ≠ 0x1F := by decide
  have one : (0x01 : UInt8) &&& 0x1F ≠ 0x1F := by decide
  have two : (0x02 : UInt8) &&& 0x1F ≠ 0x1F := by decide
  have block : key.knKey.toList.length < 2 ^ 24 := by
    rw [Chunk.length_toList]
    decide
  rw [toBytes]
  rw [List.append_assoc, List.append_assoc]
  refine .cons (encodeTlv_encodes zero expressible.tag0) <|
    .cons (encodeTlv_encodes one expressible.tag1) <| .cons (encodeTlv_encodes two block) ?_
  apply EncodesAll.flatMap
  intro tag member
  obtain ⟨_, found, _⟩ := (mem_written expressible).mp member
  exact encodeContainer_encodes (expressible.tags _ _ found)

section Reread

variable {parseAll : List UInt8 → List Tlv}

variable (parseAll) in
/-- The tags after a written one is read back. -/
def reread (tags : Tags) (tag : GeneralPurposeTag) : Tags :=
  readContainer parseAll tag.permissions (encodeTlv tag.tagId tag.value) tags

theorem readObjects_containers (parsed : Parsed) (tags : List GeneralPurposeTag) :
    readObjects parseAll parsed (tags.map containerObject) =
      .ok { parsed with tags := tags.foldl (reread parseAll) parsed.tags } := by
  induction tags generalizing parsed with
  | nil => rfl
  | cons tag rest ih =>
    have here : readObject parseAll parsed (containerObject tag) =
        .ok { parsed with tags := reread parseAll parsed.tags tag } := rfl
    rw [List.map_cons, readObjects, here]
    exact ih _

variable (reader : Reader parseAll)
include reader

/-- A tag with a short number is read back as it was. -/
theorem reread_of_short {id : UInt8} {tag : GeneralPurposeTag} (fits : Fits id tag)
    (short : id ≠ tagLong) (tags : Tags) : reread parseAll tags tag = tags.insert id tag := by
  obtain ⟨rfl, number, small⟩ := fits
  rw [encodeTlv_length] at small
  -- the container holds this one object and nothing behind it
  have encoded : Encodes (.primitive (0xC0 ||| (tag.tagId &&& 0x1F)) [] tag.value)
      (encodeTlv tag.tagId tag.value) := encodeTlv_encodes (by rwa [number]) (by omega)
  have objects := reader.readsAll (.cons encoded .nil)
  rw [List.append_nil] at objects
  rw [reread, readContainer, objects, List.foldl_cons, List.foldl_nil, readInner, tagByte_number,
    number]

/-- A tag under 0x1F that is not the one with this value. -/
def Misread (value : List UInt8) (tags : Tags) : Prop :=
  ∀ tag, tags tagLong = some tag → tag.value.length ≠ value.length

/-- A tag with a long number is read back shorter, if at all. -/
theorem misread_reread {tag : GeneralPurposeTag} (fits : Fits tagLong tag) {before : Tags}
    (misread : Misread tag.value before) : Misread tag.value (reread parseAll before tag) := by
  obtain ⟨number, _, small⟩ := fits
  have shorter : ∀ object ∈ parseAll (encodeTlv tagLong tag.value), ∀ first more value,
      object = .primitive first more value → first &&& 0x1F = tagLong →
      value.length ≠ tag.value.length := by
    rintro _ member first more value rfl long same
    have room := size_of_mem reader (by omega) member
    -- a long tag spends a byte more on its number, which leaves less for the value
    rw [if_pos (by simpa [isLong, tagLong] using long), encodeTlv_length, same] at room
    omega
  rw [reread, readContainer, number]
  generalize parseAll (encodeTlv tagLong tag.value) = objects at shorter
  induction objects generalizing before with
  | nil => exact misread
  | cons object rest ih =>
    refine ih ?_ fun object member => shorter object (List.mem_cons_of_mem _ member)
    intro found same
    cases object with
    | constructed => exact misread found same
    | primitive first more value =>
      rw [readInner] at same
      by_cases long : first &&& 0x1F = tagLong
      · rw [long, Tags.insert_self, Option.some.injEq] at same
        rw [← same]
        exact shorter _ List.mem_cons_self first more value rfl long
      · rw [Tags.insert_of_ne _ _ (Ne.symm long)] at same
        exact misread found same

variable {key : MobileKey} (expressible : Expressible key)
include expressible

/-- Reading back never fails, and keeps the fixed fields. -/
theorem fromBytes_toBytes (visit : List UInt8) :
    fromBytes parseAll (key.toBytes visit) =
      .ok { key with
        tags := materialise ((key.written visit).foldl (reread parseAll) fun _ => none) } := by
  rw [fromBytes_ok_iff, reader.readsAll (toBytes_encodes expressible visit)]
  refine ⟨_, ?_, rfl⟩
  have fixed (parsed : Parsed) :
      readObject parseAll parsed (.primitive 0xC0 [] key.tag0) =
          .ok { parsed with tag0 := some key.tag0 } ∧
        readObject parseAll parsed (.primitive 0xC1 [] key.tag1) =
          .ok { parsed with tag1 := some key.tag1 } ∧
        readObject parseAll parsed (.primitive 0xC2 [] key.knKey.toList) =
          .ok { parsed with knKey := some key.knKey } :=
    ⟨rfl, rfl, by simp only [readObject, Chunk.length_toList]; rfl⟩
  simp only [readObjects, (fixed _).1, (fixed _).2.1, (fixed _).2.2, readObjects_containers]

/-- Read back into any tags, tags of the key without a long number are the key's own. -/
theorem foldl_reread {tags : List GeneralPurposeTag}
    (own : ∀ tag ∈ tags, key.tags tag.tagId = some tag ∧ tag.tagId ≠ tagLong) (before : Tags)
    (id : UInt8) : (tags.foldl (reread parseAll) before) id =
      if ∃ tag ∈ tags, tag.tagId = id then key.tags id else before id := by
  induction tags generalizing before with
  | nil => simp
  | cons tag rest ih =>
    obtain ⟨found, short⟩ := own tag List.mem_cons_self
    rw [List.foldl_cons, ih fun tag member => own tag (List.mem_cons_of_mem _ member),
      reread_of_short reader (expressible.tags _ _ found) short]
    simp only [List.mem_cons, exists_eq_or_imp]
    -- the last tag with this id decides, and all of them are the key's own
    by_cases later : ∃ tag ∈ rest, tag.tagId = id
    · rw [if_pos later, if_pos (.inr later)]
    · rw [if_neg later]
      by_cases same : tag.tagId = id
      · rw [if_pos (.inl same), ← same, Tags.insert_self, found]
      · rw [if_neg (by simp only [same, later, or_self, not_false_eq_true]),
          Tags.insert_of_ne _ _ (Ne.symm same)]

/-- With the tag of the key under 0x1F among them, something else is read back under it. -/
theorem misread_foldl {long : GeneralPurposeTag} (held : key.tags tagLong = some long)
    {tags : List GeneralPurposeTag} (own : ∀ tag ∈ tags, key.tags tag.tagId = some tag)
    {before : Tags} (misread : Misread long.value before) :
    Misread long.value (tags.foldl (reread parseAll) before) := by
  induction tags generalizing before with
  | nil => exact misread
  | cons tag rest ih =>
    have found := own tag List.mem_cons_self
    apply ih (fun tag member => own tag (List.mem_cons_of_mem _ member))
    -- the long tag comes back shorter; the others go elsewhere
    by_cases same : tag.tagId = tagLong
    · rw [same, held, Option.some.injEq] at found
      subst found
      exact misread_reread reader (expressible.tags _ _ held) misread
    · rw [reread_of_short reader (expressible.tags _ _ found) same]
      intro other kept
      rw [Tags.insert_of_ne _ _ (Ne.symm same)] at kept
      exact misread other kept

end Reread

/-! ### The round trip -/

section RoundTrip

variable (parseAll : List UInt8 → List Tlv)

/-- What is written is read back, with everything but the system tags as it was. -/
def RoundTrips (key : MobileKey) (visit : List UInt8) : Prop :=
  ∃ again, fromBytes parseAll (key.toBytes visit) = .ok again ∧ again.tag0 = key.tag0 ∧
    again.tag1 = key.tag1 ∧ again.knKey = key.knKey ∧
    ∀ id, isSystemTag id = false → again.tags id = key.tags id

variable {parseAll} (reader : Reader parseAll)
include reader

theorem roundTrips_iff {key : MobileKey} (expressible : Expressible key) {visit : List UInt8}
    (visits : key.Visits visit) : RoundTrips parseAll key visit ↔ key.tags tagLong = none := by
  have again := fromBytes_toBytes reader expressible visit
  have own : ∀ tag ∈ key.written visit, key.tags tag.tagId = some tag := fun tag member =>
    ((mem_written expressible).mp member).2.1
  constructor
  · rintro ⟨_, read, _, _, _, same⟩
    rw [again] at read
    cases read
    cases held : key.tags tagLong with
    | none => rfl
    | some long =>
      have other : isSystemTag tagLong = false := by decide
      have kept := same tagLong other
      dsimp only at kept
      rw [materialise_of_not_system _ other, held] at kept
      -- whatever is read under 0x1F has another length than the value of the key
      exact absurd rfl (misread_foldl reader expressible held own (by simp [Misread]) long kept)
  · intro none_
    refine ⟨_, again, rfl, rfl, rfl, ?_⟩
    intro id other
    dsimp only
    rw [materialise_of_not_system _ other, foldl_reread reader expressible]
    · split
      · rfl
      next missing =>
        cases held : key.tags id with
        | none => rfl
        | some tag =>
          obtain ⟨rfl, _⟩ := expressible.tags id tag held
          -- a tag of the key is visited, and written because it is no system tag
          have visited : tag.tagId ∈ visit := (visits.2 _).mpr (by simp [held])
          exact absurd ⟨tag, (mem_written expressible).mpr ⟨visited, held, other⟩, rfl⟩ missing
    · intro tag member
      refine ⟨own tag member, ?_⟩
      intro long
      have held := own tag member
      rw [long, none_] at held
      cases held

/-- A key is read back as it was read exactly when no container of its data holds a tag whose
number needs further bytes. -/
theorem codec_round_trip_iff {data : List UInt8} (small : data.length < 2 ^ 24) {key : MobileKey}
    (read : fromBytes parseAll data = .ok key) {visit : List UInt8} (visits : key.Visits visit) :
    RoundTrips parseAll key visit ↔ ∀ object ∈ parseAll data, ¬HoldsLong parseAll object := by
  obtain ⟨tags, collected, same⟩ := (fromBytes_ok_iff parseAll data key).mp read
  have sized := sized_readObjects reader small collected
  have expressible : Expressible key :=
    ⟨sized.tag0 _ rfl, sized.tag1 _ rfl, same ▸ fits_materialise sized.tags⟩
  have long := readObjects_long parseAll collected
  have other : isSystemTag tagLong = false := by decide
  rw [roundTrips_iff reader expressible visits, same, materialise_of_not_system _ other]
  simpa [Option.isSome_iff_ne_none] using long.not

end RoundTrip

/-- The bytes of a key with one container, of five bytes with the permissions. -/
def keyBytes (inner : List UInt8) : List UInt8 :=
  [0xC0, 0x00, 0xC1, 0x00, 0xC2, 0x10] ++ List.replicate 16 0x42 ++ [0xC3, 0x05, 0x0C] ++ inner

/-- The key these bytes hold when the container holds a tag with this id and value. -/
def keyWith (id : UInt8) (value : List UInt8) : MobileKey :=
  { new (Block.replicate 0x42) with
    tags := materialise (Tags.insert (fun _ => none) id ⟨id, ⟨0x0C⟩, value⟩) }

theorem keyWith_visits (id : UInt8) (value : List UInt8) (other : isSystemTag id = false) :
    (keyWith id value).Visits [id, tagSystemDeprecatedAudit, tagSystemAudit] := by
  simp only [isSystemTag, Bool.or_eq_false_iff, beq_eq_false_iff_ne] at other
  obtain ⟨⟨first, second⟩, _⟩ := other
  have distinct : [id, tagSystemDeprecatedAudit, tagSystemAudit].Nodup := by
    simp [first, second]
    decide
  refine ⟨distinct, ?_⟩
  intro i
  simp only [keyWith, materialise, Tags.orInsert_apply, List.mem_cons, List.not_mem_nil, or_false]
  by_cases own : i = id
  · subst own
    simp [first, second]
  · rw [Tags.insert_of_ne _ _ own]
    simp only [own, false_or]
    split_ifs <;> simp_all

/-- A tag with a short number comes back. -/
theorem codec_round_trip_iff_short_tag :
    RoundTrips Ber.parseAll (keyWith 0x05 [0x01, 0xAA])
        [0x05, tagSystemDeprecatedAudit, tagSystemAudit] ↔
      ∀ object ∈ Ber.parseAll (keyBytes [0xC5, 0x02, 0x01, 0xAA]),
        ¬HoldsLong Ber.parseAll object :=
  codec_round_trip_iff Ber.parseAll_standard.toReader (by decide) rfl
    (keyWith_visits _ _ (by decide))

/-- A tag whose number takes two bytes is accepted, written with one, and lost on the way back. -/
theorem long_tag_lost :
    ∃ key visit, fromBytes Ber.parseAll (keyBytes [0xDF, 0x01, 0x01, 0xAA]) = .ok key ∧
      key.Visits visit ∧ ¬RoundTrips Ber.parseAll key visit := by
  refine ⟨keyWith 0x1F [0xAA], _, rfl, keyWith_visits _ _ (by decide), ?_⟩
  rintro ⟨again, read, _, _, _, same⟩
  have lost : (fromBytes Ber.parseAll ((keyWith 0x1F [0xAA]).toBytes
      [0x1F, tagSystemDeprecatedAudit, tagSystemAudit])).map (fun key => key.tags 0x1F) =
        .ok none := rfl
  have kept := same 0x1F (by decide)
  rw [read] at lost
  -- the length byte is taken for the tag number, and the value for a length that runs out
  have missing : again.tags 0x1F = none := Except.ok.inj lost
  rw [missing] at kept
  cases kept

/-! ### Sequences of any content -/

/-- The object a tag number and a value are written as. -/
def objectOf (item : UInt8 × List UInt8) : Tlv := .primitive (0xC0 ||| item.1) [] item.2

/-- A tag number of one byte, and a value whose length takes at most three. -/
def Writable (item : UInt8 × List UInt8) : Prop := item.1 ≤ 0x1E ∧ item.2.length < 2 ^ 24

def encodeSequence (items : List (UInt8 × List UInt8)) : List UInt8 :=
  items.flatMap fun item => encodeTlv item.1 item.2

/-- A tag number up to 0x1E is its own low five bits. -/
theorem low_bits_of_le {number : UInt8} (small : number ≤ 0x1E) : number &&& 0x1F = number := by
  apply UInt8.toNat_inj.mp
  have bound : number.toNat ≤ 30 := UInt8.le_iff_toNat_le.mp small
  rw [UInt8.toNat_and]
  exact (Nat.and_two_pow_sub_one_eq_mod _ 5).trans (Nat.mod_eq_of_lt (by omega))

theorem encodes_writable {item : UInt8 × List UInt8} (writable : Writable item) :
    Encodes (objectOf item) (encodeTlv item.1 item.2) := by
  obtain ⟨small, room⟩ := writable
  have low := low_bits_of_le small
  have bound : item.1.toNat ≤ 30 := UInt8.le_iff_toNat_le.mp small
  have short : item.1 &&& 0x1F ≠ 0x1F := by
    rw [low]
    intro long
    rw [long] at bound
    exact absurd bound (by decide)
  have encoded := @encodeTlv_encodes item.1 item.2 short room
  rwa [low] at encoded

/-- The number and value an object was written from. -/
def itemOf : Tlv → UInt8 × List UInt8
  | .primitive first _ value => (first &&& 0x1F, value)
  | .constructed .. => (0, [])

theorem itemOf_objectOf {item : UInt8 × List UInt8} (writable : Writable item) :
    itemOf (objectOf item) = item := by
  have number := tagByte_number item.1
  rw [low_bits_of_le writable.1] at number
  exact Prod.ext number rfl

theorem map_itemOf {items : List (UInt8 × List UInt8)}
    (writable : ∀ item ∈ items, Writable item) : (items.map objectOf).map itemOf = items := by
  have back : items.map (itemOf ∘ objectOf) = items.map id :=
    List.map_congr_left fun item member => itemOf_objectOf (writable item member)
  rw [List.map_map, back, List.map_id]

/-- A sequence of encodings decodes to the numbers and values it was written from and to nothing
else, with nothing left over and each length in its shortest form. -/
theorem tlv_sequences_decode_uniquely {parseAll : List UInt8 → List Tlv}
    (reader : Reader parseAll) (items : List (UInt8 × List UInt8))
    (writable : ∀ item ∈ items, Writable item) :
    parseAll (encodeSequence items) = items.map objectOf ∧
    EncodesAll (items.map objectOf) (encodeSequence items) ∧
    (∀ objects, EncodesAll objects (encodeSequence items) → objects = items.map objectOf) ∧
    (∀ others : List (UInt8 × List UInt8), (∀ item ∈ others, Writable item) →
      encodeSequence others = encodeSequence items → others = items) ∧
    ∀ item ∈ items, ∀ bytes, Encodes (objectOf item) bytes →
      (encodeTlv item.1 item.2).length ≤ bytes.length := by
  have encoded (list : List (UInt8 × List UInt8)) (all : ∀ item ∈ list, Writable item) :
      EncodesAll (list.map objectOf) (encodeSequence list) :=
    EncodesAll.flatMap fun item member => encodes_writable (all item member)
  have read := reader.readsAll (encoded items writable)
  refine ⟨read, encoded items writable, ?_, ?_, ?_⟩
  · intro objects other
    rw [← read, reader.readsAll other]
  · intro others writable' same
    have objects := reader.readsAll (encoded others writable')
    rw [same, read] at objects
    rw [← map_itemOf writable', ← objects, map_itemOf writable]
  · intro item member bytes other
    have size := other.primitive_size (writable item member).2
    rw [encodeTlv_length]
    split at size
    · omega
    · exact size

/-- The boundaries of the four length forms, around a value that looks like an object itself. -/
theorem tlv_sequences_decode_uniquely_boundaries :
    Ber.parseAll (encodeSequence [(0x00, List.replicate 127 0), (0x1E, List.replicate 128 0),
      (0x03, [0xC0, 0x00])]) =
      [objectOf (0x00, List.replicate 127 0), objectOf (0x1E, List.replicate 128 0),
        objectOf (0x03, [0xC0, 0x00])] := by
  apply (tlv_sequences_decode_uniquely Ber.parseAll_standard.toReader _ _).1
  intro item member
  simp only [List.mem_cons, List.not_mem_nil, or_false] at member
  rcases member with rfl | rfl | rfl
  · exact ⟨by decide, by simp⟩
  · exact ⟨by decide, by simp⟩
  · exact ⟨by decide, by simp⟩

end Mkey.MobileKey
