import Mathlib

/-!
# BER-TLV

The grammar of BER-TLV objects with definite lengths of at most four length
bytes, what a reader of consecutive objects does, and one such reader.
-/
namespace Mkey.Ber

/-- A tag is kept as its first byte and the bytes that follow it, if any. -/
inductive Tlv where
  | primitive (first : UInt8) (more : List UInt8) (value : List UInt8)
  | constructed (first : UInt8) (more : List UInt8) (children : List Tlv)

/-- Low five bits all ones: the tag goes on after its first byte. -/
def isLong (first : UInt8) : Bool := first &&& 0x1F == 0x1F

def isConstructed (first : UInt8) : Bool := first &&& 0x20 != 0

/-- The bytes a tag goes on with: the top bit is set on all but the last. -/
inductive Continuation : List UInt8 → Prop
  | last {b : UInt8} : b < 0x80 → Continuation [b]
  | next {b : UInt8} {bytes : List UInt8} : ¬b < 0x80 → Continuation bytes →
      Continuation (b :: bytes)

def WellTagged (first : UInt8) (more : List UInt8) : Prop :=
  if isLong first then Continuation more else more = []

def bigEndian (bytes : List UInt8) : Nat := bytes.foldl (fun n b => 256 * n + b.toNat) 0

/-- Short form below 128, else the count of length bytes and the length itself. -/
inductive LengthBytes : Nat → List UInt8 → Prop
  | short {b : UInt8} : b < 0x80 → LengthBytes b.toNat [b]
  | long {b : UInt8} {bytes : List UInt8} : b.toNat = 0x80 + bytes.length →
      1 ≤ bytes.length → bytes.length ≤ 4 → LengthBytes (bigEndian bytes) (b :: bytes)

mutual

inductive Encodes : Tlv → List UInt8 → Prop
  | primitive {first : UInt8} {more lengthBytes value : List UInt8} :
      isConstructed first = false → WellTagged first more →
      LengthBytes value.length lengthBytes →
      Encodes (.primitive first more value) (first :: (more ++ (lengthBytes ++ value)))
  | constructed {first : UInt8} {more lengthBytes content : List UInt8} {children : List Tlv} :
      isConstructed first = true → WellTagged first more →
      LengthBytes content.length lengthBytes → EncodesAll children content →
      Encodes (.constructed first more children) (first :: (more ++ (lengthBytes ++ content)))

inductive EncodesAll : List Tlv → List UInt8 → Prop
  | nil : EncodesAll [] []
  | cons {object : Tlv} {bytes : List UInt8} {objects : List Tlv} {rest : List UInt8} :
      Encodes object bytes → EncodesAll objects rest →
      EncodesAll (object :: objects) (bytes ++ rest)

end

/-- Reads consecutive objects and stops at the first malformed one. -/
structure StandardReader (parseAll : List UInt8 → List Tlv) : Prop where
  nil : parseAll [] = []
  reads : ∀ {object bytes}, Encodes object bytes →
    ∀ rest, parseAll (bytes ++ rest) = object :: parseAll rest
  sound : ∀ {data object objects}, parseAll data = object :: objects →
    ∃ bytes rest, data = bytes ++ rest ∧ Encodes object bytes ∧ objects = parseAll rest

/-- Reads sequences of encodings in full, and takes each primitive object from an encoding of it.
What is malformed it may take for anything. -/
structure Reader (parseAll : List UInt8 → List Tlv) : Prop where
  readsAll : ∀ {objects bytes}, EncodesAll objects bytes → parseAll bytes = objects
  encoded : ∀ {data first more value}, .primitive first more value ∈ parseAll data →
    ∃ bytes, Encodes (.primitive first more value) bytes ∧ bytes.length ≤ data.length

/-! ### Numbers in bytes -/

theorem bigEndian_append (front back : List UInt8) :
    bigEndian (front ++ back) = bigEndian front * 256 ^ back.length + bigEndian back := by
  induction back using List.reverseRecOn with
  | nil => simp [bigEndian]
  | append_singleton back b ih =>
    simp only [bigEndian, ← List.append_assoc, List.foldl_append, List.foldl_cons,
      List.foldl_nil, List.length_append, List.length_singleton] at ih ⊢
    rw [ih, Nat.pow_succ]
    ring

theorem bigEndian_cons (b : UInt8) (bytes : List UInt8) :
    bigEndian (b :: bytes) = b.toNat * 256 ^ bytes.length + bigEndian bytes := by
  rw [← List.singleton_append, bigEndian_append]
  simp [bigEndian]

theorem bigEndian_dropZeros (bytes : List UInt8) :
    bigEndian (bytes.dropWhile (· == 0)) = bigEndian bytes := by
  induction bytes with
  | nil => rfl
  | cons b bytes ih =>
    rw [List.dropWhile_cons]
    split
    next zero =>
      rw [ih, bigEndian_cons, show b = 0 by simpa using zero]
      simp
    next => rfl

/-- Leading zeros dropped, a numeral of value zero is empty. -/
theorem dropZeros_of_zero (bytes : List UInt8) (zero : bigEndian bytes = 0) :
    bytes.dropWhile (· == 0) = [] := by
  induction bytes with
  | nil => rfl
  | cons b bytes ih =>
    -- every digit of a zero numeral is zero, the leading one included
    rw [bigEndian_cons] at zero
    have top : b.toNat = 0 := by
      have pos : 0 < 256 ^ bytes.length := Nat.pow_pos (by decide)
      rcases Nat.eq_zero_or_pos b.toNat with none | some
      · exact none
      · have := Nat.mul_pos some pos
        omega
    have same : b = 0 := UInt8.toNat_inj.mp top
    rw [List.dropWhile_cons, if_pos (by simp [same])]
    exact ih (by omega)

theorem bigEndian_lt (bytes : List UInt8) : bigEndian bytes < 256 ^ bytes.length := by
  induction bytes with
  | nil => simp [bigEndian]
  | cons b bytes ih =>
    have digit := b.toNat_lt
    rw [bigEndian_cons, List.length_cons, Nat.pow_succ]
    calc b.toNat * 256 ^ bytes.length + bigEndian bytes
        < b.toNat * 256 ^ bytes.length + 256 ^ bytes.length := by omega
      _ = (b.toNat + 1) * 256 ^ bytes.length := (Nat.succ_mul ..).symm
      _ ≤ 256 * 256 ^ bytes.length := Nat.mul_le_mul_right _ digit
      _ = 256 ^ bytes.length * 256 := Nat.mul_comm ..

theorem bigEndian_ne_zero {data : List UInt8} (some : ∃ byte ∈ data, byte ≠ 0) :
    bigEndian data ≠ 0 := by
  intro zero
  obtain ⟨byte, member, nonzero⟩ := some
  have none := dropZeros_of_zero data zero
  rw [List.dropWhile_eq_nil_iff] at none
  exact nonzero (by simpa using none byte member)

/-- Bytes of one length with the same number are the same bytes. -/
theorem bigEndian_injective {left right : List UInt8} (same : left.length = right.length)
    (equal : bigEndian left = bigEndian right) : left = right := by
  induction left generalizing right with
  | nil => exact (List.length_eq_zero_iff.mp same.symm).symm
  | cons byte rest ih =>
    cases right with
    | nil => cases same
    | cons byte' rest' =>
      have length : rest.length = rest'.length := Nat.succ.inj same
      rw [bigEndian_cons, bigEndian_cons, ← length] at equal
      have low := bigEndian_lt rest
      have low' := bigEndian_lt rest'
      rw [← length] at low'
      have positive : 0 < 256 ^ rest.length := Nat.pow_pos (by decide)
      -- the first byte is the quotient, the bytes behind it the remainder
      have lead : ∀ (b : UInt8) {n : Nat}, n < 256 ^ rest.length →
          (b.toNat * 256 ^ rest.length + n) / 256 ^ rest.length = b.toNat := by
        intro b n below
        rw [Nat.mul_comm, Nat.mul_add_div positive, Nat.div_eq_of_lt below, Nat.add_zero]
      have first : byte = byte' := by
        apply UInt8.toNat_inj.mp
        rw [← lead byte low, equal, lead byte' low']
      subst first
      rw [ih length (Nat.add_left_cancel equal)]

/-! ### Sizes -/

theorem LengthBytes.one_le {n : Nat} {lengthBytes : List UInt8}
    (length : LengthBytes n lengthBytes) : 1 ≤ lengthBytes.length := by
  cases length <;> simp

theorem Encodes.two_le {object : Tlv} {bytes : List UInt8} (encoded : Encodes object bytes) :
    2 ≤ bytes.length := by
  cases encoded with
  | primitive _ _ length =>
    have := length.one_le
    simp only [List.length_cons, List.length_append]
    omega
  | constructed _ _ length _ =>
    have := length.one_le
    simp only [List.length_cons, List.length_append]
    omega

/-- How many length bytes a length needs, up to three of the long form. -/
def lengthSize (n : Nat) : Nat :=
  if n < 128 then 1 else if n < 256 then 2 else if n < 65536 then 3 else 4

/-- No way to write a length is shorter than the shortest. -/
theorem LengthBytes.size_le {n : Nat} {lengthBytes : List UInt8} (small : n < 2 ^ 24)
    (length : LengthBytes n lengthBytes) : lengthSize n ≤ lengthBytes.length := by
  rw [lengthSize]
  cases length with
  | @short b low =>
    have digit := UInt8.lt_iff_toNat_lt.mp low
    rw [if_pos (by simpa using digit)]
    simp
  | @long b bytes count some_ few =>
    have bound := bigEndian_lt bytes
    rw [List.length_cons]
    split_ifs with tiny byte word
    · omega
    · omega
    · -- a single byte behind the count spells no length from 256 on
      by_contra short
      have one : bytes.length = 1 := by omega
      rw [one] at bound
      omega
    · by_contra short
      have two : bytes.length ≤ 2 := by omega
      have := Nat.pow_le_pow_right (n := 256) (by omega) two
      omega

/-- A tag that goes on takes two bytes at least. -/
theorem WellTagged.long {first : UInt8} {more : List UInt8} (tagged : WellTagged first more)
    (long : isLong first) : 1 ≤ more.length := by
  rw [WellTagged, if_pos long] at tagged
  cases tagged <;> simp

/-- The tag, the shortest length and the value fit into what encodes them. -/
theorem Encodes.primitive_size {first : UInt8} {more value bytes : List UInt8}
    (small : value.length < 2 ^ 24) (encoded : Encodes (.primitive first more value) bytes) :
    (if isLong first then 2 else 1) + lengthSize value.length + value.length ≤ bytes.length := by
  cases encoded with
  | primitive _ tagged length =>
    have size := length.size_le small
    simp only [List.length_cons, List.length_append]
    split
    next long =>
      have := tagged.long long
      omega
    · omega

/-! ### Any standard reader -/

namespace StandardReader

variable {parseAll : List UInt8 → List Tlv} (reader : StandardReader parseAll)
include reader

/-- Consecutive encodings are read as the objects they encode. -/
theorem readsAll {objects : List Tlv} {bytes : List UInt8} (encoded : EncodesAll objects bytes) :
    parseAll bytes = objects := by
  induction objects generalizing bytes with
  | nil =>
    cases encoded
    exact reader.nil
  | cons object objects ih =>
    cases encoded with
    | cons first later => rw [reader.reads first, ih later]

/-- Whatever is read, some part of the data encodes it. -/
theorem encoded_of_mem {data : List UInt8} {object : Tlv} (member : object ∈ parseAll data) :
    ∃ bytes, Encodes object bytes ∧ bytes.length ≤ data.length := by
  generalize found : parseAll data = objects at member
  induction objects generalizing data with
  | nil => cases member
  | cons first later ih =>
    obtain ⟨bytes, rest, rfl, encoded, rfl⟩ := reader.sound found
    rw [List.length_append]
    rcases List.mem_cons.mp member with rfl | further
    · exact ⟨bytes, encoded, by omega⟩
    · obtain ⟨bytes', encoded', fits⟩ := ih rfl further
      exact ⟨bytes', encoded', by omega⟩

theorem toReader : Reader parseAll := ⟨reader.readsAll, reader.encoded_of_mem⟩

end StandardReader

theorem EncodesAll.flatMap {α : Type} {object : α → Tlv} {bytes : α → List UInt8} {items : List α}
    (encoded : ∀ a ∈ items, Encodes (object a) (bytes a)) :
    EncodesAll (items.map object) (items.flatMap bytes) := by
  induction items with
  | nil => exact .nil
  | cons a rest ih =>
    exact .cons (encoded a List.mem_cons_self) (ih fun b member =>
      encoded b (List.mem_cons_of_mem a member))

/-! ### A reader -/

def readContinuation : List UInt8 → Option (List UInt8 × List UInt8)
  | [] => none
  | b :: rest =>
      if b < 0x80 then some ([b], rest)
      else (readContinuation rest).map fun (more, rest) => (b :: more, rest)

def readTag : List UInt8 → Option (UInt8 × List UInt8 × List UInt8)
  | [] => none
  | first :: rest =>
      if isLong first then (readContinuation rest).map fun (more, rest) => (first, more, rest)
      else some (first, [], rest)

def readLength : List UInt8 → Option (Nat × List UInt8)
  | [] => none
  | b :: rest =>
      if b < 0x80 then some (b.toNat, rest)
      else if 1 ≤ b.toNat - 0x80 ∧ b.toNat - 0x80 ≤ 4 ∧ b.toNat - 0x80 ≤ rest.length then
        some (bigEndian (rest.take (b.toNat - 0x80)), rest.drop (b.toNat - 0x80))
      else none

/-- Tag, length and content of the first object, and what follows it. -/
def readHeader (data : List UInt8) :
    Option (UInt8 × List UInt8 × List UInt8 × List UInt8) :=
  match readTag data with
  | none => none
  | some (first, more, rest) =>
    match readLength rest with
    | none => none
    | some (n, rest) =>
      if rest.length < n then none else some (first, more, rest.take n, rest.drop n)

mutual

def readTlv : Nat → List UInt8 → Option (Tlv × List UInt8)
  | 0, _ => none
  | fuel + 1, data =>
    match readHeader data with
    | none => none
    | some (first, more, content, rest) =>
      if isConstructed first then
        (readSequence fuel content).map fun children => (.constructed first more children, rest)
      else some (.primitive first more content, rest)

def readSequence : Nat → List UInt8 → Option (List Tlv)
  | _, [] => some []
  | 0, _ :: _ => none
  | fuel + 1, b :: data =>
    match readTlv fuel (b :: data) with
    | none => none
    | some (object, rest) => (readSequence fuel rest).map (object :: ·)

end

def readAll : Nat → List UInt8 → List Tlv
  | 0, _ => []
  | fuel + 1, data =>
    match readTlv fuel data with
    | none => []
    | some (object, rest) => object :: readAll fuel rest

def parseAll (data : List UInt8) : List Tlv := readAll (data.length + 1) data

/-! ### The reader reads exactly what the grammar writes -/

theorem readContinuation_iff (data more rest : List UInt8) :
    readContinuation data = some (more, rest) ↔ Continuation more ∧ data = more ++ rest := by
  induction data generalizing more rest with
  | nil =>
    simp only [readContinuation, reduceCtorEq, false_iff]
    rintro ⟨more, empty⟩
    cases more <;> cases empty
  | cons b data ih =>
    rw [readContinuation]
    split
    next small =>
      constructor
      · intro found
        cases found
        exact ⟨.last small, rfl⟩
      · rintro ⟨more, equal⟩
        cases more with
        | last _ => cases equal; rfl
        | next large _ => cases equal; exact absurd small large
    next large =>
      simp only [Option.map_eq_some_iff, Prod.exists, ih, Prod.mk.injEq]
      constructor
      · rintro ⟨more, rest, ⟨further, rfl⟩, rfl, rfl⟩
        exact ⟨.next large further, rfl⟩
      · rintro ⟨more, equal⟩
        cases more with
        | last small => cases equal; exact absurd small large
        | next _ further => cases equal; exact ⟨_, _, ⟨further, rfl⟩, rfl, rfl⟩

theorem readTag_iff (data : List UInt8) (first : UInt8) (more rest : List UInt8) :
    readTag data = some (first, more, rest) ↔
      WellTagged first more ∧ data = first :: (more ++ rest) := by
  cases data with
  | nil => simp [readTag]
  | cons b data =>
    rw [readTag, WellTagged]
    split
    next long =>
      simp only [Option.map_eq_some_iff, Prod.exists, readContinuation_iff, Prod.mk.injEq]
      constructor
      · rintro ⟨more, rest, ⟨further, rfl⟩, rfl, rfl, rfl⟩
        exact ⟨by rwa [if_pos long], rfl⟩
      · rintro ⟨tagged, equal⟩
        cases equal
        rw [if_pos long] at tagged
        exact ⟨_, _, ⟨tagged, rfl⟩, rfl, rfl, rfl⟩
    next short =>
      constructor
      · intro found
        cases found
        exact ⟨by rw [if_neg short], rfl⟩
      · rintro ⟨tagged, equal⟩
        cases equal
        rw [if_neg short] at tagged
        subst tagged
        rfl

theorem readLength_iff (data : List UInt8) (n : Nat) (rest : List UInt8) :
    readLength data = some (n, rest) ↔
      ∃ lengthBytes, LengthBytes n lengthBytes ∧ data = lengthBytes ++ rest := by
  cases data with
  | nil =>
    simp only [readLength, reduceCtorEq, false_iff]
    rintro ⟨lengthBytes, length, empty⟩
    cases length <;> cases empty
  | cons b data =>
    rw [readLength]
    split
    next small =>
      constructor
      · intro found
        cases found
        exact ⟨[b], .short small, rfl⟩
      · rintro ⟨lengthBytes, length, equal⟩
        cases length with
        | short _ => cases equal; rfl
        | long count low _ =>
          cases equal
          have := UInt8.lt_iff_toNat_lt.mp small
          simp at this
          omega
    next large =>
      have top : 128 ≤ b.toNat := by
        have := UInt8.lt_iff_toNat_lt.not.mp large
        simpa using this
      constructor
      · intro found
        split at found
        next fits =>
          simp only [Option.some.injEq, Prod.mk.injEq] at found
          obtain ⟨rfl, rfl⟩ := found
          have size : (data.take (b.toNat - 0x80)).length = b.toNat - 0x80 := by
            rw [List.length_take]
            omega
          have length : LengthBytes (bigEndian (data.take (b.toNat - 0x80)))
              (b :: data.take (b.toNat - 0x80)) :=
            .long (by omega) (by omega) (by omega)
          exact ⟨_, length, by simp⟩
        · cases found
      · rintro ⟨lengthBytes, length, equal⟩
        cases length with
        | short small => cases equal; exact absurd small large
        | @long b bytes count low high =>
          cases equal
          have size : b.toNat - 0x80 = bytes.length := by omega
          rw [if_pos (by simp [size, low, high]), size]
          simp

theorem readHeader_iff (data : List UInt8) (first : UInt8) (more content rest : List UInt8) :
    readHeader data = some (first, more, content, rest) ↔
      ∃ lengthBytes, WellTagged first more ∧ LengthBytes content.length lengthBytes ∧
        data = first :: (more ++ (lengthBytes ++ (content ++ rest))) := by
  constructor
  · intro found
    rw [readHeader] at found
    split at found
    · cases found
    next first' more' tail tag =>
      obtain ⟨tagged, rfl⟩ := (readTag_iff _ _ _ _).mp tag
      split at found
      · cases found
      next n tail' length =>
        obtain ⟨lengthBytes, encoded, rfl⟩ := (readLength_iff _ _ _).mp length
        split at found
        · cases found
        next fits =>
          cases found
          refine ⟨lengthBytes, tagged, ?_, by simp⟩
          rwa [List.length_take, Nat.min_eq_left (by omega)]
  · rintro ⟨lengthBytes, tagged, length, rfl⟩
    have tag := (readTag_iff _ first more (lengthBytes ++ (content ++ rest))).mpr ⟨tagged, rfl⟩
    have size := (readLength_iff _ content.length (content ++ rest)).mpr ⟨_, length, rfl⟩
    have fits : ¬(content ++ rest).length < content.length := by simp
    simp only [readHeader, tag, size, if_neg fits, List.take_left', List.drop_left']

/-- Whatever the fuel, an object read is a prefix that encodes it. -/
theorem readTlv_sound (fuel : Nat) :
    (∀ data object rest, readTlv fuel data = some (object, rest) →
      ∃ bytes, data = bytes ++ rest ∧ Encodes object bytes) ∧
    (∀ data objects, readSequence fuel data = some objects → EncodesAll objects data) := by
  induction fuel with
  | zero =>
    constructor
    · intro data object rest found
      simp [readTlv] at found
    · intro data objects found
      cases data with
      | nil => cases found; exact .nil
      | cons b data => cases found
  | succ fuel ih =>
    constructor
    · intro data object rest found
      simp only [readTlv] at found
      split at found
      · cases found
      next first more content tail header =>
        obtain ⟨lengthBytes, tagged, length, rfl⟩ := (readHeader_iff _ _ _ _ _).mp header
        split at found
        next nested =>
          obtain ⟨children, inner, equal⟩ := Option.map_eq_some_iff.mp found
          cases equal
          exact ⟨_, by simp, .constructed nested tagged length (ih.2 _ _ inner)⟩
        next flat =>
          cases found
          exact ⟨_, by simp, .primitive (by simpa using flat) tagged length⟩
    · intro data objects found
      cases data with
      | nil => cases found; exact .nil
      | cons b data =>
        simp only [readSequence] at found
        split at found
        · cases found
        next object rest first =>
          obtain ⟨objects, later, rfl⟩ := Option.map_eq_some_iff.mp found
          obtain ⟨bytes, split, encoded⟩ := ih.1 _ _ _ first
          rw [split]
          exact .cons encoded (ih.2 _ _ later)

/-- Fuel for every byte is enough to read an object the grammar writes. -/
theorem readTlv_complete (fuel : Nat) :
    (∀ object bytes rest, Encodes object bytes → bytes.length ≤ fuel →
      readTlv fuel (bytes ++ rest) = some (object, rest)) ∧
    (∀ objects bytes, EncodesAll objects bytes → bytes.length < fuel →
      readSequence fuel bytes = some objects) := by
  induction fuel with
  | zero =>
    constructor
    · intro object bytes rest encoded short
      have := encoded.two_le
      omega
    · intro objects bytes _ short
      omega
  | succ fuel ih =>
    constructor
    · intro object bytes rest encoded short
      have header {first : UInt8} {more lengthBytes content : List UInt8}
          (tagged : WellTagged first more) (length : LengthBytes content.length lengthBytes) :
          readHeader (first :: (more ++ (lengthBytes ++ content)) ++ rest) =
            some (first, more, content, rest) :=
        (readHeader_iff _ _ _ _ _).mpr ⟨lengthBytes, tagged, length, by simp⟩
      cases encoded with
      | primitive flat tagged length =>
        simp only [readTlv, header tagged length, flat, Bool.false_eq_true, if_false]
      -- the header takes two bytes at least, which pays for the level of nesting
      | @constructed first more lengthBytes content children nested tagged length inner =>
        have room : content.length < fuel := by
          have := length.one_le
          simp only [List.length_cons, List.length_append] at short
          omega
        simp only [readTlv, header tagged length, nested, if_true, ih.2 _ _ inner room,
          Option.map_some]
    · intro objects bytes encoded short
      cases encoded with
      | nil => rfl
      | @cons object bytes objects rest first later =>
        have size := first.two_le
        rw [List.length_append] at short
        have read := ih.1 _ _ rest first (by omega)
        obtain ⟨b, data, split⟩ : ∃ b data, bytes ++ rest = b :: data := by
          cases bytes with
          | nil => simp at size
          | cons b bytes => exact ⟨b, bytes ++ rest, rfl⟩
        rw [split] at read ⊢
        simp only [readSequence, read, ih.2 _ _ later (by omega), Option.map_some]

theorem readAll_enough (fuel more : Nat) (data : List UInt8)
    (enough : data.length < fuel) (enough' : data.length < more) :
    readAll fuel data = readAll more data := by
  induction fuel generalizing more data with
  | zero => omega
  | succ fuel ih =>
    cases more with
    | zero => omega
    | succ more =>
      simp only [readAll]
      cases first : readTlv fuel data with
      | some found =>
        obtain ⟨object, rest⟩ := found
        obtain ⟨bytes, rfl, encoded⟩ := (readTlv_sound fuel).1 _ _ _ first
        have size := encoded.two_le
        rw [List.length_append] at enough enough'
        -- what was read is a shorter rest, and both amounts of fuel still cover it
        rw [(readTlv_complete more).1 _ _ rest encoded (by omega)]
        simp only [ih more rest (by omega) (by omega)]
      | none =>
        cases second : readTlv more data with
        | none => rfl
        | some found =>
          obtain ⟨object, rest⟩ := found
          obtain ⟨bytes, rfl, encoded⟩ := (readTlv_sound more).1 _ _ _ second
          rw [List.length_append] at enough
          rw [(readTlv_complete fuel).1 _ _ rest encoded (by omega)] at first
          cases first

theorem parseAll_standard : StandardReader parseAll where
  nil := rfl
  reads {object bytes} encoded rest := by
    have size := encoded.two_le
    have first := (readTlv_complete (bytes ++ rest).length).1 _ _ rest encoded (by simp)
    have same := readAll_enough (bytes ++ rest).length (rest.length + 1) rest
      (by rw [List.length_append]; omega) (by omega)
    simp only [parseAll, readAll, first, same]
  sound {data object objects} found := by
    simp only [parseAll, readAll] at found
    split at found
    · cases found
    next object' rest first =>
      cases found
      obtain ⟨bytes, rfl, encoded⟩ := (readTlv_sound _).1 _ _ _ first
      have size := encoded.two_le
      exact ⟨bytes, rest, rfl, encoded,
        readAll_enough _ _ rest (by rw [List.length_append]; omega) (by omega)⟩

end Mkey.Ber
