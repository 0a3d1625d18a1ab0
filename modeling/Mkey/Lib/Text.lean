import Mathlib

/-!
# Texts as bytes

Characters and their UTF-8, and what a reader makes of the white space around a
text.
-/
namespace Mkey.Text

def utf8 (text : List Char) : List UInt8 := (String.ofList text).toUTF8.data.toList

/-- The characters of some bytes, which may be no UTF-8. -/
def fromUtf8 (bytes : List UInt8) : Option (List Char) :=
  (String.fromUTF8? ⟨bytes.toArray⟩).map String.toList

theorem fromUtf8_utf8 (text : List Char) : fromUtf8 (utf8 text) = some text := by
  rw [fromUtf8, utf8, Array.toArray_toList, String.toUTF8_eq_toByteArray, String.fromUTF8?,
    dif_pos (String.ofList text).isValidUTF8]
  exact congrArg some String.toList_ofList

/-- Bytes are read as a text exactly when they are its UTF-8. -/
theorem fromUtf8_eq_some_iff {bytes : List UInt8} {text : List Char} :
    fromUtf8 bytes = some text ↔ bytes = utf8 text := by
  constructor
  · intro read
    obtain ⟨s, valid, rfl⟩ := Option.map_eq_some_iff.mp read
    unfold String.fromUTF8? at valid
    split at valid
    · obtain rfl := Option.some.inj valid
      rw [utf8, String.ofList_toList]
      rfl
    · cases valid
  · rintro rfl
    exact fromUtf8_utf8 text

/-- The characters with the Unicode property `White_Space`. -/
def isWhitespace (c : Char) : Bool :=
  (0x09 ≤ c.toNat ∧ c.toNat ≤ 0x0D) ∨ c.toNat = 0x20 ∨ c.toNat = 0x85 ∨ c.toNat = 0xA0 ∨
    c.toNat = 0x1680 ∨ (0x2000 ≤ c.toNat ∧ c.toNat ≤ 0x200A) ∨ c.toNat = 0x2028 ∨
    c.toNat = 0x2029 ∨ c.toNat = 0x202F ∨ c.toNat = 0x205F ∨ c.toNat = 0x3000

/-- A text without the white space at its ends. -/
def trim (text : List Char) : List Char :=
  (text.dropWhile isWhitespace).rdropWhile isWhitespace

/-- Nothing but white space. -/
def Blank (text : List Char) : Prop := ∀ c ∈ text, isWhitespace c

theorem rdropWhile_blank {back : List Char} (blank : Blank back) (text : List Char) :
    (text ++ back).rdropWhile isWhitespace = text.rdropWhile isWhitespace := by
  have front : Blank back.reverse := fun c member => blank c (List.mem_reverse.mp member)
  rw [List.rdropWhile, List.reverse_append, List.dropWhile_append_of_pos front, List.rdropWhile]

/-- A text of visible characters is what is left of it, in whatever white space it stands. -/
theorem trim_surrounded {front text back : List Char} (before : Blank front)
    (visible : ∀ c ∈ text, ¬isWhitespace c) (after : Blank back) :
    trim (front ++ text ++ back) = text := by
  rw [trim, List.append_assoc, List.dropWhile_append_of_pos before]
  cases text with
  | nil =>
    have all : back.dropWhile isWhitespace = [] := List.dropWhile_eq_nil_iff.mpr after
    rw [List.nil_append, all, List.rdropWhile_nil]
  | cons c rest =>
    rw [List.cons_append, List.dropWhile_cons_of_neg (visible c List.mem_cons_self),
      ← List.cons_append, rdropWhile_blank after, List.rdropWhile_eq_self_iff]
    exact fun nonempty => visible _ (List.getLast_mem nonempty)

/-- What is cut off a text is white space. -/
theorem trim_spec (text : List Char) :
    ∃ front back, text = front ++ trim text ++ back ∧ Blank front ∧ Blank back := by
  refine ⟨text.takeWhile isWhitespace, (text.dropWhile isWhitespace).rtakeWhile isWhitespace,
    ?_, fun c => List.mem_takeWhile_imp, fun c => List.mem_rtakeWhile_imp⟩
  rw [trim, List.append_assoc, List.rdropWhile_append_rtakeWhile, List.takeWhile_append_dropWhile]

/-- A text cut into lines of some width, the last of which may be shorter. -/
def wrapped (width : Nat) (text : List Char) : List (List Char) :=
  if text = [] ∨ width = 0 then [] else text.take width :: wrapped width (text.drop width)
termination_by text.length
decreasing_by
  have nonempty : text.length ≠ 0 := fun none => by simp_all
  rw [List.length_drop]
  omega

theorem flatten_wrapped {width : Nat} (wide : width ≠ 0) (text : List Char) :
    (wrapped width text).flatten = text := by
  fun_induction wrapped width text with
  | case1 text done => rw [done.resolve_right wide, List.flatten_nil]
  | case2 text _ ih => rw [List.flatten_cons, ih, List.take_append_drop]

theorem length_le_of_mem_wrapped {width : Nat} {text line : List Char}
    (member : line ∈ wrapped width text) : line.length ≤ width := by
  fun_induction wrapped width text with
  | case1 => cases member
  | case2 text _ ih =>
    rcases List.mem_cons.mp member with rfl | later
    · exact List.length_take_le width text
    · exact ih later

end Mkey.Text
