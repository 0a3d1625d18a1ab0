import Mkey.Ble.Lock

/-!
# Reading back what was written to a key

The driver writes any tag of its key and reports success. Ids up to 0x02 are
read from fixed fields that no write reaches, so a write to one of them is lost
unless it says what the field holds already; every other write is read back.
-/
namespace Mkey

/-- A tag id with the data written to it. -/
abbrev TagWrite := UInt8 × List UInt8

/-- The data of the last write to an id. -/
def lastWrite (writes : List TagWrite) (tagId : UInt8) : Option (List UInt8) :=
  (writes.reverse.find? fun write => write.1 = tagId).map Prod.snd

theorem lastWrite_snoc (writes : List TagWrite) (write : TagWrite) (tagId : UInt8) :
    lastWrite (writes ++ [write]) tagId =
      if write.1 = tagId then some write.2 else lastWrite writes tagId := by
  rw [lastWrite, List.reverse_append, List.reverse_singleton, List.singleton_append,
    List.find?_cons]
  by_cases same : write.1 = tagId
  · simp [same]
  · simp [same, lastWrite]

namespace MobileKey

/-- A write moves its own tag and no other, and keeps the permissions a tag has. -/
theorem getTag_setTagData (key : MobileKey) {tagId : UInt8} (above : 0x02 < tagId)
    (write : TagWrite) :
    (key.setTagData write.1 write.2).getTag tagId =
      if write.1 = tagId then
        some ⟨((key.getTag tagId).map TagData.permissions).getD
          (Permissions.readable.union .writable), write.2⟩
      else key.getTag tagId := by
  rw [getTag_map _ above, getTag_map _ above, setTagData]
  by_cases same : write.1 = tagId
  · rw [if_pos same, ← same]
    cases key.tags write.1 with
    | some tag => simp
    | none => simp
  · rw [if_neg same]
    cases key.tags write.1 with
    | some tag => simp [Tags.insert_of_ne _ _ (Ne.symm same)]
    | none => simp [Tags.insert_of_ne _ _ (Ne.symm same)]

theorem fixed_cases {tagId : UInt8} (fixed : tagId ≤ 0x02) :
    tagId = 0x00 ∨ tagId = 0x01 ∨ tagId = 0x02 := by
  have bound : tagId.toNat ≤ 2 := UInt8.le_iff_toNat_le.mp fixed
  simp only [← UInt8.toNat_inj, UInt8.reduceToNat]
  omega

/-- No write reaches the fixed fields. -/
theorem getTag_setTagData_fixed (key : MobileKey) {tagId : UInt8} (fixed : tagId ≤ 0x02)
    (write : TagWrite) : (key.setTagData write.1 write.2).getTag tagId = key.getTag tagId := by
  rcases fixed_cases fixed with rfl | rfl | rfl
  · simp [getTag]
  · simp [getTag]
  · simp [getTag]

def writeAll (key : MobileKey) (writes : List TagWrite) : MobileKey :=
  writes.foldl (fun key write => key.setTagData write.1 write.2) key

theorem getTag_writeAll (key : MobileKey) (writes : List TagWrite) {tagId : UInt8}
    (above : 0x02 < tagId) :
    (key.writeAll writes).getTag tagId =
      match lastWrite writes tagId with
      | some data => some ⟨((key.getTag tagId).map TagData.permissions).getD
          (Permissions.readable.union .writable), data⟩
      | none => key.getTag tagId := by
  induction writes using List.reverseRecOn with
  | nil => rfl
  | append_singleton front write ih =>
    rw [writeAll, List.foldl_append, List.foldl_cons, List.foldl_nil, ← writeAll,
      getTag_setTagData _ above, lastWrite_snoc, ih]
    by_cases same : write.1 = tagId
    · rw [if_pos same, if_pos same]
      -- permissions given to a new tag by its first write stay
      cases lastWrite front tagId with
      | some data => simp
      | none => rfl
    · rw [if_neg same, if_neg same]

theorem getTag_writeAll_fixed (key : MobileKey) (writes : List TagWrite) {tagId : UInt8}
    (fixed : tagId ≤ 0x02) : (key.writeAll writes).getTag tagId = key.getTag tagId := by
  induction writes generalizing key with
  | nil => rfl
  | cons write rest ih => exact (ih _).trans (getTag_setTagData_fixed key fixed write)

end MobileKey

namespace SaltoLock

variable {T : Type}

/-- A sequence of writes, with the result of each. -/
def writeTags (lock : SaltoLock T) : List TagWrite → SaltoLock T × List (Except Error Unit)
  | [] => (lock, [])
  | write :: rest =>
    let (lock, _, result) := lock.writeTag write.1 write.2
    let (lock, results) := lock.writeTags rest
    (lock, result :: results)

/-- After writes that all succeed, every id reads as last written, or as before, and a tag that
was there keeps its permissions. -/
def ReadsBack (lock : SaltoLock T) (writes : List TagWrite) : Prop :=
  (∀ result ∈ (lock.writeTags writes).2, result = .ok ()) →
  ∀ tagId, (lock.writeTags writes).1.readTag tagId =
      (match lastWrite writes tagId with
      | some data => .ok data
      | none => lock.readTag tagId) ∧
    ∀ key tag, lock.mobileKey = some key → key.getTag tagId = some tag →
      ∃ key' tag', (lock.writeTags writes).1.mobileKey = some key' ∧
        key'.getTag tagId = some tag' ∧ tag'.permissions = tag.permissions

/-- With a key loaded every write succeeds, and reaches the key. -/
theorem writeTags_loaded {lock : SaltoLock T} {key : MobileKey}
    (loaded : lock.mobileKey = some key) (writes : List TagWrite) :
    (lock.writeTags writes).1.mobileKey = some (key.writeAll writes) ∧
      ∀ result ∈ (lock.writeTags writes).2, result = .ok () := by
  induction writes generalizing lock key with
  | nil => exact ⟨loaded, by simp [writeTags]⟩
  | cons write rest ih =>
    rw [writeTags, writeTag, loaded]
    obtain ⟨reached, succeeded⟩ :=
      @ih { lock with mobileKey := some (key.setTagData write.1 write.2) } _ rfl
    refine ⟨reached, ?_⟩
    intro result member
    rcases List.mem_cons.mp member with rfl | later
    · rfl
    · exact succeeded result later

theorem readTag_loaded {lock : SaltoLock T} {key : MobileKey} (loaded : lock.mobileKey = some key)
    (tagId : UInt8) : lock.readTag tagId =
      match key.getTag tagId with
      | some tag => .ok tag.data
      | none => .error (.keyNotFound s!"Tag 0x{Hex.byte true tagId}") := by
  cases found : key.getTag tagId with
  | some tag => simp only [readTag, loaded, found]
  | none => simp only [readTag, loaded, found]

/-- Writes are read back exactly when the last one to each of the ids 0x00 to 0x02 says what its
field holds already. -/
theorem writes_read_back_iff (lock : SaltoLock T) {key : MobileKey}
    (loaded : lock.mobileKey = some key) (writes : List TagWrite) :
    lock.ReadsBack writes ↔
      ∀ tagId ≤ 0x02, ∀ data, lastWrite writes tagId = some data →
        lock.readTag tagId = .ok data := by
  obtain ⟨reached, succeeded⟩ := writeTags_loaded loaded writes
  constructor
  · intro readsBack tagId fixed data last
    have read := (readsBack succeeded tagId).1
    rw [last, readTag_loaded reached, key.getTag_writeAll_fixed writes fixed] at read
    rw [readTag_loaded loaded]
    exact read
  · intro unchanged _ tagId
    by_cases fixed : tagId ≤ 0x02
    · -- a fixed field is as it was, and the writes to it said as much
      have same := key.getTag_writeAll_fixed writes fixed
      constructor
      · rw [readTag_loaded reached, same, ← readTag_loaded loaded]
        split
        next data last => exact unchanged tagId fixed data last
        next => rfl
      · intro key' tag loaded' found
        obtain rfl := Option.some.inj (loaded.symm.trans loaded')
        exact ⟨_, tag, reached, same.trans found, rfl⟩
    · have above : 0x02 < tagId := UInt8.not_le.mp fixed
      have written := key.getTag_writeAll writes above
      constructor
      · rw [readTag_loaded reached, readTag_loaded loaded, written]
        cases lastWrite writes tagId <;> rfl
      · intro key' tag loaded' found
        obtain rfl := Option.some.inj (loaded.symm.trans loaded')
        rw [found] at written
        cases last : lastWrite writes tagId with
        | some data =>
          rw [last] at written
          exact ⟨_, _, reached, written, rfl⟩
        | none =>
          rw [last] at written
          exact ⟨_, tag, reached, written, rfl⟩

/-- A driver that has connected and was given a key. -/
def withKey (key : MobileKey) : SaltoLock Unit :=
  (((withTransport ()).afterConnect ⟨⟨"lock", none, none, 2, .default⟩⟩).authenticate key).1

/-- Writes to ids above 0x02 are all read back. -/
theorem writes_read_back_general_purpose :
    (withKey (MobileKey.new (Block.replicate 0x42))).ReadsBack
      [(0x05, [0x01]), (0x09, [0x02]), (0x05, [])] := by
  apply (writes_read_back_iff _ rfl _).mpr
  intro tagId fixed data last
  rcases MobileKey.fixed_cases fixed with rfl | rfl | rfl
  · cases last
  · cases last
  · cases last

/-- A write to tag 0 reports success and is not there afterwards. -/
theorem write_to_fixed_field_lost :
    ((withKey (MobileKey.new (Block.replicate 0x42))).writeTag 0x00 [0x01]).2.2 = .ok () ∧
    ¬(withKey (MobileKey.new (Block.replicate 0x42))).ReadsBack [(0x00, [0x01])] := by
  refine ⟨rfl, ?_⟩
  intro readsBack
  have read := (readsBack (writeTags_loaded rfl _).2 0x00).1
  exact absurd read (by decide)

end SaltoLock

end Mkey
