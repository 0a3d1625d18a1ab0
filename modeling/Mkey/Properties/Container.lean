import Mkey.Virgil.Container

/-!
# What the container parser accepts, and where it stops

The parser splits a container exactly where the marker and the declared length
say. It reads both without asking whether the bytes are there.
-/
namespace Mkey.Virgil

open Guarded Search

/-! ### The id of the recipient -/

theorem recipientPattern_length : recipientPattern.length = 4 := rfl

theorem extractRecipientIdAt_eq (messageInfo : List UInt8) (places : List Nat)
    (fits : ∀ i ∈ places, i + 36 ≤ messageInfo.length) :
    extractRecipientIdAt messageInfo places =
      .ok ((places.find? fun i => decide (recipientPattern <+: messageInfo.drop i)).map
        fun i => (messageInfo.take (i + 4 + 32)).drop (i + 4)) := by
  induction places with
  | nil => rfl
  | cons i rest ih =>
    have room : i + 36 ≤ messageInfo.length := fits i List.mem_cons_self
    have later := ih fun j member => fits j (List.mem_cons_of_mem i member)
    rw [extractRecipientIdAt, readsAs_of_le (by rw [recipientPattern_length]; omega), ok_bind,
      List.find?_cons]
    by_cases here : recipientPattern <+: messageInfo.drop i
    · rw [if_pos (by simpa using here), slice_of_le (by omega) (by omega)]
      simp [here]
    · rw [if_neg (by simpa using here), later]
      simp [here]

/-- The places the loop goes through are those with room for a pattern and an id. -/
theorem extractRecipientId_eq (messageInfo : List UInt8) :
    extractRecipientId messageInfo =
      .ok (((List.range (messageInfo.length - 35)).find? fun i =>
        decide (recipientPattern <+: messageInfo.drop i)).map
          fun i => (messageInfo.take (i + 4 + 32)).drop (i + 4)) := by
  apply extractRecipientIdAt_eq
  intro i member
  have bound := List.mem_range.mp member
  omega

theorem recipient_at (front back : List UInt8) :
    ((front ++ recipientPattern ++ back).take (front.length + 4 + 32)).drop (front.length + 4) =
      back.take 32 := by
  have size : (front ++ recipientPattern).length = front.length + 4 := by
    rw [List.length_append, recipientPattern_length]
  rw [List.drop_take, ← size, List.drop_left]
  congr 1
  omega

/-- The least place that passes the test of the loop. -/
theorem found_iff (messageInfo : List UInt8) (i : Nat) :
    ((List.range (messageInfo.length - 35)).find? fun i =>
        decide (recipientPattern <+: messageInfo.drop i)) = some i ↔
      ∃ front back, messageInfo = front ++ recipientPattern ++ back ∧ 32 ≤ back.length ∧
        front.length = i ∧ ∀ front' back', messageInfo = front' ++ recipientPattern ++ back' →
          32 ≤ back'.length → front.length ≤ front'.length := by
  rw [List.find?_range_eq_some]
  simp only [decide_eq_true_eq, List.mem_range, Bool.not_eq_true', decide_eq_false_iff_not]
  constructor
  · rintro ⟨here, inside, earlier⟩
    obtain ⟨front, back, split, rfl⟩ := (prefix_drop_iff (by omega)).mp here
    have size := congrArg List.length split
    simp only [List.length_append, recipientPattern_length] at size
    refine ⟨front, back, split, by omega, rfl, ?_⟩
    intro front' back' split' _
    by_contra less
    have bound : front'.length ≤ messageInfo.length := by omega
    exact earlier _ (not_le.mp less) ((prefix_drop_iff bound).mpr ⟨front', back', split', rfl⟩)
  · rintro ⟨front, back, split, room, rfl, first⟩
    have size := congrArg List.length split
    simp only [List.length_append, recipientPattern_length] at size
    refine ⟨(prefix_drop_iff (by omega)).mpr ⟨front, back, split, rfl⟩, by omega, ?_⟩
    intro j less earlier
    obtain ⟨front', back', split', rfl⟩ := (prefix_drop_iff (by omega)).mp earlier
    have size' := congrArg List.length split'
    simp only [List.length_append, recipientPattern_length] at size'
    exact absurd (first front' back' split' (by omega)) (not_le.mpr less)

theorem extractRecipientId_some_iff (messageInfo recipientId : List UInt8) :
    extractRecipientId messageInfo = .ok (some recipientId) ↔
      FirstRecipient messageInfo recipientId := by
  rw [extractRecipientId_eq, Except.ok.injEq, Option.map_eq_some_iff]
  constructor
  · rintro ⟨i, found, rfl⟩
    obtain ⟨front, back, split, room, rfl, first⟩ := (found_iff messageInfo i).mp found
    rw [split, recipient_at, ← split]
    refine ⟨List.length_take_of_le room, front, back.drop 32, ?_, first⟩
    rw [List.append_assoc, List.take_append_drop, split]
  · rintro ⟨size, front, back, split, first⟩
    have split' : messageInfo = front ++ recipientPattern ++ (recipientId ++ back) := by
      rw [split, List.append_assoc]
    refine ⟨front.length, (found_iff messageInfo _).mpr ⟨front, _, split', ?_, rfl, first⟩, ?_⟩
    · rw [List.length_append]
      omega
    · rw [split', recipient_at, List.take_left' size]

theorem extractRecipientId_of_recipient {messageInfo : List UInt8}
    (recipient : ∃ front back, messageInfo = front ++ recipientPattern ++ back ∧
      32 ≤ back.length) :
    ∃ recipientId, extractRecipientId messageInfo = .ok (some recipientId) := by
  obtain ⟨front, back, split, room⟩ := recipient
  have size := congrArg List.length split
  simp only [List.length_append, recipientPattern_length] at size
  rw [extractRecipientId_eq]
  cases found : (List.range (messageInfo.length - 35)).find? fun i =>
      decide (recipientPattern <+: messageInfo.drop i) with
  | some i => exact ⟨_, rfl⟩
  | none =>
    have missing := List.find?_range_eq_none.mp found front.length (by omega)
    have here := (prefix_drop_iff (by omega)).mpr ⟨front, back, split, rfl⟩
    simp [here] at missing

/-! ### What stands behind the marker -/

/-- The ways the bytes behind the marker can go. -/
inductive AfterMarker : List UInt8 → Prop
  | untagged {after : List UInt8} : after.head? ≠ some 0x30 → AfterMarker after
  | unsupported {form : UInt8} {rest : List UInt8} : ¬form < 0x80 → form ≠ 0x81 → form ≠ 0x82 →
      AfterMarker (0x30 :: form :: rest)
  | truncated {after : List UInt8} : Truncated after → AfterMarker after
  | whole {messageInfo content : List UInt8} : IsMessageInfo messageInfo →
      AfterMarker (messageInfo ++ content)

/-- A declared length, and as many bytes or not. -/
theorem afterMarker_of_length {length : List UInt8} {n : Nat} (isLength : IsLength length n)
    (rest : List UInt8) : AfterMarker (0x30 :: length ++ rest) := by
  by_cases short : rest.length < n
  · exact .truncated (.inBody isLength short)
  · have size : (rest.take n).length = n := List.length_take_of_le (not_lt.mp short)
    rw [← List.take_append_drop n rest, ← List.append_assoc]
    exact .whole ⟨length, rest.take n, rfl, by rwa [size]⟩

theorem afterMarker_cases (after : List UInt8) : AfterMarker after := by
  match after with
  | [] => exact .untagged (by simp)
  | tag :: rest =>
    by_cases tagged : tag = 0x30
    swap
    · exact .untagged (by simpa using tagged)
    subst tagged
    match rest with
    | [] => exact .truncated (.inLength .absent)
    | form :: rest =>
      by_cases short : form < 0x80
      · exact afterMarker_of_length (.short short) rest
      by_cases oneByte : form = 0x81
      · subst oneByte
        match rest with
        | [] => exact .truncated (.inLength .oneByte)
        | n :: body => exact afterMarker_of_length .oneByte body
      by_cases twoBytes : form = 0x82
      · subst twoBytes
        match rest with
        | [] => exact .truncated (.inLength .twoBytes)
        | [high] => exact .truncated (.inLength .half)
        | high :: low :: body => exact afterMarker_of_length .twoBytes body
      exact .unsupported short oneByte twoBytes

/-- The length that is declared is read, with the size of its header. -/
theorem messageInfoLength_of_length {length : List UInt8} {n : Nat} (isLength : IsLength length n)
    (rest : List UInt8) :
    messageInfoLength (0x30 :: length ++ rest) = .ok (.ok (n, 1 + length.length)) := by
  cases isLength with
  | short small => simp [messageInfoLength, index, small]
  | oneByte => simp [messageInfoLength, index]
  | @twoBytes high low =>
    have value : high.toNat <<< 8 ||| low.toNat = high.toNat * 256 + low.toNat := by
      rw [← Nat.shiftLeft_add_eq_or_of_lt (i := 8) low.toNat_lt, Nat.shiftLeft_eq]
    simp [messageInfoLength, index, value]

theorem messageInfoLength_of_cut {rest : List UInt8} (cut : CutLength rest) :
    messageInfoLength (0x30 :: rest) = .error .outOfBounds := by
  cases cut <;> rfl

theorem parseAfterMarker_tagged (rest : List UInt8) :
    parseAfterMarker (0x30 :: rest) = do
      match ← messageInfoLength (0x30 :: rest) with
      | .error e => return .error e
      | .ok (messageInfoLen, headerLen) =>
        let messageInfo ← sliceTo (0x30 :: rest) (headerLen + messageInfoLen)
        let encryptedContent ← sliceFrom (0x30 :: rest) (headerLen + messageInfoLen)
        match ← extractRecipientId messageInfo with
        | none => return .error (.container "Failed to extract recipient_id from message_info")
        | some recipientId => return .ok ⟨messageInfo, encryptedContent, recipientId⟩ := rfl

theorem parseAfterMarker_untagged {after : List UInt8} (untagged : after.head? ≠ some 0x30) :
    ∃ message, parseAfterMarker after = .ok (.error (.container message)) := by
  cases after with
  | nil => exact ⟨_, rfl⟩
  | cons tag rest =>
    have other : tag ≠ 0x30 := by simpa using untagged
    exact ⟨_, by simp [parseAfterMarker, index, other]; rfl⟩

theorem parseAfterMarker_unsupported {form : UInt8} {rest : List UInt8} (long : ¬form < 0x80)
    (notOne : form ≠ 0x81) (notTwo : form ≠ 0x82) :
    ∃ message, parseAfterMarker (0x30 :: form :: rest) = .ok (.error (.container message)) := by
  have refused : messageInfoLength (0x30 :: form :: rest) =
      .ok (.error (.container s!"Unsupported ASN.1 length encoding: 0x{Hex.byte false form}")) := by
    simp [messageInfoLength, index, long, notOne, notTwo]
  rw [parseAfterMarker_tagged, refused]
  exact ⟨_, rfl⟩

theorem parseAfterMarker_truncated {after : List UInt8} (truncated : Truncated after) :
    ∃ panic, parseAfterMarker after = .error panic := by
  cases truncated with
  | inLength cut =>
    rw [parseAfterMarker_tagged, messageInfoLength_of_cut cut]
    exact ⟨_, rfl⟩
  | @inBody length body n isLength short =>
    have beyond : ¬1 + length.length + n ≤ (0x30 :: (length ++ body)).length := by
      simp only [List.length_cons, List.length_append]
      omega
    rw [List.cons_append, parseAfterMarker_tagged, ← List.cons_append,
      messageInfoLength_of_length isLength, ok_bind]
    dsimp only
    rw [List.cons_append, sliceTo, if_neg beyond]
    exact ⟨_, rfl⟩

theorem parseAfterMarker_whole {messageInfo : List UInt8} (whole : IsMessageInfo messageInfo)
    (content : List UInt8) :
    parseAfterMarker (messageInfo ++ content) = do
      match ← extractRecipientId messageInfo with
      | none => return .error (.container "Failed to extract recipient_id from message_info")
      | some recipientId => return .ok ⟨messageInfo, content, recipientId⟩ := by
  obtain ⟨length, body, rfl, isLength⟩ := whole
  have size : 1 + length.length + body.length = (0x30 :: length ++ body).length := by
    simp only [List.cons_append, List.length_cons, List.length_append]
    omega
  have regroup : 0x30 :: length ++ body ++ content = 0x30 :: (length ++ (body ++ content)) := by
    simp
  have fits : (0x30 :: length ++ body).length ≤ (0x30 :: length ++ body ++ content).length :=
    (List.prefix_append _ _).length_le
  rw [regroup, parseAfterMarker_tagged, ← List.cons_append, messageInfoLength_of_length isLength,
    ok_bind, ← List.append_assoc]
  dsimp only
  rw [size, sliceTo_of_le fits, sliceFrom_of_le fits, List.take_left, List.drop_left]
  rfl

/-! ### The whole container -/

theorem parse_marked {data header after : List UInt8}
    (marked : FirstAfter marker header after data) :
    parseVirgilContainer data = parseAfterMarker after := by
  have found := position_eq_some_iff.mpr ⟨header, after, marked, rfl⟩
  have split := marked.split
  have fits : (header ++ marker).length ≤ data.length := by
    rw [split]
    exact (List.prefix_append _ _).length_le
  have rest : data.drop (header ++ marker).length = after := by rw [split, List.drop_left]
  unfold parseVirgilContainer
  rw [found]
  dsimp only
  rw [← List.length_append, sliceFrom_of_le fits, rest, ok_bind]

theorem parse_unmarked {data : List UInt8}
    (unmarked : ∀ header after, ¬FirstAfter marker header after data) :
    parseVirgilContainer data =
      .ok (.error (.container "VIRGIL-DATA-SIGNATURE marker not found")) := by
  unfold parseVirgilContainer
  rw [position_eq_none_iff.mpr unmarked]
  dsimp only [pure_eq_ok]

/-- An accepted container is a split of the data around its marker. -/
theorem parse_ok {data : List UInt8} {c : VirgilContainer}
    (accepted : parseVirgilContainer data = .ok (.ok c)) :
    ∃ header, Splits data header c.messageInfo c.encryptedContent ∧
      FirstRecipient c.messageInfo c.recipientId := by
  by_cases marked : ∃ header after, FirstAfter marker header after data
  swap
  · push Not at marked
    rw [parse_unmarked marked] at accepted
    cases accepted
  obtain ⟨header, after, marked⟩ := marked
  rw [parse_marked marked] at accepted
  cases afterMarker_cases after with
  | untagged untagged =>
    obtain ⟨message, refused⟩ := parseAfterMarker_untagged untagged
    rw [refused] at accepted
    cases accepted
  | unsupported long notOne notTwo =>
    obtain ⟨message, refused⟩ := @parseAfterMarker_unsupported _ _ long notOne notTwo
    rw [refused] at accepted
    cases accepted
  | truncated truncated =>
    obtain ⟨panic, stopped⟩ := parseAfterMarker_truncated truncated
    rw [stopped] at accepted
    cases accepted
  | @whole messageInfo content whole =>
    rw [parseAfterMarker_whole whole, bind_eq_ok] at accepted
    obtain ⟨found, extracted, accepted⟩ := accepted
    cases found with
    | none => cases accepted
    | some recipientId =>
      cases accepted
      have recipient := (extractRecipientId_some_iff messageInfo recipientId).mp extracted
      obtain ⟨front, back, split, _⟩ := recipient.stands
      refine ⟨header, ⟨marked, whole, front, recipientId ++ back, ?_, ?_⟩, recipient⟩
      · rw [split, List.append_assoc]
      · rw [List.length_append, recipient.size]
        omega

/-- A split of the data is accepted as it is. -/
theorem parse_of_splits {data header messageInfo content : List UInt8}
    (splits : Splits data header messageInfo content) :
    ∃ recipientId, parseVirgilContainer data = .ok (.ok ⟨messageInfo, content, recipientId⟩) := by
  obtain ⟨recipientId, extracted⟩ := extractRecipientId_of_recipient splits.recipient
  refine ⟨recipientId, ?_⟩
  rw [parse_marked splits.first, parseAfterMarker_whole splits.whole, extracted]
  rfl

/-- The parser accepts what splits around its first marker into a whole `message_info` with a
recipient and the rest, and returns these. -/
theorem container_split_exact (data : List UInt8) :
    ((∃ c, parseVirgilContainer data = .ok (.ok c)) ↔
      ∃ header messageInfo content, Splits data header messageInfo content) ∧
    ∀ c header messageInfo content, parseVirgilContainer data = .ok (.ok c) →
      Splits data header messageInfo content →
      c.messageInfo = messageInfo ∧ c.encryptedContent = content ∧
        FirstRecipient messageInfo c.recipientId := by
  refine ⟨⟨?_, ?_⟩, ?_⟩
  · rintro ⟨c, accepted⟩
    obtain ⟨header, splits, _⟩ := parse_ok accepted
    exact ⟨header, c.messageInfo, c.encryptedContent, splits⟩
  · rintro ⟨header, messageInfo, content, splits⟩
    obtain ⟨recipientId, accepted⟩ := parse_of_splits splits
    exact ⟨_, accepted⟩
  · intro c header messageInfo content accepted splits
    obtain ⟨recipientId, accepted'⟩ := parse_of_splits splits
    obtain ⟨_, _, recipient⟩ := parse_ok accepted
    rw [accepted'] at accepted
    cases accepted
    exact ⟨rfl, rfl, recipient⟩

example :
    let messageInfo := 0x30 :: 36 :: recipientPattern ++ List.replicate 32 0xAB
    parseVirgilContainer ([0x30, 0x0A] ++ marker ++ messageInfo ++ List.replicate 48 0x42) =
      .ok (.ok ⟨messageInfo, List.replicate 48 0x42, List.replicate 32 0xAB⟩) := by decide +kernel

/-- The parser returns, with a container or a container error, exactly unless the bytes behind the
first marker break off within the SEQUENCE they begin. -/
theorem container_total_iff (data : List UInt8) :
    (∃ result, parseVirgilContainer data = .ok result ∧
        ∀ e, result = .error e → ∃ message, e = .container message) ↔
      ∀ header after, FirstAfter marker header after data → ¬Truncated after := by
  constructor
  · rintro ⟨result, returned, _⟩ header after marked truncated
    obtain ⟨panic, stopped⟩ := parseAfterMarker_truncated truncated
    rw [parse_marked marked, stopped] at returned
    cases returned
  · intro complete
    by_cases marked : ∃ header after, FirstAfter marker header after data
    swap
    · push Not at marked
      exact ⟨_, parse_unmarked marked, fun e same => ⟨_, (Except.error.inj same).symm⟩⟩
    obtain ⟨header, after, marked⟩ := marked
    rw [parse_marked marked]
    cases afterMarker_cases after with
    | untagged untagged =>
      obtain ⟨message, refused⟩ := parseAfterMarker_untagged untagged
      exact ⟨_, refused, fun e same => ⟨_, (Except.error.inj same).symm⟩⟩
    | unsupported long notOne notTwo =>
      obtain ⟨message, refused⟩ := @parseAfterMarker_unsupported _ _ long notOne notTwo
      exact ⟨_, refused, fun e same => ⟨_, (Except.error.inj same).symm⟩⟩
    | truncated truncated => exact absurd truncated (complete header _ marked)
    | @whole messageInfo content whole =>
      rw [parseAfterMarker_whole whole, extractRecipientId_eq, ok_bind]
      cases Option.map _ _ with
      | none => exact ⟨_, rfl, fun e same => ⟨_, (Except.error.inj same).symm⟩⟩
      | some recipientId => exact ⟨_, rfl, fun e same => by cases same⟩

/-- A container that breaks off right behind the tag of its `message_info`. -/
theorem container_stops_behind_tag :
    parseVirgilContainer (marker ++ [0x30]) = .error .outOfBounds := by decide +kernel

end Mkey.Virgil
