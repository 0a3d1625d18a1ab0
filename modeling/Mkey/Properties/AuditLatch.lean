import Mkey.Core.StackSteps
import Mkey.Lib.Machine

/-!
# The audit latch

The first byte of the last audit write is kept beside the key it was written
to. A key opened later finds it still there, so the two agree in a run unless
an OPEN brings in a key that contradicts what is latched.
-/
namespace Mkey.JustinProtocolManager

open Machine

/-- What a caller of the command layer does to it. -/
inductive Call where
  | processCommand (data : List UInt8)
  | setSecureSession (secure : Bool)

section Store

variable {S : Type} [MobileKeyStore S]

/-- One call, and the answer when it is a command. -/
def serve (j : JustinProtocolManager S) :
    Call → JustinProtocolManager S × Option (Except Error (List UInt8))
  | .processCommand data => ((j.processCommand data).1, some (j.processCommand data).2)
  | .setSecureSession secure => (j.setSecureSession secure, none)

/-- The first byte of the audit tag. -/
def auditByte (key : MobileKey) : Option UInt8 :=
  (key.getTag tagAudit).bind fun tag => tag.data.head?

/-- While a key is open, a result that is latched was written to its audit tag. -/
def LatchBelongs (j : JustinProtocolManager S) : Prop :=
  j.state = .connected → ∀ r, j.lastAuditOpResult = some r → j.currentKey.bind auditByte = some r

/-- The call opens a key whose audit tag does not start with the result still latched. -/
def StaleOpen (j : JustinProtocolManager S) (call : Call) : Prop :=
  ∃ args key r, call = .processCommand (0x00 :: args) ∧ j.state = .ready ∧ 8 ≤ args.length ∧
    MobileKeyStore.getKey j.keyStore (computeKeyIdentifier (args.take 8)) = some key ∧
    j.lastAuditOpResult = some r ∧ auditByte key ≠ some r

omit [MobileKeyStore S] in
theorem auditByte_setTagData_audit {key : MobileKey} {tag : GeneralPurposeTag}
    (present : key.tags tagAudit = some tag) (first : UInt8) (more : List UInt8) :
    auditByte (key.setTagData tagAudit (first :: more)) = some first := by
  rw [auditByte, MobileKey.getTag_map _ (by decide), MobileKey.setTagData_tags key present,
    Tags.insert_self]
  rfl

omit [MobileKeyStore S] in
theorem auditByte_setTagData_of_ne {key : MobileKey} {id : UInt8} {tag : GeneralPurposeTag}
    (present : key.tags id = some tag) (other : id ≠ tagAudit) (data : List UInt8) :
    auditByte (key.setTagData id data) = auditByte key := by
  rw [auditByte, auditByte, MobileKey.getTag_map _ (by decide), MobileKey.getTag_map _ (by decide),
    MobileKey.setTagData_tags key present, Tags.insert_of_ne _ _ other.symm]

/-- Every command but OPEN keeps latch and key together. -/
theorem LatchBelongs.command {j : JustinProtocolManager S} (belongs : LatchBelongs j)
    {payload : List UInt8} (other : ∀ args, payload ≠ 0x00 :: args) :
    LatchBelongs (j.processCommand payload).1 := by
  -- the flag that `call` puts back is none of the latch's business
  change LatchBelongs (j.call payload j.secureSession).1
  have step := j.call_step j.secureSession payload
  generalize j.call payload j.secureSession = result at step
  cases step with
  | failed | answered | refused => exact belongs
  | opened => exact absurd rfl (other _)
  | closed =>
    intro connected
    cases connected
  | @wrote id first more key tag connected held above present may =>
    intro _ r latched
    dsimp only [JustinProtocolManager.wrote] at latched ⊢
    rw [Option.bind_some]
    split at latched
    next audit =>
      subst audit
      rw [auditByte_setTagData_audit present, ← latched]
    next ordinary =>
      rw [auditByte_setTagData_of_ne present ordinary]
      simpa [held] using belongs connected r latched

/-- An OPEN keeps them together unless it is a stale one. -/
theorem LatchBelongs.open_iff {j : JustinProtocolManager S} (belongs : LatchBelongs j)
    (args : List UInt8) :
    LatchBelongs (j.processCommand (0x00 :: args)).1 ↔
      ¬StaleOpen j (.processCommand (0x00 :: args)) := by
  change LatchBelongs (j.handleOpen args).1 ↔ _
  rw [handleOpen]
  split_ifs with connected short
  · apply iff_of_true belongs
    rintro ⟨_, _, _, _, ready, _⟩
    rw [connected] at ready
    cases ready
  · apply iff_of_true belongs
    rintro ⟨args', _, _, same, _, long, _⟩
    cases same
    omega
  · have ready : j.state = .ready := by
      cases state : j.state with
      | ready => rfl
      | connected => exact absurd state connected
    dsimp only
    split
    next key found =>
      constructor
      · rintro together ⟨args', key', r, same, _, _, found', latched, differs⟩
        cases same
        obtain rfl : key = key' := by simpa [found] using found'
        exact differs (together rfl r latched)
      · intro fresh _ r latched
        by_contra differs
        exact fresh ⟨args, key, r, rfl, ready, by omega, found, latched, differs⟩
    next missing =>
      apply iff_of_true belongs
      rintro ⟨args', key', _, same, _, _, found, _⟩
      cases same
      rw [missing] at found
      cases found

/-- One call: the latch goes on belonging to the open key, unless the call is a stale OPEN. -/
theorem LatchBelongs.serve_iff {j : JustinProtocolManager S} (belongs : LatchBelongs j)
    (call : Call) : LatchBelongs (j.serve call).1 ↔ ¬StaleOpen j call := by
  cases call with
  | setSecureSession secure =>
    apply iff_of_true belongs
    rintro ⟨_, _, _, same, _⟩
    cases same
  | processCommand data =>
    by_cases opens : ∃ args, data = 0x00 :: args
    · obtain ⟨args, rfl⟩ := opens
      exact belongs.open_iff args
    · refine iff_of_true (belongs.command (not_exists.mp opens)) ?_
      rintro ⟨args, _, _, same, _⟩
      cases same
      exact opens ⟨args, rfl⟩

/-- Whatever the store, the latch belongs to the open key in every state of a run exactly when
no call of the run is a stale OPEN. -/
theorem latch_belongs_iff (store : S) (calls : List Call) :
    (∀ front, front <+: calls → LatchBelongs (run serve (new store) front)) ↔
      ∀ front call back, calls = front ++ call :: back →
        ¬StaleOpen (run serve (new store) front) call := by
  constructor
  · rintro belongs front call back rfl
    have before := belongs front ⟨_, rfl⟩
    have after := belongs (front ++ [call]) ⟨back, by simp⟩
    rw [run_snoc] at after
    exact (before.serve_iff call).mp after
  · intro fresh front
    -- induction on the part of the run already done
    induction front using List.reverseRecOn with
    | nil =>
      intro _ connected
      cases connected
    | append_singleton front call ih =>
      rintro ⟨back, split⟩
      have before := ih ⟨call :: back, by rw [← split]; simp⟩
      rw [run_snoc]
      exact (before.serve_iff call).mpr (fresh front call back (by rw [← split]; simp))

end Store

/-- A store that resolves every identifier to one key. -/
structure OneKeyStore where
  key : MobileKey

instance instOneKeyStore : MobileKeyStore OneKeyStore where
  getKey store _ := some store.key

/-- A key whose audit tag is still empty, as `MobileKey::from_bytes` makes it. -/
def emptyAuditKey : MobileKey :=
  ⟨[], [], Block.replicate 0, MobileKey.materialise fun _ => none⟩

/-- OPEN, an audit write, CLOSE and OPEN again. -/
def reopening : List Call :=
  [.processCommand (0x00 :: List.replicate 8 1), .processCommand [0x03, 0x0B, 2],
    .processCommand [0x01], .processCommand (0x00 :: List.replicate 8 2)]

/-- The key opened second shows the result of the first one over an empty audit tag. -/
theorem latch_outlives_key :
    ¬∀ front, front <+: reopening →
      LatchBelongs (run serve (new (OneKeyStore.mk emptyAuditKey)) front) := by
  intro belongs
  have shown := belongs reopening (List.prefix_refl reopening) rfl 2 (by decide +kernel)
  exact absurd shown (by decide +kernel)

end Mkey.JustinProtocolManager
