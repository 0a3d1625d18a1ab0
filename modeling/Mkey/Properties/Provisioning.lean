import Mkey.Virgil.Keystore
import Mkey.Virgil.Ledger

/-!
# What becomes of the library's objects

Every handle passed to the library stands for an object that the library has
made and that has not been deleted since, or it is a null handle that the
library answered and nobody has checked. What is to be deleted is deleted on
every way out, unless the instance itself failed on the way.

## Proof strategy

Each operation is specified by what it adds to the ledger; one that fails leaves
what there was before, or has met a fault. The runtime's own objects are followed
through its making and its destructor, with a body between them that gives back
what it takes.
-/
namespace Mkey.Virgil

open Recorded VirgilRuntime

section Operations

variable {W : Type} [Foundation W] {h : Handles} {base s : Stock} {func : Func}

theorem runs_alloc {size : Int32} {post : Int32 → Stock → Prop}
    (given : ∀ ptr, ptr ≠ 0 → post ptr (s.give ⟨.block, ptr⟩)) :
    Runs h base (alloc size : Wasm W Int32) post s :=
  Runs.create (by simp) rfl rfl (fun _ => by simp [Func.gives, Func.answers, Func.unchecked])
    (by decide) rfl given

theorem runs_newBuffer {capacity : Int32} {post : Int32 → Stock → Prop}
    (given : ∀ buffer, buffer ≠ 0 → post buffer (s.give ⟨.buffer, buffer⟩)) :
    Runs h base (newBuffer capacity : Wasm W Int32) post s :=
  Runs.create (by simp) rfl rfl (fun _ => by simp [Func.gives, Func.answers, Func.unchecked])
    (by decide) rfl given

theorem runs_memoryWrite {ptr : Int32} {bytes : List UInt8} {post : Unit → Stock → Prop}
    (member : ⟨.block, ptr⟩ ∈ s.live) (written : post () s) :
    Runs h base (memoryWrite ptr bytes : Wasm W Unit) post s := by
  intro ready faulty rt same
  unfold Ensures memoryWrite
  cases ran : Foundation.write rt.store ptr bytes with
  | mk store answer =>
    cases answer with
    | error e =>
      refine ⟨⟨s, true⟩, ?_, same, ready, .inl rfl⟩
      simp [Monitor.run, Ledger.next, WasmCall.faults, member]
    | ok =>
      refine ⟨⟨s, faulty⟩, ?_, same, ready, written⟩
      simp [Monitor.run, Ledger.next, WasmCall.faults, member]

theorem runs_readBytes {ptr size : Int32} {post : List UInt8 → Stock → Prop}
    (out : ∀ bytes, post bytes s) :
    Runs h base (readBytes ptr size : Wasm W (List UInt8)) post s := by
  intro ready faulty rt same
  unfold Ensures readBytes
  dsimp only
  cases ran : Foundation.read rt.store ptr size.toInt.toNat with
  | error e =>
    refine ⟨⟨s, true⟩, ?_, same, ready, .inl rfl⟩
    simp [Monitor.run, Ledger.next, WasmCall.faults]
  | ok bytes =>
    refine ⟨⟨s, faulty⟩, ?_, same, ready, out bytes⟩
    simp [Monitor.run, Ledger.next, WasmCall.faults]

/-- A view is a view of a live block, at the place of another. -/
theorem runs_data {bytes : List UInt8} {post : Int32 → Stock → Prop}
    (given : ∀ ctx t, Keeps s t → ⟨.view, ctx⟩ ∈ t → post ctx t) :
    Runs h base (data bytes : Wasm W Int32) post s := by
  apply Runs.bind
  apply Runs.get
  intro rt _
  apply Runs.bind
  -- the copy
  apply Runs.bind
  apply runs_alloc
  intro ptr nonzero
  apply Runs.bind
  apply runs_memoryWrite (by simp [Stock.give, Object.behind, nonzero])
  apply Runs.ret
  -- the view
  apply Runs.bind
  apply runs_alloc
  intro ctx _
  apply Runs.bind
  apply Runs.give (by simp) rfl (fun _ => rfl)
  intro _
  apply Runs.ret
  apply given
  · exact ((Keeps.left rfl s).trans (Keeps.left rfl _)).trans (Keeps.left rfl _)
  · simp

theorem runs_deleteBuffer {buffer : Int32} {post : Unit → Stock → Prop}
    (member : ⟨.buffer, buffer⟩ ∈ s) (left : post () (s.delete ⟨.buffer, buffer⟩)) :
    Runs h base (VirgilRuntime.call .bufferDelete [buffer] : Wasm W Int32).ignore post s :=
  Runs.delete rfl rfl (fun _ => rfl) (.inl rfl) member left

theorem runs_deleteCipher {cipher : Int32} {post : Unit → Stock → Prop}
    (member : ⟨.cipher, cipher⟩ ∈ s) (left : post () (s.delete ⟨.cipher, cipher⟩)) :
    Runs h base (VirgilRuntime.call .recipientCipherDelete [cipher] : Wasm W Int32).ignore post
      s :=
  Runs.delete rfl rfl (fun _ => rfl) (.inr rfl) member left

theorem runs_takeBuffer {buffer : Int32} {post : List UInt8 → Stock → Prop}
    (member : ⟨.buffer, buffer⟩ ∈ s)
    (out : ∀ bytes, post bytes (s.delete ⟨.buffer, buffer⟩)) :
    Runs h base (takeBuffer buffer : Wasm W (List UInt8)) post s := by
  apply Runs.bind
  apply Runs.plain (by simp [member]) rfl (fun _ => rfl) rfl
  intro ptr
  apply Runs.bind
  apply Runs.plain (by simp [member]) rfl (fun _ => rfl) rfl
  intro size
  apply Runs.bind
  apply runs_readBytes
  intro bytes
  apply Runs.bind
  apply runs_deleteBuffer member
  apply Runs.ret
  exact out bytes

theorem runs_resetError {post : Int32 → Stock → Prop} (reset : ∀ v, post v s) :
    Runs h base (resetError : Wasm W Int32) post s := by
  apply Runs.bind
  apply Runs.get
  rintro rt rfl
  apply Runs.plain ?_ rfl (fun _ => rfl) rfl reset
  intro ready
  simpa [VirgilRuntime.handles] using ready.errorCtx

/-- A key that is refused is answered with a status. -/
theorem runs_obtained {op : String} {key : Int32} {post : Int32 → Stock → Prop}
    (keeps : Keeps base s) (accepted : key ≠ 0 → post key s) :
    Runs h base (obtained op key : Wasm W Int32) post s := by
  apply Runs.bind
  apply Runs.bind
  apply Runs.get
  rintro rt rfl
  apply Runs.plain ?_ rfl (fun _ => rfl) rfl
  · intro status
    split_ifs with refused
    · exact Runs.fail keeps
    · exact Runs.ret (accepted fun zero => refused (.inl zero))
  · intro ready
    simpa [VirgilRuntime.handles] using ready.errorCtx

theorem runs_generatePrivateKey {algId : Int32} {post : Int32 → Stock → Prop}
    (keeps : Keeps base s) (made : ∀ key t, Keeps s t → ⟨.key, key⟩ ∈ t → post key t) :
    Runs h base (generatePrivateKey algId : Wasm W Int32) post s := by
  apply Runs.bind
  apply Runs.get
  rintro rt rfl
  apply Runs.bind
  apply runs_resetError
  intro _
  apply Runs.bind
  apply Runs.key ?_ rfl (fun _ => by simp [Func.gives, Func.answers, Func.unchecked])
  · intro key t kept keyed
    exact runs_obtained (keeps.trans kept) fun nonzero => made key t kept (keyed nonzero)
  · intro ready
    simpa using ⟨ready.keyProvider, ready.errorCtx⟩

/-- Either import: a private key or a public one. -/
theorem runs_importKey {op : String} {der : List UInt8} {post : Int32 → Stock → Prop}
    (imports : func = .keyProviderImportPrivateKey ∨ func = .keyProviderImportPublicKey)
    (keeps : Keeps base s) (made : ∀ key t, Keeps s t → ⟨.key, key⟩ ∈ t → post key t) :
    Runs h base (importKey func op der : Wasm W Int32) post s := by
  apply Runs.bind
  apply runs_data
  intro view t kept viewed
  apply Runs.bind
  apply Runs.get
  rintro rt rfl
  apply Runs.bind
  apply runs_resetError
  intro _
  apply Runs.bind
  apply Runs.key
  · intro ready
    rcases imports with rfl | rfl <;>
      simpa using ⟨ready.keyProvider, viewed, ready.errorCtx⟩
  · rcases imports with rfl | rfl <;> rfl
  · intro key
    rcases imports with rfl | rfl <;> simp [Func.gives, Func.answers, Func.unchecked]
  · intro key u kept' keyed
    exact runs_obtained (keeps.trans (kept.trans kept')) fun nonzero =>
      made key u (kept.trans kept') (keyed nonzero)

/-- The buffer of an export is deleted, whether it is read or not. -/
theorem runs_exportInto {op : String} {key buffer : Int32} {post : List UInt8 → Stock → Prop}
    (exports : func = .keyProviderExportPrivateKey ∨ func = .keyProviderExportPublicKey)
    (keyed : ⟨.key, key⟩ ∈ s) (buffered : ⟨.buffer, buffer⟩ ∈ s)
    (keeps : Keeps base (s.delete ⟨.buffer, buffer⟩))
    (out : ∀ der, post der (s.delete ⟨.buffer, buffer⟩)) :
    Runs h base (exportInto func op key buffer : Wasm W (List UInt8)) post s := by
  apply Runs.bind
  apply Runs.get
  rintro rt rfl
  apply Runs.bind
  apply Runs.plain
  · intro ready
    rcases exports with rfl | rfl <;>
      simpa using ⟨ready.keyProvider, keyed, buffered⟩
  · rcases exports with rfl | rfl <;> rfl
  · rcases exports with rfl | rfl <;> exact fun _ => rfl
  · rcases exports with rfl | rfl <;> rfl
  · intro status
    split_ifs
    · apply Runs.bind
      apply runs_deleteBuffer buffered
      exact Runs.fail keeps
    · exact runs_takeBuffer buffered out

theorem runs_exportPublicKey {key : Int32} {post : List UInt8 → Stock → Prop}
    (keyed : ⟨.key, key⟩ ∈ s) (keeps : Keeps base s) (out : ∀ der, post der s) :
    Runs h base (exportPublicKey key : Wasm W (List UInt8)) post s := by
  apply Runs.bind
  apply runs_newBuffer
  intro buffer nonzero
  apply runs_exportInto (.inr rfl) (by simp [keyed]) (by simp)
  · rwa [Stock.give_delete nonzero]
  · rwa [Stock.give_delete nonzero]

theorem runs_exportPrivateKey {key : Int32} {post : List UInt8 → Stock → Prop}
    (keyed : ⟨.key, key⟩ ∈ s) (keeps : Keeps base s) (out : ∀ der, post der s) :
    Runs h base (exportPrivateKey key : Wasm W (List UInt8)) post s := by
  apply Runs.bind
  apply Runs.get
  rintro rt rfl
  apply Runs.bind
  apply Runs.plain ?_ rfl (fun _ => rfl) rfl
  · intro size
    apply Runs.bind
    apply runs_newBuffer
    intro buffer nonzero
    apply runs_exportInto (.inl rfl) (by simp [keyed]) (by simp)
    · rwa [Stock.give_delete nonzero]
    · rwa [Stock.give_delete nonzero]
  · intro ready
    simpa using ⟨ready.keyProvider, keyed⟩

theorem runs_extractPublicKey {key : Int32} {post : Int32 → Stock → Prop}
    (keyed : ⟨.key, key⟩ ∈ s) (keeps : Keeps base s)
    (made : ∀ publicKey t, Keeps s t → ⟨.key, publicKey⟩ ∈ t → post publicKey t) :
    Runs h base (extractPublicKey key : Wasm W Int32) post s := by
  apply Runs.bind
  apply Runs.key (by simp [keyed]) rfl
    (fun _ => by simp [Func.gives, Func.answers, Func.unchecked])
  intro publicKey t kept there
  split_ifs with zero
  · exact Runs.fail (keeps.trans kept)
  · exact Runs.ret (made publicKey t kept (there zero))

/-- A decryption gives the cipher back, with every buffer it has used. -/
theorem runs_finishDecryption {cipher : Int32} {content : List UInt8}
    {post : List UInt8 → Stock → Prop} (ciphered : ⟨.cipher, cipher⟩ ∈ s)
    (keeps : Keeps base (s.delete ⟨.cipher, cipher⟩))
    (out : ∀ bytes t, Keeps (s.delete ⟨.cipher, cipher⟩) t → post bytes t) :
    Runs h base (finishDecryption cipher content : Wasm W (List UInt8)) post s := by
  apply Runs.bind
  apply runs_data
  intro view t kept viewed
  have ciphered' := kept.mem ciphered
  have left := kept.sub ⟨.cipher, cipher⟩
  apply Runs.bind
  apply Runs.plain (by simp [ciphered']) rfl (fun _ => rfl) rfl
  intro processOutLen
  apply Runs.bind
  apply runs_newBuffer
  intro processBuffer nonzero
  apply Runs.bind
  apply Runs.plain (by simp [ciphered', viewed]) rfl (fun _ => rfl) rfl
  intro status
  split_ifs
  -- each error path deletes what was made up to it, the last first
  · apply Runs.bind
    apply runs_deleteBuffer (by simp)
    rw [Stock.give_delete nonzero]
    apply Runs.bind
    apply runs_deleteCipher ciphered'
    exact Runs.fail (keeps.trans left)
  · apply Runs.bind
    apply Runs.plain (by simp [ciphered']) rfl (fun _ => rfl) rfl
    intro finishOutLen
    apply Runs.bind
    apply runs_newBuffer
    intro finishBuffer nonzero'
    apply Runs.bind
    apply Runs.plain (by simp [ciphered']) rfl (fun _ => rfl) rfl
    intro status
    split_ifs
    · apply Runs.bind
      apply runs_deleteBuffer (by simp)
      rw [Stock.give_delete nonzero']
      apply Runs.bind
      apply runs_deleteBuffer (by simp)
      rw [Stock.give_delete nonzero]
      apply Runs.bind
      apply runs_deleteCipher ciphered'
      exact Runs.fail (keeps.trans left)
    · -- here the buffers are read in the order in which they were made
      rw [Stock.give_comm]
      apply Runs.bind
      apply runs_takeBuffer (by simp)
      intro processed
      rw [Stock.give_delete nonzero]
      apply Runs.bind
      apply runs_takeBuffer (by simp)
      intro finished
      rw [Stock.give_delete nonzero']
      apply Runs.bind
      apply runs_deleteCipher ciphered'
      exact Runs.ret (out _ _ left)

/-- A cipher that is null is used all the same. -/
theorem runs_decryptContent {container : VirgilContainer} {privateKeyDer : List UInt8}
    {post : List UInt8 → Stock → Prop} (keeps : Keeps base s)
    (out : ∀ bytes t, Keeps s t → post bytes t) :
    Runs h base (decryptContent container privateKeyDer : Wasm W (List UInt8)) post s := by
  apply Runs.bind
  apply runs_importKey (.inl rfl) keeps
  intro privateKey t kept keyed
  apply Runs.bind
  apply Runs.give (o := fun cipher => ⟨.cipher, cipher⟩) (by simp) rfl
    (fun _ => by simp [Func.gives, Func.answers, Func.unchecked])
  intro cipher
  apply Runs.bind
  apply Runs.get
  rintro rt rfl
  apply Runs.bind
  apply Runs.plain ?_ rfl (fun _ => rfl) rfl
  · intro _
    apply Runs.bind
    apply runs_data
    intro recipientId u kept₁ recipient
    apply Runs.bind
    apply runs_data
    intro messageInfo v kept₂ info
    have kept' := kept₁.trans kept₂
    have ciphered : ⟨.cipher, cipher⟩ ∈ v := kept'.mem (by simp)
    have left : Keeps s (v.delete ⟨.cipher, cipher⟩) := kept.trans kept'.delete
    have keyed' : ⟨.key, privateKey⟩ ∈ v := kept'.mem (by simp [keyed])
    have recipient' := kept₂.mem recipient
    apply Runs.bind
    apply Runs.plain (by simp [ciphered, recipient', keyed', info]) rfl (fun _ => rfl) rfl
    intro status
    split_ifs
    · apply Runs.bind
      apply runs_deleteCipher ciphered
      exact Runs.fail (keeps.trans left)
    · apply Runs.bind
      apply runs_finishDecryption ciphered (keeps.trans left)
      intro decrypted w kept₃
      split_ifs
      · exact Runs.fail (keeps.trans (left.trans kept₃))
      · exact Runs.ret (out _ _ (left.trans kept₃))
  · intro ready
    simpa [VirgilRuntime.handles] using ready.rng

end Operations

/-! ### Runtimes -/

section Scope

variable {W : Type}

/-- What a runtime holds on to. -/
def VirgilRuntime.held (rt : VirgilRuntime W) : Multiset Object :=
  Object.behind ⟨.provider, rt.keyProvider⟩ + Object.behind ⟨.rng, rt.rng⟩

/-- A runtime that can be dropped: nothing else is left to be deleted, unless after a fault. -/
structure Droppable (r : Ledger) (rt : VirgilRuntime W) : Prop where
  live : rt.held ≤ r.stock.live
  held : r.faulty ∨ Balanced rt.held r.stock.live

variable [Foundation W]

theorem ensures_release {o : Object} {func : Func} {held : Multiset Object}
    {post : Unit → Ledger → VirgilRuntime W → Prop} {lost : Ledger → VirgilRuntime W → Prop}
    {q : Ledger} {rt : VirgilRuntime W} (about : func.uses [o.handle] = [o])
    (deletes : func.deletes [o.handle] = some o)
    (none : ∀ value, func.gives [o.handle] value = none)
    (live : o.behind + held ≤ q.stock.live)
    (balanced : q.faulty ∨ Balanced (o.behind + held) q.stock.live)
    (left : ∀ r store, held ≤ r.stock.live → (r.faulty ∨ Balanced held r.stock.live) →
      post () r { rt with store }) :
    Ensures Ledger.next (release func o.handle) post lost q rt := by
  unfold release
  split_ifs with null
  · rw [Object.behind, if_pos null, zero_add] at live balanced
    exact Ensures.ret (left q rt.store live balanced)
  · have member : o ∈ q.stock.live :=
      Multiset.mem_of_le live (by simp [Object.behind, null])
    apply ensures_delete about deletes none (.inl member)
    intro store faulty faults
    refine left _ store ?_ (balanced.imp faults Balanced.delete)
    rw [add_comm] at live
    exact le_tsub_of_add_le_right live

/-- The destructor deletes what is held. -/
theorem drop_deletes {r : Ledger} {rt : VirgilRuntime W} (droppable : Droppable r rt) :
    Ensures Ledger.next drop (fun _ r' _ => r'.faulty ∨ Balanced 0 r'.stock.live)
      (fun r' _ => r'.faulty ∨ Balanced 0 r'.stock.live) r rt := by
  obtain ⟨live, held⟩ := droppable
  apply Ensures.bind
  apply Ensures.get
  apply Ensures.bind
  apply ensures_release (o := ⟨.provider, rt.keyProvider⟩) rfl rfl (fun _ => rfl) live held
  intro r' _ live' held'
  rw [← add_zero (Object.behind _)] at live' held'
  exact ensures_release (o := ⟨.rng, rt.rng⟩) rfl rfl (fun _ => rfl) live' held'
    fun _ _ _ held'' => held''

omit [Foundation W] in
/-- After a fault it is enough that what is held is live. -/
theorem Droppable.of_fault {s : Stock} {rt : VirgilRuntime W} (held : rt.held ≤ s.live) :
    Droppable ⟨s, true⟩ rt :=
  ⟨held, .inl rfl⟩

/-- What is there once a runtime has all of its handles. -/
def Handles.stock (h : Handles) : Stock :=
  ((Stock.empty.give ⟨.block, h.errorCtx⟩).give ⟨.rng, h.rng⟩).give ⟨.provider, h.keyProvider⟩

omit [Foundation W] in
theorem Handles.ready (h : Handles) : h.Ready h.stock :=
  ⟨by simp [stock], by simp [stock], by simp [stock]⟩

omit [Foundation W] in
/-- Besides what it holds, a runtime has its error context, which goes with the memory. -/
theorem Droppable.established {q : Ledger} {rt : VirgilRuntime W}
    (there : q.stock = rt.handles.stock) : Droppable q rt := by
  have split : rt.handles.stock.live =
      Object.behind ⟨.block, rt.errorCtx⟩ + rt.held := by
    simp only [Handles.stock, Stock.give, Stock.empty, VirgilRuntime.held,
      VirgilRuntime.handles, add_zero]
    abel
  constructor
  · rw [there, split]
    exact Multiset.le_add_left _ _
  · rw [there, split]
    exact .inr (Balanced.left rfl _)

omit [Foundation W] in
/-- On the way there: no provider yet. -/
theorem Droppable.unprovided {q : Ledger} {rt : VirgilRuntime W} (none : rt.keyProvider = 0)
    (there : q.stock = (Stock.empty.give ⟨.block, rt.errorCtx⟩).give ⟨.rng, rt.rng⟩) :
    Droppable q rt := by
  have live : rt.handles.stock.live = q.stock.live := by
    rw [there, Handles.stock, Stock.give, VirgilRuntime.handles, none]
    exact zero_add _
  have before : Droppable ⟨rt.handles.stock, q.faulty⟩ rt := .established rfl
  exact ⟨live ▸ before.live, live ▸ before.held⟩

theorem setUp_establishes (store : W) :
    Ensures Ledger.next setUp (fun _ r rt => r.stock = rt.handles.stock) Droppable Ledger.empty
      ⟨store, 0, 0, 0, 0⟩ := by
  have nothing : Object.behind ⟨.provider, 0⟩ + Object.behind ⟨.rng, 0⟩ = 0 := rfl
  -- the contexts
  apply Ensures.bind
  refine ensures_plain (by simp) rfl (fun _ => rfl) rfl ?_ fun _ => .of_fault nothing.le
  intro dataCtxSize _
  apply Ensures.bind
  apply Ensures.modify
  apply Ensures.bind
  refine ensures_plain (by simp) rfl (fun _ => rfl) rfl ?_ fun _ => .of_fault nothing.le
  intro errorCtxSize _
  apply Ensures.bind
  apply Ensures.bind
  refine ensures_give (by simp) rfl ?_ fun _ => .of_fault nothing.le
  intro errorCtx _ faulty _ null
  split_ifs with zero
  · -- without memory for the error context there is nothing to be dropped
    apply Ensures.fail
    obtain rfl : faulty = true := null zero rfl rfl
    exact .of_fault (nothing.trans_le (Multiset.zero_le _))
  apply Ensures.ret
  rw [show Func.gives .malloc [errorCtxSize] errorCtx = some ⟨.block, errorCtx⟩ by
    simp [Func.gives, Func.answers, Func.unchecked, zero], Option.elim_some]
  apply Ensures.bind
  apply Ensures.modify
  -- the source of randomness, null or not
  apply Ensures.bind
  refine ensures_give (by simp) rfl ?_ fun _ => .of_fault (nothing.trans_le (Multiset.zero_le _))
  intro rng store' faulty₁ _ _
  rw [show Func.gives .ctrDrbgNew [] rng = some ⟨.rng, rng⟩ by
    simp [Func.gives, Func.answers, Func.unchecked], Option.elim_some]
  apply Ensures.bind
  apply Ensures.modify
  apply Ensures.bind
  refine ensures_plain (by simp) rfl (fun _ => rfl) rfl ?_ fun _ => .unprovided rfl rfl
  intro status _
  split_ifs
  · exact Ensures.fail (.unprovided rfl rfl)
  -- the provider, null or not
  apply Ensures.bind
  refine ensures_give (by simp) rfl ?_ fun _ => .unprovided rfl rfl
  intro keyProvider store'' faulty₂ _ _
  rw [show Func.gives .keyProviderNew [] keyProvider = some ⟨.provider, keyProvider⟩ by
    simp [Func.gives, Func.answers, Func.unchecked], Option.elim_some]
  apply Ensures.bind
  apply Ensures.modify
  apply Ensures.bind
  refine ensures_plain (by simp) rfl (fun _ => rfl) rfl ?_ fun _ => .established rfl
  intro _ _
  apply Ensures.bind
  refine ensures_plain (by simp) rfl (fun _ => rfl) rfl ?_ fun _ => .established rfl
  intro status _
  split_ifs
  · exact Ensures.fail (.established rfl)
  · exact Ensures.ret rfl

/-- A ledger is faulty as soon as a call on record is. -/
theorem run_faulty {q r : Ledger} {calls : List WasmCall}
    (accepted : Monitor.run Ledger.next q calls = some r) :
    r.faulty = (q.faulty || calls.any WasmCall.faults) := by
  induction calls generalizing q with
  | nil =>
    obtain rfl := Option.some.inj accepted
    rw [List.any_nil, Bool.or_false]
  | cons c rest ih =>
    rw [Monitor.run, Option.bind_eq_some_iff] at accepted
    obtain ⟨middle, read, tail⟩ := accepted
    have here : middle.faulty = (q.faulty || c.faults) := by
      cases c with
      | call func args answer =>
        simp only [Ledger.next] at read
        split_ifs at read
        rw [← Option.some.inj read]
      | write ptr answer =>
        simp only [Ledger.next] at read
        split_ifs at read
        rw [← Option.some.inj read]
      | read ptr size answer =>
        simp only [Ledger.next] at read
        rw [← Option.some.inj read]
    rw [ih tail, here, List.any_cons, Bool.or_assoc]

/-- Every call is about live objects, or passes on a null handle that nobody has checked; and
without a fault on record all that is to be deleted has been deleted in the end. -/
def Accounted (calls : List WasmCall) : Prop :=
  ∃ r, Monitor.run Ledger.next Ledger.empty calls = some r ∧
    ((∀ c ∈ calls, c.faults = false) → ∀ o ∈ r.stock.live, o.kind.owned = false)

theorem Object.behind_mem {o : Object} {s : Stock} (member : o ∈ s) (owned : o.handle ≠ 0) :
    o ∈ s.live := by
  rcases member with live | ⟨null, _⟩
  · exact live
  · exact absurd null owned

omit [Foundation W] in
/-- The objects behind the handles of a runtime are live. -/
theorem Handles.Ready.held_le {rt : VirgilRuntime W} {s : Stock} (ready : rt.handles.Ready s) :
    rt.held ≤ s.live := by
  -- a provider is no source of randomness, so neither hides the other
  have distinct : rt.held.Nodup := by
    unfold VirgilRuntime.held Object.behind
    split_ifs <;> simp
  refine (Multiset.le_iff_subset distinct).mpr fun o member => ?_
  have behind : ∀ {p : Object}, p ∈ s → o ∈ p.behind → o ∈ s.live := by
    intro p there is
    unfold Object.behind at is
    split_ifs at is with null
    · exact absurd is (Multiset.notMem_zero o)
    · rw [Multiset.mem_singleton.mp is]
      exact Object.behind_mem there null
  rcases Multiset.mem_add.mp member with is | is
  · exact behind ready.keyProvider is
  · exact behind ready.rng is

omit [Foundation W] in
/-- A body that leaves what it found leaves a runtime that can be dropped. -/
theorem Runs.droppable {α : Type} {body : Wasm W α} {q : Ledger} {rt : VirgilRuntime W}
    (runs : Runs rt.handles q.stock body (fun _ => Keeps q.stock) q.stock)
    (established : q.stock = rt.handles.stock) :
    Ensures Ledger.next body (fun _ => Droppable) Droppable q rt := by
  have ready : rt.handles.Ready q.stock := established ▸ rt.handles.ready
  have before : Droppable q rt := .established established
  obtain ⟨r, accepted, rest⟩ := runs ready q.faulty rt rfl
  have faults := run_faulty accepted
  have same_held : ∀ rt' : VirgilRuntime W, rt'.handles = rt.handles → rt'.held = rt.held := by
    intro rt' same
    rw [VirgilRuntime.held, VirgilRuntime.held, show rt'.keyProvider = rt.keyProvider from
      congrArg Handles.keyProvider same, show rt'.rng = rt.rng from congrArg Handles.rng same]
  -- however the body ends, its runtime has the handles it was given
  have settled : ∀ rt' : VirgilRuntime W, rt'.handles = rt.handles →
      rt.handles.Ready r.stock → (r.faulty ∨ Keeps q.stock r.stock) → Droppable r rt' := by
    intro rt' same ready' kept
    refine ⟨(same ▸ ready' : rt'.handles.Ready r.stock).held_le, ?_⟩
    rw [same_held rt' same]
    rcases kept with fault | kept
    · exact .inl fault
    · refine before.held.imp (fun fault => ?_) fun balanced => balanced.trans kept.live
      rw [faults, fault, Bool.true_or]
  refine ⟨r, accepted, ?_⟩
  split at rest
  · exact settled _ rest.1 rest.2.1 (.inr rest.2.2)
  · exact settled _ rest.1 rest.2.1 rest.2.2

/-- What is on record of a scope: the body on a fresh runtime, then the destructor. -/
theorem scope_record {α : Type} (store : W) (body : Wasm W α) :
    (scope (.ok store) body).1 =
      ((do setUp; body : Wasm W α) ⟨store, 0, 0, 0, 0⟩).1 ++
        (drop ((do setUp; body : Wasm W α) ⟨store, 0, 0, 0, 0⟩).2.1).1 := rfl

/-- The record of a scope, over any body that gives back what it takes. -/
theorem scope_accounted {α : Type} (instantiated : Except Error W) {body : Wasm W α}
    (runs : ∀ h base, Runs h base body (fun _ => Keeps base) base) :
    Accounted (scope instantiated body).1 := by
  cases instantiated with
  | error e =>
    exact ⟨Ledger.empty, rfl, fun _ o member => absurd member (Multiset.notMem_zero o)⟩
  | ok store =>
    have whole : Ensures Ledger.next (do setUp; body : Wasm W α) (fun _ => Droppable) Droppable
        Ledger.empty ⟨store, 0, 0, 0, 0⟩ := by
      apply Ensures.bind
      refine (setUp_establishes store).mono ?_ fun _ _ droppable => droppable
      intro _ q rt established
      exact (runs rt.handles q.stock).droppable established
    obtain ⟨r, accepted, rest⟩ := whole
    have droppable : Droppable r ((do setUp; body : Wasm W α) ⟨store, 0, 0, 0, 0⟩).2.1 := by
      split at rest
      · exact rest
      · exact rest
    obtain ⟨r', accepted', deleted⟩ := drop_deletes droppable
    have run : Monitor.run Ledger.next Ledger.empty (scope (.ok store) body).1 = some r' := by
      rw [scope_record, Monitor.run_append, accepted]
      exact accepted'
    refine ⟨r', run, fun sound o member => ?_⟩
    have settled : r'.faulty ∨ Balanced 0 r'.stock.live := by
      split at deleted
      · exact deleted
      · exact deleted
    have faultless : r'.faulty = false := by
      rw [run_faulty run, List.any_eq_false.mpr fun c member => by simp [sound c member]]
      rfl
    -- an owned object that were left would be counted, and the counts are those of nothing
    rcases settled with fault | kept
    · rw [faultless] at fault
      cases fault
    · by_contra owned
      have none := (kept o).2 (by simpa using owned)
      have some := Multiset.count_pos.mpr member
      rw [← none, Multiset.count_zero] at some
      exact absurd some (lt_irrefl 0)

/-! ### The four operations -/

theorem generate_accounted (instantiated : Except Error W) :
    Accounted (generateVirgilKeyPair instantiated).1 := by
  refine scope_accounted instantiated fun h base => ?_
  apply Runs.bind
  apply runs_generatePrivateKey (Keeps.refl base)
  intro privateKey s kept keyed
  apply Runs.bind
  apply runs_exportPrivateKey keyed kept
  intro privateKeyDer
  apply Runs.bind
  apply runs_extractPublicKey keyed kept
  intro publicKey t kept' keyed'
  apply Runs.bind
  apply runs_exportPublicKey keyed' (kept.trans kept')
  intro publicKeyDer
  exact Runs.ret (kept.trans kept')

theorem derive_accounted (instantiated : Except Error W) (privateKeyDer : List UInt8) :
    Accounted (deriveVirgilPublicKey instantiated privateKeyDer).1 := by
  refine scope_accounted instantiated fun h base => ?_
  apply Runs.bind
  apply runs_importKey (.inl rfl) (Keeps.refl base)
  intro privateKey s kept keyed
  apply Runs.bind
  apply runs_extractPublicKey keyed kept
  intro publicKey t kept' keyed'
  exact runs_exportPublicKey keyed' (kept.trans kept') fun _ => kept.trans kept'

theorem roundtrip_accounted (instantiated : Except Error W) (publicKeyDer : List UInt8) :
    Accounted (roundtripVirgilPublicKey instantiated publicKeyDer).1 := by
  refine scope_accounted instantiated fun h base => ?_
  apply Runs.bind
  apply runs_importKey (.inr rfl) (Keeps.refl base)
  intro publicKey l kept keyed
  exact runs_exportPublicKey keyed kept fun _ => kept

theorem decrypt_accounted (instantiated : Except Error W) (container : VirgilContainer)
    (privateKeyDer : List UInt8) :
    Accounted (scope instantiated (decryptContent container privateKeyDer)).1 :=
  scope_accounted instantiated fun _ base =>
    runs_decryptContent (Keeps.refl base) fun _ _ kept => kept

/-- Whatever the library answers, no operation uses a handle but those to live objects and the
null ones that nobody has checked, and unless it meets a fault none leaves an object undeleted,
however it ends. -/
theorem objects_accounted (lib : RsaLibrary) (engine : Base64Engine)
    (parseAll : List UInt8 → List Ber.Tlv) (instantiated : Except Error W) :
    Accounted (generateVirgilKeyPair instantiated).1 ∧
    (∀ privateKeyDer, Accounted (deriveVirgilPublicKey instantiated privateKeyDer).1) ∧
    (∀ publicKeyDer, Accounted (roundtripVirgilPublicKey instantiated publicKeyDer).1) ∧
    ∀ rsaKeyDer encryptedKey data,
      (∃ panic, decryptMobileKey lib engine parseAll instantiated rsaKeyDer encryptedKey data =
        .error panic) ∨
      ∃ calls result,
        decryptMobileKey lib engine parseAll instantiated rsaKeyDer encryptedKey data =
          .ok (calls, result) ∧ Accounted calls := by
  refine ⟨generate_accounted instantiated, derive_accounted instantiated,
    roundtrip_accounted instantiated, fun rsaKeyDer encryptedKey data => ?_⟩
  have untouched : Accounted [] :=
    ⟨Ledger.empty, rfl, fun _ o member => absurd member (Multiset.notMem_zero o)⟩
  unfold decryptMobileKey
  cases parsed : parseVirgilContainer data with
  | error panic => exact .inl ⟨panic, rfl⟩
  | ok outcome =>
    right
    cases outcome with
    | error e => exact ⟨[], .error e, rfl, untouched⟩
    | ok container =>
      cases unwrapped : decryptVirgilPrivateKey lib engine rsaKeyDer encryptedKey with
      | error e => exact ⟨[], .error e, rfl, untouched⟩
      | ok privateKeyDer =>
        exact ⟨_, _, rfl, decrypt_accounted instantiated container privateKeyDer⟩

end Scope

end Mkey.Virgil
