import Mkey.Virgil.Runtime

/-!
# The library's objects

A handle that is not null stands for an object that a call has made. A ledger of
the objects that are live reads the record of calls, and refuses a call about
anything else, save for the null handles that are passed on unchecked.
-/
namespace Mkey.Virgil

open Recorded VirgilRuntime

inductive Kind where
  | block
  | view
  | key
  | buffer
  | cipher
  | rng
  | provider
  deriving DecidableEq

/-- The kinds of objects that are to be deleted; the others go with the memory. -/
def Kind.owned : Kind → Bool
  | buffer | cipher | rng | provider => true
  | block | view | key => false

structure Object where
  kind : Kind
  handle : Int32
  deriving DecidableEq

namespace Func

/-- The objects a call is about. -/
@[simp]
def uses : Func → List Int32 → List Object
  | bufferBytes, [b] | bufferLen, [b] | bufferDelete, [b] => [⟨.buffer, b⟩]
  | dataInit, [ctx, ptr, _] => [⟨.block, ctx⟩, ⟨.block, ptr⟩]
  | errorReset, [e] | errorStatus, [e] => [⟨.block, e⟩]
  | ctrDrbgDelete, [r] | ctrDrbgSetupDefaults, [r] => [⟨.rng, r⟩]
  | keyProviderDelete, [p] | keyProviderSetupDefaults, [p] => [⟨.provider, p⟩]
  | keyProviderUseRandom, [p, r] => [⟨.provider, p⟩, ⟨.rng, r⟩]
  | keyProviderGeneratePrivateKey, [p, _, e] => [⟨.provider, p⟩, ⟨.block, e⟩]
  | keyProviderImportPrivateKey, [p, d, e] | keyProviderImportPublicKey, [p, d, e] =>
      [⟨.provider, p⟩, ⟨.view, d⟩, ⟨.block, e⟩]
  | keyProviderExportPublicKey, [p, k, b] | keyProviderExportPrivateKey, [p, k, b] =>
      [⟨.provider, p⟩, ⟨.key, k⟩, ⟨.buffer, b⟩]
  | keyProviderExportedPrivateKeyLen, [p, k] => [⟨.provider, p⟩, ⟨.key, k⟩]
  | eccPrivateKeyExtractPublicKey, [k] => [⟨.key, k⟩]
  | recipientCipherDelete, [c] | recipientCipherDecryptionOutLen, [c, _] => [⟨.cipher, c⟩]
  | recipientCipherUseRandom, [c, r] => [⟨.cipher, c⟩, ⟨.rng, r⟩]
  | recipientCipherStartDecryptionWithKey, [c, i, k, m] =>
      [⟨.cipher, c⟩, ⟨.view, i⟩, ⟨.key, k⟩, ⟨.view, m⟩]
  | recipientCipherProcessDecryption, [c, d, b] => [⟨.cipher, c⟩, ⟨.view, d⟩, ⟨.buffer, b⟩]
  | recipientCipherFinishDecryption, [c, b] => [⟨.cipher, c⟩, ⟨.buffer, b⟩]
  | _, _ => []

/-- The object a call deletes, whatever the answer. -/
def deletes : Func → List Int32 → Option Object
  | bufferDelete, [b] => some ⟨.buffer, b⟩
  | ctrDrbgDelete, [r] => some ⟨.rng, r⟩
  | keyProviderDelete, [p] => some ⟨.provider, p⟩
  | recipientCipherDelete, [c] => some ⟨.cipher, c⟩
  | _, _ => none

/-- The kind of object whose handle a call answers with. -/
def answers : Func → Option Kind
  | malloc => some .block
  | bufferNewWithCapacity => some .buffer
  | ctrDrbgNew => some .rng
  | keyProviderNew => some .provider
  | keyProviderGeneratePrivateKey | keyProviderImportPrivateKey | keyProviderImportPublicKey
  | eccPrivateKeyExtractPublicKey => some .key
  | recipientCipherNew => some .cipher
  | _ => none

/-- The calls whose answer is passed on even where it is null. -/
def unchecked : Func → Bool
  | ctrDrbgNew | keyProviderNew | recipientCipherNew => true
  | _ => false

/-- The handle that is there to be used after a call: a view is at the place it is made in, and a
null handle is given only where nobody checks it. -/
def gives : Func → List Int32 → Int32 → Option Object
  | dataInit, ctx :: _, _ => some ⟨.view, ctx⟩
  | func, _, value =>
    match func.answers with
    | none => none
    | some kind => if value = 0 ∧ func.unchecked = false then none else some ⟨kind, value⟩

end Func

/-- A trap, an access out of bounds, or an allocation that failed. A key that is refused is none: it
is answered with a status; nor is a null handle that nobody checks. -/
def WasmCall.faults : WasmCall → Bool
  | .call func _ (.ok value) => value = 0 && func.answers.any (· ≠ .key) && !func.unchecked
  | .call _ _ (.error _) | .write _ (.error _) | .read _ _ (.error _) => true
  | .write _ (.ok _) | .read _ _ (.ok _) => false

/-- A null handle stands for no object. -/
def Object.behind (o : Object) : Multiset Object := if o.handle = 0 then 0 else {o}

/-- The objects that are live, and the kinds of which a null handle is passed on in their place. -/
structure Stock where
  live : Multiset Object
  nulls : Finset Kind

namespace Stock

/-- A handle to a live object, or a null handle that was given out. -/
instance : Membership Object Stock :=
  ⟨fun s o => o ∈ s.live ∨ o.handle = 0 ∧ o.kind ∈ s.nulls⟩

instance (s : Stock) (o : Object) : Decidable (o ∈ s) :=
  inferInstanceAs (Decidable (o ∈ s.live ∨ o.handle = 0 ∧ o.kind ∈ s.nulls))

def empty : Stock := ⟨0, ∅⟩

def give (s : Stock) (o : Object) : Stock where
  live := o.behind + s.live
  nulls := if o.handle = 0 then insert o.kind s.nulls else s.nulls

def delete (s : Stock) (o : Object) : Stock := { s with live := s.live - o.behind }

/-- What there is after a call. -/
def after (s : Stock) (func : Func) (args : List Int32) (answer : Except String Int32) : Stock :=
  let left := (func.deletes args).elim s s.delete
  match answer with
  | .error _ => left
  | .ok value => (func.gives args value).elim left left.give

variable {s : Stock} {o p : Object}

@[simp]
theorem mem_give : p ∈ s.give o ↔ p = o ∨ p ∈ s := by
  change p ∈ o.behind + s.live ∨ _ ↔ p = o ∨ p ∈ s.live ∨ _
  obtain ⟨kind, handle⟩ := o
  obtain ⟨kind', handle'⟩ := p
  unfold give Object.behind
  by_cases null : handle = 0
  · subst null
    simp only [↓reduceIte, zero_add, Finset.mem_insert, Object.mk.injEq]
    tauto
  · simp only [null, ↓reduceIte, Multiset.mem_add, Multiset.mem_singleton]
    tauto

/-- A deletion leaves the handles to other objects. -/
theorem mem_delete (other : p ≠ o) (member : p ∈ s) : p ∈ s.delete o := by
  rcases member with live | null
  · left
    change p ∈ s.live - o.behind
    unfold Object.behind
    split_ifs
    · rwa [tsub_zero]
    · rw [Multiset.sub_singleton]
      exact (Multiset.mem_erase_of_ne other).mpr live
  · exact .inr null

theorem give_delete (nonzero : o.handle ≠ 0) : (s.give o).delete o = s := by
  simp [give, delete, nonzero]

theorem give_comm : (s.give o).give p = (s.give p).give o := by
  unfold give
  congr 1
  · exact add_left_comm _ _ _
  · split_ifs
    · exact Finset.insert_comm _ _ _
    all_goals rfl

end Stock

structure Ledger where
  stock : Stock
  faulty : Bool

namespace Ledger

def empty : Ledger := ⟨Stock.empty, false⟩

/-- A call is read when every handle it is about is one that was given out and whose object is
live, and bytes are written into live blocks only. -/
def next (ledger : Ledger) (c : WasmCall) : Option Ledger :=
  let faulty := ledger.faulty || c.faults
  match c with
  | .call func args answer =>
    if ∀ o ∈ func.uses args, o ∈ ledger.stock then
      some ⟨ledger.stock.after func args answer, faulty⟩
    else none
  | .write ptr _ => if ⟨.block, ptr⟩ ∈ ledger.stock.live then some ⟨ledger.stock, faulty⟩ else none
  | .read _ _ _ => some ⟨ledger.stock, faulty⟩

end Ledger

/-- More is live, and of what is to be deleted the same. -/
def Balanced (l m : Multiset Object) : Prop :=
  ∀ o, l.count o ≤ m.count o ∧ (o.kind.owned → l.count o = m.count o)

namespace Balanced

variable {l m n : Multiset Object} {o : Object}

theorem refl (l : Multiset Object) : Balanced l l := fun _ => ⟨le_rfl, fun _ => rfl⟩

theorem trans (first : Balanced l m) (second : Balanced m n) : Balanced l n := fun o =>
  ⟨(first o).1.trans (second o).1, fun owned => ((first o).2 owned).trans ((second o).2 owned)⟩

theorem mem (balanced : Balanced l m) (member : o ∈ l) : o ∈ m :=
  Multiset.count_pos.mp ((Multiset.count_pos.mpr member).trans_le (balanced o).1)

/-- An object that need not be deleted. -/
theorem left (free : o.kind.owned = false) (l : Multiset Object) : Balanced l (o.behind + l) := by
  intro p
  rw [Multiset.count_add]
  refine ⟨Nat.le_add_left _ _, fun owned => ?_⟩
  have other : p ≠ o := by
    rintro rfl
    rw [free] at owned
    cases owned
  unfold Object.behind
  split_ifs
  · rw [Multiset.count_zero, Nat.zero_add]
  · rw [Multiset.count_singleton, if_neg other, Nat.zero_add]

/-- Objects made before and deleted after. -/
theorem delete (balanced : Balanced (n + l) m) : Balanced l (m - n) := by
  intro p
  obtain ⟨more, same⟩ := balanced p
  rw [Multiset.count_add] at more same
  rw [Multiset.count_sub]
  exact ⟨by omega, fun owned => by have := same owned; omega⟩

/-- What is there before is kept when the same is taken from both. -/
theorem sub (balanced : Balanced l m) (n : Multiset Object) : Balanced (l - n) (m - n) := by
  intro p
  obtain ⟨more, same⟩ := balanced p
  rw [Multiset.count_sub, Multiset.count_sub]
  exact ⟨by omega, fun owned => by have := same owned; omega⟩

end Balanced

/-- Every handle that was there still is, and of what is to be deleted there is no more. -/
structure Keeps (s t : Stock) : Prop where
  live : Balanced s.live t.live
  nulls : s.nulls ⊆ t.nulls

namespace Keeps

variable {s t u : Stock} {o : Object}

theorem refl (s : Stock) : Keeps s s := ⟨Balanced.refl _, subset_rfl⟩

theorem trans (first : Keeps s t) (second : Keeps t u) : Keeps s u :=
  ⟨first.live.trans second.live, first.nulls.trans second.nulls⟩

theorem mem (keeps : Keeps s t) (member : o ∈ s) : o ∈ t :=
  member.imp keeps.live.mem fun null => ⟨null.1, keeps.nulls null.2⟩

theorem nulls_give (s : Stock) (o : Object) : s.nulls ⊆ (s.give o).nulls := by
  unfold Stock.give
  split_ifs
  · exact Finset.subset_insert _ _
  · exact subset_rfl

theorem left (free : o.kind.owned = false) (s : Stock) : Keeps s (s.give o) :=
  ⟨Balanced.left free s.live, nulls_give s o⟩

theorem delete (keeps : Keeps (s.give o) t) : Keeps s (t.delete o) :=
  ⟨keeps.live.delete, (nulls_give s o).trans keeps.nulls⟩

theorem sub (keeps : Keeps s t) (o : Object) : Keeps (s.delete o) (t.delete o) :=
  ⟨keeps.live.sub o.behind, keeps.nulls⟩

end Keeps

/-! ### Single calls -/

section Calls

variable {W : Type} [Foundation W] {func : Func} {args : List Int32} {q : Ledger}
  {rt : VirgilRuntime W}

theorem ensures_call {post : Int32 → Ledger → VirgilRuntime W → Prop}
    {lost : Ledger → VirgilRuntime W → Prop} (about : ∀ o ∈ func.uses args, o ∈ q.stock)
    (answered : ∀ value store, post value
      ⟨q.stock.after func args (.ok value),
        q.faulty || (WasmCall.call func args (.ok value)).faults⟩ { rt with store })
    (trapped : ∀ e store, lost ⟨q.stock.after func args (.error e), true⟩ { rt with store }) :
    Ensures Ledger.next (VirgilRuntime.call func args) post lost q rt := by
  unfold Ensures VirgilRuntime.call
  cases ran : Foundation.call rt.store func args with
  | mk store answer =>
    cases answer with
    | error e =>
      refine ⟨_, ?_, trapped e store⟩
      simp [Monitor.run, Ledger.next, WasmCall.faults, if_pos about, -Func.uses]
    | ok value =>
      refine ⟨_, ?_, answered value store⟩
      simp [Monitor.run, Ledger.next, if_pos about, -Func.uses]

/-- A call that neither gives nor deletes anything. -/
theorem ensures_plain {post : Int32 → Ledger → VirgilRuntime W → Prop}
    {lost : Ledger → VirgilRuntime W → Prop} (about : ∀ o ∈ func.uses args, o ∈ q.stock)
    (kept : func.deletes args = none) (none : ∀ value, func.gives args value = none)
    (plain : func.answers = Option.none)
    (answered : ∀ value store, post value q { rt with store })
    (trapped : ∀ store, lost ⟨q.stock, true⟩ { rt with store }) :
    Ensures Ledger.next (VirgilRuntime.call func args) post lost q rt := by
  apply ensures_call about
  · intro value store
    simpa [Stock.after, WasmCall.faults, kept, none, plain] using answered value store
  · intro e store
    simpa [Stock.after, kept] using trapped store

/-- A call that deletes nothing: a null answer is a fault, save for a key or where nobody checks. -/
theorem ensures_give {post : Int32 → Ledger → VirgilRuntime W → Prop}
    {lost : Ledger → VirgilRuntime W → Prop} (about : ∀ o ∈ func.uses args, o ∈ q.stock)
    (kept : func.deletes args = none)
    (answered : ∀ value store (faulty : Bool), (q.faulty → faulty) →
      (value = 0 → func.answers.any (· ≠ .key) → func.unchecked = false → faulty) →
      post value ⟨(func.gives args value).elim q.stock q.stock.give, faulty⟩ { rt with store })
    (trapped : ∀ store, lost ⟨q.stock, true⟩ { rt with store }) :
    Ensures Ledger.next (VirgilRuntime.call func args) post lost q rt := by
  apply ensures_call about
  · intro value store
    have after : q.stock.after func args (.ok value) =
        (func.gives args value).elim q.stock q.stock.give := by
      simp [Stock.after, kept]
    rw [after]
    apply answered
    · exact fun faulty => by rw [faulty, Bool.true_or]
    · intro null other checked
      rw [WasmCall.faults, other, checked, decide_eq_true null, Bool.true_and, Bool.not_false,
        Bool.true_and, Bool.or_true]
  · intro e store
    simpa [Stock.after, kept] using trapped store

/-- An object is gone, and but for the instance that is all. -/
def Deleted (q : Ledger) (rt : VirgilRuntime W) (o : Object) (r : Ledger)
    (rt' : VirgilRuntime W) : Prop :=
  (q.faulty → r.faulty) ∧ r.stock = q.stock.delete o ∧ ∃ store, rt' = { rt with store }

/-- An object is deleted, whatever the answer. -/
theorem ensures_delete {post : Unit → Ledger → VirgilRuntime W → Prop}
    {lost : Ledger → VirgilRuntime W → Prop} {o : Object} (about : func.uses args = [o])
    (deletes : func.deletes args = some o) (none : ∀ value, func.gives args value = none)
    (member : o ∈ q.stock)
    (left : ∀ store (faulty : Bool), (q.faulty → faulty) →
      post () ⟨q.stock.delete o, faulty⟩ { rt with store }) :
    Ensures Ledger.next (VirgilRuntime.call func args).ignore post lost q rt := by
  have deleted : Ensures Ledger.next (VirgilRuntime.call func args) (fun _ => Deleted q rt o)
      (Deleted q rt o) q rt := by
    apply ensures_call
    · rw [about]
      exact fun p is => List.mem_singleton.mp is ▸ member
    · intro value store
      exact ⟨by simp_all, by simp [Stock.after, deletes, none], store, rfl⟩
    · intro e store
      exact ⟨fun _ => rfl, by simp [Stock.after, deletes], store, rfl⟩
  apply deleted.ignore
  rintro ⟨stock, faulty⟩ rt' ⟨faults, is, store, rfl⟩
  obtain rfl : stock = q.stock.delete o := is
  exact left store faulty faults

end Calls

/-! ### Operations -/

structure Handles where
  rng : Int32
  keyProvider : Int32
  errorCtx : Int32
  dataCtxSize : Int32

def VirgilRuntime.handles {W : Type} (rt : VirgilRuntime W) : Handles :=
  ⟨rt.rng, rt.keyProvider, rt.errorCtx, rt.dataCtxSize⟩

/-- The handles of a runtime can be used. -/
structure Handles.Ready (h : Handles) (s : Stock) : Prop where
  rng : ⟨.rng, h.rng⟩ ∈ s
  keyProvider : ⟨.provider, h.keyProvider⟩ ∈ s
  errorCtx : ⟨.block, h.errorCtx⟩ ∈ s

section Runs

variable {W : Type} {α β : Type}

/-- What an operation makes of the stock; if it fails, then with no more to be deleted than
`base`, or after a fault. It leaves the runtime's own objects alone. -/
def Runs (h : Handles) (base : Stock) (m : Wasm W α) (post : α → Stock → Prop) (s : Stock) :
    Prop :=
  h.Ready s → ∀ faulty (rt : VirgilRuntime W), rt.handles = h →
    Ensures Ledger.next m
      (fun a r rt' => rt'.handles = h ∧ h.Ready r.stock ∧ post a r.stock)
      (fun r rt' => rt'.handles = h ∧ h.Ready r.stock ∧ (r.faulty ∨ Keeps base r.stock))
      ⟨s, faulty⟩ rt

variable {h : Handles} {base s : Stock} {func : Func} {args : List Int32}

theorem Runs.ret {a : α} {post : α → Stock → Prop} (holds : post a s) :
    Runs h base (pure a : Wasm W α) post s :=
  fun ready _ _ same => Ensures.ret ⟨same, ready, holds⟩

theorem Runs.fail {e : Error} {post : α → Stock → Prop} (keeps : Keeps base s) :
    Runs h base (fail e : Wasm W α) post s :=
  fun ready _ _ same => Ensures.fail ⟨same, ready, .inr keeps⟩

theorem Runs.get {post : VirgilRuntime W → Stock → Prop}
    (holds : ∀ rt : VirgilRuntime W, rt.handles = h → post rt s) :
    Runs h base (get : Wasm W (VirgilRuntime W)) post s :=
  fun ready _ rt same => Ensures.get ⟨same, ready, holds rt same⟩

theorem Runs.bind {m : Wasm W α} {f : α → Wasm W β} {post : β → Stock → Prop}
    (first : Runs h base m (fun a t => Runs h base (f a) post t) s) :
    Runs h base (m >>= f) post s := by
  intro ready faulty rt same
  apply Ensures.bind
  refine (first ready faulty rt same).mono ?_ fun _ _ lost => lost
  rintro a r rt' ⟨same', ready', rest⟩
  exact rest ready' r.faulty rt' same'

/-- The runtime's own objects are never among those an operation deletes. -/
theorem Handles.Ready.delete {o : Object} (ready : h.Ready s)
    (kind : o.kind = .buffer ∨ o.kind = .cipher) : h.Ready (s.delete o) := by
  have other : ∀ own handle, own ≠ Kind.buffer → own ≠ Kind.cipher →
      (⟨own, handle⟩ : Object) ∈ s → ⟨own, handle⟩ ∈ s.delete o := by
    intro own handle notBuffer notCipher
    apply Stock.mem_delete
    rintro rfl
    rcases kind with isBuffer | isCipher
    · exact notBuffer isBuffer
    · exact notCipher isCipher
  exact ⟨other _ _ (by decide) (by decide) ready.rng,
    other _ _ (by decide) (by decide) ready.keyProvider,
    other _ _ (by decide) (by decide) ready.errorCtx⟩

theorem Handles.Ready.give (ready : h.Ready s) (o : Object) : h.Ready (s.give o) :=
  ⟨Stock.mem_give.mpr (.inr ready.rng), Stock.mem_give.mpr (.inr ready.keyProvider),
    Stock.mem_give.mpr (.inr ready.errorCtx)⟩

variable [Foundation W]

theorem Runs.plain {post : Int32 → Stock → Prop}
    (about : h.Ready s → ∀ o ∈ func.uses args, o ∈ s)
    (kept : func.deletes args = none) (none : ∀ value, func.gives args value = none)
    (plain : func.answers = Option.none) (answered : ∀ value, post value s) :
    Runs h base (VirgilRuntime.call func args : Wasm W Int32) post s := by
  intro ready faulty rt same
  apply ensures_plain (about ready) kept none plain
  · exact fun value _ => ⟨same, ready, answered value⟩
  · exact fun _ => ⟨same, ready, .inl rfl⟩

/-- A handle that is used as it comes. -/
theorem Runs.give {o : Int32 → Object} {post : Int32 → Stock → Prop}
    (about : h.Ready s → ∀ o ∈ func.uses args, o ∈ s)
    (kept : func.deletes args = none) (gives : ∀ value, func.gives args value = some (o value))
    (given : ∀ value, post value (s.give (o value))) :
    Runs h base (VirgilRuntime.call func args : Wasm W Int32) post s := by
  intro ready faulty rt same
  apply ensures_give (about ready) kept
  · intro value _ _ _ _
    rw [gives]
    exact ⟨same, ready.give _, given value⟩
  · exact fun _ => ⟨same, ready, .inl rfl⟩

/-- A handle that has to be there. -/
theorem Runs.create {kind : Kind} {e : Error} {post : Int32 → Stock → Prop}
    (about : h.Ready s → ∀ o ∈ func.uses args, o ∈ s)
    (kept : func.deletes args = none) (answers : func.answers = some kind)
    (gives : ∀ p, func.gives args p = if p = 0 then none else some ⟨kind, p⟩)
    (notKey : kind ≠ .key) (checked : func.unchecked = false)
    (given : ∀ p, p ≠ 0 → post p (s.give ⟨kind, p⟩)) :
    Runs h base (do
      let p ← VirgilRuntime.call func args
      if p = 0 then Recorded.fail e else return p : Wasm W Int32) post s := by
  intro ready faulty rt same
  apply Ensures.bind
  apply ensures_give (about ready) kept
  · intro p store faulty' _ null
    rw [gives]
    split_ifs with zero
    · exact Ensures.fail ⟨same, ready, .inl (null zero (by simp [answers, notKey]) checked)⟩
    · exact Ensures.ret ⟨same, ready.give _, given p zero⟩
  · exact fun _ => ⟨same, ready, .inl rfl⟩

/-- A key, which may be refused. -/
theorem Runs.key {post : Int32 → Stock → Prop}
    (about : h.Ready s → ∀ o ∈ func.uses args, o ∈ s) (kept : func.deletes args = none)
    (gives : ∀ key, func.gives args key = if key = 0 then none else some ⟨.key, key⟩)
    (given : ∀ key t, Keeps s t → (key ≠ 0 → ⟨.key, key⟩ ∈ t) → post key t) :
    Runs h base (VirgilRuntime.call func args : Wasm W Int32) post s := by
  intro ready faulty rt same
  apply ensures_give (about ready) kept
  · intro key _ _ _ _
    rw [gives]
    split_ifs with zero
    · exact ⟨same, ready, given key s (Keeps.refl s) fun nonzero => absurd zero nonzero⟩
    · exact ⟨same, ready.give _, given key _ (Keeps.left rfl s) fun _ => by simp⟩
  · exact fun _ => ⟨same, ready, .inl rfl⟩

theorem Runs.delete {o : Object} {post : Unit → Stock → Prop}
    (about : func.uses args = [o]) (deletes : func.deletes args = some o)
    (none : ∀ value, func.gives args value = none) (kind : o.kind = .buffer ∨ o.kind = .cipher)
    (member : o ∈ s) (left : post () (s.delete o)) :
    Runs h base (VirgilRuntime.call func args : Wasm W Int32).ignore post s := by
  intro ready faulty rt same
  apply ensures_delete about deletes none member
  exact fun _ _ _ => ⟨same, ready.delete kind, left⟩

end Runs

end Mkey.Virgil
