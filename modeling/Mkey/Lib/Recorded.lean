import Mkey.Lib.Monitor

/-!
# Computations that keep a record

A computation on a state makes calls, all of them on record, and returns or
fails. What it ensures is said by a monitor that reads the record: where the
monitor stands after a result, and where after a failure.
-/
namespace Mkey

/-- The calls made, the state left, and the result. -/
def Recorded (σ κ ε α : Type) := σ → List κ × σ × Except ε α

namespace Recorded

variable {σ κ ε α β Q : Type}

def ret (a : α) : Recorded σ κ ε α := fun s => ([], s, .ok a)

def andThen (m : Recorded σ κ ε α) (f : α → Recorded σ κ ε β) : Recorded σ κ ε β := fun s =>
  match m s with
  | (calls, s, .error e) => (calls, s, .error e)
  | (calls, s, .ok a) =>
    let (later, s, result) := f a s
    (calls ++ later, s, result)

instance : Monad (Recorded σ κ ε) where
  pure := ret
  bind := andThen

def fail (e : ε) : Recorded σ κ ε α := fun s => ([], s, .error e)

def get : Recorded σ κ ε σ := fun s => ([], s, .ok s)

def modify (f : σ → σ) : Recorded σ κ ε Unit := fun s => ([], f s, .ok ())

/-- Goes on whatever became of the computation. -/
def ignore (m : Recorded σ κ ε α) : Recorded σ κ ε Unit := fun s => ((m s).1, (m s).2.1, .ok ())

variable (next : Q → κ → Option Q)

/-- From this stage and this state: the monitor reads every call, and what holds then. -/
def Ensures (m : Recorded σ κ ε α) (post : α → Q → σ → Prop) (lost : Q → σ → Prop) (q : Q)
    (s : σ) : Prop :=
  ∃ r, Monitor.run next q (m s).1 = some r ∧
    match (m s).2.2 with
    | .ok a => post a r (m s).2.1
    | .error _ => lost r (m s).2.1

variable {next} {post post' : α → Q → σ → Prop} {lost lost' : Q → σ → Prop} {q : Q} {s : σ}

theorem Ensures.ret {a : α} (holds : post a q s) :
    Ensures next (pure a : Recorded σ κ ε α) post lost q s :=
  ⟨q, rfl, holds⟩

theorem Ensures.fail {e : ε} (holds : lost q s) :
    Ensures next (fail e : Recorded σ κ ε α) post lost q s :=
  ⟨q, rfl, holds⟩

theorem Ensures.get {post : σ → Q → σ → Prop} (holds : post s q s) :
    Ensures next (get : Recorded σ κ ε σ) post lost q s :=
  ⟨q, rfl, holds⟩

theorem Ensures.modify {f : σ → σ} {post : Unit → Q → σ → Prop} (holds : post () q (f s)) :
    Ensures next (modify f : Recorded σ κ ε Unit) post lost q s :=
  ⟨q, rfl, holds⟩

/-- The calls of a sequence are read one after the other. -/
theorem Ensures.bind {m : Recorded σ κ ε α} {f : α → Recorded σ κ ε β} {after : β → Q → σ → Prop}
    (first : Ensures next m (fun a r t => Ensures next (f a) after lost r t) lost q s) :
    Ensures next (m >>= f) after lost q s := by
  obtain ⟨r, accepted, rest⟩ := first
  change Ensures next (m.andThen f) after lost q s
  unfold Ensures andThen
  cases ran : m s with
  | mk calls left =>
    obtain ⟨t, result⟩ := left
    rw [ran] at accepted rest
    cases result with
    | error e => exact ⟨r, accepted, rest⟩
    | ok a =>
      obtain ⟨r', accepted', rest'⟩ := rest
      refine ⟨r', ?_, rest'⟩
      rw [Monitor.run_append, accepted]
      exact accepted'

theorem Ensures.mono {m : Recorded σ κ ε α} (ensures : Ensures next m post lost q s)
    (weaker : ∀ a r t, post a r t → post' a r t) (weaker' : ∀ r t, lost r t → lost' r t) :
    Ensures next m post' lost' q s := by
  obtain ⟨r, accepted, rest⟩ := ensures
  refine ⟨r, accepted, ?_⟩
  cases ran : (m s).2.2 with
  | ok a =>
    rw [ran] at rest
    exact weaker a r _ rest
  | error e =>
    rw [ran] at rest
    exact weaker' r _ rest

/-- A computation whose failure does not matter ensures what holds either way. -/
theorem Ensures.ignore {m : Recorded σ κ ε α} {either : Q → σ → Prop}
    {after : Unit → Q → σ → Prop} (ensures : Ensures next m (fun _ => either) either q s)
    (weaker : ∀ r t, either r t → after () r t) :
    Ensures next m.ignore after lost q s := by
  obtain ⟨r, accepted, rest⟩ := ensures
  refine ⟨r, accepted, weaker r _ ?_⟩
  split at rest
  · exact rest
  · exact rest

end Recorded

end Mkey
