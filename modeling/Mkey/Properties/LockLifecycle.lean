import Mkey.Ble.Lock
import Mkey.Properties.PumpExit

/-!
# The driver's lifecycle

State, link and key move through fallible calls in any order. At every point of
every run the state tells what is there, so the guards of an opening attempt
never find anything missing.
-/
namespace Mkey

/-- The calls that move a driver. -/
inductive LockOperation where
  | scanAndConnectFiltered (timeout : Option Duration) (filter : Option LockFilter)
  | connectById (lockId : String) (timeout : Option Duration)
  | authenticate (mobileKey : MobileKey)
  | openObserved (os : RandomSource) (fuel : Nat) (mode : OpeningMode)
  | writeTag (tagId : UInt8) (data : List UInt8)
  | disconnect

/-- The state an operation is refused outside of. -/
def LockOperation.expects : LockOperation → Option LockState
  | .scanAndConnectFiltered .. | .connectById .. => some .disconnected
  | .authenticate _ => some .connected
  | .openObserved .. => some .authenticated
  | .writeTag .. | .disconnect => none

namespace SaltoLock

/-- A result with the value left out: only its failure is of interest here. -/
def failure {α : Type} : Except Error α → Option Error
  | .ok _ => none
  | .error e => some e

def settled {T α : Type} (returned : Returned T α) : SaltoLock T × List LockCall × Option Error :=
  (returned.1, returned.2.1, failure returned.2.2)

variable {T : Type} [LockTransport T] (aes : BlockCipher)

/-- One call of the driver; an opening attempt may not return. -/
def perform (lock : SaltoLock T) :
    LockOperation → Option (SaltoLock T × List LockCall × Option Error)
  | .scanAndConnectFiltered timeout filter =>
    some (settled (lock.scanAndConnectFiltered timeout filter))
  | .connectById lockId timeout => some (settled (lock.connectById lockId timeout))
  | .authenticate mobileKey => some (settled (lock.authenticate mobileKey))
  | .openObserved os fuel mode => (lock.openObserved aes os fuel mode).map settled
  | .writeTag tagId data => some (settled (lock.writeTag tagId data))
  | .disconnect => some (settled lock.disconnect)

/-- The drivers a run of calls comes to, from one as it is made. -/
inductive Reachable : SaltoLock T → Prop
  | made (transport : T) (handshake : HandshakePlan) (timeouts : Timeouts)
      (random : Option RandomSource) :
      Reachable { withTransport transport with handshake, timeouts, random }
  | performed {lock next : SaltoLock T} {calls : List LockCall} {failed : Option Error}
      (operation : LockOperation) : Reachable lock →
      lock.perform aes operation = some (next, calls, failed) → Reachable next

/-- What the state says about the link and the key. -/
structure Consistent (lock : SaltoLock T) : Prop where
  disconnected : lock.state = .disconnected → lock.connectedLock = none
  connected : lock.state = .connected → lock.connectedLock.isSome ∧ lock.mobileKey = none
  authenticated : lock.state = .authenticated →
    lock.connectedLock.isSome ∧ lock.mobileKey.isSome

omit [LockTransport T] in
theorem expectState_ok {lock : SaltoLock T} {expected : LockState}
    (met : lock.state = expected) : lock.expectState expected = .ok () := if_pos met

omit [LockTransport T] in
theorem expectState_error {lock : SaltoLock T} {expected : LockState}
    (missed : lock.state ≠ expected) : lock.expectState expected =
      .error (.invalidState expected.toString lock.state.toString) := if_neg missed

/-- A call made in the wrong state changes nothing and asks nothing of the transport. -/
theorem perform_refused {lock : SaltoLock T} {operation : LockOperation} {expected : LockState}
    (expects : operation.expects = some expected) (missed : lock.state ≠ expected) :
    lock.perform aes operation =
      some (lock, [], some (.invalidState expected.toString lock.state.toString)) := by
  cases operation with
  | scanAndConnectFiltered timeout filter =>
    obtain rfl := Option.some.inj expects
    rw [perform, scanAndConnectFiltered, expectState_error missed]
    rfl
  | connectById lockId timeout =>
    obtain rfl := Option.some.inj expects
    rw [perform, connectById, expectState_error missed]
    rfl
  | authenticate mobileKey =>
    obtain rfl := Option.some.inj expects
    rw [perform, authenticate, expectState_error missed]
    rfl
  | openObserved os fuel mode =>
    obtain rfl := Option.some.inj expects
    rw [perform, openObserved, expectState_error missed]
    rfl
  | writeTag => cases expects
  | disconnect => cases expects

/-- An attempt that returns leaves the driver disconnected, whatever came of it. -/
theorem attempt_returned {lock next : SaltoLock T} {os : RandomSource} {fuel : Nat}
    {mode : OpeningMode} {key : MobileKey} {advertised : UInt8} {calls : List LockCall}
    {result : Except Error Outcome}
    (returned : lock.attempt aes os fuel mode key advertised = some (next, calls, result)) :
    next.state = .disconnected ∧ next.connectedLock = none := by
  rw [attempt, Option.map_eq_some_iff] at returned
  obtain ⟨⟨_, _, _, _⟩, _, same⟩ := returned
  obtain ⟨rfl, _⟩ := Prod.mk.inj same
  exact ⟨rfl, rfl⟩

/-- In an authenticated driver the attempt is made with the key loaded and the version
advertised. -/
theorem openObserved_eq (os : RandomSource) (fuel : Nat) {lock : SaltoLock T} {key : MobileKey}
    {found : ConnectedLock} (ready : lock.state = .authenticated)
    (loaded : lock.mobileKey = some key) (linked : lock.connectedLock = some found)
    (mode : OpeningMode) :
    lock.openObserved aes os fuel mode =
      lock.attempt aes os fuel mode key found.info.protocolVersion := by
  rw [openObserved, expectState_ok ready]
  simp only [loaded, linked, Option.map_some, Option.getD_some]

omit [LockTransport T] in
/-- What the guards of an opening attempt look for is there in an authenticated driver. -/
theorem Consistent.ready {lock : SaltoLock T} (consistent : Consistent lock)
    (authenticated : lock.state = .authenticated) :
    ∃ key found, lock.mobileKey = some key ∧ lock.connectedLock = some found := by
  obtain ⟨linked, loaded⟩ := consistent.authenticated authenticated
  obtain ⟨found, linked⟩ := Option.isSome_iff_exists.mp linked
  obtain ⟨key, loaded⟩ := Option.isSome_iff_exists.mp loaded
  exact ⟨key, found, loaded, linked⟩

/-- Opening with a consistent, authenticated driver ends without the link when it returns. -/
theorem Consistent.openObserved_returned {lock next : SaltoLock T} (consistent : Consistent lock)
    (authenticated : lock.state = .authenticated) {os : RandomSource} {fuel : Nat}
    {mode : OpeningMode} {calls : List LockCall} {result : Except Error Outcome}
    (returned : lock.openObserved aes os fuel mode = some (next, calls, result)) :
    next.state = .disconnected ∧ next.connectedLock = none := by
  obtain ⟨key, found, loaded, linked⟩ := consistent.ready authenticated
  rw [openObserved_eq aes os fuel authenticated loaded linked] at returned
  exact attempt_returned aes returned

omit [LockTransport T] in
theorem Consistent.connectedWith {lock : SaltoLock T} (consistent : Consistent lock)
    (call : LockCall) (answer : T × Except Error ConnectedLock) :
    Consistent (lock.connected call answer).1 := by
  rcases answer with ⟨transport, e | found⟩
  · exact ⟨consistent.disconnected, consistent.connected, consistent.authenticated⟩
  · exact ⟨by simp [SaltoLock.connected, afterConnect],
      by simp [SaltoLock.connected, afterConnect],
      by simp [SaltoLock.connected, afterConnect]⟩

theorem Consistent.perform {lock next : SaltoLock T} {calls : List LockCall}
    {failed : Option Error} (consistent : Consistent lock) {operation : LockOperation}
    (performed : lock.perform aes operation = some (next, calls, failed)) : Consistent next := by
  by_cases refused : ∃ expected, operation.expects = some expected ∧ lock.state ≠ expected
  · -- a refused call leaves the driver as it was
    obtain ⟨expected, expects, missed⟩ := refused
    rw [perform_refused aes expects missed] at performed
    obtain ⟨rfl, _⟩ := Prod.mk.inj (Option.some.inj performed)
    exact consistent
  · have met : ∀ expected, operation.expects = some expected → lock.state = expected := by
      intro expected expects
      by_contra missed
      exact refused ⟨expected, expects, missed⟩
    cases operation with
    | scanAndConnectFiltered timeout filter =>
      rw [SaltoLock.perform, scanAndConnectFiltered, expectState_ok (met _ rfl)] at performed
      obtain ⟨rfl, _⟩ := Prod.mk.inj (Option.some.inj performed)
      exact consistent.connectedWith _ _
    | connectById lockId timeout =>
      rw [SaltoLock.perform, connectById, expectState_ok (met _ rfl)] at performed
      obtain ⟨rfl, _⟩ := Prod.mk.inj (Option.some.inj performed)
      exact consistent.connectedWith _ _
    | authenticate mobileKey =>
      have linked := (consistent.connected (met _ rfl)).1
      rw [SaltoLock.perform, authenticate, expectState_ok (met _ rfl)] at performed
      obtain ⟨rfl, _⟩ := Prod.mk.inj (Option.some.inj performed)
      exact ⟨nofun, nofun, fun _ => ⟨linked, rfl⟩⟩
    | openObserved os fuel mode =>
      rw [SaltoLock.perform, Option.map_eq_some_iff] at performed
      obtain ⟨⟨after, _, _⟩, returned, same⟩ := performed
      obtain ⟨rfl, _⟩ := Prod.mk.inj same
      obtain ⟨state, unlinked⟩ := consistent.openObserved_returned aes (met _ rfl) returned
      exact ⟨fun _ => unlinked, by simp [state], by simp [state]⟩
    | writeTag tagId data =>
      rw [SaltoLock.perform, writeTag] at performed
      split at performed
      next =>
        obtain ⟨rfl, _⟩ := Prod.mk.inj (Option.some.inj performed)
        exact consistent
      next key loaded =>
        obtain ⟨rfl, _⟩ := Prod.mk.inj (Option.some.inj performed)
        refine ⟨consistent.disconnected, ?_, fun ready => ⟨(consistent.authenticated ready).1, rfl⟩⟩
        -- a connected driver has no key to write to
        intro waiting
        have unloaded := (consistent.connected waiting).2
        rw [loaded] at unloaded
        cases unloaded
    | disconnect =>
      rw [SaltoLock.perform, disconnect] at performed
      split at performed
      next =>
        obtain ⟨rfl, _⟩ := Prod.mk.inj (Option.some.inj performed)
        exact ⟨consistent.disconnected, consistent.connected, consistent.authenticated⟩
      next =>
        obtain ⟨rfl, _⟩ := Prod.mk.inj (Option.some.inj performed)
        exact ⟨fun _ => rfl, nofun, nofun⟩

theorem Reachable.consistent {lock : SaltoLock T} (reachable : Reachable aes lock) :
    Consistent lock := by
  induction reachable with
  | made transport handshake timeouts random => exact ⟨fun _ => rfl, nofun, nofun⟩
  | performed operation _ performed ih => exact ih.perform aes performed

/-- In every driver reached the state tells which of link and key are there, so an attempt is
made with both; an attempt that returns ends disconnected; and a call in the wrong state changes
nothing and makes no call of the transport. -/
theorem lock_lifecycle {lock : SaltoLock T} (reachable : Reachable aes lock) :
    (lock.state = .disconnected → lock.connectedLock = none) ∧
    (lock.state = .connected → lock.connectedLock.isSome ∧ lock.mobileKey = none) ∧
    (lock.state = .authenticated → ∃ key found, lock.mobileKey = some key ∧
      lock.connectedLock = some found ∧ ∀ os fuel mode, lock.openObserved aes os fuel mode =
        lock.attempt aes os fuel mode key found.info.protocolVersion) ∧
    (lock.state = .authenticated → ∀ os fuel mode next calls result,
      lock.openObserved aes os fuel mode = some (next, calls, result) →
        next.state = .disconnected) ∧
    (∀ operation expected, LockOperation.expects operation = some expected →
      lock.state ≠ expected → lock.perform aes operation =
        some (lock, [], some (.invalidState expected.toString lock.state.toString))) := by
  have consistent := reachable.consistent
  refine ⟨consistent.disconnected, consistent.connected, ?_, ?_, ?_⟩
  · intro authenticated
    obtain ⟨key, found, loaded, linked⟩ := consistent.ready authenticated
    exact ⟨key, found, loaded, linked, fun os fuel mode =>
      openObserved_eq aes os fuel authenticated loaded linked mode⟩
  · intro authenticated os fuel mode next calls result returned
    exact (consistent.openObserved_returned aes authenticated returned).1
  · intro operation expected expects missed
    exact perform_refused aes expects missed

/-- A lock that can be connected to, and then hangs up. -/
instance : LockTransport Pump.HangingUp where
  scanAndConnect t _ _ := (t, .ok ⟨⟨"lock", none, none, 2, .default⟩⟩)
  connectById t lockId _ := (t, .ok ⟨⟨lockId, none, none, 2, .default⟩⟩)
  notifyReadable _ := true

/-- Connected to and given a key, the driver opens with that key and the version advertised, and is
disconnected when the attempt is over. -/
theorem lock_lifecycle_authenticated :
    let os : RandomSource := ⟨fun _ => Block.replicate 0, 0⟩
    let lock := (((withTransport Pump.HangingUp.mk).connectById "lock" none).1.authenticate
      (MobileKey.new (Block.replicate 0x42))).1
    (∃ key found, lock.mobileKey = some key ∧ lock.connectedLock = some found ∧
      ∀ os fuel mode, lock.openObserved aes128 os fuel mode =
        lock.attempt aes128 os fuel mode key found.info.protocolVersion) ∧
    ∃ next calls result, lock.openObserved aes128 os 3 .standard = some (next, calls, result) ∧
      next.state = .disconnected := by
  intro os lock
  have reachable : Reachable aes128 lock :=
    .performed (.authenticate (MobileKey.new (Block.replicate 0x42)))
      (.performed (.connectById "lock" none)
        (.made Pump.HangingUp.mk .auto .default none) rfl) rfl
  have lifecycle := lock_lifecycle aes128 reachable
  exact ⟨lifecycle.2.2.1 rfl, _, _, _, rfl, lifecycle.2.2.2.1 rfl os 3 .standard _ _ _ rfl⟩

end SaltoLock

end Mkey
