import Mkey.Properties.DesktopDriver

/-!
# Opening a lock in one call

`sdk::open` is a run of the driver on a desktop: a search, a key and an attempt.
Whatever comes of it, it leaves no link behind; it has connected to one lock at
most, of the name it was asked for, and its traffic has gone there.
-/
namespace Mkey.Desktop

open BtleplugTransport

/-- A peripheral whose own properties, as they are on record, make it a lock of this name. -/
def Named (lockName : Option String) (log : List GattCall) (p : Peripheral) : Prop :=
  ∃ props info, .platform (.properties p (some (.ok (some props)))) ∈ log ∧
    tryParseSaltoLock p props = some info ∧ ∀ name, lockName = some name → info.name = some name

/-- What a log tells of a search for a name: one connection attempt at most, and to such a lock. -/
structure Sought (lockName : Option String) (log : List GattCall) : Prop where
  once : (log.filterMap GattCall.connects).length ≤ 1
  named : ∀ p ∈ log.filterMap GattCall.connects, Named lockName log p

/-- Traffic that connects to nobody adds nothing to the search before it. -/
theorem Sought.later {lockName : Option String} {log more : List GattCall}
    (sought : Sought lockName log) (nobody : more.filterMap GattCall.connects = []) :
    Sought lockName (log ++ more) := by
  have same : (log ++ more).filterMap GattCall.connects = log.filterMap GattCall.connects := by
    rw [List.filterMap_append, nobody, List.append_nil]
  refine ⟨same ▸ sought.once, ?_⟩
  intro p member
  rw [same] at member
  obtain ⟨props, info, told, recognised, named⟩ := sought.named p member
  exact ⟨props, info, List.mem_append_left _ told, recognised, named⟩

/-- The filter for a name, as the search is given it. -/
def nameFilter (lockName : Option String) : Option LockFilter :=
  lockName.map fun name l => l.name = some name

theorem nameFilter_asks {lockName : Option String} {p : Peripheral} {info : DiscoveredLock}
    (asked : (ConnectCall.scanAndConnect (nameFilter lockName)).AsksFor p info) :
    ∀ name, lockName = some name → info.name = some name := by
  rintro name rfl
  simpa using asked _ rfl

/-! ### The search -/

theorem connects_quiet {calls : List PlatformCall} (quiet : ∀ c ∈ calls, c.isConnect = false) :
    (calls.map GattCall.platform).filterMap GattCall.connects = [] := by
  rw [List.filterMap_map, List.filterMap_eq_nil_iff]
  intro c member
  have other := quiet c member
  cases c with
  | connect => cases other
  | _ => rfl

section Search

variable {W : Type} [GattPlatform W]

omit [GattPlatform W] in
/-- What stands behind a search on record connects to nobody. -/
theorem searchRecord_connects (calls : List PlatformCall) (t : BtleplugTransport W)
    (result : Except Error ConnectedLock) :
    (searchRecord calls t result).filterMap GattCall.connects =
      (calls.map GattCall.platform).filterMap GattCall.connects := by
  unfold searchRecord
  rw [List.filterMap_append]
  split
  · exact List.append_nil _
  · exact List.append_nil _

/-- A search for a name connects to a lock of that name, and succeeds with none but that. -/
theorem searchRecord_sought {lockName : Option String} {fuel : Nat} {timeout : Duration}
    {t out : BtleplugTransport W} {calls : List PlatformCall} {result : Except Error ConnectedLock}
    (returned : (ConnectCall.scanAndConnect (nameFilter lockName)).perform fuel timeout t =
      some (calls, out, result)) :
    Sought lockName (searchRecord calls out result) ∧
      ∀ found, result = .ok found →
        (searchRecord calls out result).filterMap GattCall.connects ≠ [] := by
  have recorded : ∀ c ∈ calls, GattCall.platform c ∈ searchRecord calls out result := by
    intro c member
    exact List.mem_append_left _ (List.mem_map_of_mem member)
  have attempted := searchAndConnect_attempted
    ((ConnectCall.perform_eq _ fuel timeout t).symm.trans returned)
  cases attempted with
  | nothing quiet failed =>
    have nobody := (searchRecord_connects calls out result).trans (connects_quiet quiet)
    refine ⟨⟨by simp [nobody], by simp [nobody]⟩, ?_⟩
    intro found taken
    exact absurd taken (failed found)
  | one p props info answer front back considered accepted recognised split quiet quiet' _ =>
    have inspected_ : ∀ c ∈ inspected p props, c.isConnect = false := by
      intro c member
      simp only [inspected, List.mem_cons, List.not_mem_nil, or_false] at member
      rcases member with rfl | rfl <;> rfl
    -- the attempt stands alone between a scan and what becomes of it
    have only : (searchRecord calls out result).filterMap GattCall.connects = [p] := by
      rw [searchRecord_connects, split, List.map_append, List.map_append, List.filterMap_append,
        List.filterMap_append, connects_quiet quiet, connects_quiet inspected_, List.map_cons]
      exact congrArg (p :: ·) (connects_quiet quiet')
    refine ⟨⟨by simp [only], ?_⟩, by simp [only]⟩
    intro q member
    rw [only, List.mem_singleton] at member
    subst member
    have asked := (ConnectCall.asksFor_iff _ q info).mpr ⟨considered, accepted⟩
    refine ⟨props, info, recorded _ ?_, recognised.parsed, nameFilter_asks asked⟩
    rw [split]
    simp [inspected]

end Search

variable {W : Type} [DesktopPlatform W] {lock next : SaltoLock (Desktop W)}

/-- The search of a driver that has asked for nothing yet. -/
theorem scan_sought {lockName : Option String} {timeout : Option Duration}
    {calls : List LockCall} {result : Except Error DiscoveredLock}
    (away : lock.state = .disconnected) (fresh : lock.transport.log = [])
    (scanned : lock.scanAndConnectFiltered timeout (nameFilter lockName) =
      (next, calls, result)) :
    Sought lockName next.transport.log ∧
      match result with
      | .error _ => next.state = .disconnected
      | .ok _ => next.state = .connected ∧
          next.transport.log.filterMap GattCall.connects ≠ [] := by
  rw [SaltoLock.scanAndConnectFiltered, SaltoLock.expectState_ok away] at scanned
  dsimp only at scanned
  generalize timeout.getD defaultScanDuration = timeout at scanned
  have answered : LockTransport.scanAndConnect lock.transport timeout (nameFilter lockName) =
      lock.transport.searched timeout
        ((ConnectCall.scanAndConnect (nameFilter lockName)).perform lock.transport.searchFuel
          timeout lock.transport.transport) := rfl
  rw [answered] at scanned
  cases found : (ConnectCall.scanAndConnect (nameFilter lockName)).perform
      lock.transport.searchFuel timeout lock.transport.transport with
  | none =>
    -- out of fuel: the driver is as it was
    rw [found] at scanned
    cases scanned
    refine ⟨⟨?_, ?_⟩, away⟩
    · simp [fresh]
    · simp [fresh]
  | some out =>
    obtain ⟨made, transport, answer⟩ := out
    obtain ⟨sought, succeeds⟩ := searchRecord_sought found
    have log : lock.transport.log ++ searchRecord made transport answer =
        searchRecord made transport answer := by
      rw [fresh, List.nil_append]
    rw [found] at scanned
    cases answer with
    | error e =>
      cases scanned
      exact ⟨log.symm ▸ sought, away⟩
    | ok info =>
      cases scanned
      exact ⟨log.symm ▸ sought, rfl, log.symm ▸ succeeds info rfl⟩

/-! ### The whole call -/

omit [DesktopPlatform W] in
/-- A driver as it is made has asked for nothing. -/
theorem new_fresh {manager : Except String (Except String (List W))} {searchFuel : Nat}
    (created : SaltoLock.new manager searchFuel = .ok lock) :
    lock.state = .disconnected ∧ lock.transport.log = [] := by
  rw [SaltoLock.new] at created
  cases opened : BtleplugTransport.new manager with
  | error e =>
    rw [opened] at created
    cases created
  | ok transport =>
    rw [opened] at created
    cases created
    exact ⟨rfl, rfl⟩

omit [DesktopPlatform W] in
/-- A driver that was not made: the adapter was not there. -/
theorem new_failed {manager : Except String (Except String (List W))} {searchFuel : Nat}
    {e : Error} (failed : SaltoLock.new manager searchFuel = .error e) :
    BtleplugTransport.new manager = .error e := by
  rw [SaltoLock.new] at failed
  cases opened : BtleplugTransport.new manager with
  | error e' =>
    rw [opened] at failed
    exact congrArg Except.error (Except.error.inj failed)
  | ok transport =>
    rw [opened] at failed
    cases failed

variable (aes : BlockCipher) (os : RandomSource)

/-- What a call leaves behind: nothing that is still connected, traffic by the rule, and a search
for the name it was given. -/
structure LeavesNoLink (lockName : Option String) (lock : SaltoLock (Desktop W))
    (calls : List LockCall) : Prop where
  away : lock.state = .disconnected
  free : lock.transport.transport.peripheral = none
  allowed : ∀ front call back, lock.transport.log = front ++ call :: back → Allowed W front call
  sends : (lock.transport.log.filterMap GattCall.bytes).Sublist (calls.filterMap LockCall.bytes)
  sought : Sought lockName lock.transport.log

theorem Driven.leavesNoLink {lockName : Option String} {calls : List LockCall}
    (driven : Driven aes lock calls) (away : lock.state = .disconnected)
    (sought : Sought lockName lock.transport.log) : LeavesNoLink lockName lock calls := by
  have keeps := driven.keeps
  refine ⟨away, keeps.away away, fun front call back split => ?_, keeps.sends, sought⟩
  exact Log.keeps_iff.mp keeps.used.keeps front call back split

omit [DesktopPlatform W] in
/-- A search as one of the operations of a driver. -/
theorem scans {T : Type} [LockTransport T] {lock next : SaltoLock T} {timeout : Option Duration}
    {filter : Option LockFilter} {calls : List LockCall} {result : Except Error DiscoveredLock}
    (scanned : lock.scanAndConnectFiltered timeout filter = (next, calls, result)) :
    lock.perform aes (.scanAndConnectFiltered timeout filter) =
      some (next, calls, SaltoLock.failure result) := by
  rw [SaltoLock.perform, scanned]
  rfl

/-- The attempt of a driver that has found its lock: it connects to nobody else. -/
theorem Driven.opened {lockName : Option String} {fuel : Nat} {mode : OpeningMode} {key : MobileKey}
    {calls later : List LockCall} {result : Except Error Outcome} (driven : Driven aes lock calls)
    (ready : lock.state = .authenticated) (loaded : lock.mobileKey = some key)
    (sought : Sought lockName lock.transport.log)
    (attempted : lock.openObserved aes os fuel mode = some (next, later, result)) :
    LeavesNoLink lockName next (calls ++ later) ∧
      next.transport.log.filterMap GattCall.connects =
        lock.transport.log.filterMap GattCall.connects := by
  have opens : lock.openObserved aes os fuel mode = lock.attempt aes os fuel mode key
      ((lock.connectedLock.map fun c => c.info.protocolVersion).getD 0) := by
    rw [SaltoLock.openObserved, SaltoLock.expectState_ok ready]
    simp only [loaded]
  have returned := opens.symm.trans attempted
  have opened := driven.performed (.openObserved os fuel mode) (by
    rw [SaltoLock.perform, attempted]
    rfl)
  obtain ⟨_, more, log, nobody⟩ := driven.keeps.attempt aes returned
  have away := (SaltoLock.attempt_returned aes returned).1
  have same : next.transport.log.filterMap GattCall.connects =
      lock.transport.log.filterMap GattCall.connects := by
    rw [log, List.filterMap_append, nobody, List.append_nil]
  refine ⟨opened.leavesNoLink aes away ?_, same⟩
  rw [log]
  exact sought.later nobody

/-- `sdk::open`, whatever the platform does: without an adapter nothing is asked for; otherwise the
driver is left disconnected and without a peripheral, all traffic has gone over a link that was up
to where it should, one connection attempt has been made at most, to a lock of the name asked for,
and there is an outcome only if it was made. -/
theorem sdk_open {manager : Except String (Except String (List W))} {searchFuel fuel : Nat}
    {mobileKey : MobileKey} {lockName : Option String} {mode : OpeningMode}
    {scanTimeout : Option Duration} {left_ : Option (SaltoLock (Desktop W))}
    {calls : List LockCall} {result : Except Error Outcome}
    (returned : sdkOpen aes os fuel (SaltoLock.new manager searchFuel) mobileKey lockName mode
      scanTimeout = some (left_, calls, result)) :
    (left_ = none → calls = [] ∧ ∃ e, result = .error e ∧
      BtleplugTransport.new manager = .error e) ∧
    ∀ lock, left_ = some lock → LeavesNoLink lockName lock calls ∧
      ∀ outcome, result = .ok outcome → lock.transport.log.filterMap GattCall.connects ≠ [] := by
  unfold sdkOpen at returned
  split at returned
  next e failed =>
    cases returned
    exact ⟨fun _ => ⟨rfl, e, rfl, new_failed failed⟩, by simp⟩
  next made created =>
    obtain ⟨fresh, silent⟩ := new_fresh created
    have driven : Driven aes made [] := .made made.handshake made.timeouts made.random created
    dsimp only at returned
    split at returned
    next lock calls e scanned =>
      -- nobody was found: the driver goes as it came
      cases returned
      obtain ⟨sought, away⟩ := scan_sought fresh silent scanned
      have searched := driven.performed (.scanAndConnectFiltered _ _) (scans aes scanned)
      refine ⟨by simp, ?_⟩
      rintro _ ⟨⟩
      exact ⟨searched.leavesNoLink aes away sought, by simp⟩
    next lock calls found scanned =>
      obtain ⟨sought, there, somebody⟩ := scan_sought fresh silent scanned
      have searched := driven.performed (.scanAndConnectFiltered _ _) (scans aes scanned)
      have loads : lock.authenticate mobileKey =
          ({ lock with mobileKey := some mobileKey, state := .authenticated }, [], .ok ()) := by
        rw [SaltoLock.authenticate, SaltoLock.expectState_ok there]
      have authenticated := searched.performed (.authenticate mobileKey) (by
        rw [SaltoLock.perform, loads])
      rw [loads] at returned
      dsimp only at returned
      rw [Option.map_eq_some_iff] at returned
      obtain ⟨⟨after, later, outcome⟩, attempted, same⟩ := returned
      cases same
      -- loading the key asks nothing, so the search is all that went before the attempt
      obtain ⟨tidy, connected⟩ := authenticated.opened aes os rfl rfl sought attempted
      refine ⟨by simp, ?_⟩
      rintro _ ⟨⟩
      refine ⟨tidy, fun _ _ => ?_⟩
      rw [connected]
      exact somebody

/-- The one lock in reach opens and hangs up. -/
theorem sdk_open_one_lock :
    let os : RandomSource := ⟨fun _ => Block.replicate 0, 0⟩
    ∃ (lock : SaltoLock (Desktop OneLock)) (calls : List LockCall) (outcome : Outcome),
      sdkOpen aes128 os 3 (SaltoLock.new (.ok (.ok [OneLock.mk])) 1)
        (MobileKey.new (Block.replicate 0x42)) none .standard none =
          some (some lock, calls, .ok outcome) ∧
      LeavesNoLink none lock calls ∧ lock.transport.log.filterMap GattCall.connects ≠ [] := by
  intro os
  have opened : ∃ (lock : SaltoLock (Desktop OneLock)) (calls : List LockCall) (outcome : Outcome),
      sdkOpen aes128 os 3 (SaltoLock.new (.ok (.ok [OneLock.mk])) 1)
        (MobileKey.new (Block.replicate 0x42)) none .standard none =
          some (some lock, calls, .ok outcome) := ⟨_, _, _, rfl⟩
  obtain ⟨lock, calls, outcome, returned⟩ := opened
  obtain ⟨tidy, somebody⟩ := (sdk_open aes128 os returned).2 lock rfl
  exact ⟨lock, calls, outcome, returned, tidy, somebody outcome rfl⟩

end Mkey.Desktop
