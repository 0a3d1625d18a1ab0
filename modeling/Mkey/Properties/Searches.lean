import Mkey.Lib.Search
import Mkey.Properties.ConnectedLink

/-!
# Whom a search connects to

A search makes one connection attempt at most, with the scan stopped, and to a
peripheral whose own properties make it a lock the caller asked for. A search
that succeeds leaves the transport with that peripheral, its two characteristics
and its link up.
-/
namespace Mkey

def PlatformCall.isConnect : PlatformCall → Bool
  | .connect .. => true
  | _ => false

theorem LeavesLinks.no_connect {calls : List PlatformCall} (quiet : LeavesLinks calls) :
    ∀ c ∈ calls, c.isConnect = false := by
  intro c member
  have untouched := List.any_eq_false.mp quiet c member
  cases c with
  | connect => exact absurd rfl untouched
  | _ => rfl

namespace BtleplugTransport

variable {W : Type}

/-- A lock the caller asked for. -/
def ConnectCall.AsksFor : ConnectCall → Peripheral → DiscoveredLock → Prop
  | .scanAndConnect filter, _, info => ∀ accepts, filter = some accepts → accepts info
  | .connectById lockId, p, _ => p.id = lockId

theorem ConnectCall.asksFor_iff (call : ConnectCall) (p : Peripheral) (info : DiscoveredLock) :
    call.AsksFor p info ↔ call.search.considers p ∧ call.search.accepts info := by
  cases call with
  | scanAndConnect filter => cases filter <;> simp [AsksFor, search]
  | connectById lockId => simp [AsksFor, search]

/-- Whatever a lock is recognised by, it keeps the id of its peripheral. -/
theorem tryParseSaltoLock_id {p : Peripheral} {props : PeripheralProperties}
    {info : DiscoveredLock} (parsed : tryParseSaltoLock p props = some info) : info.id = p.id := by
  rw [tryParseSaltoLock, Option.or_eq_some_iff] at parsed
  rcases parsed with record | ⟨_, service⟩
  · unfold discoverByManufacturerData at record
    split at record
    · cases record
    · obtain ⟨_, _, rfl⟩ := Option.map_eq_some_iff.mp record
      rfl
  · unfold discoverByServiceUuid at service
    split at service
    · obtain rfl := Option.some.inj service
      rfl
    · cases service

/-- What a transport holds on to. -/
def held (t : BtleplugTransport W) :
    Option Peripheral × Option Characteristic × Option Characteristic × Bool :=
  (t.peripheral, t.writeCharacteristic, t.notifyCharacteristic, t.notificationStream)

variable [Platform W]

/-- The platform tells these properties of a peripheral, and they make it this lock. -/
structure Recognised (W : Type) [Platform W] (p : Peripheral) (props : PeripheralProperties)
    (info : DiscoveredLock) : Prop where
  told : ∃ w : W, (Platform.properties w p).2 = .ok (some props)
  parsed : tryParseSaltoLock p props = some info

/-- How a peripheral has been looked at before it is connected to. -/
def inspected (p : Peripheral) (props : PeripheralProperties) : List PlatformCall :=
  [.properties p (some (.ok (some props))), .stopScan]

/-- Services that the platform has listed for the peripheral, by the calls made, have this
characteristic, the first with this uuid. -/
def Lists (W : Type) [Platform W] (calls : List PlatformCall) (p : Peripheral) (uuid : Uuid)
    (c : Characteristic) : Prop :=
  ∃ services, .services p services ∈ calls ∧ (∃ w : W, (Platform.services w p).2 = services) ∧
    (services.flatMap Service.characteristics).find? (fun c => c.uuid = uuid) = some c

theorem Lists.mono {calls more : List PlatformCall} {p : Peripheral} {uuid : Uuid}
    {c : Characteristic} (lists : Lists W calls p uuid c) (longer : calls ⊆ more) :
    Lists W more p uuid c := by
  obtain ⟨services, listed, rest⟩ := lists
  exact ⟨services, longer listed, rest⟩

/-- A transport that has taken over the link to a peripheral. -/
structure Holds (calls : List PlatformCall) (t : BtleplugTransport W) (p : Peripheral) :
    Prop where
  peripheral : t.peripheral = some p
  write : ∃ c, t.writeCharacteristic = some c ∧ Lists W calls p saltoWriteUuid c
  notify : ∃ c, t.notifyCharacteristic = some c ∧ Lists W calls p saltoNotifyUuid c
  silent : t.notificationStream = false

theorem Holds.mono {calls more : List PlatformCall} {t : BtleplugTransport W} {p : Peripheral}
    (holds : Holds calls t p) (longer : calls ⊆ more) : Holds more t p := by
  obtain ⟨peripheral, ⟨write, equipped, writes⟩, ⟨notify, equipped', notifies⟩, silent⟩ := holds
  exact ⟨peripheral, ⟨write, equipped, writes.mono longer⟩,
    ⟨notify, equipped', notifies.mono longer⟩, silent⟩

/-! ### The peripheral a search stops at -/

theorem within_some {α : Type} {answered : W × α} {w : W} {a : α}
    (arrived : within answered = (w, some a)) : answered = (w, a) := by
  obtain ⟨v, b⟩ := answered
  unfold within at arrived
  split at arrived
  · simp at arrived
  · simpa using arrived

theorem inspect_lock {search : Search} {t there : BtleplugTransport W} {p q : Peripheral}
    {info : DiscoveredLock} {calls : List PlatformCall}
    (seen : inspect search t p = (calls, .lock there q info)) :
    q = p ∧ search.considers p ∧ search.accepts info ∧
      ∃ props, Recognised W p props info ∧ calls = inspected p props := by
  rw [inspect] at seen
  split at seen
  next considered =>
    split at seen
    · simp at seen
    next w props answered =>
      split at seen
      next found parsed =>
        rw [Option.filter_eq_some_iff] at parsed
        split at seen
        · simp at seen
        · simp only [Prod.mk.injEq, Sighting.lock.injEq] at seen
          obtain ⟨rfl, _, rfl, rfl⟩ := seen
          exact ⟨rfl, considered, parsed.2, props,
            ⟨⟨_, by rw [within_some answered]⟩, parsed.1⟩, rfl⟩
      · simp at seen
    · simp at seen
  · simp at seen

theorem nextSighting_lock {search : Search} {t there : BtleplugTransport W} {p : Peripheral}
    {info : DiscoveredLock} {calls : List PlatformCall}
    (seen : nextSighting search t = (calls, .lock there p info)) :
    search.considers p ∧ search.accepts info ∧
      ∃ props front, Recognised W p props info ∧ calls = front ++ inspected p props := by
  rw [nextSighting] at seen
  split at seen
  · simp at seen
  · simp at seen
  · simp at seen
  all_goals
    split at seen
    · simp at seen
    · simp at seen
    next w q answered =>
      cases looked : inspect search { t with adapter := w } q with
      | mk more sighting =>
        rw [looked] at seen
        simp only [Prod.mk.injEq] at seen
        obtain ⟨rfl, rfl⟩ := seen
        obtain ⟨rfl, considered, accepted, props, recognised, rfl⟩ := inspect_lock looked
        exact ⟨considered, accepted, props, [_, _], recognised, rfl⟩

/-! ### Connecting to it -/

theorem findCharacteristic_ok {w v : W} {p : Peripheral} {uuid : Uuid} {c : Characteristic}
    (found : findCharacteristic w p uuid = (v, .ok c)) :
    Lists W [.services p (Platform.services w p).2] p uuid c := by
  unfold findCharacteristic at found
  dsimp only at found
  split at found
  next c' listed =>
    simp only [Prod.mk.injEq, Except.ok.injEq] at found
    obtain ⟨_, rfl⟩ := found
    exact ⟨_, List.mem_cons_self, ⟨w, rfl⟩, listed⟩
  · simp at found

theorem takeOver_ok {t : BtleplugTransport W} {p : Peripheral} {info : DiscoveredLock}
    {found : ConnectedLock} (taken : (t.takeOver p info).2.2 = some (.ok found)) :
    found = ⟨info⟩ ∧ Holds (t.takeOver p info).2.1 (t.takeOver p info).1 p := by
  unfold takeOver at taken ⊢
  dsimp only at taken ⊢
  split at taken
  · simp at taken
  next w write here =>
    split at taken
    · simp at taken
    next v notify there =>
      dsimp only at taken ⊢
      obtain rfl : ⟨info⟩ = found := by simpa using taken
      refine ⟨rfl, rfl, ⟨write, rfl, ?_⟩, ⟨notify, rfl, ?_⟩, rfl⟩
      · exact (findCharacteristic_ok here).mono (by simp)
      · exact (findCharacteristic_ok there).mono (by simp)

theorem checkService_ok {t : BtleplugTransport W} {p : Peripheral} {info : DiscoveredLock}
    {found : ConnectedLock} (taken : (t.checkService p info).2.2 = some (.ok found)) :
    found = ⟨info⟩ ∧ Holds (t.checkService p info).2.1 (t.checkService p info).1 p ∧
      LeavesLinks (t.checkService p info).2.1 := by
  unfold checkService at taken ⊢
  split at taken
  · simp at taken
  · simp at taken
  next w discovered =>
    dsimp only at taken ⊢
    split at taken
    next offered =>
      rw [if_pos offered]
      obtain ⟨same, holds⟩ := takeOver_ok taken
      refine ⟨same, holds.mono (List.subset_append_right _ _), ?_⟩
      exact LeavesLinks.append rfl (takeOver_cases _ p info).1
    · -- letting go of a link is no success, whatever the platform answers
      simp only [Option.map_eq_some_iff] at taken
      obtain ⟨answer, _, result⟩ := taken
      cases answer with
      | error e => cases result
      | ok done => cases result

theorem takeOver_calls (t : BtleplugTransport W) (p : Peripheral) (info : DiscoveredLock) :
    ∀ c ∈ (t.takeOver p info).2.1, c.isConnect = false := by
  unfold takeOver
  split
  · simp [PlatformCall.isConnect]
  · split
    · simp [PlatformCall.isConnect]
    · simp [PlatformCall.isConnect]

theorem checkService_calls (t : BtleplugTransport W) (p : Peripheral) (info : DiscoveredLock) :
    ∀ c ∈ (t.checkService p info).2.1, c.isConnect = false := by
  unfold checkService
  split
  · simp [PlatformCall.isConnect]
  · simp [PlatformCall.isConnect]
  · dsimp only
    split
    · intro c member
      rcases List.mem_append.mp member with here | later
      · simp only [List.mem_cons, List.not_mem_nil, or_false] at here
        rcases here with rfl | rfl
        · rfl
        · rfl
      · exact takeOver_calls _ p info c later
    · simp [PlatformCall.isConnect]

/-- The first call of a connection attempt, and none of the later ones, is to connect. -/
theorem connectToPeripheral_calls (t : BtleplugTransport W) (p : Peripheral)
    (info : DiscoveredLock) :
    ∃ answer more, (t.connectToPeripheral p info).2.1 = .connect p answer :: more ∧
      ∀ c ∈ more, c.isConnect = false := by
  unfold connectToPeripheral
  split
  · exact ⟨_, [], rfl, by simp⟩
  · exact ⟨_, [], rfl, by simp⟩
  · exact ⟨_, _, rfl, checkService_calls _ p info⟩

theorem connectToPeripheral_ok {t : BtleplugTransport W} {p : Peripheral} {info : DiscoveredLock}
    {found : ConnectedLock} (taken : (t.connectToPeripheral p info).2.2 = some (.ok found)) :
    found = ⟨info⟩ ∧ Holds (t.connectToPeripheral p info).2.1 (t.connectToPeripheral p info).1 p ∧
      linkUp p (t.connectToPeripheral p info).2.1 := by
  unfold connectToPeripheral at taken ⊢
  split at taken
  · simp at taken
  · simp at taken
  next w linked =>
    obtain ⟨same, holds, quiet⟩ := checkService_ok taken
    refine ⟨same, holds.mono (List.subset_append_right _ _), ?_⟩
    rw [linkUp, andThen, List.foldl_append, quiet.foldl_eq]
    simp [linkAfter]

/-! ### Connecting in vain -/

theorem takeOver_held {t : BtleplugTransport W} {p : Peripheral} {info : DiscoveredLock}
    (fails : Fails (t.takeOver p info)) : (t.takeOver p info).1.held = t.held := by
  unfold Fails takeOver at *
  split at fails
  · rfl
  · split at fails
    · rfl
    · exact absurd rfl (fails ⟨info⟩)

theorem checkService_held {t : BtleplugTransport W} {p : Peripheral} {info : DiscoveredLock}
    (fails : Fails (t.checkService p info)) : (t.checkService p info).1.held = t.held := by
  unfold checkService at *
  split at fails
  · rfl
  · rfl
  · dsimp only at fails ⊢
    split at fails
    next offered =>
      rw [if_pos offered]
      exact takeOver_held fails
    next missing =>
      rw [if_neg missing]
      rfl

theorem connectToPeripheral_held {t : BtleplugTransport W} {p : Peripheral}
    {info : DiscoveredLock} (fails : Fails (t.connectToPeripheral p info)) :
    (t.connectToPeripheral p info).1.held = t.held := by
  unfold connectToPeripheral at *
  split at fails
  · rfl
  · rfl
  · exact checkService_held fails

theorem inspect_held (search : Search) (t : BtleplugTransport W) (p : Peripheral) :
    (inspect search t p).2.transport.held = t.held := by
  rw [inspect]
  split
  · split
    · rfl
    · split
      · split
        · rfl
        · rfl
      · rfl
    · rfl
  · rfl

theorem nextSighting_held (search : Search) (t : BtleplugTransport W) :
    (nextSighting search t).2.transport.held = t.held := by
  rw [nextSighting]
  split
  · rfl
  · rfl
  · rfl
  all_goals
    split
    · rfl
    · rfl
    next w v p answered => exact inspect_held search { t with adapter := v } p

theorem watch_held (t : BtleplugTransport W) : t.watch.1.held = t.held := by
  rw [watch]
  split
  · rfl
  · split
    · rfl
    · rfl

theorem searchTurn_goes_held {search : Search} {t next : BtleplugTransport W}
    (goes : (searchTurn search t).2 = .inl next) : next.held = t.held := by
  have kept := nextSighting_held search t
  rw [searchTurn_continues_iff.mp goes] at kept
  exact kept

theorem searchTurn_ends_held {search : Search} {t v : BtleplugTransport W}
    {answer : Option (Except Error ConnectedLock)}
    (ends : (searchTurn search t).2 = .inr (v, answer))
    (failed : ∀ found, answer ≠ some (.ok found)) : v.held = t.held := by
  have kept := nextSighting_held search t
  unfold searchTurn at ends
  split at ends
  next seen => cases ends
  next seen =>
    rw [seen] at kept
    cases ends
    exact kept
  next seen =>
    rw [seen] at kept
    cases ends
    exact kept
  next there p info seen =>
    rw [seen] at kept
    cases ends
    exact (connectToPeripheral_held failed).trans kept

/-- A search that fails leaves the transport with what it held. -/
theorem searchAndConnect_held {search : Search} {fuel : Nat} {timeout : Duration}
    {t out : BtleplugTransport W} {calls : List PlatformCall} {e : Error}
    (returned : t.searchAndConnect search fuel timeout = some (calls, out, .error e)) :
    out.held = t.held := by
  have watched := watch_held t
  cases opened : t.watch with
  | mk u rest =>
    obtain ⟨opening, answer⟩ := rest
    rw [opened] at watched
    cases answer with
    | error e' =>
      simp only [searchAndConnect, opened, Option.some.injEq, Prod.mk.injEq] at returned
      obtain ⟨_, rfl, _⟩ := returned
      exact watched
    | ok done =>
      simp only [searchAndConnect, opened, Option.map_eq_some_iff, Prod.exists, Prod.mk.injEq]
        at returned
      obtain ⟨more, v, answer, run, _, rfl, failed⟩ := returned
      obtain ⟨_, last, here, _, reached, ends, _⟩ := Loop.run_last run
      -- the turns that went on held what the first one did
      have on : here.held = u.held :=
        reached.invariant (fun s => s.held = u.held)
          (fun s next same goes => (searchTurn_goes_held goes).trans same) rfl
      have unfound (found : ConnectedLock) : answer ≠ some (.ok found) := by
        rintro rfl
        cases failed
      have ended : (searchTurn search here).2 = .inr (v, answer) := by rw [ends]
      exact (searchTurn_ends_held ended unfound).trans (on.trans watched)

/-! ### The whole search -/

/-- What a search leaves: calls that connect to nothing, or one attempt to connect to a lock the
search was for, right after the scan was stopped for it. -/
inductive Attempted (search : Search) (calls : List PlatformCall) (out : BtleplugTransport W)
    (result : Except Error ConnectedLock) : Prop
  | nothing : (∀ c ∈ calls, c.isConnect = false) → (∀ found, result ≠ .ok found) →
      Attempted search calls out result
  | one (p : Peripheral) (props : PeripheralProperties) (info : DiscoveredLock)
      (answer : Option (Except String Unit)) (front back : List PlatformCall) :
      search.considers p → search.accepts info → Recognised W p props info →
      calls = front ++ inspected p props ++ .connect p answer :: back →
      (∀ c ∈ front, c.isConnect = false) → (∀ c ∈ back, c.isConnect = false) →
      (∀ found, result = .ok found → found = ⟨info⟩ ∧ Holds calls out p ∧ linkUp p calls) →
      Attempted search calls out result

/-- The turn that ends a search, with the calls made before and after it. -/
theorem Attempted.last {search : Search} {t v : BtleplugTransport W} {last : List PlatformCall}
    {answer : Option (Except Error ConnectedLock)}
    (ends : searchTurn search t = (last, .inr (v, answer))) {before after : List PlatformCall}
    (quiet : LeavesLinks before) (quiet' : LeavesLinks after) (w : W) (ms : UInt64) :
    Attempted search (before ++ last ++ after) { v with adapter := w }
      (answer.getD (.error (.timeout ms))) := by
  have looked := (nextSighting_quiet search t).1
  -- without a lock in sight there is no attempt and no lock to return
  have nothing (alone : LeavesLinks last)
      (failed : ∀ found, answer.getD (.error (.timeout ms)) ≠ .ok found) :
      Attempted search (before ++ last ++ after) { v with adapter := w }
        (answer.getD (.error (.timeout ms))) :=
    .nothing (LeavesLinks.no_connect ((quiet.append alone).append quiet')) failed
  unfold searchTurn at ends
  split at ends
  next seen => cases ends
  next seen =>
    rw [seen] at looked
    simp only [Prod.mk.injEq, Sum.inr.injEq] at ends
    obtain ⟨rfl, _, rfl⟩ := ends
    exact nothing looked (by simp)
  next seen =>
    rw [seen] at looked
    simp only [Prod.mk.injEq, Sum.inr.injEq] at ends
    obtain ⟨rfl, _, rfl⟩ := ends
    exact nothing looked (by simp)
  next sighted there p info seen =>
    obtain ⟨considered, accepted, props, front, recognised, rfl⟩ := nextSighting_lock seen
    obtain ⟨reply, back, made, later⟩ := connectToPeripheral_calls there p info
    simp only [Prod.mk.injEq, Sum.inr.injEq] at ends
    obtain ⟨rfl, rfl, rfl⟩ := ends
    rw [seen] at looked
    have split : before ++ (front ++ inspected p props ++
        (there.connectToPeripheral p info).2.1) ++ after =
        before ++ front ++ inspected p props ++ .connect p reply :: (back ++ after) := by
      rw [made]
      simp
    refine .one p props info reply (before ++ front) (back ++ after) considered accepted recognised
      split ?_ ?_ ?_
    · intro c member
      rcases List.mem_append.mp member with first | second
      · exact quiet.no_connect c first
      · exact LeavesLinks.no_connect looked c (List.mem_append_left _ second)
    · intro c member
      rcases List.mem_append.mp member with first | second
      · exact later c first
      · exact quiet'.no_connect c second
    · intro found taken
      have success : (there.connectToPeripheral p info).2.2 = some (.ok found) := by
        cases answered : (there.connectToPeripheral p info).2.2 with
        | none => simp [answered] at taken
        | some result => simpa [answered] using taken
      obtain ⟨same, holds, up⟩ := connectToPeripheral_ok success
      have longer : (there.connectToPeripheral p info).2.1 ⊆
          before ++ (front ++ inspected p props ++ (there.connectToPeripheral p info).2.1) ++
            after := by
        intro c member
        simp [member]
      obtain ⟨peripheral, write, notify, silent⟩ := holds.mono longer
      refine ⟨same, ⟨peripheral, write, notify, silent⟩, ?_⟩
      rwa [linkUp_between quiet quiet', linkUp_after looked]

theorem searchAndConnect_attempted {search : Search} {fuel : Nat} {timeout : Duration}
    {t out : BtleplugTransport W} {calls : List PlatformCall} {result : Except Error ConnectedLock}
    (returned : t.searchAndConnect search fuel timeout = some (calls, out, result)) :
    Attempted search calls out result := by
  have quiet := (watch_quiet t).1
  cases opened : t.watch with
  | mk u rest =>
    obtain ⟨opening, answer⟩ := rest
    rw [opened] at quiet
    cases answer with
    | error e =>
      simp only [searchAndConnect, opened, Option.some.injEq, Prod.mk.injEq] at returned
      obtain ⟨rfl, rfl, rfl⟩ := returned
      exact .nothing (LeavesLinks.no_connect quiet) (by simp)
    | ok done =>
      simp only [searchAndConnect, opened, Option.map_eq_some_iff, Prod.exists, Prod.mk.injEq]
        at returned
      obtain ⟨more, v, answer, run, rfl, rfl, rfl⟩ := returned
      obtain ⟨front, last, here, rfl, reached, ends, before⟩ := Loop.run_last run
      -- the turns that went on only scanned
      have scanned : LeavesLinks front := by
        rw [LeavesLinks, List.any_eq_false]
        intro c member
        obtain ⟨turned, next, _, goes, inside⟩ := before c member
        have seen := (nextSighting_quiet search turned).1
        rw [searchTurn_continues_iff.mp goes] at seen
        exact List.any_eq_false.mp seen c inside
      have ending : LeavesLinks [.stopScan] := rfl
      rw [← List.append_assoc]
      exact Attempted.last ends (LeavesLinks.append quiet scanned) ending _ _

/-- Whom a call connects to, if it does: at most one peripheral, told by its own properties to be
a lock the caller asked for, with the scan stopped just before. A call that succeeds returns that
lock, and leaves the transport holding it over a link that is up; one that fails leaves it with
what it held. -/
theorem connects_to_what_was_asked (call : ConnectCall) (fuel : Nat) (timeout : Duration)
    (t out : BtleplugTransport W) (calls : List PlatformCall)
    (result : Except Error ConnectedLock)
    (returned : call.perform fuel timeout t = some (calls, out, result)) :
    calls.countP PlatformCall.isConnect ≤ 1 ∧
    (∀ front p answer back, calls = front ++ .connect p answer :: back →
      ∃ props info, inspected p props <:+ front ∧ Recognised W p props info ∧
        call.AsksFor p info) ∧
    (∀ found, result = .ok found → ∃ p props, found.info.id = p.id ∧
      inspected p props <:+: calls ∧ Recognised W p props found.info ∧
      call.AsksFor p found.info ∧ Holds calls out p ∧ linkUp p calls) ∧
    ∀ e, result = .error e → out.held = t.held := by
  rw [call.perform_eq] at returned
  have kept (e : Error) (same : result = .error e) : out.held = t.held := by
    subst same
    exact searchAndConnect_held returned
  cases searchAndConnect_attempted returned with
  | nothing quiet failed =>
    refine ⟨?_, ?_, ?_, kept⟩
    · rw [List.countP_eq_zero.mpr (by simpa using quiet)]
      exact Nat.zero_le 1
    · rintro front p answer back rfl
      have other := quiet (.connect p answer) (by simp)
      cases other
    · intro found taken
      exact absurd taken (failed found)
  | one q props info reply before after considered accepted recognised split quiet quiet'
      succeeds =>
    have asked := (call.asksFor_iff q info).mpr ⟨considered, accepted⟩
    have scanned : ∀ c ∈ before ++ inspected q props, PlatformCall.isConnect c = false := by
      intro c member
      rcases List.mem_append.mp member with first | second
      · exact quiet c first
      · simp only [inspected, List.mem_cons, List.not_mem_nil, or_false] at second
        rcases second with rfl | rfl
        · rfl
        · rfl
    have split' : calls = (before ++ inspected q props) ++ .connect q reply :: after := split
    refine ⟨?_, ?_, ?_, kept⟩
    · rw [split', List.countP_append, List.countP_cons,
        List.countP_eq_zero.mpr (by simpa using scanned),
        List.countP_eq_zero.mpr (by simpa using quiet')]
      simp [PlatformCall.isConnect]
    · intro front p answer back same
      rw [split'] at same
      obtain ⟨rfl, attempt⟩ := @Search.split_at_only _ PlatformCall.isConnect _ _ _ _
        _ _ same scanned quiet' rfl
      obtain ⟨rfl, _⟩ := PlatformCall.connect.inj attempt
      exact ⟨props, info, List.suffix_append _ _, recognised, asked⟩
    · rintro found rfl
      obtain ⟨rfl, holds, up⟩ := succeeds found rfl
      refine ⟨q, props, tryParseSaltoLock_id recognised.parsed, ?_, recognised, asked, holds, up⟩
      rw [split]
      exact ⟨before, _, rfl⟩

/-- A platform with one lock in reach, which can be taken over. -/
structure OneLock where

instance : Platform OneLock where
  expired _ := false
  events w := (w, .ok ())
  startScan w := (w, .ok ())
  stopScan w := (w, .ok ())
  nextEvent w := (w, some (.deviceDiscovered "lock"))
  peripheral w id := (w, .ok ⟨id⟩)
  properties w _ := (w, .ok (some ⟨none, none, fun _ => none, [saltoServiceUuid]⟩))
  connect w _ := (w, .ok ())
  discoverServices w _ := (w, .ok ())
  services w _ := (w, [⟨saltoServiceUuid, [⟨saltoWriteUuid, false⟩, ⟨saltoNotifyUuid, true⟩]⟩])
  isConnected w _ := (w, .ok true)
  disconnect w _ := (w, .ok ())

theorem connects_to_what_was_asked_one_lock :
    ∃ calls out found, (ConnectCall.connectById "lock").perform 1 (.fromSecs 10)
        (⟨⟨⟩, none, none, none, false⟩ : BtleplugTransport OneLock) =
          some (calls, out, .ok found) ∧
      found.info.id = "lock" ∧ linkUp ⟨"lock"⟩ calls := by
  refine ⟨_, _, _, rfl, ?_⟩
  obtain ⟨_, _, succeeds, _⟩ := connects_to_what_was_asked (.connectById "lock") 1 (.fromSecs 10)
    (⟨⟨⟩, none, none, none, false⟩ : BtleplugTransport OneLock) _ _ _ rfl
  obtain ⟨⟨id⟩, _, same, _, _, asked, _, up⟩ := succeeds _ rfl
  obtain rfl : id = "lock" := asked
  exact ⟨same, up⟩

end BtleplugTransport

end Mkey
