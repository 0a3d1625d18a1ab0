import Mkey.Ble.Btleplug

/-!
# Links after a failed connection

A connect that succeeds brings a link up and only asking for it takes the link
down again. A call that fails should leave up none but the link the transport
holds. It does unless the search meets a peripheral that connects and then turns
out unusable: only one that shows no lock service is let go of.
-/
namespace Mkey

/-- Whether the link to a peripheral is up after a call, given whether it was before. -/
def linkAfter (p : Peripheral) (up : Bool) : PlatformCall → Bool
  | .connect q (some (.ok ())) => up || q = p
  | .disconnect q => up && q ≠ p
  | _ => up

/-- The link to a peripheral after the calls made to the platform. -/
def linkUp (p : Peripheral) (calls : List PlatformCall) : Bool := calls.foldl (linkAfter p) false

def PlatformCall.touchesLink : PlatformCall → Bool
  | .connect .. | .disconnect _ => true
  | _ => false

/-- Calls that leave every link as it is. -/
def LeavesLinks (calls : List PlatformCall) : Prop :=
  calls.any PlatformCall.touchesLink = false

theorem LeavesLinks.append {front back : List PlatformCall} (first : LeavesLinks front)
    (second : LeavesLinks back) : LeavesLinks (front ++ back) := by
  rw [LeavesLinks, List.any_append, first, second, Bool.or_false]

theorem LeavesLinks.foldl_eq {calls : List PlatformCall} (quiet : LeavesLinks calls)
    (p : Peripheral) (up : Bool) : calls.foldl (linkAfter p) up = up := by
  induction calls with
  | nil => rfl
  | cons c rest ih =>
    rw [LeavesLinks, List.any_cons, Bool.or_eq_false_iff] at quiet
    have here : linkAfter p up c = up := by
      cases c with
      | connect | disconnect => exact absurd quiet.1 (by simp [PlatformCall.touchesLink])
      | _ => rfl
    rw [List.foldl_cons, here]
    exact ih quiet.2

/-- Calls around that leave the links alone do not show. -/
theorem linkUp_between {front back : List PlatformCall} (before : LeavesLinks front)
    (after : LeavesLinks back) (p : Peripheral) (calls : List PlatformCall) :
    linkUp p (front ++ calls ++ back) = linkUp p calls := by
  rw [linkUp, List.foldl_append, List.foldl_append, before.foldl_eq, after.foldl_eq, linkUp]

theorem linkUp_after {front : List PlatformCall} (before : LeavesLinks front) (p : Peripheral)
    (calls : List PlatformCall) : linkUp p (front ++ calls) = linkUp p calls := by
  rw [linkUp, List.foldl_append, before.foldl_eq, linkUp]

namespace BtleplugTransport

variable {W : Type}

/-- After an error no link is up but the one the transport holds. -/
def LinkKept (calls : List PlatformCall) (out : BtleplugTransport W)
    (result : Except Error ConnectedLock) : Prop :=
  ∀ e, result = .error e → ∀ p, linkUp p calls → out.peripheral = some p

/-- A step that does not end in a connection. -/
def Fails (made : Progress W ConnectedLock) : Prop := ∀ found, made.2.2 ≠ some (.ok found)

variable [Platform W]

/-- One of the two characteristics is not among those of the services. -/
def Incomplete (w : W) (p : Peripheral) : Prop :=
  (∃ v e, findCharacteristic w p saltoWriteUuid = (v, .error e)) ∨
    ∃ v write u e, findCharacteristic w p saltoWriteUuid = (v, .ok write) ∧
      findCharacteristic v p saltoNotifyUuid = (u, .error e)

/-- A peripheral that does not show its services in time, or the lock's service without all of
its characteristics. -/
def Unusable (w : W) (p : Peripheral) : Prop :=
  (∀ v, within (Platform.discoverServices w p) ≠ (v, some (.ok ()))) ∨
    ∃ v u services, within (Platform.discoverServices w p) = (v, some (.ok ())) ∧
      Platform.services v p = (u, services) ∧
      (services.any fun s => s.uuid = saltoServiceUuid) ∧ Incomplete u p

/-- A peripheral that connects in time and is unusable. -/
def Stranded (t : BtleplugTransport W) (p : Peripheral) : Prop :=
  ∃ w, within (Platform.connect t.adapter p) = (w, some (.ok ())) ∧ Unusable w p

/-- The transports a search goes on with, event after event, without having met a lock. -/
inductive Scans (search : Search) (t : BtleplugTransport W) : BtleplugTransport W → Prop
  | started {u : BtleplugTransport W} {calls : List PlatformCall} :
      t.watch = (u, calls, .ok ()) → Scans search t u
  | passed {here next : BtleplugTransport W} {calls : List PlatformCall} :
      Scans search t here → nextSighting search here = (calls, .nothing next) →
      Scans search t next

/-- The lock a search meets is stranded, and not the one the transport held already. -/
def Strands (search : Search) (t : BtleplugTransport W) : Prop :=
  ∃ here there p info calls, Scans search t here ∧
    nextSighting search here = (calls, .lock there p info) ∧ Stranded there p ∧
    t.peripheral ≠ some p

/-- What taking over a link comes to: it fails exactly on an incomplete lock. -/
theorem takeOver_cases (t : BtleplugTransport W) (p : Peripheral) (info : DiscoveredLock) :
    LeavesLinks (t.takeOver p info).2.1 ∧
      (Incomplete t.adapter p ∧ Fails (t.takeOver p info) ∧
          (t.takeOver p info).1.peripheral = t.peripheral ∨
        ¬Incomplete t.adapter p ∧ (t.takeOver p info).2.2 = some (.ok ⟨info⟩)) := by
  cases sought : findCharacteristic t.adapter p saltoWriteUuid with
  | mk w answer =>
    cases answer with
    | error e =>
      simp only [takeOver, sought]
      refine ⟨rfl, .inl ⟨.inl ⟨w, e, sought⟩, fun found => ?_, trivial⟩⟩
      simp
    | ok write =>
      cases sought' : findCharacteristic w p saltoNotifyUuid with
      | mk v answer =>
        cases answer with
        | error e =>
          simp only [takeOver, sought, sought']
          refine ⟨rfl,
            .inl ⟨.inr ⟨w, write, v, e, sought, sought'⟩, fun found => ?_, trivial⟩⟩
          simp
        | ok notify =>
          simp only [takeOver, sought, sought']
          refine ⟨rfl, .inr ⟨?_, trivial⟩⟩
          rintro (⟨_, _, missing⟩ | ⟨_, _, _, _, present, missing⟩)
          · simp [sought] at missing
          · rw [sought] at present
            cases present
            simp [sought'] at missing

/-- What checking a link that is up comes to: an unusable lock is left as it is, one without the
service is let go of, and any other becomes the transport's. -/
theorem checkService_cases (t : BtleplugTransport W) (p : Peripheral) (info : DiscoveredLock) :
    (Unusable t.adapter p ∧ Fails (t.checkService p info) ∧
        (t.checkService p info).1.peripheral = t.peripheral ∧
        LeavesLinks (t.checkService p info).2.1) ∨
      ¬Unusable t.adapter p ∧ ((∃ found, (t.checkService p info).2.2 = some (.ok found)) ∨
        ∀ q, (t.checkService p info).2.1.foldl (linkAfter q) (p = q) = false) := by
  cases discovered : within (Platform.discoverServices t.adapter p) with
  | mk w answer =>
    rcases answer with _ | e | done
    · simp only [checkService, discovered]
      refine .inl ⟨.inl fun v => ?_, fun found => ?_, trivial, rfl⟩ <;>
        simp [discovered]
    · simp only [checkService, discovered]
      refine .inl ⟨.inl fun v => ?_, fun found => ?_, trivial, rfl⟩ <;>
        simp [discovered]
    · cases listed : Platform.services w p with
      | mk v services =>
        have usable_iff : Unusable t.adapter p ↔
            (services.any fun s => s.uuid = saltoServiceUuid) ∧ Incomplete v p := by
          simp [Unusable, discovered, listed]
        rw [usable_iff]
        by_cases offered : services.any fun s => s.uuid = saltoServiceUuid
        · -- the service is there: what taking over comes to
          simp only [checkService, discovered, listed, offered, if_true, andThen, true_and]
          obtain ⟨quiet, ⟨missing, fails, kept⟩ | ⟨complete, taken⟩⟩ :=
            takeOver_cases { t with adapter := v } p info
          · exact .inl ⟨missing, fails, kept, LeavesLinks.append rfl quiet⟩
          · exact .inr ⟨complete, .inl ⟨_, taken⟩⟩
        · -- the link is given up, whatever the platform answers to that
          simp only [checkService, discovered, listed, offered]
          refine .inr ⟨fun both => absurd both.1 (by simp), .inr fun q => ?_⟩
          simp [linkAfter]

/-- What connecting comes to. -/
theorem connectToPeripheral_cases (t : BtleplugTransport W) (p : Peripheral)
    (info : DiscoveredLock) :
    (Stranded t p ∧ Fails (t.connectToPeripheral p info) ∧
        (t.connectToPeripheral p info).1.peripheral = t.peripheral ∧
        ∀ q, linkUp q (t.connectToPeripheral p info).2.1 = decide (p = q)) ∨
      ¬Stranded t p ∧ ((∃ found, (t.connectToPeripheral p info).2.2 = some (.ok found)) ∨
        ∀ q, linkUp q (t.connectToPeripheral p info).2.1 = false) := by
  cases linked : within (Platform.connect t.adapter p) with
  | mk w answer =>
    rcases answer with _ | e | done
    · simp only [connectToPeripheral, linked]
      exact .inr ⟨by simp [Stranded, linked], .inr fun q => rfl⟩
    · simp only [connectToPeripheral, linked]
      exact .inr ⟨by simp [Stranded, linked], .inr fun q => rfl⟩
    · have stranded_iff : Stranded t p ↔ Unusable w p := by simp [Stranded, linked]
      -- from here on the link is up
      have up (q : Peripheral) (calls : List PlatformCall) :
          linkUp q ([.connect p (some (.ok ()))] ++ calls) =
            calls.foldl (linkAfter q) (p = q) := by
        rw [linkUp, List.singleton_append, List.foldl_cons]
        rfl
      rw [stranded_iff]
      simp only [connectToPeripheral, linked, andThen, up]
      rcases checkService_cases { t with adapter := w } p info with
        ⟨unusable, fails, kept, quiet⟩ | ⟨usable, taken | down⟩
      · exact .inl ⟨unusable, fails, kept, fun q => quiet.foldl_eq q _⟩
      · exact .inr ⟨usable, .inl taken⟩
      · exact .inr ⟨usable, .inr down⟩

/-- The transport a sighting leaves. -/
def Sighting.transport : Sighting W → BtleplugTransport W
  | .nothing t | .late t | .over t | .lock t _ _ => t

/-- Looking at a peripheral brings no link up or down. -/
theorem inspect_quiet (search : Search) (t : BtleplugTransport W) (p : Peripheral) :
    LeavesLinks (inspect search t p).1 ∧
      (inspect search t p).2.transport.peripheral = t.peripheral := by
  rw [inspect]
  split
  · split
    · exact ⟨rfl, rfl⟩
    · split
      · split
        · exact ⟨rfl, rfl⟩
        · exact ⟨rfl, rfl⟩
      · exact ⟨rfl, rfl⟩
    · exact ⟨rfl, rfl⟩
  · exact ⟨rfl, rfl⟩

/-- Neither does the next event of a search. -/
theorem nextSighting_quiet (search : Search) (t : BtleplugTransport W) :
    LeavesLinks (nextSighting search t).1 ∧
      (nextSighting search t).2.transport.peripheral = t.peripheral := by
  rw [nextSighting]
  split
  · exact ⟨rfl, rfl⟩
  · exact ⟨rfl, rfl⟩
  · exact ⟨rfl, rfl⟩
  all_goals
    split
    · exact ⟨rfl, rfl⟩
    · exact ⟨rfl, rfl⟩
    next w v p answered => exact inspect_quiet search { t with adapter := v } p

theorem watch_quiet (t : BtleplugTransport W) :
    LeavesLinks t.watch.2.1 ∧ t.watch.1.peripheral = t.peripheral := by
  rw [watch]
  split
  · exact ⟨rfl, rfl⟩
  · split
    · exact ⟨rfl, rfl⟩
    · exact ⟨rfl, rfl⟩

/-- A turn goes on exactly after an event with nothing to connect to. -/
theorem searchTurn_continues_iff {search : Search} {t next : BtleplugTransport W} :
    (searchTurn search t).2 = .inl next ↔
      nextSighting search t = ((searchTurn search t).1, .nothing next) := by
  rw [searchTurn]
  split
  next seen => simp [seen]
  next seen => simp [seen]
  next seen => simp [seen]
  next seen => simp [seen]

/-- A turn that sights a lock is what connecting to it comes to. -/
theorem searchTurn_lock {search : Search} {t there : BtleplugTransport W} {p : Peripheral}
    {info : DiscoveredLock} {calls : List PlatformCall}
    (seen : nextSighting search t = (calls, .lock there p info)) :
    searchTurn search t = (calls ++ (there.connectToPeripheral p info).2.1,
        .inr ((there.connectToPeripheral p info).1, (there.connectToPeripheral p info).2.2)) ∧
      there.peripheral = t.peripheral ∧
      ∀ q, linkUp q (calls ++ (there.connectToPeripheral p info).2.1) =
        linkUp q (there.connectToPeripheral p info).2.1 := by
  obtain ⟨quiet, kept⟩ := nextSighting_quiet search t
  rw [seen] at quiet kept
  exact ⟨by rw [searchTurn, seen], kept, fun q => linkUp_after quiet q _⟩

/-- A turn that ends the search sights a lock, or leaves the links alone. -/
theorem searchTurn_ends {search : Search} {t v : BtleplugTransport W} {last : List PlatformCall}
    {answer : Option (Except Error ConnectedLock)}
    (ends : searchTurn search t = (last, .inr (v, answer))) :
    LeavesLinks last ∨
      ∃ calls there p info, nextSighting search t = (calls, .lock there p info) := by
  obtain ⟨quiet, _⟩ := nextSighting_quiet search t
  rw [searchTurn] at ends
  split at ends
  next seen => cases ends
  next seen =>
    rw [seen] at quiet
    obtain ⟨rfl, _⟩ := Prod.mk.inj ends
    exact .inl quiet
  next seen =>
    rw [seen] at quiet
    obtain ⟨rfl, _⟩ := Prod.mk.inj ends
    exact .inl quiet
  next calls there p info seen => exact .inr ⟨calls, there, p, info, seen⟩

/-- The transports a search goes on with are those its loop turns in. -/
theorem scans_iff_reaches {search : Search} {t u here : BtleplugTransport W}
    {opening : List PlatformCall} (opened : t.watch = (u, opening, .ok ())) :
    Scans search t here ↔ Loop.Reaches (searchTurn search) u here := by
  constructor
  · intro scans
    induction scans with
    | started again =>
      rw [opened] at again
      obtain rfl := (Prod.mk.inj again).1
      exact .here
    | passed _ seen ih =>
      refine .turn ih ?_
      rw [searchTurn, seen]
  · intro reached
    induction reached with
    | here => exact .started opened
    | turn _ goes ih => exact .passed ih (searchTurn_continues_iff.mp goes)

/-- The transport holds no other peripheral while it scans. -/
theorem Scans.peripheral_eq {search : Search} {t here : BtleplugTransport W}
    (scans : Scans search t here) : here.peripheral = t.peripheral := by
  induction scans with
  | started opened =>
    have kept := (watch_quiet t).2
    rwa [opened] at kept
  | @passed here next calls _ seen ih =>
    have kept := (nextSighting_quiet search here).2
    rw [seen] at kept
    exact kept.trans ih

/-- What a search returns is what its last turn came to. -/
theorem searchAndConnect_returned {search : Search} {fuel : Nat} {timeout : Duration}
    {t u out : BtleplugTransport W} {opening calls : List PlatformCall}
    {result : Except Error ConnectedLock} (opened : t.watch = (u, opening, .ok ()))
    (returned : t.searchAndConnect search fuel timeout = some (calls, out, result)) :
    ∃ here last v answer, Loop.Reaches (searchTurn search) u here ∧
      searchTurn search here = (last, .inr (v, answer)) ∧ out.peripheral = v.peripheral ∧
      result = answer.getD (.error (.timeout (UInt64.ofNat timeout.asMillis))) ∧
      ∀ p, linkUp p calls = linkUp p last := by
  have quiet := (watch_quiet t).1
  simp only [searchAndConnect, opened, Option.map_eq_some_iff, Prod.exists, Prod.mk.injEq]
    at returned quiet
  obtain ⟨more, v, answer, run, rfl, rfl, rfl⟩ := returned
  obtain ⟨front, last, here, rfl, reached, ends, before⟩ := Loop.run_last run
  refine ⟨here, last, v, answer, reached, ends, rfl, rfl, fun p => ?_⟩
  -- the turns that went on only scanned
  have scanned : LeavesLinks front := by
    rw [LeavesLinks, List.any_eq_false]
    intro c member
    obtain ⟨turned, next, _, goes, inside⟩ := before c member
    have seen := (nextSighting_quiet search turned).1
    rw [searchTurn_continues_iff.mp goes] at seen
    exact List.any_eq_false.mp seen c inside
  have ending : LeavesLinks [.stopScan] := rfl
  rw [← List.append_assoc]
  exact linkUp_between (quiet.append scanned) ending p last

/-- A link the transport holds is one its `disconnect` asks for, unless the platform denies it. -/
theorem disconnect_held {t : BtleplugTransport W} {p : Peripheral} (held : t.peripheral = some p)
    (up : (Platform.isConnected t.adapter p).2 = .ok true) :
    .disconnect p ∈ t.disconnect.2.1 := by
  cases asked : Platform.isConnected t.adapter p with
  | mk w answer =>
    obtain rfl : answer = .ok true := by rwa [asked] at up
    cases dropped : Platform.disconnect w p with
    | mk v answer =>
      cases answer with
      | error e => simp [disconnect, held, asked, dropped]
      | ok done => simp [disconnect, held, asked, dropped]

/-- The two ways to connect. -/
inductive ConnectCall where
  | scanAndConnect (filter : Option LockFilter)
  | connectById (lockId : String)

def ConnectCall.perform (call : ConnectCall) (fuel : Nat) (timeout : Duration)
    (t : BtleplugTransport W) :
    Option (List PlatformCall × BtleplugTransport W × Except Error ConnectedLock) :=
  match call with
  | scanAndConnect filter => t.scanAndConnect fuel timeout filter
  | connectById lockId => t.connectById fuel lockId timeout

/-- What a call searches for. -/
def ConnectCall.search : ConnectCall → Search
  | scanAndConnect filter => ⟨fun _ => true, fun info => (filter.map fun f => f info).getD true⟩
  | connectById lockId => ⟨fun peripheral => peripheral.id == lockId, fun _ => true⟩

theorem ConnectCall.perform_eq (call : ConnectCall) (fuel : Nat) (timeout : Duration)
    (t : BtleplugTransport W) :
    call.perform fuel timeout t = t.searchAndConnect call.search fuel timeout := by
  cases call with
  | scanAndConnect filter => rfl
  | connectById lockId => rfl

/-- A search that meets no stranded lock keeps no link it should not. -/
theorem searchAndConnect_linkKept {search : Search} {fuel : Nat} {timeout : Duration}
    {t out : BtleplugTransport W} {calls : List PlatformCall} {result : Except Error ConnectedLock}
    (safe : ¬Strands search t)
    (returned : t.searchAndConnect search fuel timeout = some (calls, out, result)) :
    LinkKept calls out result := by
  intro e failed p up
  cases opened : t.watch with
  | mk u rest =>
    obtain ⟨opening, answer⟩ := rest
    cases answer with
    | error e' =>
      -- nothing was connected to
      have quiet := (watch_quiet t).1
      simp only [searchAndConnect, opened, Option.some.injEq, Prod.mk.injEq] at returned quiet
      obtain ⟨rfl, _, _⟩ := returned
      rw [linkUp, quiet.foldl_eq] at up
      cases up
    | ok done =>
      obtain ⟨here, last, v, answer, reached, ends, held, rfl, links⟩ :=
        searchAndConnect_returned opened returned
      rw [links] at up
      rcases searchTurn_ends ends with quiet | ⟨front, there, q, info, seen⟩
      · rw [linkUp, quiet.foldl_eq] at up
        cases up
      · obtain ⟨turned, same, alone⟩ := searchTurn_lock seen
        rw [turned] at ends
        obtain ⟨rfl, ended⟩ := Prod.mk.inj ends
        obtain ⟨rfl, rfl⟩ := Prod.mk.inj (Sum.inr.inj ended)
        rw [alone] at up
        rcases connectToPeripheral_cases there q info with
          ⟨stranded, fails, kept, left⟩ | ⟨_, ⟨found, taken⟩ | down⟩
        · -- a stranded lock is one the transport held already
          rw [left] at up
          obtain rfl := of_decide_eq_true up
          have scans := (scans_iff_reaches opened).mpr reached
          rw [held, kept, same, scans.peripheral_eq]
          by_contra other
          exact safe ⟨here, there, q, info, front, scans, seen, stranded, other⟩
        · rw [taken] at failed
          cases failed
        · rw [down] at up
          cases up

theorem Scans.opened {search : Search} {t here : BtleplugTransport W}
    (scans : Scans search t here) : ∃ u opening, t.watch = (u, opening, .ok ()) := by
  induction scans with
  | started opened => exact ⟨_, _, opened⟩
  | passed _ _ ih => exact ih

/-- A search that meets a stranded lock returns an error and leaves its link up. -/
theorem Strands.link_lost {search : Search} {t : BtleplugTransport W} (strands : Strands search t)
    (timeout : Duration) : ∃ fuel calls out result,
      t.searchAndConnect search fuel timeout = some (calls, out, result) ∧
        ¬LinkKept calls out result := by
  obtain ⟨here, there, p, info, front, scans, seen, stranded, other⟩ := strands
  obtain ⟨u, opening, opened⟩ := scans.opened
  have reached := (scans_iff_reaches opened).mp scans
  obtain ⟨turned, same, alone⟩ := searchTurn_lock seen
  obtain ⟨fuel, ⟨more, v, answer⟩, run⟩ :=
    Loop.returns_iff.mpr ⟨here, _, reached, congrArg Prod.snd turned⟩
  have returned : t.searchAndConnect search fuel timeout =
      some (opening ++ more ++ [.stopScan], { v with adapter := (Platform.stopScan v.adapter).1 },
        answer.getD (.error (.timeout (UInt64.ofNat timeout.asMillis)))) := by
    simp [searchAndConnect, opened, run]
  refine ⟨fuel, _, _, _, returned, fun kept => ?_⟩
  obtain ⟨here', last, v', answer', reached', ends, held, failed, links⟩ :=
    searchAndConnect_returned opened returned
  -- a search has one last turn: the one that met the lock
  obtain rfl : here' = here :=
    Loop.Reaches.last_unique reached' reached (congrArg Prod.snd ends) (congrArg Prod.snd turned)
  obtain ⟨rfl, ended⟩ := Prod.mk.inj (ends.symm.trans turned)
  obtain ⟨rfl, rfl⟩ := Prod.mk.inj (Sum.inr.inj ended)
  rcases connectToPeripheral_cases there p info with ⟨_, fails, parted, left⟩ | ⟨safe, _⟩
  · have error : ∃ e, ((there.connectToPeripheral p info).2.2.getD
        (.error (.timeout (UInt64.ofNat timeout.asMillis)))) = .error e := by
      cases answered : (there.connectToPeripheral p info).2.2 with
      | none => exact ⟨_, rfl⟩
      | some result =>
        cases result with
        | error e => exact ⟨e, rfl⟩
        | ok found => exact absurd answered (fails found)
    obtain ⟨e, failure⟩ := error
    rw [← failed] at failure
    have still := kept e failure p (by rw [links, alone, left, decide_eq_true rfl])
    rw [held, parted, same, scans.peripheral_eq] at still
    exact other still
  · exact safe stranded

/-- A failed connection leaves no link up exactly when the search meets no peripheral that
connects and is then unusable, other than the one the transport held. -/
theorem links_kept_iff (call : ConnectCall) (timeout : Duration) (t : BtleplugTransport W) :
    (∀ fuel calls out result, call.perform fuel timeout t = some (calls, out, result) →
        LinkKept calls out result) ↔ ¬Strands call.search t := by
  constructor
  · intro kept strands
    obtain ⟨fuel, calls, out, result, returned, lost⟩ := strands.link_lost timeout
    rw [← call.perform_eq] at returned
    exact lost (kept fuel calls out result returned)
  · intro safe fuel calls out result returned
    rw [call.perform_eq] at returned
    exact searchAndConnect_linkKept safe returned

/-- A platform with one lock in reach, which answers a connect and nothing after it. -/
structure MuteLock where

instance : Platform MuteLock where
  expired _ := false
  events w := (w, .ok ())
  startScan w := (w, .ok ())
  stopScan w := (w, .ok ())
  nextEvent w := (w, some (.deviceDiscovered "lock"))
  peripheral w id := (w, .ok ⟨id⟩)
  properties w _ := (w, .ok (some ⟨none, none, fun _ => none, [saltoServiceUuid]⟩))
  connect w _ := (w, .ok ())
  discoverServices w _ := (w, .error "unreachable")
  services w _ := (w, [])
  isConnected w _ := (w, .ok true)
  disconnect w _ := (w, .ok ())

/-- The error comes back, nobody was asked to disconnect, and the transport holds nothing. -/
theorem mute_lock_stays_connected :
    ¬∀ (call : ConnectCall) (timeout : Duration) (t : BtleplugTransport MuteLock) (fuel : Nat)
      (calls : List PlatformCall) (out : BtleplugTransport MuteLock)
      (result : Except Error ConnectedLock),
      call.perform fuel timeout t = some (calls, out, result) → LinkKept calls out result := by
  intro kept
  have held := kept (.scanAndConnect none) (.fromSecs 10) ⟨⟨⟩, none, none, none, false⟩ 1 _ _ _ rfl
    _ rfl ⟨"lock"⟩ rfl
  cases held

end BtleplugTransport

end Mkey
