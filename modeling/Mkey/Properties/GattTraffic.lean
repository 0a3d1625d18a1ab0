import Mkey.Ble.Gatt
import Mkey.Lib.Log
import Mkey.Properties.Searches

/-!
# Where traffic goes

A transport is used in any order; only a link that is held is not connected over.
Every read, write and subscription then goes over a link that is up, to the right
characteristic of the peripheral it belongs to, and notifications are switched on
once for a link, behind the stream that takes them. They are received over the
link they are on for; only a disconnect that fails leaves its stream behind.
-/
namespace Mkey

def GattCall.platformCall : GattCall → Option PlatformCall
  | .platform call => some call
  | _ => none

def platformCalls (log : List GattCall) : List PlatformCall := log.filterMap (·.platformCall)

theorem platformCalls_append (front back : List GattCall) :
    platformCalls (front ++ back) = platformCalls front ++ platformCalls back :=
  List.filterMap_append

theorem platformCalls_map (calls : List PlatformCall) :
    platformCalls (calls.map GattCall.platform) = calls := by
  rw [platformCalls, List.filterMap_map]
  exact List.filterMap_some

/-- The link to a peripheral, by the calls made so far. -/
def upBy (log : List GattCall) (p : Peripheral) : Bool := linkUp p (platformCalls log)

/-- Whom a transport listens to: nobody, the peripheral over whose link notifications are on, or
one it has let go of in vain. -/
inductive Ears where
  | off
  | on (peripheral : Peripheral)
  | stranded (peripheral : Peripheral)
  deriving DecidableEq

def Ears.after (ears : Ears) : GattCall → Ears
  | .subscribe p _ (.ok ()) => .on p
  | .connected _ | .disconnected (.ok ()) => .off
  | .disconnected (.error _) =>
    match ears with
    | .on p => .stranded p
    | ears => ears
  | _ => ears

def earsOf (log : List GattCall) : Ears := log.foldl Ears.after .off

namespace BtleplugTransport

/-- What a transport can be asked for. -/
inductive Operation where
  | connect (call : ConnectCall) (fuel : Nat) (timeout : Duration)
  | scan (duration : Duration)
  | disconnect
  | write (data : List UInt8)
  | receive
  | subscribe
  | readNotifyValue
  | pause (duration : Duration)

variable {W : Type} [GattPlatform W]

/-- A pause of the caller's. -/
def pause (t : BtleplugTransport W) (duration : Duration) : BtleplugTransport W :=
  { t with adapter := GattPlatform.sleep t.adapter duration }

/-- One operation, with the calls it makes; a search may not return. -/
def perform (t : BtleplugTransport W) : Operation → Option (BtleplugTransport W × List GattCall)
  | .connect call fuel timeout =>
    (call.perform fuel timeout t).map fun (calls, t, result) => (t, searchRecord calls t result)
  | .scan duration => some ((t.scan duration).1, (t.scan duration).2.1)
  | .disconnect => some (t.disconnectOnRecord.1, t.disconnectOnRecord.2.1)
  | .write data => some ((t.write data).1, (t.write data).2.1)
  | .receive => some (t.receive.1, t.receive.2.1)
  | .subscribe => some (t.subscribe.1, t.subscribe.2.1)
  | .readNotifyValue => some (t.readNotifyValue.1, t.readNotifyValue.2.1)
  | .pause duration => some (t.pause duration, [.sleep duration])

/-- The runs of a transport that is not asked to connect while it holds a link. -/
inductive Used : BtleplugTransport W → List GattCall → Prop
  | made (adapter : W) : Used ⟨adapter, none, none, none, false⟩ []
  | performed {t next : BtleplugTransport W} {log calls : List GattCall} (operation : Operation) :
      Used t log →
      (∀ call fuel timeout, operation = .connect call fuel timeout → t.peripheral = none) →
      t.perform operation = some (next, calls) → Used next (log ++ calls)

/-- The rule for what may follow a log. -/
def Allowed (W : Type) [GattPlatform W] (log : List GattCall) : GattCall → Prop
  | .connected p => upBy log p
  | .write p c _ _ => upBy log p ∧ Lists W (platformCalls log) p saltoWriteUuid c
  | .read p c => upBy log p ∧ Lists W (platformCalls log) p saltoNotifyUuid c
  | .notifications p => upBy log p ∧ earsOf log = .off
  | .subscribe p c _ => upBy log p ∧ Lists W (platformCalls log) p saltoNotifyUuid c ∧
      earsOf log = .off ∧ log.getLast? = some (.notifications p)
  | .nextNotification =>
      (∃ p, earsOf log = .on p ∧ upBy log p) ∨ ∃ p, earsOf log = .stranded p
  | .platform _ | .disconnected _ | .sleep _ | .peripherals => True

/-- What a transport knows about its link agrees with the log. -/
structure Agrees (t : BtleplugTransport W) (log : List GattCall) : Prop where
  up : ∀ p, t.peripheral = some p → upBy log p
  write : ∀ p c, t.peripheral = some p → t.writeCharacteristic = some c →
    Lists W (platformCalls log) p saltoWriteUuid c
  notify : ∀ p c, t.peripheral = some p → t.notifyCharacteristic = some c →
    Lists W (platformCalls log) p saltoNotifyUuid c
  on : ∀ p, earsOf log = .on p → t.peripheral = some p
  listens : t.notificationStream ↔ earsOf log ≠ .off

variable {t : BtleplugTransport W} {log : List GattCall}

/-- An operation keeps to the rule and leaves the transport in agreement with the longer log. -/
def Proper (log : List GattCall) (made : BtleplugTransport W × List GattCall) : Prop :=
  Log.Keeps (Allowed W) log made.2 ∧ Agrees made.1 (log ++ made.2)

/-- Calls that are no news to the link: none that connects, disconnects or subscribes. -/
def Plain (calls : List GattCall) : Prop :=
  ∀ p up ears, (platformCalls calls).foldl (linkAfter p) up = up ∧
    calls.foldl Ears.after ears = ears

theorem Plain.upBy {more : List GattCall} (plain : Plain more) (p : Peripheral) :
    upBy (log ++ more) p = upBy log p := by
  rw [Mkey.upBy, linkUp, platformCalls_append, List.foldl_append, (plain p _ .off).1]
  rfl

theorem Plain.earsOf {more : List GattCall} (plain : Plain more) :
    earsOf (log ++ more) = earsOf log := by
  rw [Mkey.earsOf, List.foldl_append]
  exact (plain ⟨""⟩ false _).2

theorem Lists.later {p : Peripheral} {uuid : Uuid} {c : Characteristic}
    (lists : Lists W (platformCalls log) p uuid c) (more : List GattCall) :
    Lists W (platformCalls (log ++ more)) p uuid c := by
  apply lists.mono
  rw [platformCalls_append]
  exact List.subset_append_left _ _

theorem Agrees.plain {next : BtleplugTransport W} {more : List GattCall} (agrees : Agrees t log)
    (same : next.held = t.held) (plain : Plain more) : Agrees next (log ++ more) := by
  obtain ⟨peripheral, write, notify, stream⟩ : next.peripheral = t.peripheral ∧
      next.writeCharacteristic = t.writeCharacteristic ∧
      next.notifyCharacteristic = t.notifyCharacteristic ∧
      next.notificationStream = t.notificationStream := by simpa [held] using same
  refine ⟨?_, ?_, ?_, ?_, ?_⟩
  · intro p
    rw [peripheral, plain.upBy]
    exact agrees.up p
  · intro p c
    rw [peripheral, write]
    exact fun holds has => (agrees.write p c holds has).later more
  · intro p c
    rw [peripheral, notify]
    exact fun holds has => (agrees.notify p c holds has).later more
  · rw [plain.earsOf, peripheral]
    exact agrees.on
  · rw [plain.earsOf, stream]
    exact agrees.listens

/-- A transport that holds no peripheral: nothing is known of a link. -/
theorem Agrees.of_gone {next : BtleplugTransport W} {log : List GattCall}
    (gone : next.peripheral = none) (off : ∀ p, earsOf log ≠ .on p)
    (listens : next.notificationStream ↔ earsOf log ≠ .off) : Agrees next log := by
  refine ⟨?_, ?_, ?_, fun p on => absurd on (off p), listens⟩
  · intro p same
    rw [gone] at same
    cases same
  · intro p c same
    rw [gone] at same
    cases same
  · intro p c same
    rw [gone] at same
    cases same

/-- An operation that asks nothing of the platform. -/
theorem Agrees.proper_idle (agrees : Agrees t log) : Proper log (t, []) := by
  refine ⟨trivial, ?_⟩
  rw [List.append_nil]
  exact agrees

theorem Agrees.proper_write (agrees : Agrees t log) (data : List UInt8) :
    Proper log ((t.write data).1, (t.write data).2.1) := by
  unfold BtleplugTransport.write
  split
  · exact agrees.proper_idle
  next p held_ =>
    split
    · exact agrees.proper_idle
    next c equipped =>
      refine ⟨⟨⟨agrees.up p held_, agrees.write p c held_ equipped⟩, trivial⟩, ?_⟩
      exact agrees.plain rfl (fun _ _ _ => ⟨rfl, rfl⟩)

theorem Agrees.proper_readNotifyValue (agrees : Agrees t log) :
    Proper log (t.readNotifyValue.1, t.readNotifyValue.2.1) := by
  unfold readNotifyValue
  split
  · exact agrees.proper_idle
  next p held_ =>
    split
    · exact agrees.proper_idle
    next c equipped =>
      refine ⟨⟨⟨agrees.up p held_, agrees.notify p c held_ equipped⟩, trivial⟩, ?_⟩
      exact agrees.plain rfl (fun _ _ _ => ⟨rfl, rfl⟩)

theorem Agrees.proper_receive (agrees : Agrees t log) :
    Proper log (t.receive.1, t.receive.2.1) := by
  unfold receive
  split
  next streams =>
    refine ⟨⟨?_, trivial⟩, agrees.plain rfl (fun _ _ _ => ⟨rfl, rfl⟩)⟩
    have open_ := agrees.listens.mp streams
    -- there is a stream while notifications are on, or behind a disconnect in vain
    cases ears : earsOf log with
    | off => exact absurd ears open_
    | on p => exact .inl ⟨p, ears, agrees.up p (agrees.on p ears)⟩
    | stranded p => exact .inr ⟨p, ears⟩
  · exact agrees.proper_idle

theorem Agrees.proper_subscribe (agrees : Agrees t log) :
    Proper log (t.subscribe.1, t.subscribe.2.1) := by
  unfold subscribe
  split
  · exact agrees.proper_idle
  next silent =>
    have off : earsOf log = .off := by
      by_contra listening
      exact silent (agrees.listens.mpr listening)
    split
    · exact agrees.proper_idle
    next p held_ =>
      split
      · exact agrees.proper_idle
      next c equipped =>
        have streamed : Allowed W log (.notifications p) := ⟨agrees.up p held_, off⟩
        have enables (answer : Except String Unit) :
            Allowed W (log ++ [.notifications p]) (.subscribe p c answer) := by
          have opened : Plain [.notifications p] := fun _ _ _ => ⟨rfl, rfl⟩
          refine ⟨?_, (agrees.notify p c held_ equipped).later _, ?_, by simp⟩
          · rw [opened.upBy]
            exact agrees.up p held_
          · rw [opened.earsOf, off]
        split
        · exact ⟨⟨streamed, trivial⟩, agrees.plain rfl (fun _ _ _ => ⟨rfl, rfl⟩)⟩
        · split
          -- only a subscription that succeeds keeps the stream it was made for
          next w e _ =>
            exact ⟨⟨streamed, enables (.error e), trivial⟩,
              agrees.plain rfl (fun _ _ _ => ⟨rfl, rfl⟩)⟩
          · have ears : earsOf (log ++ [.notifications p, .subscribe p c (.ok ()),
                .sleep subscribeSettle]) = .on p := by
              rw [earsOf, List.foldl_append]
              rfl
            refine ⟨⟨streamed, enables (.ok ()), trivial, trivial⟩, ?_, ?_, ?_, ?_, ?_⟩
            · intro q same
              have up := agrees.up q same
              rwa [upBy, platformCalls_append, show platformCalls [.notifications p,
                .subscribe p c (.ok ()), .sleep subscribeSettle] = [] from rfl, List.append_nil]
            · exact fun q d same has => (agrees.write q d same has).later _
            · exact fun q d same has => (agrees.notify q d same has).later _
            · rw [ears]
              rintro q ⟨⟩
              exact held_
            · rw [ears]
              exact ⟨fun _ => Ears.noConfusion, fun _ => rfl⟩

/-! ### Finding and losing a link -/

theorem keeps_platform (calls : List PlatformCall) :
    Log.Keeps (Allowed W) log (calls.map .platform) := by
  apply Log.keeps_of_forall
  intro call member before
  obtain ⟨_, _, rfl⟩ := List.mem_map.mp member
  trivial

/-- Only the ends of operations change whom a transport listens to. -/
theorem earsOf_platform (log : List GattCall) (calls : List PlatformCall) :
    earsOf (log ++ calls.map .platform) = earsOf log := by
  rw [earsOf, List.foldl_append]
  induction calls generalizing log with
  | nil => rfl
  | cons call rest ih => exact ih log

/-- A transport lets go of its peripheral, whatever becomes of the link. -/
theorem disconnect_peripheral (t : BtleplugTransport W) : t.disconnect.1.peripheral = none := by
  unfold BtleplugTransport.disconnect
  split
  next nothing => exact nothing
  · dsimp only
    split
    · rfl
    · rfl
    · split
      · rfl
      · rfl

/-- A disconnect that succeeds closes the notification stream, one that fails leaves it as it
was. -/
theorem disconnect_stream (t : BtleplugTransport W) :
    t.disconnect.1.notificationStream =
      match t.disconnect.2.2 with
      | .ok _ => false
      | .error _ => t.notificationStream := by
  unfold BtleplugTransport.disconnect
  split
  · rfl
  · dsimp only
    split
    · rfl
    · rfl
    · split
      · rfl
      · rfl

theorem Agrees.proper_disconnect (agrees : Agrees t log) :
    Proper log (t.disconnectOnRecord.1, t.disconnectOnRecord.2.1) := by
  have gone : t.disconnectOnRecord.1.peripheral = none := disconnect_peripheral t
  have stream : t.disconnectOnRecord.1.notificationStream =
      match t.disconnectOnRecord.2.2 with
      | .ok _ => false
      | .error _ => t.notificationStream := disconnect_stream t
  have record : t.disconnectOnRecord.2.1 =
      t.disconnect.2.1.map .platform ++ [.disconnected t.disconnectOnRecord.2.2] := rfl
  have ears : earsOf (log ++ t.disconnectOnRecord.2.1) =
      (earsOf log).after (.disconnected t.disconnectOnRecord.2.2) := by
    rw [record, ← List.append_assoc, earsOf, List.foldl_concat, ← earsOf, earsOf_platform]
  refine ⟨?_, Agrees.of_gone gone ?_ ?_⟩
  · rw [record]
    exact Log.keeps_append.mpr ⟨keeps_platform _, trivial, trivial⟩
  · rw [ears]
    cases t.disconnectOnRecord.2.2 with
    | ok done => simp [Ears.after]
    | error e => cases earsOf log <;> simp [Ears.after]
  · rw [ears, stream]
    -- the stream outlives a disconnect in vain, and then it is the stranded one
    cases t.disconnectOnRecord.2.2 with
    | ok done => simp [Ears.after]
    | error e =>
      refine agrees.listens.trans ?_
      cases earsOf log <;> simp [Ears.after]

/-- What a scan does, and no more. -/
def GattCall.scans : GattCall → Bool
  | .platform call => !call.touchesLink
  | .sleep _ | .peripherals => true
  | _ => false

theorem plain_of_scans {calls : List GattCall} (scanned : ∀ c ∈ calls, GattCall.scans c) :
    Plain calls := by
  intro p up ears
  induction calls with
  | nil => exact ⟨rfl, rfl⟩
  | cons c rest ih =>
    have here := scanned c List.mem_cons_self
    have later := ih fun d member => scanned d (List.mem_cons_of_mem c member)
    cases c with
    | sleep | peripherals => exact later
    | connected | disconnected | write | notifications | nextNotification | subscribe | read =>
      cases here
    | platform call =>
      cases call with
      | connect | disconnect => cases here
      | _ => exact later

theorem keeps_of_scans {calls : List GattCall} (scanned : ∀ c ∈ calls, GattCall.scans c) :
    Log.Keeps (Allowed W) log calls := by
  apply Log.keeps_of_forall
  intro c member before
  have scans := scanned c member
  cases c with
  | platform | sleep | peripherals => trivial
  | connected | disconnected | write | notifications | nextNotification | subscribe | read =>
    cases scans

theorem recogniseAll_scans (w : W) (peripherals : List Peripheral) :
    ∀ c ∈ (recogniseAll w peripherals).2.1, GattCall.scans c := by
  induction peripherals generalizing w with
  | nil => simp [recogniseAll]
  | cons p rest ih =>
    rw [recogniseAll]
    intro c member
    rcases List.mem_cons.mp member with rfl | later
    · rfl
    · exact ih _ c later

theorem scan_scans (t : BtleplugTransport W) (duration : Duration) :
    (t.scan duration).1.held = t.held ∧ ∀ c ∈ (t.scan duration).2.1, GattCall.scans c := by
  unfold scan
  split
  · exact ⟨rfl, by simp [GattCall.scans, PlatformCall.touchesLink]⟩
  · dsimp only
    split
    · exact ⟨rfl, by simp [GattCall.scans, PlatformCall.touchesLink]⟩
    · split
      · exact ⟨rfl, by simp [GattCall.scans, PlatformCall.touchesLink]⟩
      next w _ w' peripherals _ =>
        refine ⟨rfl, ?_⟩
        have listed := recogniseAll_scans w' peripherals
        simpa [GattCall.scans, PlatformCall.touchesLink] using listed

theorem Agrees.proper_scan (agrees : Agrees t log) (duration : Duration) :
    Proper log ((t.scan duration).1, (t.scan duration).2.1) := by
  obtain ⟨same, scanned⟩ := scan_scans t duration
  exact ⟨keeps_of_scans scanned, agrees.plain same (plain_of_scans scanned)⟩

/-- A link that was up before ends up no other way than down. -/
theorem linkAfter_mono (p : Peripheral) {before after : Bool} (less : before → after)
    (call : PlatformCall) : linkAfter p before call → linkAfter p after call := by
  cases call with
  | connect q answer =>
    rcases answer with _ | e | done
    · exact less
    · exact less
    · simp only [linkAfter, Bool.or_eq_true]
      exact Or.imp_left less
  | disconnect q =>
    simp only [linkAfter, Bool.and_eq_true]
    exact And.imp_left less
  | _ => exact less

theorem foldl_linkAfter_mono (p : Peripheral) (calls : List PlatformCall) {before after : Bool}
    (less : before → after) (up : calls.foldl (linkAfter p) before = true) :
    calls.foldl (linkAfter p) after = true := by
  induction calls generalizing before after with
  | nil => exact less up
  | cons call rest ih => exact ih (linkAfter_mono p less call) up

/-- What a stretch of calls brings up is up whatever was before. -/
theorem upBy_platform (log : List GattCall) (calls : List PlatformCall) (p : Peripheral)
    (up : linkUp p calls) : upBy (log ++ calls.map .platform) p := by
  rw [upBy, linkUp, platformCalls_append, platformCalls_map, List.foldl_append]
  exact @foldl_linkAfter_mono p calls false _ Bool.noConfusion up

theorem Agrees.proper_connect (agrees : Agrees t log) (free : t.peripheral = none)
    {call : ConnectCall} {fuel : Nat} {timeout : Duration} {out : BtleplugTransport W}
    {calls : List PlatformCall} {result : Except Error ConnectedLock}
    (returned : call.perform fuel timeout t = some (calls, out, result)) :
    Proper log (out, searchRecord calls out result) := by
  rw [call.perform_eq] at returned
  cases result with
  | error e =>
    have same := searchAndConnect_held returned
    simp only [held, Prod.mk.injEq] at same
    -- what was held before was nothing, so no stream is on
    obtain ⟨peripheral, _, _, stream⟩ := same
    have record : searchRecord calls out (.error e) = calls.map .platform := List.append_nil _
    rw [record]
    refine ⟨keeps_platform calls, Agrees.of_gone (peripheral.trans free) ?_ ?_⟩
    · intro p
      rw [earsOf_platform]
      intro on
      rw [agrees.on p on] at free
      cases free
    · rw [earsOf_platform, stream]
      exact agrees.listens
  | ok found =>
    cases searchAndConnect_attempted returned with
    | nothing _ failed => exact absurd rfl (failed found)
    | one p props info answer front back _ _ _ _ _ _ succeeds =>
      obtain ⟨_, holds, up⟩ := succeeds found rfl
      obtain ⟨write, equipped, writes⟩ := holds.write
      obtain ⟨notify, equipped', notifies⟩ := holds.notify
      have record : searchRecord calls out (.ok found) =
          calls.map .platform ++ [.connected p] := by
        simp only [searchRecord, holds.peripheral]
      have made : platformCalls (log ++ searchRecord calls out (.ok found)) =
          platformCalls log ++ calls := by
        rw [record, ← List.append_assoc, platformCalls_append, platformCalls_append,
          platformCalls_map]
        exact List.append_nil _
      have linked : upBy (log ++ calls.map .platform) p := upBy_platform log calls p up
      have ears : earsOf (log ++ searchRecord calls out (.ok found)) = .off := by
        rw [record, ← List.append_assoc, earsOf, List.foldl_concat]
        rfl
      refine ⟨?_, ?_, ?_, ?_, ?_, ?_⟩
      · rw [record]
        exact Log.keeps_append.mpr ⟨keeps_platform calls, linked, trivial⟩
      · intro q same
        obtain rfl : p = q := Option.some.inj (holds.peripheral.symm.trans same)
        rw [upBy, made]
        rwa [upBy, platformCalls_append, platformCalls_map] at linked
      · intro q c same has
        obtain rfl : p = q := Option.some.inj (holds.peripheral.symm.trans same)
        obtain rfl : write = c := Option.some.inj (equipped.symm.trans has)
        rw [made]
        exact writes.mono (List.subset_append_right _ _)
      · intro q c same has
        obtain rfl : p = q := Option.some.inj (holds.peripheral.symm.trans same)
        obtain rfl : notify = c := Option.some.inj (equipped'.symm.trans has)
        rw [made]
        exact notifies.mono (List.subset_append_right _ _)
      · rw [ears]
        exact fun _ => Ears.noConfusion
      · rw [ears, holds.silent]
        simp

theorem Agrees.perform (agrees : Agrees t log) {operation : Operation}
    {next : BtleplugTransport W} {calls : List GattCall}
    (free : ∀ call fuel timeout, operation = .connect call fuel timeout → t.peripheral = none)
    (performed : t.perform operation = some (next, calls)) : Proper log (next, calls) := by
  cases operation with
  | connect call fuel timeout =>
    simp only [BtleplugTransport.perform, Option.map_eq_some_iff, Prod.exists, Prod.mk.injEq]
      at performed
    obtain ⟨made, out, result, returned, rfl, rfl⟩ := performed
    exact agrees.proper_connect (free call fuel timeout rfl) returned
  | scan duration =>
    cases performed
    exact agrees.proper_scan duration
  | disconnect =>
    cases performed
    exact agrees.proper_disconnect
  | write data =>
    cases performed
    exact agrees.proper_write data
  | receive =>
    cases performed
    exact agrees.proper_receive
  | subscribe =>
    cases performed
    exact agrees.proper_subscribe
  | readNotifyValue =>
    cases performed
    exact agrees.proper_readNotifyValue
  | pause duration =>
    cases performed
    exact ⟨⟨trivial, trivial⟩, agrees.plain rfl (fun _ _ _ => ⟨rfl, rfl⟩)⟩

theorem Used.keeps (used : Used t log) : Log.Keeps (Allowed W) [] log := by
  -- the rule alone is not inductive: what the transport knows of its link goes with it
  have proper : Log.Keeps (Allowed W) [] log ∧ Agrees t log := by
    induction used with
    | made adapter =>
      refine ⟨trivial, Agrees.of_gone rfl (fun _ => Ears.noConfusion) ?_⟩
      exact ⟨Bool.noConfusion, fun listening => absurd rfl listening⟩
    | performed operation _ free performed ih =>
      obtain ⟨keeps, agrees⟩ := ih
      obtain ⟨keeps', agrees'⟩ := agrees.perform free performed
      exact ⟨Log.keeps_append.mpr ⟨keeps, keeps'⟩, agrees'⟩
  exact proper.1

/-- In every run of a transport that is not connected over a link it holds, all traffic goes over
a link that is up, to the characteristic for it of the peripheral it belongs to; notifications are
switched on once for a link, right behind their stream, and received over the link they are on
for, or from the stream that a disconnect in vain has left behind. -/
theorem gatt_traffic (used : Used t log) :
    ∀ front call back, log = front ++ call :: back → Allowed W front call :=
  fun front call back split => Log.keeps_iff.mp used.keeps front call back split

instance : GattPlatform OneLock where
  sleep w _ := w
  peripherals w := (w, .ok [⟨"lock"⟩])
  acknowledges _ _ := true
  write w _ _ _ _ := (w, .ok ())
  notifications w _ := (w, .ok ())
  nextNotification w := (w, some [0x00, 0x01])
  subscribe w _ _ := (w, .ok ())
  read w _ _ := (w, .ok [0x01, 0x00, 0x02])

theorem gatt_traffic_one_lock :
    ∃ (t : BtleplugTransport OneLock) (log : List GattCall), Used t log ∧
      .nextNotification ∈ log ∧
      .write ⟨"lock"⟩ ⟨saltoWriteUuid, false⟩ [0x00, 0x00] .withResponse ∈ log ∧
      ∀ front call back, log = front ++ call :: back → Allowed OneLock front call := by
  have connected : ∃ (t : BtleplugTransport OneLock) (log : List GattCall), Used t log ∧
      t.peripheral = some ⟨"lock"⟩ ∧ t.writeCharacteristic = some ⟨saltoWriteUuid, false⟩ ∧
      t.notifyCharacteristic = some ⟨saltoNotifyUuid, true⟩ ∧ t.notificationStream = false :=
    ⟨_, _, .performed (.connect (.connectById "lock") 1 (.fromSecs 10)) (.made ⟨⟩)
      (fun _ _ _ _ => rfl) rfl, rfl, rfl, rfl, rfl⟩
  obtain ⟨⟨w, _, _, _, _⟩, log, used, rfl, rfl, rfl, rfl⟩ := connected
  have subscribed := Used.performed .subscribe used nofun rfl
  have received := Used.performed .receive subscribed nofun rfl
  have written := Used.performed (.write [0x00, 0x00]) received nofun rfl
  refine ⟨_, _, written, ?_, List.mem_append_right _ List.mem_cons_self, gatt_traffic written⟩
  exact List.mem_append_left _ (List.mem_append_right _ List.mem_cons_self)

end BtleplugTransport

end Mkey
