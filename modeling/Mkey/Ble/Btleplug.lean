import Mkey.Ble.Advertisement
import Mkey.Lib.Loop

/-!
# The desktop transport

Finding a lock and connecting to it over the platform's Bluetooth stack. The
platform answers every call as it likes, or not before the deadline the search
runs under; every call made to it is on record.
-/
namespace Mkey

/-- A peripheral as the adapter hands it out, known by its id. -/
structure Peripheral where
  id : String
  deriving DecidableEq

structure Characteristic where
  uuid : Uuid
  readable : Bool
  deriving DecidableEq

structure Service where
  uuid : Uuid
  characteristics : List Characteristic
  deriving DecidableEq

structure PeripheralProperties where
  localName : Option String
  rssi : Option Int16
  manufacturerData : UInt16 → Option (List UInt8)
  services : List Uuid

inductive CentralEvent where
  | deviceDiscovered (id : String)
  | deviceUpdated (id : String)
  | other
  deriving DecidableEq

/-- The calls of the platform; a failure is a text. `expired` tells whether the deadline of the
search has passed by the time a call is over. -/
class Platform (W : Type) where
  expired : W → Bool
  events : W → W × Except String Unit
  startScan : W → W × Except String Unit
  stopScan : W → W × Except String Unit
  nextEvent : W → W × Option CentralEvent
  peripheral : W → String → W × Except String Peripheral
  properties : W → Peripheral → W × Except String (Option PeripheralProperties)
  connect : W → Peripheral → W × Except String Unit
  discoverServices : W → Peripheral → W × Except String Unit
  services : W → Peripheral → W × List Service
  isConnected : W → Peripheral → W × Except String Bool
  disconnect : W → Peripheral → W × Except String Unit

/-- A call on record, with the answer that came in time where something depends on it. -/
inductive PlatformCall where
  | events
  | startScan
  | stopScan
  | nextEvent
  | peripheral (id : String)
  | properties (peripheral : Peripheral)
      (answer : Option (Except String (Option PeripheralProperties)))
  | connect (peripheral : Peripheral) (answer : Option (Except String Unit))
  | discoverServices (peripheral : Peripheral)
  | services (peripheral : Peripheral) (answer : List Service)
  | isConnected (peripheral : Peripheral)
  | disconnect (peripheral : Peripheral)

/-- The notification stream itself is the platform's: here it is there or not. -/
structure BtleplugTransport (W : Type) where
  adapter : W
  peripheral : Option Peripheral
  writeCharacteristic : Option Characteristic
  notifyCharacteristic : Option Characteristic
  notificationStream : Bool

/-- A platform failure keeps its text, behind what failed. -/
def gatt (what e : String) : Error := .gattOperationFailed s!"{what} failed: {e}"

namespace BtleplugTransport

variable {W : Type}

/-- The transport and the calls a step has made, with its result if that came in time. -/
abbrev Progress (W α : Type) := BtleplugTransport W × List PlatformCall × Option (Except Error α)

/-- Calls made before the rest of a step. -/
def andThen {α : Type} (calls : List PlatformCall) (rest : Progress W α) : Progress W α :=
  (rest.1, calls ++ rest.2.1, rest.2.2)

def tryParseSaltoLock (peripheral : Peripheral) (props : PeripheralProperties) :
    Option DiscoveredLock :=
  (discoverByManufacturerData peripheral.id props.localName props.rssi
    props.manufacturerData).or
    (discoverByServiceUuid peripheral.id props.localName props.rssi props.services)

def isConnected (t : BtleplugTransport W) : Bool := t.peripheral.isSome

def notifyReadable (t : BtleplugTransport W) : Bool := t.notifyCharacteristic.any (·.readable)

variable [Platform W]

/-- An answer the search waits for: none if its deadline passes first. -/
def within {α : Type} (answered : W × α) : W × Option α :=
  (answered.1, if Platform.expired answered.1 then none else some answered.2)

def findCharacteristic (w : W) (peripheral : Peripheral) (uuid : Uuid) :
    W × Except Error Characteristic :=
  let (w, services) := Platform.services w peripheral
  match (services.flatMap Service.characteristics).find? fun c => c.uuid = uuid with
  | some found => (w, .ok found)
  | none => (w, .error (.characteristicNotFound uuid.toString))

/-- Once the service is there: both characteristics, and only then the link is the transport's. -/
def takeOver (t : BtleplugTransport W) (peripheral : Peripheral) (info : DiscoveredLock) :
    Progress W ConnectedLock :=
  let listing (w : W) : PlatformCall := .services peripheral (Platform.services w peripheral).2
  match findCharacteristic t.adapter peripheral saltoWriteUuid with
  | (w, .error e) => ({ t with adapter := w }, [listing t.adapter], some (.error e))
  | (w, .ok write) =>
    let calls := [listing t.adapter, listing w]
    match findCharacteristic w peripheral saltoNotifyUuid with
    | (w, .error e) => ({ t with adapter := w }, calls, some (.error e))
    | (w, .ok notify) =>
      ({ adapter := w, peripheral := some peripheral, writeCharacteristic := some write,
         notifyCharacteristic := some notify, notificationStream := false },
        calls, some (.ok ⟨info⟩))

/-- Once the link is up: its services, and whether the lock's is among them. -/
def checkService (t : BtleplugTransport W) (peripheral : Peripheral) (info : DiscoveredLock) :
    Progress W ConnectedLock :=
  match within (Platform.discoverServices t.adapter peripheral) with
  | (w, none) => ({ t with adapter := w }, [.discoverServices peripheral], none)
  | (w, some (.error e)) =>
    ({ t with adapter := w }, [.discoverServices peripheral],
      some (.error (gatt "Discovering services" e)))
  | (w, some (.ok ())) =>
    let (w, services) := Platform.services w peripheral
    let calls := [.discoverServices peripheral, .services peripheral services]
    if services.any fun s => s.uuid = saltoServiceUuid then
      andThen calls (takeOver { t with adapter := w } peripheral info)
    else
      -- a peripheral that is no lock after all is let go of
      let (w, answer) := within (Platform.disconnect w peripheral)
      ({ t with adapter := w }, calls ++ [.disconnect peripheral], answer.map fun
        | .error e => .error (gatt "Disconnecting" e)
        | .ok () => .error (.serviceNotFound saltoServiceUuid.toString))

def connectToPeripheral (t : BtleplugTransport W) (peripheral : Peripheral)
    (info : DiscoveredLock) : Progress W ConnectedLock :=
  match within (Platform.connect t.adapter peripheral) with
  | (w, none) => ({ t with adapter := w }, [.connect peripheral none], none)
  | (w, some (.error e)) =>
    ({ t with adapter := w }, [.connect peripheral (some (.error e))],
      some (.error (gatt "Connecting" e)))
  | (w, some (.ok ())) =>
    andThen [.connect peripheral (some (.ok ()))]
      (checkService { t with adapter := w } peripheral info)

/-- What a search looks for: which peripherals it asks about themselves, and which of the locks
it recognises it connects to. -/
structure Search where
  considers : Peripheral → Bool
  accepts : DiscoveredLock → Bool

/-- What the next event of a search comes to. -/
inductive Sighting (W : Type) where
  | nothing (t : BtleplugTransport W)
  | late (t : BtleplugTransport W)
  | over (t : BtleplugTransport W)
  | lock (t : BtleplugTransport W) (peripheral : Peripheral) (info : DiscoveredLock)

/-- A peripheral seen: its properties, the lock they make it, and the scan stopped for it. -/
def inspect (search : Search) (t : BtleplugTransport W) (peripheral : Peripheral) :
    List PlatformCall × Sighting W :=
  if search.considers peripheral then
    match within (Platform.properties t.adapter peripheral) with
    | (w, none) => ([.properties peripheral none], .late { t with adapter := w })
    | (w, some (.ok (some props))) =>
      let told : PlatformCall := .properties peripheral (some (.ok (some props)))
      match (tryParseSaltoLock peripheral props).filter search.accepts with
      | some info =>
        -- whether the scan did stop does not matter
        match within (Platform.stopScan w) with
        | (w, none) => ([told, .stopScan], .late { t with adapter := w })
        | (w, some _) => ([told, .stopScan], .lock { t with adapter := w } peripheral info)
      | none => ([told], .nothing { t with adapter := w })
    | (w, some answer) =>
      ([.properties peripheral (some answer)], .nothing { t with adapter := w })
  else ([], .nothing t)

def nextSighting (search : Search) (t : BtleplugTransport W) : List PlatformCall × Sighting W :=
  match within (Platform.nextEvent t.adapter) with
  | (w, none) => ([.nextEvent], .late { t with adapter := w })
  | (w, some none) => ([.nextEvent], .over { t with adapter := w })
  | (w, some (some .other)) => ([.nextEvent], .nothing { t with adapter := w })
  | (w, some (some (.deviceDiscovered id))) | (w, some (some (.deviceUpdated id))) =>
    match within (Platform.peripheral w id) with
    | (w, none) => ([.nextEvent, .peripheral id], .late { t with adapter := w })
    | (w, some (.error _)) => ([.nextEvent, .peripheral id], .nothing { t with adapter := w })
    | (w, some (.ok peripheral)) =>
      let (calls, sighting) := inspect search { t with adapter := w } peripheral
      (.nextEvent :: .peripheral id :: calls, sighting)

/-- One turn of a search, under its deadline. -/
def searchTurn (search : Search) (t : BtleplugTransport W) :
    List PlatformCall ×
      (BtleplugTransport W ⊕ BtleplugTransport W × Option (Except Error ConnectedLock)) :=
  match nextSighting search t with
  | (calls, .nothing t) => (calls, .inl t)
  | (calls, .late t) => (calls, .inr (t, none))
  | (calls, .over t) => (calls, .inr (t, some (.error .noLocksFound)))
  | (calls, .lock t peripheral info) =>
    let (t, more, result) := connectToPeripheral t peripheral info
    (calls ++ more, .inr (t, result))

/-- The events are watched and the scan started before the deadline runs. -/
def watch (t : BtleplugTransport W) : BtleplugTransport W × List PlatformCall × Except Error Unit :=
  match Platform.events t.adapter with
  | (w, .error e) => ({ t with adapter := w }, [.events], .error (gatt "Watching for devices" e))
  | (w, .ok ()) =>
    match Platform.startScan w with
    | (w, .error e) =>
      ({ t with adapter := w }, [.events, .startScan], .error (gatt "Starting a scan" e))
    | (w, .ok ()) => ({ t with adapter := w }, [.events, .startScan], .ok ())

/-- What both ways to connect have in common, when the fuel suffices. -/
def searchAndConnect (search : Search) (fuel : Nat) (timeout : Duration)
    (t : BtleplugTransport W) :
    Option (List PlatformCall × BtleplugTransport W × Except Error ConnectedLock) :=
  match t.watch with
  | (t, calls, .error e) => some (calls, t, .error e)
  | (t, calls, .ok ()) =>
    (Loop.run (searchTurn search) fuel t).map fun (more, t, result) =>
      let (w, _) := Platform.stopScan t.adapter
      (calls ++ more ++ [.stopScan], { t with adapter := w },
        result.getD (.error (.timeout (UInt64.ofNat timeout.asMillis))))

def scanAndConnect (fuel : Nat) (timeout : Duration) (filter : Option LockFilter)
    (t : BtleplugTransport W) :
    Option (List PlatformCall × BtleplugTransport W × Except Error ConnectedLock) :=
  t.searchAndConnect ⟨fun _ => true, fun info => (filter.map fun f => f info).getD true⟩ fuel
    timeout

def connectById (fuel : Nat) (lockId : String) (timeout : Duration) (t : BtleplugTransport W) :
    Option (List PlatformCall × BtleplugTransport W × Except Error ConnectedLock) :=
  t.searchAndConnect ⟨fun peripheral => peripheral.id == lockId, fun _ => true⟩ fuel timeout

/-- The link is dropped from the transport first, so a failure leaves it there for nobody. -/
def disconnect (t : BtleplugTransport W) :
    BtleplugTransport W × List PlatformCall × Except Error Unit :=
  match t.peripheral with
  | none =>
    ({ t with writeCharacteristic := none, notifyCharacteristic := none,
              notificationStream := false }, [], .ok ())
  | some peripheral =>
    let t := { t with peripheral := none }
    let cleared (w : W) : BtleplugTransport W :=
      { t with adapter := w, writeCharacteristic := none, notifyCharacteristic := none,
               notificationStream := false }
    match Platform.isConnected t.adapter peripheral with
    | (w, .error e) =>
      ({ t with adapter := w }, [.isConnected peripheral], .error (gatt "Checking the link" e))
    | (w, .ok false) => (cleared w, [.isConnected peripheral], .ok ())
    | (w, .ok true) =>
      match Platform.disconnect w peripheral with
      | (w, .error e) =>
        ({ t with adapter := w }, [.isConnected peripheral, .disconnect peripheral],
          .error (gatt "Disconnecting" e))
      | (w, .ok ()) => (cleared w, [.isConnected peripheral, .disconnect peripheral], .ok ())

end BtleplugTransport

end Mkey
