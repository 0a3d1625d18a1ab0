import Mkey.Ble.Gatt
import Mkey.Ble.Lock

/-!
# The driver on the desktop

The desktop transport as the one that pump and driver go by, with the clock of
its platform, and the highest-level way to open a lock with it.
-/
namespace Mkey

/-- A platform with a clock, in milliseconds. `late` tells whether a wait with that bound was given
up before its answer came. -/
class DesktopPlatform (W : Type) extends GattPlatform W where
  now : W → Nat
  late : W → Nat → Bool

/-- The manager and its adapters, the first of which is taken. -/
def BtleplugTransport.new {W : Type} (manager : Except String (Except String (List W))) :
    Except Error (BtleplugTransport W) :=
  match manager with
  | .error e => .error (gatt "Opening the Bluetooth manager" e)
  | .ok (.error e) => .error (gatt "Listing Bluetooth adapters" e)
  | .ok (.ok []) => .error .bluetoothUnavailable
  | .ok (.ok (adapter :: _)) => .ok ⟨adapter, none, none, none, false⟩

/-- A transport with all that it has asked of its platform. A search runs on fuel: a run is one of
the code's when this suffices for each of its searches. -/
structure Desktop (W : Type) where
  transport : BtleplugTransport W
  searchFuel : Nat
  log : List GattCall

namespace Desktop

variable {W : Type} [DesktopPlatform W]

def now (t : Desktop W) : Nat := DesktopPlatform.now t.transport.adapter

/-- An operation of the transport, on record. -/
def asked {α : Type} (t : Desktop W) (answered : BtleplugTransport.Answered W α) :
    Desktop W × Except Error α :=
  let (transport, calls, result) := answered
  ({ t with transport, log := t.log ++ calls }, result)

/-- An operation that is given up when its time is up first. -/
def askedBy {α : Type} (t : Desktop W) (expires : Nat)
    (answered : BtleplugTransport.Answered W α) : Desktop W × Option (Except Error α) :=
  let (t, result) := t.asked answered
  (t, if DesktopPlatform.late t.transport.adapter expires then none else some result)

def searched (t : Desktop W) (timeout : Duration)
    (found : Option (List PlatformCall × BtleplugTransport W × Except Error ConnectedLock)) :
    Desktop W × Except Error ConnectedLock :=
  match found with
  | some (calls, transport, result) =>
    t.asked (transport, BtleplugTransport.searchRecord calls transport result, result)
  | none => (t, .error (.timeout (UInt64.ofNat timeout.asMillis)))

instance : LockTransport (Desktop W) where
  now t := t.now
  sleep t ms :=
    let duration := ms.toNat * 1000000
    let adapter := GattPlatform.sleep t.transport.adapter duration
    (t.asked ({ t.transport with adapter }, [.sleep duration], .ok ())).1
  write t bytes := t.asked (t.transport.write bytes)
  subscribe t := t.asked t.transport.subscribe
  readNotifyValue t ms := t.askedBy (t.now + ms.toNat) t.transport.readNotifyValue
  receive t expires := t.askedBy expires t.transport.receive
  disconnect t := t.asked t.transport.disconnectOnRecord
  scanAndConnect t timeout filter :=
    t.searched timeout (t.transport.scanAndConnect t.searchFuel timeout filter)
  connectById t lockId timeout :=
    t.searched timeout (t.transport.connectById t.searchFuel lockId timeout)
  notifyReadable t := t.transport.notifyReadable

end Desktop

/-- `SaltoLock::new`: the driver over the first adapter. -/
def SaltoLock.new {W : Type} (manager : Except String (Except String (List W)))
    (searchFuel : Nat) : Except Error (SaltoLock (Desktop W)) :=
  (BtleplugTransport.new manager).map fun transport => withTransport ⟨transport, searchFuel, []⟩

section Sdk

variable {T : Type} [LockTransport T] (aes : BlockCipher) (os : RandomSource)

/-- `sdk::open`: the driver it leaves, its calls and its result, when the fuel suffices. -/
def sdkOpen (fuel : Nat) (created : Except Error (SaltoLock T)) (mobileKey : MobileKey)
    (lockName : Option String) (mode : OpeningMode) (scanTimeout : Option Duration) :
    Option (Option (SaltoLock T) × List LockCall × Except Error Outcome) :=
  match created with
  | .error e => some (none, [], .error e)
  | .ok lock =>
    let filter : Option LockFilter := lockName.map fun name l => l.name = some name
    let timeout := scanTimeout.or (some (.fromSecs 30))
    match lock.scanAndConnectFiltered timeout filter with
    | (lock, calls, .error e) => some (some lock, calls, .error e)
    | (lock, calls, .ok _) =>
      match lock.authenticate mobileKey with
      | (lock, more, .error e) => some (some lock, calls ++ more, .error e)
      | (lock, more, .ok ()) =>
        (lock.openObserved aes os fuel mode).map fun (lock, later, result) =>
          (some lock, calls ++ more ++ later, result)

end Sdk

end Mkey
