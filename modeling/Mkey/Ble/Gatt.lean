import Mkey.Ble.Btleplug

/-!
# Traffic of the desktop transport

What goes over a link once it is there. The platform answers as it likes; every
call made to it is on record, with the answer where the link depends on it.
-/
namespace Mkey

inductive WriteType where
  | withResponse
  | withoutResponse
  deriving DecidableEq

/-- The calls of the platform over a link, and the list of what has been seen. `acknowledges` is
the WRITE property of a characteristic. -/
class GattPlatform (W : Type) extends Platform W where
  sleep : W → Duration → W
  peripherals : W → W × Except String (List Peripheral)
  acknowledges : W → Characteristic → Bool
  write : W → Peripheral → Characteristic → List UInt8 → WriteType → W × Except String Unit
  notifications : W → Peripheral → W × Except String Unit
  nextNotification : W → W × Option (List UInt8)
  subscribe : W → Peripheral → Characteristic → W × Except String Unit
  read : W → Peripheral → Characteristic → W × Except String (List UInt8)

/-- What a transport asks of its platform, and behind a connect or a disconnect of its own what
that came to. -/
inductive GattCall where
  | platform (call : PlatformCall)
  | connected (peripheral : Peripheral)
  | disconnected (result : Except Error Unit)
  | sleep (duration : Duration)
  | peripherals
  | write (peripheral : Peripheral) (characteristic : Characteristic) (data : List UInt8)
      (writeType : WriteType)
  | notifications (peripheral : Peripheral)
  | nextNotification
  | subscribe (peripheral : Peripheral) (characteristic : Characteristic)
      (answer : Except String Unit)
  | read (peripheral : Peripheral) (characteristic : Characteristic)

namespace BtleplugTransport

/-- How long a subscription is given to settle. -/
def subscribeSettle : Duration := 50 * 1000000

variable {W : Type} [GattPlatform W]

/-- A transport, the calls an operation has made, and its result. -/
abbrev Answered (W α : Type) := BtleplugTransport W × List GattCall × Except Error α

/-- The locks among the peripherals seen; one that does not tell its properties is passed over. -/
def recogniseAll (w : W) : List Peripheral → W × List GattCall × List DiscoveredLock
  | [] => (w, [], [])
  | peripheral :: rest =>
    let (w, answer) := Platform.properties w peripheral
    let found := match answer with
      | .ok (some props) => tryParseSaltoLock peripheral props
      | .ok none | .error _ => none
    let (w, calls, locks) := recogniseAll w rest
    (w, .platform (.properties peripheral (some answer)) :: calls, found.toList ++ locks)

def scan (t : BtleplugTransport W) (duration : Duration) : Answered W (List DiscoveredLock) :=
  match Platform.startScan t.adapter with
  | (w, .error e) =>
    ({ t with adapter := w }, [.platform .startScan], .error (gatt "Starting a scan" e))
  | (w, .ok ()) =>
    let w := GattPlatform.sleep w duration
    let calls := [.platform .startScan, .sleep duration, .platform .stopScan]
    match Platform.stopScan w with
    | (w, .error e) => ({ t with adapter := w }, calls, .error (gatt "Stopping the scan" e))
    | (w, .ok ()) =>
      match GattPlatform.peripherals w with
      | (w, .error e) =>
        ({ t with adapter := w }, calls ++ [.peripherals], .error (gatt "Listing peripherals" e))
      | (w, .ok peripherals) =>
        let (w, more, locks) := recogniseAll w peripherals
        ({ t with adapter := w }, calls ++ .peripherals :: more, .ok locks)

/-- A search on record; one that succeeds leaves the transport with a peripheral. -/
def searchRecord (calls : List PlatformCall) (t : BtleplugTransport W)
    (result : Except Error ConnectedLock) : List GattCall :=
  calls.map .platform ++
    match result, t.peripheral with
    | .ok _, some peripheral => [.connected peripheral]
    | _, _ => []

def disconnectOnRecord (t : BtleplugTransport W) : Answered W Unit :=
  let (t, calls, result) := t.disconnect
  (t, calls.map .platform ++ [.disconnected result], result)

def write (t : BtleplugTransport W) (data : List UInt8) : Answered W Unit :=
  match t.peripheral with
  | none => (t, [], .error .disconnected)
  | some peripheral =>
    match t.writeCharacteristic with
    | none => (t, [], .error .disconnected)
    | some characteristic =>
      let writeType :=
        if GattPlatform.acknowledges t.adapter characteristic then WriteType.withResponse
        else .withoutResponse
      let (w, answer) := GattPlatform.write t.adapter peripheral characteristic data writeType
      ({ t with adapter := w }, [.write peripheral characteristic data writeType],
        answer.mapError (gatt "Writing"))

def receive (t : BtleplugTransport W) : Answered W (Option (List UInt8)) :=
  if t.notificationStream then
    let (w, notification) := GattPlatform.nextNotification t.adapter
    ({ t with adapter := w }, [.nextNotification], .ok notification)
  else (t, [], .error .disconnected)

def subscribe (t : BtleplugTransport W) : Answered W Unit :=
  if t.notificationStream then (t, [], .ok ())
  else
    match t.peripheral with
    | none => (t, [], .error .disconnected)
    | some peripheral =>
      match t.notifyCharacteristic with
      | none => (t, [], .error .disconnected)
      | some characteristic =>
        -- the stream comes first, or the first notification is lost
        match GattPlatform.notifications t.adapter peripheral with
        | (w, .error e) =>
          ({ t with adapter := w }, [.notifications peripheral],
            .error (gatt "Opening the notification stream" e))
        | (w, .ok ()) =>
          match GattPlatform.subscribe w peripheral characteristic with
          | (w, .error e) =>
            ({ t with adapter := w },
              [.notifications peripheral, .subscribe peripheral characteristic (.error e)],
              .error (gatt "Enabling notifications" e))
          | (w, .ok ()) =>
            ({ t with adapter := GattPlatform.sleep w subscribeSettle, notificationStream := true },
              [.notifications peripheral, .subscribe peripheral characteristic (.ok ()),
                .sleep subscribeSettle], .ok ())

def readNotifyValue (t : BtleplugTransport W) : Answered W (List UInt8) :=
  match t.peripheral with
  | none => (t, [], .error .disconnected)
  | some peripheral =>
    match t.notifyCharacteristic with
    | none => (t, [], .error .disconnected)
    | some characteristic =>
      let (w, answer) := GattPlatform.read t.adapter peripheral characteristic
      ({ t with adapter := w }, [.read peripheral characteristic],
        answer.mapError (gatt "Reading"))

end BtleplugTransport

end Mkey
