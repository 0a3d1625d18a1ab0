import Mkey.Core.Crypto

/-! What a lock says about itself before anyone connects, and how it is recognised by it. -/
namespace Mkey

/-- Sixteen bytes, printed in five groups. -/
abbrev Uuid := Block

namespace Uuid

def toString (uuid : Uuid) : String :=
  let group (start size : Nat) : String := Hex.encode ((uuid.toList.drop start).take size)
  s!"{group 0 4}-{group 4 2}-{group 6 2}-{group 8 2}-{group 10 6}"

/-- The UUIDs of the lock differ in their fourth byte. -/
def salto (number : UInt8) : Uuid :=
  ⟨[0xB6, 0xE6, 0x00, number, 0xE2, 0xE3, 0xBC, 0x82,
    0x4C, 0x72, 0x92, 0x9D, 0x0D, 0x29, 0xCA, 0x17], rfl⟩

end Uuid

def saltoServiceUuid : Uuid := .salto 0x01
def saltoNotifyUuid : Uuid := .salto 0x02
def saltoWriteUuid : Uuid := .salto 0x03

/-- Company identifier of the manufacturer record. -/
def saltoManufacturerId : UInt16 := 0x0199

inductive Rf3State where
  | off
  | ini
  | link
  | lost
  deriving DecidableEq

def Rf3State.fromBits (bits : UInt8) : Rf3State :=
  if bits = 0 then off
  else if bits = 1 then ini
  else if bits = 2 then link
  else if bits = 3 then lost
  else off

structure ProtocolFlags where
  remote : Bool
  hasMessages : Bool
  rf3State : Rf3State
  deriving DecidableEq

namespace ProtocolFlags

def default : ProtocolFlags := ⟨false, false, .off⟩

def fromByte (byte : UInt8) : ProtocolFlags :=
  { remote := byte &&& 0x01 != 0
    hasMessages := byte &&& 0x04 != 0
    rf3State := .fromBits ((byte >>> 4) &&& 0x03) }

end ProtocolFlags

structure SaltoAdvertisement where
  protocolVersion : UInt8
  flags : ProtocolFlags
  deriving DecidableEq

/-- Version, one reserved byte, flags. -/
def parseSaltoAdvertisement : List UInt8 → Option SaltoAdvertisement
  | version :: _ :: flags :: _ => some ⟨version, .fromByte flags⟩
  | _ => none

structure DiscoveredLock where
  id : String
  name : Option String
  rssi : Option Int16
  protocolVersion : UInt8
  flags : ProtocolFlags
  deriving DecidableEq

/-- What connecting hands back: the lock the link is to. -/
structure ConnectedLock where
  info : DiscoveredLock
  deriving DecidableEq

def discoverByManufacturerData (id : String) (name : Option String) (rssi : Option Int16)
    (manufacturerData : UInt16 → Option (List UInt8)) : Option DiscoveredLock :=
  match manufacturerData saltoManufacturerId with
  | none => none
  | some record => (parseSaltoAdvertisement record).map fun advertisement =>
    ⟨id, name, rssi, advertisement.protocolVersion, advertisement.flags⟩

/-- A lock known by its service alone has no version to go by. -/
def discoverByServiceUuid (id : String) (name : Option String) (rssi : Option Int16)
    (serviceUuids : List Uuid) : Option DiscoveredLock :=
  if saltoServiceUuid ∈ serviceUuids then some ⟨id, name, rssi, 0, .default⟩ else none

/-- A duration, in nanoseconds. -/
abbrev Duration := Nat

namespace Duration

def fromSecs (seconds : Nat) : Duration := seconds * 1000000000

def asMillis (duration : Duration) : Nat := duration / 1000000

end Duration

/-- What decides which of the locks seen is connected to. -/
abbrev LockFilter := DiscoveredLock → Bool

end Mkey
