import Mathlib

/-! What the lock says happened: one byte whose two low bits carry the class. -/
namespace Mkey

inductive OpResultGroup where
  | unknown
  | failure
  | accepted
  | rejected
  deriving DecidableEq

namespace OpResultGroup

def of (opResult : UInt8) : OpResultGroup :=
  if opResult &&& 3 = 1 then failure
  else if opResult &&& 3 = 2 then accepted
  else if opResult &&& 3 = 3 then rejected
  else unknown

def asStr : OpResultGroup → String
  | unknown => "unknown"
  | failure => "failure"
  | accepted => "accepted"
  | rejected => "rejected"

theorem asStr_injective : Function.Injective asStr := by
  intro group other
  cases group <;> cases other <;> decide

def isAccepted : OpResultGroup → Bool
  | accepted => true
  | unknown | failure | rejected => false

def isFinal : OpResultGroup → Bool
  | accepted | rejected => true
  | unknown | failure => false

/-- The class is the residue of the byte modulo four. -/
theorem and_three (opResult : UInt8) : (opResult &&& 3).toNat = opResult.toNat % 4 := by
  rw [UInt8.toNat_and]
  exact Nat.and_two_pow_sub_one_eq_mod opResult.toNat 2

theorem of_accepted (opResult : UInt8) : of opResult = accepted ↔ opResult &&& 3 = 2 := by
  rw [of]
  split_ifs with h1 h2 h3
  all_goals simp_all

theorem isAccepted_iff (opResult : UInt8) :
    (of opResult).isAccepted ↔ opResult.toNat % 4 = 2 := by
  have named (group : OpResultGroup) : group.isAccepted ↔ group = accepted := by
    cases group <;> simp [isAccepted]
  rw [named, of_accepted, ← and_three, ← UInt8.toNat_inj]
  rfl

end OpResultGroup

/-- The name of a result, where it has one. -/
def decodeOpResult (opResult : UInt8) : String :=
  match opResult.toNat with
  | 0 => "UNKNOWN_RESULT"
  | 2 => "ACCESS_GRANTED"
  | 3 => "ACCESS_REJECTED"
  | 6 => "DOOR_IN_OFFICE"
  | 7 => "PIN_REQUIRED"
  | 10 => "END_OFFICE"
  | 11 => "CANCELLED_KEY"
  | 14 => "OPENING_ROLLER"
  | 18 => "CLOSING_ROLLER"
  | 22 => "STOP_ROLLER"
  | 26 => "WAIT_SECOND_CARD"
  | 27 => "FINGER_REQUIRED"
  | 30 => "KEY_PROCESSED"
  | _ => "UNKNOWN"

end Mkey
