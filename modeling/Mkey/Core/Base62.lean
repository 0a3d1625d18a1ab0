import Mkey.Core.Crypto
import Mkey.Lib.Ber

/-! Base62 by long division, and the key identifier built with it. -/
namespace Mkey

open Ber (bigEndian bigEndian_cons bigEndian_dropZeros dropZeros_of_zero)

def base62Chars : List Char :=
  "0123456789abcdefghijklmnopqrstuvwxyzABCDEFGHIJKLMNOPQRSTUVWXYZ".toList

def base62Char (remainder : UInt16) : Char := base62Chars.getD remainder.toNat '0'

/-- The next dividend: the remainder so far, one byte further. -/
def accumulate (remainder : UInt16) (byte : UInt8) : UInt16 :=
  (remainder <<< 8) ||| byte.toUInt16

/-- One pass over the buffer: every byte becomes its quotient by 62, the last remainder is left. -/
def divideBy62 (remainder : UInt16) : List UInt8 → List UInt8 × UInt16
  | [] => ([], remainder)
  | byte :: rest =>
    let accumulator := accumulate remainder byte
    let (quotient, remainder) := divideBy62 (accumulator % 62) rest
    ((accumulator / 62).toUInt8 :: quotient, remainder)

theorem accumulate_toNat (remainder : UInt16) (byte : UInt8) (small : remainder.toNat < 62) :
    (accumulate remainder byte).toNat = remainder.toNat * 256 + byte.toNat := by
  have shifted : (remainder <<< 8).toNat = 2 ^ 8 * remainder.toNat := by
    rw [UInt16.toNat_shiftLeft]
    simp only [UInt16.reduceToNat, Nat.reduceMod, Nat.shiftLeft_eq]
    omega
  rw [accumulate, UInt16.toNat_or, shifted, UInt8.toNat_toUInt16,
    ← Nat.two_pow_add_eq_or_of_lt byte.toNat_lt]
  omega

/-- Long division: quotient and remainder make up the dividend again. -/
theorem divideBy62_spec (remainder : UInt16) (bytes : List UInt8) (small : remainder.toNat < 62) :
    (divideBy62 remainder bytes).1.length = bytes.length ∧
    (divideBy62 remainder bytes).2.toNat < 62 ∧
    remainder.toNat * 256 ^ bytes.length + bigEndian bytes =
      bigEndian (divideBy62 remainder bytes).1 * 62 + (divideBy62 remainder bytes).2.toNat := by
  induction bytes generalizing remainder with
  | nil => exact ⟨rfl, small, by simp [divideBy62, bigEndian]⟩
  | cons byte rest ih =>
    have dividend := accumulate_toNat remainder byte small
    have below := byte.toNat_lt
    have next : (accumulate remainder byte % 62).toNat =
        (accumulate remainder byte).toNat % 62 := by
      rw [UInt16.toNat_mod]
      rfl
    -- a remainder below 62 keeps the quotient digit within a byte, so nothing is cut off
    have digit : (accumulate remainder byte / 62).toUInt8.toNat =
        (accumulate remainder byte).toNat / 62 := by
      rw [UInt16.toNat_toUInt8, UInt16.toNat_div, Nat.mod_eq_of_lt]
      · rfl
      · simp only [UInt16.reduceToNat]
        omega
    obtain ⟨length, rest_small, value⟩ := ih (accumulate remainder byte % 62) (by omega)
    refine ⟨by simp [divideBy62, length], rest_small, ?_⟩
    have split := Nat.div_add_mod (accumulate remainder byte).toNat 62
    simp only [divideBy62, bigEndian_cons, List.length_cons, length, digit]
    rw [Nat.add_mul, Nat.add_assoc, ← value, next, Nat.pow_succ]
    calc remainder.toNat * (256 ^ rest.length * 256) +
          (byte.toNat * 256 ^ rest.length + bigEndian rest)
        = (remainder.toNat * 256 + byte.toNat) * 256 ^ rest.length + bigEndian rest := by ring
      _ = (62 * ((accumulate remainder byte).toNat / 62) + (accumulate remainder byte).toNat % 62) *
            256 ^ rest.length + bigEndian rest := by rw [← dividend, split]
      _ = _ := by ring

/-- What is left to divide is a smaller number, or nothing at all. -/
theorem quotient_decreases {value : List UInt8} (nonempty : value ≠ []) :
    bigEndian ((divideBy62 0 value).1.dropWhile (· == 0)) +
        ((divideBy62 0 value).1.dropWhile (· == 0)).length <
      bigEndian value + value.length := by
  obtain ⟨length, _, equal⟩ := divideBy62_spec 0 value (by decide)
  rw [bigEndian_dropZeros]
  have shorter := (List.dropWhile_suffix (· == (0 : UInt8)) (l := (divideBy62 0 value).1)).length_le
  have some := List.length_pos_iff.mpr nonempty
  simp only [UInt16.toNat_zero, Nat.zero_mul, Nat.zero_add] at equal
  -- a quotient that is not zero is a smaller number; a zero one leaves no buffer at all
  rcases Nat.eq_zero_or_pos (bigEndian (divideBy62 0 value).1) with zero | pos
  · rw [zero, dropZeros_of_zero _ zero]
    simp only [List.length_nil]
    omega
  · omega

/-- Divides until nothing is left; the buffer's leading zeros are skipped, never read again. -/
def encodeBase62Loop (value : List UInt8) (digits : List Char) : List Char :=
  if value = [] then digits
  else
    let division := divideBy62 0 value
    encodeBase62Loop (division.1.dropWhile (· == 0)) (base62Char division.2 :: digits)
termination_by bigEndian value + value.length
decreasing_by
  rename_i nonempty
  exact quotient_decreases nonempty

/-- A numerically zero input is not one digit but one more than it has bytes. -/
def encodeBase62 (data : List UInt8) : String :=
  if data = [] then ""
  else if data.all (· == 0) then String.ofList (List.replicate (data.length + 1) '0')
  else String.ofList (encodeBase62Loop data [])

/-- The store identifier of an eight-byte key id: the id and its checksum in base62. -/
def computeKeyIdentifier (keyId : List UInt8) : String :=
  encodeBase62 (keyId.take 8 ++ crc16Hasher keyId)

end Mkey
