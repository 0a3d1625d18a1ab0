import Mkey.Lib.Chunks

/-!
# AES-128

The block cipher of FIPS-197 on four columns of four bytes, with the proof that
every key gives a permutation of blocks and its inverse.
-/
namespace Mkey.Aes

def sboxTable : List (List UInt8) := [
  [0x63, 0x7c, 0x77, 0x7b, 0xf2, 0x6b, 0x6f, 0xc5, 0x30, 0x01, 0x67, 0x2b, 0xfe, 0xd7, 0xab, 0x76],
  [0xca, 0x82, 0xc9, 0x7d, 0xfa, 0x59, 0x47, 0xf0, 0xad, 0xd4, 0xa2, 0xaf, 0x9c, 0xa4, 0x72, 0xc0],
  [0xb7, 0xfd, 0x93, 0x26, 0x36, 0x3f, 0xf7, 0xcc, 0x34, 0xa5, 0xe5, 0xf1, 0x71, 0xd8, 0x31, 0x15],
  [0x04, 0xc7, 0x23, 0xc3, 0x18, 0x96, 0x05, 0x9a, 0x07, 0x12, 0x80, 0xe2, 0xeb, 0x27, 0xb2, 0x75],
  [0x09, 0x83, 0x2c, 0x1a, 0x1b, 0x6e, 0x5a, 0xa0, 0x52, 0x3b, 0xd6, 0xb3, 0x29, 0xe3, 0x2f, 0x84],
  [0x53, 0xd1, 0x00, 0xed, 0x20, 0xfc, 0xb1, 0x5b, 0x6a, 0xcb, 0xbe, 0x39, 0x4a, 0x4c, 0x58, 0xcf],
  [0xd0, 0xef, 0xaa, 0xfb, 0x43, 0x4d, 0x33, 0x85, 0x45, 0xf9, 0x02, 0x7f, 0x50, 0x3c, 0x9f, 0xa8],
  [0x51, 0xa3, 0x40, 0x8f, 0x92, 0x9d, 0x38, 0xf5, 0xbc, 0xb6, 0xda, 0x21, 0x10, 0xff, 0xf3, 0xd2],
  [0xcd, 0x0c, 0x13, 0xec, 0x5f, 0x97, 0x44, 0x17, 0xc4, 0xa7, 0x7e, 0x3d, 0x64, 0x5d, 0x19, 0x73],
  [0x60, 0x81, 0x4f, 0xdc, 0x22, 0x2a, 0x90, 0x88, 0x46, 0xee, 0xb8, 0x14, 0xde, 0x5e, 0x0b, 0xdb],
  [0xe0, 0x32, 0x3a, 0x0a, 0x49, 0x06, 0x24, 0x5c, 0xc2, 0xd3, 0xac, 0x62, 0x91, 0x95, 0xe4, 0x79],
  [0xe7, 0xc8, 0x37, 0x6d, 0x8d, 0xd5, 0x4e, 0xa9, 0x6c, 0x56, 0xf4, 0xea, 0x65, 0x7a, 0xae, 0x08],
  [0xba, 0x78, 0x25, 0x2e, 0x1c, 0xa6, 0xb4, 0xc6, 0xe8, 0xdd, 0x74, 0x1f, 0x4b, 0xbd, 0x8b, 0x8a],
  [0x70, 0x3e, 0xb5, 0x66, 0x48, 0x03, 0xf6, 0x0e, 0x61, 0x35, 0x57, 0xb9, 0x86, 0xc1, 0x1d, 0x9e],
  [0xe1, 0xf8, 0x98, 0x11, 0x69, 0xd9, 0x8e, 0x94, 0x9b, 0x1e, 0x87, 0xe9, 0xce, 0x55, 0x28, 0xdf],
  [0x8c, 0xa1, 0x89, 0x0d, 0xbf, 0xe6, 0x42, 0x68, 0x41, 0x99, 0x2d, 0x0f, 0xb0, 0x54, 0xbb, 0x16]]

def invSboxTable : List (List UInt8) := [
  [0x52, 0x09, 0x6a, 0xd5, 0x30, 0x36, 0xa5, 0x38, 0xbf, 0x40, 0xa3, 0x9e, 0x81, 0xf3, 0xd7, 0xfb],
  [0x7c, 0xe3, 0x39, 0x82, 0x9b, 0x2f, 0xff, 0x87, 0x34, 0x8e, 0x43, 0x44, 0xc4, 0xde, 0xe9, 0xcb],
  [0x54, 0x7b, 0x94, 0x32, 0xa6, 0xc2, 0x23, 0x3d, 0xee, 0x4c, 0x95, 0x0b, 0x42, 0xfa, 0xc3, 0x4e],
  [0x08, 0x2e, 0xa1, 0x66, 0x28, 0xd9, 0x24, 0xb2, 0x76, 0x5b, 0xa2, 0x49, 0x6d, 0x8b, 0xd1, 0x25],
  [0x72, 0xf8, 0xf6, 0x64, 0x86, 0x68, 0x98, 0x16, 0xd4, 0xa4, 0x5c, 0xcc, 0x5d, 0x65, 0xb6, 0x92],
  [0x6c, 0x70, 0x48, 0x50, 0xfd, 0xed, 0xb9, 0xda, 0x5e, 0x15, 0x46, 0x57, 0xa7, 0x8d, 0x9d, 0x84],
  [0x90, 0xd8, 0xab, 0x00, 0x8c, 0xbc, 0xd3, 0x0a, 0xf7, 0xe4, 0x58, 0x05, 0xb8, 0xb3, 0x45, 0x06],
  [0xd0, 0x2c, 0x1e, 0x8f, 0xca, 0x3f, 0x0f, 0x02, 0xc1, 0xaf, 0xbd, 0x03, 0x01, 0x13, 0x8a, 0x6b],
  [0x3a, 0x91, 0x11, 0x41, 0x4f, 0x67, 0xdc, 0xea, 0x97, 0xf2, 0xcf, 0xce, 0xf0, 0xb4, 0xe6, 0x73],
  [0x96, 0xac, 0x74, 0x22, 0xe7, 0xad, 0x35, 0x85, 0xe2, 0xf9, 0x37, 0xe8, 0x1c, 0x75, 0xdf, 0x6e],
  [0x47, 0xf1, 0x1a, 0x71, 0x1d, 0x29, 0xc5, 0x89, 0x6f, 0xb7, 0x62, 0x0e, 0xaa, 0x18, 0xbe, 0x1b],
  [0xfc, 0x56, 0x3e, 0x4b, 0xc6, 0xd2, 0x79, 0x20, 0x9a, 0xdb, 0xc0, 0xfe, 0x78, 0xcd, 0x5a, 0xf4],
  [0x1f, 0xdd, 0xa8, 0x33, 0x88, 0x07, 0xc7, 0x31, 0xb1, 0x12, 0x10, 0x59, 0x27, 0x80, 0xec, 0x5f],
  [0x60, 0x51, 0x7f, 0xa9, 0x19, 0xb5, 0x4a, 0x0d, 0x2d, 0xe5, 0x7a, 0x9f, 0x93, 0xc9, 0x9c, 0xef],
  [0xa0, 0xe0, 0x3b, 0x4d, 0xae, 0x2a, 0xf5, 0xb0, 0xc8, 0xeb, 0xbb, 0x3c, 0x83, 0x53, 0x99, 0x61],
  [0x17, 0x2b, 0x04, 0x7e, 0xba, 0x77, 0xd6, 0x26, 0xe1, 0x69, 0x14, 0x63, 0x55, 0x21, 0x0c, 0x7d]]

/-- Substitution tables are read by row (high nibble) and column (low nibble). -/
def substitute (table : List (List UInt8)) (b : UInt8) : UInt8 :=
  (table.getD (b.toNat / 16) []).getD (b.toNat % 16) 0

def sbox (b : UInt8) : UInt8 := substitute sboxTable b

def invSbox (b : UInt8) : UInt8 := substitute invSboxTable b

theorem forall_byte {P : UInt8 → Prop} (all : ∀ n < 256, P (UInt8.ofNat n)) (b : UInt8) : P b := by
  have := all b.toNat b.toNat_lt
  rwa [UInt8.ofNat_toNat] at this

set_option maxRecDepth 20000 in
theorem invSbox_sbox (b : UInt8) : invSbox (sbox b) = b :=
  forall_byte (P := fun b => invSbox (sbox b) = b) (by decide +kernel) b

set_option maxRecDepth 20000 in
theorem sbox_invSbox (b : UInt8) : sbox (invSbox b) = b :=
  forall_byte (P := fun b => sbox (invSbox b) = b) (by decide +kernel) b

/-! ### Multiplication in the field of 256 elements -/

/-- What the reduction by 0x11b adds when the top bit is shifted out. -/
def carry (b : UInt8) : UInt8 := (b >>> 7) * 0x1b

/-- Multiplication by `x`. -/
def xtime (b : UInt8) : UInt8 := (b <<< 1) ^^^ carry b

def mul3 (b : UInt8) : UInt8 := xtime b ^^^ b
def mul9 (b : UInt8) : UInt8 := xtime (xtime (xtime b)) ^^^ b
def mul11 (b : UInt8) : UInt8 := xtime (xtime (xtime b)) ^^^ xtime b ^^^ b
def mul13 (b : UInt8) : UInt8 := xtime (xtime (xtime b)) ^^^ xtime (xtime b) ^^^ b
def mul14 (b : UInt8) : UInt8 := xtime (xtime (xtime b)) ^^^ xtime (xtime b) ^^^ xtime b

theorem top_bit (b : UInt8) : b >>> 7 = 0 ∨ b >>> 7 = 1 :=
  forall_byte (P := fun b => b >>> 7 = 0 ∨ b >>> 7 = 1) (by decide +kernel) b

theorem carry_xor (a b : UInt8) : carry (a ^^^ b) = carry a ^^^ carry b := by
  simp only [carry, UInt8.shiftRight_xor]
  rcases top_bit a with ha | ha <;> rcases top_bit b with hb | hb <;> rw [ha, hb] <;> decide

theorem xtime_xor (a b : UInt8) : xtime (a ^^^ b) = xtime a ^^^ xtime b := by
  simp only [xtime, carry_xor, UInt8.shiftLeft_xor]
  ac_rfl

/-! ### Columns and states -/

@[ext]
structure Column where
  b0 : UInt8
  b1 : UInt8
  b2 : UInt8
  b3 : UInt8

namespace Column

def map (f : UInt8 → UInt8) (c : Column) : Column := ⟨f c.b0, f c.b1, f c.b2, f c.b3⟩

def xor (c d : Column) : Column := ⟨c.b0 ^^^ d.b0, c.b1 ^^^ d.b1, c.b2 ^^^ d.b2, c.b3 ^^^ d.b3⟩

def mix (c : Column) : Column :=
  ⟨xtime c.b0 ^^^ mul3 c.b1 ^^^ c.b2 ^^^ c.b3, c.b0 ^^^ xtime c.b1 ^^^ mul3 c.b2 ^^^ c.b3,
    c.b0 ^^^ c.b1 ^^^ xtime c.b2 ^^^ mul3 c.b3, mul3 c.b0 ^^^ c.b1 ^^^ c.b2 ^^^ xtime c.b3⟩

def invMix (c : Column) : Column :=
  ⟨mul14 c.b0 ^^^ mul11 c.b1 ^^^ mul13 c.b2 ^^^ mul9 c.b3,
    mul9 c.b0 ^^^ mul14 c.b1 ^^^ mul11 c.b2 ^^^ mul13 c.b3,
    mul13 c.b0 ^^^ mul9 c.b1 ^^^ mul14 c.b2 ^^^ mul11 c.b3,
    mul11 c.b0 ^^^ mul13 c.b1 ^^^ mul9 c.b2 ^^^ mul14 c.b3⟩

/-- The four sums a byte runs through on its way into a column and back: it returns
to its own place and cancels everywhere else. -/
theorem unmix_byte (b : UInt8) :
    mul14 (xtime b) ^^^ mul11 b ^^^ mul13 b ^^^ mul9 (mul3 b) = b ∧
    mul14 (mul3 b) ^^^ mul11 (xtime b) ^^^ mul13 b ^^^ mul9 b = 0 ∧
    mul14 b ^^^ mul11 (mul3 b) ^^^ mul13 (xtime b) ^^^ mul9 b = 0 ∧
    mul14 b ^^^ mul11 b ^^^ mul13 (mul3 b) ^^^ mul9 (xtime b) = 0 :=
  forall_byte (P := fun b =>
    mul14 (xtime b) ^^^ mul11 b ^^^ mul13 b ^^^ mul9 (mul3 b) = b ∧
    mul14 (mul3 b) ^^^ mul11 (xtime b) ^^^ mul13 b ^^^ mul9 b = 0 ∧
    mul14 b ^^^ mul11 (mul3 b) ^^^ mul13 (xtime b) ^^^ mul9 b = 0 ∧
    mul14 b ^^^ mul11 b ^^^ mul13 (mul3 b) ^^^ mul9 (xtime b) = 0) (by decide +kernel) b

theorem mul3_xor (a b : UInt8) : mul3 (a ^^^ b) = mul3 a ^^^ mul3 b := by
  simp only [mul3, xtime_xor]; ac_rfl

theorem mul9_xor (a b : UInt8) : mul9 (a ^^^ b) = mul9 a ^^^ mul9 b := by
  simp only [mul9, xtime_xor]; ac_rfl

theorem mul11_xor (a b : UInt8) : mul11 (a ^^^ b) = mul11 a ^^^ mul11 b := by
  simp only [mul11, xtime_xor]; ac_rfl

theorem mul13_xor (a b : UInt8) : mul13 (a ^^^ b) = mul13 a ^^^ mul13 b := by
  simp only [mul13, xtime_xor]; ac_rfl

theorem mul14_xor (a b : UInt8) : mul14 (a ^^^ b) = mul14 a ^^^ mul14 b := by
  simp only [mul14, xtime_xor]; ac_rfl

/-- One output byte: sixteen terms regrouped by the input byte they stem from. -/
theorem unmix_row (a b c d : UInt8) :
    mul14 (xtime a ^^^ mul3 b ^^^ c ^^^ d) ^^^ mul11 (a ^^^ xtime b ^^^ mul3 c ^^^ d) ^^^
      mul13 (a ^^^ b ^^^ xtime c ^^^ mul3 d) ^^^ mul9 (mul3 a ^^^ b ^^^ c ^^^ xtime d) = a := by
  have regroup :
      mul14 (xtime a ^^^ mul3 b ^^^ c ^^^ d) ^^^ mul11 (a ^^^ xtime b ^^^ mul3 c ^^^ d) ^^^
        mul13 (a ^^^ b ^^^ xtime c ^^^ mul3 d) ^^^ mul9 (mul3 a ^^^ b ^^^ c ^^^ xtime d) =
      (mul14 (xtime a) ^^^ mul11 a ^^^ mul13 a ^^^ mul9 (mul3 a)) ^^^
        (mul14 (mul3 b) ^^^ mul11 (xtime b) ^^^ mul13 b ^^^ mul9 b) ^^^
        (mul14 c ^^^ mul11 (mul3 c) ^^^ mul13 (xtime c) ^^^ mul9 c) ^^^
        (mul14 d ^^^ mul11 d ^^^ mul13 (mul3 d) ^^^ mul9 (xtime d)) := by
    simp only [mul9_xor, mul11_xor, mul13_xor, mul14_xor]
    ac_rfl
  rw [regroup, (unmix_byte a).1, (unmix_byte b).2.1, (unmix_byte c).2.2.1, (unmix_byte d).2.2.2]
  simp

theorem invMix_mix (c : Column) : c.mix.invMix = c := by
  obtain ⟨a, b, c, d⟩ := c
  apply Column.ext
  · exact unmix_row a b c d
  · refine Eq.trans ?_ (unmix_row b c d a)
    simp only [mix, invMix]
    ac_rfl
  · refine Eq.trans ?_ (unmix_row c d a b)
    simp only [mix, invMix]
    ac_rfl
  · refine Eq.trans ?_ (unmix_row d a b c)
    simp only [mix, invMix]
    ac_rfl

/-- The four sums of the way back first: the same cancellation, since the two maps commute. -/
theorem mix_byte (b : UInt8) :
    xtime (mul14 b) ^^^ mul3 (mul9 b) ^^^ mul13 b ^^^ mul11 b = b ∧
    xtime (mul11 b) ^^^ mul3 (mul14 b) ^^^ mul9 b ^^^ mul13 b = 0 ∧
    xtime (mul13 b) ^^^ mul3 (mul11 b) ^^^ mul14 b ^^^ mul9 b = 0 ∧
    xtime (mul9 b) ^^^ mul3 (mul13 b) ^^^ mul11 b ^^^ mul14 b = 0 :=
  forall_byte (P := fun b =>
    xtime (mul14 b) ^^^ mul3 (mul9 b) ^^^ mul13 b ^^^ mul11 b = b ∧
    xtime (mul11 b) ^^^ mul3 (mul14 b) ^^^ mul9 b ^^^ mul13 b = 0 ∧
    xtime (mul13 b) ^^^ mul3 (mul11 b) ^^^ mul14 b ^^^ mul9 b = 0 ∧
    xtime (mul9 b) ^^^ mul3 (mul13 b) ^^^ mul11 b ^^^ mul14 b = 0) (by decide +kernel) b

theorem mix_row (a b c d : UInt8) :
    xtime (mul14 a ^^^ mul11 b ^^^ mul13 c ^^^ mul9 d) ^^^
      mul3 (mul9 a ^^^ mul14 b ^^^ mul11 c ^^^ mul13 d) ^^^
      (mul13 a ^^^ mul9 b ^^^ mul14 c ^^^ mul11 d) ^^^
      (mul11 a ^^^ mul13 b ^^^ mul9 c ^^^ mul14 d) = a := by
  have regroup :
      xtime (mul14 a ^^^ mul11 b ^^^ mul13 c ^^^ mul9 d) ^^^
        mul3 (mul9 a ^^^ mul14 b ^^^ mul11 c ^^^ mul13 d) ^^^
        (mul13 a ^^^ mul9 b ^^^ mul14 c ^^^ mul11 d) ^^^
        (mul11 a ^^^ mul13 b ^^^ mul9 c ^^^ mul14 d) =
      (xtime (mul14 a) ^^^ mul3 (mul9 a) ^^^ mul13 a ^^^ mul11 a) ^^^
        (xtime (mul11 b) ^^^ mul3 (mul14 b) ^^^ mul9 b ^^^ mul13 b) ^^^
        (xtime (mul13 c) ^^^ mul3 (mul11 c) ^^^ mul14 c ^^^ mul9 c) ^^^
        (xtime (mul9 d) ^^^ mul3 (mul13 d) ^^^ mul11 d ^^^ mul14 d) := by
    simp only [xtime_xor, mul3_xor]
    ac_rfl
  rw [regroup, (mix_byte a).1, (mix_byte b).2.1, (mix_byte c).2.2.1, (mix_byte d).2.2.2]
  simp

theorem mix_invMix (c : Column) : c.invMix.mix = c := by
  obtain ⟨a, b, c, d⟩ := c
  apply Column.ext
  · exact mix_row a b c d
  · refine Eq.trans ?_ (mix_row b c d a)
    simp only [mix, invMix]
    ac_rfl
  · refine Eq.trans ?_ (mix_row c d a b)
    simp only [mix, invMix]
    ac_rfl
  · refine Eq.trans ?_ (mix_row d a b c)
    simp only [mix, invMix]
    ac_rfl

theorem xor_xor_cancel (c d : Column) : (c.xor d).xor d = c := by
  simp only [xor, UInt8.xor_assoc, UInt8.xor_self, UInt8.xor_zero]

end Column

@[ext]
structure State where
  c0 : Column
  c1 : Column
  c2 : Column
  c3 : Column

namespace State

def mapColumns (f : Column → Column) (s : State) : State := ⟨f s.c0, f s.c1, f s.c2, f s.c3⟩

def addRoundKey (k s : State) : State :=
  ⟨s.c0.xor k.c0, s.c1.xor k.c1, s.c2.xor k.c2, s.c3.xor k.c3⟩

/-- Row `r` moves left by `r` columns. -/
def shiftRows (s : State) : State :=
  ⟨⟨s.c0.b0, s.c1.b1, s.c2.b2, s.c3.b3⟩, ⟨s.c1.b0, s.c2.b1, s.c3.b2, s.c0.b3⟩,
    ⟨s.c2.b0, s.c3.b1, s.c0.b2, s.c1.b3⟩, ⟨s.c3.b0, s.c0.b1, s.c1.b2, s.c2.b3⟩⟩

def invShiftRows (s : State) : State :=
  ⟨⟨s.c0.b0, s.c3.b1, s.c2.b2, s.c1.b3⟩, ⟨s.c1.b0, s.c0.b1, s.c3.b2, s.c2.b3⟩,
    ⟨s.c2.b0, s.c1.b1, s.c0.b2, s.c3.b3⟩, ⟨s.c3.b0, s.c2.b1, s.c1.b2, s.c0.b3⟩⟩

def lastRound (k s : State) : State := addRoundKey k (shiftRows (mapColumns (Column.map sbox) s))

def round (k s : State) : State :=
  addRoundKey k (mapColumns Column.mix (shiftRows (mapColumns (Column.map sbox) s)))

def invLastRound (k s : State) : State :=
  mapColumns (Column.map invSbox) (invShiftRows (addRoundKey k s))

def invRound (k s : State) : State :=
  mapColumns (Column.map invSbox) (invShiftRows (mapColumns Column.invMix (addRoundKey k s)))

theorem mapColumns_cancel {f g : Column → Column} (cancel : ∀ c, f (g c) = c) (s : State) :
    mapColumns f (mapColumns g s) = s := by
  simp only [mapColumns, cancel]

theorem addRoundKey_cancel (k s : State) : addRoundKey k (addRoundKey k s) = s := by
  simp only [addRoundKey, Column.xor_xor_cancel]

theorem map_invSbox_sbox (c : Column) : (c.map sbox).map invSbox = c := by
  simp only [Column.map, invSbox_sbox]

theorem map_sbox_invSbox (c : Column) : (c.map invSbox).map sbox = c := by
  simp only [Column.map, sbox_invSbox]

theorem invShiftRows_shiftRows (s : State) : invShiftRows (shiftRows s) = s := rfl

theorem shiftRows_invShiftRows (s : State) : shiftRows (invShiftRows s) = s := rfl

theorem invRound_round (k s : State) : invRound k (round k s) = s := by
  rw [invRound, round, addRoundKey_cancel, mapColumns_cancel Column.invMix_mix,
    invShiftRows_shiftRows, mapColumns_cancel map_invSbox_sbox]

theorem round_invRound (k s : State) : round k (invRound k s) = s := by
  rw [invRound, round, mapColumns_cancel map_sbox_invSbox, shiftRows_invShiftRows,
    mapColumns_cancel Column.mix_invMix, addRoundKey_cancel]

theorem invLastRound_lastRound (k s : State) : invLastRound k (lastRound k s) = s := by
  rw [invLastRound, lastRound, addRoundKey_cancel, invShiftRows_shiftRows,
    mapColumns_cancel map_invSbox_sbox]

theorem lastRound_invLastRound (k s : State) : lastRound k (invLastRound k s) = s := by
  rw [invLastRound, lastRound, mapColumns_cancel map_sbox_invSbox, shiftRows_invShiftRows,
    addRoundKey_cancel]

/-- All rounds after the first key addition; the last one does not mix columns. -/
def cipher : List State → State → State
  | [], s => s
  | [k], s => lastRound k s
  | k :: l :: ks, s => cipher (l :: ks) (round k s)

def invCipher : List State → State → State
  | [], s => s
  | [k], s => invLastRound k s
  -- from the inside out: the last round is undone first
  | k :: l :: ks, s => invRound k (invCipher (l :: ks) s)

theorem invCipher_cipher (ks : List State) (s : State) : invCipher ks (cipher ks s) = s := by
  induction ks, s using cipher.induct with
  | case1 s => rfl
  | case2 k s => exact invLastRound_lastRound k s
  | case3 k l ks s ih => rw [cipher, invCipher, ih, invRound_round]

theorem cipher_invCipher (ks : List State) (s : State) : cipher ks (invCipher ks s) = s := by
  induction ks with
  | nil => rfl
  | cons k ks ih =>
    cases ks with
    | nil => exact lastRound_invLastRound k s
    | cons l ks => rw [invCipher, cipher, round_invRound, ih]

/-! ### Key schedule and blocks -/

def rotate (c : Column) : Column := ⟨c.b1, c.b2, c.b3, c.b0⟩

/-- The next round key, from the one before it and a round constant. -/
def nextKey (k : State) (rcon : UInt8) : State :=
  let c0 := (k.c0.xor ((rotate k.c3).map sbox)).xor ⟨rcon, 0, 0, 0⟩
  let c1 := k.c1.xor c0
  let c2 := k.c2.xor c1
  ⟨c0, c1, c2, k.c3.xor c2⟩

def roundKeys (k : State) : List UInt8 → List State
  | [] => []
  | rcon :: rest => nextKey k rcon :: roundKeys (nextKey k rcon) rest

def roundConstants : List UInt8 := [0x01, 0x02, 0x04, 0x08, 0x10, 0x20, 0x40, 0x80, 0x1b, 0x36]

/-- Blocks fill the state column by column. -/
def ofBlock (b : Chunk UInt8 16) : State :=
  let at_ (i : Nat) := b.toList.getD i 0
  ⟨⟨at_ 0, at_ 1, at_ 2, at_ 3⟩, ⟨at_ 4, at_ 5, at_ 6, at_ 7⟩,
    ⟨at_ 8, at_ 9, at_ 10, at_ 11⟩, ⟨at_ 12, at_ 13, at_ 14, at_ 15⟩⟩

def toBlock (s : State) : Chunk UInt8 16 :=
  ⟨[s.c0.b0, s.c0.b1, s.c0.b2, s.c0.b3, s.c1.b0, s.c1.b1, s.c1.b2, s.c1.b3,
    s.c2.b0, s.c2.b1, s.c2.b2, s.c2.b3, s.c3.b0, s.c3.b1, s.c3.b2, s.c3.b3], rfl⟩

theorem ofBlock_toBlock (s : State) : ofBlock (toBlock s) = s := rfl

theorem toBlock_ofBlock (b : Chunk UInt8 16) : toBlock (ofBlock b) = b := by
  apply Chunk.ext
  apply List.ext_getElem
  · simp
  · intro i hi _
    have bound : i < 16 := by simpa using hi
    -- one position of the block at a time
    interval_cases i <;> simp [toBlock, ofBlock]

end State

open State

def encrypt (key b : Chunk UInt8 16) : Chunk UInt8 16 :=
  toBlock (cipher (roundKeys (ofBlock key) roundConstants)
    (addRoundKey (ofBlock key) (ofBlock b)))

def decrypt (key b : Chunk UInt8 16) : Chunk UInt8 16 :=
  toBlock (addRoundKey (ofBlock key)
    (invCipher (roundKeys (ofBlock key) roundConstants) (ofBlock b)))

theorem decrypt_encrypt (key b : Chunk UInt8 16) : decrypt key (encrypt key b) = b := by
  rw [decrypt, encrypt, ofBlock_toBlock, invCipher_cipher, addRoundKey_cancel, toBlock_ofBlock]

theorem encrypt_decrypt (key b : Chunk UInt8 16) : encrypt key (decrypt key b) = b := by
  rw [decrypt, encrypt, ofBlock_toBlock, addRoundKey_cancel, cipher_invCipher, toBlock_ofBlock]

end Mkey.Aes
