import Mkey.Core.Error
import Mkey.Lib.Aes
import Mkey.Lib.Cbc
import Mkey.Lib.Chunks

/-!
# Crypto primitives

AES itself is a parameter: per key a permutation of blocks with its inverse.
Everything around it (CBC, padding, checksums, rotation, key derivation) is
the code's own.
-/
namespace Mkey

/-- Sixteen bytes: an AES block, a key, an IV or a random value. -/
abbrev Block := Chunk UInt8 16

namespace Block

def replicate (b : UInt8) : Block := ⟨List.replicate 16 b, by simp⟩

def xor (a b : Block) : Block := Chunk.zipWith (· ^^^ ·) a b

theorem xor_cancel (a b : Block) : xor (xor a b) b = a :=
  Chunk.zipWith_cancel (fun x y => by rw [UInt8.xor_assoc, UInt8.xor_self, UInt8.xor_zero]) a b

/-- The sixteen bytes a slice copies out of a longer buffer. -/
def slice (bytes : List UInt8) (start : Nat) (fits : start + 16 ≤ bytes.length) : Block :=
  ⟨(bytes.drop start).take 16, by simp; omega⟩

/-- A slice fits that ends within a length already checked. -/
theorem slice_fits {start size : Nat} {bytes : List UInt8} (checked : ¬bytes.length < size)
    (ends : start + 16 ≤ size) : start + 16 ≤ bytes.length :=
  Nat.le_trans ends (Nat.le_of_not_lt checked)

end Block

/-- What the code relies on of AES-128: per key, a block permutation with its inverse. -/
structure BlockCipher where
  encrypt : Block → Block → Block
  decrypt : Block → Block → Block
  decrypt_encrypt : ∀ key b, decrypt key (encrypt key b) = b
  encrypt_decrypt : ∀ key b, encrypt key (decrypt key b) = b

/-- The real cipher. -/
def aes128 : BlockCipher :=
  ⟨Aes.encrypt, Aes.decrypt, Aes.decrypt_encrypt, Aes.encrypt_decrypt⟩

/-- The FIPS-197 vector. -/
example : aes128.encrypt ⟨[0, 1, 2, 3, 4, 5, 6, 7, 8, 9, 10, 11, 12, 13, 14, 15], rfl⟩
    ⟨[0x00, 0x11, 0x22, 0x33, 0x44, 0x55, 0x66, 0x77,
      0x88, 0x99, 0xaa, 0xbb, 0xcc, 0xdd, 0xee, 0xff], rfl⟩ =
    ⟨[0x69, 0xc4, 0xe0, 0xd8, 0x6a, 0x7b, 0x04, 0x30,
      0xd8, 0xcd, 0xb7, 0x80, 0x70, 0xb4, 0xc5, 0x5a], rfl⟩ := by
  decide +kernel

section Aes

variable (aes : BlockCipher)

/-- AES-128-CBC without padding. A length that is no multiple of the block
panics in the source, so its proof is an argument here. -/
def encryptAesCbc (key iv : Block) (plaintext : List UInt8) (_ : 16 ∣ plaintext.length) :
    List UInt8 :=
  Chunk.glue (Cbc.encrypt Block.xor (aes.encrypt key) iv
    (Chunk.split 16 (plaintext.length / 16) plaintext))

def decryptAesCbc (key iv : Block) (ciphertext : List UInt8) : Except Error (List UInt8) :=
  if 16 ∣ ciphertext.length then
    .ok (Chunk.glue (Cbc.decrypt Block.xor (aes.decrypt key) iv
      (Chunk.split 16 (ciphertext.length / 16) ciphertext)))
  else .error .decryptionFailed

theorem length_encryptAesCbc (key iv : Block) (plaintext : List UInt8)
    (aligned : 16 ∣ plaintext.length) :
    (encryptAesCbc aes key iv plaintext aligned).length = plaintext.length := by
  have exact := (Nat.div_mul_cancel aligned).symm
  rw [encryptAesCbc, Chunk.length_glue, Cbc.length_encrypt, Chunk.length_split _ _ exact,
    Nat.div_mul_cancel aligned]

/-- Decrypting what was encrypted under the same key and IV gives the plaintext back. -/
theorem decryptAesCbc_encryptAesCbc (key iv : Block) (plaintext : List UInt8)
    (aligned : 16 ∣ plaintext.length) :
    decryptAesCbc aes key iv (encryptAesCbc aes key iv plaintext aligned) = .ok plaintext := by
  have exact := (Nat.div_mul_cancel aligned).symm
  have blocks : Chunk.split 16 ((encryptAesCbc aes key iv plaintext aligned).length / 16)
      (encryptAesCbc aes key iv plaintext aligned) =
      Cbc.encrypt Block.xor (aes.encrypt key) iv
        (Chunk.split 16 (plaintext.length / 16) plaintext) := by
    have count : (Cbc.encrypt Block.xor (aes.encrypt key) iv
        (Chunk.split 16 (plaintext.length / 16) plaintext)).length = plaintext.length / 16 := by
      rw [Cbc.length_encrypt, Chunk.length_split _ _ exact]
    rw [length_encryptAesCbc]
    -- the ciphertext is split into as many blocks as the cipher put out
    conv_lhs => rw [← count]
    exact Chunk.split_glue _
  rw [decryptAesCbc, if_pos (by rwa [length_encryptAesCbc]), blocks,
    Cbc.decrypt_encrypt _ (aes.decrypt_encrypt key) Block.xor_cancel, Chunk.glue_split _ _ exact]

end Aes

/-! ### ISO 7816-4 padding -/

/-- How many zeros follow the marker: up to the next block boundary. -/
def paddingZeros (length : Nat) : Nat := (16 - (length + 1) % 16) % 16

/-- The marker byte, then zeros while the length is no multiple of the block. -/
def applyPadding (data : List UInt8) : List UInt8 :=
  data ++ 0x80 :: List.replicate (paddingZeros data.length) 0x00

/-- Walks back over trailing zeros and drops the marker in front of them. -/
def removePadding (data : List UInt8) : Except Error (List UInt8) :=
  match data.reverse.dropWhile (· == 0x00) with
  | marker :: rest => if marker = 0x80 then .ok rest.reverse else .error .invalidPadding
  | [] => .error .invalidPadding

theorem length_applyPadding (data : List UInt8) :
    (applyPadding data).length = data.length + 1 + paddingZeros data.length := by
  simp [applyPadding]
  omega

theorem applyPadding_aligned (data : List UInt8) : 16 ∣ (applyPadding data).length := by
  rw [length_applyPadding, paddingZeros]
  omega

theorem removePadding_applyPadding (data : List UInt8) :
    removePadding (applyPadding data) = .ok data := by
  have zeros : ((List.replicate (paddingZeros data.length) (0x00 : UInt8)) ++
      0x80 :: data.reverse).dropWhile (· == 0x00) = 0x80 :: data.reverse := by
    -- read backwards, the zeros come first and the marker ends the walk
    induction paddingZeros data.length with
    | zero => rfl
    | succ count ih => simp [List.replicate_succ, ih]
  have reversed : (applyPadding data).reverse =
      List.replicate (paddingZeros data.length) 0x00 ++ 0x80 :: data.reverse := by
    simp [applyPadding]
  simp only [removePadding, reversed, zeros, if_pos, List.reverse_reverse]

theorem removePadding_error {data : List UInt8} {e : Error}
    (failed : removePadding data = .error e) : e = .invalidPadding := by
  rw [removePadding] at failed
  split at failed
  · split at failed
    · cases failed
    · exact (Except.error.inj failed).symm
  · exact (Except.error.inj failed).symm

/-! ### Checksums -/

/-- One nibble of the SSP checksum. -/
def crc16SspNibble (crc nibble : UInt16) : UInt16 :=
  (crc >>> 4) ^^^ (((crc ^^^ nibble) &&& 0x0F) * 4225)

/-- The register after one byte: low nibble, then high nibble. -/
def crc16SspByte (crc : UInt16) (byte : UInt8) : UInt16 :=
  crc16SspNibble (crc16SspNibble crc byte.toUInt16) (byte >>> 4).toUInt16

/-- A register as two bytes, low byte first. -/
def littleEndian (crc : UInt16) : List UInt8 :=
  [(crc &&& 0xFF).toUInt8, ((crc >>> 8) &&& 0xFF).toUInt8]

/-- The SSP checksum: initial value 0x6363, no final inversion. -/
def crc16Ssp (data : List UInt8) : List UInt8 := littleEndian (data.foldl crc16SspByte 0x6363)

@[simp] theorem length_crc16Ssp (data : List UInt8) : (crc16Ssp data).length = 2 := rfl

/-- One bit of the table the hasher is driven by. -/
def hasherBit (crc : UInt16) : UInt16 := if crc &&& 1 ≠ 0 then (crc >>> 1) ^^^ 0x8408 else crc >>> 1

/-- The lookup table of polynomial 0x8408: eight bit steps for every index. -/
def hasherTable (index : UInt8) : UInt16 := hasherBit^[8] index.toUInt16

def crc16HasherByte (seed : UInt16) (byte : UInt8) : UInt16 :=
  hasherTable ((seed &&& 0xFF) ^^^ byte.toUInt16).toUInt8 ^^^ (seed >>> 8)

/-- The key-hash checksum: seed 0xFFFF, complemented at the end. -/
def crc16Hasher (data : List UInt8) : List UInt8 :=
  littleEndian (data.foldl crc16HasherByte 0xFFFF ^^^ 0xFFFF)

@[simp] theorem length_crc16Hasher (data : List UInt8) : (crc16Hasher data).length = 2 := rfl

/-! ### Rotation and key derivation -/

/-- The last byte moves to the front. -/
def rotateRight (data : List UInt8) : List UInt8 :=
  match data.getLast? with
  | none => []
  | some last => last :: data.dropLast

theorem length_rotateRight (data : List UInt8) : (rotateRight data).length = data.length := by
  rw [rotateRight]
  split
  next empty => simp [List.getLast?_eq_none_iff.mp empty]
  next last found =>
    have nonempty : data ≠ [] := by
      rintro rfl
      simp at found
    have := List.length_pos_of_ne_nil nonempty
    simp only [List.length_cons, List.length_dropLast]
    omega

/-- First and last four bytes of each random value, alternating. -/
def deriveSessionKey (randomA randomB : Block) : Block :=
  ⟨randomA.toList.take 4 ++ randomB.toList.take 4 ++
    randomA.toList.drop 12 ++ randomB.toList.drop 12, by simp⟩

end Mkey
