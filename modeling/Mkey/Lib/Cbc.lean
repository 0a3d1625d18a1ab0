import Mathlib

/-! Cipher block chaining over an arbitrary block type. -/
namespace Mkey.Cbc

variable {B : Type} (mask : B → B → B)

/-- Each plaintext block is masked with the ciphertext block before it. -/
def encrypt (E : B → B) : B → List B → List B
  | _, [] => []
  | iv, p :: ps => E (mask p iv) :: encrypt E (E (mask p iv)) ps

def decrypt (D : B → B) : B → List B → List B
  | _, [] => []
  | iv, c :: cs => mask (D c) iv :: decrypt D c cs

theorem length_encrypt (E : B → B) (iv : B) (ps : List B) :
    (encrypt mask E iv ps).length = ps.length := by
  induction ps generalizing iv with
  | nil => rfl
  | cons p ps ih => simp only [encrypt, List.length_cons, ih]

/-- Decryption undoes encryption whenever the block cipher is undone and masking cancels. -/
theorem decrypt_encrypt {E D : B → B} (inverse : ∀ b, D (E b) = b)
    (cancel : ∀ a b, mask (mask a b) b = a) (iv : B) (ps : List B) :
    decrypt mask D iv (encrypt mask E iv ps) = ps := by
  induction ps generalizing iv with
  | nil => rfl
  | cons p ps ih => simp only [encrypt, decrypt, inverse, cancel, ih]

end Mkey.Cbc
