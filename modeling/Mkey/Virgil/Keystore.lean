import Mkey.Core.MobileKey
import Mkey.Lib.Text
import Mkey.Virgil.Runtime

/-!
# Keystores

The private key of a device is stored encrypted by an RSA key of the device's
own. A keystore is generated once, checked, and used to decrypt mobile keys.
-/
namespace Mkey.Virgil

open Guarded Text

/-- RSA keys and their encodings, and the texts of the errors that readers give. -/
structure RsaLibrary where
  Rng : Type
  PublicKey : Type
  PrivateKey : Type
  new : Rng → Nat → Except String PrivateKey
  toPublicKey : PrivateKey → PublicKey
  toPkcs8Der : PrivateKey → Except String (List UInt8)
  fromPkcs8Der : List UInt8 → Except String PrivateKey
  fromPublicKeyDer : List UInt8 → Except String PublicKey
  fromPkcs1Der : List UInt8 → Except String PublicKey
  encrypt : Rng → PublicKey → List UInt8 → Except String (List UInt8)
  decrypt : PrivateKey → List UInt8 → Except String (List UInt8)
  utf8Error : List UInt8 → String

/-- The standard engine: base 64 with padding. -/
structure Base64Engine where
  encode : List UInt8 → List Char
  decode : List Char → Except String (List UInt8)

def rsaKeyBits : Nat := 2048

section Wrapping

variable (lib : RsaLibrary) (engine : Base64Engine)

def generateRsaPrivateKey (rng : lib.Rng) : Except Error (List UInt8) :=
  match lib.new rng rsaKeyBits with
  | .error e => .error (.rsaDecryption s!"RSA key generation failed: {e}")
  | .ok key => (lib.toPkcs8Der key).mapError fun e => .rsaDecryption s!"PKCS8 encoding failed: {e}"

/-- A public key in either encoding, or the public half of a private key. -/
def rsaPublicKey (rsaKeyDer : List UInt8) : Except Error lib.PublicKey :=
  match lib.fromPublicKeyDer rsaKeyDer with
  | .ok key => .ok key
  | .error _ =>
    match lib.fromPkcs1Der rsaKeyDer with
    | .ok key => .ok key
    | .error _ =>
      match lib.fromPkcs8Der rsaKeyDer with
      | .ok key => .ok (lib.toPublicKey key)
      | .error e => .error (.rsaDecryption
          s!"Not an RSA public key (SPKI/PKCS1) nor a PKCS8 private key: {e}")

def encryptVirgilPrivateKey (rng : lib.Rng) (rsaKeyDer privateKeyDer : List UInt8) :
    Except Error (List UInt8) := do
  let publicKey ← rsaPublicKey lib rsaKeyDer
  let wrapped := engine.encode privateKeyDer
  (lib.encrypt rng publicKey (utf8 wrapped)).mapError fun e =>
    .rsaDecryption s!"RSA encryption failed: {e}"

def decryptVirgilPrivateKey (rsaKeyDer encryptedKey : List UInt8) : Except Error (List UInt8) :=
  match lib.fromPkcs8Der rsaKeyDer with
  | .error e => .error (.rsaDecryption s!"Failed to parse RSA key: {e}")
  | .ok rsaPrivateKey =>
    match lib.decrypt rsaPrivateKey encryptedKey with
    | .error e => .error (.rsaDecryption s!"RSA decryption failed: {e}")
    | .ok decryptedB64 =>
      match fromUtf8 decryptedB64 with
      | none => .error (.rsaDecryption
          s!"Decrypted key not valid UTF-8: {lib.utf8Error decryptedB64}")
      | some decryptedStr =>
        (engine.decode (trim decryptedStr)).mapError fun e =>
          .rsaDecryption s!"Base64 decode failed: {e}"

end Wrapping

section MobileKeys

variable {W : Type} [Foundation W] (lib : RsaLibrary) (engine : Base64Engine)
  (parseAll : List UInt8 → List Ber.Tlv)

/-- Nothing is instantiated before the container and the private key are there. -/
def decryptMobileKey (instantiated : Except Error W)
    (rsaPrivateKeyDer encryptedVirgilKey encryptedMkeyData : List UInt8) :
    Guarded (List WasmCall × Except Error MobileKey) := do
  match ← parseVirgilContainer encryptedMkeyData with
  | .error e => return ([], .error e)
  | .ok container =>
    match decryptVirgilPrivateKey lib engine rsaPrivateKeyDer encryptedVirgilKey with
    | .error e => return ([], .error e)
    | .ok privateKeyDer =>
      let (calls, result) :=
        VirgilRuntime.scope instantiated (decryptContent container privateKeyDer)
      return (calls, result.bind fun decrypted =>
        (MobileKey.fromBytes parseAll decrypted).mapError .key)

end MobileKeys

/-! ### The directory -/

/-- Files by name. -/
abbrev Directory := List (String × List UInt8)

namespace Directory

def read (dir : Directory) (name : String) : Option (List UInt8) := dir.lookup name

/-- A file is made, or overwritten. -/
def write (dir : Directory) (name : String) (data : List UInt8) : Directory :=
  (name, data) :: dir.filter fun file => file.1 ≠ name

end Directory

def rsaPrivateKeyFile : String := "private_key.der"
def sdkTxt : String := "sdk.txt"
def virgilPrivateSec1 : String := "virgil_private_sec1.der"
def virgilPublicSpki : String := "virgil_public_spki.der"
def virgilPublicB64 : String := "virgil_public_key.b64"
def virgilPublicPem : String := "virgil_public_key.pem"

/-- What a tool stops at. -/
inductive Failure where
  | refused
  | io (file : String)
  | base64 (message : String)
  | virgil (error : Error)
  deriving DecidableEq

section Files

variable (engine : Base64Engine)

def pem (label : String) (der : List UInt8) : List Char :=
  s!"-----BEGIN {label}-----\n".toList ++
    (wrapped 64 (engine.encode der)).flatMap (· ++ ['\n']) ++
    s!"-----END {label}-----\n".toList

def keystoreFiles (rsaPrivateKeyDer sdkBlob : List UInt8) (pair : VirgilKeyPair) : Directory :=
  [(rsaPrivateKeyFile, rsaPrivateKeyDer),
    (sdkTxt, utf8 (engine.encode sdkBlob ++ ['\n'])),
    (virgilPrivateSec1, pair.privateKeyDer),
    (virgilPublicSpki, pair.publicKeyDer),
    (virgilPublicB64, utf8 (engine.encode pair.publicKeyDer ++ ['\n'])),
    (virgilPublicPem, utf8 (pem engine "PUBLIC KEY" pair.publicKeyDer))]

end Files

section Tools

variable {W : Type} [Foundation W] (lib : RsaLibrary) (engine : Base64Engine)

/-- `keystore_gen`, into a directory as it was; one that does not exist yet is an empty one. -/
def keystoreGen (force : Bool) (rng rng' : lib.Rng) (instantiated : Except Error W)
    (dir : Directory) : Except Failure Directory :=
  if dir ≠ [] ∧ force = false then .error .refused
  else do
    let rsaPrivateKeyDer ← (generateRsaPrivateKey lib rng).mapError .virgil
    let pair ← (generateVirgilKeyPair instantiated).2.mapError .virgil
    let sdkBlob ←
      (encryptVirgilPrivateKey lib engine rng' rsaPrivateKeyDer pair.privateKeyDer).mapError
        .virgil
    return (keystoreFiles engine rsaPrivateKeyDer sdkBlob pair).foldl
      (fun dir file => dir.write file.1 file.2) dir

/-- A file that has to be there. -/
def readFile (dir : Directory) (name : String) : Except Failure (List UInt8) :=
  match dir.read name with
  | some data => .ok data
  | none => .error (.io name)

/-- The bytes that a file of base 64 stands for, in whatever white space. -/
def readBase64 (dir : Directory) (name : String) : Except Failure (List UInt8) := do
  let data ← readFile dir name
  match fromUtf8 data with
  | none => .error (.io name)
  | some text =>
    (engine.decode (trim text)).mapError .base64

/-- `keystore_check`: whether the parts of a keystore belong together. -/
def keystoreCheck (instantiated instantiated' : Except Error W) (dir : Directory) :
    Except Failure Bool := do
  let rsaPrivateKeyDer ← readFile dir rsaPrivateKeyFile
  let sdkBlob ← readBase64 engine dir sdkTxt
  let publicSpki ← readFile dir virgilPublicSpki
  let privateKeyDer ←
    (decryptVirgilPrivateKey lib engine rsaPrivateKeyDer sdkBlob).mapError .virgil
  let sec1Matches := (dir.read virgilPrivateSec1).all (· = privateKeyDer)
  let derived ← (deriveVirgilPublicKey instantiated privateKeyDer).2.mapError .virgil
  let roundtrip ← (roundtripVirgilPublicKey instantiated' publicSpki).2.mapError .virgil
  return sec1Matches && derived = publicSpki && roundtrip = publicSpki

variable (parseAll : List UInt8 → List Ber.Tlv)

/-- `mkey_decode`, with the mobile key's data as it stands in the environment. -/
def mkeyDecode (instantiated : Except Error W) (dir : Directory) (mkeyB64 : List Char) :
    Guarded (Except Failure MobileKey) :=
  match readFile dir rsaPrivateKeyFile with
  | .error e => return .error e
  | .ok rsaKeyDer =>
    match readBase64 engine dir sdkTxt with
    | .error e => return .error e
    | .ok encryptedVirgilKey =>
      match engine.decode mkeyB64 with
      | .error e => return .error (.base64 e)
      | .ok encryptedMkeyData => do
        let (_, result) ← decryptMobileKey lib engine parseAll instantiated rsaKeyDer
          encryptedVirgilKey encryptedMkeyData
        return result.mapError .virgil

end Tools

end Mkey.Virgil
