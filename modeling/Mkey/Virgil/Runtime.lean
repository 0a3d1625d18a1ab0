import Mkey.Lib.Recorded
import Mkey.Virgil.Container

/-!
# The embedded library

All curve operations run in an instance of a WASM module, reached by calls on
handles and by copying bytes in and out of its memory. The instance answers
every call as it likes, or traps; every call is on record.
-/
namespace Mkey.Virgil

/-- The exports that are used. -/
inductive Func where
  | malloc
  | bufferNewWithCapacity
  | bufferDelete
  | bufferBytes
  | bufferLen
  | dataCtxSize
  | dataInit
  | errorCtxSize
  | errorReset
  | errorStatus
  | ctrDrbgNew
  | ctrDrbgDelete
  | ctrDrbgSetupDefaults
  | keyProviderNew
  | keyProviderDelete
  | keyProviderSetupDefaults
  | keyProviderUseRandom
  | keyProviderGeneratePrivateKey
  | keyProviderImportPrivateKey
  | keyProviderImportPublicKey
  | keyProviderExportPublicKey
  | keyProviderExportedPrivateKeyLen
  | keyProviderExportPrivateKey
  | eccPrivateKeyExtractPublicKey
  | recipientCipherNew
  | recipientCipherDelete
  | recipientCipherUseRandom
  | recipientCipherStartDecryptionWithKey
  | recipientCipherDecryptionOutLen
  | recipientCipherProcessDecryption
  | recipientCipherFinishDecryption
  deriving DecidableEq

/-- How a trap names the export. -/
def Func.name : Func → String
  | malloc => "malloc"
  | bufferNewWithCapacity => "buffer_new_with_capacity"
  | bufferDelete => "buffer_delete"
  | bufferBytes => "buffer_bytes"
  | bufferLen => "buffer_len"
  | dataCtxSize => "data_ctx_size"
  | dataInit => "data_init"
  | errorCtxSize => "error_ctx_size"
  | errorReset => "error_reset"
  | errorStatus => "error_status"
  | ctrDrbgNew => "ctr_drbg_new"
  | ctrDrbgDelete => "ctr_drbg_delete"
  | ctrDrbgSetupDefaults => "ctr_drbg_setup_defaults"
  | keyProviderNew => "key_provider_new"
  | keyProviderDelete => "key_provider_delete"
  | keyProviderSetupDefaults => "key_provider_setup_defaults"
  | keyProviderUseRandom => "key_provider_use_random"
  | keyProviderGeneratePrivateKey => "key_provider_generate_private_key"
  | keyProviderImportPrivateKey => "key_provider_import_private_key"
  | keyProviderImportPublicKey => "key_provider_import_public_key"
  | keyProviderExportPublicKey => "key_provider_export_public_key"
  | keyProviderExportedPrivateKeyLen => "key_provider_exported_private_key_len"
  | keyProviderExportPrivateKey => "key_provider_export_private_key"
  | eccPrivateKeyExtractPublicKey => "ecc_private_key_extract_public_key"
  | recipientCipherNew => "recipient_cipher_new"
  | recipientCipherDelete => "recipient_cipher_delete"
  | recipientCipherUseRandom => "recipient_cipher_use_random"
  | recipientCipherStartDecryptionWithKey => "recipient_cipher_start_decryption_with_key"
  | recipientCipherDecryptionOutLen => "recipient_cipher_decryption_out_len"
  | recipientCipherProcessDecryption => "recipient_cipher_process_decryption"
  | recipientCipherFinishDecryption => "recipient_cipher_finish_decryption"

/-- An instance of the module: a call that has no result answers with nothing of interest, and a
trap or an access out of bounds with the runtime's text. -/
class Foundation (W : Type) where
  call : W → Func → List Int32 → W × Except String Int32
  write : W → Int32 → List UInt8 → W × Except String Unit
  read : W → Int32 → Nat → Except String (List UInt8)

/-- A call on record, with the answer to it. -/
inductive WasmCall where
  | call (func : Func) (args : List Int32) (answer : Except String Int32)
  | write (ptr : Int32) (answer : Except String Unit)
  | read (ptr : Int32) (size : Nat) (answer : Except String (List UInt8))

/-- The handles are zero until they are there. -/
structure VirgilRuntime (W : Type) where
  store : W
  rng : Int32
  keyProvider : Int32
  errorCtx : Int32
  dataCtxSize : Int32

/-- A computation on a runtime. -/
abbrev Wasm (W α : Type) := Recorded (VirgilRuntime W) WasmCall Error α

def algIdSecp256r1 : Int32 := 10
def exportBufferCapacity : Int32 := 512

/-- The name of a status, where it has one. -/
def statusName (status : Int32) : String :=
  match status.toInt with
  | 0 => "SUCCESS"
  | -1 => "ERROR_BAD_ARGUMENTS"
  | -2 => "ERROR_UNINITIALIZED"
  | -3 => "ERROR_UNHANDLED_THIRDPARTY_ERROR"
  | -101 => "ERROR_SMALL_BUFFER"
  | -200 => "ERROR_UNSUPPORTED_ALGORITHM"
  | -201 => "ERROR_AUTH_FAILED"
  | -202 => "ERROR_OUT_OF_DATA"
  | -203 => "ERROR_BAD_ASN1"
  | -207 => "ERROR_BAD_PKCS8_PUBLIC_KEY"
  | -208 => "ERROR_BAD_PKCS8_PRIVATE_KEY"
  | -209 => "ERROR_BAD_ENCRYPTED_DATA"
  | -210 => "ERROR_RANDOM_FAILED"
  | -211 => "ERROR_KEY_GENERATION_FAILED"
  | -212 => "ERROR_ENTROPY_SOURCE_FAILED"
  | -221 => "ERROR_BAD_SEC1_PUBLIC_KEY"
  | -222 => "ERROR_BAD_SEC1_PRIVATE_KEY"
  | -223 => "ERROR_BAD_DER_PUBLIC_KEY"
  | -224 => "ERROR_BAD_DER_PRIVATE_KEY"
  | -225 => "ERROR_MISMATCH_PUBLIC_KEY_AND_ALGORITHM"
  | -226 => "ERROR_MISMATCH_PRIVATE_KEY_AND_ALGORITHM"
  | -236 => "ERROR_BAD_ASN1_ALGORITHM"
  | -237 => "ERROR_BAD_ASN1_ALGORITHM_ECC"
  | -301 => "ERROR_NO_MESSAGE_INFO"
  | -302 => "ERROR_BAD_MESSAGE_INFO"
  | -303 => "ERROR_KEY_RECIPIENT_IS_NOT_FOUND"
  | -304 => "ERROR_KEY_RECIPIENT_PRIVATE_KEY_IS_WRONG"
  | -311 => "ERROR_KEY_RECIPIENT_KEK_IS_WRONG"
  | -501 => "ERROR_INVALID_PADDING"
  | _ => "unknown status"

def statusError (op : String) (status : Int32) : Error :=
  .wasm s!"{op} failed: Virgil status {status.toInt} ({statusName status})"

namespace VirgilRuntime

variable {W : Type} [Foundation W]

def call (func : Func) (args : List Int32) : Wasm W Int32 := fun rt =>
  match Foundation.call rt.store func args with
  | (store, .ok value) => ([.call func args (.ok value)], { rt with store }, .ok value)
  | (store, .error e) =>
    ([.call func args (.error e)], { rt with store },
      .error (.wasm s!"{func.name} trapped: {e}"))

/-- `malloc` inside the heap of the instance. -/
def alloc (size : Int32) : Wasm W Int32 := do
  let ptr ← call .malloc [size]
  if ptr = 0 then Recorded.fail (.wasm s!"WASM malloc({size.toInt}) returned null")
  else return ptr

def memoryWrite (ptr : Int32) (data : List UInt8) : Wasm W Unit := fun rt =>
  match Foundation.write rt.store ptr data with
  | (store, .ok ()) => ([.write ptr (.ok ())], { rt with store }, .ok ())
  | (store, .error e) =>
    ([.write ptr (.error e)], { rt with store }, .error (.wasm s!"memory write failed: {e}"))

/-- Copy some bytes into a fresh allocation. -/
def writeBytes (data : List UInt8) : Wasm W Int32 := do
  let ptr ← alloc (Int32.ofNat data.length)
  memoryWrite ptr data
  return ptr

/-- A negative size reads nothing. -/
def readBytes (ptr size : Int32) : Wasm W (List UInt8) := fun rt =>
  let size := size.toInt.toNat
  match Foundation.read rt.store ptr size with
  | .ok bytes => ([.read ptr size (.ok bytes)], rt, .ok bytes)
  | .error e => ([.read ptr size (.error e)], rt, .error (.wasm s!"memory read failed: {e}"))

/-- A view of a copy of some bytes. -/
def data (bytes : List UInt8) : Wasm W Int32 := do
  let rt ← Recorded.get
  let ptr ← writeBytes bytes
  let ctx ← alloc rt.dataCtxSize
  let _ ← call .dataInit [ctx, ptr, Int32.ofNat bytes.length]
  return ctx

def newBuffer (capacity : Int32) : Wasm W Int32 := do
  let buffer ← call .bufferNewWithCapacity [capacity]
  if buffer = 0 then Recorded.fail (.wasm "vsc_buffer_new returned null")
  else return buffer

/-- Copy the contents of a buffer out and release it. -/
def takeBuffer (buffer : Int32) : Wasm W (List UInt8) := do
  let ptr ← call .bufferBytes [buffer]
  let size ← call .bufferLen [buffer]
  let out ← readBytes ptr size
  (call .bufferDelete [buffer]).ignore
  return out

def resetError : Wasm W Int32 := do
  let rt ← Recorded.get
  call .errorReset [rt.errorCtx]

def errorStatus : Wasm W Int32 := do
  let rt ← Recorded.get
  call .errorStatus [rt.errorCtx]

/-- What the provider made of a request, or the status it left. -/
def obtained (op : String) (key : Int32) : Wasm W Int32 := do
  let status ← errorStatus
  if key = 0 ∨ status ≠ 0 then Recorded.fail (statusError op status)
  else return key

def generatePrivateKey (algId : Int32) : Wasm W Int32 := do
  let rt ← Recorded.get
  let _ ← resetError
  let key ← call .keyProviderGeneratePrivateKey [rt.keyProvider, algId, rt.errorCtx]
  obtained s!"generate_private_key(alg_id={algId.toInt})" key

def importKey (func : Func) (op : String) (der : List UInt8) : Wasm W Int32 := do
  let view ← data der
  let rt ← Recorded.get
  let _ ← resetError
  let key ← call func [rt.keyProvider, view, rt.errorCtx]
  obtained op key

/-- A SEC1 key, as the provider itself writes it. -/
def importPrivateKey : List UInt8 → Wasm W Int32 :=
  importKey .keyProviderImportPrivateKey "import_private_key"

def importPublicKey : List UInt8 → Wasm W Int32 :=
  importKey .keyProviderImportPublicKey "import_public_key"

/-- An export into a buffer: released unread when it fails. -/
def exportInto (func : Func) (op : String) (key buffer : Int32) : Wasm W (List UInt8) := do
  let rt ← Recorded.get
  let status ← call func [rt.keyProvider, key, buffer]
  if status ≠ 0 then
    (call .bufferDelete [buffer]).ignore
    Recorded.fail (statusError op status)
  else takeBuffer buffer

def exportPrivateKey (key : Int32) : Wasm W (List UInt8) := do
  let rt ← Recorded.get
  let size ← call .keyProviderExportedPrivateKeyLen [rt.keyProvider, key]
  let buffer ← newBuffer (if size < exportBufferCapacity then exportBufferCapacity else size)
  exportInto .keyProviderExportPrivateKey "export_private_key" key buffer

/-- There is no length to ask for here. -/
def exportPublicKey (key : Int32) : Wasm W (List UInt8) := do
  let buffer ← newBuffer exportBufferCapacity
  exportInto .keyProviderExportPublicKey "export_public_key" key buffer

def extractPublicKey (privateKey : Int32) : Wasm W Int32 := do
  let key ← call .eccPrivateKeyExtractPublicKey [privateKey]
  if key = 0 then Recorded.fail (.wasm "ecc_private_key_extract_public_key returned null")
  else return key

/-- What `new` does once the module is instantiated: the contexts, the source of randomness, and
the provider. -/
def setUp : Wasm W Unit := do
  let dataCtxSize ← call .dataCtxSize []
  Recorded.modify fun rt => { rt with dataCtxSize }
  let errorCtxSize ← call .errorCtxSize []
  let errorCtx ← alloc errorCtxSize
  Recorded.modify fun rt => { rt with errorCtx }
  let rng ← call .ctrDrbgNew []
  Recorded.modify fun rt => { rt with rng }
  let status ← call .ctrDrbgSetupDefaults [rng]
  if status ≠ 0 then Recorded.fail (statusError "CTR-DRBG setup" status)
  else
    let keyProvider ← call .keyProviderNew []
    Recorded.modify fun rt => { rt with keyProvider }
    let _ ← call .keyProviderUseRandom [keyProvider, rng]
    let status ← call .keyProviderSetupDefaults [keyProvider]
    if status ≠ 0 then Recorded.fail (statusError "Key provider setup" status)
    else return ()

/-- A handle that is still zero stands for nothing. -/
def release (func : Func) (handle : Int32) : Wasm W Unit :=
  if handle = 0 then pure () else (call func [handle]).ignore

/-- The destructor, on every way out. -/
def drop : Wasm W Unit := do
  let rt ← Recorded.get
  release .keyProviderDelete rt.keyProvider
  release .ctrDrbgDelete rt.rng

/-- A runtime made for one body and dropped after it. Instantiating the module may fail. -/
def scope {α : Type} (instantiated : Except Error W) (body : Wasm W α) :
    List WasmCall × Except Error α :=
  match instantiated with
  | .error e => ([], .error e)
  | .ok store =>
    let (calls, rt, result) := (do setUp; body : Wasm W α) ⟨store, 0, 0, 0, 0⟩
    (calls ++ (drop rt).1, result)

end VirgilRuntime

/-- Both halves in the encodings they are stored in: SEC1, and SubjectPublicKeyInfo. -/
structure VirgilKeyPair where
  privateKeyDer : List UInt8
  publicKeyDer : List UInt8
  deriving DecidableEq

section Operations

open VirgilRuntime

variable {W : Type} [Foundation W] (instantiated : Except Error W)

def generateVirgilKeyPair : List WasmCall × Except Error VirgilKeyPair :=
  scope instantiated do
    let privateKey ← generatePrivateKey algIdSecp256r1
    let privateKeyDer ← exportPrivateKey privateKey
    let publicKey ← extractPublicKey privateKey
    let publicKeyDer ← exportPublicKey publicKey
    return ⟨privateKeyDer, publicKeyDer⟩

def deriveVirgilPublicKey (privateKeyDer : List UInt8) :
    List WasmCall × Except Error (List UInt8) :=
  scope instantiated do
    let privateKey ← importPrivateKey privateKeyDer
    let publicKey ← extractPublicKey privateKey
    exportPublicKey publicKey

def roundtripVirgilPublicKey (publicKeyDer : List UInt8) :
    List WasmCall × Except Error (List UInt8) :=
  scope instantiated do
    let publicKey ← importPublicKey publicKeyDer
    exportPublicKey publicKey

/-- The library asks for an output of some size: at least 64 bytes are given, 10000 at most. -/
def clampCapacity (size : Int32) : Int32 :=
  if size < 64 then 64 else if 10000 < size then 10000 else size

/-- What is left to do once the cipher has been given the key and the message info. -/
def finishDecryption (cipher : Int32) (encryptedContent : List UInt8) : Wasm W (List UInt8) := do
  let content ← data encryptedContent
  let processOutLen ←
    call .recipientCipherDecryptionOutLen [cipher, Int32.ofNat encryptedContent.length]
  let processBuffer ← newBuffer (clampCapacity processOutLen)
  let status ← call .recipientCipherProcessDecryption [cipher, content, processBuffer]
  if status ≠ 0 then
    (call .bufferDelete [processBuffer]).ignore
    (call .recipientCipherDelete [cipher]).ignore
    Recorded.fail (statusError "process_decryption" status)
  else
    let finishOutLen ← call .recipientCipherDecryptionOutLen [cipher, 0]
    let finishBuffer ← newBuffer (clampCapacity finishOutLen)
    let status ← call .recipientCipherFinishDecryption [cipher, finishBuffer]
    if status ≠ 0 then
      (call .bufferDelete [finishBuffer]).ignore
      (call .bufferDelete [processBuffer]).ignore
      (call .recipientCipherDelete [cipher]).ignore
      Recorded.fail (statusError "finish_decryption" status)
    else
      let processed ← takeBuffer processBuffer
      let finished ← takeBuffer finishBuffer
      (call .recipientCipherDelete [cipher]).ignore
      return processed ++ finished

/-- The content of a container, for the holder of the private key. -/
def decryptContent (container : VirgilContainer) (privateKeyDer : List UInt8) :
    Wasm W (List UInt8) := do
  let privateKey ← importPrivateKey privateKeyDer
  let cipher ← call .recipientCipherNew []
  let rt ← Recorded.get
  let _ ← call .recipientCipherUseRandom [cipher, rt.rng]
  let recipientId ← data container.recipientId
  let messageInfo ← data container.messageInfo
  let status ← call .recipientCipherStartDecryptionWithKey
    [cipher, recipientId, privateKey, messageInfo]
  if status ≠ 0 then
    (call .recipientCipherDelete [cipher]).ignore
    Recorded.fail (statusError "start_decryption_with_key" status)
  else
    let decrypted ← finishDecryption cipher container.encryptedContent
    if decrypted = [] then Recorded.fail (.wasm "Decryption produced no output")
    else return decrypted

end Operations

end Mkey.Virgil
