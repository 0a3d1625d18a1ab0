import Mkey.Core.Justin
import Mkey.Core.Ssp

/-! The v0200 stack: the SSP layer below, the command layer above. -/
namespace Mkey

structure JustinStack0100 (S : Type) where
  ssp : SecureProtocolManager
  justin : JustinProtocolManager S

namespace JustinStack0100

open Control

variable {S : Type} [MobileKeyStore S]

/-- The secure flag lasts for one command: the earlier value is put back whatever happens. -/
def processJustin (stack : JustinStack0100 S) (payload : List UInt8) (secureSession : Bool) :
    JustinStack0100 S × Except Error (List UInt8) :=
  let prev := stack.justin.secureSession
  let (justin, res) := (stack.justin.setSecureSession secureSession).processCommand payload
  ({ stack with justin := justin.setSecureSession prev }, res)

def handlePacket (aes : BlockCipher) (stack : JustinStack0100 S) (packet : List UInt8) :
    JustinStack0100 S × Except Error (List UInt8) :=
  match packet with
  | [] | [_] => (stack, .error (.invalidData "SSP packet too short"))
  | controlByte :: first :: rest =>
    if isControl controlByte then
      -- control packets never reach the command layer
      let (ssp, res) := stack.ssp.processPacket aes packet
      ({ stack with ssp }, res)
    else if isEncrypted controlByte then
      match stack.ssp.processPacket aes packet with
      | (ssp, .error e) => ({ stack with ssp }, .error e)
      | (ssp, .ok plaintext) =>
        match ({ stack with ssp } : JustinStack0100 S).processJustin plaintext true with
        | (stack, .error e) => (stack, .error e)
        | (stack, .ok responsePayload) =>
          -- the answer goes back the way the command came: encrypted
          let (ssp, res) := stack.ssp.wrapData aes responsePayload
          ({ stack with ssp }, res)
    else
      -- a clear data packet bypasses the SSP layer, and its control byte is echoed
      match stack.processJustin (first :: rest) false with
      | (stack, .error e) => (stack, .error e)
      | (stack, .ok responsePayload) => (stack, .ok (controlByte :: responsePayload))

end JustinStack0100

end Mkey
