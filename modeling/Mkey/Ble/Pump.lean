import Mkey.Lib.Loop
import Mkey.Session.Session

/-!
# The pump

Drives a session over a transport: applies its actions in order, and turns what
the radio did into the next event. Every call the pump makes is on record.
-/
namespace Mkey

/-- What the pump can do to the world outside: the radio and the clock. A wait with a bound
answers `none` when its time is up first. -/
class BleTransport (T : Type) where
  now : T → Nat
  sleep : T → UInt32 → T
  write : T → List UInt8 → T × Except Error Unit
  subscribe : T → T × Except Error Unit
  readNotifyValue : T → UInt32 → T × Option (Except Error (List UInt8))
  receive : T → Nat → T × Option (Except Error (Option (List UInt8)))
  disconnect : T → T × Except Error Unit

/-- A call the pump makes, on the transport or on the observer. -/
inductive PumpCall where
  | write (bytes : List UInt8)
  | subscribe
  | readNotifyValue (timeoutMs : UInt32)
  | receive
  | pause (ms : UInt32)
  | disconnect
  | phase (phase : Phase)
  | trace (trace : Trace)
  deriving DecidableEq

/-- A timer and the instant it expires at. -/
abbrev Deadline := TimerId × Nat

/-- How far the actions of a batch were applied: to the end, or up to a return. -/
inductive Applied where
  | wholly (protocolInfo : Option (Option (List UInt8))) (deadline : Option Deadline)
  | returned (result : Except Error Outcome)

/-- One turn of the loop: the session, and the event it is to be polled with. -/
structure Turn (T : Type) where
  transport : T
  session : Session
  pending : Event
  deadline : Option Deadline

namespace Pump

def traceInfo (message : String) : PumpCall := .trace (.info message)

section Transport

variable {T : Type} [BleTransport T]

/-- A call, and what the rest of the batch adds to it. -/
def andThen (calls : List PumpCall) (rest : T × List PumpCall × Applied) :
    T × List PumpCall × Applied := (rest.1, calls ++ rest.2.1, rest.2.2)

def readNote (timeoutMs : UInt32) : Option (Except Error (List UInt8)) → List PumpCall
  | some (.ok _) => []
  | some (.error e) => [traceInfo s!"Protocol info read failed: {e.display}"]
  | none => [traceInfo s!"No protocol info within {timeoutMs.toNat} ms"]

def readBytes : Option (Except Error (List UInt8)) → Option (List UInt8)
  | some (.ok bytes) => some bytes
  | some (.error _) | none => none

def announceNote : Except Error Unit → PumpCall
  | .ok () => traceInfo s!"Wrote the app protocol request {Hex.encode appProtocolRequest}"
  | .error e => traceInfo s!"App protocol request failed: {e.display}"

/-- Apply the actions of a batch in order. A failed subscription or write ends the pump. -/
def applyActions (t : T) (info : Option (Option (List UInt8))) (deadline : Option Deadline) :
    List Action → T × List PumpCall × Applied
  | [] => (t, [], .wholly info deadline)
  | .announceAppProtocol :: rest =>
    -- a lock that does not take the request may still answer the read
    let (t, res) := BleTransport.write t appProtocolRequest
    andThen [.write appProtocolRequest, announceNote res] (applyActions t info deadline rest)
  | .readProtocolInfo timeoutMs :: rest =>
    let (t, read) := BleTransport.readNotifyValue t timeoutMs
    andThen (.readNotifyValue timeoutMs :: readNote timeoutMs read)
      (applyActions t (some (readBytes read)) deadline rest)
  | .subscribe :: rest =>
    -- without notifications or a write there is no exchange: return at once
    match BleTransport.subscribe t with
    | (t, .error e) => (t, [.subscribe], .returned (.error e))
    | (t, .ok ()) => andThen [.subscribe] (applyActions t info deadline rest)
  | .write bytes :: rest =>
    match BleTransport.write t bytes with
    | (t, .error e) => (t, [.write bytes], .returned (.error e))
    | (t, .ok ()) => andThen [.write bytes] (applyActions t info deadline rest)
  | .pause ms :: rest =>
    andThen [.pause ms] (applyActions (BleTransport.sleep t ms) info deadline rest)
  | .setTimer id afterMs :: rest =>
    -- a new timer replaces the one before it
    applyActions t info (some (id, BleTransport.now t + afterMs.toNat)) rest
  | .phase phase :: rest => andThen [.phase phase] (applyActions t info deadline rest)
  | .trace trace :: rest => andThen [.trace trace] (applyActions t info deadline rest)
  | .done result :: _ => (t, [], .returned result)

/-- The event a wait for the lock ends in, with what is traced about it. -/
def heard (id : TimerId) : Option (Except Error (Option (List UInt8))) → List PumpCall × Event
  | some (.ok (some data)) => ([], .notification data)
  | some (.ok none) => ([], .linkClosed)
  | some (.error e) => ([traceInfo s!"The link failed: {e.display}"], .linkClosed)
  | none => ([], .timer id)

variable (aes : BlockCipher) (os : RandomSource)

/-- What the pump hands back with its result: the transport and the session as they are left. -/
abbrev Return (T : Type) := T × Session × Except Error Outcome

def turn (loop : Turn T) : List PumpCall × (Turn T ⊕ Return T) :=
  let (session, actions) := loop.session.poll aes os loop.pending
  match applyActions loop.transport none loop.deadline actions with
  | (t, calls, .returned result) => (calls, .inr (t, session, result))
  -- a read made in this batch is the next event, before any wait
  | (t, calls, .wholly (some info) deadline) =>
      (calls, .inl ⟨t, session, .protocolInfo info, deadline⟩)
  -- neither a read, a timer nor an end: the session would wait for ever
  | (t, calls, .wholly none none) =>
      (calls, .inr (t, session, .error (.invalidState "a pending wait or a finished session"
        "the session asked for nothing and did not finish")))
  | (t, calls, .wholly none (some (id, expires))) =>
    let (t, arrived) := BleTransport.receive t expires
    let (notes, pending) := heard id arrived
    (calls ++ .receive :: notes, .inl ⟨t, session, pending, some (id, expires)⟩)

def first (t : T) (session : Session) : Turn T := ⟨t, session, .started, none⟩

def pump (fuel : Nat) (t : T) (session : Session) : Option (List PumpCall × Return T) :=
  Loop.run (turn aes os) fuel (first t session)

/-- Run one opening attempt to completion, when the fuel suffices. -/
def runSession (fuel : Nat) (t : T) (session : Session) : Option (List PumpCall × Return T) :=
  (pump aes os fuel t session).map fun (calls, t, session, result) =>
    -- a return the session knows nothing of still has to end the observer's phases
    let finished := if session.finished then [] else [.phase .finished]
    -- a disconnection that fails is not reported
    let (t, _) := BleTransport.disconnect t
    (calls ++ finished ++ [.disconnect], t, session, result)

end Transport

end Pump

end Mkey
