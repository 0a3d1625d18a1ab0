import Mkey.Core.Stack
import Mkey.Session.Types

/-!
# The session

One opening attempt as a pure state machine: each poll takes one event and
returns the actions the shell is to apply, in order.
-/
namespace Mkey

def appProtocolRequest : List UInt8 := [0xC0, 0x01, 0x01]

def protocolInfoPrefix : UInt8 := 0x01

def tagOpeningMode : UInt8 := 0x10

namespace V0100Prefix

def identify : UInt8 := 0x02
def nonce : UInt8 := 0x03
def signedNonce : UInt8 := 0x04
def result : UInt8 := 0x05

end V0100Prefix

def v0100SettleMs : UInt32 := 50
def v0100NonceLength : Nat := 16
def v0100SignIv : Block := Block.replicate 0xFF

def lockDisconnectedMessage : String := "The lock closed the connection"

structure V0200 where
  stack : JustinStack0100 NoopKeyStore
  firstPacket : Bool
  finalOpResult : Option UInt8
  exchanging : Bool
  tracedKnRefusals : UInt32

inductive V0100Step where
  | awaitingNonce
  | awaitingResult
  deriving DecidableEq

def V0100Step.expectedPrefix : V0100Step → UInt8
  | awaitingNonce => V0100Prefix.nonce
  | awaitingResult => V0100Prefix.result

structure V0100 where
  knKey : Block
  step : V0100Step

inductive State where
  | idle
  | detecting
  | v0200 (session : V0200)
  | v0100 (session : V0100)

/-- `finished` stands beside the state, so that a finished session can still be inspected. -/
structure Session where
  key : MobileKey
  options : Options
  random : Option RandomSource
  state : State
  finished : Bool

def info (message : String) : Action := .trace (.info message)

def describe : Event → String
  | .started => "a start"
  | .protocolInfo _ => "protocol info"
  | .notification _ => "a notification"
  | .timer _ => "a timer"
  | .linkClosed => "a disconnect"
  | .aborted => "an abort"

namespace V0200

/-- Which wait comes next, and how long it is. -/
def nextWait (timeouts : Timeouts) (session : V0200) : TimerId × UInt32 :=
  if session.finalOpResult.isSome then (.afterFinalResult, timeouts.afterFinalResultMs)
  -- a verdict outranks the first packet: after it the lock is only given time to leave
  else if session.firstPacket then (.firstPacket, timeouts.firstPacketMs)
  else (.packet, timeouts.packetMs)

/-- A refusal of the kN key is traced once, when the count has moved. -/
def traceRefusals (session : V0200) : V0200 × List Action :=
  let refusals := session.stack.justin.knReadRefusals
  -- the count only grows, so an unmoved one means nothing new was refused
  if refusals > session.tracedKnRefusals then
    ({ session with tracedKnRefusals := refusals },
      [info ("Refused to hand out the kN key: the lock asked for tag 0x02 outside a secure " ++
        "session")])
  else (session, [])

def enterExchange (session : V0200) : V0200 × List Action :=
  if !session.exchanging && session.stack.ssp.state = .inSession then
    ({ session with exchanging := true }, [.phase .exchanging])
  else (session, [])

/-- The first audit write whose group is accepted or rejected is final. -/
def latchVerdict (session : V0200) : V0200 :=
  match session.finalOpResult, session.stack.justin.lastAuditOpResult with
  | none, some opResult =>
      -- unknown and failed results leave room for a later verdict
      if (OpResultGroup.of opResult).isFinal then { session with finalOpResult := some opResult }
      else session
  | _, _ => session

section Fields

variable (session : V0200)

@[simp] theorem traceRefusals_stack : session.traceRefusals.1.stack = session.stack := by
  unfold traceRefusals; dsimp only; split <;> rfl

@[simp] theorem traceRefusals_finalOpResult :
    session.traceRefusals.1.finalOpResult = session.finalOpResult := by
  unfold traceRefusals; dsimp only; split <;> rfl

@[simp] theorem traceRefusals_exchanging :
    session.traceRefusals.1.exchanging = session.exchanging := by
  unfold traceRefusals; dsimp only; split <;> rfl

@[simp] theorem enterExchange_stack : session.enterExchange.1.stack = session.stack := by
  unfold enterExchange; split <;> rfl

@[simp] theorem enterExchange_finalOpResult :
    session.enterExchange.1.finalOpResult = session.finalOpResult := by
  unfold enterExchange; split <;> rfl

@[simp] theorem latchVerdict_stack : session.latchVerdict.stack = session.stack := by
  rw [latchVerdict]
  split
  · split <;> rfl
  · rfl

@[simp] theorem latchVerdict_exchanging :
    session.latchVerdict.exchanging = session.exchanging := by
  rw [latchVerdict]
  split
  · split <;> rfl
  · rfl

end Fields

end V0200

namespace Session

def new (key : MobileKey) (options : Options) : Session :=
  { key, options, random := none, state := .idle, finished := false }

def withRandom (key : MobileKey) (options : Options) (random : RandomSource) : Session :=
  { new key options with random := some random }

/-- A session before its first event, with or without an injected source of randomness. -/
def start (key : MobileKey) (options : Options) (random : Option RandomSource) : Session :=
  { new key options with random }

/-- The v0200 protocol stack, once the session has started one. -/
def stack (s : Session) : Option (JustinStack0100 NoopKeyStore) :=
  match s.state with
  | .v0200 session => some session.stack
  | _ => none

/-- The session a poll leaves, and the actions it returns. -/
abbrev Polled := Session × List Action

/-- Actions pushed before what a branch goes on to return. -/
def emit (actions : List Action) (polled : Polled) : Polled := (polled.1, actions ++ polled.2)

def finish (s : Session) (result : Except Error Outcome) : Polled :=
  -- the protocol state is kept: it can still be asked for the verdict
  ({ s with finished := true }, [.phase .finished, .done result])

@[simp] theorem emit_fst (actions : List Action) (polled : Polled) :
    (emit actions polled).1 = polled.1 := rfl

@[simp] theorem finish_state (s : Session) (result : Except Error Outcome) :
    (s.finish result).1.state = s.state := rfl

/-- An event the shell contract rules out ends the session loudly. -/
def unexpected (s : Session) (event : Event) (when_ : String) : Polled :=
  s.finish (.error (.invalidState s!"no {describe event} {when_}" s!"{describe event} {when_}"))

/-- The OS source of randomness stands in where none was injected. -/
def beginV0200 (os : RandomSource) (s : Session) : Polled :=
  -- office mode is told to the lock as a tag it may read in the clear
  let key :=
    if s.options.mode = .office then
      { s.key with
        tags := s.key.tags.insert tagOpeningMode
          ⟨tagOpeningMode, Permissions.readable.union .readWithoutSecurity,
            [Mode.office.toByte]⟩ }
    else s.key
  let ssp := SecureProtocolManager.withRandom key.knKey (s.random.getD os)
  let session : V0200 :=
    { stack := ⟨ssp, .newWithKey key⟩, firstPacket := true, finalOpResult := none,
      exchanging := false, tracedKnRefusals := 0 }
  ({ s with random := none, state := .v0200 session },
    [.setTimer .firstPacket s.options.timeouts.firstPacketMs])

def beginV0100 (s : Session) : Polled :=
  let identify := V0100Prefix.identify :: s.key.tag1
  ({ s with state := .v0100 { knKey := s.key.knKey, step := .awaitingNonce } },
    [.trace (.tx identify), .write identify, .pause v0100SettleMs,
      .setTimer .firstPacket s.options.timeouts.firstPacketMs])

/-- Enable notifications and start the flow the detected version calls for. -/
def begin (os : RandomSource) (s : Session) (major : Option UInt8) : Polled :=
  match major with
  | some version =>
      -- refused before anything is subscribed to
      if version ≠ 1 ∧ version ≠ 2 then
        s.finish (.error (.invalidProtocolVersion
          s!"Unsupported SALTO protocol version, major {version.toNat}"))
      else
        emit [.subscribe, .phase .authenticating]
          (if version = 1 then s.beginV0100 else s.beginV0200 os)
  -- an unknown version is taken for the newer protocol
  | none => emit [.subscribe, .phase .authenticating] (s.beginV0200 os)

def pollIdle (os : RandomSource) (s : Session) (event : Event) : Polled :=
  match event with
  | .started =>
    emit [.phase .detectingVersion] <|
      if s.options.detection = .none then
        emit [info "Version detection skipped, subscribing straight away"] (s.begin os none)
      else if !s.options.notifyReadable then
        emit [info "Notify characteristic is not readable, protocol version unknown"]
          (s.begin os none)
      else
        ({ s with state := .detecting },
          (if s.options.detection = .appProtocol then [.announceAppProtocol] else []) ++
            [.readProtocolInfo s.options.timeouts.protocolInfoReadMs])
  | .linkClosed => s.finish (.error .disconnected)
  | other => s.unexpected other "before the session started"

/-- The major version, when the bytes have the shape of a protocol info. -/
def majorVersion : List UInt8 → Option UInt8
  -- at least three bytes, and whatever follows them is ignored
  | first :: _ :: major :: _ => if first = protocolInfoPrefix then some major else none
  | _ => none

def pollDetecting (os : RandomSource) (s : Session) (event : Event) : Polled :=
  match event with
  | .protocolInfo (some bytes) =>
    emit [.trace (.read bytes)] <|
      match majorVersion bytes with
      | some major => s.begin os (some major)
      | none =>
        emit [info "Protocol info has an unexpected shape, protocol version unknown"]
          (s.begin os none)
  | .protocolInfo none =>
    emit [info "Protocol info read failed, protocol version unknown"] (s.begin os none)
  | .linkClosed => s.finish (.error .disconnected)
  | other => s.unexpected other "while detecting the protocol version"

section Aes

variable (aes : BlockCipher)

def pollV0200 (s : Session) (session : V0200) (event : Event) : Polled :=
  match event with
  | .notification packet =>
    emit [.trace (.rx packet)] <|
      match session.stack.handlePacket aes packet with
      -- a packet the stack refuses is fatal, and nothing is written back
      | (stack, .error e) =>
          ({ s with state := .v0200 { session with stack } } : Session).finish (.error e)
      | (stack, .ok response) =>
        let (session, refused) := ({ session with stack } : V0200).traceRefusals
        let (session, entered) := session.enterExchange
        let session := session.latchVerdict
        emit ([.trace (.tx response)] ++ refused ++ [.write response] ++ entered) <|
          -- the lock has closed the key: that ends the attempt, with or without a verdict
          if session.stack.justin.state = .ready then
            ({ s with state := .v0200 session } : Session).finish
              (.ok (Outcome.new 2 session.finalOpResult))
          else
            let session := { session with firstPacket := false }
            let (id, afterMs) := session.nextWait s.options.timeouts
            ({ s with state := .v0200 session }, [.setTimer id afterMs])
  | .timer _ =>
    -- which timer it was does not matter, only what is being waited for
    let (_, waited) := session.nextWait s.options.timeouts
    match session.finalOpResult with
    | some opResult =>
      emit [info "The lock went silent after reporting its result"]
        (s.finish (.ok (Outcome.new 2 (some opResult))))
    | none =>
      emit [info s!"No packet from the lock within {waited.toNat} ms"]
        (s.finish (.error (.timeout waited.toUInt64)))
  | .linkClosed =>
    emit [info lockDisconnectedMessage] (s.finish (.ok (Outcome.new 2 session.finalOpResult)))
  | other => s.unexpected other "during the v0200 exchange"

/-- A packet with the expected first byte, as the step it is meant for takes it. -/
def receiveV0100 (s : Session) (session : V0100) (packet : List UInt8) : Polled :=
  match session.step with
  | .awaitingNonce =>
    if short : packet.length < 1 + v0100NonceLength then
      s.finish (.error (.invalidData s!"v0100 nonce packet too short: {packet.length} bytes"))
    else
      let signed := encryptAesCbc aes session.knKey v0100SignIv
        (Block.slice packet 1 (Block.slice_fits short (by decide))).toList
        ⟨1, Chunk.length_toList _⟩
      let signedPacket := V0100Prefix.signedNonce :: signed
      ({ s with state := .v0100 { session with step := .awaitingResult } },
        -- the nonce is one block, so signing it is a single CBC step
        [.phase .exchanging, .trace (.tx signedPacket), .write signedPacket,
          .setTimer .packet s.options.timeouts.packetMs])
  | .awaitingResult =>
    match packet with
    | _ :: opResult :: _ => s.finish (.ok (Outcome.new 1 (some opResult)))
    | _ => s.finish (.error (.invalidData s!"v0100 result packet too short: {packet.length} bytes"))

def pollV0100 (s : Session) (session : V0100) (event : Event) : Polled :=
  match event with
  | .notification packet =>
    emit [.trace (.rx packet)] <|
      if packet.head? ≠ some session.step.expectedPrefix then
        -- the running timer stays as it is
        (s, [info s!"Ignoring an unexpected packet {Hex.encode packet}"])
      else s.receiveV0100 aes session packet
  | .timer _ =>
    let expected := session.step.expectedPrefix
    let waited :=
      match session.step with
      | .awaitingNonce => s.options.timeouts.firstPacketMs
      | .awaitingResult => s.options.timeouts.packetMs
    emit [info s!"No 0x{Hex.byte true expected} packet from the lock within {waited.toNat} ms"]
      (s.finish (.error (.timeout waited.toUInt64)))
  | .linkClosed => s.finish (.error .disconnected)
  | other => s.unexpected other "during the v0100 exchange"

/-- Hand the session one event and collect what it wants done. -/
def poll (os : RandomSource) (s : Session) (event : Event) : Polled :=
  if s.finished then (s, [])
  else if event = .aborted then s.finish (.error .cancelled)
  else
    match s.state with
    | .idle => s.pollIdle os event
    | .detecting => s.pollDetecting os event
    | .v0200 session => s.pollV0200 aes session event
    | .v0100 session => s.pollV0100 aes session event

end Aes

end Session

end Mkey
