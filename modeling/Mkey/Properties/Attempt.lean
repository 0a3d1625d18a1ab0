import Mkey.Properties.Conversation
import Mkey.Properties.PumpExit
import Mkey.Properties.Verdict

/-!
# An attempt against a lock that keeps to the protocol

The lock of a conversation behind the transport of the pump: what it asks arrives
as notifications, what is written is taken for the reply. `attempt` says what
such an attempt is to come to, without packets, timers and turns.

## Proof strategy

Between two turns the session mirrors the lock and has latched what the lock
reported (`Standing`). One turn of the pump is one request; the run follows by
induction on what the lock still asks.
-/
namespace Mkey

open Machine Session Pump

namespace Request

/-- The command a request brings, if it brings one. -/
def payload : Request → Option (List UInt8)
  | .clear _ first rest => some (first :: rest)
  | .sealed payload => some payload
  | .version | .challenge | .prove _ | .rekey _ _ _ => none

end Request

/-- The result a command reports: the first byte of an audit write that succeeds. -/
def auditOf (payload : List UInt8) (answer : Except Error (List UInt8)) : Option UInt8 :=
  match payload with
  | 0x03 :: id :: first :: _ =>
      if id = tagAudit ∧ answer = .ok [CommandStatus.success.toByte] then some first else none
  | _ => none

namespace Phone

variable (phone : Phone NoopKeyStore)

def audit (request : Request) : Option UInt8 :=
  request.payload.bind fun payload => auditOf payload (phone.answer request).2

/-- What the lock is told until the attempt is over, and how it ends: at the first request that
is refused, when the key is closed, or when the lock has nothing left to ask and leaves. The first
final result that was written stays the result, whatever is written after it. -/
def attempt (phone : Phone NoopKeyStore) (log : List UInt8) :
    List Request → List (List UInt8) × Except Error Outcome
  | [] => ([], .ok (Outcome.new 2 (verdict log)))
  | request :: rest =>
    match phone.answer request with
    | (_, .error e) => ([], .error e)
    | (next, .ok reply) =>
      let log := log ++ (phone.audit request).toList
      if next.justin.state = .ready then ([reply], .ok (Outcome.new 2 (verdict log)))
      else
        let (told, result) := attempt next log rest
        (reply :: told, result)

end Phone

/-- The lock behind the transport: what it still asks, what it waits for, and what it was told. -/
structure HonestLink (aes : BlockCipher) where
  lock : SecureProtocolManager
  info : Option (Except Error (List UInt8))
  todo : List Request
  asked : Option Request
  told : List (Option (List UInt8))

namespace HonestLink

variable {aes : BlockCipher}

def take (link : HonestLink aes) (reply : List UInt8) : HonestLink aes :=
  match link.asked with
  | none => link
  | some request =>
    { link with
        lock := (Lock.hear aes link.lock request reply).1, asked := none
        told := link.told ++ [(Lock.hear aes link.lock request reply).2] }

def ask (link : HonestLink aes) (request : Request) (rest : List Request) : HonestLink aes :=
  { link with lock := (Lock.send aes link.lock request).1, asked := some request, todo := rest }

instance : BleTransport (HonestLink aes) where
  now _ := 0
  sleep link _ := link
  write link bytes := (link.take bytes, .ok ())
  subscribe link := (link, .ok ())
  readNotifyValue link _ := (link, link.info)
  receive link _ :=
    match link.todo with
    | [] => (link, some (.ok none))
    | request :: rest =>
      (link.ask request rest, some (.ok (some (Lock.send aes link.lock request).2)))
  disconnect link := (link, .ok ())

/-- The link of a lock that holds kN, before the attempt. -/
def new (aes : BlockCipher) (knKey : Block) (random : RandomSource)
    (info : Option (Except Error (List UInt8))) (requests : List Request) : HonestLink aes :=
  { lock := .withRandom knKey random, info, todo := requests, asked := none, told := [] }

variable (aes) (os : RandomSource)

/-- A session in its exchange, mirrored by a lock that is not waiting for anything. -/
structure Standing (link : HonestLink aes) (s : Session) (phone : Phone NoopKeyStore)
    (log : List UInt8) : Prop where
  running : s.finished = false
  idle : link.asked = none
  exchange : ∃ session, s.state = .v0200 session ∧
    Lock.Follows (link.lock, session.stack) phone
  latched : Latched log s

/-- The turn that follows the wait for the lock. -/
def next (link : HonestLink aes) (s : Session) (deadline : Deadline) : Turn (HonestLink aes) :=
  ⟨(BleTransport.receive link deadline.2).1, s,
    (heard deadline.1 (BleTransport.receive link deadline.2).2).2, some deadline⟩

end HonestLink

/-! ### What the lock reports -/

namespace Lock

open SecureProtocolManager JustinStack0100 Control

variable (aes : BlockCipher) {lock : SecureProtocolManager}
  {stack : JustinStack0100 NoopKeyStore} {phone : Phone NoopKeyStore}

theorem command_control {c first : UInt8} {rest : List UInt8} (control : isControl c) :
    stack.command aes (c :: first :: rest) = none := by
  rw [command, if_pos control]

theorem command_sealed (follows : Follows (lock, stack) phone) (payload : List UInt8) :
    stack.command aes (send aes lock (.sealed payload)).2 =
      if phone.state = .inSession then some (payload, true) else none := by
  have data : isControl 0x02 = false := by decide
  have encrypted : isEncrypted 0x02 = true := by decide
  have nonempty := sealPayload_ne_nil aes lock.currentEncryptionKey lock.iv payload
  have carries := follows.mirrors.carries aes encrypted payload
  change stack.command aes (0x02 :: sealPayload aes lock.currentEncryptionKey lock.iv payload) = _
  rw [← follows.state]
  split_ifs with inside
  · rw [command_of_carries aes stack data carries nonempty (fun _ => inside), encrypted]
  · have taken := processPacket_carries aes stack.ssp carries nonempty
    rw [if_neg (by simp [data]), processDataPacket, received_state, if_pos inside] at taken
    dsimp only at nonempty taken
    generalize sealPayload aes lock.currentEncryptionKey lock.iv payload = body at nonempty taken
    obtain ⟨first, rest, rfl⟩ := List.exists_cons_of_ne_nil nonempty
    simp only [command, data, encrypted, taken, Bool.false_eq_true, if_false, if_true]

theorem auditWrite_command {packet payload : List UInt8} {secure : Bool}
    (carried : stack.command aes packet = some (payload, secure)) :
    stack.auditWrite aes packet = auditOf payload (stack.justin.call payload secure).2 := by
  unfold auditWrite answered
  rw [carried]
  split
  next id first more _ same =>
    obtain ⟨rfl, rfl⟩ := Prod.mk.inj (Option.some.inj same)
    simp [auditOf]
  next other =>
    unfold auditOf
    split
    next id first more => exact (other id first more secure rfl).elim
    · rfl

theorem auditWrite_none {packet : List UInt8} (nothing : stack.command aes packet = none) :
    stack.auditWrite aes packet = none := by
  rw [auditWrite, nothing]

/-- What the stack counts as an audit write is what the phone without a channel counts as one. -/
theorem auditWrite_send (follows : Follows (lock, stack) phone) (request : Request) :
    stack.auditWrite aes (send aes lock request).2 = phone.audit request := by
  have sealed_control (payload : List UInt8) :
      stack.auditWrite aes (post aes lock 0x03 payload).2 = none := by
    obtain ⟨first, rest, split⟩ := List.exists_cons_of_ne_nil
      (sealPayload_ne_nil aes lock.currentEncryptionKey lock.iv payload)
    rw [post, split]
    exact auditWrite_none aes (command_control aes (by decide))
  cases request with
  | clear control first rest =>
    have carried : stack.command aes (control.byte :: first :: rest) =
        some (first :: rest, false) := by
      simp [command, control.data, control.clear]
    exact (auditWrite_command aes carried).trans (by rw [follows.justin]; rfl)
  | sealed payload =>
    have carried := command_sealed aes follows payload
    simp only [Phone.audit, Request.payload, Phone.answer, Option.bind_some]
    split_ifs at carried ⊢
    · rw [auditWrite_command aes carried, follows.justin]
      rfl
    -- outside a session the command never arrives, and its refusal is no success
    · rw [auditWrite_none aes carried]
      unfold auditOf
      split
      · simp [Phone.refuse]
      · rfl
  | version | challenge => exact auditWrite_none aes (command_control aes (by decide))
  | prove _ | rekey _ _ _ => exact sealed_control _

end Lock

/-! ### One turn of the pump -/

namespace HonestLink

variable {aes : BlockCipher} (os : RandomSource) {link : HonestLink aes} {s : Session}
  {phone : Phone NoopKeyStore} {log : List UInt8}

/-- Notes and phases around one write: the link takes the reply, and nothing else. -/
theorem applyActions_replied (link : HonestLink aes) (deadline : Option Deadline)
    (response : List UInt8) {notes entered : List Action} (noted : Notes notes)
    (phases : ∀ a ∈ entered, a = .phase .exchanging) (rest : List Action) :
    ∃ calls, applyActions link none deadline (notes ++ .write response :: entered ++ rest) =
      andThen calls (applyActions (link.take response) none deadline rest) := by
  have shown : ∀ a ∈ entered, (observed a).isSome := by
    intro a member
    rw [phases a member]
    rfl
  refine ⟨notes.filterMap observed ++ .write response :: entered.filterMap observed, ?_⟩
  rw [List.append_assoc, applyActions_observed _ _ _ (notes_shown noted), List.cons_append,
    applyActions]
  change andThen _ (andThen _ (applyActions _ _ _ (entered ++ rest))) = _
  rw [applyActions_observed _ _ _ shown]
  simp [andThen]

/-- What becomes of the turn that takes a request. -/
inductive Asked (link : HonestLink aes) (phone : Phone NoopKeyStore) (log : List UInt8)
    (request : Request) (rest : List Request) :
    List PumpCall × (Turn (HonestLink aes) ⊕ Return (HonestLink aes)) → Prop
  | refused {calls : List PumpCall} {link' : HonestLink aes} {s' : Session}
      {phone' : Phone NoopKeyStore} {e : Error} :
      phone.answer request = (phone', .error e) → link'.told = link.told →
      Asked link phone log request rest (calls, .inr (link', s', .error e))
  | closed {calls : List PumpCall} {link' : HonestLink aes} {s' : Session}
      {phone' : Phone NoopKeyStore} {reply : List UInt8} :
      phone.answer request = (phone', .ok reply) → phone'.justin.state = .ready →
      link'.told = link.told ++ [some reply] →
      Asked link phone log request rest (calls, .inr (link', s',
        .ok (Outcome.new 2 (verdict (log ++ (phone.audit request).toList)))))
  | answered {calls : List PumpCall} {link' : HonestLink aes} {s' : Session}
      {phone' : Phone NoopKeyStore} {reply : List UInt8} {deadline : Deadline} :
      phone.answer request = (phone', .ok reply) → phone'.justin.state ≠ .ready →
      Standing aes link' s' phone' (log ++ (phone.audit request).toList) →
      link'.todo = rest → link'.told = link.told ++ [some reply] →
      Asked link phone log request rest (calls, .inl (next aes link' s' deadline))

theorem turn_asked (standing : Standing aes link s phone log) (deadline : Deadline)
    {request : Request} {rest : List Request} (todo : link.todo = request :: rest) :
    Asked link phone log request rest (turn aes os (next aes link s deadline)) := by
  obtain ⟨session, current, follows⟩ := standing.exchange
  have asks : next aes link s deadline = ⟨link.ask request rest, s,
      .notification (Lock.send aes link.lock request).2, some deadline⟩ := by
    simp only [next, BleTransport.receive, todo, heard]
  obtain ⟨answer, after⟩ := Lock.converse_step aes follows request
  have latched := standing.latched.step aes os
    (.notification (Lock.send aes link.lock request).2)
  have listens : s.reported aes (.notification (Lock.send aes link.lock request).2) =
      phone.audit request := by
    rw [← Lock.auditWrite_send aes follows request]
    simp [reported, standing.running, Session.stack, current]
  rw [listens] at latched
  rw [asks, turn]
  dsimp only
  unfold Lock.converse at answer after
  cases handled : session.stack.handlePacket aes (Lock.send aes link.lock request).2 with
  | mk stack result =>
    simp only [handled] at answer after
    cases told : phone.answer request with
    | mk phone' reply =>
      rw [told] at answer after
      cases result with
      | error e =>
        obtain rfl : reply = .error e := by
          cases reply <;> simp_all [Except.map]
        rw [poll_refused aes os standing.running current handled]
        exact .refused told rfl
      | ok response =>
        obtain ⟨reply, rfl, heard⟩ : ∃ bytes, reply = .ok bytes ∧ some bytes =
            (Lock.hear aes (Lock.send aes link.lock request).1 request response).2 := by
          cases reply <;> simp_all [Except.map]
        obtain ⟨notes, entered, noted, phases, same⟩ := replied_eq session stack
          (Lock.send aes link.lock request).2 response
        have taken : ((link.ask request rest).take response).told = link.told ++ [some reply] := by
          simp [ask, take, heard]
        rw [poll_answered aes os standing.running current handled] at latched ⊢
        rw [emit, same]
        have state : phone'.justin.state = stack.justin.state :=
          congrArg (fun justin => justin.state) after.justin.symm
        split_ifs at latched ⊢ with ready
        · obtain ⟨calls, applied⟩ := applyActions_replied (link.ask request rest) (some deadline)
            response noted phases
            [.phase .finished,
              .done (.ok (Outcome.new 2 (session.afterAnswer stack).finalOpResult))]
          dsimp only [finish]
          rw [applied]
          have final : (session.afterAnswer stack).finalOpResult = _ := latched.1
          rw [final]
          exact .closed told (state.trans ready) taken
        · let waiting : V0200 := { session.afterAnswer stack with firstPacket := false }
          obtain ⟨calls, applied⟩ := applyActions_replied (link.ask request rest) (some deadline)
            response noted phases
            [.setTimer (waiting.nextWait s.options.timeouts).1
              (waiting.nextWait s.options.timeouts).2]
          dsimp only
          rw [applied]
          have again : Lock.Follows (((link.ask request rest).take response).lock, waiting.stack)
              phone' := by
            rw [show waiting.stack = stack from session.afterAnswer_stack stack]
            exact after
          have stands : Standing aes ((link.ask request rest).take response)
              { s with state := .v0200 waiting } phone' (log ++ (phone.audit request).toList) :=
            ⟨standing.running, rfl, ⟨waiting, rfl, again⟩, latched⟩
          change Asked link phone log request rest (_, .inl (next aes
            ((link.ask request rest).take response) { s with state := .v0200 waiting }
            ((waiting.nextWait s.options.timeouts).1,
              0 + (waiting.nextWait s.options.timeouts).2.toNat)))
          exact .answered told (by rwa [state]) stands rfl taken

/-- A lock with nothing left to ask leaves, and the session ends on what it has latched. -/
theorem turn_left (standing : Standing aes link s phone log) (deadline : Deadline)
    (todo : link.todo = []) :
    ∃ calls s', turn aes os (next aes link s deadline) =
      (calls, .inr (link, s', .ok (Outcome.new 2 (verdict log)))) := by
  obtain ⟨session, current, follows⟩ := standing.exchange
  have asks : next aes link s deadline = ⟨link, s, .linkClosed, some deadline⟩ := by
    simp only [next, BleTransport.receive, todo, heard]
  have latched := standing.latched
  rw [Latched, current] at latched
  have polled : s.poll aes os .linkClosed = emit [Mkey.info lockDisconnectedMessage]
      (s.finish (.ok (Outcome.new 2 (verdict log)))) := by
    rw [poll_v0200 aes os standing.running current (by simp), pollV0200, latched.1]
    rfl
  rw [asks, turn]
  dsimp only
  rw [polled]
  exact ⟨_, _, rfl⟩

/-- From any point of an exchange on, the rest of the run is the rest of the attempt. -/
theorem run_standing (standing : Standing aes link s phone log) (deadline : Deadline)
    (more : Nat) :
    ∃ calls link' s', Loop.run (turn aes os) (link.todo.length + 1 + more)
        (next aes link s deadline) =
          some (calls, link', s', (phone.attempt log link.todo).2) ∧
      link'.told = link.told ++ (phone.attempt log link.todo).1.map some := by
  generalize todo : link.todo = requests
  induction requests generalizing link s phone log deadline with
  | nil =>
    obtain ⟨calls, s', left⟩ := turn_left os standing deadline todo
    refine ⟨calls, link, s', ?_, by simp [Phone.attempt]⟩
    rw [List.length_nil, Nat.zero_add, Nat.add_comm, Loop.run, left, Phone.attempt]
  | cons request rest ih =>
    have step := turn_asked os standing deadline todo
    rw [List.length_cons, Nat.add_right_comm _ 1 1, Nat.add_right_comm _ 1 more, Loop.run]
    generalize turn aes os (next aes link s deadline) = result at step
    cases step with
    | @refused calls link' s' _ _ answer same =>
      refine ⟨calls, link', s', by rw [Phone.attempt, answer], ?_⟩
      simp [Phone.attempt, answer, same]
    | @closed calls link' s' _ _ answer ready same =>
      refine ⟨calls, link', s', by simp only [Phone.attempt, answer, ready, if_true], ?_⟩
      simp [Phone.attempt, answer, ready, same]
    | @answered calls _ _ _ _ deadline' answer unready stands left same =>
      obtain ⟨later, link', s', goes, told⟩ := ih stands deadline' left
      refine ⟨calls ++ later, link', s', ?_, ?_⟩
      · simp only [Phone.attempt, answer, unready, if_false, goes, Option.map_some]
      · rw [told, same]
        simp [Phone.attempt, answer, unready]

/-! ### From the start to the first wait -/

/-- What the lock may answer to the version read: anything but another version. -/
structure V0200Info where
  answer : Option (Except Error (List UInt8))
  v0200 : ∀ bytes, answer = some (.ok bytes) →
    majorVersion bytes = none ∨ majorVersion bytes = some 2

/-- The key as the lock is to see it: in office mode with the tag that says so. -/
def openedKey (key : MobileKey) (options : Options) : MobileKey :=
  if options.mode = .office then
    { key with
      tags := key.tags.insert tagOpeningMode
        ⟨tagOpeningMode, Permissions.readable.union .readWithoutSecurity,
          [Mode.office.toByte]⟩ }
  else key

def phoneOf (key : MobileKey) (options : Options) (random : Option RandomSource) :
    Phone NoopKeyStore :=
  ⟨.ready, random.getD os, .newWithKey (openedKey key options)⟩

/-- A session that begins its exchange with a lock that waits for nothing. -/
theorem standing_begun (key : MobileKey) (options : Options) (random : Option RandomSource)
    (lockRandom : RandomSource) {link : HonestLink aes} (idle : link.asked = none)
    (fresh : link.lock = .withRandom key.knKey lockRandom) {s : Session}
    (same : s.key = key ∧ s.options = options ∧ s.random = random ∧ s.finished = false) :
    Standing aes link (s.beginV0200 os).1 (phoneOf os key options random) [] := by
  obtain ⟨rfl, rfl, rfl, running⟩ := same
  have known : (openedKey s.key s.options).knKey = s.key.knKey := by
    rw [openedKey]
    split <;> rfl
  refine ⟨running, idle, ⟨_, rfl, ?_⟩, rfl, rfl⟩
  rw [fresh, ← known]
  exact Lock.follows_fresh _ lockRandom (s.random.getD os) _

/-- A batch that begins the exchange ends in the wait for the lock's first packet. -/
theorem turn_begun (link : HonestLink aes) {s : Session} {event : Event}
    (deadline : Option Deadline) {notes : List Action}
    (shown : ∀ a ∈ notes, (observed a).isSome) {s' : Session}
    (polls : s.poll aes os event =
      emit (notes ++ [.subscribe, .phase .authenticating]) (s'.beginV0200 os)) :
    ∃ calls deadline', turn aes os ⟨link, s, event, deadline⟩ =
      (calls, .inl (next aes link (s'.beginV0200 os).1 deadline')) := by
  rw [turn]
  dsimp only
  rw [polls]
  simp only [emit, List.append_assoc]
  rw [applyActions_observed _ _ _ shown]
  exact ⟨_, (.firstPacket, 0 + s'.options.timeouts.firstPacketMs.toNat), rfl⟩

variable (key : MobileKey) (options : Options) (random : Option RandomSource)

/-- A session that does not ask for the version begins at once. -/
theorem poll_direct (direct : options.detection = .none ∨ options.notifyReadable = false) :
    ∃ note, (start key options random).poll aes os .started =
      emit ([.phase .detectingVersion, .trace note] ++ [.subscribe, .phase .authenticating])
        ((start key options random).beginV0200 os) := by
  change ∃ note, (start key options random).pollIdle os .started = _
  by_cases skipped : (start key options random).options.detection = .none
  · rw [pollIdle, if_pos skipped]
    exact ⟨_, rfl⟩
  · have closed : (start key options random).options.notifyReadable = false :=
      direct.resolve_left skipped
    rw [pollIdle, if_neg skipped, if_pos (by simp [closed])]
    exact ⟨_, rfl⟩

/-- Any other session asks for the version first. -/
theorem poll_asking (detects : ¬(options.detection = .none ∨ options.notifyReadable = false)) :
    (start key options random).poll aes os .started =
      ({ start key options random with state := .detecting },
        .phase .detectingVersion ::
          ((if options.detection = .appProtocol then [.announceAppProtocol] else []) ++
            [.readProtocolInfo options.timeouts.protocolInfoReadMs])) := by
  have asked : ¬(start key options random).options.detection = .none :=
    fun skipped => detects (.inl skipped)
  have readable : (start key options random).options.notifyReadable = true := by
    by_contra closed
    exact detects (.inr (Bool.eq_false_of_not_eq_true closed))
  change (start key options random).pollIdle os .started = _
  rw [pollIdle, if_neg asked, if_neg (by simp [readable])]
  rfl

theorem turn_detecting (link : HonestLink aes) (idle : link.asked = none)
    (detects : ¬(options.detection = .none ∨ options.notifyReadable = false)) :
    ∃ calls, turn aes os (first link (start key options random)) =
      (calls, .inl ⟨link, { start key options random with state := .detecting },
        .protocolInfo (readBytes link.info), none⟩) := by
  have quiet : link.take appProtocolRequest = link := by rw [take, idle]
  rw [turn, first]
  dsimp only
  rw [poll_asking os key options random detects]
  split_ifs
  -- the announcement is written to a lock that waits for nothing
  · have unmoved : BleTransport.write link appProtocolRequest = (link, .ok ()) := by
      simp only [BleTransport.write, quiet]
    simp only [applyActions, andThen, List.cons_append, List.nil_append, unmoved]
    exact ⟨_, rfl⟩
  · exact ⟨_, rfl⟩

/-- What a v0200 lock answers to the version read begins the exchange. -/
theorem poll_detected {s : Session} (running : s.finished = false)
    (detecting : s.state = .detecting) (info : V0200Info) :
    ∃ notes, (∀ a ∈ notes, (observed a).isSome) ∧
      s.poll aes os (.protocolInfo (readBytes info.answer)) =
        emit (notes ++ [.subscribe, .phase .authenticating]) (s.beginV0200 os) := by
  have polls : s.poll aes os (.protocolInfo (readBytes info.answer)) =
      s.pollDetecting os (.protocolInfo (readBytes info.answer)) := by
    rw [poll, running, if_neg Bool.false_ne_true, if_neg (by simp), detecting]
  rw [polls]
  have failed : ∃ notes, (∀ a ∈ notes, (observed a).isSome) ∧
      s.pollDetecting os (.protocolInfo none) =
        emit (notes ++ [.subscribe, .phase .authenticating]) (s.beginV0200 os) := by
    refine ⟨[Mkey.info "Protocol info read failed, protocol version unknown"], ?_, rfl⟩
    simp [observed, Mkey.info]
  rcases answer : info.answer with _ | e | bytes
  · exact failed
  · exact failed
  · rw [readBytes, pollDetecting]
    rcases info.v0200 bytes answer with none_ | two
    · rw [none_]
      refine ⟨[.trace (.read bytes),
        Mkey.info "Protocol info has an unexpected shape, protocol version unknown"], ?_, rfl⟩
      simp [observed, Mkey.info]
    · rw [two]
      exact ⟨[.trace (.read bytes)], by simp [observed], rfl⟩

/-- Until the exchange begins, a start takes two turns at most. -/
theorem run_started (lockRandom : RandomSource) (info : V0200Info) (link : HonestLink aes)
    (idle : link.asked = none) (fresh : link.lock = .withRandom key.knKey lockRandom)
    (answers : link.info = info.answer) :
    ∃ taken calls s' deadline, taken ≤ 2 ∧
      Standing aes link s' (phoneOf os key options random) [] ∧
      Loop.Goes (turn aes os) taken calls (first link (start key options random))
        (next aes link s' deadline) := by
  have stands {s : Session}
      (same : s.key = key ∧ s.options = options ∧ s.random = random ∧ s.finished = false) :=
    standing_begun os key options random lockRandom idle fresh same
  by_cases direct : options.detection = .none ∨ options.notifyReadable = false
  · obtain ⟨note, polls⟩ := poll_direct os key options random direct
    obtain ⟨calls, deadline, goes⟩ := turn_begun os link none (by simp [observed]) polls
    exact ⟨1, calls, _, deadline, by omega, stands ⟨rfl, rfl, rfl, rfl⟩, .one goes⟩
  · obtain ⟨asking, detects⟩ := turn_detecting os key options random link idle direct
    let detecting : Session := { start key options random with state := .detecting }
    obtain ⟨notes, shown, polls⟩ := poll_detected os (s := detecting) rfl rfl info
    rw [← answers] at polls
    obtain ⟨calls, deadline, goes⟩ := turn_begun os link none shown polls
    exact ⟨2, asking ++ calls, _, deadline, le_refl 2,
      stands (s := detecting) ⟨rfl, rfl, rfl, rfl⟩, (Loop.Goes.one detects).trans (.one goes)⟩

/-- An attempt against a lock that keeps to the protocol returns what `attempt` says, and the
lock has been told exactly that; the pump needs three turns more than there are requests. -/
theorem honest_attempt (aes : BlockCipher) (lockRandom : RandomSource) (info : V0200Info)
    (requests : List Request) (more : Nat) :
    let wanted := (phoneOf os key options random).attempt [] requests
    ∃ calls link session, runSession aes os (requests.length + 3 + more)
        (HonestLink.new aes key.knKey lockRandom info.answer requests)
        (start key options random) = some (calls, link, session, wanted.2) ∧
      link.told = wanted.1.map some := by
  let link := HonestLink.new aes key.knKey lockRandom info.answer requests
  obtain ⟨taken, calls, s', deadline, short, standing, goes⟩ :=
    run_started os key options random lockRandom info link rfl rfl rfl
  obtain ⟨later, link', session, rest, told⟩ :=
    run_standing os standing deadline (2 - taken + more)
  have fuel : requests.length + 3 + more = requests.length + 1 + (2 - taken + more) + taken := by
    omega
  have same : link.todo = requests := rfl
  rw [same] at rest told
  have pumped := goes (requests.length + 1 + (2 - taken + more))
  rw [← fuel, rest, Option.map_some] at pumped
  refine ⟨calls ++ later ++ (if session.finished then [] else [.phase .finished]) ++ [.disconnect],
    link', session, ?_, told⟩
  rw [runSession, pump, pumped]
  rfl

/-- A lock that tells its version. -/
def V0200Info.told : V0200Info where
  answer := some (.ok [0x01, 0x00, 0x02])
  v0200 := by
    rintro bytes same
    cases same
    exact .inr rfl

/-- A lock that writes two final results. -/
def changingRequests : List Request :=
  let write (result : UInt8) : Request := .clear .plain 0x03 [tagAudit, result]
  [.challenge, write 0x00, write 0x02, write 0x03]

theorem honest_attempt_changing :
    let os : RandomSource := ⟨fun _ => Block.replicate 0x22, 0⟩
    let key := { MobileKey.new (Block.replicate 0x42) with
      tags := MobileKey.materialise fun _ => none }
    ∃ calls link session, runSession aes128 os (4 + 3 + 0)
        (HonestLink.new aes128 key.knKey os V0200Info.told.answer changingRequests)
        (start key .default none) =
          some (calls, link, session, .ok (Outcome.new 2 (some 0x02))) ∧
      link.told = [some (0x01 :: List.replicate 16 0x22), some [CommandStatus.success.toByte],
        some [CommandStatus.success.toByte], some [CommandStatus.success.toByte]] := by
  intro os key
  exact honest_attempt os key .default none aes128 os .told changingRequests 0

end HonestLink

end Mkey
