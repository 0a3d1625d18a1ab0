import Mkey.Session.Batches

/-!
# What a run looks like from outside

The packets a flow has taken, and what it has said about them: traffic traced,
packets written, timers armed.
-/
namespace Mkey.Session

open Machine

/-- One poll of a run. -/
abbrev PollRecord := Step Session Event (List Action)

/-- A flow has begun and is not over. -/
def flowing (s : Session) : Bool :=
  !s.finished && match s.state with
    | .v0200 _ | .v0100 _ => true
    | .idle | .detecting => false

theorem flowing_v0200 {s : Session} (running : s.finished = false) {session : V0200}
    (current : s.state = .v0200 session) : s.flowing = true := by
  rw [flowing, running, current]
  rfl

theorem flowing_v0100 {s : Session} (running : s.finished = false) {session : V0100}
    (current : s.state = .v0100 session) : s.flowing = true := by
  rw [flowing, running, current]
  rfl

theorem Starts.not_packet {s : Session} {event : Event} (starts : s.Starts event)
    (packet : List UInt8) : event ≠ .notification packet := by
  rcases starts with ⟨_, rfl⟩ | ⟨_, bytes, rfl⟩ <;> simp

/-- The packet a poll brings to a flow. -/
def taken (x : PollRecord) : Option (List UInt8) :=
  match x.input with
  | .notification packet => if x.before.flowing then some packet else none
  | _ => none

theorem taken_packet {s t : Session} (flows : s.flowing = true) (packet : List UInt8)
    (output : List Action) : taken ⟨s, .notification packet, output, t⟩ = some packet := by
  simp [taken, flows]

theorem taken_other {x : PollRecord} (other : ∀ packet, x.input ≠ .notification packet) :
    taken x = none := by
  rw [taken]
  split
  next packet same => exact absurd same (other packet)
  next => rfl

theorem taken_unflowing {x : PollRecord} (still : x.before.flowing = false) : taken x = none := by
  rw [taken]
  split
  · rw [still]
    rfl
  next => rfl

/-- Nothing that is unexpected is taken. -/
theorem Rejects.taken {s t : Session} {event : Event} {output : List Action}
    (rejects : Rejects s.state event) : taken ⟨s, event, output, t⟩ = none := by
  cases state : s.state with
  | idle | detecting => exact taken_unflowing (by simp [flowing, state])
  | v0200 | v0100 =>
    rw [state] at rejects
    exact taken_other rejects.2.1

/-- The packets brought to a flow, in order. -/
def packetsTaken (past : List PollRecord) : List (List UInt8) := past.filterMap taken

/-- Everything the session has asked for, in order. -/
def actions (past : List PollRecord) : List Action := past.flatMap (·.output)

def rxOf : Action → Option (List UInt8)
  | .trace (.rx bytes) => some bytes
  | _ => none

def txOf : Action → Option (List UInt8)
  | .trace (.tx bytes) => some bytes
  | _ => none

def writeOf : Action → Option (List UInt8)
  | .write bytes => some bytes
  | _ => none

def timerOf : Action → Option (TimerId × UInt32)
  | .setTimer id afterMs => some (id, afterMs)
  | _ => none

/-- The timer armed last. -/
def lastTimer (actions : List Action) : Option (TimerId × UInt32) :=
  (actions.filterMap timerOf).getLast?

theorem lastTimer_append (front back : List Action) :
    lastTimer (front ++ back) = (lastTimer back).or (lastTimer front) := by
  rw [lastTimer, List.filterMap_append, List.getLast?_append]
  rfl

theorem lastTimer_last (front : List Action) (id : TimerId) (ms : UInt32) :
    lastTimer (front ++ [.setTimer id ms]) = some (id, ms) := by
  rw [lastTimer_append]
  rfl

section Past

variable (past : List PollRecord) (x : PollRecord)

theorem packetsTaken_snoc : packetsTaken (past ++ [x]) = packetsTaken past ++ (taken x).toList := by
  rw [packetsTaken, List.filterMap_append, packetsTaken]
  congr 1

/-- A flow takes every packet that is delivered to it. -/
theorem packetsTaken_packet {s t : Session} (flows : s.flowing = true) (packet : List UInt8)
    (output : List Action) :
    packetsTaken (past ++ [⟨s, .notification packet, output, t⟩]) =
      packetsTaken past ++ [packet] := by
  rw [packetsTaken_snoc, taken_packet flows]
  rfl

theorem packetsTaken_other {s t : Session} {event : Event} (output : List Action)
    (other : ∀ packet, event ≠ .notification packet) :
    packetsTaken (past ++ [⟨s, event, output, t⟩]) = packetsTaken past := by
  rw [packetsTaken_snoc, taken_other other, Option.toList_none, List.append_nil]

theorem actions_snoc : actions (past ++ [x]) = actions past ++ x.output := by
  simp [actions]

end Past

/-! ### Refusals of the kN key -/

section Refusals

variable (aes : BlockCipher) (os : RandomSource)

/-- The poll brings a packet that asks for the kN key and is refused it. -/
def refusedKn (x : PollRecord) : Bool :=
  match taken x, x.before.stack with
  | some packet, some stack => stack.refusesKn aes packet
  | _, _ => false

/-- While a v0200 flow runs its counter holds the refusals of the run, all of them traced, as long
as they fit into it; and the key is at hand. -/
def Counted (past : List PollRecord) (s : Session) : Prop :=
  s.finished = false →
    match s.state with
    | .v0200 session =>
        session.stack.justin.state = .connected ∧ session.stack.justin.currentKey.isSome ∧
        (past.countP (refusedKn aes) < 2 ^ 32 →
          session.stack.justin.knReadRefusals.toNat = past.countP (refusedKn aes) ∧
          session.tracedKnRefusals = session.stack.justin.knReadRefusals)
    | .idle | .detecting | .v0100 _ => past.countP (refusedKn aes) = 0

theorem countP_snoc (past : List PollRecord) (x : PollRecord) :
    (past ++ [x]).countP (refusedKn aes) =
      past.countP (refusedKn aes) + if refusedKn aes x then 1 else 0 := by
  rw [List.countP_append, List.countP_singleton]

theorem countP_unrefused (past : List PollRecord) {x : PollRecord}
    (unrefused : refusedKn aes x = false) :
    (past ++ [x]).countP (refusedKn aes) = past.countP (refusedKn aes) := by
  rw [countP_snoc, unrefused]
  rfl

theorem refusedKn_elsewhere {x : PollRecord} (other : x.before.stack = none) :
    refusedKn aes x = false := by
  rw [refusedKn, other]
  split
  next same => cases same
  next => rfl

theorem refusedKn_other {x : PollRecord} (other : ∀ packet, x.input ≠ .notification packet) :
    refusedKn aes x = false := by
  rw [refusedKn, taken_other other]

theorem refusedKn_packet {s t : Session} {session : V0200} (running : s.finished = false)
    (current : s.state = .v0200 session) (packet : List UInt8) (output : List Action) :
    refusedKn aes ⟨s, .notification packet, output, t⟩ = session.stack.refusesKn aes packet := by
  have at_hand : s.stack = some session.stack := by rw [stack, current]
  rw [refusedKn, taken_packet (flowing_v0200 running current)]
  simp only [at_hand]

/-- The counter after one more packet: a refusal is one more, and it is traced. -/
theorem traced_refusals {session : V0200} {stack : JustinStack0100 NoopKeyStore} {count : Nat}
    {refused : Bool}
    (counted : session.stack.justin.knReadRefusals.toNat = count)
    (traced : session.tracedKnRefusals = session.stack.justin.knReadRefusals)
    (moved : stack.justin.knReadRefusals =
      session.stack.justin.knReadRefusals + if refused then 1 else 0)
    (fits : count + (if refused then 1 else 0) < 2 ^ 32) :
    stack.justin.knReadRefusals.toNat = count + (if refused then 1 else 0) ∧
      (session.afterAnswer stack).tracedKnRefusals = stack.justin.knReadRefusals ∧
      ({ session with stack } : V0200).traceRefusals.2 =
        if refused then [info refusedKnMessage] else [] := by
  have total : stack.justin.knReadRefusals.toNat = count + (if refused then 1 else 0) := by
    rw [moved, UInt32.toNat_add, counted]
    cases refused with
    | false | true => simpa using fits
  have grown : stack.justin.knReadRefusals > session.tracedKnRefusals ↔ refused = true := by
    rw [gt_iff_lt, UInt32.lt_iff_toNat_lt, traced, counted, total]
    cases refused <;> simp
  have same : refused = false → stack.justin.knReadRefusals = session.tracedKnRefusals := by
    rintro rfl
    rw [moved, traced]
    simp
  refine ⟨total, ?_, ?_⟩
  · rw [V0200.afterAnswer, V0200.latchVerdict_tracedKnRefusals,
      V0200.enterExchange_tracedKnRefusals, V0200.traceRefusals_eq]
    dsimp only
    split
    · rfl
    next unmoved => exact (same (by simpa using grown.not.mp unmoved)).symm
  · rw [V0200.traceRefusals_eq]
    simp only [grown]
    split <;> rfl

theorem Counted.poll {past : List PollRecord} {s : Session} (counted : Counted aes past s)
    (event : Event) :
    Counted aes (past ++ [stepAt (poll aes os) s event]) (s.poll aes os event).1 := by
  have step := poll_step aes os s event
  have record : stepAt (Session.poll aes os) s event =
    ⟨s, event, (s.poll aes os event).2, (s.poll aes os event).1⟩ := rfl
  rw [record]
  generalize s.poll aes os event = polled at step
  intro running
  cases step with
  | halted halted =>
    rw [halted] at running
    cases running
  | cancelled | unexpected | disconnected | version | closed | refused | silentV0200 | lostV0200
  | resulted | shortV0100 | silentV0100 => cases running
  | detecting running' idle =>
    have none_ := counted running'
    rw [idle] at none_
    dsimp only
    rw [countP_unrefused aes past (refusedKn_other aes (by simp)), none_]
  | beganV0200 running' starts =>
    have none_ : past.countP (refusedKn aes) = 0 := by
      have held := counted running'
      rcases starts with ⟨early, _⟩ | ⟨early, _⟩ <;> rwa [early] at held
    dsimp only [emit, beginV0200]
    rw [countP_unrefused aes past (refusedKn_other aes starts.not_packet), none_]
    exact ⟨rfl, rfl, fun _ => ⟨rfl, rfl⟩⟩
  | beganV0100 running' detecting =>
    have none_ := counted running'
    rw [detecting] at none_
    dsimp only [emit, beginV0100]
    rw [countP_unrefused aes past (refusedKn_other aes (by simp)), none_]
  | @answered session packet response stack running' current handled open_ =>
    have held := counted running'
    rw [current] at held
    obtain ⟨connected, holds, exact_⟩ := held
    obtain ⟨key, key_⟩ := Option.isSome_iff_exists.mp holds
    have moved := session.stack.handlePacket_refusals aes connected key_ packet
    have holds' := session.stack.handlePacket_holdsKey aes holds packet
    rw [handled] at moved holds'
    dsimp only
    rw [countP_snoc, refusedKn_packet aes running' current, V0200.afterAnswer_stack]
    refine ⟨?_, holds', ?_⟩
    · cases state : stack.justin.state with
      | ready => exact absurd state open_
      | connected => rfl
    · intro fits
      obtain ⟨count, traced⟩ := exact_ (by omega)
      obtain ⟨total, traced', _⟩ := traced_refusals count traced moved fits
      exact ⟨total, traced'⟩
  | @ignored session packet message running' current =>
    have none_ := counted running'
    rw [current] at none_
    dsimp only
    rw [current, countP_unrefused aes past (refusedKn_elsewhere aes (by simp [stack, current]))]
    exact none_
  | @signed session packet nonce running' current =>
    have none_ := counted running'
    rw [current] at none_
    dsimp only
    rw [countP_unrefused aes past (refusedKn_elsewhere aes (by simp [stack, current]))]
    exact none_

/-- The counter of a run is right in every state. -/
theorem counted_run (key : MobileKey) (options : Options) (random : Option RandomSource)
    (events : List Event) :
    Counted aes (trace (poll aes os) (start key options random) events)
      (run (poll aes os) (start key options random) events) :=
  history_invariant (Counted aes) _ (fun _ => rfl)
    (fun _ _ event counted => counted.poll aes os event) events

end Refusals

end Mkey.Session
