import Mkey.Session.History

/-!
# Recorded traffic

What is traced as received and sent is pushed apart from what is written. Over
every run the two agree, packet by packet, and the note about the kN key goes
with the packets that were refused it.
-/
namespace Mkey.Session

open Machine

/-- The traffic of a batch: what it records as received, and what it both records as sent and
writes, where nothing is written that is not on record already. -/
structure Traffic (received replies : List (List UInt8)) (batch : List Action) : Prop where
  rx : batch.filterMap rxOf = received
  tx : batch.filterMap txOf = replies
  written : batch.filterMap writeOf = replies
  recorded : ∀ front, front <+: batch → front.filterMap writeOf <+: front.filterMap txOf

/-- An action that is no traffic. -/
def Silent (a : Action) : Prop := rxOf a = none ∧ txOf a = none ∧ writeOf a = none

theorem Traffic.silent {batch : List Action} (quiet : ∀ a ∈ batch, Silent a) :
    Traffic [] [] batch := by
  refine ⟨?_, ?_, ?_, ?_⟩
  · exact List.filterMap_eq_nil_iff.mpr fun a member => (quiet a member).1
  · exact List.filterMap_eq_nil_iff.mpr fun a member => (quiet a member).2.1
  · exact List.filterMap_eq_nil_iff.mpr fun a member => (quiet a member).2.2
  · intro front start
    have nothing : front.filterMap writeOf = [] :=
      List.filterMap_eq_nil_iff.mpr fun a member => (quiet a (start.subset member)).2.2
    rw [nothing]
    exact List.nil_prefix

theorem Traffic.received (packet : List UInt8) : Traffic [packet] [] [.trace (.rx packet)] := by
  refine ⟨rfl, rfl, rfl, ?_⟩
  intro front start
  have nothing : front.filterMap writeOf <+: [] := start.filterMap writeOf
  rw [List.prefix_nil.mp nothing]
  exact List.nil_prefix

theorem Traffic.replied (reply : List UInt8) {between : List Action}
    (quiet : ∀ a ∈ between, Silent a) :
    Traffic [] [reply] (.trace (.tx reply) :: (between ++ [.write reply])) := by
  have middle := Traffic.silent quiet
  have record (rest : List Action) :
      (.trace (.tx reply) :: rest).filterMap txOf = reply :: rest.filterMap txOf := rfl
  refine ⟨?_, ?_, ?_, ?_⟩
  · rw [List.filterMap_cons_none rfl, List.filterMap_append, middle.rx]
    rfl
  · rw [record, List.filterMap_append, middle.tx]
    rfl
  · rw [List.filterMap_cons_none rfl, List.filterMap_append, middle.written]
    rfl
  · intro front start
    rcases List.prefix_cons_iff.mp start with rfl | ⟨rest, rfl, later⟩
    · exact List.nil_prefix
    · -- once the record is there, the one write that follows may come
      have writes : rest.filterMap writeOf <+: [reply] := by
        have all := later.filterMap writeOf
        rw [List.filterMap_append, middle.written] at all
        exact all
      rw [List.filterMap_cons_none rfl, record]
      exact writes.trans (List.prefix_append [reply] _)

/-- Batches one after the other have the traffic of both. -/
theorem Traffic.append {received received' replies replies' : List (List UInt8)}
    {first second : List Action} (here : Traffic received replies first)
    (there : Traffic received' replies' second) :
    Traffic (received ++ received') (replies ++ replies') (first ++ second) := by
  refine ⟨?_, ?_, ?_, ?_⟩
  · rw [List.filterMap_append, here.rx, there.rx]
  · rw [List.filterMap_append, here.tx, there.tx]
  · rw [List.filterMap_append, here.written, there.written]
  · intro front start
    rcases List.prefix_or_prefix_of_prefix start (List.prefix_append first second) with
      early | ⟨rest, rfl⟩
    · exact here.recorded front early
    · have later := (List.prefix_append_right_inj first).mp start
      rw [List.filterMap_append, List.filterMap_append, here.written, here.tx,
        List.prefix_append_right_inj]
      exact there.recorded rest later

/-! ### One poll -/

theorem silent_info (message : String) : Silent (info message) := ⟨rfl, rfl, rfl⟩

theorem silent_phase (p : Phase) : Silent (.phase p) := ⟨rfl, rfl, rfl⟩

theorem silent_setTimer (id : TimerId) (ms : UInt32) : Silent (.setTimer id ms) := ⟨rfl, rfl, rfl⟩

theorem traffic_setTimer (id : TimerId) (ms : UInt32) : Traffic [] [] [.setTimer id ms] :=
  .silent (by simp [silent_setTimer])

theorem traffic_finish (s : Session) (result : Except Error Outcome) :
    Traffic [] [] (s.finish result).2 := by
  refine .silent ?_
  simp [finish, Silent, rxOf, txOf, writeOf]

theorem traffic_preparing {state : State} {notes : List Action}
    (preparing : Preparing state notes) :
    Traffic [] [] (notes ++ opening) := by
  refine .silent ?_
  intro a member
  simp only [opening, List.mem_append, List.mem_cons, List.not_mem_nil, or_false] at member
  rcases member with noted | rfl | rfl
  · rcases preparing.mem noted with rfl | ⟨message, rfl, _⟩ | ⟨bytes, rfl⟩ <;> exact ⟨rfl, rfl, rfl⟩
  · exact ⟨rfl, rfl, rfl⟩
  · exact silent_phase _

/-- What goes out with an answer records the packet and the answer, and writes the answer. -/
theorem traffic_replied (session : V0200) (stack : JustinStack0100 NoopKeyStore)
    (packet response : List UInt8) :
    Traffic [packet] [response] (session.replied stack packet response) := by
  have refused : ∀ a ∈ ({ session with stack } : V0200).traceRefusals.2, Silent a := by
    intro a member
    rw [V0200.traceRefusals_eq] at member
    split at member
    · rw [List.mem_singleton.mp member]
      exact silent_info _
    · cases member
  have entered : ∀ a ∈ ({ session with stack } : V0200).traceRefusals.1.enterExchange.2,
      Silent a := by
    intro a member
    rw [enterExchange_phase _ a member]
    exact silent_phase _
  have all := ((Traffic.received packet).append (.replied response refused)).append
    (.silent entered)
  simpa [V0200.replied] using all

variable (aes : BlockCipher) (os : RandomSource)

/-- One poll records the packet it brings to a flow, and at most one reply that it writes. -/
theorem poll_traffic (s : Session) (event : Event) :
    ∃ replies, replies.length ≤ 1 ∧
      Traffic (taken (stepAt (poll aes os) s event)).toList replies (s.poll aes os event).2 := by
  have step := poll_step aes os s event
  have record : taken (stepAt (Session.poll aes os) s event) =
    taken ⟨s, event, (s.poll aes os event).2, (s.poll aes os event).1⟩ := rfl
  rw [record]
  generalize s.poll aes os event = polled at step
  have ended {notes : List Action} (quiet : ∀ a ∈ notes, Silent a) (result : Except Error Outcome) :
      Traffic [] [] (emit notes (s.finish result)).2 :=
    (Traffic.silent quiet).append (traffic_finish s result)
  cases step with
  | halted halted =>
    refine ⟨[], by simp, ?_⟩
    rw [taken_unflowing (by simp [flowing, halted])]
    exact .silent (by simp)
  | cancelled | disconnected =>
    refine ⟨[], by simp, ?_⟩
    rw [taken_other (by simp)]
    exact traffic_finish s _
  | unexpected _ rejects =>
    refine ⟨[], by simp, ?_⟩
    rw [rejects.taken]
    exact traffic_finish s _
  | detecting running idle _ announced =>
    refine ⟨[], by simp, ?_⟩
    rw [taken_other (by simp)]
    refine .silent ?_
    rcases announced with ⟨_, rfl⟩ | ⟨_, rfl⟩ <;> simp [Silent, rxOf, txOf, writeOf]
  | version =>
    refine ⟨[], by simp, ?_⟩
    rw [taken_other (by simp)]
    exact ended (by simp [Silent, rxOf, txOf, writeOf]) _
  | beganV0200 _ starts preparing =>
    refine ⟨[], by simp, ?_⟩
    rw [taken_other starts.not_packet]
    exact (traffic_preparing preparing).append (traffic_setTimer _ _)
  | @beganV0100 bytes =>
    refine ⟨[V0100Prefix.identify :: s.key.tag1], by simp, ?_⟩
    rw [taken_other (by simp)]
    have before : Traffic [] [] ([.trace (.read bytes)] ++ opening) :=
      .silent (by simp [opening, Silent, rxOf, txOf, writeOf])
    have after : Traffic [] [] [.pause v0100SettleMs,
        .setTimer .firstPacket s.options.timeouts.firstPacketMs] :=
      .silent (by simp [Silent, rxOf, txOf, writeOf])
    exact before.append ((Traffic.replied _ (List.forall_mem_nil _)).append after)
  | @answered session packet response stack running current =>
    refine ⟨[response], by simp, ?_⟩
    rw [taken_packet (flowing_v0200 running current)]
    exact (traffic_replied session stack packet response).append (traffic_setTimer _ _)
  | @closed session packet response stack running current =>
    refine ⟨[response], by simp, ?_⟩
    rw [taken_packet (flowing_v0200 running current)]
    exact (traffic_replied session stack packet response).append (traffic_finish _ _)
  | @refused session packet e stack running current =>
    refine ⟨[], by simp, ?_⟩
    rw [taken_packet (flowing_v0200 running current)]
    exact (Traffic.received packet).append (traffic_finish _ _)
  | silentV0200 | lostV0200 | silentV0100 =>
    refine ⟨[], by simp, ?_⟩
    rw [taken_other (by simp)]
    exact ended (by simp [silent_info]) _
  | @ignored session packet message running current =>
    refine ⟨[], by simp, ?_⟩
    rw [taken_packet (flowing_v0100 running current)]
    exact (Traffic.received packet).append (.silent (by simp [silent_info]))
  | @signed session packet nonce running current =>
    refine ⟨[signedNonce aes session.knKey nonce], by simp, ?_⟩
    rw [taken_packet (flowing_v0100 running current)]
    have entered : Traffic [] [] [.phase .exchanging] := .silent (by simp [silent_phase])
    exact ((Traffic.received packet).append entered).append
      ((Traffic.replied _ (List.forall_mem_nil _)).append (traffic_setTimer _ _))
  | resulted running current | shortV0100 running current =>
    refine ⟨[], by simp, ?_⟩
    rw [taken_packet (flowing_v0100 running current)]
    exact (Traffic.received _).append (traffic_finish _ _)

/-- A v0200 flow writes the answer of its stack, and nothing when the stack has none. -/
theorem poll_replies {s : Session} {session : V0200} (running : s.finished = false)
    (current : s.state = .v0200 session) (packet : List UInt8) :
    (s.poll aes os (.notification packet)).2.filterMap writeOf =
      match (session.stack.handlePacket aes packet).2 with
      | .ok response => [response]
      | .error _ => [] := by
  cases handled : session.stack.handlePacket aes packet with
  | mk stack answer =>
    cases answer with
    | error e =>
      rw [poll_refused aes os running current handled]
      exact ((Traffic.received packet).append (traffic_finish _ _)).written
    | ok response =>
      rw [poll_answered aes os running current handled]
      split
      · exact ((traffic_replied _ _ _ _).append (traffic_finish _ _)).written
      · exact ((traffic_replied _ _ _ _).append (traffic_setTimer _ _)).written

/-- Without a packet a v0200 flow writes nothing. -/
theorem poll_unasked {s : Session} {event : Event} {session : V0200}
    (after : (s.poll aes os event).1.state = .v0200 session)
    (other : ∀ packet, event ≠ .notification packet) :
    (s.poll aes os event).2.filterMap writeOf = [] := by
  have step := poll_step aes os s event
  generalize s.poll aes os event = polled at step after
  have ended {notes : List Action} (quiet : ∀ a ∈ notes, Silent a) (result : Except Error Outcome) :
      (emit notes (s.finish result)).2.filterMap writeOf = [] :=
    ((Traffic.silent quiet).append (traffic_finish s result)).written
  cases step with
  | halted => rfl
  | cancelled | unexpected | disconnected => exact (traffic_finish s _).written
  | detecting | beganV0100 => cases after
  | version | silentV0200 | lostV0200 | silentV0100 =>
    exact ended (by simp [info, Silent, rxOf, txOf, writeOf]) _
  | beganV0200 _ _ preparing =>
    exact ((traffic_preparing preparing).append (traffic_setTimer _ _)).written
  | answered | closed | refused | ignored | signed | resulted | shortV0100 =>
    exact absurd rfl (other _)

/-- An answer comes with a note exactly when the packet was refused the kN key. -/
theorem note_replied {past : List PollRecord} {s : Session} (counted : Counted aes past s)
    {session : V0200} {packet response : List UInt8} {stack : JustinStack0100 NoopKeyStore}
    (running : s.finished = false) (current : s.state = .v0200 session)
    (handled : session.stack.handlePacket aes packet = (stack, .ok response))
    (fits : past.countP (refusedKn aes) +
      (if session.stack.refusesKn aes packet then 1 else 0) < 2 ^ 32) :
    info refusedKnMessage ∈ session.replied stack packet response ↔
      session.stack.refusesKn aes packet = true := by
  have held := counted running
  rw [current] at held
  obtain ⟨connected, holds, exact_⟩ := held
  obtain ⟨key, key_⟩ := Option.isSome_iff_exists.mp holds
  have moved := session.stack.handlePacket_refusals aes connected key_ packet
  rw [handled] at moved
  obtain ⟨count, traced⟩ := exact_ (by omega)
  obtain ⟨_, _, noted⟩ := traced_refusals count traced moved fits
  rw [V0200.replied, noted]
  have phases : .trace (.info refusedKnMessage) ∉
      ({ session with stack } : V0200).traceRefusals.1.enterExchange.2 := by
    intro member
    have same := enterExchange_phase _ _ member
    cases same
  cases session.stack.refusesKn aes packet <;> simp [phases, info]

/-- The note on a refusal goes with the packets that are refused the kN key. -/
theorem poll_note {past : List PollRecord} {s : Session} (counted : Counted aes past s)
    (event : Event)
    (fits : (past ++ [stepAt (poll aes os) s event]).countP (refusedKn aes) < 2 ^ 32) :
    info refusedKnMessage ∈ (s.poll aes os event).2 ↔
      refusedKn aes (stepAt (poll aes os) s event) = true := by
  have step := poll_step aes os s event
  have record : stepAt (Session.poll aes os) s event =
    ⟨s, event, (s.poll aes os event).2, (s.poll aes os event).1⟩ := rfl
  rw [record] at fits ⊢
  rw [countP_snoc] at fits
  generalize s.poll aes os event = polled at step fits
  cases step with
  | halted halted =>
    rw [refusedKn, taken_unflowing (by simp [flowing, halted])]
    simp
  | cancelled | disconnected =>
    rw [refusedKn_other aes (by simp)]
    simp [finish, info]
  | unexpected _ rejects =>
    rw [refusedKn, rejects.taken]
    simp [unexpected, finish, info]
  | detecting running idle _ announced =>
    rw [refusedKn_other aes (by simp)]
    rcases announced with ⟨_, rfl⟩ | ⟨_, rfl⟩ <;> simp [info]
  | version =>
    rw [refusedKn_other aes (by simp)]
    simp [emit, finish, info]
  | beganV0200 _ starts preparing =>
    rw [refusedKn_other aes starts.not_packet]
    simp only [emit, beginV0200, opening, List.mem_append, Bool.false_eq_true, iff_false]
    rintro ((noted | opens) | armed)
    · rcases preparing.mem noted with same | ⟨message, same, other⟩ | ⟨bytes, same⟩
      · cases same
      · obtain rfl : refusedKnMessage = message := by simpa [info] using same
        exact other rfl
      · cases same
    · simp [info] at opens
    · simp [info] at armed
  | beganV0100 =>
    rw [refusedKn_other aes (by simp)]
    simp [emit, beginV0100, opening, info]
  | @answered session packet response stack running current handled =>
    rw [refusedKn_packet aes running current] at fits ⊢
    rw [← note_replied aes counted running current handled fits]
    simp [info]
  | @closed session packet response stack running current handled =>
    rw [refusedKn_packet aes running current] at fits ⊢
    rw [← note_replied aes counted running current handled fits]
    simp [emit, finish, info]
  | @refused session packet e stack running current handled =>
    rw [refusedKn_packet aes running current]
    have unanswered : ¬session.stack.refusesKn aes packet := by
      intro refused
      have answered := session.stack.refusesKn_isOk aes refused
      rw [handled] at answered
      cases answered
    simpa [emit, finish, info] using unanswered
  | silentV0200 _ _ other | silentV0100 _ _ other =>
    rw [refusedKn_other aes (by simp)]
    simpa [emit, finish, info] using other.symm
  | lostV0200 =>
    rw [refusedKn_other aes (by simp)]
    simp [emit, finish, info]
    decide
  | ignored running current _ other =>
    rw [refusedKn_elsewhere aes (by simp [stack, current])]
    simpa [info] using other.symm
  | signed running current =>
    rw [refusedKn_elsewhere aes (by simp [stack, current])]
    simp [info]
  | resulted running current | shortV0100 running current =>
    rw [refusedKn_elsewhere aes (by simp [stack, current])]
    simp [emit, finish, info]

/-- A refusal is that of a packet brought to a running exchange. -/
theorem refusedKn_inv {s : Session} {event : Event}
    (refused : refusedKn aes (stepAt (poll aes os) s event) = true) :
    ∃ session packet, s.finished = false ∧ s.state = .v0200 session ∧
      event = .notification packet ∧ session.stack.refusesKn aes packet := by
  cases event with
  | notification packet =>
    cases current : s.state with
    | v0200 session =>
      cases running : s.finished with
      | true =>
        rw [refusedKn, stepAt, taken_unflowing (by simp [flowing, running])] at refused
        cases refused
      | false =>
        rw [stepAt, refusedKn_packet aes running current] at refused
        exact ⟨session, packet, rfl, rfl, rfl, refused⟩
    | idle | detecting | v0100 =>
      rw [refusedKn_elsewhere aes (by simp [stepAt, stack, current])] at refused
      cases refused
  | _ =>
    rw [refusedKn_other aes (by simp [stepAt])] at refused
    cases refused

/-- A projection of all actions, from that of each batch. -/
theorem projected_actions {α : Type} (said : Action → Option α) (each : PollRecord → List α)
    {past : List PollRecord} (holds : ∀ x ∈ past, x.output.filterMap said = each x) :
    (actions past).filterMap said = past.flatMap each := by
  induction past with
  | nil => rfl
  | cons x rest ih =>
    rw [actions, List.flatMap_cons, List.filterMap_append, holds x List.mem_cons_self,
      List.flatMap_cons]
    exact congrArg _ (ih fun y member => holds y (List.mem_cons_of_mem x member))

theorem packetsTaken_eq (past : List PollRecord) :
    past.flatMap (fun x => (taken x).toList) = packetsTaken past := by
  induction past with
  | nil => rfl
  | cons x rest ih =>
    rw [List.flatMap_cons, ih, packetsTaken, packetsTaken, List.filterMap_cons]
    cases taken x <;> rfl

/-- Over every run the packets recorded as received are those brought to a running flow, the
packets recorded as sent are those written, each on record before it is written; a v0200 flow
answers every packet its stack has an answer to, once, and no other; and a note on a refusal of
the kN key goes with exactly the packets that were refused it, which the lock is written. -/
theorem recorded_traffic (key : MobileKey) (options : Options) (random : Option RandomSource)
    (events : List Event) :
    let past := trace (poll aes os) (start key options random) events
    (actions past).filterMap rxOf = packetsTaken past ∧
    (actions past).filterMap txOf = (actions past).filterMap writeOf ∧
    (∀ x ∈ past, x.output.filterMap txOf = x.output.filterMap writeOf ∧
      ∀ front, front <+: x.output → front.filterMap writeOf <+: front.filterMap txOf) ∧
    (∀ x ∈ past, ∀ session packet, x.before.finished = false → x.before.state = .v0200 session →
      x.input = .notification packet →
      x.output.filterMap writeOf = match (session.stack.handlePacket aes packet).2 with
        | .ok response => [response]
        | .error _ => []) ∧
    (∀ x ∈ past, ∀ session, x.after.state = .v0200 session →
      (∀ packet, x.input ≠ .notification packet) → x.output.filterMap writeOf = []) ∧
    (∀ x ∈ past, refusedKn aes x = true → ∃ session packet, x.before.finished = false ∧
      x.before.state = .v0200 session ∧ x.input = .notification packet ∧
      x.output.filterMap writeOf =
        [session.stack.replyTo aes packet [CommandStatus.genericError.toByte]]) ∧
    (past.countP (refusedKn aes) < 2 ^ 32 →
      ∀ x ∈ past, info refusedKnMessage ∈ x.output ↔ refusedKn aes x = true) := by
  intro past
  -- every step of the run is the poll of a state the run has come to
  have each {claim : PollRecord → Prop}
      (holds : ∀ s event, claim (stepAt (poll aes os) s event)) : ∀ x ∈ past, claim x := by
    intro x member
    obtain ⟨front, event, back, rfl, rfl⟩ := (mem_trace_iff _ _ x).mp member
    exact holds _ event
  have traffic : ∀ x ∈ past, ∃ replies, replies.length ≤ 1 ∧
      Traffic (taken x).toList replies x.output :=
    each fun s event => poll_traffic aes os s event
  refine ⟨?_, ?_, ?_, ?_, ?_, ?_, ?_⟩
  · rw [← packetsTaken_eq]
    refine projected_actions _ _ fun x member => ?_
    obtain ⟨replies, _, traffic⟩ := traffic x member
    exact traffic.rx
  · rw [projected_actions txOf (fun x => x.output.filterMap txOf) fun _ _ => rfl]
    symm
    refine projected_actions _ _ fun x member => ?_
    obtain ⟨replies, _, traffic⟩ := traffic x member
    rw [traffic.written, traffic.tx]
  · intro x member
    obtain ⟨replies, _, traffic⟩ := traffic x member
    exact ⟨traffic.tx.trans traffic.written.symm, traffic.recorded⟩
  · refine each fun s event => ?_
    rintro session packet running current rfl
    exact poll_replies aes os running current packet
  · exact each fun s event session after other => poll_unasked aes os after other
  · refine each fun s event refused => ?_
    obtain ⟨session, packet, running, current, rfl, refuses⟩ := refusedKn_inv aes os refused
    refine ⟨session, packet, running, current, rfl, ?_⟩
    have answered := session.stack.refusesKn_answered aes refuses
    rw [stepAt, poll_replies aes os running current packet,
      session.stack.handlePacket_answered aes answered]
    rfl
  · intro fits x member
    obtain ⟨front, event, back, split, rfl⟩ := (mem_trace_iff _ _ x).mp member
    refine poll_note aes os (counted_run aes os key options random front) event ?_
    refine Nat.lt_of_le_of_lt ?_ fits
    rw [← trace_snoc]
    apply List.Sublist.countP_le
    -- what has been refused so far has been refused in the whole run
    have whole : past = trace (poll aes os) (start key options random) (front ++ [event]) ++
        trace (poll aes os) (run (poll aes os) (start key options random) (front ++ [event]))
          back := by
      rw [← trace_append, List.append_assoc, List.singleton_append, ← split]
    rw [whole]
    exact List.sublist_append_left _ _

end Mkey.Session
