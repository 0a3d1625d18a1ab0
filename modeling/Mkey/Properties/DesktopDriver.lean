import Mkey.Ble.Desktop
import Mkey.Properties.GattTraffic
import Mkey.Properties.LockLifecycle

/-!
# The driver over the desktop transport

Session, pump and driver keep the one rule that the transport has for its
callers, so that over every run of the whole stack all traffic goes where it
should. What goes over the radio is what the driver has on record, and a driver
that takes itself to be disconnected holds no peripheral.

## Proof strategy

A relation between the calls on record and the transport is kept by the pump as
soon as it is kept by each call; it is instantiated with the runs of the desktop
transport.
-/
namespace Mkey

namespace Pump

variable {T : Type} [BleTransport T]

/-- A relation between the calls on record and the transport that every call keeps. -/
structure Preserved (T : Type) [BleTransport T] (R : List PumpCall → T → Prop) : Prop where
  phase : ∀ past t phase, R past t → R (past ++ [.phase phase]) t
  trace : ∀ past t trace, R past t → R (past ++ [.trace trace]) t
  pause : ∀ past t ms, R past t → R (past ++ [.pause ms]) (BleTransport.sleep t ms)
  write : ∀ past t bytes, R past t → R (past ++ [.write bytes]) (BleTransport.write t bytes).1
  subscribe : ∀ past t, R past t → R (past ++ [.subscribe]) (BleTransport.subscribe t).1
  readNotifyValue : ∀ past t ms, R past t →
    R (past ++ [.readNotifyValue ms]) (BleTransport.readNotifyValue t ms).1
  receive : ∀ past t expires, R past t → R (past ++ [.receive]) (BleTransport.receive t expires).1
  disconnect : ∀ past t, R past t → R (past ++ [.disconnect]) (BleTransport.disconnect t).1

namespace Preserved

variable {R : List PumpCall → T → Prop} {past : List PumpCall}

/-- Notes about a call change nothing. -/
theorem readNote (preserved : Preserved T R) {t : T} (holds : R past t) (ms : UInt32)
    (read : Option (Except Error (List UInt8))) : R (past ++ Pump.readNote ms read) t := by
  unfold Pump.readNote
  split
  · rwa [List.append_nil]
  · exact preserved.trace past t _ holds
  · exact preserved.trace past t _ holds

theorem announceNote (preserved : Preserved T R) {t : T} (holds : R past t)
    (res : Except Error Unit) : R (past ++ [Pump.announceNote res]) t := by
  cases res with
  | ok done => exact preserved.trace past t _ holds
  | error e => exact preserved.trace past t _ holds

theorem heard (preserved : Preserved T R) {t : T} (holds : R past t) (id : TimerId)
    (arrived : Option (Except Error (Option (List UInt8)))) :
    R (past ++ (Pump.heard id arrived).1) t := by
  unfold Pump.heard
  split
  · rwa [List.append_nil]
  · rwa [List.append_nil]
  · exact preserved.trace past t _ holds
  · rwa [List.append_nil]

theorem applyActions (preserved : Preserved T R) {t : T} (holds : R past t)
    (info : Option (Option (List UInt8))) (deadline : Option Deadline) (actions : List Action) :
    R (past ++ (Pump.applyActions t info deadline actions).2.1)
      (Pump.applyActions t info deadline actions).1 := by
  induction actions generalizing past t info deadline with
  | nil => rwa [Pump.applyActions, List.append_nil]
  | cons a rest ih =>
    -- the calls of this action, then those of the rest
    have onward (calls : List PumpCall) (t' : T) (info' : Option (Option (List UInt8)))
        (deadline' : Option Deadline) (here : R (past ++ calls) t') :
        R (past ++ (andThen calls (Pump.applyActions t' info' deadline' rest)).2.1)
          (andThen calls (Pump.applyActions t' info' deadline' rest)).1 := by
      rw [andThen, ← List.append_assoc]
      exact ih here info' deadline'
    cases a with
    | announceAppProtocol =>
      apply onward
      rw [List.append_cons]
      exact preserved.announceNote (preserved.write past t _ holds) _
    | readProtocolInfo ms =>
      apply onward
      rw [List.append_cons]
      exact preserved.readNote (preserved.readNotifyValue past t ms holds) ms _
    | subscribe =>
      have here := preserved.subscribe past t holds
      rw [Pump.applyActions]
      split
      -- a subscription or write that fails is the last call of its batch
      next failed =>
        rwa [failed] at here
      next subscribed =>
        rw [subscribed] at here
        exact onward _ _ _ _ here
    | write bytes =>
      have here := preserved.write past t bytes holds
      rw [Pump.applyActions]
      split
      next failed =>
        rwa [failed] at here
      next written =>
        rw [written] at here
        exact onward _ _ _ _ here
    | pause ms => exact onward _ _ _ _ (preserved.pause past t ms holds)
    | setTimer id afterMs => exact ih holds info _
    | phase phase => exact onward _ _ _ _ (preserved.phase past t phase holds)
    | trace trace => exact onward _ _ _ _ (preserved.trace past t trace holds)
    | done result => rwa [Pump.applyActions, List.append_nil]

variable (aes : BlockCipher) (os : RandomSource)

theorem turn (preserved : Preserved T R) {loop : Turn T} (holds : R past loop.transport) :
    (∀ next, (Pump.turn aes os loop).2 = .inl next →
      R (past ++ (Pump.turn aes os loop).1) next.transport) ∧
    ∀ out, (Pump.turn aes os loop).2 = .inr out →
      R (past ++ (Pump.turn aes os loop).1) out.1 := by
  have batch : R (past ++ (applied aes os loop).2.1) (applied aes os loop).1 :=
    preserved.applyActions holds none loop.deadline (polled aes os loop).2
  have step := turn_step aes os loop
  generalize Pump.turn aes os loop = result at step
  cases step with
  | returned applies | idle applies =>
    rw [applies] at batch
    refine ⟨by simp, ?_⟩
    rintro out same
    obtain rfl := Sum.inr.inj same
    exact batch
  | asked applies =>
    rw [applies] at batch
    refine ⟨?_, by simp⟩
    rintro next same
    obtain rfl := Sum.inl.inj same
    exact batch
  | @waited t calls id expires arrived t' applies receives =>
    rw [applies] at batch
    refine ⟨?_, by simp⟩
    rintro next same
    obtain rfl := Sum.inl.inj same
    have here := preserved.receive _ t expires batch
    rw [receives] at here
    rw [← List.append_assoc, List.append_cons]
    exact preserved.heard here id arrived

/-- A whole attempt keeps it, the disconnect at its end included. -/
theorem runSession (preserved : Preserved T R) {t t' : T} (holds : R past t) {session : Session}
    {fuel : Nat} {calls : List PumpCall} {left : Session} {result : Except Error Outcome}
    (returned : Pump.runSession aes os fuel t session = some (calls, t', left, result)) :
    R (past ++ calls) t' := by
  simp only [Pump.runSession, pump, Option.map_eq_some_iff, Prod.exists, Prod.mk.injEq]
    at returned
  obtain ⟨body, t₁, left', result', ran, rfl, rfl, rfl, rfl⟩ := returned
  have kept (past' : List PumpCall) (loop : Turn T) (calls : List PumpCall) (next : Turn T)
      (holds : R past' loop.transport) (goes : Pump.turn aes os loop = (calls, .inl next)) :
      R (past' ++ calls) next.transport := by
    have on := (preserved.turn aes os holds).1 next (by rw [goes])
    rwa [goes] at on
  obtain ⟨front, last, loop, rfl, before, turned⟩ :=
    Loop.run_history kept holds ran
  -- behind the last turn come the end, if it was not reported, and the disconnect
  have after := (preserved.turn aes os before).2 _ (by rw [turned])
  rw [turned] at after
  rw [List.append_assoc past] at after
  have finished : R (past ++ (front ++ last ++ if left'.finished then [] else [.phase .finished]))
      t₁ := by
    split
    · rwa [List.append_nil]
    · rw [← List.append_assoc]
      exact preserved.phase _ _ _ after
  rw [← List.append_assoc]
  exact preserved.disconnect _ _ finished

end Preserved

end Pump

/-! ### What goes over the radio -/

/-- The bytes a call sends. -/
def GattCall.bytes : GattCall → Option (List UInt8)
  | .write _ _ data _ => some data
  | _ => none

/-- Whom a call connects to. -/
def GattCall.connects : GattCall → Option Peripheral
  | .platform (.connect p _) => some p
  | _ => none

/-- The bytes a call of the pump is to send. -/
def PumpCall.bytes : PumpCall → Option (List UInt8)
  | .write bytes => some bytes
  | _ => none

def LockCall.bytes : LockCall → Option (List UInt8)
  | .pump call => call.bytes
  | _ => none

namespace BtleplugTransport

variable {W : Type} [GattPlatform W]

/-- Calls that neither send nor connect. -/
def Silent (calls : List GattCall) : Prop :=
  calls.filterMap GattCall.bytes = [] ∧ calls.filterMap GattCall.connects = []

theorem write_sends (t : BtleplugTransport W) (data : List UInt8) :
    ((t.write data).2.1.filterMap GattCall.bytes).Sublist [data] ∧
      (t.write data).2.1.filterMap GattCall.connects = [] := by
  unfold BtleplugTransport.write
  split
  · exact ⟨by simp, rfl⟩
  · split
    · exact ⟨by simp, rfl⟩
    · exact ⟨by simp [GattCall.bytes], rfl⟩

theorem subscribe_silent (t : BtleplugTransport W) : Silent t.subscribe.2.1 := by
  unfold BtleplugTransport.subscribe
  split
  · exact ⟨rfl, rfl⟩
  · split
    · exact ⟨rfl, rfl⟩
    · split
      · exact ⟨rfl, rfl⟩
      · split
        · exact ⟨rfl, rfl⟩
        · split
          · exact ⟨rfl, rfl⟩
          · exact ⟨rfl, rfl⟩

theorem readNotifyValue_silent (t : BtleplugTransport W) : Silent t.readNotifyValue.2.1 := by
  unfold BtleplugTransport.readNotifyValue
  split
  · exact ⟨rfl, rfl⟩
  · split
    · exact ⟨rfl, rfl⟩
    · exact ⟨rfl, rfl⟩

theorem receive_silent (t : BtleplugTransport W) : Silent t.receive.2.1 := by
  unfold BtleplugTransport.receive
  split
  · exact ⟨rfl, rfl⟩
  · exact ⟨rfl, rfl⟩

theorem disconnect_silent (t : BtleplugTransport W) : Silent t.disconnectOnRecord.2.1 := by
  have asked : Silent (t.disconnect.2.1.map GattCall.platform) := by
    unfold BtleplugTransport.disconnect
    split
    · exact ⟨rfl, rfl⟩
    · dsimp only
      split
      · exact ⟨rfl, rfl⟩
      · exact ⟨rfl, rfl⟩
      · split
        · exact ⟨rfl, rfl⟩
        · exact ⟨rfl, rfl⟩
  have record : t.disconnectOnRecord.2.1 =
      t.disconnect.2.1.map .platform ++ [.disconnected t.disconnect.2.2] := rfl
  rw [record]
  constructor
  · rw [List.filterMap_append, asked.1]
    rfl
  · rw [List.filterMap_append, asked.2]
    rfl

omit [GattPlatform W] in
/-- A search sends nothing. -/
theorem searchRecord_sends (calls : List PlatformCall) (t : BtleplugTransport W)
    (result : Except Error ConnectedLock) :
    (searchRecord calls t result).filterMap GattCall.bytes = [] := by
  have searched : (calls.map GattCall.platform).filterMap GattCall.bytes = [] := by
    rw [List.filterMap_map]
    exact List.filterMap_eq_nil_iff.mpr fun _ _ => rfl
  unfold searchRecord
  rw [List.filterMap_append, searched]
  split
  · rfl
  · rfl

end BtleplugTransport

namespace Desktop

open BtleplugTransport Pump

variable {W : Type} [DesktopPlatform W]

/-- An attempt on a link: the transport is used by its rule, sends what is on record and no more,
connects to nobody, and lets go of its peripheral with the disconnect. -/
structure Goes (base : List (List UInt8)) (start : List GattCall) (past : List PumpCall)
    (t : Desktop W) : Prop where
  used : Used t.transport t.log
  sends : (t.log.filterMap GattCall.bytes).Sublist (base ++ past.filterMap PumpCall.bytes)
  links : ∃ more, t.log = start ++ more ∧ more.filterMap GattCall.connects = []
  gone : past.getLast? = some .disconnect → t.transport.peripheral = none

variable {base : List (List UInt8)} {start : List GattCall} {past : List PumpCall}
  {t : Desktop W}

/-- A call that is one operation of the transport. -/
theorem Goes.asked {α : Type} (goes : Goes base start past t) (operation : Operation)
    (call : PumpCall) {answered : Answered W α}
    (performed : t.transport.perform operation = some (answered.1, answered.2.1))
    (apart : ∀ call fuel timeout, operation ≠ .connect call fuel timeout)
    (sends : (answered.2.1.filterMap GattCall.bytes).Sublist call.bytes.toList)
    (connects : answered.2.1.filterMap GattCall.connects = [])
    (gone : call = .disconnect → answered.1.peripheral = none) :
    Goes base start (past ++ [call]) (t.asked answered).1 := by
  refine ⟨?_, ?_, ?_, ?_⟩
  · exact .performed operation goes.used
      (fun c fuel timeout same => absurd same (apart c fuel timeout)) performed
  · change ((t.log ++ answered.2.1).filterMap _).Sublist _
    -- the pump's one write is at most one write on the radio
    rw [List.filterMap_append, List.filterMap_append, ← List.append_assoc]
    refine goes.sends.append ?_
    cases sent : call.bytes with
    | none => simpa [sent] using sends
    | some bytes => simpa [sent] using sends
  · obtain ⟨more, log, nobody⟩ := goes.links
    refine ⟨more ++ answered.2.1, ?_, by rw [List.filterMap_append, nobody, connects]; rfl⟩
    rw [← List.append_assoc, ← log]
    rfl
  · intro last
    rw [List.getLast?_concat] at last
    exact gone (Option.some.inj last)

/-- A call that neither sends nor connects. -/
theorem Goes.quiet {α : Type} (goes : Goes base start past t) (operation : Operation)
    (call : PumpCall) {answered : Answered W α}
    (performed : t.transport.perform operation = some (answered.1, answered.2.1))
    (apart : ∀ call fuel timeout, operation ≠ .connect call fuel timeout)
    (silent : Silent answered.2.1)
    (gone : call = .disconnect → answered.1.peripheral = none) :
    Goes base start (past ++ [call]) (t.asked answered).1 := by
  refine goes.asked operation call performed apart ?_ silent.2 gone
  rw [silent.1]
  exact List.nil_sublist _

/-- A call on the observer. -/
theorem Goes.note (goes : Goes base start past t) {call : PumpCall} (silent : call.bytes = none)
    (other : call ≠ .disconnect) : Goes base start (past ++ [call]) t := by
  refine ⟨goes.used, ?_, goes.links, ?_⟩
  · rw [Log.filterMap_concat_none past silent]
    exact goes.sends
  · intro last
    rw [List.getLast?_concat] at last
    exact absurd (Option.some.inj last) other

theorem preserved_goes : Preserved (Desktop W) (Goes base start) where
  phase _ _ _ goes := goes.note rfl (by simp)
  trace _ _ _ goes := goes.note rfl (by simp)
  pause past t ms goes := by
    apply goes.quiet (.pause (ms.toNat * 1000000)) (.pause ms) rfl
    · simp
    · exact ⟨rfl, rfl⟩
    · simp
  write past t bytes goes := by
    obtain ⟨sends, connects⟩ := write_sends t.transport bytes
    apply goes.asked (.write bytes) (.write bytes) rfl
    · simp
    · exact sends
    · exact connects
    · simp
  subscribe past t goes := by
    apply goes.quiet .subscribe .subscribe rfl
    · simp
    · exact subscribe_silent t.transport
    · simp
  readNotifyValue past t ms goes := by
    apply goes.quiet .readNotifyValue (.readNotifyValue ms) rfl
    · simp
    · exact readNotifyValue_silent t.transport
    · simp
  receive past t expires goes := by
    apply goes.quiet .receive .receive rfl
    · simp
    · exact receive_silent t.transport
    · simp
  disconnect past t goes := by
    apply goes.quiet .disconnect .disconnect rfl
    · simp
    · exact disconnect_silent t.transport
    · exact fun _ => disconnect_peripheral t.transport

/-! ### The driver -/

variable (aes : BlockCipher)

/-- The runs of a driver over the first adapter, with the calls it made. -/
inductive Driven : SaltoLock (Desktop W) → List LockCall → Prop
  | made {manager : Except String (Except String (List W))} {searchFuel : Nat}
      {lock : SaltoLock (Desktop W)} (handshake : HandshakePlan) (timeouts : Timeouts)
      (random : Option RandomSource) : SaltoLock.new manager searchFuel = .ok lock →
      Driven { lock with handshake, timeouts, random } []
  | performed {lock next : SaltoLock (Desktop W)} {record calls : List LockCall}
      {failed : Option Error} (operation : LockOperation) : Driven lock record →
      lock.perform aes operation = some (next, calls, failed) → Driven next (record ++ calls)

/-- What holds of a driver and its record at every time. -/
structure Keeps (lock : SaltoLock (Desktop W)) (record : List LockCall) : Prop where
  used : Used lock.transport.transport lock.transport.log
  sends : (lock.transport.log.filterMap GattCall.bytes).Sublist (record.filterMap LockCall.bytes)
  away : lock.state = .disconnected → lock.transport.transport.peripheral = none

variable {lock next : SaltoLock (Desktop W)} {record calls : List LockCall}

/-- A search of a driver that holds no peripheral, whichever it is. -/
theorem Keeps.searched (keeps : Keeps lock record) (away : lock.state = .disconnected)
    (call : ConnectCall) (timeout : Duration) (asked : LockCall) (silent : asked.bytes = none) :
    let answer := lock.transport.searched timeout
      (call.perform lock.transport.searchFuel timeout lock.transport.transport)
    Keeps (lock.connected asked answer).1 (record ++ (lock.connected asked answer).2.1) := by
  intro answer
  have free := keeps.away away
  have same := (Log.filterMap_concat_none record silent).symm
  cases found : call.perform lock.transport.searchFuel timeout lock.transport.transport with
  | none =>
    -- out of fuel: the search is given up as if its time were up
    have stays : answer = (lock.transport, .error (.timeout (UInt64.ofNat timeout.asMillis))) := by
      simp only [answer, found, Desktop.searched]
    rw [stays]
    exact ⟨keeps.used, same ▸ keeps.sends, fun _ => free⟩
  | some out =>
    obtain ⟨made, transport, result⟩ := out
    have searched : answer = lock.transport.asked
        (transport, searchRecord made transport result, result) := by
      simp only [answer, found, Desktop.searched]
    have used : Used transport
        (lock.transport.log ++ searchRecord made transport result) := by
      apply Used.performed (.connect call lock.transport.searchFuel timeout) keeps.used
      · exact fun _ _ _ _ => free
      · rw [BtleplugTransport.perform, found]
        rfl
    have sends : ((lock.transport.log ++ searchRecord made transport result).filterMap
        GattCall.bytes).Sublist ((record ++ [asked]).filterMap LockCall.bytes) := by
      rw [List.filterMap_append, searchRecord_sends, List.append_nil, ← same]
      exact keeps.sends
    rw [searched]
    cases result with
    | error e =>
      -- it failed, so the transport holds what it held, which is nothing
      refine ⟨used, sends, fun _ => ?_⟩
      rw [call.perform_eq] at found
      have held := searchAndConnect_held found
      simp only [BtleplugTransport.held, Prod.mk.injEq] at held
      exact held.1.trans free
    | ok info => exact ⟨used, sends, fun gone => by cases gone⟩

/-- A driver about to use its link. -/
theorem Keeps.goes (keeps : Keeps lock record) :
    Goes (record.filterMap LockCall.bytes) lock.transport.log [] lock.transport := by
  refine ⟨keeps.used, ?_, ⟨[], (List.append_nil _).symm, rfl⟩, by simp⟩
  rw [List.filterMap_nil, List.append_nil]
  exact keeps.sends

/-- An attempt of a driver ends without a peripheral, and connects to nobody. -/
theorem Keeps.attempt (keeps : Keeps lock record) {os : RandomSource} {fuel : Nat}
    {mode : OpeningMode} {key : MobileKey} {advertised : UInt8} {result : Except Error Outcome}
    (returned : lock.attempt aes os fuel mode key advertised = some (next, calls, result)) :
    Keeps next (record ++ calls) ∧ ∃ more, next.transport.log = lock.transport.log ++ more ∧
      more.filterMap GattCall.connects = [] := by
  rw [SaltoLock.attempt, Option.map_eq_some_iff] at returned
  obtain ⟨⟨pumped, t, session, result'⟩, ran, same⟩ := returned
  simp only [Prod.mk.injEq] at same
  obtain ⟨rfl, rfl, rfl⟩ := same
  have start := keeps.goes
  have done := preserved_goes.runSession aes os start ran
  have last : pumped.getLast? = some .disconnect := by
    -- whatever became of the loop, the disconnect is the last call
    simp only [Pump.runSession, Option.map_eq_some_iff, Prod.exists, Prod.mk.injEq] at ran
    obtain ⟨_, _, _, _, _, rfl, _⟩ := ran
    exact List.getLast?_concat
  rw [List.nil_append] at done
  refine ⟨⟨done.used, ?_, fun _ => done.gone last⟩, done.links⟩
  rw [List.filterMap_append, List.filterMap_cons_none rfl, List.filterMap_map]
  exact done.sends

/-- The driver's own disconnect, whatever comes of it. -/
theorem Keeps.disconnect (keeps : Keeps lock record) :
    Keeps lock.disconnect.1 (record ++ lock.disconnect.2.1) := by
  have start := keeps.goes
  have done := preserved_goes.disconnect [] lock.transport start
  have sends := done.sends
  rw [Log.filterMap_concat_none [] rfl, List.filterMap_nil, List.append_nil] at sends
  have free := done.gone rfl
  have same : (record ++ [LockCall.disconnect]).filterMap LockCall.bytes =
      record.filterMap LockCall.bytes := Log.filterMap_concat_none record rfl
  unfold SaltoLock.disconnect
  split
  next t e left =>
    rw [left] at done sends free
    exact ⟨done.used, same ▸ sends, fun _ => free⟩
  next t left =>
    rw [left] at done sends free
    exact ⟨done.used, same ▸ sends, fun _ => free⟩

/-- A driver that asks nothing of its transport, and is not disconnected by it. -/
theorem Keeps.still (keeps : Keeps lock record) (transport : next.transport = lock.transport)
    (away : next.state = .disconnected → lock.state = .disconnected) :
    Keeps next (record ++ []) := by
  rw [List.append_nil]
  refine ⟨transport ▸ keeps.used, transport ▸ keeps.sends, fun gone => ?_⟩
  rw [transport]
  exact keeps.away (away gone)

theorem Keeps.perform (keeps : Keeps lock record) {operation : LockOperation}
    {failed : Option Error} (performed : lock.perform aes operation = some (next, calls, failed)) :
    Keeps next (record ++ calls) := by
  by_cases refused : ∃ expected, operation.expects = some expected ∧ lock.state ≠ expected
  · obtain ⟨expected, expects, missed⟩ := refused
    -- a call out of turn does not reach the transport
    rw [SaltoLock.perform_refused aes expects missed] at performed
    cases performed
    exact keeps.still rfl id
  · have met : ∀ expected, operation.expects = some expected → lock.state = expected := by
      intro expected expects
      by_contra missed
      exact refused ⟨expected, expects, missed⟩
    cases operation with
    | scanAndConnectFiltered timeout filter =>
      rw [SaltoLock.perform, SaltoLock.scanAndConnectFiltered,
        SaltoLock.expectState_ok (met _ rfl)] at performed
      cases performed
      exact keeps.searched (met _ rfl) (.scanAndConnect filter) _ _ rfl
    | connectById lockId timeout =>
      rw [SaltoLock.perform, SaltoLock.connectById,
        SaltoLock.expectState_ok (met _ rfl)] at performed
      cases performed
      exact keeps.searched (met _ rfl) (.connectById lockId) _ _ rfl
    | authenticate mobileKey =>
      rw [SaltoLock.perform, SaltoLock.authenticate,
        SaltoLock.expectState_ok (met _ rfl)] at performed
      cases performed
      exact keeps.still rfl (fun gone => by cases gone)
    | openObserved os fuel mode =>
      rw [SaltoLock.perform, SaltoLock.openObserved,
        SaltoLock.expectState_ok (met _ rfl)] at performed
      cases loaded : lock.mobileKey with
      | none =>
        simp only [loaded] at performed
        cases performed
        exact keeps.still rfl id
      | some key =>
        simp only [loaded, Option.map_eq_some_iff] at performed
        obtain ⟨out, returned, same⟩ := performed
        cases same
        exact (keeps.attempt aes returned).1
    | writeTag tagId data =>
      rw [SaltoLock.perform, SaltoLock.writeTag] at performed
      split at performed
      · cases performed
        exact keeps.still rfl id
      · cases performed
        exact keeps.still rfl id
    | disconnect =>
      cases performed
      exact keeps.disconnect

theorem Driven.keeps (driven : Driven aes lock record) : Keeps lock record := by
  induction driven with
  | @made manager searchFuel lock handshake timeouts random created =>
    cases opened : BtleplugTransport.new manager with
    | error e =>
      rw [SaltoLock.new, opened] at created
      cases created
    | ok transport =>
      rw [SaltoLock.new, opened] at created
      cases created
      -- a transport as it is made holds nothing yet
      unfold BtleplugTransport.new at opened
      split at opened
      · cases opened
      · cases opened
      · cases opened
      · cases opened
        exact ⟨.made _, List.nil_sublist _, fun _ => rfl⟩
  | performed operation _ performed ih => exact ih.perform aes performed

/-- In every run of a driver on a desktop, whatever the platform does, all traffic goes over a link
that is up to where it should; the bytes sent are among those the driver has on record, in their
order; and a driver that takes itself to be disconnected holds no peripheral. -/
theorem driver_traffic (driven : Driven aes lock record) :
    (∀ front call back, lock.transport.log = front ++ call :: back → Allowed W front call) ∧
    (lock.transport.log.filterMap GattCall.bytes).Sublist (record.filterMap LockCall.bytes) ∧
    (lock.state = .disconnected → lock.transport.transport.peripheral = none) := by
  have keeps := driven.keeps
  refine ⟨fun front call back split => ?_, keeps.sends, keeps.away⟩
  exact Log.keeps_iff.mp keeps.used.keeps front call back split

instance : DesktopPlatform OneLock where
  now _ := 0
  late _ _ := false

/-- Found by its id, opened and hung up by the lock: the answer to that has gone out. -/
theorem driver_traffic_one_lock :
    ∃ (lock : SaltoLock (Desktop OneLock)) (record : List LockCall), Driven aes128 lock record ∧
      .write ⟨"lock"⟩ ⟨saltoWriteUuid, false⟩ [0x00, 0x00] .withResponse ∈ lock.transport.log ∧
      (∀ front call back, lock.transport.log = front ++ call :: back →
        Allowed OneLock front call) ∧
      lock.transport.transport.peripheral = none := by
  let os : RandomSource := ⟨fun _ => Block.replicate 0, 0⟩
  have opened : ∃ (lock : SaltoLock (Desktop OneLock)) (record : List LockCall),
      Driven aes128 lock record ∧ lock.state = .disconnected ∧
      .write ⟨"lock"⟩ ⟨saltoWriteUuid, false⟩ [0x00, 0x00] .withResponse ∈ lock.transport.log := by
    have created : SaltoLock.new (.ok (.ok [OneLock.mk])) 1 =
        .ok (SaltoLock.withTransport ⟨⟨⟨⟩, none, none, none, false⟩, 1, []⟩) := rfl
    have made : Driven aes128 _ [] := .made .auto .default none created
    have connected := made.performed (.connectById "lock" none) rfl
    have loaded := connected.performed (.authenticate (MobileKey.new (Block.replicate 0x42))) rfl
    exact ⟨_, _, loaded.performed (.openObserved os 3 .standard) rfl, rfl,
      List.mem_of_getElem? (i := 18) rfl⟩
  obtain ⟨lock, record, driven, away, written⟩ := opened
  obtain ⟨allowed, _, free⟩ := driver_traffic aes128 driven
  exact ⟨lock, record, driven, written, allowed, free away⟩

end Desktop

end Mkey
