/-
  File:      Vireo/Net/TlsCloseSafety.lean
  Subject:   THE STATE MACHINE OF THE CLOSE OF A TLS CONNECTION.
-/
import Vireo.Net.TlsStream

namespace Vireo.Net.Tls

open Base Lib List

/-! ## 1. The law -/

/-- The moves of the state of a close. -/
inductive CloseMove : CloseState → CloseState → Prop
  | request : CloseMove .none .draining
  | notify : CloseMove .draining .notifying
  | again : CloseMove .notifying .notifying
  | await : CloseMove .notifying .waitPeer
  | both : CloseMove .notifying .complete
  | peer : CloseMove .waitPeer .complete
  | fail {s : CloseState} (active : s.active = true) : CloseMove s .failed

namespace Event

/-- The state of the close after an event. -/
def closing (state : CloseState) : Event → CloseState
  | .close s => s
  | _ => state

/-- A native shutdown that confirms the local notification. -/
def notifies : Event → Bool
  | .shutdown r => r = 0 || r = 1
  | _ => false

/-- A call of the TLS library. -/
def native : Event → Bool
  | .write .. | .read .. | .shutdown _ => true
  | _ => false

/-- Not an event of the close. -/
def data : Event → Bool
  | .shutdown _ | .close _ => false
  | _ => true

end Event

/-- The state of the close after a log. -/
def closeStateOf (log : List Event) : CloseState := log.foldl Event.closing .none

/-- The state of the close is only given values that it may move to. -/
def MovesClose (before : List Event) : Event → Prop
  | .close s => CloseMove (closeStateOf before) s
  | _ => True

/-- The close against the log. -/
structure CloseInv (c : Connection) (log : List Event) : Prop where
  state : closeStateOf log = c.close.state
  moves : Lawful MovesClose log
  notified : log.countP Event.notifies = if c.close.localNotifySent then 1 else 0
  early : c.close.state = .none ∨ c.close.state = .draining ∨ c.close.state = .notifying →
    c.close.localNotifySent = false
  late : c.close.state = .waitPeer ∨ c.close.state = .complete → c.close.localNotifySent = true
  eof : c.close.state = .complete → c.io.readEof = true
  enabled : c.close.state ≠ .none → c.io.state ≠ .disabled
  unfinished : c.close.shutdownWait ≠ .none →
    c.close.state = .notifying ∧ c.io.write.buffer.unread = [] ∧ c.io.write.retryBytes = 0

section Steps

variable {c c' : Connection} {log events : List Event}

/-! ## 2. Calls that are not of the close -/

theorem closeStateOf_snoc (log : List Event) (e : Event) :
    closeStateOf (log ++ [e]) = e.closing (closeStateOf log) := by
  unfold closeStateOf
  rw [foldl_append]
  rfl

theorem closeStateOf_data (h : ∀ e ∈ events, e.data = true) : closeStateOf (log ++ events) = closeStateOf log := by
  unfold closeStateOf
  rw [foldl_append]
  induction events with
  | nil => rfl
  | cons e events ih =>
    rw [foldl_cons]
    have he := h e mem_cons_self
    cases e <;> first | exact ih fun e he => h e (mem_cons_of_mem _ he) | cases he

theorem movesClose_data (hl : Lawful MovesClose log) (h : ∀ e ∈ events, e.data = true) :
    Lawful MovesClose (log ++ events) := by
  refine lawful_append.mpr ⟨hl, fun before e after hsplit => ?_⟩
  have he := h e (by rw [hsplit]; exact mem_append_right _ mem_cons_self)
  cases e <;> trivial

theorem countP_notifies_data (h : ∀ e ∈ events, e.data = true) : events.countP Event.notifies = 0 := by
  rw [countP_eq_zero]
  intro e he hn
  have hd := h e he
  cases e <;> first | cases hn | cases hd

/-- A call that is not of the close. -/
structure Frame (c c' : Connection) (events : List Event) : Prop where
  close : c'.close = c.close
  data : ∀ e ∈ events, e.data = true
  io : c.close.state ≠ .none → c.io.state ≠ .disabled →
    c'.io.write = c.io.write ∧ c'.io.readEof = c.io.readEof ∧ c'.io.state ≠ .disabled

theorem Frame.same (hclose : c'.close = c.close) (hio : c'.io = c.io) : Frame c c' [] :=
  ⟨hclose, fun _ h => (not_mem_nil h).elim, fun _ hs => by rw [hio]; exact ⟨rfl, rfl, hs⟩⟩

theorem Frame.refl (c : Connection) : Frame c c [] := .same rfl rfl

theorem CloseInv.frame (h : CloseInv c log) (f : Frame c c' events) : CloseInv c' (log ++ events) := by
  obtain ⟨hclose, hdata, hio⟩ := f
  refine ⟨?_, movesClose_data h.moves hdata, ?_, ?_, ?_, ?_, ?_, ?_⟩
  · rw [closeStateOf_data hdata, h.state, hclose]
  · rw [countP_append, countP_notifies_data hdata, Nat.add_zero, h.notified, hclose]
  · rw [hclose]
    exact h.early
  · rw [hclose]
    exact h.late
  · rw [hclose]
    intro hs
    have hne : c.close.state ≠ .none := by rw [hs]; decide
    rw [(hio hne (h.enabled hne)).2.1]
    exact h.eof hs
  · rw [hclose]
    exact fun hne => (hio hne (h.enabled hne)).2.2
  · rw [hclose]
    intro hw
    obtain ⟨hs, hunread, hretry⟩ := h.unfinished hw
    have hne : c.close.state ≠ .none := by rw [hs]; decide
    rw [(hio hne (h.enabled hne)).1]
    exact ⟨hs, hunread, hretry⟩

/-- The events of a drive are native reads and writes, no more of them than its budget allows. -/
theorem driveLoop_events (writing closing : Bool) (budget : IoBudget) (ops : Nat → NativeReply) (left : Nat) :
    ∀ (io : IoStorage) (p : IoProgress),
      (∀ e ∈ (driveLoop budget writing closing ops left io p).events, e.data = true) ∧
        (driveLoop budget writing closing ops left io p).events.length ≤ left := by
  have hevent : ∀ (length : Nat) (r : NativeReply) (io : IoStorage),
      (driveRound writing length r io).2.2.data = true := by
    intro length r io
    cases writing <;> rfl
  induction left with
  | zero => exact fun io p => ⟨fun e he => (not_mem_nil he).elim, Nat.le_refl _⟩
  | succ left ih =>
    intro io p
    unfold driveLoop
    split
    · exact ⟨fun e he => (not_mem_nil he).elim, Nat.zero_le _⟩
    dsimp only
    split
    · exact ⟨fun e he => (not_mem_nil he).elim, Nat.zero_le _⟩
    have hdata := hevent (requestLength budget writing io p) (ops p.nativeCalls) io
    cases hout : driveRound writing (requestLength budget writing io p) (ops p.nativeCalls) io with
    | mk round rest =>
      obtain ⟨io', event⟩ := rest
      rw [hout] at hdata
      have hone : ∀ e ∈ [event], e.data = true := fun e he => mem_singleton.mp he ▸ hdata
      cases round with
      | again bytes =>
        obtain ⟨hrest, hlen⟩ := ih io' { p with nativeCalls := p.nativeCalls + 1, bytes := p.bytes + bytes }
        refine ⟨fun e he => ?_, Nat.succ_le_succ hlen⟩
        rcases mem_cons.mp he with rfl | he
        · exact hdata
        · exact hrest e he
      | stop reason wait => exact ⟨hone, Nat.succ_le_succ (Nat.zero_le _)⟩
      | fatal result error => exact ⟨hone, Nat.succ_le_succ (Nat.zero_le _)⟩

section

variable (c : Connection)

theorem frame_ioDrive (budget : IoBudget) (writing : Bool) (ops : Nat → NativeReply) :
    Frame c (ioDrive c budget writing false ops).connection (ioDrive c budget writing false ops).events := by
  rcases ioDrive_cases c budget writing false ops with ⟨hc, he⟩ | ⟨-, hnone, -, -, hc, he⟩
  · rw [hc, he]
    exact .refl c
  · rw [hc, he]
    exact ⟨rfl, (driveLoop_events _ _ _ _ _ _ _).1, fun hne => absurd (hnone rfl) hne⟩

theorem frame_ioSetup (options : IoOptions) (preparing : Bool) (ops : SetupOps) :
    Frame c (ioSetup c options preparing ops).connection (ioSetup c options preparing ops).events := by
  unfold ioSetup
  split
  · exact .refl c
  split
  · exact .refl c
  split
  · exact .refl c
  rename_i hstage
  split
  · exact .refl c
  · refine ⟨rfl, fun _ h => (not_mem_nil h).elim, fun _ hs => absurd (.inr hs) hstage⟩

theorem frame_deadlineArm (now deadline : Nat) (view : NativeView) :
    Frame c (deadlineArm c now deadline view).connection (deadlineArm c now deadline view).events := by
  unfold deadlineArm
  split
  · exact .refl c
  split
  · exact .refl c
  · exact .same rfl rfl

theorem frame_handshakeDrive (timed : Bool) (now : Nat) (r : HandshakeReply) :
    Frame c (handshakeDrive c timed now r).connection (handshakeDrive c timed now r).events := by
  have hopened : ∀ m : Connection, m.close = c.close → m.io = c.io → Frame c (openPrepared m) [] := by
    intro m hclose hio
    unfold openPrepared
    split
    · exact ⟨hclose, fun _ h => (not_mem_nil h).elim, fun _ _ => by rw [hio]; exact ⟨rfl, rfl, nofun⟩⟩
    · exact .same hclose hio
  have hattempt : ∀ m : Connection, m.close = c.close → m.io = c.io →
      Frame c (handshakeAttempt m r).connection (handshakeAttempt m r).events := by
    intro m hclose hio
    rw [handshakeAttempt]
    split
    · exact hopened _ hclose hio
    · exact .same hclose hio
  unfold handshakeDrive
  split
  · exact .refl c
  split
  · exact .refl c
  split
  · exact .refl c
  split
  · exact .refl c
  split
  · exact .same rfl rfl
  split
  · exact .refl c
  · exact hattempt _ rfl rfl

theorem frame_enqueue (data : Option (Nat → UInt8)) (size : UInt64) :
    Frame c (enqueue c data size).connection (enqueue c data size).events := by
  unfold enqueue
  split
  · exact .refl c
  split
  · exact .refl c
  rename_i hnone
  split
  · exact .refl c
  split
  · exact .refl c
  split
  · exact .refl c
  split
  · exact .refl c
  refine ⟨rfl, fun e he => ?_, fun hne => absurd (refusal_none hnone) hne⟩
  dsimp only at he
  split at he
  · rw [mem_singleton.mp he]
    rfl
  · exact (not_mem_nil he).elim

theorem frame_readConsume (size : UInt64) :
    Frame c (readConsume c size).connection (readConsume c size).events := by
  unfold readConsume
  split
  · exact .refl c
  refine ⟨rfl, fun e he => ?_, fun _ hs => ⟨rfl, rfl, hs⟩⟩
  dsimp only at he
  split at he
  · rw [mem_singleton.mp he]
    rfl
  · exact (not_mem_nil he).elim

theorem frame_flowRefresh (pending : Int) :
    Frame c (flowRefresh c pending).connection (flowRefresh c pending).events := by
  unfold flowRefresh
  split
  · exact .refl c
  rename_i hnone
  split
  · exact .refl c
  · exact ⟨rfl, fun _ h => (not_mem_nil h).elim, fun hne => absurd hne hnone⟩

theorem frame_readPeek : Frame c (readPeek c).connection (readPeek c).events := by
  unfold readPeek
  split <;> exact .refl c

end

/-! ## 3. The close -/

theorem ne_of_active {s : CloseState} (h : s.active = true) : s ≠ .none ∧ s ≠ .complete ∧ s ≠ .failed := by
  cases s <;> first | decide | cases h

theorem CloseInv.waits (h : CloseInv c log) (hactive : c.close.state.active = true)
    (hsent : c.close.localNotifySent = true) : c.close.state = .waitPeer := by
  have hlate : ¬ (c.close.state = .none ∨ c.close.state = .draining ∨ c.close.state = .notifying) := fun hs => by
    rw [h.early hs] at hsent
    cases hsent
  cases hs : c.close.state <;> rw [hs] at hactive hlate
  all_goals first | rfl | cases hactive
  all_goals exact absurd (by decide) hlate

theorem CloseInv.mayNotify (h : CloseInv c log) (hactive : c.close.state.active = true)
    (hsent : c.close.localNotifySent = false) : CloseMove c.close.state .notifying := by
  have hearly : ¬ (c.close.state = .waitPeer ∨ c.close.state = .complete) := fun hs => by
    rw [h.late hs] at hsent
    cases hsent
  cases hs : c.close.state <;> rw [hs] at hactive hearly
  all_goals first | exact .notify | exact .again | cases hactive
  exact absurd (.inl rfl) hearly

theorem closeInv_closeRequest (h : CloseInv c log) (now deadline : Nat) :
    CloseInv (closeRequest c now deadline).connection (log ++ (closeRequest c now deadline).events) := by
  unfold closeRequest
  split
  · exact h.frame (.refl c)
  rename_i hrefused
  obtain ⟨-, hrefused⟩ := not_or.mp hrefused
  obtain ⟨henabled, hnone⟩ := not_or.mp hrefused
  have hnone := not_not.mp hnone
  split
  · exact h.frame (.refl c)
  have hsent := h.early (.inl hnone)
  have hcount := h.notified
  rw [hsent, if_neg (by decide)] at hcount
  refine ⟨closeStateOf_snoc .., h.moves.snoc ?_, ?_, fun _ => rfl, fun hs => ?_, nofun,
    fun _ => henabled, fun hw => absurd rfl hw⟩
  · show CloseMove (closeStateOf log) .draining
    rw [h.state, hnone]
    exact .request
  · rw [countP_append, hcount]
    rfl
  · rcases hs with hs | hs <;> cases hs

theorem closeInv_closeFinish (h : CloseInv c (log ++ events)) (now : Nat) (result : Result) (error : Diagnostic)
    (p : CloseProgress) (pending : Int) :
    CloseInv (closeFinish c now result error p events pending).connection
      (log ++ (closeFinish c now result error p events pending).events) := by
  obtain ⟨hstate, hmoves, hnotified, hearly, hlate, heof, henabled, hunfinished⟩ := h
  unfold closeFinish closeCommit
  split <;> exact ⟨hstate, hmoves, hnotified, hearly, hlate, heof, henabled, hunfinished⟩

theorem closeInv_closeFail (h : CloseInv c log) (hactive : c.close.state.active = true) (result : Result)
    (error : Diagnostic) : CloseInv (closeFail c result error) (log ++ [.close .failed]) := by
  refine ⟨closeStateOf_snoc .., h.moves.snoc ?_, ?_, fun hs => ?_, fun hs => ?_, nofun,
    fun _ => h.enabled (ne_of_active hactive).1, fun hw => absurd rfl hw⟩
  · show CloseMove (closeStateOf log) .failed
    rw [h.state]
    exact .fail hactive
  · rw [countP_append, h.notified]
    rfl
  · rcases hs with hs | hs | hs <;> cases hs
  · rcases hs with hs | hs <;> cases hs

theorem driveRound_state (writing : Bool) (length : Nat) (r : NativeReply) (io : IoStorage) :
    (driveRound writing length r io).2.1.state = io.state ∨ (driveRound writing length r io).2.1.state = .failed := by
  unfold driveRound settle
  dsimp only
  split
  · split
    · exact .inr rfl
    · cases writing <;> exact .inl rfl
  · cases writing <;> exact .inl rfl
  · cases writing <;> exact .inl rfl
  · exact .inr rfl

theorem driveLoop_state {writing closing : Bool} {budget : IoBudget} {ops : Nat → NativeReply} (left : Nat) :
    ∀ (io : IoStorage) (p : IoProgress), io.state ≠ .disabled →
      (driveLoop budget writing closing ops left io p).io.state ≠ .disabled := by
  have hhalt : ∀ (io : IoStorage) (p : IoProgress) stop, io.state ≠ .disabled →
      (driveHalt writing io p stop).io.state ≠ .disabled := by
    intro io p stop h
    cases writing <;> exact h
  induction left with
  | zero => exact fun io p h => hhalt io p _ h
  | succ left ih =>
    intro io p h
    unfold driveLoop
    split
    · exact hhalt io p _ h
    dsimp only
    split
    · exact h
    have hstate : (driveRound writing (requestLength budget writing io p) (ops p.nativeCalls) io).2.1.state ≠
        .disabled := by
      rcases driveRound_state writing (requestLength budget writing io p) (ops p.nativeCalls) io with hs | hs
      · rw [hs]
        exact h
      · rw [hs]
        decide
    cases hout : driveRound writing (requestLength budget writing io p) (ops p.nativeCalls) io with
    | mk round rest =>
      obtain ⟨io', event⟩ := rest
      rw [hout] at hstate
      cases round with
      | again bytes => exact ih io' _ hstate
      | stop reason wait => exact hstate
      | fatal result error => exact hstate

theorem closeInv_closeTransfer (h : CloseInv c log) (hactive : c.close.state.active = true)
    (hwait : c.close.shutdownWait = .none) (now maxBytes : Nat) (writing : Bool) (ops : CloseOps) :
    CloseInv (closeTransfer c now maxBytes writing ops).connection
      (log ++ (closeTransfer c now maxBytes writing ops).events) := by
  obtain ⟨-, hncomplete, -⟩ := ne_of_active hactive
  -- the drive leaves the close alone
  have hmoved : (ioDrive c ⟨maxBytes, 1⟩ writing true ops.io).connection.close = c.close ∧
      CloseInv (ioDrive c ⟨maxBytes, 1⟩ writing true ops.io).connection
        (log ++ (ioDrive c ⟨maxBytes, 1⟩ writing true ops.io).events) := by
    rcases ioDrive_cases c ⟨maxBytes, 1⟩ writing true ops.io with ⟨hc, he⟩ | ⟨hopen, -, -, -, hc, he⟩
    · rw [hc, he]
      exact ⟨rfl, h.frame (.refl c)⟩
    · rw [hc, he]
      have hdata := (driveLoop_events writing true ⟨maxBytes, 1⟩ ops.io 1 c.io ⟨0, 0, .error, .none⟩).1
      refine ⟨rfl, ?_, movesClose_data h.moves hdata, ?_, h.early, h.late, fun hs => absurd hs hncomplete,
        fun _ => driveLoop_state _ _ _ (by rw [hopen]; decide), fun hw => absurd hwait hw⟩
      · rw [closeStateOf_data hdata, h.state]
      · rw [countP_append, countP_notifies_data hdata, Nat.add_zero, h.notified]
  unfold closeTransfer
  dsimp only
  generalize ioDrive c ⟨maxBytes, 1⟩ writing true ops.io = moved at *
  obtain ⟨hclose, hinv⟩ := hmoved
  rw [← hclose] at hactive
  split
  · exact hinv
  split
  · refine closeInv_closeFinish ?_ ..
    rw [← append_assoc]
    exact closeInv_closeFail hinv hactive ..
  · split
    · rename_i hboth
      have hstate := hinv.waits hactive hboth.2
      refine closeInv_closeFinish ?_ ..
      rw [← append_assoc]
      refine ⟨closeStateOf_snoc .., hinv.moves.snoc ?_, ?_, fun hs => ?_, fun _ => hboth.2, fun _ => hboth.1,
        fun _ => hinv.enabled (ne_of_active hactive).1, fun hw => ?_⟩
      · show CloseMove (closeStateOf _) .complete
        rw [hinv.state, hstate]
        exact .peer
      · rw [countP_append, hinv.notified]
        rfl
      · rcases hs with hs | hs | hs <;> cases hs
      · have := (hinv.unfinished hw).1
        rw [hstate] at this
        cases this
    · exact closeInv_closeFinish hinv ..

theorem closeInv_closeShutdown (h : CloseInv c log) (hactive : c.close.state.active = true)
    (hsent : c.close.localNotifySent = false)
    (hempty : c.io.write.buffer.unread = [] ∧ c.io.write.retryBytes = 0) (now : Nat) (ops : CloseOps) :
    CloseInv (closeShutdown c now ops).connection (log ++ (closeShutdown c now ops).events) := by
  have hne := ne_of_active hactive
  have hcount := h.notified
  rw [hsent, if_neg (by decide)] at hcount
  -- the call and the first value the state is given
  have hmoves : Lawful MovesClose (log ++ [.shutdown ops.shutdown.returned, .close .notifying]) := by
    have hfirst : Lawful MovesClose (log ++ [.shutdown ops.shutdown.returned]) := h.moves.snoc trivial
    have hstate : closeStateOf (log ++ [.shutdown ops.shutdown.returned]) = closeStateOf log := closeStateOf_snoc ..
    have hmove : MovesClose (log ++ [.shutdown ops.shutdown.returned]) (.close .notifying) := by
      show CloseMove (closeStateOf _) .notifying
      rw [hstate, h.state]
      exact h.mayNotify hactive hsent
    have hsecond := hfirst.snoc hmove
    rwa [append_assoc] at hsecond
  have hcalled : closeStateOf (log ++ [.shutdown ops.shutdown.returned, .close .notifying]) = .notifying := by
    rw [append_cons]
    exact closeStateOf_snoc ..
  have hnext : ∀ s, CloseMove .notifying s →
      Lawful MovesClose (log ++ [.shutdown ops.shutdown.returned, .close .notifying, .close s]) := by
    intro s hs
    have hthird : Lawful MovesClose (log ++ [.shutdown ops.shutdown.returned, .close .notifying] ++ [.close s]) := by
      refine hmoves.snoc ?_
      show CloseMove (closeStateOf _) s
      rw [hcalled]
      exact hs
    rwa [append_assoc] at hthird
  have hlast : ∀ s, closeStateOf (log ++ [.shutdown ops.shutdown.returned, .close .notifying, .close s]) = s := by
    intro s
    rw [show log ++ [Event.shutdown ops.shutdown.returned, .close .notifying, .close s] =
      log ++ [.shutdown ops.shutdown.returned, .close .notifying] ++ [.close s] by rw [append_assoc]; rfl]
    exact closeStateOf_snoc ..
  have htold : ∀ s : CloseState,
      (log ++ [Event.shutdown ops.shutdown.returned, .close .notifying, .close s]).countP Event.notifies =
      if (Event.shutdown ops.shutdown.returned).notifies then 1 else 0 := by
    intro s
    rw [countP_append, hcount, countP_cons, Nat.zero_add]
    exact Nat.zero_add _
  rw [closeShutdown]
  split
  · exact h.frame (.refl c)
  split
  · rename_i hreturned
    have hyes : (Event.shutdown ops.shutdown.returned).notifies = true := by
      show (decide (ops.shutdown.returned = 0) || decide (ops.shutdown.returned = 1)) = true
      rw [← Bool.decide_or]
      exact decide_eq_true hreturned
    refine closeInv_closeFinish ?_ ..
    by_cases hone : ops.shutdown.returned = 1
    · rw [if_pos hone, if_pos hone]
      refine ⟨hlast _, hnext _ .both, ?_, fun hs => ?_, fun _ => rfl, fun _ => rfl, fun _ => h.enabled hne.1,
        fun hw => absurd rfl hw⟩
      · exact (htold _).trans (if_pos hyes)
      · rcases hs with hs | hs | hs <;> cases hs
    · rw [if_neg hone, if_neg hone]
      refine ⟨hlast _, hnext _ .await, ?_, fun hs => ?_, fun _ => rfl, (by simp),
        fun _ => h.enabled hne.1, fun hw => absurd rfl hw⟩
      · exact (htold _).trans (if_pos hyes)
      · rcases hs with hs | hs | hs <;> cases hs
  · rename_i hreturned
    have hno : (Event.shutdown ops.shutdown.returned).notifies = false := by
      show (decide (ops.shutdown.returned = 0) || decide (ops.shutdown.returned = 1)) = false
      rw [← Bool.decide_or]
      exact decide_eq_false hreturned
    split
    · refine closeInv_closeFinish ?_ ..
      refine ⟨hcalled, hmoves, ?_, fun _ => hsent, fun hs => ?_, (by simp), fun _ => h.enabled hne.1,
        fun _ => ⟨rfl, hempty⟩⟩
      · show _ = if c.close.localNotifySent then 1 else 0
        rw [countP_append, hcount, hsent, countP_cons, if_neg (by rw [hno]; decide)]
        rfl
      · rcases hs with hs | hs <;> cases hs
    · refine closeInv_closeFinish ?_ ..
      refine ⟨hlast _, hnext _ (.fail rfl), ?_, fun hs => ?_, fun hs => ?_, (fun hs => by cases hs),
        fun _ => h.enabled hne.1, fun hw => absurd rfl hw⟩
      · refine (htold _).trans ?_
        show _ = if c.close.localNotifySent then 1 else 0
        rw [hno, hsent]
      · rcases hs with hs | hs | hs <;> cases hs
      · rcases hs with hs | hs <;> cases hs

/-! ## 4. A step of the close -/

theorem nextOperation_spec (h : CloseInv c log) (inv : c.io.write.buffer.Inv) :
    (c.close.shutdownWait = .none ∧ ((nextOperation c).1 = .write ∨ (nextOperation c).1 = .read)) ∨
    ((nextOperation c).1 = .shutdown ∧ c.close.localNotifySent = false ∧
      c.io.write.buffer.unread = [] ∧ c.io.write.retryBytes = 0) := by
  unfold nextOperation
  split
  · rename_i hwait
    obtain ⟨hstate, hempty⟩ := h.unfinished hwait
    exact .inr ⟨rfl, h.early (.inr (.inr hstate)), hempty⟩
  · rename_i hwait
    have hwait := not_not.mp hwait
    split
    · exact .inl ⟨hwait, .inl rfl⟩
    rename_i hwrite
    obtain ⟨hretry, hqueued⟩ := not_or.mp hwrite
    split
    · exact .inl ⟨hwait, .inr rfl⟩
    rename_i hread
    split
    · rename_i hsent
      refine .inr ⟨rfl, hsent, ?_, not_not.mp hretry⟩
      have hzero : readable c.io.write.buffer = 0 := by
        by_contra hne
        exact hqueued ⟨hread, hne⟩
      rw [readable_eq inv] at hzero
      exact length_eq_zero_iff.mp hzero
    · exact .inl ⟨hwait, .inr rfl⟩

theorem snapshot_operation (hactive : c.close.state.active = true) (pending : Int) :
    (snapshot c pending).operation = (nextOperation c).1 := by
  unfold snapshot
  rw [if_neg (ne_of_active hactive).1]
  dsimp only
  rw [hactive, if_neg (by decide)]
  repeat' split
  all_goals rfl

/-- How a step of the close ends: without an operation, with a transfer, or with a shutdown. -/
inductive CloseWay (c : Connection) (now maxBytes : Nat) (ops : CloseOps) : Step CloseProgress → Prop
  | refused {s : Step CloseProgress} (same : s.connection = c) (none : s.events = []) : CloseWay c now maxBytes ops s
  | late {s : Step CloseProgress} {result : Result} {error : Diagnostic} (active : c.close.state.active = true)
      (failed : s.connection = closeFail { c with close := { c.close with lastNowNs := now } } result error)
      (told : s.events = [.close .failed]) : CloseWay c now maxBytes ops s
  | waits {p : CloseProgress} {pending : Int} (active : c.close.state.active = true) :
      CloseWay c now maxBytes ops (closeFinish c now .ok .zero p [] pending)
  | transfer (early : now < c.close.deadlineNs) (active : c.close.state.active = true)
      (ready : c.close.shutdownWait = .none) (writing : Bool) :
      CloseWay c now maxBytes ops (closeTransfer c now maxBytes writing ops)
  | shutdown (early : now < c.close.deadlineNs) (active : c.close.state.active = true)
      (unsent : c.close.localNotifySent = false)
      (empty : c.io.write.buffer.unread = [] ∧ c.io.write.retryBytes = 0) :
      CloseWay c now maxBytes ops (closeShutdown c now ops)

theorem closeWithOps_way (h : CloseInv c log) (inv : c.io.write.buffer.Inv) (now maxBytes : Nat) (ops : CloseOps) :
    CloseWay c now maxBytes ops (closeWithOps c now maxBytes ops) := by
  unfold closeWithOps
  split
  · exact .refused rfl rfl
  split
  · exact .refused rfl rfl
  split
  · exact .refused rfl rfl
  rename_i hinactive
  have hactive : c.close.state.active = true := (Bool.not_eq_false _).mp hinactive
  split
  · exact .refused rfl rfl
  split
  · exact .late hactive rfl rfl
  rename_i hlate
  dsimp only
  split
  · exact .refused rfl rfl
  split
  · exact .waits hactive
  rw [snapshot_operation hactive]
  rcases nextOperation_spec h inv with ⟨hwait, hop⟩ | ⟨hop, hsent, hempty⟩
  · rw [if_pos (by rcases hop with hop | hop <;> rw [hop] <;> decide)]
    exact .transfer (Nat.lt_of_not_le hlate) hactive hwait _
  · rw [if_neg (not_not.mpr hop)]
    exact .shutdown (Nat.lt_of_not_le hlate) hactive hsent hempty

theorem closeInv_closeWithOps (h : CloseInv c log) (inv : c.io.write.buffer.Inv) (now maxBytes : Nat)
    (ops : CloseOps) :
    CloseInv (closeWithOps c now maxBytes ops).connection (log ++ (closeWithOps c now maxBytes ops).events) := by
  have hway := closeWithOps_way h inv now maxBytes ops
  generalize closeWithOps c now maxBytes ops = s at hway
  cases hway with
  | refused hsame hnone =>
    rw [hsame, hnone]
    exact h.frame (.refl c)
  | late hactive hfailed htold =>
    rw [hfailed, htold]
    obtain ⟨hstate, hmoves, hnotified, hearly, hlate, heof, henabled, hunfinished⟩ := h
    exact closeInv_closeFail (c := { c with close := { c.close with lastNowNs := now } })
      ⟨hstate, hmoves, hnotified, hearly, hlate, heof, henabled, hunfinished⟩ hactive ..
  | waits hactive => exact closeInv_closeFinish (h.frame (.refl c)) ..
  | transfer _ hactive hwait writing => exact closeInv_closeTransfer h hactive hwait ..
  | shutdown _ hactive hsent hempty => exact closeInv_closeShutdown h hactive hsent hempty ..

theorem closeTransfer_calls (c : Connection) (now maxBytes : Nat) (writing : Bool) (ops : CloseOps) :
    (closeTransfer c now maxBytes writing ops).events.countP Event.native ≤ 1 ∧
      ∀ r, Event.shutdown r ∉ (closeTransfer c now maxBytes writing ops).events := by
  have hmoved : (ioDrive c ⟨maxBytes, 1⟩ writing true ops.io).events.countP Event.native ≤ 1 ∧
      ∀ r, .shutdown r ∉ (ioDrive c ⟨maxBytes, 1⟩ writing true ops.io).events := by
    rcases ioDrive_cases c ⟨maxBytes, 1⟩ writing true ops.io with ⟨-, he⟩ | ⟨-, -, -, -, -, he⟩
    · rw [he]
      exact ⟨Nat.zero_le _, fun r hr => (not_mem_nil hr).elim⟩
    · rw [he]
      obtain ⟨hdata, hlen⟩ := driveLoop_events writing true ⟨maxBytes, 1⟩ ops.io 1 c.io ⟨0, 0, .error, .none⟩
      exact ⟨countP_le_length.trans hlen, fun r hr => nomatch hdata _ hr⟩
  -- a value that the state is given is not a call
  have hclose : ∀ s : CloseState,
      ((ioDrive c ⟨maxBytes, 1⟩ writing true ops.io).events ++ [Event.close s]).countP Event.native ≤ 1 ∧
        ∀ r, .shutdown r ∉ (ioDrive c ⟨maxBytes, 1⟩ writing true ops.io).events ++ [.close s] := by
    intro s
    refine ⟨?_, fun r hr => ?_⟩
    · rw [countP_append]
      exact hmoved.1
    · rcases mem_append.mp hr with hr | hr
      · exact hmoved.2 r hr
      · cases mem_singleton.mp hr
  rw [closeTransfer]
  repeat' split
  all_goals first | exact hmoved | exact hclose _

theorem closeShutdown_calls (c : Connection) (now : Nat) (ops : CloseOps) :
    (closeShutdown c now ops).events.countP Event.native ≤ 1 := by
  rw [closeShutdown]
  repeat' split
  all_goals first | exact Nat.zero_le _ | exact Nat.le_refl _

/-! ## 5. Runs -/

theorem closeInv_exec (h : CloseInv c log) (inv : RunInv c log) (k : Call) :
    CloseInv (c.exec k).1 (log ++ (c.exec k).2) := by
  cases k with
  | prepare options ops => exact h.frame (frame_ioSetup c options true ops)
  | configure options ops => exact h.frame (frame_ioSetup c options false ops)
  | arm now deadline view => exact h.frame (frame_deadlineArm c now deadline view)
  | handshake timed now reply => exact h.frame (frame_handshakeDrive c timed now reply)
  | enqueue data size => exact h.frame (frame_enqueue c data size)
  | send budget ops => exact h.frame (frame_ioDrive c budget true ops)
  | receive budget ops => exact h.frame (frame_ioDrive c budget false ops)
  | peek => exact h.frame (frame_readPeek c)
  | consume size => exact h.frame (frame_readConsume c size)
  | flowRefresh pending => exact h.frame (frame_flowRefresh c pending)
  | closeRequest now deadline => exact closeInv_closeRequest h now deadline
  | closeStep now maxBytes ops => exact closeInv_closeWithOps h inv.io.write.inv now maxBytes ops

theorem exec_over (hover : c.close.state = .complete ∨ c.close.state = .failed) (k : Call) :
    (c.exec k).1.close = c.close := by
  cases k with
  | prepare options ops => exact (frame_ioSetup c options true ops).close
  | configure options ops => exact (frame_ioSetup c options false ops).close
  | arm now deadline view => exact (frame_deadlineArm c now deadline view).close
  | handshake timed now reply => exact (frame_handshakeDrive c timed now reply).close
  | enqueue data size => exact (frame_enqueue c data size).close
  | send budget ops => exact (frame_ioDrive c budget true ops).close
  | receive budget ops => exact (frame_ioDrive c budget false ops).close
  | peek => exact (frame_readPeek c).close
  | consume size => exact (frame_readConsume c size).close
  | flowRefresh pending => exact (frame_flowRefresh c pending).close
  | closeRequest now deadline =>
    show (closeRequest c now deadline).connection.close = c.close
    unfold closeRequest
    rw [if_pos (.inr (.inr (by rcases hover with h | h <;> rw [h] <;> decide)))]
    rfl
  | closeStep now maxBytes ops =>
    show (closeWithOps c now maxBytes ops).connection.close = c.close
    unfold closeWithOps
    split
    · rfl
    split
    · rfl
    · rw [if_pos (by rcases hover with h | h <;> rw [h] <;> rfl)]
      rfl

end Steps

theorem closeInv_of_run {c : Connection} {log : List Event} (run : Run c log) : CloseInv c log := by
  induction run with
  | create =>
    exact ⟨rfl, lawful_nil, rfl, fun _ => rfl, (fun hs => by rcases hs with hs | hs <;> cases hs),
      nofun, fun hne => absurd rfl hne, fun hw => absurd rfl hw⟩
  | call run k ih => exact closeInv_exec ih (runInv_of_run run) k

/-- **The state machine of the close.** In every run, answered in any way and at any times: the state moves as
    it may and is final once complete or failed; a close is complete only when both notifications went through;
    and a step makes one native call at most, none from the deadline on. -/
theorem close_machine {c : Connection} {log : List Event} (run : Run c log) :
    (Lawful MovesClose log ∧ closeStateOf log = c.close.state) ∧
    (c.close.state = .complete ∨ c.close.state = .failed → ∀ ks, (c.execAll ks).1.close = c.close) ∧
    (log.countP Event.notifies ≤ 1 ∧ (c.close.localNotifySent = true ↔ log.countP Event.notifies = 1)) ∧
    (c.close.state = .complete → c.close.localNotifySent = true ∧ c.io.readEof = true) ∧
    ∀ now maxBytes ops, let step := closeWithOps c now maxBytes ops
      step.events.countP Event.native ≤ 1 ∧
      (c.close.deadlineNs ≤ now → step.events.countP Event.native = 0) ∧
      ∀ r, .shutdown r ∈ step.events → c.io.write.buffer.unread = [] ∧ c.io.write.retryBytes = 0 := by
  have h := closeInv_of_run run
  refine ⟨⟨h.moves, h.state⟩, fun hover ks => ?_, ?_, fun hs => ⟨h.late (.inr hs), h.eof hs⟩,
    fun now maxBytes ops => ?_⟩
  · induction ks generalizing c log with
    | nil => rfl
    | cons k ks ih =>
      have hclose := exec_over hover k
      exact (ih (run.call k) (closeInv_of_run (run.call k)) (by rw [hclose]; exact hover)).trans hclose
  · rw [h.notified]
    cases c.close.localNotifySent <;> decide
  · have hway := closeWithOps_way h (runInv_of_run run).io.write.inv now maxBytes ops
    generalize closeWithOps c now maxBytes ops = s at hway
    dsimp only
    cases hway with
    | refused _ hnone =>
      rw [hnone]
      exact ⟨Nat.zero_le _, fun _ => rfl, fun r hr => (not_mem_nil hr).elim⟩
    | late _ _ htold =>
      rw [htold]
      exact ⟨Nat.zero_le _, fun _ => rfl, fun r hr => by cases mem_singleton.mp hr⟩
    | waits _ => exact ⟨Nat.zero_le _, fun _ => rfl, fun r hr => (not_mem_nil hr).elim⟩
    | transfer hearly _ _ writing =>
      obtain ⟨hcalls, hnone⟩ := closeTransfer_calls c now maxBytes writing ops
      exact ⟨hcalls, fun hle => absurd hearly (Nat.not_lt.mpr hle), fun r hr => absurd hr (hnone r)⟩
    | shutdown hearly _ _ hempty =>
      exact ⟨closeShutdown_calls c now ops, fun hle => absurd hearly (Nat.not_lt.mpr hle), fun _ _ => hempty⟩

/-- A step whose native shutdown returns 0, and whose reads find the end of the peer's stream. -/
def CloseOps.parting : CloseOps :=
  ⟨fun _ => .wanting .zeroReturn, ⟨.granted, 0, 0, .none, []⟩, 0, 0⟩

/-- A close whose shutdown says that the peer is still to be heard is complete when a read finds its end, and
    not before; its notification was confirmed once. -/
theorem close_machine_complete :
    let calls := establish ++ [.closeRequest 5 9, .closeStep 6 1 .parting]
    let after := Connection.created.execAll (calls ++ [.closeStep 7 1 .parting])
    (Connection.created.execAll calls).1.close.state = .waitPeer ∧ after.1.close.state = .complete ∧
      after.2.countP Event.notifies ≤ 1 ∧ after.1.close.localNotifySent = true ∧ after.1.io.readEof = true := by
  intro calls after
  have h := close_machine (Run.create.calls (calls ++ [.closeStep 7 1 .parting]))
  have hcomplete : after.1.close.state = .complete := by decide +kernel
  exact ⟨by decide +kernel, hcomplete, h.2.2.1.1, h.2.2.2.1 hcomplete⟩

end Vireo.Net.Tls
