/-
  File:      Vireo/Net/TlsStream.lean
  Subject:   THE INTEGRITY OF THE APPLICATION STREAMS OVER TLS.
-/
import Vireo.Net.TlsRun

namespace Vireo.Net.Tls

open Base Lib List
open Event (consumed enqueued received written)

/-- What every run keeps. -/
structure RunInv (c : Connection) (log : List Event) : Prop where
  io : IoInv c.io
  accounts : Accounts c.io log
  pending : c.io.state ≠ .failed → c.close.state ≠ .failed → c.close.state ≠ .complete → Pending c.io log
  blank : c.io.state = .disabled →
    c.io.read.buffer.unread = [] ∧ c.io.write.buffer.unread = [] ∧ c.io.write.retryBytes = 0

/-- An event of the close, which means nothing to the streams. -/
def Event.Silent : Event → Prop
  | .shutdown _ | .close _ => True
  | _ => False

section Calls

variable {c c' : Connection} {log : List Event} {e : Event} {io : IoStorage}

/-! ## 1. Events and changes without data -/

theorem Accounts.silent (h : Accounts io log) (he : e.Silent) : Accounts io (log ++ [e]) := by
  have hsame : e.enqueued = [] ∧ e.written = [] ∧ e.received = [] ∧ e.consumed = [] ∧ RetriesSame log e := by
    cases e <;> first | exact ⟨rfl, rfl, rfl, rfl, trivial⟩ | exact he.elim
  obtain ⟨he₁, he₂, he₃, he₄, hstable⟩ := hsame
  refine ⟨?_, ?_, h.stable.snoc hstable⟩
  · rw [flatMap_snoc, flatMap_snoc, he₁, he₂, List.append_nil, List.append_nil]
    exact h.sent
  · rw [flatMap_snoc, flatMap_snoc, he₃, he₄, List.append_nil, List.append_nil]
    exact h.got

theorem Pending.silent (h : Pending io log) (he : e.Silent) : Pending io (log ++ [e]) := by
  refine ⟨?_, h.front⟩
  rw [pendingWrite_snoc, ← h.last]
  cases e <;> first | rfl | exact he.elim

section

variable (h : RunInv c log)
include h

theorem RunInv.silent (he : e.Silent) : RunInv c (log ++ [e]) :=
  ⟨h.io, h.accounts.silent he, fun h₁ h₂ h₃ => (h.pending h₁ h₂ h₃).silent he, h.blank⟩

theorem RunInv.same (hio : c'.io = c.io) (hlive : c'.close.state ≠ .failed → c'.close.state ≠ .complete →
      c.close.state ≠ .failed ∧ c.close.state ≠ .complete) : RunInv c' log := by
  obtain ⟨inv, acc, pend, blank⟩ := h
  refine ⟨by rw [hio]; exact inv, by rw [hio]; exact acc, fun h₁ h₂ h₃ => ?_, by rw [hio]; exact blank⟩
  rw [hio] at h₁ ⊢
  obtain ⟨h₂, h₃⟩ := hlive h₂ h₃
  exact pend h₁ h₂ h₃

theorem RunInv.unchanged : RunInv c (log ++ []) := by
  rw [List.append_nil]
  exact h

theorem RunInv.cleared (hio : c'.io = c.io.clearScratch)
    (hover : c'.close.state = .failed ∨ c'.close.state = .complete) : RunInv c' log := by
  obtain ⟨inv, acc, -, blank⟩ := h
  refine ⟨?_, ?_, fun _ h₂ h₃ => absurd hover (not_or.mpr ⟨h₂, h₃⟩), by rw [hio]; exact blank⟩
  · rw [hio]
    exact { inv with }
  · rw [hio]
    exact { acc with }

end

/-! ## 2. The driver -/

theorem refusal_none {close : CloseStorage} (h : close.refusal = none) : close.state = .none := by
  unfold CloseStorage.refusal at h
  by_contra hne
  rw [if_pos hne] at h
  cases h

theorem ioDrive_cases (c : Connection) (budget : IoBudget) (writing closing : Bool) (ops : Nat → NativeReply) :
    ((ioDrive c budget writing closing ops).connection = c ∧ (ioDrive c budget writing closing ops).events = []) ∨
    (c.io.state = .opened ∧ (closing = false → c.close.state = .none) ∧ c.io.blocks (!writing) = false ∧
      (c.io.channel writing).retryBytes ≤ budget.maxBytes ∧
      (ioDrive c budget writing closing ops).connection = { c with
        io := (driveLoop budget writing closing ops budget.maxNativeCalls c.io ⟨0, 0, .error, .none⟩).io } ∧
      (ioDrive c budget writing closing ops).events =
        (driveLoop budget writing closing ops budget.maxNativeCalls c.io ⟨0, 0, .error, .none⟩).events) := by
  unfold ioDrive
  split
  · exact .inl ⟨rfl, rfl⟩
  split
  · exact .inl ⟨rfl, rfl⟩
  rename_i hclose
  split
  · exact .inl ⟨rfl, rfl⟩
  rename_i hretry
  split
  · exact .inl ⟨rfl, rfl⟩
  rename_i hidle
  split
  · exact .inl ⟨rfl, rfl⟩
  rename_i hfailed
  split
  · exact .inl ⟨rfl, rfl⟩
  rename_i hblocks
  have hopen : c.io.state = .opened := by
    unfold IoStorage.idle at hidle
    cases hs : c.io.state <;> simp_all
  refine .inr ⟨hopen, fun hopened => ?_, Bool.eq_false_iff.mpr hblocks,
    Nat.le_of_not_lt fun hlt => hretry ⟨hopen, hlt⟩, rfl, rfl⟩
  rw [hopened, if_neg (by decide)] at hclose
  exact refusal_none hclose

theorem runInv_ioDrive (h : RunInv c log) (budget : IoBudget) (writing closing : Bool)
    (ops : Nat → NativeReply) (hclosing : closing = true → c.close.state.active = true) :
    RunInv (ioDrive c budget writing closing ops).connection
      (log ++ (ioDrive c budget writing closing ops).events) := by
  rcases ioDrive_cases c budget writing closing ops with ⟨hc, he⟩ | ⟨hopen, hnone, hfree, hretry, hc, he⟩
  · rw [hc, he]
    exact h.unchanged
  · have hlive : c.close.state ≠ .failed ∧ c.close.state ≠ .complete := by
      cases closing with
      | false =>
        rw [hnone rfl]
        decide
      | true =>
        have hactive := hclosing rfl
        constructor <;> intro hs <;> rw [hs] at hactive <;> cases hactive
    have halive : c.io.state ≠ .failed := by rw [hopen]; decide
    have hready : Ready writing budget c.io ⟨0, 0, .error, .none⟩ log :=
      ⟨h.io, h.accounts, h.pending halive hlive.1 hlive.2, hopen, hfree, hretry⟩
    have hkeeps := driveLoop_keeps closing budget ops budget.maxNativeCalls hready
    rw [hc, he]
    refine ⟨hkeeps.inv, hkeeps.accounts, fun hs _ _ => (hkeeps.live hs).2.1, fun hdisabled => ?_⟩
    have hopened := (hkeeps.live (by rw [hdisabled]; decide)).1
    rw [hdisabled] at hopened
    cases hopened

/-! ## 3. The other calls -/

theorem fifo_create {n : Nat} {object : Bool} {storage : Allocation} {b : Buffer}
    (h : Buffer.create (UInt64.ofNat n) object storage = .ok b) (hn : n ≤ maxBufferBytes) :
    Fifo b n ∧ b.unread = [] := by
  obtain ⟨hinv, hunread⟩ := inv_create h
  refine ⟨⟨hinv, ?_⟩, hunread⟩
  have hcapacity : b.capacity = UInt64.ofNat n := by
    unfold Buffer.create at h
    repeat' split at h
    all_goals cases h
    rfl
  rw [hcapacity]
  exact UInt64.toNat_ofNat_of_lt' (lt_of_le_of_lt hn (by decide))

theorem acquire_ok {options : IoOptions} {ops : SetupOps} {r w : Buffer} (h : acquire options ops = .ok (r, w))
    (hr : options.readCapacity ≤ maxBufferBytes) (hw : options.writeCapacity ≤ maxBufferBytes) :
    (Fifo r options.readCapacity ∧ r.unread = []) ∧ Fifo w options.writeCapacity ∧ w.unread = [] := by
  unfold acquire at h
  split at h
  · cases h
  rename_i hread
  split at h
  · cases h
  rename_i hwrite
  split at h
  · cases h
  split at h
  · cases h
  · obtain ⟨rfl, rfl⟩ := Prod.mk.inj (Except.ok.inj h)
    exact ⟨fifo_create hread hr, fifo_create hwrite hw⟩

section

variable (h : RunInv c log)
include h

theorem runInv_ioSetup (options : IoOptions) (preparing : Bool) (ops : SetupOps) :
    RunInv (ioSetup c options preparing ops).connection
      (log ++ (ioSetup c options preparing ops).events) := by
  unfold ioSetup
  split
  · exact h.unchanged
  rename_i total htotal
  split
  · exact h.unchanged
  rename_i hadm
  have hadm := not_not.mp hadm
  split
  · exact h.unchanged
  rename_i hstage
  split
  · exact h.unchanged
  rename_i hacquire
  have hdisabled : c.io.state = .disabled := by
    by_contra hne
    exact hstage (.inr hne)
  obtain ⟨hr, hw, hretry⟩ := h.blank hdisabled
  -- the capacities are parts of the sum that is bounded
  have hsum : options.readCapacity + options.writeCapacity ≤ total := by
    cases hadd : checkedSizeAdd options.readCapacity options.writeCapacity with
    | error e => rw [hadd] at htotal; cases htotal
    | ok sum =>
      rw [hadd] at htotal
      have h₁ := checkedSizeAdd_ok hadd
      have h₂ := checkedSizeAdd_ok (show checkedSizeAdd sum (2 * scratchBytes) = .ok total from htotal)
      omega
  have hmax := hadm.2.1.trans hadm.2.2.1
  obtain ⟨⟨hread, hr'⟩, hwrite, hw'⟩ := acquire_ok hacquire (by omega) (by omega)
  have hlast := fun h₂ h₃ => (h.pending (by rw [hdisabled]; decide) h₂ h₃).last
  refine .unchanged ⟨⟨hread, hwrite, ?_, Nat.zero_le _, fun _ => ⟨fun _ => rfl, fun _ => rfl⟩,
    fun _ => ⟨fun _ => rfl, fun _ => rfl⟩, fun _ _ => rfl, fun _ => ⟨total, hadm⟩⟩, ⟨?_, ?_, h.accounts.stable⟩,
    fun _ h₂ h₃ => ⟨?_, rfl⟩, fun _ => ⟨hr', hw', rfl⟩⟩
  · show 0 + _ ≤ _
    rw [Nat.zero_add]
    exact (length_unread_le hread.inv).trans hread.capacity.le
  · show _ = _ ++ _
    rw [h.accounts.sent, hw]
    exact congrArg _ hw'.symm
  · show _ = _ ++ _
    rw [h.accounts.got, hr]
    exact congrArg _ hr'.symm
  · rw [hlast h₂ h₃, if_pos hretry]
    rfl

theorem runInv_deadlineArm (now deadline : Nat) (view : NativeView) :
    RunInv (deadlineArm c now deadline view).connection (log ++ (deadlineArm c now deadline view).events) := by
  unfold deadlineArm
  split
  · exact h.unchanged
  split
  · exact h.unchanged
  refine .unchanged (h.same ?_ ?_)
  · rfl
  · exact fun h₁ h₂ => ⟨h₁, h₂⟩

theorem RunInv.openPrepared : RunInv (Tls.openPrepared c) log := by
  unfold Tls.openPrepared
  split
  · rename_i hprepared
    obtain ⟨inv, acc, pend, -⟩ := h
    have halive : c.io.state ≠ .failed := by rw [hprepared.2]; decide
    refine ⟨{ inv with
        readWait := fun _ => inv.readWait halive, writeWait := fun _ => inv.writeWait halive,
        alone := fun _ => inv.alone halive, options := fun _ => inv.options ?_ },
      { acc with }, fun _ h₂ h₃ => ?_, nofun⟩
    · rw [hprepared.2]
      decide
    · obtain ⟨hlast, hfront⟩ := pend halive h₂ h₃
      exact ⟨hlast, hfront⟩
  · exact h

theorem runInv_handshakeAttempt (r : HandshakeReply) :
    RunInv (handshakeAttempt c r).connection (log ++ (handshakeAttempt c r).events) := by
  rw [handshakeAttempt]
  split
  · refine .unchanged (.openPrepared (h.same ?_ ?_))
    · rfl
    · exact fun h₁ h₂ => ⟨h₁, h₂⟩
  · refine .unchanged (h.same ?_ ?_)
    · rfl
    · exact fun h₁ h₂ => ⟨h₁, h₂⟩

theorem runInv_handshakeDrive (timed : Bool) (now : Nat) (r : HandshakeReply) :
    RunInv (handshakeDrive c timed now r).connection (log ++ (handshakeDrive c timed now r).events) := by
  unfold handshakeDrive
  split
  · exact h.unchanged
  split
  · exact h.unchanged
  split
  · exact h.unchanged
  split
  · exact h.unchanged
  split
  · refine .unchanged (h.same ?_ ?_)
    · rfl
    · exact fun h₁ h₂ => ⟨h₁, h₂⟩
  · split
    · exact h.unchanged
    · refine runInv_handshakeAttempt (h.same ?_ ?_) r
      · rfl
      · exact fun h₁ h₂ => ⟨h₁, h₂⟩

theorem runInv_enqueue (data : Option (Nat → UInt8)) (size : UInt64) :
    RunInv (enqueue c data size).connection (log ++ (enqueue c data size).events) := by
  unfold enqueue
  split
  · exact h.unchanged
  rename_i hnull
  split
  · exact h.unchanged
  split
  · exact h.unchanged
  rename_i hidle
  split
  · exact h.unchanged
  split
  · exact h.unchanged
  rename_i total hadd
  split
  · exact h.unchanged
  rename_i hfit
  obtain ⟨inv, acc, pend, -⟩ := h
  have htotal := checkedSizeAdd_ok hadd
  rw [readable_eq inv.write.inv] at htotal
  obtain ⟨hok, hinv, hcap, hunread⟩ := appendCompacting_fits inv.write.inv data size hnull
    (by rw [inv.write.capacity]; omega)
  dsimp only
  rw [if_pos hok]
  have hlen : c.io.write.buffer.unread.length ≤
      (appendCompacting c.io.write.buffer data size).2.unread.length := by
    rw [hunread, length_append]
    omega
  refine ⟨{ inv with
      write := ⟨hinv, (congrArg UInt64.toNat hcap).trans inv.write.capacity⟩,
      writeRetry := inv.writeRetry.trans hlen },
    ⟨?_, ?_, acc.stable.snoc trivial⟩, fun h₁ h₂ h₃ => ?_, fun hd => ?_⟩
  · rw [flatMap_snoc, flatMap_snoc, acc.sent]
    simp [enqueued, written, hunread]
  · rw [flatMap_snoc, flatMap_snoc, acc.got]
    simp [received, consumed]
  · obtain ⟨hlast, hfront⟩ := pend h₁ h₂ h₃
    -- the unfinished write stays the front of a FIFO that grew at its end
    refine ⟨(pendingWrite_snoc ..).trans hlast, ?_⟩
    show c.io.write.request = List.take c.io.write.retryBytes _
    rw [hunread, take_append_of_le_length inv.writeRetry]
    exact hfront
  · exact absurd (by unfold IoStorage.idle; rw [hd]; rfl) hidle

theorem runInv_readConsume (size : UInt64) :
    RunInv (readConsume c size).connection (log ++ (readConsume c size).events) := by
  unfold readConsume
  split
  · exact h.unchanged
  rename_i hidle
  obtain ⟨inv, acc, pend, -⟩ := h
  have hidle : c.io.state ≠ .disabled := fun hd => hidle (by unfold IoStorage.idle; rw [hd]; rfl)
  dsimp only
  rcases leaves_consume inv.read.inv size with ⟨hne, hb⟩ | ⟨hok, hinv, hunread⟩
  · rw [if_neg hne, hb, List.append_nil]
    exact ⟨inv, acc, pend, fun hd => absurd hd hidle⟩
  · have hcap := congrArg UInt64.toNat (capacity_consume (b := c.io.read.buffer) size)
    have hlen : (c.io.read.buffer.consume size).2.unread.length ≤ c.io.read.buffer.unread.length := by
      rw [hunread, length_drop]
      omega
    rw [if_pos hok]
    refine ⟨{ inv with
        read := ⟨hinv, hcap.trans inv.read.capacity⟩,
        readRetry := (Nat.add_le_add_left hlen _).trans inv.readRetry },
      ⟨?_, ?_, acc.stable.snoc trivial⟩, fun h₁ h₂ h₃ => ?_, fun hd => absurd hd hidle⟩
    · rw [flatMap_snoc, flatMap_snoc, acc.sent]
      simp [enqueued, written]
    · rw [flatMap_snoc, flatMap_snoc, acc.got]
      simp [received, consumed, hunread]
    · obtain ⟨hlast, hfront⟩ := pend h₁ h₂ h₃
      exact ⟨(pendingWrite_snoc ..).trans hlast, hfront⟩

theorem runInv_flowRefresh (pending : Int) :
    RunInv (flowRefresh c pending).connection (log ++ (flowRefresh c pending).events) := by
  unfold flowRefresh
  split
  · exact h.unchanged
  split
  · exact h.unchanged
  obtain ⟨inv, acc, pend, blank⟩ := h
  refine .unchanged ⟨{ inv with }, { acc with }, fun h₁ h₂ h₃ => ?_, blank⟩
  obtain ⟨hlast, hfront⟩ := pend h₁ h₂ h₃
  exact ⟨hlast, hfront⟩

end

/-! ## 4. The close -/

section

variable (h : RunInv c log)
include h

theorem runInv_closeRequest (now deadline : Nat) :
    RunInv (closeRequest c now deadline).connection (log ++ (closeRequest c now deadline).events) := by
  unfold closeRequest
  split
  · exact h.unchanged
  rename_i hrefused
  split
  · exact h.unchanged
  have hnone : c.close.state = .none := by
    by_contra hne
    exact hrefused (.inr (.inr hne))
  refine .silent (h.same ?_ ?_) trivial
  · rfl
  intro _ _
  rw [hnone]
  decide

theorem runInv_closeFail (result : Result) (error : Diagnostic) :
    RunInv (closeFail c result error) log := by
  refine h.cleared ?_ ?_
  · rfl
  · exact .inl rfl

omit h in
theorem runInv_closeFinish {events : List Event} (h : RunInv c (log ++ events)) (now : Nat) (result : Result)
    (error : Diagnostic) (p : CloseProgress) (pending : Int) :
    RunInv (closeFinish c now result error p events pending).connection
      (log ++ (closeFinish c now result error p events pending).events) := by
  unfold closeFinish
  by_cases hcomplete : c.close.state = .complete
  · refine h.cleared ?_ ?_
    · exact if_pos hcomplete
    · exact .inr hcomplete
  · refine h.same ?_ ?_
    · exact if_neg hcomplete
    · exact fun h₁ h₂ => ⟨h₁, h₂⟩

theorem runInv_closeTransfer (hactive : c.close.state.active = true) (now maxBytes : Nat) (writing : Bool)
    (ops : CloseOps) :
    RunInv (closeTransfer c now maxBytes writing ops).connection
      (log ++ (closeTransfer c now maxBytes writing ops).events) := by
  have hmoved := runInv_ioDrive h ⟨maxBytes, 1⟩ writing true ops.io fun _ => hactive
  unfold closeTransfer
  dsimp only
  split
  · exact hmoved
  split
  · refine runInv_closeFinish ?_ ..
    rw [← append_assoc]
    exact (runInv_closeFail hmoved _ _).silent trivial
  · split
    · refine runInv_closeFinish ?_ ..
      rw [← append_assoc]
      refine .silent (hmoved.same ?_ ?_) trivial
      · rfl
      · exact fun _ hcomplete => absurd rfl hcomplete
    · exact runInv_closeFinish hmoved ..

theorem runInv_closeShutdown (hactive : c.close.state.active = true) (now : Nat) (ops : CloseOps) :
    RunInv (closeShutdown c now ops).connection (log ++ (closeShutdown c now ops).events) := by
  have hlive : c.close.state ≠ .failed ∧ c.close.state ≠ .complete := by
    constructor <;> intro hs <;> rw [hs] at hactive <;> cases hactive
  have hcalled : ∀ e : Event, e.Silent → RunInv c (log ++ [.shutdown ops.shutdown.returned, .close .notifying, e]) := by
    intro e he
    have hthree := ((h.silent (e := .shutdown ops.shutdown.returned) trivial).silent
      (e := .close .notifying) trivial).silent he
    simpa only [append_assoc, cons_append, nil_append] using hthree
  rw [closeShutdown]
  split
  · exact h.unchanged
  split
  · refine runInv_closeFinish ?_ ..
    split
    · -- the shutdown has also seen the peer's notification: an unfinished read is over
      obtain ⟨inv, acc, -, blank⟩ := hcalled (.close .complete) trivial
      refine ⟨{ inv with
          readRetry := ?_, readWait := fun _ => ⟨fun _ => rfl, fun _ => rfl⟩,
          alone := fun _ _ => rfl }, { acc with }, fun _ _ hs => absurd rfl hs, blank⟩
      exact (Nat.add_le_add_right (Nat.zero_le _) _).trans inv.readRetry
    · refine (hcalled (.close .waitPeer) trivial).same ?_ ?_
      · rfl
      · exact fun _ _ => hlive
  · split
    · refine runInv_closeFinish (.same (c := c) ?_ ?_ ?_) ..
      · have htwo := (h.silent (e := .shutdown ops.shutdown.returned) trivial).silent (e := .close .notifying) trivial
        rw [append_assoc] at htwo
        exact htwo
      · rfl
      · exact fun _ _ => hlive
    · refine runInv_closeFinish ?_ ..
      exact runInv_closeFail (hcalled (.close .failed) trivial) ..

theorem runInv_closeWithOps (now maxBytes : Nat) (ops : CloseOps) :
    RunInv (closeWithOps c now maxBytes ops).connection (log ++ (closeWithOps c now maxBytes ops).events) := by
  unfold closeWithOps
  split
  · exact h.unchanged
  split
  · exact h.unchanged
  split
  · exact h.unchanged
  rename_i hinactive
  have hactive : c.close.state.active = true := by simpa using hinactive
  split
  · exact h.unchanged
  split
  · refine .silent (runInv_closeFail (h.same ?_ ?_) ..) trivial
    · rfl
    · exact fun h₁ h₂ => ⟨h₁, h₂⟩
  · dsimp only
    split
    · exact h.unchanged
    split
    · exact runInv_closeFinish h.unchanged ..
    split
    · exact runInv_closeTransfer h hactive ..
    · exact runInv_closeShutdown h hactive ..

/-! ## 5. Runs -/

theorem runInv_exec (k : Call) : RunInv (c.exec k).1 (log ++ (c.exec k).2) := by
  cases k with
  | prepare options ops => exact runInv_ioSetup h options true ops
  | configure options ops => exact runInv_ioSetup h options false ops
  | arm now deadline view => exact runInv_deadlineArm h now deadline view
  | handshake timed now reply => exact runInv_handshakeDrive h timed now reply
  | enqueue data size => exact runInv_enqueue h data size
  | send budget ops => exact runInv_ioDrive h budget true false ops nofun
  | receive budget ops => exact runInv_ioDrive h budget false false ops nofun
  | peek =>
    show RunInv (readPeek c).connection (log ++ (readPeek c).events)
    unfold readPeek
    split <;> exact h.unchanged
  | consume size => exact runInv_readConsume h size
  | flowRefresh pending => exact runInv_flowRefresh h pending
  | closeRequest now deadline => exact runInv_closeRequest h now deadline
  | closeStep now maxBytes ops => exact runInv_closeWithOps h now maxBytes ops

end

end Calls

theorem runInv_of_run {c : Connection} {log : List Event} (run : Run c log) : RunInv c log := by
  induction run with
  | create =>
    have hempty : Fifo ⟨[], 0, 0, 0⟩ 0 := ⟨⟨rfl, UInt64.le_refl _, UInt64.le_refl _, by decide⟩, rfl⟩
    exact ⟨⟨hempty, hempty, Nat.le_refl _, Nat.zero_le _, fun _ => ⟨fun _ => rfl, fun _ => rfl⟩,
      fun _ => ⟨fun _ => rfl, fun _ => rfl⟩, fun _ _ => rfl, fun hd => absurd rfl hd⟩,
      ⟨rfl, rfl, lawful_nil⟩, fun _ _ _ => ⟨rfl, rfl⟩, fun _ => ⟨rfl, rfl, rfl⟩⟩
  | call _ k ih => exact runInv_exec ih k

/-- **The integrity of the streams.** In every run, answered in any way, the bytes confirmed as written and
    those still queued are those put in, and the bytes taken out and those a peek shows are those confirmed as
    received. -/
theorem stream_integrity {c : Connection} {log : List Event} (run : Run c log) :
    (∀ before bytes outcome after, log = before ++ .write bytes outcome :: after →
      ∀ pending, pendingWrite before = some pending → bytes = pending) ∧
    log.flatMap Event.written <+: log.flatMap Event.enqueued ∧
    log.flatMap Event.written ++ c.io.write.buffer.unread = log.flatMap Event.enqueued ∧
    log.flatMap Event.consumed ++ c.io.read.buffer.peek.1.getD [] = log.flatMap Event.received ∧
    c.io.read.retryBytes ≤ c.io.options.readCapacity - readable c.io.read.buffer ∧
    c.io.write.retryBytes ≤ readable c.io.write.buffer := by
  obtain ⟨inv, acc, -, -⟩ := runInv_of_run run
  have hfits := inv.readRetry
  refine ⟨fun before bytes outcome after hsplit => acc.stable before _ after hsplit, ⟨_, acc.sent.symm⟩,
    acc.sent.symm, ?_, ?_, ?_⟩
  · rw [(peek_unread inv.read.inv).1]
    exact acc.got.symm
  · rw [readable_eq inv.read.inv]
    omega
  · rw [readable_eq inv.write.inv]
    exact inv.writeRetry

/-- A signal query that allows the call. -/
def SignalQuery.granted : SignalQuery := ⟨0, true, 0⟩

/-- A native data call that confirms `confirmed` bytes, `1, 2, ...` for a read. -/
def NativeReply.confirming (confirmed : Nat) : NativeReply :=
  ⟨.granted, 1, confirmed, fun n => UInt8.ofNat (n + 1), 0, .none, []⟩

/-- A native data call that has to be made again. -/
def NativeReply.wanting (direction : SslError) : NativeReply :=
  ⟨.granted, 0, 0, fun _ => 0, 0, direction, []⟩

/-- The calls of a connection that is set up with FIFOs of eight bytes. -/
def establish : List Call :=
  [.handshake false 0 ⟨⟨true, true, false⟩, .granted, 1, 0, .none, [], ⟨true, false, true⟩⟩,
    .configure ⟨8, 8, 40000, 4, 3, 6, 2, 6⟩
      ⟨true, some fun _ => 0, true, some fun _ => 0, true, true, true, []⟩]

/-- Three bytes are put in and sent, two are received, one taken out. -/
def exchange : List Call :=
  establish ++
    [.enqueue (some fun n => UInt8.ofNat (n + 7)) 3,
      .send ⟨4, 2⟩ fun _ => .wanting .wantRead,
      .enqueue (some fun _ => 9) 1,
      .send ⟨3, 1⟩ fun _ => .confirming 3,
      .receive ⟨8, 1⟩ fun _ => .confirming 2,
      .consume 1]

/-- After such an exchange what was written begins what was put in, and the other received byte can be read.
    -/
theorem stream_integrity_exchange :
    let after := Connection.created.execAll exchange
    after.2.flatMap written = [7, 8, 9] ∧ after.2.flatMap written <+: after.2.flatMap enqueued ∧
      after.2.flatMap consumed ++ after.1.io.read.buffer.peek.1.getD [] = after.2.flatMap received := by
  have h := stream_integrity (Run.create.calls exchange)
  exact ⟨by decide +kernel, h.2.1, h.2.2.2.1⟩

end Vireo.Net.Tls
