/-
  File:      Vireo/Net/TlsFlow.lean
  Subject:   THE FLOW CONTROL OVER TLS NEVER LEAVES A CONNECTION WITHOUT A NEXT STEP.
-/
import Vireo.Net.TlsStream

namespace Vireo.Net.Tls

open Base

theorem pressure_spec {current : Bool} {size low high : Nat} (hlt : low < high)
    (h : pressure current size low high = true) : low < size := by
  unfold pressure at h
  split at h
  · omega
  split at h
  · cases h
  · omega

theorem pressure_empty {current : Bool} {low high : Nat} (hlt : low < high) :
    pressure current 0 low high = false := by
  by_contra hset
  have := pressure_spec hlt (Bool.not_eq_false _ ▸ hset)
  omega

section Advice

variable {io : IoStorage}

theorem advice_blocked (hwait : io.read.wait = .write → io.read.retryBytes ≠ 0)
    (hretry : io.write.retryBytes ≠ 0 → io.write.wait ≠ .none)
    (halone : io.blocks true = true → io.blocks false = false) (pending : Int) {writing : Bool}
    (hb : io.blocks writing = true) :
    (io.channel writing).retryBytes ≠ 0 ∧
      ((io.advice pending).wantRead || (io.advice pending).wantWrite) = true ∧
      (io.advice pending).wantRead = decide ((io.channel writing).wait = .read) ∧
      (io.advice pending).wantWrite = decide ((io.channel writing).wait = .write) := by
  have hfirst : io.blocks true = writing := by
    cases writing with
    | true => exact hb
    | false =>
      cases hw : io.blocks true with
      | false => rfl
      | true => rw [halone hw] at hb; cases hb
  have hsome : (io.blocks true || io.blocks false) = true := by
    cases writing
    · rw [hb, Bool.or_true]
    · rw [hb, Bool.true_or]
  have hadvice : (io.advice pending).wantRead = decide ((io.channel writing).wait = .read) ∧
      (io.advice pending).wantWrite = decide ((io.channel writing).wait = .write) := by
    rw [IoStorage.advice]
    rw [if_pos hsome, hfirst]
    exact ⟨rfl, rfl⟩
  rw [hadvice.1, hadvice.2]
  refine ⟨?_, ?_, rfl, rfl⟩
  · cases writing with
    | true => exact of_decide_eq_true hb
    | false => exact hwait (of_decide_eq_true hb)
  · cases writing with
    | true =>
      have hne := hretry (of_decide_eq_true hb)
      show (decide (io.write.wait = .read) || decide (io.write.wait = .write)) = true
      cases hw : io.write.wait <;> simp_all
    | false =>
      have hw : io.read.wait = .write := of_decide_eq_true hb
      show (decide (io.read.wait = .read) || decide (io.read.wait = .write)) = true
      rw [hw]
      rfl

theorem advice_free (hread : io.blocks false = false) (hwrite : io.blocks true = false) (pending : Int) :
    (io.advice pending).wantRead = (!io.readEof && !io.read.pressure && !io.write.pressure) ∧
      (io.advice pending).wantWrite = decide (readable io.write.buffer ≠ 0) := by
  have hretry : io.write.retryBytes = 0 := not_not.mp (of_decide_eq_false hwrite)
  have hwait : io.read.wait ≠ .write := of_decide_eq_false hread
  rw [IoStorage.advice]
  rw [hread, hwrite, if_neg (by decide)]
  refine ⟨?_, rfl⟩
  rw [decide_eq_true hretry, decide_eq_true hwait, Bool.and_true, Bool.and_true]

end Advice

/-- **Back pressure never blocks for good.** A refresh of an open connection that is not closing wants to read
    or to write, or goes on locally, or the peer is done with nothing left to write, or a whole unit waits in
    the read FIFO. -/
theorem flow_never_stuck {c : Connection} {log : List Event} (run : Run c log) (hopen : c.io.state = .opened)
    (hnone : c.close.state = .none) (pending : Int) :
    ∃ flow, (flowRefresh c pending).result = .ok ∧ (flowRefresh c pending).out = some flow ∧
      (flow.wantRead = true ∨ flow.wantWrite = true ∨ flow.resumeRead = true ∨ flow.resumeWrite = true ∨
        (c.io.readEof = true ∧ readable c.io.write.buffer = 0 ∧ c.io.write.retryBytes = 0) ∨
        c.io.options.maxReadUnitBytes ≤ readable c.io.read.buffer) ∧
      ∀ writing, c.io.blocks writing = true →
        (c.io.channel writing).retryBytes ≠ 0 ∧ (flow.wantRead || flow.wantWrite) = true ∧
          flow.wantRead = decide ((c.io.channel writing).wait = .read) ∧
          flow.wantWrite = decide ((c.io.channel writing).wait = .write) := by
  obtain ⟨inv, -, -, -⟩ := runInv_of_run run
  have halive : c.io.state ≠ .failed := by rw [hopen]; decide
  obtain ⟨total, hadm⟩ := inv.options (by rw [hopen]; decide)
  obtain ⟨⟨-, -, -, -, hread, hwrite⟩, -, -, -, hunit, -, -⟩ := hadm
  have hidle : c.io.idle = false := by unfold IoStorage.idle; rw [hopen]; rfl
  have hwait : c.io.read.wait = .write → c.io.read.retryBytes ≠ 0 := fun hw hz => by
    rw [(inv.readWait halive).mp hz] at hw
    cases hw
  have hretry : c.io.write.retryBytes ≠ 0 → c.io.write.wait ≠ .none := fun hne hw =>
    hne ((inv.writeWait halive).mpr hw)
  have hblocked : ∀ writing, c.io.blocks writing = true →
      (c.io.channel writing).retryBytes ≠ 0 ∧
        ((c.io.refresh.advice pending).wantRead || (c.io.refresh.advice pending).wantWrite) = true ∧
        (c.io.refresh.advice pending).wantRead = decide ((c.io.channel writing).wait = .read) ∧
        (c.io.refresh.advice pending).wantWrite = decide ((c.io.channel writing).wait = .write) := by
    intro writing hb
    have hrefreshed : c.io.refresh.blocks writing = true := by cases writing <;> exact hb
    have h := @advice_blocked c.io.refresh hwait hretry (inv.alone halive) pending writing hrefreshed
    cases writing <;> exact h
  refine ⟨c.io.refresh.advice pending, ?_, ?_, ?_, hblocked⟩
  · unfold flowRefresh
    rw [if_neg (not_not.mpr hnone), hidle]
    rfl
  · unfold flowRefresh
    rw [if_neg (not_not.mpr hnone), hidle, if_neg (by decide)]
    show some (if c.io.state = .opened then _ else _) = _
    rw [if_pos hopen]
  · by_cases hb : ∃ writing, c.io.blocks writing = true
    · obtain ⟨writing, hb⟩ := hb
      have hwant := (hblocked writing hb).2.1
      rw [Bool.or_eq_true] at hwant
      exact hwant.imp_right .inl
    · have hfree : ∀ writing, c.io.blocks writing = false := fun writing =>
        Bool.eq_false_iff.mpr fun h => hb ⟨writing, h⟩
      obtain ⟨hwantRead, hwantWrite⟩ := advice_free (show c.io.refresh.blocks false = false from hfree false) (hfree true) pending
      rw [hwantRead, hwantWrite]
      by_cases hqueued : readable c.io.write.buffer = 0
      · have hlatch : c.io.refresh.write.pressure = false := by
          show pressure _ (readable c.io.write.buffer) _ _ = false
          rw [hqueued]
          exact pressure_empty hwrite
        rw [hlatch]
        cases heof : c.io.readEof with
        | true =>
          exact .inr (.inr (.inr (.inr (.inl ⟨rfl, hqueued,
            not_not.mp (of_decide_eq_false (hfree true))⟩))))
        | false =>
          cases hlatched : c.io.refresh.read.pressure with
          | true =>
            -- a latch that is set tells of more than the low mark, so of a whole unit
            have hsize := pressure_spec hread hlatched
            exact .inr (.inr (.inr (.inr (.inr (by omega)))))
          | false =>
            left
            show (!c.io.readEof && _ && _) = true
            rw [heof]
            rfl
      · exact .inr (.inl (decide_eq_true hqueued))

/-- A connection that is set up, with a write that has to be made again and waits to read: the refresh
    wants to read. -/
theorem flow_never_stuck_retry :
    let c := (Connection.created.execAll (establish ++ [.enqueue (some fun n => UInt8.ofNat (n + 7)) 3,
      .send ⟨4, 2⟩ fun _ => .wanting .wantRead])).1
    ∃ flow, (flowRefresh c 0).out = some flow ∧ flow.wantRead = true ∧ flow.wantWrite = false := by
  intro c
  have hopen : c.io.state = .opened := by decide +kernel
  have hnone : c.close.state = .none := by decide +kernel
  obtain ⟨flow, -, hout, -, hblocked⟩ := flow_never_stuck (Run.create.calls _) hopen hnone 0
  have hwait : c.io.write.wait = .read := by decide +kernel
  obtain ⟨-, -, hread, hwrite⟩ := hblocked true (by decide +kernel)
  refine ⟨flow, hout, hread.trans ?_, hwrite.trans ?_⟩
  · exact decide_eq_true hwait
  · exact decide_eq_false (by rw [show (c.io.channel true).wait = .read from hwait]; decide)

end Vireo.Net.Tls
