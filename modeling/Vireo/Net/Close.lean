/-
  File:      Vireo/Net/Close.lean
  Subject:   NO BYTE OF A CONNECTION IS LOST, AND IT ONLY EVER CLOSES FURTHER.
-/
import Vireo.Net.Framing

namespace Vireo.Net

open Base Protocol List

/-! ## 1. The bytes of the write side -/

/-- What a call enqueues: all of its bytes if it succeeds, and none otherwise. -/
def Connection.enqueuedBy (c : Connection) : ConnectionCall → Bytes
  | .writeEnqueue bytes size =>
    if (c.writeEnqueue bytes size).result = .ok then bytesAt bytes (UInt64.ofNat size) else []
  | _ => []

/-- The runs of calls from `c₀` on, with the bytes that were enqueued, one call after the other. -/
inductive WriteRun (c₀ : Connection) : List ConnectionCall → Connection → Bytes → Prop
  | start : WriteRun c₀ [] c₀ []
  | call {calls : List ConnectionCall} {c : Connection} {s : Bytes} (run : WriteRun c₀ calls c s)
      (k : ConnectionCall) : WriteRun c₀ (calls ++ [k]) (c.exec k).2 (s ++ c.enqueuedBy k)

theorem WriteRun.reach {c₀ c : Connection} {calls : List ConnectionCall} {s : Bytes}
    (run : WriteRun c₀ calls c s) : Reach c₀ calls c := by
  induction run with
  | start => exact .start
  | call _ k ih => exact ih.call k

section Write

variable {c : Connection} {bytes : Option (Nat → UInt8)} {size : Nat}

theorem enqueuedBy_ok (h : (c.writeEnqueue bytes size).result = .ok) :
    c.enqueuedBy (.writeEnqueue bytes size) = bytesAt bytes (UInt64.ofNat size) := if_pos h

theorem enqueuedBy_failed (h : (c.writeEnqueue bytes size).result ≠ .ok) :
    c.enqueuedBy (.writeEnqueue bytes size) = [] := if_neg h

/-- **A call moves bytes from the front of the queue into the stream**, and what it enqueues behind it. -/
theorem write_exec (sound : c.Sound) (k : ConnectionCall) :
    ∃ sent, (c.exec k).2.ownedFd.accepted = c.ownedFd.accepted ++ sent ∧
      c.writeBuffer.unread ++ c.enqueuedBy k = sent ++ (c.exec k).2.writeBuffer.unread := by
  cases movesBytes_exec sound k with
  | @receive budget _ hs =>
    refine ⟨[], ?_, ?_⟩
    · show (c.receive budget).connection.ownedFd.accepted = _
      rw [hs.socket, List.append_nil]
    · show c.writeBuffer.unread ++ [] = [] ++ (c.receive budget).connection.writeBuffer.unread
      rw [hs.writeBuffer, List.append_nil, nil_append]
  | consume size => exact ⟨[], (List.append_nil _).symm, List.append_nil _⟩
  | @enqueue bytes size hok henq =>
    refine ⟨[], ?_⟩
    show (c.writeEnqueue bytes size).connection.ownedFd.accepted = _ ∧
      _ = [] ++ (c.writeEnqueue bytes size).connection.writeBuffer.unread
    rw [enqueuedBy_ok hok, henq.unread, List.append_nil, nil_append]
    exact ⟨by rw [henq.rest], rfl⟩
  | @send budget s hs =>
    refine ⟨s, ?_, ?_⟩
    · show (c.send budget).connection.ownedFd.accepted = _
      rw [hs.socket]
    · show c.writeBuffer.unread ++ [] = s ++ (c.send budget).connection.writeBuffer.unread
      rw [List.append_nil, hs.unread]
  | same h failed =>
    have hnone : c.enqueuedBy k = [] := by
      cases k with
      | writeEnqueue bytes size => exact enqueuedBy_failed (failed _ _ rfl)
      | _ => rfl
    exact ⟨[], by rw [h.socket, List.append_nil], by rw [hnone, h.writeBuffer, List.append_nil, nil_append]⟩

theorem enqueuedBy_closed (sound : c.Sound) (hclosed : c.closeState ≠ .open) (k : ConnectionCall) :
    c.enqueuedBy k = [] := by
  cases k with
  | writeEnqueue bytes size =>
    rcases enqueues_writeEnqueue sound.writeBuffer bytes size with hfail | hdone
    · exact enqueuedBy_failed hfail.1
    · exact absurd hdone.2.1 hclosed
  | _ => rfl

theorem unread_exec (sound : c.Sound) (hclosed : c.closeState ≠ .open) (hempty : c.writeBuffer.unread = [])
    (k : ConnectionCall) : (c.exec k).2.writeBuffer.unread = [] := by
  obtain ⟨sent, -, hmoved⟩ := write_exec sound k
  rw [enqueuedBy_closed sound hclosed k, hempty] at hmoved
  exact (append_eq_nil_iff.mp hmoved.symm).2

end Write

/-! ## 2. The end of a connection -/

/-- The ways a close state may move. -/
inductive CloseState.Moves : CloseState → CloseState → Prop
  | stay (s : CloseState) : Moves s s
  | drain : Moves .open .draining
  | close : Moves .open .ready
  | finish : Moves .draining .ready

theorem CloseState.Moves.trans {s t u : CloseState} (h : s.Moves t) (h' : t.Moves u) : s.Moves u := by
  cases h with
  | stay => exact h'
  | drain =>
    cases h' with
    | stay => exact .drain
    | finish => exact .close
  | close =>
    cases h' with
    | stay => exact .close
  | finish =>
    cases h' with
    | stay => exact .finish

theorem CloseState.Moves.ne_open {s t : CloseState} (h : s.Moves t) (hclosed : s ≠ .open) : t ≠ .open := by
  cases h with
  | stay => exact hclosed
  | drain => exact absurd rfl hclosed
  | close => exact absurd rfl hclosed
  | finish => simp

/-- A request that names a mode and a reason, and what it names. -/
def ConnectionCall.closeRequest : ConnectionCall → Option (CloseMode × CloseReason)
  | .requestClose mode reason _ => if mode = .none ∨ reason = .none then none else some (mode, reason)
  | _ => none

section Close

variable {c : Connection}

theorem draining_iff (sound : c.Sound) :
    c.draining = true ↔ c.closeMode = .drain ∧ c.writeBuffer.unread ≠ [] := by
  have hreadable := (inspect_eq sound.writeBuffer).1
  have hzero : c.writeBuffer.inspect.readableSize ≠ 0 ↔ c.writeBuffer.unread ≠ [] := by
    rw [ne_eq, ← UInt64.toNat_inj, hreadable]
    exact not_congr length_eq_zero_iff
  unfold Connection.draining
  simp only [Bool.and_eq_true, decide_eq_true_eq, hzero]

/-- The state that a sync comes to. -/
def Connection.syncedState (c : Connection) : CloseState := if c.draining then .draining else .ready

theorem connection_requestClose {mode : CloseMode} {reason : CloseReason} (mod : LoopReply)
    (hnamed : ¬ (mode = .none ∨ reason = .none)) (hstronger : ¬ (c.closeMode = .immediate ∧ mode = .drain)) :
    ∃ interests, (c.requestClose mode reason mod).connection = { c with
      closeState := { c with closeMode := mode }.syncedState
      closeMode := mode
      closeReason := if c.closeState = .open then reason else c.closeReason
      loopInterests := interests } := by
  obtain ⟨interests, heq⟩ := connection_closeSync (c.closeIntent mode reason) .requestClose mod
  refine ⟨interests, ?_⟩
  unfold Connection.requestClose
  rw [if_neg hnamed, if_neg hstronger, heq]
  unfold Connection.closeIntent Connection.syncedState Connection.draining
  dsimp only
  split <;> split <;> rfl

/-- **What a call does to the end of a connection**: nothing, or it closes it as a request says, or it looks
    again at the queue. -/
theorem close_exec (sound : c.Sound) (k : ConnectionCall) : (SameClose c (c.exec k).2 ∧
        (∀ named, k.closeRequest = some named → c.closeMode = .immediate ∧ named.1 = .drain)) ∨
      (∃ mode reason, k.closeRequest = some (mode, reason) ∧ mode ≠ .none ∧
        ¬ (c.closeMode = .immediate ∧ mode = .drain) ∧ (c.exec k).2.writeBuffer = c.writeBuffer ∧
        (c.exec k).2.closeState = { c with closeMode := mode }.syncedState ∧
        (c.exec k).2.closeMode = mode ∧
        (c.exec k).2.closeReason = if c.closeState = .open then reason else c.closeReason) ∨
      (k.closeRequest = none ∧ c.closeState ≠ .open ∧ (c.exec k).2.writeBuffer = c.writeBuffer ∧
        (c.exec k).2.closeState = c.syncedState ∧
        (c.exec k).2.closeMode = c.closeMode ∧ (c.exec k).2.closeReason = c.closeReason) := by
  have other : SameClose c (c.exec k).2 → k.closeRequest = none → SameClose c (c.exec k).2 ∧
      (∀ named, k.closeRequest = some named → c.closeMode = .immediate ∧ named.1 = .drain) :=
    fun same hnone => ⟨same, fun named hsome => by rw [hnone] at hsome; cases hsome⟩
  cases k with
  | receive budget =>
    obtain ⟨s, hs⟩ := (receives_receive sound.readBuffer budget).1
    refine .inl (other ?_ rfl)
    show SameClose c (c.receive budget).connection
    rw [hs.rest]
    exact ⟨rfl, rfl, rfl⟩
  | readConsume size => exact .inl (other ⟨rfl, rfl, rfl⟩ rfl)
  | writeEnqueue bytes size =>
    refine .inl (other ?_ rfl)
    show SameClose c (c.writeEnqueue bytes size).connection
    rcases enqueues_writeEnqueue sound.writeBuffer bytes size with hfail | hdone
    · rw [hfail.2]
      exact .refl c
    · rw [hdone.2.2.1.rest]
      exact ⟨rfl, rfl, rfl⟩
  | send budget =>
    obtain ⟨s, hs⟩ := (sends_send sound.writeBuffer budget).1
    refine .inl (other ?_ rfl)
    show SameClose c (c.send budget).connection
    rw [hs.rest]
    exact ⟨rfl, rfl, rfl⟩
  | attach interests add => exact .inl (other (same_attach c interests add).2 rfl)
  | setInterests interests mod => exact .inl (other (same_setInterests c interests mod).2 rfl)
  | detach del => exact .inl (other (same_detach c del).2 rfl)
  | forgetDestroyedLoop => exact .inl (other (same_forgetDestroyedLoop c).2 rfl)
  | dispatchBegin => exact .inl (other ⟨rfl, rfl, rfl⟩ rfl)
  | dispatchEnd => exact .inl (other ⟨rfl, rfl, rfl⟩ rfl)
  | flowConfigure options mod => exact .inl (other (same_flowConfigure c options mod).2 rfl)
  | flowRefresh mod => exact .inl (other (same_flowRefresh c mod).2 rfl)
  | flowDisable => exact .inl (other (same_flowDisable c).2 rfl)
  | requestClose mode reason mod =>
    show (SameClose c (c.requestClose mode reason mod).connection ∧ _) ∨ _
    by_cases hnamed : mode = .none ∨ reason = .none
    · refine .inl (other ?_ (if_pos hnamed))
      show SameClose c (c.requestClose mode reason mod).connection
      unfold Connection.requestClose
      rw [if_pos hnamed]
      exact .refl c
    · have hrequest : ConnectionCall.closeRequest (.requestClose mode reason mod) = some (mode, reason) :=
        if_neg hnamed
      by_cases hstronger : c.closeMode = .immediate ∧ mode = .drain
      · refine .inl ⟨?_, fun named hsome => ?_⟩
        · unfold Connection.requestClose
          rw [if_neg hnamed, if_pos hstronger]
          exact .refl c
        · rw [hrequest] at hsome
          cases hsome
          exact hstronger
      · obtain ⟨interests, heq⟩ := connection_requestClose mod hnamed hstronger
        have heq' : (c.exec (.requestClose mode reason mod)).2 = _ := heq
        rw [heq']
        exact .inr (.inl ⟨mode, reason, hrequest, fun h => hnamed (.inl h), hstronger, rfl, rfl, rfl, rfl⟩)
  | closeRefresh mod =>
    by_cases hopen : c.closeState = .open
    · refine .inl (other ?_ rfl)
      show SameClose c (c.closeRefresh mod).connection
      unfold Connection.closeRefresh
      rw [if_pos hopen]
      exact .refl c
    · obtain ⟨interests, heq⟩ := connection_closeSync c .closeRefresh mod
      have heq' : (c.exec (.closeRefresh mod)).2 = _ := (congrArg LoopOutcome.connection (if_neg hopen)).trans heq
      rw [heq']
      exact .inr (.inr ⟨rfl, hopen, rfl, rfl, rfl, rfl⟩)

end Close

/-! ## 3. Runs -/

/-- What a run keeps: the bytes are accounted for, and the first request gave the reason. -/
structure Written (calls : List ConnectionCall) (c : Connection) (s : Bytes) : Prop where
  sound : c.Sound
  bytes : s = c.ownedFd.accepted ++ c.writeBuffer.unread
  open_iff : c.closeState = .open ↔ calls.findSome? ConnectionCall.closeRequest = none
  mode_none_iff : c.closeMode = .none ↔ c.closeState = .open
  reason : c.closeReason = ((calls.findSome? ConnectionCall.closeRequest).map Prod.snd).getD .none
  drained : c.closeState = .ready → c.closeMode = .drain → c.writeBuffer.unread = []
  immediate : c.closeMode = .immediate → ∃ k ∈ calls, ∃ reason, k.closeRequest = some (.immediate, reason)

section Runs

variable {c : Connection}

theorem syncedState_ne_open (c : Connection) : c.syncedState ≠ .open := by
  unfold Connection.syncedState
  split <;> simp

theorem unread_of_synced (sound : c.Sound) (hready : c.syncedState = .ready) (hmode : c.closeMode = .drain) :
    c.writeBuffer.unread = [] := by
  by_contra hne
  have hdraining := (draining_iff sound).mpr ⟨hmode, hne⟩
  unfold Connection.syncedState at hready
  rw [if_pos hdraining] at hready
  cases hready

theorem moves_synced (sound : c.Sound) {s : CloseState} (hdrained : s = .ready → c.closeMode = .drain →
    c.writeBuffer.unread = []) : s.Moves c.syncedState := by
  unfold Connection.syncedState
  cases hdraining : c.draining with
  | false =>
    simp only [Bool.false_eq_true, if_false]
    cases s with
    | «open» => exact .close
    | draining => exact .finish
    | ready => exact .stay _
  | true =>
    simp only [if_true]
    obtain ⟨hmode, hne⟩ := (draining_iff sound).mp hdraining
    cases s with
    | «open» => exact .drain
    | draining => exact .stay _
    | ready => exact absurd (hdrained rfl hmode) hne

theorem findSome_closeRequest (calls : List ConnectionCall) (k : ConnectionCall) :
    (calls ++ [k]).findSome? ConnectionCall.closeRequest =
      (calls.findSome? ConnectionCall.closeRequest).or k.closeRequest := by
  rw [List.findSome?_append, List.findSome?_singleton]

variable {calls : List ConnectionCall} {s : Bytes}

theorem written_created (h : Created c) : Written [] c [] := by
  obtain ⟨sound, -, hunread, -, haccepted, -, -, hopen, hmode, hreason⟩ := created_spec h
  refine ⟨sound, by rw [haccepted, hunread]; rfl, by simp [hopen], by simp [hopen, hmode], hreason,
    fun _ _ => hunread, fun himmediate => ?_⟩
  rw [hmode] at himmediate
  cases himmediate

theorem written_exec (h : Written calls c s) (k : ConnectionCall) :
    Written (calls ++ [k]) (c.exec k).2 (s ++ c.enqueuedBy k) := by
  have sound := sound_exec h.sound k
  have hbytes : s ++ c.enqueuedBy k = (c.exec k).2.ownedFd.accepted ++ (c.exec k).2.writeBuffer.unread := by
    obtain ⟨sent, haccepted, hmoved⟩ := write_exec h.sound k
    rw [h.bytes, haccepted, append_assoc, append_assoc, hmoved]
  have earlier : c.closeMode = .immediate →
      ∃ k' ∈ calls ++ [k], ∃ reason, k'.closeRequest = some (.immediate, reason) := fun himmediate => by
    obtain ⟨k', hmem, hsome⟩ := h.immediate himmediate
    exact ⟨k', mem_append_left _ hmem, hsome⟩
  rcases close_exec h.sound k with hkeep | hmove
  · obtain ⟨same, hrefused⟩ := hkeep
    have hfirst : (calls ++ [k]).findSome? ConnectionCall.closeRequest =
        calls.findSome? ConnectionCall.closeRequest := by
      rw [findSome_closeRequest]
      cases hcalls : calls.findSome? ConnectionCall.closeRequest with
      | some first => rfl
      | none =>
        -- a first request is not refused
        cases hk : k.closeRequest with
        | none => rfl
        | some named =>
          have hmode := h.mode_none_iff.mpr (h.open_iff.mpr hcalls)
          rw [(hrefused named hk).1] at hmode
          cases hmode
    refine ⟨sound, hbytes, ?_, ?_, ?_, fun hready hdrain => ?_, fun himmediate => ?_⟩
    · rw [hfirst, same.closeState]
      exact h.open_iff
    · rw [same.closeMode, same.closeState]
      exact h.mode_none_iff
    · rw [hfirst, same.closeReason]
      exact h.reason
    · rw [same.closeState] at hready
      rw [same.closeMode] at hdrain
      exact unread_exec h.sound (by simp [hready]) (h.drained hready hdrain) k
    · rw [same.closeMode] at himmediate
      exact earlier himmediate
  · rcases hmove with hrequest | hrefresh
    · obtain ⟨mode, reason, hk, hmode, -, hbuffer, hstate', hmode', hreason'⟩ := hrequest
      have hclosed : (c.exec k).2.closeState ≠ .open := by
        rw [hstate']
        exact syncedState_ne_open _
      refine ⟨sound, hbytes, ?_, ?_, ?_, fun hready hdrain => ?_, fun himmediate => ?_⟩
      · simp only [hclosed, false_iff, findSome_closeRequest, hk]
        simp
      · simp only [hclosed, hmode', hmode]
      · rw [hreason', findSome_closeRequest, hk]
        by_cases hopen : c.closeState = .open
        · rw [if_pos hopen, h.open_iff.mp hopen]
          rfl
        · rw [if_neg hopen, h.reason]
          cases hcalls : calls.findSome? ConnectionCall.closeRequest with
          | none => exact absurd (h.open_iff.mpr hcalls) hopen
          | some first => rfl
      · rw [hbuffer]
        exact @unread_of_synced { c with closeMode := mode } { h.sound with }
          (hstate'.symm.trans hready) (hmode'.symm.trans hdrain)
      · rw [hmode'] at himmediate
        exact ⟨k, mem_append_right _ (mem_singleton_self k), reason, by rw [hk, himmediate]⟩
    · obtain ⟨hk, hopen, hbuffer, hstate', hmode', hreason'⟩ := hrefresh
      have hfirst : (calls ++ [k]).findSome? ConnectionCall.closeRequest =
          calls.findSome? ConnectionCall.closeRequest := by
        rw [findSome_closeRequest, hk, Option.or_none]
      have hclosed : (c.exec k).2.closeState ≠ .open := by
        rw [hstate']
        exact syncedState_ne_open _
      refine ⟨sound, hbytes, ?_, ?_, ?_, fun hready hdrain => ?_, fun himmediate => ?_⟩
      · rw [hfirst, ← h.open_iff]
        simp only [hclosed, hopen]
      · rw [hmode', h.mode_none_iff]
        simp only [hclosed, hopen]
      · rw [hfirst, hreason']
        exact h.reason
      · rw [hbuffer]
        exact unread_of_synced h.sound (hstate'.symm.trans hready) (hmode'.symm.trans hdrain)
      · rw [hmode'] at himmediate
        exact earlier himmediate

theorem written_of_run {c₀ : Connection} (h : Created c₀) (run : WriteRun c₀ calls c s) :
    Written calls c s := by
  induction run with
  | start => exact written_created h
  | call _ k ih => exact written_exec ih k

theorem moves_exec (h : Written calls c s) (k : ConnectionCall) :
    c.closeState.Moves (c.exec k).2.closeState ∧
      (c.closeMode = .immediate → (c.exec k).2.closeMode = .immediate) ∧
      (c.closeState ≠ .open → (c.exec k).2.closeReason = c.closeReason) := by
  rcases close_exec h.sound k with hkeep | hmove
  · obtain ⟨same, -⟩ := hkeep
    rw [same.closeState, same.closeMode]
    exact ⟨.stay _, id, fun _ => same.closeReason⟩
  · rcases hmove with hrequest | hrefresh
    · obtain ⟨mode, reason, -, hmode, hstronger, -, hstate', hmode', hreason'⟩ := hrequest
      rw [hstate', hmode', hreason']
      refine ⟨?_, fun himmediate => ?_, fun hclosed => if_neg hclosed⟩
      · refine @moves_synced { c with closeMode := mode } { h.sound with } _
          fun hready hdrain => h.drained hready ?_
        cases hbefore : c.closeMode with
        | none =>
          rw [h.mode_none_iff.mp hbefore] at hready
          cases hready
        | drain => rfl
        | immediate => exact absurd ⟨hbefore, hdrain⟩ hstronger
      · cases mode with
        | none => exact absurd rfl hmode
        | drain => exact absurd ⟨himmediate, rfl⟩ hstronger
        | immediate => rfl
    · obtain ⟨-, -, -, hstate', hmode', hreason'⟩ := hrefresh
      rw [hstate', hmode', hreason']
      exact ⟨moves_synced h.sound h.drained, id, fun _ => rfl⟩

theorem moves_run (h : Written calls c s) {calls' : List ConnectionCall} {c' : Connection}
    (further : Reach c calls' c') :
    (∃ s', Written (calls ++ calls') c' s') ∧ c.closeState.Moves c'.closeState ∧
      (c.closeMode = .immediate → c'.closeMode = .immediate) ∧
      (c.closeState ≠ .open → c'.closeReason = c.closeReason) := by
  induction further with
  | start => exact ⟨⟨s, by rw [List.append_nil]; exact h⟩, .stay _, id, fun _ => rfl⟩
  | @call calls' c' _ k ih =>
    obtain ⟨⟨s', h'⟩, hstate, hmode, hreason⟩ := ih
    obtain ⟨hstate', hmode', hreason'⟩ := moves_exec h' k
    refine ⟨⟨_, by rw [← append_assoc]; exact written_exec h' k⟩, hstate.trans hstate',
      fun himmediate => hmode' (hmode himmediate), fun hclosed => ?_⟩
    exact (hreason' (hstate.ne_open hclosed)).trans (hreason hclosed)

/-- **No byte is lost and a connection only ever closes further.** In every run what was enqueued is what the
    kernel accepted and what is still queued; the state moves on only, and the reason is that of the first
    request. -/
theorem write_close {c₀ : Connection} (h : Created c₀) (run : WriteRun c₀ calls c s) :
    c.ownedFd.accepted ++ c.writeBuffer.unread = s ∧
    (∀ bytes size, let o := c.writeEnqueue bytes size
      (o.result ≠ .ok ∧ o.connection = c) ∨
        (o.result = .ok ∧ (bytesAt bytes (UInt64.ofNat size)).length = size ∧
          o.connection.writeBuffer.unread = c.writeBuffer.unread ++ bytesAt bytes (UInt64.ofNat size))) ∧
    (∀ calls' c', Reach c calls' c' → c.closeState.Moves c'.closeState ∧
      (c.closeMode = .immediate → c'.closeMode = .immediate) ∧
      (c.closeState ≠ .open → c'.closeReason = c.closeReason)) ∧
    c.closeReason = ((calls.findSome? ConnectionCall.closeRequest).map Prod.snd).getD .none ∧
    (c.closeState ≠ .open → (∀ bytes size, (c.writeEnqueue bytes size).result ≠ .ok) ∧
      ∀ budget, (c.receive budget).result ≠ .ok) ∧
    (c.closeState = .ready → ∀ budget, (c.send budget).result ≠ .ok ∧ (c.send budget).connection = c) ∧
    (c.closeState = .ready → (∀ k ∈ calls, ∀ reason, k.closeRequest ≠ some (.immediate, reason)) →
      c.ownedFd.accepted = s) := by
  have written := written_of_run h run
  have hwrite := written.sound.writeBuffer
  refine ⟨written.bytes.symm, fun bytes size => ?_, fun calls' c' further => (moves_run written further).2,
    written.reason, fun hclosed => ⟨fun bytes size hok => ?_, fun budget hok => ?_⟩,
    fun hready budget => (sends_send hwrite budget).2 hready, fun hready hdrained => ?_⟩
  · rcases enqueues_writeEnqueue hwrite bytes size with hfail | hdone
    · exact .inl hfail
    · obtain ⟨hok, -, henq, hlen⟩ := hdone
      exact .inr ⟨hok, hlen, henq.unread⟩
  · rcases enqueues_writeEnqueue hwrite bytes size with hfail | hdone
    · exact hfail.1 hok
    · exact hclosed hdone.2.1
  · exact hclosed ((receives_receive written.sound.readBuffer budget).2 hok)
  · have hempty : c.writeBuffer.unread = [] := by
      cases hmode : c.closeMode with
      | none =>
        rw [written.mode_none_iff.mp hmode] at hready
        cases hready
      | drain => exact written.drained hready hmode
      | immediate =>
        obtain ⟨k, hmem, reason, hk⟩ := written.immediate hmode
        exact absurd hk (hdrained k hmem reason)
    rw [written.bytes, hempty, List.append_nil]

end Runs

/-- Ten bytes are enqueued, the connection is to be drained, and two sends of five bytes drain it. -/
def drainCalls : List ConnectionCall :=
  [.writeEnqueue (some fun n => UInt8.ofNat n) 10, .requestClose .drain .application ⟨.ok, 0⟩,
    .send ⟨100, 1⟩, .send ⟨100, 1⟩, .closeRefresh ⟨.ok, 0⟩]

theorem write_close_drain : ∃ c, Reach pingConnection drainCalls c ∧ c.closeState = .ready ∧
    c.ownedFd.accepted = [0, 1, 2, 3, 4, 5, 6, 7, 8, 9] := by
  have run : WriteRun pingConnection drainCalls _ _ :=
    ((((WriteRun.start.call _).call _).call _).call _).call _
  refine ⟨_, run.reach, by decide +kernel, ?_⟩
  rw [(write_close created_ping run).2.2.2.2.2.2 (by decide +kernel)
    (by simp [drainCalls, ConnectionCall.closeRequest])]
  decide +kernel

end Vireo.Net
