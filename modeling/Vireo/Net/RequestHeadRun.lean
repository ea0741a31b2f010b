/-
  File:      Vireo/Net/RequestHeadRun.lean
  Subject:   EVERY FRAME OF THE READ STREAM IS HANDED OVER ONCE.
-/
import Vireo.Net.RequestHead

namespace Vireo.Net

open Base Protocol Thread Lib List

/-! ## 1. The calls -/

theorem metadataMakeNext_client {lastIssued : UInt64} {exchanged : Bool} {server : ServerView} {lease : Lease}
    {sequence operation : UInt32} {deadlineNs : UInt64} {m : TaskMetadata}
    (h : (metadataMakeNext lastIssued exchanged server lease sequence operation deadlineNs).1 = .ok m) :
    client m = lease := by
  have hissued := metadataMakeNext_cases lastIssued exchanged server lease sequence operation deadlineNs
  generalize metadataMakeNext lastIssued exchanged server lease sequence operation deadlineNs = made at hissued h
  cases hissued with
  | refused e => cases h
  | made own current new =>
    cases h
    exact own

/-- What a submit comes to: the pool took no task, or it took one for this client with this frame. -/
theorem copyTrySubmit_cases (ops : RequestOps) (lease : Lease) (data : Bytes) (options : RequestOptions)
    (occupied : Bool) :
    let o := copyTrySubmit ops lease data options occupied
    o.report.taskTransferred = false ∧ o.taken = none ∨
    o.report.taskTransferred = true ∧ o.taken = some (o.report.metadata, data) ∧
      client o.report.metadata = lease := by
  unfold copyTrySubmit
  dsimp only
  split
  · exact .inl ⟨rfl, rfl⟩
  split
  · exact .inl ⟨rfl, rfl⟩
  split
  · exact .inl ⟨rfl, rfl⟩
  split
  · exact .inl ⟨rfl, rfl⟩
  split
  · exact .inl ⟨rfl, rfl⟩
  split
  · exact .inl ⟨rfl, rfl⟩
  split
  · exact .inl ⟨rfl, rfl⟩
  split
  · exact .inl ⟨rfl, rfl⟩
  rename_i metadata hmetadata
  split
  · exact .inl ⟨rfl, rfl⟩
  cases htransferred : ops.transferred with
  | false => exact .inl ⟨rfl, rfl⟩
  | true => exact .inr ⟨rfl, rfl, metadataMakeNext_client hmetadata⟩

theorem eq_zero_of_pendingShape {pending : RequestPending} (h : pendingShape pending = .ok true) :
    pending = .zero := by
  rw [pendingShape] at h
  split at h
  · rename_i hzero
    obtain ⟨⟨⟨owner, slot, generation, sequence⟩, instanceId, operation, deadline⟩, frameBytes⟩ := pending
    simp only at hzero
    obtain ⟨h₁, h₂, h₃, h₄, h₅, h₆, h₇, h₈⟩ := hzero
    rw [h₁, h₂, h₃, h₄, h₅, h₆, h₇, h₈]
    rfl
  · split at h
    · cases h
    · split at h <;> cases h

theorem pending_ne_zero {metadata : TaskMetadata} {n : Nat} (h : 0 < n) : (⟨metadata, n⟩ : RequestPending) ≠ .zero := by
  intro heq
  have hn : n = 0 := congrArg RequestPending.frameBytes heq
  omega

section Calls

variable {c : Connection} {pending : RequestPending} {own : Lease}

/-- What the consume of a record comes to, when the head of the stream is the frame of the record. -/
theorem consumePending_cases (sound : c.Sound) (consume : Except Failure Unit) (value : HeadReport)
    (hown : client pending.metadata = own) (hfit : pending.frameBytes ≤ c.readBuffer.unread.length) :
    let o := consumePending consume own c pending value
    o.pending = pending ∧ o.connection = c ∨
    o.pending = .zero ∧ o.connection = (c.readConsume pending.frameBytes).2 ∧
      o.connection.readBuffer.unread = c.readBuffer.unread.drop pending.frameBytes ∧ o.connection.Sound ∧
      o.connection.ownedFd = c.ownedFd ∧ o.connection.readEof = c.readEof := by
  unfold consumePending clientReadConsume
  cases consume with
  | error e => exact .inl ⟨if_neg e.property, rfl⟩
  | ok u =>
    dsimp only
    rw [if_pos hown]
    have hle := length_unread_le sound.readBuffer
    have hmax := sound.readBuffer.bounds.2.2
    have hok : (c.readConsume pending.frameBytes).1 = .ok :=
      consume_fits sound.readBuffer _ (by rw [toNat_ofNat (by omega)]; exact hfit)
    obtain ⟨n, hinv, hunread, hrest, hn⟩ := readConsume_cases sound.readBuffer pending.frameBytes
    rw [hn hfit] at hunread
    refine .inr ⟨if_pos hok, rfl, hunread, ⟨hinv, ?_⟩, ?_, ?_⟩
    · rw [hrest]
      exact sound.writeBuffer
    · rw [hrest]
    · rw [hrest]

theorem frame_at_head (sound : c.Sound) {maxFrameBytes : Nat} (hmax : maxFrameBytes ≤ requestMaxFrameBytes)
    (hresult : (c.framesPeek ⟨.request, maxFrameBytes⟩ ⟨1, maxFrameBytes⟩ 1).result = .ok)
    (hcount : ((c.framesPeek ⟨.request, maxFrameBytes⟩ ⟨1, maxFrameBytes⟩ 1).info.map
      FrameInfo.frameCount).getD 0 = 1) :
    ∃ v, ((c.framesPeek ⟨.request, maxFrameBytes⟩ ⟨1, maxFrameBytes⟩ 1).views.head?.map
        FrameView.wireSize).getD 0 = v.wireSize ∧
      frameLook .request requestMaxFrameBytes c.readBuffer.unread = .item v v.wireSize := by
  by_cases hadmissible : FramesAdmissible c ⟨.request, maxFrameBytes⟩ ⟨1, maxFrameBytes⟩ 1
  · obtain ⟨info, hp⟩ := framesPeek_spec sound.readBuffer hadmissible
    rw [hp.reported] at hcount
    have hlength : (c.framesPeek ⟨.request, maxFrameBytes⟩ ⟨1, maxFrameBytes⟩ 1).views.length = 1 :=
      hp.count.symm.trans hcount
    obtain ⟨v, hviews⟩ := length_eq_one_iff.mp hlength
    have hreads := reads_mono hmax hp.reads
    rw [hviews] at hreads ⊢
    refine ⟨v, rfl, ?_⟩
    cases hreads with
    | @item _ _ _ n _ look rest =>
      have hat := frameLook_item.mp look
      rw [← hat.size]
      exact look
  · rw [framesPeek_refused hadmissible] at hresult
    cases hresult

theorem submitFrame_cases (ops : HeadOps) (own : Lease) (c : Connection) (pending : RequestPending)
    (options : RequestOptions) (occupied : Bool) (value : HeadReport) (data : Bytes) :
    let o := submitFrame ops own c pending options occupied value data
    o.pending = pending ∧ o.connection = c ∧ o.taken = none ∨
    ∃ metadata, client metadata = own ∧ o.taken = some (metadata, data) ∧
      o.pending = (consumePending ops.consume own c ⟨metadata, value.frameBytes⟩ .zero).pending ∧
      o.connection = (consumePending ops.consume own c ⟨metadata, value.frameBytes⟩ .zero).connection := by
  unfold submitFrame
  rcases copyTrySubmit_cases ops.request own data options occupied with kept | taken
  · rw [if_pos kept.1]
    exact .inl ⟨rfl, rfl, rfl⟩
  · obtain ⟨htransferred, htaken, hown⟩ := taken
    rw [if_neg (by rw [htransferred]; decide)]
    refine .inr ⟨_, hown, ?_⟩
    split
    · exact ⟨htaken, rfl, rfl⟩
    · exact ⟨htaken, rfl, rfl⟩

/-- **What a call on the head comes to**: nothing changes, or the frame at the head goes to the pool, is
    recorded and consumed. -/
theorem submitReadHead_cases (sound : c.Sound) (ops : HeadOps) (own : Lease) (pending : RequestPending)
    (options : RequestOptions) (occupied : Bool) :
    let o := submitReadHead ops own c pending options occupied
    o.pending = pending ∧ o.connection = c ∧ o.taken = none ∨
    pending = .zero ∧ ∃ v metadata, client metadata = own ∧
      frameLook .request requestMaxFrameBytes c.readBuffer.unread = .item v v.wireSize ∧
      o.taken = some (metadata, c.readBuffer.unread.take v.wireSize) ∧
      o.pending = (consumePending ops.consume own c ⟨metadata, v.wireSize⟩ .zero).pending ∧
      o.connection = (consumePending ops.consume own c ⟨metadata, v.wireSize⟩ .zero).connection := by
  unfold submitReadHead
  dsimp only
  split
  · exact .inl ⟨rfl, rfl, rfl⟩
  split
  · exact .inl ⟨rfl, rfl, rfl⟩
  rename_i hcap
  split
  · exact .inl ⟨rfl, rfl, rfl⟩
  · exact .inl ⟨rfl, rfl, rfl⟩
  rename_i hshape
  split
  · exact .inl ⟨rfl, rfl, rfl⟩
  split
  · exact .inl ⟨rfl, rfl, rfl⟩
  rename_i hresult
  split
  · exact .inl ⟨rfl, rfl, rfl⟩
  split
  · exact .inl ⟨rfl, rfl, rfl⟩
  rename_i hcount
  split
  · exact .inl ⟨rfl, rfl, rfl⟩
  split
  · exact .inl ⟨rfl, rfl, rfl⟩
  rename_i data size hpeek
  split
  · exact .inl ⟨rfl, rfl, rfl⟩
  obtain ⟨v, hv, hlook⟩ := frame_at_head sound (Nat.not_lt.mp (not_or.mp hcap).2)
    (not_not.mp hresult) (not_not.mp (not_or.mp hcount).1)
  have hdata : data = c.readBuffer.unread := by
    have hpeeked := (peek_unread sound.readBuffer).1
    rw [hpeek] at hpeeked
    exact hpeeked
  rw [hv, hdata]
  cases submitFrame_cases ops own c pending options occupied _ (c.readBuffer.unread.take v.wireSize) with
  | inl kept => exact .inl kept
  | inr taken =>
    obtain ⟨metadata, hown, htaken, hpending, hconnection⟩ := taken
    exact .inr ⟨eq_zero_of_pendingShape hshape, v, metadata, hown, hlook, htaken, hpending, hconnection⟩

end Calls

/-! ## 2. The frames of the stream -/

/-- A stream cut into pieces of these sizes. -/
def cut : List Nat → Bytes → List Bytes
  | [], _ => []
  | n :: sizes, s => s.take n :: cut sizes (s.drop n)

theorem cut_append (sizes more : List Nat) (s : Bytes) :
    cut (sizes ++ more) s = cut sizes s ++ cut more (s.drop sizes.sum) := by
  induction sizes generalizing s with
  | nil => simp [cut]
  | cons n sizes ih =>
    rw [cons_append, cut, cut, ih, cons_append, drop_drop, sum_cons]

theorem cut_of_append {sizes : List Nat} {s : Bytes} (h : sizes.sum ≤ s.length) (t : Bytes) :
    cut sizes (s ++ t) = cut sizes s := by
  induction sizes generalizing s with
  | nil => rfl
  | cons n sizes ih =>
    rw [sum_cons] at h
    rw [cut, cut, take_append_of_le_length (by omega), drop_append_of_le_length (by omega),
      ih (by rw [length_drop]; omega)]

/-! ## 3. The invariant -/

/-- All frames handed over were consumed, or the last one is still at the head and the record is of it. -/
inductive HeadHolds (s : HeadSystem) (views : List FrameView) : Prop
  | idle (pending : s.pending = .zero) (framed : Framed .request requestMaxFrameBytes s.connection views)
  | owed {before : List FrameView} {v : FrameView} {metadata : TaskMetadata} (split : views = before ++ [v])
      (pending : s.pending = ⟨metadata, v.wireSize⟩) (own : client metadata = s.lease)
      (last : s.transferred.getLast?.map (·.1) = some metadata)
      (framed : Framed .request requestMaxFrameBytes s.connection before)
      (look : frameLook .request requestMaxFrameBytes s.connection.readBuffer.unread = .item v v.wireSize)

/-- What every run keeps. -/
structure HeadInv (s : HeadSystem) (views : List FrameView) : Prop where
  holds : HeadHolds s views
  bytes : s.transferred.map (·.2) = cut (views.map FrameView.wireSize) s.connection.ownedFd.delivered

section Run

variable {s : HeadSystem} {views : List FrameView}

theorem HeadHolds.reads (h : HeadHolds s views) :
    ∃ r, (frameReading .request requestMaxFrameBytes).Reads s.connection.ownedFd.delivered views r := by
  cases h with
  | idle pending framed => exact ⟨_, framed.reads⟩
  | owed split pending own last framed look =>
    rw [split]
    exact ⟨_, framed.reads.trans (.single look)⟩

theorem HeadHolds.sound (h : HeadHolds s views) : s.connection.Sound := by
  cases h with
  | idle pending framed => exact framed.sound
  | owed split pending own last framed look => exact framed.sound

theorem headInv_call (inv : HeadInv s views) (k : ConnectionCall) (other : ∀ size, k ≠ .readConsume size) :
    HeadInv { s with connection := (s.connection.exec k).2 } views := by
  obtain ⟨t, hdelivered, hunread⟩ := arrives_exec inv.holds.sound k other
  obtain ⟨r, hreads⟩ := inv.holds.reads
  refine ⟨?_, ?_⟩
  · cases inv.holds with
    | idle pending framed => exact .idle pending (framed_exec framed k other)
    | owed split pending own last framed look =>
      refine .owed split pending own last (framed_exec framed k other) ?_
      show frameLook _ _ (s.connection.exec k).2.readBuffer.unread = _
      rw [hunread, frameLook_append (by rw [look]; simp), look]
  · show s.transferred.map (·.2) = cut _ (s.connection.exec k).2.ownedFd.delivered
    rw [hdelivered, cut_of_append (reads_wireBytes hreads).2]
    exact inv.bytes

theorem headHolds_consume {before : List FrameView} {v : FrameView} {metadata : TaskMetadata}
    (consume : Except Failure Unit) (value : HeadReport) (own : client metadata = s.lease)
    (last : s.transferred.getLast?.map (·.1) = some metadata)
    (framed : Framed .request requestMaxFrameBytes s.connection before)
    (look : frameLook .request requestMaxFrameBytes s.connection.readBuffer.unread = .item v v.wireSize) :
    let o := consumePending consume s.lease s.connection ⟨metadata, v.wireSize⟩ value
    HeadHolds { s with connection := o.connection, pending := o.pending } (before ++ [v]) ∧
      o.connection.ownedFd = s.connection.ownedFd := by
  have hat := frameLook_item.mp look
  have hown : client (⟨metadata, v.wireSize⟩ : RequestPending).metadata = s.lease := own
  have hfit : (⟨metadata, v.wireSize⟩ : RequestPending).frameBytes ≤ s.connection.readBuffer.unread.length := hat.le
  dsimp only
  rcases consumePending_cases framed.sound consume value hown hfit with kept | done
  · rw [kept.1, kept.2]
    exact ⟨.owed rfl rfl own last framed look, rfl⟩
  · obtain ⟨hpending, -, hunread, sound, hfd, -⟩ := done
    refine ⟨.idle hpending ⟨sound, ?_⟩, hfd⟩
    show (frameReading .request requestMaxFrameBytes).Reads
      (consumePending consume s.lease s.connection ⟨metadata, v.wireSize⟩ value).connection.ownedFd.delivered _ _
    rw [hfd, hunread]
    exact framed.reads.trans (.single look)

/-- **A call on the head hands over the frame that is there**, unless the one before is still there. -/
theorem headInv_submit (inv : HeadInv s views) (ops : HeadOps) (options : RequestOptions) (occupied : Bool) :
    ∃ views', HeadInv (s.submitReadHead ops options occupied) views' := by
  rw [HeadSystem.submitReadHead]
  rcases submitReadHead_cases inv.holds.sound ops s.lease s.pending options occupied with kept | taken
  · rw [kept.1, kept.2.1, kept.2.2, Option.toList_none, List.append_nil]
    exact ⟨views, inv⟩
  · obtain ⟨hzero, v, metadata, hown, hlook, htaken, hpending, hconnection⟩ := taken
    have hframed : Framed .request requestMaxFrameBytes s.connection views := by
      cases inv.holds with
      | idle pending framed => exact framed
      | owed split pending own last framed look =>
        rw [hzero] at pending
        exact absurd pending.symm (pending_ne_zero (frameLook_pos look))
    refine ⟨views ++ [v], ?_⟩
    rw [htaken, hpending, hconnection]
    have hmoved := headHolds_consume (s := { s with
      transferred := s.transferred ++ [(metadata, s.connection.readBuffer.unread.take v.wireSize)] })
      ops.consume .zero hown (by simp) hframed hlook
    refine ⟨hmoved.1, ?_⟩
    show (s.transferred ++ [(metadata, s.connection.readBuffer.unread.take v.wireSize)]).map (·.2) =
      cut _ (consumePending ops.consume s.lease s.connection ⟨metadata, v.wireSize⟩ .zero).connection.ownedFd.delivered
    rw [hmoved.2, map_append, inv.bytes, map_append, cut_append]
    have hdrop := (reads_wireBytes hframed.reads).1
    unfold wireBytes at hdrop
    rw [← hdrop]
    rfl

theorem headInv_resume (inv : HeadInv s views) (consume : Except Failure Unit) :
    HeadInv (s.resumeConsume consume) views := by
  unfold HeadSystem.resumeConsume resumeConsume
  split
  · exact inv
  · exact inv
  rename_i hshape
  obtain ⟨holds, bytes⟩ := inv
  cases holds with
  | idle pending framed =>
    rw [pending] at hshape
    exact absurd hshape (by decide)
  | owed split pending own last framed look =>
    have hmoved := headHolds_consume consume .zero own last framed look
    rw [pending, split]
    refine ⟨hmoved.1, ?_⟩
    show s.transferred.map (·.2) = cut _ (consumePending consume s.lease s.connection _ .zero).connection.ownedFd.delivered
    rw [hmoved.2, ← split]
    exact bytes

theorem HeadRun.inv (run : HeadRun s) : ∃ views, HeadInv s views := by
  induction run with
  | create lease h =>
    obtain ⟨sound, hread, -, hdelivered, -⟩ := created_spec h
    refine ⟨[], .idle rfl ⟨sound, ?_⟩, rfl⟩
    rw [hread, hdelivered]
    exact .done []
  | call _ k other ih =>
    obtain ⟨views, inv⟩ := ih
    exact ⟨views, headInv_call inv k other⟩
  | submit _ ops options occupied ih =>
    obtain ⟨views, inv⟩ := ih
    exact headInv_submit inv ops options occupied
  | resume _ consume ih =>
    obtain ⟨views, inv⟩ := ih
    exact ⟨views, headInv_resume inv consume⟩

end Run

/-- **Every frame is handed over once.** In every run the frames that the thread pool took are a prefix of the
    frames of the stream; at most the last of them is still at the head of the stream, and all before it was
    consumed. -/
theorem head_submission {s : HeadSystem} (run : HeadRun s) {stream : Bytes} (h : Carries s.connection stream) :
    ∃ views, views <+: (parseStream .request requestMaxFrameBytes true stream).1 ∧
      s.transferred.map (·.2) = cut (views.map FrameView.wireSize) stream ∧
      (s.pending = .zero →
        s.connection.readBuffer.unread = s.connection.ownedFd.delivered.drop (wireBytes views)) ∧
      (s.pending ≠ .zero → ∃ before v, views = before ++ [v] ∧
        s.transferred.getLast?.map (·.1) = some s.pending.metadata ∧ s.pending.frameBytes = v.wireSize ∧
        s.connection.readBuffer.unread = s.connection.ownedFd.delivered.drop (wireBytes before)) := by
  obtain ⟨views, holds, bytes⟩ := run.inv
  obtain ⟨r, hreads⟩ := holds.reads
  obtain ⟨t, rfl⟩ := h.arrived
  refine ⟨views, prefix_parseStream hreads t, ?_, fun hzero => ?_, fun hnonzero => ?_⟩
  · rw [cut_of_append (reads_wireBytes hreads).2]
    exact bytes
  · cases holds with
    | idle pending framed => exact (reads_wireBytes framed.reads).1
    | owed split pending own last framed look =>
      rw [hzero] at pending
      exact absurd pending.symm (pending_ne_zero (frameLook_pos look))
  · cases holds with
    | idle pending framed => exact absurd pending hnonzero
    | @owed before v metadata split pending own last framed look =>
      rw [pending]
      exact ⟨before, v, split, last, rfl, (reads_wireBytes framed.reads).1⟩

/-- What the calls below answer when the pool takes the ping and the consume fails. -/
def pingOps : HeadOps where
  frames := .ok ()
  read := .ok ()
  request := ⟨⟨fun _ => .ok .open, .ok false⟩, 0, true, .ok, .ok, true, false⟩
  consume := .error ⟨.busy, by decide⟩

/-- The ping is handed over, and is still at the head. -/
def pingSubmitted : HeadSystem :=
  HeadSystem.submitReadHead ⟨⟨1, 0, 1⟩, pingReceived, .zero, []⟩ pingOps ⟨64, 4096, 1, 1, 0⟩ false

/-- It is one frame of the stream, and no other is handed over before it was consumed. -/
theorem head_submission_ping :
    pingSubmitted.transferred = [(⟨⟨1, 0, 1, 1⟩, 1, 1, 0⟩, pingFrame)] ∧
    (∃ views, pingSubmitted.transferred.map (·.2) = cut (views.map FrameView.wireSize) pingFrame ∧
      views <+: (parseStream .request requestMaxFrameBytes true pingFrame).1) ∧
    (pingSubmitted.submitReadHead pingOps ⟨64, 4096, 1, 1, 0⟩ false).transferred = pingSubmitted.transferred ∧
    (pingSubmitted.resumeConsume (.ok ())).pending = .zero := by
  have run : HeadRun pingSubmitted :=
    ((HeadRun.create ⟨1, 0, 1⟩ created_ping).call (.receive ⟨100, 1⟩) (by simp)).call (.receive ⟨100, 5⟩) (by simp)
      |>.submit pingOps ⟨64, 4096, 1, 1, 0⟩ false
  have hdelivered : pingSubmitted.connection.ownedFd.delivered = pingFrame := by decide +kernel
  have hopen : pingSubmitted.connection.readEof = false := by decide +kernel
  have hcarries : Carries pingSubmitted.connection pingFrame := ⟨by rw [hdelivered], by rw [hopen]; simp⟩
  obtain ⟨views, hprefix, hbytes, -⟩ := head_submission run hcarries
  refine ⟨by decide +kernel, ⟨views, hbytes, hprefix⟩, by decide +kernel, by decide +kernel⟩

end Vireo.Net
