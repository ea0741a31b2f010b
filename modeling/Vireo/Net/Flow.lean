/-
  File:      Vireo/Net/Flow.lean
  Subject:   THE FLOW OF A CONNECTION NEVER STANDS STILL.

  A connection with flow control asks the loop for bytes unless one of two latches holds. The read latch
  opens at a mark that is at least one byte short of the largest frame, so a part of a frame cannot
  keep it closed.
-/
import Vireo.Net.Framing

namespace Vireo.Net

open Base Protocol

/-! ## 1. The marks -/

/-- The marks that `vireo_connection_flow_configure` accepts. -/
structure FlowOptions.Valid (options : FlowOptions) (readCapacity writeCapacity : Nat) : Prop where
  headerSize_le : headerSize ≤ options.maxFrameBytes
  le_protocolMax : options.maxFrameBytes ≤ protocolMax
  frame_le : options.maxFrameBytes - 1 ≤ options.readLow
  readLow_lt : options.readLow < options.readHigh
  readHigh_le : options.readHigh ≤ readCapacity
  writeLow_lt : options.writeLow < options.writeHigh
  writeHigh_le : options.writeHigh ≤ writeCapacity

theorem FlowOptions.Valid.le_capacity {options : FlowOptions} {readCapacity writeCapacity : Nat}
    (h : options.Valid readCapacity writeCapacity) : options.maxFrameBytes ≤ readCapacity := by
  have hframe := h.frame_le
  have hlow := h.readLow_lt
  have hhigh := h.readHigh_le
  omega

/-- The marks of a connection that has flow control are in order, and the capacities stay. -/
structure Connection.FlowSound (c : Connection) (readCapacity writeCapacity : UInt64) : Prop where
  sound : c.Sound
  read_eq : c.readBuffer.capacity = readCapacity
  write_eq : c.writeBuffer.capacity = writeCapacity
  valid : c.flowEnabled = true → c.flowOptions.Valid readCapacity.toNat writeCapacity.toNat

/-- Nothing changed about the flow. -/
structure SameFlow (c c' : Connection) : Prop where
  flowEnabled : c'.flowEnabled = c.flowEnabled
  flowOptions : c'.flowOptions = c.flowOptions

section Marks

variable {c : Connection} {readCapacity writeCapacity : UInt64}

theorem Connection.FlowSound.keep (h : c.FlowSound readCapacity writeCapacity) {c' : Connection}
    (sound : c'.Sound) (hread : c'.readBuffer.capacity = c.readBuffer.capacity)
    (hwrite : c'.writeBuffer.capacity = c.writeBuffer.capacity) (same : SameFlow c c') :
    c'.FlowSound readCapacity writeCapacity :=
  ⟨sound, hread.trans h.read_eq, hwrite.trans h.write_eq, by
    rw [same.flowEnabled, same.flowOptions]
    exact h.valid⟩

/-- What `flow_apply` leaves: all that it came to, or what was there when the loop refused. -/
theorem flowApply_cases (c : Connection) (options : FlowOptions) (reset : Bool) (stage : LoopStage)
    (mod : LoopReply) :
    ((c.flowApply options reset stage mod).result ≠ .ok ∧
        (c.flowApply options reset stage mod).connection = c) ∨
      ((c.flowApply options reset stage mod).result = .ok ∧ ∃ readPressure writePressure,
        readPressure = flowPressure c.readBuffer.inspect.readableSize.toNat options.readLow options.readHigh
          (!reset && c.readPressure) ∧
        writePressure = flowPressure c.writeBuffer.inspect.readableSize.toNat options.writeLow
          options.writeHigh (!reset && c.writePressure) ∧
        (c.flowApply options reset stage mod).connection = { c with
          flowOptions := options
          flowEnabled := true
          readPressure := readPressure
          writePressure := writePressure
          loopInterests := c.flowInterests readPressure writePressure }) := by
  rw [Connection.flowApply]
  split
  · rename_i hfail
    rw [result_loopFinish, connection_loopFinish]
    exact .inl ⟨hfail.2, rfl⟩
  · exact .inr ⟨rfl, _, _, rfl, rfl, rfl⟩

theorem flowSound_flowConfigure (h : c.FlowSound readCapacity writeCapacity) (options : FlowOptions)
    (mod : LoopReply) : (c.flowConfigure options mod).connection.FlowSound readCapacity writeCapacity := by
  unfold Connection.flowConfigure
  split
  · exact h
  split
  · exact h
  split
  · exact h
  rename_i hgood
  have hread : c.readBuffer.inspect.capacity = c.readBuffer.capacity := rfl
  have hwrite : c.writeBuffer.inspect.capacity = c.writeBuffer.capacity := rfl
  rw [hread, hwrite, h.read_eq, h.write_eq] at hgood
  simp only [not_or, Nat.not_lt, gt_iff_lt, ge_iff_le, Nat.not_le] at hgood
  obtain ⟨hheader, -, hprotocol, hframe, hlow, hhigh, hwlow, hwhigh⟩ := hgood
  rcases flowApply_cases c options true .flowConfigure mod with hfail | hdone
  · rw [hfail.2]
    exact h
  · obtain ⟨-, readPressure, writePressure, -, -, heq⟩ := hdone
    rw [heq]
    exact { h with
        sound := ⟨h.sound.readBuffer, h.sound.writeBuffer⟩, valid := fun _ => ⟨hheader, hprotocol, hframe,
        hlow, hhigh, hwlow, hwhigh⟩ }

section

variable (c : Connection)

theorem sameFlow_flowRefresh (mod : LoopReply) : SameFlow c (c.flowRefresh mod).connection := by
  unfold Connection.flowRefresh
  split
  · exact ⟨rfl, rfl⟩
  split
  · exact ⟨rfl, rfl⟩
  rename_i hon
  have henabled : c.flowEnabled = true := by
    simp only [not_or, Bool.not_eq_false] at hon
    exact hon.2
  rcases flowApply_cases c c.flowOptions false .flowRefresh mod with hfail | hdone
  · rw [hfail.2]
    exact ⟨rfl, rfl⟩
  · obtain ⟨-, readPressure, writePressure, -, -, heq⟩ := hdone
    rw [heq]
    exact ⟨henabled.symm, rfl⟩

theorem sameFlow_attach (interests : UInt32) (add : LoopReply) :
    SameFlow c (c.attach interests add).connection := by
  unfold Connection.attach
  split
  · exact ⟨rfl, rfl⟩
  split
  · exact ⟨rfl, rfl⟩
  dsimp only
  rw [connection_loopFinish]
  split <;> exact ⟨rfl, rfl⟩

theorem sameFlow_setInterests (interests : UInt32) (mod : LoopReply) :
    SameFlow c (c.setInterests interests mod).connection := by
  unfold Connection.setInterests
  split
  · exact ⟨rfl, rfl⟩
  split
  · exact ⟨rfl, rfl⟩
  split
  · exact ⟨rfl, rfl⟩
  split
  · exact ⟨rfl, rfl⟩
  dsimp only
  rw [connection_loopFinish]
  split <;> exact ⟨rfl, rfl⟩

theorem sameFlow_closeSync (stage : LoopStage) (mod : LoopReply) :
    SameFlow c (c.closeSync stage mod).connection := by
  obtain ⟨interests, heq⟩ := connection_closeSync c stage mod
  rw [heq]
  exact ⟨rfl, rfl⟩

theorem sameFlow_requestClose (mode : CloseMode) (reason : CloseReason) (mod : LoopReply) :
    SameFlow c (c.requestClose mode reason mod).connection := by
  unfold Connection.requestClose
  split
  · exact ⟨rfl, rfl⟩
  split
  · exact ⟨rfl, rfl⟩
  have hsync := sameFlow_closeSync (c.closeIntent mode reason) .requestClose mod
  have hintent : SameFlow c (c.closeIntent mode reason) := by
    rw [Connection.closeIntent]
    split <;> split <;> exact ⟨rfl, rfl⟩
  exact ⟨hsync.flowEnabled.trans hintent.flowEnabled, hsync.flowOptions.trans hintent.flowOptions⟩

theorem flow_exec (k : ConnectionCall) (sound : c.Sound) :
    SameFlow c (c.exec k).2 ∨ (c.exec k).2.flowEnabled = false ∨
      ∃ options mod, k = .flowConfigure options mod := by
  cases k with
  | receive budget =>
    obtain ⟨s, hs⟩ := (receives_receive sound.readBuffer budget).1
    refine .inl ⟨?_, ?_⟩
    · show (c.receive budget).connection.flowEnabled = _
      rw [hs.rest]
    · show (c.receive budget).connection.flowOptions = _
      rw [hs.rest]
  | readConsume size => exact .inl ⟨rfl, rfl⟩
  | writeEnqueue bytes size =>
    refine .inl ?_
    show SameFlow c (c.writeEnqueue bytes size).connection
    rcases enqueues_writeEnqueue sound.writeBuffer bytes size with hfail | hdone
    · rw [hfail.2]; exact ⟨rfl, rfl⟩
    · rw [hdone.2.2.1.rest]; exact ⟨rfl, rfl⟩
  | send budget =>
    obtain ⟨s, hs⟩ := (sends_send sound.writeBuffer budget).1
    refine .inl ?_
    show SameFlow c (c.send budget).connection
    rw [hs.rest]
    exact ⟨rfl, rfl⟩
  | attach interests add => exact .inl (sameFlow_attach c interests add)
  | setInterests interests mod => exact .inl (sameFlow_setInterests c interests mod)
  | detach del =>
    show SameFlow c (c.detach del).connection ∨ (c.detach del).connection.flowEnabled = false ∨ _
    unfold Connection.detach
    split
    · exact .inl ⟨rfl, rfl⟩
    dsimp only
    rw [connection_loopFinish]
    split
    · exact .inr (.inl rfl)
    · exact .inl ⟨rfl, rfl⟩
  | forgetDestroyedLoop =>
    show SameFlow c c.forgetDestroyedLoop.connection ∨ c.forgetDestroyedLoop.connection.flowEnabled = false ∨ _
    unfold Connection.forgetDestroyedLoop
    split
    · exact .inl ⟨rfl, rfl⟩
    · exact .inr (.inl rfl)
  | dispatchBegin => exact .inl ⟨rfl, rfl⟩
  | dispatchEnd => exact .inl ⟨rfl, rfl⟩
  | flowConfigure options mod => exact .inr (.inr ⟨options, mod, rfl⟩)
  | flowRefresh mod => exact .inl (sameFlow_flowRefresh c mod)
  | flowDisable =>
    show SameFlow c c.flowDisable.connection ∨ c.flowDisable.connection.flowEnabled = false ∨ _
    unfold Connection.flowDisable
    split
    · exact .inl ⟨rfl, rfl⟩
    · exact .inr (.inl rfl)
  | requestClose mode reason mod => exact .inl (sameFlow_requestClose c mode reason mod)
  | closeRefresh mod =>
    refine .inl ?_
    show SameFlow c (c.closeRefresh mod).connection
    unfold Connection.closeRefresh
    split
    · exact ⟨rfl, rfl⟩
    · exact sameFlow_closeSync c ..

theorem capacity_exec (k : ConnectionCall) (sound : c.Sound) :
    (c.exec k).2.readBuffer.capacity = c.readBuffer.capacity ∧
      (c.exec k).2.writeBuffer.capacity = c.writeBuffer.capacity := by
  cases movesBytes_exec sound k with
  | receive hs => exact ⟨hs.capacity, congrArg Buffer.capacity hs.writeBuffer⟩
  | consume size => exact ⟨capacity_consume _, rfl⟩
  | enqueue _ henq => exact ⟨congrArg Buffer.capacity henq.readBuffer, henq.capacity⟩
  | send hs => exact ⟨congrArg Buffer.capacity hs.readBuffer, hs.capacity⟩
  | same h => exact ⟨by rw [h.readBuffer], by rw [h.writeBuffer]⟩

end

theorem flow_of_reach {c₀ : Connection} {calls : List ConnectionCall} (h : Created c₀)
    (run : Reach c₀ calls c) : c.FlowSound c₀.readBuffer.capacity c₀.writeBuffer.capacity := by
  induction run with
  | start =>
    obtain ⟨sound, -, -, -, -, -, hoff, -⟩ := created_spec h
    exact ⟨sound, rfl, rfl, fun hon => by rw [hoff] at hon; cases hon⟩
  | @call _ c _ k ih =>
    have sound := sound_exec ih.sound k
    obtain ⟨hread, hwrite⟩ := capacity_exec c k ih.sound
    rcases flow_exec c k ih.sound with same | other
    · exact ih.keep sound hread hwrite same
    · rcases other with off | configured
      · exact ⟨sound, hread.trans ih.read_eq, hwrite.trans ih.write_eq,
          fun hon => by rw [off] at hon; cases hon⟩
      · obtain ⟨options, mod, rfl⟩ := configured
        exact flowSound_flowConfigure ih options mod

end Marks

/-! ## 2. Progress -/

section Progress

variable {c : Connection} {occupied low high : Nat}

theorem flowRefresh_ok {mod : LoopReply} (hok : (c.flowRefresh mod).result = .ok) :
    c.flowEnabled = true ∧ ∃ readPressure writePressure,
      readPressure = flowPressure c.readBuffer.inspect.readableSize.toNat c.flowOptions.readLow
        c.flowOptions.readHigh c.readPressure ∧
      writePressure = flowPressure c.writeBuffer.inspect.readableSize.toNat c.flowOptions.writeLow
        c.flowOptions.writeHigh c.writePressure ∧
      (c.flowRefresh mod).connection = { c with
        flowEnabled := true
        readPressure := readPressure
        writePressure := writePressure
        loopInterests := c.flowInterests readPressure writePressure } := by
  unfold Connection.flowRefresh at hok ⊢
  split
  · rename_i hclosed
    rw [if_pos hclosed] at hok
    cases hok
  · rename_i hclosed
    rw [if_neg hclosed] at hok
    split
    · rename_i hoff
      rw [if_pos hoff] at hok
      cases hok
    · rename_i hon
      rw [if_neg hon] at hok
      simp only [not_or, Bool.not_eq_false] at hon
      rcases flowApply_cases c c.flowOptions false .flowRefresh mod with hfail | hdone
      · exact absurd hok hfail.1
      · obtain ⟨-, readPressure, writePressure, hread, hwrite, heq⟩ := hdone
        exact ⟨hon.2, readPressure, writePressure, hread, hwrite, heq⟩

theorem flowInterests_none {readPressure writePressure : Bool}
    (h : c.flowInterests readPressure writePressure = 0) :
    c.writeBuffer.inspect.readableSize = 0 ∧
      (c.readEof = true ∨ readPressure = true ∨ writePressure = true) := by
  have hbits : ∀ reads writes : Bool, ((if reads then interestRead ||| interestPeerWriteClosed else 0) |||
        (if writes then interestWrite else 0)) = 0 → reads = false ∧ writes = false := by decide
  have hcall : c.flowInterests readPressure writePressure =
      (if (!c.readEof && !readPressure && !writePressure : Bool) then interestRead ||| interestPeerWriteClosed
        else 0) ||| (if (decide (c.writeBuffer.inspect.readableSize ≠ 0) : Bool) then interestWrite else 0) := by
    unfold Connection.flowInterests
    simp only [decide_eq_true_eq]
  rw [hcall] at h
  obtain ⟨hreads, hwrites⟩ := hbits _ _ h
  refine ⟨by simpa using hwrites, ?_⟩
  simp only [Bool.and_eq_false_iff, Bool.not_eq_false'] at hreads
  tauto

theorem low_lt_of_pressure {pressure : Bool} (hlow : low < high)
    (h : flowPressure occupied low high pressure = true) : low < occupied := by
  unfold flowPressure at h
  split at h <;> simp only [decide_eq_true_eq] at h <;> omega

theorem pressure_of_le_low (pressure : Bool) (hlow : low < high) (h : occupied ≤ low) :
    flowPressure occupied low high pressure = false := by
  unfold flowPressure
  split <;> simp only [decide_eq_false_iff_not] <;> omega

/-- The calls that take nothing in and leave the marks alone. -/
def ConnectionCall.Quiet : ConnectionCall → Prop
  | .receive _ => False
  | .flowConfigure _ _ => False
  | _ => True

/-- A quiet call does not add to the unread bytes, and keeps the marks while there are any. -/
theorem quiet_exec (sound : c.Sound) {k : ConnectionCall} (quiet : k.Quiet) :
    (c.exec k).2.readBuffer.unread.length ≤ c.readBuffer.unread.length ∧
      ((c.exec k).2.flowEnabled = true → SameFlow c (c.exec k).2) := by
  constructor
  · cases movesBytes_exec sound k with
    | receive _ => exact absurd quiet id
    | consume size =>
      obtain ⟨n, -, hunread, -⟩ := readConsume_cases sound.readBuffer size
      have hlen := congrArg List.length hunread
      rw [List.length_drop] at hlen
      exact hlen.le.trans (Nat.sub_le ..)
    | enqueue _ henq => exact (congrArg (·.unread.length) henq.readBuffer).le
    | send hs => exact (congrArg (·.unread.length) hs.readBuffer).le
    | same h => exact (congrArg (·.unread.length) h.readBuffer).le
  · intro hon
    rcases flow_exec c k sound with same | other
    · exact same
    · rcases other with off | configured
      · rw [off] at hon
        cases hon
      · obtain ⟨options, mod, rfl⟩ := configured
        exact absurd quiet id

theorem quiet_run {c' : Connection} {calls : List ConnectionCall} (sound : c.Sound)
    (run : Reach c calls c') (quiet : ∀ k ∈ calls, k.Quiet) :
    c'.Sound ∧ c'.readBuffer.unread.length ≤ c.readBuffer.unread.length ∧
      (c'.flowEnabled = true → SameFlow c c') := by
  induction run with
  | start => exact ⟨sound, Nat.le_refl _, fun _ => ⟨rfl, rfl⟩⟩
  | @call _ c' _ k ih =>
    obtain ⟨hsound, hlen, hflow⟩ := ih fun k' hk' => quiet k' (List.mem_append_left _ hk')
    obtain ⟨hlen', hflow'⟩ := quiet_exec hsound (quiet k (by simp))
    refine ⟨sound_exec hsound k, hlen'.trans hlen, fun hon => ?_⟩
    have hsame := hflow' hon
    have hbefore := hflow (hsame.flowEnabled ▸ hon)
    exact ⟨hsame.flowEnabled.trans hbefore.flowEnabled, hsame.flowOptions.trans hbefore.flowOptions⟩

theorem sound_framesConsume (sound : c.Sound) (p : FramesPeeked) : (c.framesConsume p).Sound := by
  unfold Connection.framesConsume
  cases p.info with
  | none => exact sound
  | some info => exact sound_exec sound (.readConsume info.frameBytes)

/-- What a peek that asks for more leaves once its frames are consumed: less than a frame. -/
theorem short_of_needMore (sound : c.Sound) {options : FrameOptions} {budget : FrameBudget}
    {viewCapacity : Nat} {info : FrameInfo} (hok : (c.framesPeek options budget viewCapacity).result = .ok)
    (hinfo : (c.framesPeek options budget viewCapacity).info = some info)
    (hneed : info.stopReason = .needMore) :
    (c.flowEnabled = true →
      (c.framesConsume (c.framesPeek options budget viewCapacity)).readBuffer.unread.length <
        c.flowOptions.maxFrameBytes) ∧
      SameFlow c (c.framesConsume (c.framesPeek options budget viewCapacity)) := by
  obtain ⟨-, -, -, henabled, hoptions⟩ :=
    framesConsume_keeps c (c.framesPeek options budget viewCapacity)
  refine ⟨fun hon => ?_, ⟨henabled, hoptions⟩⟩
  have hadmissible : FramesAdmissible c options budget viewCapacity := by
    by_contra hrefused
    rw [framesPeek_refused hrefused] at hok
    cases hok
  obtain ⟨info', hp⟩ := framesPeek_spec sound.readBuffer hadmissible
  obtain rfl : info = info' := Option.some.inj (hinfo.symm.trans hp.reported)
  have hmore : frameLook options.direction options.maxFrameBytes
      (c.readBuffer.unread.drop info.frameBytes) = .more := by
    have hstopped := hp.stopped
    rw [hneed] at hstopped
    cases hstopped with
    | budget ok some spent => simp at spent
    | needMore ok eof look => exact look
  have hshort := length_of_more hadmissible.headerSize_le hmore
  have hfit := (reads_wireBytes hp.reads).2
  obtain ⟨n, -, hunread, -, hn⟩ := readConsume_cases sound.readBuffer info.frameBytes
  have hleft : (c.framesConsume (c.framesPeek options budget viewCapacity)).readBuffer.unread =
      c.readBuffer.unread.drop info.frameBytes := by
    unfold Connection.framesConsume
    rw [hinfo]
    rw [hn (by rw [hp.frameBytes]; exact hfit)] at hunread
    exact hunread
  rw [hleft]
  exact hshort.trans_le (hadmissible.le_flow hon)

/-- A peek with a whole frame's worth of bytes unread finds a frame, or what is none. -/
theorem framesPeek_progress (sound : c.Sound) {options : FrameOptions} {budget : FrameBudget} {viewCapacity : Nat}
    (admissible : FramesAdmissible c options budget viewCapacity)
    (hlen : options.maxFrameBytes ≤ c.readBuffer.unread.length) :
    ((c.framesPeek options budget viewCapacity).result = .ok ∧
      ∃ info, (c.framesPeek options budget viewCapacity).info = some info ∧ 1 ≤ info.frameCount) ∨
    (c.framesPeek options budget viewCapacity).result = .protocol := by
  obtain ⟨info, hp⟩ := framesPeek_spec sound.readBuffer admissible
  have hheader := admissible.headerSize_le
  have hcount := hp.count
  -- without a frame nothing would have been passed over
  have hfound : (frameLook options.direction options.maxFrameBytes (c.readBuffer.unread.drop info.frameBytes) = .more ∨
      c.readBuffer.unread.drop info.frameBytes = []) → (c.framesPeek options budget viewCapacity).views ≠ [] := by
    intro hrest hviews
    have hbytes := hp.frameBytes
    rw [hviews, wireBytes_nil] at hbytes
    rw [hbytes, List.drop_zero] at hrest
    rcases hrest with hmore | hempty
    · have hshort := length_of_more hheader hmore
      omega
    · rw [hempty, List.length_nil] at hlen
      unfold headerSize at hheader
      omega
  have hcounted : (c.framesPeek options budget viewCapacity).views ≠ [] → 1 ≤ info.frameCount := fun hsome => by
    rw [hcount]
    exact List.length_pos_iff.mpr hsome
  have hreported := hp.reported
  have hstopped := hp.stopped
  generalize info.stopReason = stop at hstopped
  cases hstopped with
  | budget ok some spent => exact .inl ⟨ok, info, hreported, hcounted some⟩
  | needMore ok eof look => exact .inl ⟨ok, info, hreported, hcounted (hfound (.inl look))⟩
  | eof ok eof empty => exact .inl ⟨ok, info, hreported, hcounted (hfound (.inr empty))⟩
  | refused protocol look => exact .inr protocol
  | truncated protocol eof nonempty look issue => exact .inr protocol

/-- **Flow control never stands still.** After a refresh that succeeded there is nothing to wait for only at the
    end of the stream or with a whole frame's worth of bytes unread; with so many unread a peek finds a frame, or
    what is none; and once the frames of a peek are consumed, the next refresh finds the read latch open. -/
theorem flow_progress {c₀ : Connection} {calls : List ConnectionCall} (h : Created c₀)
    (run : Reach c₀ calls c) :
    (∀ mod, let o := c.flowRefresh mod
      o.result = .ok →
        (o.connection.loopInterests = 0 → o.connection.readEof = true ∨
          o.connection.flowOptions.maxFrameBytes ≤ o.connection.readBuffer.unread.length) ∧
        (o.connection.flowOptions.maxFrameBytes ≤ o.connection.readBuffer.unread.length →
          ∀ options budget viewCapacity,
            options.maxFrameBytes = o.connection.flowOptions.maxFrameBytes →
            options.maxFrameBytes ≤ budget.maxBytes → 0 < budget.maxMessages → 0 < viewCapacity →
            let p := o.connection.framesPeek options budget viewCapacity
            (p.result = .ok ∧ ∃ info, p.info = some info ∧ 1 ≤ info.frameCount) ∨ p.result = .protocol)) ∧
    (c.flowEnabled = true → ∀ options budget viewCapacity info,
      let p := c.framesPeek options budget viewCapacity
      p.result = .ok → p.info = some info → info.stopReason = .needMore →
      ∀ calls' c', Reach (c.framesConsume p) calls' c' → (∀ k ∈ calls', k.Quiet) →
        ∀ mod, (c'.flowRefresh mod).result = .ok → (c'.flowRefresh mod).connection.readPressure = false) := by
  have flow := flow_of_reach h run
  refine ⟨fun mod => ?_, fun hon options budget viewCapacity info => ?_⟩
  · dsimp only
    intro hok
    have flow' : (c.flowRefresh mod).connection.FlowSound c₀.readBuffer.capacity c₀.writeBuffer.capacity :=
      flow_of_reach h (run.call (.flowRefresh mod))
    obtain ⟨hon, readPressure, writePressure, hread, hwrite, heq⟩ := flowRefresh_ok hok
    have hvalid := flow.valid hon
    have hoptions : (c.flowRefresh mod).connection.flowOptions = c.flowOptions := by rw [heq]
    constructor
    · intro hnone
      have hinterests : c.flowInterests readPressure writePressure = 0 := by
        rw [heq] at hnone
        exact hnone
      obtain ⟨hzero, hwhy⟩ := flowInterests_none hinterests
      have hreadable := (inspect_eq flow.sound.readBuffer).1
      -- with nothing to write the write latch is open
      have hopen : writePressure = false := by
        rw [hwrite, hzero]
        exact pressure_of_le_low _ hvalid.writeLow_lt (Nat.zero_le _)
      have hsame : (c.flowRefresh mod).connection.readEof = c.readEof ∧
          (c.flowRefresh mod).connection.readBuffer = c.readBuffer := by
        rw [heq]
        exact ⟨rfl, rfl⟩
      rw [hsame.1, hoptions, hsame.2]
      by_cases hend : c.readEof = true
      · exact .inl hend
      have hlatched : readPressure = true := by
        rw [hopen] at hwhy
        tauto
      rw [hread] at hlatched
      have hmuch := low_lt_of_pressure hvalid.readLow_lt hlatched
      have hframe := hvalid.frame_le
      have hheader := hvalid.headerSize_le
      exact .inr (by omega)
    · intro hlen options budget viewCapacity hlimit hbytes hmessages hviews
      have hadmissible : FramesAdmissible (c.flowRefresh mod).connection options budget viewCapacity := by
        rw [hoptions] at hlimit
        have hheader := hvalid.headerSize_le
        refine ⟨hviews, hmessages, by omega, ?_, ?_, hbytes, fun _ => by rw [hoptions]; omega⟩
        · rw [hlimit, flow'.read_eq]
          exact hvalid.le_capacity
        · rw [hlimit]
          exact hvalid.le_protocolMax
      exact framesPeek_progress flow'.sound hadmissible (hlimit ▸ hlen)
  · dsimp only
    intro hok hinfo hneed calls' c' run' quiet mod hrefresh
    obtain ⟨hshort, hsame⟩ := short_of_needMore flow.sound hok hinfo hneed
    obtain ⟨hsound, hlen, hflow⟩ := quiet_run (sound_framesConsume flow.sound _) run' quiet
    obtain ⟨hon', readPressure, writePressure, hread, -, heq⟩ := flowRefresh_ok hrefresh
    have hmarks := (hflow hon').flowOptions.trans hsame.flowOptions
    have hvalid := flow.valid hon
    have hframe := hvalid.frame_le
    have hlimit := hshort hon
    rw [heq]
    show readPressure = false
    rw [hread, (inspect_eq hsound.readBuffer).1, hmarks]
    exact pressure_of_le_low _ hvalid.readLow_lt (by omega)

end Progress

/-- A connection with flow control, after the first piece of a ping came in, and after the second. -/
def pingFlowing : Connection :=
  (((pingConnection.exec (.attach interestRead ⟨.ok, 0⟩)).2.exec
    (.flowConfigure ⟨32, 31, 32, 0, 64⟩ ⟨.ok, 0⟩)).2.exec (.receive ⟨100, 1⟩)).2

def pingLatched : Connection := (pingFlowing.exec (.receive ⟨100, 1⟩)).2

/-- With the whole ping unread the latch holds; with its first piece it is open. -/
theorem flow_progress_ping :
    ((pingLatched.flowRefresh ⟨.ok, 0⟩).connection.loopInterests = 0 ∧
      32 ≤ (pingLatched.flowRefresh ⟨.ok, 0⟩).connection.readBuffer.unread.length) ∧
    ((pingFlowing.readConsume 0).2.flowRefresh ⟨.ok, 0⟩).connection.readPressure = false := by
  have flowing : Reach pingConnection _ pingFlowing := ((Reach.start.call _).call _).call _
  have latched : Reach pingConnection _ pingLatched := flowing.call _
  have hnone : (pingLatched.flowRefresh ⟨.ok, 0⟩).connection.loopInterests = 0 := by decide +kernel
  refine ⟨⟨hnone, ?_⟩, ?_⟩
  · rcases ((flow_progress created_ping latched).1 ⟨.ok, 0⟩ (by decide +kernel)).1 hnone with heof | hmuch
    · exact absurd heof (by decide +kernel)
    · exact hmuch
  · have hpeek : pingFlowing.framesPeek ⟨.request, 32⟩ ⟨1, 32⟩ 1 =
        ⟨.ok, some ⟨0, 0, .needMore⟩, [], .none, .none⟩ := by decide +kernel
    have hconsumed : pingFlowing.framesConsume (pingFlowing.framesPeek ⟨.request, 32⟩ ⟨1, 32⟩ 1) =
        (pingFlowing.readConsume 0).2 := by rw [hpeek]; rfl
    have hopen := (flow_progress created_ping flowing).2 (by decide +kernel) ⟨.request, 32⟩ ⟨1, 32⟩ 1
      ⟨0, 0, .needMore⟩ (by rw [hpeek]) (by rw [hpeek]) rfl [] _ .start (by simp) ⟨.ok, 0⟩
      (by rw [hconsumed]; decide +kernel)
    rw [hconsumed] at hopen
    exact hopen

end Vireo.Net
