/-
  File:      Vireo/Net/Framing.lean
  Subject:   FRAMING DOES NOT DEPEND ON HOW THE STREAM COMES IN.
-/
import Vireo.Net.Frames

namespace Vireo.Net

open Lib Base Protocol

/-! ## 1. The whole stream -/

/-- The frames of a stream and what it is rejected for; `ended` says that nothing follows, so that a
    part of a frame is a truncated one. -/
def parseStream (direction : FrameDirection) (limit : Nat) (ended : Bool) (s : Bytes) :
    List FrameView × Option (FrameIssue × CodecIssue) :=
  let p := (frameReading direction limit).parse s
  (p.1, p.2.2.or (if ended = true ∧ p.2.1 ≠ [] then some (.truncated, .none) else none))

section Parse

variable {direction : FrameDirection} {limit : Nat} {ended : Bool} {s r : Bytes} {views : List FrameView}

theorem parseStream_eq {o : Option (FrameIssue × CodecIssue)}
    (h : (frameReading direction limit).Parsed s views r o) :
    parseStream direction limit ended s =
      (views, o.or (if ended = true ∧ r ≠ [] then some (.truncated, .none) else none)) := by
  unfold parseStream
  rw [Reading.parse_eq h]

theorem prefix_parseStream (h : (frameReading direction limit).Reads s views r) (t : Bytes) :
    views <+: (parseStream direction limit ended (s ++ t)).1 := by
  obtain ⟨cs, hcs, -⟩ := (Reading.parsed_parse (s ++ t)).of_reads (h.append t)
  exact ⟨cs, hcs.symm⟩

/-- **What rejects a part of a stream rejects all of it**, at the same place; a truncated frame is one
    only where the stream ends. -/
theorem parseStream_append {e : FrameIssue × CodecIssue} {t : Bytes} (hend : ended = true → t = [])
    (h : parseStream direction limit ended s = (views, some e)) :
    parseStream direction limit true (s ++ t) = (views, some e) := by
  have hp := Reading.parsed_parse (R := frameReading direction limit) s
  have heq : parseStream direction limit ended s = _ := parseStream_eq hp
  rw [h] at heq
  obtain ⟨hviews, hissue⟩ := Prod.mk.inj heq
  cases hrefused : ((frameReading direction limit).parse s).2.2 with
  | some e' =>
    rw [hrefused] at hp hissue
    have hall : (frameReading direction limit).Parsed (s ++ t) ((frameReading direction limit).parse s).1
        (((frameReading direction limit).parse s).2.1 ++ t) (some e') :=
      ⟨hp.reads.append t, (frameReading direction limit).refuse_append hp.stop t⟩
    rw [parseStream_eq hall, hviews, hissue]
    rfl
  | none =>
    rw [hrefused] at hissue
    have hended : ended = true := by
      cases ended with
      | true => rfl
      | false =>
        simp at hissue
    rw [hend hended, List.append_nil]
    rw [hended] at h
    exact h

end Parse

/-! ## 2. Runs -/

/-- The connection after the frames of a peek were consumed. -/
def Connection.framesConsume (c : Connection) (p : FramesPeeked) : Connection :=
  match p.info with
  | none => c
  | some info => (c.readConsume info.frameBytes).2

/-- The runs in which what a peek reports is consumed at once, with the frames reported so far. -/
inductive FramingRun (direction : FrameDirection) (limit : Nat) : Connection → List FrameView → Prop
  | create {c : Connection} (h : Created c) : FramingRun direction limit c []
  | call {c : Connection} {views : List FrameView} (run : FramingRun direction limit c views)
      (k : ConnectionCall) (other : ∀ size, k ≠ .readConsume size) : FramingRun direction limit (c.exec k).2 views
  | frames {c : Connection} {views : List FrameView} (run : FramingRun direction limit c views)
      {options : FrameOptions} (hdirection : options.direction = direction)
      (hlimit : options.maxFrameBytes ≤ limit) (budget : FrameBudget) (viewCapacity : Nat) :
      FramingRun direction limit (c.framesConsume (c.framesPeek options budget viewCapacity))
        (views ++ (c.framesPeek options budget viewCapacity).views)

/-- The frame options, the budgets and the capacity that a peek accepts. -/
structure FramesAdmissible (c : Connection) (options : FrameOptions) (budget : FrameBudget)
    (viewCapacity : Nat) : Prop where
  viewCapacity : 0 < viewCapacity
  maxMessages : 0 < budget.maxMessages
  headerSize_le : headerSize ≤ options.maxFrameBytes
  le_capacity : options.maxFrameBytes ≤ c.readBuffer.capacity.toNat
  le_protocolMax : options.maxFrameBytes ≤ protocolMax
  le_maxBytes : options.maxFrameBytes ≤ budget.maxBytes
  le_flow : c.flowEnabled = true → options.maxFrameBytes ≤ c.flowOptions.maxFrameBytes

variable {c : Connection} {options : FrameOptions} {budget : FrameBudget} {viewCapacity : Nat}

theorem framesPeek_refused (h : ¬ FramesAdmissible c options budget viewCapacity) :
    c.framesPeek options budget viewCapacity = ⟨.range, none, [], .none, .none⟩ := by
  refine if_pos ?_
  by_contra hgood
  simp only [not_or, not_and, Nat.not_lt, gt_iff_lt] at hgood
  obtain ⟨hview, hmessages, -, hheader, hcapacity, hprotocol, hbytes, hflow⟩ := hgood
  exact h ⟨by omega, by omega, hheader, hcapacity, hprotocol, hbytes, hflow⟩

theorem framesPeek_spec (inv : c.readBuffer.Inv) (h : FramesAdmissible c options budget viewCapacity) :
    ∃ info, Peeked options c.readEof c.readBuffer.unread (c.framesPeek options budget viewCapacity) info := by
  have hcap := length_unread_le inv
  have hmax := inv.bounds.2.2
  have hcapacity : c.readBuffer.inspect.capacity = c.readBuffer.capacity := rfl
  obtain ⟨h₁, h₂, h₃, h₄, h₅, h₆, h₇⟩ := h
  have hsize : headerSize = 32 := rfl
  unfold Connection.framesPeek
  rw [if_neg, (peek_unread inv).1]
  · exact framesLoop_spec h₁ h₂ h₃ h₆ (by rw [sizeMax]; omega) rfl rfl rfl rfl (.done _)
  rw [hcapacity]
  simp only [not_or, not_and, Nat.not_lt, gt_iff_lt]
  exact ⟨by omega, by omega, by omega, h₃, h₄, h₅, h₆, h₇⟩

/-- What a run keeps: the frames that were reported are read off what came in, and the unread bytes are
    what they left. -/
structure Framed (direction : FrameDirection) (limit : Nat) (c : Connection) (views : List FrameView) : Prop where
  sound : c.Sound
  reads : (frameReading direction limit).Reads c.ownedFd.delivered views c.readBuffer.unread

section Step

variable {direction : FrameDirection} {limit : Nat} {c : Connection} {views : List FrameView}
  {options : FrameOptions}

/-- **No call but a consume takes bytes away, and what comes in goes behind the unread ones.** -/
theorem arrives_exec (sound : c.Sound) (k : ConnectionCall) (other : ∀ size, k ≠ .readConsume size) :
    ∃ s, (c.exec k).2.ownedFd.delivered = c.ownedFd.delivered ++ s ∧
      (c.exec k).2.readBuffer.unread = c.readBuffer.unread ++ s := by
  have keep {c' : Connection} (hdelivered : c'.ownedFd.delivered = c.ownedFd.delivered)
      (hread : c'.readBuffer = c.readBuffer) :
      ∃ s, c'.ownedFd.delivered = c.ownedFd.delivered ++ s ∧ c'.readBuffer.unread = c.readBuffer.unread ++ s :=
    ⟨[], by rw [hdelivered, List.append_nil], by rw [hread, List.append_nil]⟩
  cases movesBytes_exec sound k with
  | @receive budget s hs =>
    refine ⟨s, ?_, hs.unread⟩
    show (c.receive budget).connection.ownedFd.delivered = _
    rw [hs.socket]
  | consume size => exact absurd rfl (other size)
  | @enqueue bytes size _ henq =>
    refine keep ?_ henq.readBuffer
    show (c.writeEnqueue bytes size).connection.ownedFd.delivered = _
    rw [henq.rest]
  | @send budget _ hs =>
    refine keep ?_ hs.readBuffer
    show (c.send budget).connection.ownedFd.delivered = _
    rw [hs.socket]
  | same h => exact keep (by rw [h.socket]) h.readBuffer

section

variable (h : Framed direction limit c views)
include h

/-- **No call but a consume takes frames away, and what comes in goes behind them.** -/
theorem framed_exec (k : ConnectionCall) (other : ∀ size, k ≠ .readConsume size) :
    Framed direction limit (c.exec k).2 views := by
  obtain ⟨s, hdelivered, hunread⟩ := arrives_exec h.sound k other
  refine ⟨sound_exec h.sound k, ?_⟩
  rw [hdelivered, hunread]
  exact h.reads.append s

/-- **A peek and its consume take the frames that were reported, and nothing else.** -/
theorem framed_frames (hdirection : options.direction = direction) (hlimit : options.maxFrameBytes ≤ limit)
    (budget : FrameBudget) (viewCapacity : Nat) :
    Framed direction limit (c.framesConsume (c.framesPeek options budget viewCapacity))
      (views ++ (c.framesPeek options budget viewCapacity).views) := by
  unfold Connection.framesConsume
  by_cases hadmissible : FramesAdmissible c options budget viewCapacity
  · obtain ⟨info, hp⟩ := framesPeek_spec h.sound.readBuffer hadmissible
    rw [hp.reported]
    dsimp only
    obtain ⟨-, hfit⟩ := reads_wireBytes hp.reads
    rw [← hp.frameBytes] at hfit
    obtain ⟨n, hinv, hunread, hrest, hn⟩ := readConsume_cases h.sound.readBuffer info.frameBytes
    rw [hn hfit] at hunread
    have hreads := reads_mono hlimit hp.reads
    rw [hdirection] at hreads
    refine ⟨⟨hinv, h.sound.writeBuffer⟩, ?_⟩
    rw [hunread]
    exact h.reads.trans hreads
  · rw [framesPeek_refused hadmissible, List.append_nil]
    exact h

/-- What a peek finds out about what came in: the parse of it stops there too, unless a budget is
    spent. -/
inductive Verdict (direction : FrameDirection) (limit : Nat) (c : Connection) (views : List FrameView)
    (options : FrameOptions) (p : FramesPeeked) (stop : FrameStop) : Prop
  | budget (ok : p.result = .ok) (some : p.views ≠ [])
      (spent : stop = .messageBudget ∨ stop = .outputFull ∨ stop = .byteBudget)
  | clean (ok : p.result = .ok)
      (parse : parseStream direction limit c.readEof c.ownedFd.delivered = (views ++ p.views, none))
  | rejected (protocol : p.result = .protocol)
      (parse : parseStream direction limit c.readEof c.ownedFd.delivered =
        (views ++ p.views, some (p.issue, p.codecIssue)))
  | tooLarge (protocol : p.result = .protocol) (issue : p.issue = .frameTooLarge)
      (smaller : options.maxFrameBytes < limit)

/-- **A peek stops where the parse of what came in stops**, unless a budget is spent. -/
theorem verdict_of_peek (hdirection : options.direction = direction) (hlimit : options.maxFrameBytes ≤ limit)
    {p : FramesPeeked} {info : FrameInfo} (hp : Peeked options c.readEof c.readBuffer.unread p info) :
    Verdict direction limit c views options p info.stopReason := by
  have hreads := reads_mono hlimit hp.reads
  rw [hdirection] at hreads
  have hall := h.reads.trans hreads
  have hmono := @frameLook_mono direction _ (c.readBuffer.unread.drop info.frameBytes) _ hlimit
  have hmore : frameLook options.direction options.maxFrameBytes (c.readBuffer.unread.drop info.frameBytes) =
      .more → frameLook direction limit (c.readBuffer.unread.drop info.frameBytes) = .more := by
    rw [hdirection]
    intro hlook
    rcases hmono with same | refused
    · exact same.trans hlook
    · rw [hlook] at refused
      cases refused
  have hstopped := hp.stopped
  generalize info.stopReason = stop at hstopped ⊢
  cases hstopped with
  | budget ok some spent => exact .budget ok some spent
  | needMore ok eof look =>
    refine .clean ok ?_
    rw [parseStream_eq (o := none) ⟨hall, hmore look⟩, eof]
    simp
  | eof ok eof empty =>
    refine .clean ok ?_
    rw [empty] at hall
    rw [parseStream_eq (o := none) ⟨hall, @frameLook_nil direction limit⟩]
    simp
  | refused protocol look =>
    rw [hdirection] at look
    by_cases hsame : options.maxFrameBytes = limit
    · rw [hsame] at look
      refine .rejected protocol ?_
      rw [parseStream_eq (o := some (p.issue, p.codecIssue)) ⟨hall, look⟩]
      rfl
    · rcases hmono with same | refused
      · refine .rejected protocol ?_
        rw [parseStream_eq (o := some (p.issue, p.codecIssue)) ⟨hall, same.trans look⟩]
        rfl
      · rw [look] at refused
        obtain ⟨hissue, -⟩ := Prod.mk.inj (Look.refuse.inj refused)
        exact .tooLarge protocol hissue (by omega)
  | truncated protocol eof nonempty look issue =>
    refine .rejected protocol ?_
    rw [parseStream_eq (o := none) ⟨hall, hmore look⟩, eof, issue.1, issue.2]
    simp [nonempty]

end

end Step

theorem reads_of_run {direction : FrameDirection} {limit : Nat} {views : List FrameView}
    (run : FramingRun direction limit c views) : Framed direction limit c views := by
  induction run with
  | create h =>
    obtain ⟨sound, hread, -, hdelivered, -⟩ := created_spec h
    refine ⟨sound, ?_⟩
    rw [hread, hdelivered]
    exact .done []
  | call _ k other ih => exact framed_exec ih k other
  | frames _ hdirection hlimit budget viewCapacity ih => exact framed_frames ih hdirection hlimit budget viewCapacity

/-! ## 3. The whole stream -/

/-- The stream whose front came in, and all of it when the end was seen. -/
structure Carries (c : Connection) (stream : Bytes) : Prop where
  arrived : c.ownedFd.delivered <+: stream
  ended : c.readEof = true → stream = c.ownedFd.delivered

/-- Peeks with the same options and budgets, one after the other. -/
inductive Peeks (options : FrameOptions) (budget : FrameBudget) (viewCapacity : Nat) :
    Connection → List FrameView → Connection → List FrameView → Prop
  | done {c : Connection} {views : List FrameView} : Peeks options budget viewCapacity c views c views
  | peek {c c' : Connection} {views views' : List FrameView}
      (rest : Peeks options budget viewCapacity (c.framesConsume (c.framesPeek options budget viewCapacity))
        (views ++ (c.framesPeek options budget viewCapacity).views) c' views') :
      Peeks options budget viewCapacity c views c' views'

section Whole

variable {direction : FrameDirection} {limit : Nat} {c c' : Connection} {views : List FrameView}
  {stream : Bytes} {e : FrameIssue × CodecIssue} {options : FrameOptions} {budget : FrameBudget}
  {viewCapacity : Nat} {views' : List FrameView}

theorem Carries.rejected (h : Carries c stream) {vs : List FrameView}
    (hparse : parseStream direction limit c.readEof c.ownedFd.delivered = (vs, some e)) :
    parseStream direction limit true stream = (vs, some e) := by
  obtain ⟨t, ht⟩ := h.arrived
  rw [← ht]
  refine parseStream_append (fun hended => ?_) hparse
  have hlen := congrArg List.length (h.ended hended)
  rw [← ht, List.length_append] at hlen
  exact List.length_eq_zero_iff.mp (by omega)

theorem places_of_reads {s r : Bytes} (h : (frameReading direction limit).Reads s views r)
    {before after : List FrameView} {v : FrameView} (hviews : views = before ++ v :: after) :
    FrameAt direction limit (s.drop (wireBytes before)) v v.wireSize := by
  induction h generalizing before with
  | done s => simp at hviews
  | @item s r w n views look rest ih =>
    have hat := frameLook_item.mp look
    cases before with
    | nil =>
      obtain ⟨rfl, -⟩ := List.cons.inj hviews
      rw [← hat.size]
      exact hat
    | cons b before =>
      obtain ⟨rfl, hrest⟩ := List.cons.inj hviews
      have hcons : wireBytes (w :: before) = n + wireBytes before := by
        rw [hat.size]
        simp [wireBytes]
      rw [hcons, ← List.drop_drop]
      exact ih hrest

theorem FramingRun.peeks (peeks : Peeks options budget viewCapacity c views c' views')
    (hdirection : options.direction = direction) (hlimit : options.maxFrameBytes ≤ limit)
    (run : FramingRun direction limit c views) : FramingRun direction limit c' views' := by
  induction peeks with
  | done => exact run
  | peek _ ih => exact ih (run.frames hdirection hlimit budget viewCapacity)

theorem framesConsume_keeps (c : Connection) (p : FramesPeeked) :
    (c.framesConsume p).ownedFd = c.ownedFd ∧ (c.framesConsume p).readEof = c.readEof ∧
      (c.framesConsume p).readBuffer.capacity = c.readBuffer.capacity ∧
      (c.framesConsume p).flowEnabled = c.flowEnabled ∧
      (c.framesConsume p).flowOptions = c.flowOptions := by
  unfold Connection.framesConsume
  cases p.info with
  | none => exact ⟨rfl, rfl, rfl, rfl, rfl⟩
  | some info => exact ⟨rfl, rfl, capacity_consume _, rfl, rfl⟩

theorem FramesAdmissible.consume (h : FramesAdmissible c options budget viewCapacity) (p : FramesPeeked) :
    FramesAdmissible (c.framesConsume p) options budget viewCapacity := by
  obtain ⟨-, -, hcapacity, henabled, hoptions⟩ := framesConsume_keeps c p
  obtain ⟨h₁, h₂, h₃, h₄, h₅, h₆, h₇⟩ := h
  exact ⟨h₁, h₂, h₃, by rw [hcapacity]; exact h₄, h₅, h₆, by rw [henabled, hoptions]; exact h₇⟩

theorem Peeks.keeps (peeks : Peeks options budget viewCapacity c views c' views')
    (h : FramesAdmissible c options budget viewCapacity) :
    c'.ownedFd = c.ownedFd ∧ c'.readEof = c.readEof ∧ FramesAdmissible c' options budget viewCapacity := by
  induction peeks with
  | done => exact ⟨rfl, rfl, h⟩
  | @peek c _ _ _ _ ih =>
    obtain ⟨hfd, heof, -⟩ := framesConsume_keeps c (c.framesPeek options budget viewCapacity)
    obtain ⟨hfd', heof', h'⟩ := ih (h.consume _)
    exact ⟨hfd'.trans hfd, heof'.trans heof, h'⟩

/-- **A stream that is rejected is reported**: peeks go on to the frame where the parse stops, with the same
    reason. -/
theorem reported_of_rejected (run : FramingRun direction limit c views)
    (hdirection : options.direction = direction) (hlimit : options.maxFrameBytes = limit)
    (h : FramesAdmissible c options budget viewCapacity) {frames : List FrameView}
    (hparse : parseStream direction limit c.readEof c.ownedFd.delivered = (frames, some e)) :
    ∃ c' views', Peeks options budget viewCapacity c views c' views' ∧
      (c'.framesPeek options budget viewCapacity).result = .protocol ∧
      views' ++ (c'.framesPeek options budget viewCapacity).views = frames ∧
      ((c'.framesPeek options budget viewCapacity).issue,
        (c'.framesPeek options budget viewCapacity).codecIssue) = e := by
  -- what is unread gets shorter with every peek that reports frames
  induction hn : c.readBuffer.unread.length using Nat.strong_induction_on generalizing c views with
  | _ n ih =>
    have framed := reads_of_run run
    obtain ⟨info, hp⟩ := framesPeek_spec framed.sound.readBuffer h
    have hverdict := verdict_of_peek framed hdirection hlimit.le hp
    generalize info.stopReason = stop at hverdict
    cases hverdict with
    | budget ok some spent =>
      have run' := run.frames hdirection hlimit.le budget viewCapacity
      obtain ⟨hfd, heof, -, -, -⟩ := framesConsume_keeps c (c.framesPeek options budget viewCapacity)
      have hmoved := hp.reads.length
      have hfit := (reads_wireBytes hp.reads).2
      have hnow := congrArg List.length (reads_wireBytes framed.reads).1
      have hthen := congrArg List.length (reads_wireBytes (reads_of_run run').reads).1
      have hviews := List.length_pos_iff.mpr some
      rw [hp.frameBytes, List.length_drop] at hmoved
      rw [hfd, List.length_drop, wireBytes_append] at hthen
      rw [List.length_drop] at hnow
      obtain ⟨c', views', hpeeks, hrest⟩ := ih _ (by omega) run' (h.consume _)
        (by rw [hfd, heof]; exact hparse) rfl
      exact ⟨c', views', .peek hpeeks, hrest⟩
    | clean ok parse =>
      rw [hparse] at parse
      cases parse
    | rejected protocol parse =>
      rw [hparse] at parse
      obtain ⟨hframes, he⟩ := Prod.mk.inj parse
      exact ⟨c, views, .done, protocol, hframes.symm, (Option.some.inj he).symm⟩
    | tooLarge protocol issue smaller => omega

/-- **Framing does not depend on how the stream comes in.** However it is cut into receives, peeks and consumes,
    the frames reported are a prefix of the frames of the whole stream parsed once, what is unread follows them,
    and a protocol error is reported where the parse rejects the stream. -/
theorem framing (run : FramingRun direction limit c views) (h : Carries c stream) :
    views <+: (parseStream direction limit true stream).1 ∧
    (wireBytes views ≤ stream.length ∧
      stream.drop (wireBytes views) = c.readBuffer.unread ++ stream.drop c.ownedFd.delivered.length) ∧
    (∀ before v after, views = before ++ v :: after →
      FrameAt direction limit (stream.drop (wireBytes before)) v v.wireSize) ∧
    (∀ options budget viewCapacity, options.direction = direction → options.maxFrameBytes ≤ limit →
      FramesAdmissible c options budget viewCapacity →
      let p := c.framesPeek options budget viewCapacity
      (∃ info, p.info = some info ∧ Verdict direction limit c views options p info.stopReason) ∧
      (p.result = .protocol →
        parseStream direction limit true stream = (views ++ p.views, some (p.issue, p.codecIssue)) ∨
          (p.issue = .frameTooLarge ∧ options.maxFrameBytes < limit))) ∧
    (∀ options budget viewCapacity, options.direction = direction → options.maxFrameBytes = limit →
      FramesAdmissible c options budget viewCapacity → c.readEof = true → ∀ frames e,
      (parseStream direction limit true stream = (frames, some e) ↔
        ∃ c' views', Peeks options budget viewCapacity c views c' views' ∧
          (c'.framesPeek options budget viewCapacity).result = .protocol ∧
          views' ++ (c'.framesPeek options budget viewCapacity).views = frames ∧
          ((c'.framesPeek options budget viewCapacity).issue,
            (c'.framesPeek options budget viewCapacity).codecIssue) = e)) := by
  have framed := reads_of_run run
  obtain ⟨t, ht⟩ := h.arrived
  have hwhole := framed.reads.append t
  rw [ht] at hwhole
  have htail : t = stream.drop c.ownedFd.delivered.length := by
    rw [← ht, List.drop_left]
  refine ⟨?_, ⟨(reads_wireBytes hwhole).2, ?_⟩, fun before v after hviews => places_of_reads hwhole hviews,
    fun options budget viewCapacity hdirection hlimit hadmissible => ?_,
    fun options budget viewCapacity hdirection hlimit hadmissible heof frames e => ?_⟩
  · rw [← ht]
    exact prefix_parseStream framed.reads t
  · rw [← (reads_wireBytes hwhole).1, ← htail]
  · obtain ⟨info, hp⟩ := framesPeek_spec framed.sound.readBuffer hadmissible
    have hverdict := verdict_of_peek framed hdirection hlimit hp
    refine ⟨⟨info, hp.reported, hverdict⟩, fun hprotocol => ?_⟩
    generalize info.stopReason = stop at hverdict
    cases hverdict with
    | budget ok some spent =>
      rw [hprotocol] at ok
      cases ok
    | clean ok parse =>
      rw [hprotocol] at ok
      cases ok
    | rejected protocol parse => exact .inl (h.rejected parse)
    | tooLarge protocol issue smaller => exact .inr ⟨issue, smaller⟩
  · have hstream := h.ended heof
    constructor
    · intro hparse
      refine reported_of_rejected run hdirection hlimit hadmissible ?_
      rw [heof, ← hstream]
      exact hparse
    · intro ⟨c', views', hpeeks, hprotocol, hframes, he⟩
      obtain ⟨hfd, heof', hadmissible'⟩ := hpeeks.keeps hadmissible
      have framed' := reads_of_run (run.peeks hpeeks hdirection hlimit.le)
      obtain ⟨info, hp⟩ := framesPeek_spec framed'.sound.readBuffer hadmissible'
      have hverdict := verdict_of_peek framed' hdirection hlimit.le hp
      generalize info.stopReason = stop at hverdict
      cases hverdict with
      | budget ok some spent =>
        rw [hprotocol] at ok
        cases ok
      | clean ok parse =>
        rw [hprotocol] at ok
        cases ok
      | rejected protocol parse =>
        rw [hfd, heof', heof, ← hstream, hframes, he] at parse
        exact parse
      | tooLarge protocol issue smaller => omega

end Whole

/-- The frame of a ping. -/
def pingFrame : Bytes := (Header.sealedWith ⟨1, 0, 0, 0, 1, 0, 0, 0⟩ []).encoded

/-- A socket on which it comes in two pieces. -/
def pingSocket : Socket where
  recvReply := fun
    | 0 => ⟨10, 0, fun n => pingFrame.getD n 0⟩
    | 1 => ⟨22, 0, fun n => pingFrame.getD (10 + n) 0⟩
    | _ => ⟨-1, eagain, fun _ => 0⟩
  recvCalls := 0
  delivered := []
  sendReply := fun _ => ⟨5, 0, fun _ => 0⟩
  sendCalls := 0
  accepted := []

/-- A connection over it. -/
def pingConnection : Connection :=
  ⟨pingSocket, ⟨List.replicate 64 0, 64, 0, 0⟩, ⟨List.replicate 64 0, 64, 0, 0⟩, false, false, 0, false,
    false, false, false, ⟨0, 0, 0, 0, 0⟩, .open, .none, .none⟩

theorem created_ping : Created pingConnection :=
  ⟨⟨64, 64, 128⟩, pingSocket, .ok, true, true, some fun _ => 0, true, some fun _ => 0, rfl, rfl, rfl⟩

/-- The connection after the two pieces came in. -/
def pingReceived : Connection :=
  ((pingConnection.exec (.receive ⟨100, 1⟩)).2.exec (.receive ⟨100, 5⟩)).2

theorem read_stream_ping :
    ∃ s, StreamRead [.receive ⟨100, 5⟩] (pingConnection.exec (.receive ⟨100, 1⟩)).2 s pingReceived :=
  (read_stream created_ping (.call .start _) (.call .start _)).2.2.2

/-- The ping is framed, and it is the one frame of the stream. -/
theorem framing_ping : ∃ views, views.length = 1 ∧ views <+: (parseStream .request 64 true pingFrame).1 := by
  have received : FramingRun .request 64 pingReceived [] :=
    (FramingRun.call (.create created_ping) (.receive ⟨100, 1⟩) (by simp)).call (.receive ⟨100, 5⟩) (by simp)
  have run := @FramingRun.frames _ _ _ _ received ⟨.request, 64⟩ rfl (Nat.le_refl 64) ⟨3, 100⟩ 3
  have hdelivered : pingReceived.ownedFd.delivered = pingFrame := by decide +kernel
  have hopen : pingReceived.readEof = false := by decide +kernel
  obtain ⟨hfd, heof, -⟩ := framesConsume_keeps pingReceived (pingReceived.framesPeek ⟨.request, 64⟩ ⟨3, 100⟩ 3)
  refine ⟨_, ?_, (framing run ⟨?_, ?_⟩).1⟩
  · decide +kernel
  · rw [hfd, hdelivered]
  · rw [heof, hopen]
    simp

end Vireo.Net
