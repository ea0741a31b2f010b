/-
  File:      Vireo/Net/Frames.lean
  Subject:   THE FRAMES OF A STREAM, and the loop of a peek over the bytes that are there.
-/
import Vireo.Lib.Stream
import Vireo.Net.ConnectionRun

namespace Vireo.Net

open Lib Base Protocol List

/-! ## 1. The codec at the front of a stream -/

variable {s : Bytes}

theorem headerDecode_append (h : headerSize ≤ s.length) (t : Bytes) :
    headerDecode (s ++ t) = headerDecode s := by
  have hlen : 32 ≤ s.length := h
  have hdrop : ∀ k, k ≤ 28 → (s ++ t).drop k = s.drop k ++ t := fun k hk =>
    drop_append_of_le_length (by omega)
  have h16 : ∀ k, k ≤ 28 → readU16Be ((s ++ t).drop k) = readU16Be (s.drop k) := fun k hk => by
    rw [hdrop k hk, readU16Be_append (by rw [length_drop]; omega)]
  have h32 : ∀ k, k ≤ 28 → readU32Be ((s ++ t).drop k) = readU32Be (s.drop k) := fun k hk => by
    rw [hdrop k hk, readU32Be_append (by rw [length_drop]; omega)]
  have hbyte : ∀ k, k ≤ 28 → (s ++ t).getD k 0 = s.getD k 0 := fun k hk => by
    rw [getD_eq_getElem?_getD, getD_eq_getElem?_getD, List.getElem?_append_left (by omega)]
  have hwhole : ¬ (s ++ t).length < headerSize := by
    rw [length_append]
    omega
  unfold headerDecode
  rw [if_neg hwhole, if_neg (Nat.not_lt.mpr h), readU32Be_append (show 4 ≤ s.length by omega),
    hbyte versionOffset (by decide), hbyte headerLengthOffset (by decide), h16 commandOffset (by decide),
    h16 flagsOffset (by decide), h16 statusOffset (by decide), h32 bodyLengthOffset (by decide),
    h32 sequenceOffset (by decide), h32 sessionHandleOffset (by decide), h32 taskHandleOffset (by decide),
    h32 crc32cOffset (by decide)]

variable {e : Result × CodecIssue}

theorem headerDecode_protocol (h : headerSize ≤ s.length)
    (he : headerDecode s = .error e) : e.1 = .protocol := by
  unfold headerDecode at he
  rw [if_neg (by omega)] at he
  split at he
  · cases he; rfl
  split at he
  · cases he; rfl
  split at he
  · cases he; rfl
  dsimp only at he
  split at he
  · cases he; rfl
  · cases he

variable {header : Header}

theorem headerValidate_protocol (he : headerValidate header = .error e) : e.1 = .protocol := by
  unfold headerValidate at he
  split at he
  · cases he; rfl
  split at he
  · cases he; rfl
  split at he
  · cases he; rfl
  split at he
  · cases he; rfl
  split at he
  · cases he; rfl
  · cases he

variable {direction : FrameDirection}

theorem validate_protocol (he : direction.validate header = .error e) : e.1 = .protocol := by
  unfold FrameDirection.validate requestHeaderValidate responseHeaderValidate at he
  cases hcommon : headerValidate header with
  | error e' =>
    rw [hcommon] at he
    cases direction <;> cases he <;> exact headerValidate_protocol hcommon
  | ok u =>
    rw [hcommon] at he
    cases direction with
    | request =>
      change (if _ then _ else _) = _ at he
      split at he
      · cases he; rfl
      split at he
      · cases he; rfl
      split at he
      · cases he; rfl
      · cases he
    | response =>
      change (if _ then _ else _) = _ at he
      split at he
      · cases he; rfl
      split at he
      · cases he; rfl
      · cases he

/-- Where the whole frame is there, a refusal of its checksum is one of the protocol. -/
theorem frameCrc32cVerify_protocol (hdecode : headerDecode s = .ok header)
    (hlen : headerSize + header.bodyLen.toNat ≤ s.length)
    (hbad : (frameCrc32cVerify (s.take headerSize) (slice s headerSize header.bodyLen.toNat)).1 ≠ .ok) :
    (frameCrc32cVerify (s.take headerSize) (slice s headerSize header.bodyLen.toNat)).1 = .protocol := by
  obtain ⟨hsize, hmax, hbody, -⟩ := headerDecode_ok hdecode
  have htake : (s.take headerSize).length = headerSize := length_take_of_le hsize
  have hslice : (slice s headerSize header.bodyLen.toNat).length = header.bodyLen.toNat := length_slice hlen
  have hequal : readU32Be ((s.take headerSize).drop bodyLengthOffset) = header.bodyLen := by
    have hback : s.drop bodyLengthOffset = (s.take headerSize).drop bodyLengthOffset ++ s.drop headerSize := by
      rw [← drop_append_of_le_length (by rw [htake]; decide), take_append_drop]
    rw [hbody, hback, readU32Be_append (by rw [length_drop, htake]; decide)]
  have hsizes : FrameSizes (s.take headerSize) (slice s headerSize header.bodyLen.toNat) :=
    ⟨by omega, by omega, by rw [hequal, hslice]⟩
  have hcalc := frameCrc32cCalculate_ok.mpr ⟨hsizes, rfl⟩
  unfold frameCrc32cVerify at hbad ⊢
  rw [if_neg (by omega), if_neg (by omega), if_neg (not_not.mpr hsizes.equal), hcalc] at hbad ⊢
  dsimp only at hbad ⊢
  split
  · rfl
  rename_i hsame
  rw [if_neg hsame] at hbad
  exact absurd rfl hbad

/-! ## 2. The frames of a stream -/

/-- The frame at the front of a stream: of the direction, within the limit, with its checksum. -/
def frameLook (direction : FrameDirection) (limit : Nat) (s : Bytes) : Look FrameView (FrameIssue × CodecIssue) :=
  if s.length < headerSize then .more
  else
    match headerDecode s with
    | .error e => .refuse (.codec, e.2)
    | .ok header =>
      match direction.validate header with
      | .error e => .refuse (.codec, e.2)
      | .ok _ =>
        let size := headerSize + header.bodyLen.toNat
        if size > limit then .refuse (.frameTooLarge, .none)
        else if s.length < size then .more
        else
          let body := slice s headerSize header.bodyLen.toNat
          let verified := frameCrc32cVerify (s.take headerSize) body
          if verified.1 ≠ .ok then .refuse (.codec, verified.2)
          else .item ⟨header, body, header.bodyLen.toNat, size⟩ size

section Look

variable {direction : FrameDirection} {limit n : Nat} {s : Bytes} {v : FrameView}

theorem frameLook_append (h : frameLook direction limit s ≠ .more) (t : Bytes) :
    frameLook direction limit (s ++ t) = frameLook direction limit s := by
  by_cases hshort : s.length < headerSize
  · exact absurd (if_pos hshort) h
  have hlen : headerSize ≤ s.length := Nat.not_lt.mp hshort
  unfold frameLook at h ⊢
  rw [if_neg hshort] at h ⊢
  rw [if_neg (by rw [length_append]; omega), headerDecode_append hlen]
  cases hdecode : headerDecode s with
  | error e => rfl
  | ok header =>
    rw [hdecode] at h
    dsimp only at h ⊢
    cases hvalid : direction.validate header with
    | error e => rfl
    | ok u =>
      rw [hvalid] at h
      by_cases hlarge : headerSize + header.bodyLen.toNat > limit
      · rw [if_pos hlarge, if_pos hlarge]
      rw [if_neg hlarge] at h ⊢
      rw [if_neg hlarge]
      by_cases hmore : s.length < headerSize + header.bodyLen.toNat
      · exact absurd (if_pos hmore) h
      have hslice : slice (s ++ t) headerSize header.bodyLen.toNat =
          slice s headerSize header.bodyLen.toNat := by
        unfold slice
        rw [drop_append_of_le_length hlen, take_append_of_le_length (by rw [length_drop]; omega)]
      rw [if_neg (by rw [length_append]; omega), if_neg hmore, hslice, take_append_of_le_length hlen]

/-- What a frame is. -/
structure FrameAt (direction : FrameDirection) (limit : Nat) (s : Bytes) (v : FrameView) (n : Nat) : Prop where
  size : n = v.wireSize
  header : headerDecode s = .ok v.header
  valid : direction.validate v.header = .ok ()
  bodySize : v.bodySize = v.header.bodyLen.toNat
  wireSize : v.wireSize = headerSize + v.bodySize
  body : v.body = slice s headerSize v.bodySize
  limit_le : v.wireSize ≤ limit
  le : v.wireSize ≤ s.length
  verified : (frameCrc32cVerify (s.take headerSize) v.body).1 = .ok

theorem frameLook_item : frameLook direction limit s = .item v n ↔ FrameAt direction limit s v n := by
  unfold frameLook
  constructor
  · intro h
    split at h
    · cases h
    split at h
    · cases h
    rename_i header hdecode
    split at h
    · cases h
    rename_i hvalid
    dsimp only at h
    split at h
    · cases h
    split at h
    · cases h
    split at h
    · cases h
    rename_i hlarge hmore hgood
    cases h
    exact ⟨rfl, hdecode, hvalid, rfl, rfl, rfl, Nat.not_lt.mp hlarge, Nat.not_lt.mp hmore, not_not.mp hgood⟩
  · intro ⟨hsize, hdecode, hvalid, hbodySize, hwireSize, hbody, hlimit, hle, hgood⟩
    rw [hwireSize, hbodySize] at hlimit hle
    rw [hbody, hbodySize] at hgood
    rw [if_neg (by omega), hdecode]
    dsimp only
    rw [hvalid]
    rw [if_neg (by omega), if_neg (by omega), if_neg (not_not.mpr hgood), hsize]
    obtain ⟨header, body, bodySize, wireSize⟩ := v
    dsimp only at hbodySize hwireSize hbody ⊢
    rw [hwireSize, hbody, hbodySize]

theorem frameLook_pos (h : frameLook direction limit s = .item v n) : 0 < n := by
  have hat := frameLook_item.mp h
  rw [hat.size, hat.wireSize, headerSize]
  omega

theorem length_of_more (hlimit : headerSize ≤ limit) (h : frameLook direction limit s = .more) :
    s.length < limit := by
  unfold frameLook at h
  split at h
  · omega
  split at h
  · cases h
  split at h
  · cases h
  dsimp only at h
  split at h
  · cases h
  split at h
  · omega
  · split at h <;> cases h

/-- **With a larger limit a look says the same**, unless the limit was what it refused for. -/
theorem frameLook_mono {limit' : Nat} (hle : limit ≤ limit') :
    frameLook direction limit' s = frameLook direction limit s ∨
      frameLook direction limit s = .refuse (.frameTooLarge, .none) := by
  unfold frameLook
  split
  · exact .inl rfl
  split
  · exact .inl rfl
  split
  · exact .inl rfl
  rename_i header _ _ _ _
  by_cases hlarge : headerSize + header.bodyLen.toNat > limit
  · exact .inr (if_pos hlarge)
  · rw [if_neg hlarge, if_neg (by omega)]
    exact .inl rfl

end Look

/-- The frames of a stream as a reading. -/
def frameReading (direction : FrameDirection) (limit : Nat) : Reading UInt8 FrameView (FrameIssue × CodecIssue) where
  look := frameLook direction limit
  pos := frameLook_pos
  le := fun h => by
    have hat := frameLook_item.mp h
    rw [hat.size]
    exact hat.le
  item_append := fun h t => by rw [frameLook_append (by rw [h]; simp), h]
  refuse_append := fun h t => by rw [frameLook_append (by rw [h]; simp), h]

/-- The bytes that a number of frames take up. -/
def wireBytes (views : List FrameView) : Nat := (views.map FrameView.wireSize).sum

@[simp]
theorem wireBytes_nil : wireBytes [] = 0 := rfl

@[simp]
theorem wireBytes_append (vs ws : List FrameView) : wireBytes (vs ++ ws) = wireBytes vs + wireBytes ws := by
  unfold wireBytes
  rw [map_append, sum_append]

@[simp]
theorem wireBytes_singleton (v : FrameView) : wireBytes [v] = v.wireSize := by
  simp [wireBytes]

variable {views : List FrameView}

theorem reads_wireBytes {limit : Nat} {r : Bytes} (h : (frameReading direction limit).Reads s views r) :
    r = s.drop (wireBytes views) ∧ wireBytes views ≤ s.length := by
  induction h with
  | done s => exact ⟨rfl, Nat.zero_le _⟩
  | @item s r v n views look rest ih =>
    have hat := frameLook_item.mp look
    have hle := hat.le
    obtain ⟨hr, hlen⟩ := ih
    have hcons : wireBytes (v :: views) = n + wireBytes views := by
      rw [hat.size]
      simp [wireBytes]
    rw [length_drop] at hlen
    rw [hcons, hr, drop_drop]
    exact ⟨rfl, by rw [hat.size] at hlen ⊢; omega⟩

theorem reads_mono {limit limit' : Nat} (hle : limit ≤ limit') {r : Bytes} (h : (frameReading direction limit).Reads s views r) :
    (frameReading direction limit').Reads s views r := by
  induction h with
  | done s => exact .done s
  | @item s r v n views look rest ih =>
    refine .item ?_ ih
    have look' : frameLook direction limit s = .item v n := look
    rcases frameLook_mono hle with same | refused
    · exact same.trans look'
    · rw [look'] at refused
      cases refused

/-! ## 3. The loop of a peek -/

/-- What a peek stopped at: the end of what is there, a refusal of what is next, or a budget that is
    spent. -/
inductive Stopped (options : FrameOptions) (readEof : Bool) (rest : Bytes) (p : FramesPeeked) : FrameStop → Prop
  | budget {stop : FrameStop} (ok : p.result = .ok) (some : p.views ≠ [])
      (stop_eq : stop = .messageBudget ∨ stop = .outputFull ∨ stop = .byteBudget) : Stopped options readEof rest p stop
  | needMore (ok : p.result = .ok) (eof : readEof = false)
      (look : frameLook options.direction options.maxFrameBytes rest = .more) :
      Stopped options readEof rest p .needMore
  | eof (ok : p.result = .ok) (eof : readEof = true) (empty : rest = []) : Stopped options readEof rest p .eof
  | refused (protocol : p.result = .protocol)
      (look : frameLook options.direction options.maxFrameBytes rest = .refuse (p.issue, p.codecIssue)) :
      Stopped options readEof rest p .error
  | truncated (protocol : p.result = .protocol) (eof : readEof = true) (nonempty : rest ≠ [])
      (look : frameLook options.direction options.maxFrameBytes rest = .more)
      (issue : p.issue = .truncated ∧ p.codecIssue = .none) : Stopped options readEof rest p .error

/-- What a peek over `bytes` comes to. -/
structure Peeked (options : FrameOptions) (readEof : Bool) (bytes : Bytes) (p : FramesPeeked)
    (info : FrameInfo) : Prop where
  reported : p.info = some info
  count : info.frameCount = p.views.length
  frameBytes : info.frameBytes = wireBytes p.views
  reads : (frameReading options.direction options.maxFrameBytes).Reads bytes p.views (bytes.drop info.frameBytes)
  stopped : Stopped options readEof (bytes.drop info.frameBytes) p info.stopReason

section Loop

variable {options : FrameOptions} {budget : FrameBudget} {viewCapacity : Nat} {readEof : Bool} {bytes : Bytes}
  {info : FrameInfo}

theorem frameLook_nil {direction : FrameDirection} {limit : Nat} : frameLook direction limit [] = .more := rfl

theorem codecRefused_protocol (info : FrameInfo) (views : List FrameView) {e : Result × CodecIssue}
    (h : e.1 = .protocol) : codecRefused info views e = ⟨.protocol, some info, views, .codec, e.2⟩ := by
  unfold codecRefused
  rw [if_pos h, h]

/-- What one round does when the frame at the front is `look`. -/
def roundOf (look : Look FrameView (FrameIssue × CodecIssue)) (readEof : Bool) (rest : Bytes)
    (info : FrameInfo) (views : List FrameView) (next : FrameView → Nat → FramesPeeked) : FramesPeeked :=
  match look with
  | .refuse e => ⟨.protocol, some info, views, e.1, e.2⟩
  | .item v n => next v n
  | .more =>
    if readEof = false then ⟨.ok, some { info with stopReason := .needMore }, views, .none, .none⟩
    else if rest = [] then ⟨.ok, some { info with stopReason := .eof }, views, .none, .none⟩
    else ⟨.protocol, some info, views, .truncated, .none⟩

/-- **One round of the loop does what the look at the front says**, unless the bytes it may look at are
    spent. -/
theorem framesLoop_round (readEof : Bool) (left : Nat) (views : List FrameView)
    (hlimit : headerSize ≤ options.maxFrameBytes) (hbytes : options.maxFrameBytes ≤ budget.maxBytes)
    (hsmall : bytes.length ≤ sizeMax) (hcount : info.frameCount ≠ viewCapacity)
    (hle : info.frameBytes ≤ bytes.length) :
    let rest := bytes.drop info.frameBytes
    let loop := framesLoop options budget viewCapacity readEof bytes (left + 1) info views
    (info.frameBytes ≠ 0 ∧
        loop = ⟨.ok, some { info with stopReason := .byteBudget }, views, .none, .none⟩) ∨
      loop = roundOf (frameLook options.direction options.maxFrameBytes rest) readEof rest info views
        fun v n => framesLoop options budget viewCapacity readEof bytes left
          { info with frameCount := info.frameCount + 1, frameBytes := info.frameBytes + n } (views ++ [v]) := by
  have hrest : (bytes.drop info.frameBytes).length = bytes.length - info.frameBytes := length_drop
  have hsize : headerSize = 32 := rfl
  generalize hnext : (fun (v : FrameView) (n : Nat) => framesLoop options budget viewCapacity readEof bytes left
    { info with frameCount := info.frameCount + 1, frameBytes := info.frameBytes + n } (views ++ [v])) = next
  unfold framesLoop
  dsimp only
  rw [if_neg hcount]
  by_cases hempty : bytes.length - info.frameBytes = 0
  · have hnil : bytes.drop info.frameBytes = [] := by
      rw [← length_eq_zero_iff, hrest, hempty]
    rw [if_pos hempty, hnil]
    cases readEof with
    | false => exact .inr rfl
    | true => exact .inr rfl
  · have hnonempty : bytes.drop info.frameBytes ≠ [] := by
      rw [← length_pos_iff, hrest]
      omega
    rw [if_neg hempty]
    by_cases hbudget : budget.maxBytes - info.frameBytes < headerSize
    · rw [if_pos hbudget]
      exact .inl ⟨by omega, rfl⟩
    · rw [if_neg hbudget]
      -- what is short of a frame
      have hshortOf : (if readEof = false then
            (⟨.ok, some { info with stopReason := .needMore }, views, .none, .none⟩ : FramesPeeked)
          else ⟨.protocol, some info, views, .truncated, .none⟩) =
          roundOf .more readEof (bytes.drop info.frameBytes) info views next := by
        unfold roundOf
        rw [if_neg hnonempty]
      unfold frameLook
      rw [hrest]
      by_cases hshort : bytes.length - info.frameBytes < headerSize
      · rw [if_pos hshort, if_pos hshort]
        exact .inr hshortOf
      · rw [if_neg hshort, if_neg hshort]
        cases hdecode : headerDecode (bytes.drop info.frameBytes) with
        | error e => exact .inr (codecRefused_protocol _ _ (headerDecode_protocol (by omega) hdecode))
        | ok header =>
          have hbody := (headerDecode_ok hdecode).2.1
          rw [maxBodySize] at hbody
          dsimp only
          cases hvalid : options.direction.validate header with
          | error e => exact .inr (codecRefused_protocol _ _ (validate_protocol hvalid))
          | ok u =>
            rw [checkedSizeAdd_of_le (by rw [sizeMax]; omega)]
            dsimp only
            by_cases hlarge : headerSize + header.bodyLen.toNat > options.maxFrameBytes
            · rw [if_pos hlarge, if_pos hlarge]
              exact .inr rfl
            · rw [if_neg hlarge, if_neg hlarge]
              by_cases hspent : headerSize + header.bodyLen.toNat > budget.maxBytes - info.frameBytes
              · rw [if_pos hspent]
                exact .inl ⟨by omega, rfl⟩
              · rw [if_neg hspent]
                by_cases hpart : headerSize + header.bodyLen.toNat > bytes.length - info.frameBytes
                · rw [if_pos hpart, if_pos hpart]
                  exact .inr hshortOf
                · rw [if_neg hpart, if_neg hpart]
                  refine .inr ?_
                  change (if (frameCrc32cVerify _ (slice _ _ _)).1 ≠ .ok then _ else _) = _
                  by_cases hbad : (frameCrc32cVerify ((bytes.drop info.frameBytes).take headerSize)
                      (slice (bytes.drop info.frameBytes) headerSize header.bodyLen.toNat)).1 ≠ .ok
                  · rw [if_pos hbad, if_pos hbad]
                    exact codecRefused_protocol _ _ (frameCrc32cVerify_protocol hdecode (by omega) hbad)
                  · rw [if_neg hbad, if_neg hbad, ← hnext, checkedSizeAdd_of_le (by omega)]
                    rfl

/-- **The loop of a peek reads frames and stops where the reading does**, unless a budget is spent
    after at least one frame. -/
theorem framesLoop_spec (hcapacity : 0 < viewCapacity) (hmessages : 0 < budget.maxMessages)
    (hlimit : headerSize ≤ options.maxFrameBytes) (hbytes : options.maxFrameBytes ≤ budget.maxBytes)
    (hsmall : bytes.length ≤ sizeMax) {left : Nat} {views : List FrameView} (herror : info.stopReason = .error)
    (hleft : left + info.frameCount = budget.maxMessages) (hcount : info.frameCount = views.length)
    (hframes : info.frameBytes = wireBytes views)
    (hreads : (frameReading options.direction options.maxFrameBytes).Reads bytes views
      (bytes.drop info.frameBytes)) :
    ∃ info', Peeked options readEof bytes
      (framesLoop options budget viewCapacity readEof bytes left info views) info' := by
  induction left generalizing info views with
  | zero =>
    have hsome : views ≠ [] := by
      intro hnil
      rw [hnil, length_nil] at hcount
      omega
    unfold framesLoop
    exact ⟨_, rfl, hcount, hframes, hreads, .budget rfl hsome (.inl rfl)⟩
  | succ left ih =>
    by_cases hfull : info.frameCount = viewCapacity
    · have hsome : views ≠ [] := by
        intro hnil
        rw [hnil, length_nil] at hcount
        omega
      rw [framesLoop]
      rw [if_pos hfull]
      exact ⟨_, rfl, hcount, hframes, hreads, .budget rfl hsome (.inr (.inl rfl))⟩
    · have hle : info.frameBytes ≤ bytes.length := by
        rw [hframes]
        exact (reads_wireBytes hreads).2
      rcases framesLoop_round readEof left views hlimit hbytes hsmall hfull hle with hspent | hround
      · obtain ⟨hne, heq⟩ := hspent
        have hsome : views ≠ [] := by
          intro hnil
          rw [hframes, hnil] at hne
          exact hne rfl
        rw [heq]
        exact ⟨_, rfl, hcount, hframes, hreads, .budget rfl hsome (.inr (.inr rfl))⟩
      · rw [hround]
        cases hlook : frameLook options.direction options.maxFrameBytes (bytes.drop info.frameBytes) with
        | refuse e =>
          refine ⟨info, rfl, hcount, hframes, hreads, ?_⟩
          rw [herror]
          exact .refused rfl hlook
        | more =>
          rw [roundOf]
          split
          · rename_i heof
            exact ⟨_, rfl, hcount, hframes, hreads, .needMore rfl heof hlook⟩
          · rename_i heof
            split
            · rename_i hnil
              exact ⟨_, rfl, hcount, hframes, hreads, .eof rfl (by simpa using heof) hnil⟩
            · rename_i hsome
              refine ⟨info, rfl, hcount, hframes, hreads, ?_⟩
              rw [herror]
              exact .truncated rfl (by simpa using heof) hsome hlook ⟨rfl, rfl⟩
        | item v n =>
          have hat := frameLook_item.mp hlook
          refine ih herror (by dsimp only; omega) ?_ ?_ ?_
          · rw [length_append, hcount]
            rfl
          · rw [wireBytes_append, wireBytes_singleton, ← hframes, hat.size]
          · have hone := Reading.Reads.single (R := frameReading options.direction options.maxFrameBytes) hlook
            rw [drop_drop] at hone
            exact hreads.trans hone

end Loop

end Vireo.Net
