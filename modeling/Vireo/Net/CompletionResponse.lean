/-
  File:      Vireo/Net/CompletionResponse.lean
  Subject:   THE FRAME OF A COMPLETION (`src/net/completion_response.c`): checked, encoded, put in the queue.

  A completion is its metadata and its payload. What is inspected of the connection of a client, of the
  server and of its TLS is passed in, and so is what the enqueue and the refresh come to. A close state is
  one of three here, so that the check of the one in the match is always passed.
-/
import Vireo.Lib.Checks
import Vireo.Net.AuthConsumer

namespace Vireo.Net

open Base Lib Protocol Thread

/-! ## 1. What is asked for, and what is answered -/

/-- `VIREO_PROTOCOL_FLAG_LONG_COMMAND`. -/
def flagLongCommand : UInt16 := 0x0002

/-- `VIREO_COMPLETION_RESPONSE_MAX_FRAME_BYTES`. -/
def maxFrameBytes : Nat := headerSize + maxBodySize

/-- `vireo_completion_response_descriptor_t`. -/
structure ResponseDescriptor where
  command : UInt16
  extraFlags : UInt16
  sessionHandle : UInt32
  taskHandle : UInt32
deriving DecidableEq

/-- `vireo_completion_response_stage_t`. -/
inductive ResponseStage where
  | none
  | checkCompletion
  | checkMatch
  | checkClient
  | checkServer
  | borrowPayload
  | checkFrame
  | validateResponse
  | encodeFrame
  | enqueue
  | refresh
deriving DecidableEq

/-- `vireo_completion_response_report_t`; the diagnostics of the enqueue and of the refresh are theirs. -/
structure ResponseReport where
  stage : ResponseStage
  frameBytes : Nat
  frameEncoded : Bool
  enqueueCalled : Bool
  enqueued : Bool
  refreshCalled : Bool
  codecIssue : CodecIssue

/-- A report of a call that has not got to the frame. -/
def ResponseReport.early (stage : ResponseStage) : ResponseReport := ⟨stage, 0, false, false, false, false, .none⟩

/-- What `vireo_connection_inspect` says besides what the table of the clients keeps. -/
structure ConnectionFlow where
  tls : Bool
  flowEnabled : Bool
deriving DecidableEq

/-- What is answered in front of the enqueue: of the server, the connections, and the client's TLS. -/
structure ResponseAnswers where
  clients : ClientTable Nat
  flow : Nat → ConnectionFlow
  server : Except Failure Unit
  transport : Option Transport

/-- The other arguments. -/
structure ResponseCall where
  completion : CompletionMetadata
  payload : Bytes
  found : CompletionMatch
  descriptor : ResponseDescriptor
  maxFrame : Nat
  workspaceSize : Nat

/-! ## 2. The frame -/

/-- What is written for a refusal. -/
abbrev Refusal := Result × ResponseReport

def refuse (stage : ResponseStage) (result : Result) : Refusal := (result, .early stage)

/-- A report behind the size of the frame. -/
def refuseFrame (frameBytes : Nat) (stage : ResponseStage) (result : Result) : Refusal :=
  (result, { ResponseReport.early stage with frameBytes := frameBytes })

/-- `vireo_tcp_server_client_inspect`, with the connection. -/
def ResponseAnswers.inspect (a : ResponseAnswers) (client : Lease) : Except Failure (ConnectionInfo × ConnectionFlow) :=
  match a.clients.clientInspect client, a.clients.findClient client with
  | .ok _, .ok connection => .ok (a.clients.connections connection, a.flow connection)
  | .error e, _ => .error e
  | _, .error e => .error e

/-- The checks of the transport of the client, by the entry. -/
def openForResponse (transport : Option Transport) (info : ConnectionInfo) (flow : ConnectionFlow) :
    Except Refusal Unit :=
  match transport with
  | some t => do
    require (flow.tls = true) (refuse .checkClient .busy)
    require (info.loopAttached = true) (refuse .checkClient .notFound)
    require (t.borrow = .ok) (refuse .checkClient t.borrow)
    let handshake ← refusing (fun e => refuse .checkClient e.val) t.handshake
    let io ← refusing (fun e => refuse .checkClient e.val) t.io
    let close ← refusing (fun e => refuse .checkClient e.val) t.close
    require (handshake = .established ∧ io = .opened ∧ close = .none) (refuse .checkClient .busy)
  | none => do
    require (info.closeState = .open) (refuse .checkClient .busy)
    require (info.loopAttached = true ∧ flow.flowEnabled = true) (refuse .checkClient .notFound)

/-- The header in front of the checksum. -/
def responseHeader (c : ResponseCall) (status : UInt16) : Header where
  command := c.descriptor.command
  flags := flagResponse ||| c.descriptor.extraFlags
  status := status
  bodyLen := UInt32.ofNat c.payload.length
  sequence := c.found.metadata.route.requestSequence
  sessionHandle := c.descriptor.sessionHandle
  taskHandle := c.descriptor.taskHandle
  crc32c := 0

/-- `response_core` up to the enqueue: the client and the frame. -/
def responseFrame (c : ResponseCall) (a : ResponseAnswers) : Except Refusal (Lease × Bytes) := do
  require (c.descriptor.extraFlags = 0 ∨ c.descriptor.extraFlags = flagLongCommand) (refuse .none .invalidArgument)
  require (headerSize ≤ c.maxFrame ∧ c.maxFrame ≤ maxFrameBytes ∧ c.maxFrame ≤ c.workspaceSize)
    (refuse .none .range)
  let validated ← refusing (refuse .checkCompletion)
    (CompletionMetadata.make c.completion.request c.completion.result c.completion.suggestedStatus)
  let same ← refusing (refuse .checkMatch) (validated.request.sameRequest c.found.metadata)
  require (same = true ∧ validated.request.operation = c.found.metadata.operation ∧
    validated.request.deadlineNs = c.found.metadata.deadlineNs) (refuse .checkMatch .invalidArgument)
  let client := Net.client c.found.metadata
  let current ← refusing (fun e => refuse .checkClient e.val) (a.inspect client)
  refusing (fun e => refuse .checkServer e.val) a.server
  require (a.clients.stopRequested = false) (refuse .checkServer .cancelled)
  openForResponse a.transport current.1 current.2
  let frameBytes ← refusing (refuse .checkFrame) (checkedSizeAdd headerSize c.payload.length)
  require (c.payload.length ≤ maxBodySize ∧ frameBytes ≤ c.maxFrame ∧ frameBytes ≤ current.1.writeCapacity)
    (refuseFrame frameBytes .checkFrame .range)
  let header := responseHeader c validated.suggestedStatus
  refusing (fun e => (e.1, { ResponseReport.early .validateResponse with frameBytes := frameBytes, codecIssue := e.2 }))
    (responseHeaderValidate header)
  let wire ← refusing (refuseFrame frameBytes .encodeFrame) (headerEncode header c.workspaceSize)
  let crc ← refusing (refuseFrame frameBytes .encodeFrame) (frameCrc32cCalculate wire c.payload)
  let wire ← refusing (refuseFrame frameBytes .encodeFrame)
    (headerEncode { header with crc32c := crc } c.workspaceSize)
  .ok (client, wire ++ c.payload)

/-! ## 3. The call -/

/-- What others see of a call. -/
inductive ResponseEvent where
  | enqueue (client : Lease) (frame : Bytes) (result : Result)
  | refresh (client : Lease) (result : Result)

structure ResponseOutcome where
  result : Result
  report : ResponseReport
  events : List ResponseEvent

/-- `response_core`; the transport among the answers tells the entries apart. -/
def responseCore (c : ResponseCall) (a : ResponseAnswers) (enqueue : Lease → Bytes → Result)
    (refresh : Lease → Result) : ResponseOutcome :=
  match responseFrame c a with
  | .error e => ⟨e.1, e.2, []⟩
  | .ok (client, frame) =>
    let r := enqueue client frame
    if r ≠ .ok then ⟨r, ⟨.enqueue, frame.length, true, true, false, false, .none⟩, [.enqueue client frame r]⟩
    else
      let r' := refresh client
      ⟨r', ⟨if r' = .ok then .none else .refresh, frame.length, true, true, true, true, .none⟩,
        [.enqueue client frame r, .refresh client r']⟩

/-! ## 4. What is found -/

/-- The transport of a client is open for writing. -/
def OpenForResponse (transport : Option Transport) (info : ConnectionInfo) (flow : ConnectionFlow) : Prop :=
  info.loopAttached = true ∧
    match transport with
    | some t => flow.tls = true ∧ t.borrow = .ok ∧ t.Open
    | none => info.closeState = .open ∧ flow.flowEnabled = true

/-- What a call that gets to the enqueue has found. -/
structure Answerable (c : ResponseCall) (a : ResponseAnswers) (client : Lease) : Prop where
  sameRequest : c.completion.request.SameRequest c.found.metadata
  operation : c.completion.request.operation = c.found.metadata.operation
  deadline : c.completion.request.deadlineNs = c.found.metadata.deadlineNs
  lease : client = Net.client c.found.metadata
  current : ∃ info flow, a.inspect client = .ok (info, flow) ∧ OpenForResponse a.transport info flow ∧
    headerSize + c.payload.length ≤ info.writeCapacity
  running : a.clients.stopRequested = false
  body : c.payload.length ≤ maxBodySize
  frame : headerSize + c.payload.length ≤ c.maxFrame

/-- The other arguments are as they must be, and the server answers. -/
structure Proper (c : ResponseCall) (a : ResponseAnswers) : Prop where
  flags : c.descriptor.extraFlags = 0 ∨ c.descriptor.extraFlags = flagLongCommand
  workspace : headerSize ≤ c.maxFrame ∧ c.maxFrame ≤ maxFrameBytes ∧ c.maxFrame ≤ c.workspaceSize
  completion : c.completion.hasValidShape = true
  server : a.server = .ok ()
  header : responseHeaderValidate (responseHeader c c.completion.suggestedStatus) = .ok ()

/-- What is in a frame. -/
structure FrameOf (c : ResponseCall) (frame : Bytes) : Prop where
  length : frame.length = headerSize + c.payload.length
  body : frame.drop headerSize = c.payload
  crc : (frameCrc32cVerify (frame.take headerSize) (frame.drop headerSize)).1 = .ok
  header : ∃ header, headerDecode frame = .ok header ∧ responseHeaderValidate header = .ok () ∧
    header.command = c.descriptor.command ∧ header.flags = flagResponse ||| c.descriptor.extraFlags ∧
    header.status = c.completion.suggestedStatus ∧ header.bodyLen.toNat = c.payload.length ∧
    header.sequence = c.found.metadata.route.requestSequence ∧
    header.sessionHandle = c.descriptor.sessionHandle ∧ header.taskHandle = c.descriptor.taskHandle

section Found

variable {c : ResponseCall} {a : ResponseAnswers}

theorem openForResponse_iff {transport : Option Transport} {info : ConnectionInfo} {flow : ConnectionFlow} {u : Unit} :
    openForResponse transport info flow = .ok u ↔ OpenForResponse transport info flow := by
  unfold openForResponse OpenForResponse
  cases transport with
  | none =>
    simp only [bind_eq_ok, require_eq_ok]
    constructor
    · intro ⟨_, hclose, hattached, hflow⟩
      exact ⟨hattached, hclose, hflow⟩
    · intro ⟨hattached, hclose, hflow⟩
      exact ⟨(), hclose, hattached, hflow⟩
  | some t =>
    simp only [bind_eq_ok, require_eq_ok, refusing_eq_ok]
    constructor
    · intro ⟨_, htls, _, hattached, _, hborrow, handshake, hhandshake, io, hio, close, hclose, hstates⟩
      obtain ⟨rfl, rfl, rfl⟩ := hstates
      exact ⟨hattached, htls, hborrow, hhandshake, hio, hclose⟩
    · intro ⟨hattached, htls, hborrow, hhandshake, hio, hclose⟩
      exact ⟨(), htls, (), hattached, (), hborrow, _, hhandshake, _, hio, _, hclose, rfl, rfl, rfl⟩

theorem sameRequest_ok {m n : TaskMetadata} (h : m.sameRequest n = .ok true) : m.SameRequest n := by
  have hvalid : m.Valid ∧ n.Valid := by
    unfold TaskMetadata.sameRequest at h
    split at h
    · cases h
    rename_i hshape
    obtain ⟨hm, hn⟩ := not_or.mp hshape
    exact ⟨TaskMetadata.hasValidShape_iff.mp (by simpa using hm), TaskMetadata.hasValidShape_iff.mp (by simpa using hn)⟩
  rw [TaskMetadata.sameRequest_eq hvalid.1 hvalid.2] at h
  exact of_decide_eq_true (Except.ok.inj h)

theorem responseFrame_ok {client : Lease} {frame : Bytes} (h : responseFrame c a = .ok (client, frame)) :
    Answerable c a client ∧ FrameOf c frame := by
  unfold responseFrame at h
  simp only [bind_eq_ok, require_eq_ok, refusing_eq_ok] at h
  obtain ⟨-, -, -, -, validated, hvalidated, same, hsame, -, hrequest, current, hcurrent, -, -, -, hstop, _, hopen,
    frameBytes, hframe, -, hlimits, _, hvalid, wire, hwire, crc, hcrc, wire', hwire', hresult⟩ := h
  cases hresult
  obtain ⟨rfl, hoperation, hdeadline⟩ := hrequest
  obtain ⟨hbody, hmax, hcapacity⟩ := hlimits
  obtain rfl := checkedSizeAdd_ok hframe
  have hmake : validated = c.completion := by
    rw [CompletionMetadata.make_eq] at hvalidated
    split at hvalidated
    · cases hvalidated
    · exact (Except.ok.inj hvalidated).symm
  subst hmake
  obtain ⟨info, flow⟩ := current
  refine ⟨⟨sameRequest_ok hsame, hoperation, hdeadline, rfl, ⟨info, flow, hcurrent, openForResponse_iff.mp hopen, hcapacity⟩,
    hstop, hbody, hmax⟩, ?_⟩
  -- the second header is the first one with the checksum of its frame
  have hlen : (responseHeader c c.completion.suggestedStatus).bodyLen.toNat = c.payload.length :=
    UInt32.toNat_ofNat_of_lt' (Nat.lt_of_le_of_lt hbody (by decide))
  have hencode : ∀ {header : Header} {wire : Bytes}, headerEncode header c.workspaceSize = .ok wire →
      wire = header.encoded := by
    intro header wire hwire
    unfold headerEncode at hwire
    split at hwire
    · cases hwire
    split at hwire
    · cases hwire
    · exact (Except.ok.inj hwire).symm
  obtain rfl := hencode hwire
  obtain rfl := hencode hwire'
  have hsealed := frameCrc32cCalculate_encoded hlen hbody (responseHeader c c.completion.suggestedStatus).crc32c
  rw [hcrc] at hsealed
  have hcrc' : ({ responseHeader c c.completion.suggestedStatus with crc32c := crc } : Header) =
      (responseHeader c c.completion.suggestedStatus).sealedWith c.payload := by
    rw [Except.ok.inj hsealed]
    rfl
  rw [hcrc']
  refine ⟨?_, drop_sealedFrame _ _, ?_, _, headerDecode_encode _ (by rw [← hlen] at hbody; exact hbody) _, ?_, rfl, rfl,
    rfl, hlen, rfl, rfl, rfl⟩
  · exact length_sealedFrame _ _
  · exact frameCrc32cVerify_sealed hlen hbody
  · exact hvalid

theorem responseFrame_answerable {client : Lease} (proper : Proper c a) (h : Answerable c a client) :
    ∃ frame, responseFrame c a = .ok (client, frame) := by
  obtain ⟨info, flow, hcurrent, hopen, hcapacity⟩ := h.current
  have hrequest := CompletionMetadata.valid_of_shape proper.completion
  have hfound : c.found.metadata.Valid := by
    obtain ⟨hroute, hinstance⟩ := h.sameRequest
    exact ⟨hroute ▸ hrequest.owner, hroute ▸ hrequest.generation, hroute ▸ hrequest.sequence,
      hinstance ▸ hrequest.instanceId, h.operation ▸ hrequest.operation⟩
  have hmake : CompletionMetadata.make c.completion.request c.completion.result c.completion.suggestedStatus =
      .ok c.completion := by
    rw [CompletionMetadata.make_eq, proper.completion]
    rfl
  have hsame : c.completion.request.sameRequest c.found.metadata = .ok true := by
    rw [TaskMetadata.sameRequest_eq hrequest hfound, decide_eq_true h.sameRequest]
  have hlen : (responseHeader c c.completion.suggestedStatus).bodyLen.toNat = c.payload.length :=
    UInt32.toNat_ofNat_of_lt' (Nat.lt_of_le_of_lt h.body (by decide))
  have hencode : ∀ crc, headerEncode { responseHeader c c.completion.suggestedStatus with crc32c := crc }
      c.workspaceSize = .ok ({ responseHeader c c.completion.suggestedStatus with crc32c := crc } : Header).encoded := by
    intro crc
    have hworkspace := proper.workspace
    have hbody := h.body
    unfold headerEncode
    rw [if_neg (by omega), if_neg]
    show ¬ (responseHeader c c.completion.suggestedStatus).bodyLen.toNat > maxBodySize
    omega
  have hsize : checkedSizeAdd headerSize c.payload.length = .ok (headerSize + c.payload.length) := by
    have hbody := h.body
    have hmax : headerSize + maxBodySize ≤ sizeMax := by decide
    exact checkedSizeAdd_of_le (by omega)
  refine ⟨sealedFrame (responseHeader c c.completion.suggestedStatus) c.payload, ?_⟩
  unfold responseFrame
  simp only [bind_eq_ok, require_eq_ok, refusing_eq_ok]
  exact ⟨(), proper.flags, (), proper.workspace, _, hmake, true, hsame, (), ⟨rfl, h.operation, h.deadline⟩, _,
    h.lease ▸ hcurrent, (), proper.server, (), h.running, (), openForResponse_iff.mpr hopen, _, hsize, (),
    ⟨h.body, h.frame, hcapacity⟩, (), proper.header, _, hencode 0, _, frameCrc32cCalculate_encoded hlen h.body 0, _,
    hencode _, by rw [h.lease]; rfl⟩

/-- **A refusal has put nothing in the queue**, and its report does not claim it. -/
theorem responseFrame_refuses (c : ResponseCall) (a : ResponseAnswers) :
    RefusesWith (fun e : Refusal => e.2.enqueued = false) (responseFrame c a) := by
  have hopen : ∀ info flow, RefusesWith (fun e : Refusal => e.2.enqueued = false)
      (openForResponse a.transport info flow) := by
    intro info flow
    unfold openForResponse
    split
    · refine .bind (.require rfl) fun _ => .bind (.require rfl) fun _ =>
        .bind (.require rfl) fun _ => .bind (.refusing fun _ => rfl) fun _ =>
        .bind (.refusing fun _ => rfl) fun _ => .bind (.refusing fun _ => rfl) fun _ =>
        .require rfl
    · exact .bind (.require rfl) fun _ => .require rfl
  unfold responseFrame
  refine .bind (.require rfl) fun _ => .bind (.require rfl) fun _ => ?_
  -- the completion and its match
  refine .bind (.refusing fun _ => rfl) fun _ => .bind (.refusing fun _ => rfl) fun _ => ?_
  refine .bind (.require rfl) fun _ => ?_
  -- the client, the server and the transport
  refine .bind (.refusing fun _ => rfl) fun _ => .bind (.refusing fun _ => rfl) fun _ => ?_
  refine .bind (.require rfl) fun _ => .bind (hopen _ _) fun _ => ?_
  -- the frame
  refine .bind (.refusing fun _ => rfl) fun _ => .bind (.require rfl) fun _ => ?_
  refine .bind (.refusing fun _ => rfl) fun _ => .bind (.refusing fun _ => rfl) fun _ => ?_
  exact .bind (.refusing fun _ => rfl) fun _ => .bind (.refusing fun _ => rfl) fun _ => .ok _

end Found

/-- **The delivery of a completion**, by either entry: at most one frame is put in the queue, that of the
    completion for the client of its request, and it is when everything is as it must be; the report claims it
    exactly when the queue has taken it. -/
theorem completion_response (c : ResponseCall) (a : ResponseAnswers) (enqueue : Lease → Bytes → Result)
    (refresh : Lease → Result) :
    ((responseCore c a enqueue refresh).events = [] ∨
      ∃ client frame, Answerable c a client ∧ FrameOf c frame ∧
        ((enqueue client frame ≠ .ok ∧
          (responseCore c a enqueue refresh).events = [.enqueue client frame (enqueue client frame)]) ∨
        (enqueue client frame = .ok ∧
          (responseCore c a enqueue refresh).events = [.enqueue client frame .ok, .refresh client (refresh client)]))) ∧
      ((¬∃ client, Answerable c a client) → (responseCore c a enqueue refresh).events = []) ∧
      (Proper c a → ∀ client, Answerable c a client → ∃ frame, FrameOf c frame ∧
        .enqueue client frame (enqueue client frame) ∈ (responseCore c a enqueue refresh).events) ∧
      ((responseCore c a enqueue refresh).report.enqueued = true ↔
        ∃ client frame, .enqueue client frame .ok ∈ (responseCore c a enqueue refresh).events) := by
  unfold responseCore
  cases hframe : responseFrame c a with
  | error e =>
    have henqueued := responseFrame_refuses c a e hframe
    refine ⟨.inl rfl, fun _ => rfl, fun proper client h => ?_, ?_⟩
    · obtain ⟨frame, hok⟩ := responseFrame_answerable proper h
      rw [hframe] at hok
      cases hok
    · dsimp only
      rw [henqueued]
      simp
  | ok x =>
    obtain ⟨client, frame⟩ := x
    obtain ⟨hanswerable, hcontent⟩ := responseFrame_ok hframe
    have hclient : ∀ client', Answerable c a client' → client' = client := fun client' h => h.lease.trans hanswerable.lease.symm
    dsimp only
    by_cases hr : enqueue client frame = .ok
    · rw [if_neg (not_not.mpr hr)]
      refine ⟨.inr ⟨client, frame, hanswerable, hcontent, .inr ⟨hr, ?_⟩⟩, fun h => absurd ⟨client, hanswerable⟩ h,
        fun _ client' h => ⟨frame, hcontent, ?_⟩, fun _ => ⟨client, frame, ?_⟩, fun _ => rfl⟩
      · rw [hr]
      · rw [hclient client' h]
        exact List.mem_cons_self ..
      · rw [hr]
        exact List.mem_cons_self ..
    · rw [if_pos hr]
      refine ⟨.inr ⟨client, frame, hanswerable, hcontent, .inl ⟨hr, rfl⟩⟩,
        fun h => absurd ⟨client, hanswerable⟩ h, fun _ client' h => ⟨frame, hcontent, ?_⟩, fun h => (by cases h), ?_⟩
      · rw [hclient client' h]
        exact List.mem_singleton.mpr rfl
      · rintro ⟨client', frame', hmem⟩
        rw [List.mem_singleton] at hmem
        exact absurd (ResponseEvent.enqueue.inj hmem).2.2.symm hr

/-- A login that is answered with three bytes. -/
def answeredLogin : ResponseCall where
  completion := ⟨⟨⟨1, 0, 1, 7⟩, 1, 1, 0⟩, .ok, 0⟩
  payload := [1, 2, 3]
  found := ⟨⟨⟨1, 0, 1, 7⟩, 1, 1, 0⟩, .open⟩
  descriptor := ⟨commandLogin, 0, 0, 0⟩
  maxFrame := 64
  workspaceSize := 64

/-- Its client is the only one. -/
def onlyClient : ResponseAnswers where
  clients := ((ClientTable.opened (.fresh (.fresh ⟨8, 8, 1, 8, 8⟩ 168 65224 24 1 0) ⟨1, 65536, 128⟩)).admitClients 0 64 64
    .ok false).2.2
  flow _ := ⟨false, true⟩
  server := .ok ()
  transport := none

theorem completion_response_one : ∃ frame, FrameOf answeredLogin frame ∧
    .enqueue ⟨1, 0, 1⟩ frame .ok ∈ (responseCore answeredLogin onlyClient (fun _ _ => .ok) fun _ => .ok).events := by
  have proper : Proper answeredLogin onlyClient := ⟨by decide, by decide, by decide, rfl, by decide⟩
  have answerable : Answerable answeredLogin onlyClient ⟨1, 0, 1⟩ :=
    ⟨by decide, rfl, rfl, rfl, ⟨_, _, rfl, ⟨rfl, rfl, rfl⟩, by decide⟩, rfl, by decide, by decide⟩
  exact (completion_response answeredLogin onlyClient (fun _ _ => .ok) fun _ => .ok).2.2.1 proper _ answerable

end Vireo.Net
