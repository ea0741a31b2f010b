/-
  File:      Vireo/Net/ConnectionRun.lean
  Subject:   WHAT EACH CALL DOES TO A CONNECTION, and the runs of calls.
-/
import Vireo.Net.Connection

namespace Vireo.Net

open Base Protocol List
open Connection (closeSync detach finish flowApply flowConfigure flowDisable flowRefresh forgetDestroyedLoop loopFinish receive send setInterests writeEnqueue)

/-! ## 1. The bytes of a call -/

/-- `s` came in: it was taken from the stream and put behind the unread bytes, and nothing else
    changed but the mark of the end. -/
structure Receives (c : Connection) (s : Bytes) (c' : Connection) : Prop where
  inv : c'.readBuffer.Inv
  unread : c'.readBuffer.unread = c.readBuffer.unread ++ s
  capacity : c'.readBuffer.capacity = c.readBuffer.capacity
  socket : c'.ownedFd =
    { c.ownedFd with recvCalls := c'.ownedFd.recvCalls, delivered := c.ownedFd.delivered ++ s }
  rest : c' = { c with ownedFd := c'.ownedFd, readBuffer := c'.readBuffer, readEof := c'.readEof }
  eof : c.readEof = true → c'.readEof = true ∧ s = []

/-- `s` went out: it was taken from the front of the queue and accepted, and nothing else changed. -/
structure Sends (c : Connection) (s : Bytes) (c' : Connection) : Prop where
  inv : c'.writeBuffer.Inv
  unread : c.writeBuffer.unread = s ++ c'.writeBuffer.unread
  capacity : c'.writeBuffer.capacity = c.writeBuffer.capacity
  socket : c'.ownedFd =
    { c.ownedFd with sendCalls := c'.ownedFd.sendCalls, accepted := c.ownedFd.accepted ++ s }
  rest : c' = { c with ownedFd := c'.ownedFd, writeBuffer := c'.writeBuffer }

/-- `s` was put behind the queue, all of it, and nothing else changed. -/
structure Enqueues (c : Connection) (s : Bytes) (c' : Connection) : Prop where
  inv : c'.writeBuffer.Inv
  unread : c'.writeBuffer.unread = c.writeBuffer.unread ++ s
  capacity : c'.writeBuffer.capacity = c.writeBuffer.capacity
  rest : c' = { c with writeBuffer := c'.writeBuffer }

variable {c : Connection}

theorem Receives.none (inv : c.readBuffer.Inv) : Receives c [] c :=
  ⟨inv, (List.append_nil _).symm, rfl, by rw [List.append_nil], rfl, fun h => ⟨h, rfl⟩⟩

theorem Sends.none (inv : c.writeBuffer.Inv) : Sends c [] c :=
  ⟨inv, rfl, rfl, by rw [List.append_nil], rfl⟩

variable {c' c'' : Connection} {s : Bytes}

theorem Receives.trans {t : Bytes} (h : Receives c s c') (h' : Receives c' t c'') :
    Receives c (s ++ t) c'' where
  inv := h'.inv
  unread := by rw [h'.unread, h.unread, append_assoc]
  capacity := h'.capacity.trans h.capacity
  socket := by
    rw [h'.socket, h.socket, append_assoc]
  rest := by
    rw [h'.rest, h.rest]
  eof := fun heof => by
    obtain ⟨heof', hs⟩ := h.eof heof
    obtain ⟨heof'', ht⟩ := h'.eof heof'
    rw [hs, ht]
    exact ⟨heof'', rfl⟩

theorem Sends.trans {t : Bytes} (h : Sends c s c') (h' : Sends c' t c'') : Sends c (s ++ t) c'' where
  inv := h'.inv
  unread := by rw [h.unread, h'.unread, append_assoc]
  capacity := h'.capacity.trans h.capacity
  socket := by
    rw [h'.socket, h.socket, append_assoc]
  rest := by
    rw [h'.rest, h.rest]

theorem toNat_ofNat {n : Nat} (h : n ≤ 67108864) : (UInt64.ofNat n).toNat = n := by
  rw [UInt64.toNat_ofNat', Nat.mod_eq_of_lt (by omega)]

section Socket

variable {s : Socket} {request : Nat} {bytes : Bytes}

theorem Socket.recv_bytes (h : 1 ≤ (s.recv request).1.value ∧ (s.recv request).1.value ≤ request) :
    (s.recv request).2 = { s with
      recvCalls := s.recvCalls + 1
      delivered := s.delivered ++
        bytesAt (some (s.recv request).1.memory) (UInt64.ofNat (s.recv request).1.value.toNat) } := by
  unfold Socket.recv at h ⊢
  dsimp only at h ⊢
  rw [if_pos h]

theorem Socket.recv_nothing (h : ¬ (1 ≤ (s.recv request).1.value ∧ (s.recv request).1.value ≤ request)) :
    (s.recv request).2 = { s with recvCalls := s.recvCalls + 1, delivered := s.delivered ++ [] } := by
  unfold Socket.recv at h ⊢
  dsimp only at h ⊢
  rw [if_neg h]

theorem Socket.send_bytes (h : 1 ≤ (s.send bytes).1.value ∧ (s.send bytes).1.value ≤ bytes.length) :
    (s.send bytes).2 = { s with
      sendCalls := s.sendCalls + 1
      accepted := s.accepted ++ bytes.take (s.send bytes).1.value.toNat } := by
  unfold Socket.send at h ⊢
  dsimp only at h ⊢
  rw [if_pos h]

theorem Socket.send_nothing (h : ¬ (1 ≤ (s.send bytes).1.value ∧ (s.send bytes).1.value ≤ bytes.length)) :
    (s.send bytes).2 = { s with sendCalls := s.sendCalls + 1, accepted := s.accepted ++ [] } := by
  unfold Socket.send at h ⊢
  dsimp only at h ⊢
  rw [if_neg h]

end Socket

/-! ## 2. Receiving -/

variable {request : Nat}

theorem receives_append (inv : c.readBuffer.Inv) (heof : c.readEof = false)
    (hroom : request ≤ c.readBuffer.room)
    (hvalue : 1 ≤ (c.ownedFd.recv request).1.value ∧ (c.ownedFd.recv request).1.value ≤ request) :
    let r := (c.ownedFd.recv request).1
    let appended := c.readBuffer.append (some r.memory) (UInt64.ofNat r.value.toNat)
    appended.1 = .ok ∧ appended.2.room = c.readBuffer.room - r.value.toNat ∧
      Receives c (bytesAt (some r.memory) (UInt64.ofNat r.value.toNat))
        { c with ownedFd := (c.ownedFd.recv request).2, readBuffer := appended.2 } := by
  dsimp only
  generalize hn : (c.ownedFd.recv request).1.value.toNat = n
  obtain ⟨-, -, hcap⟩ := inv.bounds
  have hsize : (UInt64.ofNat n).toNat = n :=
    toNat_ofNat (by unfold Buffer.room at hroom; omega)
  obtain ⟨hok, hcapacity, hleft⟩ := append_fits inv (some (c.ownedFd.recv request).1.memory) (UInt64.ofNat n)
    (by simp) (by omega)
  rw [hsize] at hleft
  refine ⟨hok, hleft, ?_⟩
  rcases leaves_append inv (some (c.ownedFd.recv request).1.memory) (UInt64.ofNat n) with hfail | hdone
  · exact absurd hok hfail.1
  · obtain ⟨-, hinv, hunread⟩ := hdone
    have hsocket := Socket.recv_bytes hvalue
    rw [hn] at hsocket
    refine ⟨hinv, hunread, hcapacity, ?_, rfl, fun h => by rw [heof] at h; cases h⟩
    rw [hsocket]

theorem receives_nothing (inv : c.readBuffer.Inv)
    (hvalue : ¬ (1 ≤ (c.ownedFd.recv request).1.value ∧ (c.ownedFd.recv request).1.value ≤ request)) :
    Receives c [] { c with ownedFd := (c.ownedFd.recv request).2 } := by
  refine ⟨inv, (List.append_nil _).symm, rfl, ?_, rfl, fun h => ⟨h, rfl⟩⟩
  rw [Socket.recv_nothing hvalue]

theorem Receives.setEof (h : Receives c [] c') : Receives c [] { c' with readEof := true } :=
  { h with rest := by rw [h.rest], eof := fun _ => ⟨rfl, rfl⟩ }

/-- **The loop of a receive takes bytes from the stream and keeps them all.** -/
theorem receives_loop (budget : ReceiveBudget) {left : Nat} {info : ReceiveInfo}
    (inv : c.readBuffer.Inv) (heof : c.readEof = false)
    (hsmall : info.receivedBytes + c.readBuffer.room ≤ 67108864) :
    ∃ s, Receives c s (receiveLoop budget left info c.readBuffer.room c).connection := by
  induction left generalizing info c with
  | zero =>
    unfold receiveLoop
    refine ⟨[], ?_⟩
    split
    · exact .none inv
    · split <;> exact .none inv
  | succ left ih =>
    unfold receiveLoop
    split
    · exact ⟨[], .none inv⟩
    split
    · exact ⟨[], .none inv⟩
    dsimp only
    have hroom : min (min (budget.maxBytes - info.receivedBytes) c.readBuffer.room) scratchSize ≤
        c.readBuffer.room := by omega
    generalize min (min (budget.maxBytes - info.receivedBytes) c.readBuffer.room) scratchSize = request
      at hroom ⊢
    split
    · exact ⟨[], receives_nothing inv (by omega)⟩
    rename_i hrange
    split
    · split <;> exact ⟨[], receives_nothing inv (by omega)⟩
    split
    · exact ⟨[], (receives_nothing inv (by omega)).setEof⟩
    obtain ⟨hok, hleft, hrec⟩ := receives_append inv heof hroom (by omega)
    rw [checkedSizeAdd_of_le (by rw [sizeMax]; omega)]
    dsimp only
    rw [if_neg (by simp [hok]), ← hleft]
    obtain ⟨t, ht⟩ := @ih _ { info with
        receivedBytes := info.receivedBytes + (c.ownedFd.recv request).1.value.toNat
        recvCalls := info.recvCalls + 1 }
      hrec.inv heof (by
        dsimp only
        rw [hleft]
        omega)
    exact ⟨_, hrec.trans ht⟩

/-- **A receive keeps all bytes it takes**, whatever it returns; it succeeds only while the connection is
    open. -/
theorem receives_receive (inv : c.readBuffer.Inv) (budget : ReceiveBudget) :
    (∃ s, Receives c s (c.receive budget).connection) ∧
      ((c.receive budget).result = .ok → c.closeState = .open) := by
  obtain ⟨hcok, hccap, -⟩ := compact_fits inv
  unfold receive
  split
  · exact ⟨⟨[], .none inv⟩, by simp [finish]⟩
  split
  · exact ⟨⟨[], .none inv⟩, by simp [finish]⟩
  rename_i hopen
  refine ⟨?_, fun _ => not_not.mp hopen⟩
  rw [if_neg (by simp [hcok])]
  rcases leaves_compact inv with hfail | hdone
  · exact absurd hcok hfail.1
  · obtain ⟨-, hinv, hunread⟩ := hdone
    have hmoved : Receives c [] { c with readBuffer := c.readBuffer.compact.2 } :=
      ⟨hinv, by rw [List.append_nil]; exact hunread, hccap, by rw [List.append_nil], rfl, fun h => ⟨h, rfl⟩⟩
    split
    · exact ⟨[], hmoved⟩
    rename_i heof
    have hcap := hinv.bounds.2.2
    have htail := (inspect_eq hinv).2
    obtain ⟨s, hs⟩ := @receives_loop { c with readBuffer := c.readBuffer.compact.2 } budget
      budget.maxSyscalls ⟨0, 0, .error⟩ hinv (by simpa using heof)
      (by dsimp only; unfold Buffer.room; omega)
    rw [htail]
    exact ⟨[] ++ s, hmoved.trans hs⟩

/-! ## 3. Sending -/

theorem sends_consume (inv : c.writeBuffer.Inv) (hle : request ≤ c.writeBuffer.unread.length)
    (hvalue : 1 ≤ (c.ownedFd.send (c.writeBuffer.unread.take request)).1.value ∧
      (c.ownedFd.send (c.writeBuffer.unread.take request)).1.value ≤ request) :
    let sent := (c.ownedFd.send (c.writeBuffer.unread.take request)).1.value.toNat
    let consumed := c.writeBuffer.consume (UInt64.ofNat sent)
    consumed.1 = .ok ∧ Sends c (c.writeBuffer.unread.take sent) { c with
        ownedFd := (c.ownedFd.send (c.writeBuffer.unread.take request)).2, writeBuffer := consumed.2 } := by
  have hlen : (c.writeBuffer.unread.take request).length = request := length_take_of_le hle
  have hsocket := Socket.send_bytes (by rw [hlen]; exact hvalue)
  generalize (c.ownedFd.send (c.writeBuffer.unread.take request)).1.value = v at hvalue hsocket ⊢
  have hcap := length_unread_le inv
  have hmax := inv.bounds.2.2
  have hsize : (UInt64.ofNat v.toNat).toNat = v.toNat := toNat_ofNat (by omega)
  have hok := consume_fits inv (UInt64.ofNat v.toNat) (by omega)
  refine ⟨hok, ?_⟩
  rcases leaves_consume inv (UInt64.ofNat v.toNat) with hfail | hdone
  · exact absurd hok hfail.1
  · obtain ⟨-, hinv, hunread⟩ := hdone
    rw [hsize] at hunread
    refine ⟨hinv, ?_, capacity_consume _, ?_, rfl⟩
    · rw [hunread, take_append_drop]
    · dsimp only
      rw [hsocket, take_take, Nat.min_eq_left (by omega)]

theorem sends_nothing (inv : c.writeBuffer.Inv) (hle : request ≤ c.writeBuffer.unread.length)
    (hvalue : ¬ (1 ≤ (c.ownedFd.send (c.writeBuffer.unread.take request)).1.value ∧
      (c.ownedFd.send (c.writeBuffer.unread.take request)).1.value ≤ request)) :
    Sends c [] { c with ownedFd := (c.ownedFd.send (c.writeBuffer.unread.take request)).2 } := by
  have hlen : (c.writeBuffer.unread.take request).length = request := length_take_of_le hle
  refine ⟨inv, rfl, rfl, ?_, rfl⟩
  rw [Socket.send_nothing (by rw [hlen]; exact hvalue)]

/-- **The loop of a send takes bytes from the queue as they are accepted.** -/
theorem sends_loop (budget : SendBudget) {left : Nat} {info : SendInfo}
    (inv : c.writeBuffer.Inv) (hsmall : info.sentBytes + c.writeBuffer.unread.length ≤ 67108864) :
    ∃ s, Sends c s (sendLoop budget left info c).connection := by
  induction left generalizing info c with
  | zero =>
    unfold sendLoop
    refine ⟨[], ?_⟩
    dsimp only
    split
    · exact .none inv
    · split <;> exact .none inv
  | succ left ih =>
    obtain ⟨hpeek, hpending⟩ := peek_unread inv
    unfold sendLoop
    dsimp only
    split
    · exact ⟨[], .none inv⟩
    split
    · exact ⟨[], .none inv⟩
    rw [hpeek, hpending]
    have hle : min (min (budget.maxBytes - info.sentBytes) c.writeBuffer.unread.length) scratchSize ≤
        c.writeBuffer.unread.length := by omega
    generalize min (min (budget.maxBytes - info.sentBytes) c.writeBuffer.unread.length) scratchSize =
      request at hle ⊢
    split
    · exact ⟨[], sends_nothing inv hle (by omega)⟩
    split
    · split <;> exact ⟨[], sends_nothing inv hle (by omega)⟩
    obtain ⟨hok, hsends⟩ := sends_consume inv hle (by omega)
    have hless := congrArg List.length hsends.unread
    rw [length_append, length_take] at hless
    rw [checkedSizeAdd_of_le (by rw [sizeMax]; omega)]
    dsimp only at hless ⊢
    rw [if_neg (by simp [hok])]
    obtain ⟨t, ht⟩ := @ih _ { info with
        sentBytes := info.sentBytes + (c.ownedFd.send (c.writeBuffer.unread.take request)).1.value.toNat
        sendCalls := info.sendCalls + 1 }
      hsends.inv (by dsimp only; omega)
    exact ⟨_, hsends.trans ht⟩

/-- **A send takes bytes from the queue as they are accepted**; on a connection that is ready to be closed it
    does nothing. -/
theorem sends_send (inv : c.writeBuffer.Inv) (budget : SendBudget) :
    (∃ s, Sends c s (c.send budget).connection) ∧
      (c.closeState = .ready → (c.send budget).result ≠ .ok ∧ (c.send budget).connection = c) := by
  unfold send
  split
  · exact ⟨⟨[], .none inv⟩, fun _ => ⟨by simp [finish], rfl⟩⟩
  split
  · exact ⟨⟨[], .none inv⟩, fun _ => ⟨by simp [finish], rfl⟩⟩
  rename_i hready
  have hle := length_unread_le inv
  have hmax := inv.bounds.2.2
  exact ⟨sends_loop budget inv (by dsimp only; omega), fun h => absurd h hready⟩

/-- **An enqueue takes all of its bytes or none**, and only while the connection is open. -/
theorem enqueues_writeEnqueue (inv : c.writeBuffer.Inv) (bytes : Option (Nat → UInt8)) (size : Nat) :
    ((c.writeEnqueue bytes size).result ≠ .ok ∧ (c.writeEnqueue bytes size).connection = c) ∨
      ((c.writeEnqueue bytes size).result = .ok ∧ c.closeState = .open ∧
        Enqueues c (bytesAt bytes (UInt64.ofNat size)) (c.writeEnqueue bytes size).connection ∧
        (bytesAt bytes (UInt64.ofNat size)).length = size) := by
  obtain ⟨hreadable, htail⟩ := inspect_eq inv
  have hcapacity : c.writeBuffer.inspect.capacity = c.writeBuffer.capacity := rfl
  have hmax := inv.bounds.2.2
  obtain ⟨hcok, hccap, hcroom⟩ := compact_fits inv
  unfold writeEnqueue
  split
  · exact .inl ⟨by simp [finish], rfl⟩
  rename_i hnull
  dsimp only
  split
  · rename_i e he
    exact .inl ⟨by simp [finish, checkedSizeAdd_ne_ok he], rfl⟩
  · rename_i pending hadd
    have hpending := checkedSizeAdd_ok hadd
    split
    · exact .inl ⟨by simp [finish], rfl⟩
    rename_i hsize
    split
    · exact .inl ⟨by simp [finish], rfl⟩
    rename_i hfull
    split
    · exact .inl ⟨by simp [finish], rfl⟩
    rename_i hopen
    rw [hcapacity] at hsize hfull
    have hnat : (UInt64.ofNat size).toNat = size := toNat_ofNat (by omega)
    have hnull' : ¬ (UInt64.ofNat size ≠ 0 ∧ bytes.isNone) := by
      intro ⟨hne, hnone⟩
      refine hnull ⟨fun hz => hne ?_, hnone⟩
      rw [hz]
      rfl
    -- the buffer that is appended to, compacted if need be
    have hmoved : ∃ b : Buffer, (if size > c.writeBuffer.inspect.tailSpace.toNat then
          c.writeBuffer.compact else (.ok, c.writeBuffer)) = (.ok, b) ∧ b.Inv ∧
        b.unread = c.writeBuffer.unread ∧ b.capacity = c.writeBuffer.capacity ∧ size ≤ b.room := by
      split
      · refine ⟨c.writeBuffer.compact.2, rfl, ?_⟩
        rcases leaves_compact inv with hfail | hdone
        · exact absurd hcok hfail.1
        · exact ⟨hdone.2.1, hdone.2.2, hccap, by omega⟩
      · exact ⟨c.writeBuffer, rfl, inv, rfl, rfl, by omega⟩
    obtain ⟨b, heq, hinv, hunread, hcap, hroom⟩ := hmoved
    rw [heq]
    obtain ⟨hok, hcap', -⟩ := append_fits hinv bytes (UInt64.ofNat size) hnull' (by rw [hnat]; exact hroom)
    rw [if_neg (by simp), if_neg (by simp [hok])]
    refine .inr ⟨rfl, not_not.mp hopen, ?_, by rw [length_bytesAt hnull', hnat]⟩
    rcases leaves_append hinv bytes (UInt64.ofNat size) with hfail | hdone
    · exact absurd hok hfail.1
    · obtain ⟨-, hinv', hunread'⟩ := hdone
      rw [hunread] at hunread'
      exact ⟨hinv', hunread', hcap'.trans hcap, rfl⟩

/-! ## 4. The loop side -/

/-- No byte moved. -/
structure SameBytes (c c' : Connection) : Prop where
  socket : c'.ownedFd = c.ownedFd
  readBuffer : c'.readBuffer = c.readBuffer
  writeBuffer : c'.writeBuffer = c.writeBuffer
  readEof : c'.readEof = c.readEof

/-- Nothing changed about the end of the connection. -/
structure SameClose (c c' : Connection) : Prop where
  closeState : c'.closeState = c.closeState
  closeMode : c'.closeMode = c.closeMode
  closeReason : c'.closeReason = c.closeReason

section Loop

variable (c : Connection)

theorem SameBytes.refl : SameBytes c c := ⟨rfl, rfl, rfl, rfl⟩

theorem SameClose.refl : SameClose c c := ⟨rfl, rfl, rfl⟩

theorem connection_loopFinish (reply : LoopReply) (stage : LoopStage) :
    (c.loopFinish reply stage).connection = c := by
  unfold loopFinish
  split <;> rfl

theorem result_loopFinish (reply : LoopReply) (stage : LoopStage) :
    (c.loopFinish reply stage).result = reply.result := by
  unfold loopFinish
  split
  · rfl
  · rename_i hok
    exact (not_not.mp hok).symm

theorem same_attach (interests : UInt32) (add : LoopReply) :
    SameBytes c (c.attach interests add).connection ∧ SameClose c (c.attach interests add).connection := by
  unfold Connection.attach
  split
  · exact ⟨.refl c, .refl c⟩
  split
  · exact ⟨.refl c, .refl c⟩
  rw [connection_loopFinish]
  split <;> exact ⟨⟨rfl, rfl, rfl, rfl⟩, ⟨rfl, rfl, rfl⟩⟩

theorem same_setInterests (interests : UInt32) (mod : LoopReply) :
    SameBytes c (c.setInterests interests mod).connection ∧
      SameClose c (c.setInterests interests mod).connection := by
  unfold setInterests
  split
  · exact ⟨.refl c, .refl c⟩
  split
  · exact ⟨.refl c, .refl c⟩
  split
  · exact ⟨.refl c, .refl c⟩
  split
  · exact ⟨.refl c, .refl c⟩
  rw [connection_loopFinish]
  split <;> exact ⟨⟨rfl, rfl, rfl, rfl⟩, ⟨rfl, rfl, rfl⟩⟩

theorem same_detach (del : LoopReply) :
    SameBytes c (c.detach del).connection ∧ SameClose c (c.detach del).connection := by
  unfold detach
  split
  · exact ⟨.refl c, .refl c⟩
  rw [connection_loopFinish]
  split <;> exact ⟨⟨rfl, rfl, rfl, rfl⟩, ⟨rfl, rfl, rfl⟩⟩

theorem same_forgetDestroyedLoop :
    SameBytes c c.forgetDestroyedLoop.connection ∧ SameClose c c.forgetDestroyedLoop.connection := by
  unfold forgetDestroyedLoop
  split <;> exact ⟨⟨rfl, rfl, rfl, rfl⟩, ⟨rfl, rfl, rfl⟩⟩

theorem same_flowApply (options : FlowOptions) (reset : Bool) (stage : LoopStage) (mod : LoopReply) :
    SameBytes c (c.flowApply options reset stage mod).connection ∧
      SameClose c (c.flowApply options reset stage mod).connection := by
  rw [flowApply]
  split
  · rw [connection_loopFinish]
    exact ⟨.refl c, .refl c⟩
  · exact ⟨⟨rfl, rfl, rfl, rfl⟩, ⟨rfl, rfl, rfl⟩⟩

theorem same_flowConfigure (options : FlowOptions) (mod : LoopReply) :
    SameBytes c (c.flowConfigure options mod).connection ∧
      SameClose c (c.flowConfigure options mod).connection := by
  unfold flowConfigure
  split
  · exact ⟨.refl c, .refl c⟩
  split
  · exact ⟨.refl c, .refl c⟩
  split
  · exact ⟨.refl c, .refl c⟩
  · exact same_flowApply c ..

theorem same_flowRefresh (mod : LoopReply) :
    SameBytes c (c.flowRefresh mod).connection ∧ SameClose c (c.flowRefresh mod).connection := by
  unfold flowRefresh
  split
  · exact ⟨.refl c, .refl c⟩
  split
  · exact ⟨.refl c, .refl c⟩
  · exact same_flowApply c ..

theorem same_flowDisable :
    SameBytes c c.flowDisable.connection ∧ SameClose c c.flowDisable.connection := by
  unfold flowDisable
  split <;> exact ⟨⟨rfl, rfl, rfl, rfl⟩, ⟨rfl, rfl, rfl⟩⟩

theorem connection_closeSync (stage : LoopStage) (mod : LoopReply) :
    ∃ interests, (c.closeSync stage mod).connection = { c with
      closeState := if c.draining then .draining else .ready
      loopInterests := interests } := by
  unfold closeSync
  by_cases hchanged : c.loopAttached = true ∧ (if c.draining then interestWrite else 0) ≠ c.loopInterests
  · rw [if_pos hchanged]
    by_cases hmod : mod.result ≠ .ok
    · rw [if_pos hmod, connection_loopFinish]
      exact ⟨_, rfl⟩
    · rw [if_neg hmod]
      exact ⟨_, rfl⟩
  · rw [if_neg hchanged]
    exact ⟨_, rfl⟩

theorem same_closeSync (stage : LoopStage) (mod : LoopReply) :
    SameBytes c (c.closeSync stage mod).connection := by
  obtain ⟨interests, heq⟩ := connection_closeSync c stage mod
  rw [heq]
  exact ⟨rfl, rfl, rfl, rfl⟩

end Loop

/-! ## 5. Runs -/

/-- The calls on a connection. -/
inductive ConnectionCall where
  | receive (budget : ReceiveBudget)
  | readConsume (size : Nat)
  | writeEnqueue (bytes : Option (Nat → UInt8)) (size : Nat)
  | send (budget : SendBudget)
  | attach (interests : UInt32) (add : LoopReply)
  | setInterests (interests : UInt32) (mod : LoopReply)
  | detach (del : LoopReply)
  | forgetDestroyedLoop
  | dispatchBegin
  | dispatchEnd
  | flowConfigure (options : FlowOptions) (mod : LoopReply)
  | flowRefresh (mod : LoopReply)
  | flowDisable
  | requestClose (mode : CloseMode) (reason : CloseReason) (mod : LoopReply)
  | closeRefresh (mod : LoopReply)

/-- What a call returns, and the connection after it. -/
def Connection.exec (c : Connection) : ConnectionCall → Result × Connection
  | .receive budget => let o := c.receive budget; (o.result, o.connection)
  | .readConsume size => c.readConsume size
  | .writeEnqueue bytes size => let o := c.writeEnqueue bytes size; (o.result, o.connection)
  | .send budget => let o := c.send budget; (o.result, o.connection)
  | .attach interests add => let o := c.attach interests add; (o.result, o.connection)
  | .setInterests interests mod => let o := c.setInterests interests mod; (o.result, o.connection)
  | .detach del => let o := c.detach del; (o.result, o.connection)
  | .forgetDestroyedLoop => let o := c.forgetDestroyedLoop; (o.result, o.connection)
  | .dispatchBegin => (.ok, c.dispatchBegin)
  | .dispatchEnd => (.ok, c.dispatchEnd)
  | .flowConfigure options mod => let o := c.flowConfigure options mod; (o.result, o.connection)
  | .flowRefresh mod => let o := c.flowRefresh mod; (o.result, o.connection)
  | .flowDisable => let o := c.flowDisable; (o.result, o.connection)
  | .requestClose mode reason mod => let o := c.requestClose mode reason mod; (o.result, o.connection)
  | .closeRefresh mod => let o := c.closeRefresh mod; (o.result, o.connection)

/-- A connection as it is created over a socket through which nothing has gone, its buffers from
    `vireo_buffer_create`. -/
def Created (c : Connection) : Prop :=
  ∃ options socket fd control objectRead storageRead objectWrite storageWrite,
    socket.delivered = [] ∧ socket.accepted = [] ∧
    create options socket fd control (Buffer.create · objectRead storageRead)
      (Buffer.create · objectWrite storageWrite) = .ok c

/-- The connections that calls lead to, from `c` on. -/
inductive Reach (c : Connection) : List ConnectionCall → Connection → Prop
  | start : Reach c [] c
  | call {calls : List ConnectionCall} {c' : Connection} (run : Reach c calls c') (k : ConnectionCall) :
      Reach c (calls ++ [k]) (c'.exec k).2

/-- The buffers of a connection are in order. -/
structure Connection.Sound (c : Connection) : Prop where
  readBuffer : c.readBuffer.Inv
  writeBuffer : c.writeBuffer.Inv

theorem SameBytes.sound (h : SameBytes c c') (sound : c.Sound) : c'.Sound :=
  ⟨by rw [h.readBuffer]; exact sound.readBuffer, by rw [h.writeBuffer]; exact sound.writeBuffer⟩

theorem Receives.writeBuffer (h : Receives c s c') : c'.writeBuffer = c.writeBuffer := by
  rw [h.rest]

theorem Sends.readBuffer (h : Sends c s c') : c'.readBuffer = c.readBuffer := by
  rw [h.rest]

theorem Enqueues.readBuffer (h : Enqueues c s c') : c'.readBuffer = c.readBuffer := by
  rw [h.rest]

theorem readConsume_cases (inv : c.readBuffer.Inv) (size : Nat) :
    ∃ n, (c.readConsume size).2.readBuffer.Inv ∧
      (c.readConsume size).2.readBuffer.unread = c.readBuffer.unread.drop n ∧
      (c.readConsume size).2 = { c with readBuffer := (c.readConsume size).2.readBuffer } ∧
      (size ≤ c.readBuffer.unread.length → n = size) := by
  have hle := length_unread_le inv
  have hmax := inv.bounds.2.2
  rcases leaves_consume inv (UInt64.ofNat size) with hfail | hdone
  · refine ⟨0, ?_, ?_, rfl, fun hfit => ?_⟩
    · show (c.readBuffer.consume _).2.Inv
      rw [hfail.2]
      exact inv
    · show (c.readBuffer.consume _).2.unread = _
      rw [hfail.2]
      rfl
    · have hok := consume_fits inv (UInt64.ofNat size) (by rw [toNat_ofNat (by omega)]; exact hfit)
      exact absurd hok hfail.1
  · exact ⟨_, hdone.2.1, hdone.2.2, rfl, fun hfit => toNat_ofNat (by omega)⟩

theorem same_closeIntent (c : Connection) (mode : CloseMode) (reason : CloseReason) :
    SameBytes c (c.closeIntent mode reason) := by
  rw [Connection.closeIntent]
  split <;> split <;> exact ⟨rfl, rfl, rfl, rfl⟩

theorem SameBytes.trans (h : SameBytes c c') (h' : SameBytes c' c'') : SameBytes c c'' :=
  ⟨h'.socket.trans h.socket, h'.readBuffer.trans h.readBuffer, h'.writeBuffer.trans h.writeBuffer,
    h'.readEof.trans h.readEof⟩

theorem same_requestClose (c : Connection) (mode : CloseMode) (reason : CloseReason) (mod : LoopReply) :
    SameBytes c (c.requestClose mode reason mod).connection := by
  unfold Connection.requestClose
  split
  · exact .refl c
  split
  · exact .refl c
  · exact (same_closeIntent c mode reason).trans (same_closeSync _ ..)

theorem same_closeRefresh (c : Connection) (mod : LoopReply) :
    SameBytes c (c.closeRefresh mod).connection := by
  unfold Connection.closeRefresh
  split
  · exact .refl c
  · exact same_closeSync c ..

/-- What a call does to the bytes of a connection. -/
inductive MovesBytes (c : Connection) : ConnectionCall → Prop
  | receive {budget : ReceiveBudget} {s : Bytes} (h : Receives c s (c.receive budget).connection) :
      MovesBytes c (.receive budget)
  | consume (size : Nat) : MovesBytes c (.readConsume size)
  | enqueue {bytes : Option (Nat → UInt8)} {size : Nat} (hok : (c.writeEnqueue bytes size).result = .ok)
      (h : Enqueues c (bytesAt bytes (UInt64.ofNat size)) (c.writeEnqueue bytes size).connection) :
      MovesBytes c (.writeEnqueue bytes size)
  | send {budget : SendBudget} {s : Bytes} (h : Sends c s (c.send budget).connection) : MovesBytes c (.send budget)
  | same {k : ConnectionCall} (h : SameBytes c (c.exec k).2)
      (failed : ∀ bytes size, k = .writeEnqueue bytes size → (c.writeEnqueue bytes size).result ≠ .ok) :
      MovesBytes c k

theorem movesBytes_exec (sound : c.Sound) (k : ConnectionCall) : MovesBytes c k := by
  have other (h : SameBytes c (c.exec k).2) (hk : ∀ bytes size, k ≠ .writeEnqueue bytes size) : MovesBytes c k :=
    .same h fun bytes size heq => absurd heq (hk bytes size)
  cases k with
  | receive budget =>
    obtain ⟨s, hs⟩ := (receives_receive sound.readBuffer budget).1
    exact .receive hs
  | readConsume size => exact .consume size
  | writeEnqueue bytes size =>
    rcases enqueues_writeEnqueue sound.writeBuffer bytes size with hfail | hdone
    · refine .same ?_ fun bytes' size' heq => ?_
      · show SameBytes c (c.writeEnqueue bytes size).connection
        rw [hfail.2]
        exact .refl c
      · cases heq
        exact hfail.1
    · exact .enqueue hdone.1 hdone.2.2.1
  | send budget =>
    obtain ⟨s, hs⟩ := (sends_send sound.writeBuffer budget).1
    exact .send hs
  | attach interests add => exact other (same_attach c interests add).1 nofun
  | setInterests interests mod => exact other (same_setInterests c interests mod).1 nofun
  | detach del => exact other (same_detach c del).1 nofun
  | forgetDestroyedLoop => exact other (same_forgetDestroyedLoop c).1 nofun
  | dispatchBegin => exact other ⟨rfl, rfl, rfl, rfl⟩ nofun
  | dispatchEnd => exact other ⟨rfl, rfl, rfl, rfl⟩ nofun
  | flowConfigure options mod => exact other (same_flowConfigure c options mod).1 nofun
  | flowRefresh mod => exact other (same_flowRefresh c mod).1 nofun
  | flowDisable => exact other (same_flowDisable c).1 nofun
  | requestClose mode reason mod => exact other (same_requestClose c mode reason mod) nofun
  | closeRefresh mod => exact other (same_closeRefresh c mod) nofun

theorem sound_exec (sound : c.Sound) (k : ConnectionCall) : (c.exec k).2.Sound := by
  cases movesBytes_exec sound k with
  | @receive budget _ hs =>
    exact ⟨hs.inv, by rw [show (c.exec (.receive budget)).2.writeBuffer = _ from hs.writeBuffer]
                      exact sound.writeBuffer⟩
  | consume size =>
    obtain ⟨n, hinv, -⟩ := readConsume_cases sound.readBuffer size
    exact ⟨hinv, sound.writeBuffer⟩
  | @enqueue bytes size _ henq =>
    exact ⟨by rw [show (c.exec (.writeEnqueue bytes size)).2.readBuffer = _ from henq.readBuffer]
              exact sound.readBuffer, henq.inv⟩
  | @send budget _ hs =>
    exact ⟨by rw [show (c.exec (.send budget)).2.readBuffer = _ from hs.readBuffer]
              exact sound.readBuffer, hs.inv⟩
  | same h => exact h.sound sound

theorem created_spec (h : Created c) :
    c.Sound ∧ c.readBuffer.unread = [] ∧ c.writeBuffer.unread = [] ∧ c.ownedFd.delivered = [] ∧
      c.ownedFd.accepted = [] ∧ c.readEof = false ∧ c.flowEnabled = false ∧ c.closeState = .open ∧
      c.closeMode = .none ∧ c.closeReason = .none := by
  obtain ⟨options, socket, fd, control, objectRead, storageRead, objectWrite, storageWrite, hdelivered,
    haccepted, hcreate⟩ := h
  unfold create at hcreate
  split at hcreate
  · cases hcreate
  split at hcreate
  · cases hcreate
  split at hcreate
  · cases hcreate
  split at hcreate
  · cases hcreate
  split at hcreate
  · cases hcreate
  rename_i readBuffer hread
  split at hcreate
  · cases hcreate
  rename_i writeBuffer hwrite
  cases hcreate
  obtain ⟨hrinv, hrempty⟩ := inv_create hread
  obtain ⟨hwinv, hwempty⟩ := inv_create hwrite
  exact ⟨⟨hrinv, hwinv⟩, hrempty, hwempty, hdelivered, haccepted, rfl, rfl, rfl, rfl, rfl⟩

/-- What `calls` did to the read side: `s` came in behind the unread bytes, consumes took from their front. -/
structure StreamRead (calls : List ConnectionCall) (c : Connection) (s : Bytes) (c' : Connection) : Prop where
  delivered : c'.ownedFd.delivered = c.ownedFd.delivered ++ s
  unread : c'.readBuffer.unread <:+ c.readBuffer.unread ++ s
  all : (∀ size, .readConsume size ∉ calls) → c'.readBuffer.unread = c.readBuffer.unread ++ s
  eof : c.readEof = true → c'.readEof = true ∧ s = []

theorem streamRead_exec (sound : c.Sound) (k : ConnectionCall) : ∃ s, StreamRead [k] c s (c.exec k).2 := by
  have none {c' : Connection} (hdelivered : c'.ownedFd.delivered = c.ownedFd.delivered)
      (hbuffer : c'.readBuffer = c.readBuffer) (heof : c'.readEof = c.readEof) : ∃ s, StreamRead [k] c s c' :=
    ⟨[], by rw [hdelivered, append_nil], by rw [hbuffer, append_nil], fun _ => by rw [hbuffer, append_nil],
      fun h => ⟨heof.trans h, rfl⟩⟩
  cases movesBytes_exec sound k with
  | @receive budget s hs =>
    exact ⟨s, congrArg (·.delivered) hs.socket, hs.unread ▸ suffix_rfl, fun _ => hs.unread, hs.eof⟩
  | consume size =>
    obtain ⟨n, -, hunread, -⟩ := readConsume_cases sound.readBuffer size
    refine ⟨[], (append_nil _).symm, ?_, fun hno => absurd (mem_singleton_self _) (hno size), fun h => ⟨h, rfl⟩⟩
    rw [append_nil]
    exact hunread ▸ drop_suffix ..
  | enqueue _ hs =>
    exact none (congrArg (·.ownedFd.delivered) hs.rest) hs.readBuffer (congrArg (·.readEof) hs.rest)
  | send hs => exact none (congrArg (·.delivered) hs.socket) hs.readBuffer (congrArg (·.readEof) hs.rest)
  | same h => exact none (by rw [h.socket]) h.readBuffer h.readEof

theorem streamRead_run {calls : List ConnectionCall} (sound : c.Sound) (run : Reach c calls c') :
    c'.Sound ∧ ∃ s, StreamRead calls c s c' := by
  induction run with
  | start => exact ⟨sound, [], by simp, by simp, by simp, by simp⟩
  | @call calls c' _ k ih =>
    obtain ⟨sound', s, hs⟩ := ih
    obtain ⟨t, ht⟩ := streamRead_exec sound' k
    refine ⟨sound_exec sound' k, s ++ t, ?_, ?_, fun hno => ?_, fun hend => ?_⟩
    · rw [ht.delivered, hs.delivered, append_assoc]
    · rw [← append_assoc]
      exact ht.unread.trans (suffix_append_self_iff.mpr hs.unread)
    · rw [ht.all fun size hk => hno size (mem_append_right _ hk),
        hs.all fun size hmem => hno size (mem_append_left _ hmem), append_assoc]
    · obtain ⟨hended, rfl⟩ := hs.eof hend
      exact ht.eof hended

/-- **What is read is a stream.** In every connection that is reached the buffers are in order, what is unread is
    the end of what the socket delivered, and a consume takes what it names; further calls put behind it what
    comes in, which is nothing after the end, and take by consumes only. -/
theorem read_stream {c₀ : Connection} {calls calls' : List ConnectionCall} (h : Created c₀)
    (run : Reach c₀ calls c) (further : Reach c calls' c') :
    c.Sound ∧ c.readBuffer.unread <:+ c.ownedFd.delivered ∧
      (∀ size ≤ c.readBuffer.unread.length,
        (c.readConsume size).2.readBuffer.unread = c.readBuffer.unread.drop size) ∧
      ∃ s, StreamRead calls' c s c' := by
  obtain ⟨sound₀, hempty, -, hnothing, -⟩ := created_spec h
  obtain ⟨sound, s, hs⟩ := streamRead_run sound₀ run
  refine ⟨sound, ?_, fun size hsize => ?_, (streamRead_run sound further).2⟩
  · rw [hs.delivered, hnothing, ← hempty]
    exact hs.unread
  · obtain ⟨n, -, hunread, -, hn⟩ := readConsume_cases sound.readBuffer size
    rw [hunread, hn hsize]

end Vireo.Net
