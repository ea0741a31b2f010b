/-
  File:      Vireo/Net/RequestsOnce.lean
  Subject:   A REQUEST COMPLETES ONCE, AND FOR ITS OWN CLIENT.
-/
import Vireo.Net.InflightStore
import Vireo.Net.Requests

namespace Vireo.Net

open Base Thread Function List
open CompletionPath (beginRound drained pop publish pushed recover renotify wake)

/-! ## 1. What is on the path -/

/-- Every completion on the path has a property: in the queue, with a worker that waits for room, and in
    the hand of the reactor. -/
structure PathCarries (P : CompletionMetadata → Prop) (s : CompletionPath) : Prop where
  queued : ∀ i c, s.queue.ring.slots i = some c → P c
  waiting : ∀ w progress c, s.workers w = .waiting progress c → P c
  inHand : ∀ c, s.remaining = some c → P c

section Path

variable {P Q : CompletionMetadata → Prop} {s : CompletionPath}

section

variable (h : PathCarries P s)
include h

theorem PathCarries.mono (hPQ : ∀ c, P c → Q c) : PathCarries Q s :=
  ⟨fun i c hc => hPQ c (h.queued i c hc), fun w progress c hc => hPQ c (h.waiting w progress c hc),
    fun c hc => hPQ c (h.inHand c hc)⟩

theorem PathCarries.setWorker (w : Nat) (p : Publishing) (hp : ∀ progress c, p = .waiting progress c → P c) :
    ∀ v progress c, update s.workers w p v = .waiting progress c → P c := by
  intro v progress c hv
  by_cases hvw : v = w
  · rw [hvw, update_self] at hv
    exact hp progress c hv
  · rw [update_of_ne hvw] at hv
    exact h.waiting v progress c hv

theorem pathCarries_pushed (w : Nat) (progress : PublishReport)
    {completion : CompletionMetadata} (hP : P completion)
    {o : WaitOutcome CompletionMetadata (CompletionQueue CompletionMetadata)}
    (ho : s.queue.WaitPushed (some completion) o) : PathCarries P (s.pushed w progress completion o) := by
  cases o with
  | blocked =>
    refine ⟨h.queued, h.setWorker w (.waiting progress completion) fun _ c hc => ?_, h.inHand⟩
    cases hc
    exact hP
  | returned x =>
    have hqueue : ∀ i c, x.queue.ring.slots i = some c → P c := by
      intro i c hc
      cases ho.1 with
      | moved t _ had _ ring =>
        rw [ring] at hc
        cases Option.some.inj had
        by_cases hi : i = s.queue.ring.tail
        · have hput : (s.queue.ring.put completion).slots i = some completion := by
            rw [hi]
            exact update_self _ _ _
          rw [hput] at hc
          cases hc
          exact hP
        · have hput : (s.queue.ring.put completion).slots i = s.queue.ring.slots i :=
            update_of_ne hi _ _
          rw [hput] at hc
          exact h.queued i c hc
      | kept _ _ ring =>
        rw [ring] at hc
        exact h.queued i c hc
    rw [pushed]
    split
    · exact ⟨hqueue, h.setWorker w .idle (by simp), h.inHand⟩
    · rename_i next _
      exact ⟨hqueue, h.setWorker w (.notifying next) (by simp), h.inHand⟩

theorem pathCarries_publish (w : Nat) (task : TaskMetadata) (result : Result)
    (suggestedStatus : UInt16) (allocationBudget : Nat) (copy : Result) (codes : SyncCodes)
    (hP : ∀ c : CompletionMetadata, c.request = task → c.hasValidShape = true → P c) :
    PathCarries P (s.publish w task result suggestedStatus allocationBudget copy codes) := by
  unfold publish
  cases s.workers w with
  | idle =>
    cases hbegin : publishBegin task result suggestedStatus allocationBudget copy with
    | error e => exact h
    | ok begun =>
      obtain ⟨progress, completion⟩ := begun
      obtain ⟨rfl, hshape⟩ := publishBegin_ok hbegin
      exact pathCarries_pushed h w progress (hP _ rfl hshape)
        (CompletionQueue.waitPush_spec s.queue (some _) codes)
  | waiting | notifying => exact h

theorem pathCarries_wake (w wait unlock : Nat) : PathCarries P (s.wake w wait unlock) := by
  unfold wake
  cases hw : s.workers w with
  | waiting progress completion =>
    exact pathCarries_pushed h w progress (h.waiting w progress completion hw)
      (CompletionQueue.waitPushWake_spec s.queue completion wait unlock)
  | idle | notifying => exact h

theorem pathCarries_drained (value : RoundReport) (result : Result) (drain : DrainReport) :
    PathCarries P (s.drained value result drain) := by
  rw [drained]
  split
  · exact { h with }
  · exact { h with }

/-- **A pop** moves the head of the queue to the hand of the reactor. -/
theorem pathCarries_pop (codes : SyncCodes) : PathCarries P (s.pop codes) := by
  unfold pop
  cases s.round with
  | popping value drain left =>
    have moved : PathCarries P { s with
        queue := (s.queue.tryPop s.remaining codes).queue
        remaining := (s.queue.tryPop s.remaining codes).owner } := by
      cases (CompletionQueue.popped_spec s.queue s.remaining codes).1 with
      | moved _ _ got ring =>
        refine ⟨fun i c hc => ?_, h.waiting, fun c hc => ?_⟩
        · change (s.queue.tryPop s.remaining codes).queue.ring.slots i = some c at hc
          rw [ring] at hc
          by_cases hi : i = s.queue.ring.head
          · have hdrop : s.queue.ring.drop.slots i = none := by
              rw [hi]
              exact update_self _ _ _
            rw [hdrop] at hc
            cases hc
          · have hdrop : s.queue.ring.drop.slots i = s.queue.ring.slots i := update_of_ne hi _ _
            rw [hdrop] at hc
            exact h.queued i c hc
        · change (s.queue.tryPop s.remaining codes).owner = some c at hc
          rw [got] at hc
          exact h.queued _ c hc
      | kept _ owner ring =>
        refine ⟨fun i c hc => ?_, h.waiting, fun c hc => ?_⟩
        · change (s.queue.tryPop s.remaining codes).queue.ring.slots i = some c at hc
          rw [ring] at hc
          exact h.queued i c hc
        · change (s.queue.tryPop s.remaining codes).owner = some c at hc
          rw [owner] at hc
          exact h.inHand c hc
    dsimp only
    split
    · exact pathCarries_drained moved _ _ _
    · exact { moved with }
  | idle | consuming | renotifying => exact h

theorem pathCarries_consumed (o : ConsumeOutcome) (ho : ∀ c, o.owner = some c → P c) :
    PathCarries P (s.consumed o) := by
  unfold CompletionPath.consumed
  cases s.round with
  | consuming value drain left =>
    have moved : PathCarries P { s with remaining := o.owner } := { h with inHand := ho }
    dsimp only
    split
    · exact pathCarries_drained moved _ _ _
    split
    · exact pathCarries_drained moved _ _ _
    · exact { h with inHand := ho }
  | idle | popping | renotifying => exact h

/-- **What happens on the path gives nobody a completion that was not published.** -/
theorem pathCarries_exec (e : PathEvent)
    (hpublish : ∀ w task result suggestedStatus allocationBudget copy codes,
      e = .publish w task result suggestedStatus allocationBudget copy codes →
        ∀ c : CompletionMetadata, c.request = task → c.hasValidShape = true → P c)
    (hconsumed : ∀ o, e = .consumed o → ∀ c, o.owner = some c → P c) : PathCarries P (s.exec e) := by
  cases e with
  | publish w task result suggestedStatus allocationBudget copy codes =>
    exact pathCarries_publish h w task result suggestedStatus allocationBudget copy codes
      (hpublish w task result suggestedStatus allocationBudget copy codes rfl)
  | wake w wait unlock => exact pathCarries_wake h w wait unlock
  | notify w fault =>
    show PathCarries P (s.notify w fault)
    unfold CompletionPath.notify
    split
    · exact ⟨h.queued, h.setWorker w .idle (by simp), h.inHand⟩
    · exact h
  | round maxItems fault =>
    show PathCarries P (s.beginRound maxItems fault)
    unfold beginRound
    split
    · exact { h with }
    · exact { h with }
    · exact h
  | pop codes => exact pathCarries_pop h codes
  | consumed o => exact pathCarries_consumed h o (hconsumed o rfl)
  | renotify fault =>
    show PathCarries P (s.renotify fault)
    unfold renotify
    split
    · exact { h with }
    · exact h
  | recover =>
    show PathCarries P s.recover
    unfold recover
    split
    · exact { h with inHand := nofun }
    · exact h
  | close codes =>
    refine { h with queued := fun i c hc => ?_ }
    change (s.queue.close codes).2.2.ring.slots i = some c at hc
    rw [(CompletionQueue.close_spec s.queue codes).1] at hc
    exact h.queued i c hc

end

end Path

/-! ## 2. What the calls on the table do to its requests -/

/-- The requests that are in the table. -/
def InflightStore.requests (s : InflightStore) : List TaskMetadata := s.records.map (·.metadata)

section Table

variable {s s' : InflightStore} {server : ServerView} {task : TaskMetadata} {t : InflightSlot}

section

variable (inv : StoreInv s)
include inv

theorem StoreInv.records_nodup : s.records.Nodup := by
  refine inv.apart.imp fun {a b} hapart heq => ?_
  rw [heq] at hapart
  exact (hapart rfl).1 rfl

theorem gone_perm (went : List InflightSlot) (h : s.records.Perm (went ++ s'.records)) :
    (gone s s').Perm (went.map (·.metadata)) :=
  (Lib.filter_not_mem_perm h inv.records_nodup).map _

theorem requests_perm_gone (went : List InflightSlot)
    (h : s.records.Perm (went ++ s'.records)) : s.requests.Perm (gone s s' ++ s'.requests) := by
  have hmap := h.map (·.metadata)
  rw [map_append] at hmap
  exact hmap.trans ((gone_perm inv went h).symm.append_right _)

theorem gone_leave {i : Nat} (h : s.slots[i]? = some t) (htaken : t.occupied = true) :
    gone s (s.leave i) = [t.metadata] :=
  perm_singleton.mp (gone_perm inv [t] (records_leave h htaken))

end

theorem gone_self (s : InflightStore) : gone s s = [] := by
  unfold gone
  rw [filter_eq_nil_iff.mpr fun x hx => by simpa using hx]
  rfl

theorem get_eq_ok_of_record (inv : StoreInv s) {r : InflightSlot} (hr : r ∈ s.records) :
    s.get r.metadata = .ok r.metadata :=
  (get_ok_iff inv).mpr ⟨inv.valid r hr, r, rfl, filter_sameRequest inv hr (TaskMetadata.SameRequest.refl _)⟩

theorem get_eq_notFound (inv : StoreInv s) {key : TaskMetadata} (hkey : key.Valid)
    (hno : ∀ r ∈ s.records, ¬ key.SameRequest r.metadata) : s.get key = .error (.notFound, .checkRecord) := by
  rcases get_cases inv key with found | other
  · obtain ⟨-, r, hr, hsame, -⟩ := found
    exact absurd hsame (hno r hr)
  · rcases other with missing | bad
    · exact missing.2.2
    · exact absurd hkey bad.1

theorem get_leave (inv : StoreInv s) {i : Nat} (h : s.slots[i]? = some t) (htaken : t.occupied = true) :
    (s.leave i).get t.metadata = .error (.notFound, .checkRecord) := by
  have hmem : t ∈ s.records := mem_records.mpr ⟨mem_of_getElem? h, htaken⟩
  refine get_eq_notFound (storeInv_leave inv h htaken) (inv.valid t hmem) fun r hr hsame => ?_
  have hapart := (records_leave h htaken).pairwise_iff (fun h => .symm h) |>.mp inv.apart
  have hclient : client t.metadata = client r.metadata := by
    unfold client
    rw [hsame.1]
  exact ((pairwise_cons.mp hapart).1 r hr hclient).2 hsame.2

/-- What a submit comes to: it was refused, its request is in the table, or it was there and was taken
    out again. -/
inductive Submitted (s : InflightStore) (server : ServerView) (task : TaskMetadata) (o : SubmitOutcome) :
    Prop
  | refused (store : o.store = s) (committed : o.report.registrationCommitted = false)
      (kept : (o.report.rollbackCalled && !o.report.recordRetained) = false)
  | entered (current : server.clientInspect (client task) = .ok .open) (inv : StoreInv o.store)
      (requests : o.store.requests.Perm (task :: s.requests))
      (committed : o.report.registrationCommitted = true)
      (kept : (o.report.rollbackCalled && !o.report.recordRetained) = false)
  | rolledBack (current : server.clientInspect (client task) = .ok .open) (inv : StoreInv o.store)
      (requests : o.store.requests.Perm s.requests) (committed : o.report.registrationCommitted = true)
      (undone : (o.report.rollbackCalled && !o.report.recordRetained) = true)

theorem trySubmit_cases (inv : StoreInv s) (server : ServerView) (maxClientRequests : Nat)
    (task : TaskMetadata) (retain : Result) (pool : PoolAnswer) (release : Result) :
    Submitted s server task (s.trySubmit server maxClientRequests (some task) retain pool release) := by
  unfold InflightStore.trySubmit
  split
  · exact .refused rfl rfl rfl
  rename_i hlimit
  have hregister : s.registerTaskLimited server task maxClientRequests retain =
      s.registerImpl server task true maxClientRequests (some retain) := if_neg hlimit
  dsimp only
  rw [hregister]
  cases registerImpl_cases s server task true maxClientRequests (some retain) with
  | refused result store =>
    rw [if_pos result]
    exact .refused store rfl rfl
  | entered result valid current _ slot free apart _ store =>
    rw [if_neg (not_not.mpr result)]
    generalize s.registerImpl server task true maxClientRequests (some retain) = registered at store ⊢
    have hinv : StoreInv registered.store := store ▸ storeInv_enter inv slot free valid _ apart
    have hrequests : registered.store.requests.Perm (task :: s.requests) := by
      rw [store]
      exact (records_enter slot free task _ _).map (·.metadata)
    split
    · exact .entered current hinv hrequests rfl rfl
    split
    · rcases take_cases hinv task release with failed | done
      · have hkept : (registered.store.take task release).1.result ≠ .ok := failed.1
        refine .entered current ?_ ?_ rfl ?_
        · show StoreInv (registered.store.take task release).1.store
          rw [failed.2]
          exact hinv
        · show (registered.store.take task release).1.store.requests.Perm _
          rw [failed.2]
          exact hrequests
        · simp [hkept]
      · obtain ⟨-, -, hok, j, u, hj, htaken, hsame, hstore, -⟩ := done
        have hleave : registered.store.requests.Perm (u.metadata :: (registered.store.leave j).requests) :=
          (records_leave hj htaken).map InflightSlot.metadata
        -- the record of the key is the one that was just entered
        have hown : u.metadata = task := by
          obtain ⟨r, hr, hmetadata⟩ := mem_map.mp (hrequests.mem_iff.mpr (mem_cons_self ..))
          have hone := filter_sameRequest hinv hr
            (hmetadata ▸ TaskMetadata.SameRequest.refl task : task.SameRequest r.metadata)
          have hother := filter_sameRequest hinv (mem_records.mpr ⟨mem_of_getElem? hj, htaken⟩) hsame
          rw [hone] at hother
          cases hother
          exact hmetadata
        refine .rolledBack current ?_ ?_ rfl ?_
        · show StoreInv (registered.store.take task release).1.store
          rw [hstore]
          exact storeInv_leave hinv hj htaken
        · show (registered.store.take task release).1.store.requests.Perm _
          rw [hstore]
          rw [hown] at hleave
          exact (perm_cons task).mp (hleave.symm.trans hrequests)
        · simp [hok]
    · exact .entered current hinv hrequests rfl rfl

/-- What the issuer comes to: it refuses, or it makes a task with an instance that it never gave out, for
    a client that is there. -/
inductive Issued (lastIssued : UInt64) (server : ServerView) (lease : Lease) :
    Except (Result × InflightStage) TaskMetadata × UInt64 → Prop
  | refused (e : Result × InflightStage) : Issued lastIssued server lease (.error e, lastIssued)
  | made {m : TaskMetadata} {state : CloseState} (own : client m = lease)
      (current : server.clientInspect lease = .ok state) (new : lastIssued < m.requestInstanceId) :
      Issued lastIssued server lease (.ok m, m.requestInstanceId)

theorem metadataMake_ok {lease : Lease} {requestSequence operation : UInt32}
    {requestInstanceId deadlineNs : UInt64} {m : TaskMetadata}
    (h : metadataMake server lease requestSequence requestInstanceId operation deadlineNs = .ok m) :
    client m = lease ∧ ∃ state, server.clientInspect lease = .ok state := by
  rw [metadataMake] at h
  split at h
  · cases h
  split at h
  · cases h
  rename_i state hcurrent
  split at h
  · cases h
  rename_i route hroute
  split at h
  · cases h
  rename_i value hvalue
  cases h
  refine ⟨?_, state, hcurrent⟩
  have hmade : m.route = route := by
    rw [TaskMetadata.make] at hvalue
    split at hvalue
    · cases hvalue
    · cases hvalue
      rfl
  unfold TaskRoute.make at hroute
  split at hroute
  · cases hroute
  cases hroute
  unfold client
  rw [hmade]

theorem metadataMakeNext_cases (lastIssued : UInt64) (exchanged : Bool) (server : ServerView) (lease : Lease)
    (requestSequence operation : UInt32) (deadlineNs : UInt64) :
    Issued lastIssued server lease
      (metadataMakeNext lastIssued exchanged server lease requestSequence operation deadlineNs) := by
  unfold metadataMakeNext
  split
  · exact .refused _
  rename_i value hmake
  obtain ⟨hclient, state, hcurrent⟩ := metadataMake_ok hmake
  split
  · exact .refused _
  rename_i next hadd
  split
  · exact .refused _
  have hnext := checkedU64Add_ok hadd
  have hlt : lastIssued < next := by
    rw [UInt64.lt_iff_toNat_lt]
    have hone : (1 : UInt64).toNat = 1 := rfl
    omega
  exact .made (m := { value with requestInstanceId := next }) hclient hcurrent hlt

end Table

/-! ## 3. The invariant -/

/-- A completion that a worker made for a task of the issuer. -/
def Genuine (tasks : List TaskMetadata) (c : CompletionMetadata) : Prop :=
  c.hasValidShape = true ∧ c.request ∈ tasks

/-- What the clients keep, with what is lent out, the leases ever issued, and the connection that each was
    lent to. -/
structure ClientsKept (table : ClientTable Nat) (created : Nat) (lent : List (Lent Nat))
    (leases : List Lease) (history : List (Lease × Nat)) : Prop where
  table : ClientTableInv table lent leases
  fresh : ∀ l ∈ lent, l.owner < created
  known : ∀ l ∈ lent, (l.lease, l.owner) ∈ history
  apart : (history.map Prod.fst).Nodup
  issued : ∀ p ∈ history, p.1 ∈ leases

/-- What the tasks keep: their instances are apart, and the issuer made what is in the table or on the path.
    -/
structure TasksKept (s : RequestSystem) (leases : List Lease) : Prop where
  client : ∀ m ∈ s.tasks, client m ∈ leases
  issued : ∀ m ∈ s.tasks, m.requestInstanceId ≤ s.lastIssued
  apart : (s.tasks.map (·.requestInstanceId)).Nodup
  transferred : ∀ m ∈ s.transferred, m ∈ s.tasks
  requests : ∀ m ∈ s.store.requests, m ∈ s.tasks
  path : PathCarries (Genuine s.tasks) s.path

/-- A call of the callback as it should be: for the connection that the request was accepted from, which was in the
    table right before, and is not during the call. -/
def Delivered (s : RequestSystem) (d : Delivery) : Prop :=
  ∃ completion state k, d = ⟨some completion, some ⟨completion.request, state⟩, some k,
      some completion.request, none⟩ ∧ ⟨completion.request, some k⟩ ∈ s.accepted

/-- What the log keeps. -/
structure LogKept (s : RequestSystem) (history : List (Lease × Nat)) : Prop where
  accounted : (s.accepted.map (·.metadata)).Perm (s.store.requests ++ s.removed.map (·.metadata))
  own : ∀ a ∈ s.accepted, ∃ k, a.connection = some k ∧ (client a.metadata, k) ∈ history
  once : s.deliveries.map (fun d => d.found.map (·.metadata)) =
    (s.removed.filter (·.why = .delivered)).map (fun r => some r.metadata)
  delivered : ∀ d ∈ s.deliveries, Delivered s d

/-- What every run keeps. -/
structure RequestInv (s : RequestSystem) (lent : List (Lent Nat)) (leases : List Lease)
    (history : List (Lease × Nat)) : Prop where
  clients : ClientsKept s.table s.created lent leases history
  store : StoreInv s.store
  tasks : TasksKept s leases
  log : LogKept s history

section Steps

variable {s : RequestSystem} {lent : List (Lent Nat)} {leases : List Lease} {history : List (Lease × Nat)}
  {m : TaskMetadata}

/-- **The client of a task is there, or it is not found**: the server says nothing else about it. -/
theorem client_cases (clients : ClientsKept s.table s.created lent leases history) (hm : client m ∈ leases) :
    (∃ k state, s.table.findClient (client m) = .ok k ∧ (client m, k) ∈ history ∧
        s.table.clientInspect (client m) = .ok state) ∨
      s.table.clientInspect (client m) = .error .notFound := by
  by_cases hlent : client m ∈ lent.map (·.lease)
  · obtain ⟨l, hl, hlease⟩ := mem_map.mp hlent
    refine .inl ⟨l.owner, (s.table.connections l.owner).closeState, ?_, ?_, ?_⟩
    · exact (findClient_eq_ok_iff clients.table).mpr ⟨l, hl, hlease, rfl⟩
    · rw [← hlease]
      exact clients.known l hl
    · exact (clientInspect_eq_ok_iff clients.table).mpr ⟨l, hl, hlease, rfl⟩
  · exact .inr (clientInspect_stale clients.table hm hlent)

theorem ClientsKept.connection_eq {table : ClientTable Nat} {created : Nat}
    (clients : ClientsKept table created lent leases history) {lease : Lease} {j k : Nat}
    (hj : (lease, j) ∈ history) (hk : (lease, k) ∈ history) : j = k :=
  congrArg Prod.snd (inj_on_of_nodup_map clients.apart hj hk rfl)

theorem TasksKept.eq_of_instance (tasks : TasksKept s leases) {n : TaskMetadata} (hm : m ∈ s.tasks)
    (hn : n ∈ s.tasks) (h : m.requestInstanceId = n.requestInstanceId) : m = n :=
  inj_on_of_nodup_map tasks.apart hm hn h

theorem accounted_settled {accepted : List TaskMetadata} {removed : List Removed} {store store' : InflightStore}
    (h : accepted.Perm (store.requests ++ removed.map (·.metadata)))
    (hgone : store.requests.Perm (gone store store' ++ store'.requests)) (why : Removal) :
    accepted.Perm (store'.requests ++
      (removed ++ (gone store store').map (Removed.mk · why)).map (·.metadata)) := by
  have hmap : ((gone store store').map (Removed.mk · why)).map (·.metadata) = gone store store' := by
    rw [map_map]
    exact map_id _
  rw [map_append, hmap]
  refine (h.trans (hgone.append_right _)).trans ?_
  rw [append_assoc]
  refine perm_append_comm.trans ?_
  rw [append_assoc]

theorem delivered_append (removed : List Removed) (why : Removal) (hwhy : why ≠ .delivered)
    (went : List TaskMetadata) :
    (removed ++ went.map (Removed.mk · why)).filter (·.why = .delivered) =
      removed.filter (·.why = .delivered) := by
  have hnone : (went.map (Removed.mk · why)).filter (·.why = .delivered) = [] := by
    refine filter_eq_nil_iff.mpr fun r hr => ?_
    obtain ⟨m, -, rfl⟩ := mem_map.mp hr
    simpa using hwhy
  rw [filter_append, hnone, List.append_nil]

theorem accepted_of_request (inv : RequestInv s lent leases history) (hm : m ∈ s.store.requests) {k : Nat}
    (hk : (client m, k) ∈ history) : ⟨m, some k⟩ ∈ s.accepted := by
  obtain ⟨a, ha, hmetadata⟩ := mem_map.mp (inv.log.accounted.mem_iff.mpr (mem_append_left _ hm))
  obtain ⟨j, hj, hhistory⟩ := inv.log.own a ha
  obtain ⟨metadata, connection⟩ := a
  obtain rfl : metadata = m := hmetadata
  obtain rfl : connection = some j := hj
  rw [inv.clients.connection_eq hk hhistory]
  exact ha

/-- **Nothing is wrong with a genuine completion**, so a consume does not keep it. -/
theorem genuine_not_kept (inv : RequestInv s lent leases history) {completion : CompletionMetadata}
    (hgenuine : Genuine s.tasks completion)
    (why : completion.hasValidShape = false ∨
      (∃ e, s.view.clientInspect (client completion.request) = .error e ∧ e.val ≠ .notFound) ∨
      ∃ r ∈ s.store.records, completion.request.SameRequest r.metadata ∧
        (completion.request ≠ r.metadata ∨ Result.ok ≠ .ok)) : False := by
  rcases why with shape | why
  · rw [hgenuine.1] at shape
    cases shape
  · rcases why with refused | other
    · obtain ⟨e, he, hne⟩ := refused
      change s.table.clientInspect _ = _ at he
      rcases client_cases inv.clients (inv.tasks.client _ hgenuine.2) with there | stale
      · obtain ⟨k, state, -, -, hcurrent⟩ := there
        rw [he] at hcurrent
        cases hcurrent
      · rw [he] at stale
        cases stale
        exact hne rfl
    · obtain ⟨r, hr, hsame, hdiffer⟩ := other
      have htask := inv.tasks.requests r.metadata (mem_map_of_mem hr)
      rcases hdiffer with differ | fails
      · exact differ (inv.tasks.eq_of_instance hgenuine.2 htask hsame.2)
      · exact fails rfl

end Steps

/-- How the consume of a completion ends: the callback ran for a request that was in the table and is not
    in it any more, with the connection that it was accepted from and that has its lease; or the client
    or the request is gone, and the completion was destroyed without a word. -/
inductive Completed (s : RequestSystem) (completion : CompletionMetadata) (deliver : Result)
    (o : ConsumeOutcome) : Prop
  | delivered {state : CloseState} {k : Nat}
      (registered : s.store.get completion.request = .ok completion.request)
      (current : s.table.findClient (client completion.request) = .ok k)
      (own : ⟨completion.request, some k⟩ ∈ s.accepted)
      (called : o.report.deliveryCalled = true)
      (found : o.report.found = some ⟨completion.request, state⟩)
      (taken : o.store.get completion.request = .error (.notFound, .checkRecord))
      (result : o.result = deliver)
  | late (gone : s.table.clientInspect (client completion.request) = .error .notFound ∨
        s.store.get completion.request = .error (.notFound, .checkRecord))
      (silent : o.report.deliveryCalled = false)
      (taken : o.store.get completion.request = .error (.notFound, .checkRecord))
      (result : o.result = .ok) (destroyed : o.owner = none)

section Consume

variable {s : RequestSystem} {lent : List (Lent Nat)} {leases : List Lease} {history : List (Lease × Nat)}

section

variable (inv : RequestInv s lent leases history) {completion : CompletionMetadata} {o : ConsumeOutcome}
include inv

/-- **A genuine completion is delivered to its own client, or it is late.** -/
theorem completed (hgenuine : Genuine s.tasks completion) (deliver : Result) :
    Completed s completion deliver (s.store.consumeCompletion s.view (some completion) .ok deliver) := by
  have hclient := client_cases inv.clients (inv.tasks.client _ hgenuine.2)
  have hvalid := CompletionMetadata.valid_of_shape hgenuine.1
  cases consumeCompletion_cases inv.store s.view completion .ok deliver with
  | kept _ _ _ _ _ why => exact (genuine_not_kept inv hgenuine why).elim
  | delivered _ current slot taken request store called _ found result =>
    have hmem := mem_records.mpr ⟨mem_of_getElem? slot, taken⟩
    cases hclient with
    | inr stale =>
      change s.table.clientInspect _ = _ at current
      rw [stale] at current
      cases current
    | inl there =>
      obtain ⟨k, state, hfind, hhistory, -⟩ := there
      refine .delivered ?_ hfind (accepted_of_request inv ?_ hhistory) called (by rw [request]; exact found)
        ?_ result
      · rw [request]
        exact get_eq_ok_of_record inv.store hmem
      · rw [request]
        exact mem_map_of_mem hmem
      · rw [store, request]
        exact get_leave inv.store slot taken
  | late _ result owner silent gone store =>
    refine .late ?_ silent ?_ result owner
    · rcases gone with client | record
      · obtain ⟨e, he, -⟩ := client
        change s.table.clientInspect _ = _ at he
        rcases hclient with there | stale
        · obtain ⟨k, state, -, -, hcurrent⟩ := there
          rw [he] at hcurrent
          cases hcurrent
        · exact .inl stale
      · exact .inr (get_eq_notFound inv.store hvalid record)
    · rcases store with missing | found
      · rw [missing.2.1]
        exact get_eq_notFound inv.store hvalid missing.1
      · obtain ⟨i, t, hslot, htaken, hrequest, hstore, -⟩ := found
        rw [hstore, hrequest]
        exact get_leave inv.store hslot htaken

theorem consume_gone (hgenuine : Genuine s.tasks completion) (deliver : Result)
    (ho : s.store.consumeCompletion s.view (some completion) .ok deliver = o) :
    StoreInv o.store ∧ s.store.requests.Perm (gone s.store o.store ++ o.store.requests) ∧
      (o.report.deliveryCalled = true → gone s.store o.store = [completion.request]) ∧
      ∀ c, o.owner = some c → c = completion := by
  have hcases := consumeCompletion_cases inv.store s.view completion .ok deliver
  rw [ho] at hcases
  cases hcases with
  | kept _ _ _ _ _ why => exact (genuine_not_kept inv hgenuine why).elim
  | delivered _ _ slot taken request store _ _ _ _ owner =>
    rw [store, request]
    refine ⟨storeInv_leave inv.store slot taken,
      requests_perm_gone inv.store [_] (records_leave slot taken),
      fun _ => gone_leave inv.store slot taken, fun c hc => ?_⟩
    rw [owner] at hc
    split at hc
    · cases hc
    · exact (Option.some.inj hc).symm
  | late _ _ owner silent _ store =>
    have hsilent : o.report.deliveryCalled = true → gone s.store o.store = [completion.request] := by
      intro h
      rw [silent] at h
      cases h
    have howner : ∀ c, o.owner = some c → c = completion := by
      intro c hc
      rw [owner] at hc
      cases hc
    refine ⟨?_, ?_, hsilent, howner⟩
    · rcases store with missing | found
      · rw [missing.2.1]
        exact inv.store
      · obtain ⟨i, t, hslot, htaken, -, hstore, -⟩ := found
        rw [hstore]
        exact storeInv_leave inv.store hslot htaken
    · rcases store with missing | found
      · rw [missing.2.1, gone_self]
        exact List.Perm.refl _
      · obtain ⟨i, t, hslot, htaken, -, hstore, -⟩ := found
        rw [hstore]
        exact requests_perm_gone inv.store [t] (records_leave hslot htaken)

theorem logKept_settled (hcompletion : s.path.remaining = some completion)
    (hgenuine : Genuine s.tasks completion) (deliver : Result)
    (ho : s.store.consumeCompletion s.view (some completion) .ok deliver = o) (path : CompletionPath) :
    LogKept (s.settled o path) history := by
  obtain ⟨-, hgone, hone, -⟩ := consume_gone inv hgenuine deliver ho
  have hcompleted := completed inv hgenuine deliver
  rw [ho] at hcompleted
  cases hcompleted with
  | late _ silent =>
    refine ⟨accounted_settled inv.log.accounted hgone _, inv.log.own, ?_, ?_⟩
    · unfold RequestSystem.settled
      dsimp only
      rw [silent, if_neg (by simp), if_neg (by simp), List.append_nil, delivered_append _ .late (by simp)]
      exact inv.log.once
    · unfold RequestSystem.settled
      dsimp only
      rw [silent, if_neg (by simp), List.append_nil]
      exact inv.log.delivered
  | @delivered state k registered current own called found taken =>
    refine ⟨accounted_settled inv.log.accounted hgone _, inv.log.own, ?_, ?_⟩
    · unfold RequestSystem.settled
      dsimp only
      rw [called, if_pos rfl, if_pos rfl, hone called, found, map_append, filter_append,
        map_append, inv.log.once]
      rfl
    · intro d hd
      unfold RequestSystem.settled at hd
      rw [called, if_pos rfl, hcompletion, found] at hd
      rcases mem_append.mp hd with old | new
      · exact inv.log.delivered d old
      · refine ⟨completion, state, k, ?_, own⟩
        rw [mem_singleton.mp new]
        unfold RequestSystem.connectionOf
        simp only [Option.bind_some, registered, taken, current]
        rfl

/-- **A consume keeps the invariant**, wherever the path goes on from it. -/
theorem requestInv_settled (deliver : Result)
    (ho : s.store.consumeCompletion s.view s.path.remaining .ok deliver = o) {path : CompletionPath}
    (hpath : (∀ c, o.owner = some c → Genuine s.tasks c) → PathCarries (Genuine s.tasks) path) :
    RequestInv (s.settled o path) lent leases history := by
  cases hremaining : s.path.remaining with
  | none =>
    rw [hremaining] at ho
    obtain rfl : (⟨.notFound, .zero, none, s.store⟩ : ConsumeOutcome) = o := ho
    have hsame : s.settled ⟨.notFound, .zero, none, s.store⟩ path = { s with path := path } := by
      rw [RequestSystem.settled]
      rw [gone_self, map_nil, List.append_nil]
      show { s with path := path, deliveries := s.deliveries ++ [] } = { s with path := path }
      rw [List.append_nil]
    rw [hsame]
    exact ⟨inv.clients, inv.store, { inv.tasks with path := hpath nofun }, { inv.log with }⟩
  | some completion =>
    have hgenuine := inv.tasks.path.inHand completion hremaining
    have ho' := ho
    rw [hremaining] at ho'
    obtain ⟨hstore, hgone, -, howner⟩ := consume_gone inv hgenuine deliver ho'
    refine ⟨inv.clients, hstore, { inv.tasks with requests := fun m hm => ?_, path := hpath fun c hc => ?_ },
      logKept_settled inv hremaining hgenuine deliver ho' path⟩
    · exact inv.tasks.requests m (hgone.mem_iff.mpr (mem_append_right _ hm))
    · rw [howner c hc]
      exact hgenuine

end

end Consume

/-! ## 4. Every step -/

section Exec

variable {s : RequestSystem} {lent : List (Lent Nat)} {leases : List Lease} {history : List (Lease × Nat)}

/-- The invariant of some clients. -/
def RequestSystem.Kept (s : RequestSystem) : Prop := ∃ lent leases history, RequestInv s lent leases history

section

variable (inv : RequestInv s lent leases history)
include inv

theorem RequestInv.mono {table : ClientTable Nat} {created : Nat}
    {lent' : List (Lent Nat)} {leases' : List Lease} {history' : List (Lease × Nat)}
    (clients : ClientsKept table created lent' leases' history') (hleases : ∀ l ∈ leases, l ∈ leases')
    (hhistory : ∀ p ∈ history, p ∈ history') :
    RequestInv { s with table := table, created := created } lent' leases' history' := by
  refine ⟨clients, inv.store, { inv.tasks with client := fun m hm => hleases _ (inv.tasks.client m hm) },
    { inv.log with own := fun a ha => ?_ }⟩
  obtain ⟨k, hk, hmem⟩ := inv.log.own a ha
  exact ⟨k, hk, hhistory _ hmem⟩

theorem kept_admitClients (readCapacity writeCapacity : Nat)
    (attach : Result) (closeFails : Bool) : (s.admitClients readCapacity writeCapacity attach closeFails).Kept := by
  have clients := inv.clients
  have hfresh : ∀ l ∈ lent, l.owner < s.created + 1 := fun l hl => Nat.lt_succ_of_lt (clients.fresh l hl)
  unfold RequestSystem.admitClients
  have hadmit := admitClients_cases clients.table (fresh_owner clients.fresh) readCapacity writeCapacity attach closeFails
  generalize s.table.admitClients s.created readCapacity writeCapacity attach closeFails = o at hadmit ⊢
  cases hadmit with
  | @nobody r t' leases' table grown =>
    exact ⟨lent, leases', history, inv.mono
      ⟨table, hfresh, clients.known, clients.apart, fun p hp => grown _ (clients.issued p hp)⟩ grown
      fun p hp => hp⟩
  | @client lease t' bufferBytes new table =>
    refine ⟨_, _, (lease, s.created) :: history, inv.mono
      ⟨table, forall_mem_cons.mpr ⟨Nat.lt_succ_self _, hfresh⟩,
        forall_mem_cons.mpr ⟨mem_cons_self .., fun l hl => mem_cons_of_mem _ (clients.known l hl)⟩, ?_,
        forall_mem_cons.mpr ⟨mem_cons_self .., fun p hp => mem_cons_of_mem _ (clients.issued p hp)⟩⟩
      (fun l hl => mem_cons_of_mem _ hl) fun p hp => mem_cons_of_mem _ hp⟩
    rw [map_cons, nodup_cons]
    refine ⟨fun hmem => ?_, clients.apart⟩
    obtain ⟨p, hp, hlease⟩ := mem_map.mp hmem
    have hissued := clients.issued p hp
    rw [show p.1 = lease from hlease] at hissued
    exact new hissued

theorem kept_release (lease : Lease) (detached : Result) (closeFails : Bool) :
    RequestSystem.Kept { s with table := (s.table.releaseClient lease detached closeFails).2 } := by
  have clients := inv.clients
  have hrelease := releaseClient_cases clients.table lease detached closeFails
  generalize s.table.releaseClient lease detached closeFails = o at hrelease ⊢
  cases hrelease with
  | nobody table =>
    exact ⟨lent, leases, history, inv.mono { clients with table := table } (fun _ h => h) fun _ h => h⟩
  | @client r t' l before after split held table =>
    have hmem : ∀ m ∈ before ++ after, m ∈ lent :=
      fun m hm => split ▸ ((sublist_cons_self l after).append_left before).subset hm
    exact ⟨before ++ after, leases, history, inv.mono
      ⟨table, fun m hm => clients.fresh m (hmem m hm), fun m hm => clients.known m (hmem m hm),
        clients.apart, clients.issued⟩ (fun _ h => h) fun _ h => h⟩

theorem requestInv_issue (exchanged : Bool) (lease : Lease)
    (requestSequence operation : UInt32) (deadlineNs : UInt64) :
    RequestInv (s.issue exchanged lease requestSequence operation deadlineNs) lent leases history := by
  have hissued := metadataMakeNext_cases s.lastIssued exchanged s.view lease requestSequence operation deadlineNs
  unfold RequestSystem.issue
  generalize metadataMakeNext s.lastIssued exchanged s.view lease requestSequence operation deadlineNs = o
    at hissued ⊢
  cases hissued with
  | refused e =>
    show RequestInv { s with tasks := s.tasks ++ [] } lent leases history
    rw [List.append_nil]
    exact inv
  | @made m state own current new =>
    have tasks := inv.tasks
    have hmem : ∀ n ∈ s.tasks, n ∈ s.tasks ++ [m] := fun n hn => mem_append_left _ hn
    refine ⟨inv.clients, inv.store, ⟨fun n hn => ?_, fun n hn => ?_, ?_,
      fun n hn => hmem n (tasks.transferred n hn), fun n hn => hmem n (tasks.requests n hn),
      tasks.path.mono fun c hc => ⟨hc.1, hmem _ hc.2⟩⟩, { inv.log with }⟩
    · rcases mem_append.mp hn with old | this
      · exact tasks.client n old
      · rw [mem_singleton.mp this, own]
        obtain ⟨l, hl, hlease, -⟩ := (clientInspect_eq_ok_iff inv.clients.table).mp current
        rw [← hlease]
        exact inv.clients.issued _ (inv.clients.known l hl)
    · rcases mem_append.mp hn with old | this
      · exact UInt64.le_trans (tasks.issued n old) (UInt64.le_of_lt new)
      · rw [mem_singleton.mp this]
        exact UInt64.le_refl _
    · show ((s.tasks ++ [m]).map (·.requestInstanceId)).Nodup
      rw [map_append, nodup_append]
      refine ⟨tasks.apart, nodup_singleton _, fun a ha b hb heq => ?_⟩
      obtain ⟨n, hn, rfl⟩ := mem_map.mp ha
      rw [mem_singleton.mp hb] at heq
      exact absurd (tasks.issued n hn) (by rw [heq]; exact UInt64.not_le.mpr new)

/-- **What a submit registers was accepted, and what it rolls back was removed.** -/
theorem requestInv_submit (task : TaskMetadata)
    (maxClientRequests : Nat) (retain : Result) (pool : PoolAnswer) (release : Result) :
    RequestInv (s.submit task maxClientRequests retain pool release) lent leases history := by
  unfold RequestSystem.submit
  split
  · rename_i htask
    have hsubmitted := trySubmit_cases inv.store s.view maxClientRequests task retain pool release
    generalize s.store.trySubmit s.view maxClientRequests (some task) retain pool release = o at hsubmitted ⊢
    have htransferred : ∀ m ∈ s.transferred ++ (if o.owner = none then [task] else []), m ∈ s.tasks := by
      intro m hm
      rcases mem_append.mp hm with old | this
      · exact inv.tasks.transferred m old
      · split at this
        · rw [mem_singleton.mp this]
          exact htask
        · exact (not_mem_nil this).elim
    -- a request is accepted while its client is there
    have hown : s.view.clientInspect (client task) = .ok .open →
        ∀ a ∈ s.accepted ++ [(⟨task, s.connectionOf task⟩ : Accepted)],
          ∃ k, a.connection = some k ∧ (client a.metadata, k) ∈ history := by
      intro current a ha
      rcases mem_append.mp ha with old | this
      · exact inv.log.own a old
      · rcases client_cases inv.clients (inv.tasks.client task htask) with there | stale
        · obtain ⟨k, state, hfind, hhistory, -⟩ := there
          refine ⟨k, ?_, ?_⟩
          · rw [mem_singleton.mp this]
            unfold RequestSystem.connectionOf
            rw [hfind]
            rfl
          · rw [mem_singleton.mp this]
            exact hhistory
        · change s.table.clientInspect _ = _ at current
          rw [stale] at current
          cases current
    have hdelivered : ∀ (accepted : List Accepted) (d : Delivery), Delivered s d →
        Delivered { s with accepted := s.accepted ++ accepted } d := by
      intro accepted d ⟨completion, state, k, hd, hmem⟩
      exact ⟨completion, state, k, hd, mem_append_left _ hmem⟩
    dsimp only
    generalize s.transferred ++ (if o.owner = none then [task] else []) = transferred at htransferred ⊢
    cases hsubmitted with
    | refused store committed kept =>
      rw [store, committed, kept, if_neg (by simp), if_neg (by simp), List.append_nil, List.append_nil]
      exact ⟨inv.clients, inv.store, { inv.tasks with transferred := htransferred }, { inv.log with }⟩
    | entered current hstore requests committed kept =>
      rw [committed, kept, if_pos rfl, if_neg (by simp), List.append_nil]
      refine ⟨inv.clients, hstore, { inv.tasks with
        transferred := htransferred, requests := fun m hm => ?_ }, ⟨?_, hown current, inv.log.once,
        fun d hd => hdelivered _ d (inv.log.delivered d hd)⟩⟩
      · rcases mem_cons.mp (requests.mem_iff.mp hm) with this | old
        · rw [this]
          exact htask
        · exact inv.tasks.requests m old
      · show ((s.accepted ++ [(⟨task, s.connectionOf task⟩ : Accepted)]).map Accepted.metadata).Perm _
        rw [map_append]
        refine (perm_append_singleton task _).trans ?_
        exact ((inv.log.accounted.cons task).trans (requests.symm.append_right _))
    | rolledBack current hstore requests committed undone =>
      rw [committed, undone, if_pos rfl, if_pos rfl]
      refine ⟨inv.clients, hstore, { inv.tasks with
        transferred := htransferred
        requests := fun m hm => inv.tasks.requests m (requests.mem_iff.mp hm) },
        ⟨?_, hown current, ?_, fun d hd => hdelivered _ d (inv.log.delivered d hd)⟩⟩
      · show ((s.accepted ++ [(⟨task, s.connectionOf task⟩ : Accepted)]).map Accepted.metadata).Perm
          (o.store.requests ++ (s.removed ++ [(⟨task, .rolledBack⟩ : Removed)]).map Removed.metadata)
        rw [map_append, map_append, ← append_assoc]
        exact (inv.log.accounted.trans (requests.symm.append_right _)).append_right _
      · have hsame := delivered_append s.removed .rolledBack (by simp) [task]
        exact inv.log.once.trans (congrArg _ hsame.symm)
  · exact inv

theorem requestInv_cleanup (lease : Lease) (beginIndex maxSlots : Nat) (request release : Nat → Result) :
    RequestInv (s.cleanup lease beginIndex maxSlots request release) lent leases history := by
  have hbatch := cleans_batch inv.store lease beginIndex maxSlots request release
  have hcleaned : StoreInv (s.store.cancelClientBatch lease beginIndex maxSlots request release).2.2 ∧
      ∃ went, s.store.records.Perm
        (went ++ (s.store.cancelClientBatch lease beginIndex maxSlots request release).2.2.records) := by
    rcases hbatch with same | cleans
    · rw [same]
      exact ⟨inv.store, [], List.Perm.refl _⟩
    · obtain ⟨went, hwent, -⟩ := cleans.gone
      exact ⟨cleans.inv, went, hwent⟩
  unfold RequestSystem.cleanup
  generalize (s.store.cancelClientBatch lease beginIndex maxSlots request release).2.2 = store
    at hcleaned ⊢
  obtain ⟨hstore, went, hwent⟩ := hcleaned
  have hgone := requests_perm_gone inv.store went hwent
  refine ⟨inv.clients, hstore, { inv.tasks with
    requests := fun m hm => inv.tasks.requests m (hgone.mem_iff.mpr (mem_append_right _ hm)) },
    ⟨accounted_settled inv.log.accounted hgone .cleaned, inv.log.own, ?_, inv.log.delivered⟩⟩
  have hsame := delivered_append s.removed .cleaned (by simp) (gone s.store store)
  exact inv.log.once.trans (congrArg _ hsame.symm)

theorem requestInv_onPath (e : PathEvent) : RequestInv (s.onPath e) lent leases history := by
  have go : PathCarries (Genuine s.tasks) (s.path.exec e) →
      RequestInv { s with path := s.path.exec e } lent leases history := fun hpath =>
    ⟨inv.clients, inv.store, { inv.tasks with path := hpath }, { inv.log with }⟩
  cases e with
  | publish w task result suggestedStatus allocationBudget copy codes =>
    rw [RequestSystem.onPath]
    split
    · rename_i htask
      refine go (pathCarries_exec inv.tasks.path _ (fun _ _ _ _ _ _ _ heq c hc hshape => ?_) fun o ho => by cases ho)
      cases heq
      exact ⟨hshape, hc ▸ inv.tasks.transferred task htask⟩
    · exact inv
  | consumed o => exact inv
  | wake | notify | round | pop | renotify | recover | close =>
    exact go (pathCarries_exec inv.tasks.path _ (fun _ _ _ _ _ _ _ heq => by cases heq) fun o ho => by cases ho)

theorem kept_exec (e : RequestEvent) : (s.exec e).Kept := by
  cases e with
  | admitClients readCapacity writeCapacity attach closeFails =>
    exact kept_admitClients inv readCapacity writeCapacity attach closeFails
  | release lease detached closeFails => exact kept_release inv lease detached closeFails
  | proceed connection closeState callbackActive =>
    have clients := inv.clients
    exact ⟨lent, leases, history, inv.mono { clients with
          table := clientTableInv_proceed clients.table connection closeState callbackActive } (fun _ h => h) fun _ h => h⟩
  | stop =>
    have clients := inv.clients
    exact ⟨lent, leases, history, inv.mono { clients with
        table := clientTableInv_requestStop clients.table } (fun _ h => h) fun _ h => h⟩
  | issue exchanged lease requestSequence operation deadlineNs =>
    exact ⟨lent, leases, history, requestInv_issue inv exchanged lease requestSequence operation deadlineNs⟩
  | issueElsewhere lastIssued =>
    refine ⟨lent, leases, history, ?_⟩
    show RequestInv (s.issueElsewhere lastIssued) lent leases history
    unfold RequestSystem.issueElsewhere
    split
    · rename_i hle
      exact ⟨inv.clients, inv.store, { inv.tasks with
        issued := fun m hm => UInt64.le_trans (inv.tasks.issued m hm) hle }, { inv.log with }⟩
    · exact inv
  | submit task maxClientRequests retain pool release =>
    exact ⟨lent, leases, history, requestInv_submit inv task maxClientRequests retain pool release⟩
  | cleanup lease beginIndex maxSlots request release =>
    exact ⟨lent, leases, history, requestInv_cleanup inv lease beginIndex maxSlots request release⟩
  | path e => exact ⟨lent, leases, history, requestInv_onPath inv e⟩
  | consume deliver =>
    refine ⟨lent, leases, history, ?_⟩
    show RequestInv (s.consume deliver) lent leases history
    unfold RequestSystem.consume
    split
    · exact requestInv_settled inv deliver rfl fun howner => pathCarries_consumed inv.tasks.path _ howner
    · exact inv
  | reconsume deliver =>
    refine ⟨lent, leases, history, ?_⟩
    show RequestInv (s.reconsume deliver) lent leases history
    unfold RequestSystem.reconsume
    split
    · exact requestInv_settled inv deliver rfl fun howner =>
        { inv.tasks.path with inHand := howner }
    · exact inv

end

end Exec

/-! ## 5. Every state of every run -/

theorem requestInv_start {pool : ConnectionPool Nat} {free : List UInt64} {store : InflightStore}
    {queue : CompletionQueue CompletionMetadata} (hpool : ConnectionPoolInv pool [] [] free)
    (hstore : StoreInv store) (hrecords : store.records = []) (hqueue : ∀ i, queue.ring.slots i = none)
    (lastIssued : UInt64) : RequestInv (.start pool store queue lastIssued) [] [] [] := by
  have none : ∀ {α : Type} {P : α → Prop}, ∀ a ∈ ([] : List α), P a := fun a ha => (not_mem_nil ha).elim
  have hrequests : store.requests = [] := congrArg (List.map InflightSlot.metadata) hrecords
  refine ⟨⟨clientTableInv_opened hpool, none, none, nodup_nil, none⟩, hstore,
    ⟨none, none, nodup_nil, none, fun m hm => ?_, fun i c hc => ?_, fun w progress c hc => ?_,
      fun c hc => ?_⟩, ⟨?_, none, rfl, none⟩⟩
  · change m ∈ store.requests at hm
    rw [hrequests] at hm
    cases hm
  · change queue.ring.slots i = some c at hc
    rw [hqueue i] at hc
    cases hc
  · cases hc
  · cases hc
  · show List.Perm [] (store.requests ++ [])
    rw [hrequests]
    exact List.Perm.refl _

variable {s : RequestSystem}

theorem kept_of_run (run : RequestRun s) : s.Kept := by
  induction run with
  | start lastIssued hpool hstore hqueue =>
    obtain ⟨free, hpoolInv⟩ := connectionPoolInv_create hpool
    obtain ⟨hstoreInv, hrecords⟩ := storeInv_create hstore
    obtain ⟨-, bytes, hfresh⟩ := CompletionQueue.create_fresh hqueue
    refine ⟨[], [], [], requestInv_start hpoolInv hstoreInv hrecords (fun i => ?_) lastIssued⟩
    rw [(CompletionQueue.prepareWait_spec _ _).1, hfresh]
    rfl
  | step _ e ih =>
    obtain ⟨lent, leases, history, inv⟩ := ih
    exact kept_exec inv e

theorem length_filter_map {α β : Type} [DecidableEq β] (f : α → β) (b : β) (l : List α) :
    (l.filter (fun a => f a = b)).length = ((l.map f).filter (· = b)).length := by
  rw [filter_map, length_map]
  rfl

theorem deliveries_le_accepted {history : List (Lease × Nat)} (log : LogKept s history) (m : TaskMetadata) :
    (s.deliveries.filter (fun d => d.found.map (·.metadata) = some m)).length ≤
      (s.accepted.filter (·.metadata = m)).length := by
  have hdelivered : (s.deliveries.filter (fun d => d.found.map (·.metadata) = some m)).length =
      ((s.removed.filter (·.why = .delivered)).filter (·.metadata = m)).length := by
    rw [length_filter_map (fun d : Delivery => d.found.map (·.metadata)), log.once,
      ← length_filter_map (fun r : Removed => some r.metadata)]
    simp only [Option.some.injEq]
  have hremoved : (s.removed.filter (·.metadata = m)).length ≤ (s.accepted.filter (·.metadata = m)).length := by
    rw [length_filter_map Removed.metadata, length_filter_map Accepted.metadata,
      (log.accounted.filter _).length_eq, filter_append, length_append]
    exact Nat.le_add_left _ _
  rw [hdelivered]
  exact (filter_sublist.filter _).length_le.trans hremoved

/-- **A request in flight completes once, and for its own client.** Over every run: each accepted request is in
    the table or was removed once; the callback ran once for each request whose completion took its record out,
    with the connection that the request was accepted from. -/
theorem requests_complete {s : RequestSystem} (run : RequestRun s) :
    (s.accepted.map (·.metadata)).Perm (s.store.requests ++ s.removed.map (·.metadata)) ∧
    s.deliveries.map (fun d => d.found.map (·.metadata)) =
      (s.removed.filter (·.why = .delivered)).map (fun r => some r.metadata) ∧
    (∀ m, (s.deliveries.filter (fun d => d.found.map (·.metadata) = some m)).length ≤
      (s.accepted.filter (·.metadata = m)).length) ∧
    (∀ d ∈ s.deliveries, Delivered s d) ∧
    ∀ completion, s.path.remaining = some completion → ∀ deliver,
      Completed s completion deliver (s.store.consumeCompletion s.view (some completion) .ok deliver) := by
  obtain ⟨lent, leases, history, inv⟩ := kept_of_run run
  refine ⟨inv.log.accounted, inv.log.once, deliveries_le_accepted inv.log, inv.log.delivered,
    fun completion hremaining deliver => ?_⟩
  exact completed inv (inv.tasks.path.inHand completion hremaining) deliver

theorem RequestRun.foldl (run : RequestRun s) (events : List RequestEvent) :
    RequestRun (events.foldl RequestSystem.exec s) := by
  induction events generalizing s with
  | nil => exact run
  | cons e events ih => exact ih (.step run e)

/-- One request, from its submit to the call of the callback. -/
def oneRequest : List RequestEvent :=
  let task : TaskMetadata := ⟨⟨1, 0, 1, 1⟩, 1, 1, 0⟩
  [.admitClients 1 1 .ok false, .issue true ⟨1, 0, 1⟩ 1 1 0,
    .submit task 1 .notFound ⟨.ok, .none, true, .none, true, 0⟩ .ok,
    .path (.publish 0 task .ok 0 64 .ok ⟨0, 0, 0⟩), .path (.notify 0 none), .path (.round 1 none),
    .path (.pop ⟨0, 0, 0⟩), .consume .ok]

/-- A server for one client, one request and one completion. -/
def oneServer : RequestSystem :=
  let options : ConnectionPoolOptions := ⟨1, 65536, 8⟩
  .start (.fresh (.fresh ⟨8, 8, 1, 8, 8⟩ 168 65224 24 1 0) options) ⟨1, 0, [.empty], ⟨0, []⟩⟩
    ((CompletionQueue.fresh 1 1024 304).prepareWait 0).2 0

theorem oneServer_run : RequestRun oneServer := by
  have hstore : InflightStore.create 1 4096 true = .ok ⟨1, 0, [.empty], ⟨0, []⟩⟩ := rfl
  have hqueue : (CompletionQueue.create 1 1024 true 0 : Except Result (CompletionQueue CompletionMetadata)) =
      .ok (.fresh 1 1024 304) := rfl
  exact .start 0 ConnectionPool.create_one hstore hqueue

/-- The request is accepted, and its one callback is called for its own client. -/
theorem requests_complete_one :
    let s := oneRequest.foldl RequestSystem.exec oneServer
    s.accepted = [⟨⟨⟨1, 0, 1, 1⟩, 1, 1, 0⟩, some 0⟩] ∧ s.deliveries.length = 1 ∧
      ∀ d ∈ s.deliveries, Delivered s d := by
  intro s
  have complete := requests_complete (oneServer_run.foldl oneRequest)
  exact ⟨by decide, by decide, complete.2.2.2.1⟩

/-- **The callback does not find its request in the table**: the record is taken in front of the call. -/
theorem requests_complete_takes_record : ∃ s, RequestRun s ∧ ∃ d ∈ s.deliveries, d.during = none := by
  refine ⟨oneRequest.foldl RequestSystem.exec oneServer, oneServer_run.foldl oneRequest, ?_⟩
  decide

end Vireo.Net
