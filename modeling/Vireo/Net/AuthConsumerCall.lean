/-
  File:      Vireo/Net/AuthConsumerCall.lean
  Subject:   WHAT A CALL OF A CONSUMER KEEPS: its parts, one after the other.
-/
import Vireo.Net.AuthConsumerLog
import Vireo.Net.InflightStore

namespace Vireo.Net

open Base Lib Thread Protocol Service Call List
open Prog (wp wp_bind wp_cases wp_fail wp_modify wp_mono wp_pure)

/-! ## 1. How far a receipt is -/

/-- A receipt has this ticket, and the ticket waits. -/
def Receipt.Holds (r : Receipt) (ticket : SessionTicket) : Prop := r.ticketPending = true ∧ r.ticket = ticket

section

variable (log : List ConsumerEvent) (job : Nat) (owner : Option AuthCompletion) (r : Receipt)

/-- A completion is worked on. -/
structure Working (c : AuthCompletion) : Prop where
  owner : owner = some c
  offered : .offered job c ∈ log
  going : ¬ JobEnded log job
  effect : r.effectApplied = true ↔ ∃ id, .applied job id ∈ log

/-- Nothing is known of its request yet. -/
structure Untouched (c : AuthCompletion) : Prop extends Working log job owner r c where
  state : r.state = .empty
  free : r.ticketPending = false
  unsent : ¬ Sent log job

/-- Its response is about to be enqueued. -/
structure Enqueuing (c : AuthCompletion) (o : AuthOutcome) : Prop extends Working log job owner r c where
  outcome : authCompletionDecode c = .ok o
  state : r.state = .needsEnqueue
  metadata : r.metadata = o.metadata
  redeemed : Redeemed log job
  unsent : ¬ Sent log job
  status : r.wireStatus = 0 → o.metadata.suggestedStatus = 0
  pays : r.ticketPending = true → o.grants = true ∧ (r.wireStatus = 0 ∨ o.resumed = true)
  own : r.ticketPending = true → .reserved job r.ticket ∈ log

/-- Its response is enqueued, and its session is not bound. -/
structure Binding (c : AuthCompletion) : Prop extends Working log job owner r c where
  state : r.state = .needsBind
  holds : r.ticketPending = true
  own : .reserved job r.ticket ∈ log
  redeemed : Redeemed log job
  uncommitted : ∀ e ∈ log, e.commits job = false
  announced : ∃ wire now, .enqueued job r.ticket.client wire now ∈ log ∧ Announces wire r.ticket.handle

/-- It is answered. -/
structure Answered (c : AuthCompletion) : Prop extends Working log job owner r c where
  free : r.ticketPending = false
  redeemed : Redeemed log job
  bound : Bound log job

end

theorem Working.plain {log : List ConsumerEvent} {job : Nat} {owner : Option AuthCompletion} {r : Receipt}
    {c : AuthCompletion} (h : Working log job owner r c) {e : ConsumerEvent} (he : e.plain = true) :
    Working (log ++ [e]) job owner r c :=
  ⟨h.owner, mem_append_left _ h.offered, fun hover => h.going ((jobEnded_plain he).mp hover),
    h.effect.trans (exists_congr fun _ => (mem_applied_plain he).symm)⟩

/-- How a receipt is between the calls. -/
inductive Resting (log : List ConsumerEvent) (job : Nat) : Option AuthCompletion → Receipt → Prop
  | idle : Resting log job none .zero
  | started {owner : Option AuthCompletion} {r : Receipt} {c : AuthCompletion}
      (h : Untouched log job owner r c) : Resting log job owner r
  | enqueuing {owner : Option AuthCompletion} {r : Receipt} {c : AuthCompletion} {o : AuthOutcome}
      (h : Enqueuing log job owner r c o) : Resting log job owner r
  | refreshing {owner : Option AuthCompletion} {r : Receipt} {c : AuthCompletion}
      (h : Answered log job owner r c) (state : r.state = .needsRefresh) : Resting log job owner r
  | ready {r : Receipt} {c : AuthCompletion} (offered : .offered job c ∈ log) (state : r.state = .ready)
      (free : r.ticketPending = false) (redeemed : Redeemed log job) : Resting log job none r

section

variable {log : List ConsumerEvent} {job : Nat} {owner : Option AuthCompletion} {r : Receipt} {c : AuthCompletion}

section

variable (h : Resting log job owner r)
include h

theorem Resting.of_some (howner : owner = some c) :
    Untouched log job owner r c ∨ (∃ o, Enqueuing log job owner r c o) ∨
      Answered log job owner r c ∧ r.state = .needsRefresh := by
  cases h with
  | idle => cases howner
  | @started _ _ c' h =>
    have hc : c' = c := Option.some.inj (h.owner.symm.trans howner)
    exact .inl (hc ▸ h)
  | @enqueuing _ _ c' o h =>
    have hc : c' = c := Option.some.inj (h.owner.symm.trans howner)
    exact .inr (.inl ⟨o, hc ▸ h⟩)
  | @refreshing _ _ c' h state =>
    have hc : c' = c := Option.some.inj (h.owner.symm.trans howner)
    exact .inr (.inr ⟨hc ▸ h, state⟩)
  | ready => cases howner

theorem Resting.of_none (howner : owner = none) :
    r = .zero ∨ (∃ c, .offered job c ∈ log) ∧ r.state = .ready ∧ r.ticketPending = false ∧ Redeemed log job := by
  cases h with
  | idle => exact .inl rfl
  | started h => cases h.owner.symm.trans howner
  | enqueuing h => cases h.owner.symm.trans howner
  | refreshing h => cases h.owner.symm.trans howner
  | ready offered state free redeemed => exact .inr ⟨⟨_, offered⟩, state, free, redeemed⟩

theorem Resting.pending (holds : r.ticketPending = true) :
    .reserved job r.ticket ∈ log ∧ ¬ JobEnded log job := by
  cases h with
  | idle => cases holds
  | started h => rw [h.free] at holds; cases holds
  | enqueuing h => exact ⟨h.own holds, h.going⟩
  | refreshing h => rw [h.free] at holds; cases holds
  | ready offered state free => rw [free] at holds; cases holds

end

end

/-! ## 2. What holds all the time -/

/-- What a call is about: its job, the tickets that others hold, the clients, the log that it started with. -/
structure CallEnv where
  job : Nat
  others : SessionTicket → Prop
  lent : List (Lent Nat)
  issued : List Lease
  closed : List Lease
  start : List ConsumerEvent

/-- What holds all the time. -/
structure TurnInv (x : CallEnv) (t : Turn) : Prop where
  tickets : Tickets t.base x.lent x.issued x.closed fun T => x.others T ∨ t.receipt.Holds T
  lawful : Lawful consumerLaw t.log
  agrees : Agrees t.base.log t.log
  grown : ∃ more, t.log = x.start ++ more ∧ ∀ e ∈ more, e.job = x.job
  others : ∀ T, x.others T → ∃ j, j ≠ x.job ∧ .reserved j T ∈ t.log

section

variable {x : CallEnv} {t t' : Turn} {c : AuthCompletion} {o : AuthOutcome} {ticket : SessionTicket}
  {now : UInt64} {a : ConsumerAnswers} {job : Nat} {client : Lease}

section

variable (h : TurnInv x t)
include h

theorem TurnInv.same (hbase : t'.base = t.base) (hlog : t'.log = t.log)
    (hheld : ∀ T, t'.receipt.Holds T ↔ t.receipt.Holds T := by exact fun _ => .rfl) : TurnInv x t' := by
  obtain ⟨tickets, lawful, agrees, grown, others⟩ := h
  refine ⟨?_, hlog ▸ lawful, by rw [hbase, hlog]; exact agrees, hlog ▸ grown, hlog ▸ others⟩
  rw [hbase]
  exact tickets.congr fun T => or_congr_right (hheld T).symm

theorem TurnInv.say {e : ConsumerEvent} (hjob : e.job = x.job) (hlaw : consumerLaw t.log e)
    (hlog : t'.log = t.log ++ [e]) (hagrees : Agrees t'.base.log (t.log ++ [e]))
    (htickets : Tickets t'.base x.lent x.issued x.closed fun T => x.others T ∨ t'.receipt.Holds T) :
    TurnInv x t' := by
  obtain ⟨more, hmore, hmine⟩ := h.grown
  refine ⟨htickets, hlog ▸ h.lawful.snoc hlaw, hlog ▸ hagrees,
    ⟨more ++ [e], by rw [hlog, hmore, append_assoc], fun e' he' => ?_⟩, fun T hT => ?_⟩
  · rcases mem_append.mp he' with hold | hnew
    · exact hmine e' hold
    · cases mem_singleton.mp hnew
      exact hjob
  · obtain ⟨j, hne, hmem⟩ := h.others T hT
    exact ⟨j, hne, hlog ▸ mem_append_left _ hmem⟩

theorem TurnInv.mine (hmem : .reserved x.job ticket ∈ t.log) : ¬ x.others ticket := by
  intro hothers
  obtain ⟨j, hne, hj⟩ := h.others ticket hothers
  exact hne (ticket_unique h.lawful hj hmem)

theorem TurnInv.released (hmem : .reserved x.job t.receipt.ticket ∈ t.log) {r : Receipt}
    (hfree : r.ticketPending = false) (T : SessionTicket) :
    (x.others T ∨ t.receipt.Holds T) ∧ T ≠ t.receipt.ticket ↔ x.others T ∨ r.Holds T := by
  constructor
  · rintro ⟨hT | hT, hne⟩
    · exact .inl hT
    · exact absurd hT.2.symm hne
  · rintro (hT | hT)
    · refine ⟨.inl hT, ?_⟩
      rintro rfl
      exact h.mine hmem hT
    · exact absurd hT.1 (by simp [hfree])

end

theorem ticket_client (h : Lawful consumerLaw t.log) (hmem : .reserved job ticket ∈ t.log)
    (ho : About t.log job o) :
    ticket.client = Net.client o.metadata.request := by
  obtain ⟨before, after, hsplit⟩ := append_of_mem hmem
  obtain ⟨⟨o', ho', hclient⟩, -⟩ := h before _ after hsplit
  rw [hclient, about_unique h ho (ho'.mono fun e he => by rw [hsplit]; exact mem_append_left _ he)]

/-- The client of an outcome is there, and not closed. -/
def There (x : CallEnv) (o : AuthOutcome) (t : Turn) : Prop :=
  Net.client o.metadata.request ∉ x.closed ∧
    ∃ state, t.base.clients.clientInspect (Net.client o.metadata.request) = .ok state

/-- A response is about to be enqueued. -/
structure OnTheWay (x : CallEnv) (c : AuthCompletion) (o : AuthOutcome) (t : Turn) : Prop where
  inv : TurnInv x t
  now : Enqueuing t.log x.job t.owner t.receipt c o

theorem OnTheWay.about (h : OnTheWay x c o t) : About t.log x.job o := ⟨c, h.now.offered, h.now.outcome⟩

theorem OnTheWay.waits (h : OnTheWay x c o t) (there : There x o t) (holds : t.receipt.ticketPending = true) :
    Waits t.base.sessions t.receipt.ticket := by
  have hclient := ticket_client h.inv.lawful (h.now.own holds) h.about
  obtain ⟨hclosed, state, hstate⟩ := there
  exact h.inv.tickets.waits (.inr ⟨holds, rfl⟩) (hclient ▸ hclosed) (hclient ▸ hstate)

/-! ## 3. The rules for a call -/

section Rules

variable {Q : Unit → Turn → Prop} {E : Result → Turn → Prop}

@[simp]
theorem wp_look {f : Turn → Call} : wp (look f) Q E t ↔ wp (f t) Q E t := Prog.wp_congr rfl

@[simp]
theorem wp_check {r : Result} : wp (Call.check r) Q E t ↔ (r = .ok → Q () t) ∧ (r ≠ .ok → E r t) := by
  unfold Call.check
  split
  · rename_i h
    simp [h]
  · rename_i h
    simp [h]

@[simp]
theorem wp_stage {s : ConsumerStage} :
    wp (Call.stage s) Q E t ↔ Q () { t with report := { t.report with stage := s } } := wp_modify

@[simp]
theorem wp_onReceipt {f : Receipt → Receipt} :
    wp (onReceipt f) Q E t ↔ Q () { t with receipt := f t.receipt } := wp_modify

@[simp]
theorem wp_only {p : Prop} [Decidable p] {q : Call} :
    wp (only p q) Q E t ↔ (p → wp q Q E t) ∧ (¬ p → Q () t) := by
  unfold Call.only
  split
  · rename_i h
    simp [h]
  · rename_i h
    simp [h]

@[simp]
theorem wp_whenState {s : ReceiptState} {q : Call} :
    wp (whenState s q) Q E t ↔ (t.receipt.state = s → wp q Q E t) ∧ (t.receipt.state ≠ s → Q () t) :=
  wp_look.trans wp_only

end Rules

/-! ## 4. The effects -/

theorem effects_redeemed (h : Working t.log x.job t.owner t.receipt c) (hout : About t.log x.job o)
    (hredeemed : Redeemed t.log x.job) :
    wp (effects o x.job) (fun _ t' => t' = t) (fun e t' => e ≠ .ok ∧ t' = t) t := by
  unfold effects
  rw [wp_look]
  dsimp only
  split
  · exact wp_check.mpr ⟨fun _ => rfl, fun hne => ⟨hne, rfl⟩⟩
  rename_i hnot
  split
  · exact wp_pure.mpr rfl
  rename_i hrevokes
  have hmem := hredeemed o hout ((Bool.not_eq_false _).mp hrevokes)
  exact absurd (h.effect.mpr ⟨_, hmem⟩) hnot

theorem effects_untouched (inv : TurnInv x t) (h : Untouched t.log x.job t.owner t.receipt c)
    (hdecode : authCompletionDecode c = .ok o) :
    wp (effects o x.job)
      (fun _ t' => TurnInv x t' ∧ Untouched t'.log x.job t'.owner t'.receipt c ∧ Redeemed t'.log x.job)
      (fun e t' => e ≠ .ok ∧ TurnInv x t' ∧ Untouched t'.log x.job t'.owner t'.receipt c) t := by
  have hout : About t.log x.job o := ⟨c, h.offered, hdecode⟩
  unfold effects
  rw [wp_look]
  dsimp only
  split
  · rename_i happlied
    obtain ⟨id, hid⟩ := h.effect.mp happlied
    exact wp_check.mpr ⟨fun _ => ⟨inv, h, redeemed_of_applied inv.lawful hid⟩, fun hne => ⟨hne, inv, h⟩⟩
  · rename_i hnot
    split
    · rename_i hrevokes
      refine wp_pure.mpr ⟨inv, h, fun o' ho' hr => ?_⟩
      rw [about_unique inv.lawful ho' hout, hrevokes] at hr
      cases hr
    · rename_i hrevokes
      have hr : o.revokes = true := (Bool.not_eq_false _).mp hrevokes
      have hid := AuthOutcome.revokes_fields (authCompletionDecode_ok hdecode).1 hr
      have hok := @applyLogout_ok t.base.sessions _ hid
      have hnone : ∀ e ∈ t.log, e.applies x.job = false := by
        intro e he
        cases e with
        | applied j id =>
          refine decide_eq_false fun hj => hnot (h.effect.mpr ⟨id, ?_⟩)
          rw [← hj]
          exact he
        | _ => rfl
      have hlaw : consumerLaw t.log (.applied x.job o.logoutTarget.sessionId) :=
        ⟨⟨o, hout, hr, rfl⟩, hnone, h.unsent, h.going⟩
      rw [wp_bind, wp_modify, wp_bind, wp_check]
      refine ⟨fun _ => ?_, fun hne => absurd hok hne⟩
      refine wp_modify.mpr ⟨inv.say rfl hlaw rfl (inv.agrees.applied _ _)
        ((tickets_applyLogout inv.tickets _).congr fun T => .rfl), ⟨⟨h.owner, ?_, ?_, ?_⟩, h.state, h.free, ?_⟩,
        ?_⟩
      · exact mem_append_left _ h.offered
      · simpa [JobEnded] using h.going
      · exact iff_of_true rfl ⟨_, mem_append_right _ (mem_singleton_self _)⟩
      · simpa [Sent] using h.unsent
      · exact redeemed_of_applied (inv.lawful.snoc hlaw) (mem_append_right _ (mem_singleton_self _))

/-! ## 5. The enqueue -/

theorem OnTheWay.status (h : OnTheWay x c o t) {status : UInt16} (hzero : status = 0 → t.receipt.wireStatus = 0)
    (hpays : t.receipt.ticketPending = true → status = 0 ∨ o.resumed = true) :
    OnTheWay x c o { t with receipt := { t.receipt with wireStatus := status } } :=
  ⟨h.inv.same rfl rfl, { h.now with
    status := fun hs => h.now.status (hzero hs)
    pays := fun hp => ⟨(h.now.pays hp).1, hpays hp⟩ }⟩

theorem abortTicket_spec (h : OnTheWay x c o t) (there : There x o t) (holds : t.receipt.ticketPending = true) :
    wp abortTicket (fun _ t' => OnTheWay x c o t' ∧ There x o t' ∧ t'.receipt.ticketPending = false ∧
      t'.receipt.wireStatus = t.receipt.wireStatus) (fun _ _ => False) t := by
  have hwaits := h.waits there holds
  obtain ⟨htickets, hok, -⟩ := tickets_abort h.inv.tickets (.inr ⟨holds, rfl⟩)
  unfold abortTicket
  rw [wp_look, wp_bind, wp_modify, wp_bind, wp_check]
  refine ⟨fun _ => wp_onReceipt.mpr ?_, fun hne => hne (hok.mpr hwaits)⟩
  refine ⟨⟨{ h.inv with tickets := ?_ }, { h.now with
    pays := nofun
    own := nofun }⟩, there, rfl, rfl⟩
  exact htickets.congr (h.inv.released (h.now.own holds) rfl)

theorem checkResume_spec (now : UInt64) (h : OnTheWay x c o t) (there : There x o t) :
    wp (checkResume o now) (fun _ t' => OnTheWay x c o t' ∧ There x o t' ∧
        (o.resumed = true → o.expiresAtMs ≤ now → t'.receipt.wireStatus ≠ 0))
      (fun e t' => e ≠ .ok ∧ OnTheWay x c o t') t := by
  unfold checkResume
  rw [wp_look]
  split
  · rename_i hresume
    dsimp only
    split
    · rename_i hrc
      exact wp_fail.mpr ⟨hrc.1, h⟩
    · refine wp_onReceipt.mpr ⟨h.status (fun _ => hresume.2) fun _ => .inr hresume.1, there, fun _ hexpired => ?_⟩
      dsimp only
      rw [if_pos (.inr hexpired)]
      decide
  · rename_i hnot
    exact wp_pure.mpr ⟨h, there, fun hr _ hs => hnot ⟨hr, hs⟩⟩

theorem dropResume_spec (h : OnTheWay x c o t) (there : There x o t) : wp (dropResume o)
      (fun _ t' => OnTheWay x c o t' ∧ There x o t' ∧ t'.receipt.wireStatus = t.receipt.wireStatus ∧
        (t'.receipt.ticketPending = true → t'.receipt.wireStatus = 0))
      (fun _ _ => False) t := by
  unfold dropResume
  rw [wp_look, wp_only]
  refine ⟨fun ⟨_, _, holds⟩ => ?_, fun hnot => ⟨h, there, rfl, fun holds => ?_⟩⟩
  · refine wp_mono (abortTicket_spec h there holds) (fun _ t' h' => ?_) fun _ _ h' => h'
    obtain ⟨henq, hthere, hfree, hstatus⟩ := h'
    exact ⟨henq, hthere, hstatus, fun hp => absurd hp (by simp [hfree])⟩
  · by_contra hne
    exact hnot ⟨(h.now.pays holds).2.resolve_left hne, hne, holds⟩

theorem expireLogin_spec (h : OnTheWay x c o t) (there : There x o t)
    (hdropped : t.receipt.ticketPending = true → t.receipt.wireStatus = 0)
    (hresume : o.resumed = true → o.expiresAtMs ≤ now → t.receipt.wireStatus ≠ 0) :
    wp (expireLogin o now) (fun _ t' => OnTheWay x c o t' ∧ There x o t' ∧
        (t'.receipt.ticketPending = true → t'.receipt.wireStatus = 0) ∧
        (o.grants = true → o.expiresAtMs ≤ now → t'.receipt.wireStatus ≠ 0))
      (fun _ _ => False) t := by
  have hmark : statusSessionExpired ≠ 0 := by decide
  unfold expireLogin
  rw [wp_look, wp_only]
  refine ⟨fun hexpired => ?_, fun hnot => ⟨h, there, hdropped, fun hg hnow => ?_⟩⟩
  · have hgone : ∀ t', OnTheWay x c o t' → There x o t' → t'.receipt.ticketPending = false →
        wp (onReceipt fun r => { r with wireStatus := statusSessionExpired })
          (fun _ t' => OnTheWay x c o t' ∧ There x o t' ∧
            (t'.receipt.ticketPending = true → t'.receipt.wireStatus = 0) ∧
            (o.grants = true → o.expiresAtMs ≤ now → t'.receipt.wireStatus ≠ 0))
          (fun _ _ => False) t' := by
      intro t' henq hthere hfree
      have hno : ¬ t'.receipt.ticketPending = true := by simp [hfree]
      exact wp_onReceipt.mpr ⟨henq.status (fun hs => absurd hs hmark) fun hp => absurd hp hno, hthere,
        fun hp => absurd hp hno, fun _ _ => hmark⟩
    rw [wp_bind, wp_only]
    refine ⟨fun holds => ?_, fun hfree => hgone t h there ((Bool.not_eq_true _).mp hfree)⟩
    refine wp_mono (abortTicket_spec h there holds) (fun _ t' h' => ?_) fun _ _ h' => h'
    exact hgone t' h'.1 h'.2.1 h'.2.2.1
  · by_cases hr : o.resumed = true
    · exact hresume hr hnow
    · exact absurd ⟨hg, (Bool.not_eq_true _).mp hr, hnow⟩ hnot

omit x t t' c o in
theorem exec_reserve_clients (s : SessionSystem) (client : Lease) (identity : SessionIdentity)
    (random : Option (UInt8 × UInt8 × UInt8 × UInt8)) : (s.exec (.reserve client identity random)).clients = s.clients := by
  unfold SessionSystem.exec SessionSystem.reserve
  dsimp only
  split <;> rfl

theorem reserveTicket_spec {random : Option (UInt8 × UInt8 × UInt8 × UInt8)} (h : OnTheWay x c o t)
    (there : There x o t) (hdropped : t.receipt.ticketPending = true → t.receipt.wireStatus = 0) :
    wp (reserveTicket o (Net.client o.metadata.request) random x.job)
      (fun _ t' => OnTheWay x c o t' ∧ There x o t' ∧ t'.receipt.wireStatus = t.receipt.wireStatus ∧
        (t'.receipt.ticketPending = true ↔ o.grants = true ∧ t'.receipt.wireStatus = 0))
      (fun e t' => e ≠ .ok ∧ OnTheWay x c o t') t := by
  unfold reserveTicket
  rw [wp_look, wp_only]
  refine ⟨fun ⟨hg, hs, hfree⟩ => ?_, fun hnot => ⟨h, there, rfl, fun holds => ?_, fun hneed => ?_⟩⟩
  · rw [wp_bind, wp_stage]
    rw [wp_bind, wp_modify]
    generalize (⟨o.userId, o.sessionId, o.issuedAtMs, o.expiresAtMs, false⟩ : SessionIdentity) = identity
    split
    · rename_i e he
      have hcases := AuthSessions.reserve_cases t.base.sessions t.base.clients.clientInspect
        (Net.client o.metadata.request) identity random
      have hbase : t.base.exec (.reserve (Net.client o.metadata.request) identity random) = t.base := by
        unfold SessionSystem.exec SessionSystem.reserve
        dsimp only
        generalize t.base.sessions.reserve t.base.clients.clientInspect (Net.client o.metadata.request) identity
          random = r at he hcases ⊢
        cases hcases with
        | refused e => rfl
        | taken => cases he
      exact wp_fail.mpr ⟨reserve_error he, h.inv.same hbase rfl fun _ => .rfl, h.now⟩
    · rename_i ticket hticket
      obtain ⟨htickets, hlog, hclient, hfresh⟩ := tickets_reserve h.inv.tickets hticket
      have hlaw : consumerLaw t.log (.reserved x.job ticket) := by
        refine ⟨⟨o, h.about, hclient⟩, fun j hj => ?_, h.now.going⟩
        obtain ⟨i, hi⟩ := h.inv.agrees.reserves j ticket hj
        exact hfresh i hi
      have hreserved := mem_append_right t.log (mem_singleton_self (.reserved x.job ticket))
      refine wp_modify.mpr ⟨⟨h.inv.say rfl hlaw rfl ?_ (htickets.congr fun T => ?_),
        { h.now.toWorking.plain rfl with
          outcome := h.now.outcome
          state := h.now.state
          metadata := h.now.metadata
          redeemed := (redeemed_plain rfl).mpr h.now.redeemed
          unsent := by simpa [Sent] using h.now.unsent
          status := h.now.status
          pays := fun _ => ⟨hg, .inl hs⟩
          own := fun _ => hreserved }⟩, ⟨there.1, ?_⟩, rfl, iff_of_true rfl ⟨hg, hs⟩⟩
      · rw [hlog]
        exact h.inv.agrees.reserved x.job ticket identity
      · simp [Receipt.Holds, hfree, eq_comm]
      · rw [exec_reserve_clients]
        exact there.2
  · exact ⟨(h.now.pays holds).1, hdropped holds⟩
  · by_contra hno
    exact hnot ⟨hneed.1, hneed.2, (Bool.not_eq_true _).mp hno⟩

omit x t t' c o in
theorem ready_ok {clients : ClientTable Nat} {activity : Except Failure ServerActivity} {transport : Transport}
    (h : ready clients client true activity transport = .ok) :
    transport.Open ∧ ∃ state, clients.clientInspect client = .ok state := by
  unfold ready at h
  split at h
  · rename_i e
    exact absurd h e.property
  split at h
  · cases h
  split at h
  · cases h
  split at h
  · rename_i e _
    exact absurd h e.property
  · rename_i e _ _
    exact absurd h e.property
  rename_i state _ hinspect
  refine ⟨?_, state, hinspect⟩
  split at h
  · cases h
  split at h
  · rename_i hne
    exact absurd h hne
  rw [if_neg (by simp)] at h
  split at h
  · rename_i e _
    exact absurd h e.property
  rename_i handshake hhandshake
  split at h
  · rename_i e _
    exact absurd h e.property
  rename_i io hio
  split at h
  · rename_i e _
    exact absurd h e.property
  rename_i close hclose
  split at h
  · rename_i hall
    exact ⟨hall.1 ▸ hhandshake, hall.2.1 ▸ hio, hall.2.2 ▸ hclose⟩
  · cases h

omit x t t' c o in
theorem authResponseEncode_full (v : AuthResponse) : authResponseEncode v 104 =
    if authResponseValid v = true then .ok (authResponseFrame v) else .error .invalidArgument := by
  split
  · rename_i h
    rw [authResponseEncode_eq h, if_neg (Nat.not_lt.mpr (authResponseLength_le v))]
  · rename_i h
    unfold authResponseEncode
    rw [if_pos ((Bool.not_eq_true _).mp h)]

/-- What is to be bound. -/
structure Binds (x : CallEnv) (c : AuthCompletion) (t : Turn) : Prop where
  inv : TurnInv x t
  now : Binding t.log x.job t.owner t.receipt c
  waits : Waits t.base.sessions t.receipt.ticket

/-- What was answered. -/
structure Answers (x : CallEnv) (c : AuthCompletion) (t : Turn) : Prop where
  inv : TurnInv x t
  now : Answered t.log x.job t.owner t.receipt c

/-- **The frame**: it announces the handle of the ticket that waits, and none otherwise. -/
theorem putFrame_spec {enqueue : Result} (h : OnTheWay x c o t) (there : There x o t)
    (hready : t.receipt.ticketPending = true ↔ o.grants = true ∧ t.receipt.wireStatus = 0)
    (hexpired : o.grants = true → o.expiresAtMs ≤ now → t.receipt.wireStatus ≠ 0) :
    wp (putFrame o (Net.client o.metadata.request) now enqueue x.job)
      (fun _ t' => Binds x c t' ∨ Answers x c t' ∧ t'.receipt.state = .needsRefresh)
      (fun e t' => e ≠ .ok ∧ OnTheWay x c o t') t := by
  have hshape := (authCompletionDecode_ok h.now.outcome).1
  unfold putFrame
  rw [wp_look, wp_bind, wp_stage, authResponseEncode_full]
  by_cases hvalid : authResponseValid (responseOf o t.receipt) = true
  · rw [if_pos hvalid]
    have hdecode := authResponseDecode_frame hvalid
    generalize authResponseFrame (responseOf o t.receipt) = wire at hdecode
    -- what the frame says of a session is what the receipt has
    have htold : ∀ handle, Announces wire handle ↔
        t.receipt.ticketPending = true ∧ t.receipt.ticket.handle = handle := by
      intro handle
      constructor
      · rintro ⟨v, hv, hstatus, hcommand, rfl⟩
        have hsame : (Result.ok, v) = (Result.ok, responseOf o t.receipt) := (hv v).symm.trans (hdecode v)
        cases hsame
        have hg := AuthOutcome.grants_of_success hshape hcommand (h.now.status hstatus)
        exact ⟨hready.mpr ⟨hg, hstatus⟩, (if_pos ⟨hstatus, hg⟩).symm⟩
      · rintro ⟨holds, rfl⟩
        obtain ⟨hg, hs⟩ := hready.mp holds
        exact ⟨_, hdecode, hs, AuthOutcome.grants_command hg, if_pos ⟨hs, hg⟩⟩
    have hrefuses : o.grants = true → o.expiresAtMs ≤ now → Refuses wire := by
      intro hg hnow
      have hs := hexpired hg hnow
      exact ⟨_, hdecode, hs, if_neg fun hboth => hs hboth.1⟩
    have hlaw : consumerLaw t.log (.enqueued x.job (Net.client o.metadata.request) wire now) :=
      ⟨h.now.unsent, h.now.going, h.now.redeemed, o, h.about, rfl, hrefuses⟩
    rw [wp_bind, wp_modify, wp_bind, wp_check]
    refine ⟨fun _ => wp_modify.mpr ?_, fun hne => ⟨hne, h.inv.same rfl rfl, h.now⟩⟩
    have hsent := mem_append_right t.log
      (mem_singleton_self (ConsumerEvent.enqueued x.job (Net.client o.metadata.request) wire now))
    have hworking := h.now.toWorking.plain
      (rfl : (ConsumerEvent.enqueued x.job (Net.client o.metadata.request) wire now).plain = true)
    have hredeemed := (redeemed_plain (rfl : (ConsumerEvent.enqueued x.job (Net.client o.metadata.request) wire
      now).plain = true)).mpr h.now.redeemed
    have hinv : ∀ state report, TurnInv x { t with
        report := report
        receipt := { t.receipt with state := state }
        log := t.log ++ [.enqueued x.job (Net.client o.metadata.request) wire now] } :=
      fun state report => h.inv.say rfl hlaw rfl (h.inv.agrees.apart rfl) h.inv.tickets
    by_cases holds : t.receipt.ticketPending = true
    · have hclient := ticket_client h.inv.lawful (h.now.own holds) h.about
      left
      refine ⟨hinv _ _, { hworking with
        state := if_pos holds
        holds := holds
        own := mem_append_left _ (h.now.own holds)
        redeemed := hredeemed
        uncommitted := ?_
        announced := ⟨wire, now, hclient ▸ hsent, (htold _).mpr ⟨holds, rfl⟩⟩ }, h.waits there holds⟩
      intro e he
      rcases mem_append.mp he with hold | hnew
      · exact uncommitted_of_unsent h.inv.lawful h.now.unsent e hold
      · cases mem_singleton.mp hnew
        rfl
    · right
      refine ⟨⟨hinv _ _, { hworking with
        free := (Bool.not_eq_true _).mp holds
        redeemed := hredeemed
        bound := ?_ }⟩, if_neg holds⟩
      intro client wire' now' handle hmem hsay
      rcases mem_append.mp hmem with hold | hnew
      · exact absurd ⟨client, wire', now', hold⟩ h.now.unsent
      · cases mem_singleton.mp hnew
        exact absurd ((htold handle).mp hsay).1 holds
  · rw [if_neg hvalid]
    exact wp_fail.mpr ⟨by decide, h.inv.same rfl rfl, h.now⟩

/-- **`send_result` in front of the enqueue.** -/
theorem enqueuePart_spec (h : OnTheWay x c o t)
    (hopen : Net.client o.metadata.request ∈ x.closed → ¬ a.transport.Open) :
    wp (enqueuePart o (Net.client o.metadata.request) now a x.job)
      (fun _ t' => Binds x c t' ∨ Answers x c t' ∧ t'.receipt.state = .needsRefresh)
      (fun e t' => e ≠ .ok ∧ OnTheWay x c o t') t := by
  unfold enqueuePart
  rw [wp_bind, wp_stage, wp_bind, wp_look, wp_check]
  refine ⟨fun hok => ?_, fun hne => ⟨hne, h.inv.same rfl rfl, h.now⟩⟩
  obtain ⟨hopened, hthere⟩ := ready_ok hok
  have henq : OnTheWay x c o { t with report := { t.report with stage := .transport } } :=
    ⟨h.inv.same rfl rfl, h.now⟩
  have there : There x o { t with report := { t.report with stage := .transport } } :=
    ⟨fun hclosed => hopen hclosed hopened, hthere⟩
  rw [wp_bind]
  refine wp_mono (checkResume_spec now henq there) (fun _ t₁ h₁ => ?_) fun _ _ h₁ => h₁
  obtain ⟨henq₁, there₁, hresume₁⟩ := h₁
  rw [wp_bind]
  refine wp_mono (dropResume_spec henq₁ there₁) (fun _ t₂ h₂ => ?_) fun _ _ h₂ => h₂.elim
  obtain ⟨henq₂, there₂, hstatus₂, hdropped₂⟩ := h₂
  rw [wp_bind]
  refine wp_mono (expireLogin_spec henq₂ there₂ hdropped₂ (hstatus₂ ▸ hresume₁)) (fun _ t₃ h₃ => ?_)
    fun _ _ h₃ => h₃.elim
  obtain ⟨henq₃, there₃, hdropped₃, hexpired₃⟩ := h₃
  rw [wp_bind]
  refine wp_mono (reserveTicket_spec henq₃ there₃ hdropped₃) (fun _ t₄ h₄ => ?_) fun _ _ h₄ => h₄
  obtain ⟨henq₄, there₄, hstatus₄, hready₄⟩ := h₄
  exact putFrame_spec henq₄ there₄ hready₄ (hstatus₄ ▸ hexpired₃)

/-! ## 6. The bind and the refresh -/

theorem bindPart_spec (h : Binds x c t) :
    wp (bindPart x.job) (fun _ t' => Answers x c t' ∧ t'.receipt.state = .needsRefresh)
      (fun _ _ => False) t := by
  obtain ⟨htickets, hok, hlog⟩ := tickets_commit h.inv.tickets h.waits
  obtain ⟨wire, now, hwire, htold⟩ := h.now.announced
  have hlaw : consumerLaw t.log (.committed x.job t.receipt.ticket) :=
    ⟨h.now.uncommitted, h.now.own, wire, now, hwire, htold⟩
  unfold bindPart
  rw [wp_bind, wp_stage, wp_look]
  rw [wp_bind, wp_modify, wp_bind, wp_check]
  refine ⟨fun _ => wp_modify.mpr ⟨⟨h.inv.say rfl hlaw rfl ?_ (htickets.congr (h.inv.released h.now.own rfl)),
    { h.now.toWorking.plain rfl with
      free := rfl
      redeemed := (redeemed_plain rfl).mpr h.now.redeemed
      bound := ?_ }⟩, rfl⟩, fun hne => hne hok⟩
  · rw [hlog]
    exact h.inv.agrees.committed x.job t.receipt.ticket
  · intro client wire' now' handle hmem hsay
    have hmem' : .enqueued x.job client wire' now' ∈ t.log := by simpa using hmem
    obtain ⟨hclient, hsame⟩ := sent_unique h.inv.lawful hwire hmem'
    refine ⟨t.receipt.ticket, mem_append_right _ (mem_singleton_self _), hclient, htold.unique ?_⟩
    rw [hsame]
    exact hsay

theorem refreshPart_spec (h : Answers x c t) (hstate : t.receipt.state = .needsRefresh) :
    wp (refreshPart client a) (fun _ t' => Answers x c t' ∧ t'.receipt.state = .ready)
      (fun e t' => e ≠ .ok ∧ Answers x c t' ∧ t'.receipt.state = .needsRefresh) t := by
  have hkept : ∀ report, Answers x c { t with report := report } := fun report =>
    ⟨h.inv.same rfl rfl, h.now⟩
  unfold refreshPart
  rw [wp_bind, wp_stage, wp_bind, wp_look, wp_check]
  refine ⟨fun _ => ?_, fun hne => ⟨hne, hkept _, hstate⟩⟩
  rw [wp_bind, wp_modify, wp_bind, wp_check]
  refine ⟨fun _ => wp_onReceipt.mpr ⟨⟨h.inv.same rfl rfl, ?_⟩, rfl⟩, fun hne => ⟨hne, hkept _, hstate⟩⟩
  exact ⟨{ h.now with }, h.now.free, h.now.redeemed, h.now.bound⟩

/-- How a call may fail when a receipt is under way. -/
def Underway (x : CallEnv) (c : AuthCompletion) (o : AuthOutcome) (t : Turn) : Prop :=
  OnTheWay x c o t ∨ Answers x c t ∧ t.receipt.state = .needsRefresh

/-- **`send_result`**: the response is enqueued, its session bound, and the flow refreshed. -/
theorem sendResult_spec (h : Underway x c o t)
    (hopen : Net.client o.metadata.request ∈ x.closed → ¬ a.transport.Open) :
    wp (sendResult o now a x.job) (fun _ t' => Answers x c t' ∧ t'.receipt.state = .ready)
      (fun e t' => e ≠ .ok ∧ Underway x c o t') t := by
  unfold sendResult
  rw [wp_look]
  generalize hclient : Net.client t.receipt.metadata.request = client
  have hlast : ∀ t', Answers x c t' ∧ t'.receipt.state = .needsRefresh →
      wp (whenState .needsRefresh (refreshPart client a) >>= fun _ => Call.stage .none)
        (fun _ t' => Answers x c t' ∧ t'.receipt.state = .ready) (fun e t' => e ≠ .ok ∧ Underway x c o t') t' := by
    intro t' ⟨hanswers, hstate⟩
    rw [wp_bind, wp_whenState]
    refine ⟨fun _ => wp_mono (refreshPart_spec hanswers hstate) (fun _ t₁ h₁ => ?_) fun e t₁ h₁ => ?_,
      fun hne => absurd hstate hne⟩
    · exact wp_stage.mpr ⟨⟨h₁.1.inv.same rfl rfl, h₁.1.now⟩, h₁.2⟩
    · exact ⟨h₁.1, .inr h₁.2⟩
  have hrest : ∀ t', Binds x c t' ∨ Answers x c t' ∧ t'.receipt.state = .needsRefresh →
      wp (whenState .needsBind (bindPart x.job) >>= fun _ =>
          whenState .needsRefresh (refreshPart client a) >>= fun _ => Call.stage .none)
        (fun _ t' => Answers x c t' ∧ t'.receipt.state = .ready) (fun e t' => e ≠ .ok ∧ Underway x c o t') t' := by
    rintro t' (hbinds | hanswers)
    · rw [wp_bind, wp_whenState]
      refine ⟨fun _ => ?_, fun hne => absurd hbinds.now.state hne⟩
      exact wp_mono (bindPart_spec hbinds) (fun _ t₁ h₁ => hlast t₁ h₁) fun _ _ h₁ => h₁.elim
    · rw [wp_bind, wp_whenState]
      exact ⟨fun heq => absurd (heq.symm.trans hanswers.2) (by decide), fun _ => hlast t' hanswers⟩
  rw [wp_bind, wp_whenState]
  rcases h with henq | hanswers
  · refine ⟨fun _ => ?_, fun hne => absurd henq.now.state hne⟩
    rw [henq.now.metadata] at hclient
    subst hclient
    exact wp_mono (enqueuePart_spec henq hopen) (fun _ t₁ h₁ => hrest t₁ h₁) fun e t₁ h₁ => ⟨h₁.1, .inl h₁.2⟩
  · exact ⟨fun heq => absurd (heq.symm.trans hanswers.2) (by decide), fun _ => hrest t (.inr hanswers)⟩

/-! ## 7. The calls -/

/-- How a consumer is between the calls. -/
structure Rested (x : CallEnv) (t : Turn) : Prop where
  inv : TurnInv x t
  resting : Resting t.log x.job t.owner t.receipt
  bound : Bound t.log x.job

/-- How he is when he is done with a completion. -/
structure Finished (x : CallEnv) (t : Turn) : Prop where
  inv : TurnInv x t
  owner : t.owner = none
  offered : ∃ c, .offered x.job c ∈ t.log
  free : t.receipt.ticketPending = false
  state : t.receipt = .zero ∨ t.receipt.state = .ready
  redeemed : Redeemed t.log x.job
  bound : Bound t.log x.job

omit x t t' c o in
theorem bound_of_unsent {log : List ConsumerEvent} (h : ¬ Sent log job) : Bound log job :=
  fun client wire now _ hmem => absurd ⟨client, wire, now, hmem⟩ h

theorem Underway.rested (h : Underway x c o t) : Rested x t := by
  rcases h with henq | hanswers
  · exact ⟨henq.inv, .enqueuing henq.now, bound_of_unsent henq.now.unsent⟩
  · exact ⟨hanswers.1.inv, .refreshing hanswers.1.now hanswers.2, hanswers.1.now.bound⟩

/-- **`deliver`.** -/
theorem deliver_spec {found : CompletionMatch} (inv : TurnInv x t)
    (h : Untouched t.log x.job t.owner t.receipt c) (hdecode : authCompletionDecode c = .ok o)
    (hredeemed : Redeemed t.log x.job) (hopen : Net.client o.metadata.request ∈ x.closed → ¬ a.transport.Open) :
    wp (deliver o found now a x.job) (fun _ t' => Answers x c t' ∧ t'.receipt.state = .ready)
      (fun e t' => e ≠ .ok ∧ Underway x c o t') t := by
  have hfree : ¬ t.receipt.ticketPending = true := by simp [h.free]
  unfold deliver
  rw [wp_bind, wp_onReceipt]
  refine sendResult_spec (.inl ⟨inv.same rfl rfl, ?_⟩) hopen
  exact ⟨{ h with }, hdecode, rfl, rfl, hredeemed, h.unsent, fun hs => hs,
    fun holds => absurd holds hfree, fun holds => absurd holds hfree⟩

end

/-! ## 8. The consume -/

section

variable {s : InflightStore} {server : ServerView} {completion : CompletionMetadata} {e : Result}
  {stage : InflightStage} {key : TaskMetadata}

theorem findRecord_ne_ok {slots : List InflightSlot} {start : Nat} (h : findRecord key slots start = .error e) :
    e ≠ .ok := by
  induction slots generalizing start with
  | nil =>
    cases h
    decide
  | cons slot slots ih =>
    unfold findRecord at h
    split at h
    · exact ih h
    split at h
    · rename_i e' hsame
      cases h
      unfold TaskMetadata.sameRequest at hsame
      split at hsame
      · cases hsame
        decide
      split at hsame
      · rename_i hroute
        unfold TaskRoute.equal at hroute
        split at hroute
        · cases hsame
          cases hroute
          decide
        · cases hroute
      · cases hsame
    · split at h
      · cases h
      · exact ih h

theorem get_ne_ok (h : s.get key = .error (e, stage)) : e ≠ .ok := by
  unfold InflightStore.get at h
  rcases validate_cases key with ⟨-, hvalid⟩ | ⟨-, hvalid⟩
  · rw [hvalid] at h
    dsimp only at h
    split at h
    · rename_i e' hfound
      cases h
      exact findRecord_ne_ok hfound
    · cases h
  · rw [hvalid] at h
    cases h
    decide

/-- A check that fails does not fail with a success; at the client it fails when the client is gone. -/
theorem checkCompletion_error (h : s.checkCompletion server completion = .error (e, stage)) :
    e ≠ .ok ∧ (stage = .checkClient → ∃ f, server.clientInspect (client completion.request) = .error f) := by
  unfold InflightStore.checkCompletion at h
  rw [CompletionMetadata.make_eq] at h
  cases hshape : completion.hasValidShape with
  | false =>
    rw [hshape] at h
    cases h
    exact ⟨by decide, nofun⟩
  | true =>
    have hvalid := CompletionMetadata.valid_of_shape hshape
    rw [hshape, if_neg (by simp)] at h
    dsimp only at h
    rw [checkClient_eq server hvalid] at h
    cases hcurrent : server.clientInspect (client completion.request) with
    | error f =>
      rw [hcurrent] at h
      cases h
      exact ⟨f.property, fun _ => ⟨f, rfl⟩⟩
    | ok state =>
      rw [hcurrent] at h
      unfold InflightStore.get at h
      rw [validate_ok hvalid] at h
      cases hfound : findRecord completion.request s.slots 0 with
      | error e' =>
        rw [hfound] at h
        cases h
        exact ⟨findRecord_ne_ok hfound, nofun⟩
      | ok index =>
        rw [hfound] at h
        dsimp only at h
        split at h
        · cases h
          exact ⟨by decide, nofun⟩
        · cases h

section

variable (s) (completion) (value : ConsumeReport) (record : Option TaskMetadata) (release : Result)

theorem settleCompletion_failed {deliver : Result} (hne : deliver ≠ .ok) (hmatched : value.disposition = .matched) :
    (s.settleCompletion completion value record release deliver).owner = some completion := by
  unfold InflightStore.settleCompletion
  cases record <;> dsimp only
  all_goals
    split
    · rfl
    · simp [hmatched, hne]

theorem settleCompletion_facts (hvalue : value.deliveryCalled = false) :
    let done := s.settleCompletion completion value record release .ok
    (done.report.deliveryCalled = true → done.owner = none ∧ value.disposition = .matched) ∧
    (done.result = .ok ↔ done.owner = none) ∧
    done.report.found = value.found ∧ done.report.disposition = value.disposition := by
  unfold InflightStore.settleCompletion
  cases record <;> dsimp only
  all_goals
    split
    · rename_i htaken
      exact ⟨fun h => by simp [hvalue] at h, iff_of_false htaken nofun, rfl, rfl⟩
    · rw [if_neg (by simp)]
      by_cases hmatched : value.disposition = .matched
      · simp [hmatched]
      · simp [hmatched, hvalue]

end

/-- What a consume says, for what the callback returns. -/
structure ConsumeFacts (server : ServerView) (completion : CompletionMetadata) (attempt : Result → ConsumeOutcome) :
    Prop where
  delivered : (attempt .ok).report.deliveryCalled = true → (∃ found, (attempt .ok).report.found = some found) ∧
    (attempt .ok).owner = none ∧ ∀ e, e ≠ .ok → (attempt e).owner = some completion
  undelivered : (attempt .ok).report.deliveryCalled = false →
    ((attempt .ok).result = .ok ↔ (attempt .ok).owner = none)
  gone : (attempt .ok).report.disposition = .clientGone →
    ∃ f, server.clientInspect (client completion.request) = .error f

theorem consumeCompletion_facts (s : InflightStore) (server : ServerView) (completion : CompletionMetadata)
    (release : Result) :
    ConsumeFacts server completion (s.consumeCompletion server (some completion) release) := by
  have hkept : ∀ (r : Result) (value : ConsumeReport), r ≠ .ok → value.deliveryCalled = false →
      (value.disposition = .clientGone → ∃ f, server.clientInspect (client completion.request) = .error f) →
      ConsumeFacts server completion fun _ => ⟨r, value, some completion, s⟩ := by
    intro r value hr hvalue hgone
    refine ⟨fun h => ?_, fun _ => iff_of_false hr nofun, hgone⟩
    rw [hvalue] at h
    cases h
  have hsettled : ∀ (value : ConsumeReport) (record : Option TaskMetadata), value.deliveryCalled = false →
      (value.disposition = .matched → ∃ found, value.found = some found) →
      (value.disposition = .clientGone → ∃ f, server.clientInspect (client completion.request) = .error f) →
      ConsumeFacts server completion (s.settleCompletion completion value record release) := by
    intro value record hvalue hmatched hgone
    obtain ⟨hcalled, howner, hfound, hdisposition⟩ := settleCompletion_facts s completion value record release hvalue
    refine ⟨fun h => ?_, fun _ => howner, fun h => hgone (hdisposition ▸ h)⟩
    obtain ⟨hnone, hm⟩ := hcalled h
    exact ⟨hfound ▸ hmatched hm, hnone, fun e he => settleCompletion_failed s completion value record release he hm⟩
  unfold InflightStore.consumeCompletion
  dsimp only
  cases hcheck : s.checkCompletion server completion with
  | ok found => exact hsettled _ _ rfl (fun _ => ⟨found, rfl⟩) nofun
  | error failure =>
    obtain ⟨e, stage⟩ := failure
    obtain ⟨hne, hclient⟩ := checkCompletion_error hcheck
    dsimp only
    split
    · rename_i hgone
      have hfree := hclient hgone.2
      cases hget : s.get completion.request with
      | ok record =>
        dsimp only
        split
        · exact hkept _ _ (by decide) rfl fun _ => hfree
        · exact hsettled _ _ rfl nofun fun _ => hfree
      | error failure' =>
        obtain ⟨e', detail⟩ := failure'
        dsimp only
        split
        · exact hkept _ _ (get_ne_ok hget) rfl fun _ => hfree
        · exact hsettled _ _ rfl nofun fun _ => hfree
    · split
      · exact hsettled _ _ rfl nofun nofun
      · exact hkept _ _ hne rfl nofun

end

/-! ## 9. The calls -/

section

variable {x : CallEnv} {t t' : Turn} {c : AuthCompletion} {o : AuthOutcome} {now : UInt64} {a : ConsumerAnswers}

theorem Rested.same (h : Rested x t) (hbase : t'.base = t.base) (hlog : t'.log = t.log)
    (howner : t'.owner = t.owner) (hreceipt : t'.receipt = t.receipt) : Rested x t' := by
  refine ⟨h.inv.same hbase hlog fun T => by rw [hreceipt], ?_, hlog ▸ h.bound⟩
  rw [hlog, howner, hreceipt]
  exact h.resting

theorem Answers.finished (h : Answers x c t) (hstate : t.receipt.state = .ready) (hbase : t'.base = t.base)
    (hlog : t'.log = t.log) (howner : t'.owner = none) (hreceipt : t'.receipt = t.receipt) : Finished x t' where
  inv := h.inv.same hbase hlog fun T => by rw [hreceipt]
  owner := howner
  offered := ⟨c, hlog ▸ h.now.offered⟩
  free := hreceipt ▸ h.now.free
  state := .inr (hreceipt ▸ hstate)
  redeemed := hlog ▸ h.now.redeemed
  bound := hlog ▸ h.now.bound

theorem wp_ending {p q : Call} {f : Result → Call} {Q : Unit → Turn → Prop} {E : Result → Turn → Prop} :
    wp (fun t => match p t with
      | (.ok _, t) => q t
      | (.error e, t) => f e t) Q E t ↔
      wp p (fun _ t' => wp q Q E t') (fun e t' => wp (f e) Q E t') t := by
  unfold wp
  dsimp only
  generalize p t = r
  rcases r with ⟨_ | _, t'⟩ <;> exact .rfl

/-- **A receipt that is empty**: the completion finds its request, or the client or the request is gone. -/
theorem stepEmpty_spec (inv : TurnInv x t) (h : Untouched t.log x.job t.owner t.receipt c)
    (hdecode : authCompletionDecode c = .ok o) (hredeemed : Redeemed t.log x.job)
    (hopen : Net.client o.metadata.request ∈ x.closed → ¬ a.transport.Open) :
    wp (stepEmpty c o now a x.job) (fun _ t' => Finished x t') (fun e t' => e ≠ .ok ∧ Rested x t') t := by
  have hrested : Rested x t := ⟨inv, .started h, bound_of_unsent h.unsent⟩
  unfold stepEmpty
  rw [wp_look]
  split
  · exact wp_fail.mpr ⟨by decide, hrested⟩
  rw [wp_bind, wp_modify]
  dsimp only
  have hfacts := consumeCompletion_facts t.store t.view c.metadata a.release
  generalize t.store.consumeCompletion t.view (some c.metadata) a.release = attempt at hfacts
  cases hcalled : (attempt .ok).report.deliveryCalled with
  | true =>
    -- the completion is delivered
    obtain ⟨⟨found, hfound⟩, hnone, hkept⟩ := hfacts.delivered hcalled
    rw [hfound]
    refine wp_ending.mpr (wp_mono (deliver_spec (inv.same rfl rfl) h hdecode hredeemed hopen)
      (fun _ t₁ h₁ => ?_) fun e t₁ h₁ => ?_)
    · exact wp_modify.mpr (h₁.1.finished h₁.2 rfl rfl (if_pos hnone) rfl)
    · refine wp_bind.mpr (wp_modify.mpr (wp_fail.mpr ⟨h₁.1, h₁.2.rested.same rfl rfl ?_ rfl⟩))
      exact if_neg (by rw [hkept e h₁.1]; simp)
  | false =>
    have howner := hfacts.undelivered hcalled
    rw [wp_bind]
    refine wp_modify.mpr ?_
    rw [wp_bind, wp_check]
    refine ⟨fun hok => ?_, fun hne => ?_⟩
    · have hnone := howner.mp hok
      rw [wp_bind, wp_stage, wp_bind, wp_only]
      have hend : ∀ t', TurnInv x t' → t'.log = t.log → t'.owner = none → t'.receipt = t.receipt →
          wp (only ((attempt .ok).owner = none) (onReceipt fun _ => .zero)) (fun _ t' => Finished x t')
            (fun e t' => e ≠ .ok ∧ Rested x t') t' := by
        intro t' hinv hlog hgone hreceipt
        refine wp_only.mpr ⟨fun _ => wp_onReceipt.mpr ?_, fun hno => absurd hnone hno⟩
        refine ⟨hinv.same rfl rfl fun T => ?_, hgone, ⟨c, hlog ▸ h.offered⟩, rfl, .inl rfl, hlog ▸ hredeemed,
          hlog ▸ bound_of_unsent h.unsent⟩
        rw [hreceipt]
        exact iff_of_false (fun hT => absurd hT.1 (by simp [Receipt.zero])) fun hT => absurd hT.1 (by simp [h.free])
      refine ⟨fun hgone => wp_modify.mpr (hend _ ?_ rfl (if_pos hnone) rfl), fun _ => ?_⟩
      · obtain ⟨f, hf⟩ := hfacts.gone hgone
        rw [← (authCompletionDecode_ok hdecode).2] at hf
        have haway : ∀ l ∈ x.lent, l.lease ≠ Net.client o.metadata.request := by
          intro l hl hlease
          have hthere := (clientInspect_eq_ok_iff inv.tickets.inv.clients).mpr ⟨l, hl, hlease, rfl⟩
          have hboth := hthere.symm.trans hf
          cases hboth
        exact { inv with tickets := tickets_forget inv.tickets (.inr haway), agrees := inv.agrees.forgotten _ }
      · exact hend _ (inv.same rfl rfl) rfl (if_pos hnone) rfl
    · refine ⟨hne, hrested.same rfl rfl (if_neg fun hnone => hne (howner.mpr hnone)) rfl⟩

theorem stepAgain_spec (h : Underway x c o t)
    (hopen : Net.client o.metadata.request ∈ x.closed → ¬ a.transport.Open) :
    wp (stepAgain o now a x.job) (fun _ t' => Finished x t') (fun e t' => e ≠ .ok ∧ Rested x t') t := by
  unfold stepAgain
  rw [wp_look]
  split
  · exact wp_fail.mpr ⟨by decide, h.rested⟩
  rw [wp_bind]
  refine wp_mono (sendResult_spec h hopen) (fun _ t₁ h₁ => ?_) fun e t₁ h₁ => ⟨h₁.1, h₁.2.rested⟩
  rw [wp_bind, wp_modify, wp_stage]
  exact h₁.1.finished h₁.2 rfl rfl rfl rfl

section

variable (h : Rested x t)
include h

/-- **`vireo_auth_response_consumer_with`.** A call that succeeds leaves a completion that is done with. -/
theorem step_spec {options : ConsumerOptions}
    (hopen : ∀ c, t.owner = some c → Net.client c.metadata.request ∈ x.closed → ¬ a.transport.Open) :
    wp (step options now a x.job) (fun _ t' => t.owner = none ∧ t' = t ∨ t.owner ≠ none ∧ Finished x t')
      (fun e t' => e ≠ .ok ∧ Rested x t') t := by
  unfold step
  rw [wp_look]
  split
  · exact wp_fail.mpr ⟨by decide, h⟩
  obtain ⟨inv, hresting, hbound⟩ := h
  have hagain : Rested x t := ⟨inv, hresting, hbound⟩
  split
  · rw [wp_check]
    by_cases hnone : t.owner = none
    · rw [if_pos hnone]
      exact ⟨fun _ => .inl ⟨hnone, rfl⟩, fun hne => absurd rfl hne⟩
    · rw [if_neg hnone]
      exact ⟨fun hno => absurd hno (by decide), fun hne => ⟨hne, hagain⟩⟩
  rename_i hstate
  split
  · exact wp_fail.mpr ⟨by decide, hagain⟩
  rename_i c howner
  have hsome : t.owner ≠ none := by simp [howner]
  rw [wp_bind, wp_stage]
  split
  · rename_i e hdecode
    rw [authCompletionDecode_error hdecode]
    exact wp_fail.mpr ⟨by decide, hagain.same rfl rfl rfl rfl⟩
  rename_i o hdecode
  split
  · exact wp_fail.mpr ⟨by decide, hagain.same rfl rfl rfl rfl⟩
  have hclosed : Net.client o.metadata.request ∈ x.closed → ¬ a.transport.Open := by
    rw [(authCompletionDecode_ok hdecode).2]
    exact hopen c howner
  have hinv : TurnInv x { t with report := { t.report with stage := .decode } } := inv.same rfl rfl
  -- a receipt that is under way had its effects, and is taken up again
  have hunder : Redeemed t.log x.job → t.receipt.state ≠ .empty →
      Underway x c o { t with report := { t.report with stage := .decode } } →
      Working t.log x.job t.owner t.receipt c →
      wp (effects o x.job >>= fun _ =>
          if t.receipt.state = .empty then stepEmpty c o now a x.job else stepAgain o now a x.job)
        (fun _ t' => t.owner = none ∧ t' = t ∨ t.owner ≠ none ∧ Finished x t') (fun e t' => e ≠ .ok ∧ Rested x t')
        { t with report := { t.report with stage := .decode } } := by
    intro hredeemed hne hunder hworking
    rw [wp_bind, if_neg hne]
    refine wp_mono (@effects_redeemed x _ c o hworking ⟨c, hworking.offered, hdecode⟩ hredeemed)
      (fun _ t₁ h₁ => ?_) fun e t₁ h₁ => ?_
    · rw [h₁]
      exact wp_mono (stepAgain_spec hunder hclosed) (fun _ _ h₂ => .inr ⟨hsome, h₂⟩) fun _ _ h₂ => h₂
    · rw [h₁.2]
      exact ⟨h₁.1, hunder.rested⟩
  rcases hresting.of_some howner with huntouched | ⟨o', henq⟩ | ⟨hanswered, hrefresh⟩
  · rw [wp_bind, if_pos huntouched.state]
    refine wp_mono (effects_untouched hinv huntouched hdecode) (fun _ t₁ h₁ => ?_) fun e t₁ h₁ => ?_
    · exact wp_mono (stepEmpty_spec h₁.1 h₁.2.1 hdecode h₁.2.2 hclosed) (fun _ _ h₂ => .inr ⟨hsome, h₂⟩) fun _ _ h₂ => h₂
    · exact ⟨h₁.1, h₁.2.1, .started h₁.2.2, bound_of_unsent h₁.2.2.unsent⟩
  · have ho : o' = o := Except.ok.inj (henq.outcome.symm.trans hdecode)
    subst ho
    exact hunder henq.redeemed (by simp [henq.state]) (.inl ⟨hinv, henq⟩) henq.toWorking
  · exact hunder hanswered.redeemed (by simp [hrefresh]) (.inr ⟨⟨hinv, hanswered⟩, hrefresh⟩) hanswered.toWorking

/-- **`vireo_auth_response_consumer_acknowledge`.** -/
theorem acknowledge_spec :
    wp acknowledge (fun _ t' => Rested x t') (fun e t' => e ≠ .ok ∧ Rested x t') t := by
  unfold acknowledge
  rw [wp_look]
  split
  · exact wp_fail.mpr ⟨by decide, h⟩
  rename_i hready
  rw [not_or, not_not, not_not] at hready
  obtain ⟨hnone, -⟩ := hready
  have hfree : t.receipt.ticketPending = false := by
    rcases h.resting.of_none hnone with hzero | ⟨-, -, hfree, -⟩
    · rw [hzero]
      rfl
    · exact hfree
  refine wp_onReceipt.mpr ⟨h.inv.same rfl rfl fun T => ?_, ?_, h.bound⟩
  · exact iff_of_false (fun hT => absurd hT.1 (by simp [Receipt.zero])) fun hT => absurd hT.1 (by simp [hfree])
  rw [hnone]
  exact .idle

theorem abandonEffects_spec (hsome : t.receipt.state ≠ .empty ∨ t.owner ≠ none) : wp (abandonEffects x.job)
      (fun _ t' => Rested x t' ∧ Redeemed t'.log x.job ∧ ∃ c, .offered x.job c ∈ t'.log)
      (fun e t' => e ≠ .ok ∧ Rested x t') t := by
  unfold abandonEffects
  rw [wp_look]
  split
  · rename_i hnone
    rcases h.resting.of_none hnone with hzero | ⟨hoffered, -, -, hredeemed⟩
    · rw [hzero, hnone] at hsome
      exact hsome.elim (fun hne => absurd rfl hne) fun hne => absurd rfl hne
    · exact wp_pure.mpr ⟨h, hredeemed, hoffered⟩
  rename_i c howner
  split
  · exact wp_fail.mpr ⟨by decide, h⟩
  split
  · rename_i e hdecode
    rw [authCompletionDecode_error hdecode]
    exact wp_fail.mpr ⟨by decide, h⟩
  rename_i o hdecode
  split
  · exact wp_fail.mpr ⟨by decide, h⟩
  have hunder : Redeemed t.log x.job → Working t.log x.job t.owner t.receipt c → wp (effects o x.job)
        (fun _ t' => Rested x t' ∧ Redeemed t'.log x.job ∧ ∃ c, .offered x.job c ∈ t'.log)
        (fun e t' => e ≠ .ok ∧ Rested x t') t := by
    intro hredeemed hworking
    refine wp_mono (effects_redeemed hworking ⟨c, hworking.offered, hdecode⟩ hredeemed) (fun _ t₁ h₁ => ?_)
      fun e t₁ h₁ => ?_
    · rw [h₁]
      exact ⟨h, hredeemed, c, hworking.offered⟩
    · rw [h₁.2]
      exact ⟨h₁.1, h⟩
  rcases h.resting.of_some howner with huntouched | ⟨o', henq⟩ | ⟨hanswered, -⟩
  · refine wp_mono (effects_untouched h.inv huntouched hdecode) (fun _ t₁ h₁ => ?_) fun e t₁ h₁ => ?_
    · exact ⟨⟨h₁.1, .started h₁.2.1, bound_of_unsent h₁.2.1.unsent⟩, h₁.2.2, c, h₁.2.1.offered⟩
    · exact ⟨h₁.1, h₁.2.1, .started h₁.2.2, bound_of_unsent h₁.2.2.unsent⟩
  · exact hunder henq.redeemed henq.toWorking
  · exact hunder hanswered.redeemed hanswered.toWorking

theorem abandonTicket_spec : wp abandonTicket
      (fun _ t' => TurnInv x t' ∧ t'.log = t.log ∧ t'.receipt.ticketPending = false) (fun _ _ => False) t := by
  unfold abandonTicket
  rw [wp_look, wp_only]
  refine ⟨fun holds => ?_, fun hfree => ⟨h.inv, rfl, (Bool.not_eq_true _).mp hfree⟩⟩
  obtain ⟨htickets, -, hresult⟩ := tickets_abort h.inv.tickets (.inr ⟨holds, rfl⟩)
  rw [wp_bind, wp_modify, wp_bind, wp_check]
  refine ⟨fun _ => wp_onReceipt.mpr ⟨{ h.inv with tickets := ?_ }, rfl, rfl⟩, fun hne => hne ?_⟩
  · exact htickets.congr (h.inv.released (h.resting.pending holds).1 rfl)
  rcases hresult with hok | hgone
  · rw [if_neg (by simp [hok])]
    exact hok
  · rw [if_pos hgone]

/-- **`vireo_auth_response_consumer_abandon`.** -/
theorem abandon_spec :
    wp (abandon x.job) (fun _ t' => Finished x t') (fun e t' => e ≠ .ok ∧ Rested x t') t := by
  unfold abandon
  rw [wp_look]
  split
  · exact wp_fail.mpr ⟨by decide, h⟩
  rename_i hsome
  rw [wp_bind]
  refine wp_mono (abandonEffects_spec h (not_and_or.mp hsome)) (fun _ t₁ h₁ => ?_) fun _ _ h₁ => h₁
  obtain ⟨hrested, hredeemed, hoffered⟩ := h₁
  rw [wp_bind]
  refine wp_mono (abandonTicket_spec hrested) (fun _ t₂ h₂ => ?_) fun _ _ h₂ => h₂.elim
  obtain ⟨hinv, hlog, hfree⟩ := h₂
  have hzero : ∀ T, Receipt.zero.Holds T ↔ t₂.receipt.Holds T := fun T =>
    iff_of_false (fun hT => absurd hT.1 (by simp [Receipt.zero])) fun hT => absurd hT.1 (by simp [hfree])
  exact wp_modify.mpr ⟨hinv.same rfl rfl hzero, rfl, hlog ▸ hoffered, rfl, .inl rfl, hlog ▸ hredeemed,
    hlog ▸ hrested.bound⟩

end

/-! ## 10. One who has nothing to do -/

section

variable {job : Nat} (howner : t.owner = none) (hreceipt : t.receipt = .zero)

include howner hreceipt

theorem step_idle (options : ConsumerOptions) (now : UInt64) (a : ConsumerAnswers) :
    (step options now a job t).2 = t := by
  have hwp : wp (step options now a job) (fun _ t' => t' = t) (fun _ t' => t' = t) t := by
    unfold step
    rw [wp_look]
    split
    · exact wp_fail.mpr rfl
    rw [if_neg (by simp [hreceipt, Receipt.zero]), howner]
    exact wp_fail.mpr rfl
  rcases wp_cases hwp with ⟨a, t', hrun, rfl⟩ | ⟨e, t', hrun, rfl⟩ <;> rw [hrun]

theorem acknowledge_idle : (acknowledge t).2 = t := by
  have hwp : wp acknowledge (fun _ t' => t' = t) (fun _ t' => t' = t) t := by
    unfold acknowledge
    rw [wp_look, if_pos (.inr (by simp [hreceipt, Receipt.zero]))]
    exact wp_fail.mpr rfl
  rcases wp_cases hwp with ⟨a, t', hrun, rfl⟩ | ⟨e, t', hrun, rfl⟩ <;> rw [hrun]

theorem abandon_idle : abandon job t = (.error .notFound, t) := by
  have hwp : wp (abandon job) (fun _ _ => False) (fun e t' => e = .notFound ∧ t' = t) t := by
    unfold abandon
    rw [wp_look, if_pos ⟨by simp [hreceipt, Receipt.zero], howner⟩]
    exact wp_fail.mpr ⟨rfl, rfl⟩
  rcases wp_cases hwp with ⟨a, t', -, hno⟩ | ⟨e, t', hrun, rfl, rfl⟩
  · exact hno.elim
  · exact hrun

end

end

end Vireo.Net
