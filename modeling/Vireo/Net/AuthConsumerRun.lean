/-
  File:      Vireo/Net/AuthConsumerRun.lean
  Subject:   LOGIN AND RESUME BIND WHAT WAS ANSWERED: the answers to authentications over every run.
-/
import Vireo.Net.AuthConsumerCall

namespace Vireo.Net

open Base Lib Thread Protocol Service Function List

/-! ## 1. What every run keeps -/

/-- A consumer that has something to do. -/
def Consumer.Active (c : Consumer) : Prop := c.owner ≠ none ∨ c.receipt ≠ .zero

/-- What every run keeps. -/
structure ConsumersInv (s : ConsumerSystem) (lent : List (Lent Nat)) (issued : List Lease) : Prop where
  tickets : Tickets s.base lent issued s.closed fun T => ∃ k, (s.consumers k).receipt.Holds T
  lawful : Lawful consumerLaw s.log
  agrees : Agrees s.base.log s.log
  resting : ∀ k, Resting s.log (s.consumers k).job (s.consumers k).owner (s.consumers k).receipt
  bound : ∀ job, Bound s.log job
  jobs : ∀ e ∈ s.log, e.job < s.jobs
  apart : ∀ k k', k ≠ k' → (s.consumers k).Active → (s.consumers k').Active →
    (s.consumers k).job ≠ (s.consumers k').job

section

variable {log log' : List ConsumerEvent} {job : Nat} {owner : Option AuthCompletion} {r : Receipt}

theorem Resting.offered (h : Resting log job owner r) (hactive : owner ≠ none ∨ r ≠ .zero) :
    ∃ c, .offered job c ∈ log := by
  cases h with
  | idle => exact hactive.elim (fun hne => absurd rfl hne) fun hne => absurd rfl hne
  | started h => exact ⟨_, h.offered⟩
  | enqueuing h => exact ⟨_, h.offered⟩
  | refreshing h => exact ⟨_, h.offered⟩
  | ready offered => exact ⟨_, offered⟩

theorem Working.congr (hsame : SameFor job log log') {c : AuthCompletion} (h : Working log job owner r c) :
    Working log' job owner r c :=
  ⟨h.owner, (hsame.iff _ rfl).mpr h.offered, fun hover => h.going (hsame.ended.mp hover),
    h.effect.trans (exists_congr fun _ => (hsame.iff _ rfl).symm)⟩

theorem Resting.congr (hsame : SameFor job log log') (h : Resting log job owner r) : Resting log' job owner r := by
  cases h with
  | idle => exact .idle
  | started h =>
    exact .started { h.toWorking.congr hsame with
      state := h.state
      free := h.free
      unsent := fun hsent => h.unsent (hsame.sent.mp hsent) }
  | enqueuing h =>
    exact .enqueuing { h.toWorking.congr hsame with
      outcome := h.outcome
      state := h.state
      metadata := h.metadata
      redeemed := hsame.redeemed.mpr h.redeemed
      unsent := fun hsent => h.unsent (hsame.sent.mp hsent)
      status := h.status
      pays := h.pays
      own := fun holds => (hsame.iff _ rfl).mpr (h.own holds) }
  | refreshing h state =>
    exact .refreshing { h.toWorking.congr hsame with
      free := h.free
      redeemed := hsame.redeemed.mpr h.redeemed
      bound := hsame.bound.mpr h.bound } state
  | ready offered state free redeemed =>
    exact .ready ((hsame.iff _ rfl).mpr offered) state free (hsame.redeemed.mpr redeemed)

end

section

variable {s : ConsumerSystem} {lent : List (Lent Nat)} {issued : List Lease} {k : Nat}

/-- What a call of a consumer is about. -/
def ConsumerSystem.env (s : ConsumerSystem) (lent : List (Lent Nat)) (issued : List Lease) (k : Nat) : CallEnv :=
  ⟨(s.consumers k).job, fun T => ∃ k', k' ≠ k ∧ (s.consumers k').receipt.Holds T, lent, issued, s.closed, s.log⟩

theorem Consumer.active_of_holds {c : Consumer} {T : SessionTicket} (h : c.receipt.Holds T) : c.Active := by
  refine .inr fun hzero => ?_
  rw [hzero] at h
  exact absurd h.1 (by simp [Receipt.zero])

theorem ConsumersInv.turn (inv : ConsumersInv s lent issued) (hactive : (s.consumers k).Active) :
    Rested (s.env lent issued k) (s.turn k) := by
  refine ⟨⟨inv.tickets.congr fun T => ?_, inv.lawful, inv.agrees, ⟨[], (List.append_nil _).symm, nofun⟩,
    fun T hT => ?_⟩, inv.resting k, inv.bound _⟩
  · constructor
    · rintro ⟨k', hk'⟩
      by_cases hk : k' = k
      · exact .inr (hk ▸ hk')
      · exact .inl ⟨k', hk, hk'⟩
    · rintro (⟨k', -, hk'⟩ | hk')
      · exact ⟨k', hk'⟩
      · exact ⟨k, hk'⟩
  · obtain ⟨k', hne, holds⟩ := hT
    have hmem := ((inv.resting k').pending holds.1).1
    rw [holds.2] at hmem
    exact ⟨_, inv.apart k' k hne (Consumer.active_of_holds holds) hactive, hmem⟩

theorem ConsumersInv.after (inv : ConsumersInv s lent issued) (hactive : (s.consumers k).Active) {t : Turn}
    {ending : List ConsumerEvent} (h : Rested (s.env lent issued k) { t with log := t.log ++ ending }) :
    ConsumersInv (s.after k t ending) lent issued := by
  obtain ⟨hinv, hresting, hbound⟩ := h
  obtain ⟨more, hmore, hmine⟩ := hinv.grown
  dsimp only at hmore hmine hresting hbound
  have hsame : ∀ job, job ≠ (s.consumers k).job → SameFor job s.log (t.log ++ ending) := by
    intro job hne
    rw [hmore]
    exact .of_append fun e he heq => hne (heq.symm.trans (hmine e he))
  refine ⟨hinv.tickets.congr fun T => ?_, hinv.lawful, hinv.agrees, fun k' => ?_, fun job => ?_, fun e he => ?_,
    fun k₁ k₂ hne h₁ h₂ => ?_⟩
  · unfold ConsumerSystem.after
    dsimp only
    constructor
    · rintro (⟨k', hne, hk'⟩ | hk')
      · exact ⟨k', by rw [update_of_ne hne]; exact hk'⟩
      · exact ⟨k, by rw [update_self]; exact hk'⟩
    · rintro ⟨k', hk'⟩
      by_cases hk : k' = k
      · subst hk
        rw [update_self] at hk'
        exact .inr hk'
      · rw [update_of_ne hk] at hk'
        exact .inl ⟨k', hk, hk'⟩
  · unfold ConsumerSystem.after
    dsimp only
    by_cases hk : k' = k
    · subst hk
      rw [update_self]
      exact hresting
    · rw [update_of_ne hk]
      by_cases hactive' : (s.consumers k').Active
      · exact (inv.resting k').congr (hsame _ (inv.apart k' k hk hactive' hactive))
      have hidle := not_or.mp hactive'
      rw [not_not.mp hidle.1, not_not.mp hidle.2]
      exact .idle
  · by_cases hjob : job = (s.consumers k).job
    · exact hjob ▸ hbound
    · exact (hsame job hjob).bound.mpr (inv.bound job)
  · have he' : e ∈ s.log ++ more := hmore ▸ he
    rcases mem_append.mp he' with hold | hnew
    · exact inv.jobs e hold
    obtain ⟨c, hc⟩ := (inv.resting k).offered hactive
    rw [hmine e hnew]
    exact inv.jobs _ hc
  · have hkeep : ∀ k', ((s.after k t ending).consumers k').Active →
        (s.consumers k').Active ∧ ((s.after k t ending).consumers k').job = (s.consumers k').job := by
      intro k' hk'
      unfold ConsumerSystem.after at hk' ⊢
      dsimp only at hk' ⊢
      by_cases hk : k' = k
      · subst hk
        rw [update_self]
        exact ⟨hactive, rfl⟩
      · rw [update_of_ne hk] at hk' ⊢
        exact ⟨hk', rfl⟩
    obtain ⟨ha₁, hj₁⟩ := hkeep k₁ h₁
    obtain ⟨ha₂, hj₂⟩ := hkeep k₂ h₂
    rw [hj₁, hj₂]
    exact inv.apart k₁ k₂ hne ha₁ ha₂

theorem ConsumerSystem.after_turn (s : ConsumerSystem) (k : Nat) : s.after k (s.turn k) [] = s := by
  unfold ConsumerSystem.after ConsumerSystem.turn
  rw [List.append_nil, update_eq_self]

end

theorem Finished.rested {x : CallEnv} {t : Turn} (h : Finished x t) {e : ConsumerEvent} (he : e.ends x.job) :
    Rested x { t with log := t.log ++ [e] } := by
  have hjob : e.job = x.job := by rcases he with rfl | rfl <;> rfl
  have hlaw : consumerLaw t.log e := by rcases he with rfl | rfl <;> exact h.redeemed
  have hapart : e.apart = true := by rcases he with rfl | rfl <;> rfl
  obtain ⟨c, hc⟩ := h.offered
  refine ⟨h.inv.say hjob hlaw rfl (h.inv.agrees.apart hapart) h.inv.tickets, ?_, ?_⟩
  · dsimp only
    rw [h.owner]
    rcases h.state with hzero | hready
    · rw [hzero]
      exact .idle
    · refine .ready (mem_append_left _ hc) hready h.free fun o ho hr => mem_append_left _ (h.redeemed o ?_ hr)
      obtain ⟨c', hc', hdecode⟩ := ho
      rcases mem_append.mp hc' with hold | hnew
      · exact ⟨c', hold, hdecode⟩
      · rcases he with rfl | rfl <;> cases mem_singleton.mp hnew
  · intro client wire now handle hmem htold
    rcases mem_append.mp hmem with hold | hnew
    · obtain ⟨T, hT, rest⟩ := h.bound client wire now handle hold htold
      exact ⟨T, mem_append_left _ hT, rest⟩
    · rcases he with rfl | rfl <;> cases mem_singleton.mp hnew

/-! ## 2. The events -/

section

variable {s : ConsumerSystem} {lent : List (Lent Nat)} {issued : List Lease} {k : Nat}

/-- **A call of a consumer.** One who has nothing to do changes nothing. -/
theorem consumersInv_call (inv : ConsumersInv s lent issued) {p : Call} {ending : List ConsumerEvent}
    (hidle : ¬ (s.consumers k).Active → (p (s.turn k)).2 = s.turn k ∧ ending = [])
    (hcall : (s.consumers k).Active →
      Rested (s.env lent issued k) { (p (s.turn k)).2 with log := (p (s.turn k)).2.log ++ ending }) :
    ConsumersInv (s.after k (p (s.turn k)).2 ending) lent issued := by
  by_cases hactive : (s.consumers k).Active
  · exact inv.after hactive (hcall hactive)
  obtain ⟨hturn, hnone⟩ := hidle hactive
  rw [hturn, hnone, s.after_turn]
  exact inv

theorem Rested.append_nil {x : CallEnv} {t : Turn} (h : Rested x t) : Rested x { t with log := t.log ++ [] } :=
  h.same rfl (List.append_nil _) rfl rfl

theorem consumersInv_offer (inv : ConsumersInv s lent issued) (completion : AuthCompletion) :
    ConsumersInv (s.exec (.offer k completion)) lent issued := by
  rw [ConsumerSystem.exec]
  split
  · rename_i hfree
    have hsame : ∀ job, job ≠ s.jobs → SameFor job s.log (s.log ++ [.offered s.jobs completion]) := fun job hne =>
      .of_append fun e he heq => hne (by rw [← heq, mem_singleton.mp he]; rfl)
    have hnew : ∀ e ∈ s.log, e.job ≠ s.jobs := fun e he => Nat.ne_of_lt (inv.jobs e he)
    refine ⟨inv.tickets.congr fun T => exists_congr fun k' => ?_, inv.lawful.snoc hnew, inv.agrees.apart rfl,
      fun k' => ?_, fun job => ?_, fun e he => ?_, fun k₁ k₂ hne h₁ h₂ => ?_⟩
    · dsimp only
      by_cases hk : k' = k
      · subst hk
        rw [update_self, hfree.2]
      · rw [update_of_ne hk]
    · dsimp only
      by_cases hk : k' = k
      · subst hk
        rw [update_self]
        refine .started ⟨⟨rfl, mem_append_right _ (mem_singleton_self _), ?_, ?_⟩, rfl, rfl, ?_⟩
        · rintro (hmem | hmem)
          all_goals
            have hold := (mem_append.mp hmem).resolve_right fun h => nomatch mem_singleton.mp h
            exact hnew _ hold rfl
        · refine iff_of_false nofun fun ⟨id, hmem⟩ => ?_
          have hold := (mem_append.mp hmem).resolve_right fun h => nomatch mem_singleton.mp h
          exact hnew _ hold rfl
        · rintro ⟨client, wire, now, hmem⟩
          have hold := (mem_append.mp hmem).resolve_right fun h => nomatch mem_singleton.mp h
          exact hnew _ hold rfl
      · rw [update_of_ne hk]
        by_cases hactive : (s.consumers k').Active
        · obtain ⟨c, hc⟩ := (inv.resting k').offered hactive
          exact (inv.resting k').congr (hsame _ (hnew _ hc))
        · have hidle := not_or.mp hactive
          rw [not_not.mp hidle.1, not_not.mp hidle.2]
          exact .idle
    · by_cases hjob : job = s.jobs
      · intro client wire now handle hmem
        have hold := (mem_append.mp hmem).resolve_right fun h => nomatch mem_singleton.mp h
        exact absurd hjob (hnew _ hold)
      · exact (hsame job hjob).bound.mpr (inv.bound job)
    · rcases mem_append.mp he with hold | hlast
      · exact Nat.lt_succ_of_lt (inv.jobs e hold)
      · rw [mem_singleton.mp hlast]
        exact Nat.lt_succ_self _
    · have hjob : ∀ k', k' ≠ k → (s.consumers k').Active → (s.consumers k').job ≠ s.jobs := by
        intro k' _ hactive
        obtain ⟨c, hc⟩ := (inv.resting k').offered hactive
        exact hnew _ hc
      dsimp only at h₁ h₂ ⊢
      by_cases hk₁ : k₁ = k
      · subst hk₁
        rw [update_of_ne (Ne.symm hne)] at h₂ ⊢
        rw [update_self]
        exact (hjob k₂ (Ne.symm hne) h₂).symm
      · rw [update_of_ne hk₁] at h₁ ⊢
        by_cases hk₂ : k₂ = k
        · subst hk₂
          rw [update_self]
          exact hjob k₁ hk₁ h₁
        · rw [update_of_ne hk₂] at h₂ ⊢
          exact inv.apart k₁ k₂ hne h₁ h₂
  · exact inv

theorem consumersInv_exec (inv : ConsumersInv s lent issued) (e : ConsumerStep) (allowed : s.Allowed e) :
    ∃ lent' issued', ConsumersInv (s.exec e) lent' issued' := by
  have hidle : ∀ {k}, ¬ (s.consumers k).Active → (s.consumers k).owner = none ∧ (s.consumers k).receipt = .zero :=
    fun h => ⟨not_not.mp (not_or.mp h).1, not_not.mp (not_or.mp h).2⟩
  have hjob : ∀ {k}, (s.env lent issued k).job = (s.consumers k).job := rfl
  cases e with
  | server e =>
    have hserver : (s.base.exec e).sessions.slots = s.base.sessions.slots → (s.base.exec e).log = s.base.log →
        ∃ lent' issued', ConsumersInv (s.exec (.server e)) lent' issued' := by
      intro hslots hlog
      obtain ⟨lent', issued', htickets⟩ := tickets_server inv.tickets e hslots hlog
      exact ⟨lent', issued', htickets, inv.lawful, hlog ▸ inv.agrees, inv.resting, inv.bound, inv.jobs, inv.apart⟩
    cases e with
    | forget client =>
      have haway : client ∈ s.closed ∨ ∀ l ∈ lent, l.lease ≠ client := by
        refine allowed.imp_right fun hgone l hl hlease => ?_
        exact hgone _ ((clientInspect_eq_ok_iff inv.tickets.inv.clients).mpr ⟨l, hl, hlease, rfl⟩)
      exact ⟨lent, issued, tickets_forget inv.tickets haway, inv.lawful, inv.agrees.forgotten client, inv.resting,
        inv.bound, inv.jobs, inv.apart⟩
    | noteResume id =>
      refine hserver ?_ rfl
      unfold SessionSystem.exec AuthSessions.noteResume
      dsimp only
      split <;> rfl
    | admitClients => exact hserver rfl rfl
    | release => exact hserver rfl rfl
    | proceed => exact hserver rfl rfl
    | stop => exact hserver rfl rfl
    | _ => exact allowed.elim
  | requests store =>
    exact ⟨lent, issued, inv.tickets, inv.lawful, inv.agrees, inv.resting, inv.bound, inv.jobs, inv.apart⟩
  | close client =>
    exact ⟨lent, issued, inv.tickets.close client, inv.lawful, inv.agrees, inv.resting, inv.bound, inv.jobs, inv.apart⟩
  | offer k completion => exact ⟨lent, issued, consumersInv_offer inv completion⟩
  | step k options now a =>
    refine ⟨lent, issued, consumersInv_call inv (fun hnot => ?_) fun hactive => ?_⟩
    · obtain ⟨howner, hreceipt⟩ := hidle hnot
      exact ⟨step_idle howner hreceipt options now a, if_neg fun h => h.2 howner⟩
    · have hwp := @step_spec (s.env lent issued k) (s.turn k) now a (inv.turn hactive) options allowed
      rw [hjob] at hwp
      rcases Prog.wp_cases hwp with ⟨u, t, hrun, ⟨hnone, rfl⟩ | ⟨hsome, hdone⟩⟩ | ⟨e, t, hrun, -, hkept⟩
      · rw [hrun, if_neg fun h => h.2 hnone]
        exact (inv.turn hactive).append_nil
      · rw [hrun, if_pos ⟨rfl, hsome⟩]
        exact hdone.rested (.inl rfl)
      · rw [hrun, if_neg fun h => nomatch h.1]
        exact hkept.append_nil
  | acknowledge k =>
    refine ⟨lent, issued, consumersInv_call inv (fun hnot => ?_) fun hactive => ?_⟩
    · obtain ⟨howner, hreceipt⟩ := hidle hnot
      exact ⟨acknowledge_idle howner hreceipt, rfl⟩
    · rcases Prog.wp_cases (acknowledge_spec (inv.turn hactive)) with ⟨u, t, hrun, hkept⟩ | ⟨e, t, hrun, -, hkept⟩
      all_goals
        rw [hrun]
        exact hkept.append_nil
  | abandon k =>
    refine ⟨lent, issued, consumersInv_call inv (fun hnot => ?_) fun hactive => ?_⟩
    · obtain ⟨howner, hreceipt⟩ := hidle hnot
      rw [abandon_idle howner hreceipt]
      exact ⟨rfl, rfl⟩
    · have hwp := abandon_spec (inv.turn hactive)
      rw [hjob] at hwp
      rcases Prog.wp_cases hwp with ⟨u, t, hrun, hdone⟩ | ⟨e, t, hrun, -, hkept⟩
      · rw [hrun]
        exact hdone.rested (.inr rfl)
      · rw [hrun]
        exact hkept.append_nil

theorem ConsumerRun.inv (run : ConsumerRun s) : ∃ lent issued, ConsumersInv s lent issued := by
  induction run with
  | @start base run fresh store =>
    obtain ⟨lent, issued, inv⟩ := run.inv
    have hzero : ∀ T, ¬ Receipt.zero.Holds T := fun T hT => absurd hT.1 (by simp [Receipt.zero])
    have hwaits : ∀ T, ¬ Waits base.sessions T := by
      intro T hT
      obtain ⟨i, hi, -⟩ := hT.recorded inv.sessions
      rw [fresh] at hi
      exact not_mem_nil hi
    refine ⟨lent, issued, ⟨inv, fun T hT => absurd hT (hwaits T), fun T held => held.elim fun _ hT => absurd hT (hzero T),
      fun T held => held.elim fun _ hT => absurd hT (hzero T)⟩, lawful_nil, ⟨fun _ _ hmem => (not_mem_nil hmem).elim, fun T => ?_,
      fun id => ?_⟩, fun k => .idle, fun _ _ _ _ _ hmem => (not_mem_nil hmem).elim,
      fun e he => (not_mem_nil he).elim, fun k k' _ h _ => absurd h (by simp [Consumer.Active])⟩
    · rw [fresh]
      simp
    · rw [fresh]
      rfl
  | step _ e allowed ih =>
    obtain ⟨lent, issued, inv⟩ := ih
    exact consumersInv_exec inv e allowed

end

/-! ## 3. What follows -/

/-- **What was answered is what is bound.** -/
structure BindsAnswered (s : ConsumerSystem) : Prop where
  /-- A handle is bound for a client if and only if it was announced to this client. -/
  bound : ∀ client handle,
    (∃ ticket, .committed ticket ∈ s.base.log ∧ ticket.client = client ∧ ticket.handle = handle) ↔
      ∃ job wire now, .enqueued job client wire now ∈ s.log ∧ Announces wire handle
  /-- And this for the same completion. -/
  paired : ∀ job client handle,
    (∃ ticket, .committed job ticket ∈ s.log ∧ ticket.client = client ∧ ticket.handle = handle) ↔
      ∃ wire now, .enqueued job client wire now ∈ s.log ∧ Announces wire handle
  /-- One frame is enqueued for a completion, and to its client. -/
  once : ∀ job, s.log.countP (·.enqueues job) ≤ 1
  addressed : ∀ job client wire now, .enqueued job client wire now ∈ s.log →
    ∃ completion, .offered job completion ∈ s.log ∧ client = Net.client completion.metadata.request
  /-- the revocation of a logout is applied once, before its response and before its completion is finished -/
  revoked : ∀ before e after, s.log = before ++ e :: after → ∀ job, e.enqueues job = true ∨ e.ends job →
    ∀ o, About s.log job o → o.revokes = true →
      .applied job o.logoutTarget.sessionId ∈ before ∧ before.countP (·.applies job) = 1 ∧
        s.log.countP (·.applies job) = 1
  /-- The revocations are those of the table. -/
  revocations : ∀ id, s.base.log.count (.revoked id) = s.log.countP (·.revokes id)
  /-- What waits was reserved for a completion that is neither finished nor abandoned. -/
  waiting : ∀ ticket, Waits s.base.sessions ticket → ∃ job, .reserved job ticket ∈ s.log
  settled : ∀ job ticket, JobEnded s.log job → .reserved job ticket ∈ s.log → ¬ Waits s.base.sessions ticket
  /-- A session that has expired when its response is enqueued is refused. -/
  expired : ∀ job client wire now o, .enqueued job client wire now ∈ s.log → About s.log job o →
    o.grants = true → o.expiresAtMs ≤ now → Refuses wire

section

variable {log : List ConsumerEvent} {job : Nat}

theorem about_before (h : Lawful consumerLaw log) {before after : List ConsumerEvent} {e : ConsumerEvent}
    (hsplit : log = before ++ e :: after) (he : e.job = job) (hne : ∀ c, e ≠ .offered job c) {o : AuthOutcome}
    (ho : About log job o) : About before job o := by
  obtain ⟨c, hc, hdecode⟩ := ho
  refine ⟨c, ?_, hdecode⟩
  rw [hsplit] at hc
  rcases mem_append.mp hc with hbefore | hafter
  · exact hbefore
  have hlate := (mem_cons.mp hafter).resolve_left fun heq => hne c heq.symm
  obtain ⟨middle, rest, rfl⟩ := append_of_mem hlate
  exact absurd he (h (before ++ e :: middle) (.offered job c) rest (by simp [hsplit]) e (by simp))

theorem applied_once (h : Lawful consumerLaw log) : log.countP (·.applies job) ≤ 1 := by
  refine h.countP_le_one fun before e hlaw he e' he' => ?_
  cases e with
  | applied j id =>
    obtain rfl : j = job := of_decide_eq_true he
    exact hlaw.2.1 e' he'
  | _ => cases he

end

variable {s : ConsumerSystem} {lent : List (Lent Nat)} {issued : List Lease}

theorem ConsumersInv.paired (inv : ConsumersInv s lent issued) (job : Nat) (client : Lease) (handle : UInt32) :
    (∃ ticket, .committed job ticket ∈ s.log ∧ ticket.client = client ∧ ticket.handle = handle) ↔
      ∃ wire now, .enqueued job client wire now ∈ s.log ∧ Announces wire handle := by
  constructor
  · rintro ⟨ticket, hmem, rfl, rfl⟩
    obtain ⟨before, after, hsplit⟩ := append_of_mem hmem
    obtain ⟨-, -, wire, now, hwire, htold⟩ := inv.lawful before _ after hsplit
    exact ⟨wire, now, by rw [hsplit]; exact mem_append_left _ hwire, htold⟩
  · rintro ⟨wire, now, hmem, htold⟩
    exact inv.bound job client wire now handle hmem htold

/-- **Login and resume bind what was answered.** In every state of every run a handle is bound for a client iff
    a response of success with it was enqueued to this client; a completion is answered once at most; a logout
    is applied exactly once, before its response. -/
theorem auth_consumer_binds (run : ConsumerRun s) : BindsAnswered s := by
  obtain ⟨lent, issued, inv⟩ := run.inv
  have hwaiting : ∀ ticket, Waits s.base.sessions ticket →
      ∃ job, .reserved job ticket ∈ s.log ∧ ¬ JobEnded s.log job := by
    intro ticket hwaits
    obtain ⟨k, holds, rfl⟩ := inv.tickets.waiting ticket hwaits
    exact ⟨_, (inv.resting k).pending holds⟩
  refine ⟨fun client handle => ?_, inv.paired, fun job => ?_, fun job client wire now hmem => ?_, ?_,
    inv.agrees.revokes, fun ticket hwaits => (hwaiting ticket hwaits).imp fun _ h => h.1, ?_, ?_⟩
  · constructor
    · rintro ⟨ticket, hmem, hclient, hhandle⟩
      obtain ⟨job, hjob⟩ := (inv.agrees.commits ticket).mp hmem
      exact ⟨job, (inv.paired job client handle).mp ⟨ticket, hjob, hclient, hhandle⟩⟩
    · rintro ⟨job, hframe⟩
      obtain ⟨ticket, hjob, hclient, hhandle⟩ := (inv.paired job client handle).mpr hframe
      exact ⟨ticket, (inv.agrees.commits ticket).mpr ⟨job, hjob⟩, hclient, hhandle⟩
  · refine inv.lawful.countP_le_one fun before e hlaw he e' he' => ?_
    cases e with
    | enqueued j client wire now =>
      obtain rfl : j = job := of_decide_eq_true he
      cases e' with
      | enqueued j' client' wire' now' =>
        refine decide_eq_false fun hj => hlaw.1 ⟨client', wire', now', ?_⟩
        rw [← hj]
        exact he'
      | _ => rfl
    | _ => cases he
  · obtain ⟨before, after, hsplit⟩ := append_of_mem hmem
    obtain ⟨-, -, -, o, ⟨c, hc, hdecode⟩, rfl, -⟩ := inv.lawful before _ after hsplit
    refine ⟨c, by rw [hsplit]; exact mem_append_left _ hc, ?_⟩
    rw [(authCompletionDecode_ok hdecode).2]
  · intro before e after hsplit job he o ho hr
    have hlaw := inv.lawful before e after hsplit
    have hmem : .applied job o.logoutTarget.sessionId ∈ before := by
      rcases he with henqueues | rfl | rfl
      · cases e with
        | enqueued j client wire now =>
          obtain rfl : j = job := of_decide_eq_true henqueues
          exact hlaw.2.2.1 o (about_before inv.lawful hsplit rfl nofun ho) hr
        | _ => cases henqueues
      · exact hlaw o (about_before inv.lawful hsplit rfl nofun ho) hr
      · exact hlaw o (about_before inv.lawful hsplit rfl nofun ho) hr
    have hpos : 0 < before.countP (·.applies job) :=
      countP_pos_iff.mpr ⟨_, hmem, decide_eq_true rfl⟩
    have hone := @applied_once s.log job inv.lawful
    have hsum : s.log.countP (·.applies job) = before.countP (·.applies job) + (e :: after).countP (·.applies job) := by
      rw [hsplit, countP_append]
    exact ⟨hmem, by omega, by omega⟩
  · intro job ticket hended hmem hwaits
    obtain ⟨job', hmem', hgoing⟩ := hwaiting ticket hwaits
    rw [ticket_unique inv.lawful hmem hmem'] at hended
    exact hgoing hended
  · intro job client wire now o hmem ho hg hnow
    obtain ⟨before, after, hsplit⟩ := append_of_mem hmem
    obtain ⟨-, -, -, o', ho', -, hrefuses⟩ := inv.lawful before _ after hsplit
    rw [about_unique inv.lawful ho (ho'.mono fun e he => by rw [hsplit]; exact mem_append_left _ he)] at hg hnow
    exact hrefuses hg hnow

/-- A login that took place: the user 5 has the session 6 from 1 to 100. -/
def oneLogin : AuthCompletion where
  metadata := ⟨⟨⟨1, 0, 1, 3⟩, 9, 2, 0⟩, .ok, 0⟩
  payload := [0x56, 0x41, 0x43, 0x31, 1, 1, 0, 1] ++ writeU64Be 5 ++ writeU64Be 0 ++ writeU64Be 6 ++ writeU64Be 1 ++
    writeU64Be 1 ++ writeU64Be 100 ++ List.replicate 32 7

/-- A server that is calm, a client that is open, an enqueue and a refresh that succeed. -/
def oneAnswer : ConsumerAnswers :=
  let calm : Except Failure ServerActivity := .ok ⟨false, false, false, false, false, false⟩
  let transport : Transport := ⟨.ok, .ok .established, .ok .opened, .ok .none⟩
  ⟨calm, transport, some (0, 0, 0, 7), .ok, calm, transport, .ok, .ok⟩

/-- A server with one client, whose request is in flight. -/
def oneRequested : ConsumerSystem :=
  ⟨oneSession.exec (.admitClients 1 1 .ok false), ⟨1, 1, [⟨true, oneLogin.metadata.request, some 0⟩], ⟨1, []⟩⟩,
    fun _ => ⟨none, .zero, 0⟩, [], 0, []⟩

/-- And a consumer that takes its completion. -/
def oneAnswered : ConsumerSystem :=
  (oneRequested.exec (.offer 0 oneLogin)).exec (.step 0 ⟨1, 2, 3, 4⟩ 5 oneAnswer)

/-- The login is answered: its session is bound, and its handle was announced to its client. -/
theorem auth_consumer_binds_login :
    oneAnswered.base.lookup ⟨1, 0, 1⟩ 7 5 = .ok ⟨5, 6, 1, 100, false⟩ ∧
      ∃ job wire now, .enqueued job ⟨1, 0, 1⟩ wire now ∈ oneAnswered.log ∧ Announces wire 7 := by
  have start : ConsumerRun oneRequested := .start (oneSession_run.step _) rfl _
  have run : ConsumerRun oneAnswered :=
    (start.step (.offer 0 oneLogin) trivial).step (.step 0 ⟨1, 2, 3, 4⟩ 5 oneAnswer) fun _ _ h =>
      (not_mem_nil h).elim
  exact ⟨by decide, ((auth_consumer_binds run).bound ⟨1, 0, 1⟩ 7).mp ⟨⟨⟨1, 0, 1⟩, 1, 7⟩, by decide, rfl, rfl⟩⟩

end Vireo.Net
