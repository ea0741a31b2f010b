/-
  File:      Vireo/Net/AuthConsumerLog.lean
  Subject:   WHAT THE ANSWERS TO AUTHENTICATIONS LEAVE IN THEIR LOG: what is asked of every event.
-/
import Vireo.Lib.EventLog
import Vireo.Net.AuthConsumer
import Vireo.Net.AuthTickets

namespace Vireo.Net

open Base Lib Thread Protocol Service List

/-! ## 1. The words -/

/-- A frame is the response of success to a login or a resume, with a session of this handle. -/
def Announces (wire : Bytes) (handle : UInt32) : Prop :=
  ∃ v, (∀ out, authResponseDecode wire out = (.ok, v)) ∧ v.status = 0 ∧
    (v.command = commandLogin ∨ v.command = commandSessionResume) ∧ v.sessionHandle = handle

/-- A frame is the response of a failure, with no session. -/
def Refuses (wire : Bytes) : Prop :=
  ∃ v, (∀ out, authResponseDecode wire out = (.ok, v)) ∧ v.status ≠ 0 ∧ v.sessionHandle = 0

theorem Announces.unique {wire : Bytes} {handle handle' : UInt32} (h : Announces wire handle)
    (h' : Announces wire handle') : handle = handle' := by
  obtain ⟨v, hv, -, -, rfl⟩ := h
  obtain ⟨v', hv', -, -, rfl⟩ := h'
  have heq := (hv v).symm.trans (hv' v)
  cases heq
  rfl

namespace ConsumerEvent

/-- The job of an event. -/
def job : ConsumerEvent → Nat
  | .offered j _ => j
  | .applied j _ => j
  | .reserved j _ => j
  | .enqueued j _ _ _ => j
  | .committed j _ => j
  | .finished j => j
  | .abandoned j => j

/-- A frame of a job is enqueued. -/
def enqueues (j : Nat) : ConsumerEvent → Bool
  | .enqueued j' _ _ _ => j' = j
  | _ => false

/-- The revocation of a job is applied. -/
def applies (j : Nat) : ConsumerEvent → Bool
  | .applied j' _ => j' = j
  | _ => false

/-- A session is revoked. -/
def revokes (id : UInt64) : ConsumerEvent → Bool
  | .applied _ id' => id' = id
  | _ => false

/-- A session is bound for a job. -/
def commits (j : Nat) : ConsumerEvent → Bool
  | .committed j' _ => j' = j
  | _ => false

/-- A job is over. -/
def ends (j : Nat) (e : ConsumerEvent) : Prop := e = .finished j ∨ e = .abandoned j

/-- An event that the log of the sessions does not have. -/
def apart : ConsumerEvent → Bool
  | .applied .. => false
  | .reserved .. => false
  | .committed .. => false
  | _ => true

/-- An event in the middle of a job that revokes nothing. -/
def plain : ConsumerEvent → Bool
  | .reserved .. => true
  | .enqueued .. => true
  | .committed .. => true
  | _ => false

end ConsumerEvent

section

variable (log : List ConsumerEvent) (job : Nat)

/-- The outcome that a job is about. -/
def About (o : AuthOutcome) : Prop := ∃ c, .offered job c ∈ log ∧ authCompletionDecode c = .ok o

/-- A frame of a job was enqueued. -/
def Sent : Prop := ∃ client wire now, .enqueued job client wire now ∈ log

/-- A job is over. -/
def JobEnded : Prop := .finished job ∈ log ∨ .abandoned job ∈ log

/-- A revocation that a job owes was applied. -/
def Redeemed : Prop := ∀ o, About log job o → o.revokes = true → .applied job o.logoutTarget.sessionId ∈ log

/-- What was announced for a job was bound. -/
def Bound : Prop := ∀ client wire now handle, .enqueued job client wire now ∈ log → Announces wire handle →
  ∃ ticket, .committed job ticket ∈ log ∧ ticket.client = client ∧ ticket.handle = handle

end

/-- What is asked of an event. -/
def consumerLaw (before : List ConsumerEvent) : ConsumerEvent → Prop
  | .offered job _ => ∀ e ∈ before, e.job ≠ job
  | .applied job id => (∃ o, About before job o ∧ o.revokes = true ∧ id = o.logoutTarget.sessionId) ∧
      (∀ e ∈ before, e.applies job = false) ∧ ¬ Sent before job ∧ ¬ JobEnded before job
  | .reserved job ticket => (∃ o, About before job o ∧ ticket.client = client o.metadata.request) ∧
      (∀ j, .reserved j ticket ∉ before) ∧ ¬ JobEnded before job
  | .enqueued job client wire now => ¬ Sent before job ∧ ¬ JobEnded before job ∧ Redeemed before job ∧
      ∃ o, About before job o ∧ client = Net.client o.metadata.request ∧
        (o.grants = true → o.expiresAtMs ≤ now → Refuses wire)
  | .committed job ticket => (∀ e ∈ before, e.commits job = false) ∧ .reserved job ticket ∈ before ∧
      ∃ wire now, .enqueued job ticket.client wire now ∈ before ∧ Announces wire ticket.handle
  | .finished job => Redeemed before job
  | .abandoned job => Redeemed before job

/-! ## 2. What is there once -/

section

variable {log : List ConsumerEvent} {job : Nat}

section

variable (h : Lawful consumerLaw log)
include h

theorem about_unique {o o' : AuthOutcome} (ho : About log job o) (ho' : About log job o') : o = o' := by
  obtain ⟨c, hc, hdecode⟩ := ho
  obtain ⟨c', hc', hdecode'⟩ := ho'
  have heq := h.unique (p := fun e => ∃ c, e = .offered job c) (fun before e hlaw hp e' hmem hp' => by
    obtain ⟨c, rfl⟩ := hp
    obtain ⟨c', rfl⟩ := hp'
    exact hlaw _ hmem rfl) hc hc' ⟨c, rfl⟩ ⟨c', rfl⟩
  cases heq
  rw [hdecode] at hdecode'
  cases hdecode'
  rfl

theorem ticket_unique {job' : Nat} {ticket : SessionTicket}
    (hmem : .reserved job ticket ∈ log) (hmem' : .reserved job' ticket ∈ log) : job = job' := by
  have heq := h.unique (p := fun e => ∃ j, e = .reserved j ticket) (fun before e hlaw hp e' hmem hp' => by
    obtain ⟨j, rfl⟩ := hp
    obtain ⟨j', rfl⟩ := hp'
    exact hlaw.2.1 j' hmem) hmem hmem' ⟨job, rfl⟩ ⟨job', rfl⟩
  cases heq
  rfl

theorem sent_unique {client client' : Lease} {wire wire' : Bytes} {now now' : UInt64}
    (hmem : .enqueued job client wire now ∈ log) (hmem' : .enqueued job client' wire' now' ∈ log) :
    client = client' ∧ wire = wire' := by
  have heq := h.unique (p := fun e => ∃ c w n, e = .enqueued job c w n) (fun before e hlaw hp e' hmem hp' => by
    obtain ⟨c, w, n, rfl⟩ := hp
    obtain ⟨c', w', n', rfl⟩ := hp'
    exact hlaw.1 ⟨c', w', n', hmem⟩) hmem hmem' ⟨_, _, _, rfl⟩ ⟨_, _, _, rfl⟩
  cases heq
  exact ⟨rfl, rfl⟩

theorem uncommitted_of_unsent (hunsent : ¬ Sent log job) : ∀ e ∈ log, e.commits job = false := by
  intro e he
  cases e with
  | committed j ticket =>
    refine decide_eq_false fun hj => hunsent ?_
    subst hj
    obtain ⟨before, after, hsplit⟩ := append_of_mem he
    obtain ⟨-, -, wire, now, hmem, -⟩ := h before _ after hsplit
    exact ⟨ticket.client, wire, now, by rw [hsplit]; exact mem_append_left _ hmem⟩
  | _ => rfl

theorem redeemed_of_applied {id : UInt64} (hmem : .applied job id ∈ log) : Redeemed log job := by
  intro o ho hrevokes
  obtain ⟨before, after, hsplit⟩ := append_of_mem hmem
  obtain ⟨⟨o', ⟨c, hc, hdecode⟩, -, rfl⟩, -⟩ := h before _ after hsplit
  have hout : About log job o' := ⟨c, by rw [hsplit]; exact mem_append_left _ hc, hdecode⟩
  rw [about_unique h ho hout]
  exact hmem

end

/-! ## 3. A log that grows -/

variable {log' : List ConsumerEvent}

theorem About.mono (hsub : ∀ e ∈ log, e ∈ log') {o : AuthOutcome} (h : About log job o) :
    About log' job o := by
  obtain ⟨c, hc, hdecode⟩ := h
  exact ⟨c, hsub _ hc, hdecode⟩

section

variable {e : ConsumerEvent} (he : e.plain = true)

include he

theorem about_plain {o : AuthOutcome} : About (log ++ [e]) job o ↔ About log job o := by
  have hne : ∀ c, .offered job c ≠ e := by
    rintro c rfl
    cases he
  simp [About, hne]

theorem jobEnded_plain : JobEnded (log ++ [e]) job ↔ JobEnded log job := by
  have hne : .finished job ≠ e ∧ .abandoned job ≠ e := by
    constructor <;> rintro rfl <;> cases he
  simp [JobEnded, hne]

theorem mem_applied_plain {id : UInt64} : .applied job id ∈ log ++ [e] ↔ .applied job id ∈ log := by
  have hne : .applied job id ≠ e := by
    rintro rfl
    cases he
  simp [hne]

theorem redeemed_plain : Redeemed (log ++ [e]) job ↔ Redeemed log job := by
  unfold Redeemed
  simp only [about_plain he, mem_applied_plain he]

end

/-- What is said of a job depends on its own events. -/
structure SameFor (job : Nat) (log log' : List ConsumerEvent) : Prop where
  iff : ∀ e : ConsumerEvent, e.job = job → (e ∈ log' ↔ e ∈ log)

theorem SameFor.of_append {more : List ConsumerEvent} (h : ∀ e ∈ more, e.job ≠ job) :
    SameFor job log (log ++ more) :=
  ⟨fun e he => by
    rw [mem_append]
    exact ⟨fun hmem => hmem.resolve_right fun hnew => h e hnew he, .inl⟩⟩

section

variable (h : SameFor job log log')

include h

theorem SameFor.about {o : AuthOutcome} : About log' job o ↔ About log job o := by
  unfold About
  simp only [h.iff (.offered job _) rfl]

theorem SameFor.sent : Sent log' job ↔ Sent log job := by
  unfold Sent
  simp only [h.iff (.enqueued job _ _ _) rfl]

theorem SameFor.ended : JobEnded log' job ↔ JobEnded log job := by
  unfold JobEnded
  simp only [h.iff (.finished job) rfl, h.iff (.abandoned job) rfl]

theorem SameFor.redeemed : Redeemed log' job ↔ Redeemed log job := by
  unfold Redeemed
  simp only [h.about, h.iff (.applied job _) rfl]

theorem SameFor.bound : Bound log' job ↔ Bound log job := by
  unfold Bound
  simp only [h.iff (.enqueued job _ _ _) rfl, h.iff (.committed job _) rfl]

end

/-! ## 4. The log of the sessions -/

/-- What was reserved, bound and revoked for the jobs is what was done to the sessions. -/
structure Agrees (base : List SessionEvent) (log : List ConsumerEvent) : Prop where
  reserves : ∀ job ticket, .reserved job ticket ∈ log → ∃ identity, .reserved ticket identity ∈ base
  commits : ∀ ticket, .committed ticket ∈ base ↔ ∃ job, .committed job ticket ∈ log
  revokes : ∀ id, base.count (.revoked id) = log.countP (·.revokes id)

variable {base : List SessionEvent}

section

variable (h : Agrees base log)
include h

theorem Agrees.apart {e : ConsumerEvent} (he : e.apart = true) : Agrees base (log ++ [e]) := by
  refine ⟨fun j T hmem => h.reserves j T ?_, fun T => (h.commits T).trans ?_, fun id => (h.revokes id).trans ?_⟩
  · refine (mem_append.mp hmem).resolve_right fun hnew => ?_
    cases mem_singleton.mp hnew
    cases he
  · refine exists_congr fun j => ⟨mem_append_left _, fun hmem => ?_⟩
    refine (mem_append.mp hmem).resolve_right fun hnew => ?_
    cases mem_singleton.mp hnew
    cases he
  · have hno : e.revokes id = false := by
      cases e <;> first | rfl | cases he
    simp [hno]

theorem Agrees.forgotten (client : Lease) : Agrees (.forgotten client :: base) log := by
  refine ⟨fun j T hmem => ?_, fun T => ?_, fun id => ?_⟩
  · obtain ⟨i, hi⟩ := h.reserves j T hmem
    exact ⟨i, mem_cons_of_mem _ hi⟩
  · rw [← h.commits T, mem_cons, or_iff_right nofun]
  · exact (count_cons_of_ne (by simp)).trans (h.revokes id)

theorem Agrees.reserved (job : Nat) (ticket : SessionTicket) (identity : SessionIdentity) :
    Agrees (.reserved ticket identity :: base) (log ++ [.reserved job ticket]) := by
  refine ⟨fun j T hmem => ?_, fun T => ?_, fun id => ?_⟩
  · rcases mem_append.mp hmem with hold | hnew
    · obtain ⟨i, hi⟩ := h.reserves j T hold
      exact ⟨i, mem_cons_of_mem _ hi⟩
    · cases mem_singleton.mp hnew
      exact ⟨identity, mem_cons_self ..⟩
  · simpa using h.commits T
  · refine (count_cons_of_ne (by simp)).trans ((h.revokes id).trans ?_)
    simp [ConsumerEvent.revokes]

theorem Agrees.committed (job : Nat) (ticket : SessionTicket) :
    Agrees (.committed ticket :: base) (log ++ [.committed job ticket]) := by
  refine ⟨fun j T hmem => ?_, fun T => ?_, fun id => ?_⟩
  · obtain ⟨i, hi⟩ := h.reserves j T (by simpa using hmem)
    exact ⟨i, mem_cons_of_mem _ hi⟩
  · have hbase := h.commits T
    constructor
    · intro hmem
      rcases mem_cons.mp hmem with heq | hold
      · cases heq
        exact ⟨job, by simp⟩
      · obtain ⟨j, hj⟩ := hbase.mp hold
        exact ⟨j, mem_append_left _ hj⟩
    · rintro ⟨j, hj⟩
      rcases mem_append.mp hj with hold | hnew
      · exact mem_cons_of_mem _ (hbase.mpr ⟨j, hold⟩)
      · cases mem_singleton.mp hnew
        exact mem_cons_self ..
  · refine (count_cons_of_ne (by simp)).trans ((h.revokes id).trans ?_)
    simp [ConsumerEvent.revokes]

theorem Agrees.applied (job : Nat) (id : UInt64) :
    Agrees (.revoked id :: base) (log ++ [.applied job id]) := by
  refine ⟨fun j T hmem => ?_, fun T => ?_, fun id' => ?_⟩
  · obtain ⟨i, hi⟩ := h.reserves j T (by simpa using hmem)
    exact ⟨i, mem_cons_of_mem _ hi⟩
  · simpa using h.commits T
  · rw [count_cons, countP_append, h.revokes id', countP_singleton]
    simp [ConsumerEvent.revokes]

end

end

end Vireo.Net
