/-
  File:      Vireo/Net/InflightStore.lean
  Subject:   THE TABLE OF THE REQUESTS IN FLIGHT KEEPS ITS RECORDS.
-/
import Vireo.Lib.Slots
import Vireo.Net.Inflight

namespace Vireo.Net

open Base Lib Thread List
open CompletionMetadata (make_eq valid_of_shape)

/-! ## 1. The invariant -/

/-- The slots that hold a record. -/
def InflightStore.records (s : InflightStore) : List InflightSlot := s.slots.filter (·.occupied)

/-- The references that the records hold. -/
def InflightStore.held (s : InflightStore) : List Nat := s.records.filterMap (·.cancel)

/-- Two requests of one client differ in their sequence and in their instance. -/
def Apart (a b : InflightSlot) : Prop :=
  client a.metadata = client b.metadata →
    a.metadata.route.requestSequence ≠ b.metadata.route.requestSequence ∧
      a.metadata.requestInstanceId ≠ b.metadata.requestInstanceId

theorem Apart.symm {a b : InflightSlot} (h : Apart a b) : Apart b a := fun hclient =>
  ⟨(h hclient.symm).1.symm, (h hclient.symm).2.symm⟩

/-- What the table keeps. -/
structure StoreInv (s : InflightStore) : Prop where
  length : s.slots.length = s.capacity
  small : s.capacity ≤ InflightStore.maxCapacity
  count : s.count = s.records.length
  valid : ∀ r ∈ s.records, r.metadata.Valid
  apart : s.records.Pairwise Apart
  free : ∀ t ∈ s.slots, t.occupied = false → t = .empty
  ledger : (s.held ++ s.cancels.released).Perm (List.range s.cancels.retained)

section Inv

variable {s : InflightStore} {i : Nat} {t : InflightSlot}

theorem slot_eq (h : s.slots[i]? = some t) : s.slot i = t := by
  unfold InflightStore.slot
  rw [getD_eq_getElem?_getD, h]
  rfl

theorem mem_records {r : InflightSlot} : r ∈ s.records ↔ r ∈ s.slots ∧ r.occupied = true := mem_filter

theorem storeInv_create {capacity maxMemoryBytes : Nat} {memory : Bool}
    (h : InflightStore.create capacity maxMemoryBytes memory = .ok s) :
    StoreInv s ∧ s.records = [] := by
  unfold InflightStore.create at h
  split at h
  · cases h
  split at h
  · cases h
  split at h
  · cases h
  split at h
  · cases h
  split at h
  · cases h
  rename_i hsize _
  cases h
  have hnone : (List.replicate capacity InflightSlot.empty).filter (·.occupied) = [] := by
    simp [InflightSlot.empty]
  simp only [not_or, Nat.not_lt, gt_iff_lt] at hsize
  refine ⟨⟨length_replicate, hsize.1, ?_, ?_, ?_, ?_, ?_⟩, hnone⟩
  · unfold InflightStore.records
    rw [hnone]
    rfl
  · unfold InflightStore.records
    simp [hnone]
  · unfold InflightStore.records
    simp [hnone]
  · intro t ht _
    exact eq_of_mem_replicate ht
  · unfold InflightStore.held InflightStore.records
    simp [hnone]

theorem records_enter (h : s.slots[i]? = some t) (hfree : t.occupied = false) (metadata : TaskMetadata)
    (nextCount : Nat) (retained : Bool) :
    (s.enter i metadata nextCount retained).records.Perm
      (⟨true, metadata, if retained then some s.cancels.retained else none⟩ :: s.records) :=
  filter_set_fill h hfree rfl

theorem records_leave (h : s.slots[i]? = some t) (htaken : t.occupied = true) :
    s.records.Perm (t :: (s.leave i).records) :=
  filter_set_free h htaken rfl

theorem storeInv_enter (inv : StoreInv s) (h : s.slots[i]? = some t) (hfree : t.occupied = false)
    {metadata : TaskMetadata} (hvalid : metadata.Valid) (retained : Bool)
    (hapart : ∀ r ∈ s.records, client metadata = client r.metadata →
      metadata.route.requestSequence ≠ r.metadata.route.requestSequence ∧
        metadata.requestInstanceId ≠ r.metadata.requestInstanceId) :
    StoreInv (s.enter i metadata (s.count + 1) retained) := by
  have hrecords := records_enter h hfree metadata (s.count + 1) retained
  refine ⟨?_, inv.small, ?_, fun r hr => ?_, ?_, fun u hu hfree' => ?_, ?_⟩
  · show (s.slots.set _ _).length = s.capacity
    rw [length_set, inv.length]
  · rw [hrecords.length_eq, length_cons, ← inv.count]
    rfl
  · rcases mem_cons.mp (hrecords.mem_iff.mp hr) with new | old
    · rw [new]
      exact hvalid
    · exact inv.valid r old
  · rw [hrecords.pairwise_iff fun h => .symm h, pairwise_cons]
    exact ⟨hapart, inv.apart⟩
  · rcases mem_or_eq_of_mem_set hu with old | new
    · exact inv.free u old hfree'
    · rw [new] at hfree'
      cases hfree'
  · have hheld := hrecords.filterMap (·.cancel)
    have hledger := inv.ledger
    cases retained with
    | false => exact (hheld.append_right _).trans hledger
    | true =>
      refine (hheld.append_right _).trans ?_
      show (s.cancels.retained :: (s.held ++ s.cancels.released)).Perm (List.range (s.cancels.retained + 1))
      rw [range_succ]
      exact (hledger.cons _).trans (perm_append_singleton _ _).symm

/-- **A record that goes gives its reference back**, and keeps the table in order. -/
theorem storeInv_leave (inv : StoreInv s) (h : s.slots[i]? = some t) (htaken : t.occupied = true) :
    StoreInv (s.leave i) := by
  have hrecords := records_leave h htaken
  have hsub : ∀ r ∈ (s.leave i).records, r ∈ s.records := fun r hr =>
    hrecords.mem_iff.mpr (mem_cons_of_mem _ hr)
  refine ⟨?_, inv.small, ?_, fun r hr => inv.valid r (hsub r hr), ?_, fun u hu hfree => ?_, ?_⟩
  · show (s.slots.set _ _).length = s.capacity
    rw [length_set, inv.length]
  · show s.count - 1 = _
    rw [inv.count, hrecords.length_eq, length_cons, Nat.add_sub_cancel]
  · have hall := (hrecords.pairwise_iff fun h => .symm h).mp inv.apart
    exact (pairwise_cons.mp hall).2
  · rcases mem_or_eq_of_mem_set hu with old | new
    · exact inv.free u old hfree
    · exact new
  · have hheld := hrecords.filterMap (·.cancel)
    have hledger := inv.ledger
    show ((s.leave i).held ++ (s.cancels.released ++ (s.slot i).cancel.toList)).Perm _
    rw [slot_eq h]
    have hmoved : ((s.leave i).held ++ (s.cancels.released ++ t.cancel.toList)).Perm
        (s.held ++ s.cancels.released) := by
      have hsplit : s.held.Perm (t.cancel.toList ++ (s.leave i).held) := by
        refine hheld.trans ?_
        rw [filterMap_cons]
        cases t.cancel <;> exact List.Perm.refl _
      rw [← append_assoc]
      refine (perm_append_comm).trans ?_
      rw [← append_assoc]
      exact (hsplit.symm.append_right _)
    exact hmoved.trans hledger

end Inv

/-! ## 2. Looking up -/

section Lookup

variable {s : InflightStore} {key : TaskMetadata}

theorem validate_eq (metadata : TaskMetadata) :
    validate metadata = if metadata.hasValidShape = false then .error .invalidArgument else .ok metadata :=
  TaskMetadata.make_eq metadata

theorem validate_ok {metadata : TaskMetadata} (h : metadata.Valid) : validate metadata = .ok metadata := by
  rw [validate_eq, TaskMetadata.hasValidShape_iff.mpr h]
  rfl

theorem validate_cases (metadata : TaskMetadata) : (metadata.Valid ∧ validate metadata = .ok metadata) ∨
      (¬ metadata.Valid ∧ validate metadata = .error .invalidArgument) := by
  rw [validate_eq]
  cases h : metadata.hasValidShape with
  | true => exact .inl ⟨TaskMetadata.hasValidShape_iff.mp h, rfl⟩
  | false =>
    refine .inr ⟨fun hvalid => ?_, rfl⟩
    rw [TaskMetadata.hasValidShape_iff.mpr hvalid] at h
    cases h

theorem findRecord_cases (hkey : key.Valid) {slots : List InflightSlot}
    (hvalid : ∀ t ∈ slots, t.occupied = true → t.metadata.Valid) (start : Nat) :
    (∃ i t, slots[i]? = some t ∧ t.occupied = true ∧ key.SameRequest t.metadata ∧
        findRecord key slots start = .ok (start + i)) ∨
      ((∀ t ∈ slots, t.occupied = true → ¬ key.SameRequest t.metadata) ∧
        findRecord key slots start = .error .notFound) := by
  induction slots generalizing start with
  | nil => exact .inr ⟨fun t ht => (not_mem_nil ht).elim, rfl⟩
  | cons t slots ih =>
    unfold findRecord
    have later := ih (fun u hu => hvalid u (mem_cons_of_mem _ hu)) (start + 1)
    have skip : (t.occupied = true → ¬ key.SameRequest t.metadata) →
        (∃ i u, (t :: slots)[i]? = some u ∧ u.occupied = true ∧ key.SameRequest u.metadata ∧
            findRecord key slots (start + 1) = .ok (start + i)) ∨
          ((∀ u ∈ t :: slots, u.occupied = true → ¬ key.SameRequest u.metadata) ∧
            findRecord key slots (start + 1) = .error .notFound) := by
      intro hno
      rcases later with found | missing
      · obtain ⟨i, u, hu, htaken, hsame, heq⟩ := found
        exact .inl ⟨i + 1, u, hu, htaken, hsame, by rw [heq]; congr 1; omega⟩
      · exact .inr ⟨forall_mem_cons.mpr ⟨hno, missing.1⟩, missing.2⟩
    cases htaken : t.occupied with
    | false => exact skip fun h => by rw [htaken] at h; cases h
    | true =>
      rw [if_neg (by simp), TaskMetadata.sameRequest_eq hkey (hvalid t (mem_cons_self ..) htaken)]
      by_cases hsame : key.SameRequest t.metadata
      · simp only [hsame, decide_true, if_true]
        exact .inl ⟨0, t, rfl, htaken, hsame, rfl⟩
      · simp only [hsame, decide_false, Bool.false_eq_true, if_false]
        exact skip fun _ => hsame

section

variable (inv : StoreInv s)
include inv

theorem StoreInv.valid_slot (t : InflightSlot) (ht : t ∈ s.slots) (htaken : t.occupied = true) :
    t.metadata.Valid := inv.valid t (mem_records.mpr ⟨ht, htaken⟩)

theorem filter_sameRequest {r : InflightSlot} (hr : r ∈ s.records) (hsame : key.SameRequest r.metadata) :
    s.records.filter (fun r => decide (key.SameRequest r.metadata)) = [r] := by
  have hapart := inv.apart.filter (fun r => decide (key.SameRequest r.metadata))
  have hall : ∀ u ∈ s.records.filter (fun r => decide (key.SameRequest r.metadata)),
      key.SameRequest u.metadata := fun u hu => by simpa using (mem_filter.mp hu).2
  have hmem : r ∈ s.records.filter (fun r => decide (key.SameRequest r.metadata)) :=
    mem_filter.mpr ⟨hr, by simpa using hsame⟩
  generalize s.records.filter (fun r => decide (key.SameRequest r.metadata)) = found at hapart hall hmem ⊢
  cases found with
  | nil => exact (not_mem_nil hmem).elim
  | cons u rest =>
    cases rest with
    | nil => rw [mem_singleton.mp hmem]
    | cons w rest =>
      have hu := hall u (mem_cons_self ..)
      have hw := hall w (mem_cons_of_mem _ (mem_cons_self ..))
      have hroute := hu.1.symm.trans hw.1
      have hclient : client u.metadata = client w.metadata := by
        unfold client
        rw [hroute]
      have hne := (pairwise_cons.mp hapart).1 w (mem_cons_self ..) hclient
      rw [hroute] at hne
      exact absurd rfl hne.1

theorem find_cases (hkey : key.Valid) :
    (∃ i t, s.slots[i]? = some t ∧ t.occupied = true ∧ key.SameRequest t.metadata ∧
        findRecord key s.slots 0 = .ok i) ∨
      ((∀ r ∈ s.records, ¬ key.SameRequest r.metadata) ∧ findRecord key s.slots 0 = .error .notFound) := by
  rcases findRecord_cases hkey inv.valid_slot 0 with found | missing
  · obtain ⟨i, t, hslot, htaken, hsame, heq⟩ := found
    exact .inl ⟨i, t, hslot, htaken, hsame, by rw [heq, Nat.zero_add]⟩
  · refine .inr ⟨fun r hr => ?_, missing.2⟩
    obtain ⟨hmem, htaken⟩ := mem_records.mp hr
    exact missing.1 r hmem htaken

theorem get_cases (key : TaskMetadata) :
    (key.Valid ∧ ∃ r ∈ s.records, key.SameRequest r.metadata ∧ s.get key = .ok r.metadata) ∨
      (key.Valid ∧ (∀ r ∈ s.records, ¬ key.SameRequest r.metadata) ∧
        s.get key = .error (.notFound, .checkRecord)) ∨
      (¬ key.Valid ∧ s.get key = .error (.invalidArgument, .checkMetadata)) := by
  unfold InflightStore.get
  rcases validate_cases key with good | bad
  · obtain ⟨hkey, heq⟩ := good
    rw [heq]
    rcases find_cases inv hkey with found | missing
    · obtain ⟨i, t, hslot, htaken, hsame, hfind⟩ := found
      refine .inl ⟨hkey, t, mem_records.mpr ⟨mem_of_getElem? hslot, htaken⟩, hsame, ?_⟩
      rw [hfind]
      dsimp only
      rw [slot_eq hslot]
    · refine .inr (.inl ⟨hkey, missing.1, ?_⟩)
      rw [missing.2]
  · rw [bad.2]
    exact .inr (.inr ⟨bad.1, rfl⟩)

theorem get_ok_iff {m : TaskMetadata} : s.get key = .ok m ↔ key.Valid ∧ ∃ r, m = r.metadata ∧
      s.records.filter (fun r => decide (key.SameRequest r.metadata)) = [r] := by
  constructor
  · intro h
    rcases get_cases inv key with found | other
    · obtain ⟨hkey, r, hr, hsame, heq⟩ := found
      rw [heq] at h
      cases h
      exact ⟨hkey, r, rfl, filter_sameRequest inv hr hsame⟩
    · rcases other with missing | bad
      · rw [missing.2.2] at h
        cases h
      · rw [bad.2] at h
        cases h
  · intro ⟨hkey, r, hm, hfilter⟩
    have hmem : r ∈ s.records.filter (fun r => decide (key.SameRequest r.metadata)) := by
      rw [hfilter]
      exact mem_singleton_self r
    obtain ⟨hr, hsame⟩ := mem_filter.mp hmem
    have hsame' : key.SameRequest r.metadata := by simpa using hsame
    rcases get_cases inv key with found | other
    · obtain ⟨-, u, hu, husame, heq⟩ := found
      have hu' := filter_sameRequest inv hu husame
      rw [hfilter] at hu'
      cases hu'
      rw [heq, hm]
    · rcases other with missing | bad
      · exact absurd hsame' (missing.2.1 r hr)
      · exact absurd hkey bad.1

/-- **What a take does**: it takes the record of the key out, or it leaves the table as it is. -/
theorem take_cases (key : TaskMetadata) (release : Result) :
    ((s.take key release).1.result ≠ .ok ∧ (s.take key release).1.store = s) ∨
      (release = .ok ∧ key.Valid ∧ (s.take key release).1.result = .ok ∧
        ∃ i t, s.slots[i]? = some t ∧ t.occupied = true ∧ key.SameRequest t.metadata ∧
          (s.take key release).1.store = s.leave i ∧ (s.take key release).2 = some t.metadata) := by
  unfold InflightStore.take
  rcases validate_cases key with good | bad
  · obtain ⟨hkey, heq⟩ := good
    rw [heq]
    rcases find_cases inv hkey with found | missing
    · obtain ⟨i, t, hslot, htaken, hsame, hfind⟩ := found
      have hpos : s.records ≠ [] :=
        ne_nil_of_mem (mem_records.mpr ⟨mem_of_getElem? hslot, htaken⟩)
      have hcount : ¬ (s.count = 0 ∨ s.count > s.capacity) := by
        have hle : s.records.length ≤ s.slots.length := length_filter_le ..
        have hlen := length_pos_iff.mpr hpos
        rw [inv.count, ← inv.length]
        omega
      rw [hfind]
      dsimp only
      rw [if_neg hcount]
      by_cases hrelease : release ≠ .ok
      · rw [if_pos hrelease]
        exact .inl ⟨hrelease, rfl⟩
      · rw [if_neg hrelease, slot_eq hslot]
        exact .inr ⟨not_not.mp hrelease, hkey, rfl, i, t, hslot, htaken, hsame, rfl, rfl⟩
    · rw [missing.2]
      exact .inl ⟨by simp [InflightStore.finish], rfl⟩
  · rw [bad.2]
    exact .inl ⟨by simp [InflightStore.finish], rfl⟩

theorem take_ok_iff {release : Result} : (s.take key release).1.result = .ok ↔ release = .ok ∧ key.Valid ∧
      ∃ r, s.records.filter (fun r => decide (key.SameRequest r.metadata)) = [r] := by
  constructor
  · intro hok
    rcases take_cases inv key release with failed | done
    · exact absurd hok failed.1
    · obtain ⟨hrelease, hkey, -, i, t, hslot, htaken, hsame, -⟩ := done
      exact ⟨hrelease, hkey, t, filter_sameRequest inv
        (mem_records.mpr ⟨mem_of_getElem? hslot, htaken⟩) hsame⟩
  · intro ⟨hrelease, hkey, r, hfilter⟩
    have hget := (get_ok_iff inv).mpr ⟨hkey, r, rfl, hfilter⟩
    unfold InflightStore.get at hget
    rw [validate_ok hkey] at hget
    rcases find_cases inv hkey with found | missing
    · obtain ⟨i, t, hslot, htaken, -, hfind⟩ := found
      have hle : s.records.length ≤ s.slots.length := length_filter_le ..
      have hlen := length_pos_of_mem (mem_records.mpr ⟨mem_of_getElem? hslot, htaken⟩)
      unfold InflightStore.take
      rw [validate_ok hkey, hfind]
      dsimp only
      rw [if_neg (by rw [inv.count, ← inv.length]; omega), if_neg (not_not.mpr hrelease)]
      rfl
    · rw [missing.2] at hget
      cases hget

end

end Lookup

/-! ## 3. Registering -/

section Register

variable {s : InflightStore} {metadata m : TaskMetadata} {slots : List InflightSlot} {limited : Bool}
  {capacity : Nat}

theorem client_eq_iff {n : TaskMetadata} : sameClient m.route n.route = true ↔ client m = client n := by
  unfold sameClient client
  simp [and_assoc]

theorem belongs_iff {lease : Lease} : belongs m lease = true ↔ client m = lease := by
  obtain ⟨poolId, slotIndex, generation⟩ := lease
  unfold belongs client
  simp [and_assoc]

/-- How many records a client has. -/
def InflightStore.clientCount (s : InflightStore) (lease : Lease) : Nat :=
  (s.records.filter (fun r => decide (client r.metadata = lease))).length

/-- A scan that goes through: nothing stands against the request, a free slot was found, the client's records
    were counted. -/
theorem registerScan_ok {i empty count : Nat} {found : Nat × Nat}
    (h : registerScan metadata limited capacity slots i empty count = .ok found) :
    (∀ t ∈ slots, t.occupied = true → client metadata = client t.metadata →
        metadata.route.requestSequence ≠ t.metadata.route.requestSequence ∧
          metadata.requestInstanceId ≠ t.metadata.requestInstanceId) ∧
      (found.1 = empty ∨ ∃ j t, found.1 = i + j ∧ slots[j]? = some t ∧ t.occupied = false) ∧
      (limited = true → found.2 = count +
        ((slots.filter (·.occupied)).filter (fun r => decide (client r.metadata = client metadata))).length) := by
  induction slots generalizing i empty count with
  | nil =>
    cases h
    exact ⟨fun t ht => (not_mem_nil ht).elim, .inl rfl, fun _ => rfl⟩
  | cons t slots ih =>
    unfold registerScan at h
    -- what the rest of the scan says, one slot further back
    have shift : ∀ {e : Nat}, (found.1 = e ∨ ∃ j u, found.1 = i + 1 + j ∧ slots[j]? = some u ∧
          u.occupied = false) → found.1 = e ∨ ∃ j u, found.1 = i + j ∧ (t :: slots)[j]? = some u ∧
          u.occupied = false := by
      intro e hrest
      rcases hrest with here | there
      · exact .inl here
      · obtain ⟨j, u, hj, hu, hfree⟩ := there
        exact .inr ⟨j + 1, u, by omega, hu, hfree⟩
    cases htaken : t.occupied with
    | false =>
      rw [if_pos htaken] at h
      obtain ⟨hapart, hempty, hcount⟩ := ih h
      refine ⟨forall_mem_cons.mpr ⟨fun htaken' => ?_, hapart⟩, ?_, fun hlimited => ?_⟩
      · rw [htaken] at htaken'
        cases htaken'
      · by_cases hfirst : empty = capacity
        · rw [if_pos hfirst] at hempty
          rcases shift hempty with here | there
          · exact .inr ⟨0, t, here, rfl, htaken⟩
          · exact .inr there
        · rw [if_neg hfirst] at hempty
          exact shift hempty
      · rw [hcount hlimited, filter_cons, htaken]
        rfl
    | true =>
      rw [if_neg (by simp [htaken])] at h
      by_cases hclient : client metadata = client t.metadata
      · rw [if_pos (client_eq_iff.mpr hclient)] at h
        split at h
        · cases h
        rename_i hdiffer
        have hnew : metadata.route.requestSequence ≠ t.metadata.route.requestSequence ∧
            metadata.requestInstanceId ≠ t.metadata.requestInstanceId := not_or.mp hdiffer
        cases hlimited : limited with
        | true =>
          rw [if_pos hlimited] at h
          split at h
          · cases h
          rename_i next hadd
          obtain ⟨hapart, hempty, hcount⟩ := ih h
          refine ⟨forall_mem_cons.mpr ⟨fun _ _ => hnew, hapart⟩, shift hempty, fun _ => ?_⟩
          rw [hcount hlimited, checkedSizeAdd_ok hadd, filter_cons, if_pos htaken, filter_cons,
            if_pos (by simpa using hclient.symm), length_cons]
          omega
        | false =>
          rw [if_neg (by simp [hlimited])] at h
          obtain ⟨hapart, hempty, -⟩ := ih h
          exact ⟨forall_mem_cons.mpr ⟨fun _ _ => hnew, hapart⟩, shift hempty, fun hno => by cases hno⟩
      · rw [if_neg (fun hsame => hclient (client_eq_iff.mp hsame))] at h
        obtain ⟨hapart, hempty, hcount⟩ := ih h
        refine ⟨forall_mem_cons.mpr ⟨fun _ hclient' => absurd hclient' hclient, hapart⟩, shift hempty,
          fun hlimited => ?_⟩
        rw [hcount hlimited, filter_cons, if_pos htaken, filter_cons,
          if_neg (by simpa using fun hsame => hclient hsame.symm)]

/-- What a register comes to: the request is entered, or the table is as it was. -/
inductive Registered (s : InflightStore) (server : ServerView) (metadata : TaskMetadata) (limited : Bool)
    (maxClientRequests : Nat) (retained : Bool) (o : StoreOutcome) : Prop
  | refused (result : o.result ≠ .ok) (store : o.store = s)
  | entered (result : o.result = .ok) (valid : metadata.Valid)
      (current : server.clientInspect (client metadata) = .ok .open)
      (running : server.stopRequested = .ok false) {i : Nat} {t : InflightSlot}
      (slot : s.slots[i]? = some t) (free : t.occupied = false)
      (apart : ∀ r ∈ s.records, client metadata = client r.metadata →
        metadata.route.requestSequence ≠ r.metadata.route.requestSequence ∧
          metadata.requestInstanceId ≠ r.metadata.requestInstanceId)
      (within : limited = true → s.clientCount (client metadata) < maxClientRequests)
      (store : o.store = s.enter i metadata (s.count + 1) retained)

theorem checkClient_eq (server : ServerView) (hvalid : metadata.Valid) :
    checkClient server metadata = match server.clientInspect (client metadata) with
      | .error e => .error (e.val, .checkClient)
      | .ok state => .ok state := by
  cases hcurrent : server.clientInspect (client metadata) with
  | error e => simp only [checkClient, validate_ok hvalid, hcurrent]
  | ok state => simp only [checkClient, validate_ok hvalid, hcurrent]

theorem registerScan_error {i empty count : Nat} {e : Result}
    (h : registerScan metadata limited capacity slots i empty count = .error e) : e ≠ .ok := by
  induction slots generalizing i empty count with
  | nil => cases h
  | cons t slots ih =>
    unfold registerScan at h
    split at h
    · exact ih h
    split at h
    · split at h
      · cases h
        simp
      · split at h
        · split at h
          · rename_i hadd
            cases h
            rw [checkedSizeAdd_ne_ok hadd]
            simp
          · exact ih h
        · exact ih h
    · exact ih h

theorem registerImpl_cases (s : InflightStore) (server : ServerView) (metadata : TaskMetadata) (limited : Bool)
    (maxClientRequests : Nat) (retain : Option Result) :
    Registered s server metadata limited maxClientRequests (retain = some .ok)
      (s.registerImpl server metadata limited maxClientRequests retain) := by
  have refuse : ∀ {result : Result} {stage : InflightStage}, result ≠ .ok →
      Registered s server metadata limited maxClientRequests (retain = some .ok) (s.finish result stage) :=
    fun h => .refused h rfl
  unfold InflightStore.registerImpl
  split
  · exact refuse (by simp)
  cases validate_cases metadata with
  | inr bad =>
    rw [bad.2]
    exact refuse (by simp)
  | inl good =>
    obtain ⟨hvalid, heq⟩ := good
    rw [heq]
    dsimp only
    split
    · exact refuse (by simp)
    rw [checkClient_eq server hvalid]
    cases hcurrent : server.clientInspect (client metadata) with
    | error e => exact refuse e.property
    | ok state =>
      cases hstop : server.stopRequested with
      | error e => exact refuse e.property
      | ok stopRequested =>
        dsimp only
        split
        · exact refuse (by simp)
        rename_i hrunning
        split
        · exact refuse (by simp)
        rename_i hopen
        split
        · rename_i e hscan
          exact refuse (registerScan_error hscan)
        · rename_i empty count hscan
          obtain ⟨hapart, hempty, hcount⟩ := registerScan_ok hscan
          split
          · exact refuse (by simp)
          rename_i hlimit
          split
          · exact refuse (by simp)
          rename_i hfull
          split
          · rename_i e hadd
            exact refuse (by rw [checkedSizeAdd_ne_ok hadd]; simp)
          · rename_i nextCount hadd
            split
            · exact refuse (by simp)
            split
            · rename_i hretain
              refine refuse ?_
              cases hr : retain with
              | none => exact absurd hr hretain.1
              | some r => exact fun h => hretain.2.1 (by rw [hr, ← h]; rfl)
            · -- every check is passed
              rcases hempty with none | found
              · exact absurd none hfull
              · obtain ⟨j, t, hj, hslot, hfree⟩ := found
                rw [Nat.zero_add] at hj
                refine .entered rfl hvalid (hcurrent.trans (by rw [not_not.mp hopen]))
                  (hstop.trans (by simpa using hrunning)) (i := j) hslot hfree
                  (fun r hr => ?_) (fun hlimited => ?_) ?_
                · obtain ⟨hmem, htaken⟩ := mem_records.mp hr
                  exact hapart r hmem htaken
                · have hn := hcount hlimited
                  simp only [hlimited, true_and, ge_iff_le, Nat.not_le] at hlimit
                  rw [Nat.zero_add] at hn
                  exact hn.symm.trans_lt hlimit
                · show s.enter empty metadata nextCount _ = _
                  rw [checkedSizeAdd_ok hadd]
                  congr 1

end Register

/-! ## 4. Cleaning up -/

/-- The slots of a client from `first` up to `next` were left, and no other slot changed. -/
structure Cleans (lease : Lease) (s : InflightStore) (first next : Nat) (s' : InflightStore) : Prop where
  inv : StoreInv s'
  capacity : s'.capacity = s.capacity
  retained : s'.cancels.retained = s.cancels.retained
  first_le : first ≤ next
  slots : ∀ i, s'.slot i =
    if first ≤ i ∧ i < next ∧ (s.slot i).occupied = true ∧ client (s.slot i).metadata = lease then .empty
    else s.slot i
  gone : ∃ gone, s.records.Perm (gone ++ s'.records) ∧ ∀ r ∈ gone, client r.metadata = lease

section Cleanup

variable {s s' : InflightStore} {lease : Lease}

theorem Cleans.none (inv : StoreInv s) (first : Nat) : Cleans lease s first first s :=
  ⟨inv, rfl, rfl, Nat.le_refl _, fun i => by rw [if_neg (by omega)], [], List.Perm.refl _,
    fun r hr => (not_mem_nil hr).elim⟩

theorem Cleans.trans {s₁ : InflightStore} {first middle next : Nat} (h : Cleans lease s first middle s₁)
    (h' : Cleans lease s₁ middle next s') : Cleans lease s first next s' := by
  obtain ⟨gone, hgone, hclient⟩ := h.gone
  obtain ⟨gone', hgone', hclient'⟩ := h'.gone
  refine ⟨h'.inv, h'.capacity.trans h.capacity, h'.retained.trans h.retained,
    h.first_le.trans h'.first_le, fun i => ?_, gone ++ gone', ?_, forall_mem_append.mpr ⟨hclient, hclient'⟩⟩
  · rw [h'.slots i, h.slots i]
    have hfirst := h.first_le
    have hnext := h'.first_le
    by_cases hbefore : i < middle
    · rw [if_neg (by omega)]
      by_cases hin : first ≤ i ∧ i < middle ∧ (s.slot i).occupied = true ∧ client (s.slot i).metadata = lease
      · rw [if_pos hin, if_pos ⟨hin.1, by omega, hin.2.2⟩]
      · rw [if_neg hin, if_neg fun h => hin ⟨h.1, hbefore, h.2.2⟩]
    · have hout : ¬ (first ≤ i ∧ i < middle ∧ (s.slot i).occupied = true ∧ client (s.slot i).metadata = lease) :=
        fun h => hbefore h.2.1
      rw [if_neg hout]
      by_cases hin : middle ≤ i ∧ i < next ∧ (s.slot i).occupied = true ∧ client (s.slot i).metadata = lease
      · rw [if_pos hin, if_pos ⟨by omega, hin.2⟩]
      · rw [if_neg hin, if_neg fun h => hin ⟨by omega, h.2⟩]
  · rw [append_assoc]
    exact hgone.trans (hgone'.append_left gone)

theorem slot_leave {j : Nat} (hj : j < s.slots.length) (i : Nat) :
    (s.leave j).slot i = if i = j then .empty else s.slot i := by
  unfold InflightStore.slot InflightStore.leave
  rw [getD_eq_getElem?_getD, getD_eq_getElem?_getD, List.getElem?_set]
  by_cases h : j = i
  · subst h
    rw [if_pos rfl, if_pos hj, if_pos rfl]
    rfl
  · rw [if_neg h, if_neg fun h' => h h'.symm]

section

variable (inv : StoreInv s)
include inv

theorem Cleans.one {i : Nat} {t : InflightSlot} (h : s.slots[i]? = some t)
    (htaken : t.occupied = true) (hclient : client t.metadata = lease) :
    Cleans lease s i (i + 1) (s.leave i) := by
  have hlen : i < s.slots.length := (List.getElem?_eq_some_iff.mp h).1
  refine ⟨storeInv_leave inv h htaken, rfl, rfl, Nat.le_succ _, fun j => ?_, [t], records_leave h htaken,
    fun r hr => by rw [mem_singleton.mp hr]; exact hclient⟩
  rw [slot_leave hlen]
  by_cases hj : j = i
  · rw [if_pos hj, if_pos]
    rw [hj, slot_eq h]
    exact ⟨Nat.le_refl _, Nat.lt_succ_self _, htaken, hclient⟩
  · rw [if_neg hj, if_neg (by omega)]

theorem Cleans.pass {i : Nat}
    (hother : ¬ ((s.slot i).occupied = true ∧ client (s.slot i).metadata = lease)) :
    Cleans lease s i (i + 1) s := by
  refine ⟨inv, rfl, rfl, Nat.le_succ _, fun j => ?_, [], List.Perm.refl _, fun r hr => (not_mem_nil hr).elim⟩
  rw [if_neg]
  intro ⟨hle, hlt, hmine⟩
  have hj : j = i := by omega
  rw [hj] at hmine
  exact hother hmine

/-- **A cleanup leaves the slots of the client that it passed**, and stops at the first that it cannot
    leave. -/
theorem cleans_loop (request release : Nat → Result) (left : Nat) (value : CleanupReport)
    (hle : value.nextIndex ≤ s.capacity) :
    Cleans lease s value.nextIndex (cleanupLoop lease request release left value s).2.1.nextIndex
      (cleanupLoop lease request release left value s).2.2 := by
  induction left generalizing s value with
  | zero =>
    unfold cleanupLoop
    exact .none inv _
  | succ left ih =>
    unfold cleanupLoop
    dsimp only
    split
    · rename_i hlt
      have hslot : s.slots[value.nextIndex]? = some (s.slot value.nextIndex) := by
        have hlen : value.nextIndex < s.slots.length := inv.length.symm ▸ hlt
        rw [slot_eq (List.getElem?_eq_getElem hlen), List.getElem?_eq_getElem hlen]
      have rest : ∀ {u : InflightStore} {next : CleanupReport}, StoreInv u → u.capacity = s.capacity →
          next.nextIndex = value.nextIndex + 1 →
          Cleans lease u (value.nextIndex + 1) (cleanupLoop lease request release left next u).2.1.nextIndex
            (cleanupLoop lease request release left next u).2.2 := by
        intro u next hu hcapacity hnext
        rw [← hnext]
        exact ih hu next (by rw [hnext, hcapacity]; exact hlt)
      split
      · rename_i hmine
        rw [Bool.and_eq_true, belongs_iff] at hmine
        split
        · exact .none inv _
        split
        · exact .none inv _
        have one : Cleans lease s value.nextIndex (value.nextIndex + 1) (s.leave value.nextIndex) :=
          .one inv hslot hmine.1 hmine.2
        cases (s.slot value.nextIndex).cancel with
        | none =>
          simp only [ne_eq, not_true_eq_false, if_false]
          split
          · exact .none inv _
          · exact one.trans (rest one.inv rfl rfl)
        | some reference =>
          simp only [ne_eq, reduceCtorEq, not_false_eq_true, if_true]
          split
          · exact .none inv _
          · exact one.trans (rest one.inv rfl rfl)
      · rename_i hother
        rw [Bool.and_eq_true, belongs_iff] at hother
        exact (Cleans.pass inv hother).trans (rest inv rfl rfl)
    · exact .none inv _

theorem cleans_batch (lease : Lease) (beginIndex maxSlots : Nat) (request release : Nat → Result) :
    (s.cancelClientBatch lease beginIndex maxSlots request release).2.2 = s ∨
      Cleans lease s beginIndex (s.cancelClientBatch lease beginIndex maxSlots request release).2.1.nextIndex
        (s.cancelClientBatch lease beginIndex maxSlots request release).2.2 := by
  unfold InflightStore.cancelClientBatch
  split
  · exact .inl rfl
  split
  · exact .inl rfl
  rename_i hrange
  split
  · exact .inl rfl
  split
  · exact .inl rfl
  split
  · exact .inl rfl
  · exact .inr (cleans_loop inv request release maxSlots { CleanupReport.zero with
      nextIndex := beginIndex } (Nat.not_lt.mp (not_or.mp hrange).2))

end

end Cleanup

/-! ## 5. Consuming -/

/-- What a consume of a completion comes to: it is kept, delivered, or destroyed because it came late. -/
inductive Consumed (s : InflightStore) (server : ServerView) (completion : CompletionMetadata)
    (release deliver : Result) (o : ConsumeOutcome) : Prop
  | kept (result : o.result ≠ .ok) (owner : o.owner = some completion) (store : o.store = s)
      (silent : o.report.deliveryCalled = false) (record : o.report.recordConsumed = false)
      (why : completion.hasValidShape = false ∨
        (∃ e, server.clientInspect (client completion.request) = .error e ∧ e.val ≠ .notFound) ∨
        (∃ r ∈ s.records, completion.request.SameRequest r.metadata ∧
          (completion.request ≠ r.metadata ∨ release ≠ .ok)))
  | delivered {state : CloseState} {i : Nat} {t : InflightSlot} (shape : completion.hasValidShape = true)
      (current : server.clientInspect (client completion.request) = .ok state)
      (slot : s.slots[i]? = some t) (taken : t.occupied = true) (request : completion.request = t.metadata)
      (store : o.store = s.leave i) (called : o.report.deliveryCalled = true)
      (record : o.report.recordConsumed = true) (found : o.report.found = some ⟨t.metadata, state⟩)
      (result : o.result = deliver) (owner : o.owner = if deliver = .ok then none else some completion)
  | late (shape : completion.hasValidShape = true) (result : o.result = .ok) (owner : o.owner = none)
      (silent : o.report.deliveryCalled = false)
      (gone : (∃ e, server.clientInspect (client completion.request) = .error e ∧ e.val = .notFound) ∨
        ∀ r ∈ s.records, ¬ completion.request.SameRequest r.metadata)
      (store : ((∀ r ∈ s.records, ¬ completion.request.SameRequest r.metadata) ∧ o.store = s ∧
          o.report.recordConsumed = false) ∨
        ∃ i t, s.slots[i]? = some t ∧ t.occupied = true ∧ completion.request = t.metadata ∧
          o.store = s.leave i ∧ o.report.recordConsumed = true)

section Consume

variable {s : InflightStore}

theorem eq_of_sameRequest {m n : TaskMetadata} (h : m.SameRequest n) (hoperation : m.operation = n.operation)
    (hdeadline : m.deadlineNs = n.deadlineNs) : m = n := by
  obtain ⟨route, instanceId, operation, deadline⟩ := m
  obtain ⟨hroute, hinstance⟩ := h
  cases hroute
  cases hinstance
  cases hoperation
  cases hdeadline
  rfl

theorem TaskMetadata.SameRequest.refl (m : TaskMetadata) : m.SameRequest m := ⟨rfl, rfl⟩

theorem checkCompletion_eq (inv : StoreInv s) (server : ServerView) {completion : CompletionMetadata}
    (hshape : completion.hasValidShape = true) {state : CloseState}
    (hcurrent : server.clientInspect (client completion.request) = .ok state) :
    (∃ r ∈ s.records, completion.request.SameRequest r.metadata ∧ s.checkCompletion server completion =
          if completion.request = r.metadata then .ok ⟨r.metadata, state⟩
          else .error (.invalidArgument, .matchRecord)) ∨
      ((∀ r ∈ s.records, ¬ completion.request.SameRequest r.metadata) ∧
        s.checkCompletion server completion = .error (.notFound, .checkRecord)) := by
  have hvalid := valid_of_shape hshape
  unfold InflightStore.checkCompletion
  rw [make_eq, hshape, if_neg (by simp)]
  dsimp only
  rw [checkClient_eq server hvalid, hcurrent]
  rcases get_cases inv completion.request with found | other
  · obtain ⟨-, r, hr, hsame, hget⟩ := found
    refine .inl ⟨r, hr, hsame, ?_⟩
    rw [hget]
    dsimp only
    by_cases heq : completion.request = r.metadata
    · rw [if_pos heq, if_neg (by rw [heq]; simp)]
    rw [if_neg heq, if_pos]
    by_contra hno
    rw [not_or, not_not, not_not] at hno
    exact heq (eq_of_sameRequest hsame hno.1 hno.2)
  · rcases other with missing | bad
    · refine .inr ⟨missing.2.1, ?_⟩
      rw [missing.2.2]
    · exact absurd hvalid bad.1

theorem take_own (inv : StoreInv s) {t : InflightSlot} (hmem : t ∈ s.records) (release : Result) :
    (release ≠ .ok ∧ (s.take t.metadata release).1.result ≠ .ok ∧
        (s.take t.metadata release).1.store = s) ∨
      (release = .ok ∧ (s.take t.metadata release).1.result = .ok ∧
        ∃ j, s.slots[j]? = some t ∧ (s.take t.metadata release).1.store = s.leave j) := by
  have hone := filter_sameRequest inv hmem (TaskMetadata.SameRequest.refl t.metadata)
  rcases take_cases inv t.metadata release with failed | done
  · by_cases hrelease : release = .ok
    · exact absurd ((take_ok_iff inv).mpr ⟨hrelease, inv.valid t hmem, t, hone⟩) failed.1
    · exact .inl ⟨hrelease, failed⟩
  · obtain ⟨hrelease, -, hok, j, u, hj, hutaken, hsame, hstore, -⟩ := done
    have hu := filter_sameRequest inv (mem_records.mpr ⟨mem_of_getElem? hj, hutaken⟩) hsame
    rw [hone] at hu
    cases hu
    exact .inr ⟨hrelease, hok, j, hj, hstore⟩

theorem consumeCompletion_cases (inv : StoreInv s) (server : ServerView) (completion : CompletionMetadata)
    (release deliver : Result) :
    Consumed s server completion release deliver
      (s.consumeCompletion server (some completion) release deliver) := by
  unfold InflightStore.consumeCompletion
  dsimp only
  cases hshape : completion.hasValidShape with
  | false =>
    have hcheck : s.checkCompletion server completion = .error (.invalidArgument, .checkCompletion) := by
      unfold InflightStore.checkCompletion
      rw [make_eq, hshape]
      rfl
    rw [hcheck]
    exact .kept (by simp) rfl rfl rfl rfl (.inl hshape)
  | true =>
    have hvalid := valid_of_shape hshape
    cases hcurrent : server.clientInspect (client completion.request) with
    | error e =>
      have hcheck : s.checkCompletion server completion = .error (e.val, .checkClient) := by
        unfold InflightStore.checkCompletion
        rw [make_eq, hshape, if_neg (by simp)]
        dsimp only
        rw [checkClient_eq server hvalid, hcurrent]
      rw [hcheck]
      dsimp only
      by_cases he : e.val = .notFound
      · have hgone : (∃ e, server.clientInspect (client completion.request) = .error e ∧ e.val = .notFound) ∨
            ∀ r ∈ s.records, ¬ completion.request.SameRequest r.metadata := .inl ⟨e, hcurrent, he⟩
        rw [if_pos ⟨he, rfl⟩]
        rcases get_cases inv completion.request with found | other
        · obtain ⟨-, r, hr, hsame, hget⟩ := found
          rw [hget]
          dsimp only
          split
          · rename_i hdiffer
            refine .kept (by simp) rfl rfl rfl rfl (.inr (.inr ⟨r, hr, hsame, .inl fun heq => ?_⟩))
            rw [heq] at hdiffer
            simp at hdiffer
          · rename_i hequal
            rw [not_or, not_not, not_not] at hequal
            have heq := eq_of_sameRequest hsame hequal.1.symm hequal.2.symm
            have htaken := (mem_records.mp hr).2
            unfold InflightStore.settleCompletion
            rcases take_own inv hr release with failed | done
            · obtain ⟨hrelease, hbad, hstore⟩ := failed
              rw [if_pos hbad]
              exact .kept hbad rfl hstore rfl rfl (.inr (.inr ⟨r, hr, hsame, .inr hrelease⟩))
            · obtain ⟨-, hok, j, hj, hstore⟩ := done
              rw [if_neg (not_not.mpr hok), if_neg (by simp), if_neg (by simp)]
              exact .late hshape rfl rfl rfl hgone (.inr ⟨j, r, hj, htaken, heq, hstore, rfl⟩)
        · rcases other with missing | bad
          · rw [missing.2.2]
            dsimp only
            rw [if_neg (by simp)]
            exact .late hshape rfl rfl rfl hgone (.inl ⟨missing.2.1, rfl, rfl⟩)
          · exact absurd hvalid bad.1
      · rw [if_neg fun h => he h.1, if_neg fun h => he h.1]
        exact .kept e.property rfl rfl rfl rfl (.inr (.inl ⟨e, hcurrent, he⟩))
    | ok state =>
      rcases checkCompletion_eq inv server hshape hcurrent with found | missing
      · obtain ⟨r, hr, hsame, hcheck⟩ := found
        rw [hcheck]
        by_cases heq : completion.request = r.metadata
        · rw [if_pos heq]
          have htaken := (mem_records.mp hr).2
          unfold InflightStore.settleCompletion
          dsimp only
          rcases take_own inv hr release with failed | done
          · obtain ⟨hrelease, hbad, hstore⟩ := failed
            rw [if_pos hbad]
            exact .kept hbad rfl hstore rfl rfl (.inr (.inr ⟨r, hr, hsame, .inr hrelease⟩))
          · obtain ⟨-, hok, j, hj, hstore⟩ := done
            rw [if_neg (not_not.mpr hok), if_pos rfl]
            by_cases hdeliver : deliver = .ok
            · rw [if_neg (by simp [hdeliver])]
              exact .delivered hshape hcurrent hj htaken heq hstore rfl rfl rfl hdeliver.symm
                (by rw [if_pos hdeliver])
            · rw [if_pos ⟨rfl, hdeliver⟩]
              exact .delivered hshape hcurrent hj htaken heq hstore rfl rfl rfl rfl
                (by rw [if_neg hdeliver])
        · rw [if_neg heq]
          dsimp only
          rw [if_neg (by simp), if_neg (by simp)]
          exact .kept (by simp) rfl rfl rfl rfl (.inr (.inr ⟨r, hr, hsame, .inl heq⟩))
      · rw [missing.2]
        dsimp only
        rw [if_neg (by simp), if_pos ⟨rfl, rfl⟩]
        exact .late hshape rfl rfl rfl (.inr missing.1) (.inl ⟨missing.1, rfl, rfl⟩)

end Consume

/-! ## 6. Calls and runs -/

/-- A call on the table. -/
inductive InflightCall where
  | register (server : ServerView) (metadata : TaskMetadata)
  | registerLimited (server : ServerView) (metadata : TaskMetadata) (maxClientRequests : Nat)
  | registerTaskLimited (server : ServerView) (metadata : TaskMetadata) (maxClientRequests : Nat)
      (retain : Result)
  | take (key : TaskMetadata) (release : Result)
  | consume (server : ServerView) (owner : Option CompletionMetadata) (release deliver : Result)
  | cancelClientBatch (lease : Lease) (beginIndex maxSlots : Nat) (request release : Nat → Result)

/-- A call is made: its result and the table after it. -/
def InflightStore.exec (s : InflightStore) : InflightCall → Result × InflightStore
  | .register server metadata =>
    let o := s.register server metadata
    (o.result, o.store)
  | .registerLimited server metadata maxClientRequests =>
    let o := s.registerLimited server metadata maxClientRequests
    (o.result, o.store)
  | .registerTaskLimited server metadata maxClientRequests retain =>
    let o := s.registerTaskLimited server metadata maxClientRequests retain
    (o.result, o.store)
  | .take key release =>
    let o := (s.take key release).1
    (o.result, o.store)
  | .consume server owner release deliver =>
    let o := s.consumeCompletion server owner release deliver
    (o.result, o.store)
  | .cancelClientBatch lease beginIndex maxSlots request release =>
    let o := s.cancelClientBatch lease beginIndex maxSlots request release
    (o.1, o.2.2)

/-- The table after a sequence of calls. -/
def InflightStore.run (s : InflightStore) (calls : List InflightCall) : InflightStore :=
  calls.foldl (fun s call => (s.exec call).2) s

/-- A call registers for a client only within a limit. -/
def InflightCall.Within (lease : Lease) (limit : Nat) : InflightCall → Prop
  | .register _ metadata => client metadata ≠ lease
  | .registerLimited _ metadata maxClientRequests => client metadata = lease → maxClientRequests ≤ limit
  | .registerTaskLimited _ metadata maxClientRequests _ => client metadata = lease → maxClientRequests ≤ limit
  | _ => True

/-- What a call does to the table: nothing, or one record comes, or one goes, or those of a client go. -/
inductive Called (s : InflightStore) (call : InflightCall) : Result × InflightStore → Prop
  | unchanged (r : Result) : Called s call (r, s)
  | entered {i : Nat} {t : InflightSlot} {metadata : TaskMetadata} {retained : Bool}
      (slot : s.slots[i]? = some t) (free : t.occupied = false) (valid : metadata.Valid)
      (apart : ∀ r ∈ s.records, client metadata = client r.metadata →
        metadata.route.requestSequence ≠ r.metadata.route.requestSequence ∧
          metadata.requestInstanceId ≠ r.metadata.requestInstanceId)
      (within : ∀ lease limit, call.Within lease limit → client metadata = lease → s.clientCount lease < limit) :
      Called s call (.ok, s.enter i metadata (s.count + 1) retained)
  | left {r : Result} {i : Nat} {t : InflightSlot} (slot : s.slots[i]? = some t) (taken : t.occupied = true)
      (why : r ≠ .ok → ∃ server completion release, call = .consume server (some completion) release r ∧
        completion.request = t.metadata) :
      Called s call (r, s.leave i)
  | cleaned {lease : Lease} {beginIndex maxSlots : Nat} {request release : Nat → Result}
      (batch : call = .cancelClientBatch lease beginIndex maxSlots request release)
      (cleans : Cleans lease s beginIndex
        (s.cancelClientBatch lease beginIndex maxSlots request release).2.1.nextIndex
        (s.cancelClientBatch lease beginIndex maxSlots request release).2.2) :
      Called s call ((s.cancelClientBatch lease beginIndex maxSlots request release).1,
        (s.cancelClientBatch lease beginIndex maxSlots request release).2.2)

section Run

variable {s : InflightStore} {i reference limit : Nat} {call : InflightCall} {lease : Lease}

theorem called_register {server : ServerView} {metadata : TaskMetadata} {limited : Bool}
    {maxClientRequests : Nat} {retained : Bool} {o : StoreOutcome}
    (h : Registered s server metadata limited maxClientRequests retained o)
    (hwithin : ∀ lease limit, call.Within lease limit → client metadata = lease →
      limited = true ∧ maxClientRequests ≤ limit) :
    Called s call (o.result, o.store) := by
  cases h with
  | refused _ store =>
    rw [store]
    exact .unchanged _
  | entered result valid _ _ slot free apart within store =>
    rw [result, store]
    refine .entered slot free valid apart fun lease limit hcall hclient => ?_
    obtain ⟨hlimited, hle⟩ := hwithin lease limit hcall hclient
    rw [← hclient]
    exact (within hlimited).trans_le hle

theorem exec_cases (inv : StoreInv s) (call : InflightCall) : Called s call (s.exec call) := by
  cases call with
  | register server metadata =>
    exact called_register (registerImpl_cases s server metadata false 0 none)
      fun lease limit hcall hclient => absurd hclient hcall
  | registerLimited server metadata maxClientRequests =>
    exact called_register (registerImpl_cases s server metadata true maxClientRequests none)
      fun lease limit hcall hclient => ⟨rfl, hcall hclient⟩
  | registerTaskLimited server metadata maxClientRequests retain =>
    unfold InflightStore.exec InflightStore.registerTaskLimited
    dsimp only
    split
    · exact .unchanged _
    · exact called_register (registerImpl_cases s server metadata true maxClientRequests (some retain))
        fun lease limit hcall hclient => ⟨rfl, hcall hclient⟩
  | take key release =>
    rw [InflightStore.exec]
    rcases take_cases inv key release with failed | done
    · rw [failed.2]
      exact .unchanged _
    · obtain ⟨-, -, hok, i, t, hslot, htaken, -, hstore, -⟩ := done
      rw [hok, hstore]
      exact .left hslot htaken fun hno => absurd rfl hno
  | consume server owner release deliver =>
    cases owner with
    | none => exact .unchanged _
    | some completion =>
      rw [InflightStore.exec]
      cases consumeCompletion_cases inv server completion release deliver with
      | kept _ _ store =>
        rw [store]
        exact .unchanged _
      | delivered _ _ slot taken request store _ _ _ result =>
        rw [result, store]
        exact .left slot taken fun _ => ⟨server, completion, release, rfl, request⟩
      | late _ result _ _ _ store =>
        rw [result]
        rcases store with missing | found
        · rw [missing.2.1]
          exact .unchanged _
        · obtain ⟨i, t, hslot, htaken, -, hstore, -⟩ := found
          rw [hstore]
          exact .left hslot htaken fun hno => absurd rfl hno
  | cancelClientBatch lease beginIndex maxSlots request release =>
    rcases cleans_batch inv lease beginIndex maxSlots request release with same | cleans
    · rw [InflightStore.exec]
      rw [same]
      exact .unchanged _
    · exact .cleaned rfl cleans

theorem storeInv_exec (inv : StoreInv s) (call : InflightCall) : StoreInv (s.exec call).2 := by
  have hcalled := exec_cases inv call
  generalize s.exec call = o at hcalled ⊢
  cases hcalled with
  | unchanged => exact inv
  | entered slot free valid apart => exact storeInv_enter inv slot free valid _ apart
  | left slot taken => exact storeInv_leave inv slot taken
  | cleaned _ cleans => exact cleans.inv

theorem storeInv_run (inv : StoreInv s) (calls : List InflightCall) : StoreInv (s.run calls) := by
  induction calls generalizing s with
  | nil => exact inv
  | cons call calls ih => exact ih (storeInv_exec inv call)

theorem clientCount_le {s' : InflightStore} (gone : List InflightSlot)
    (h : s.records.Perm (gone ++ s'.records)) (lease : Lease) : s'.clientCount lease ≤ s.clientCount lease := by
  unfold InflightStore.clientCount
  rw [(h.filter _).length_eq, filter_append, length_append]
  exact Nat.le_add_left _ _

theorem clientCount_enter {i : Nat} {t : InflightSlot} (h : s.slots[i]? = some t) (hfree : t.occupied = false)
    (metadata : TaskMetadata) (nextCount : Nat) (retained : Bool) (lease : Lease) :
    (s.enter i metadata nextCount retained).clientCount lease =
      s.clientCount lease + if client metadata = lease then 1 else 0 := by
  unfold InflightStore.clientCount
  rw [((records_enter h hfree metadata nextCount retained).filter _).length_eq, filter_cons]
  by_cases hclient : client metadata = lease
  · rw [if_pos (by simpa using hclient), if_pos hclient, length_cons]
  · rw [if_neg (by simpa using hclient), if_neg hclient, Nat.add_zero]

theorem clientCount_exec (inv : StoreInv s) (hcall : call.Within lease limit) (h : s.clientCount lease ≤ limit) :
    (s.exec call).2.clientCount lease ≤ limit := by
  have hcalled := exec_cases inv call
  generalize s.exec call = o at hcalled ⊢
  cases hcalled with
  | unchanged => exact h
  | entered slot free _ _ within =>
    rw [clientCount_enter slot free]
    split
    · rename_i hclient
      exact within lease limit hcall hclient
    · exact h
  | left slot taken =>
    exact (clientCount_le [_] (records_leave slot taken) lease).trans h
  | cleaned _ cleans =>
    obtain ⟨gone, hgone, -⟩ := cleans.gone
    exact (clientCount_le gone hgone lease).trans h

theorem clientCount_run (inv : StoreInv s) {calls : List InflightCall}
    (hcalls : ∀ call ∈ calls, call.Within lease limit) (h : s.clientCount lease ≤ limit) :
    (s.run calls).clientCount lease ≤ limit := by
  induction calls generalizing s with
  | nil => exact h
  | cons call calls ih =>
    exact ih (storeInv_exec inv call) (fun later hlater => hcalls later (mem_cons_of_mem _ hlater))
      (clientCount_exec inv (hcalls call (mem_cons_self ..)) h)

/-! ## 7. The references -/

theorem StoreInv.ledger_count (inv : StoreInv s) (reference : Nat) :
    s.held.count reference + s.cancels.released.count reference =
      if reference < s.cancels.retained then 1 else 0 := by
  rw [← count_append, inv.ledger.count_eq, nodup_range.count]
  simp only [mem_range]

theorem StoreInv.cancel_unique (inv : StoreInv s) {i j : Nat} {t u : InflightSlot} {reference : Nat}
    (hi : s.slots[i]? = some t) (hj : s.slots[j]? = some u) (ht : t.cancel = some reference)
    (hu : u.cancel = some reference) : i = j := by
  by_contra hne
  have taken : ∀ {v : InflightSlot}, v ∈ s.slots → v.cancel = some reference → v.occupied = true := by
    intro v hv hcancel
    by_contra hfree
    rw [inv.free v hv (by simpa using hfree)] at hcancel
    cases hcancel
  have htaken := taken (mem_of_getElem? hi) ht
  have hleft : (s.leave i).slots[j]? = some u := by
    show (s.slots.set i .empty)[j]? = some u
    rw [List.getElem?_set_ne hne, hj]
  have hmem : reference ∈ (s.leave i).held :=
    mem_filterMap.mpr ⟨u, mem_records.mpr ⟨mem_of_getElem? hleft, taken (mem_of_getElem? hj) hu⟩, hu⟩
  have hheld := (records_leave hi htaken).filterMap (·.cancel)
  rw [filterMap_cons, ht] at hheld
  have hnodup : s.held.Nodup := (nodup_append.mp (inv.ledger.nodup_iff.mpr nodup_range)).1
  exact (nodup_cons.mp (hheld.nodup_iff.mp hnodup)).1 hmem

theorem slots_of_cancel (h : (s.slot i).cancel = some reference) : s.slots[i]? = some (s.slot i) := by
  unfold InflightStore.slot at h ⊢
  rw [getD_eq_getElem?_getD] at h ⊢
  cases hslot : s.slots[i]? with
  | none =>
    rw [hslot] at h
    cases h
  | some t => rfl

theorem slot_enter {j : Nat} (metadata : TaskMetadata) (nextCount : Nat)
    (retained : Bool) {i : Nat} (hne : i ≠ j) : (s.enter j metadata nextCount retained).slot i = s.slot i := by
  unfold InflightStore.slot InflightStore.enter
  rw [getD_eq_getElem?_getD, getD_eq_getElem?_getD, List.getElem?_set_ne hne.symm]

theorem StoreInv.released_of_unheld (inv : StoreInv s) {reference : Nat} (hlt : reference < s.cancels.retained)
    (hno : ∀ i, (s.slot i).cancel ≠ some reference) : reference ∈ s.cancels.released := by
  have hcount := inv.ledger_count reference
  have hheld : s.held.count reference = 0 := by
    refine count_eq_zero.mpr fun hmem => ?_
    obtain ⟨u, hu, hcancel⟩ := mem_filterMap.mp hmem
    obtain ⟨j, hj⟩ := List.getElem?_of_mem (mem_records.mp hu).1
    exact hno j (by rw [slot_eq hj]; exact hcancel)
  rw [if_pos hlt, hheld, Nat.zero_add] at hcount
  exact count_pos_iff.mp (by omega)

theorem StoreInv.cancel_lt (inv : StoreInv s) (h : (s.slot i).cancel = some reference) :
    reference < s.cancels.retained := by
  have hslot := slots_of_cancel h
  have hmem := mem_of_getElem? hslot
  have htaken : (s.slot i).occupied = true := by
    by_contra hfree
    rw [inv.free _ hmem (by simpa using hfree)] at h
    cases h
  have hheld : reference ∈ s.held := mem_filterMap.mpr ⟨_, mem_records.mpr ⟨hmem, htaken⟩, h⟩
  exact mem_range.mp (inv.ledger.mem_iff.mp (mem_append_left _ hheld))

/-- **The call that takes a slot from its record gives the reference back.** -/
theorem released_exec (inv : StoreInv s) (call : InflightCall) (h : (s.slot i).cancel = some reference)
    (hchanged : (s.exec call).2.slot i ≠ s.slot i) :
    reference ∈ (s.exec call).2.cancels.released := by
  have hslot := slots_of_cancel h
  have hcalled := exec_cases inv call
  generalize s.exec call = o at hcalled hchanged ⊢
  cases hcalled with
  | unchanged => exact absurd rfl hchanged
  | @entered j t metadata retained slot free =>
    by_cases hj : i = j
    · rw [hj, slot_eq slot, inv.free t (mem_of_getElem? slot) free] at h
      cases h
    · exact absurd (slot_enter metadata _ retained hj) hchanged
  | @left r j t slot taken =>
    have hlen : j < s.slots.length := (List.getElem?_eq_some_iff.mp slot).1
    rw [slot_leave hlen] at hchanged
    by_cases hj : i = j
    · show reference ∈ s.cancels.released ++ (s.slot j).cancel.toList
      rw [← hj, h]
      exact mem_append_right _ (mem_singleton_self _)
    · rw [if_neg hj] at hchanged
      exact absurd rfl hchanged
  | cleaned _ cleans =>
    refine cleans.inv.released_of_unheld ?_ fun j hheld => hchanged ?_
    · rw [cleans.retained]
      exact inv.cancel_lt h
    · -- a slot that still holds the reference held it before
      have hsame := cleans.slots j
      split at hsame
      · rw [hsame] at hheld
        cases hheld
      · rw [hsame] at hheld
        rw [inv.cancel_unique hslot (slots_of_cancel hheld) h hheld]
        exact hsame

/-! ## 8. Every state of every run -/

/-- What a call that fails leaves: the table, save for a record taken before a delivery, and a cleanup on its way. -/
inductive Failed (s : InflightStore) : InflightCall → InflightStore → Prop
  | unchanged (call : InflightCall) : Failed s call s
  | refused {server : ServerView} {completion : CompletionMetadata} {release deliver : Result} {i : Nat}
      {t : InflightSlot} (slot : s.slots[i]? = some t) (taken : t.occupied = true)
      (request : completion.request = t.metadata) (why : deliver ≠ .ok) :
      Failed s (.consume server (some completion) release deliver) (s.leave i)
  | stopped {lease : Lease} {beginIndex maxSlots next : Nat} {request release : Nat → Result}
      {s' : InflightStore} (cleans : Cleans lease s beginIndex next s')
      (why : next = (s.cancelClientBatch lease beginIndex maxSlots request release).2.1.nextIndex) :
      Failed s (.cancelClientBatch lease beginIndex maxSlots request release) s'

theorem failed_exec (inv : StoreInv s) (call : InflightCall) (h : (s.exec call).1 ≠ .ok) :
    Failed s call (s.exec call).2 := by
  have hcalled := exec_cases inv call
  generalize s.exec call = o at hcalled h ⊢
  cases hcalled with
  | unchanged => exact .unchanged call
  | entered => exact absurd rfl h
  | left slot taken why =>
    obtain ⟨server, completion, release, hcall, hrequest⟩ := why h
    rw [hcall]
    exact .refused slot taken hrequest h
  | cleaned batch cleans =>
    rw [batch]
    exact .stopped cleans rfl

/-- **The table in every state of every run.** Its count is that of its records, a key finds its record and no
    other, a client stays within its limit, and a reference is held by one record or was given back once. -/
theorem inflight_store {capacity maxMemoryBytes : Nat} {memory : Bool} {created : InflightStore}
    (h : InflightStore.create capacity maxMemoryBytes memory = .ok created) (calls : List InflightCall) :
    let s := created.run calls
    s.count = s.records.length ∧
      s.records.Pairwise Apart ∧
      (∀ key m, s.get key = .ok m ↔ key.Valid ∧ ∃ r, m = r.metadata ∧
        s.records.filter (fun r => decide (key.SameRequest r.metadata)) = [r]) ∧
      (∀ key release, (s.take key release).1.result = .ok ↔ release = .ok ∧ key.Valid ∧
        ∃ r, s.records.filter (fun r => decide (key.SameRequest r.metadata)) = [r]) ∧
      (∀ lease limit, (∀ call ∈ calls, call.Within lease limit) → s.clientCount lease ≤ limit) ∧
      (∀ t ∈ s.slots, t.occupied = false → t.cancel = none) ∧
      (∀ reference, s.held.count reference + s.cancels.released.count reference =
        if reference < s.cancels.retained then 1 else 0) ∧
      (∀ call i reference, (s.slot i).cancel = some reference → (s.exec call).2.slot i ≠ s.slot i →
        reference ∈ (s.exec call).2.cancels.released) ∧
      ∀ call, (s.exec call).1 ≠ .ok → Failed s call (s.exec call).2 := by
  obtain ⟨hcreated, hempty⟩ := storeInv_create h
  have inv := storeInv_run hcreated calls
  refine ⟨inv.count, inv.apart, fun key m => get_ok_iff inv, fun key release => take_ok_iff inv,
    fun lease limit hcalls => clientCount_run hcreated hcalls ?_, fun t ht hfree => ?_, inv.ledger_count,
    fun call i reference => released_exec inv call, fun call => failed_exec inv call⟩
  · unfold InflightStore.clientCount
    rw [hempty]
    exact Nat.zero_le _
  · rw [inv.free t ht hfree]
    rfl

/-- Two requests of one client, each registered with a reference. -/
theorem inflight_store_two :
    let server : ServerView := ⟨fun _ => .ok .open, .ok false⟩
    let created : InflightStore := ⟨2, 0, List.replicate 2 .empty, ⟨0, []⟩⟩
    let s := created.run [.registerTaskLimited server ⟨⟨1, 0, 1, 1⟩, 1, 1, 0⟩ 2 .ok,
      .registerTaskLimited server ⟨⟨1, 0, 1, 2⟩, 2, 1, 0⟩ 2 .ok]
    s.count = 2 ∧ s.count = s.records.length ∧ s.held.count 1 + s.cancels.released.count 1 = 1 := by
  have created : InflightStore.create 2 67108864 true = .ok ⟨2, 0, List.replicate 2 .empty, ⟨0, []⟩⟩ := rfl
  have keeps := inflight_store created
    [.registerTaskLimited ⟨fun _ => .ok .open, .ok false⟩ ⟨⟨1, 0, 1, 1⟩, 1, 1, 0⟩ 2 .ok,
      .registerTaskLimited ⟨fun _ => .ok .open, .ok false⟩ ⟨⟨1, 0, 1, 2⟩, 2, 1, 0⟩ 2 .ok]
  exact ⟨by decide, keeps.1, keeps.2.2.2.2.2.2.1 1⟩

/-- A call that fails does not always leave the table as it was: a cleanup refused at its second slot, a
    delivery that is refused. -/
theorem inflight_store_keeps_prefix :
    let server : ServerView := ⟨fun _ => .ok .open, .ok false⟩
    let first : TaskMetadata := ⟨⟨1, 0, 1, 1⟩, 1, 1, 0⟩
    let second : TaskMetadata := ⟨⟨1, 0, 1, 2⟩, 2, 1, 0⟩
    let created : InflightStore := ⟨2, 0, List.replicate 2 .empty, ⟨0, []⟩⟩
    let s := created.run [.register server first, .register server second]
    let cleanup := s.exec (.cancelClientBatch ⟨1, 0, 1⟩ 0 2 (fun _ => .ok) fun i => if i = 0 then .ok else .io)
    let consume := s.exec (.consume server (some ⟨first, .ok, 0⟩) .ok .io)
    InflightStore.create 2 67108864 true = .ok created ∧
      cleanup.1 ≠ .ok ∧ cleanup.2 ≠ s ∧ consume.1 ≠ .ok ∧ consume.2 ≠ s := by
  refine ⟨rfl, ?_, ?_, ?_, ?_⟩ <;> decide

end Run

end Vireo.Net
