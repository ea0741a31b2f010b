/-
  File:      Vireo/Base/ConfigText.lean
  Subject:   CONFIGURATION TEXT: its lines, what they mean, and the assignments that they make.
-/
import Mathlib.Data.List.Perm.Basic
import Mathlib.Data.List.ReduceOption
import Mathlib.Data.List.TakeWhile
import Vireo.Base.ConfigFields

namespace Vireo.Base

open Lib Protocol List

/-! ## 1. Lines -/

/-- The lines of a text: each ends in LF or CR LF, the last one perhaps in neither. -/
inductive Lines : Bytes → List Bytes → Prop
  | nil : Lines [] []
  | last {l : Bytes} (pos : l ≠ []) (inside : 0x0A ∉ l) : Lines l [l]
  | lf {l rest : Bytes} {ls : List Bytes} (inside : 0x0A ∉ l) (plain : l.getLast? ≠ some 0x0D) (more : Lines rest ls) :
      Lines (l ++ 0x0A :: rest) (l :: ls)
  | crlf {l rest : Bytes} {ls : List Bytes} (inside : 0x0A ∉ l) (more : Lines rest ls) :
      Lines (l ++ 0x0D :: 0x0A :: rest) (l :: ls)

variable {l : Bytes}

theorem ne_newline (inside : 0x0A ∉ l) : ∀ b ∈ l, (decide (b ≠ 0x0A)) = true := by
  intro b hb
  rw [decide_eq_true_eq]
  exact fun h => inside (h ▸ hb)

theorem takeWhile_line (inside : 0x0A ∉ l) (rest : Bytes) :
    (l ++ 0x0A :: rest).takeWhile (· ≠ 0x0A) = l ∧ (l ++ 0x0A :: rest).dropWhile (· ≠ 0x0A) = 0x0A :: rest := by
  rw [takeWhile_append_of_pos (ne_newline inside), dropWhile_append_of_pos (ne_newline inside)]
  simp

theorem takeWhile_last (inside : 0x0A ∉ l) : l.takeWhile (· ≠ 0x0A) = l ∧ l.dropWhile (· ≠ 0x0A) = [] := by
  have hdrop : (l ++ []).dropWhile (fun x => decide (x ≠ 0x0A)) = [] :=
    dropWhile_append_of_pos (ne_newline inside)
  rw [List.append_nil] at hdrop
  exact ⟨takeWhile_eq_self_iff.mpr (ne_newline inside), hdrop⟩

theorem exists_lines (text : Bytes) : ∃ ls, Lines text ls := by
  -- by the length of what is left
  induction hn : text.length using Nat.strong_induction_on generalizing text with
  | _ n ih =>
    by_cases hnil : text = []
    · exact ⟨[], hnil ▸ .nil⟩
    by_cases hinside : (0x0A : UInt8) ∈ text
    · obtain ⟨l, rest, rfl, hl⟩ := eq_append_cons_of_mem hinside
      obtain ⟨ls, hls⟩ := ih rest.length (by simp at hn; omega) rest rfl
      by_cases hreturn : l.getLast? = some 0x0D
      · have hsplit := dropLast_append_getLast? 0x0D hreturn
        refine ⟨l.dropLast :: ls, ?_⟩
        rw [← hsplit, append_assoc, singleton_append]
        rw [← hsplit] at hl
        rw [hsplit]
        exact .crlf (fun h => hl (mem_append_left _ h)) hls
      · exact ⟨l :: ls, .lf hl hreturn hls⟩
    · exact ⟨[text], .last hnil hinside⟩

theorem dropReturn_of_ne (plain : l.getLast? ≠ some 0x0D) : dropReturn l = l := if_neg plain

theorem dropReturn_return (l : Bytes) : dropReturn (l ++ [0x0D]) = l := by
  simp [dropReturn]

/-! ## 2. What a line means -/

/-- A line that is not too long and has no control bytes but tabs. -/
structure FineLine (l : Bytes) : Prop where
  short : l.length ≤ maxLineSize
  plain : ∀ b ∈ l, isControl b = true → b = 0x09

/-- A line is blank, a comment, or a key with a value. -/
inductive Means (l : Bytes) : Option (ConfigField × Bytes) → Prop
  | blank (blank : ∀ b ∈ l, isHorizontalSpace b = true) : Means l none
  | comment {more : Bytes} (mark : trimHorizontalSpace l = 0x23 :: more) : Means l none
  | assign {key value : Bytes} {field : ConfigField} {k n : String} (front : key.head? ≠ some 0x23)
      (first : 0x3D ∉ key) (split : trimHorizontalSpace l = key ++ 0x3D :: value) (named : Named field k n)
      (spelt : trimHorizontalSpace key = literal k) : Means l (some (field, trimHorizontalSpace value))

/-- A line that is accepted, and what it means. -/
def LineMeans (l : Bytes) (e : Option (ConfigField × Bytes)) : Prop := FineLine l ∧ Means l e

theorem trim_eq_nil : trimHorizontalSpace l = [] ↔ ∀ b ∈ l, isHorizontalSpace b = true := by
  unfold trimHorizontalSpace
  rw [reverse_eq_nil_iff, dropWhile_eq_nil_iff]
  constructor
  · intro h b hb
    by_contra hb'
    have hdrop : l.dropWhile isHorizontalSpace = [] := by
      cases hd : l.dropWhile isHorizontalSpace with
      | nil => rfl
      | cons a more =>
        have hhead := List.head?_dropWhile_not isHorizontalSpace l
        rw [hd] at hhead
        have ha := h a (by simp [hd])
        simp [ha] at hhead
    exact hb' (dropWhile_eq_nil_iff.mp hdrop b hb)
  · intro h b hb
    rw [dropWhile_eq_nil_iff.mpr h] at hb
    cases hb

theorem fieldFromKey_nil : fieldFromKey [] = .none := by decide

/-- **A line is taken apart** when it is fine and means something. -/
theorem lineEntry_iff {e : Option (ConfigField × Bytes)} : lineEntry l = .ok e ↔ LineMeans l e := by
  constructor
  · intro h
    unfold lineEntry at h
    simp only at h
    split at h
    · cases h
    split at h
    · cases h
    rename_i hlong hcontrol
    have fine : FineLine l := by
      refine ⟨Nat.not_lt.mp hlong, fun b hb hc => ?_⟩
      by_contra hne
      exact hcontrol (any_eq_true.mpr ⟨b, hb, by simp [hc, hne]⟩)
    refine ⟨fine, ?_⟩
    split at h
    · rename_i hblank
      cases h
      exact .blank (trim_eq_nil.mp hblank)
    split at h
    · rename_i hpos hmark
      cases h
      obtain ⟨more, hmore⟩ := List.head?_eq_some_iff.mp hmark
      exact .comment hmore
    rename_i hpos hmark
    split at h
    · cases h
    rename_i sep value hsplit
    split at h
    · cases h
    split at h
    · cases h
    rename_i hempty hknown
    cases h
    have hsep : sep = 0x3D := by
      have hhead := List.head?_dropWhile_not (fun b : UInt8 => decide (b ≠ 0x3D)) (trimHorizontalSpace l)
      rw [hsplit] at hhead
      simpa using hhead
    have hkey : ∀ b ∈ (trimHorizontalSpace l).takeWhile (fun b => decide (b ≠ 0x3D)), b ≠ 0x3D := by
      intro b hb
      simpa using all_eq_true.mp all_takeWhile b hb
    have hwhole : trimHorizontalSpace l =
        (trimHorizontalSpace l).takeWhile (fun b => decide (b ≠ 0x3D)) ++ 0x3D :: value := by
      conv_lhs => rw [← takeWhile_append_dropWhile (p := fun b : UInt8 => decide (b ≠ 0x3D))
        (l := trimHorizontalSpace l), hsplit, hsep]
    obtain ⟨k, n, named, spelt⟩ := fieldFromKey_iff.mp ⟨rfl, hknown⟩
    refine .assign ?_ (fun h => hkey 0x3D h rfl) hwhole named spelt
    intro hhead
    apply hmark
    rw [hwhole, List.head?_append, hhead]
    rfl
  · intro ⟨⟨hshort, hplain⟩, h⟩
    have hcontrol : ¬ (l.any fun byte => isControl byte && decide (byte ≠ 0x09)) = true := by
      rw [any_eq_true]
      intro ⟨b, hb, hbad⟩
      rw [Bool.and_eq_true, decide_eq_true_eq] at hbad
      exact hbad.2 (hplain b hb hbad.1)
    unfold lineEntry
    rw [if_neg (Nat.not_lt.mpr hshort), if_neg hcontrol]
    simp only
    cases h with
    | blank blank => rw [if_pos (trim_eq_nil.mpr blank)]
    | comment mark => simp [mark]
    | @assign key value field k n front first split named spelt =>
      obtain ⟨hfield, known⟩ := fieldFromKey_iff.mpr ⟨k, n, named, spelt⟩
      have hne : ∀ b ∈ key, (decide (b ≠ 0x3D)) = true := by
        intro b hb
        rw [decide_eq_true_eq]
        exact fun h => first (h ▸ hb)
      have hhead : ¬ (key ++ 0x3D :: value).head? = some 0x23 := by
        cases key with
        | nil => simp
        | cons b key => simpa using front
      have hempty : ¬ trimHorizontalSpace key = [] := fun h => known (by rw [← hfield, h]; exact fieldFromKey_nil)
      rw [split, if_neg (by simp), if_neg hhead, takeWhile_append_of_pos hne, dropWhile_append_of_pos hne]
      simp [hempty, hfield, known]

/-! ## 3. Runs of assignments -/

/-- Fields are assigned one after the other, none of them twice. -/
inductive Entries : Candidate → List (ConfigField × Bytes) → Candidate → Prop
  | nil {s : Candidate} : Entries s [] s
  | cons {s s' : Candidate} {e : ConfigField × Bytes} {es : List (ConfigField × Bytes)} {c : Config}
      (fresh : s.2 &&& fieldMask e.1 = 0) (assign : assignField s.1 e.1 e.2 = .ok c)
      (more : Entries (c, s.2 ||| fieldMask e.1) es s') : Entries s (e :: es) s'

/-- The fields that were seen. -/
def Seen (mask : UInt32) (g : ConfigField) : Prop := mask &&& fieldMask g ≠ 0

theorem not_seen_zero (g : ConfigField) : ¬ Seen 0 g := by
  unfold Seen
  simp

theorem seen_or {mask : UInt32} {f g : ConfigField} (hf : f ≠ .none) (hg : g ≠ .none) :
    Seen (mask ||| fieldMask f) g ↔ Seen mask g ∨ f = g := by
  have hdist : (mask ||| fieldMask f) &&& fieldMask g = (mask &&& fieldMask g) ||| (fieldMask f &&& fieldMask g) :=
    UInt32.toBitVec_inj.mp BitVec.and_or_distrib_right
  have hbits : fieldMask f &&& fieldMask g = 0 ↔ f ≠ g := by
    cases f <;> cases g <;> first | exact absurd rfl hf | exact absurd rfl hg | decide
  unfold Seen
  rw [hdist, Ne, UInt32.or_eq_zero_iff, hbits, not_and_or, not_not]

theorem Accepts.known {f : ConfigField} {t : Bytes} {x : ConfigValue} (h : Accepts f t x) : f ≠ .none := by
  intro hf
  subst hf
  cases h.2

/-- Assignments that can all be made: no field twice, and acceptable values. -/
structure Distinct (es : List (ConfigField × Bytes)) : Prop where
  once : (es.map Prod.fst).Nodup
  accepts : ∀ e ∈ es, ∃ x, Accepts e.1 e.2 x

variable {s : Candidate} {es : List (ConfigField × Bytes)}

/-- **Assignments succeed** when they are distinct and of fields that were not seen. -/
theorem entries_iff : (∃ s', Entries s es s') ↔ Distinct es ∧ ∀ e ∈ es, ¬ Seen s.2 e.1 := by
  induction es generalizing s with
  | nil => exact ⟨fun _ => ⟨⟨nodup_nil, by simp⟩, by simp⟩, fun _ => ⟨s, .nil⟩⟩
  | cons e es ih =>
    constructor
    · intro ⟨s', h⟩
      cases h with
      | cons fresh assign more =>
        obtain ⟨x, hx, -⟩ := assignField_ok assign
        obtain ⟨⟨once, accepts⟩, hseen⟩ := ih.mp ⟨s', more⟩
        have hnew : ∀ e' ∈ es, ¬ Seen s.2 e'.1 ∧ e.1 ≠ e'.1 := by
          intro e' he'
          obtain ⟨x', hx'⟩ := accepts e' he'
          have hnot := hseen e' he'
          rwa [seen_or hx.known hx'.known, not_or] at hnot
        refine ⟨⟨?_, ?_⟩, ?_⟩
        · rw [map_cons, nodup_cons]
          refine ⟨fun hmem => ?_, once⟩
          obtain ⟨e', he', heq⟩ := mem_map.mp hmem
          exact (hnew e' he').2 heq.symm
        · intro e' he'
          rcases mem_cons.mp he' with rfl | he'
          · exact ⟨x, hx⟩
          · exact accepts e' he'
        · intro e' he'
          rcases mem_cons.mp he' with rfl | he'
          · exact not_not_intro fresh
          · exact (hnew e' he').1
    · intro ⟨⟨once, accepts⟩, hseen⟩
      obtain ⟨x, hx⟩ := accepts e mem_cons_self
      obtain ⟨c, hassign, -⟩ := assignField_accepts s.1 hx
      rw [map_cons, nodup_cons] at once
      obtain ⟨s', more⟩ := (@ih (c, s.2 ||| fieldMask e.1)).mpr
        ⟨⟨once.2, fun e' he' => accepts e' (mem_cons_of_mem _ he')⟩, fun e' he' => by
          obtain ⟨x', hx'⟩ := accepts e' (mem_cons_of_mem _ he')
          rw [seen_or hx.known hx'.known, not_or]
          exact ⟨hseen e' (mem_cons_of_mem _ he'), fun heq => once.1 (heq ▸ mem_map_of_mem he')⟩⟩
      exact ⟨s', .cons (not_not.mp (hseen e mem_cons_self)) hassign more⟩

/-- A configuration with the values of some assignments in their fields, and the rest as it was. -/
structure Replaced (base : Config) (es : List (ConfigField × Bytes)) (c : Config) : Prop where
  values : ∀ e ∈ es, ∃ x, Accepts e.1 e.2 x ∧ c.get e.1 = x
  others : ∀ g, g ∉ es.map Prod.fst → c.get g = base.get g

variable {s' : Candidate}

/-- **What assignments leave**: their values, everything else as before, and a valid configuration. -/
theorem Entries.replaced (h : Entries s es s') : Replaced s.1 es s'.1 ∧ (s.1.Valid → s'.1.Valid) := by
  have hdistinct := (entries_iff.mp ⟨s', h⟩).1
  induction h with
  | nil => exact ⟨⟨fun _ he => absurd he not_mem_nil, fun _ _ => rfl⟩, fun h => h⟩
  | @cons s s' e es c fresh assign more ih =>
    obtain ⟨x, hx, assigned⟩ := assignField_ok assign
    obtain ⟨⟨values, others⟩, valid⟩ := ih (entries_iff.mp ⟨s', more⟩).1
    have once := hdistinct.once
    rw [map_cons, nodup_cons] at once
    refine ⟨⟨?_, ?_⟩, fun hs => valid (validate_assigned hs assigned hx.2.valid)⟩
    · intro e' he'
      rcases mem_cons.mp he' with rfl | he'
      · exact ⟨x, hx, (others e'.1 once.1).trans assigned.value⟩
      · exact values e' he'
    · intro g hg
      rw [map_cons, mem_cons, not_or] at hg
      exact (others g hg.2).trans (assigned.others g hg.1)

variable {es' : List (ConfigField × Bytes)}

theorem Replaced.perm {base c c' : Config} (h : Replaced base es c)
    (h' : Replaced base es' c') (perm : es.Perm es') (g : ConfigField) : c.get g = c'.get g := by
  by_cases hg : g ∈ es.map Prod.fst
  · obtain ⟨e, he, rfl⟩ := mem_map.mp hg
    obtain ⟨x, hx, hget⟩ := h.values e he
    obtain ⟨x', hx', hget'⟩ := h'.values e (perm.mem_iff.mp he)
    rw [hget, hget', hx.unique hx']
  · rw [h.others g hg, h'.others g (fun hmem => hg ((perm.map Prod.fst).mem_iff.mpr hmem))]

theorem Distinct.perm (h : Distinct es) (perm : es.Perm es') : Distinct es' :=
  ⟨(perm.map Prod.fst).nodup_iff.mp h.once, fun e he => h.accepts e (perm.mem_iff.mpr he)⟩

theorem Distinct.length_le (h : Distinct es) : es.length ≤ maxEnvironmentItems := by
  have hknown : ∀ g ∈ es.map Prod.fst, g ∈ [ConfigField.listenAddress, .listenPort, .maxConnections, .workerCount,
      .idleTimeout, .logToStderr, .logMaxFileSize, .dataDir, .logDir] := by
    intro g hg
    obtain ⟨e, he, rfl⟩ := mem_map.mp hg
    obtain ⟨x, hx⟩ := h.accepts e he
    have hne := hx.known
    generalize e.1 = g at hne
    cases g <;> first | exact absurd rfl hne | decide
  have hle := (subperm_of_subset h.once hknown).length_le
  rwa [length_map] at hle

/-! ## 4. The two ways in -/

theorem entries_append : Entries s (es ++ es') s' ↔ ∃ t, Entries s es t ∧ Entries t es' s' := by
  constructor
  · intro h
    induction es generalizing s with
    | nil => exact ⟨s, .nil, h⟩
    | cons e es ih =>
      cases h with
      | cons fresh assign more =>
        obtain ⟨t, ht, ht'⟩ := ih more
        exact ⟨t, .cons fresh assign ht, ht'⟩
  · intro ⟨t, ht, ht'⟩
    induction ht with
    | nil => exact ht'
    | cons fresh assign _ ih => exact .cons fresh assign (ih ht')

theorem applyEntry_iff {duplicate : ConfigIssue} {e : ConfigField × Bytes} :
    applyEntry duplicate s e.1 e.2 = .ok s' ↔ Entries s [e] s' := by
  unfold applyEntry
  constructor
  · intro h
    split at h
    · cases h
    split at h
    · cases h
    rename_i hseen _ c hassign
    cases h
    exact .cons (not_not.mp hseen) hassign .nil
  · intro h
    cases h with
    | cons fresh assign more =>
      cases more
      rw [if_neg (not_not_intro fresh), assign]

variable {n : Nat}

theorem parseLine_ok : parseLine s l n = .ok s' ↔ ∃ e, LineMeans l e ∧ Entries s e.toList s' := by
  unfold parseLine
  cases hentry : lineEntry l with
  | error e =>
    have hnone : ∀ e, ¬ LineMeans l e := by
      intro e he
      rw [← lineEntry_iff, hentry] at he
      cases he
    simp [hnone]
  | ok entry =>
    have hmeans : ∀ e, LineMeans l e ↔ e = entry := by
      intro e
      rw [← lineEntry_iff, hentry, Except.ok.injEq, eq_comm]
    simp only [hmeans, exists_eq_left]
    cases entry with
    | none =>
      constructor
      · intro h
        cases h
        exact .nil
      · intro h
        cases h
        rfl
    | some entry =>
      rw [Option.toList_some, ← @applyEntry_iff _ _ .duplicateKey]
      cases happly : applyEntry .duplicateKey s entry.1 entry.2 <;> simp only [happly] <;> simp

variable {ls : List Bytes}

theorem entries_lines : (∃ t, (∃ e, LineMeans l e ∧ Entries s e.toList t) ∧
      ∃ es, List.Forall₂ LineMeans ls es ∧ Entries t es.reduceOption s') ↔
      ∃ es, List.Forall₂ LineMeans (l :: ls) es ∧ Entries s es.reduceOption s' := by
  have hcons : ∀ (e : Option (ConfigField × Bytes)) es, (e :: es).reduceOption = e.toList ++ es.reduceOption := by
    intro e es
    cases e <;> rfl
  constructor
  · intro ⟨t, ⟨e, hmeans, he⟩, es, hall, hes⟩
    exact ⟨e :: es, .cons hmeans hall, hcons e es ▸ entries_append.mpr ⟨t, he, hes⟩⟩
  · intro ⟨es, hall, hes⟩
    cases hall with
    | cons hmeans hall =>
      rw [hcons] at hes
      obtain ⟨t, he, hes⟩ := entries_append.mp hes
      exact ⟨t, ⟨_, hmeans, he⟩, _, hall, hes⟩

theorem parseLines_nil (k n : Nat) (s : Candidate) : parseLines k [] n s = .ok s := by
  cases k <;> simp [parseLines]

theorem parseLines_line {k : Nat} {line rest : Bytes} (inside : 0x0A ∉ l) (hline : dropReturn l = line) :
    parseLines (k + 1) (l ++ 0x0A :: rest) n s = .ok s' ↔
      ∃ t, parseLine s line n = .ok t ∧ parseLines k rest (n + 1) t = .ok s' := by
  obtain ⟨htake, hdrop⟩ := takeWhile_line inside rest
  rw [parseLines, if_neg (by simp)]
  simp only [htake, hdrop]
  rw [if_pos (by simp), hline]
  cases parseLine s line n <;> simp

theorem parseLines_last {k : Nat} (pos : l ≠ []) (inside : 0x0A ∉ l) :
    parseLines (k + 1) l n s = .ok s' ↔ parseLine s l n = .ok s' := by
  obtain ⟨htake, hdrop⟩ := takeWhile_last inside
  rw [parseLines, if_neg pos]
  simp only [htake, hdrop]
  rw [if_neg (by simp)]
  cases parseLine s l n <;> simp [parseLines_nil]

theorem parseLines_ok {text : Bytes} (h : Lines text ls) {k : Nat} (hk : text.length ≤ k) :
    parseLines k text n s = .ok s' ↔ ∃ es, List.Forall₂ LineMeans ls es ∧ Entries s es.reduceOption s' := by
  induction h generalizing k n s with
  | nil =>
    rw [parseLines_nil]
    constructor
    · intro h
      cases h
      exact ⟨[], .nil, .nil⟩
    · intro ⟨es, hall, hes⟩
      cases hall
      cases hes
      rfl
  | @last l pos inside =>
    match k with
    | 0 => exact absurd (eq_nil_of_length_eq_zero (Nat.le_zero.mp hk)) pos
    | k + 1 =>
      rw [parseLines_last pos inside, parseLine_ok, ← entries_lines]
      constructor
      · intro ⟨e, hmeans, he⟩
        exact ⟨s', ⟨e, hmeans, he⟩, [], .nil, .nil⟩
      · intro ⟨t, ⟨e, hmeans, he⟩, es, hall, hes⟩
        cases hall
        cases hes
        exact ⟨e, hmeans, he⟩
  | @lf l rest ls inside plain more ih =>
    rw [length_append, length_cons] at hk
    match k with
    | 0 => omega
    | k + 1 =>
      rw [parseLines_line inside (dropReturn_of_ne plain), ← entries_lines]
      simp only [parseLine_ok, ih (k := k) (n := n + 1) (by omega)]
  | @crlf l rest ls inside more ih =>
    rw [length_append, length_cons, length_cons] at hk
    have hwith : (0x0A : UInt8) ∉ l ++ [0x0D] := by simp [inside]
    have htext : l ++ 0x0D :: 0x0A :: rest = (l ++ [0x0D]) ++ 0x0A :: rest := by simp
    match k with
    | 0 => omega
    | k + 1 =>
      rw [htext, parseLines_line hwith (dropReturn_return l), ← entries_lines]
      simp only [parseLine_ok, ih (k := k) (n := n + 1) (by omega)]

/-- An entry of the environment is an assignment. -/
def Names (entry : EnvironmentEntry) (e : ConfigField × Bytes) : Prop :=
  ∃ k n value, entry = ⟨some (literal n), some value⟩ ∧ Named e.1 k n ∧ trimHorizontalSpace value = e.2

theorem applyEnvironmentEntry_ok {entry : EnvironmentEntry} :
    applyEnvironmentEntry s entry n = .ok s' ↔ ∃ e, Names entry e ∧ Entries s [e] s' := by
  obtain ⟨name, value⟩ := entry
  unfold applyEnvironmentEntry
  constructor
  · intro h
    simp only at h
    split at h
    · rename_i name value
      split at h
      · cases h
      split at h
      · cases h
      rename_i hknown _ t happly
      cases h
      obtain ⟨k, n, named, rfl⟩ := fieldFromEnvironmentName_iff.mp ⟨rfl, hknown⟩
      exact ⟨(_, _), ⟨k, n, value, rfl, named, rfl⟩, applyEntry_iff.mp happly⟩
    · cases h
  · intro ⟨⟨field, text⟩, ⟨k, n, value, hentry, named, htext⟩, h⟩
    simp only at named htext
    cases hentry
    subst htext
    obtain ⟨hfield, hknown⟩ := fieldFromEnvironmentName_iff.mpr ⟨k, n, named, rfl⟩
    simp only [hfield]
    rw [if_neg hknown, applyEntry_iff.mpr h]

theorem applyEntries_ok {entries : List EnvironmentEntry} :
    applyEntries entries n s = .ok s' ↔ ∃ es, List.Forall₂ Names entries es ∧ Entries s es s' := by
  induction entries generalizing n s with
  | nil =>
    constructor
    · intro h
      cases h
      exact ⟨[], .nil, .nil⟩
    · intro ⟨es, hall, hes⟩
      cases hall
      cases hes
      rfl
  | cons entry entries ih =>
    rw [applyEntries]
    constructor
    · intro h
      split at h
      · cases h
      rename_i t hentry
      obtain ⟨e, hnames, he⟩ := applyEnvironmentEntry_ok.mp hentry
      obtain ⟨es, hall, hes⟩ := ih.mp h
      exact ⟨e :: es, .cons hnames hall, (@entries_append _ [e] _ _).mpr ⟨t, he, hes⟩⟩
    · intro ⟨es, hall, hes⟩
      cases hall with
      | @cons _ e _ es hnames hall =>
        obtain ⟨t, he, hes⟩ := (@entries_append _ [e] _ _).mp hes
        rw [applyEnvironmentEntry_ok.mpr ⟨e, hnames, he⟩]
        exact ih.mpr ⟨es, hall, hes⟩

end Vireo.Base
