import Mathlib.Data.List.Infix
import Mathlib.Data.List.SplitBy

/-! # Reports at the ends of runs

A loop carries an accumulator over a list. It writes a report when the key of
the elements changes, and once more at the end. What it has written then is a
report after each maximal run of equal keys, on all that was read so far. -/
namespace VcdTools.Lib.RunReports

variable {α κ σ β : Type*}

/-- The state of the loop: the key of the element before, the accumulator, and
what is written. -/
structure State (κ σ β : Type*) where
  current : Option κ
  acc : σ
  written : List β

/-- The report of the run that the state is in. -/
def State.finish (report : κ → σ → β) (s : State κ σ β) : List β :=
  match s.current with
  | some k => s.written ++ [report k s.acc]
  | none => s.written

theorem finish_some (report : κ → σ → β) (k : κ) (acc : σ) (written : List β) :
    State.finish report ⟨some k, acc, written⟩ = written ++ [report k acc] := rfl

variable [DecidableEq κ]

/-- The maximal runs of equal keys. -/
def runs (key : α → κ) (l : List α) : List (List α) := l.splitBy fun a b => key a == key b

/-- What is read when a run ends, for each of the runs. -/
def readAfter (key : α → κ) (l : List α) : List (List α) :=
  (runs key l).inits.tail.map List.flatten

/-- A round of the loop. -/
def State.next (key : α → κ) (step : σ → α → σ) (report : κ → σ → β) (s : State κ σ β) (a : α) :
    State κ σ β where
  current := some (key a)
  acc := step s.acc a
  written := if s.current = some (key a) then s.written else s.finish report

variable {key : α → κ} {step : σ → α → σ} {report : κ → σ → β}

/-! ## The runs -/

theorem flatten_runs (key : α → κ) (l : List α) : (runs key l).flatten = l :=
  List.flatten_splitBy _ l

/-- A cut into non-empty pieces of one key each, where neighbours have
different keys. -/
structure Cut (key : α → κ) (rs : List (List α)) : Prop where
  filled : [] ∉ rs
  same : ∀ r ∈ rs, ∀ a ∈ r, ∀ b ∈ r, key a = key b
  differ : rs.IsChain fun r r' => ∀ a ∈ r, ∀ b ∈ r', key a ≠ key b

theorem isChain_iff_same {r : List α} :
    (r.IsChain fun a b => (key a == key b) = true) ↔ ∀ a ∈ r, ∀ b ∈ r, key a = key b := by
  have : IsTrans α fun a b => key a = key b := ⟨fun _ _ _ => Eq.trans⟩
  have : Std.Symm fun a b : α => key a = key b := ⟨fun _ _ => Eq.symm⟩
  simp only [beq_iff_eq]
  rw [List.isChain_iff_pairwise]
  constructor
  · intro h a ha b hb
    exact List.Pairwise.forall_of_forall (R := fun a b => key a = key b) (fun _ _ => rfl) h ha hb
  · exact List.pairwise_of_forall_mem_list

/-- **The runs are the only cut.** -/
theorem runs_eq_iff {l : List α} {rs : List (List α)} :
    runs key l = rs ↔ l = rs.flatten ∧ Cut key rs := by
  rw [runs, List.splitBy_eq_iff]
  refine and_congr_right fun _ => ⟨fun h => ?_, fun h => ?_⟩
  · obtain ⟨hfilled, hsame, hdiffer⟩ := h
    have hsame : ∀ r ∈ rs, ∀ a ∈ r, ∀ b ∈ r, key a = key b :=
      fun r hr => isChain_iff_same.mp (hsame r hr)
    refine ⟨hfilled, hsame, hdiffer.imp_of_mem_imp fun r r' hr hr' h a ha b hb heq => ?_⟩
    obtain ⟨hne, hne', h⟩ := h
    have hends : key (r.getLast hne) = key (r'.head hne') :=
      ((hsame r hr _ (List.getLast_mem hne) a ha).trans heq).trans
        (hsame r' hr' b hb _ (List.head_mem hne'))
    exact beq_eq_false_iff_ne.mp h hends
  · refine ⟨h.filled, fun r hr => isChain_iff_same.mpr (h.same r hr),
      h.differ.imp_of_mem_imp fun r r' hr hr' h' => ?_⟩
    have hne : ∀ r ∈ rs, r ≠ [] := fun r hr heq => h.filled (heq ▸ hr)
    exact ⟨hne r hr, hne r' hr', beq_eq_false_iff_ne.mpr
      (h' _ (List.getLast_mem _) _ (List.head_mem _))⟩

theorem cut_runs (key : α → κ) (l : List α) : Cut key (runs key l) :=
  (runs_eq_iff.mp rfl).2

/-! ## One more element -/

/-- The runs of a list that is not empty end with the run of its last element. -/
theorem runs_concat (key : α → κ) (before : List α) (b : α) :
    ∃ rs r, runs key (before ++ [b]) = rs ++ [r ++ [b]] := by
  have hflatten := flatten_runs key (before ++ [b])
  have hcut := cut_runs key (before ++ [b])
  rcases List.eq_nil_or_concat (runs key (before ++ [b])) with hnil | ⟨rs, last, hruns⟩
  · rw [hnil] at hflatten
    simp at hflatten
  · rw [List.concat_eq_append] at hruns
    rw [hruns] at hflatten hcut
    rcases List.eq_nil_or_concat last with rfl | ⟨r, c, rfl⟩
    · exact absurd (List.mem_append_right _ List.mem_cons_self) hcut.filled
    · rw [List.concat_eq_append] at *
      rw [List.flatten_append, List.flatten_singleton, ← List.append_assoc] at hflatten
      have hlast : c = b := (List.append_inj' hflatten rfl).2 |> List.cons.inj |>.1
      exact ⟨rs, r, by rw [hruns, hlast]⟩

/-- An element with the key of the last run goes on with it. -/
theorem runs_append_same {l : List α} {rs : List (List α)} {r : List α} {a b : α}
    (h : runs key l = rs ++ [r ++ [b]]) (hkey : key b = key a) :
    runs key (l ++ [a]) = rs ++ [r ++ [b] ++ [a]] := by
  obtain ⟨hflatten, hcut⟩ := runs_eq_iff.mp h
  have hrest : Cut key rs :=
    ⟨fun hnil => hcut.filled (List.mem_append_left _ hnil),
      fun r' hr' => hcut.same r' (List.mem_append_left _ hr'),
      (List.isChain_append.mp hcut.differ).1⟩
  have hlast : ∀ c ∈ r ++ [b] ++ [a], key c = key a := by
    intro c hc
    rcases List.mem_append.mp hc with hc | hc
    · rw [← hkey]
      exact hcut.same _ (List.mem_append_right _ List.mem_cons_self) c hc b (by simp)
    · rw [List.mem_singleton.mp hc]
  refine runs_eq_iff.mpr ⟨by simp [hflatten], ?_, ?_, ?_⟩
  · simpa using hrest.filled
  · intro r' hr' c hc d hd
    rcases List.mem_append.mp hr' with hr' | hr'
    · exact hrest.same r' hr' c hc d hd
    · rw [List.mem_singleton.mp hr'] at hc hd
      exact (hlast c hc).trans (hlast d hd).symm
  · refine List.isChain_append.mpr ⟨hrest.differ, .singleton _, ?_⟩
    intro r' hr' last hhead c hc d hd
    cases hhead
    have hdiffer := (List.isChain_append.mp hcut.differ).2.2 r' hr' _ rfl c hc b (by simp)
    rw [hlast d hd, ← hkey]
    exact hdiffer

/-- An element with another key starts a run. -/
theorem runs_append_new {before : List α} {a b : α} (hkey : key b ≠ key a) :
    runs key (before ++ [b] ++ [a]) = runs key (before ++ [b]) ++ [[a]] := by
  refine List.splitBy_append fun c hc d hd => ?_
  cases hd
  rw [List.getLast?_concat] at hc
  cases hc
  exact beq_eq_false_iff_ne.mpr hkey

/-- Runs that another one follows stay when more is read. -/
theorem dropLast_runs_prefix (key : α → κ) (l more : List α) :
    (runs key l).dropLast <+: (runs key (l ++ more)).dropLast := by
  induction more using List.reverseRecOn with
  | nil => rw [List.append_nil]
  | append_singleton more a ih =>
    refine ih.trans ?_
    rw [← List.append_assoc]
    rcases List.eq_nil_or_concat (l ++ more) with hnil | ⟨before, b, hread⟩
    · rw [hnil]
      exact List.nil_prefix
    · rw [List.concat_eq_append] at hread
      obtain ⟨rs, r, hruns⟩ := runs_concat key before b
      rw [hread]
      by_cases hkey : key b = key a
      · rw [runs_append_same hruns hkey, hruns, List.dropLast_concat, List.dropLast_concat]
      · rw [runs_append_new hkey, List.dropLast_concat]
        exact List.dropLast_prefix _

/-! ## The loop -/

/-- Inside a run nothing is written. -/
theorem foldl_same {k : κ} {r : List α} (h : ∀ a ∈ r, key a = k) {s : State κ σ β}
    (hs : s.current = some k) :
    r.foldl (State.next key step report) s = ⟨some k, r.foldl step s.acc, s.written⟩ := by
  induction r generalizing s with
  | nil =>
    obtain ⟨current, acc, written⟩ := s
    cases hs
    rfl
  | cons a r ih =>
    have ha : key a = k := h a List.mem_cons_self
    have hnext : s.next key step report a = ⟨some k, step s.acc a, s.written⟩ := by
      rw [State.next, ha, if_pos hs]
    rw [List.foldl_cons, hnext, ih fun b hb => h b (List.mem_cons_of_mem _ hb)]
    · rfl
    · rfl

/-- **One run**: the report of the run before is written when it starts. -/
theorem foldl_run {k : κ} {r : List α} (hne : r ≠ []) (h : ∀ a ∈ r, key a = k) {s : State κ σ β}
    (hs : s.current ≠ some k) :
    r.foldl (State.next key step report) s = ⟨some k, r.foldl step s.acc, s.finish report⟩ := by
  cases r with
  | nil => exact absurd rfl hne
  | cons a r =>
    have ha : key a = k := h a List.mem_cons_self
    have hnext : s.next key step report a = ⟨some k, step s.acc a, s.finish report⟩ := by
      rw [State.next, ha, if_neg hs]
    rw [List.foldl_cons, hnext, foldl_same fun b hb => h b (List.mem_cons_of_mem _ hb)]
    · rfl
    · rfl

/-- **The loop reports after each run.** `f` is the report on what is read, and
`seen` what was read before. -/
theorem finish_foldl {s₀ : σ} {f : List α → β}
    (hf : ∀ l a, f (l ++ [a]) = report (key a) ((l ++ [a]).foldl step s₀))
    {rs : List (List α)} (hrs : Cut key rs) (seen : List α) {s : State κ σ β}
    (hacc : s.acc = seen.foldl step s₀)
    (hstart : ∀ r ∈ rs.head?, ∀ a ∈ r, s.current ≠ some (key a)) :
    (rs.flatten.foldl (State.next key step report) s).finish report =
      s.finish report ++ rs.inits.tail.map fun p => f (seen ++ p.flatten) := by
  induction rs generalizing seen s with
  | nil => simp
  | cons r rs ih =>
    have hne : r ≠ [] := fun heq => hrs.filled (heq ▸ List.mem_cons_self)
    obtain ⟨before, a, rfl⟩ : ∃ before a, r = before ++ [a] :=
      ⟨r.dropLast, r.getLast hne, (List.dropLast_append_getLast hne).symm⟩
    have hlast : a ∈ before ++ [a] := List.mem_append_right _ List.mem_cons_self
    have hrest : Cut key rs := ⟨fun h => hrs.filled (List.mem_cons_of_mem _ h),
      fun r hr => hrs.same r (List.mem_cons_of_mem _ hr), hrs.differ.tail⟩
    have hread : (before ++ [a]).foldl step s.acc = (seen ++ (before ++ [a])).foldl step s₀ := by
      rw [hacc, ← List.foldl_append]
    have hreport : report (key a) ((before ++ [a]).foldl step s.acc) = f (seen ++ (before ++ [a])) := by
      rw [hread, ← List.append_assoc, hf]
    have hhead : ∀ r ∈ rs.head?, ∀ b ∈ r, some (key a) ≠ some (key b) := by
      intro r hr b hb heq
      cases rs with
      | nil => cases hr
      | cons r' rs =>
        cases hr
        exact (List.isChain_cons_cons.mp hrs.differ).1 a hlast b hb (Option.some.inj heq)
    have hinits : rs.inits = [] :: rs.inits.tail := by
      cases rs <;> rfl
    rw [List.flatten_cons, List.foldl_append, foldl_run hne
      (fun b hb => hrs.same _ List.mem_cons_self b hb a hlast) (hstart _ rfl a hlast),
      ih hrest (seen ++ (before ++ [a])) hread hhead, finish_some,
      hreport, List.inits_cons, List.tail_cons, List.map_map, List.append_assoc, hinits]
    simp [Function.comp_def]

/-- The loop from its start. -/
theorem finish_start {s₀ : σ} {f : List α → β}
    (hf : ∀ l a, f (l ++ [a]) = report (key a) ((l ++ [a]).foldl step s₀)) (l : List α) :
    (l.foldl (State.next key step report) ⟨none, s₀, []⟩).finish report =
      (readAfter key l).map f := by
  have hloop := finish_foldl hf (cut_runs key l) [] (s := ⟨none, s₀, []⟩) rfl
    fun _ _ _ _ h => (by cases h)
  rw [flatten_runs] at hloop
  rw [hloop, readAfter, List.map_map]
  rfl

end VcdTools.Lib.RunReports
