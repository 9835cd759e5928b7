import PascalCheck.Diagnostic.Sink

namespace PascalCheck.Sink
set_option autoImplicit true

def addAll (s : Sink) (ds : List Diagnostic) : Sink := ds.foldl add s

@[simp] theorem addAll_nil (s : Sink) : s.addAll [] = s := rfl

@[simp] theorem addAll_cons (s : Sink) (d : Diagnostic) (ds : List Diagnostic) :
    s.addAll (d :: ds) = (s.add d).addAll ds := rfl

theorem addAll_append (s : Sink) (ds es : List Diagnostic) :
    s.addAll (ds ++ es) = (s.addAll ds).addAll es :=
  List.foldl_append

@[simp] theorem limit_addAll (s : Sink) (ds : List Diagnostic) :
    (s.addAll ds).limit = s.limit := by
  induction ds generalizing s with
  | nil => rfl
  | cons d ds ih => rw [addAll_cons, ih, limit_add]

theorem isFull_eq_false_iff {s : Sink} :
    s.isFull = false ↔ s.limit ≤ 0 ∨ (s.list.length : Int) < s.limit := by
  simp only [isFull, Bool.and_eq_false_iff, decide_eq_false_iff_not, Int.not_lt, Int.not_le]

/-- A diagnostic is recorded exactly if it is new and the limit leaves room for it. -/
theorem accepts_iff {s : Sink} :
    s.accepts d = true ↔ d ∉ s.list ∧ (s.limit ≤ 0 ∨ (s.list.length : Int) < s.limit) := by
  rw [accepts_eq, Bool.and_eq_true, Bool.not_eq_true', Bool.not_eq_true', isFull_eq_false_iff,
    ← Bool.not_eq_true, List.contains_iff_mem]

theorem isFull_of_unlimited {s : Sink} (h : s.limit ≤ 0) : s.isFull = false :=
  isFull_eq_false_iff.2 (.inl h)

theorem accepts_of_unlimited {s : Sink} (h : s.limit ≤ 0) :
    s.accepts d = true ↔ d ∉ s.list := by
  rw [accepts_iff, and_iff_left (.inl h)]

theorem mem_add {s : Sink} (h : s.limit ≤ 0) : e ∈ (s.add d).list ↔ e ∈ s.list ∨ e = d := by
  by_cases hd : d ∈ s.list
  · have ha : s.accepts d = false := by
      rw [← Bool.not_eq_true, accepts_of_unlimited h]
      exact not_not_intro hd
    simp only [list_add_eq_ite, ha, Bool.false_eq_true, if_false]
    exact ⟨.inl, fun he => he.elim id fun hq => hq ▸ hd⟩
  · have ha : s.accepts d = true := (accepts_of_unlimited h).2 hd
    simp [list_add_eq_ite, ha]

/-- A record without a limit holds whatever was added. -/
theorem mem_addAll {s : Sink} (h : s.limit ≤ 0) {ds : List Diagnostic} :
    e ∈ (s.addAll ds).list ↔ e ∈ s.list ∨ e ∈ ds := by
  induction ds generalizing s with
  | nil => simp
  | cons d ds ih =>
    have hl : (s.add d).limit ≤ 0 := by
      rw [limit_add]
      exact h
    rw [addAll_cons, ih hl, mem_add h, List.mem_cons, or_assoc]

theorem list_add {s : Sink} (h : s.limit ≤ 0) (d : Diagnostic) :
    (s.add d).list = if d ∈ s.list then s.list else s.list ++ [d] := by
  rw [list_add_eq_ite]
  split
  · rename_i ha
    rw [if_neg ((accepts_of_unlimited h).1 ha)]
  · rename_i ha
    rw [accepts_of_unlimited h, Decidable.not_not] at ha
    rw [if_pos ha]

theorem prefix_add (s : Sink) (d : Diagnostic) : s.list <+: (s.add d).list := by
  rw [list_add_eq_ite]
  split
  · exact List.prefix_append _ _
  · exact List.prefix_rfl

/-- A record only grows at its end, whatever its limit. -/
theorem prefix_addAll (s : Sink) (ds : List Diagnostic) : s.list <+: (s.addAll ds).list := by
  induction ds generalizing s with
  | nil => exact List.prefix_rfl
  | cons d ds ih => exact (s.prefix_add d).trans (ih (s.add d))

theorem nodup_add {s : Sink} (hs : s.list.Nodup) (d : Diagnostic) : (s.add d).list.Nodup := by
  rw [list_add_eq_ite]
  split
  · rename_i ha
    have hd : d ∉ s.list := (accepts_iff.1 ha).1
    exact List.nodup_append.2 ⟨hs, by simp, by grind⟩
  · exact hs

theorem nodup_addAll {s : Sink} (hs : s.list.Nodup) (ds : List Diagnostic) :
    (s.addAll ds).list.Nodup := by
  induction ds generalizing s with
  | nil => exact hs
  | cons d ds ih => exact ih (nodup_add hs d)

/-- Leaving diagnostics out of a record without a limit is leaving them out of what is added. -/
theorem list_addAll_filter {s t : Sink} (hs : s.limit ≤ 0) (ht : t.limit ≤ 0)
    {p : Diagnostic → Bool} (h : s.list = t.list.filter p) (ds : List Diagnostic) :
    (s.addAll (ds.filter p)).list = (t.addAll ds).list.filter p := by
  induction ds generalizing s t with
  | nil => exact h
  | cons d ds ih =>
    have ht' : (t.add d).limit ≤ 0 := by
      rw [limit_add]
      exact ht
    by_cases hp : p d = true
    · have hs' : (s.add d).limit ≤ 0 := by
        rw [limit_add]
        exact hs
      have hadd : (s.add d).list = (t.add d).list.filter p := by
        have hmem : d ∈ t.list.filter p ↔ d ∈ t.list := by simp [hp]
        rw [list_add hs, list_add ht, h]
        simp only [hmem]
        split
        · rfl
        · simp [hp]
      rw [List.filter_cons_of_pos hp, addAll_cons, addAll_cons]
      exact ih hs' ht' hadd
    · have hadd : s.list = (t.add d).list.filter p := by
        rw [list_add ht, h]
        split
        · rfl
        · simp [hp]
      rw [List.filter_cons_of_neg hp, addAll_cons]
      exact ih hs ht' hadd

/-- The first record holds the front of the second, as far as its limit allows. -/
structure Truncates (s t : Sink) : Prop where
  unlimited : t.limit ≤ 0
  list_eq : s.list = if 0 < s.limit then t.list.take s.limit.toNat else t.list

theorem truncates_empty (n : Int) : Truncates (empty.setLimit n) empty := by
  refine ⟨Int.le_refl 0, ?_⟩
  split
  · exact List.take_nil.symm
  · rfl

theorem Truncates.add_unlimited (h : Truncates s t) (hs : s.limit ≤ 0) (d : Diagnostic) :
    Truncates (s.add d) (t.add d) := by
  have hl : s.list = t.list := by
    rw [h.list_eq, if_neg (by omega)]
  have ha : s.accepts d = t.accepts d := by
    simp only [accepts_eq, hl, isFull_of_unlimited hs, isFull_of_unlimited h.unlimited]
  refine ⟨by simpa using h.unlimited, ?_⟩
  rw [limit_add, if_neg (by omega), list_add_eq_ite, list_add_eq_ite, ha, hl]

theorem Truncates.add_limited (h : Truncates s t) (hs : 0 < s.limit) (d : Diagnostic) :
    Truncates (s.add d) (t.add d) := by
  refine ⟨by simpa using h.unlimited, ?_⟩
  have hl : s.list = t.list.take s.limit.toNat := by
    rw [h.list_eq, if_pos hs]
  rw [limit_add, if_pos hs]
  by_cases hfull : s.limit ≤ t.list.length
  · -- The limit is reached: nothing new is kept, and the front of the second record is settled.
    have hf : s.isFull = true := by
      simp only [isFull, hl, List.length_take, Bool.and_eq_true, decide_eq_true_eq]
      omega
    have hk : s.add d = s := by simp [add, accepts, hf]
    rw [hk, hl, list_add_eq_ite]
    split
    · exact (List.take_append_of_le_length (by omega)).symm
    · rfl
  · have ht : s.list = t.list := by
      rw [hl]
      exact List.take_of_length_le (by omega)
    have hf : s.isFull = false := by
      simp only [isFull, ht, Bool.and_eq_false_iff, decide_eq_false_iff_not]
      exact .inr hfull
    have ha : s.accepts d = t.accepts d := by
      simp only [accepts_eq, ht, hf, isFull_of_unlimited h.unlimited]
    rw [list_add_eq_ite, list_add_eq_ite, ha]
    split
    · rw [ht]
      exact (List.take_of_length_le (by simp; omega)).symm
    · exact hl

theorem Truncates.add (h : Truncates s t) (d : Diagnostic) : Truncates (s.add d) (t.add d) := by
  by_cases hs : 0 < s.limit
  · exact h.add_limited hs d
  · exact h.add_unlimited (by omega) d

theorem Truncates.addAll (h : Truncates s t) (ds : List Diagnostic) :
    Truncates (s.addAll ds) (t.addAll ds) := by
  induction ds generalizing s t with
  | nil => exact h
  | cons d ds ih => exact ih (h.add d)

end PascalCheck.Sink
