import PascalCheck.Numeral.Integer
import PascalCheck.Numeral.Real

namespace PascalCheck.Numeral
set_option autoImplicit true

theorem isDigit_of_digitOf? (h : digitOf? 10 c = some d) : c.isDigit = true := by
  obtain ⟨hd, hlt⟩ := Option.filter_eq_some_iff.1 h
  have hlt : d < 10 := by simpa using hlt
  unfold digit? at hd
  split at hd
  · assumption
  · split at hd
    · cases hd
      omega
    · split at hd
      · cases hd
        omega
      · cases hd

theorem digitOf?_of_isDigit {c : Char} (h : c.isDigit = true) : ∃ d, digitOf? 10 c = some d := by
  have hlt : c.toNat - 48 < 10 := by
    obtain ⟨-, hle⟩ : '0'.toNat ≤ c.toNat ∧ c.toNat ≤ '9'.toNat := by
      simpa [Char.isDigit, Char.le_def, UInt32.le_iff_toNat_le] using h
    have h9 : '9'.toNat = 57 := rfl
    omega
  exact ⟨c.toNat - 48, by simpa [digitOf?, digit?, h, Option.filter] using hlt⟩

theorem isDigit_of_accumulate (h : accumulate 10 false n cs = .ok m) :
    ∀ c ∈ cs, c.isDigit = true := by
  induction cs generalizing n with
  | nil => simp
  | cons c cs ih =>
    simp only [accumulate, Bool.false_and, Bool.false_eq_true, if_false] at h
    split at h
    · cases h
    · rename_i d hd
      split at h
      · intro c' hc'
        rcases List.mem_cons.1 hc' with rfl | hc'
        · exact isDigit_of_digitOf? hd
        · exact ih h c' hc'
      · cases h

theorem accumulate_ne_malformed (h : ∀ c ∈ cs, c.isDigit = true) :
    accumulate 10 false n cs ≠ .error .malformed := by
  induction cs generalizing n with
  | nil => simp [accumulate]
  | cons c cs ih =>
    obtain ⟨d, hd⟩ := digitOf?_of_isDigit (h c List.mem_cons_self)
    simp only [accumulate, Bool.false_and, Bool.false_eq_true, if_false, hd]
    split
    · exact ih fun c' hc' => h c' (List.mem_cons_of_mem c hc')
    · simp

theorem isDigit_ne {c : Char} (h : c.isDigit = true) (hne : c'.isDigit = false) : c ≠ c' := by
  rintro rfl
  rw [h] at hne
  cases hne

theorem readMantissa_of_accumulate {any : Bool} (h : accumulate 10 false n cs = .ok m) :
    readMantissa 10 ⟨n, 0, false, any⟩ cs = (⟨m, 0, false, any || !cs.isEmpty⟩, []) := by
  induction cs generalizing n any with
  | nil =>
    cases h
    simp [readMantissa]
  | cons c cs ih =>
    have hdigit := isDigit_of_accumulate h c List.mem_cons_self
    simp only [accumulate, Bool.false_and, Bool.false_eq_true, if_false] at h
    split at h
    · cases h
    · rename_i d hd
      split at h
      · have hs : c ≠ '_' := isDigit_ne hdigit (by decide)
        have hp : c ≠ '.' := isDigit_ne hdigit (by decide)
        rw [readMantissa, if_neg (by simpa using hs), if_neg (by simpa using hp), hd]
        simp only [Mantissa.push, Bool.false_eq_true, if_false]
        rw [ih h]
        simp
      · cases h

theorem splitSign_cons (c : Char) (cs : List Char) :
    splitSign (c :: cs) =
      if c = '-' then (true, cs) else if c = '+' then (false, cs) else (false, c :: cs) := by
  unfold splitSign
  split <;> simp_all

theorem splitSign_of_head {cs : List Char} (h : ∀ c ∈ cs.head?, c ≠ '-' ∧ c ≠ '+') :
    splitSign cs = (false, cs) := by
  cases cs with
  | nil => rfl
  | cons c cs =>
    obtain ⟨hminus, hplus⟩ := h c rfl
    rw [splitSign_cons, if_neg hminus, if_neg hplus]

theorem isDigit_ne_sign {c : Char} (h : c.isDigit = true) : c ≠ '-' ∧ c ≠ '+' :=
  ⟨isDigit_ne h (by decide), isDigit_ne h (by decide)⟩

theorem toList_of_splitSign (h : splitSign cs = (negative, ds)) :
    cs = ds ∨ cs = '-' :: ds ∨ cs = '+' :: ds := by
  unfold splitSign at h
  split at h <;> simp_all

theorem toLower_of_isDigit {c : Char} (h : c.isDigit = true) : c.toLower = c := by
  have hle : c.toNat ≤ 57 := by
    obtain ⟨-, hle⟩ : '0'.toNat ≤ c.toNat ∧ c.toNat ≤ '9'.toNat := by
      simpa [Char.isDigit, Char.le_def, UInt32.le_iff_toNat_le] using h
    exact hle
  unfold Char.toLower
  split
  · rename_i hupper
    have hge : 65 ≤ c.toNat := by simpa [UInt32.le_iff_toNat_le] using hupper.1
    omega
  · rfl

theorem map_toLower_ne {cs w : List Char} (h : ∀ c ∈ cs, c.toLower ≠ 'n') (hw : 'n' ∈ w) :
    cs.map Char.toLower ≠ w := by
  rintro rfl
  obtain ⟨c, hc, hn⟩ := List.mem_map.1 hw
  exact h c hc hn

section Whole

variable {text ds : List Char} {negative : Bool} {n : Nat}

theorem isDigit_or_isSign (hs : splitSign text = (negative, ds)) (hd : ∀ c ∈ ds, c.isDigit = true) :
    ∀ c ∈ text, c.isDigit = true ∨ c = '-' ∨ c = '+' := by
  intro c hc
  rcases toList_of_splitSign hs with rfl | rfl | rfl
  · exact .inl (hd c hc)
  · exact (List.mem_cons.1 hc).elim (fun h => .inr (.inl h)) fun h => .inl (hd c h)
  · exact (List.mem_cons.1 hc).elim (fun h => .inr (.inr h)) fun h => .inl (hd c h)

theorem readDecimal?_of_accumulate (hne : ds ≠ []) (h : accumulate 10 false 0 ds = .ok n) :
    readDecimal? ds = some ⟨n, 10, 0⟩ := by
  have hm : readMantissa 10 ⟨0, 0, false, false⟩ ds = (⟨n, 0, false, false || !ds.isEmpty⟩, []) :=
    readMantissa_of_accumulate h
  simp [readDecimal?, Mantissa.empty, hm, hne]

theorem readReal?_of_accumulate (hs : splitSign text = (negative, ds)) (hne : ds ≠ [])
    (h : accumulate 10 false 0 ds = .ok n) : readReal? text = some ⟨n, 10, 0⟩ := by
  have hd := isDigit_of_accumulate h
  have hsep : text.contains '_' = false := by
    rw [Bool.eq_false_iff]
    intro hmem
    rcases isDigit_or_isSign hs hd '_' (by simpa using hmem) with hc | hc | hc
    · exact absurd hc (by decide)
    · exact absurd hc (by decide)
    · exact absurd hc (by decide)
  have hread := readDecimal?_of_accumulate hne h
  unfold readReal?
  rw [hsep, hs]
  simp only [Bool.false_and, Bool.false_eq_true, if_false]
  split
  · rename_i x c cs
    have hx := hd x (by simp)
    have hx₁ : x ≠ 'x' := isDigit_ne hx (by decide)
    have hx₂ : x ≠ 'X' := isDigit_ne hx (by decide)
    simp [hx₁, hx₂, hread]
  · exact hread

theorem accumulate_lt {base : Nat} {separators : Bool} (hn : n < Nat.pow 2 64)
    (h : accumulate base separators n ds = .ok m) : m < Nat.pow 2 64 := by
  induction ds generalizing n with
  | nil =>
    cases h
    exact hn
  | cons c ds ih =>
    rw [accumulate] at h
    split at h
    · exact ih hn h
    · split at h
      · cases h
      · split at h
        · rename_i hlt
          exact ih hlt h
        · cases h

theorem isFinite_of_lt (h : n < Nat.pow 2 64) : Scientific.isFinite ⟨n, 10, 0⟩ = true := by
  have hlimit : Nat.pow 2 64 ≤ realLimit := by decide +kernel
  simp only [Scientific.isFinite, Int.toNat_zero, Int.neg_zero, Nat.pow, Nat.mul_one,
    decide_eq_true_eq]
  exact Nat.lt_of_lt_of_le h hlimit

/-- A text that stands for a decimal integer stands for a finite real. -/
theorem classifyReal_of_parseDecimal {text : String} (h : parseDecimal text = .ok v) :
    classifyReal text = .finite := by
  obtain ⟨negative, ds, hs⟩ : ∃ negative ds, splitSign text.toList = (negative, ds) :=
    ⟨_, _, rfl⟩
  obtain ⟨hne, n, hn⟩ : ds ≠ [] ∧ ∃ n, accumulate 10 false 0 ds = .ok n := by
    rw [parseDecimal, parseBase, hs] at h
    cases ds with
    | nil => cases h
    | cons d ds =>
      refine ⟨List.cons_ne_nil d ds, ?_⟩
      cases hn : accumulate 10 false 0 (d :: ds) with
      | error e => simp [hn, bind, Except.bind] at h
      | ok n => exact ⟨n, rfl⟩
  have hd := isDigit_of_accumulate hn
  have hletter {cs : List Char} (hcs : ∀ c ∈ cs, c.isDigit = true ∨ c = '-' ∨ c = '+') :
      ∀ c ∈ cs, c.toLower ≠ 'n' := by
    intro c hc
    rcases hcs c hc with hc | rfl | rfl
    · rw [toLower_of_isDigit hc]
      exact isDigit_ne hc (by decide)
    · decide
    · decide
  have hinf : isInfinityName text.toList = false := by
    have hw := hletter fun c hc => .inl (hd c hc)
    simp [isInfinityName, hs, map_toLower_ne hw]
  have hnan : isNanName text.toList = false := by
    have hw := hletter (isDigit_or_isSign hs hd)
    simp [isNanName, map_toLower_ne hw]
  have hfinite := isFinite_of_lt (accumulate_lt (by decide) hn)
  simp [classifyReal, hinf, hnan, readReal?_of_accumulate hs hne hn, hfinite]

theorem parseDecimal_ne_malformed {text : String} (hs : splitSign text.toList = (negative, ds))
    (hne : ds ≠ []) (hd : ∀ c ∈ ds, c.isDigit = true) :
    parseDecimal text ≠ .error .malformed := by
  rw [parseDecimal, parseBase, hs]
  cases ds with
  | nil => exact absurd rfl hne
  | cons d ds =>
    have ha := accumulate_ne_malformed (n := 0) hd
    cases hn : accumulate 10 false 0 (d :: ds) with
    | error e =>
      cases e with
      | malformed => exact absurd hn ha
      | outOfRange => simp [hn, bind, Except.bind]
    | ok n =>
      simp only [hn, bind, Except.bind, signed]
      split <;> split <;> simp

end Whole

end PascalCheck.Numeral
