import Mathlib.Algebra.Order.Field.Rat
import Mathlib.Data.Nat.Digits.Defs
import Mathlib.Tactic.FieldSimp
import Mathlib.Tactic.Ring
import PascalCheck.Proofs.Numerals

namespace PascalCheck.Numeral
set_option autoImplicit true

def digitsValue (ds : List (Fin 10)) : Nat := Nat.ofDigits 10 (ds.reverse.map Fin.val)

def digitChar (d : Fin 10) : Char := Nat.digitChar d

theorem digitsValue_append (ds es : List (Fin 10)) :
    digitsValue (ds ++ es) = digitsValue ds * 10 ^ es.length + digitsValue es := by
  simp only [digitsValue, List.reverse_append, List.map_append, Nat.ofDigits_append,
    List.length_map, List.length_reverse]
  ring

theorem digitsValue_cons (d : Fin 10) (ds : List (Fin 10)) :
    digitsValue (d :: ds) = d * 10 ^ ds.length + digitsValue ds := by
  have hone : digitsValue [d] = d := by simp [digitsValue]
  rw [← List.singleton_append, digitsValue_append, hone]

theorem mul_pow_add_digitsValue_cons (n : Nat) (d : Fin 10) (ds : List (Fin 10)) :
    n * 10 ^ (d :: ds).length + digitsValue (d :: ds) =
      (n * 10 + d) * 10 ^ ds.length + digitsValue ds := by
  rw [digitsValue_cons, List.length_cons]
  ring

theorem digitOf?_digitChar : ∀ d : Fin 10, digitOf? 10 (digitChar d) = some d.val := by
  decide

theorem isDigit_digitChar : ∀ d : Fin 10, (digitChar d).isDigit = true := by
  decide

theorem digitChar_ne_separator : ∀ d : Fin 10, (digitChar d == '_') = false := by
  decide

theorem digitChar_ne_point : ∀ d : Fin 10, (digitChar d == '.') = false := by
  decide

theorem toNat_digitChar : ∀ d : Fin 10, (digitChar d).toNat - '0'.toNat = d.val := by
  decide

theorem accumulate_digits (h : n < Nat.pow 2 64) (ds : List (Fin 10)) :
    accumulate 10 false n (ds.map digitChar) =
      if n * 10 ^ ds.length + digitsValue ds < Nat.pow 2 64 then
        .ok (n * 10 ^ ds.length + digitsValue ds)
      else .error .outOfRange := by
  induction ds generalizing n with
  | nil => simp [accumulate, digitsValue, h]
  | cons d ds ih =>
    rw [List.map_cons, accumulate, Bool.false_and, if_neg Bool.false_ne_true,
      digitOf?_digitChar, mul_pow_add_digitsValue_cons]
    dsimp only
    split
    · rename_i hlt
      exact ih hlt
    · rename_i hge
      have hgrow : n * 10 + d ≤ (n * 10 + d) * 10 ^ ds.length :=
        Nat.le_mul_of_pos_right _ (Nat.pow_pos (by decide))
      exact (if_neg (by omega)).symm

/-- Digits are read into a mantissa, whatever follows them. -/
theorem readMantissa_digits (m : Mantissa) (ds : List (Fin 10)) (rest : List Char) :
    readMantissa 10 m (ds.map digitChar ++ rest) =
      readMantissa 10 ⟨m.value * 10 ^ ds.length + digitsValue ds,
        if m.pointed then m.places + ds.length else m.places, m.pointed,
        m.any || !ds.isEmpty⟩ rest := by
  induction ds generalizing m with
  | nil => simp [digitsValue]
  | cons d ds ih =>
    rw [List.map_cons, List.cons_append, readMantissa, digitChar_ne_separator, digitChar_ne_point,
      digitOf?_digitChar, mul_pow_add_digitsValue_cons]
    simp only [Bool.false_eq_true, if_false]
    rw [ih]
    cases hp : m.pointed <;> simp [Mantissa.push, hp, Nat.add_assoc, Nat.add_comm]

theorem readExponentDigits_digits (h : n * 10 ^ ds.length + digitsValue ds ≤ 99999) :
    readExponentDigits n (ds.map digitChar) = (n * 10 ^ ds.length + digitsValue ds, []) := by
  induction ds generalizing n with
  | nil => simp [readExponentDigits, digitsValue]
  | cons d ds ih =>
    rw [mul_pow_add_digitsValue_cons] at h ⊢
    have hsmall : n < 10000 := by
      have hgrow : n * 10 + d ≤ (n * 10 + d) * 10 ^ ds.length :=
        Nat.le_mul_of_pos_right _ (Nat.pow_pos (by decide))
      omega
    rw [List.map_cons, readExponentDigits, digitChar_ne_separator, if_neg Bool.false_ne_true,
      if_pos (isDigit_digitChar d), if_pos hsmall, toNat_digitChar]
    exact ih h

theorem readExponentDigits_rest (n : Nat) (ds : List (Fin 10)) :
    (readExponentDigits n (ds.map digitChar)).2 = [] := by
  induction ds generalizing n with
  | nil => rfl
  | cons d ds ih =>
    rw [List.map_cons, readExponentDigits, digitChar_ne_separator, if_neg Bool.false_ne_true,
      if_pos (isDigit_digitChar d)]
    exact ih _

/-- An exponent as it is written. -/
structure Exponent where
  upper : Bool
  negative? : Option Bool
  digits : List (Fin 10)
deriving DecidableEq, Repr

namespace Exponent

def mark (x : Exponent) : Char := if x.upper then 'E' else 'e'

theorem mark_eq (x : Exponent) : x.mark = 'e' ∨ x.mark = 'E' := by
  unfold mark
  cases x.upper
  · exact .inl rfl
  · exact .inr rfl

def sign (x : Exponent) : List Char :=
  match x.negative? with
  | none => []
  | some true => ['-']
  | some false => ['+']

def isNegative (x : Exponent) : Bool := x.negative?.getD false

def tail (x : Exponent) : List Char := x.sign ++ x.digits.map digitChar

def value (x : Exponent) : Int :=
  if x.isNegative then -(digitsValue x.digits : Int) else digitsValue x.digits

end Exponent

/-- A number as it is written: digits before and after the point, which stands only before digits,
and an exponent. -/
structure Decimal where
  whole : List (Fin 10)
  fraction : List (Fin 10)
  exponent : Option Exponent
  nonempty : whole ++ fraction ≠ []

namespace Decimal

def chars (d : Decimal) : List Char :=
  d.whole.map digitChar ++ ((if d.fraction = [] then [] else '.' :: d.fraction.map digitChar) ++
    d.exponent.elim [] fun x => x.mark :: x.tail)

def text (d : Decimal) : String := .ofList d.chars

def isReal (d : Decimal) : Bool := !d.fraction.isEmpty || d.exponent.isSome

def IsMalformed (d : Decimal) : Prop := ∃ x, d.exponent = some x ∧ x.digits = []

def ExponentLE (d : Decimal) (n : Nat) : Prop := ∀ x ∈ d.exponent, digitsValue x.digits ≤ n

def value (d : Decimal) : ℚ :=
  digitsValue (d.whole ++ d.fraction) *
    10 ^ (d.exponent.elim 0 Exponent.value - d.fraction.length)

end Decimal

theorem splitSign_tail (x : Exponent) :
    splitSign x.tail = (x.isNegative, x.digits.map digitChar) := by
  obtain ⟨upper, negative?, ds⟩ := x
  match negative? with
  | some true => rfl
  | some false => rfl
  | none =>
    refine splitSign_of_head fun c hc => ?_
    obtain ⟨d, -, rfl⟩ := List.mem_map.1 (List.mem_of_mem_head? hc)
    exact isDigit_ne_sign (isDigit_digitChar d)

theorem readExponent?_eq_none_iff (x : Exponent) : readExponent? x.tail = none ↔ x.digits = [] := by
  rw [readExponent?, splitSign_tail]
  cases hds : x.digits with
  | nil => simp
  | cons d ds =>
    have hrest := readExponentDigits_rest 0 (d :: ds)
    rw [List.map_cons] at hrest ⊢
    cases hread : readExponentDigits 0 (digitChar d :: ds.map digitChar) with
    | mk n rest =>
      rw [hread] at hrest
      obtain rfl : rest = [] := hrest
      simp [isDigit_digitChar, hread]

theorem readExponent?_tail {x : Exponent} (hne : x.digits ≠ [])
    (h : digitsValue x.digits ≤ 99999) : readExponent? x.tail = some x.value := by
  obtain ⟨d, ds, hds⟩ := List.exists_cons_of_ne_nil hne
  have hsmall : 0 * 10 ^ x.digits.length + digitsValue x.digits ≤ 99999 := by simpa using h
  have hread := readExponentDigits_digits hsmall
  rw [Nat.zero_mul, Nat.zero_add] at hread
  rw [readExponent?, splitSign_tail, Exponent.value]
  rw [hds, List.map_cons] at hread ⊢
  simp [isDigit_digitChar, hread]

namespace Decimal

theorem readMantissa_chars (d : Decimal) (hrest : ∀ m, readMantissa 10 m rest = (m, rest)) :
    readMantissa 10 .empty (d.whole.map digitChar ++
        ((if d.fraction = [] then [] else '.' :: d.fraction.map digitChar) ++ rest)) =
      (⟨digitsValue (d.whole ++ d.fraction), d.fraction.length, !d.fraction.isEmpty, true⟩,
        rest) := by
  have hany : (!d.whole.isEmpty || !d.fraction.isEmpty) = true := by
    have hne := d.nonempty
    cases hw : d.whole <;> cases hf : d.fraction <;> simp_all
  rw [readMantissa_digits]
  cases hf : d.fraction with
  | nil =>
    rw [hf] at hany
    have hwhole : d.whole ≠ [] := by simpa using hany
    rw [if_pos rfl, List.nil_append, hrest]
    simp [Mantissa.empty, hwhole]
  | cons f fs =>
    have hpoint : readMantissa 10 ⟨digitsValue d.whole, 0, false, !d.whole.isEmpty⟩
        ('.' :: ((f :: fs).map digitChar ++ rest)) =
          readMantissa 10 ⟨digitsValue d.whole, 0, true, !d.whole.isEmpty⟩
            ((f :: fs).map digitChar ++ rest) := by
      rw [readMantissa, if_neg (by decide), if_pos (by decide), if_neg (by simp)]
    rw [if_neg (List.cons_ne_nil f fs), List.cons_append]
    simp only [Mantissa.empty, Nat.zero_mul, Nat.zero_add, Bool.false_eq_true, if_false,
      Bool.false_or]
    rw [hpoint, readMantissa_digits, hrest, digitsValue_append]
    simp

/-- A decimal numeral is read as its digits times a power of ten, or not at all if its exponent is
not read. -/
theorem readDecimal?_chars (d : Decimal) : readDecimal? d.chars =
    match d.exponent with
    | none => some ⟨digitsValue (d.whole ++ d.fraction), 10, -d.fraction.length⟩
    | some x => (readExponent? x.tail).map fun e =>
        ⟨digitsValue (d.whole ++ d.fraction), 10, e - d.fraction.length⟩ := by
  rw [readDecimal?, chars]
  cases d.exponent with
  | none =>
    rw [Option.elim_none, readMantissa_chars d fun m => rfl]
    rfl
  | some x =>
    have hmark := x.mark_eq
    have hstop (m : Mantissa) : readMantissa 10 m (x.mark :: x.tail) = (m, x.mark :: x.tail) := by
      rcases hmark with h | h <;> rw [h] <;> rfl
    have hmark' : (x.mark == 'e' || x.mark == 'E') = true := by simpa using hmark
    rw [Option.elim_some, readMantissa_chars d hstop]
    simp [hmark']

theorem readDecimal?_eq_none_iff (d : Decimal) : readDecimal? d.chars = none ↔ d.IsMalformed := by
  rw [readDecimal?_chars, IsMalformed]
  cases d.exponent with
  | none => simp
  | some x => simp [readExponent?_eq_none_iff]

theorem readDecimal?_of_exponentLE {d : Decimal} (hd : ¬ d.IsMalformed) (h : d.ExponentLE 99999) :
    readDecimal? d.chars = some ⟨digitsValue (d.whole ++ d.fraction), 10,
      d.exponent.elim 0 Exponent.value - d.fraction.length⟩ := by
  rw [readDecimal?_chars]
  cases hx : d.exponent with
  | none => simp
  | some x => simp [readExponent?_tail (fun hne => hd ⟨x, hx, hne⟩) (h x hx)]

end Decimal

def Scientific.value (x : Scientific) : ℚ := x.mantissa * x.base ^ x.exponent

theorem cast_pow_sub_pow (h : a ≤ b) : ((Nat.pow 2 b - Nat.pow 2 a : Nat) : ℚ) = 2 ^ b - 2 ^ a := by
  have hle : 2 ^ a ≤ 2 ^ b := Nat.pow_le_pow_right (by decide) h
  rw [Nat.pow_eq, Nat.pow_eq, Nat.cast_sub hle, Nat.cast_pow, Nat.cast_pow, Nat.cast_ofNat]

theorem cast_realLimit : (realLimit : ℚ) = 2 ^ 1024 - 2 ^ 970 := by
  unfold realLimit
  exact cast_pow_sub_pow (a := 970) (b := 1024) (by decide)

/-- Numerals are compared with the limit as their values are. -/
theorem Scientific.isFinite_iff {x : Scientific} (hbase : 0 < x.base) :
    x.isFinite = true ↔ x.value < 2 ^ 1024 - 2 ^ 970 := by
  have hpos : (0 : ℚ) < x.base := Nat.cast_pos.2 hbase
  have hpow : (x.base : ℚ) ^ x.exponent * x.base ^ (-x.exponent).toNat =
      x.base ^ x.exponent.toNat := by
    rw [← zpow_natCast, ← zpow_natCast, ← zpow_add₀ hpos.ne']
    congr 1
    omega
  have hvalue : x.value * x.base ^ (-x.exponent).toNat =
      x.mantissa * x.base ^ x.exponent.toNat := by
    rw [value, mul_assoc, hpow]
  have hcast : x.isFinite = true ↔ (x.mantissa : ℚ) * x.base ^ x.exponent.toNat <
      realLimit * x.base ^ (-x.exponent).toNat := by
    rw [isFinite, decide_eq_true_iff, ← Nat.cast_lt (α := ℚ), Nat.pow_eq, Nat.pow_eq,
      Nat.cast_mul, Nat.cast_mul, Nat.cast_pow, Nat.cast_pow]
  rw [hcast, ← hvalue, ← cast_realLimit]
  exact mul_lt_mul_iff_left₀ (pow_pos hpos _)

def numeralMarks : List Char := ['.', 'e', 'E', '+', '-']

theorem forall_mem_map_digitChar (ds : List (Fin 10)) :
    ∀ c ∈ ds.map digitChar, c.isDigit = true ∨ c ∈ numeralMarks := by
  intro c hc
  obtain ⟨d, -, rfl⟩ := List.mem_map.1 hc
  exact .inl (isDigit_digitChar d)

theorem Exponent.forall_mem_chars (x : Exponent) :
    ∀ c ∈ x.mark :: x.tail, c.isDigit = true ∨ c ∈ numeralMarks := by
  obtain ⟨upper, negative?, ds⟩ := x
  have hmark : ∀ b : Bool, (if b then 'E' else 'e') ∈ numeralMarks := by decide
  refine List.forall_mem_cons.2 ⟨.inr (hmark upper), List.forall_mem_append.2
    ⟨fun c hc => .inr ?_, forall_mem_map_digitChar ds⟩⟩
  match negative? with
  | none => cases hc
  | some true => simp [List.mem_singleton.1 hc, numeralMarks]
  | some false => simp [List.mem_singleton.1 hc, numeralMarks]

namespace Decimal

theorem forall_mem_chars (d : Decimal) :
    ∀ c ∈ d.chars, c.isDigit = true ∨ c ∈ numeralMarks := by
  have hpoint : '.' ∈ numeralMarks := by decide
  refine List.forall_mem_append.2 ⟨forall_mem_map_digitChar _, List.forall_mem_append.2 ⟨?_, ?_⟩⟩
  · split
    · simp
    · exact List.forall_mem_cons.2 ⟨.inr hpoint, forall_mem_map_digitChar _⟩
  · cases d.exponent with
    | none => simp
    | some x => exact x.forall_mem_chars

theorem splitSign_chars (d : Decimal) : splitSign d.chars = (false, d.chars) := by
  have hne := d.nonempty
  apply splitSign_of_head
  unfold chars
  cases hw : d.whole with
  | cons w ws => simpa using isDigit_ne_sign (isDigit_digitChar w)
  | nil =>
    cases hf : d.fraction with
    | nil => simp [hw, hf] at hne
    | cons f fs => simp

end Decimal

theorem classifyReal_of_splitSign {text : String}
    (hchars : ∀ c ∈ text.toList, c.isDigit = true ∨ c ∈ numeralMarks)
    (hsplit : splitSign text.toList = (negative, ds)) :
    classifyReal text =
      match readDecimal? ds with
      | none => .malformed
      | some x => if x.isFinite then .finite else .overflow := by
  generalize htext : text.toList = cs at *
  have hsub : ds ⊆ cs := by
    rcases toList_of_splitSign hsplit with rfl | rfl | rfl
    · exact List.Subset.refl _
    · exact List.subset_cons_self _ _
    · exact List.subset_cons_self _ _
  have hother (c c' : Char) (hc : c ∈ cs) (hc' : c'.isDigit = false ∧ c' ∉ numeralMarks) :
      c ≠ c' := by
    rcases hchars c hc with hd | hmark
    · exact isDigit_ne hd hc'.1
    · rintro rfl
      exact hc'.2 hmark
  have hlower : ∀ c ∈ cs, c.toLower ≠ 'n' := by
    have hmarks : numeralMarks.all (·.toLower != 'n') = true := by decide
    intro c hc
    rcases hchars c hc with hd | hmark
    · rw [toLower_of_isDigit hd]
      exact isDigit_ne hd (by decide)
    · simpa using List.all_eq_true.1 hmarks c hmark
  have hinf : isInfinityName cs = false := by
    simp [isInfinityName, hsplit, map_toLower_ne fun c hc => hlower c (hsub hc)]
  have hnan : isNanName cs = false := by
    simp [isNanName, map_toLower_ne hlower]
  have hread : readReal? cs = readDecimal? ds := by
    have hsep : cs.contains '_' = false := by
      rw [Bool.eq_false_iff]
      intro hmem
      exact hother '_' '_' (by simpa using hmem) (by decide) rfl
    rw [readReal?, hsep, hsplit]
    simp only [Bool.false_and, Bool.false_eq_true, if_false]
    split
    · rename_i x c cs'
      have hx : x ∈ cs := hsub (by simp)
      have hmark : (x == 'x' || x == 'X') = false := by
        simp [hother x 'x' hx (by decide), hother x 'X' hx (by decide)]
      rw [hmark, if_neg Bool.false_ne_true]
    · rfl
  rw [classifyReal, htext, hinf, hnan, hread]
  rfl

end PascalCheck.Numeral
