import PascalCheck.Proofs.Decimals
import PascalCheck.Proofs.LongestMatch

namespace PascalCheck
set_option autoImplicit true

namespace Lexeme

def LacksExponent (bs : List UInt8) : Prop :=
  ∃ front e tail, bs = front ++ e :: tail ∧ isExponentMark e = true ∧
    ∀ b ∈ tail, isDigit b = false

theorem isExponentMark_of_isDigit : ∀ b : UInt8, isDigit b = true → isExponentMark b = false := by
  grind

theorem IsMantissa.unmarked (h : IsMantissa m) : ∀ b ∈ m, isExponentMark b = false := by
  have hpoint : isExponentMark '.'.toUInt8 = false := rfl
  obtain ⟨ds, part, rfl, hds, hpart⟩ := h.exists_parts
  refine List.forall_mem_append.2 ⟨fun b hb => isExponentMark_of_isDigit b (hds b hb), ?_⟩
  rcases hpart with rfl | ⟨f, fs, rfl, hfs⟩
  · simp
  · exact List.forall_mem_cons.2 ⟨hpoint, fun b hb => isExponentMark_of_isDigit b (hfs b hb)⟩

/-- With one exponent mark, only its own tail can lack a digit. -/
theorem lacksExponent_iff (hm : ∀ b ∈ m, isExponentMark b = false) (he : isExponentMark e = true)
    (htail : ∀ b ∈ tail, isExponentMark b = false) :
    LacksExponent (m ++ e :: tail) ↔ ∀ b ∈ tail, isDigit b = false := by
  constructor
  · rintro ⟨front, e', tail', hsplit, he', hdigits⟩
    rcases List.append_eq_append_iff.1 hsplit with ⟨as, -, has⟩ | ⟨as, has, hrest⟩
    · cases as with
      | nil =>
        obtain ⟨-, rfl⟩ := List.cons.inj has
        exact hdigits
      | cons a as =>
        obtain ⟨-, rfl⟩ := List.cons.inj has
        have hmark := htail e' (by simp)
        rw [he'] at hmark
        cases hmark
    · cases as with
      | nil =>
        obtain ⟨-, rfl⟩ := List.cons.inj hrest
        exact hdigits
      | cons a as =>
        obtain ⟨rfl, -⟩ := List.cons.inj hrest
        have hmark := hm e' (by simp [has])
        rw [he'] at hmark
        cases hmark
  · exact fun h => ⟨m, e, tail, rfl, he, h⟩

theorem IsMantissa.not_lacksExponent (h : IsMantissa m) : ¬ LacksExponent m := by
  rintro ⟨front, e, tail, rfl, he, -⟩
  have hmark := h.unmarked e (by simp)
  rw [he] at hmark
  cases hmark

theorem AllDigits.eq_nil_iff (h : AllDigits ds) : (∀ b ∈ ds, isDigit b = false) ↔ ds = [] := by
  constructor
  · intro hnone
    rw [List.eq_nil_iff_forall_not_mem]
    intro b hb
    have hd := h b hb
    rw [hnone b hb] at hd
    cases hd
  · rintro rfl
    simp

open Numeral

theorem AllDigits.exists_digits (h : AllDigits bs) :
    ∃ ds : List (Fin 10), bs.map Char.ofUInt8 = ds.map digitChar := by
  have hdigit {b : UInt8} (hge : 48 ≤ b.toNat) (hlt : b.toNat < 58) :
      ∃ d : Fin 10, Char.ofUInt8 b = digitChar d :=
    Utf8.of_forall_lt hlt (by decide) hge
  induction bs with
  | nil => exact ⟨[], rfl⟩
  | cons b bs ih =>
    obtain ⟨hb, hbs⟩ := List.forall_mem_cons.1 h
    obtain ⟨ds, hds⟩ := ih hbs
    obtain ⟨hge, hle⟩ : 48 ≤ b.toNat ∧ b.toNat ≤ 57 := by
      rw [isDigit, Bool.and_eq_true, decide_eq_true_iff, decide_eq_true_iff] at hb
      exact ⟨UInt8.le_iff_toNat_le.1 hb.1, UInt8.le_iff_toNat_le.1 hb.2⟩
    obtain ⟨d, hd⟩ := hdigit (b := b) hge (by omega)
    exact ⟨d :: ds, by rw [List.map_cons, List.map_cons, hd, hds]⟩

theorem IsMantissa.exists_digits (h : IsMantissa m) :
    ∃ whole fraction : List (Fin 10), whole ++ fraction ≠ [] ∧ m.map Char.ofUInt8 =
      whole.map digitChar ++ if fraction = [] then [] else '.' :: fraction.map digitChar := by
  have hpoint : Char.ofUInt8 '.'.toUInt8 = '.' := rfl
  have hmap {bs : List UInt8} {ds : List (Fin 10)} (hne : bs ≠ [])
      (h : bs.map Char.ofUInt8 = ds.map digitChar) : ds ≠ [] := by
    rintro rfl
    exact hne (List.map_eq_nil_iff.1 h)
  cases h with
  | whole hne hds =>
    obtain ⟨ds, hds⟩ := hds.exists_digits
    exact ⟨ds, [], by simpa using hmap hne hds, by simpa using hds⟩
  | decimal hne hds hne' hfs =>
    obtain ⟨ds, hds⟩ := hds.exists_digits
    obtain ⟨fs, hfs⟩ := hfs.exists_digits
    refine ⟨ds, fs, by simp [hmap hne hds], ?_⟩
    rw [if_neg (hmap hne' hfs), List.map_append, List.map_cons, hds, hfs, hpoint]
  | fraction hne hfs =>
    obtain ⟨fs, hfs⟩ := hfs.exists_digits
    refine ⟨[], fs, by simpa using hmap hne hfs, ?_⟩
    rw [if_neg (hmap hne hfs), List.map_cons, hfs, hpoint]
    rfl

theorem exists_upper (h : isExponentMark e = true) :
    ∃ upper : Bool, Char.ofUInt8 e = if upper then 'E' else 'e' := by
  rcases isExponentMark_iff.1 h with rfl | rfl
  · exact ⟨false, rfl⟩
  · exact ⟨true, rfl⟩

theorem IsNumeral.exists_decimal (h : IsNumeral bs) :
    ∃ d : Decimal, bs.map Char.ofUInt8 = d.chars ∧ (LacksExponent bs ↔ d.IsMalformed) := by
  have hsign : ∀ b : UInt8, isSign b = true → isDigit b = false ∧ isExponentMark b = false := by
    grind
  obtain ⟨m, x, rfl, hm, hx⟩ := h
  obtain ⟨whole, fraction, hne, hchars⟩ := hm.exists_digits
  rw [List.map_append, hchars, List.append_assoc]
  -- Behind its mark and its sign the exponent has as many digits as bytes.
  have hlacks (front : List UInt8) {e : UInt8} {ds : List UInt8} {es : List (Fin 10)}
      (he : isExponentMark e = true) (hfront : ∀ b ∈ front, isSign b = true)
      (hds : AllDigits ds) (hes : ds.map Char.ofUInt8 = es.map digitChar) :
      LacksExponent (m ++ e :: (front ++ ds)) ↔ es = [] := by
    have htail : ∀ b ∈ front ++ ds, isExponentMark b = false :=
      List.forall_mem_append.2 ⟨fun b hb => (hsign b (hfront b hb)).2,
        fun b hb => isExponentMark_of_isDigit b (hds b hb)⟩
    have hnil : ds = [] ↔ es = [] := by
      rw [← List.map_eq_nil_iff (f := Char.ofUInt8), hes, List.map_eq_nil_iff]
    rw [lacksExponent_iff hm.unmarked he htail, List.forall_mem_append,
      and_iff_right fun b hb => (hsign b (hfront b hb)).1, hds.eq_nil_iff, hnil]
  cases hx with
  | none =>
    exact ⟨⟨whole, fraction, none, hne⟩, rfl, by simp [hm.not_lacksExponent, Decimal.IsMalformed]⟩
  | @unsigned e ds he hds =>
    obtain ⟨es, hes⟩ := hds.exists_digits
    obtain ⟨upper, hupper⟩ := exists_upper he
    refine ⟨⟨whole, fraction, some ⟨upper, none, es⟩, hne⟩, ?_, ?_⟩
    · rw [List.map_cons, hes, hupper]
      rfl
    · have hiff := hlacks [] he (by simp) hds hes
      simpa [Decimal.IsMalformed] using hiff
  | @signed e s ds he hs hds =>
    obtain ⟨es, hes⟩ := hds.exists_digits
    obtain ⟨upper, hupper⟩ := exists_upper he
    have hiff := hlacks [s] he (by simpa using hs) hds hes
    rcases isSign_iff.1 hs with rfl | rfl
    · refine ⟨⟨whole, fraction, some ⟨upper, some false, es⟩, hne⟩, ?_, ?_⟩
      · rw [List.map_cons, List.map_cons, hes, hupper]
        rfl
      · simpa [Decimal.IsMalformed] using hiff
    · refine ⟨⟨whole, fraction, some ⟨upper, some true, es⟩, hne⟩, ?_, ?_⟩
      · rw [List.map_cons, List.map_cons, hes, hupper]
        rfl
      · simpa [Decimal.IsMalformed] using hiff

end Lexeme

namespace Numeral

open Lexeme

/-- A number is malformed as a real literal if and only if its exponent lacks a digit. -/
theorem classifyReal_numeral (h : IsNumeral bs) :
    classifyReal (spell bs) = .malformed ↔ LacksExponent bs := by
  obtain ⟨d, hchars, hlacks⟩ := h.exists_decimal
  have htext : (spell bs).toList = d.chars := by rw [spell, String.toList_ofList, hchars]
  have hmarks : ∀ c ∈ (spell bs).toList, c.isDigit = true ∨ c ∈ numeralMarks := by
    rw [htext]
    exact d.forall_mem_chars
  have hsplit : splitSign (spell bs).toList = (false, d.chars) := by
    rw [htext]
    exact d.splitSign_chars
  rw [hlacks, ← d.readDecimal?_eq_none_iff, classifyReal_of_splitSign hmarks hsplit]
  cases readDecimal? d.chars with
  | none => simp
  | some x => cases hx : x.isFinite <;> simp [hx]

end Numeral

end PascalCheck
