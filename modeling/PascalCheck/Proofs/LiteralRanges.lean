import Mathlib.Tactic.NormNum
import PascalCheck.Analysis.Tokenize
import PascalCheck.Proofs.Lexemes
import PascalCheck.Proofs.RealLiterals

namespace PascalCheck
set_option autoImplicit true

namespace Numeral

def signedInt (negative : Bool) (n : Nat) : Int := if negative then -n else n

theorem parseDecimal_of_splitSign {text : String} {ds : List (Fin 10)}
    (h : splitSign text.toList = (negative, ds.map digitChar)) (hne : ds ≠ []) :
    parseDecimal text = .ok (signedInt negative (digitsValue ds)) ∨
      parseDecimal text = .error .outOfRange ∧ 2 ^ 63 ≤ digitsValue ds := by
  have hread : accumulate 10 false 0 (ds.map digitChar) =
      if digitsValue ds < Nat.pow 2 64 then .ok (digitsValue ds) else .error .outOfRange := by
    have hdigits := accumulate_digits (n := 0) (by decide) ds
    rwa [Nat.zero_mul, Nat.zero_add] at hdigits
  obtain ⟨d, ds, rfl⟩ := List.exists_cons_of_ne_nil hne
  rw [parseDecimal, parseBase, h]
  rw [List.map_cons] at hread ⊢
  dsimp only
  rw [hread]
  split
  · simp only [bind, Except.bind, signed, signedInt]
    split
    · split
      · exact .inl rfl
      · rename_i hlarge
        exact .inr ⟨rfl, Nat.le_of_lt (Nat.not_le.1 hlarge)⟩
    · split
      · exact .inl rfl
      · rename_i hlarge
        exact .inr ⟨rfl, Nat.not_lt.1 hlarge⟩
  · rename_i hlarge
    refine .inr ⟨rfl, ?_⟩
    exact Nat.le_trans (Nat.pow_le_pow_right (by decide) (by decide)) (Nat.not_lt.1 hlarge)

namespace Decimal

variable (d : Decimal) (negated : Bool)

theorem toList_text : d.text.toList = d.chars := String.toList_ofList

def signedValue : ℚ := if negated then -d.value else d.value

theorem value_nonneg : 0 ≤ d.value :=
  mul_nonneg (Nat.cast_nonneg _) (zpow_nonneg (by decide) _)

theorem abs_signedValue : |d.signedValue negated| = d.value := by
  unfold signedValue
  split
  · rw [abs_neg, abs_of_nonneg d.value_nonneg]
  · exact abs_of_nonneg d.value_nonneg

theorem parts_of_not_isReal (h : d.isReal = false) : d.fraction = [] ∧ d.exponent = none := by
  simpa [isReal] using h

theorem chars_of_not_isReal (h : d.isReal = false) : d.chars = d.whole.map digitChar := by
  obtain ⟨hf, hx⟩ := d.parts_of_not_isReal h
  simp [chars, hf, hx]

theorem whole_ne_nil (h : d.isReal = false) : d.whole ≠ [] := by
  have hne := d.nonempty
  rwa [(d.parts_of_not_isReal h).1, List.append_nil] at hne

theorem signedValue_of_not_isReal (h : d.isReal = false) :
    d.signedValue negated = signedInt negated (digitsValue d.whole) := by
  obtain ⟨hf, hx⟩ := d.parts_of_not_isReal h
  cases negated <;> simp [signedValue, value, signedInt, hf, hx]

def isRealMark (c : Char) : Bool := c == '.' || c == 'e' || c == 'E'

theorem any_isRealMark_digits (ds : List (Fin 10)) :
    (ds.map digitChar).any isRealMark = false := by
  have hdigit : ∀ d : Fin 10, isRealMark (digitChar d) = false := by decide
  simp [hdigit]

theorem any_isRealMark : d.chars.any isRealMark = d.isReal := by
  have hpoint : isRealMark '.' = true := rfl
  rw [chars, List.any_append, List.any_append, any_isRealMark_digits, isReal, Bool.false_or]
  congr 1
  · cases d.fraction <;> simp [hpoint]
  · cases d.exponent with
    | none => rfl
    | some x =>
      have hmark : isRealMark x.mark = true := by rcases x.mark_eq with h | h <;> rw [h] <;> rfl
      simp [hmark]

/-- The literal that is written as the number, with a minus in front of it or not. -/
def literal : Literal := ⟨if negated then "-" ++ d.text else d.text, d.isReal⟩

theorem toList_literal :
    (d.literal negated).text.toList = if negated then '-' :: d.chars else d.chars := by
  cases negated <;> simp [literal, toList_text]

theorem splitSign_literal : splitSign (d.literal negated).text.toList = (negated, d.chars) := by
  rw [toList_literal]
  cases negated with
  | true => rfl
  | false => exact d.splitSign_chars

theorem forall_mem_literal :
    ∀ c ∈ (d.literal negated).text.toList, c.isDigit = true ∨ c ∈ numeralMarks := by
  rw [toList_literal]
  cases negated with
  | true => exact List.forall_mem_cons.2 ⟨.inr (by decide), d.forall_mem_chars⟩
  | false => exact d.forall_mem_chars

end Decimal

end Numeral

open Numeral

theorem ValueType.check_integer_of_splitSign {text : String} {ds : List (Fin 10)}
    (h : splitSign text.toList = (negative, ds.map digitChar)) (hne : ds ≠ []) :
    ValueType.integer.check text =
      if -32768 ≤ signedInt negative (digitsValue ds) ∧
        signedInt negative (digitsValue ds) ≤ 32767 then .pass else .fail (.integerRange text) := by
  simp only [check]
  rcases parseDecimal_of_splitSign h hne with hread | ⟨hread, hlarge⟩
  · rw [hread]
    rfl
  · have hout : ¬ (-32768 ≤ signedInt negative (digitsValue ds) ∧
        signedInt negative (digitsValue ds) ≤ 32767) := by
      unfold signedInt
      split <;> omega
    rw [hread, if_neg hout]

namespace Numeral.Decimal

variable (d : Decimal) (negated : Bool)

theorem check_literal_integer (h : d.isReal = false) :
    (d.literal negated).check =
      if -32768 ≤ d.signedValue negated ∧ d.signedValue negated ≤ 32767 then .pass
      else .fail (.integerRange (d.literal negated).text) := by
  have hsplit := d.splitSign_literal negated
  rw [d.chars_of_not_isReal h] at hsplit
  have htype : (d.literal negated).type = .integer := by simp [literal, Literal.type, h]
  rw [Literal.check, htype, ValueType.check_integer_of_splitSign hsplit (d.whole_ne_nil h),
    d.signedValue_of_not_isReal negated h]
  norm_cast

theorem check_literal_real (h : d.isReal = true) :
    (d.literal negated).check =
      match readDecimal? d.chars with
      | none => .failQuietly
      | some x => if x.isFinite then .pass else .fail (.realRange (d.literal negated).text) := by
  have htype : (d.literal negated).type = .real := by simp [literal, Literal.type, h]
  have hclass := classifyReal_of_splitSign (d.forall_mem_literal negated)
    (d.splitSign_literal negated)
  rw [Literal.check, htype]
  simp only [ValueType.check, hclass]
  cases readDecimal? d.chars with
  | none => rfl
  | some x => cases hx : x.isFinite <;> simp only [hx, if_true, Bool.false_eq_true, if_false]

/-- A well-formed real is compared with the limit by its exact value. -/
theorem check_literal_real_of_exponentLE (h : d.isReal = true) (hd : ¬ d.IsMalformed)
    (hx : d.ExponentLE 99999) :
    (d.literal negated).check =
      if |d.signedValue negated| < 2 ^ 1024 - 2 ^ 970 then .pass
      else .fail (.realRange (d.literal negated).text) := by
  have hvalue : Scientific.value ⟨digitsValue (d.whole ++ d.fraction), 10,
      d.exponent.elim 0 Exponent.value - d.fraction.length⟩ = d.value := by
    rw [Scientific.value, value, Nat.cast_ofNat]
  rw [d.check_literal_real negated h, readDecimal?_of_exponentLE hd hx, d.abs_signedValue,
    ← hvalue]
  exact if_congr (Scientific.isFinite_iff Nat.succ_pos') rfl rfl

theorem check_literal_malformed (hd : d.IsMalformed) :
    (d.literal negated).check = .failQuietly := by
  have h : d.isReal = true := by
    obtain ⟨x, hx, -⟩ := hd
    simp [isReal, hx]
  rw [d.check_literal_real negated h, d.readDecimal?_eq_none_iff.2 hd]

/-- The check of a literal goes by the exact value of the number that it is written as. -/
structure ChecksExactly (d : Decimal) (negated : Bool) (l : Literal) : Prop where
  integer : d.isReal = false →
    (l.check.ok = true ↔ -32768 ≤ d.signedValue negated ∧ d.signedValue negated ≤ 32767) ∧
      (l.check.ok = false → l.check.causes.map Cause.code = [119])
  real : d.isReal = true → ¬ d.IsMalformed → d.ExponentLE 99999 →
    (l.check.ok = true ↔ |d.signedValue negated| < 2 ^ 1024 - 2 ^ 970) ∧
      (l.check.ok = false → l.check.causes.map Cause.code = [120])
  malformed : d.IsMalformed → l.check.ok = false ∧ l.check.causes = []

theorem checksExactly_literal : d.ChecksExactly negated (d.literal negated) where
  integer h := by
    rw [d.check_literal_integer negated h]
    split
    · rename_i hin
      exact ⟨iff_of_true rfl hin, nofun⟩
    · rename_i hout
      exact ⟨iff_of_false nofun hout, fun _ => rfl⟩
  real h hd hx := by
    rw [d.check_literal_real_of_exponentLE negated h hd hx]
    split
    · rename_i hin
      exact ⟨iff_of_true rfl hin, nofun⟩
    · rename_i hout
      exact ⟨iff_of_false nofun hout, fun _ => rfl⟩
  malformed hd := by
    rw [d.check_literal_malformed negated hd]
    exact ⟨rfl, rfl⟩

end Numeral.Decimal

theorem Lexeme.isRealNumber_eq (bs : List UInt8) :
    isRealNumber bs = (bs.map Char.ofUInt8).any Decimal.isRealMark := by
  have hmark : ∀ n < 256, (UInt8.ofNat n == '.'.toUInt8 || isExponentMark (UInt8.ofNat n)) =
      Decimal.isRealMark (Char.ofUInt8 (UInt8.ofNat n)) := by
    decide +kernel
  rw [isRealNumber, List.any_map]
  congr 1
  funext b
  exact Utf8.of_forall_lt b.toNat_lt hmark

/-- A number of a source is spelled by the grammar of numbers, which tells the reals. -/
theorem Scan.exists_isNumeral_of_mem (ht : t ∈ (ofBytes source).tokens) (hk : t.kind = .number) :
    ∃ bs, Lexeme.IsNumeral bs ∧ t.lexeme = Lexeme.spell bs ∧
      t.isReal = Lexeme.isRealNumber bs := by
  obtain ⟨q, b, rest, rfl⟩ := exists_read_of_mem ht
  obtain ⟨hread, hstart⟩ := Lexeme.read_of_number hk
  refine ⟨_, Lexeme.isNumeral_numberBytes (Lexeme.startsNumber_iff.1 hstart), ?_, ?_⟩
  · rw [hread]
    rfl
  · have hcodes : Code.integerLiteral ≠ Code.realLiteral := by decide
    rw [hread]
    cases hreal : Lexeme.isRealNumber (Lexeme.numberBytes (b :: rest)) <;>
      simp [Token.isReal, Layout.token, Lexeme.number, hreal, hcodes]

/-- Every number of a source is written as a decimal, and whatever decimal it is written as, with a
minus in front of it or not, its literal is checked by the exact value: an integer is accepted if
and only if it has 16 bits, and a well-formed real whose exponent is at most 99999 if and only if it
lies below the least magnitude that rounds to infinity. Otherwise one report says that it is out of
range; and a malformed real is refused in silence. -/
theorem numeric_ranges_exact (source : List UInt8) (t : Token) (ht : t ∈ (tokenize source).1)
    (hk : t.kind = .number) :
    (∃ d : Decimal, d.text = t.lexeme) ∧
      ∀ d : Decimal, d.text = t.lexeme →
        t.isReal = d.isReal ∧ ∀ negated, d.ChecksExactly negated (t.literal negated) := by
  obtain ⟨bs, hnumeral, hlexeme, hreal⟩ := Scan.exists_isNumeral_of_mem ht hk
  constructor
  · obtain ⟨d, hchars, -⟩ := hnumeral.exists_decimal
    exact ⟨d, by rw [hlexeme, Lexeme.spell, hchars, Decimal.text]⟩
  · intro d hd
    have hchars : d.chars = bs.map Char.ofUInt8 := by
      rw [← d.toList_text, hd, hlexeme, Lexeme.spell, String.toList_ofList]
    have hisReal : t.isReal = d.isReal := by
      rw [hreal, Lexeme.isRealNumber_eq, ← hchars, d.any_isRealMark]
    refine ⟨hisReal, fun negated => ?_⟩
    have hliteral : t.literal negated = d.literal negated := by
      rw [Token.literal, Decimal.literal, hd, hisReal]
    rw [hliteral]
    exact d.checksExactly_literal negated

def leastInteger : Decimal where
  whole := [0, 0, 0, 0, 0, 0, 0, 0, 0, 0, 0, 0, 0, 0, 0, 0, 3, 2, 7, 6, 8]
  fraction := []
  exponent := none
  nonempty := by simp

theorem numeric_ranges_exact_leastInteger :
    let t : Token := ⟨.number, "000000000000000032768", Code.integerLiteral, ⟨1, 7⟩⟩
    t ∈ (tokenize "x := -000000000000000032768".toUTF8.toList).1 ∧ t.kind = .number ∧
      (t.literal true).check.ok = true ∧ (t.literal false).check.causes.map Cause.code = [119] := by
  intro t
  have ht : t ∈ (tokenize "x := -000000000000000032768".toUTF8.toList).1 := by decide +kernel
  have htext : leastInteger.text = t.lexeme := by decide +kernel
  have hreal : leastInteger.isReal = false := rfl
  have hvalue : digitsValue leastInteger.whole = 32768 := by decide
  obtain ⟨-, hchecks⟩ := (numeric_ranges_exact _ t ht rfl).2 leastInteger htext
  have hplus := (hchecks false).integer hreal
  have hminus := (hchecks true).integer hreal
  rw [Decimal.signedValue_of_not_isReal _ _ hreal, hvalue] at hplus hminus
  refine ⟨ht, rfl, hminus.1.2 (by norm_num [signedInt]), hplus.2 ?_⟩
  rw [← Bool.not_eq_true, hplus.1]
  norm_num [signedInt]

end PascalCheck
