import PascalCheck.Proofs.Numerals
import PascalCheck.Proofs.View.Basic

namespace PascalCheck.Numeral
set_option autoImplicit true

variable (v : View)

@[simp] theorem digitOf?_char (base : Nat) (c : Char) :
    digitOf? base (v.char c) = digitOf? base c := by
  have hdigit : digit? (v.char c) = digit? c := v.apply_char (by decide) c
  rw [digitOf?, digitOf?, hdigit]

@[simp] theorem isDigit_char (c : Char) : (v.char c).isDigit = c.isDigit :=
  v.apply_char (f := Char.isDigit) (by decide) c

@[simp] theorem isBaseMark_char (c : Char) : isBaseMark (v.char c) = isBaseMark c :=
  v.apply_char (by decide) c

@[simp] theorem char_beq_underscore (c : Char) : (v.char c == '_') = (c == '_') :=
  v.apply_char (f := (· == '_')) (by decide) c

@[simp] theorem char_beq_point (c : Char) : (v.char c == '.') = (c == '.') :=
  v.apply_char (f := (· == '.')) (by decide) c

@[simp] theorem char_beq_x (c : Char) :
    (v.char c == 'x' || v.char c == 'X') = (c == 'x' || c == 'X') :=
  v.apply_char (f := fun c => c == 'x' || c == 'X') (by decide) c

@[simp] theorem char_beq_e (c : Char) :
    (v.char c == 'e' || v.char c == 'E') = (c == 'e' || c == 'E') :=
  v.apply_char (f := fun c => c == 'e' || c == 'E') (by decide) c

@[simp] theorem char_beq_p (c : Char) :
    (v.char c == 'p' || v.char c == 'P') = (c == 'p' || c == 'P') :=
  v.apply_char (f := fun c => c == 'p' || c == 'P') (by decide) c

@[simp] theorem toLower_char (c : Char) : (v.char c).toLower = c.toLower :=
  v.apply_char (f := Char.toLower) (by decide) c

theorem char_eq_iff {c c' : Char}
    (h : ∀ n < 128, ((Char.ofNat n).toLower == c') = (Char.ofNat n == c')) :
    v.char c = c' ↔ c = c' := by
  have hbeq : (v.char c == c') = (c == c') := v.apply_char (f := (· == c')) h c
  rw [← beq_iff_eq, hbeq, beq_iff_eq]

theorem splitSign_map (cs : List Char) :
    splitSign (cs.map v.char) = ((splitSign cs).1, (splitSign cs).2.map v.char) := by
  cases cs with
  | nil => rfl
  | cons c cs =>
    have hminus : v.char c = '-' ↔ c = '-' := char_eq_iff v (by decide)
    have hplus : v.char c = '+' ↔ c = '+' := char_eq_iff v (by decide)
    simp only [List.map_cons, splitSign_cons, hminus, hplus]
    split
    · rfl
    · split <;> rfl

theorem accumulate_map (base : Nat) (separators : Bool) (n : Nat) (cs : List Char) :
    accumulate base separators n (cs.map v.char) = accumulate base separators n cs := by
  induction cs generalizing n with
  | nil => rfl
  | cons c cs ih =>
    simp only [List.map_cons, accumulate, char_beq_underscore, digitOf?_char, ih]

@[simp] theorem parseDecimal_text (s : String) : parseDecimal (v.text s) = parseDecimal s := by
  unfold parseDecimal parseBase
  rw [View.toList_text, splitSign_map]
  rcases splitSign s.toList with ⟨negative, _ | ⟨c, cs⟩⟩
  · rfl
  · simp only [List.map_cons]
    rw [← List.map_cons, accumulate_map]

theorem readMantissa_map (base : Nat) (m : Mantissa) (cs : List Char) :
    readMantissa base m (cs.map v.char) =
      ((readMantissa base m cs).1, (readMantissa base m cs).2.map v.char) := by
  fun_induction readMantissa base m cs with
  | case1 => rfl
  | case2 m c cs h ih => simp [readMantissa, h, ih]
  | case3 m c cs h hp hm => simp [readMantissa, h, hp, hm]
  | case4 m c cs h hp hm ih => simp [readMantissa, h, hp, hm, ih]
  | case5 m c cs h hp d hd ih => simp [readMantissa, h, hp, hd, ih]
  | case6 m c cs h hp hd => simp [readMantissa, h, hp, hd]

theorem readExponentDigits_map (e : Nat) (cs : List Char) :
    readExponentDigits e (cs.map v.char) =
      ((readExponentDigits e cs).1, (readExponentDigits e cs).2.map v.char) := by
  fun_induction readExponentDigits e cs with
  | case1 => rfl
  | case2 e c cs h ih => simp [readExponentDigits, h, ih]
  | case3 e c cs h hd ih =>
    rw [List.map_cons, v.char_eq_self (toLower_of_isDigit hd)]
    simp only [readExponentDigits, h, hd, if_true, if_false, Bool.false_eq_true]
    exact ih
  | case4 e c cs h hd => simp [readExponentDigits, h, hd]

theorem readExponent?_map (cs : List Char) : readExponent? (cs.map v.char) = readExponent? cs := by
  unfold readExponent?
  rw [splitSign_map]
  rcases splitSign cs with ⟨negative, _ | ⟨d, ds⟩⟩
  · rfl
  · have hdigits := readExponentDigits_map v 0 (d :: ds)
    rw [List.map_cons] at hdigits
    simp only [List.map_cons, isDigit_char, hdigits]
    rcases readExponentDigits 0 (d :: ds) with ⟨e, _ | ⟨c, cs⟩⟩ <;> rfl

theorem readDecimal?_map (cs : List Char) : readDecimal? (cs.map v.char) = readDecimal? cs := by
  unfold readDecimal?
  rw [readMantissa_map]
  rcases readMantissa 10 .empty cs with ⟨m, _ | ⟨c, es⟩⟩ <;> simp [readExponent?_map]

theorem readHexadecimal?_map (cs : List Char) :
    readHexadecimal? (cs.map v.char) = readHexadecimal? cs := by
  unfold readHexadecimal?
  rw [readMantissa_map]
  rcases readMantissa 16 .empty cs with ⟨m, _ | ⟨c, es⟩⟩ <;> simp [readExponent?_map]

theorem separatorsFitAfter_map (hexadecimal : Bool) (b : Before) (cs : List Char) :
    separatorsFitAfter hexadecimal b (cs.map v.char) = separatorsFitAfter hexadecimal b cs := by
  induction cs generalizing b with
  | nil => rfl
  | cons c cs ih => simp [separatorsFitAfter, ih]

theorem separatorsFit_map (cs : List Char) : separatorsFit (cs.map v.char) = separatorsFit cs := by
  have hafter (ds : List Char) := separatorsFitAfter_map v false .other ds
  unfold separatorsFit
  rw [splitSign_map]
  rcases (splitSign cs).2 with _ | ⟨c, _ | ⟨m, ds⟩⟩
  · rfl
  · simpa using hafter [c]
  · by_cases hc : c = '0'
    · have hzero : v.char '0' = '0' := v.char_eq_self rfl
      have hdecimal := hafter ('0' :: m :: ds)
      simp only [List.map_cons, hzero] at hdecimal
      simp only [hc, List.map_cons, hzero, isBaseMark_char, char_beq_x, separatorsFitAfter_map,
        hdecimal]
    · have hzero : ¬ v.char c = '0' := by rwa [char_eq_iff v (by decide)]
      have hdecimal := hafter (c :: m :: ds)
      simpa [hc, hzero] using hdecimal

theorem readReal?_map (cs : List Char) : readReal? (cs.map v.char) = readReal? cs := by
  have hunderscore : (cs.map v.char).contains '_' = cs.contains '_' := by
    rw [Bool.eq_iff_iff]
    have hiff (c : Char) : v.char c = '_' ↔ c = '_' := char_eq_iff v (by decide)
    simp [hiff]
  unfold readReal?
  rw [hunderscore, separatorsFit_map, splitSign_map]
  split
  · rfl
  · rcases (splitSign cs).2 with _ | ⟨c, _ | ⟨x, _ | ⟨d, ds⟩⟩⟩
    · rfl
    · simpa using readDecimal?_map v [c]
    · simpa using readDecimal?_map v [c, x]
    · by_cases hc : c = '0'
      · have hzero : v.char '0' = '0' := v.char_eq_self rfl
        have hdecimal := readDecimal?_map v ('0' :: x :: d :: ds)
        have hhexadecimal := readHexadecimal?_map v (d :: ds)
        simp only [List.map_cons, hzero] at hdecimal hhexadecimal
        simp only [hc, List.map_cons, hzero, char_beq_x, hdecimal, hhexadecimal]
      · have hzero : ¬ v.char c = '0' := by rwa [char_eq_iff v (by decide)]
        have hdecimal := readDecimal?_map v (c :: x :: d :: ds)
        simpa [hc, hzero] using hdecimal

@[simp] theorem classifyReal_text (s : String) : classifyReal (v.text s) = classifyReal s := by
  have hlower (cs : List Char) : (cs.map v.char).map Char.toLower = cs.map Char.toLower := by
    simp
  have hinfinity (cs : List Char) : isInfinityName (cs.map v.char) = isInfinityName cs := by
    simp only [isInfinityName, splitSign_map, hlower]
  have hnan (cs : List Char) : isNanName (cs.map v.char) = isNanName cs := by
    simp only [isNanName, hlower]
  unfold classifyReal
  rw [View.toList_text]
  dsimp only
  rw [hinfinity, hnan, readReal?_map]

end PascalCheck.Numeral
