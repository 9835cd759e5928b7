import PascalCheck.Proofs.Encoding
import PascalCheck.Proofs.View.Basic

namespace PascalCheck
set_option autoImplicit true

def lowerByte (b : UInt8) : UInt8 :=
  if 'A'.toUInt8 ≤ b ∧ b ≤ 'Z'.toUInt8 then b + 0x20 else b

theorem lowerByte_cases (b : UInt8) : lowerByte b = b ∨
    ∃ n < 26, b = UInt8.ofNat (65 + n) ∧ lowerByte b = UInt8.ofNat (65 + n + 32) := by
  unfold lowerByte
  split
  · rename_i hb
    rw [UInt8.le_iff_toNat_le, UInt8.le_iff_toNat_le] at hb
    obtain ⟨hlow, hhigh⟩ : 65 ≤ b.toNat ∧ b.toNat ≤ 90 := hb
    have hself : 65 + (b.toNat - 65) = b.toNat := by omega
    refine .inr ⟨b.toNat - 65, by omega, ?_, ?_⟩
    · rw [hself, UInt8.ofNat_toNat]
    · rw [hself, UInt8.ofNat_add, UInt8.ofNat_toNat]
      rfl
  · exact .inl rfl

/-- Whatever does not tell the capitals from their lower case tells no byte from its lower case. -/
theorem apply_lowerByte {f : UInt8 → α}
    (h : ∀ n < 26, f (UInt8.ofNat (65 + n + 32)) = f (UInt8.ofNat (65 + n))) (b : UInt8) :
    f (lowerByte b) = f b := by
  rcases lowerByte_cases b with hb | ⟨n, hn, hb, hlower⟩
  · rw [hb]
  · rw [hlower, h n hn, ← hb]

theorem lowerByte_eq_self {p : UInt8 → Bool} (h : ∀ n < 26, p (UInt8.ofNat (65 + n)) = false)
    (hb : p b = true) : lowerByte b = b := by
  rcases lowerByte_cases b with hself | ⟨n, hn, rfl, -⟩
  · exact hself
  · rw [h n hn] at hb
    cases hb

theorem lowerByte_eq_iff {b c : UInt8}
    (h : ∀ n < 26, (UInt8.ofNat (65 + n + 32) == c) = (UInt8.ofNat (65 + n) == c)) :
    lowerByte b = c ↔ b = c := by
  have hbeq : (lowerByte b == c) = (b == c) := apply_lowerByte (f := (· == c)) h b
  rw [← beq_iff_eq, hbeq, beq_iff_eq]

@[simp] theorem isLetter_lowerByte (b : UInt8) :
    Lexeme.isLetter (lowerByte b) = Lexeme.isLetter b :=
  apply_lowerByte (by decide) b

@[simp] theorem isDigit_lowerByte (b : UInt8) : Lexeme.isDigit (lowerByte b) = Lexeme.isDigit b :=
  apply_lowerByte (by decide) b

@[simp] theorem isIllegal_lowerByte (b : UInt8) :
    Lexeme.isIllegal (lowerByte b) = Lexeme.isIllegal b :=
  apply_lowerByte (by decide) b

@[simp] theorem isSign_lowerByte (b : UInt8) : Lexeme.isSign (lowerByte b) = Lexeme.isSign b :=
  apply_lowerByte (by decide) b

@[simp] theorem isExponentMark_lowerByte (b : UInt8) :
    Lexeme.isExponentMark (lowerByte b) = Lexeme.isExponentMark b :=
  apply_lowerByte (by decide) b

@[simp] theorem isBlank_lowerByte (b : UInt8) : Filler.isBlank (lowerByte b) = Filler.isBlank b :=
  apply_lowerByte (by decide) b

@[simp] theorem isContinuation_lowerByte (b : UInt8) :
    Utf8.isContinuation (lowerByte b) = Utf8.isContinuation b :=
  apply_lowerByte (by decide) b

theorem lowerByte_of_foreign {b : UInt8} (h : 0x80 ≤ b) : lowerByte b = b := by
  have hclass : ∀ n < 26, decide (0x80 ≤ UInt8.ofNat (65 + n)) = false := by decide
  exact lowerByte_eq_self (p := fun b => 0x80 ≤ b) hclass (by simpa using h)

theorem ofUInt8_lowerByte (b : UInt8) : Char.ofUInt8 (lowerByte b) = (Char.ofUInt8 b).toLower := by
  by_cases hb : b.toNat < 128
  · have hascii : ∀ n < 128, Char.ofUInt8 (lowerByte (UInt8.ofNat n)) =
        (Char.ofUInt8 (UInt8.ofNat n)).toLower := by
      decide
    exact Utf8.of_forall_lt hb hascii
  · have hle : 0x80 ≤ b := UInt8.le_iff_toNat_le.2 (by simpa using hb)
    have hnat : (Char.ofUInt8 b).toNat = b.toNat := rfl
    rw [lowerByte_of_foreign hle, toLower_of_not_ascii (hnat ▸ Nat.le_of_not_lt hb)]

namespace Filler

def lower : Filler → Filler
  | .blank b => .blank (lowerByte b)
  | .braced body closed => .braced (body.map lowerByte) closed
  | .starred body closed => .starred (body.map lowerByte) closed
  | .quoted body closed => .quoted (body.map lowerByte) closed

theorem bytes_lower (f : Filler) : f.lower.bytes = f.bytes.map lowerByte := by
  cases f with
  | blank b => rfl
  | braced body closed =>
    have hopen : lowerByte leftBrace = leftBrace := rfl
    have hclose : lowerByte rightBrace = rightBrace := rfl
    cases closed <;> simp [lower, bytes, hopen, hclose]
  | starred body closed =>
    have hopen : lowerByte leftParen = leftParen := rfl
    have hstar : lowerByte star = star := rfl
    have hclose : lowerByte rightParen = rightParen := rfl
    cases closed <;> simp [lower, bytes, hopen, hstar, hclose]
  | quoted body closed =>
    have hquote : lowerByte quoteMark = quoteMark := rfl
    cases closed <;> simp [lower, bytes, hquote]

theorem allBytes_lower (fs : List Filler) :
    allBytes (fs.map lower) = (allBytes fs).map lowerByte := by
  simp [allBytes, List.flatMap_map, List.map_flatMap, bytes_lower]

theorem upTo_lower {close : UInt8} (hclose : ∀ b, lowerByte b = close ↔ b = close)
    (bs : List UInt8) :
    upTo close (bs.map lowerByte) =
      ((upTo close bs).1.map lowerByte, (upTo close bs).2.1,
        (upTo close bs).2.2.map lowerByte) := by
  induction bs with
  | nil => rfl
  | cons b bs ih =>
    simp only [List.map_cons, upTo, hclose]
    split
    · rfl
    · simp [ih]

theorem head?_lower {c : UInt8} (hc : ∀ b, lowerByte b = c ↔ b = c) (bs : List UInt8) :
    (bs.map lowerByte).head? = some c ↔ bs.head? = some c := by
  cases bs with
  | nil => simp
  | cons b bs => simp [hc]

theorem upToStar_lower (bs : List UInt8) :
    upToStar (bs.map lowerByte) =
      ((upToStar bs).1.map lowerByte, (upToStar bs).2.1, (upToStar bs).2.2.map lowerByte) := by
  have hstar (b : UInt8) : lowerByte b = star ↔ b = star := lowerByte_eq_iff (by decide)
  have hparen (b : UInt8) : lowerByte b = rightParen ↔ b = rightParen :=
    lowerByte_eq_iff (by decide)
  induction bs with
  | nil => rfl
  | cons b bs ih =>
    have hclose : lowerByte b = star ∧ (bs.map lowerByte).head? = some rightParen ↔
        b = star ∧ bs.head? = some rightParen := by
      rw [hstar, head?_lower hparen]
    simp only [List.map_cons, upToStar, hclose]
    split
    · simp
    · simp [ih]

theorem read?_lower (bs : List UInt8) :
    read? (bs.map lowerByte) = (read? bs).map fun x => (x.1.lower, x.2.map lowerByte) := by
  have hbrace (b : UInt8) : lowerByte b = leftBrace ↔ b = leftBrace := lowerByte_eq_iff (by decide)
  have hquote (b : UInt8) : lowerByte b = quoteMark ↔ b = quoteMark := lowerByte_eq_iff (by decide)
  have hparen (b : UInt8) : lowerByte b = leftParen ↔ b = leftParen := lowerByte_eq_iff (by decide)
  have hstar (b : UInt8) : lowerByte b = star ↔ b = star := lowerByte_eq_iff (by decide)
  have hclose (b : UInt8) : lowerByte b = rightBrace ↔ b = rightBrace :=
    lowerByte_eq_iff (by decide)
  cases bs with
  | nil => rfl
  | cons b bs =>
    simp only [List.map_cons, read?, isBlank_lowerByte, hbrace, hquote, hparen, head?_lower hstar,
      upTo_lower hclose, upTo_lower hquote, ← List.map_tail, upToStar_lower]
    split
    · rfl
    split
    · rfl
    split
    · rfl
    split
    · rfl
    · rfl

theorem run_lower (bs : List UInt8) :
    run (bs.map lowerByte) = ((run bs).1.map lower, (run bs).2.map lowerByte) := by
  fun_induction run bs with
  | case1 bs h =>
    have hread : read? (bs.map lowerByte) = none := by
      rw [read?_lower, h]
      rfl
    rw [run_of_none hread]
    rfl
  | case2 bs f rest h fs after hr ih =>
    have hread : read? (bs.map lowerByte) = some (f.lower, rest.map lowerByte) := by
      rw [read?_lower, h]
      rfl
    rw [run_of_some hread, ih, hr]
    rfl

end Filler

namespace Utf8

theorem le_of_sequence? (h : 0x80 ≤ a) (hs : sequence? (a :: bs) = some (v, w)) : 128 ≤ v := by
  obtain ⟨cs, rest, hbs, hcs, -⟩ := exists_encodes_of_sequence? hs
  exact hcs.le_of_high hbs.symm h

/-- A character outside ASCII is its own lower case. -/
theorem toLower_decode (h : 0x80 ≤ a) (bs : List UInt8) :
    (decode (a :: bs)).1.toLower = (decode (a :: bs)).1 := by
  rw [decode]
  split
  · rename_i v w hs
    have hv := le_of_sequence? h hs
    by_cases hvalid : v.isValidChar
    · apply toLower_of_not_ascii
      rw [Char.ofNat, dif_pos hvalid]
      exact hv
    · rw [Char.ofNat, dif_neg hvalid]
      rfl
  · rfl

end Utf8

namespace Lexeme

def lower (l : Lexeme) : Lexeme :=
  ⟨l.kind, View.caseless.text l.text, l.code, l.bytes.map lowerByte⟩

theorem spell_lower (bs : List UInt8) :
    spell (bs.map lowerByte) = View.caseless.text (spell bs) := by
  apply String.toList_injective
  simp only [spell, String.toList_ofList, View.toList_text, List.map_map]
  apply List.map_congr_left
  intro b _
  exact ofUInt8_lowerByte b

theorem lookup?_lower (bs : List UInt8) :
    Code.lookup? (spell (bs.map lowerByte)) = Code.lookup? (spell bs) := by
  rw [spell_lower, Code.lookup?, Code.lookup?, View.lower_text]

theorem takeWhile_lower {p : UInt8 → Bool} (h : ∀ b, p (lowerByte b) = p b) (bs : List UInt8) :
    (bs.map lowerByte).takeWhile p = (bs.takeWhile p).map lowerByte := by
  have hp : p ∘ lowerByte = p := funext h
  rw [List.takeWhile_map, hp]

theorem isWordByte_lower (b : UInt8) : isWordByte (lowerByte b) = isWordByte b := by
  simp [isWordByte]

theorem lowerByte_eq_point_iff (b : UInt8) : lowerByte b = '.'.toUInt8 ↔ b = '.'.toUInt8 :=
  lowerByte_eq_iff (by decide)

theorem fraction_lower (bs : List UInt8) :
    fraction (bs.map lowerByte) = (fraction bs).map lowerByte := by
  rcases bs with _ | ⟨p, _ | ⟨d, bs⟩⟩
  · rfl
  · rfl
  · simp only [List.map_cons, fraction, lowerByte_eq_point_iff, isDigit_lowerByte,
      takeWhile_lower isDigit_lowerByte]
    split <;> rfl

theorem signedDigits_lower (bs : List UInt8) :
    signedDigits (bs.map lowerByte) = (signedDigits bs).map lowerByte := by
  cases bs with
  | nil => rfl
  | cons s bs =>
    have hdigits := takeWhile_lower isDigit_lowerByte (s :: bs)
    rw [List.map_cons] at hdigits
    simp only [List.map_cons, signedDigits, isSign_lowerByte, takeWhile_lower isDigit_lowerByte,
      hdigits]
    split <;> rfl

theorem exponent_lower (bs : List UInt8) :
    exponent (bs.map lowerByte) = (exponent bs).map lowerByte := by
  cases bs with
  | nil => rfl
  | cons e bs =>
    simp only [List.map_cons, exponent, isExponentMark_lowerByte, signedDigits_lower]
    split <;> rfl

theorem numberBytes_lower (bs : List UInt8) :
    numberBytes (bs.map lowerByte) = (numberBytes bs).map lowerByte := by
  simp only [numberBytes, takeWhile_lower isDigit_lowerByte, List.length_map, ← List.map_drop,
    fraction_lower, ← List.map_append, exponent_lower]

theorem word_lower (bs : List UInt8) : word (bs.map lowerByte) = (word bs).lower := by
  unfold word
  rw [lookup?_lower, spell_lower]
  split <;> rfl

theorem number_lower (bs : List UInt8) : number (bs.map lowerByte) = (number bs).lower := by
  have hreal : isRealNumber (bs.map lowerByte) = isRealNumber bs := by
    have hmark (b : UInt8) : (lowerByte b == '.'.toUInt8 || isExponentMark (lowerByte b)) =
        (b == '.'.toUInt8 || isExponentMark b) :=
      apply_lowerByte (f := fun b => b == '.'.toUInt8 || isExponentMark b) (by decide) b
    simp only [isRealNumber, List.any_map, Function.comp_def, hmark]
  unfold number lower
  rw [hreal, spell_lower]

theorem map_lowerByte_of_high {bs : List UInt8} (h : ∀ b ∈ bs, Utf8.isHigh b = true) :
    bs.map lowerByte = bs := by
  rw [List.map_congr_left fun b hb => lowerByte_of_foreign (by simpa [Utf8.isHigh] using h b hb)]
  exact List.map_id' bs

theorem foreign_lower (h : 0x80 ≤ b) (bs : List UInt8) :
    foreign ((b :: bs).map lowerByte) = (foreign (b :: bs)).lower := by
  have hhigh : (bs.takeWhile Utf8.isHigh).map lowerByte = bs.takeWhile Utf8.isHigh :=
    map_lowerByte_of_high (List.all_eq_true.1 List.all_takeWhile)
  have hself : (foreign (b :: bs.takeWhile Utf8.isHigh)).lower =
      foreign (b :: bs.takeWhile Utf8.isHigh) := by
    have htext : View.caseless.text (Utf8.decode (b :: bs.takeWhile Utf8.isHigh)).1.toString =
        (Utf8.decode (b :: bs.takeWhile Utf8.isHigh)).1.toString := by
      apply View.text_eq_self
      simp [Utf8.toLower_decode h]
    simp only [foreign, lower, htext, List.map_take, List.map_cons, lowerByte_of_foreign h, hhigh]
  have hbytes : (bs.map lowerByte).takeWhile Utf8.isHigh = bs.takeWhile Utf8.isHigh :=
    (takeWhile_lower (apply_lowerByte (by decide)) bs).trans hhigh
  rw [List.map_cons, lowerByte_of_foreign h, ← foreign_takeWhile b (bs.map lowerByte), hbytes,
    ← foreign_takeWhile b bs, hself]

theorem operator_lower (bs : List UInt8) : operator (bs.map lowerByte) = (operator bs).lower := by
  have hcolon : bs.map lowerByte = [':'.toUInt8] ↔ bs = [':'.toUInt8] := by
    have hbyte (b : UInt8) : lowerByte b = ':'.toUInt8 ↔ b = ':'.toUInt8 :=
      lowerByte_eq_iff (by decide)
    rcases bs with _ | ⟨b, _ | ⟨c, bs⟩⟩ <;> simp [hbyte]
  unfold operator
  rw [lookup?_lower, spell_lower]
  simp only [hcolon]
  split <;> rfl

theorem operatorBytes_lower (b : UInt8) (bs : List UInt8) :
    operatorBytes (lowerByte b) (bs.map lowerByte) = (operatorBytes b bs).map lowerByte := by
  cases bs with
  | nil => rfl
  | cons c bs =>
    have hpair : Code.lookup? (spell [lowerByte b, lowerByte c]) = Code.lookup? (spell [b, c]) :=
      lookup?_lower [b, c]
    simp only [List.map_cons, operatorBytes, hpair]
    split <;> rfl

theorem read_lower (b : UInt8) (bs : List UInt8) :
    read (lowerByte b) (bs.map lowerByte) = (read b bs).lower := by
  have hpoint : (lowerByte b == '.'.toUInt8) = (b == '.'.toUInt8) :=
    apply_lowerByte (f := (· == '.'.toUInt8)) (by decide) b
  have hfollows : digitFollows (bs.map lowerByte) = digitFollows bs := by
    cases bs <;> simp [digitFollows]
  have hforeign : 0x80 ≤ lowerByte b ↔ 0x80 ≤ b := by
    have hclass := apply_lowerByte (f := fun b : UInt8 => decide (0x80 ≤ b)) (by decide) b
    simpa using hclass
  have hword : lowerByte b :: (bs.map lowerByte).takeWhile isWordByte =
      (b :: bs.takeWhile isWordByte).map lowerByte := by
    rw [takeWhile_lower isWordByte_lower, List.map_cons]
  have hnumber : numberBytes (lowerByte b :: bs.map lowerByte) =
      (numberBytes (b :: bs)).map lowerByte := numberBytes_lower (b :: bs)
  unfold read
  rw [isIllegal_lowerByte, isLetter_lowerByte, isDigit_lowerByte, hpoint, hfollows, hword, hnumber,
    word_lower, number_lower, operatorBytes_lower, operator_lower]
  simp only [hforeign]
  split
  · simp only [illegal, lower, List.map_cons, List.map_nil, ← spell_lower]
  split
  · rfl
  split
  · rfl
  split
  · exact foreign_lower ‹_› bs
  · rfl

end Lexeme

namespace Layout

def lower (l : Layout) : Layout where
  pieces := l.pieces.map fun piece => (piece.1.map Filler.lower, piece.2.lower)
  tail := l.tail.map Filler.lower

theorem ofBytes_lower (bs : List UInt8) : ofBytes (bs.map lowerByte) = (ofBytes bs).lower := by
  fun_induction ofBytes bs with
  | case1 bs fs h =>
    have hrun := Filler.run_lower bs
    rw [h] at hrun
    rw [ofBytes_of_nil (by rw [hrun]; rfl), hrun]
    rfl
  | case2 bs fs b rest h lexeme layout ih =>
    have hrun := Filler.run_lower bs
    rw [h] at hrun
    have hdrop : (lowerByte b :: rest.map lowerByte).drop lexeme.lower.bytes.length =
        ((b :: rest).drop lexeme.bytes.length).map lowerByte := by
      rw [List.map_drop, Lexeme.lower, List.length_map]
      rfl
    have hread : Lexeme.read (lowerByte b) (rest.map lowerByte) = lexeme.lower :=
      Lexeme.read_lower b rest
    rw [ofBytes_of_cons (by rw [hrun]; rfl), hrun, hread, hdrop, ih]
    rfl

theorem after_lower (p : Position) (bs : List UInt8) : p.after (bs.map lowerByte) = p.after bs := by
  have hstep (p : Position) (b : UInt8) : p.step (lowerByte b) = p.step b := by
    have hnewline : lowerByte b = '\n'.toUInt8 ↔ b = '\n'.toUInt8 := lowerByte_eq_iff (by decide)
    simp only [Position.step, hnewline, isContinuation_lowerByte]
  induction bs generalizing p with
  | nil => rfl
  | cons b bs ih => rw [List.map_cons, Position.after_cons, Position.after_cons, hstep, ih]

theorem tokensFrom_lower (p : Position) (pieces : List (List Filler × Lexeme)) :
    tokensFrom p (pieces.map fun piece => (piece.1.map Filler.lower, piece.2.lower)) =
      (tokensFrom p pieces).map (Token.view .caseless) := by
  induction pieces generalizing p with
  | nil => rfl
  | cons piece pieces ih =>
    have hbytes : piece.2.lower.bytes = piece.2.bytes.map lowerByte := rfl
    simp only [List.map_cons, tokensFrom, Filler.allBytes_lower, after_lower, hbytes, ih]
    rfl

theorem flatMap_pieceBytes_lower (pieces : List (List Filler × Lexeme)) :
    (pieces.map fun piece => (piece.1.map Filler.lower, piece.2.lower)).flatMap pieceBytes =
      (pieces.flatMap pieceBytes).map lowerByte := by
  simp [List.flatMap_map, List.map_flatMap, pieceBytes, Filler.allBytes_lower, Lexeme.lower]

end Layout

theorem Filler.openQuoteLine?_lower (p : Position) (fs : List Filler) :
    openQuoteLine? p (fs.map lower) = openQuoteLine? p fs := by
  induction fs generalizing p with
  | nil => rfl
  | cons f fs ih =>
    have hafter : p.after f.lower.bytes = p.after f.bytes := by
      rw [bytes_lower, Layout.after_lower]
    cases f with
    | quoted body closed =>
      cases closed with
      | false => rfl
      | true => exact (congrArg (openQuoteLine? · (fs.map lower)) hafter).trans (ih _)
    | _ => exact (congrArg (openQuoteLine? · (fs.map lower)) hafter).trans (ih _)

/-- The scan of a source in lower case is the scan of the source without the case of letters. -/
theorem Scan.ofBytes_lower (bs : List UInt8) :
    ofBytes (bs.map lowerByte) = (ofBytes bs).view .caseless := by
  have hplace : (Layout.ofBytes bs).lower.tailPlace = (Layout.ofBytes bs).tailPlace := by
    unfold Layout.tailPlace Layout.lower
    rw [Layout.flatMap_pieceBytes_lower, Layout.after_lower]
  rw [ofBytes, Layout.ofBytes_lower, ofLayout, hplace]
  simp only [Layout.lower, Layout.tokensFrom_lower, Filler.allBytes_lower, Layout.after_lower,
    Filler.openQuoteLine?_lower]
  rw [view, View.filter_shows rfl]
  rfl

end PascalCheck
