import Mathlib.Logic.Relation
import PascalCheck.Proofs.Blanking
import PascalCheck.Proofs.Spans

namespace PascalCheck
set_option autoImplicit true

def utf8 (text : String) : List UInt8 := text.toUTF8.toList

theorem utf8_eq (text : String) : utf8 text = text.toList.flatMap String.utf8EncodeChar := by
  rw [← toList_toUTF8, String.ofList_toList]
  rfl

@[simp] theorem utf8_append (s t : String) : utf8 (s ++ t) = utf8 s ++ utf8 t := by
  simp [utf8_eq]

namespace Lexeme

def ofText (text : String) : Lexeme :=
  match utf8 text with
  | [] => ⟨.endOfInput, "", Code.endOfInput, []⟩
  | b :: bs => read b bs

theorem ofText_of_utf8 {s : String} (h : utf8 s = b :: bs) : ofText s = read b bs := by
  simp only [ofText, h]

/-- In front of the bytes a text is one lexeme, the same as alone. -/
structure EndsBefore (text : String) (rest : List UInt8) : Prop where
  whole : (ofText text).bytes = utf8 text
  starts : ∃ b bs, utf8 text = b :: bs ∧ read b (bs ++ rest) = ofText text ∧
    Filler.read? (b :: (bs ++ rest)) = none

def IsWord (text : String) : Prop :=
  ∃ b bs, text = spell (b :: bs) ∧ isLetter b = true ∧ ∀ c ∈ bs, isWordByte c = true

def EndsWord (rest : List UInt8) : Prop := ∀ b ∈ rest.head?, isWordByte b = false

theorem endsWord_nil : EndsWord [] := by simp [EndsWord]

theorem takeWhile_append_of_head {p : UInt8 → Bool} {bs rest : List UInt8}
    (hbs : ∀ b ∈ bs, p b = true)
    (hrest : ∀ b ∈ rest.head?, p b = false) : (bs ++ rest).takeWhile p = bs := by
  rw [List.takeWhile_append_of_pos hbs]
  cases rest with
  | nil => simp
  | cons b rest => simp [hrest b rfl]

theorem read_of_isLetter (hb : isLetter b = true) (bs : List UInt8) :
    read b bs = word (b :: bs.takeWhile isWordByte) := by
  have hlegal : ∀ b : UInt8, isLetter b = true → isIllegal b = false := by grind
  rw [read, hlegal b hb, if_neg Bool.false_ne_true, if_pos hb]

theorem read_word (hb : isLetter b = true) (hbs : ∀ c ∈ bs, isWordByte c = true)
    (hrest : EndsWord rest) : read b (bs ++ rest) = word (b :: bs) := by
  rw [read_of_isLetter hb, takeWhile_append_of_head hbs hrest]

theorem utf8_word (hb : isLetter b = true) (hbs : ∀ c ∈ bs, isWordByte c = true) :
    utf8 (spell (b :: bs)) = b :: bs := by
  apply toList_spell
  intro c hc
  rcases List.mem_cons.1 hc with rfl | hc
  · exact ascii_of_isWordByte c (by simp [isWordByte, hb])
  · exact ascii_of_isWordByte c (hbs c hc)

theorem ofText_word (hb : isLetter b = true) (hbs : ∀ c ∈ bs, isWordByte c = true) :
    ofText (spell (b :: bs)) = word (b :: bs) := by
  have halone := read_word hb hbs endsWord_nil
  rw [List.append_nil] at halone
  rw [ofText_of_utf8 (utf8_word hb hbs), halone]

theorem IsWord.endsBefore {s : String} (h : IsWord s) (hrest : EndsWord rest) :
    EndsBefore s rest := by
  obtain ⟨b, bs, rfl, hb, hbs⟩ := h
  have hfiller : ∀ b : UInt8, isLetter b = true → Filler.starts b = false := by grind
  refine ⟨?_, b, bs, utf8_word hb hbs, ?_, ?_⟩
  · rw [ofText_word hb hbs, utf8_word hb hbs, bytes_word]
  · rw [ofText_word hb hbs, read_word hb hbs hrest]
  · exact Filler.read?_of_not_starts (hfiller b hb) _

theorem isWord_of_mem {s : String}
    (h : s ∈ ["program", "var", "integer", "real", "begin", "end", "writeln"]) : IsWord s := by
  have hall : ∀ s ∈ ["program", "var", "integer", "real", "begin", "end", "writeln"],
      s = spell (utf8 s) ∧ (utf8 s).head?.any isLetter = true ∧
        (utf8 s).all isWordByte = true := by
    decide +kernel
  obtain ⟨hspell, hletter, hword⟩ := hall s h
  cases hbytes : utf8 s with
  | nil => simp [hbytes] at hletter
  | cons b bs =>
    rw [hbytes] at hspell hletter hword
    refine ⟨b, bs, hspell, by simpa using hletter, ?_⟩
    intro c hc
    exact List.all_eq_true.1 hword c (List.mem_cons_of_mem b hc)

theorem isWord_of_isLetter (hb : isLetter b = true) (bs : List UInt8) :
    IsWord (read b bs).text ∧ ofText (read b bs).text = read b bs := by
  have hread := read_of_isLetter hb bs
  have hbs : ∀ c ∈ bs.takeWhile isWordByte, isWordByte c = true :=
    List.all_eq_true.1 List.all_takeWhile
  have htext : (read b bs).text = spell (b :: bs.takeWhile isWordByte) := by
    rw [hread]
    unfold word
    split <;> rfl
  rw [htext, ofText_word hb hbs, hread]
  exact ⟨⟨b, _, rfl, hb, hbs⟩, rfl⟩

theorem isWord_of_ident (h : (read b bs).kind = .ident) :
    IsWord (read b bs).text ∧ ofText (read b bs).text = read b bs := by
  have hread := readAs_read b bs
  generalize hl : read b bs = l at h hread
  cases hread with
  | word hb =>
    rw [← hl]
    exact isWord_of_isLetter hb bs
  | operator _ _ => rcases kind_operator (operatorBytes b bs) with hk | hk <;> simp [hk] at h
  | _ => cases h

def EndsNumber (rest : List UInt8) : Prop :=
  ∀ b ∈ rest.head?, isWordByte b = false ∧ b ≠ '.'.toUInt8 ∧ isSign b = false

theorem endsNumber_nil : EndsNumber [] := by simp [EndsNumber]

theorem EndsNumber.endsWord (h : EndsNumber rest) : EndsWord rest := fun b hb => (h b hb).1

theorem not_isDigit_of_not_isWordByte (h : isWordByte b = false) : isDigit b = false := by
  rw [isWordByte, Bool.or_eq_false_iff] at h
  exact h.2

theorem EndsNumber.digit (h : EndsNumber rest) : ∀ b ∈ rest.head?, isDigit b = false :=
  fun b hb => not_isDigit_of_not_isWordByte (h b hb).1

theorem EndsNumber.mark (h : EndsNumber rest) : ∀ b ∈ rest.head?, isExponentMark b = false := by
  have hmark : ∀ b : UInt8, isWordByte b = false → isExponentMark b = false := by
    grind
  exact fun b hb => hmark b (h b hb).1

theorem head?_fraction_append (hrest : ∀ b ∈ rest.head?, isDigit b = false) :
    ∀ b ∈ (fraction bs ++ rest).head?, isDigit b = false := by
  unfold fraction
  split
  · split
    · rename_i p d bs h
      intro b hb
      obtain rfl : p = b := by simpa using hb
      rw [h.1]
      rfl
    · exact hrest
  · exact hrest

theorem head?_exponent_append (hrest : EndsNumber rest) :
    ∀ b ∈ (exponent bs ++ rest).head?, isDigit b = false ∧ b ≠ '.'.toUInt8 := by
  have hmark : ∀ b : UInt8, isExponentMark b = true → isDigit b = false ∧ b ≠ '.'.toUInt8 := by
    grind [toUInt8_point]
  unfold exponent
  split
  · exact fun b hb => ⟨hrest.digit b hb, (hrest b hb).2.1⟩
  · split
    · rename_i e bs h
      intro b hb
      obtain rfl : e = b := by simpa using hb
      exact hmark e h
    · exact fun b hb => ⟨hrest.digit b hb, (hrest b hb).2.1⟩

theorem fraction_of_head (h : ∀ b ∈ bs.head?, b ≠ '.'.toUInt8) : fraction bs = [] := by
  unfold fraction
  split
  · rename_i p d bs
    rw [if_neg fun hp => h p rfl hp.1]
  · rfl

theorem fraction_append
    (hrest : ∀ b ∈ rest.head?, isDigit b = false ∧ b ≠ '.'.toUInt8) (bs : List UInt8) :
    fraction (fraction bs ++ rest) = fraction bs := by
  have hnone : fraction rest = [] := fraction_of_head fun b hb => (hrest b hb).2
  rw [fraction.eq_def bs]
  split
  · split
    · rename_i p d bs h
      have hdigits : (bs.takeWhile isDigit ++ rest).takeWhile isDigit = bs.takeWhile isDigit :=
        takeWhile_append_of_head (List.all_eq_true.1 List.all_takeWhile)
          fun b hb => (hrest b hb).1
      rw [List.cons_append, List.cons_append, fraction, if_pos h, hdigits]
    · exact hnone
  · exact hnone

theorem signedDigits_append (hrest : EndsNumber rest) (bs : List UInt8) :
    signedDigits (signedDigits bs ++ rest) = signedDigits bs := by
  have hdigits (bs : List UInt8) :
      (bs.takeWhile isDigit ++ rest).takeWhile isDigit = bs.takeWhile isDigit :=
    takeWhile_append_of_head (List.all_eq_true.1 List.all_takeWhile) hrest.digit
  have hunsigned (cs : List UInt8) (hcs : ∀ c ∈ cs.head?, isSign c = false) :
      signedDigits cs = cs.takeWhile isDigit := by
    cases cs with
    | nil => rfl
    | cons c cs => rw [signedDigits, hcs c rfl]; rfl
  have hsign : ∀ b : UInt8, isDigit b = true → isSign b = false := by grind
  rw [signedDigits.eq_def bs]
  split
  · rw [List.nil_append, hunsigned rest fun b hb => (hrest b hb).2.2]
    exact hdigits []
  · rename_i s bs
    split
    · rename_i h
      rw [List.cons_append, signedDigits, if_pos h, hdigits]
    · -- Without a sign the digits come first, or there are none.
      rw [hunsigned _ ?_, hdigits]
      intro b hb
      cases hfront : (s :: bs).takeWhile isDigit with
      | nil =>
        rw [hfront] at hb
        exact (hrest b hb).2.2
      | cons d ds =>
        rw [hfront] at hb
        obtain rfl : d = b := by simpa using hb
        have hd : d ∈ (s :: bs).takeWhile isDigit := by simp [hfront]
        exact hsign d (List.all_eq_true.1 List.all_takeWhile d hd)

theorem exponent_append (hrest : EndsNumber rest) (bs : List UInt8) :
    exponent (exponent bs ++ rest) = exponent bs := by
  have hnone : exponent rest = [] := by
    cases rest with
    | nil => rfl
    | cons b rest => rw [exponent, hrest.mark b rfl]; rfl
  rw [exponent.eq_def bs]
  split
  · exact hnone
  · split
    · rename_i e bs h
      rw [List.cons_append, exponent, if_pos h, signedDigits_append hrest]
    · exact hnone

theorem numberBytes_append (hrest : EndsNumber rest) (bs : List UInt8) :
    numberBytes (numberBytes bs ++ rest) = numberBytes bs := by
  rw [numberBytes.eq_def bs]
  dsimp only
  generalize hwhole : bs.takeWhile isDigit = whole
  generalize bs.drop whole.length = cs
  generalize bs.drop (whole ++ fraction cs).length = ds
  have hdigits : ∀ b ∈ whole, isDigit b = true := by
    rw [← hwhole]
    exact List.all_eq_true.1 List.all_takeWhile
  have hexponent : ∀ b ∈ (exponent ds ++ rest).head?, isDigit b = false ∧ b ≠ '.'.toUInt8 :=
    head?_exponent_append hrest
  have hfront : ((whole ++ fraction cs ++ exponent ds) ++ rest).takeWhile isDigit = whole := by
    rw [List.append_assoc, List.append_assoc]
    exact takeWhile_append_of_head hdigits
      (head?_fraction_append fun b hb => (hexponent b hb).1)
  have hpart : fraction (((whole ++ fraction cs ++ exponent ds) ++ rest).drop whole.length) =
      fraction cs := by
    rw [List.append_assoc, List.append_assoc, List.drop_left]
    exact fraction_append hexponent cs
  have hlast : exponent
      (((whole ++ fraction cs ++ exponent ds) ++ rest).drop (whole ++ fraction cs).length) =
      exponent ds := by
    rw [List.append_assoc, List.drop_left]
    exact exponent_append hrest ds
  simp only [numberBytes, hfront, hpart, hlast]

def IsNumber (text : String) : Prop :=
  ∃ b bs, text = spell (b :: bs) ∧ numberBytes (b :: bs) = b :: bs ∧
    (isDigit b || (b == '.'.toUInt8 && digitFollows bs)) = true

theorem digitFollows_append (h : digitFollows bs = true) (rest : List UInt8) :
    digitFollows (bs ++ rest) = true := by
  cases bs with
  | nil => cases h
  | cons b bs => exact h

theorem read_number (hstart : (isDigit b || (b == '.'.toUInt8 && digitFollows bs)) = true)
    (hbytes : numberBytes (b :: bs) = b :: bs) (hrest : EndsNumber rest) :
    read b (bs ++ rest) = number (b :: bs) := by
  have hclass : ∀ b : UInt8, isDigit b = true ∨ b = '.'.toUInt8 →
      isIllegal b = false ∧ isLetter b = false := by
    grind [toUInt8_point]
  have hfront : (isDigit b || (b == '.'.toUInt8 && digitFollows (bs ++ rest))) = true := by
    rw [Bool.or_eq_true, Bool.and_eq_true] at hstart ⊢
    exact hstart.imp id fun h => ⟨h.1, digitFollows_append h.2 rest⟩
  have hb : isDigit b = true ∨ b = '.'.toUInt8 := by
    rw [Bool.or_eq_true, Bool.and_eq_true, beq_iff_eq] at hstart
    exact hstart.imp id And.left
  have hagain := numberBytes_append hrest (b :: bs)
  rw [hbytes] at hagain
  rw [read, (hclass b hb).1, (hclass b hb).2, hfront, ← List.cons_append, hagain]
  rfl

theorem utf8_number (hbytes : numberBytes (b :: bs) = b :: bs) :
    utf8 (spell (b :: bs)) = b :: bs := by
  rw [← hbytes]
  exact toList_spell (ascii_numberBytes _)

theorem ofText_number (hstart : (isDigit b || (b == '.'.toUInt8 && digitFollows bs)) = true)
    (hbytes : numberBytes (b :: bs) = b :: bs) : ofText (spell (b :: bs)) = number (b :: bs) := by
  have halone := read_number hstart hbytes endsNumber_nil
  rw [List.append_nil] at halone
  rw [ofText_of_utf8 (utf8_number hbytes), halone]

theorem IsNumber.endsBefore {s : String} (h : IsNumber s) (hrest : EndsNumber rest) :
    EndsBefore s rest := by
  obtain ⟨b, bs, rfl, hbytes, hstart⟩ := h
  have hfiller : ∀ b : UInt8, isDigit b = true ∨ b = '.'.toUInt8 → Filler.starts b = false := by
    grind [toUInt8_point]
  have hb : isDigit b = true ∨ b = '.'.toUInt8 := by
    rw [Bool.or_eq_true, Bool.and_eq_true, beq_iff_eq] at hstart
    exact hstart.imp id And.left
  refine ⟨?_, b, bs, utf8_number hbytes, ?_, ?_⟩
  · rw [ofText_number hstart hbytes, utf8_number hbytes]
    rfl
  · rw [ofText_number hstart hbytes, read_number hstart hbytes hrest]
  · exact Filler.read?_of_not_starts (hfiller b hb) _

theorem isNumber_of_number (h : (read b bs).kind = .number) :
    IsNumber (read b bs).text ∧ ofText (read b bs).text = read b bs := by
  obtain ⟨hread, hstart⟩ := read_of_number h
  have hagain := numberBytes_append endsNumber_nil (b :: bs)
  rw [List.append_nil] at hagain
  obtain ⟨cs, hcs⟩ : ∃ cs, numberBytes (b :: bs) = b :: cs := by
    obtain ⟨after, hfront⟩ := numberBytes_front (b :: bs)
    cases hbytes : numberBytes (b :: bs) with
    | nil => exact absurd hbytes (numberBytes_ne_nil hstart)
    | cons c cs =>
      rw [hbytes] at hfront
      obtain ⟨rfl, -⟩ := List.cons.inj hfront
      exact ⟨cs, rfl⟩
  have hfollows : (isDigit b || (b == '.'.toUInt8 && digitFollows cs)) = true := by
    rw [Bool.or_eq_true, Bool.and_eq_true] at hstart ⊢
    rcases hstart with hd | ⟨hpoint, hdigit⟩
    · exact .inl hd
    refine .inr ⟨hpoint, ?_⟩
    obtain rfl : b = '.'.toUInt8 := by simpa using hpoint
    cases bs with
    | nil => cases hdigit
    | cons d bs =>
      -- A point in front is followed by the digit that makes it a number.
      have hd : isDigit d = true := hdigit
      have hpart : numberBytes ('.'.toUInt8 :: d :: bs) =
          '.'.toUInt8 :: d :: (bs.takeWhile isDigit ++
            exponent (bs.drop (bs.takeWhile isDigit).length)) := by
        simp [numberBytes, fraction, hd, show isDigit '.'.toUInt8 = false from rfl]
      rw [hpart] at hcs
      obtain ⟨-, rfl⟩ := List.cons.inj hcs
      exact hd
  rw [hcs] at hagain
  have htext : (read b bs).text = spell (b :: cs) := by
    rw [hread, number, hcs]
  rw [htext, ofText_number hfollows hagain, hread, hcs]
  exact ⟨⟨b, cs, rfl, hagain, hfollows⟩, rfl⟩

def markBytes : List UInt8 := [0x28, 0x29, 0x2C, 0x2D, 0x3A, 0x3B]

theorem mem_markBytes :
    b ∈ markBytes ↔ b = 0x28 ∨ b = 0x29 ∨ b = 0x2C ∨ b = 0x2D ∨ b = 0x3A ∨ b = 0x3B := by
  simp [markBytes]

/-- The bytes go on with no mark: no star makes a comment of a parenthesis, and no equals sign an
assignment of a colon. -/
def EndsMark (rest : List UInt8) : Prop := ∀ b ∈ rest.head?, b ≠ Filler.star ∧ b ≠ '='.toUInt8

theorem eq_of_lowerChar (h : Text.lowerChar (Char.ofUInt8 c) = '*' ∨
    Text.lowerChar (Char.ofUInt8 c) = '=') : c = Filler.star ∨ c = '='.toUInt8 := by
  cases hc : Utf8.isHigh c with
  | true =>
    have hhigh := le_lowerChar_of_high hc
    rcases h with h | h <;> simp [h] at hhigh
  | false =>
    have hascii := Utf8.toNat_lt_of_ascii hc
    have hall : ∀ n < 128, (Char.ofUInt8 (UInt8.ofNat n)).toLower = '*' ∨
        (Char.ofUInt8 (UInt8.ofNat n)).toLower = '=' →
        UInt8.ofNat n = Filler.star ∨ UInt8.ofNat n = '='.toUInt8 := by
      decide +kernel
    rw [Text.lowerChar_of_ascii (c := Char.ofUInt8 c) hascii] at h
    exact Utf8.of_forall_lt hascii hall h

theorem lookup?_pair (hb : b ∈ markBytes) (hc : c ≠ Filler.star ∧ c ≠ '='.toUInt8) :
    Code.lookup? (spell [b, c]) = none := by
  have htable : ∀ entry ∈ Code.table, ∀ b ∈ markBytes, entry.1.toList.length = 2 →
      entry.1.toList.head? = some (Text.lowerChar (Char.ofUInt8 b)) →
      entry.1.toList.getLast? = some '*' ∨ entry.1.toList.getLast? = some '=' := by
    decide +kernel
  rw [Code.lookup?_eq_none_iff]
  intro hlists
  obtain ⟨entry, hentry, hlist⟩ := exists_chars_of_lists hlists
  have hpair := htable entry hentry b hb (by simp [hlist]) (by simp [hlist])
  rcases eq_of_lowerChar (c := c) (by simpa [hlist] using hpair) with hc' | hc'
  · exact hc.1 hc'
  · exact hc.2 hc'

theorem read_mark (hb : b ∈ markBytes) (hrest : EndsMark rest) : read b rest = operator [b] := by
  have hclass : ∀ b ∈ markBytes, isIllegal b = false ∧ isLetter b = false ∧ isDigit b = false ∧
      (b == '.'.toUInt8) = false ∧ ¬ 0x80 ≤ b := by
    intro b hb
    rcases mem_markBytes.1 hb with rfl | rfl | rfl | rfl | rfl | rfl <;> decide
  obtain ⟨hillegal, hletter, hdigit, hpoint, hascii⟩ := hclass b hb
  have hbytes : operatorBytes b rest = [b] := by
    cases rest with
    | nil => rfl
    | cons c rest => rw [operatorBytes, lookup?_pair hb (hrest c rfl)]; rfl
  rw [read, hillegal, hletter, hdigit, hpoint, if_neg hascii, hbytes]
  rfl

theorem endsBefore_mark {s : String} (hs : s ∈ ["(", ")", ",", "-", ":", ";"])
    (hrest : EndsMark rest) : EndsBefore s rest := by
  have hbytes : ∀ s ∈ ["(", ")", ",", "-", ":", ";"], ∃ b ∈ markBytes, utf8 s = [b] := by
    decide +kernel
  have hfiller : ∀ b ∈ markBytes, Filler.isBlank b = false ∧ b ≠ Filler.leftBrace ∧
      b ≠ Filler.quoteMark := by
    intro b hb
    rcases mem_markBytes.1 hb with rfl | rfl | rfl | rfl | rfl | rfl <;> decide
  obtain ⟨b, hb, hutf8⟩ := hbytes s hs
  have htext : ofText s = operator [b] := by
    rw [ofText_of_utf8 hutf8, read_mark hb (by simp [EndsMark])]
  refine ⟨?_, b, [], hutf8, ?_, ?_⟩
  · rw [htext, hutf8, bytes_operator]
  · rw [htext, List.nil_append, read_mark hb hrest]
  · obtain ⟨hblank, hbrace, hquote⟩ := hfiller b hb
    have hstar : rest.head? ≠ some Filler.star := fun h => (hrest _ h).1 rfl
    exact (Filler.read?_eq_none_iff b _).2 ⟨hblank, hbrace, hquote, fun h => hstar h.2⟩

theorem endsBefore_assign (rest : List UInt8) : EndsBefore ":=" rest := by
  have hutf8 : utf8 ":=" = [0x3A, 0x3D] := by
    rw [utf8_eq]
    rfl
  have hread (rest : List UInt8) : read 0x3A (0x3D :: rest) = operator [0x3A, 0x3D] := by
    have hlisted : (Code.lookup? (spell [0x3A, 0x3D])).isSome = true := by decide
    rw [read, operatorBytes, if_pos hlisted]
    rfl
  have htext : ofText ":=" = operator [0x3A, 0x3D] := by rw [ofText_of_utf8 hutf8, hread]
  refine ⟨?_, 0x3A, [0x3D], hutf8, ?_, rfl⟩
  · rw [htext, hutf8, bytes_operator]
  · rw [htext, List.singleton_append, hread]

theorem endsBefore_point : EndsBefore "." [] := by
  have hutf8 : utf8 "." = [0x2E] := by
    rw [utf8_eq]
    rfl
  refine ⟨?_, 0x2E, [], hutf8, ?_, rfl⟩
  · rw [ofText_of_utf8 hutf8, hutf8]
    rfl
  · rw [ofText_of_utf8 hutf8, List.nil_append]

end Lexeme

def Token.Spells (t : Token) (s : String) : Prop := ∃ p, t = Layout.token p (Lexeme.ofText s)

/-- The first tokens start with the token of a text and go on with the second. -/
def Heads (s : String) (ts us : List Token) : Prop := ∃ t, t.Spells s ∧ ts = t :: us

/-- In front of others the bytes are scanned, from any place, to tokens that stand in a relation to
those of the others, and leave no string open. -/
def Scans (W : List Token → List Token → Prop) (bs rest : List UInt8) : Prop :=
  ∀ p, ∃ q, W (Layout.tokensFrom p (Layout.ofBytes (bs ++ rest)).pieces)
      (Layout.tokensFrom q (Layout.ofBytes rest).pieces) ∧
    Layout.openQuoteFrom p (Layout.ofBytes (bs ++ rest)) =
      Layout.openQuoteFrom q (Layout.ofBytes rest)

namespace Scans

theorem mono (h : Scans W bs rest) (hW : ∀ ts us, W ts us → W' ts us) : Scans W' bs rest := by
  intro p
  obtain ⟨q, htokens, hquote⟩ := h p
  exact ⟨q, hW _ _ htokens, hquote⟩

theorem nil (rest : List UInt8) : Scans Eq [] rest := fun p => ⟨p, rfl, rfl⟩

theorem trans (h : Scans W bs (cs ++ rest)) (k : Scans W' cs rest) :
    Scans (Relation.Comp W W') (bs ++ cs) rest := by
  intro p
  obtain ⟨q, htokens, hquote⟩ := h p
  obtain ⟨q', htokens', hquote'⟩ := k q
  rw [List.append_assoc]
  exact ⟨q', ⟨_, htokens, htokens'⟩, hquote.trans hquote'⟩

theorem blank (h : Scans W bs rest) (b : UInt8) (hb : Filler.isBlank b = true) :
    Scans W (b :: bs) rest := by
  intro p
  have hread : Filler.read? (b :: (bs ++ rest)) = some (.blank b, bs ++ rest) := by
    simp [Filler.read?, hb]
  have hbytes : Layout.ofBytes (b :: (bs ++ rest)) =
      (Layout.ofBytes (bs ++ rest)).prepend [.blank b] :=
    Layout.ofBytes_of_run (Filler.run_of_some hread)
  have hclosed : ∀ f ∈ [Filler.blank b], f.closed = true := by simp [Filler.closed]
  rw [List.cons_append, hbytes, Layout.tokensFrom_prepend, Layout.openQuoteFrom_prepend hclosed]
  exact h _

theorem text {s : String} (h : Lexeme.EndsBefore s rest) : Scans (Heads s) (utf8 s) rest := by
  intro p
  obtain ⟨hwhole, b, bs, hutf8, hread, hnone⟩ := h
  have hrun : Filler.run (b :: (bs ++ rest)) = ([], b :: (bs ++ rest)) := Filler.run_of_none hnone
  have hleft : (b :: (bs ++ rest)).drop (Lexeme.ofText s).bytes.length = rest := by
    rw [hwhole, hutf8, ← List.cons_append, List.drop_left]
  rw [hutf8, List.cons_append, Layout.ofBytes_of_cons (by rw [hrun]), hrun, hread, hleft,
    Layout.openQuoteFrom_cons]
  exact ⟨_, ⟨_, ⟨p, rfl⟩, rfl⟩, rfl⟩

theorem ofBytes (h : Scans W bs []) :
    W (Scan.ofBytes bs).tokens [] ∧ (Scan.ofBytes bs).openQuote = none := by
  obtain ⟨q, htokens, hquote⟩ := h .start
  have hrun : Filler.run [] = ([], []) := Filler.run_of_none rfl
  have hempty : Layout.ofBytes [] = ⟨[], []⟩ := by
    rw [Layout.ofBytes_of_nil (by rw [hrun]), hrun]
  rw [List.append_nil, hempty] at htokens hquote
  exact ⟨htokens, hquote⟩

end Scans

end PascalCheck
