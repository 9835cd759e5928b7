import PascalCheck.Proofs.LayoutIndependence
import PascalCheck.Proofs.Relexing
import PascalCheck.Proofs.TokenClasses

namespace PascalCheck
set_option autoImplicit true

namespace Lexeme

def Separated (rest : List UInt8) : Prop := ∀ c ∈ rest.head?, Filler.isBlank c = true

theorem separated_nil : Separated [] := by simp [Separated]

theorem Separated.endsNumber (h : Separated rest) : EndsNumber rest := by
  have hblank : ∀ b : UInt8, Filler.isBlank b = true →
      isWordByte b = false ∧ b ≠ '.'.toUInt8 ∧ isSign b = false := by
    grind [toUInt8_point]
  exact fun b hb => hblank b (h b hb)

theorem Separated.head?_ne_star (h : Separated rest) : rest.head? ≠ some Filler.star := by
  intro hstar
  exact absurd (h _ hstar) (by decide)

theorem endsBefore_of_forall {s : String} (hutf8 : utf8 s = b :: bs)
    (hread : ∀ rest, Separated rest → read b (bs ++ rest) = l)
    (hfill : ∀ rest, Separated rest → Filler.read? (b :: (bs ++ rest)) = none)
    (hbytes : l.bytes = b :: bs) (hrest : Separated rest) :
    EndsBefore s rest ∧ ofText s = l := by
  have htext : ofText s = l := by
    rw [ofText_of_utf8 hutf8, ← hread [] separated_nil, List.append_nil]
  refine ⟨⟨?_, b, bs, hutf8, ?_, hfill rest hrest⟩, htext⟩
  · rw [htext, hbytes, hutf8]
  · rw [htext, hread rest hrest]

theorem read_illegal_again (hb : isIllegal b = true) (hrest : Separated rest) :
    EndsBefore (illegal b).text rest ∧ ofText (illegal b).text = illegal b := by
  have hascii : ∀ b : UInt8, isIllegal b = true → Utf8.isHigh b = false := by grind
  have hfiller : ∀ b : UInt8, isIllegal b = true → Filler.starts b = false := by grind
  have hutf8 : utf8 (spell [b]) = [b] := toList_spell (by simpa using hascii b hb)
  exact endsBefore_of_forall hutf8 (fun rest _ => read_of_illegal hb rest)
    (fun rest _ => Filler.read?_of_not_starts (hfiller b hb) rest) rfl hrest

theorem read_word_again (hb : isLetter b = true) (hrest : Separated rest) :
    EndsBefore (read b bs).text rest ∧ ofText (read b bs).text = read b bs := by
  obtain ⟨hword, htext⟩ := isWord_of_isLetter hb bs
  exact ⟨hword.endsBefore hrest.endsNumber.endsWord, htext⟩

theorem read_number_again (h : (read b bs).kind = .number) (hrest : Separated rest) :
    EndsBefore (read b bs).text rest ∧ ofText (read b bs).text = read b bs := by
  obtain ⟨hnumber, htext⟩ := isNumber_of_number h
  exact ⟨hnumber.endsBefore hrest.endsNumber, htext⟩

theorem read_foreign_again {c : Char} (hc : 0x80 ≤ c.toNat) (hrest : Separated rest) :
    EndsBefore c.toString rest ∧
      ofText c.toString = ⟨.operator, c.toString, Code.unlisted, String.utf8EncodeChar c⟩ := by
  have hutf8 : utf8 c.toString = String.utf8EncodeChar c := by simp [utf8_eq]
  cases hbytes : String.utf8EncodeChar c with
  | nil => exact absurd hbytes String.utf8EncodeChar_ne_nil
  | cons b bs =>
    have hhigh : 0x80 ≤ b := (hbytes ▸ Utf8.encodes_utf8EncodeChar c).high_of_le hc
    have hfiller : ∀ b : UInt8, 0x80 ≤ b → Filler.starts b = false := by grind
    refine endsBefore_of_forall (hutf8.trans hbytes) (fun rest _ => ?_)
      (fun rest _ => Filler.read?_of_not_starts (hfiller b hhigh) _) rfl hrest
    have hdecode := Utf8.decode_utf8EncodeChar c rest
    rw [hbytes, List.cons_append] at hdecode
    rw [read_of_high hhigh, foreign, hdecode]
    simp

theorem not_lists_blank (b : UInt8) (hc : Filler.isBlank c = true) :
    ¬ Code.Lists (spell [b, c]) := by
  have htable : ∀ entry ∈ Code.table, ∀ x ∈ entry.1.toList.map Char.toNat, 0x20 < x := by
    decide +kernel
  have hblank : ∀ c : UInt8, Filler.isBlank c = true → c ≤ 0x20 := by grind
  intro hlists
  obtain ⟨entry, hentry, hchars⟩ := exists_chars_of_lists hlists
  have hle : c.toNat ≤ 0x20 := UInt8.le_iff_toNat_le.1 (hblank c hc)
  have hlow : ∀ n < 0x21, (Char.ofUInt8 (UInt8.ofNat n)).toLower.toNat =
      (UInt8.ofNat n).toNat := by
    decide +kernel
  have hlower : (Char.ofUInt8 c).toLower.toNat = c.toNat :=
    Utf8.of_forall_lt (Nat.lt_succ_of_le hle) hlow
  have hascii : (Char.ofUInt8 c).toNat < 0x80 := Nat.lt_of_le_of_lt hle (by decide)
  have hlt := htable entry hentry (Text.lowerChar (Char.ofUInt8 c)).toNat (by simp [hchars])
  rw [Text.lowerChar_of_ascii hascii, hlower] at hlt
  omega

theorem text_operator (bs : List UInt8) : (operator bs).text = spell bs := by
  unfold operator
  split <;> rfl

/-- A mark in ASCII is read again: alone it makes no pair with a blank, and a pair stays one. -/
theorem read_mark_again (hmark : StartsMark b bs) (hb : b < 0x80)
    (hnone : Filler.read? (b :: bs) = none) (hrest : Separated rest) :
    EndsBefore (operator (operatorBytes b bs)).text rest ∧
      ofText (operator (operatorBytes b bs)).text = operator (operatorBytes b bs) := by
  obtain ⟨hblank, hbrace, hquote, hparen⟩ := (Filler.read?_eq_none_iff b bs).1 hnone
  have hascii := ascii_operatorBytes (not_isHigh_iff.2 hb) bs
  rw [text_operator]
  rcases operatorBytes_cases b bs with ⟨c, hhead, hlists, hpair⟩ | ⟨-, hone⟩
  · rw [hpair] at hascii ⊢
    refine endsBefore_of_forall (toList_spell hascii) (fun rest _ => ?_) (fun rest _ => ?_)
      (bytes_operator _) hrest
    · have hstarts : StartsMark b ([c] ++ rest) := by
        refine ⟨hmark.legal, hmark.letter, ?_⟩
        have hnumber := hmark.number
        unfold StartsNumber at hnumber ⊢
        rwa [hhead] at hnumber
      rw [read_of_startsMark hstarts hb, List.singleton_append, operatorBytes,
        if_pos (Code.isSome_lookup?_iff.2 hlists)]
    · refine (Filler.read?_eq_none_iff b _).2 ⟨hblank, hbrace, hquote, ?_⟩
      rwa [hhead] at hparen
  · rw [hone] at hascii ⊢
    refine endsBefore_of_forall (toList_spell hascii) (fun rest hrest => ?_) (fun rest hrest => ?_)
      (bytes_operator _) hrest
    · have hdigit : ∀ c : UInt8, Filler.isBlank c = true → isDigit c = false := by grind
      have hstarts : StartsMark b ([] ++ rest) := by
        refine ⟨hmark.legal, hmark.letter, ?_⟩
        rintro (hd | ⟨-, d, hd, hdig⟩)
        · exact hmark.number (.inl hd)
        · rw [hdigit d (hrest d hd)] at hdig
          cases hdig
      rw [read_of_startsMark hstarts hb, List.nil_append]
      rcases operatorBytes_cases b rest with ⟨c, hhead, hlists, -⟩ | ⟨-, hsame⟩
      · exact absurd hlists (not_lists_blank b (hrest c hhead))
      · rw [hsame]
    · exact (Filler.read?_eq_none_iff b _).2
        ⟨hblank, hbrace, hquote, fun h => hrest.head?_ne_star h.2⟩

/-- The text of what is read where no filler starts is read as the same again, in front of a blank
or of nothing. -/
theorem read_again (hnone : Filler.read? (b :: bs) = none) (hrest : Separated rest)
    (p q : Position) :
    EndsBefore (read b bs).text rest ∧
      (Layout.token p (ofText (read b bs).text)).spelling =
        (Layout.token q (read b bs)).spelling := by
  have hsame {l : Lexeme} (h : EndsBefore l.text rest ∧ ofText l.text = l) :
      EndsBefore l.text rest ∧
        (Layout.token p (ofText l.text)).spelling = (Layout.token q l).spelling :=
    ⟨h.1, by rw [h.2]; rfl⟩
  have hclass := readAs_read b bs
  generalize hl : read b bs = l at hclass ⊢
  cases hclass with
  | illegal hi => exact hsame (read_illegal_again hi hrest)
  | word hb =>
    rw [← hl]
    exact hsame (read_word_again hb hrest)
  | number hn =>
    rw [← hl]
    exact hsame (read_number_again (by rw [hl]; rfl) hrest)
  | foreign hb =>
    obtain ⟨hends, htext⟩ := read_foreign_again (le_decode_of_high hb bs) hrest
    refine ⟨hends, ?_⟩
    have hforeign : (foreign (b :: bs)).text = (Utf8.decode (b :: bs)).1.toString := rfl
    rw [hforeign, htext]
    rfl
  | operator hmark hb => exact hsame (read_mark_again hmark hb hnone hrest)

end Lexeme

open Lexeme

def Token.ReadAgain (t : Token) : Prop :=
  ∀ rest p, Separated rest → EndsBefore t.lexeme rest ∧
    (Layout.token p (ofText t.lexeme)).spelling = t.spelling

theorem Scan.readAgain_of_mem (h : t ∈ (ofBytes source).tokens) : t.ReadAgain := by
  obtain ⟨q, piece, hpiece, rfl⟩ := Layout.exists_of_mem_tokensFrom h
  obtain ⟨b, bs, hread, hnone⟩ := Layout.exists_unfilled_of_mem_pieces hpiece
  intro rest p hrest
  rw [hread]
  exact read_again hnone hrest p q

def spaced (blank : Nat → UInt8) : List Token → List UInt8
  | [] => []
  | [t] => utf8 t.lexeme
  | t :: u :: ts => utf8 t.lexeme ++ blank 0 :: spaced (fun n => blank (n + 1)) (u :: ts)

/-- The first tokens start with tokens of these kinds, texts and codes and go on with the second. -/
def StartsLike (ts : List Token) (us vs : List Token) : Prop :=
  ∃ front, us = front ++ vs ∧ front.map Token.spelling = ts.map Token.spelling

theorem startsLike_of_heads {t : Token} (ht : t.ReadAgain) (h : Heads t.lexeme us vs) :
    StartsLike [t] us vs := by
  obtain ⟨u, ⟨p, rfl⟩, rfl⟩ := h
  exact ⟨[_], rfl, congrArg (fun s => [s]) (ht [] p separated_nil).2⟩

theorem scans_spaced {blank : Nat → UInt8} (hblank : ∀ n, Filler.isBlank (blank n) = true)
    (hts : ∀ t ∈ ts, t.ReadAgain) : Scans (StartsLike ts) (spaced blank ts) [] := by
  fun_induction spaced blank ts with
  | case1 blank => exact (Scans.nil []).mono fun us vs h => ⟨[], h, rfl⟩
  | case2 blank t =>
    have ht := hts t List.mem_cons_self
    exact (Scans.text (ht [] .start separated_nil).1).mono fun us vs => startsLike_of_heads ht
  | case3 blank t u ts ih =>
    obtain ⟨ht, hrest⟩ := List.forall_mem_cons.1 hts
    have hnext := (ih (fun n => hblank (n + 1)) hrest).blank (blank 0) (hblank 0)
    have hsep : Separated (blank 0 :: spaced (fun n => blank (n + 1)) (u :: ts) ++ []) := by
      intro c hc
      obtain rfl : blank 0 = c := by simpa using hc
      exact hblank 0
    refine ((Scans.text (ht _ .start hsep).1).trans hnext).mono fun us vs h => ?_
    obtain ⟨ws, hfirst, hothers⟩ := h
    obtain ⟨front, rfl, hfront⟩ := startsLike_of_heads ht hfirst
    obtain ⟨front', rfl, hfront'⟩ := hothers
    exact ⟨front ++ front', by rw [List.append_assoc], by
      rw [List.map_append, hfront, hfront']
      rfl⟩

/-- A source written token by token, with any one blank between neighbours, has tokens of the same
kinds, texts and codes. -/
theorem tokens_of_spaced_tokens (source : List UInt8) (blank : Nat → UInt8)
    (hblank : ∀ n, Filler.isBlank (blank n) = true) :
    (tokenize (spaced blank (tokenize source).1)).1.map Token.spelling =
      (tokenize source).1.map Token.spelling := by
  have hscans := scans_spaced hblank fun t (ht : t ∈ (tokenize source).1) =>
    Scan.readAgain_of_mem ht
  obtain ⟨⟨front, htokens, hfront⟩, -⟩ := hscans.ofBytes
  rw [List.append_nil] at htokens
  rw [← hfront, ← htokens]
  rfl

/-- A malformed number, a byte that encodes nothing, a zero, marks of comments and of ranges, an
illegal character and a comment without an end. -/
def oddBytes : List UInt8 :=
  "1e+".toUTF8.toList ++ [0xFF, 0x00] ++ "*)..5.:@=\x7d é (* '".toUTF8.toList

theorem tokens_of_spaced_tokens_oddBytes :
    (tokenize (spaced (fun n => if n % 2 = 0 then 0x0A else 0x0B) (tokenize oddBytes).1)).1.map
        Token.spelling = (tokenize oddBytes).1.map Token.spelling ∧
      (tokenize oddBytes).1.length = 12 := by
  refine ⟨tokens_of_spaced_tokens oddBytes _ fun n => ?_, by decide +kernel⟩
  split <;> decide

end PascalCheck
