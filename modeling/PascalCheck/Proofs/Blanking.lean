import PascalCheck.Proofs.CodeTable
import PascalCheck.Proofs.Layouts
import PascalCheck.Proofs.Lexemes
import PascalCheck.Proofs.View.Plain

namespace PascalCheck
set_option autoImplicit true

def Layout.blankedBytes (piece : List Filler × Lexeme) : List UInt8 :=
  Filler.allBytes piece.1 ++
    if piece.2.kind = .unknown then piece.2.bytes.map fun _ => 0x20 else piece.2.bytes

def Layout.blanked (l : Layout) : List UInt8 :=
  l.pieces.flatMap blankedBytes ++ Filler.allBytes l.tail

/-- A source with a blank in place of every illegal character. Those inside comments and strings
stay. -/
def blanked (source : List UInt8) : List UInt8 := (Layout.ofBytes source).blanked

def strayBytes : List UInt8 :=
  [0x20, '@'.toUInt8, '$'.toUInt8, '&'.toUInt8, '?'.toUInt8]

theorem mem_strayBytes (h : Lexeme.isIllegal b = true) : b ∈ strayBytes := by
  have hb : b = '@'.toUInt8 ∨ b = '$'.toUInt8 ∨ b = '&'.toUInt8 ∨ b = '?'.toUInt8 := by
    simpa [Lexeme.isIllegal, or_assoc] using h
  rcases hb with rfl | rfl | rfl | rfl <;> decide

theorem blank_mem_strayBytes : (0x20 : UInt8) ∈ strayBytes := List.mem_cons_self

theorem forall_mem_strayBytes {p : UInt8 → Prop}
    (h : p 0x20 ∧ p '@'.toUInt8 ∧ p '$'.toUInt8 ∧ p '&'.toUInt8 ∧ p '?'.toUInt8) :
    ∀ b ∈ strayBytes, p b := by
  simpa [strayBytes] using h

/-- The second list has blanks in place of some illegal characters of the first. -/
inductive Blanks : List UInt8 → List UInt8 → Prop where
  | nil : Blanks [] []
  | keep (b : UInt8) : Blanks bs cs → Blanks (b :: bs) (b :: cs)
  | blank : b ∈ strayBytes → Blanks bs cs → Blanks (b :: bs) (0x20 :: cs)

namespace Blanks

theorem refl (bs : List UInt8) : Blanks bs bs := by
  induction bs with
  | nil => exact .nil
  | cons b bs ih => exact .keep b ih

theorem append (h : Blanks bs cs) (h' : Blanks bs' cs') : Blanks (bs ++ bs') (cs ++ cs') := by
  induction h with
  | nil => exact h'
  | keep b _ ih => exact .keep b ih
  | blank hb _ ih => exact .blank hb ih

theorem drop (h : Blanks bs cs) (n : Nat) : Blanks (bs.drop n) (cs.drop n) := by
  induction h generalizing n with
  | nil => simpa using Blanks.nil
  | keep b h ih =>
    cases n with
    | zero => exact .keep b h
    | succ n => exact ih n
  | blank hb h ih =>
    cases n with
    | zero => exact .blank hb h
    | succ n => exact ih n

theorem takeWhile_eq {p : UInt8 → Bool} (hp : ∀ b ∈ strayBytes, p b = false) (h : Blanks bs cs) :
    cs.takeWhile p = bs.takeWhile p := by
  have hblank : p 0x20 = false := hp 0x20 blank_mem_strayBytes
  induction h with
  | nil => rfl
  | keep b _ ih => rw [List.takeWhile_cons, List.takeWhile_cons, ih]
  | blank hb _ _ => rw [List.takeWhile_cons, List.takeWhile_cons, hblank, hp _ hb]; rfl

theorem after_eq (h : Blanks bs cs) (p : Position) : p.after cs = p.after bs := by
  have hstep (p : Position) : ∀ b ∈ strayBytes, p.step b = ⟨p.line, p.col + 1⟩ := by
    intro b hb
    have hclass : ∀ b ∈ strayBytes, b ≠ '\n'.toUInt8 ∧ Utf8.isContinuation b = false :=
      forall_mem_strayBytes (by decide)
    rw [Position.step, if_neg (hclass b hb).1, (hclass b hb).2]
    rfl
  induction h generalizing p with
  | nil => rfl
  | keep b _ ih => exact ih _
  | blank hb _ ih => rw [Position.after_cons, Position.after_cons, hstep p _ hb,
      hstep p 0x20 blank_mem_strayBytes, ih]

end Blanks

namespace Lexeme

theorem not_isDigit_stray : ∀ b ∈ strayBytes, isDigit b = false :=
  forall_mem_strayBytes (by decide)

theorem not_isWordByte_stray : ∀ b ∈ strayBytes, isWordByte b = false :=
  forall_mem_strayBytes (by decide)

theorem not_isSign_stray : ∀ b ∈ strayBytes, isSign b = false :=
  forall_mem_strayBytes (by decide)

theorem not_isExponentMark_stray : ∀ b ∈ strayBytes, isExponentMark b = false :=
  forall_mem_strayBytes (by decide)

theorem ne_point_stray : ∀ b ∈ strayBytes, b ≠ '.'.toUInt8 :=
  forall_mem_strayBytes (by decide)

theorem fraction_blanks (h : Blanks bs cs) : fraction cs = fraction bs := by
  cases h with
  | nil => rfl
  | blank hb h =>
    have hpoint := ne_point_stray _ hb
    have hblank := ne_point_stray _ blank_mem_strayBytes
    cases h <;> simp [fraction, hpoint, hblank]
  | keep b h =>
    cases h with
    | nil => rfl
    | keep d h => simp only [fraction, h.takeWhile_eq not_isDigit_stray]
    | blank hd h =>
      have hdigit := not_isDigit_stray _ hd
      have hblank := not_isDigit_stray _ blank_mem_strayBytes
      simp [fraction, hdigit, hblank]

theorem signedDigits_blanks (h : Blanks bs cs) : signedDigits cs = signedDigits bs := by
  cases h with
  | nil => rfl
  | keep b h =>
    rw [signedDigits, signedDigits, h.takeWhile_eq not_isDigit_stray,
      (h.keep b).takeWhile_eq not_isDigit_stray]
  | blank hb h =>
    rw [signedDigits, signedDigits, not_isSign_stray _ hb,
      not_isSign_stray _ blank_mem_strayBytes]
    exact (h.blank hb).takeWhile_eq not_isDigit_stray

theorem exponent_blanks (h : Blanks bs cs) : exponent cs = exponent bs := by
  cases h with
  | nil => rfl
  | keep b h => rw [exponent, exponent, signedDigits_blanks h]
  | blank hb h =>
    rw [exponent, exponent, not_isExponentMark_stray _ hb,
      not_isExponentMark_stray _ blank_mem_strayBytes]
    rfl

theorem numberBytes_blanks (h : Blanks bs cs) : numberBytes cs = numberBytes bs := by
  simp only [numberBytes, h.takeWhile_eq not_isDigit_stray, fraction_blanks (h.drop _),
    exponent_blanks (h.drop _)]

theorem digitFollows_blanks (h : Blanks bs cs) : digitFollows cs = digitFollows bs := by
  cases h with
  | nil => rfl
  | keep b h => rfl
  | blank hb h =>
    simp [digitFollows, not_isDigit_stray _ hb, not_isDigit_stray _ blank_mem_strayBytes]

/-- No word or mark of the language ends in a blank or an illegal character. -/
theorem lookup?_stray (b : UInt8) (hc : c ∈ strayBytes) : Code.lookup? (spell [b, c]) = none := by
  have htable : ∀ entry ∈ Code.table, ∀ c ∈ strayBytes,
      entry.1.toList.getLast? ≠ some (Text.lowerChar (Char.ofUInt8 c)) := by
    decide +kernel
  rw [Code.lookup?_eq_none_iff]
  intro hlists
  obtain ⟨entry, hentry, hchars⟩ := exists_chars_of_lists hlists
  exact htable entry hentry c hc (by simp [hchars])

theorem operatorBytes_blanks (b : UInt8) (h : Blanks bs cs) :
    operatorBytes b cs = operatorBytes b bs := by
  cases h with
  | nil => rfl
  | keep c h => rfl
  | blank hc h =>
    rw [operatorBytes, operatorBytes, lookup?_stray b hc, lookup?_stray b blank_mem_strayBytes]
    rfl

theorem foreign_blanks (a : UInt8) (h : Blanks bs cs) : foreign (a :: cs) = foreign (a :: bs) := by
  have hhigh : ∀ b ∈ strayBytes, Utf8.isHigh b = false := forall_mem_strayBytes (by decide)
  rw [← foreign_takeWhile, h.takeWhile_eq hhigh, foreign_takeWhile]

theorem read_blanks (hb : isIllegal b = false) (h : Blanks bs cs) : read b cs = read b bs := by
  unfold read
  rw [hb, h.takeWhile_eq not_isWordByte_stray, digitFollows_blanks h, numberBytes_blanks (h.keep b),
    operatorBytes_blanks b h]
  split
  · rfl
  split
  · rfl
  split
  · rfl
  split
  · exact foreign_blanks b h
  · rfl

theorem kind_read_eq_unknown_iff : (read b bs).kind = .unknown ↔ isIllegal b = true := by
  constructor
  · intro h
    have hread := readAs_read b bs
    generalize read b bs = l at h hread
    cases hread with
    | illegal hi => exact hi
    | word _ => rcases kind_word (b :: bs.takeWhile isWordByte) with hk | hk <;> simp [hk] at h
    | operator _ _ => rcases kind_operator (operatorBytes b bs) with hk | hk <;> simp [hk] at h
    | _ => cases h
  · intro hi
    rw [read, if_pos hi]
    rfl

theorem bytes_read_of_illegal (h : isIllegal b = true) : (read b bs).bytes = [b] := by
  rw [read, if_pos h]
  rfl

end Lexeme

theorem Filler.read?_blanks (h : Blanks bs cs) (hr : read? (b :: bs) = none) :
    read? (b :: cs) = none := by
  have hstar : cs.head? = some star ↔ bs.head? = some star := by
    have hstray : ∀ b ∈ strayBytes, b ≠ star := forall_mem_strayBytes (by decide)
    cases h with
    | nil => rfl
    | keep b h => rfl
    | blank hb h => simp [hstray _ hb, hstray _ blank_mem_strayBytes]
  rw [read?_eq_none_iff] at hr ⊢
  rwa [hstar]

namespace Layout

def prepend (fs : List Filler) (l : Layout) : Layout :=
  match l.pieces with
  | [] => ⟨[], fs ++ l.tail⟩
  | (gs, lexeme) :: pieces => ⟨(fs ++ gs, lexeme) :: pieces, l.tail⟩

/-- The layout with a blank in place of every illegal character. -/
def legalFrom (tail : List Filler) : List (List Filler × Lexeme) → Layout
  | [] => ⟨[], tail⟩
  | (fs, lexeme) :: pieces =>
    if lexeme.kind = .unknown then ((legalFrom tail pieces).prepend [.blank 0x20]).prepend fs
    else ⟨(fs, lexeme) :: (legalFrom tail pieces).pieces, (legalFrom tail pieces).tail⟩

def legal (l : Layout) : Layout := legalFrom l.tail l.pieces

theorem ofBytes_of_run {fs : List Filler}
    (h : Filler.run bs = (fs ++ (Filler.run cs).1, (Filler.run cs).2)) :
    ofBytes bs = (ofBytes cs).prepend fs := by
  cases hrest : (Filler.run cs).2 with
  | nil =>
    have hbs : (Filler.run bs).2 = [] := by rw [h, hrest]
    rw [ofBytes_of_nil hbs, ofBytes_of_nil hrest, h]
    rfl
  | cons b rest =>
    have hbs : (Filler.run bs).2 = b :: rest := by rw [h, hrest]
    rw [ofBytes_of_cons hbs, ofBytes_of_cons hrest, h]
    rfl

theorem blanked_cons (fs : List Filler) (lexeme : Lexeme) (l : Layout) :
    blanked ⟨(fs, lexeme) :: l.pieces, l.tail⟩ =
      Filler.allBytes fs ++
        ((if lexeme.kind = .unknown then lexeme.bytes.map fun _ => 0x20 else lexeme.bytes) ++
          l.blanked) := by
  simp [blanked, blankedBytes]

theorem blanks_blanked (bs : List UInt8) : Blanks bs (ofBytes bs).blanked := by
  fun_induction ofBytes bs with
  | case1 bs fs h =>
    have hbytes := run_append bs
    rw [h, List.append_nil] at hbytes
    have hblanked : blanked ⟨[], fs⟩ = bs := hbytes
    rw [hblanked]
    exact .refl bs
  | case2 bs fs b rest h lexeme layout ih =>
    have hbytes := run_append bs
    rw [h] at hbytes
    obtain ⟨r, hfront⟩ := Lexeme.read_front b rest
    have hdrop : (b :: rest).drop lexeme.bytes.length = r := by
      rw [← hfront]
      exact List.drop_left
    have hrest : Blanks r layout.blanked := by
      rw [← hdrop]
      exact ih
    rw [blanked_cons, ← hbytes, ← hfront]
    refine (Blanks.refl _).append (Blanks.append ?_ hrest)
    split
    · rename_i hk
      have hb := Lexeme.kind_read_eq_unknown_iff.1 hk
      rw [Lexeme.bytes_read_of_illegal hb]
      exact .blank (mem_strayBytes hb) .nil
    · exact .refl _

theorem exists_bytes_read (b : UInt8) (rest : List UInt8) :
    ∃ more, (Lexeme.read b rest).bytes = b :: more ∧
      rest = more ++ (b :: rest).drop (Lexeme.read b rest).bytes.length := by
  obtain ⟨r, hfront⟩ := Lexeme.read_front b rest
  cases hbytes : (Lexeme.read b rest).bytes with
  | nil => exact absurd hbytes (Lexeme.read_ne_nil b rest)
  | cons c more =>
    rw [hbytes] at hfront
    obtain ⟨rfl, hrest⟩ := List.cons.inj hfront
    refine ⟨more, rfl, ?_⟩
    rw [← hfront, List.drop_left]
    exact hrest.symm

theorem ofBytes_lexeme_append (hbytes : lexeme.bytes = b :: more)
    (hread : Lexeme.read b (more ++ cs) = lexeme)
    (hnone : Filler.read? (b :: (more ++ cs)) = none) :
    ofBytes (lexeme.bytes ++ cs) = ⟨([], lexeme) :: (ofBytes cs).pieces, (ofBytes cs).tail⟩ := by
  have hrun : Filler.run (b :: (more ++ cs)) = ([], b :: (more ++ cs)) :=
    Filler.run_of_none hnone
  have hleft : (b :: (more ++ cs)).drop lexeme.bytes.length = cs := by
    rw [← List.cons_append, ← hbytes, List.drop_left]
  rw [hbytes, List.cons_append, ofBytes_of_cons (by rw [hrun]), hrun, hread, hleft]

theorem ofBytes_lexeme_blanks (hr : Filler.read? (b :: rest) = none)
    (hk : (Lexeme.read b rest).kind ≠ .unknown)
    (hblanks : Blanks ((b :: rest).drop (Lexeme.read b rest).bytes.length) cs) :
    ofBytes ((Lexeme.read b rest).bytes ++ cs) =
      ⟨([], Lexeme.read b rest) :: (ofBytes cs).pieces, (ofBytes cs).tail⟩ := by
  obtain ⟨more, hbytes, hrest⟩ := exists_bytes_read b rest
  have hafter : Blanks rest (more ++ cs) := by
    rw [hrest]
    exact (Blanks.refl more).append hblanks
  have hillegal : Lexeme.isIllegal b = false := by
    rw [← Bool.not_eq_true, ← Lexeme.kind_read_eq_unknown_iff]
    exact hk
  exact ofBytes_lexeme_append hbytes (Lexeme.read_blanks hillegal hafter)
    (Filler.read?_blanks hafter hr)

theorem ofBytes_blanked (bs : List UInt8) : ofBytes (ofBytes bs).blanked = (ofBytes bs).legal := by
  fun_induction ofBytes bs with
  | case1 bs fs h =>
    have hbytes := run_append bs
    rw [h, List.append_nil] at hbytes
    have hblanked : blanked ⟨[], fs⟩ = bs := hbytes
    rw [hblanked, ofBytes_of_nil (by rw [h]), h]
    rfl
  | case2 bs fs b rest h lexeme layout ih =>
    have hrun : (Filler.run bs).1 = fs ∧ (Filler.run bs).2 ≠ [] := by simp [h]
    have hfillers (cs : List UInt8) :
        ofBytes (Filler.allBytes fs ++ cs) = (ofBytes cs).prepend fs := by
      have happend := Filler.run_allBytes_append hrun.2 cs
      rw [hrun.1] at happend
      exact ofBytes_of_run happend
    have hrest : ofBytes layout.blanked = layout.legal := ih
    rw [blanked_cons, hfillers]
    -- An illegal character turns into a filler, which joins the fillers of the next lexeme.
    by_cases hk : lexeme.kind = .unknown
    · have hlegal : legal ⟨(fs, lexeme) :: layout.pieces, layout.tail⟩ =
          (layout.legal.prepend [.blank 0x20]).prepend fs := if_pos hk
      have hbytes : lexeme.bytes = [b] :=
        Lexeme.bytes_read_of_illegal (Lexeme.kind_read_eq_unknown_iff.1 hk)
      have hblank : Filler.run (0x20 :: layout.blanked) =
          ([.blank 0x20] ++ (Filler.run layout.blanked).1, (Filler.run layout.blanked).2) :=
        Filler.run_of_some rfl
      rw [if_pos hk, hbytes, hlegal, ← hrest, ← ofBytes_of_run hblank]
      rfl
    · have hlegal : legal ⟨(fs, lexeme) :: layout.pieces, layout.tail⟩ =
          ⟨(fs, lexeme) :: layout.legal.pieces, layout.legal.tail⟩ := if_neg hk
      have hnone := Filler.read?_run bs
      rw [h] at hnone
      have hread : ofBytes (lexeme.bytes ++ layout.blanked) =
          ⟨([], lexeme) :: layout.legal.pieces, layout.legal.tail⟩ := by
        rw [← hrest]
        exact ofBytes_lexeme_blanks hnone hk (blanks_blanked _)
      rw [if_neg hk, hlegal, hread]
      simp [prepend]

theorem closed_of_mem_pieces {piece : List Filler × Lexeme} (h : piece ∈ (ofBytes bs).pieces) :
    ∀ f ∈ piece.1, f.closed = true := by
  fun_induction ofBytes bs with
  | case1 bs fs hr => cases h
  | case2 bs fs b rest hr lexeme layout ih =>
    rcases List.mem_cons.1 h with rfl | h
    · have hrest : (Filler.run bs).2 ≠ [] := by simp [hr]
      have hclosed := Filler.closed_of_run hrest
      rwa [hr] at hclosed
    · exact ih h

theorem stray_of_mem_pieces {piece : List Filler × Lexeme} (h : piece ∈ (ofBytes bs).pieces)
    (hk : piece.2.kind = .unknown) : ∃ b ∈ strayBytes, piece.2.bytes = [b] := by
  obtain ⟨b, rest, hread⟩ := exists_read_of_mem_pieces h
  rw [hread] at hk ⊢
  have hb := Lexeme.kind_read_eq_unknown_iff.1 hk
  exact ⟨b, mem_strayBytes hb, Lexeme.bytes_read_of_illegal hb⟩

theorem tokensFrom_prepend (p : Position) (fs : List Filler) (l : Layout) :
    tokensFrom p (l.prepend fs).pieces = tokensFrom (p.after (Filler.allBytes fs)) l.pieces := by
  obtain ⟨pieces, tail⟩ := l
  cases pieces with
  | nil => rfl
  | cons piece pieces => simp [prepend, tokensFrom, Filler.allBytes]

theorem tokensFrom_legalFrom {pieces : List (List Filler × Lexeme)}
    (h : ∀ piece ∈ pieces, piece.2.kind = .unknown → ∃ b ∈ strayBytes, piece.2.bytes = [b])
    (p : Position) (tail : List Filler) :
    tokensFrom p (legalFrom tail pieces).pieces =
      (tokensFrom p pieces).filter View.legal.shows := by
  induction pieces generalizing p with
  | nil => rfl
  | cons piece pieces ih =>
    obtain ⟨fs, lexeme⟩ := piece
    have hrest := ih fun piece hp => h piece (List.mem_cons_of_mem _ hp)
    by_cases hk : lexeme.kind = .unknown
    · obtain ⟨b, hb, hbytes⟩ := h _ List.mem_cons_self hk
      have hplace := (Blanks.blank hb .nil).after_eq (p.after (Filler.allBytes fs))
      have hhidden : ¬ View.legal.shows (token (p.after (Filler.allBytes fs)) lexeme) = true := by
        simp [View.shows, View.legal, token, hk]
      rw [legalFrom, if_pos hk, tokensFrom_prepend, tokensFrom_prepend, hrest, tokensFrom,
        List.filter_cons_of_neg hhidden, hbytes, ← hplace]
      rfl
    · have hshown : View.legal.shows (token (p.after (Filler.allBytes fs)) lexeme) = true := by
        simp [View.shows, token, hk]
      rw [legalFrom, if_neg hk, tokensFrom, tokensFrom, hrest, List.filter_cons_of_pos hshown]

/-- The line of a string left open at the end of a layout that starts at a place. -/
def openQuoteFrom (p : Position) (l : Layout) : Option Nat :=
  Filler.openQuoteLine? (p.after (l.pieces.flatMap pieceBytes)) l.tail

theorem openQuoteFrom_prepend (h : ∀ f ∈ fs, f.closed = true) (p : Position) (l : Layout) :
    openQuoteFrom p (l.prepend fs) = openQuoteFrom (p.after (Filler.allBytes fs)) l := by
  obtain ⟨pieces, tail⟩ := l
  cases pieces with
  | nil => exact Filler.openQuoteLine?_append h p tail
  | cons piece pieces => simp [prepend, openQuoteFrom, pieceBytes, Filler.allBytes]

theorem openQuoteFrom_cons (p : Position) (fs : List Filler) (lexeme : Lexeme)
    (pieces : List (List Filler × Lexeme)) (tail : List Filler) :
    openQuoteFrom p ⟨(fs, lexeme) :: pieces, tail⟩ =
      openQuoteFrom ((p.after (Filler.allBytes fs)).after lexeme.bytes) ⟨pieces, tail⟩ := by
  simp [openQuoteFrom, pieceBytes]

theorem openQuoteFrom_legalFrom {pieces : List (List Filler × Lexeme)}
    (hclosed : ∀ piece ∈ pieces, ∀ f ∈ piece.1, f.closed = true)
    (h : ∀ piece ∈ pieces, piece.2.kind = .unknown → ∃ b ∈ strayBytes, piece.2.bytes = [b])
    (p : Position) (tail : List Filler) :
    openQuoteFrom p (legalFrom tail pieces) = openQuoteFrom p ⟨pieces, tail⟩ := by
  induction pieces generalizing p with
  | nil => rfl
  | cons piece pieces ih =>
    obtain ⟨fs, lexeme⟩ := piece
    -- Only closed fillers may move to another piece: an open string would hide what follows it.
    have hrest := ih (fun piece hp => hclosed piece (List.mem_cons_of_mem _ hp))
      fun piece hp => h piece (List.mem_cons_of_mem _ hp)
    rw [openQuoteFrom_cons]
    by_cases hk : lexeme.kind = .unknown
    · obtain ⟨b, hb, hbytes⟩ := h _ List.mem_cons_self hk
      have hplace := (Blanks.blank hb .nil).after_eq (p.after (Filler.allBytes fs))
      have hblank : ∀ f ∈ [Filler.blank 0x20], f.closed = true := by simp [Filler.closed]
      rw [legalFrom, if_pos hk, openQuoteFrom_prepend (hclosed _ List.mem_cons_self),
        openQuoteFrom_prepend hblank, hrest, hbytes, ← hplace]
      rfl
    · rw [legalFrom, if_neg hk, openQuoteFrom_cons]
      exact hrest _

end Layout

/-- The scan of a source with blanks for illegal characters is the scan without them. -/
theorem Scan.ofBytes_blanked (source : List UInt8) :
    ofBytes (blanked source) = (ofBytes source).view .legal := by
  have hstray : ∀ piece ∈ (Layout.ofBytes source).pieces, piece.2.kind = .unknown →
      ∃ b ∈ strayBytes, piece.2.bytes = [b] := fun _ => Layout.stray_of_mem_pieces
  have htokens : (ofBytes (blanked source)).tokens =
      (ofBytes source).tokens.filter View.legal.shows := by
    rw [ofBytes, ofLayout, blanked, Layout.ofBytes_blanked]
    exact Layout.tokensFrom_legalFrom hstray .start _
  have hfinal : (ofBytes (blanked source)).final = (ofBytes source).final := by
    have hplace : (ofBytes (blanked source)).final.place = (ofBytes source).final.place := by
      rw [place_final, place_final]
      exact (Layout.blanks_blanked source).after_eq .start
    exact congrArg Token.endAt hplace
  have hopen : (ofBytes (blanked source)).openQuote = (ofBytes source).openQuote := by
    rw [ofBytes, ofLayout, blanked, Layout.ofBytes_blanked]
    exact Layout.openQuoteFrom_legalFrom (fun _ => Layout.closed_of_mem_pieces) hstray .start _
  have hscan : ofBytes (blanked source) =
      ⟨(ofBytes (blanked source)).tokens, (ofBytes (blanked source)).final,
        (ofBytes (blanked source)).openQuote⟩ := rfl
  rw [hscan, htokens, hfinal, hopen, view, List.map_id'' View.plain_legal.token,
    View.plain_legal.token]
  rfl

end PascalCheck
