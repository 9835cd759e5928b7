import PascalCheck.Proofs.Blanking
import PascalCheck.Proofs.Spans

namespace PascalCheck
set_option autoImplicit true

def Lexeme.blank (l : Lexeme) : Lexeme := { l with bytes := l.bytes.map fun _ => 0x20 }

def Layout.erased (l : Layout) (i : Nat) : List UInt8 :=
  Layout.bytes ⟨l.pieces.modify i fun piece => (piece.1, piece.2.blank), l.tail⟩

/-- A source with blanks in place of the bytes of one token. -/
def withoutToken (source : List UInt8) (i : Nat) : List UInt8 := (Layout.ofBytes source).erased i

def isNarrow (b : UInt8) : Bool := !Utf8.isHigh b && b != '\n'.toUInt8

/-- The second list has blanks in place of some narrow bytes of the first, and as many bytes in
front as given are the same. -/
inductive Erases : Nat → List UInt8 → List UInt8 → Prop where
  | nil : Erases n [] []
  | keep (b : UInt8) : Erases (n - 1) bs cs → Erases n (b :: bs) (b :: cs)
  | blank : n = 0 → isNarrow b = true → Erases n bs cs → Erases n (b :: bs) (0x20 :: cs)

namespace Erases

theorem refl (n : Nat) (bs : List UInt8) : Erases n bs bs := by
  induction bs generalizing n with
  | nil => exact .nil
  | cons b bs ih => exact .keep b (ih _)

theorem prepend (h : Erases n bs cs) (front : List UInt8) :
    Erases (front.length + n) (front ++ bs) (front ++ cs) := by
  induction front with
  | nil => simpa using h
  | cons b front ih =>
    refine .keep b ?_
    have hn : (b :: front).length + n - 1 = front.length + n := by
      rw [List.length_cons]
      omega
    rwa [hn]

theorem blanks (hnarrow : ∀ b ∈ bs, isNarrow b = true) (h : Erases 0 rest rest') :
    Erases 0 (bs ++ rest) (bs.map (fun _ => 0x20) ++ rest') := by
  induction bs with
  | nil => exact h
  | cons b bs ih =>
    exact .blank rfl (hnarrow b List.mem_cons_self)
      (ih fun c hc => hnarrow c (List.mem_cons_of_mem b hc))

theorem mono (h : Erases n bs cs) (hm : m ≤ n) : Erases m bs cs := by
  induction h generalizing m with
  | nil => exact .nil
  | keep b h ih => exact .keep b (ih (by omega))
  | blank hn hb h ih => exact .blank (by omega) hb (ih hm)

theorem drop (h : Erases n bs cs) (k : Nat) : Erases (n - k) (bs.drop k) (cs.drop k) := by
  induction h generalizing k with
  | nil => simpa using Erases.nil
  | @keep n bs cs b h ih =>
    cases k with
    | zero => exact .keep b h
    | succ k =>
      have hn : n - (k + 1) = n - 1 - k := by omega
      rw [hn]
      exact ih k
  | @blank n b bs cs hn hb h ih =>
    cases k with
    | zero => exact .blank hn hb h
    | succ k =>
      have hzero : n - (k + 1) = n - k := by omega
      rw [hzero]
      exact ih k

theorem takeWhile_eq {p : UInt8 → Bool} (hp : p 0x20 = false) (h : Erases n bs cs)
    (hn : (bs.takeWhile p).length ≤ n) : cs.takeWhile p = bs.takeWhile p := by
  induction h with
  | nil => rfl
  | keep b h ih =>
    cases hb : p b with
    | false => rw [List.takeWhile_cons, List.takeWhile_cons, hb]; rfl
    | true =>
      rw [List.takeWhile_cons_of_pos hb, List.length_cons] at hn
      rw [List.takeWhile_cons_of_pos hb, List.takeWhile_cons_of_pos hb, ih (by omega)]
  | @blank n b bs cs hzero hb h ih =>
    -- None of the taken bytes may have changed, so none is taken.
    have hnone : (b :: bs).takeWhile p = [] := List.eq_nil_of_length_eq_zero (by omega)
    rw [hnone, List.takeWhile_cons, hp]
    rfl

/-- A class that blanks and narrow bytes are not in takes the same bytes wherever blanks stand. -/
theorem takeWhile_high (h : Erases n bs cs) :
    cs.takeWhile Utf8.isHigh = bs.takeWhile Utf8.isHigh := by
  induction h with
  | nil => rfl
  | keep b h ih => rw [List.takeWhile_cons, List.takeWhile_cons, ih]
  | @blank n b bs cs hn hb h ih =>
    have hlow : Utf8.isHigh b = false := by simpa using (Bool.and_eq_true_iff.1 hb).1
    rw [List.takeWhile_cons, List.takeWhile_cons, hlow]
    rfl

theorem after_eq (h : Erases n bs cs) (p : Position) : p.after cs = p.after bs := by
  have hstep : ∀ (p : Position) (b : UInt8), isNarrow b = true →
      p.step b = ⟨p.line, p.col + 1⟩ := by
    intro p b hb
    obtain ⟨hhigh, hline⟩ : Utf8.isHigh b = false ∧ b ≠ '\n'.toUInt8 := by
      simpa [isNarrow] using hb
    have hwide := (Utf8.ascii_ends_sequence 0 hhigh).1
    rw [Position.step, if_neg hline, hwide]
    rfl
  induction h generalizing p with
  | nil => rfl
  | keep b _ ih => exact ih _
  | blank hn hb _ ih =>
    rw [Position.after_cons, Position.after_cons, hstep p _ hb, hstep p 0x20 (by decide), ih]

end Erases

namespace Lexeme

theorem fraction_erases (h : Erases n bs cs) (hn : (fraction bs).length ≤ n) :
    fraction cs = fraction bs := by
  have hdigit : isDigit 0x20 = false := by decide
  have hpoint : (0x20 : UInt8) ≠ '.'.toUInt8 := by decide
  cases h with
  | nil => rfl
  | @blank _ b bs cs hzero hb h =>
    have hnone : fraction (b :: bs) = [] := List.eq_nil_of_length_eq_zero (by omega)
    rw [hnone]
    cases cs <;> simp [fraction, hpoint]
  | keep b h =>
    cases h with
    | nil => rfl
    | keep d h =>
      rw [fraction] at hn ⊢
      rw [fraction]
      split
      · rename_i hp
        rw [if_pos hp, List.length_cons, List.length_cons] at hn
        rw [h.takeWhile_eq hdigit (by omega)]
      · rfl
    | @blank _ d bs cs hzero hd h =>
      have hnone : fraction (b :: d :: bs) = [] := by
        rw [fraction] at hn ⊢
        split
        · rename_i hp
          rw [if_pos hp, List.length_cons, List.length_cons] at hn
          omega
        · rfl
      rw [hnone, fraction, hdigit]
      simp

theorem signedDigits_erases (h : Erases n bs cs) (hn : (signedDigits bs).length ≤ n) :
    signedDigits cs = signedDigits bs := by
  have hdigit : isDigit 0x20 = false := by decide
  cases h with
  | nil => rfl
  | keep b h =>
    rw [signedDigits] at hn ⊢
    rw [signedDigits]
    split
    · rename_i hs
      rw [if_pos hs, List.length_cons] at hn
      rw [h.takeWhile_eq hdigit (by omega)]
    · rename_i hs
      rw [if_neg hs] at hn
      exact (h.keep b).takeWhile_eq hdigit hn
  | @blank _ b bs cs hzero hb h =>
    have hnone : signedDigits (b :: bs) = [] := List.eq_nil_of_length_eq_zero (by omega)
    rw [hnone, signedDigits, if_neg (by decide), List.takeWhile_cons, hdigit]
    rfl

theorem exponent_erases (h : Erases n bs cs) (hn : (exponent bs).length ≤ n) :
    exponent cs = exponent bs := by
  cases h with
  | nil => rfl
  | keep b h =>
    rw [exponent] at hn ⊢
    rw [exponent]
    split
    · rename_i he
      rw [if_pos he, List.length_cons] at hn
      rw [signedDigits_erases h (by omega)]
    · rfl
  | @blank _ b bs cs hzero hb h =>
    have hnone : exponent (b :: bs) = [] := List.eq_nil_of_length_eq_zero (by omega)
    rw [hnone, exponent, if_neg (by decide)]

theorem numberBytes_erases (h : Erases n bs cs) (hn : (numberBytes bs).length ≤ n) :
    numberBytes cs = numberBytes bs := by
  simp only [numberBytes, List.length_append] at hn
  have hwhole : cs.takeWhile isDigit = bs.takeWhile isDigit :=
    h.takeWhile_eq (by decide) (by omega)
  have hpart := fraction_erases (h.drop (bs.takeWhile isDigit).length) (by omega)
  simp only [numberBytes, hwhole, hpart]
  rw [exponent_erases (h.drop _) (by rw [List.length_append]; omega)]

theorem operatorBytes_erases (b : UInt8) (h : Erases n bs cs)
    (hn : (operatorBytes b bs).length ≤ n + 1) : operatorBytes b cs = operatorBytes b bs := by
  cases h with
  | nil => rfl
  | keep c h => rfl
  | @blank _ c bs cs hzero hc h =>
    have hone : operatorBytes b (c :: bs) = [b] := by
      rw [operatorBytes] at hn ⊢
      split
      · rename_i hlisted
        rw [if_pos hlisted, List.length_cons, List.length_singleton] at hn
        omega
      · rfl
    rw [hone, operatorBytes, lookup?_stray b blank_mem_strayBytes]
    rfl

theorem digitFollows_of_erases (h : Erases n bs cs) (hd : digitFollows cs = true) :
    digitFollows bs = true := by
  cases h with
  | nil => exact hd
  | keep b h => exact hd
  | blank hzero hb h =>
    have hblank : isDigit 0x20 = false := by decide
    simp [digitFollows, hblank] at hd

theorem digitFollows_erases (h : Erases (n + 1) bs cs) : digitFollows cs = digitFollows bs := by
  cases h with
  | nil => rfl
  | keep b h => rfl
  | blank hzero hb h => cases hzero

theorem two_le_length_numberBytes (h : digitFollows bs = true) :
    2 ≤ (numberBytes ('.'.toUInt8 :: bs)).length := by
  have hpoint : isDigit '.'.toUInt8 = false := by decide
  cases bs with
  | nil => simp [digitFollows] at h
  | cons d bs =>
    have hd : isDigit d = true := by simpa [digitFollows] using h
    simp [numberBytes, hpoint, fraction, hd]

/-- A lexeme that keeps its bytes is read the same. -/
theorem read_erases (h : Erases n bs cs) (hn : (read b bs).bytes.length ≤ n + 1) :
    read b cs = read b bs := by
  unfold read at hn ⊢
  split
  · rfl
  rename_i hi
  rw [if_neg hi] at hn
  split
  · rename_i hl
    rw [if_pos hl, bytes_word, List.length_cons] at hn
    rw [h.takeWhile_eq (by decide) (by omega)]
  rename_i hl
  rw [if_neg hl] at hn
  by_cases hd : (isDigit b || (b == '.'.toUInt8 && digitFollows bs)) = true
  · rw [if_pos hd] at hn
    have hnumber : (numberBytes (b :: bs)).length ≤ n + 1 := hn
    have hd' : (isDigit b || (b == '.'.toUInt8 && digitFollows cs)) = true := by
      rcases Bool.or_eq_true_iff.1 hd with hdigit | hpoint
      · rw [hdigit, Bool.true_or]
      · -- The digit after the point belongs to the number.
        obtain ⟨hb, hdigits⟩ := Bool.and_eq_true_iff.1 hpoint
        obtain rfl : b = '.'.toUInt8 := by simpa using hb
        have htwo := two_le_length_numberBytes hdigits
        obtain ⟨m, rfl⟩ : ∃ m, n = m + 1 := ⟨n - 1, by omega⟩
        rwa [digitFollows_erases h]
    have hkeep : Erases (n + 1) (b :: bs) (b :: cs) := .keep b h
    rw [if_pos hd, if_pos hd', numberBytes_erases hkeep hnumber]
  · have hd' : ¬ (isDigit b || (b == '.'.toUInt8 && digitFollows cs)) = true := by
      intro hd'
      simp only [Bool.or_eq_true, Bool.and_eq_true] at hd hd'
      exact hd (hd'.imp id fun hp => ⟨hp.1, digitFollows_of_erases h hp.2⟩)
    rw [if_neg hd] at hn ⊢
    rw [if_neg hd']
    split
    · rw [← foreign_takeWhile, h.takeWhile_high, foreign_takeWhile]
    · rename_i hb
      rw [if_neg hb, bytes_operator] at hn
      rw [operatorBytes_erases b h hn]

end Lexeme

theorem Filler.read?_erases (h : Erases n bs cs) (hr : read? (b :: bs) = none) :
    read? (b :: cs) = none := by
  have hstar : cs.head? = some star → bs.head? = some star := by
    intro hs
    cases h with
    | nil => exact hs
    | keep b h => exact hs
    | blank hzero hb h => exact absurd hs (by simp [star])
  obtain ⟨hblank, hbrace, hquote, hcomment⟩ := (read?_eq_none_iff b bs).1 hr
  exact (read?_eq_none_iff b cs).2
    ⟨hblank, hbrace, hquote, fun h => hcomment ⟨h.1, hstar h.2⟩⟩

namespace Layout

theorem erased_cons_zero (fs : List Filler) (lexeme : Lexeme) (l : Layout) :
    erased ⟨(fs, lexeme) :: l.pieces, l.tail⟩ 0 =
      Filler.allBytes fs ++ (lexeme.blank.bytes ++ l.bytes) := by
  simp [erased, bytes, pieceBytes]

theorem erased_cons_succ (fs : List Filler) (lexeme : Lexeme) (l : Layout) (i : Nat) :
    erased ⟨(fs, lexeme) :: l.pieces, l.tail⟩ (i + 1) =
      Filler.allBytes fs ++ (lexeme.bytes ++ l.erased i) := by
  simp [erased, bytes, pieceBytes]

/-- The lexeme at a place of a layout is as wide as blanks for its bytes. -/
def NarrowAt (l : Layout) (i : Nat) : Prop :=
  ∀ piece ∈ l.pieces[i]?, ∀ b ∈ piece.2.bytes, isNarrow b = true

theorem bytes_cons (fs : List Filler) (lexeme : Lexeme) (l : Layout) :
    bytes ⟨(fs, lexeme) :: l.pieces, l.tail⟩ =
      Filler.allBytes fs ++ (lexeme.bytes ++ l.bytes) := by
  simp [bytes, pieceBytes]

theorem erases_erased (l : Layout) (h : l.NarrowAt i) : Erases 0 l.bytes (l.erased i) := by
  obtain ⟨pieces, tail⟩ := l
  induction pieces generalizing i with
  | nil =>
    rw [erased]
    simpa using Erases.refl 0 _
  | cons piece pieces ih =>
    obtain ⟨fs, lexeme⟩ := piece
    cases i with
    | zero =>
      rw [erased_cons_zero fs lexeme ⟨pieces, tail⟩, bytes_cons fs lexeme ⟨pieces, tail⟩]
      have hblanks := Erases.blanks (h _ rfl) (.refl 0 (bytes ⟨pieces, tail⟩))
      exact (hblanks.prepend _).mono (Nat.zero_le _)
    | succ i =>
      rw [erased_cons_succ fs lexeme ⟨pieces, tail⟩, bytes_cons fs lexeme ⟨pieces, tail⟩]
      exact (((ih h).prepend _).prepend _).mono (Nat.zero_le _)

def eraseFrom (tail : List Filler) : List (List Filler × Lexeme) → Nat → Layout
  | [], _ => ⟨[], tail⟩
  | (fs, lexeme) :: pieces, 0 =>
    (prepend (lexeme.bytes.map fun _ => .blank 0x20) ⟨pieces, tail⟩).prepend fs
  | (fs, lexeme) :: pieces, i + 1 =>
    ⟨(fs, lexeme) :: (eraseFrom tail pieces i).pieces, (eraseFrom tail pieces i).tail⟩

theorem run_blanks (bs cs : List UInt8) :
    Filler.run (bs.map (fun _ => 0x20) ++ cs) =
      ((bs.map fun _ => .blank 0x20) ++ (Filler.run cs).1, (Filler.run cs).2) := by
  induction bs with
  | nil => rfl
  | cons b bs ih =>
    rw [List.map_cons, List.cons_append, Filler.run_of_some rfl, ih]
    rfl

theorem ofBytes_lexeme_erases (hr : Filler.read? (b :: rest) = none)
    (h : Erases 0 ((b :: rest).drop (Lexeme.read b rest).bytes.length) cs) :
    ofBytes ((Lexeme.read b rest).bytes ++ cs) =
      ⟨([], Lexeme.read b rest) :: (ofBytes cs).pieces, (ofBytes cs).tail⟩ := by
  obtain ⟨more, hbytes, hrest⟩ := exists_bytes_read b rest
  have hafter : Erases more.length rest (more ++ cs) := by
    rw [hrest]
    exact h.prepend more
  refine ofBytes_lexeme_append hbytes (Lexeme.read_erases hafter ?_) (Filler.read?_erases hafter hr)
  exact Nat.le_of_eq (congrArg List.length hbytes)

theorem ofBytes_erased (bs : List UInt8) (i : Nat) : (ofBytes bs).NarrowAt i →
    ofBytes ((ofBytes bs).erased i) = eraseFrom (ofBytes bs).tail (ofBytes bs).pieces i := by
  fun_induction ofBytes bs generalizing i with
  | case1 bs fs hrun =>
    intro _
    have hbytes := run_append bs
    rw [hrun, List.append_nil] at hbytes
    have hsame : erased ⟨[], fs⟩ i = bs := by simpa [erased, bytes] using hbytes
    rw [hsame, ofBytes_of_nil (by rw [hrun]), hrun]
    rfl
  | case2 bs fs b rest hrun lexeme layout ih =>
    intro h
    have hfs : (Filler.run bs).1 = fs ∧ (Filler.run bs).2 ≠ [] := by simp [hrun]
    have hfillers (cs : List UInt8) :
        ofBytes (Filler.allBytes fs ++ cs) = (ofBytes cs).prepend fs := by
      have happend := Filler.run_allBytes_append hfs.2 cs
      rw [hfs.1] at happend
      exact ofBytes_of_run happend
    have hlayout : layout.bytes = (b :: rest).drop lexeme.bytes.length := bytes_ofBytes _
    cases i with
    | zero =>
      have hblank : ofBytes (lexeme.blank.bytes ++ layout.bytes) =
          layout.prepend (lexeme.bytes.map fun _ => .blank 0x20) := by
        rw [hlayout]
        exact ofBytes_of_run (run_blanks lexeme.bytes _)
      rw [erased_cons_zero, hfillers, hblank]
      rfl
    | succ i =>
      have hnone := Filler.read?_run bs
      rw [hrun] at hnone
      have hrest := ih i h
      have herases := erases_erased layout h
      rw [hlayout] at herases
      have hread : ofBytes (lexeme.bytes ++ layout.erased i) =
          ⟨([], lexeme) :: (eraseFrom layout.tail layout.pieces i).pieces,
            (eraseFrom layout.tail layout.pieces i).tail⟩ := by
        rw [← hrest]
        exact ofBytes_lexeme_erases hnone herases
      rw [erased_cons_succ, hfillers, hread]
      simp [prepend, eraseFrom]

theorem after_blank (hnarrow : ∀ b ∈ bs, isNarrow b = true) (p : Position) :
    p.after (Filler.allBytes (bs.map fun _ => .blank 0x20)) = p.after bs := by
  have hblanks : Filler.allBytes (bs.map fun _ => .blank 0x20) = bs.map fun _ => 0x20 := by
    rw [Filler.allBytes, List.flatMap_map, List.map_eq_flatMap]
    rfl
  have herases := Erases.blanks hnarrow (.refl 0 [])
  rw [List.append_nil, List.append_nil] at herases
  rw [hblanks, herases.after_eq]

theorem tokensFrom_eraseFrom {pieces : List (List Filler × Lexeme)} (tail : List Filler)
    (h : NarrowAt ⟨pieces, tail⟩ i) (p : Position) :
    tokensFrom p (eraseFrom tail pieces i).pieces = (tokensFrom p pieces).eraseIdx i := by
  induction pieces generalizing i p with
  | nil => rfl
  | cons piece pieces ih =>
    obtain ⟨fs, lexeme⟩ := piece
    cases i with
    | zero =>
      rw [eraseFrom, tokensFrom_prepend, tokensFrom_prepend, after_blank (h _ rfl)]
      rfl
    | succ i =>
      rw [eraseFrom, tokensFrom, tokensFrom, ih h, List.eraseIdx_cons_succ]

theorem openQuoteFrom_eraseFrom {pieces : List (List Filler × Lexeme)} (tail : List Filler)
    (hclosed : ∀ piece ∈ pieces, ∀ f ∈ piece.1, f.closed = true) (h : NarrowAt ⟨pieces, tail⟩ i)
    (p : Position) :
    openQuoteFrom p (eraseFrom tail pieces i) = openQuoteFrom p ⟨pieces, tail⟩ := by
  induction pieces generalizing i p with
  | nil => rfl
  | cons piece pieces ih =>
    obtain ⟨fs, lexeme⟩ := piece
    rw [openQuoteFrom_cons]
    cases i with
    | zero =>
      have hblank : ∀ f ∈ (lexeme.bytes.map fun _ => Filler.blank 0x20), f.closed = true := by
        simp [Filler.closed]
      rw [eraseFrom, openQuoteFrom_prepend (hclosed _ List.mem_cons_self),
        openQuoteFrom_prepend hblank, after_blank (h _ rfl)]
    | succ i =>
      rw [eraseFrom, openQuoteFrom_cons]
      exact ih (fun piece hp => hclosed piece (List.mem_cons_of_mem _ hp)) h _

end Layout

/-- The scan of a source without a narrow token is the scan without that token. -/
theorem Scan.ofBytes_withoutToken (source : List UInt8)
    (h : (Layout.ofBytes source).NarrowAt i) :
    ofBytes (withoutToken source i) =
      { ofBytes source with tokens := (ofBytes source).tokens.eraseIdx i } := by
  have htokens : (ofBytes (withoutToken source i)).tokens =
      (ofBytes source).tokens.eraseIdx i := by
    rw [ofBytes, ofLayout, withoutToken, Layout.ofBytes_erased source i h]
    exact Layout.tokensFrom_eraseFrom _ h .start
  have hfinal : (ofBytes (withoutToken source i)).final = (ofBytes source).final := by
    have hplace : (ofBytes (withoutToken source i)).final.place = (ofBytes source).final.place := by
      have herases := Layout.erases_erased _ h
      rw [Layout.bytes_ofBytes] at herases
      rw [place_final, place_final]
      exact herases.after_eq .start
    exact congrArg Token.endAt hplace
  have hopen : (ofBytes (withoutToken source i)).openQuote = (ofBytes source).openQuote := by
    rw [ofBytes, ofLayout, withoutToken, Layout.ofBytes_erased source i h]
    exact Layout.openQuoteFrom_eraseFrom _ (fun _ => Layout.closed_of_mem_pieces) h .start
  have hscan : ofBytes (withoutToken source i) =
      ⟨(ofBytes (withoutToken source i)).tokens, (ofBytes (withoutToken source i)).final,
        (ofBytes (withoutToken source i)).openQuote⟩ := rfl
  rw [hscan, htokens, hfinal, hopen]

end PascalCheck
