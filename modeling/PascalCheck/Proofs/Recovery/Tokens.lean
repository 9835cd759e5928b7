import PascalCheck.Proofs.Erasure
import PascalCheck.Proofs.Recovery.Statements
import PascalCheck.Proofs.Verdicts

namespace PascalCheck
set_option autoImplicit true

def Code.omissible : List Int := [semicolon, assign, endWord, dot]

namespace Lexeme

theorem lookup_of_word {code : Int} (h : (Layout.token q (word bs)).is code = true)
    (hident : code ≠ Code.ident) :
    (word bs).text = spell bs ∧ Code.lookup? (spell bs) = some code := by
  have hcode := Token.code_of_is h
  unfold word at hcode ⊢
  split
  · rename_i listed hlisted
    rw [hlisted] at hcode ⊢
    obtain rfl : listed = code := hcode
    exact ⟨rfl, rfl⟩
  · rename_i hnone
    rw [hnone] at hcode
    exact absurd hcode.symm hident

theorem lookup_of_operator {code : Int} (h : (Layout.token q (operator bs)).is code = true)
    (hcolon : code ≠ Code.colon) (hunlisted : code ≠ Code.unlisted) :
    (operator bs).text = spell bs ∧ Code.lookup? (spell bs) = some code := by
  have hcode := Token.code_of_is h
  unfold operator at hcode ⊢
  split
  · rename_i hbs
    rw [if_pos hbs] at hcode
    exact absurd hcode.symm hcolon
  · rename_i hbs
    rw [if_neg hbs] at hcode
    refine ⟨rfl, ?_⟩
    cases hlookup : Code.lookup? (spell bs) with
    | none =>
      simp only [Layout.token, hlookup, Option.getD_none] at hcode
      exact absurd hcode.symm hunlisted
    | some listed =>
      simp only [Layout.token, hlookup, Option.getD_some] at hcode
      rw [hcode]

theorem lookup_of_omissible {code : Int} (h : (Layout.token q (read b bs)).is code = true)
    (hcode : code ∈ Code.omissible) :
    (read b bs).text = spell (read b bs).bytes ∧
      Code.lookup? (spell (read b bs).bytes) = some code := by
  have hclass : ∀ c ∈ Code.omissible, c ∉ [Code.unlisted, Code.ident, Code.integerLiteral,
      Code.realLiteral, Code.colon] := by
    decide
  have hother := hclass code hcode
  simp only [List.mem_cons, List.not_mem_nil, or_false, not_or] at hother
  obtain ⟨hunlisted, hident, hinteger, hreal, hcolon⟩ := hother
  have hread := readAs_read b bs
  generalize read b bs = l at h hread ⊢
  have hof := Token.code_of_is h
  cases hread with
  | illegal _ => exact absurd hof.symm hunlisted
  | word _ =>
    rw [bytes_word]
    exact lookup_of_word h hident
  | number _ =>
    have hk : (Layout.token q (number (numberBytes (b :: bs)))).kind = .number := rfl
    rw [(coherent_number q _).is_eq_false_of_number hk (Ne.symm hinteger) (Ne.symm hreal)] at h
    cases h
  | foreign _ => exact absurd hof.symm hunlisted
  | operator _ _ =>
    rw [bytes_operator]
    exact lookup_of_operator h hcolon hunlisted

theorem plain_of_lookup {code : Int} (h : Code.lookup? w = some code)
    (hcode : code ∈ Code.omissible) :
    ∀ x ∈ (Text.lower w).toList, BracketMark.ofChar? x = none ∧ x ≠ '\n' := by
  have htable : Code.table.all (fun entry => !Code.omissible.contains entry.2 ||
      entry.1.toList.all fun x => BracketMark.ofChar? x == none && x != '\n') = true := by
    decide +kernel
  have hentry := List.all_eq_true.1 htable _ (Code.lookup?_eq_some_iff.1 h)
  simpa [hcode] using hentry

theorem narrow_of_lookup {code : Int} (h : Code.lookup? (spell bs) = some code)
    (hcode : code ∈ Code.omissible) : ∀ b ∈ bs, isNarrow b = true := by
  intro b hb
  have hascii := ascii_of_lists ⟨code, Code.lookup?_eq_some_iff.1 h⟩ b hb
  have hline : b ≠ '\n'.toUInt8 := by
    rintro rfl
    have hmem : '\n' ∈ (Text.lower (spell bs)).toList := by
      rw [Text.toList_lower, List.mem_map]
      exact ⟨'\n', by simpa [spell] using ⟨_, hb, rfl⟩, rfl⟩
    exact (plain_of_lookup h hcode _ hmem).2 rfl
  simp [isNarrow, hascii, hline]

theorem marks_of_lookup {code : Int} (h : Code.lookup? w = some code)
    (hcode : code ∈ Code.omissible) : w.toList.filterMap BracketMark.ofChar? = [] := by
  have hlower (x : Char) (hx : BracketMark.ofChar? x ≠ none) : Text.lowerChar x = x := by
    unfold BracketMark.ofChar? at hx
    split_ifs at hx with h₁ h₂ h₃ h₄ h₅ h₆
    all_goals first | contradiction | (subst x; decide)
  rw [List.filterMap_eq_nil_iff]
  intro x hx
  by_contra hne
  have hmem : Text.lowerChar x ∈ (Text.lower w).toList := by
    rw [Text.toList_lower]
    exact List.mem_map_of_mem hx
  have hnone := (plain_of_lookup h hcode _ hmem).1
  rw [hlower x hne] at hnone
  exact hne hnone

end Lexeme

theorem Layout.exists_getElem?_tokensFrom {pieces : List (List Filler × Lexeme)} {i : Nat}
    {piece : List Filler × Lexeme} (h : pieces[i]? = some piece) (p : Position) :
    ∃ q, (tokensFrom p pieces)[i]? = some (token q piece.2) := by
  induction pieces generalizing i p with
  | nil => simp at h
  | cons first pieces ih =>
    cases i with
    | zero =>
      obtain rfl : first = piece := by simpa using h
      exact ⟨_, rfl⟩
    | succ i => exact ih (by simpa using h) _

namespace Scan

/-- A token that can be left out is as wide as blanks for its bytes. -/
theorem narrowAt_of_omissible (hc : (ofBytes source).tokens[i]? = some c)
    (hcode : c.is code = true) (h : code ∈ Code.omissible) :
    (Layout.ofBytes source).NarrowAt i := by
  intro piece hpiece
  obtain ⟨q, hq⟩ := Layout.exists_getElem?_tokensFrom hpiece .start
  obtain rfl : Layout.token q piece.2 = c := Option.some.inj (hq.symm.trans hc)
  obtain ⟨b, rest, hread⟩ := Layout.exists_read_of_mem_pieces (List.mem_of_getElem? hpiece)
  rw [hread] at hcode ⊢
  exact Lexeme.narrow_of_lookup (Lexeme.lookup_of_omissible hcode h).2 h

theorem brackets_of_omissible (hc : c ∈ (ofBytes source).tokens) (hcode : c.is code = true)
    (h : code ∈ Code.omissible) : c.brackets = [] := by
  obtain ⟨q, b, rest, rfl⟩ := exists_read_of_mem hc
  obtain ⟨htext, hlookup⟩ := Lexeme.lookup_of_omissible hcode h
  unfold Token.brackets
  split
  · have hlexeme : (Layout.token q (Lexeme.read b rest)).lexeme = (Lexeme.read b rest).text := rfl
    rw [hlexeme, htext]
    exact Lexeme.marks_of_lookup hlookup h
  · rfl

end Scan

theorem readEvents_concat (h : ∀ t ∈ ts ++ [e], t.kind ≠ .unknown) (negated : Bool)
    (us : List Token) :
    readEvents negated (ts ++ e :: us) =
      readEvents negated (ts ++ [e]) ++ readEvents (e.is Code.minus) us := by
  induction ts generalizing negated with
  | nil => simp [readEvents, h e (by simp)]
  | cons t ts ih =>
    have ht := h t (by simp)
    have hi := ih (fun u hu => h u (List.mem_cons_of_mem t hu)) (t.is Code.minus)
    simp [readEvents, ht, hi]

theorem readEvents_unsigned (h : ∀ t ∈ us, t.kind ≠ .unknown)
    (hsign : negated = false ∨ ∀ t ∈ us.head?, t.kind ≠ .number) :
    readEvents negated us = readEvents false us := by
  rcases hsign with rfl | hnumber
  · rfl
  · cases us with
    | nil => rfl
    | cons t us =>
      have hk : t.kind ≠ .number := hnumber t rfl
      simp [readEvents, Token.literalEvents, hk, h t List.mem_cons_self]

/-- A token without brackets that is taken in between changes nothing. -/
theorem Run.attempts_without_scanned {r : Run} (hc : c.brackets = [])
    (h : r.attempts (es ++ .scanned c :: fs) = []) : r.attempts (es ++ fs) = [] := by
  have hagrees : Agrees ((r.replay es).step (.scanned c)) (r.replay es) := by
    rw [step_eq]
    exact ⟨by simp only [bracketsAfter, hc]; rfl, rfl⟩
  rw [List.eq_nil_iff_forall_not_mem] at h ⊢
  intro d hd
  apply h d
  rw [mem_attempts_append] at hd ⊢
  refine hd.imp id fun hd => List.mem_append_right _ ?_
  rwa [hagrees.attempts]

theorem attempts_readEvents_of_ok (h : (analyze source o).ok = true) :
    Run.fresh.attempts (readEvents false (Scan.ofBytes source).tokens ++
      [.ended (Scan.ofBytes source).openQuote]) = [] := by
  have hbetween : ∀ before e after, readEvents false (Scan.ofBytes source).tokens ++
      [.ended (Scan.ofBytes source).openQuote] = before ++ e :: after → e.isTaking = false →
      (Run.fresh.replay before).reports e = [] := by
    intro before e after hsplit he
    have hmem : e ∈ (Reader.ofScan (Scan.ofBytes source)).story := by
      rw [Reader.story_ofScan, hsplit]
      simp
    rcases Reader.isScan_of_mem_start hmem with ⟨t, rfl⟩ | ⟨l, n, rfl⟩ | ⟨q, rfl⟩
    · cases he
    · obtain ⟨front, back, htrace⟩ := List.append_of_mem (mem_trace_of_mem_start hmem)
      have hliteral : (Run.fresh.replay front).reports (.literal l n) = [] := reports_of_ok h htrace
      exact hliteral
    · cases he
  have htaken := Run.attempts_takings_of_eq_nil (attempts_trace_of_ok h)
  rw [takings_trace] at htaken
  rw [Run.attempts_of_silent_between hbetween rfl, List.filter_append, takings_readEvents]
  exact htaken

theorem attempts_readEvents_without (hlegal : ∀ t ∈ ts ++ e :: c :: us, t.kind ≠ .unknown)
    (hk : c.kind ≠ .number) (hminus : c.is Code.minus = false) (hc : c.brackets = [])
    (hsign : e.is Code.minus = false ∨ ∀ t ∈ us.head?, t.kind ≠ .number)
    (h : Run.fresh.attempts (readEvents false (ts ++ e :: c :: us) ++ [.ended q]) = []) :
    Run.fresh.attempts (readEvents false (ts ++ e :: us) ++ [.ended q]) = [] := by
  have hfront : ∀ t ∈ ts ++ [e], t.kind ≠ .unknown := by
    intro t ht
    rcases List.mem_append.1 ht with ht | ht
    · exact hlegal t (List.mem_append_left _ ht)
    · obtain rfl := List.mem_singleton.1 ht
      exact hlegal t (by simp)
  have hback : ∀ t ∈ us, t.kind ≠ .unknown := fun t ht => hlegal t (by simp [ht])
  have hlegal' : c.kind ≠ .unknown := hlegal c (by simp)
  have hnone : c.literalEvents (e.is Code.minus) = [] := by rw [Token.literalEvents, if_neg hk]
  rw [readEvents_concat hfront, readEvents, if_neg hlegal', hnone, hminus] at h
  rw [readEvents_concat hfront, readEvents_unsigned hback hsign]
  simp only [List.append_assoc, List.cons_append, List.nil_append] at h ⊢
  exact Run.attempts_without_scanned hc h

end PascalCheck
