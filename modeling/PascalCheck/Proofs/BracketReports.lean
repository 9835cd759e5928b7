import PascalCheck.Proofs.Checks
import PascalCheck.Proofs.Nesting
import PascalCheck.Proofs.Report
import PascalCheck.Proofs.Spans

namespace PascalCheck
set_option autoImplicit true

/-- The spellings that open or close a bracket. No token is an opening brace. -/
def bracketSpellings : List (String × BracketMark) := [
    ("(", .opening .round), ("[", .opening .square), (")", .closing .round),
    ("*)", .closing .round), ("]", .closing .square), ("\x7d", .closing .curly)]

def Token.mark? (t : Token) : Option BracketMark := bracketSpellings.lookup t.lexeme

namespace Lexeme

theorem bracketless_of_lookup? (h : (Code.lookup? (spell [b, c])).isSome = true) :
    (b = Filler.star ∧ c = Filler.rightParen) ∨ (b = Filler.leftParen ∧ c = Filler.star) ∨
      (BracketMark.ofChar? (Char.ofUInt8 b) = none ∧
        BracketMark.ofChar? (Char.ofUInt8 c) = none) := by
  have hlists := Code.isSome_lookup?_iff.1 h
  have htable : ∀ entry ∈ Code.table, entry.1.toList.length = 2 →
      entry.1.toList = ['*', ')'] ∨ entry.1.toList = ['(', '*'] ∨
        entry.1.toList.filterMap BracketMark.ofChar? = [] := by
    decide +kernel
  have hbytes : ∀ n < 128,
      ((Char.ofUInt8 (UInt8.ofNat n)).toLower = '*' → UInt8.ofNat n = Filler.star) ∧
      ((Char.ofUInt8 (UInt8.ofNat n)).toLower = '(' → UInt8.ofNat n = Filler.leftParen) ∧
      ((Char.ofUInt8 (UInt8.ofNat n)).toLower = ')' → UInt8.ofNat n = Filler.rightParen) ∧
      BracketMark.ofChar? (Char.ofUInt8 (UInt8.ofNat n)).toLower =
        BracketMark.ofChar? (Char.ofUInt8 (UInt8.ofNat n)) := by
    decide +kernel
  have hbyte : ∀ a ∈ [b, c],
      (Text.lowerChar (Char.ofUInt8 a) = '*' → a = Filler.star) ∧
      (Text.lowerChar (Char.ofUInt8 a) = '(' → a = Filler.leftParen) ∧
      (Text.lowerChar (Char.ofUInt8 a) = ')' → a = Filler.rightParen) ∧
      BracketMark.ofChar? (Text.lowerChar (Char.ofUInt8 a)) =
        BracketMark.ofChar? (Char.ofUInt8 a) := by
    intro a ha
    have hascii := Utf8.toNat_lt_of_ascii (ascii_of_lists hlists a ha)
    rw [Text.lowerChar_of_ascii (c := Char.ofUInt8 a) hascii]
    exact Utf8.of_forall_lt hascii hbytes
  obtain ⟨hbstar, hbleft, -, hbmark⟩ := hbyte b (by simp)
  obtain ⟨hcstar, -, hcright, hcmark⟩ := hbyte c (by simp)
  obtain ⟨entry, hentry, hlist⟩ := exists_chars_of_lists hlists
  rw [List.map_cons, List.map_singleton] at hlist
  rcases htable entry hentry (by simp [hlist]) with hclose | hopen | hnone
  · rw [hlist, List.cons.injEq, List.cons.injEq] at hclose
    exact .inl ⟨hbstar hclose.1, hcright hclose.2.1⟩
  · rw [hlist, List.cons.injEq, List.cons.injEq] at hopen
    exact .inr (.inl ⟨hbleft hopen.1, hcstar hopen.2.1⟩)
  · rw [hlist, List.filterMap_eq_nil_iff] at hnone
    exact .inr (.inr ⟨hbmark ▸ hnone _ (by simp), hcmark ▸ hnone _ (by simp)⟩)

/-- An operator is a bracket exactly if its spelling is one: no brace and no parenthesis before a
star starts an operator. -/
theorem filterMap_operatorBytes (hb : b < 0x80) (hread : Filler.read? (b :: bs) = none) :
    ((operatorBytes b bs).map Char.ofUInt8).filterMap BracketMark.ofChar? =
      (bracketSpellings.lookup (spell (operatorBytes b bs))).toList := by
  have hone : ∀ n < 128, UInt8.ofNat n ≠ Filler.leftBrace →
      [Char.ofUInt8 (UInt8.ofNat n)].filterMap BracketMark.ofChar? =
        (bracketSpellings.lookup (spell [UInt8.ofNat n])).toList := by
    decide +kernel
  have hbrace : b ≠ Filler.leftBrace := by
    rintro rfl
    cases hread
  have hsingle : ([b].map Char.ofUInt8).filterMap BracketMark.ofChar? =
      (bracketSpellings.lookup (spell [b])).toList :=
    Utf8.of_forall_lt (UInt8.lt_iff_toNat_lt.1 hb) hone hbrace
  cases bs with
  | nil => exact hsingle
  | cons c cs =>
    rw [operatorBytes]
    split
    · rename_i hlisted
      rcases bracketless_of_lookup? hlisted with ⟨rfl, rfl⟩ | ⟨rfl, rfl⟩ | ⟨hb', hc'⟩
      · decide
      · cases hread
      · have hnone : bracketSpellings.lookup (spell [b, c]) = none := by
          have hkeys : ∀ entry ∈ bracketSpellings, entry.1.toList.length = 2 →
              entry.1.toList.getLast? = some ')' := by
            decide
          rw [List.lookup_eq_none_iff]
          intro entry hentry
          rw [bne_iff_ne]
          intro hkey
          have hlist : entry.1.toList = [Char.ofUInt8 b, Char.ofUInt8 c] := by
            rw [← hkey]
            simp [spell]
          have hlast := hkeys entry hentry (by simp [hlist])
          simp only [hlist, List.getLast?_cons_cons, List.getLast?_singleton,
            Option.some.injEq] at hlast
          rw [hlast] at hc'
          cases hc'
        simp [hb', hc', hnone]
    · exact hsingle

def bracketChars : List Char := ['(', ')', '[', ']', '\x7d', '*']

theorem lookup_bracketSpellings {s : String} (hx : x ∈ s.toList) (hx' : x ∉ bracketChars) :
    bracketSpellings.lookup s = none := by
  have hkeys : ∀ entry ∈ bracketSpellings, entry.1.toList ⊆ bracketChars := by
    decide
  rw [List.lookup_eq_none_iff]
  intro entry hentry
  rw [bne_iff_ne]
  rintro rfl
  exact hx' (hkeys entry hentry hx)

theorem lookup_spell_cons (hb : isIllegal b = true ∨ isLetter b = true ∨ isDigit b = true ∨
    b = '.'.toUInt8) (bs : List UInt8) : bracketSpellings.lookup (spell (b :: bs)) = none := by
  have hclass : ∀ x ∈ bracketChars, isIllegal x.toUInt8 = false ∧ isLetter x.toUInt8 = false ∧
      isDigit x.toUInt8 = false ∧ x.toUInt8 ≠ '.'.toUInt8 := by
    simp only [bracketChars, List.forall_mem_cons, List.not_mem_nil, false_implies, implies_true]
    decide
  apply lookup_bracketSpellings (x := Char.ofUInt8 b)
  · simp [spell]
  · intro hx
    have hbyte : (Char.ofUInt8 b).toUInt8 = b := UInt8.toUInt8_toUInt32 b
    obtain ⟨hillegal, hletter, hdigit, hpoint⟩ := hclass _ hx
    rw [hbyte] at hillegal hletter hdigit hpoint
    rw [hillegal, hletter, hdigit] at hb
    simp [hpoint] at hb

theorem brackets_of_kind {t : Token} (hk : t.kind ≠ .operator) (hmark : t.mark? = none) :
    t.brackets = t.mark?.toList := by
  rw [Token.brackets, if_neg hk, hmark]
  rfl

theorem brackets_foreign (h : 0x80 ≤ b) (bs : List UInt8) (q : Position) :
    (Layout.token q (foreign (b :: bs))).brackets =
      (Layout.token q (foreign (b :: bs))).mark?.toList := by
  have hhigh := le_decode_of_high h bs
  have hne : ∀ y : Char, y.toNat < 0x80 → (Utf8.decode (b :: bs)).1 ≠ y := by
    intro y hy heq
    rw [heq] at hhigh
    omega
  have hchar : (Utf8.decode (b :: bs)).1 ∉ bracketChars := by
    have hascii : ∀ y ∈ bracketChars, y.toNat < 0x80 := by
      simp only [bracketChars, List.forall_mem_cons, List.not_mem_nil, false_implies, implies_true]
      decide
    intro hx
    exact hne _ (hascii _ hx) rfl
  have hmark : BracketMark.ofChar? (Utf8.decode (b :: bs)).1 = none := by
    have hascii : ∀ k : Bracket, k.opening.toNat < 0x80 ∧ k.closing.toNat < 0x80 := by
      rintro (_ | _ | _) <;> decide
    simp only [BracketMark.ofChar?, hne _ (hascii _).1, hne _ (hascii _).2, if_false]
  have hlookup : (Layout.token q (foreign (b :: bs))).mark? = none :=
    lookup_bracketSpellings (s := (Utf8.decode (b :: bs)).1.toString) (by simp) hchar
  rw [hlookup]
  simp [Layout.token, foreign, Token.brackets, hmark]

theorem brackets_number (h : (isDigit b || (b == '.'.toUInt8 && digitFollows bs)) = true)
    (q : Position) : (Layout.token q (number (numberBytes (b :: bs)))).brackets =
      (Layout.token q (number (numberBytes (b :: bs)))).mark?.toList := by
  obtain ⟨rest, hrest⟩ := numberBytes_front (b :: bs)
  cases hbytes : numberBytes (b :: bs) with
  | nil => exact absurd hbytes (numberBytes_ne_nil h)
  | cons c cs =>
    rw [hbytes] at hrest
    obtain ⟨rfl, -⟩ := List.cons.inj hrest
    have hclass : isDigit c = true ∨ c = '.'.toUInt8 := by
      simp only [Bool.or_eq_true, Bool.and_eq_true, beq_iff_eq] at h
      exact h.imp_right And.left
    exact brackets_of_kind nofun (lookup_spell_cons (.inr (.inr hclass)) cs)

theorem brackets_read (hread : Filler.read? (b :: bs) = none) (q : Position) :
    (Layout.token q (read b bs)).brackets = (Layout.token q (read b bs)).mark?.toList := by
  have hclass := readAs_read b bs
  generalize read b bs = l at hclass ⊢
  cases hclass with
  | illegal hi => exact brackets_of_kind nofun (lookup_spell_cons (.inl hi) [])
  | word hl =>
    have hmark := lookup_spell_cons (.inr (.inl hl)) (bs.takeWhile isWordByte)
    unfold word
    split
    · exact brackets_of_kind nofun hmark
    · exact brackets_of_kind nofun hmark
  | number hn => exact brackets_number (startsNumber_iff.2 hn) q
  | foreign hb => exact brackets_foreign hb bs q
  | operator _ hb =>
    have hmarks := filterMap_operatorBytes hb hread
    unfold operator
    split
    · rename_i hcolon
      exact brackets_of_kind nofun (by rw [hcolon]; rfl)
    · simpa [Layout.token, Token.brackets, Token.mark?, spell] using hmarks

end Lexeme

theorem Scan.brackets_of_mem (h : t ∈ (ofBytes bs).tokens) : t.brackets = t.mark?.toList := by
  obtain ⟨q, piece, hp, rfl⟩ := Layout.exists_of_mem_tokensFrom h
  obtain ⟨b, rest, hread, hnone⟩ := Layout.exists_unfilled_of_mem_pieces hp
  rw [hread]
  exact Lexeme.brackets_read hnone q

theorem not_mem_filterMap_mark? (ts : List Token) :
    .opening .curly ∉ ts.filterMap Token.mark? := by
  have hspellings : ∀ entry ∈ bracketSpellings, entry.2 ≠ .opening .curly := by decide
  intro h
  obtain ⟨t, -, ht⟩ := List.mem_filterMap.1 h
  obtain ⟨before, after, hsplit, -⟩ := List.lookup_eq_some_iff.1 ht
  exact hspellings (t.lexeme, .opening .curly) (by simp [hsplit]) rfl

namespace Run

/-- A run after a token and the check of a number. -/
def takeToken (r : Run) (negated : Bool) (t : Token) : Run :=
  (r.step (.scanned t)).replay (t.literalEvents negated)

theorem replay_tokenEvents_cons (r : Run) (negated : Bool) (t : Token) (ts : List Token) :
    r.replay (tokenEvents negated (t :: ts)) =
      (r.takeToken negated t).replay (tokenEvents (t.is Code.minus) ts) := by
  rw [tokenEvents, List.cons_append, replay_cons, replay_append]
  rfl

theorem brackets_takeToken (r : Run) (negated : Bool) (t : Token) :
    (r.takeToken negated t).brackets = (r.brackets.meetAll t.line t.brackets).1 := by
  have hstep : (r.step (.scanned t)).brackets = (r.brackets.meetAll t.line t.brackets).1 := by
    rw [step_eq]
    rfl
  rw [← hstep, takeToken, Token.literalEvents]
  split <;> rfl

theorem forall_code_reports_scanned (r : Run) (t : Token) :
    (∀ d ∈ r.reports (.scanned t), d.code ≠ 116) ↔
      (r.brackets.meetAll t.line t.brackets).2 = [] := by
  constructor
  · intro h
    rw [List.eq_nil_iff_forall_not_mem]
    intro f hf
    exact h _ (List.mem_append_left _ (List.mem_map_of_mem hf)) rfl
  · intro h d hd
    rcases List.mem_append.1 hd with hd | hd
    · rw [bracketReports, h] at hd
      cases hd
    · exact Token.code_of_mem_reports hd

theorem code_attempts_literalEvents {r : Run} {t : Token}
    (h : d ∈ r.attempts (t.literalEvents negated)) : d.code ≠ 116 := by
  rw [Token.literalEvents] at h
  split at h
  · simp only [attempts, List.append_nil] at h
    obtain ⟨c, hc, rfl⟩ := Finding.mem_diagnostics.1 h
    have hcode := Cause.isOfLiteral_iff.1 (ValueType.isOfLiteral_of_mem_check hc)
    rw [Cause.code_onLine]
    intro heq
    rw [heq] at hcode
    simp at hcode
  · cases h

/-- Nothing is reported about brackets if and only if the tokens close those that are open, each
with its own kind, and all that they open. -/
theorem forall_code_attempts_iff {r : Run} (hts : ∀ t ∈ ts, t.brackets = t.mark?.toList) :
    (∀ d ∈ r.attempts (tokenEvents negated ts ++ [.ended q]), d.code ≠ 116) ↔
      BracketMark.closesAll (r.brackets.frames.map OpenBracket.bracket)
        (ts.filterMap Token.mark?) = true := by
  induction ts generalizing r negated with
  | nil =>
    -- Neither an open string nor anything but an open bracket is reported under the code.
    cases q <;>
      simp [tokenEvents, attempts, reports, unclosedReports, Brackets.unclosed,
        BracketMark.closesAll, Cause.code_onLine, Cause.code, List.eq_nil_iff_forall_not_mem]
  | cons t ts ih =>
    have hsplit : (∀ d ∈ r.attempts (tokenEvents negated (t :: ts) ++ [.ended q]), d.code ≠ 116) ↔
        (∀ d ∈ r.reports (.scanned t), d.code ≠ 116) ∧
        ∀ d ∈ (r.takeToken negated t).attempts (tokenEvents (t.is Code.minus) ts ++ [.ended q]),
          d.code ≠ 116 := by
      simp only [tokenEvents, List.cons_append, List.append_assoc, attempts, List.mem_append,
        mem_attempts_append, or_imp, forall_and]
      simp only [takeToken]
      constructor
      · rintro ⟨h, -, h'⟩
        exact ⟨h, h'⟩
      · rintro ⟨h, h'⟩
        exact ⟨h, fun d hd => code_attempts_literalEvents hd, h'⟩
    rw [hsplit, forall_code_reports_scanned, ih fun u hu => hts u (List.mem_cons_of_mem t hu),
      brackets_takeToken, hts t List.mem_cons_self]
    cases hmark : t.mark? with
    | none => simp [hmark, Brackets.meetAll]
    | some m =>
      cases m with
      | opening b => simp [hmark, Brackets.meetAll, Brackets.meet, BracketMark.closesAll]
      | closing b =>
        cases hframes : r.brackets.frames with
        | nil => simp [hmark, hframes, Brackets.meetAll, Brackets.meet, BracketMark.closesAll]
        | cons f fs => simp [hmark, hframes, Brackets.meetAll, Brackets.meet, BracketMark.closesAll]

end Run

/-- One of the tokens opens the bracket, and those after it keep it open. -/
def LeavesOpen (f : OpenBracket) (ts : List Token) : Prop :=
  ∃ before t after, ts = before ++ t :: after ∧ t.mark? = some (.opening f.bracket) ∧
    t.line = f.line ∧ BracketMark.KeepOpen (after.filterMap Token.mark?)

theorem leavesOpen_cons : LeavesOpen f (t :: ts) ↔
    (t.mark? = some (.opening f.bracket) ∧ t.line = f.line ∧
      BracketMark.KeepOpen (ts.filterMap Token.mark?)) ∨ LeavesOpen f ts := by
  constructor
  · rintro ⟨before, u, after, hsplit, hu⟩
    cases before with
    | nil =>
      obtain ⟨rfl, rfl⟩ := List.cons.inj hsplit
      exact .inl hu
    | cons v before =>
      obtain ⟨rfl, rfl⟩ := List.cons.inj hsplit
      exact .inr ⟨before, u, after, rfl, hu⟩
  · rintro (ht | ⟨before, u, after, rfl, hu⟩)
    · exact ⟨[], t, ts, rfl, ht⟩
    · exact ⟨t :: before, u, after, rfl, hu⟩

/-- The brackets open after some tokens are those that the tokens leave open and, of those open
before, the ones that they do not reach. -/
theorem Run.mem_frames_replay {r : Run} (hts : ∀ t ∈ ts, t.brackets = t.mark?.toList) :
    f ∈ (r.replay (tokenEvents negated ts)).brackets.frames ↔
      LeavesOpen f ts ∨
        f ∈ r.brackets.frames.drop (BracketMark.reach (ts.filterMap Token.mark?)) := by
  induction ts generalizing r negated with
  | nil => simp [tokenEvents, BracketMark.reach, LeavesOpen]
  | cons t ts ih =>
    rw [replay_tokenEvents_cons, ih fun u hu => hts u (List.mem_cons_of_mem t hu), leavesOpen_cons,
      brackets_takeToken, hts t List.mem_cons_self, BracketMark.keepOpen_iff]
    cases hmark : t.mark? with
    | none => simp [hmark, Brackets.meetAll]
    | some m =>
      cases m with
      | opening b =>
        have hf : f = ⟨b, t.line⟩ ↔ b = f.bracket ∧ t.line = f.line := by
          obtain ⟨b', line⟩ := f
          grind
        simp only [hmark, List.filterMap_cons_some, BracketMark.reach, Option.toList_some,
          Brackets.meetAll, Brackets.meet, Option.some.injEq, BracketMark.opening.injEq]
        cases hreach : BracketMark.reach (ts.filterMap Token.mark?) with
        | zero => simp [hf, or_assoc, or_left_comm]
        | succ n => simp
      | closing b =>
        cases hframes : r.brackets.frames with
        | nil => simp [hmark, hframes, Brackets.meetAll, Brackets.meet]
        | cons g fs => simp [hmark, hframes, Brackets.meetAll, Brackets.meet, BracketMark.reach]

/-- The brackets open when the last token of a source is read. -/
def openAtEnd (source : List UInt8) : Brackets :=
  (Run.fresh.replay (tokenEvents false (Scan.ofBytes source).tokens)).brackets

theorem mem_tokenize_iff_attempts : d ∈ (tokenize source).2 ↔
    d ∈ Run.fresh.attempts (tokenEvents false (Scan.ofBytes source).tokens ++
      [.ended (Scan.ofBytes source).openQuote]) :=
  mem_list_replay_fresh

/-- A source has no report about brackets if and only if the word of its brackets is well nested.
Each bracket open at its end is reported on the line where it was opened, and these are the
brackets that no later ones close. -/
theorem bracket_reports_are_exact (source : List UInt8) :
    ((∀ d ∈ (tokenize source).2, d.code ≠ 116) ↔
      WellNested ((tokenize source).1.filterMap Token.mark?)) ∧
    (∀ f ∈ (openAtEnd source).frames,
      (Cause.bracket (.unclosed f.bracket f.line)).onLine f.line ∈ (tokenize source).2) ∧
    ∀ f, f ∈ (openAtEnd source).frames ↔ LeavesOpen f (tokenize source).1 := by
  have hts : ∀ t ∈ (Scan.ofBytes source).tokens, t.brackets = t.mark?.toList :=
    fun t => Scan.brackets_of_mem
  refine ⟨?_, ?_, ?_⟩
  · rw [← BracketMark.closesAll_iff (not_mem_filterMap_mark? _)]
    simp only [mem_tokenize_iff_attempts]
    exact Run.forall_code_attempts_iff hts
  · intro f hf
    rw [mem_tokenize_iff_attempts, Run.mem_attempts_append]
    refine .inr (List.mem_append_left _ (List.mem_append_right _ ?_))
    simpa [Run.unclosedReports, Brackets.unclosed] using ⟨f, hf, rfl⟩
  · intro f
    rw [openAtEnd, Run.mem_frames_replay hts]
    simp [Run.fresh, Run.ofChecker, Brackets.empty, tokenize]

/-- A source in which a square bracket closes a parenthesis and two brackets stay open. -/
def openBrackets : List UInt8 := "a[(b] := (* ) *) 1\n(".toUTF8.toList

theorem bracket_reports_are_exact_openBrackets :
    ⟨.square, 1⟩ ∈ (openAtEnd openBrackets).frames ∧
      (Cause.bracket (.unclosed .square 1)).onLine 1 ∈ (tokenize openBrackets).2 ∧
      ¬ WellNested ((tokenize openBrackets).1.filterMap Token.mark?) := by
  obtain ⟨hnested, hreported, -⟩ := bracket_reports_are_exact openBrackets
  have hopen : ⟨.square, 1⟩ ∈ (openAtEnd openBrackets).frames := by decide +kernel
  have hunclosed := hreported _ hopen
  refine ⟨hopen, hunclosed, ?_⟩
  intro h
  exact hnested.2 h _ hunclosed rfl

end PascalCheck
