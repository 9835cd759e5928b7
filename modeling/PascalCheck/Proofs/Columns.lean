import PascalCheck.Proofs.Spans

namespace PascalCheck
set_option autoImplicit true

namespace Utf8

/-- Cuts bytes into characters, each as wide as a step of decoding makes it. -/
def characters (bs : List UInt8) : List (List UInt8) :=
  match bs with
  | [] => []
  | b :: bs =>
    (b :: bs).take (decode (b :: bs)).2 :: characters ((b :: bs).drop (decode (b :: bs)).2)
termination_by bs.length
decreasing_by
  have hwidth := decode_width_pos b bs
  rw [List.length_drop, List.length_cons]
  omega

def isStray (c : List UInt8) : Bool := c.length == 1 && c.all isContinuation

def strays (bs : List UInt8) : Nat := (characters bs).countP isStray

@[simp] theorem characters_nil : characters [] = [] := by
  rw [characters]

theorem characters_cons (b : UInt8) (bs : List UInt8) :
    characters (b :: bs) =
      (b :: bs).take (decode (b :: bs)).2 ::
        characters ((b :: bs).drop (decode (b :: bs)).2) := by
  rw [characters]

theorem strays_cons (b : UInt8) (bs : List UInt8) :
    strays (b :: bs) =
      strays ((b :: bs).drop (decode (b :: bs)).2) +
        if isStray ((b :: bs).take (decode (b :: bs)).2) then 1 else 0 := by
  rw [strays, characters_cons, List.countP_cons]
  rfl

theorem Encodes.exists_cons (h : Encodes v bs) :
    ∃ b tail, bs = b :: tail ∧ isContinuation b = false ∧
      ∀ c ∈ tail, isContinuation c = true := by
  simp only [← Bool.not_eq_true, isContinuation_iff]
  cases h with
  | one _ ha => exact ⟨_, _, rfl, by omega, by simp⟩
  | two _ _ ha hb => exact ⟨_, _, rfl, by omega, by simp; omega⟩
  | three _ _ _ ha hb hc => exact ⟨_, _, rfl, by omega, by simp; omega⟩
  | four _ _ ha hb hc hd => exact ⟨_, _, rfl, by omega, by simp; omega⟩

/-- Every character has one byte that is no continuation byte, or is stray. -/
theorem countP_character (b : UInt8) (bs : List UInt8) :
    ((b :: bs).take (decode (b :: bs)).2).countP (!isContinuation ·) +
      (if isStray ((b :: bs).take (decode (b :: bs)).2) then 1 else 0) = 1 := by
  rcases decode_cases b bs with ⟨c, rest, hbs, hdecode⟩ | ⟨-, hdecode⟩
  · obtain ⟨lead, tail, hc, hlead, htail⟩ := (encodes_utf8EncodeChar c).exists_cons
    have hnone : tail.countP (!isContinuation ·) = 0 := by
      rw [List.countP_eq_zero]
      intro x hx
      simp [htail x hx]
    rw [hdecode, hbs, List.take_left, hc, List.countP_cons, hnone]
    simp [isStray, hlead]
  · rw [hdecode, List.take_succ_cons, List.take_zero]
    cases hb : isContinuation b <;> simp [isStray, hb]

theorem countP_add_strays (bs : List UInt8) :
    bs.countP (!isContinuation ·) + strays bs = (characters bs).length := by
  fun_induction characters bs with
  | case1 => simp [strays]
  | case2 b bs ih =>
    have hcharacter := countP_character b bs
    have hsplit : (b :: bs).countP (!isContinuation ·) =
        ((b :: bs).take (decode (b :: bs)).2).countP (!isContinuation ·) +
          ((b :: bs).drop (decode (b :: bs)).2).countP (!isContinuation ·) := by
      rw [← List.countP_append, List.take_append_drop]
    rw [strays_cons, List.length_cons]
    omega

end Utf8

def lastLine (bs : List UInt8) : List UInt8 := (bs.reverse.takeWhile (· != 0x0A)).reverse

namespace Position

/-- The column counts the characters of the last line of the bytes before a place, but for the
stray continuation bytes among them. -/
def CountsCharacters (p : Position) (before : List UInt8) : Prop :=
  p.col + Utf8.strays (lastLine before) = 1 + (Utf8.characters (lastLine before)).length

theorem countsCharacters_counted (bs : List UInt8) : (counted bs).CountsCharacters bs := by
  have hcount := Utf8.countP_add_strays (lastLine bs)
  have hcol : (counted bs).col = 1 + (lastLine bs).countP (!Utf8.isContinuation ·) := by
    rw [lastLine, List.countP_reverse]
    rfl
  rw [CountsCharacters, hcol]
  omega

/-- The place stands on an earlier line, or in an earlier column of the line. -/
def Before (p q : Position) : Prop := p.line < q.line ∨ p.line = q.line ∧ p.col < q.col

instance (p q : Position) : Decidable (p.Before q) := inferInstanceAs (Decidable (_ ∨ _ ∧ _))

theorem Before.trans (h : Before p q) (k : Before q r) : Before p r := by
  unfold Before at *
  omega

theorem step_of_continuation (p : Position) (h : Utf8.isContinuation b = true) : p.step b = p := by
  have hnewline : b ≠ '\n'.toUInt8 := by
    rintro rfl
    exact absurd h (by decide)
  rw [step, if_neg hnewline, if_pos h]

theorem before_step (p : Position) (h : Utf8.isContinuation b = false) : p.Before (p.step b) := by
  rw [step]
  split
  · exact .inl (Nat.lt_succ_self _)
  · rw [if_neg (by simp [h])]
    exact .inr ⟨rfl, Nat.lt_succ_self _⟩

/-- Only continuation bytes leave a place as it is. -/
theorem after_cases (p : Position) (bs : List UInt8) :
    (p.after bs = p ∧ ∀ b ∈ bs, Utf8.isContinuation b = true) ∨ p.Before (p.after bs) := by
  induction bs generalizing p with
  | nil => exact .inl ⟨rfl, by simp⟩
  | cons b bs ih =>
    rw [after_cons]
    cases hb : Utf8.isContinuation b with
    | true =>
      rw [p.step_of_continuation hb]
      exact (ih p).imp (fun h => ⟨h.1, List.forall_mem_cons.2 ⟨hb, h.2⟩⟩) id
    | false =>
      have hstep := p.before_step hb
      rcases ih (p.step b) with ⟨hsame, -⟩ | hafter
      · rw [hsame]
        exact .inr hstep
      · exact .inr (hstep.trans hafter)

end Position

theorem Token.ReadFrom.exists_stray (h : Token.ReadFrom t span rest)
    (hspan : ∀ b ∈ span, Utf8.isContinuation b = true) :
    ∃ b, span = [b] ∧ Utf8.isContinuation b = true := by
  cases h with
  | @ascii b bs _ hb _ =>
    have hcontinuation := (Utf8.isContinuation_iff b).1 (hspan b List.mem_cons_self)
    have hlow := UInt8.lt_iff_toNat_lt.1 hb
    exact absurd hlow (by simpa using hcontinuation.1)
  | @char c _ _ _ =>
    obtain ⟨lead, tail, hc, hlead, -⟩ := (Utf8.encodes_utf8EncodeChar c).exists_cons
    have hcontinuation := hspan lead (by simp [hc])
    rw [hlead] at hcontinuation
    cases hcontinuation
  | @byte b _ _ _ _ => exact ⟨b, rfl, hspan b List.mem_cons_self⟩

theorem Filler.exists_not_continuation {f : Filler} (h : f.Proper) :
    ∃ b ∈ f.bytes, Utf8.isContinuation b = false := by
  cases f with
  | blank b =>
    have hblank : [0x20, 0x09, 0x0D, 0x0A, 0x0C, 0x0B].all (!Utf8.isContinuation ·) = true := by
      decide
    exact ⟨b, List.mem_singleton_self b, by simpa using List.all_eq_true.1 hblank b h⟩
  | braced body closed => exact ⟨leftBrace, by simp [bytes], by decide⟩
  | starred body closed => exact ⟨leftParen, by simp [bytes], by decide⟩
  | quoted body closed => exact ⟨quoteMark, by simp [bytes], by decide⟩

theorem Filler.eq_nil_of_continuations {fs : List Filler} (hfs : ∀ f ∈ fs, f.Proper)
    (h : ∀ b ∈ allBytes fs, Utf8.isContinuation b = true) : fs = [] := by
  cases fs with
  | nil => rfl
  | cons f fs =>
    obtain ⟨b, hb, hlead⟩ := exists_not_continuation (hfs f List.mem_cons_self)
    have hcontinuation := h b (by simp [allBytes, hb])
    rw [hlead] at hcontinuation
    cases hcontinuation

def nextGap (pieces : List (List Filler × List UInt8)) (last : List Filler) : List Filler :=
  (pieces.map Prod.fst).headD last

theorem Cut.proper_nextGap (h : Cut source (front ++ back) last) :
    ∀ f ∈ nextGap back last, f.Proper := by
  cases back with
  | nil => exact h.properLast
  | cons piece back => exact h.proper piece (by simp)

theorem Stream.place_tokenAt_succ {front back : List (List Filler × Lexeme)}
    (h : (Layout.ofBytes source).pieces = front ++ (fs, lexeme) :: back) (sink : Sink) :
    ((ofBytes source sink).tokenAt (front.length + 1)).place =
      ((ofBytes source sink).tokenAt front.length).place.after (lexeme.bytes ++
        Filler.allBytes (nextGap (back.map fun piece => (piece.1, piece.2.bytes))
          (Layout.ofBytes source).tail)) := by
  rw [tokenAt_of_pieces h sink, Layout.token, ← Position.after_eq_counted,
    ← Position.after_append]
  cases back with
  | nil =>
    have hlength : (Layout.ofBytes source).pieces.length ≤ front.length + 1 := by simp [h]
    have hend := congrArg Position.start.after (Layout.bytes_ofBytes source).symm
    rw [Layout.bytes, h] at hend
    rw [tokenAt_of_length_le hlength sink, Token.endAt, ← Position.after_eq_counted, hend]
    simp [nextGap, Layout.pieceBytes]
  | cons piece back =>
    obtain ⟨fs', lexeme'⟩ := piece
    have hnext : (Layout.ofBytes source).pieces =
        (front ++ [(fs, lexeme)]) ++ (fs', lexeme') :: back := by simp [h]
    have htoken := tokenAt_of_pieces hnext sink
    rw [List.length_append, List.length_singleton] at htoken
    rw [htoken, Layout.token, ← Position.after_eq_counted]
    simp [nextGap, Layout.pieceBytes]

/-- Every column counts the characters before it on its line, stray continuation bytes left out. So
each token but the end of the input stands before the next one, unless it is a stray continuation
byte with nothing between it and the next one: then both stand at one place. -/
theorem columns_count_characters (source : List UInt8) (sink : Sink) :
    ∃ pieces last, Cut source pieces last ∧
      (∀ front gap span back, pieces = front ++ (gap, span) :: back →
        ((Stream.ofBytes source sink).tokenAt front.length).kind ≠ .endOfInput ∧
        ((Stream.ofBytes source sink).tokenAt front.length).ReadFrom span
          (cutBytes back ++ Filler.allBytes last) ∧
        ((Stream.ofBytes source sink).tokenAt front.length).place.CountsCharacters
          (cutBytes front ++ Filler.allBytes gap) ∧
        (((Stream.ofBytes source sink).tokenAt front.length).place.Before
            ((Stream.ofBytes source sink).tokenAt (front.length + 1)).place ∨
          ((Stream.ofBytes source sink).tokenAt (front.length + 1)).place =
              ((Stream.ofBytes source sink).tokenAt front.length).place ∧
            (∃ b, span = [b] ∧ Utf8.isContinuation b = true) ∧ nextGap back last = [])) ∧
      ∀ n, pieces.length ≤ n →
        ((Stream.ofBytes source sink).tokenAt n).kind = .endOfInput ∧
        ((Stream.ofBytes source sink).tokenAt n).place.CountsCharacters source := by
  have hcut := Layout.cut_ofBytes source
  refine ⟨_, _, hcut, ?_, ?_⟩
  · intro front gap span back hpieces
    have hgap : ∀ f ∈ nextGap back (Layout.ofBytes source).tail, f.Proper := by
      rw [hpieces, List.append_cons] at hcut
      exact hcut.proper_nextGap
    obtain ⟨front, lexeme, back, hsplit, rfl, rfl, rfl⟩ := Layout.exists_of_spans hpieces
    have htoken := Stream.tokenAt_of_pieces hsplit sink
    have hread := Layout.readFrom_of_pieces hsplit
      (Position.counted (front.flatMap Layout.pieceBytes ++ Filler.allBytes gap))
    rw [List.length_map, Layout.cutBytes_map, Layout.cutBytes_map]
    refine ⟨?_, by rw [htoken]; exact hread, ?_, ?_⟩
    · exact Stream.kind_tokenAt_of_pieces hsplit sink
    · rw [htoken]
      exact Position.countsCharacters_counted _
    · rw [Stream.place_tokenAt_succ hsplit sink]
      refine (Position.after_cases _ _).symm.imp id ?_
      rintro ⟨hsame, hbytes⟩
      refine ⟨hsame, hread.exists_stray fun b hb => hbytes b (List.mem_append_left _ hb), ?_⟩
      exact Filler.eq_nil_of_continuations hgap fun b hb => hbytes b (List.mem_append_right _ hb)
  · intro n hn
    rw [Layout.spans, List.length_map] at hn
    rw [Stream.tokenAt_of_length_le hn sink]
    exact ⟨rfl, Position.countsCharacters_counted source⟩

def strayBeforeName : List UInt8 := [0x80, 0x78]

/-- Places do not increase from each token to the next. -/
theorem not_forall_before_next :
    ¬ ∀ (source : List UInt8) (sink : Sink) (n : Nat),
      ((Stream.ofBytes source sink).tokenAt n).kind ≠ .endOfInput →
        ((Stream.ofBytes source sink).tokenAt n).place.Before
          ((Stream.ofBytes source sink).tokenAt (n + 1)).place :=
  fun h => absurd (h strayBeforeName .empty 0 (by decide +kernel)) (by decide +kernel)

end PascalCheck
