import Mathlib.Data.List.Induction
import PascalCheck.Proofs.CodeTable
import PascalCheck.Proofs.Encoding
import PascalCheck.Proofs.Streams

namespace PascalCheck
set_option autoImplicit true

namespace Position

/-- The place after bytes: one line more than there are newlines, and one column more than there are
bytes after the last of them, continuation bytes left out. -/
def counted (bs : List UInt8) : Position where
  line := 1 + bs.count 0x0A
  col := 1 + (bs.reverse.takeWhile (· != 0x0A)).countP (!Utf8.isContinuation ·)

theorem after_eq_counted (bs : List UInt8) : start.after bs = counted bs := by
  induction bs using List.reverseRecOn with
  | nil => rfl
  | append_singleton bs b ih =>
    rw [after_append, ih, after_cons, after_nil, step]
    have hreverse : (bs ++ [b]).reverse = b :: bs.reverse := by simp
    have hnewline : '\n'.toUInt8 = 0x0A := rfl
    rw [counted, counted, hreverse, hnewline]
    by_cases hb : b = 0x0A
    · subst hb
      simp [List.count_append, Nat.add_assoc]
    · have hne : (b != 0x0A) = true := by simpa using hb
      simp only [if_neg hb, List.takeWhile_cons, hne, if_true, List.count_append]
      cases hc : Utf8.isContinuation b with
      | true => simp [hb, hc]
      | false => simp [hb, hc, Nat.add_assoc]

end Position

namespace Filler

/-- A filler as it may stand in a source: one of six blanks, or a body that does not hold the mark
that closes it. -/
def Proper : Filler → Prop
  | .blank b => b ∈ [0x20, 0x09, 0x0D, 0x0A, 0x0C, 0x0B]
  | .braced body _ => rightBrace ∉ body
  | .starred body true => ¬ [star, rightParen] <:+: body ++ [star]
  | .starred body false => ¬ [star, rightParen] <:+: body
  | .quoted body _ => quoteMark ∉ body

theorem not_mem_upTo (close : UInt8) (bs : List UInt8) : close ∉ (upTo close bs).1 := by
  induction bs with
  | nil => exact List.not_mem_nil
  | cons b bs ih =>
    by_cases h : b = close
    · simp [upTo, h]
    · simp [upTo, h, ih, Ne.symm h]

theorem not_infix_upToStar_closed (h : (upToStar bs).2.1 = true) :
    ¬ [star, rightParen] <:+: (upToStar bs).1 ++ [star] := by
  induction bs with
  | nil => cases h
  | cons b bs ih =>
    by_cases hb : b = star ∧ bs.head? = some rightParen
    · have hbody : (upToStar (b :: bs)).1 = [] := by simp [upToStar, hb]
      rw [hbody]
      decide
    · have hbody : (upToStar (b :: bs)).1 = b :: (upToStar bs).1 := by simp [upToStar, hb]
      have hclosed : (upToStar bs).2.1 = true := by simpa [upToStar, hb] using h
      rw [hbody, List.cons_append, List.infix_cons_iff, not_or]
      refine ⟨?_, ih hclosed⟩
      rintro ⟨rest, hrest⟩
      obtain ⟨hstar, hparen⟩ := List.cons.inj hrest
      -- The bytes go on as in the source, where no closing mark stands.
      have hhead := head?_upToStar hclosed []
      rw [← hparen] at hhead
      exact hb ⟨hstar.symm, hhead.symm⟩

theorem not_infix_upToStar_open (h : (upToStar bs).2.1 = false) :
    ¬ [star, rightParen] <:+: (upToStar bs).1 := by
  induction bs with
  | nil => decide
  | cons b bs ih =>
    by_cases hb : b = star ∧ bs.head? = some rightParen
    · simp [upToStar, hb] at h
    · have hbody : (upToStar (b :: bs)).1 = b :: (upToStar bs).1 := by simp [upToStar, hb]
      have hopen : (upToStar bs).2.1 = false := by simpa [upToStar, hb] using h
      have hall : (upToStar bs).1 = bs := by
        have happend := upToStar_append bs
        rw [hopen, upToStar_open hopen] at happend
        simpa using happend
      rw [hbody, List.infix_cons_iff, not_or]
      refine ⟨?_, ih hopen⟩
      rintro ⟨rest, hrest⟩
      obtain ⟨hstar, hparen⟩ := List.cons.inj hrest
      rw [hall] at hparen
      exact hb ⟨hstar.symm, by rw [← hparen]; rfl⟩

theorem proper_of_read? (h : read? bs = some (f, rest)) : f.Proper := by
  rcases read?_cases h with
    ⟨b, -, hb, rfl⟩ | ⟨cs, -, rfl, -⟩ | ⟨cs, -, rfl, -⟩ | ⟨cs, -, rfl, -⟩
  · simpa [Proper, isBlank, or_assoc] using hb
  · exact not_mem_upTo _ _
  · exact not_mem_upTo _ _
  · cases hclosed : (upToStar cs).2.1 with
    | true => exact not_infix_upToStar_closed hclosed
    | false => exact not_infix_upToStar_open hclosed

theorem proper_of_run (bs : List UInt8) : ∀ f ∈ (run bs).1, f.Proper := by
  fun_induction run bs with
  | case1 bs hr => simp
  | case2 bs f rest hr fs after ha ih =>
    rw [ha] at ih
    intro g hg
    rcases List.mem_cons.1 hg with rfl | hg
    · exact proper_of_read? hr
    · exact ih g hg

theorem closed_dropLast_run (bs : List UInt8) : ∀ f ∈ (run bs).1.dropLast, f.closed = true := by
  fun_induction run bs with
  | case1 bs hr => simp
  | case2 bs f rest hr fs after ha ih =>
    rw [ha] at ih
    cases hopen : f.closed with
    | true =>
      intro g hg
      cases fs with
      | nil => simp at hg
      | cons f' fs =>
        rcases List.mem_cons.1 hg with rfl | hg
        · exact hopen
        · exact ih g hg
    | false =>
      have hnil : run [] = ([], []) := run_of_none rfl
      rw [rest_of_open hr hopen, hnil] at ha
      obtain ⟨rfl, -⟩ := Prod.mk.inj ha
      simp

end Filler

/-- A token is read from a span with bytes after it: the lexeme is the span, but outside ASCII the
span is the encoding of one character, or a byte that starts no encoding. -/
inductive Token.ReadFrom (t : Token) : List UInt8 → List UInt8 → Prop where
  | ascii : b < 0x80 → t.lexeme.toUTF8.toList = b :: bs → ReadFrom t (b :: bs) rest
  | char : 0x80 ≤ c.toNat → t.lexeme = c.toString → ReadFrom t (String.utf8EncodeChar c) rest
  | byte : 0x80 ≤ b → (∀ c, ¬ String.utf8EncodeChar c <+: b :: rest) → t.lexeme = "\uFFFD" →
      ReadFrom t [b] rest

namespace Lexeme

@[grind =] theorem isLetter_iff :
    isLetter b = true ↔ (0x61 ≤ b ∧ b ≤ 0x7A ∨ 0x41 ≤ b ∧ b ≤ 0x5A) ∨ b = 0x5F := by
  simp only [isLetter, Bool.or_eq_true, Bool.and_eq_true, decide_eq_true_eq, beq_iff_eq]
  rfl

@[grind =] theorem isDigit_iff : isDigit b = true ↔ 0x30 ≤ b ∧ b ≤ 0x39 := by
  simp only [isDigit, Bool.and_eq_true, decide_eq_true_eq]
  rfl

@[grind =] theorem isIllegal_iff :
    isIllegal b = true ↔ ((b = 0x40 ∨ b = 0x24) ∨ b = 0x26) ∨ b = 0x3F := by
  simp only [isIllegal, Bool.or_eq_true, beq_iff_eq]
  rfl

@[grind =] theorem isExponentMark_iff : isExponentMark b = true ↔ b = 0x65 ∨ b = 0x45 := by
  simp only [isExponentMark, Bool.or_eq_true, beq_iff_eq]
  rfl

@[grind =] theorem isSign_iff : isSign b = true ↔ b = 0x2B ∨ b = 0x2D := by
  simp only [isSign, Bool.or_eq_true, beq_iff_eq]
  rfl

attribute [grind =] isWordByte Utf8.isHigh Filler.isBlank Filler.quoteMark Filler.leftParen
  Filler.star Filler.leftBrace Filler.starts

theorem toUInt8_point : '.'.toUInt8 = 0x2E := rfl

theorem toUInt8_equals : '='.toUInt8 = 0x3D := rfl

theorem utf8EncodeChar_ofUInt8 (h : Utf8.isHigh b = false) :
    String.utf8EncodeChar (Char.ofUInt8 b) = [b] := by
  have hb : b.toNat ≤ 127 := Nat.le_of_lt_succ (Utf8.toNat_lt_of_ascii h)
  have hval : (Char.ofUInt8 b).val.toNat = b.toNat := rfl
  simp [String.utf8EncodeChar, hval, hb]

theorem toList_spell (h : ∀ b ∈ bs, Utf8.isHigh b = false) : (spell bs).toUTF8.toList = bs := by
  rw [spell, toList_toUTF8]
  induction bs with
  | nil => rfl
  | cons b bs ih =>
    rw [List.map_cons, List.flatMap_cons, utf8EncodeChar_ofUInt8 (h b List.mem_cons_self),
      ih fun c hc => h c (List.mem_cons_of_mem b hc)]
    rfl

theorem ascii_takeWhile {p : UInt8 → Bool} (hp : ∀ b, p b = true → Utf8.isHigh b = false)
    (bs : List UInt8) : ∀ b ∈ bs.takeWhile p, Utf8.isHigh b = false :=
  fun b hb => hp b (List.all_eq_true.1 List.all_takeWhile b hb)

theorem ascii_of_isWordByte : ∀ b, isWordByte b = true → Utf8.isHigh b = false := by
  grind

theorem ascii_of_isDigit : ∀ b, isDigit b = true → Utf8.isHigh b = false := by
  grind

theorem ascii_fraction (bs : List UInt8) : ∀ b ∈ fraction bs, Utf8.isHigh b = false := by
  unfold fraction
  split
  · split
    · rename_i p d bs h
      intro b hb
      rcases List.mem_cons.1 hb with rfl | hb
      · rw [h.1]
        rfl
      rcases List.mem_cons.1 hb with rfl | hb
      · exact ascii_of_isDigit b h.2
      · exact ascii_takeWhile ascii_of_isDigit bs b hb
    · simp
  · simp

theorem ascii_signedDigits (bs : List UInt8) : ∀ b ∈ signedDigits bs, Utf8.isHigh b = false := by
  have hsign : ∀ b, isSign b = true → Utf8.isHigh b = false := by
    grind
  unfold signedDigits
  split
  · simp
  · split
    · rename_i s bs h
      intro b hb
      rcases List.mem_cons.1 hb with rfl | hb
      · exact hsign b h
      · exact ascii_takeWhile ascii_of_isDigit bs b hb
    · exact ascii_takeWhile ascii_of_isDigit _

theorem ascii_exponent (bs : List UInt8) : ∀ b ∈ exponent bs, Utf8.isHigh b = false := by
  have hmark : ∀ b, isExponentMark b = true → Utf8.isHigh b = false := by
    grind
  unfold exponent
  split
  · simp
  · split
    · rename_i e bs h
      intro b hb
      rcases List.mem_cons.1 hb with rfl | hb
      · exact hmark b h
      · exact ascii_signedDigits bs b hb
    · simp

theorem ascii_numberBytes (bs : List UInt8) : ∀ b ∈ numberBytes bs, Utf8.isHigh b = false := by
  intro b hb
  simp only [numberBytes, List.mem_append] at hb
  rcases hb with (hb | hb) | hb
  · exact ascii_takeWhile ascii_of_isDigit bs b hb
  · exact ascii_fraction _ b hb
  · exact ascii_exponent _ b hb

theorem ascii_operatorBytes (hb : Utf8.isHigh b = false) (bs : List UInt8) :
    ∀ c ∈ operatorBytes b bs, Utf8.isHigh c = false := by
  unfold operatorBytes
  split
  · simpa using hb
  · split
    · exact ascii_of_lists (Code.isSome_lookup?_iff.1 ‹_›)
    · simpa using hb

theorem not_isHigh_iff : Utf8.isHigh b = false ↔ b < 0x80 := by
  simp [Utf8.isHigh]

theorem toList_text_read (h : b < 0x80) (bs : List UInt8) :
    (read b bs).text.toUTF8.toList = (read b bs).bytes := by
  have hb := not_isHigh_iff.2 h
  have hread := readAs_read b bs
  generalize read b bs = l at hread ⊢
  cases hread with
  | illegal _ => exact toList_spell (by simpa using hb)
  | word _ =>
    have hword : ∀ c ∈ b :: bs.takeWhile isWordByte, Utf8.isHigh c = false :=
      List.forall_mem_cons.2 ⟨hb, ascii_takeWhile ascii_of_isWordByte bs⟩
    unfold word
    split
    · exact toList_spell hword
    · exact toList_spell hword
  | number _ => exact toList_spell (ascii_numberBytes _)
  | foreign hhigh => exact absurd h (UInt8.not_lt.2 hhigh)
  | operator _ _ =>
    unfold operator
    split
    · exact toList_spell (ascii_operatorBytes hb bs)
    · exact toList_spell (ascii_operatorBytes hb bs)

theorem read_of_high (h : 0x80 ≤ b) (bs : List UInt8) : read b bs = foreign (b :: bs) := by
  have hclass : ∀ b : UInt8, 0x80 ≤ b →
      isIllegal b = false ∧ isLetter b = false ∧ isDigit b = false ∧
        (b == '.'.toUInt8) = false := by
    grind [toUInt8_point]
  obtain ⟨hillegal, hletter, hdigit, hpoint⟩ := hclass b h
  simp [read, hillegal, hletter, hdigit, hpoint, h]

theorem le_decode_of_high (h : 0x80 ≤ b) (bs : List UInt8) :
    0x80 ≤ (Utf8.decode (b :: bs)).1.toNat := by
  rcases Utf8.decode_cases b bs with ⟨c, rest, hbs, hdecode⟩ | ⟨-, hdecode⟩
  · rw [hdecode]
    exact (Utf8.encodes_utf8EncodeChar c).le_of_high hbs.symm h
  · rw [hdecode]
    decide

theorem readFrom_read (p : Position) (b : UInt8) (bs : List UInt8) :
    (Layout.token p (read b bs)).ReadFrom (read b bs).bytes
      ((b :: bs).drop (read b bs).bytes.length) := by
  by_cases hb : b < 0x80
  · obtain ⟨rest, hrest⟩ := read_front b bs
    have htext := toList_text_read hb bs
    cases hbytes : (read b bs).bytes with
    | nil => exact absurd hbytes (read_ne_nil b bs)
    | cons c cs =>
      rw [hbytes] at hrest htext
      obtain ⟨rfl, -⟩ := List.cons.inj hrest
      exact .ascii hb htext
  · have hhigh := UInt8.not_lt.1 hb
    rw [read_of_high hhigh]
    rcases Utf8.decode_cases b bs with ⟨c, rest, hbs, hdecode⟩ | ⟨hnone, hdecode⟩
    · have hbytes : (foreign (b :: bs)).bytes = String.utf8EncodeChar c := by
        simp only [foreign, hdecode]
        rw [hbs, List.take_left]
      rw [hbytes]
      refine .char ((Utf8.encodes_utf8EncodeChar c).le_of_high hbs.symm hhigh) ?_
      simp only [Layout.token, foreign, hdecode]
    · simp only [foreign, hdecode, List.take_succ_cons, List.take_zero, List.length_singleton,
        List.drop_succ_cons, List.drop_zero]
      refine .byte hhigh hnone ?_
      simp only [Layout.token]
      decide

end Lexeme

def cutBytes (pieces : List (List Filler × List UInt8)) : List UInt8 :=
  pieces.flatMap fun piece => Filler.allBytes piece.1 ++ piece.2

/-- A source is cut into nonempty spans, each after the fillers before it, and the fillers at its
end, of which only the last can be open. -/
structure Cut (source : List UInt8) (pieces : List (List Filler × List UInt8))
    (last : List Filler) : Prop where
  bytes : source = cutBytes pieces ++ Filler.allBytes last
  nonempty : ∀ piece ∈ pieces, piece.2 ≠ []
  proper : ∀ piece ∈ pieces, ∀ f ∈ piece.1, f.Proper
  closed : ∀ piece ∈ pieces, ∀ f ∈ piece.1, f.closed = true
  properLast : ∀ f ∈ last, f.Proper
  closedLast : ∀ f ∈ last.dropLast, f.closed = true

theorem Cut.of_run_nil (h : Filler.run bs = (fs, [])) : Cut bs [] fs := by
  have hbytes := Layout.run_append bs
  have hproper := Filler.proper_of_run bs
  have hclosed := Filler.closed_dropLast_run bs
  rw [h] at hbytes hproper hclosed
  rw [List.append_nil] at hbytes
  exact ⟨hbytes.symm, by simp, by simp, by simp, hproper, hclosed⟩

theorem Cut.of_run_append (h : Filler.run bs = (fs, span ++ rest)) (hspan : span ≠ [])
    (k : Cut rest pieces last) : Cut bs ((fs, span) :: pieces) last := by
  have hbytes := Layout.run_append bs
  have hproper := Filler.proper_of_run bs
  have hclosed : ∀ f ∈ (Filler.run bs).1, f.closed = true :=
    Filler.closed_of_run (by simp [h, hspan])
  rw [h] at hbytes hproper hclosed
  refine ⟨?_, ?_, ?_, ?_, k.properLast, k.closedLast⟩
  · rw [← hbytes, k.bytes]
    simp [cutBytes]
  · exact List.forall_mem_cons.2 ⟨hspan, k.nonempty⟩
  · exact List.forall_mem_cons.2 ⟨hproper, k.proper⟩
  · exact List.forall_mem_cons.2 ⟨hclosed, k.closed⟩

namespace Layout

def spans (l : Layout) : List (List Filler × List UInt8) :=
  l.pieces.map fun piece => (piece.1, piece.2.bytes)

theorem cutBytes_map (pieces : List (List Filler × Lexeme)) :
    cutBytes (pieces.map fun piece => (piece.1, piece.2.bytes)) = pieces.flatMap pieceBytes :=
  List.flatMap_map _ _ pieces

theorem exists_of_spans {front back : List (List Filler × List UInt8)}
    (h : (ofBytes source).spans = front ++ (gap, span) :: back) :
    ∃ front' lexeme back', (ofBytes source).pieces = front' ++ (gap, lexeme) :: back' ∧
      front = front'.map (fun piece => (piece.1, piece.2.bytes)) ∧ span = lexeme.bytes ∧
        back = back'.map fun piece => (piece.1, piece.2.bytes) := by
  obtain ⟨front', rest, hsplit, rfl, hrest⟩ := List.map_eq_append_iff.1 h
  obtain ⟨⟨fs, lexeme⟩, back', rfl, hpiece, rfl⟩ := List.map_eq_cons_iff.1 hrest
  obtain ⟨rfl, rfl⟩ := Prod.mk.inj hpiece
  exact ⟨front', lexeme, back', hsplit, rfl, rfl, rfl⟩

theorem cut_ofBytes (bs : List UInt8) : Cut bs (ofBytes bs).spans (ofBytes bs).tail := by
  fun_induction ofBytes bs with
  | case1 bs fs h => exact .of_run_nil h
  | case2 bs fs b rest h lexeme layout ih =>
    obtain ⟨after, hafter⟩ := Lexeme.read_front b rest
    have hsplit : b :: rest = lexeme.bytes ++ (b :: rest).drop lexeme.bytes.length := by
      rw [← hafter, List.drop_left]
    rw [hsplit] at h
    exact .of_run_append h (Lexeme.read_ne_nil b rest) ih

/-- The lexeme of a piece is read from its bytes and those after it. -/
theorem read_of_pieces {front back : List (List Filler × Lexeme)}
    (h : (ofBytes bs).pieces = front ++ (fs, lexeme) :: back) :
    ∃ b rest, lexeme = Lexeme.read b rest ∧
      lexeme.bytes ++ (back.flatMap pieceBytes ++ Filler.allBytes (ofBytes bs).tail) =
        b :: rest := by
  fun_induction ofBytes bs generalizing front with
  | case1 bs fs h' => simp at h
  | case2 _ _ b rest _ lexeme' layout =>
    rename_i ih
    cases front with
    | nil =>
      obtain ⟨hhead, rfl⟩ := List.cons.inj h
      obtain ⟨-, rfl⟩ := Prod.mk.inj hhead
      obtain ⟨after, hafter⟩ := Lexeme.read_front b rest
      have hrest : layout.pieces.flatMap pieceBytes ++ Filler.allBytes layout.tail =
          (b :: rest).drop lexeme'.bytes.length := bytes_ofBytes _
      rw [hrest]
      refine ⟨b, rest, rfl, ?_⟩
      rw [← hafter, List.drop_left]
    | cons piece front => exact ih (List.cons.inj h).2

theorem readFrom_of_pieces {front back : List (List Filler × Lexeme)}
    (h : (ofBytes bs).pieces = front ++ (fs, lexeme) :: back) (p : Position) :
    (token p lexeme).ReadFrom lexeme.bytes
      (back.flatMap pieceBytes ++ Filler.allBytes (ofBytes bs).tail) := by
  obtain ⟨b, rest, rfl, hrest⟩ := read_of_pieces h
  have hread := Lexeme.readFrom_read p b rest
  rwa [← hrest, List.drop_left] at hread

/-- The token of a piece stands after the bytes of the pieces before it and of its fillers. -/
theorem getElem?_tokensFrom (p : Position) (front : List (List Filler × Lexeme))
    (fs : List Filler) (lexeme : Lexeme) (back : List (List Filler × Lexeme)) :
    (tokensFrom p (front ++ (fs, lexeme) :: back))[front.length]? =
      some (token (p.after (front.flatMap pieceBytes ++ Filler.allBytes fs)) lexeme) := by
  induction front generalizing p with
  | nil => simp [tokensFrom]
  | cons piece front ih =>
    rw [List.cons_append, tokensFrom, List.length_cons, List.getElem?_cons_succ, ih]
    simp [pieceBytes]

theorem length_tokensFrom (p : Position) (pieces : List (List Filler × Lexeme)) :
    (tokensFrom p pieces).length = pieces.length := by
  induction pieces generalizing p with
  | nil => rfl
  | cons piece pieces ih => exact congrArg (· + 1) (ih _)

end Layout

namespace Stream

theorem tokenAt_of_pieces {front back : List (List Filler × Lexeme)}
    (h : (Layout.ofBytes source).pieces = front ++ (fs, lexeme) :: back) (sink : Sink) :
    (ofBytes source sink).tokenAt front.length =
      Layout.token (Position.counted (front.flatMap Layout.pieceBytes ++ Filler.allBytes fs))
        lexeme := by
  have htoken := Layout.getElem?_tokensFrom .start front fs lexeme back
  rw [← h] at htoken
  have hscan : (Scan.ofBytes source).tokens[front.length]? = _ := htoken
  rw [tokenAt_ofBytes, List.getD_eq_getElem?_getD, hscan, ← Position.after_eq_counted]
  rfl

theorem kind_tokenAt_of_pieces {front back : List (List Filler × Lexeme)}
    (h : (Layout.ofBytes source).pieces = front ++ (fs, lexeme) :: back) (sink : Sink) :
    ((ofBytes source sink).tokenAt front.length).kind ≠ .endOfInput := by
  have hmem : (fs, lexeme) ∈ (Layout.ofBytes source).pieces := by simp [h]
  obtain ⟨b, rest, rfl⟩ := Layout.exists_read_of_mem_pieces hmem
  rw [tokenAt_of_pieces h sink]
  exact (Lexeme.coherent_read _ b rest).kind_ne_endOfInput

theorem tokenAt_of_length_le {source : List UInt8}
    (h : (Layout.ofBytes source).pieces.length ≤ n) (sink : Sink) :
    (ofBytes source sink).tokenAt n = .endAt (.counted source) := by
  have hnone : (Scan.ofBytes source).tokens[n]? = none := by
    rw [List.getElem?_eq_none_iff]
    exact Nat.le_trans (Nat.le_of_eq (Layout.length_tokensFrom .start _)) h
  have hplace := Scan.place_final source
  rw [Position.after_eq_counted] at hplace
  rw [tokenAt_ofBytes, List.getD_eq_getElem?_getD, hnone, ← hplace]
  rfl

end Stream

/-- A source is cut into spans with fillers between them. Each token but the end of the input is
read from its span, on the line and in the column that the bytes before it count to, and after them
comes the end of the input, at the end of the source. -/
theorem tokens_cut_source (source : List UInt8) (sink : Sink) :
    ∃ pieces last, Cut source pieces last ∧
      (∀ front gap span back, pieces = front ++ (gap, span) :: back →
        ((Stream.ofBytes source sink).tokenAt front.length).kind ≠ .endOfInput ∧
        ((Stream.ofBytes source sink).tokenAt front.length).ReadFrom span
          (cutBytes back ++ Filler.allBytes last) ∧
        ((Stream.ofBytes source sink).tokenAt front.length).place =
          .counted (cutBytes front ++ Filler.allBytes gap)) ∧
      ∀ n, pieces.length ≤ n →
        (Stream.ofBytes source sink).tokenAt n = .endAt (.counted source) := by
  refine ⟨_, _, Layout.cut_ofBytes source, ?_, ?_⟩
  · intro front gap span back hpieces
    obtain ⟨front, back', hsplit, rfl, hback⟩ := List.map_eq_append_iff.1 hpieces
    obtain ⟨⟨fs, lexeme⟩, back, rfl, hpiece, rfl⟩ := List.map_eq_cons_iff.1 hback
    obtain ⟨rfl, rfl⟩ := Prod.mk.inj hpiece
    have htoken := Stream.tokenAt_of_pieces hsplit sink
    rw [List.length_map, htoken, Layout.cutBytes_map, Layout.cutBytes_map]
    refine ⟨?_, Layout.readFrom_of_pieces hsplit _, rfl⟩
    have hmem : (fs, lexeme) ∈ (Layout.ofBytes source).pieces := by simp [hsplit]
    obtain ⟨b, rest, hread⟩ := Layout.exists_read_of_mem_pieces hmem
    have hcoherent := Lexeme.coherent_read
      (.counted (front.flatMap Layout.pieceBytes ++ Filler.allBytes fs)) b rest
    rw [← hread] at hcoherent
    exact hcoherent.kind_ne_endOfInput
  · intro n hn
    rw [Layout.spans, List.length_map] at hn
    exact Stream.tokenAt_of_length_le hn sink

end PascalCheck
