import PascalCheck.Token.Layout

namespace PascalCheck
set_option autoImplicit true

/-- The kind of a token goes with its code. -/
structure Token.Coherent (t : Token) : Prop where
  kind_ne_endOfInput : t.kind ≠ .endOfInput
  code_of_ident : t.kind = .ident → t.code = Code.ident
  code_of_number : t.kind = .number → t.code = Code.integerLiteral ∨ t.code = Code.realLiteral
  code_of_colon : t.kind = .colon → t.code = Code.colon

theorem Token.is_iff {t : Token} {code : Int} :
    t.is code = true ↔ t.kind ≠ .endOfInput ∧ t.kind ≠ .unknown ∧ t.code = code := by
  simp [Token.is, and_assoc]

theorem Token.code_of_is {t : Token} {code : Int} (h : t.is code = true) : t.code = code :=
  (is_iff.1 h).2.2

theorem Token.is_eq_false {t : Token} {code code' : Int} (h : t.is code = true)
    (hne : code ≠ code') : t.is code' = false := by
  rw [← Bool.not_eq_true]
  intro h'
  exact hne ((code_of_is h).symm.trans (code_of_is h'))

theorem Token.is_eq_false_of_code_ne {t : Token} {code : Int} (h : t.code ≠ code) :
    t.is code = false := by
  rw [← Bool.not_eq_true]
  intro h'
  exact h (code_of_is h')

namespace Token.Coherent

theorem is_eq_false_of_ident {t : Token} {code : Int} (h : t.Coherent) (hk : t.kind = .ident)
    (hne : Code.ident ≠ code) : t.is code = false := by
  apply is_eq_false_of_code_ne
  rwa [h.code_of_ident hk]

theorem kind_ne_ident {t : Token} {code : Int} (h : t.Coherent) (hc : t.is code = true)
    (hne : Code.ident ≠ code) : t.kind ≠ .ident := by
  intro hk
  rw [h.is_eq_false_of_ident hk hne] at hc
  cases hc

theorem is_eq_false_of_number {t : Token} {code : Int} (h : t.Coherent) (hk : t.kind = .number)
    (hi : Code.integerLiteral ≠ code) (hr : Code.realLiteral ≠ code) : t.is code = false := by
  apply is_eq_false_of_code_ne
  rcases h.code_of_number hk with hcode | hcode
  · rwa [hcode]
  · rwa [hcode]

theorem kind_ne_number {t : Token} {code : Int} (h : t.Coherent) (hc : t.is code = true)
    (hi : Code.integerLiteral ≠ code) (hr : Code.realLiteral ≠ code) : t.kind ≠ .number := by
  intro hk
  rw [h.is_eq_false_of_number hk hi hr] at hc
  cases hc

theorem is_eq_false_of_colon {t : Token} {code : Int} (h : t.Coherent) (hk : t.kind = .colon)
    (hne : Code.colon ≠ code) : t.is code = false := by
  apply is_eq_false_of_code_ne
  rwa [h.code_of_colon hk]

end Token.Coherent

namespace Layout

theorem exists_read_of_mem_pieces {piece : List Filler × Lexeme}
    (h : piece ∈ (ofBytes bs).pieces) : ∃ b rest, piece.2 = Lexeme.read b rest := by
  fun_induction ofBytes bs with
  | case1 bs fs h' => simp at h
  | case2 bs fs b rest h' lexeme layout ih =>
    rcases List.mem_cons.1 h with rfl | hp
    · exact ⟨b, rest, rfl⟩
    · exact ih hp

theorem exists_of_mem_tokensFrom {pieces : List (List Filler × Lexeme)}
    (h : t ∈ tokensFrom p pieces) : ∃ q, ∃ piece ∈ pieces, t = token q piece.2 := by
  induction pieces generalizing p with
  | nil => simp [tokensFrom] at h
  | cons piece pieces ih =>
    rcases List.mem_cons.1 h with rfl | ht
    · exact ⟨_, piece, List.mem_cons_self, rfl⟩
    · obtain ⟨q, piece', hp, rfl⟩ := ih ht
      exact ⟨q, piece', List.mem_cons_of_mem _ hp, rfl⟩

end Layout

theorem Scan.exists_read_of_mem (h : t ∈ (ofBytes bs).tokens) :
    ∃ q b rest, t = Layout.token q (Lexeme.read b rest) := by
  obtain ⟨q, piece, hp, rfl⟩ := Layout.exists_of_mem_tokensFrom h
  obtain ⟨b, rest, hr⟩ := Layout.exists_read_of_mem_pieces hp
  exact ⟨q, b, rest, by rw [hr]⟩

namespace Lexeme

def StartsNumber (b : UInt8) (bs : List UInt8) : Prop :=
  isDigit b = true ∨ b = '.'.toUInt8 ∧ ∃ d ∈ bs.head?, isDigit d = true

theorem startsNumber_iff :
    (isDigit b || (b == '.'.toUInt8 && digitFollows bs)) = true ↔ StartsNumber b bs := by
  rw [Bool.or_eq_true, Bool.and_eq_true, beq_iff_eq, digitFollows, Option.any_eq_true]
  rfl

/-- A byte that starts neither a word nor a number nor is illegal. -/
structure StartsMark (b : UInt8) (bs : List UInt8) : Prop where
  legal : isIllegal b = false
  letter : isLetter b = false
  number : ¬ StartsNumber b bs

/-- The classes of what is read from a byte and those after it. -/
inductive ReadAs (b : UInt8) (bs : List UInt8) : Lexeme → Prop
  | illegal : isIllegal b = true → ReadAs b bs (illegal b)
  | word : isLetter b = true → ReadAs b bs (word (b :: bs.takeWhile isWordByte))
  | number : StartsNumber b bs → ReadAs b bs (number (numberBytes (b :: bs)))
  | foreign : 0x80 ≤ b → ReadAs b bs (foreign (b :: bs))
  | operator : StartsMark b bs → b < 0x80 → ReadAs b bs (operator (operatorBytes b bs))

theorem readAs_read (b : UInt8) (bs : List UInt8) : ReadAs b bs (read b bs) := by
  unfold read
  split
  · exact .illegal ‹_›
  rename_i hi
  split
  · exact .word ‹_›
  rename_i hl
  split
  · exact .number (startsNumber_iff.1 ‹_›)
  rename_i hn
  split
  · exact .foreign ‹_›
  · have hmark : StartsMark b bs := ⟨by simpa using hi, by simpa using hl, mt startsNumber_iff.2 hn⟩
    exact .operator hmark (UInt8.not_le.1 ‹_›)

theorem kind_word (bs : List UInt8) : (word bs).kind = .keyword ∨ (word bs).kind = .ident := by
  unfold word
  split
  · exact .inl rfl
  · exact .inr rfl

theorem kind_operator (bs : List UInt8) :
    (operator bs).kind = .colon ∨ (operator bs).kind = .operator := by
  unfold operator
  split
  · exact .inl rfl
  · exact .inr rfl

theorem coherent_word (q : Position) (bs : List UInt8) :
    (Layout.token q (word bs)).Coherent := by
  unfold word
  split <;> constructor <;> simp [Layout.token]

theorem coherent_number (q : Position) (bs : List UInt8) :
    (Layout.token q (number bs)).Coherent := by
  constructor
  · simp [Layout.token, number]
  · simp [Layout.token, number]
  · intro _
    simp only [Layout.token, number]
    split
    · exact .inr rfl
    · exact .inl rfl
  · simp [Layout.token, number]

theorem coherent_operator (q : Position) (bs : List UInt8) :
    (Layout.token q (operator bs)).Coherent := by
  unfold operator
  split <;> constructor <;> simp [Layout.token]

theorem coherent_read (q : Position) (b : UInt8) (bs : List UInt8) :
    (Layout.token q (read b bs)).Coherent := by
  have hread := readAs_read b bs
  generalize read b bs = l at hread ⊢
  cases hread with
  | illegal _ => constructor <;> simp [Layout.token, illegal]
  | word _ => exact coherent_word q _
  | number _ => exact coherent_number q _
  | foreign _ => constructor <;> simp [Layout.token, foreign]
  | operator _ _ => exact coherent_operator q _

end Lexeme

theorem Scan.coherent_of_mem (h : t ∈ (ofBytes bs).tokens) : t.Coherent := by
  obtain ⟨q, b, rest, rfl⟩ := exists_read_of_mem h
  exact Lexeme.coherent_read q b rest

namespace Lexeme

theorem read_of_number (h : (read b bs).kind = .number) :
    read b bs = number (numberBytes (b :: bs)) ∧
      (isDigit b || (b == '.'.toUInt8 && digitFollows bs)) = true := by
  have hread := readAs_read b bs
  generalize read b bs = l at h hread ⊢
  cases hread with
  | number hn => exact ⟨rfl, startsNumber_iff.2 hn⟩
  | word _ => rcases kind_word (b :: bs.takeWhile isWordByte) with hk | hk <;> simp [hk] at h
  | operator _ _ => rcases kind_operator (operatorBytes b bs) with hk | hk <;> simp [hk] at h
  | _ => cases h

theorem numberBytes_of_not_real (h : isRealNumber (numberBytes bs) = false) :
    numberBytes bs = bs.takeWhile isDigit := by
  have hmark : ∀ b ∈ numberBytes bs, b ≠ '.'.toUInt8 ∧ isExponentMark b = false := by
    simpa [isRealNumber] using h
  have hfraction {cs : List UInt8} (hmem : ∀ b ∈ fraction cs, b ≠ '.'.toUInt8) :
      fraction cs = [] := by
    unfold fraction at hmem ⊢
    split
    · split
      · rename_i p d cs hp
        simp only [hp, and_self, if_true] at hmem
        exact absurd rfl (hmem _ List.mem_cons_self)
      · rfl
    · rfl
  have hexponent {cs : List UInt8} (hmem : ∀ b ∈ exponent cs, isExponentMark b = false) :
      exponent cs = [] := by
    unfold exponent at hmem ⊢
    split
    · rfl
    · split
      · rename_i e cs he
        simp only [he, if_true] at hmem
        rw [hmem e List.mem_cons_self] at he
        cases he
      · rfl
  unfold numberBytes at hmark ⊢
  dsimp only at hmark ⊢
  rw [hexponent fun b hb => (hmark b (List.mem_append_right _ hb)).2, List.append_nil,
    hfraction fun b hb => (hmark b (List.mem_append_left _ (List.mem_append_right _ hb))).1,
    List.append_nil]

theorem isDigit_ofUInt8 (h : isDigit b = true) : (Char.ofUInt8 b).isDigit = true := by
  have hbounds : 48 ≤ b.toNat ∧ b.toNat ≤ 57 := by
    simp only [isDigit, Bool.and_eq_true, decide_eq_true_eq, UInt8.le_iff_toNat_le] at h
    exact h
  have hnat : (Char.ofUInt8 b).val.toNat = b.toNat := rfl
  simpa [Char.isDigit, UInt32.le_iff_toNat_le, hnat] using hbounds

end Lexeme

theorem Scan.digits_of_mem (h : t ∈ (ofBytes bs).tokens) (hk : t.kind = .number)
    (hr : t.isReal = false) : t.lexeme.toList ≠ [] ∧ ∀ c ∈ t.lexeme.toList, c.isDigit = true := by
  obtain ⟨q, b, rest, rfl⟩ := exists_read_of_mem h
  obtain ⟨hread, hstart⟩ := Lexeme.read_of_number hk
  have hbytes : Lexeme.isRealNumber (Lexeme.numberBytes (b :: rest)) = false := by
    rw [hread] at hr
    simp only [Layout.token, Lexeme.number, Token.isReal] at hr
    rw [Bool.eq_false_iff]
    intro hreal
    simp [hreal] at hr
  have hne := Lexeme.numberBytes_ne_nil hstart
  rw [Lexeme.numberBytes_of_not_real hbytes] at hne
  have hlexeme : (Layout.token q (Lexeme.read b rest)).lexeme.toList =
      ((b :: rest).takeWhile Lexeme.isDigit).map Char.ofUInt8 := by
    rw [hread]
    simp [Layout.token, Lexeme.number, Lexeme.spell, Lexeme.numberBytes_of_not_real hbytes]
  rw [hlexeme]
  refine ⟨by simpa using hne, ?_⟩
  intro c hc
  obtain ⟨d, hd, rfl⟩ := List.mem_map.1 hc
  exact Lexeme.isDigit_ofUInt8 (List.all_eq_true.1 List.all_takeWhile d hd)

end PascalCheck
