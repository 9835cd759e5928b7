import PascalCheck.Token.Layout

namespace PascalCheck
set_option autoImplicit true

namespace Utf8

def isHigh (b : UInt8) : Bool := 0x80 ≤ b

/-- A property of the bytes below a bound is checked value by value. -/
@[elab_as_elim]
theorem of_forall_lt {motive : UInt8 → Prop} {b : UInt8} (hb : b.toNat < m)
    (h : ∀ n < m, motive (UInt8.ofNat n)) : motive b := by
  have hn := h b.toNat hb
  rwa [UInt8.ofNat_toNat] at hn

theorem toNat_lt_of_ascii (h : isHigh b = false) : b.toNat < 128 := by
  simpa [isHigh, UInt8.lt_iff_toNat_lt] using h

theorem ascii_ends_sequence (lead : UInt8) (h : isHigh b = false) :
    isContinuation b = false ∧ secondOfThree lead b = false ∧ secondOfFour lead b = false := by
  have hcontinuation : ∀ n < 128, isContinuation (UInt8.ofNat n) = false := by decide
  have hthree : ∀ n < 128, secondOfThree lead (UInt8.ofNat n) = false := by
    unfold secondOfThree
    split <;> split <;> decide
  have hfour : ∀ n < 128, secondOfFour lead (UInt8.ofNat n) = false := by
    unfold secondOfFour
    split <;> split <;> decide
  have hb := toNat_lt_of_ascii h
  exact ⟨of_forall_lt hb hcontinuation, of_forall_lt hb hthree, of_forall_lt hb hfour⟩

/-- A sequence depends on the bytes outside ASCII at the front only. -/
theorem sequence?_takeWhile (a : UInt8) (bs : List UInt8) :
    sequence? (a :: bs.takeWhile isHigh) = sequence? (a :: bs) := by
  simp only [sequence?]
  split
  · rfl
  split
  · cases bs with
    | nil => rfl
    | cons b bs =>
      cases hb : isHigh b with
      | true => simp [hb]
      | false => simp [hb, ascii_ends_sequence a hb]
  split
  · rcases bs with _ | ⟨b, _ | ⟨c, bs⟩⟩
    · rfl
    · cases hb : isHigh b <;> simp [hb]
    · cases hb : isHigh b with
      | false => simp [hb, ascii_ends_sequence a hb]
      | true =>
        cases hc : isHigh c with
        | true => simp [hb, hc]
        | false => simp [hb, hc, ascii_ends_sequence a hc]
  split
  · rcases bs with _ | ⟨b, _ | ⟨c, _ | ⟨d, bs⟩⟩⟩
    · rfl
    · cases hb : isHigh b <;> simp [hb]
    · cases hb : isHigh b with
      | false => simp [hb]
      | true => cases hc : isHigh c <;> simp [hb, hc]
    · cases hb : isHigh b with
      | false => simp [hb, ascii_ends_sequence a hb]
      | true =>
        cases hc : isHigh c with
        | false => simp [hb, hc, ascii_ends_sequence a hc]
        | true =>
          cases hd : isHigh d with
          | true => simp [hb, hc, hd]
          | false => simp [hb, hc, hd, ascii_ends_sequence a hd]
  · rfl

theorem width_le_of_sequence? (h : sequence? bs = some (v, w)) : w ≤ bs.length := by
  unfold sequence? at h
  repeat' split at h
  all_goals simp_all
  all_goals omega

theorem decode_takeWhile (a : UInt8) (bs : List UInt8) :
    decode (a :: bs.takeWhile isHigh) = decode (a :: bs) := by
  rw [decode, decode, sequence?_takeWhile]

theorem width_le_of_decode (a : UInt8) (bs : List UInt8) :
    (decode (a :: bs)).2 ≤ (a :: bs).length := by
  rw [decode]
  split
  · rename_i h
    exact width_le_of_sequence? h
  · simp

end Utf8

theorem Lexeme.foreign_takeWhile (a : UInt8) (bs : List UInt8) :
    foreign (a :: bs.takeWhile Utf8.isHigh) = foreign (a :: bs) := by
  have hwidth := Utf8.width_le_of_decode a (bs.takeWhile Utf8.isHigh)
  rw [Utf8.decode_takeWhile] at hwidth
  have htake : (a :: bs.takeWhile Utf8.isHigh).take (Utf8.decode (a :: bs)).2 =
      (a :: bs).take (Utf8.decode (a :: bs)).2 := by
    obtain ⟨rest, hrest⟩ := takeWhile_front Utf8.isHigh bs
    have hsplit : a :: bs = a :: bs.takeWhile Utf8.isHigh ++ rest := by
      rw [List.cons_append, hrest]
    exact (List.take_append_of_le_length hwidth).symm.trans (by rw [← hsplit])
  simp only [foreign, Utf8.decode_takeWhile, htake]

namespace Filler

/-- A filler starts with a blank, a brace, a quote, or a parenthesis and a star. -/
theorem read?_eq_none_iff (b : UInt8) (bs : List UInt8) :
    read? (b :: bs) = none ↔ isBlank b = false ∧ b ≠ leftBrace ∧ b ≠ quoteMark ∧
      ¬ (b = leftParen ∧ bs.head? = some star) := by
  unfold read?
  split
  · simp_all
  split
  · simp_all
  split
  · simp_all
  split
  · simp_all
  · simp_all

/-- The byte starts a filler, by itself or with a star after it. -/
def starts (b : UInt8) : Bool :=
  isBlank b || b == leftBrace || b == quoteMark || b == leftParen

theorem read?_of_not_starts (h : starts b = false) (bs : List UInt8) : read? (b :: bs) = none := by
  simp only [starts, Bool.or_eq_false_iff, beq_eq_false_iff_ne] at h
  obtain ⟨⟨⟨hblank, hbrace⟩, hquote⟩, hparen⟩ := h
  exact (read?_eq_none_iff b bs).2 ⟨hblank, hbrace, hquote, fun h => hparen h.1⟩

theorem run_of_none (h : read? bs = none) : run bs = ([], bs) := by
  rw [run]
  split
  · rfl
  · simp_all

theorem run_of_some (h : read? bs = some (f, rest)) :
    run bs = (f :: (run rest).1, (run rest).2) := by
  rw [run]
  split
  · simp_all
  · rename_i hr
    obtain ⟨rfl, rfl⟩ : f = _ ∧ rest = _ := by simpa [h] using hr
    rfl

/-- The filler has reached its end, as every filler with something after it has. -/
def closed : Filler → Bool
  | .blank _ => true
  | .braced _ closed | .starred _ closed | .quoted _ closed => closed

theorem upTo_closed {close : UInt8} (h : (upTo close bs).2.1 = true) (cs : List UInt8) :
    upTo close ((upTo close bs).1 ++ close :: cs) = ((upTo close bs).1, true, cs) := by
  induction bs with
  | nil => simp [upTo] at h
  | cons b bs ih =>
    by_cases hb : b = close
    · simp [upTo, hb]
    · simp only [upTo, hb, if_false] at h
      simp [upTo, hb, ih h]

theorem upTo_open {close : UInt8} (h : (upTo close bs).2.1 = false) : (upTo close bs).2.2 = [] := by
  induction bs with
  | nil => rfl
  | cons b bs ih =>
    by_cases hb : b = close
    · simp [upTo, hb] at h
    · simp only [upTo, hb, if_false] at h ⊢
      exact ih h

theorem head?_upToStar (h : (upToStar bs).2.1 = true) (cs : List UInt8) :
    ((upToStar bs).1 ++ star :: cs).head? = bs.head? := by
  cases bs with
  | nil => simp [upToStar] at h
  | cons b bs =>
    by_cases hb : b = star ∧ bs.head? = some rightParen
    · simp [upToStar, hb]
    · simp [upToStar, hb]

theorem upToStar_closed (h : (upToStar bs).2.1 = true) (cs : List UInt8) :
    upToStar ((upToStar bs).1 ++ star :: rightParen :: cs) = ((upToStar bs).1, true, cs) := by
  induction bs with
  | nil => simp [upToStar] at h
  | cons b bs ih =>
    by_cases hb : b = star ∧ bs.head? = some rightParen
    · simp [upToStar, hb]
    · simp only [upToStar, hb, if_false] at h
      have hstart := head?_upToStar h (rightParen :: cs)
      simp only [upToStar, hb, if_false, List.cons_append, hstart, ih h]

theorem upToStar_open (h : (upToStar bs).2.1 = false) : (upToStar bs).2.2 = [] := by
  induction bs with
  | nil => rfl
  | cons b bs ih =>
    by_cases hb : b = star ∧ bs.head? = some rightParen
    · simp [upToStar, hb] at h
    · simp only [upToStar, hb, if_false] at h ⊢
      exact ih h

theorem read?_cases (h : read? bs = some (f, rest)) :
    (∃ b, bs = b :: rest ∧ isBlank b = true ∧ f = .blank b) ∨
      (∃ cs, bs = leftBrace :: cs ∧
        f = .braced (upTo rightBrace cs).1 (upTo rightBrace cs).2.1 ∧
        rest = (upTo rightBrace cs).2.2) ∨
      (∃ cs, bs = quoteMark :: cs ∧
        f = .quoted (upTo quoteMark cs).1 (upTo quoteMark cs).2.1 ∧
        rest = (upTo quoteMark cs).2.2) ∨
      ∃ cs, bs = leftParen :: star :: cs ∧
        f = .starred (upToStar cs).1 (upToStar cs).2.1 ∧ rest = (upToStar cs).2.2 := by
  cases bs with
  | nil => simp [read?] at h
  | cons b bs =>
    simp only [read?] at h
    split at h
    · rename_i hb
      obtain ⟨rfl, rfl⟩ : Filler.blank b = f ∧ bs = rest := by simpa using h
      exact .inl ⟨b, rfl, hb, rfl⟩
    split at h
    · rename_i hb
      obtain ⟨rfl, rfl⟩ : _ = f ∧ _ = rest := by simpa using h
      exact .inr (.inl ⟨bs, by rw [hb], rfl, rfl⟩)
    split at h
    · rename_i hb
      obtain ⟨rfl, rfl⟩ : _ = f ∧ _ = rest := by simpa using h
      exact .inr (.inr (.inl ⟨bs, by rw [hb], rfl, rfl⟩))
    split at h
    · rename_i hb
      obtain ⟨rfl, hstar⟩ := hb
      obtain ⟨cs, rfl⟩ := List.head?_eq_some_iff.1 hstar
      obtain ⟨rfl, rfl⟩ : _ = f ∧ _ = rest := by simpa using h
      exact .inr (.inr (.inr ⟨cs, rfl, rfl, rfl⟩))
    · cases h

/-- A closed filler is read the same whatever follows it. -/
theorem read?_bytes_append (h : read? bs = some (f, rest)) (hf : f.closed = true)
    (cs : List UInt8) : read? (f.bytes ++ cs) = some (f, cs) := by
  rcases read?_cases h with ⟨b, -, hb, rfl⟩ | ⟨ds, -, rfl, -⟩ | ⟨ds, -, rfl, -⟩ | ⟨ds, -, rfl, -⟩
  · simp [bytes, read?, hb]
  · have hclosed : (upTo rightBrace ds).2.1 = true := hf
    have hbytes : (Filler.braced (upTo rightBrace ds).1 (upTo rightBrace ds).2.1).bytes ++ cs =
        leftBrace :: ((upTo rightBrace ds).1 ++ rightBrace :: cs) := by
      simp [bytes, hclosed]
    have hblank : isBlank leftBrace = false := rfl
    rw [hbytes, read?, hblank, upTo_closed hclosed cs, hclosed]
    rfl
  · have hclosed : (upTo quoteMark ds).2.1 = true := hf
    have hbytes : (Filler.quoted (upTo quoteMark ds).1 (upTo quoteMark ds).2.1).bytes ++ cs =
        quoteMark :: ((upTo quoteMark ds).1 ++ quoteMark :: cs) := by
      simp [bytes, hclosed]
    have hblank : isBlank quoteMark = false := rfl
    rw [hbytes, read?, hblank, upTo_closed hclosed cs, hclosed]
    rfl
  · have hclosed : (upToStar ds).2.1 = true := hf
    have hbytes : (Filler.starred (upToStar ds).1 (upToStar ds).2.1).bytes ++ cs =
        leftParen :: star :: ((upToStar ds).1 ++ star :: rightParen :: cs) := by
      simp [bytes, hclosed]
    have hblank : isBlank leftParen = false := rfl
    rw [hbytes, read?, hblank, List.tail_cons, upToStar_closed hclosed cs, hclosed]
    rfl

theorem rest_of_open (h : read? bs = some (f, rest)) (hf : f.closed = false) : rest = [] := by
  rcases read?_cases h with
    ⟨b, -, -, rfl⟩ | ⟨cs, -, rfl, rfl⟩ | ⟨cs, -, rfl, rfl⟩ | ⟨cs, -, rfl, rfl⟩
  · cases hf
  · exact upTo_open hf
  · exact upTo_open hf
  · exact upToStar_open hf

theorem closed_of_run (h : (run bs).2 ≠ []) : ∀ f ∈ (run bs).1, f.closed = true := by
  fun_induction run bs with
  | case1 bs hr => simp
  | case2 bs f rest hr fs after ha ih =>
    rw [ha] at ih
    intro g hg
    rcases List.mem_cons.1 hg with rfl | hg
    · cases hopen : g.closed with
      | true => rfl
      | false =>
        have hnil : run [] = ([], []) := run_of_none rfl
        rw [rest_of_open hr hopen, hnil] at ha
        exact absurd (Prod.mk.inj ha).2.symm h
    · exact ih h g hg

theorem run_allBytes_append (h : (run bs).2 ≠ []) (cs : List UInt8) :
    run (allBytes (run bs).1 ++ cs) = ((run bs).1 ++ (run cs).1, (run cs).2) := by
  -- An open comment or string would take in what is appended.
  have hclosed := closed_of_run h
  fun_induction run bs with
  | case1 bs hr => rfl
  | case2 bs f rest hr fs after ha ih =>
    rw [ha] at ih
    have hbytes : allBytes (f :: fs) ++ cs = f.bytes ++ (allBytes fs ++ cs) := by
      simp [allBytes]
    have hread := read?_bytes_append hr (hclosed f List.mem_cons_self) (allBytes fs ++ cs)
    rw [hbytes, run_of_some hread, ih h fun g hg => hclosed g (List.mem_cons_of_mem f hg)]
    rfl

theorem read?_run (bs : List UInt8) : read? (run bs).2 = none := by
  fun_induction run bs with
  | case1 bs hr => exact hr
  | case2 bs f rest hr fs after ha ih =>
    rw [ha] at ih
    exact ih

theorem openQuoteLine?_append (h : ∀ f ∈ fs, f.closed = true) (p : Position) (gs : List Filler) :
    openQuoteLine? p (fs ++ gs) = openQuoteLine? (p.after (allBytes fs)) gs := by
  induction fs generalizing p with
  | nil => rfl
  | cons f fs ih =>
    have hafter : p.after (allBytes (f :: fs)) = (p.after f.bytes).after (allBytes fs) := by
      simp [allBytes]
    have hf := h f List.mem_cons_self
    have hskip : openQuoteLine? p (f :: (fs ++ gs)) =
        openQuoteLine? (p.after f.bytes) (fs ++ gs) := by
      cases f with
      | quoted body closed =>
        obtain rfl : closed = true := hf
        rfl
      | _ => rfl
    rw [List.cons_append, hskip, ih fun g hg => h g (List.mem_cons_of_mem f hg), hafter]

end Filler

namespace Layout

theorem ofBytes_of_nil (h : (Filler.run bs).2 = []) : ofBytes bs = ⟨[], (Filler.run bs).1⟩ := by
  rw [ofBytes]
  split
  · rename_i hr
    rw [hr]
  · simp_all

theorem ofBytes_of_cons (h : (Filler.run bs).2 = b :: rest) :
    ofBytes bs =
      ⟨((Filler.run bs).1, Lexeme.read b rest) ::
          (ofBytes ((b :: rest).drop (Lexeme.read b rest).bytes.length)).pieces,
        (ofBytes ((b :: rest).drop (Lexeme.read b rest).bytes.length)).tail⟩ := by
  rw [ofBytes]
  split
  · simp_all
  · rename_i hr
    rw [hr] at h
    obtain ⟨rfl, rfl⟩ : _ = b ∧ _ = rest := by simpa using h
    rw [hr]

theorem exists_unfilled_of_mem_pieces {piece : List Filler × Lexeme}
    (h : piece ∈ (ofBytes bs).pieces) :
    ∃ b rest, piece.2 = Lexeme.read b rest ∧ Filler.read? (b :: rest) = none := by
  fun_induction ofBytes bs with
  | case1 bs fs h' => simp at h
  | case2 bs fs b rest h' lexeme layout ih =>
    rcases List.mem_cons.1 h with rfl | hp
    · have hrest := Filler.read?_run bs
      rw [h'] at hrest
      exact ⟨b, rest, rfl, hrest⟩
    · exact ih hp

end Layout

end PascalCheck
