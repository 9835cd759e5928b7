import PascalCheck.Proofs.Relexing

namespace PascalCheck
set_option autoImplicit true

/-- The longest front of the bytes with a property. -/
structure LongestFront (P : List UInt8 → Prop) (bytes span : List UInt8) : Prop where
  front : span <+: bytes
  holds : P span
  longest : ∀ other, other <+: bytes → P other → other.length ≤ span.length

theorem longestFront_takeWhile (p : UInt8 → Bool) (bs : List UInt8) :
    LongestFront (fun cs => ∀ c ∈ cs, p c = true) bs (bs.takeWhile p) where
  front := List.takeWhile_prefix p
  holds := List.all_eq_true.1 List.all_takeWhile
  longest := by
    rintro other ⟨rest, rfl⟩ hother
    rw [List.takeWhile_append_of_pos hother, List.length_append]
    exact Nat.le_add_right _ _

namespace Lexeme

def AllDigits (bs : List UInt8) : Prop := ∀ b ∈ bs, isDigit b = true

/-- Digits with an optional fraction, or a fraction alone. -/
inductive IsMantissa : List UInt8 → Prop
  | whole : ds ≠ [] → AllDigits ds → IsMantissa ds
  | decimal : ds ≠ [] → AllDigits ds → fs ≠ [] → AllDigits fs →
      IsMantissa (ds ++ '.'.toUInt8 :: fs)
  | fraction : fs ≠ [] → AllDigits fs → IsMantissa ('.'.toUInt8 :: fs)

/-- An exponent with an optional sign and any number of digits, or none at all. -/
inductive IsExponent : List UInt8 → Prop
  | none : IsExponent []
  | unsigned : isExponentMark e = true → AllDigits ds → IsExponent (e :: ds)
  | signed : isExponentMark e = true → isSign s = true → AllDigits ds → IsExponent (e :: s :: ds)

def IsNumeral (bs : List UInt8) : Prop :=
  ∃ mantissa exponent, bs = mantissa ++ exponent ∧ IsMantissa mantissa ∧ IsExponent exponent

theorem allDigits_takeWhile (bs : List UInt8) : AllDigits (bs.takeWhile isDigit) :=
  List.all_eq_true.1 List.all_takeWhile

theorem takeWhile_of_allDigits (h : AllDigits ds) (rest : List UInt8) :
    (ds ++ rest).takeWhile isDigit = ds ++ rest.takeWhile isDigit :=
  List.takeWhile_append_of_pos h

theorem IsMantissa.exists_parts (h : IsMantissa m) :
    ∃ ds part, m = ds ++ part ∧ AllDigits ds ∧
      (part = [] ∨ ∃ f fs, part = '.'.toUInt8 :: f :: fs ∧ AllDigits (f :: fs)) := by
  cases h with
  | whole hne hds => exact ⟨m, [], by simp, hds, .inl rfl⟩
  | @decimal ds fs _ hds hne hfs =>
    obtain ⟨f, fs, rfl⟩ := List.exists_cons_of_ne_nil hne
    exact ⟨ds, _, rfl, hds, .inr ⟨f, fs, rfl, hfs⟩⟩
  | @fraction fs hne hfs =>
    obtain ⟨f, fs, rfl⟩ := List.exists_cons_of_ne_nil hne
    exact ⟨[], _, rfl, by simp [AllDigits], .inr ⟨f, fs, rfl, hfs⟩⟩

theorem IsMantissa.exists_isDigit (h : IsMantissa m) : ∃ b ∈ m, isDigit b = true := by
  have hdigits {ds : List UInt8} (hne : ds ≠ []) (hds : AllDigits ds) :
      ∃ b ∈ ds, isDigit b = true := by
    obtain ⟨d, ds, rfl⟩ := List.exists_cons_of_ne_nil hne
    exact ⟨d, List.mem_cons_self, hds d List.mem_cons_self⟩
  cases h with
  | whole hne hds => exact hdigits hne hds
  | decimal hne hds _ _ =>
    obtain ⟨b, hb, hd⟩ := hdigits hne hds
    exact ⟨b, List.mem_append_left _ hb, hd⟩
  | fraction hne hfs =>
    obtain ⟨b, hb, hd⟩ := hdigits hne hfs
    exact ⟨b, List.mem_cons_of_mem _ hb, hd⟩

theorem IsNumeral.any_isDigit (h : IsNumeral bs) : bs.any isDigit = true := by
  obtain ⟨m, x, rfl, hm, -⟩ := h
  obtain ⟨b, hb, hd⟩ := hm.exists_isDigit
  exact List.any_eq_true.2 ⟨b, List.mem_append_left x hb, hd⟩

theorem fraction_of_allDigits (h : AllDigits (f :: fs)) (rest : List UInt8) :
    fraction ('.'.toUInt8 :: f :: fs ++ rest) =
      '.'.toUInt8 :: f :: (fs ++ rest.takeWhile isDigit) := by
  obtain ⟨hf, hfs⟩ := List.forall_mem_cons.1 h
  rw [List.cons_append, List.cons_append, fraction, if_pos ⟨rfl, hf⟩, takeWhile_of_allDigits hfs]

theorem fraction_cases (bs : List UInt8) :
    fraction bs = [] ∨ ∃ f fs, fraction bs = '.'.toUInt8 :: f :: fs ∧ AllDigits (f :: fs) := by
  unfold fraction
  split
  · rename_i p f bs
    split
    · rename_i h
      rw [h.1]
      exact .inr ⟨f, _, rfl, List.forall_mem_cons.2 ⟨h.2, allDigits_takeWhile bs⟩⟩
    · exact .inl rfl
  · exact .inl rfl

/-- Digits that do not go on are followed by a fraction and an exponent. -/
theorem numberBytes_whole (hds : AllDigits ds) (hrest : ∀ b ∈ rest.head?, isDigit b = false) :
    numberBytes (ds ++ rest) =
      ds ++ (fraction rest ++ exponent (rest.drop (fraction rest).length)) := by
  have hwhole : (ds ++ rest).takeWhile isDigit = ds := takeWhile_append_of_head hds hrest
  have hdrop : (ds ++ rest).drop (ds ++ fraction rest).length =
      rest.drop (fraction rest).length := by
    simp
  simp only [numberBytes, hwhole, List.drop_left, hdrop]
  exact List.append_assoc _ _ _

theorem numberBytes_mantissa (hm : IsMantissa m)
    (hrest : ∀ b ∈ rest.head?, isDigit b = false ∧ b ≠ '.'.toUInt8) :
    numberBytes (m ++ rest) = m ++ exponent rest := by
  obtain ⟨ds, part, rfl, hds, hpart⟩ := hm.exists_parts
  rw [List.append_assoc]
  rcases hpart with rfl | ⟨f, fs, rfl, hfs⟩
  · have hnone := fraction_of_head fun b hb => (hrest b hb).2
    rw [List.nil_append, numberBytes_whole hds fun b hb => (hrest b hb).1, hnone]
    simp
  · have hnone : rest.takeWhile isDigit = [] := by
      cases rest with
      | nil => rfl
      | cons b rest => rw [List.takeWhile_cons, (hrest b rfl).1, if_neg Bool.false_ne_true]
    have hfraction := fraction_of_allDigits hfs rest
    rw [hnone, List.append_nil] at hfraction
    rw [numberBytes_whole hds (by simp [show isDigit '.'.toUInt8 = false from rfl]), hfraction]
    simp

theorem front_of_mantissa (hm : IsMantissa m) (rest : List UInt8) :
    m <+: numberBytes (m ++ rest) := by
  obtain ⟨ds, part, rfl, hds, hpart⟩ := hm.exists_parts
  rcases hpart with rfl | ⟨f, fs, rfl, hfs⟩
  · rw [List.append_nil, numberBytes, takeWhile_of_allDigits hds]
    simp only [List.append_assoc]
    exact List.prefix_append ds _
  · rw [List.append_assoc, numberBytes_whole hds
      (by simp [show isDigit '.'.toUInt8 = false from rfl]), fraction_of_allDigits hfs rest]
    simp only [List.cons_append, List.append_assoc]
    exact (List.prefix_append_right_inj ds).2 (List.prefix_append ('.'.toUInt8 :: f :: fs) _)

theorem front_of_exponent (hx : IsExponent x) (rest : List UInt8) : x <+: exponent (x ++ rest) := by
  have hsign : ∀ b : UInt8, isDigit b = true → isSign b = false := by grind
  cases hx with
  | none => exact List.nil_prefix
  | @unsigned e ds he hds =>
    rw [List.cons_append, exponent, if_pos he, List.prefix_cons_inj]
    cases ds with
    | nil => exact List.nil_prefix
    | cons d ds =>
      rw [List.cons_append, signedDigits, hsign d (hds d List.mem_cons_self),
        if_neg Bool.false_ne_true, ← List.cons_append, takeWhile_of_allDigits hds]
      exact List.prefix_append _ _
  | @signed e s ds he hs hds =>
    rw [List.cons_append, exponent, if_pos he, List.prefix_cons_inj, List.cons_append,
      signedDigits, if_pos hs, List.prefix_cons_inj, takeWhile_of_allDigits hds]
    exact List.prefix_append _ _

theorem front_of_numeral (h : IsNumeral n) (rest : List UInt8) : n <+: numberBytes (n ++ rest) := by
  obtain ⟨m, x, rfl, hm, hx⟩ := h
  have hmark : ∀ b : UInt8, isExponentMark b = true → isDigit b = false ∧ b ≠ '.'.toUInt8 := by
    grind [toUInt8_point]
  have hexponent {e : UInt8} {xs : List UInt8} (he : isExponentMark e = true)
      (hx : IsExponent (e :: xs)) : m ++ e :: xs <+: numberBytes (m ++ e :: xs ++ rest) := by
    rw [List.append_assoc, numberBytes_mantissa hm (by simpa using hmark e he)]
    exact (List.prefix_append_right_inj m).2 (front_of_exponent hx rest)
  cases hx with
  | none => simpa using front_of_mantissa hm rest
  | unsigned he hds => exact hexponent he (.unsigned he hds)
  | signed he hs hds => exact hexponent he (.signed he hs hds)

theorem isExponent_exponent (bs : List UInt8) : IsExponent (exponent bs) := by
  unfold exponent
  split
  · exact .none
  split
  · rename_i e bs he
    unfold signedDigits
    split
    · exact .unsigned he (by simp [AllDigits])
    split
    · exact .signed he ‹_› (allDigits_takeWhile _)
    · exact .unsigned he (allDigits_takeWhile _)
  · exact .none

theorem isNumeral_numberBytes (h : StartsNumber b bs) : IsNumeral (numberBytes (b :: bs)) := by
  refine ⟨_, _, rfl, ?_, isExponent_exponent _⟩
  have hwhole := allDigits_takeWhile (b :: bs)
  cases hds : (b :: bs).takeWhile isDigit with
  | nil =>
    -- Without a digit in front, a point stands there with a digit after it.
    have hb : isDigit b = false := by
      simpa [List.takeWhile_cons] using hds
    rcases h with hd | ⟨rfl, f, hhead, hf⟩
    · rw [hb] at hd
      cases hd
    · obtain ⟨fs, rfl⟩ := List.head?_eq_some_iff.1 hhead
      rw [List.length_nil, List.drop_zero, List.nil_append, fraction, if_pos ⟨rfl, hf⟩]
      exact .fraction (List.cons_ne_nil _ _) (List.forall_mem_cons.2 ⟨hf, allDigits_takeWhile fs⟩)
  | cons d ds =>
    rw [hds] at hwhole
    rcases fraction_cases ((b :: bs).drop (d :: ds).length) with hpart | ⟨f, fs, hpart, hfs⟩
    · rw [hpart, List.append_nil]
      exact .whole (List.cons_ne_nil _ _) hwhole
    · rw [hpart]
      exact .decimal (List.cons_ne_nil _ _) hwhole (List.cons_ne_nil _ _) hfs

/-- A number is the longest front that the grammar of numbers derives. -/
theorem longestFront_numberBytes (h : StartsNumber b bs) :
    LongestFront IsNumeral (b :: bs) (numberBytes (b :: bs)) where
  front := numberBytes_front (b :: bs)
  holds := isNumeral_numberBytes h
  longest := by
    rintro other ⟨rest, hrest⟩ hother
    rw [← hrest]
    exact (front_of_numeral hother rest).length_le

end Lexeme

end PascalCheck
