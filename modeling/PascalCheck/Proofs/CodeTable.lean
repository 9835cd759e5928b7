import PascalCheck.Proofs.Layouts
import PascalCheck.Proofs.Lexemes
import PascalCheck.Proofs.Numerals

namespace PascalCheck
set_option autoImplicit true

namespace Code

def Lists (word : String) : Prop := ∃ code, (Text.lower word, code) ∈ table

theorem lookup?_eq_some_iff {word : String} :
    lookup? word = some code ↔ (Text.lower word, code) ∈ table := by
  have hkeys : ∀ entry ∈ table, table.lookup entry.1 = some entry.2 := by decide +kernel
  constructor
  · intro h
    obtain ⟨before, after, hsplit, -⟩ := List.lookup_eq_some_iff.1 h
    simp [hsplit]
  · exact hkeys (Text.lower word, code)

theorem isSome_lookup?_iff {word : String} : (lookup? word).isSome = true ↔ Lists word := by
  simp only [Option.isSome_iff_exists, lookup?_eq_some_iff, Lists]

theorem lookup?_eq_none_iff {word : String} : lookup? word = none ↔ ¬ Lists word := by
  rw [← isSome_lookup?_iff, Bool.not_eq_true, Option.isSome_eq_false_iff, Option.isNone_iff_eq_none]

theorem spelling_eq_of_mem (h : (word, code) ∈ table) (h' : (word', code) ∈ table) :
    word = word' := by
  have hcodes : ∀ entry ∈ table, ∀ entry' ∈ table, entry.2 = entry'.2 → entry.1 = entry'.1 := by
    decide +kernel
  exact hcodes _ h _ h' rfl

theorem code_eq_of_mem {word : String} (h : (Text.lower word, code) ∈ table)
    (h' : (Text.lower word, code') ∈ table) : code = code' :=
  Option.some.inj ((lookup?_eq_some_iff.2 h).symm.trans (lookup?_eq_some_iff.2 h'))

/-- The codes of names, numbers and whatever else the table does not list. -/
def classes : List Int := [unlisted, ident, integerLiteral, realLiteral]

theorem not_mem_classes_of_mem (h : entry ∈ table) : entry.2 ∉ classes := by
  have hcodes : ∀ entry ∈ table, entry.2 ∉ classes := by decide +kernel
  exact hcodes entry h

theorem Lists.exists_chars (h : Lists word) :
    ∃ entry ∈ table, entry.1.toList = word.toList.map Text.lowerChar := by
  obtain ⟨code, hcode⟩ := h
  exact ⟨_, hcode, Text.toList_lower word⟩

end Code

/-- Outside ASCII a byte spells a character whose partner lies outside ASCII too. -/
theorem Lexeme.le_lowerChar_of_high (h : Utf8.isHigh b = true) :
    128 ≤ (Text.lowerChar (Char.ofUInt8 b)).toNat := by
  have hshift : ∀ r ∈ Text.capitals, r.first < 256 → 0 ≤ r.shift ∧ r.shift ≤ 32 := by
    decide +kernel
  have hval : (Char.ofUInt8 b).toNat = b.toNat := rfl
  have hhigh : 128 ≤ b.toNat := by simpa [Utf8.isHigh, UInt8.le_iff_toNat_le] using h
  have hbyte : b.toNat < 256 := b.toNat_lt
  rw [Text.lowerChar, hval, if_neg (Nat.not_lt.2 hhigh)]
  split
  · rename_i r hr
    have hcontains := List.find?_some hr
    simp only [Text.Capitals.contains, Bool.and_eq_true, decide_eq_true_eq] at hcontains
    obtain ⟨hpos, hsmall⟩ := hshift r (List.mem_of_find?_eq_some hr) (by omega)
    have hvalid : (b.toNat + r.shift).toNat.isValidChar := .inl (by omega)
    rw [Char.ofNat, dif_pos hvalid]
    show 128 ≤ (b.toNat + r.shift).toNat
    omega
  · exact hhigh

/-- Only two characters outside ASCII have a partner in ASCII, an i and a k. -/
theorem Text.lowerChar_of_high {c : Char} (h : 0x80 ≤ c.toNat) :
    0x80 ≤ (lowerChar c).toNat ∨ (lowerChar c).toNat ∈ [0, 'i'.toNat, 'k'.toNat] := by
  have hshift : ∀ r ∈ capitals, 0x80 ≤ r.first + r.shift ∨
      r.first = r.last ∧ (r.first + r.shift).toNat ∈ ['i'.toNat, 'k'.toNat] := by
    decide +kernel
  rw [lowerChar, if_neg (Nat.not_lt.2 h)]
  split
  · rename_i r hr
    have hcontains := List.find?_some hr
    simp only [Capitals.contains, Bool.and_eq_true, decide_eq_true_eq] at hcontains
    obtain ⟨⟨hfirst, hlast⟩, -⟩ := hcontains
    by_cases hvalid : (c.toNat + r.shift).toNat.isValidChar
    · rw [Char.ofNat, dif_pos hvalid]
      show 0x80 ≤ (c.toNat + r.shift).toNat ∨ (c.toNat + r.shift).toNat ∈ _
      rcases hshift r (List.mem_of_find?_eq_some hr) with hhigh | ⟨hone, hpartner⟩
      · exact .inl (by omega)
      · have hfixed : c.toNat = r.first := by omega
        rw [hfixed]
        exact .inr (List.mem_cons_of_mem 0 hpartner)
    · rw [Char.ofNat, dif_neg hvalid]
      exact .inr List.mem_cons_self
  · exact .inl h

theorem Lexeme.exists_chars_of_lists (h : Code.Lists (spell bs)) : ∃ entry ∈ Code.table,
    entry.1.toList = bs.map fun b => Text.lowerChar (Char.ofUInt8 b) := by
  obtain ⟨entry, hentry, hchars⟩ := h.exists_chars
  exact ⟨entry, hentry, by simpa [spell, Function.comp_def] using hchars⟩

theorem Lexeme.ascii_of_lists (h : Code.Lists (spell bs)) : ∀ b ∈ bs, Utf8.isHigh b = false := by
  have htable : ∀ entry ∈ Code.table, ∀ n ∈ entry.1.toList.map Char.toNat, n < 128 := by
    decide +kernel
  obtain ⟨entry, hentry, hchars⟩ := exists_chars_of_lists h
  intro b hb
  have hlow := htable entry hentry (Text.lowerChar (Char.ofUInt8 b)).toNat
    (by rw [hchars]; exact List.mem_map_of_mem (List.mem_map_of_mem hb))
  cases hhigh : Utf8.isHigh b with
  | false => rfl
  | true =>
    have hpartner := le_lowerChar_of_high hhigh
    omega

theorem Lexeme.not_lists_of_isHigh (hb : b ∈ bs) (h : Utf8.isHigh b = true) :
    ¬ Code.Lists (spell bs) := by
  intro hlists
  rw [ascii_of_lists hlists b hb] at h
  cases h

theorem Lexeme.not_isDigit_of_lists (h : Code.Lists (spell bs)) : ∀ b ∈ bs, isDigit b = false := by
  have htable : ∀ entry ∈ Code.table, entry.1.toList.all (!·.isDigit) = true := by
    decide +kernel
  obtain ⟨entry, hentry, hchars⟩ := exists_chars_of_lists h
  intro b hb
  have hmem : Text.lowerChar (Char.ofUInt8 b) ∈ entry.1.toList := by
    rw [hchars]
    exact List.mem_map_of_mem hb
  cases hdigit : isDigit b with
  | false => rfl
  | true =>
    have hc := isDigit_ofUInt8 hdigit
    have hascii := Utf8.toNat_lt_of_ascii (ascii_of_lists h b hb)
    rw [Text.lowerChar_of_ascii (c := Char.ofUInt8 b) hascii, Numeral.toLower_of_isDigit hc] at hmem
    have hother := List.all_eq_true.1 (htable entry hentry) _ hmem
    rw [hc] at hother
    cases hother

theorem Code.not_lists_of_high {c : Char} (h : 0x80 ≤ c.toNat) : ¬ Lists c.toString := by
  have htable : ∀ entry ∈ table, entry.1.toList.length = 1 →
      ∀ n ∈ entry.1.toList.map Char.toNat, n < 0x80 ∧ n ∉ [0, 'i'.toNat, 'k'.toNat] := by
    decide +kernel
  intro hlists
  obtain ⟨entry, hentry, hchars⟩ := hlists.exists_chars
  obtain ⟨hascii, hother⟩ := htable entry hentry (by simp [hchars]) (Text.lowerChar c).toNat
    (by simp [hchars])
  rcases Text.lowerChar_of_high h with hhigh | hpartner
  · exact absurd hascii (Nat.not_lt.2 hhigh)
  · exact hother hpartner

end PascalCheck
