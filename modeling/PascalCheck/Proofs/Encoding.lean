import PascalCheck.Proofs.Layouts

namespace PascalCheck
set_option autoImplicit true

theorem toList_loop (a : ByteArray) (i : Nat) (acc : List UInt8) :
    ByteArray.toList.loop a i acc = acc.reverse ++ a.data.toList.drop i := by
  fun_induction ByteArray.toList.loop a i acc with
  | case1 i acc h ih =>
    have hi : i < a.data.toList.length := by simpa using h
    have hget : a.get! i = a.data[i]! := by
      cases a
      rfl
    rw [ih, List.drop_eq_getElem_cons hi, hget, getElem!_pos a.data i h]
    simp
  | case2 i acc h =>
    rw [List.drop_eq_nil_of_le (by simpa using Nat.le_of_not_lt h)]
    simp

theorem toList_toUTF8 (cs : List Char) :
    (String.ofList cs).toUTF8.toList = cs.flatMap String.utf8EncodeChar := by
  have hdata : (String.ofList cs).toUTF8 = (cs.flatMap String.utf8EncodeChar).toByteArray :=
    String.toByteArray_ofList
  rw [hdata, ByteArray.toList, toList_loop, List.toList_data_toByteArray]
  rfl

namespace Utf8

theorem isContinuation_iff (b : UInt8) :
    isContinuation b = true ↔ 128 ≤ b.toNat ∧ b.toNat < 192 := by
  have hall : ∀ n < 256, isContinuation (UInt8.ofNat n) = true ↔
      128 ≤ (UInt8.ofNat n).toNat ∧ (UInt8.ofNat n).toNat < 192 := by
    decide +kernel
  exact of_forall_lt b.toNat_lt hall

theorem payload_eq (b : UInt8) : payload b = b.toNat % 64 := by
  rw [payload, UInt8.toNat_and]
  exact Nat.and_two_pow_sub_one_eq_mod b.toNat 6

theorem toNat_and_31 (b : UInt8) : (b &&& 0x1F).toNat = b.toNat % 32 := by
  rw [UInt8.toNat_and]
  exact Nat.and_two_pow_sub_one_eq_mod b.toNat 5

theorem toNat_and_15 (b : UInt8) : (b &&& 0x0F).toNat = b.toNat % 16 := by
  rw [UInt8.toNat_and]
  exact Nat.and_two_pow_sub_one_eq_mod b.toNat 4

theorem toNat_and_7 (b : UInt8) : (b &&& 0x07).toNat = b.toNat % 8 := by
  rw [UInt8.toNat_and]
  exact Nat.and_two_pow_sub_one_eq_mod b.toNat 3

theorem secondOfThree_iff (a b : UInt8) :
    secondOfThree a b = true ↔
      128 ≤ b.toNat ∧ b.toNat < 192 ∧ (a.toNat = 224 → 160 ≤ b.toNat) ∧
        (a.toNat = 237 → b.toNat < 160) := by
  simp only [secondOfThree, Bool.and_eq_true, decide_eq_true_eq, UInt8.le_iff_toNat_le,
    ← UInt8.toNat_inj, apply_ite UInt8.toNat, UInt8.toNat_ofNat]
  split <;> split <;> omega

theorem secondOfFour_iff (a b : UInt8) :
    secondOfFour a b = true ↔
      128 ≤ b.toNat ∧ b.toNat < 192 ∧ (a.toNat = 240 → 144 ≤ b.toNat) ∧
        (a.toNat = 244 → b.toNat < 144) := by
  simp only [secondOfFour, Bool.and_eq_true, decide_eq_true_eq, UInt8.le_iff_toNat_le,
    ← UInt8.toNat_inj, apply_ite UInt8.toNat, UInt8.toNat_ofNat]
  split <;> split <;> omega

/-- The bytes that encode a scalar value: the lead byte tells how many follow, and each of these has
six bits of the value. -/
inductive Encodes : Nat → List UInt8 → Prop where
  | one : v < 0x80 → a.toNat = v → Encodes v [a]
  | two : 0x80 ≤ v → v < 0x800 → a.toNat = v / 64 + 192 → b.toNat = v % 64 + 128 → Encodes v [a, b]
  | three : 0x800 ≤ v → v < 0xD800 ∨ 0xE000 ≤ v → v < 0x10000 → a.toNat = v / 4096 + 224 →
      b.toNat = v / 64 % 64 + 128 → c.toNat = v % 64 + 128 → Encodes v [a, b, c]
  | four : 0x10000 ≤ v → v < 0x110000 → a.toNat = v / 262144 + 240 →
      b.toNat = v / 4096 % 64 + 128 → c.toNat = v / 64 % 64 + 128 → d.toNat = v % 64 + 128 →
      Encodes v [a, b, c, d]

theorem toNat_cases (c : Char) : c.toNat < 0xD800 ∨ 0xE000 ≤ c.toNat ∧ c.toNat < 0x110000 := by
  rcases c.valid with h | ⟨h, h'⟩
  · exact .inl h
  · exact .inr ⟨h, h'⟩

theorem encodes_utf8EncodeChar (c : Char) : Encodes c.toNat (String.utf8EncodeChar c) := by
  have hvalid := toNat_cases c
  have hval : c.val.toNat = c.toNat := rfl
  simp only [String.utf8EncodeChar, hval]
  generalize c.toNat = v at hvalid
  split
  · refine .one (by omega) ?_
    rw [UInt8.toNat_ofNat']
    omega
  split
  · refine .two (by omega) (by omega) ?_ ?_ <;>
    · rw [UInt8.toNat_ofNat']
      omega
  split
  · refine .three (by omega) (by omega) (by omega) ?_ ?_ ?_ <;>
    · rw [UInt8.toNat_ofNat']
      omega
  · refine .four (by omega) (by omega) ?_ ?_ ?_ ?_ <;>
    · rw [UInt8.toNat_ofNat']
      omega

theorem Encodes.eq (h : Encodes v bs) (k : Encodes v cs) : bs = cs := by
  have hbyte {a b : UInt8} {n : Nat} (ha : a.toNat = n) (hb : b.toNat = n) : a = b :=
    UInt8.toNat_inj.1 (ha.trans hb.symm)
  cases h with
  | one _ ha =>
    cases k with
    | one _ ha' => rw [hbyte ha ha']
    | _ => omega
  | two _ _ ha hb =>
    cases k with
    | two _ _ ha' hb' => rw [hbyte ha ha', hbyte hb hb']
    | _ => omega
  | three _ _ _ ha hb hc =>
    cases k with
    | three _ _ _ ha' hb' hc' => rw [hbyte ha ha', hbyte hb hb', hbyte hc hc']
    | _ => omega
  | four _ _ ha hb hc hd =>
    cases k with
    | four _ _ ha' hb' hc' hd' => rw [hbyte ha ha', hbyte hb hb', hbyte hc hc', hbyte hd hd']
    | _ => omega

theorem Encodes.exists_char (h : Encodes v bs) : ∃ c : Char, c.toNat = v := by
  have hvalid : v.isValidChar := by
    cases h with
    | one => exact .inl (by omega)
    | two => exact .inl (by omega)
    | three _ hs _ => exact hs.imp (fun h => h) fun h => ⟨by omega, by omega⟩
    | four => exact .inr ⟨by omega, by omega⟩
  refine ⟨Char.ofNat v, ?_⟩
  rw [Char.ofNat, dif_pos hvalid]
  rfl

theorem Encodes.eq_utf8EncodeChar {c : Char} (h : Encodes c.toNat bs) :
    bs = String.utf8EncodeChar c :=
  h.eq (encodes_utf8EncodeChar c)

theorem Encodes.le_of_high (h : Encodes v cs) (hbs : cs ++ rest = a :: bs) (ha : 0x80 ≤ a) :
    0x80 ≤ v := by
  cases h with
  | one _ hb =>
    obtain ⟨rfl, -⟩ := List.cons.inj hbs
    rw [← hb]
    exact UInt8.le_iff_toNat_le.1 ha
  | _ => omega

theorem Encodes.high_of_le (h : Encodes v (a :: bs)) (hv : 0x80 ≤ v) : 0x80 ≤ a := by
  have hle (ha : 128 ≤ a.toNat) : 0x80 ≤ a := UInt8.le_iff_toNat_le.2 ha
  cases h with
  | one => omega
  | _ => exact hle (by omega)

theorem sequence?_of_encodes (h : Encodes v bs) (rest : List UInt8) :
    sequence? (bs ++ rest) = some (v, bs.length) := by
  cases h with
  | @one a hv ha =>
    have hascii : a < 0x80 := UInt8.lt_iff_toNat_lt.2 (by rw [ha]; exact hv)
    simp only [List.cons_append, sequence?, hascii, if_true, ha]
    rfl
  | @two a b hv hv' ha hb =>
    simp only [List.cons_append, List.nil_append, sequence?, UInt8.lt_iff_toNat_lt,
      UInt8.le_iff_toNat_le, Bool.and_eq_true, decide_eq_true_eq, isContinuation_iff, toNat_and_31,
      payload_eq, UInt8.toNat_ofNat, List.length_cons, List.length_nil]
    rw [if_neg (by omega), if_pos (by omega), if_pos (by omega)]
    congr 2
    omega
  | @three a b c hv hs hv' ha hb hc =>
    simp only [List.cons_append, List.nil_append, sequence?, UInt8.lt_iff_toNat_lt,
      UInt8.le_iff_toNat_le, Bool.and_eq_true, decide_eq_true_eq, isContinuation_iff,
      secondOfThree_iff, toNat_and_15, payload_eq, UInt8.toNat_ofNat, List.length_cons,
      List.length_nil]
    rw [if_neg (by omega), if_neg (by omega), if_pos (by omega), if_pos (by omega)]
    congr 2
    omega
  | @four a b c d hv hv' ha hb hc hd =>
    simp only [List.cons_append, List.nil_append, sequence?, UInt8.lt_iff_toNat_lt,
      UInt8.le_iff_toNat_le, Bool.and_eq_true, decide_eq_true_eq, isContinuation_iff,
      secondOfFour_iff, toNat_and_7, payload_eq, UInt8.toNat_ofNat, List.length_cons,
      List.length_nil]
    rw [if_neg (by omega), if_neg (by omega), if_neg (by omega), if_pos (by omega),
      if_pos (by omega)]
    congr 2
    omega

theorem exists_encodes_of_sequence? (h : sequence? bs = some (v, w)) :
    ∃ cs rest, bs = cs ++ rest ∧ Encodes v cs ∧ cs.length = w := by
  cases bs with
  | nil => cases h
  | cons a bs =>
    simp only [sequence?, UInt8.lt_iff_toNat_lt, UInt8.le_iff_toNat_le, Bool.and_eq_true,
      decide_eq_true_eq, UInt8.toNat_ofNat] at h
    split at h
    · rename_i ha
      obtain ⟨rfl, rfl⟩ := Prod.mk.inj (Option.some.inj h)
      exact ⟨[a], bs, rfl, .one ha rfl, rfl⟩
    split at h
    · rename_i ha
      split at h
      · rename_i b rest
        split at h
        · rename_i hb
          obtain ⟨rfl, rfl⟩ := Prod.mk.inj (Option.some.inj h)
          rw [isContinuation_iff] at hb
          rw [toNat_and_31, payload_eq]
          exact ⟨[a, b], rest, rfl, .two (by omega) (by omega) (by omega) (by omega), rfl⟩
        · cases h
      · cases h
    split at h
    · rename_i ha
      split at h
      · rename_i b c rest
        split at h
        · rename_i hbc
          obtain ⟨rfl, rfl⟩ := Prod.mk.inj (Option.some.inj h)
          rw [isContinuation_iff, secondOfThree_iff] at hbc
          rw [toNat_and_15, payload_eq, payload_eq]
          exact ⟨[a, b, c], rest, rfl, .three (by omega) (by omega) (by omega) (by omega)
            (by omega) (by omega), rfl⟩
        · cases h
      · cases h
    split at h
    · rename_i ha
      split at h
      · rename_i b c d rest
        split at h
        · rename_i hbcd
          obtain ⟨rfl, rfl⟩ := Prod.mk.inj (Option.some.inj h)
          rw [isContinuation_iff, isContinuation_iff, secondOfFour_iff] at hbcd
          rw [toNat_and_7, payload_eq, payload_eq, payload_eq]
          exact ⟨[a, b, c, d], rest, rfl, .four (by omega) (by omega) (by omega) (by omega)
            (by omega) (by omega), rfl⟩
        · cases h
      · cases h
    · cases h

theorem decode_utf8EncodeChar (c : Char) (rest : List UInt8) :
    decode (String.utf8EncodeChar c ++ rest) = (c, (String.utf8EncodeChar c).length) := by
  have hsequence := sequence?_of_encodes (encodes_utf8EncodeChar c) rest
  cases hbs : String.utf8EncodeChar c ++ rest with
  | nil => exact absurd (List.append_eq_nil_iff.1 hbs).1 String.utf8EncodeChar_ne_nil
  | cons b bs =>
    rw [hbs] at hsequence
    rw [decode, hsequence]
    exact congrArg (·, _) (Char.ofNat_toNat c)

/-- A step of decoding reads a character from its encoding, or a byte that starts no encoding. -/
theorem decode_cases (b : UInt8) (bs : List UInt8) :
    (∃ c rest, b :: bs = String.utf8EncodeChar c ++ rest ∧
        decode (b :: bs) = (c, (String.utf8EncodeChar c).length)) ∨
      (∀ c, ¬ String.utf8EncodeChar c <+: b :: bs) ∧ decode (b :: bs) = (replacement, 1) := by
  cases hsequence : sequence? (b :: bs) with
  | some read =>
    obtain ⟨v, w⟩ := read
    obtain ⟨cs, rest, hbs, hcs, -⟩ := exists_encodes_of_sequence? hsequence
    obtain ⟨c, rfl⟩ := hcs.exists_char
    obtain rfl := hcs.eq_utf8EncodeChar
    rw [hbs]
    exact .inl ⟨c, rest, rfl, decode_utf8EncodeChar c rest⟩
  | none =>
    refine .inr ⟨?_, by rw [decode, hsequence]⟩
    rintro c ⟨rest, hbs⟩
    rw [← hbs, sequence?_of_encodes (encodes_utf8EncodeChar c) rest] at hsequence
    cases hsequence

end Utf8

end PascalCheck
