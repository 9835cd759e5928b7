
namespace PascalCheck.Utf8

/-- A continuation byte has the form `10xxxxxx`. -/
def isContinuation (b : UInt8) : Bool := b &&& 0xC0 == 0x80

def payload (b : UInt8) : Nat := (b &&& 0x3F).toNat

def replacement : Char := Char.ofNat 0xFFFD

/-- The bytes that may follow a lead byte of three: overlong forms and surrogates are left out. -/
def secondOfThree (lead b : UInt8) : Bool :=
  (if lead = 0xE0 then 0xA0 else 0x80) ≤ b && b ≤ (if lead = 0xED then 0x9F else 0xBF)

/-- The bytes that may follow a lead byte of four: overlong forms and values above U+10FFFF
are left out. -/
def secondOfFour (lead b : UInt8) : Bool :=
  (if lead = 0xF0 then 0x90 else 0x80) ≤ b && b ≤ (if lead = 0xF4 then 0x8F else 0xBF)

/-- The scalar value and the width of the well-formed sequence at the front, if there is one. -/
def sequence? : List UInt8 → Option (Nat × Nat)
  | [] => none
  | a :: rest =>
    if a < 0x80 then some (a.toNat, 1)
    else if 0xC2 ≤ a && a ≤ 0xDF then
      match rest with
      | b :: _ =>
        if isContinuation b then some ((a &&& 0x1F).toNat * 64 + payload b, 2) else none
      | _ => none
    else if 0xE0 ≤ a && a ≤ 0xEF then
      match rest with
      | b :: c :: _ =>
        if secondOfThree a b && isContinuation c then
          some ((a &&& 0x0F).toNat * 4096 + payload b * 64 + payload c, 3)
        else none
      | _ => none
    else if 0xF0 ≤ a && a ≤ 0xF4 then
      match rest with
      | b :: c :: d :: _ =>
        if secondOfFour a b && isContinuation c && isContinuation d then
          some ((a &&& 0x07).toNat * 262144 + payload b * 4096 + payload c * 64 + payload d, 4)
        else none
      | _ => none
    else none

/-- The character at the front and its width: an ill-formed byte counts as one character, and
the end of the bytes as none. -/
def decode : List UInt8 → Char × Nat
  | [] => (replacement, 0)
  | b :: bs =>
    match sequence? (b :: bs) with
    | some (v, w) => (Char.ofNat v, w)
    | none => (replacement, 1)

theorem sequence?_width_pos {bs : List UInt8} {v w : Nat} (h : sequence? bs = some (v, w)) :
    0 < w := by
  unfold sequence? at h
  repeat' split at h
  all_goals simp_all
  all_goals omega

theorem decode_width_pos (b : UInt8) (bs : List UInt8) : 0 < (decode (b :: bs)).2 := by
  simp only [decode]
  split
  · rename_i h
    exact sequence?_width_pos h
  · exact Nat.one_pos

end PascalCheck.Utf8
