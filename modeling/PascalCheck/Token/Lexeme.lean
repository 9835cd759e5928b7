import PascalCheck.Token.Basic

namespace PascalCheck

/-- A span of a source with the class, spelling and code it is read as. -/
structure Lexeme where
  kind : Kind
  text : String
  code : Int
  bytes : List UInt8
deriving DecidableEq, Repr

namespace Lexeme

def isLetter (b : UInt8) : Bool :=
  ('a'.toUInt8 ≤ b && b ≤ 'z'.toUInt8) || ('A'.toUInt8 ≤ b && b ≤ 'Z'.toUInt8) || b == '_'.toUInt8

def isDigit (b : UInt8) : Bool := '0'.toUInt8 ≤ b && b ≤ '9'.toUInt8

def isWordByte (b : UInt8) : Bool := isLetter b || isDigit b

def isIllegal (b : UInt8) : Bool :=
  b == '@'.toUInt8 || b == '$'.toUInt8 || b == '&'.toUInt8 || b == '?'.toUInt8

def isExponentMark (b : UInt8) : Bool := b == 'e'.toUInt8 || b == 'E'.toUInt8

def isSign (b : UInt8) : Bool := b == '+'.toUInt8 || b == '-'.toUInt8

def spell (bs : List UInt8) : String := String.ofList (bs.map Char.ofUInt8)

def fraction : List UInt8 → List UInt8
  | p :: d :: bs =>
    if p = '.'.toUInt8 ∧ isDigit d then p :: d :: bs.takeWhile isDigit else []
  | _ => []

def signedDigits : List UInt8 → List UInt8
  | [] => []
  | s :: bs => if isSign s then s :: bs.takeWhile isDigit else (s :: bs).takeWhile isDigit

/-- An exponent: its mark, an optional sign and as many digits as follow, possibly none. -/
def exponent : List UInt8 → List UInt8
  | [] => []
  | e :: bs => if isExponentMark e then e :: signedDigits bs else []

/-- The bytes of a number: digits, an optional fraction and an optional exponent. -/
def numberBytes (bs : List UInt8) : List UInt8 :=
  let whole := bs.takeWhile isDigit
  let part := fraction (bs.drop whole.length)
  let mantissa := whole ++ part
  mantissa ++ exponent (bs.drop mantissa.length)

def isRealNumber (bs : List UInt8) : Bool :=
  bs.any fun b => b == '.'.toUInt8 || isExponentMark b

def illegal (b : UInt8) : Lexeme := ⟨.unknown, spell [b], Code.unlisted, [b]⟩

/-- A run of word bytes: a reserved word if the table lists it, else a name. -/
def word (bs : List UInt8) : Lexeme :=
  match Code.lookup? (spell bs) with
  | some code => ⟨.keyword, spell bs, code, bs⟩
  | none => ⟨.ident, spell bs, Code.ident, bs⟩

def number (bs : List UInt8) : Lexeme :=
  ⟨.number, spell bs, if isRealNumber bs then Code.realLiteral else Code.integerLiteral, bs⟩

/-- A character outside ASCII is an operator of its own without a code. -/
def foreign (bs : List UInt8) : Lexeme :=
  let (c, width) := Utf8.decode bs
  ⟨.operator, c.toString, Code.unlisted, bs.take width⟩

/-- An operator or punctuation mark; a lone colon is a class of its own. -/
def operator (bs : List UInt8) : Lexeme :=
  if bs = [':'.toUInt8] then ⟨.colon, spell bs, Code.colon, bs⟩
  else ⟨.operator, spell bs, (Code.lookup? (spell bs)).getD Code.unlisted, bs⟩

def operatorBytes (b : UInt8) : List UInt8 → List UInt8
  | [] => [b]
  | c :: _ => if (Code.lookup? (spell [b, c])).isSome then [b, c] else [b]

def digitFollows (bs : List UInt8) : Bool := bs.head?.any isDigit

/-- The lexeme that starts with a byte, given the bytes after it. -/
def read (b : UInt8) (bs : List UInt8) : Lexeme :=
  if isIllegal b then illegal b
  else if isLetter b then word (b :: bs.takeWhile isWordByte)
  else if isDigit b || (b == '.'.toUInt8 && digitFollows bs) then number (numberBytes (b :: bs))
  else if 0x80 ≤ b then foreign (b :: bs)
  else operator (operatorBytes b bs)

theorem takeWhile_front (p : UInt8 → Bool) (bs : List UInt8) : bs.takeWhile p <+: bs :=
  ⟨bs.dropWhile p, List.takeWhile_append_dropWhile⟩

theorem fraction_front (bs : List UInt8) : fraction bs <+: bs := by
  unfold fraction
  split
  · split
    · simpa using takeWhile_front _ _
    · exact List.nil_prefix
  · exact List.nil_prefix

theorem signedDigits_front (bs : List UInt8) : signedDigits bs <+: bs := by
  unfold signedDigits
  split
  · exact List.nil_prefix
  · split
    · simpa using takeWhile_front _ _
    · exact takeWhile_front _ _

theorem exponent_front (bs : List UInt8) : exponent bs <+: bs := by
  unfold exponent
  split
  · exact List.nil_prefix
  · split
    · simpa using signedDigits_front _
    · exact List.nil_prefix

theorem front_append_drop {xs ys bs : List UInt8} (hx : xs <+: bs)
    (hy : ys <+: bs.drop xs.length) : xs ++ ys <+: bs := by
  obtain ⟨r, rfl⟩ := hx
  rw [List.drop_left] at hy
  exact (List.prefix_append_right_inj _).2 hy

theorem numberBytes_front (bs : List UInt8) : numberBytes bs <+: bs := by
  unfold numberBytes
  exact front_append_drop (front_append_drop (takeWhile_front _ _) (fraction_front _))
    (exponent_front _)

theorem operatorBytes_front (b : UInt8) (bs : List UInt8) : operatorBytes b bs <+: b :: bs := by
  unfold operatorBytes
  split
  · exact ⟨[], List.append_nil _⟩
  · split <;> simp

@[simp] theorem bytes_word (bs : List UInt8) : (word bs).bytes = bs := by
  unfold word
  split <;> rfl

@[simp] theorem bytes_operator (bs : List UInt8) : (operator bs).bytes = bs := by
  unfold operator
  split <;> rfl

theorem read_front (b : UInt8) (bs : List UInt8) : (read b bs).bytes <+: b :: bs := by
  unfold read
  split
  · simp [illegal]
  split
  · simpa using takeWhile_front _ _
  split
  · exact numberBytes_front _
  split
  · exact List.take_prefix _ _
  · simpa using operatorBytes_front _ _

theorem numberBytes_ne_nil {b : UInt8} {bs : List UInt8}
    (h : isDigit b || (b == '.'.toUInt8 && digitFollows bs)) : numberBytes (b :: bs) ≠ [] := by
  by_cases hd : isDigit b
  · simp [numberBytes, hd]
  · cases bs with
    | nil => simp_all [digitFollows]
    | cons c cs => simp_all [digitFollows, numberBytes, fraction]

theorem read_ne_nil (b : UInt8) (bs : List UInt8) : (read b bs).bytes ≠ [] := by
  unfold read
  split
  · simp [illegal]
  split
  · simp
  split
  · exact numberBytes_ne_nil ‹_›
  split
  · have := Utf8.decode_width_pos b bs
    simp [foreign]
    omega
  · unfold operatorBytes
    split
    · simp
    · split <;> simp

end Lexeme

end PascalCheck
