import PascalCheck.Source.Position

namespace PascalCheck

/-- A blank byte, a comment in braces or starred parentheses, or a quoted string. -/
inductive Filler where
  | blank (b : UInt8)
  | braced (body : List UInt8) (closed : Bool)
  | starred (body : List UInt8) (closed : Bool)
  | quoted (body : List UInt8) (closed : Bool)
deriving DecidableEq, Repr

namespace Filler

def isBlank (b : UInt8) : Bool :=
  b == 0x20 || b == 0x09 || b == 0x0D || b == 0x0A || b == 0x0C || b == 0x0B

def quoteMark : UInt8 := 0x27
def leftParen : UInt8 := 0x28
def rightParen : UInt8 := 0x29
def star : UInt8 := 0x2A
def leftBrace : UInt8 := 0x7B
def rightBrace : UInt8 := 0x7D

def bytes : Filler → List UInt8
  | .blank b => [b]
  | .braced body closed => leftBrace :: body ++ if closed then [rightBrace] else []
  | .starred body closed =>
    leftParen :: star :: body ++ if closed then [star, rightParen] else []
  | .quoted body closed => quoteMark :: body ++ if closed then [quoteMark] else []

/-- The bytes before the first occurrence of a byte, whether it occurs, and what follows it. -/
def upTo (close : UInt8) : List UInt8 → List UInt8 × Bool × List UInt8
  | [] => ([], false, [])
  | b :: bs =>
    if b = close then ([], true, bs)
    else
      let (body, closed, rest) := upTo close bs
      (b :: body, closed, rest)

def upToStar : List UInt8 → List UInt8 × Bool × List UInt8
  | [] => ([], false, [])
  | b :: bs =>
    if b = star ∧ bs.head? = some rightParen then ([], true, bs.tail)
    else
      let (body, closed, rest) := upToStar bs
      (b :: body, closed, rest)

def read? : List UInt8 → Option (Filler × List UInt8)
  | [] => none
  | b :: bs =>
    if isBlank b then some (.blank b, bs)
    else if b = leftBrace then
      let (body, closed, rest) := upTo rightBrace bs
      some (.braced body closed, rest)
    else if b = quoteMark then
      let (body, closed, rest) := upTo quoteMark bs
      some (.quoted body closed, rest)
    else if b = leftParen ∧ bs.head? = some star then
      let (body, closed, rest) := upToStar bs.tail
      some (.starred body closed, rest)
    else none

theorem upTo_append (close : UInt8) (bs : List UInt8) :
    (upTo close bs).1 ++ (if (upTo close bs).2.1 then [close] else []) ++ (upTo close bs).2.2 =
      bs := by
  induction bs with
  | nil => simp [upTo]
  | cons b bs ih =>
    by_cases h : b = close
    · simp [upTo, h]
    · simpa [upTo, h] using ih

theorem upToStar_append (bs : List UInt8) :
    (upToStar bs).1 ++ (if (upToStar bs).2.1 then [star, rightParen] else []) ++
      (upToStar bs).2.2 = bs := by
  induction bs with
  | nil => simp [upToStar]
  | cons b bs ih =>
    by_cases h : b = star ∧ bs.head? = some rightParen
    · obtain ⟨rfl, hp⟩ := h
      cases bs with
      | nil => simp at hp
      | cons c cs => simp_all [upToStar]
    · simpa [upToStar, h] using ih

theorem bytes_append_of_read? {bs rest : List UInt8} {f : Filler}
    (h : read? bs = some (f, rest)) : f.bytes ++ rest = bs := by
  cases bs with
  | nil => simp [read?] at h
  | cons b bs =>
    simp only [read?] at h
    split at h
    · simp_all [bytes]
      exact h.1 ▸ rfl
    · split at h
      · have := upTo_append rightBrace bs
        simp_all [bytes]
        grind
      · split at h
        · have := upTo_append quoteMark bs
          simp_all [bytes]
          grind
        · split at h
          · have := upToStar_append bs.tail
            cases bs <;> simp_all [bytes]
            grind
          · simp at h

theorem bytes_ne_nil (f : Filler) : f.bytes ≠ [] := by
  cases f <;> simp [bytes]

theorem length_lt_of_read? {bs rest : List UInt8} {f : Filler}
    (h : read? bs = some (f, rest)) : rest.length < bs.length := by
  have hb := List.length_pos_iff.2 f.bytes_ne_nil
  rw [← bytes_append_of_read? h, List.length_append]
  omega

/-- The longest run of fillers at the front of the bytes, and what follows it. -/
def run (bs : List UInt8) : List Filler × List UInt8 :=
  match _h : read? bs with
  | none => ([], bs)
  | some (f, rest) =>
    let (fs, after) := run rest
    (f :: fs, after)
termination_by bs.length
decreasing_by exact length_lt_of_read? ‹_›

def allBytes (fs : List Filler) : List UInt8 := fs.flatMap bytes

/-- The line on which a run of fillers from a place opens a string that is never closed. -/
def openQuoteLine? (p : Position) : List Filler → Option Nat
  | [] => none
  | .quoted _ false :: _ => some p.line
  | f :: fs => openQuoteLine? (p.after f.bytes) fs

end Filler

end PascalCheck
