import PascalCheck.Source.Position

namespace PascalCheck

/-- A cursor between the bytes it has passed, nearest first, and the bytes ahead. -/
structure Cursor where
  passed : List UInt8
  ahead : List UInt8
  place : Position
deriving DecidableEq, Repr

namespace Cursor

def ofBytes (bs : List UInt8) : Cursor := ⟨[], bs, .start⟩

/-- The byte under the cursor, zero at the end. -/
def current (c : Cursor) : UInt8 := c.ahead.headD 0

def peek (c : Cursor) : UInt8 := c.ahead.tail.headD 0

def atEnd (c : Cursor) : Bool := c.ahead.isEmpty

def offset (c : Cursor) : Nat := c.passed.length

def advance (c : Cursor) : Cursor :=
  match c.ahead with
  | [] => c
  | b :: bs => ⟨b :: c.passed, bs, c.place.step b⟩

/-- Passes as many bytes as asked, and none for a negative number. -/
def advanceBy (c : Cursor) (n : Int) : Cursor :=
  n.toNat.repeat advance c

/-- The passed bytes from an offset on; there are none for an offset outside of them. -/
def slice? (c : Cursor) (start : Int) : Option (List UInt8) :=
  if 0 ≤ start ∧ start ≤ c.offset then some (c.passed.reverse.drop start.toNat) else none

def char (c : Cursor) : Char × Nat := Utf8.decode c.ahead

def bytes (c : Cursor) : List UInt8 := c.passed.reverse ++ c.ahead

@[simp] theorem bytes_ofBytes (bs : List UInt8) : (ofBytes bs).bytes = bs := by
  simp [ofBytes, bytes]

@[simp] theorem bytes_advance (c : Cursor) : c.advance.bytes = c.bytes := by
  unfold advance
  split <;> simp_all [bytes]

end Cursor

end PascalCheck
