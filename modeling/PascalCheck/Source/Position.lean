import PascalCheck.Text.Utf8

namespace PascalCheck

/-- A line and a column of a source. -/
structure Position where
  line : Nat
  col : Nat
deriving DecidableEq, Repr, Inhabited

namespace Position

def start : Position := ⟨1, 1⟩

def step (p : Position) (b : UInt8) : Position :=
  if b = '\n'.toUInt8 then ⟨p.line + 1, 1⟩
  else if Utf8.isContinuation b then p
  else ⟨p.line, p.col + 1⟩

def after (p : Position) (bs : List UInt8) : Position := bs.foldl step p

@[simp] theorem after_nil (p : Position) : p.after [] = p := rfl

@[simp] theorem after_cons (p : Position) (b : UInt8) (bs : List UInt8) :
    p.after (b :: bs) = (p.step b).after bs := rfl

@[simp] theorem after_append (p : Position) (bs cs : List UInt8) :
    p.after (bs ++ cs) = (p.after bs).after cs := by
  simp [after, List.foldl_append]

end Position

end PascalCheck
