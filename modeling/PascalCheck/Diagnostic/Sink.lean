import PascalCheck.Diagnostic.Basic
import Std.Data.ExtTreeSet

namespace PascalCheck

/-- Recorded diagnostics in order and as a set, and the limit on their number; a limit that is not
positive is none. -/
structure Sink where
  list : List Diagnostic
  seen : Std.ExtTreeSet Diagnostic
  limit : Int
  mem_seen : ∀ d, d ∈ seen ↔ d ∈ list
deriving DecidableEq, Repr

namespace Sink

def empty : Sink := ⟨[], ∅, 0, by simp⟩

def setLimit (s : Sink) (n : Int) : Sink := { s with limit := n }

def isFull (s : Sink) : Bool := 0 < s.limit && s.limit ≤ s.list.length

def accepts (s : Sink) (d : Diagnostic) : Bool := !s.seen.contains d && !s.isFull

theorem mem_seen_insert (s : Sink) (d e : Diagnostic) :
    e ∈ s.seen.insert d ↔ e ∈ s.list ++ [d] := by
  rw [Std.ExtTreeSet.mem_insert, s.mem_seen, Std.LawfulEqCmp.compare_eq_iff_eq, List.mem_append,
    List.mem_singleton, or_comm, eq_comm]

def add (s : Sink) (d : Diagnostic) : Sink :=
  if s.accepts d then ⟨s.list ++ [d], s.seen.insert d, s.limit, s.mem_seen_insert d⟩ else s

theorem accepts_eq (s : Sink) (d : Diagnostic) :
    s.accepts d = (!s.list.contains d && !s.isFull) := by
  have hmem : s.seen.contains d = s.list.contains d := by
    rw [Bool.eq_iff_iff, Std.ExtTreeSet.contains_iff_mem, s.mem_seen, List.contains_iff_mem]
  rw [accepts, hmem]

theorem list_add_eq_ite (s : Sink) (d : Diagnostic) :
    (s.add d).list = if s.accepts d then s.list ++ [d] else s.list := by
  unfold add
  split <;> rfl

def count (s : Sink) (code : Int) : Nat := s.list.countP (·.code == code)

def hasErrors (s : Sink) : Bool := !s.list.isEmpty

@[simp] theorem limit_add (s : Sink) (d : Diagnostic) : (s.add d).limit = s.limit := by
  unfold add
  split <;> rfl

end Sink

end PascalCheck
