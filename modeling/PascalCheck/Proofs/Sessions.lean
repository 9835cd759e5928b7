import PascalCheck.Proofs.DeclaredNames

namespace PascalCheck
set_option autoImplicit true

theorem SymbolTable.contains_eq_any (t : SymbolTable) (s : Symbol) :
    t.contains s.name = t.symbols.any (·.sharesName s) := by
  rw [Bool.eq_iff_iff, contains_iff]
  simp [Symbol.sharesName, Symbol.key]

namespace Checker

theorem table_read (c : Checker) (source : List UInt8) :
    (c.read source).2.table = c.table.insertAll ((trace source).filterMap Event.symbol?) := by
  rw [state_read]
  exact Run.table_replay _ _

theorem program_read (c : Checker) (source : List UInt8) (o : Options) :
    (c.read source).1 = (analyze source o).program := by
  rw [tree_read, program_analyze]

/-- What a checker gains from declarations: for each name that no symbol of it shares, whatever its
case, the first of them. -/
def gains (c : Checker) (ds : List Declaration) : List Symbol :=
  ((ds.map Declaration.symbol).filter fun s => !c.table.symbols.any (·.sharesName s)).eraseDupsBy
    Symbol.sharesName

/-- A checker that knows earlier sources reads the tree that one without any reads. It keeps its
diagnostics and its symbols in front of the new ones, and the new symbols are the first
declarations of the names it did not have. -/
theorem read_of_known (c : Checker) (source : List UInt8) :
    (c.read source).1 = ((ofSink .empty).read source).1 ∧
      c.sink.list <+: (c.read source).2.sink.list ∧
      (c.read source).2.sink.limit = c.sink.limit ∧
      ∃ ds, (c.read source).1.Declares (tokenize source).1 ds ∧
        (c.read source).2.table.symbols = c.table.symbols ++ c.gains ds := by
  obtain ⟨ds, hds, hsymbols⟩ := exists_declarations source ⟨false, 0⟩
  rw [c.program_read source ⟨false, 0⟩, (ofSink .empty).program_read source ⟨false, 0⟩]
  refine ⟨rfl, ?_, ?_, ds, hds, ?_⟩
  · rw [sink_read]
    exact c.sink.prefix_addAll _
  · rw [sink_read, Sink.limit_addAll]
  · rw [table_read, hsymbols, SymbolTable.symbols_insertAll]
    simp only [SymbolTable.contains_eq_any, gains]

end Checker

end PascalCheck
