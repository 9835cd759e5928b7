import PascalCheck.Symbol.Table

namespace PascalCheck
set_option autoImplicit true

/-- The names of two symbols differ in case at most. -/
def Symbol.sharesName (s s' : Symbol) : Bool := s.key == s'.key

namespace SymbolTable

variable {t : SymbolTable}

theorem contains_iff : t.contains name = true ↔ ∃ s ∈ t.symbols, s.key = Text.lower name := by
  simp [contains, lookup?_eq_find?]

theorem insert_of_contains (h : t.contains s.name = true) : t.insert s = t :=
  ext ((t.symbols_insert s).trans (if_pos h))

theorem symbols_insert_of_not_contains (h : t.contains s.name = false) :
    (t.insert s).symbols = t.symbols ++ [s] := by
  rw [symbols_insert, h]
  rfl

theorem lookup?_insert (t : SymbolTable) (s : Symbol) (name : String) :
    (t.insert s).lookup? name =
      (t.lookup? name).or (if s.key = Text.lower name then some s else none) := by
  cases h : t.contains s.name with
  | false =>
    rw [lookup?_eq_find?, symbols_insert_of_not_contains h, List.find?_append,
      ← lookup?_eq_find?, List.find?_singleton]
    simp
  | true =>
    rw [insert_of_contains h]
    split
    · rename_i hkey
      -- The name is that of the symbol, so the table answers to it already.
      have hfound : (t.lookup? name).isSome = true := by
        rw [lookup?_eq_find?, ← hkey, Symbol.key, ← lookup?_eq_find?]
        exact h
      obtain ⟨u, hu⟩ := Option.isSome_iff_exists.1 hfound
      rw [hu, Option.some_or]
    · rw [Option.or_none]

theorem contains_insert :
    (t.insert s).contains name = true ↔ t.contains name = true ∨ s.key = Text.lower name := by
  rw [contains, lookup?_insert, Option.isSome_or, Bool.or_eq_true]
  refine or_congr Iff.rfl ?_
  split <;> simp_all

def insertAll (t : SymbolTable) (ss : List Symbol) : SymbolTable := ss.foldl insert t

@[simp] theorem insertAll_nil (t : SymbolTable) : t.insertAll [] = t := rfl

@[simp] theorem insertAll_cons (t : SymbolTable) (s : Symbol) (ss : List Symbol) :
    t.insertAll (s :: ss) = (t.insert s).insertAll ss := rfl

/-- A table answers with what it had, and else with the first symbol inserted under the name. -/
theorem lookup?_insertAll (t : SymbolTable) (ss : List Symbol) (name : String) :
    (t.insertAll ss).lookup? name =
      (t.lookup? name).or (ss.find? (·.key == Text.lower name)) := by
  induction ss generalizing t with
  | nil => simp
  | cons s ss ih =>
    rw [insertAll_cons, ih, lookup?_insert, Option.or_assoc, List.find?_cons]
    by_cases hkey : s.key = Text.lower name
    · simp [hkey]
    · have hkey' : (s.key == Text.lower name) = false := by simp [hkey]
      simp [hkey, hkey']

theorem contains_insertAll :
    (t.insertAll ss).contains name = true ↔
      t.contains name = true ∨ ∃ s ∈ ss, s.key = Text.lower name := by
  rw [contains, lookup?_insertAll, Option.isSome_or, Bool.or_eq_true]
  simp [contains]

/-- A table gains the first symbol of each name that is new to it. -/
theorem symbols_insertAll (t : SymbolTable) (ss : List Symbol) :
    (t.insertAll ss).symbols =
      t.symbols ++ (ss.filter fun s => !t.contains s.name).eraseDupsBy Symbol.sharesName := by
  induction ss generalizing t with
  | nil => simp
  | cons s ss ih =>
    rw [insertAll_cons, ih]
    cases h : t.contains s.name with
    | true => rw [insert_of_contains h, List.filter_cons_of_neg (by simp [h])]
    | false =>
      have hnew (u : Symbol) : (!(t.insert s).contains u.name) =
          (decide (u.sharesName s = false) && !t.contains u.name) := by
        rw [Bool.eq_iff_iff]
        simp only [Bool.not_eq_true', ← Bool.not_eq_true, contains_insert, Symbol.sharesName,
          Symbol.key, Bool.and_eq_true, decide_eq_true_eq, beq_iff_eq]
        grind
      rw [List.filter_cons_of_pos (by simp [h]), List.eraseDupsBy_cons, List.filter_filter,
        symbols_insert_of_not_contains h, List.append_assoc]
      simp only [hnew, List.singleton_append]

end SymbolTable

end PascalCheck
