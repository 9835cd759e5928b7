import PascalCheck.Symbol.Basic
import Std.Data.ExtTreeMap

namespace PascalCheck

/-- Symbols in the order of their declaration, and the first symbol of each key. -/
structure SymbolTable where
  symbols : List Symbol
  byKey : Std.ExtTreeMap String Symbol
  getElem?_byKey : ∀ key : String, byKey[key]? = symbols.find? (·.key == key)

namespace SymbolTable

theorem ext {t u : SymbolTable} (h : t.symbols = u.symbols) : t = u := by
  obtain ⟨symbols, byKey, ht⟩ := t
  obtain ⟨symbols', byKey', hu⟩ := u
  obtain rfl : symbols = symbols' := h
  congr
  exact Std.ExtTreeMap.ext_getElem? fun key => (ht key).trans (hu key).symm

instance : DecidableEq SymbolTable := fun t u =>
  decidable_of_iff (t.symbols = u.symbols) ⟨ext, congrArg symbols⟩

instance : Repr SymbolTable := ⟨fun t => reprPrec t.symbols⟩

theorem getElem?_foldr_insert (symbols : List Symbol) (key : String) :
    (symbols.foldr (fun s byKey => byKey.insert s.key s)
      (∅ : Std.ExtTreeMap String Symbol))[key]? = symbols.find? (·.key == key) := by
  induction symbols with
  | nil => simp
  | cons s symbols ih =>
    rw [List.foldr_cons, Std.ExtTreeMap.getElem?_insert, ih, List.find?_cons]
    by_cases h : s.key = key
    · simp [h]
    · have hkey : (s.key == key) = false := by simp [h]
      simp [h, hkey]

def ofList (symbols : List Symbol) : SymbolTable :=
  ⟨symbols, symbols.foldr (fun s byKey => byKey.insert s.key s) ∅, getElem?_foldr_insert symbols⟩

@[simp] theorem symbols_ofList (symbols : List Symbol) : (ofList symbols).symbols = symbols := rfl

def empty : SymbolTable := ofList []

def lookup? (t : SymbolTable) (name : String) : Option Symbol := t.byKey[Text.lower name]?

theorem lookup?_eq_find? (t : SymbolTable) (name : String) :
    t.lookup? name = t.symbols.find? (·.key == Text.lower name) :=
  t.getElem?_byKey _

def contains (t : SymbolTable) (name : String) : Bool := (t.lookup? name).isSome

theorem getElem?_byKey_insert {t : SymbolTable} {s : Symbol} (h : t.lookup? s.name = none)
    (key : String) :
    (t.byKey.insert s.key s)[key]? = (t.symbols ++ [s]).find? (·.key == key) := by
  rw [Std.ExtTreeMap.getElem?_insert, List.find?_append, t.getElem?_byKey]
  by_cases hkey : s.key = key
  · have hnone : t.symbols.find? (·.key == key) = none := by
      rwa [← hkey, Symbol.key, ← lookup?_eq_find?]
    simp [hkey, hnone]
  · simp [hkey]

def admits (t : SymbolTable) (s : Symbol) : Bool := !t.contains s.name

def insert (t : SymbolTable) (s : Symbol) : SymbolTable :=
  match h : t.lookup? s.name with
  | some _ => t
  | none =>
    ⟨t.symbols ++ [s], t.byKey.insert s.key s, getElem?_byKey_insert h⟩

theorem symbols_insert (t : SymbolTable) (s : Symbol) :
    (t.insert s).symbols = if t.contains s.name then t.symbols else t.symbols ++ [s] := by
  unfold insert
  split
  · rename_i h
    simp [contains, h]
  · rename_i h
    simp [contains, h]

def size (t : SymbolTable) : Nat := t.symbols.length

end SymbolTable

end PascalCheck
