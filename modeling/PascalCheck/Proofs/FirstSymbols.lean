import PascalCheck.Proofs.SymbolTables

namespace PascalCheck.SymbolTable
set_option autoImplicit true

variable {t : SymbolTable}

/-- The symbols that a table admits when symbols are inserted one after the other. -/
def admitted (t : SymbolTable) : List Symbol → List Symbol
  | [] => []
  | s :: ss => (if t.admits s then [s] else []) ++ (t.insert s).admitted ss

theorem admits_iff : t.admits s = true ↔ t.lookup? s.name = none := by
  simp [admits, contains]

theorem admits_iff_forall : t.admits s = true ↔ ∀ x ∈ t.symbols, x.key ≠ s.key := by
  rw [admits_iff, lookup?_eq_find?]
  simp [Symbol.key]

theorem symbols_insert_eq (t : SymbolTable) (s : Symbol) :
    (t.insert s).symbols = t.symbols ++ if t.admits s then [s] else [] := by
  rw [symbols_insert, admits]
  cases t.contains s.name <;> simp

theorem nodup_keys_insert (h : (t.symbols.map Symbol.key).Nodup) (s : Symbol) :
    ((t.insert s).symbols.map Symbol.key).Nodup := by
  rw [symbols_insert_eq]
  split
  · rename_i ha
    rw [List.map_append, List.map_singleton, List.nodup_append]
    refine ⟨h, by simp, ?_⟩
    have hnew := admits_iff_forall.1 ha
    simpa using hnew
  · simpa using h

theorem size_insert_eq (t : SymbolTable) (s : Symbol) :
    (t.insert s).size = t.size + if t.admits s then 1 else 0 := by
  rw [size, size, symbols_insert_eq, List.length_append]
  split <;> rfl

theorem insertAll_append (t : SymbolTable) (ss us : List Symbol) :
    t.insertAll (ss ++ us) = (t.insertAll ss).insertAll us :=
  List.foldl_append

theorem lookup?_insertAll_of_eq_some (h : t.lookup? name = some s) (ss : List Symbol) :
    (t.insertAll ss).lookup? name = some s := by
  rw [lookup?_insertAll, h, Option.some_or]

theorem symbols_insertAll_eq_admitted (t : SymbolTable) (ss : List Symbol) :
    (t.insertAll ss).symbols = t.symbols ++ t.admitted ss := by
  induction ss generalizing t with
  | nil => simp [admitted]
  | cons s ss ih => rw [insertAll_cons, ih, symbols_insert_eq, admitted, List.append_assoc]

theorem admitted_sublist (t : SymbolTable) (ss : List Symbol) : (t.admitted ss).Sublist ss := by
  induction ss generalizing t with
  | nil => exact .slnil
  | cons s ss ih =>
    rw [admitted]
    split
    · exact (ih _).cons_cons s
    · exact (ih _).cons s

theorem nodup_keys_insertAll (h : (t.symbols.map Symbol.key).Nodup) (ss : List Symbol) :
    ((t.insertAll ss).symbols.map Symbol.key).Nodup := by
  induction ss generalizing t with
  | nil => exact h
  | cons s ss ih => exact ih (nodup_keys_insert h s)

/-- After insertions a new table answers to a name with the first symbol whose name is the same
in lower case. It holds in their order the symbols it admitted, no two of one name, and the index
holds the same ones. A symbol is admitted, and the table grows by it, exactly if its name was not
found just before, and a symbol that was found once is always found. -/
theorem symbols_of_insertions (inserted : List Symbol) :
    let t := empty.insertAll inserted
    (∀ name, t.lookup? name = inserted.find? fun s =>
        s.name.toList.map Text.lowerChar == name.toList.map Text.lowerChar) ∧
      t.symbols = empty.admitted inserted ∧ t.symbols.Sublist inserted ∧
      (t.symbols.map Symbol.key).Nodup ∧ t.size = t.symbols.length ∧
      (∀ key : String, t.byKey[key]? = t.symbols.find? (·.key == key)) ∧
      (∀ s, (t.admits s = true ↔ t.lookup? s.name = none) ∧
        (t.insert s).symbols = (t.symbols ++ if t.admits s then [s] else []) ∧
        (t.insert s).size = t.size + if t.admits s then 1 else 0) ∧
      ∀ before after name s, inserted = before ++ after →
        (empty.insertAll before).lookup? name = some s → t.lookup? name = some s := by
  intro t
  have hsymbols : t.symbols = empty.admitted inserted :=
    symbols_insertAll_eq_admitted empty inserted
  refine ⟨?firsts, hsymbols, hsymbols ▸ admitted_sublist empty inserted,
    nodup_keys_insertAll (t := empty) List.nodup_nil inserted, rfl, t.getElem?_byKey,
    fun s => ⟨admits_iff, t.symbols_insert_eq s, t.size_insert_eq s⟩, ?stable⟩
  case firsts =>
    intro name
    have hempty : empty.lookup? name = none := rfl
    rw [lookup?_insertAll, hempty, Option.none_or]
    congr 1
    funext s
    rw [Bool.eq_iff_iff, beq_iff_eq, beq_iff_eq, Symbol.key, ← String.toList_inj,
      Text.toList_lower, Text.toList_lower]
  case stable =>
    rintro before after name s rfl hfound
    rw [show t = (empty.insertAll before).insertAll after from insertAll_append _ _ _]
    exact lookup?_insertAll_of_eq_some hfound after

/-- The letter k, the Kelvin sign, which is the same letter in lower case, and another letter. -/
def kelvinSigns : List Symbol :=
  [⟨"k", .integer, false, 1, []⟩, ⟨"\u212A", .real, false, 2, []⟩, ⟨"Q", .real, false, 3, []⟩,
    ⟨"K", .none, true, 4, []⟩]

theorem symbols_of_insertions_kelvinSigns :
    kelvinSigns = kelvinSigns.take 1 ++ kelvinSigns.drop 1 ∧
      (empty.insertAll (kelvinSigns.take 1)).lookup? "\u212A" =
        some ⟨"k", .integer, false, 1, []⟩ ∧
      (empty.insertAll kelvinSigns).lookup? "\u212A" = some ⟨"k", .integer, false, 1, []⟩ ∧
      (empty.insertAll kelvinSigns).symbols =
        [⟨"k", .integer, false, 1, []⟩, ⟨"Q", .real, false, 3, []⟩] := by
  obtain ⟨-, hsymbols, -, -, -, -, -, hstable⟩ := symbols_of_insertions kelvinSigns
  have hfound : (empty.insertAll (kelvinSigns.take 1)).lookup? "\u212A" =
      some ⟨"k", .integer, false, 1, []⟩ := by
    decide +kernel
  refine ⟨rfl, hfound, hstable _ _ _ _ rfl hfound, ?_⟩
  rw [hsymbols]
  decide +kernel

end PascalCheck.SymbolTable
