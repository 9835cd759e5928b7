import PascalCheck.Symbol.Checker

namespace PascalCheck
set_option autoImplicit true

namespace Cause

def isOfLiteral : Cause → Bool
  | .invalidLiteral _ | .integerRange _ | .realRange _ => true
  | _ => false

def isOfNames : Cause → Bool
  | .undeclared _ | .notAVariable _ | .mismatch _ => true
  | _ => false

theorem code_onLine (c : Cause) (line : Int) : (c.onLine line).code = c.code := rfl

theorem isOfLiteral_iff {c : Cause} : c.isOfLiteral = true ↔ c.code ∈ [102, 119, 120] := by
  cases c <;> simp [isOfLiteral, code]

end Cause

namespace Finding

theorem mem_causes_andThen {f g : Finding} :
    c ∈ (f.andThen g).causes ↔ c ∈ f.causes ∨ f.ok = true ∧ c ∈ g.causes := by
  unfold andThen
  split
  · rename_i hf
    simp [hf]
  · rename_i hf
    simp [hf]

theorem ok_andThen (f g : Finding) : (f.andThen g).ok = (f.ok && g.ok) := by
  unfold andThen
  split
  · rename_i hf
    simp [hf]
  · rename_i hf
    simp [hf]

end Finding

theorem ValueType.mem_causes_check {type : ValueType} (h : c ∈ (type.check text).causes) :
    c = .invalidLiteral text ∨ c = .integerRange text ∨ c = .realRange text := by
  unfold ValueType.check at h
  split at h
  · split at h
    · exact .inl (List.mem_singleton.1 h)
    · exact .inr (.inl (List.mem_singleton.1 h))
    · split at h
      · cases h
      · exact .inr (.inl (List.mem_singleton.1 h))
  · split at h
    · cases h
    · cases h
    · exact .inr (.inr (List.mem_singleton.1 h))
  · cases h

theorem ValueType.isOfLiteral_of_mem_check {type : ValueType}
    (h : c ∈ (type.check text).causes) : c.isOfLiteral = true := by
  rcases mem_causes_check h with rfl | rfl | rfl <;> rfl

theorem ValueType.check_eq_pass_of_ok {type : ValueType} (h : (type.check text).ok = true) :
    type.check text = .pass := by
  unfold ValueType.check at h ⊢
  split at h
  · split at h
    · cases h
    · cases h
    · split at h
      · rename_i hrange
        exact if_pos hrange
      · cases h
  · split at h
    · cases h
    · rfl
    · cases h
  · rfl

namespace SymbolTable

variable {t : SymbolTable} {c : Cause} {l : Literal}

theorem mem_causes_checkDeclared {name : String} :
    c ∈ (t.checkDeclared name).causes ↔ t.lookup? name = none ∧ c = .undeclared name := by
  unfold checkDeclared contains
  cases t.lookup? name <;> simp [Finding.pass, Finding.fail]

theorem ok_checkTarget (s : Symbol) : (checkTarget s).ok = !s.isFunction := by
  unfold checkTarget
  cases s.isFunction <;> rfl

theorem mem_causes_checkTarget {s : Symbol} :
    c ∈ (checkTarget s).causes ↔ s.isFunction = true ∧ c = .notAVariable s.name := by
  unfold checkTarget
  cases s.isFunction <;> simp [Finding.pass, Finding.fail]

theorem ok_checkLiteralType {s : Symbol} :
    (checkLiteralType s l).ok = true ↔ ¬ (l.isReal = true ∧ s.type = .integer) := by
  unfold checkLiteralType
  split
  · rename_i h
    simp [Finding.fail, h]
  · rename_i h
    simp only [Finding.pass, true_iff]
    exact h

theorem mem_causes_checkLiteralType {s : Symbol} :
    c ∈ (checkLiteralType s l).causes ↔
      (l.isReal = true ∧ s.type = .integer) ∧ c = .mismatch (.realLiteral l.text s.name) := by
  unfold checkLiteralType
  split
  · rename_i h
    simp [Finding.fail, h]
  · rename_i h
    simp [Finding.pass, h]

theorem mem_causes_checkAssign_none {name : String} (h : t.lookup? name = none) :
    c ∈ (t.checkAssign name l).causes ↔ c = .undeclared name ∨ c ∈ l.check.causes := by
  rw [checkAssign, h]
  exact List.mem_cons

/-- A literal is assigned to a declared name: one fault of the literal itself, of the target or of
their types hides those after it. -/
theorem mem_causes_checkAssign_some {name : String} {s : Symbol} (h : t.lookup? name = some s) :
    c ∈ (t.checkAssign name l).causes ↔
      c ∈ l.check.causes ∨
      (l.check.ok = true ∧ s.isFunction = true ∧ c = .notAVariable s.name) ∨
      (l.check.ok = true ∧ s.isFunction = false ∧ (l.isReal = true ∧ s.type = .integer) ∧
        c = .mismatch (.realLiteral l.text s.name)) ∨
      (l.check.ok = true ∧ s.isFunction = false ∧ ¬ (l.isReal = true ∧ s.type = .integer) ∧
        c ∈ (s.type.check l.text).causes) := by
  rw [checkAssign, h]
  simp only [Finding.mem_causes_andThen, Finding.ok_andThen, mem_causes_checkTarget,
    mem_causes_checkLiteralType, Bool.and_eq_true, ok_checkTarget, ok_checkLiteralType,
    Bool.not_eq_true', or_assoc, and_assoc]

theorem isOf_of_mem_checkAssign {name : String} (h : c ∈ (t.checkAssign name l).causes) :
    c.isOfLiteral = true ∨ c.isOfNames = true := by
  cases hs : t.lookup? name with
  | none =>
    rcases (mem_causes_checkAssign_none hs).1 h with rfl | h
    · exact .inr rfl
    · exact .inl (ValueType.isOfLiteral_of_mem_check h)
  | some s =>
    rcases (mem_causes_checkAssign_some hs).1 h with h | ⟨-, -, rfl⟩ | ⟨-, -, -, rfl⟩ | ⟨-, -, -, h⟩
    · exact .inl (ValueType.isOfLiteral_of_mem_check h)
    · exact .inr rfl
    · exact .inr rfl
    · exact .inl (ValueType.isOfLiteral_of_mem_check h)

theorem mem_causes_checkSource {d s : Symbol} :
    c ∈ (checkSource d s).causes ↔
      (s.type = .none ∧ c = .mismatch (.noValue s.name)) ∨
      (s.type = .real ∧ d.type = .integer ∧ c = .mismatch (.realSource s.name d.name)) := by
  unfold checkSource
  split
  · rename_i h
    simp [Finding.fail, h]
  split
  · rename_i h
    simp [Finding.fail, h]
  · rename_i hn h
    simp only [Finding.pass, List.not_mem_nil, hn, false_and, false_or, false_iff]
    exact fun hc => h ⟨hc.1, hc.2.1⟩

theorem mem_causes_checkAssignName_some {target source : String} {d s : Symbol}
    (hd : t.lookup? target = some d) (hs : t.lookup? source = some s) :
    c ∈ (t.checkAssignName target source).causes ↔
      (d.isFunction = true ∧ c = .notAVariable d.name) ∨
      (d.isFunction = false ∧ s.type = .none ∧ c = .mismatch (.noValue s.name)) ∨
      (d.isFunction = false ∧ s.type = .real ∧ d.type = .integer ∧
        c = .mismatch (.realSource s.name d.name)) := by
  rw [checkAssignName, hd, hs]
  simp only [Finding.mem_causes_andThen, mem_causes_checkTarget, mem_causes_checkSource,
    ok_checkTarget, Bool.not_eq_true', and_or_left]

theorem mem_causes_checkAssignName_none {target source : String}
    (h : t.lookup? target = none ∨ t.lookup? source = none) :
    c ∈ (t.checkAssignName target source).causes ↔
      (t.lookup? target = none ∧ c = .undeclared target) ∨
      (t.lookup? source = none ∧ c = .undeclared source) := by
  unfold checkAssignName
  split
  · simp_all
  · cases t.lookup? target <;> cases t.lookup? source <;> simp

theorem isOfNames_of_mem_checkAssignName {target source : String}
    (h : c ∈ (t.checkAssignName target source).causes) : c.isOfNames = true := by
  by_cases hn : t.lookup? target = none ∨ t.lookup? source = none
  · rcases (mem_causes_checkAssignName_none hn).1 h with ⟨-, rfl⟩ | ⟨-, rfl⟩ <;> rfl
  · obtain ⟨hd, hs⟩ := not_or.1 hn
    obtain ⟨d, hd⟩ := Option.ne_none_iff_exists'.1 hd
    obtain ⟨s, hs⟩ := Option.ne_none_iff_exists'.1 hs
    rcases (mem_causes_checkAssignName_some hd hs).1 h with
      ⟨-, rfl⟩ | ⟨-, -, rfl⟩ | ⟨-, -, -, rfl⟩ <;> rfl

end SymbolTable

theorem Checker.mem_causes_declareFinding {k : Checker} (h : c ∈ (k.declareFinding s).causes) :
    c = .duplicate s.name := by
  unfold Checker.declareFinding at h
  split at h
  · exact List.mem_singleton.1 h
  · cases h

end PascalCheck
