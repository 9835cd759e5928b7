import PascalCheck.Token.Brackets

namespace PascalCheck
set_option autoImplicit true

/-- Well-nested words over parentheses and square brackets. -/
inductive WellNested : List BracketMark → Prop where
  | nil : WellNested []
  | pair : b ≠ .curly → WellNested u → WellNested v →
      WellNested (.opening b :: u ++ .closing b :: v)

namespace BracketMark

/-- The marks close the open brackets, innermost first, each with its own kind, and leave nothing
open. -/
def closesAll : List Bracket → List BracketMark → Bool
  | bs, [] => bs.isEmpty
  | bs, .opening b :: ms => closesAll (b :: bs) ms
  | [], .closing _ :: _ => false
  | top :: bs, .closing b :: ms => decide (top = b) && closesAll bs ms

theorem closesAll_append (h : WellNested u) (bs : List Bracket) (ms : List BracketMark) :
    closesAll bs (u ++ ms) = closesAll bs ms := by
  induction h generalizing bs ms with
  | nil => rfl
  | @pair b u v hb hu hv ihu ihv =>
    rw [List.append_assoc, List.cons_append, closesAll, ihu, List.cons_append, closesAll, ihv]
    simp

/-- A word that closes brackets has a well-nested word before each of them and one at its end. -/
inductive Closes : List Bracket → List BracketMark → Prop where
  | done : WellNested u → Closes [] u
  | close : WellNested u → Closes bs v → Closes (b :: bs) (u ++ .closing b :: v)

theorem Closes.pair (hb : b ≠ .curly) (hu : WellNested u) (h : Closes bs v) :
    Closes bs (.opening b :: u ++ .closing b :: v) := by
  cases h with
  | done hv => exact .done (.pair hb hu hv)
  | @close w bs v c hw hv =>
    have hword : .opening b :: u ++ .closing b :: (w ++ .closing c :: v) =
        (.opening b :: u ++ .closing b :: w) ++ .closing c :: v := by
      simp
    rw [hword]
    exact .close (.pair hb hu hw) hv

theorem closes_of_closesAll (hms : .opening .curly ∉ ms) (h : closesAll bs ms = true) :
    Closes bs ms := by
  induction ms generalizing bs with
  | nil =>
    cases bs with
    | nil => exact .done .nil
    | cons b bs => cases h
  | cons m ms ih =>
    have hrest : .opening .curly ∉ ms := fun hm => hms (List.mem_cons_of_mem m hm)
    cases m with
    | opening b =>
      have hb : b ≠ .curly := by
        rintro rfl
        exact hms List.mem_cons_self
      have hclose : Closes (b :: bs) ms := ih hrest h
      cases hclose with
      | close hu hv => exact hv.pair hb hu
    | closing b =>
      cases bs with
      | nil => cases h
      | cons top bs =>
        simp only [closesAll, Bool.and_eq_true, decide_eq_true_eq] at h
        obtain ⟨rfl, h⟩ := h
        exact .close .nil (ih hrest h)

/-- The stack accepts exactly the well-nested words, as braces never open. -/
theorem closesAll_iff (hms : .opening .curly ∉ ms) : closesAll [] ms = true ↔ WellNested ms := by
  constructor
  · intro h
    cases closes_of_closesAll hms h with
    | done hw => exact hw
  · intro h
    have hall := closesAll_append h [] []
    rw [List.append_nil] at hall
    rw [hall]
    rfl

def isOpening : BracketMark → Bool
  | .opening _ => true
  | .closing _ => false

def isClosing : BracketMark → Bool
  | .opening _ => false
  | .closing _ => true

/-- No front of the marks closes more brackets than it opens, so a bracket open before them is
open after them. -/
def KeepOpen (ms : List BracketMark) : Prop :=
  ∀ front, front <+: ms → front.countP isClosing ≤ front.countP isOpening

/-- How many of the brackets open before the marks they close. -/
def reach : List BracketMark → Nat
  | [] => 0
  | .opening _ :: ms => reach ms - 1
  | .closing _ :: ms => reach ms + 1

theorem forall_front_cons {P : List BracketMark → Prop} :
    (∀ front, front <+: m :: ms → P front) ↔ P [] ∧ ∀ front, front <+: ms → P (m :: front) := by
  constructor
  · intro h
    exact ⟨h [] List.nil_prefix, fun front hfront => h _ (List.cons_prefix_cons.2 ⟨rfl, hfront⟩)⟩
  · rintro ⟨hnil, hcons⟩ front hfront
    rcases List.prefix_cons_iff.1 hfront with rfl | ⟨rest, rfl, hrest⟩
    · exact hnil
    · exact hcons rest hrest

theorem reach_le_iff : reach ms ≤ k ↔
    ∀ front, front <+: ms → front.countP isClosing ≤ front.countP isOpening + k := by
  induction ms generalizing k with
  | nil => simp [reach]
  | cons m ms ih =>
    rw [forall_front_cons]
    cases m with
    | opening b =>
      have hk : reach (.opening b :: ms) ≤ k ↔ reach ms ≤ k + 1 := by
        rw [reach]
        omega
      simp [hk, ih, List.countP_cons, isClosing, isOpening, Nat.add_assoc, Nat.add_comm 1 k]
    | closing b =>
      cases k with
      | zero =>
        -- The closing bracket alone is a front that closes too much.
        have hfront : ¬ ∀ front, front <+: ms → (.closing b :: front).countP isClosing ≤
            (.closing b :: front).countP isOpening + 0 := by
          intro h
          have hone := h [] List.nil_prefix
          simp [isClosing, isOpening] at hone
        simp only [reach, hfront, and_false, iff_false]
        omega
      | succ k =>
        have hk : reach (.closing b :: ms) ≤ k + 1 ↔ reach ms ≤ k := by
          rw [reach]
          omega
        simp [hk, ih, List.countP_cons, isClosing, isOpening, ← Nat.add_assoc]

theorem keepOpen_iff : KeepOpen ms ↔ reach ms = 0 := by
  rw [← Nat.le_zero, reach_le_iff]
  rfl

end BracketMark

end PascalCheck
