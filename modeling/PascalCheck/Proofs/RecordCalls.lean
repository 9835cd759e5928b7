import PascalCheck.Proofs.Record

namespace PascalCheck.Sink
set_option autoImplicit true

/-- What a record is asked for: to add a diagnostic, or to keep to a limit from now on. -/
inductive Call where
  | add (code line : Int) (operands : List Message.Operand)
  | setLimit (n : Int)
deriving DecidableEq, Repr

def Call.diagnostic? : Call → Option Diagnostic
  | .add code line operands => some (.ofCode code line operands)
  | .setLimit _ => none

def Call.limit? : Call → Option Int
  | .add _ _ _ => none
  | .setLimit n => some n

def perform (s : Sink) : Call → Sink
  | .add code line operands => s.add (.ofCode code line operands)
  | .setLimit n => s.setLimit n

def afterCalls (s : Sink) (calls : List Call) : Sink := calls.foldl perform s

theorem afterCalls_append (s : Sink) (cs ds : List Call) :
    s.afterCalls (cs ++ ds) = (s.afterCalls cs).afterCalls ds :=
  List.foldl_append

theorem prefix_perform (s : Sink) (c : Call) : s.list <+: (s.perform c).list := by
  cases c with
  | add code line operands => exact s.prefix_add _
  | setLimit n => exact List.prefix_rfl

theorem nodup_perform {s : Sink} (hs : s.list.Nodup) (c : Call) : (s.perform c).list.Nodup := by
  cases c with
  | add code line operands => exact nodup_add hs _
  | setLimit n => exact hs

theorem limit_perform (s : Sink) (c : Call) : (s.perform c).limit = c.limit?.getD s.limit := by
  cases c with
  | add code line operands => exact s.limit_add _
  | setLimit n => rfl

theorem accepts_iff_length_lt {s : Sink} :
    s.accepts d = true ↔ s.list.length < (s.add d).list.length := by
  rw [list_add_eq_ite]
  split <;> simp_all

theorem prefix_afterCalls (s : Sink) (cs : List Call) : s.list <+: (s.afterCalls cs).list := by
  induction cs generalizing s with
  | nil => exact List.prefix_rfl
  | cons c cs ih => exact (s.prefix_perform c).trans (ih _)

theorem nodup_afterCalls {s : Sink} (hs : s.list.Nodup) (cs : List Call) :
    (s.afterCalls cs).list.Nodup := by
  induction cs generalizing s with
  | nil => exact hs
  | cons c cs ih => exact ih (nodup_perform hs c)

theorem limit_afterCalls (s : Sink) (cs : List Call) :
    (s.afterCalls cs).limit = (cs.filterMap Call.limit?).getLast?.getD s.limit := by
  induction cs generalizing s with
  | nil => rfl
  | cons c cs ih =>
    refine (ih _).trans ?_
    rw [limit_perform]
    cases c with
    | add code line operands => rfl
    | setLimit n =>
      have hlimits :
          (Call.setLimit n :: cs).filterMap Call.limit? = n :: cs.filterMap Call.limit? := rfl
      rw [hlimits, List.getLast?_cons, Option.getD_some]
      rfl

theorem afterCalls_eq_addAll {s : Sink} (h : ∀ n, .setLimit n ∈ cs → n = s.limit) :
    s.afterCalls cs = s.addAll (cs.filterMap Call.diagnostic?) := by
  induction cs generalizing s with
  | nil => rfl
  | cons c cs ih =>
    have hlater : ∀ n, .setLimit n ∈ cs → n = s.limit :=
      fun n hn => h n (List.mem_cons_of_mem c hn)
    cases c with
    | add code line operands =>
      refine ih ?_
      intro n hn
      rw [perform, limit_add]
      exact hlater n hn
    | setLimit n =>
      obtain rfl := h n List.mem_cons_self
      exact ih hlater

theorem list_addAll {s : Sink} (h : s.limit ≤ 0) (ds : List Diagnostic) :
    (s.addAll ds).list = s.list ++ (ds.filter fun d => d ∉ s.list).eraseDups := by
  induction ds generalizing s with
  | nil => simp
  | cons d ds ih =>
    rw [addAll_cons, ih (by simpa using h), list_add h]
    split
    · rename_i hd
      rw [List.filter_cons_of_neg (by simpa using hd)]
    · rename_i hd
      rw [List.filter_cons_of_pos (by simpa using hd), List.eraseDups_cons, List.filter_filter,
        List.append_assoc, List.singleton_append]
      congr 4
      funext e
      simp [and_comm, Bool.beq_eq_decide_eq]

theorem list_addAll_empty (n : Int) (ds : List Diagnostic) :
    ((empty.setLimit n).addAll ds).list =
      if 0 < n then ds.eraseDups.take n.toNat else ds.eraseDups := by
  have hall : (empty.addAll ds).list = ds.eraseDups := by
    rw [list_addAll (Int.le_refl 0)]
    exact congrArg List.eraseDups (List.filter_eq_self.2 fun _ _ => by simp [empty])
  have htruncated := ((truncates_empty n).addAll ds).list_eq
  rw [limit_addAll, hall] at htruncated
  exact htruncated

/-- After calls in any order list and set of a new record hold the same diagnostics, none of them
twice, and every earlier list is a front of the last. A diagnostic is then recorded, and the list
grows by it, exactly if it is new and within the limit set last. Under one limit the list is the
front of all that was added, without repetitions. -/
theorem record_of_calls (calls : List Call) :
    let s := empty.afterCalls calls
    s.list.Nodup ∧ (∀ d, d ∈ s.seen ↔ d ∈ s.list) ∧
      (∀ before after, calls = before ++ after → (empty.afterCalls before).list <+: s.list) ∧
      s.limit = (calls.filterMap Call.limit?).getLast?.getD 0 ∧
      (∀ code line operands, let d := Diagnostic.ofCode code line operands
        (s.accepts d = true ↔ s.list.length < (s.perform (.add code line operands)).list.length) ∧
        (s.accepts d = true ↔ d ∉ s.list ∧ (s.limit ≤ 0 ∨ (s.list.length : Int) < s.limit)) ∧
        (s.perform (.add code line operands)).list =
          if s.accepts d then s.list ++ [d] else s.list) ∧
      (∀ n, (s.perform (.setLimit n)).list = s.list) ∧
      ∀ n, (∀ m, .setLimit m ∈ calls → m = n) →
        ((empty.setLimit n).afterCalls calls).list =
          if 0 < n then (calls.filterMap Call.diagnostic?).eraseDups.take n.toNat
          else (calls.filterMap Call.diagnostic?).eraseDups := by
  intro s
  refine ⟨nodup_afterCalls List.nodup_nil calls, s.mem_seen, ?fronts, limit_afterCalls empty calls,
    fun _ _ _ => ⟨accepts_iff_length_lt, accepts_iff, s.list_add_eq_ite _⟩, fun _ => rfl, ?oneLimit⟩
  case fronts =>
    rintro before after rfl
    rw [show s = (empty.afterCalls before).afterCalls after from empty.afterCalls_append _ _]
    exact prefix_afterCalls _ after
  case oneLimit =>
    intro n hn
    rw [afterCalls_eq_addAll (s := empty.setLimit n) hn, list_addAll_empty]

/-- One diagnostic is kept out by a limit, another is repeated, and the first is added again when
the limit is lifted. -/
def liftedLimit : List Call :=
  [.add 106 1 [.text "x"], .setLimit 1, .add 106 2 [.text "y"], .add 106 1 [.text "x"],
    .setLimit 0, .add 106 2 [.text "y"]]

theorem record_of_calls_liftedLimit :
    liftedLimit = liftedLimit.take 4 ++ liftedLimit.drop 4 ∧
      (empty.afterCalls (liftedLimit.take 4)).list <+: (empty.afterCalls liftedLimit).list ∧
      (empty.afterCalls liftedLimit).list =
        [.ofCode 106 1 [.text "x"], .ofCode 106 2 [.text "y"]] ∧
      (∀ m, .setLimit m ∈ liftedLimit.take 4 → m = 1) ∧
      ((empty.setLimit 1).afterCalls (liftedLimit.take 4)).list =
        [.ofCode 106 1 [.text "x"]] := by
  have hlimit : ∀ m, .setLimit m ∈ liftedLimit.take 4 → m = 1 := by
    intro m hm
    simpa [liftedLimit] using hm
  obtain ⟨-, -, hfronts, -⟩ := record_of_calls liftedLimit
  obtain ⟨-, -, -, -, -, -, honeLimit⟩ := record_of_calls (liftedLimit.take 4)
  refine ⟨rfl, hfronts _ (liftedLimit.drop 4) rfl, by decide, hlimit, ?_⟩
  rw [honeLimit 1 hlimit]
  decide

end PascalCheck.Sink
