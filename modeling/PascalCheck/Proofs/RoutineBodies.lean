import Mathlib.Data.List.Basic
import PascalCheck.Proofs.Faults
import PascalCheck.Proofs.Grammar.Declarations

namespace PascalCheck.Grammar
set_option autoImplicit true

theorem Compound.append (h : Compound ts us) (vs : List Token) :
    Compound (ts ++ vs) (us ++ vs) := by
  obtain ⟨hb, hl, ho⟩ := h
  rw [List.cons_append, List.append_assoc]
  exact .mk hb hl ho

theorem Compound.ne_nil (h : Compound ts us) : ts ≠ [] := by
  cases h
  exact List.cons_ne_nil _ _

theorem Locals.ne_nil (h : Locals H ts us) (hus : us ≠ []) : ts ≠ [] := by
  cases h with
  | nil => exact hus
  | token => exact List.cons_ne_nil _ _
  | routine => exact List.cons_ne_nil _ _

theorem Locals.of_forall (h : ∀ t ∈ ts, ¬ IsRoutineWord t ∧ t.is Code.beginWord = false)
    (hrest : Locals H us vs) : Locals H (ts ++ us) vs := by
  induction ts with
  | nil => exact hrest
  | cons t ts ih =>
    obtain ⟨hw, hb⟩ := h t List.mem_cons_self
    exact .token hw hb (ih fun u hu => h u (List.mem_cons_of_mem t hu))

mutual

theorem Body.append (h : Body H ts us) (vs : List Token) : Body H (ts ++ vs) (us ++ vs) :=
  match h with
  | .forward hf hc => .forward hf hc
  | .block hf hlocals hcompound hc => by
    refine .block ?_ (hlocals.append vs) (hcompound.append vs) hc
    rwa [List.head?_append_of_ne_nil _ (hlocals.ne_nil hcompound.ne_nil)]

theorem Locals.append (h : Locals H ts us) (vs : List Token) : Locals H (ts ++ vs) (us ++ vs) :=
  match h with
  | .nil => .nil
  | .token hw hb hrest => .token hw hb (hrest.append vs)
  | .routine hw hheader hc hbody hrest => by
    rw [List.cons_append, List.append_assoc, List.cons_append]
    exact .routine hw hheader hc (hbody.append vs) (hrest.append vs)

end

instance decidableEnclosed : (depth : Int) → (ts : List Token) → Decidable (Enclosed depth ts)
  | depth, [] => isTrue (enclosed_nil depth)
  | depth, t :: ts =>
    have := decidableEnclosed (depth + parenChange t) ts
    decidable_of_iff _ enclosed_cons.symm

instance : Decidable (NestedHeader ts) :=
  decidable_of_iff (Enclosed 0 ts ∧ parenDepth ts ≤ 0) (and_congr_left' enclosed_zero)

instance decidableStaysOpen : (levels : Int) → (ts : List Token) → Decidable (StaysOpen levels ts)
  | levels, [] => isTrue (staysOpen_nil levels)
  | levels, t :: ts =>
    have := decidableStaysOpen (levels + levelChange t) ts
    decidable_of_iff _ staysOpen_cons.symm

end PascalCheck.Grammar

namespace PascalCheck.Reader
set_option autoImplicit true
open Grammar

theorem reads_advanceBy (h : n ≤ s.tokens.length) : Reads P s (s.advanceBy n) := by
  induction n generalizing s with
  | zero => exact .refl
  | succ n ih =>
    cases hs : s.tokens with
    | nil => simp [hs] at h
    | cons t ts =>
      rw [hs, List.length_cons] at h
      exact .take (here?_of_tokens hs) (ih (by rw [tokens_advance_of hs]; omega))

theorem Reads.isScan_of_mem_upcoming (h : Reads P (ofScan scan) s) (he : e ∈ s.upcoming) :
    (∃ t, e = .scanned t) ∨ (∃ l n, e = .literal l n) ∨ ∃ q, e = .ended q :=
  isScan_of_mem_start (List.mem_append_right _ (h.upcoming_subset he))

theorem current_of_tokens (s : Reader) : s.current = s.tokens.headD s.final.token := by
  rw [current, tokens]
  cases s.rest <;> rfl

theorem declarations_routine {s : Reader} (hs : s.tokens = w :: n :: ts) (hw : IsRoutineWord w)
    (hn : n.kind = .ident) :
    let u := s.advance.advance
    let more := declarations (headerEnd w n u).skipBodyIfThere
    declarations s = ((more.1.1, headerNode w n u :: more.1.2), more.2) := by
  have hv : w.is Code.varWord = false := hw.is_eq_false (by decide) (by decide)
  have hor : (w.is Code.functionWord || w.is Code.procedureWord) = true := by
    simpa [IsRoutineWord] using hw
  rw [declarations_of_tokens hs, hv, hor, routine, here?_of_tokens (tokens_advance_of hs)]
  simp [hn, namedRoutine_eq]

/-- In front of a body and anything else, skipping takes the tokens of the body and nothing more.
The reader then stands at the first token of what follows, or at the end. Whatever the state of
the checker, what happens on the way declares nothing and asks for no violation of the grammar to
be recorded. If the body is that of a header, the tree has the routine of the header and goes on
with the declarations that follow the body. -/
theorem skipBody_of_body {scan : Scan} {s : Reader} (hbody : Body NestedHeader body [])
    (hlegal : ∀ t ∈ body, t.kind ≠ .unknown) (hreads : Reads P (ofScan scan) s)
    (hs : s.tokens = (body ++ following).filter (·.kind ≠ .unknown)) :
    s.skipBody = s.advanceBy body.length ∧
      s.skipBody.tokens = following.filter (·.kind ≠ .unknown) ∧
      s.skipBody.current = (following.filter (·.kind ≠ .unknown)).headD scan.final ∧
      (∃ es, s.skipBody.trace.toList = s.trace.toList ++ es ∧ ∀ r : Run,
        (r.replay es).checker.table = r.checker.table ∧ ∀ d ∈ r.attempts es, ¬ d.IsSyntax) ∧
      ∀ u w n ts, u.tokens = w :: n :: ts → IsRoutineWord w → n.kind = .ident →
        headerEnd w n u.advance.advance = s → s.atBody = true →
        let more := declarations s.skipBody
        declarations u = ((more.1.1, headerNode w n u.advance.advance :: more.1.2), more.2) := by
  have htaken : body.filter (·.kind ≠ .unknown) = body := by
    rw [List.filter_eq_self]
    intro t ht
    simpa using hlegal t ht
  rw [List.filter_append, htaken] at hs
  have htakes := (takes_body (hbody.append _) hs).1
  have heq : s.skipBody = s.advanceBy body.length := htakes.eq hs
  have htokens : s.skipBody.tokens = following.filter (·.kind ≠ .unknown) := htakes.tokens_eq
  refine ⟨heq, htokens, ?current, ?events, ?tree⟩
  case current =>
    have hfinal : s.skipBody.final.token = scan.final := by
      rw [(reads_skipBody s).final_eq, hreads.final_eq]
      rfl
    rw [current_of_tokens, htokens, hfinal]
  case events =>
    have hlength : body.length ≤ s.tokens.length := by simp [hs]
    -- Tokens are taken and no event is added, so all that happens was to come from the scan.
    have htaking : Reads (fun _ _ => False) s (s.advanceBy body.length) := reads_advanceBy hlength
    obtain ⟨es, htrace, hmem⟩ := htaking.exists_trace_append
    have hscan {e : Event} (he : e ∈ es) := hreads.isScan_of_mem_upcoming (by simpa using hmem e he)
    rw [heq]
    refine ⟨es, htrace, fun r => ⟨Run.table_replay_of_forall ?_, ?_⟩⟩
    · rintro e he symbol rfl
      simpa using hscan he
    · intro d hd
      obtain ⟨before, e, after, rfl, hr⟩ := Run.exists_of_mem_attempts hd
      refine Run.not_isSyntax_of_mem_reports hr ?_
      rintro c n rfl
      simpa using hscan (List.mem_append_right before List.mem_cons_self)
  case tree =>
    intro u w n ts hu hw hn hend hstart
    rw [declarations_routine hu hw hn, hend, skipBodyIfThere, if_pos hstart]

namespace DeclaredRoutine

/-- A routine whose body has a record, a nested routine with a semicolon between parentheses and a
case. An illegal character stands behind it. -/
def source : List UInt8 :=
  ("procedure p; var r: record end; function q(a; b); forward; begin case end end; @ " ++
    "begin end.").toUTF8.toList

def word (lexeme : String) (code : Int) (col : Nat) : Token := ⟨.keyword, lexeme, code, ⟨1, col⟩⟩

def name (lexeme : String) (col : Nat) : Token := ⟨.ident, lexeme, Code.ident, ⟨1, col⟩⟩

def mark (lexeme : String) (code : Int) (col : Nat) : Token := ⟨.operator, lexeme, code, ⟨1, col⟩⟩

def semicolon (col : Nat) : Token := mark ";" Code.semicolon col

def routineWord : Token := word "procedure" Code.procedureWord 1

def routineName : Token := name "p" 11

def fields : List Token :=
  [word "var" Code.varWord 14, name "r" 18, ⟨.colon, ":", Code.colon, ⟨1, 19⟩⟩,
    word "record" Code.recordWord 21, word "end" Code.endWord 28, semicolon 31]

def nestedHeader : List Token :=
  [name "q" 42, mark "(" Code.leftParen 43, name "a" 44, semicolon 45, name "b" 47,
    mark ")" Code.rightParen 48]

def inside : List Token :=
  [word "case" Code.caseWord 66, word "end" Code.endWord 71, word "end" Code.endWord 75]

def compound : List Token := word "begin" Code.beginWord 60 :: (inside ++ [semicolon 78])

def body : List Token :=
  fields ++ word "function" Code.functionWord 33 :: (nestedHeader ++ semicolon 49 ::
    name "forward" 51 :: semicolon 58 :: compound)

def mainBegin : Token := word "begin" Code.beginWord 82

def following : List Token :=
  [⟨.unknown, "@", Code.unlisted, ⟨1, 80⟩⟩, mainBegin, word "end" Code.endWord 88,
    mark "." Code.dot 91]

def scan : Scan :=
  ⟨routineWord :: routineName :: semicolon 12 :: (body ++ following), .endAt ⟨1, 92⟩, none⟩

def bodyStart : Reader := headerEnd routineWord routineName (ofScan scan).advance.advance

theorem scan_eq : scan = .ofBytes source := by decide +kernel

theorem body_declaredRoutine : Body NestedHeader body [] := by
  have hhead : ∀ f ∈ body.head?, ¬ IsForward f := by decide
  have hlocals : Locals NestedHeader body compound :=
    .of_forall (by decide) (.routine (.inl (by decide)) (by decide) (by decide)
      (.forward (by decide) (by decide)) .nil)
  have hcompound : Compound compound [semicolon 78] :=
    InsideThen.compound (by decide) ⟨inside, rfl, by decide, by decide⟩
  exact .block hhead hlocals hcompound (by decide)

end DeclaredRoutine

open DeclaredRoutine in
theorem skipBody_of_body_declaredRoutine :
    scan = .ofBytes source ∧ Body NestedHeader body [] ∧ (∀ t ∈ body, t.kind ≠ .unknown) ∧
      Reads Declaring (ofScan scan) bodyStart ∧
      bodyStart.tokens = (body ++ following).filter (·.kind ≠ .unknown) ∧
      bodyStart.skipBody = bodyStart.advanceBy 21 ∧ bodyStart.skipBody.current = mainBegin ∧
      (declarations (ofScan scan)).1.2 =
        [headerNode routineWord routineName (ofScan scan).advance.advance] := by
  have hlegal : ∀ t ∈ body, t.kind ≠ .unknown := by decide
  have htokens : bodyStart.tokens = (body ++ following).filter (·.kind ≠ .unknown) := by
    decide +kernel
  have hfront : (ofScan scan).tokens =
      routineWord :: routineName :: semicolon 12 :: bodyStart.tokens := by
    decide +kernel
  have hreads : Reads Declaring (ofScan scan) bodyStart :=
    .take (here?_of_tokens hfront)
      (.take (here?_of_tokens (tokens_advance_of hfront)) (reads_headerEnd _ _ _))
  obtain ⟨htaken, -, hcurrent, -, htree⟩ :=
    skipBody_of_body body_declaredRoutine hlegal hreads htokens
  have hmore : (declarations bodyStart.skipBody).1.2 = [] := by decide +kernel
  refine ⟨scan_eq, body_declaredRoutine, hlegal, hreads, htokens, htaken, hcurrent, ?_⟩
  rw [htree _ _ _ _ hfront (.inr (by decide)) (by decide) rfl (by decide), hmore]

end PascalCheck.Reader
