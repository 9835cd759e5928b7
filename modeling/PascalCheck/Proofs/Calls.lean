import Mathlib.Data.List.Count
import Mathlib.Data.List.Induction
import Mathlib.Data.List.Nodup
import Mathlib.Logic.Function.Basic
import PascalCheck.Proofs.Attempts
import PascalCheck.Proofs.Streams

namespace PascalCheck
set_option autoImplicit true

/-- What a stream is asked for. -/
inductive Call where
  | next
  | balance
  | line
deriving DecidableEq, Repr

inductive Answer where
  | token (t : Token)
  | done
  | line (n : Nat)
deriving DecidableEq, Repr

def Answer.token? : Answer → Option Token
  | .token t => some t
  | _ => none

/-- The answer gives no other token and no other line. -/
def Answer.Repeats (t : Token) : Answer → Prop
  | .token u => u = t
  | .done => True
  | .line n => n = t.line

namespace Stream

def call (s : Stream) : Call → Answer × Stream
  | .next => (.token s.next.1, s.next.2)
  | .balance => (.done, s.balance)
  | .line => (.line s.line, s)

def answers (s : Stream) : List Call → List Answer
  | [] => []
  | c :: cs => (s.call c).1 :: (s.call c).2.answers cs

def afterCalls (s : Stream) : List Call → Stream
  | [] => s
  | c :: cs => (s.call c).2.afterCalls cs

theorem afterCalls_append (s : Stream) (cs ds : List Call) :
    s.afterCalls (cs ++ ds) = (s.afterCalls cs).afterCalls ds := by
  induction cs generalizing s with
  | nil => rfl
  | cons c cs ih => exact ih _

theorem tokenAt_balance (s : Stream) : s.balance.tokenAt = s.tokenAt := by
  funext n
  rw [tokenAt_eq, tokenAt_eq]
  rfl

theorem filterMap_answers (s : Stream) (cs : List Call) :
    (s.answers cs).filterMap Answer.token? = (List.range (cs.count .next)).map s.tokenAt := by
  induction cs generalizing s with
  | nil => rfl
  | cons c cs ih =>
    cases c with
    | next =>
      have hgiven : Answer.token? (s.call .next).1 = some s.next.1 := rfl
      rw [answers, List.filterMap_cons_some hgiven, ih, List.count_cons_self,
        List.range_succ_eq_map, List.map_cons, List.map_map]
      rfl
    | balance =>
      have hgiven : Answer.token? (s.call .balance).1 = none := rfl
      rw [answers, List.filterMap_cons_none hgiven, ih, List.count_cons_of_ne (by decide)]
      exact congrArg (List.map · _) s.tokenAt_balance
    | line =>
      have hgiven : Answer.token? (s.call .line).1 = none := rfl
      rw [answers, List.filterMap_cons_none hgiven, ih, List.count_cons_of_ne (by decide)]
      rfl

/-- Nothing is left to give or to report. -/
structure Finished (s : Stream) : Prop where
  pending : s.pending = []
  ended : s.ended = true
  brackets : s.run.brackets = .empty
  line : s.line = s.final.line

/-- None of the tokens to come is the end of the input, and a stream that has given the end is
finished. -/
structure Orderly (s : Stream) : Prop where
  kind_ne_endOfInput : ∀ t ∈ s.pending, t.kind ≠ .endOfInput
  finished : s.ended = true → s.Finished

theorem orderly_ofBytes (source : List UInt8) (sink : Sink) : (ofBytes source sink).Orderly where
  kind_ne_endOfInput := fun _ ht => (Scan.coherent_of_mem ht).kind_ne_endOfInput
  finished := nofun

theorem Finished.balance {s : Stream} (h : s.Finished) : s.balance = s := by
  have hnone : s.run.unclosedReports = [] := by
    rw [Run.unclosedReports, h.brackets]
    rfl
  have hrun : s.run.balance = s.run := by
    rw [Run.balance_eq, hnone, ← h.brackets]
    rfl
  rw [Stream.balance, hrun]

theorem Finished.next {s : Stream} (h : s.Finished) : s.next = (s.final, s) := by
  simp only [Stream.next, h.pending, h.ended, if_true]

theorem Finished.call {s : Stream} (h : s.Finished) (c : Call) :
    (s.call c).2 = s ∧ (s.call c).1.Repeats s.final := by
  cases c with
  | next =>
    rw [Stream.call, h.next]
    exact ⟨rfl, rfl⟩
  | balance => exact ⟨h.balance, trivial⟩
  | line => exact ⟨rfl, h.line⟩

theorem Finished.afterCalls {s : Stream} (h : s.Finished) (cs : List Call) :
    s.afterCalls cs = s ∧ ∀ a ∈ s.answers cs, a.Repeats s.final := by
  induction cs with
  | nil => exact ⟨rfl, by simp [answers]⟩
  | cons c cs ih =>
    obtain ⟨hsame, hanswer⟩ := h.call c
    rw [Stream.afterCalls, answers, hsame]
    exact ⟨ih.1, List.forall_mem_cons.2 ⟨hanswer, ih.2⟩⟩

theorem finished_next {s : Stream} (hp : s.pending = []) (h : s.ended = true → s.Finished) :
    s.next.2.Finished ∧ s.next.1 = s.final ∧ s.next.2.final = s.final := by
  cases he : s.ended with
  | true =>
    rw [(h he).next]
    exact ⟨h he, rfl, rfl⟩
  | false =>
    have hnext : s.next = (s.final, { s with
        ended := true, line := s.final.line, run := s.run.step (.ended s.openQuote) }) := by
      simp only [next, hp, he, Bool.false_eq_true, if_false]
    rw [hnext]
    exact ⟨⟨hp, rfl, by rw [Run.step_eq]; rfl, rfl⟩, rfl, rfl⟩

theorem Orderly.call {s : Stream} (h : s.Orderly) (c : Call) : (s.call c).2.Orderly := by
  cases c with
  | next =>
    cases hp : s.pending with
    | nil =>
      obtain ⟨hfinished, -⟩ := finished_next hp h.finished
      exact ⟨by rw [Stream.call, hfinished.pending]; simp, fun _ => hfinished⟩
    | cons t ts =>
      have hnext : s.next =
          (t, { s with pending := ts, line := t.line, run := s.run.scan t }) := by
        simp only [Stream.next, hp]
      rw [Stream.call, hnext]
      refine ⟨fun u hu => h.kind_ne_endOfInput u (by simp [hp, hu]), fun he => ?_⟩
      -- A stream with a token to come has not given the end.
      have hnone := (h.finished he).pending
      rw [hp] at hnone
      cases hnone
  | balance =>
    refine ⟨h.kind_ne_endOfInput, fun he => ?_⟩
    have hfinished := h.finished he
    rw [Stream.call, hfinished.balance]
    exact hfinished
  | line => exact h

theorem Orderly.afterCalls {s : Stream} (h : s.Orderly) (cs : List Call) :
    (s.afterCalls cs).Orderly := by
  induction cs generalizing s with
  | nil => exact h
  | cons c cs ih => exact ih (h.call c)

theorem Orderly.finished_of_kind {s : Stream} (h : s.Orderly)
    (hk : s.next.1.kind = .endOfInput) : s.next.2.Finished ∧ s.next.2.final = s.next.1 := by
  cases hp : s.pending with
  | nil =>
    obtain ⟨hfinished, hgiven, hfinal⟩ := finished_next hp h.finished
    exact ⟨hfinished, hfinal.trans hgiven.symm⟩
  | cons t ts =>
    have hgiven : s.next.1 = t := by simp only [next, hp]
    rw [hgiven] at hk
    exact absurd hk (h.kind_ne_endOfInput t (by simp [hp]))

end Stream

/-- Something that happens to a bracket: it is opened, closed by a closing bracket of whatever kind,
or reported to be left open. -/
inductive Entry where
  | opened (f : OpenBracket)
  | closed (f : OpenBracket)
  | reported (f : OpenBracket)
deriving DecidableEq, Repr

namespace Entry

def ended? : Entry → Option OpenBracket
  | .opened _ => none
  | .closed f | .reported f => some f

def Ends (es : List Entry) (i : Nat) (f : OpenBracket) : Prop := es[i]?.bind ended? = some f

/-- Every bracket that ends was opened before, no opening has two ends, and the open brackets are
those of the openings without an end. -/
structure Settles (es : List Entry) (frames : List OpenBracket) (origin : Nat → Nat)
    (left : List Nat) : Prop where
  origin_of_ends : ∀ i f, Ends es i f → origin i < i ∧ es[origin i]? = some (.opened f)
  origin_injective : ∀ i j f g, Ends es i f → Ends es j g → origin i = origin j → i = j
  frames_eq : left.map (es[·]?) = frames.map fun f => some (.opened f)
  nodup : left.Nodup
  mem_left : ∀ k f, es[k]? = some (.opened f) →
    (k ∈ left ↔ ∀ i g, Ends es i g → origin i ≠ k)

/-- Each opening has one end at most, and the brackets without one are open. -/
def Accounts (es : List Entry) (frames : List OpenBracket) : Prop :=
  ∃ origin left, Settles es frames origin left

theorem accounts_nil : Accounts [] [] := by
  refine ⟨id, [], ?_, ?_, rfl, List.nodup_nil, ?_⟩
  · intro i f h
    cases h
  · intro i j f g h
    cases h
  · intro k f h
    cases h

theorem ends_iff : Ends es i f ↔ ∃ e, es[i]? = some e ∧ e.ended? = some f :=
  Option.bind_eq_some_iff

theorem getElem?_concat_eq_some {es : List Entry} :
    (es ++ [e])[i]? = some e' ↔ es[i]? = some e' ∨ i = es.length ∧ e = e' := by
  rcases Nat.lt_trichotomy i es.length with hlt | rfl | hgt
  · simp [List.getElem?_append_left hlt, Nat.ne_of_lt hlt]
  · simp
  · have hnone : es[i]? = none := List.getElem?_eq_none (Nat.le_of_lt hgt)
    have hnone' : (es ++ [e])[i]? = none :=
      List.getElem?_eq_none (by simpa using Nat.succ_le_of_lt hgt)
    simp [hnone, hnone', Nat.ne_of_gt hgt]

theorem ends_concat :
    Ends (es ++ [e]) i f ↔ Ends es i f ∨ i = es.length ∧ e.ended? = some f := by
  simp only [ends_iff, getElem?_concat_eq_some, or_and_right, exists_or, and_assoc,
    exists_eq_left', exists_and_left]

theorem lt_of_getElem? {es : List Entry} (h : es[i]? = some e) : i < es.length :=
  (List.getElem?_eq_some_iff.1 h).1

theorem lt_of_ends (h : Ends es i f) : i < es.length := by
  obtain ⟨e, he, -⟩ := ends_iff.1 h
  exact lt_of_getElem? he

namespace Settles

variable {es : List Entry} {fs : List OpenBracket} {origin : Nat → Nat} {left : List Nat}

theorem exists_opened (h : Settles es fs origin left) (hk : k ∈ left) :
    ∃ f, es[k]? = some (.opened f) := by
  have hmem : es[k]? ∈ left.map (es[·]?) := List.mem_map_of_mem hk
  rw [h.frames_eq] at hmem
  obtain ⟨f, -, hf⟩ := List.mem_map.1 hmem
  exact ⟨f, hf.symm⟩

theorem lt_of_mem (h : Settles es fs origin left) (hk : k ∈ left) : k < es.length := by
  obtain ⟨f, hf⟩ := h.exists_opened hk
  exact lt_of_getElem? hf

theorem map_concat (h : Settles es fs origin left) (e : Entry) (hks : ks ⊆ left) :
    ks.map ((es ++ [e])[·]?) = ks.map (es[·]?) :=
  List.map_congr_left fun _ hk => List.getElem?_append_left (h.lt_of_mem (hks hk))

theorem opened (h : Settles es fs origin left) (f : OpenBracket) :
    Settles (es ++ [.opened f]) (f :: fs) origin (es.length :: left) := by
  have hends (i : Nat) (g : OpenBracket) : Ends (es ++ [.opened f]) i g ↔ Ends es i g := by
    rw [ends_concat]
    simp [ended?]
  refine ⟨?origin, ?injective, ?frames, ?nodup, ?left⟩
  case origin =>
    intro i g hi
    obtain ⟨hlt, hopened⟩ := h.origin_of_ends i g ((hends i g).1 hi)
    exact ⟨hlt, getElem?_concat_eq_some.2 (.inl hopened)⟩
  case injective =>
    intro i j g g' hi hj
    exact h.origin_injective i j g g' ((hends i g).1 hi) ((hends j g').1 hj)
  case frames =>
    rw [List.map_cons, h.map_concat _ (List.Subset.refl left), h.frames_eq,
      List.getElem?_concat_length, List.map_cons]
  case nodup => exact List.nodup_cons.2 ⟨fun hk => Nat.lt_irrefl _ (h.lt_of_mem hk), h.nodup⟩
  case left =>
    intro k g hk
    simp only [hends]
    rcases getElem?_concat_eq_some.1 hk with hk | ⟨rfl, -⟩
    · rw [List.mem_cons, or_iff_right (Nat.ne_of_lt (lt_of_getElem? hk))]
      exact h.mem_left k g hk
    · simp only [List.mem_cons_self, true_iff]
      -- What ended before was opened before.
      intro i g hi heq
      have hlt := Nat.lt_trans (h.origin_of_ends i g hi).1 (lt_of_ends hi)
      omega

theorem ended (h : Settles es fs origin (ks ++ k :: ls)) (hk : es[k]? = some (.opened f))
    (he : e.ended? = some f) (hfs : (ks ++ ls).map (es[·]?) = gs.map fun g => some (.opened g)) :
    Settles (es ++ [e]) gs (Function.update origin es.length k) (ks ++ ls) := by
  have hsub : ks ++ ls ⊆ ks ++ k :: ls := by simp
  have hmem : k ∈ ks ++ k :: ls := by simp
  obtain ⟨hnew, hnodup⟩ := List.nodup_cons.1 (List.nodup_middle.1 h.nodup)
  have hold (i : Nat) (g : OpenBracket) (hi : Ends es i g) :
      Function.update origin es.length k i = origin i ∧ origin i ≠ k :=
    ⟨Function.update_of_ne (Nat.ne_of_lt (lt_of_ends hi)) _ _, (h.mem_left k f hk).1 hmem i g hi⟩
  have hself : Function.update origin es.length k es.length = k := Function.update_self _ _ _
  refine ⟨?origin, ?injective, ?frames, hnodup, ?left⟩
  case origin =>
    intro i g hi
    rcases ends_concat.1 hi with hi | ⟨rfl, hg⟩
    · obtain ⟨hlt, hopened⟩ := h.origin_of_ends i g hi
      rw [(hold i g hi).1]
      exact ⟨hlt, getElem?_concat_eq_some.2 (.inl hopened)⟩
    · obtain rfl : f = g := Option.some.inj (he.symm.trans hg)
      rw [hself]
      exact ⟨lt_of_getElem? hk, getElem?_concat_eq_some.2 (.inl hk)⟩
  case injective =>
    intro i j g g' hi hj heq
    rcases ends_concat.1 hi with hi | ⟨rfl, -⟩ <;> rcases ends_concat.1 hj with hj | ⟨rfl, -⟩
    · rw [(hold i g hi).1, (hold j g' hj).1] at heq
      exact h.origin_injective i j g g' hi hj heq
    · rw [(hold i g hi).1, hself] at heq
      exact absurd heq (hold i g hi).2
    · rw [(hold j g' hj).1, hself] at heq
      exact absurd heq.symm (hold j g' hj).2
    · rfl
  case frames => rw [h.map_concat e hsub, hfs]
  case left =>
    intro k' g hk'
    rcases getElem?_concat_eq_some.1 hk' with hk' | ⟨-, rfl⟩
    · have hleft := h.mem_left k' g hk'
      constructor
      · intro hmem' i g' hi
        rcases ends_concat.1 hi with hi | ⟨rfl, -⟩
        · rw [(hold i g' hi).1]
          exact hleft.1 (hsub hmem') i g' hi
        · rw [hself]
          rintro rfl
          exact hnew hmem'
      · intro hends
        have hne := hends es.length f (ends_concat.2 (.inr ⟨rfl, he⟩))
        rw [hself] at hne
        have hopen : k' ∈ ks ++ k :: ls := hleft.2 fun i g' hi => by
          rw [← (hold i g' hi).1]
          exact hends i g' (ends_concat.2 (.inl hi))
        simpa [Ne.symm hne] using hopen
    · cases he

end Settles

theorem Accounts.opened (h : Accounts es fs) (f : OpenBracket) :
    Accounts (es ++ [.opened f]) (f :: fs) := by
  obtain ⟨origin, left, h⟩ := h
  exact ⟨_, _, h.opened f⟩

theorem Accounts.ended (h : Accounts es (fs ++ f :: gs)) (he : e.ended? = some f) :
    Accounts (es ++ [e]) (fs ++ gs) := by
  obtain ⟨origin, left, h⟩ := h
  have hframes := h.frames_eq
  rw [List.map_append, List.map_cons] at hframes
  obtain ⟨ks, rest, rfl, hks, hrest⟩ := List.map_eq_append_iff.1 hframes
  obtain ⟨k, ls, rfl, hk, hls⟩ := List.map_eq_cons_iff.1 hrest
  exact ⟨_, _, h.ended hk he (by rw [List.map_append, List.map_append, hks, hls])⟩

/-- Brackets may be reported from the outermost inwards. -/
theorem Accounts.reported (h : Accounts es fs) :
    Accounts (es ++ fs.reverse.map .reported) [] := by
  induction fs using List.reverseRecOn generalizing es with
  | nil => simpa using h
  | append_singleton fs f ih =>
    have hone : Accounts (es ++ [.reported f]) (fs ++ []) := h.ended rfl
    rw [List.append_nil] at hone
    have hall := ih hone
    rw [List.append_assoc] at hall
    simpa using hall

end Entry

namespace Brackets

def entries (bs : Brackets) (line : Nat) : BracketMark → List Entry
  | .opening b => [.opened ⟨b, line⟩]
  | .closing _ => bs.frames.head?.toList.map .closed

def entriesAll (bs : Brackets) (line : Nat) : List BracketMark → List Entry
  | [] => []
  | m :: ms => bs.entries line m ++ (bs.meet line m).1.entriesAll line ms

open Entry

theorem accounts_meet (bs : Brackets) (line : Nat) (m : BracketMark) (h : Accounts es bs.frames) :
    Accounts (es ++ bs.entries line m) (bs.meet line m).1.frames := by
  cases m with
  | opening b => exact h.opened ⟨b, line⟩
  | closing b =>
    cases hf : bs.frames with
    | nil => simpa [entries, meet, hf] using h
    | cons f fs =>
      rw [hf] at h
      have hone : Accounts (es ++ [.closed f]) ([] ++ fs) := Accounts.ended h rfl
      simpa [entries, meet, hf] using hone

theorem accounts_meetAll (bs : Brackets) (line : Nat) (ms : List BracketMark)
    (h : Accounts es bs.frames) :
    Accounts (es ++ bs.entriesAll line ms) (bs.meetAll line ms).1.frames := by
  induction ms generalizing bs es with
  | nil => simpa [entriesAll, meetAll] using h
  | cons m ms ih =>
    rw [entriesAll, ← List.append_assoc]
    exact ih _ (accounts_meet bs line m h)

end Brackets

namespace Run

def entries (r : Run) : Event → List Entry
  | .scanned t => r.brackets.entriesAll t.line t.brackets
  | .ended _ | .balance => r.brackets.frames.reverse.map .reported
  | _ => []

def account (r : Run) : List Event → List Entry
  | [] => []
  | e :: es => r.entries e ++ (r.step e).account es

theorem account_append (r : Run) (es fs : List Event) :
    r.account (es ++ fs) = r.account es ++ (r.replay es).account fs := by
  induction es generalizing r with
  | nil => rfl
  | cons e es ih =>
    rw [List.cons_append, account, account, ih, List.append_assoc, replay_cons]

theorem accounts_step (r : Run) (e : Event) (h : Entry.Accounts es r.brackets.frames) :
    Entry.Accounts (es ++ r.entries e) (r.step e).brackets.frames := by
  rw [step_eq]
  cases e with
  | scanned t => exact Brackets.accounts_meetAll r.brackets t.line t.brackets h
  | ended q => exact h.reported
  | balance => exact h.reported
  | _ => simpa [entries, bracketsAfter] using h

theorem accounts_replay (r : Run) (events : List Event) (h : Entry.Accounts es r.brackets.frames) :
    Entry.Accounts (es ++ r.account events) (r.replay events).brackets.frames := by
  induction events generalizing r es with
  | nil => simpa [account] using h
  | cons e events ih =>
    rw [account, ← List.append_assoc]
    exact ih _ (accounts_step r e h)

end Run

theorem Bracket.opening_injective : Function.Injective Bracket.opening := by
  intro b c h
  cases b <;> cases c <;> first | rfl | cases h

theorem Cause.message_bracket (fault : BracketFault) (line : Int) :
    ((bracket fault).onLine line).message = fault.text := by
  simp [onLine, Diagnostic.ofCode, Message.format, Message.template?, Message.fill, code, operands,
    Message.Operand.placed, Message.surplus]

namespace BracketFault

def initial : BracketFault → Char
  | .extra _ => 'e'
  | .mismatch _ _ => 'b'
  | .unclosed _ _ => 'u'

theorem head?_append {s : String} (h : s.toList.head? = some c) (t : String) :
    (s ++ t).toList.head? = some c := by
  rw [String.toList_append, List.head?_append, h, Option.some_or]

theorem head?_text (fault : BracketFault) : fault.text.toList.head? = some fault.initial := by
  cases fault with
  | extra got =>
    have h : "extra closing bracket ".toList.head? = some 'e' := by decide +kernel
    exact head?_append h _
  | mismatch wanted got =>
    have h : "bracket mismatch: expected ".toList.head? = some 'b' := by decide +kernel
    exact head?_append (head?_append (head?_append h _) _) _
  | unclosed opened line =>
    have h : "unclosed bracket ".toList.head? = some 'u' := by decide +kernel
    exact head?_append (head?_append (head?_append h _) _) _

theorem toList_unclosed (b : Bracket) (n : Nat) : (unclosed b n).text.toList =
    "unclosed bracket '".toList ++ b.opening :: ("' opened at line " ++ toString n).toList := by
  have h : (unclosed b n).text =
      "unclosed bracket " ++ Bracket.quoted b.opening ++ " opened at line " ++ toString n := rfl
  rw [h]
  simp [Bracket.quoted]

end BracketFault

theorem Brackets.initial_of_mem_meetAll {bs : Brackets} (h : fault ∈ (bs.meetAll line ms).2) :
    fault.initial ≠ 'u' := by
  induction ms generalizing bs with
  | nil => simp [meetAll] at h
  | cons m ms ih =>
    rw [meetAll, List.mem_append, Option.mem_toList] at h
    refine h.elim (fun hfirst => ?_) ih
    cases m with
    | opening b => cases hfirst
    | closing b =>
      rw [meet] at hfirst
      split at hfirst
      · cases hfirst
        exact ne_of_beq_false rfl
      · split at hfirst
        · cases hfirst
        · cases hfirst
          exact ne_of_beq_false rfl

namespace OpenBracket

def report (f : OpenBracket) : Diagnostic :=
  (Cause.bracket (.unclosed f.bracket f.line)).onLine f.line

theorem code_report (f : OpenBracket) : f.report.code = 116 := rfl

theorem line_report (f : OpenBracket) : f.report.line = f.line := rfl

theorem message_report (f : OpenBracket) :
    f.report.message = (BracketFault.unclosed f.bracket f.line).text :=
  Cause.message_bracket _ _

theorem report_injective : Function.Injective report := by
  rintro ⟨b, n⟩ ⟨c, m⟩ h
  have hline : n = m := by
    have hline := congrArg Diagnostic.line h
    rw [line_report, line_report] at hline
    exact Int.ofNat_inj.1 hline
  have htext := congrArg (·.message.toList) h
  simp only [message_report, BracketFault.toList_unclosed, List.append_cancel_left_eq,
    List.cons.injEq] at htext
  rw [hline, Bracket.opening_injective htext.1]

/-- A bracket that is met is reported in other words. -/
theorem ne_report (f : OpenBracket) (h : fault.initial ≠ 'u') (line : Int) :
    (Cause.bracket fault).onLine line ≠ f.report := by
  intro heq
  have hhead := congrArg (·.message.toList.head?) heq
  simp only [message_report, Cause.message_bracket, BracketFault.head?_text] at hhead
  exact h (Option.some.inj hhead)

end OpenBracket

namespace Run

variable (r : Run) (f : OpenBracket)

theorem count_unclosedReports :
    r.unclosedReports.count f.report =
      (r.brackets.frames.reverse.map Entry.reported).count (.reported f) := by
  have hreported : Function.Injective Entry.reported := fun _ _ h => Entry.reported.inj h
  have hmap : r.unclosedReports = r.brackets.frames.reverse.map OpenBracket.report := by
    rw [unclosedReports, Brackets.unclosed, List.map_map]
    rfl
  rw [hmap, List.count_map_of_injective _ _ OpenBracket.report_injective,
    List.count_map_of_injective _ _ hreported]

theorem reported_notMem_entriesAll (bs : Brackets) (line : Nat) (ms : List BracketMark) :
    .reported f ∉ bs.entriesAll line ms := by
  induction ms generalizing bs with
  | nil => simp [Brackets.entriesAll]
  | cons m ms ih =>
    rw [Brackets.entriesAll, List.mem_append]
    refine not_or_intro ?_ (ih _)
    cases m <;> simp [Brackets.entries]

theorem report_notMem_scanned (t : Token) : f.report ∉ r.reports (.scanned t) := by
  intro h
  rcases List.mem_append.1 h with h | h
  · obtain ⟨fault, hfault, heq⟩ := List.mem_map.1 h
    exact f.ne_report (Brackets.initial_of_mem_meetAll hfault) _ heq
  · exact Token.code_of_mem_reports h f.code_report

theorem report_notMem_quote (q : Option Nat) :
    f.report ∉ q.toList.map fun line : Nat => Cause.unterminatedString.onLine line := by
  intro h
  obtain ⟨line, -, hline⟩ := List.mem_map.1 h
  have hcode : (117 : Int) = 116 := (congrArg Diagnostic.code hline).trans f.code_report
  exact absurd hcode (by decide)

theorem count_attempts (h : ∀ e ∈ events, ∀ r : Run,
      (r.reports e).count f.report = (r.entries e).count (.reported f)) :
    (r.attempts events).count f.report = (r.account events).count (.reported f) := by
  induction events generalizing r with
  | nil => rfl
  | cons e events ih =>
    obtain ⟨hfirst, hrest⟩ := List.forall_mem_cons.1 h
    rw [attempts, account, List.count_append, List.count_append, hfirst r, ih _ hrest]

end Run

namespace Stream

def event? (s : Stream) : Call → Option Event
  | .next =>
    match s.pending with
    | t :: _ => some (.scanned t)
    | [] => if s.ended then none else some (.ended s.openQuote)
  | .balance => some .balance
  | .line => none

def events (s : Stream) : List Call → List Event
  | [] => []
  | c :: cs => (s.event? c).toList ++ (s.call c).2.events cs

theorem run_call (s : Stream) (c : Call) :
    (s.call c).2.run = s.run.replay (s.event? c).toList := by
  cases c with
  | next =>
    rw [call, next, event?]
    cases s.pending with
    | nil => cases s.ended <;> rfl
    | cons t ts => rfl
  | balance => rfl
  | line => rfl

theorem run_afterCalls (s : Stream) (cs : List Call) :
    (s.afterCalls cs).run = s.run.replay (s.events cs) := by
  induction cs generalizing s with
  | nil => rfl
  | cons c cs ih => rw [afterCalls, ih, events, Run.replay_append, run_call]

/-- What the calls ask to have recorded. -/
def asked (s : Stream) (cs : List Call) : List Diagnostic := s.run.attempts (s.events cs)

/-- What the calls do to the brackets. -/
def account (s : Stream) (cs : List Call) : List Entry := s.run.account (s.events cs)

theorem account_cons (s : Stream) (c : Call) (cs : List Call) :
    s.account (c :: cs) = s.run.account (s.event? c).toList ++ (s.call c).2.account cs := by
  rw [account, events, Run.account_append, ← run_call, account]

theorem sink_afterCalls (s : Stream) (cs : List Call) :
    (s.afterCalls cs).run.checker.sink = s.run.checker.sink.addAll (s.asked cs) := by
  rw [run_afterCalls, Run.sink_replay]
  rfl

theorem accounts_afterCalls (source : List UInt8) (sink : Sink) (cs : List Call) :
    Entry.Accounts ((ofBytes source sink).account cs)
      ((ofBytes source sink).afterCalls cs).run.brackets.frames := by
  rw [run_afterCalls]
  exact Run.accounts_replay (ofBytes source sink).run _ Entry.accounts_nil

theorem count_reports {s : Stream} (h : s.event? c = some e) (r : Run) (f : OpenBracket) :
    (r.reports e).count f.report = (r.entries e).count (.reported f) := by
  cases c with
  | next =>
    rw [event?] at h
    split at h
    · cases h
      rw [List.count_eq_zero_of_not_mem (r.report_notMem_scanned f _)]
      exact (List.count_eq_zero_of_not_mem (Run.reported_notMem_entriesAll f _ _ _)).symm
    · split at h
      · cases h
      · cases h
        rw [Run.reports, List.count_append,
          List.count_eq_zero_of_not_mem (Run.report_notMem_quote f _), Nat.zero_add]
        exact r.count_unclosedReports f
  | balance =>
    cases h
    exact r.count_unclosedReports f
  | line => cases h

theorem exists_event?_of_mem_events {s : Stream} (h : e ∈ s.events cs) :
    ∃ (s' : Stream) (c : Call), s'.event? c = some e := by
  induction cs generalizing s with
  | nil => cases h
  | cons c cs ih =>
    rcases List.mem_append.1 h with he | he
    · exact ⟨s, c, Option.mem_toList.1 he⟩
    · exact ih he

theorem count_asked (s : Stream) (cs : List Call) (f : OpenBracket) :
    (s.asked cs).count f.report = (s.account cs).count (.reported f) := by
  refine s.run.count_attempts f fun e he r => ?_
  obtain ⟨s', c, h⟩ := exists_event?_of_mem_events he
  exact count_reports h r f

end Stream

def Token.opened (t : Token) : List OpenBracket :=
  t.brackets.filterMap fun
    | .opening b => some ⟨b, t.line⟩
    | .closing _ => none

def Entry.opened? : Entry → Option OpenBracket
  | .opened f => some f
  | _ => none

theorem Brackets.filterMap_entriesAll (bs : Brackets) (line : Nat) (ms : List BracketMark) :
    (bs.entriesAll line ms).filterMap Entry.opened? = ms.filterMap fun
      | .opening b => some ⟨b, line⟩
      | .closing _ => none := by
  induction ms generalizing bs with
  | nil => rfl
  | cons m ms ih =>
    rw [entriesAll, List.filterMap_append, ih]
    cases m with
    | opening b => rfl
    | closing b => cases h : bs.frames.head? <;> simp [entries, h, Entry.opened?]

theorem Run.filterMap_account_reported (r : Run) :
    (r.account [.balance]).filterMap Entry.opened? = [] := by
  simp [account, entries, List.filterMap_eq_nil_iff, Entry.opened?]

namespace Stream

theorem opened_call {s : Stream} (h : s.final.opened = []) (c : Call) :
    (s.run.account (s.event? c).toList).filterMap Entry.opened? =
      (s.call c).1.token?.toList.flatMap Token.opened := by
  cases c with
  | next =>
    rw [call, next, event?]
    cases s.pending with
    | nil =>
      cases s.ended with
      | true => simpa [Run.account, Answer.token?] using h.symm
      | false =>
        have hgiven : (Answer.token? (.token s.final)).toList.flatMap Token.opened = [] := by
          simpa [Answer.token?] using h
        exact s.run.filterMap_account_reported.trans hgiven.symm
    | cons t ts =>
      simp [Run.account, Run.entries, Brackets.filterMap_entriesAll, Answer.token?, Token.opened]
  | balance => exact s.run.filterMap_account_reported
  | line => rfl

theorem final_call (s : Stream) (c : Call) : (s.call c).2.final = s.final := by
  cases c with
  | next =>
    rw [call, next]
    cases s.pending with
    | nil => cases s.ended <;> rfl
    | cons t ts => rfl
  | balance => rfl
  | line => rfl

theorem opened_account {s : Stream} (h : s.final.opened = []) (cs : List Call) :
    (s.account cs).filterMap Entry.opened? =
      ((s.answers cs).filterMap Answer.token?).flatMap Token.opened := by
  induction cs generalizing s with
  | nil => rfl
  | cons c cs ih =>
    have hfinal : (s.call c).2.final.opened = [] := by
      rw [final_call, h]
    rw [account_cons, List.filterMap_append, opened_call h, ih hfinal, answers]
    cases htoken : (s.call c).1.token? with
    | none =>
      rw [List.filterMap_cons_none htoken]
      rfl
    | some t =>
      rw [List.filterMap_cons_some htoken]
      simp

/-- Whatever is asked of a stream in whatever order, the tokens are those that a stream gives which
is asked for tokens alone; once the end of the input was given, the stream stays as it is and gives
nothing else; each bracket that a token opens is closed once, reported once or still open; and what
was recorded is what the calls asked for, with one report for each bracket that was reported. -/
theorem calls_in_any_order (source : List UInt8) (sink : Sink) (calls : List Call) :
    let s := ofBytes source sink
    (s.answers calls).filterMap Answer.token? =
        (s.answers (calls.filter (· = .next))).filterMap Answer.token? ∧
      (∀ before rest, calls = before ++ .next :: rest →
        (s.afterCalls before).next.1.kind = .endOfInput →
        s.afterCalls calls = s.afterCalls (before ++ [.next]) ∧
          ∀ a ∈ (s.afterCalls (before ++ [.next])).answers rest,
            a.Repeats (s.afterCalls before).next.1) ∧
      Entry.Accounts (s.account calls) (s.afterCalls calls).run.brackets.frames ∧
      (s.account calls).filterMap Entry.opened? =
        ((s.answers calls).filterMap Answer.token?).flatMap Token.opened ∧
      (s.afterCalls calls).run.checker.sink = sink.addAll (s.asked calls) ∧
      ∀ f, (s.asked calls).count f.report = (s.account calls).count (.reported f) := by
  intro s
  refine ⟨?tokens, ?finish, accounts_afterCalls source sink calls, opened_account rfl calls,
    s.sink_afterCalls calls, s.count_asked calls⟩
  case tokens =>
    rw [filterMap_answers, filterMap_answers, List.count_filter (by decide)]
  case finish =>
    rintro before rest rfl hkind
    have hsplit : before ++ Call.next :: rest = (before ++ [.next]) ++ rest := by simp
    have hnext : s.afterCalls (before ++ [.next]) = (s.afterCalls before).next.2 :=
      s.afterCalls_append _ _
    obtain ⟨hfinished, hfinal⟩ :=
      ((orderly_ofBytes source sink).afterCalls before).finished_of_kind hkind
    rw [hsplit, s.afterCalls_append, hnext, ← hfinal]
    exact hfinished.afterCalls rest

/-- A parenthesis is reported before it is closed, a square bracket is closed by a parenthesis, and
a string does not end. -/
def crossed : Stream := ofBytes "( [ ) '(".toUTF8.toList .empty

theorem calls_in_any_order_crossed :
    let before : List Call := [.next, .balance, .next, .next, .line]
    let rest : List Call := [.balance, .next, .line, .next]
    (crossed.afterCalls before).next.1.kind = .endOfInput ∧
      crossed.afterCalls (before ++ .next :: rest) = crossed.afterCalls (before ++ [.next]) ∧
      crossed.account (before ++ .next :: rest) =
        [.opened ⟨.round, 1⟩, .reported ⟨.round, 1⟩, .opened ⟨.square, 1⟩,
          .closed ⟨.square, 1⟩] ∧
      (crossed.asked (before ++ .next :: rest)).count (OpenBracket.report ⟨.round, 1⟩) = 1 := by
  intro before rest
  obtain ⟨-, hfinish, -, -, -, hcount⟩ :=
    calls_in_any_order "( [ ) '(".toUTF8.toList .empty (before ++ .next :: rest)
  have hkind : (crossed.afterCalls before).next.1.kind = .endOfInput := by decide +kernel
  have haccount : crossed.account (before ++ .next :: rest) =
      [.opened ⟨.round, 1⟩, .reported ⟨.round, 1⟩, .opened ⟨.square, 1⟩,
        .closed ⟨.square, 1⟩] := by
    decide +kernel
  refine ⟨hkind, (hfinish before rest rfl hkind).1, haccount, ?_⟩
  exact (hcount ⟨.round, 1⟩).trans (by rw [← crossed, haccount]; decide)

end Stream

end PascalCheck
