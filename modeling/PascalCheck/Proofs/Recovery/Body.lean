import Mathlib.Data.List.Basic
import PascalCheck.Proofs.Recovery.Statements

namespace PascalCheck.Reader
set_option autoImplicit true
open Grammar

/-- From `s` to the end of the source the events are logged, and brackets have to be closed right
in front of the end if at all. -/
structure Finishes (s : Reader) (es : List Event) (t : Reader) : Prop where
  log_eq : t.log = s.log ++ es ∨ t.log = s.log ++ es ++ [.balance]
  closes : .balance ∉ s.log ++ es → ∀ before after,
    t.trace.toList = before ++ .balance :: after → after = t.final.events

theorem mem_log_iff (he : Event.isOwn e = true) : e ∈ log s ↔ e ∈ s.trace.toList := by
  simp [log, he]

theorem drain_of_end {s : Reader} (hs : s.tokens = []) : s.drain = s := by
  rw [drain, skipWhile]
  split
  · rfl
  · rename_i t ht
    rw [here?_eq_none_iff.2 hs] at ht
    cases ht

namespace Finishes

theorem logged (h : Finishes s es t) (he : e ∈ es) : e ∈ t.log := by
  rcases h.log_eq with hlog | hlog <;> simp [hlog, he]

theorem kept (h : Finishes s es t) (he : e ∈ s.log) : e ∈ t.log := by
  rcases h.log_eq with hlog | hlog <;> simp [hlog, he]

theorem mem_log (h : Finishes s es t) (he : e ∈ t.log) : e ∈ s.log ∨ e ∈ es ∨ e = .balance := by
  rcases h.log_eq with hlog | hlog
  · rw [hlog] at he
    exact (List.mem_append.1 he).imp id .inl
  · rw [hlog, List.append_assoc] at he
    simpa using he

theorem dot (h : Took s xs es u) (hu : u.tokens = [d]) (hd : d.is Code.dot = true) :
    Finishes s es u.terminator := by
  have hahead : (u.emit .balance).tokens = [d] := hu
  have hend : (u.emit .balance).advance.atEnd = true := atEnd_iff.2 (tokens_advance_of hahead)
  have hterminator : u.terminator = (u.emit .balance).advance := by
    rw [terminator, sees_of_tokens hu, if_pos hd]
    dsimp only
    rw [if_pos hend]
  have hlog : u.terminator.log = s.log ++ es ++ [.balance] := by
    rw [hterminator, (h.sound.emit .balance).log_advance (here?_of_tokens hahead),
      log_emit_own u rfl, h.log_eq]
  refine ⟨.inr hlog, ?_⟩
  intro hnone before after htrace
  have hfinal := (reads_terminator u).final_eq
  rw [hterminator, trace_balance_advance hu] at htrace
  rw [← h.log_eq, mem_log_iff rfl] at hnone
  have hlate : Event.balance ∉ u.final.events := by
    intro hmem
    obtain ⟨r, hr, -⟩ := List.map_eq_singleton_iff.1 hu
    cases h.sound.plain .balance (by simpa [upcoming, hr] using hmem)
  rw [hfinal]
  exact ((List.append_cons_inj_of_notMem hnone hlate).1 htrace).2.2.symm

theorem missingDot (h : Took s (xs ++ [e]) es u) (hu : u.tokens = []) :
    Finishes s (es ++ [.fault .missingDot e.line]) u.terminator := by
  have hdot : u.sees Code.dot = false := by
    apply sees_eq_false
    simp [hu]
  have hterminator : u.terminator = u.report .missingDot e.line := by
    rw [terminator, hdot, if_neg (by decide), h.lastLine_eq]
    exact drain_of_end hu
  have hlog : u.terminator.log = s.log ++ (es ++ [.fault .missingDot e.line]) := by
    rw [hterminator, report, log_emit_own u rfl, h.log_eq, List.append_assoc]
  refine ⟨.inl hlog, ?_⟩
  intro hnone before after htrace
  rw [← hlog, mem_log_iff rfl, htrace] at hnone
  simp at hnone

end Finishes

/-- The tokens are read as a body that logs the events, up to the end of the source. -/
def ReadsBody (xs : List Token) (es : List Event) : Prop :=
  ∀ s, Sound s → s.tokens = xs → Finishes s es s.block.2.terminator

/-- The statements of a body are read, in front of the end of a block. -/
theorem ReadsStatements.body (h : ReadsStatements xs es) (hb : b.is Code.beginWord = true)
    (hs : s.tokens = b :: (xs ++ vs)) (hvs : BeforeEnd vs) (hsound : s.Sound) :
    ∃ u, Took s (b :: xs) es u ∧ s.block.2 = u.closeBlock := by
  have ha := Took.advance hsound hs
  have hopen : s.openBody = s.advance := by rw [openBody, sees_of_tokens hs, if_pos hb]
  refine ⟨_, ha.trans (h _ vs ha.sound (ha.rest_eq hs) hvs), ?_⟩
  rw [block_eq, hopen]

theorem ReadsStatements.readsBody (h : ReadsStatements xs es) (hb : b.is Code.beginWord = true)
    (he : e.is Code.endWord = true) (hd : d.is Code.dot = true) :
    ReadsBody (b :: (xs ++ [e, d])) es := by
  intro s hsound hs
  obtain ⟨u, hp, hx⟩ := h.body hb hs (beforeEnd_cons he) hsound
  have hu : u.tokens = [e, d] := hp.rest_eq hs
  have hclose : u.closeBlock = u.advance := by rw [closeBlock, sees_of_tokens hu, if_pos he]
  rw [hx, hclose]
  exact .dot (hp.take hu) (tokens_advance_of hu) hd

theorem ReadsStatements.readsBody_unclosed (h : ReadsStatements xs es)
    (hb : b.is Code.beginWord = true) (hd : d.is Code.dot = true) (hxs : b :: xs = front ++ [e]) :
    ReadsBody (front ++ [e, d]) (es ++ [.fault .missingEnd e.line]) := by
  intro s hsound hs
  have hs' : s.tokens = b :: (xs ++ [d]) := by
    rw [hs, ← List.cons_append, hxs]
    simp
  have hend : isBlockEnd d = true := by simp [isBlockEnd, hd]
  obtain ⟨u, hp, hx⟩ := h.body hb hs' ⟨d, [], rfl, hend⟩ hsound
  have hu : u.tokens = [d] := hp.rest_eq hs'
  have hnone : d.is Code.endWord = false := Token.is_eq_false hd (by decide)
  rw [hxs] at hp
  have hclose : u.closeBlock = u.report .missingEnd e.line := by
    rw [closeBlock, sees_of_tokens hu, hnone, if_neg (by decide), hp.lastLine_eq]
  rw [hx, hclose]
  exact .dot (hp.trans (.emit hp.sound rfl)) hu hd

theorem ReadsStatements.readsBody_unfinished (h : ReadsStatements xs es)
    (hb : b.is Code.beginWord = true) (he : e.is Code.endWord = true) :
    ReadsBody (b :: (xs ++ [e])) (es ++ [.fault .missingDot e.line]) := by
  intro s hsound hs
  obtain ⟨u, hp, hx⟩ := h.body hb hs (beforeEnd_cons he) hsound
  have hu : u.tokens = [e] := hp.rest_eq hs
  have hclose : u.closeBlock = u.advance := by rw [closeBlock, sees_of_tokens hu, if_pos he]
  rw [hx, hclose]
  exact .missingDot (hp.take hu) (tokens_advance_of hu)

theorem Recovers.body (h : Recovers ReadsStatements xs xs' fault) (hb : b.is Code.beginWord = true)
    (he : e.is Code.endWord = true) (hd : d.is Code.dot = true) :
    Recovers ReadsBody (b :: (xs ++ [e, d])) (b :: (xs' ++ [e, d])) fault := by
  obtain ⟨es, es', hread, hread', hes⟩ := h
  exact ⟨es, es', hread.readsBody hb he hd, hread'.readsBody hb he hd, hes⟩

/-- The fault comes after all that is read. -/
theorem recovers_append {Reads : List Token → List Event → Prop} (h : Reads xs es)
    (k : Reads xs' (es ++ [fault])) (hes : ∀ x ∈ es, x.isNameCheck = true) :
    Recovers Reads xs xs' fault := by
  refine ⟨es, _, h, k, hes, by simp, ?_⟩
  intro x hx
  rcases List.mem_append.1 hx with hx | hx
  · exact .inr hx
  · exact .inl (List.mem_singleton.1 hx)

/-- A token is left out among the statements of a body. -/
theorem statements_recover (hinner : Statements (xs ++ w :: us) (w :: us))
    (hb : b.is Code.beginWord = true) (hw : w.is Code.endWord = true)
    (hts : ∀ x ∈ b :: (xs ++ w :: us), x.Coherent)
    (hin : Separates c)
    (hslip : Slip e c (back ++ w :: us) cause) (hxs : b :: xs = front ++ e :: c :: back) :
    ∃ front', front = b :: front' ∧
      Recovers ReadsStatements xs (front' ++ e :: back) (.fault cause e.line) := by
  have he : e ∈ b :: (xs ++ w :: us) := by
    rw [← List.cons_append, hxs]
    simp
  obtain ⟨-, hbegin⟩ := hslip.before (hts e he) hin
  cases front with
  | nil =>
    obtain ⟨rfl, -⟩ := List.cons.inj hxs
    rw [hb] at hbegin
    cases hbegin
  | cons x front =>
    obtain ⟨rfl, rfl⟩ := List.cons.inj hxs
    have hrecover := statements_recoverable hinner (beforeEnd_cons hw)
    exact ⟨front, rfl, hrecover front e c back cause rfl
      (fun x hx => hts x (List.mem_cons_of_mem b hx)) hslip hin⟩

/-- Whichever token of a body is left out, one fault is logged and nothing else is new. -/
theorem body_recovers (h : Grammar.Block (front ++ e :: c :: back) [d])
    (hd : d.is Code.dot = true) (hts : ∀ x ∈ front ++ e :: c :: back, x.Coherent)
    (hslip : Slip e c back cause) :
    Recovers ReadsBody (front ++ e :: c :: back) (front ++ e :: back) (.fault cause e.line) := by
  generalize hbody : front ++ e :: c :: back = body at h hts ⊢
  cases h with
  | @mk _ w _ b hb hinner hw =>
    obtain ⟨xs, es, rfl, hes, hread⟩ := statements_complete hinner
    have hall := hread.readsBody hb hw hd
    have hwithin (hin : Separates c) :
        Recovers ReadsBody (b :: (xs ++ [w, d])) (front ++ e :: back) (.fault cause e.line) := by
      rcases split_around (hbody.trans (List.cons_append).symm) with
        ⟨back, hxs, rfl⟩ | ⟨-, rfl, -⟩ | ⟨-, hlast⟩ | ⟨front, -, hlast⟩
      · obtain ⟨front, rfl, hi⟩ := statements_recover hinner hb hw hts hin hslip hxs
        simpa using hi.body hb hw hd
      · rw [hin.is_eq_false (by decide) (by decide)] at hw
        cases hw
      · obtain ⟨rfl, -⟩ := List.cons.inj hlast
        rw [hin.is_eq_false (by decide) (by decide)] at hd
        cases hd
      · have hlength := congrArg List.length hlast
        simp only [List.length_append, List.length_cons, List.length_nil] at hlength
        omega
    cases hslip with
    | semicolon hc _ _ _ => exact hwithin (.inl hc)
    | assign _ hc => exact hwithin (.inr hc)
    | @closing d' hc _ =>
      have hsplit : (front ++ [e]) ++ [c, d'] = (b :: xs) ++ [w, d] := by simpa using hbody
      obtain ⟨hxs, hlast⟩ := List.append_inj' hsplit rfl
      obtain ⟨rfl, rfl⟩ : c = w ∧ d' = d := by simpa using hlast
      exact recovers_append hall (hread.readsBody_unclosed hb hd hxs.symm) hes
    | dot hc =>
      have hsplit : front ++ [e, c] = (b :: xs) ++ [w, d] := hbody
      obtain ⟨rfl, hlast⟩ := List.append_inj' hsplit rfl
      obtain ⟨rfl, rfl⟩ : e = w ∧ c = d := by simpa using hlast
      exact recovers_append hall (hread.readsBody_unfinished hb hw) hes

end PascalCheck.Reader
