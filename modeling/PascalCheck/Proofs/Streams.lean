import PascalCheck.Analysis.Stream
import PascalCheck.Proofs.Lexemes

namespace PascalCheck
set_option autoImplicit true

namespace Stream

def tokenAt (s : Stream) : Nat → Token
  | 0 => s.next.1
  | n + 1 => s.next.2.tokenAt n

theorem tokenAt_eq (s : Stream) (n : Nat) : s.tokenAt n = s.pending.getD n s.final := by
  induction n generalizing s with
  | zero =>
    rw [tokenAt, next]
    split
    · rename_i h
      rw [h]
      rfl
    · rename_i h
      rw [h]
      split <;> rfl
  | succ n ih =>
    rw [tokenAt, ih, next]
    split
    · rename_i h
      rw [h]
      rfl
    · rename_i h
      split <;> simp [h]

theorem tokenAt_ofBytes (source : List UInt8) (sink : Sink) (n : Nat) :
    (ofBytes source sink).tokenAt n =
      (Scan.ofBytes source).tokens.getD n (Scan.ofBytes source).final :=
  tokenAt_eq _ n

end Stream

/-- Lists of tokens that agree place by place, with the end of the input after them, have the same
length. -/
theorem map_eq_of_forall_getD {f : Token → α} {x y : Token} {xs ys : List Token}
    (hf : ∀ t t', f t = f t' → t.kind = t'.kind) (hx : x.kind = .endOfInput)
    (hy : y.kind = .endOfInput) (hxs : ∀ t ∈ xs, t.kind ≠ .endOfInput)
    (hys : ∀ t ∈ ys, t.kind ≠ .endOfInput) (h : ∀ n, f (xs.getD n x) = f (ys.getD n y)) :
    xs.map f = ys.map f := by
  induction xs generalizing ys with
  | nil =>
    cases ys with
    | nil => rfl
    | cons u us =>
      have hk : x.kind = u.kind := hf _ _ (h 0)
      exact absurd (hk ▸ hx) (hys u List.mem_cons_self)
  | cons t ts ih =>
    cases ys with
    | nil =>
      have hk : t.kind = y.kind := hf _ _ (h 0)
      exact absurd (hk ▸ hy) (hxs t List.mem_cons_self)
    | cons u us =>
      have hhead : f t = f u := h 0
      have htail := ih (fun v hv => hxs v (List.mem_cons_of_mem t hv))
        (fun v hv => hys v (List.mem_cons_of_mem u hv)) fun n => h (n + 1)
      rw [List.map_cons, List.map_cons, hhead, htail]

theorem Stream.map_tokens_eq {f : Token → α} (hf : ∀ t t', f t = f t' → t.kind = t'.kind)
    (h : ∀ n, f ((ofBytes a sink).tokenAt n) = f ((ofBytes b sink').tokenAt n)) :
    (Scan.ofBytes a).tokens.map f = (Scan.ofBytes b).tokens.map f := by
  simp only [tokenAt_ofBytes] at h
  exact map_eq_of_forall_getD hf rfl rfl
    (fun t ht => (Scan.coherent_of_mem ht).kind_ne_endOfInput)
    (fun t ht => (Scan.coherent_of_mem ht).kind_ne_endOfInput) h

theorem Stream.apply_tokenAt_eq {f : Token → α}
    (htokens : (Scan.ofBytes a).tokens.map f = (Scan.ofBytes b).tokens.map f)
    (hfinal : f (Scan.ofBytes a).final = f (Scan.ofBytes b).final) (sink sink' : Sink) (n : Nat) :
    f ((ofBytes a sink).tokenAt n) = f ((ofBytes b sink').tokenAt n) := by
  have hmap (ts : List Token) (t : Token) : f (ts.getD n t) = (ts.map f).getD n (f t) := by
    simp [List.getD_eq_getElem?_getD]
  rw [tokenAt_ofBytes, tokenAt_ofBytes, hmap, hmap, htokens, hfinal]

end PascalCheck
