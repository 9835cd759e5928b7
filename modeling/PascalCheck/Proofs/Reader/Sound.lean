import PascalCheck.Proofs.Lexemes
import PascalCheck.Proofs.Reader.Reads

namespace PascalCheck
set_option autoImplicit true

/-- A reader adds the event itself; taking tokens adds no such event. -/
def Event.isOwn : Event → Bool
  | .fault _ _ | .declare _ | .use _ _ | .assign _ _ _ | .assignName _ _ _ | .balance => true
  | .scanned _ | .ended _ | .literal _ _ => false

/-- Each token shows up where it is taken, and each number is checked there with the sign of a
minus before it. -/
def Reading.Signed (negated : Bool) : List Reading → Prop
  | [] => True
  | r :: rs =>
    .scanned r.token ∈ r.events ∧ (∀ e ∈ r.token.literalEvents negated, e ∈ r.events) ∧
      Signed (r.token.is Code.minus) rs

namespace Reader

/-- A reader that started in front of a source. -/
structure Sound (s : Reader) : Prop where
  coherent : ∀ t ∈ s.tokens, t.Coherent
  signed : Reading.Signed (s.prev.any (·.is Code.minus)) s.rest
  seen : ∀ r ∈ s.rest.head?, ∀ e ∈ r.events, e ∈ s.trace.toList
  taken : ∀ t ∈ s.prev, t.kind ≠ .endOfInput → .scanned t ∈ s.trace.toList
  ended : s.final.token.kind = .endOfInput
  plain : ∀ e ∈ s.upcoming, e.isOwn = false

theorem Sound.advance (h : Sound s) : s.advance.Sound := by
  cases hr : s.rest with
  | nil =>
    rw [advance_of_rest_nil hr]
    refine ⟨h.coherent, by simp [hr, Reading.Signed], by simp [hr], ?_, h.ended,
      by simp [upcoming, hr]⟩
    intro t ht hk
    obtain rfl : s.final.token = t := by simpa using ht
    exact absurd h.ended hk
  | cons r rs =>
    have hsigned := h.signed
    rw [hr] at hsigned
    obtain ⟨hscan, _, hrest⟩ := hsigned
    rw [advance_of_rest_cons hr]
    refine ⟨?_, ?_, ?_, ?_, h.ended, ?_⟩
    · intro t ht
      apply h.coherent
      simp only [tokens, hr, List.map_cons, List.mem_cons]
      exact .inr ht
    · simpa using hrest
    · intro r' hr' e he'
      cases rs with
      | nil => simp at hr'
      | cons r'' rs =>
        obtain rfl : r'' = r' := by simpa using hr'
        simp [he']
    · intro t ht _
      obtain rfl : r.token = t := by simpa using ht
      simp only [Array.toList_appendList, List.mem_append]
      exact .inl (h.seen r (by simp [hr]) _ hscan)
    · intro e he'
      apply h.plain
      cases rs with
      | nil => simp [upcoming] at he'
      | cons r' rs =>
        have hlater : e ∈ rs.flatMap Reading.events ++ s.final.events := by
          simpa [upcoming] using he'
        simp only [upcoming, hr, List.flatMap_cons, List.append_assoc, List.mem_append]
        exact .inr (List.mem_append.1 hlater)

theorem Sound.emit (h : Sound s) (e : Event) : (s.emit e).Sound := by
  refine ⟨h.coherent, h.signed, ?_, ?_, h.ended, h.plain⟩
  · intro r hr f hf
    simp only [Reader.emit, Log.add_array, Array.toList_push, List.mem_append]
    exact .inl (h.seen r hr f hf)
  · intro t ht hk
    simp only [Reader.emit, Log.add_array, Array.toList_push, List.mem_append]
    exact .inl (h.taken t ht hk)

theorem Reads.sound (h : Reads P s s') (hs : s.Sound) : s'.Sound :=
  h.invariant hs (fun _ _ _ => Sound.advance) fun _ e _ hu => hu.emit e

theorem Sound.coherent_of_tokens (h : Sound s) (hs : s.tokens = t :: ts) : t.Coherent := by
  apply h.coherent
  rw [hs]
  exact List.mem_cons_self

theorem Sound.seen_of_here? (h : Sound s) (hs : s.here? = some t) :
    .scanned t ∈ s.trace.toList ∧
      ∀ e ∈ t.literalEvents (s.prev.any (·.is Code.minus)), e ∈ s.trace.toList := by
  cases hr : s.rest with
  | nil => simp [here?, hr] at hs
  | cons r rs =>
    obtain rfl : r.token = t := by simpa [here?, hr] using hs
    have hsigned := h.signed
    rw [hr] at hsigned
    have hseen := h.seen r (by simp [hr])
    exact ⟨hseen _ hsigned.1, fun e he => hseen e (hsigned.2.1 e he)⟩

end Reader

/-- The events of taking tokens. A number is checked with the sign of a minus before it, and
illegal characters do not count. -/
def readEvents (negated : Bool) : List Token → List Event
  | [] => []
  | t :: ts =>
    if t.kind = .unknown then .scanned t :: readEvents negated ts
    else .scanned t :: t.literalEvents negated ++ readEvents (t.is Code.minus) ts

namespace Reading

theorem tokens_gather (negated : Bool) (pending : List Event) (ts : List Token) :
    (gather negated pending ts).1.map Reading.token = ts.filter (·.kind ≠ .unknown) := by
  induction ts generalizing negated pending with
  | nil => rfl
  | cons t ts ih =>
    by_cases hk : t.kind = .unknown
    · simp [gather, hk, ih]
    · simp [gather, hk, ih]

theorem events_gather (negated : Bool) (pending : List Event) (ts : List Token) :
    (gather negated pending ts).1.flatMap Reading.events ++ (gather negated pending ts).2 =
      pending ++ readEvents negated ts := by
  induction ts generalizing negated pending with
  | nil => simp [gather, readEvents]
  | cons t ts ih =>
    by_cases hk : t.kind = .unknown
    · simp [gather, readEvents, hk, ih]
    · have hi := ih (t.is Code.minus) []
      rw [List.nil_append] at hi
      simp [gather, readEvents, hk, hi]

theorem gather_snd_of_legal (h : ∀ t ∈ ts, t.kind ≠ .unknown) (negated : Bool) :
    (gather negated [] ts).2 = [] := by
  induction ts generalizing negated with
  | nil => rfl
  | cons t ts ih =>
    rw [gather, if_neg (h t List.mem_cons_self)]
    exact ih (fun u hu => h u (List.mem_cons_of_mem t hu)) _

theorem signed_gather (negated : Bool) (pending : List Event) (ts : List Token) :
    Signed negated (gather negated pending ts).1 := by
  induction ts generalizing negated pending with
  | nil => trivial
  | cons t ts ih =>
    by_cases hk : t.kind = .unknown
    · simpa [gather, hk] using ih negated _
    · simp only [gather, hk, if_false, Signed]
      refine ⟨by simp, ?_, ih _ _⟩
      intro e he
      simp [he]

end Reading

theorem isScan_of_mem_readEvents (h : e ∈ readEvents negated ts) :
    (∃ t, e = .scanned t) ∨ ∃ l line, e = .literal l line := by
  induction ts generalizing negated with
  | nil => simp [readEvents] at h
  | cons t ts ih =>
    rw [readEvents] at h
    split at h
    · rcases List.mem_cons.1 h with rfl | h
      · exact .inl ⟨t, rfl⟩
      · exact ih h
    · rcases List.mem_cons.1 h with rfl | h
      · exact .inl ⟨t, rfl⟩
      · rcases List.mem_append.1 h with h | h
        · unfold Token.literalEvents at h
          split at h
          · exact .inr ⟨_, _, List.mem_singleton.1 h⟩
          · simp at h
        · exact ih h

namespace Reader

theorem tokens_ofScan (scan : Scan) :
    (ofScan scan).tokens = scan.tokens.filter (·.kind ≠ .unknown) :=
  Reading.tokens_gather false [] scan.tokens

theorem story_ofScan (scan : Scan) :
    (ofScan scan).story = readEvents false scan.tokens ++ [.ended scan.openQuote] := by
  have he := Reading.events_gather false [] scan.tokens
  rw [List.nil_append] at he
  rw [← he]
  simp only [ofScan, start, story, upcoming]
  cases (Reading.gather false [] scan.tokens).1 <;> simp

theorem events_final_ofScan {scan : Scan} (h : ∀ t ∈ scan.tokens, t.kind ≠ .unknown) :
    (ofScan scan).final.events = [.ended scan.openQuote] :=
  congrArg (· ++ [Event.ended scan.openQuote]) (Reading.gather_snd_of_legal h false)

theorem isScan_of_mem_start (h : e ∈ (ofScan scan).story) :
    (∃ t, e = .scanned t) ∨ (∃ l n, e = .literal l n) ∨ ∃ q, e = .ended q := by
  rw [story_ofScan] at h
  rcases List.mem_append.1 h with h | h
  · exact (isScan_of_mem_readEvents h).imp id .inl
  · exact .inr (.inr ⟨_, List.mem_singleton.1 h⟩)

theorem sound_ofScan (bs : List UInt8) : (ofScan (Scan.ofBytes bs)).Sound := by
  constructor
  · intro t ht
    rw [tokens_ofScan] at ht
    exact Scan.coherent_of_mem (List.mem_filter.1 ht).1
  · exact Reading.signed_gather false [] _
  · intro r hr e he
    simp only [ofScan, start] at hr ⊢
    cases hg : (Reading.gather false [] (Scan.ofBytes bs).tokens).1 with
    | nil => simp [hg] at hr
    | cons r' rs =>
      obtain rfl : r' = r := by simpa [hg] using hr
      simpa using he
  · intro t ht
    simp [ofScan, start] at ht
  · rfl
  · intro e he
    rcases isScan_of_mem_start (List.mem_append_right _ he) with ⟨t, rfl⟩ | ⟨l, n, rfl⟩ | ⟨q, rfl⟩
    · rfl
    · rfl
    · rfl

end Reader

theorem Reader.clean_ofScan (scan : Scan) : (ofScan scan).Clean := by
  intro c n h
  rcases isScan_of_mem_start h with ⟨t, ht⟩ | ⟨l, m, hl⟩ | ⟨q, hq⟩
  · cases ht
  · cases hl
  · cases hq

end PascalCheck
