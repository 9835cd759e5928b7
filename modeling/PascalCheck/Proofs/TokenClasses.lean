import PascalCheck.Proofs.Attempts
import PascalCheck.Proofs.Checks
import PascalCheck.Proofs.CodeTable
import PascalCheck.Proofs.RealLiterals

namespace PascalCheck
set_option autoImplicit true

namespace Lexeme

def classOf (span : List UInt8) : Kind × Int :=
  if span.head?.any isIllegal then (.unknown, Code.unlisted)
  else if span.head?.any isLetter then
    match Code.lookup? (spell span) with
    | some code => (.keyword, code)
    | none => (.ident, Code.ident)
  else if span.any isDigit then
    (.number, if isRealNumber span then Code.realLiteral else Code.integerLiteral)
  else if span = [':'.toUInt8] then (.colon, Code.colon)
  else (.operator, (Code.lookup? (spell span)).getD Code.unlisted)

theorem read_of_illegal (h : isIllegal b = true) (bs : List UInt8) : read b bs = illegal b := by
  rw [read, if_pos h]

theorem read_of_letter (h : isLetter b = true) (bs : List UInt8) :
    read b bs = word ((b :: bs).takeWhile isWordByte) := by
  have hword : ∀ b : UInt8, isLetter b = true → isWordByte b = true := by grind
  rw [read_of_isLetter h, List.takeWhile_cons, if_pos (hword b h)]

theorem StartsNumber.not_illegal_letter (h : StartsNumber b bs) :
    isIllegal b = false ∧ isLetter b = false := by
  have hclass : ∀ b : UInt8, isDigit b = true ∨ b = '.'.toUInt8 →
      isIllegal b = false ∧ isLetter b = false := by
    grind [toUInt8_point]
  exact hclass b (h.imp id And.left)

theorem read_of_startsNumber (h : StartsNumber b bs) :
    read b bs = number (numberBytes (b :: bs)) := by
  obtain ⟨hillegal, hletter⟩ := h.not_illegal_letter
  rw [read, hillegal, hletter, if_neg Bool.false_ne_true, if_neg Bool.false_ne_true,
    if_pos (startsNumber_iff.2 h)]

theorem read_of_startsMark (h : StartsMark b bs) (hb : b < 0x80) :
    read b bs = operator (operatorBytes b bs) := by
  rw [read, h.legal, h.letter, if_neg Bool.false_ne_true, if_neg Bool.false_ne_true,
    if_neg (mt startsNumber_iff.1 h.number), if_neg (UInt8.not_le.2 hb)]

theorem startsMark_of_high (h : 0x80 ≤ b) (bs : List UInt8) : StartsMark b bs := by
  have hclass : ∀ b : UInt8, 0x80 ≤ b →
      isIllegal b = false ∧ isLetter b = false ∧ isDigit b = false ∧ b ≠ '.'.toUInt8 := by
    grind [toUInt8_point]
  obtain ⟨hillegal, hletter, hdigit, hpoint⟩ := hclass b h
  refine ⟨hillegal, hletter, ?_⟩
  rintro (hd | hp)
  · rw [hdigit] at hd
    cases hd
  · exact hpoint hp.1

theorem high_of_mem_foreign (h : 0x80 ≤ b) (bs : List UInt8) :
    ∀ c ∈ (foreign (b :: bs)).bytes, Utf8.isHigh c = true := by
  rw [← foreign_takeWhile b bs]
  intro c hc
  rcases List.mem_cons.1 (List.mem_of_mem_take hc) with rfl | hc
  · simpa [Utf8.isHigh] using h
  · exact List.all_eq_true.1 List.all_takeWhile c hc

theorem operatorBytes_cases (b : UInt8) (bs : List UInt8) :
    (∃ c, bs.head? = some c ∧ Code.Lists (spell [b, c]) ∧ operatorBytes b bs = [b, c]) ∨
      (∀ c ∈ bs.head?, ¬ Code.Lists (spell [b, c])) ∧ operatorBytes b bs = [b] := by
  cases bs with
  | nil => exact .inr ⟨by simp, rfl⟩
  | cons c bs =>
    by_cases hlists : Code.Lists (spell [b, c])
    · rw [operatorBytes, if_pos (Code.isSome_lookup?_iff.2 hlists)]
      exact .inl ⟨c, rfl, hlists, rfl⟩
    · rw [operatorBytes, if_neg (mt Code.isSome_lookup?_iff.1 hlists)]
      exact .inr ⟨by simpa using hlists, rfl⟩

theorem not_isDigit_of_mem_operatorBytes (h : isDigit b = false) :
    ∀ c ∈ operatorBytes b bs, isDigit c = false := by
  rcases operatorBytes_cases b bs with ⟨c, -, hlists, hpair⟩ | ⟨-, hone⟩
  · rw [hpair]
    exact not_isDigit_of_lists hlists
  · rw [hone]
    simpa using h

theorem classOf_cons (b : UInt8) (bs : List UInt8) (hi : isIllegal b = false)
    (hl : isLetter b = false) : classOf (b :: bs) =
      if (b :: bs).any isDigit then
        (.number, if isRealNumber (b :: bs) then Code.realLiteral else Code.integerLiteral)
      else if b :: bs = [':'.toUInt8] then (.colon, Code.colon)
      else (.operator, (Code.lookup? (spell (b :: bs))).getD Code.unlisted) := by
  rw [classOf, List.head?_cons, Option.any_some, hi, if_neg Bool.false_ne_true, Option.any_some, hl,
    if_neg Bool.false_ne_true]

theorem class_of_readAs (h : ReadAs b bs l) (hbytes : l.bytes = b :: more) :
    (l.kind, l.code) = classOf l.bytes := by
  cases h with
  | illegal hi => simp [illegal, classOf, hi]
  | word hl =>
    have hclass : ∀ b : UInt8, isLetter b = true → isIllegal b = false := by grind
    rw [bytes_word] at hbytes
    rw [bytes_word, hbytes]
    simp only [classOf, List.head?_cons, Option.any_some, hclass b hl, hl, if_true, word]
    simp only [Bool.false_eq_true, if_false]
    cases Code.lookup? (spell (b :: more)) <;> rfl
  | number hn =>
    obtain ⟨hi, hl⟩ := hn.not_illegal_letter
    have hdigit := (isNumeral_numberBytes hn).any_isDigit
    replace hbytes : numberBytes (b :: bs) = b :: more := hbytes
    rw [number, hbytes, classOf_cons b more hi hl]
    rw [hbytes] at hdigit
    rw [if_pos hdigit]
  | foreign hb =>
    obtain ⟨hi, hl, -⟩ := startsMark_of_high hb bs
    have hhigh := high_of_mem_foreign hb bs
    rw [hbytes] at hhigh
    have hdigit : ¬ (b :: more).any isDigit = true := by
      rw [List.any_eq_true]
      rintro ⟨c, hc, hd⟩
      have hlow := ascii_of_isDigit c hd
      rw [hhigh c hc] at hlow
      cases hlow
    have hcolon : b :: more ≠ [':'.toUInt8] := by
      intro heq
      obtain ⟨rfl, -⟩ := List.cons.inj heq
      exact absurd hb (by decide)
    have hlookup : Code.lookup? (spell (b :: more)) = none :=
      Code.lookup?_eq_none_iff.2
        (not_lists_of_isHigh List.mem_cons_self (hhigh b List.mem_cons_self))
    rw [hbytes, classOf_cons b more hi hl, if_neg hdigit, if_neg hcolon, hlookup]
    rfl
  | operator hmark _ =>
    obtain ⟨hi, hl, hn⟩ := hmark
    have hb : isDigit b = false := by simpa using fun h => hn (.inl h)
    have hdigit : ¬ (operatorBytes b bs).any isDigit = true := by
      rw [List.any_eq_true]
      rintro ⟨c, hc, hd⟩
      rw [not_isDigit_of_mem_operatorBytes hb c hc] at hd
      cases hd
    rw [bytes_operator] at hbytes ⊢
    rw [hbytes] at hdigit ⊢
    rw [classOf_cons b more hi hl, if_neg hdigit, operator]
    by_cases hcolon : b :: more = [':'.toUInt8]
    · rw [if_pos hcolon, if_pos hcolon]
    · rw [if_neg hcolon, if_neg hcolon]

theorem listed_or_classless (h : ReadAs b bs l) :
    (l.kind ≠ .unknown ∧ (Text.lower l.text, l.code) ∈ Code.table) ∨
      (¬ Code.Lists l.text ∧ (l.kind = .unknown ∨ l.code ∈ Code.classes)) := by
  cases h with
  | illegal hi =>
    refine .inr ⟨?_, .inl rfl⟩
    show ¬ Code.Lists (spell [b])
    rw [← Code.lookup?_eq_none_iff]
    rcases isIllegal_iff.1 hi with ((rfl | rfl) | rfl) | rfl <;> decide
  | word _ =>
    unfold word
    split
    · rename_i code hcode
      exact .inl ⟨by simp, Code.lookup?_eq_some_iff.1 hcode⟩
    · rename_i hnone
      exact .inr ⟨Code.lookup?_eq_none_iff.1 hnone, .inr (by simp [Code.classes])⟩
  | number hn =>
    refine .inr ⟨?_, .inr ?_⟩
    · intro hlists
      obtain ⟨d, hd, hdigit⟩ := List.any_eq_true.1
        (isNumeral_numberBytes hn).any_isDigit
      rw [not_isDigit_of_lists hlists d hd] at hdigit
      cases hdigit
    · unfold number
      split <;> simp [Code.classes]
  | foreign hb =>
    have hunlisted := Code.not_lists_of_high (le_decode_of_high hb bs)
    exact .inr ⟨hunlisted, .inr (by simp [foreign, Code.classes])⟩
  | operator _ _ =>
    unfold operator
    split
    · rename_i hcolon
      rw [hcolon]
      exact .inl ⟨by simp, by decide⟩
    · cases hcode : Code.lookup? (spell (operatorBytes b bs)) with
      | some code => exact .inl ⟨by simp, Code.lookup?_eq_some_iff.1 hcode⟩
      | none => exact .inr ⟨Code.lookup?_eq_none_iff.1 hcode, .inr (by simp [Code.classes])⟩

theorem take_decode_of_ascii (h : b < 0x80) (bs : List UInt8) :
    (b :: bs).take (Utf8.decode (b :: bs)).2 = [b] := by
  simp [Utf8.decode, Utf8.sequence?, h]

end Lexeme

open Lexeme

namespace Token

/-- A token is the longest match of the class that the bytes in front decide. A mark is two bytes
that are listed together, or else one character. -/
structure LongestMatch (t : Token) (b : UInt8) (bs span : List UInt8) : Prop where
  word : isLetter b = true →
    LongestFront (fun cs => ∀ c ∈ cs, isWordByte c = true) (b :: bs) span ∧
      (t.kind = .keyword ∧ (Text.lower t.lexeme, t.code) ∈ Code.table ∨
        t.kind = .ident ∧ t.code = Code.ident ∧ ¬ Code.Lists t.lexeme)
  number : StartsNumber b bs → LongestFront IsNumeral (b :: bs) span ∧ t.kind = .number ∧
    t.code = if ∃ c ∈ span, c = '.'.toUInt8 ∨ isExponentMark c = true then Code.realLiteral
      else Code.integerLiteral
  illegal : isIllegal b = true → span = [b] ∧ t.kind = .unknown
  mark : StartsMark b bs →
    ((∃ c, bs.head? = some c ∧ Code.Lists (spell [b, c]) ∧ span = [b, c]) ∨
      (∀ c ∈ bs.head?, ¬ Code.Lists (spell [b, c])) ∧
        span = (b :: bs).take (Utf8.decode (b :: bs)).2) ∧
    t.kind = if span = [':'.toUInt8] then .colon else .operator

theorem longestMatch_read (p : Position) (b : UInt8) (bs : List UInt8) :
    (Layout.token p (read b bs)).LongestMatch b bs (read b bs).bytes where
  word hl := by
    rw [read_of_letter hl, bytes_word]
    refine ⟨longestFront_takeWhile isWordByte (b :: bs), ?_⟩
    unfold Lexeme.word
    split
    · rename_i code hcode
      exact .inl ⟨rfl, Code.lookup?_eq_some_iff.1 hcode⟩
    · rename_i hnone
      exact .inr ⟨rfl, rfl, Code.lookup?_eq_none_iff.1 hnone⟩
  number hn := by
    rw [read_of_startsNumber hn]
    refine ⟨longestFront_numberBytes hn, rfl, ?_⟩
    simp [Layout.token, Lexeme.number, isRealNumber]
  illegal hi := by
    rw [read_of_illegal hi]
    exact ⟨rfl, rfl⟩
  mark hmark := by
    by_cases hb : b < 0x80
    · rw [read_of_startsMark hmark hb, bytes_operator, take_decode_of_ascii hb]
      refine ⟨operatorBytes_cases b bs, ?_⟩
      unfold Layout.token Lexeme.operator
      split <;> rfl
    · have hhigh := UInt8.not_lt.1 hb
      have hforeign : Utf8.isHigh b = true := by simpa [Utf8.isHigh] using hhigh
      rw [read_of_high hhigh]
      refine ⟨.inr ⟨fun c _ => not_lists_of_isHigh List.mem_cons_self hforeign, rfl⟩, ?_⟩
      have hcolon : (foreign (b :: bs)).bytes ≠ [':'.toUInt8] := by
        intro heq
        have hlow := high_of_mem_foreign hhigh bs ':'.toUInt8 (by simp [heq])
        exact absurd hlow (by decide)
      rw [if_neg hcolon]
      rfl

/-- A token carries a code of the table if and only if it is spelled as the word with that code. -/
theorem is_iff_lower_eq {word : String} {code : Int} (p : Position) (b : UInt8) (bs : List UInt8)
    (hentry : (word, code) ∈ Code.table) :
    (Layout.token p (read b bs)).is code = true ↔ Text.lower (read b bs).text = word := by
  have hend := (coherent_read p b bs).kind_ne_endOfInput
  rw [is_iff, and_iff_right hend]
  show (read b bs).kind ≠ .unknown ∧ (read b bs).code = code ↔ _
  rcases listed_or_classless (readAs_read b bs) with ⟨hknown, hlisted⟩ | ⟨hunlisted, hclass⟩
  · constructor
    · rintro ⟨-, rfl⟩
      exact Code.spelling_eq_of_mem hlisted hentry
    · rintro rfl
      exact ⟨hknown, Code.code_eq_of_mem hlisted hentry⟩
  · constructor
    · rintro ⟨hknown, rfl⟩
      rcases hclass with hunknown | hcode
      · exact absurd hunknown hknown
      · exact absurd hcode (Code.not_mem_classes_of_mem hentry)
    · rintro rfl
      exact absurd ⟨code, hentry⟩ hunlisted

theorem cause?_number (h : IsNumeral bs) (p : Position) :
    (Layout.token p (Lexeme.number bs)).cause? = some cause ↔
      LacksExponent bs ∧ cause = .invalidLiteral (spell bs) := by
  have hkind : (Layout.token p (Lexeme.number bs)).kind ≠ .unknown := by
    simp [Layout.token, Lexeme.number]
  have hreal (hlacks : LacksExponent bs) : isRealNumber bs = true := by
    obtain ⟨front, e, tail, rfl, he, -⟩ := hlacks
    simp [isRealNumber, he]
  have hmalformed : ((Layout.token p (Lexeme.number bs)).isReal &&
      Numeral.classifyReal (spell bs) == .malformed) = true ↔ LacksExponent bs := by
    rw [Bool.and_eq_true, beq_iff_eq, Numeral.classifyReal_numeral h, and_iff_right_iff_imp]
    intro hlacks
    simp [isReal, Layout.token, Lexeme.number, hreal hlacks]
  have htext : (Layout.token p (Lexeme.number bs)).lexeme = spell bs := rfl
  rw [cause?, if_neg hkind, htext]
  split
  · rename_i hcause
    simp [hmalformed.1 hcause, eq_comm]
  · rename_i hnone
    simp [mt hmalformed.2 hnone]

theorem mem_reports_iff (p : Position) (b : UInt8) (bs : List UInt8) (hcode : d.code = 102) :
    d ∈ (Layout.token p (read b bs)).reports ↔ (read b bs).kind = .number ∧
      LacksExponent (read b bs).bytes ∧
        d = (Cause.invalidLiteral (read b bs).text).onLine p.line := by
  rw [mem_reports]
  by_cases hk : (read b bs).kind = .number
  · obtain ⟨hread, hstart⟩ := read_of_number hk
    rw [and_iff_right hk, hread]
    simp only [cause?_number (isNumeral_numberBytes (startsNumber_iff.1 hstart))]
    constructor
    · rintro ⟨cause, ⟨hlacks, rfl⟩, rfl⟩
      exact ⟨hlacks, rfl⟩
    · rintro ⟨hlacks, rfl⟩
      exact ⟨_, ⟨hlacks, rfl⟩, rfl⟩
  · -- Of the other tokens only an illegal character is reported, with a code of its own.
    refine iff_of_false ?_ fun h => hk h.1
    rintro ⟨cause, hcause, rfl⟩
    rcases of_cause?_eq_some hcause with ⟨-, rfl⟩ | ⟨⟨hnumber, -, -⟩, -⟩
    · rw [Cause.code_onLine] at hcode
      cases hcode
    · exact hk hnumber

end Token

namespace Stream

def skip (s : Stream) : Nat → Stream
  | 0 => s
  | n + 1 => s.next.2.skip n

theorem next_skip (s : Stream) (n : Nat) :
    (s.skip n).next.1 = s.tokenAt n ∧ (s.skip n).next.2 = s.skip (n + 1) := by
  induction n generalizing s with
  | zero => exact ⟨rfl, rfl⟩
  | succ n ih => exact ih s.next.2

theorem pending_skip (s : Stream) (n : Nat) : (s.skip n).pending = s.pending.drop n := by
  induction n generalizing s with
  | zero => rfl
  | succ n ih =>
    rw [skip, ih, next]
    split
    · rename_i h
      simp [h]
    · rename_i h
      split <;> simp [h]

theorem exists_pending_skip {s : Stream} (h : s.pending[n]? = some t) :
    ∃ ts, (s.skip n).pending = t :: ts := by
  obtain ⟨hn, rfl⟩ := List.getElem?_eq_some_iff.1 h
  rw [pending_skip, List.drop_eq_getElem_cons hn]
  exact ⟨_, rfl⟩

/-- A stream takes the bytes of a span, in front of others, as its next token. -/
structure Takes (s : Stream) (before span after : List UInt8) : Prop where
  place : s.next.1.place = .counted before
  read : s.next.1.ReadFrom span after
  longest : ∃ b bs, span ++ after = b :: bs ∧ s.next.1.LongestMatch b bs span
  class_eq : (s.next.1.kind, s.next.1.code) = classOf span
  listed : ∀ entry ∈ Code.table,
    s.next.1.is entry.2 = true ↔ Text.lower s.next.1.lexeme = entry.1
  recorded : s.next.2.run.checker.sink =
    s.run.checker.sink.addAll (s.run.reports (.scanned s.next.1))
  malformed : ∀ d, d.code = 102 → (d ∈ s.run.reports (.scanned s.next.1) ↔
    s.next.1.kind = .number ∧ LacksExponent span ∧
      d = (Cause.invalidLiteral s.next.1.lexeme).onLine s.next.1.line)

theorem takes_of_pending {s : Stream}
    (h : s.pending = Layout.token (.counted before) (read b bs) :: ts)
    (hbytes : (read b bs).bytes ++ after = b :: bs) :
    s.Takes before (read b bs).bytes after := by
  obtain ⟨more, hmore, -⟩ := Layout.exists_bytes_read b bs
  have hread := readFrom_read (.counted before) b bs
  rw [← hbytes, List.drop_left] at hread
  have htoken : s.next.1 = Layout.token (.counted before) (read b bs) := by
    rw [next, h]
  have hrun :
      s.next.2.run = s.run.step (.scanned (Layout.token (.counted before) (read b bs))) := by
    rw [next, h]
    rfl
  refine ⟨?place, ?read, ?longest, ?code, ?listed, ?recorded, ?malformed⟩
  case place =>
    rw [htoken]
    rfl
  case read =>
    rw [htoken]
    exact hread
  case longest =>
    rw [htoken]
    exact ⟨b, bs, hbytes, Token.longestMatch_read _ b bs⟩
  case code =>
    rw [htoken]
    exact class_of_readAs (readAs_read b bs) hmore
  case listed =>
    intro entry hentry
    rw [htoken]
    exact Token.is_iff_lower_eq _ b bs hentry
  case recorded => rw [hrun, htoken, Run.sink_step]
  case malformed =>
    intro d hd
    have hbrackets : d ∉ s.run.bracketReports (Layout.token (.counted before) (read b bs)) := by
      rw [Run.bracketReports, List.mem_map]
      rintro ⟨fault, -, rfl⟩
      cases hd
    rw [htoken, Run.reports, List.mem_append, or_iff_right hbrackets]
    exact Token.mem_reports_iff _ b bs hd

end Stream

/-- Each token of a source is the longest match of its class, and what class it is of goes by the
match alone. It carries a code of the table if and only if it is spelled as the word with that code,
and it is reported as a malformed literal if and only if it is a number whose exponent lacks a
digit. -/
theorem tokens_longest_matches (source : List UInt8) (sink : Sink) :
    ∃ pieces last, Cut source pieces last ∧
      (∀ front gap span back, pieces = front ++ (gap, span) :: back →
        ((Stream.ofBytes source sink).skip front.length).Takes
          (cutBytes front ++ Filler.allBytes gap) span (cutBytes back ++ Filler.allBytes last)) ∧
      ∀ n, pieces.length ≤ n →
        ((Stream.ofBytes source sink).skip n).next.1.kind = .endOfInput := by
  refine ⟨_, _, Layout.cut_ofBytes source, ?_, ?_⟩
  · intro front gap span back hpieces
    obtain ⟨front, lexeme, back, hsplit, rfl, rfl, rfl⟩ := Layout.exists_of_spans hpieces
    obtain ⟨b, bs, rfl, hbytes⟩ := Layout.read_of_pieces hsplit
    rw [List.length_map, Layout.cutBytes_map, Layout.cutBytes_map]
    have htoken := Layout.getElem?_tokensFrom .start front gap (read b bs) back
    rw [← hsplit, Position.after_eq_counted] at htoken
    obtain ⟨ts, hpending⟩ := Stream.exists_pending_skip (s := Stream.ofBytes source sink) htoken
    exact Stream.takes_of_pending hpending hbytes
  · intro n hn
    rw [Layout.spans, List.length_map] at hn
    rw [(Stream.next_skip _ n).1, Stream.tokenAt_of_length_le hn sink]
    rfl

end PascalCheck
