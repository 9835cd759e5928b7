import PascalCheck.Token.Filler
import PascalCheck.Token.Lexeme

namespace PascalCheck

/-- The lexemes of a source, each after the fillers before it, and the fillers at the end. -/
structure Layout where
  pieces : List (List Filler × Lexeme)
  tail : List Filler
deriving DecidableEq, Repr

namespace Layout

theorem run_append (bs : List UInt8) :
    Filler.allBytes (Filler.run bs).1 ++ (Filler.run bs).2 = bs := by
  fun_induction Filler.run bs with
  | case1 bs h => simp [Filler.allBytes]
  | case2 bs f rest h fs after hr ih =>
    rw [hr] at ih
    simpa [Filler.allBytes, ← Filler.bytes_append_of_read? h] using ih

theorem length_drop_lt {bs : List UInt8} {fs : List Filler} {b : UInt8} {rest : List UInt8}
    (h : Filler.run bs = (fs, b :: rest)) :
    ((b :: rest).drop (Lexeme.read b rest).bytes.length).length < bs.length := by
  have hr := run_append bs
  have hn := List.length_pos_iff.2 (Lexeme.read_ne_nil b rest)
  rw [h] at hr
  rw [← hr]
  simp only [List.length_drop, List.length_append, List.length_cons]
  omega

def ofBytes (bs : List UInt8) : Layout :=
  match _h : Filler.run bs with
  | (fs, []) => ⟨[], fs⟩
  | (fs, b :: rest) =>
    let lexeme := Lexeme.read b rest
    let layout := ofBytes ((b :: rest).drop lexeme.bytes.length)
    ⟨(fs, lexeme) :: layout.pieces, layout.tail⟩
termination_by bs.length
decreasing_by exact length_drop_lt ‹_›

def pieceBytes (piece : List Filler × Lexeme) : List UInt8 :=
  Filler.allBytes piece.1 ++ piece.2.bytes

def bytes (l : Layout) : List UInt8 := l.pieces.flatMap pieceBytes ++ Filler.allBytes l.tail

theorem bytes_ofBytes (bs : List UInt8) : (ofBytes bs).bytes = bs := by
  fun_induction ofBytes bs with
  | case1 bs fs h =>
    have hr := run_append bs
    rw [h] at hr
    simpa [bytes] using hr
  | case2 bs fs b rest h lexeme layout ih =>
    have hr := run_append bs
    rw [h] at hr
    obtain ⟨r, hl⟩ := Lexeme.read_front b rest
    have hd : (b :: rest).drop lexeme.bytes.length = r := by
      rw [← hl]
      exact List.drop_left
    have hb : layout.bytes = r := by
      rw [← hd]
      exact ih
    simp only [bytes, List.flatMap_cons, pieceBytes, List.append_assoc] at hb ⊢
    rw [hb, hl, hr]

def token (p : Position) (lexeme : Lexeme) : Token :=
  ⟨lexeme.kind, lexeme.text, lexeme.code, p⟩

def tokensFrom (p : Position) : List (List Filler × Lexeme) → List Token
  | [] => []
  | (fs, lexeme) :: pieces =>
    let q := p.after (Filler.allBytes fs)
    token q lexeme :: tokensFrom (q.after lexeme.bytes) pieces

def tailPlace (l : Layout) : Position := Position.start.after (l.pieces.flatMap pieceBytes)

end Layout

/-- The tokens of a source, the end of the input, and the line of a string that is never
closed. -/
structure Scan where
  tokens : List Token
  final : Token
  openQuote : Option Nat
deriving DecidableEq, Repr

namespace Scan

def ofLayout (l : Layout) : Scan where
  tokens := Layout.tokensFrom .start l.pieces
  final := .endAt (l.tailPlace.after (Filler.allBytes l.tail))
  openQuote := Filler.openQuoteLine? l.tailPlace l.tail

def ofBytes (bs : List UInt8) : Scan := ofLayout (Layout.ofBytes bs)

theorem place_final (bs : List UInt8) :
    (ofBytes bs).final.place = Position.start.after bs := by
  simp only [ofBytes, ofLayout, Token.endAt, Layout.tailPlace, ← Position.after_append]
  exact congrArg _ (Layout.bytes_ofBytes bs)

end Scan

end PascalCheck
