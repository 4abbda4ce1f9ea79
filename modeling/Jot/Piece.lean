import Jot.Text.Basic

/-!
# Jot — places and pieces

A *place* is a position in a note, and a *piece* is a stretch of text together with the place
where it starts.  Tokens, captures and calls all are pieces with something added, and a
construct made of several pieces is again one (`Piece.join`).
-/

namespace Jot

/-- A position: the byte offset from the start, the line, and the column in that line.  Lines
and columns count from one, columns in characters. -/
structure Place where
  offset : Nat
  line : Nat
  col : Nat
deriving DecidableEq

namespace Place

/-- The first position of every note. -/
def start : Place := ⟨0, 1, 1⟩

/-- The position after one character. -/
def next (p : Place) (c : Char) : Place :=
  if c = '\n' then ⟨p.offset + c.utf8Size, p.line + 1, 1⟩
  else ⟨p.offset + c.utf8Size, p.line, p.col + 1⟩

/-- The position after a text that starts at `p`. -/
def after (p : Place) (t : Text) : Place := t.foldl next p

@[simp] theorem after_nil (p : Place) : p.after [] = p := rfl

@[simp] theorem after_cons (p : Place) (c : Char) (t : Text) :
    p.after (c :: t) = (p.next c).after t := rfl

theorem after_append (p : Place) (s t : Text) : p.after (s ++ t) = (p.after s).after t := by
  simp [after]

theorem offset_after (p : Place) (t : Text) :
    (p.after t).offset = p.offset + Text.byteSize t := by
  induction t generalizing p with
  | nil => simp
  | cons c t ih =>
    have step : (p.next c).offset = p.offset + c.utf8Size := by
      unfold next; split <;> rfl
    rw [after_cons, ih, step, Text.byteSize_cons]
    omega

end Place

/-- A stretch of text, where it starts, and how many line feeds it accounts for. -/
structure Piece extends Place where
  text : Text
  lineBreaks : Nat
deriving DecidableEq

namespace Piece

/-- The piece that `t` makes when it stands at `p`. -/
def ofText (p : Place) (t : Text) : Piece :=
  { toPlace := p, text := t, lineBreaks := Text.lineBreaks t }

/-- The byte offsets at which a piece starts and ends. -/
def span (p : Piece) : Nat × Nat := (p.offset, p.offset + Text.byteSize p.text)

/-- Pieces put one after the other: the texts are joined, the line feeds added up, and the
first piece gives the place. -/
def join (ps : List Piece) : Piece :=
  { toPlace := (ps.head?.map Piece.toPlace).getD Place.start
    text := ps.flatMap Piece.text
    lineBreaks := total Piece.lineBreaks ps }

end Piece

end Jot
