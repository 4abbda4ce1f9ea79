import Mathlib.Data.List.Chain
import Jot.Proofs.Run

/-!
# Jot — positions

The lexer counts offsets, lines and columns while it reads.  This module says what the counts
mean in terms of the note alone (`Piece.Stands`), and shows that the tokens of every note cut it
into pieces without gap or overlap.

* `Place.after_start` — the place behind a text is determined by the characters of the text;
* `Piece.stands_of_append` — a piece read at that place stands in the note;
* `tokenize_partition` — the lexer stops, and its tokens are a partition of the note.
-/

namespace Jot

-- ---------------------------------------------------------------------------
-- Bytes and lines of a text
-- ---------------------------------------------------------------------------

namespace Text

/-- The number of characters behind the last line feed, or of all when there is none. -/
def sinceLineFeed (t : Text) : Nat := (t.reverse.takeWhile (· != '\n')).length

theorem sinceLineFeed_append_singleton (t : Text) (c : Char) :
    sinceLineFeed (t ++ [c]) = if c = '\n' then 0 else sinceLineFeed t + 1 := by
  by_cases h : c = '\n' <;> simp [sinceLineFeed, h]

theorem lineBreaks_append_singleton (t : Text) (c : Char) :
    lineBreaks (t ++ [c]) = if c = '\n' then lineBreaks t + 1 else lineBreaks t := by
  by_cases h : c = '\n' <;> simp [lineBreaks, List.count_append, h]

/-- The encoding of a text is as long as its characters say. -/
theorem size_utf8Encode (t : Text) : t.utf8Encode.size = byteSize t := by
  induction t with
  | nil => rfl
  | cons c t ih =>
    rw [List.utf8Encode_cons, ByteArray.size_append, ih, byteSize_cons]
    simp [List.utf8Encode]

/-- Cutting the encoding at character boundaries gives the encoding of what stands between. -/
theorem extract_utf8Encode (before t behind : Text) :
    (before ++ t ++ behind).utf8Encode.extract (byteSize before) (byteSize before + byteSize t) =
      t.utf8Encode := by
  rw [List.append_assoc, List.utf8Encode_append, List.utf8Encode_append]
  have h := ByteArray.extract_append_size_add (a := before.utf8Encode)
    (b := t.utf8Encode ++ behind.utf8Encode) (i := 0) (j := byteSize t)
  rw [size_utf8Encode, Nat.add_zero] at h
  rw [h]
  exact ByteArray.extract_append_eq_left (size_utf8Encode t).symm

end Text

/-- The place behind a text that starts a note: bytes, lines and columns are those of the text. -/
theorem Place.after_start (t : Text) :
    Place.start.after t = ⟨t.byteSize, 1 + t.lineBreaks, 1 + t.sinceLineFeed⟩ := by
  -- from the end: the last character alone decides how line and column go on
  induction t using List.reverseRecOn with
  | nil => rfl
  | append_singleton t c ih =>
    rw [Place.after_append, ih, Place.after_cons, Place.after_nil, Text.byteSize_append,
      Text.lineBreaks_append_singleton, Text.sinceLineFeed_append_singleton]
    by_cases h : c = '\n' <;> simp [Place.next, h] <;> omega

-- ---------------------------------------------------------------------------
-- Pieces of a note
-- ---------------------------------------------------------------------------

/-- The piece `p` stands in a note behind the text `before`: its text is what follows there, also
byte by byte, and its counts are those of the characters before it and in it. -/
structure Piece.Stands (note before : Text) (p : Piece) : Prop where
  within     : before ++ p.text <+: note
  bytes      : note.utf8Encode.extract p.offset (p.offset + p.text.byteSize) = p.text.utf8Encode
  offset     : p.offset = before.byteSize
  line       : p.line = 1 + before.count '\n'
  col        : p.col = 1 + before.sinceLineFeed
  lineBreaks : p.lineBreaks = p.text.count '\n'

/-- A piece made of the text behind `before`, at the place behind `before`, stands there. -/
theorem Piece.stands_of_append (before t behind : Text) :
    (Piece.ofText (Place.start.after before) t).Stands (before ++ t ++ behind) before := by
  have hplace := Place.after_start before
  constructor
  case within => exact List.prefix_append (before ++ t) behind
  case bytes =>
    show (before ++ t ++ behind).utf8Encode.extract (Place.start.after before).offset
      ((Place.start.after before).offset + t.byteSize) = t.utf8Encode
    rw [hplace]
    exact Text.extract_utf8Encode before t behind
  case offset => exact congrArg Place.offset hplace
  case line => exact congrArg Place.line hplace
  case col => exact congrArg Place.col hplace
  case lineBreaks => rfl

/-- Some pieces cover a note: each stands behind the texts of those before it, and their spans
follow one another from the first byte to the last. -/
structure Piece.Covers (note : Text) (ps : List Piece) : Prop where
  cover    : ps.flatMap (·.text) = note
  stands   : ∀ front p behind, ps = front ++ p :: behind →
    p.Stands note (front.flatMap (·.text))
  first    : ∀ p ∈ ps.head?, p.offset = 0
  adjacent : ps.IsChain fun a b => b.offset = a.span.2
  last     : ∀ p ∈ ps.getLast?, p.span.2 = note.byteSize

/-- The spans of pieces that stand one behind the other follow one another. -/
theorem Piece.Covers.of_stands {note : Text} {ps : List Piece}
    (cover : ps.flatMap (·.text) = note)
    (stands : ∀ front p behind, ps = front ++ p :: behind →
      p.Stands note (front.flatMap (·.text))) : Covers note ps := by
  refine ⟨cover, stands, ?_, ?_, ?_⟩
  · -- the first piece
    intro p hp
    obtain ⟨behind, rfl⟩ := List.head?_eq_some_iff.1 hp
    exact (stands [] p behind rfl).offset
  · -- neighbours
    rw [List.isChain_iff_forall_rel_of_append_cons_cons]
    intro a b front behind h
    have ha := (stands front a (b :: behind) h).offset
    have hb := (stands (front ++ [a]) b behind (by simp [h])).offset
    rw [hb, Piece.span, ha]
    simp
  · -- the last piece
    intro p hp
    obtain ⟨front, rfl⟩ := List.getLast?_eq_some_iff.1 hp
    rw [Piece.span, (stands front p [] rfl).offset, ← cover]
    simp

-- ---------------------------------------------------------------------------
-- Partitions
-- ---------------------------------------------------------------------------

/-- Some tokens cut a note into pieces: none is empty, each stands behind the texts of those
before it, and their spans follow one another from the first byte to the last. -/
structure Partition (note : Text) (tokens : List Token) : Prop where
  text_ne  : ∀ t ∈ tokens, t.text ≠ []
  cover    : tokens.flatMap (·.text) = note
  stands   : ∀ front t behind, tokens = front ++ t :: behind →
    t.toPiece.Stands note (front.flatMap (·.text))
  first    : ∀ t ∈ tokens.head?, t.offset = 0
  adjacent : tokens.IsChain fun a b => b.offset = a.span.2
  last     : ∀ t ∈ tokens.getLast?, t.span.2 = note.byteSize

/-- Tokens that stand one behind the other cut the note that their pieces cover. -/
theorem Partition.of_stands {note : Text} {tokens : List Token}
    (text_ne : ∀ t ∈ tokens, t.text ≠ []) (cover : tokens.flatMap (·.text) = note)
    (stands : ∀ front t behind, tokens = front ++ t :: behind →
      t.toPiece.Stands note (front.flatMap (·.text))) : Partition note tokens := by
  have hcovers : Piece.Covers note (tokens.map Token.toPiece) := by
    refine .of_stands (by rw [List.flatMap_map, cover]) ?_
    intro front p behind h
    obtain ⟨front, later, rfl, rfl, hlater⟩ := List.map_eq_append_iff.1 h
    obtain ⟨t, behind, rfl, rfl, -⟩ := List.map_eq_cons_iff.1 hlater
    rw [List.flatMap_map]
    exact stands front t behind rfl
  exact {
    text_ne
    cover
    stands
    first    := by simpa using hcovers.first
    adjacent := List.isChain_map _ |>.1 hcovers.adjacent
    last     := by simpa using hcovers.last }

/-- A token of a run that starts a note stands behind the texts of the tokens before it. -/
theorem Cursor.Run.stands {k : Keywords} {note : Text} {ss : List Step} {d : Cursor}
    (h : Run k (start note) ss d) {front behind : List Step} {s : Step}
    (hss : ss = front ++ s :: behind) :
    s.token.toPiece.Stands note (front.flatMap (·.token.text)) := by
  obtain ⟨c, hfront, hrun⟩ := run_append_iff.1 (hss ▸ h)
  obtain ⟨r, hr, -⟩ := hrun.uncons
  -- what is read before the step, what the step reads, and the rest
  have hnote : note = front.flatMap (·.token.text) ++ s.token.text ++ s.after.rest := by
    rw [List.append_assoc, ← hr.rest]
    exact hfront.rest_eq
  rw [hr.piece, hfront.place_eq, hnote]
  exact Piece.stands_of_append _ _ _

/-- **The lexer cuts every note into its tokens.**  Whatever the keywords, reading a note comes to
an end where nothing is left, and the tokens are a partition of the note. -/
theorem tokenize_partition (k : Keywords) (note : Text) :
    (∃ d, Cursor.Run k (Cursor.start note) (steps k note) d ∧ d.rest = [] ∧ d.step? k = none) ∧
      Partition note (tokenize k note) := by
  obtain ⟨d, hrun, hd⟩ := Cursor.run_steps k note
  refine ⟨⟨d, hrun, hd, Cursor.step?_eq_none_iff.2 hd⟩, Partition.of_stands ?_ ?_ ?_⟩
  · intro t ht
    obtain ⟨s, c, r, hr, rfl⟩ := exists_rule_of_mem_tokenize ht
    exact hr.text_ne_nil
  · exact flatMap_text_tokenize k note
  · intro front t behind h
    obtain ⟨front, later, hss, rfl, hlater⟩ := List.map_eq_append_iff.1 h
    obtain ⟨s, behind, rfl, rfl, -⟩ := List.map_eq_cons_iff.1 hlater
    rw [List.flatMap_map]
    exact hrun.stands hss

end Jot
