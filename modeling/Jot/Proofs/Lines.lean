import Jot.Notes
import Mathlib.Data.List.Basic

/-!
# Jot — the notes of a text

The lines of a text stand between its line feeds, and `LineIn` says which these are without
splitting anything.  Every line that is not blank is a note, and its number counts the line feeds
before it: lines are numbered before the blank ones are dropped.

* `mem_lines_iff` — the lines that are split off, and their numbers;
* `flatMap_inked_lines` — nothing but blank characters is lost;
* `mem_split_iff` — the notes.
-/

namespace Jot

namespace Notes

-- ---------------------------------------------------------------------------
-- Lines
-- ---------------------------------------------------------------------------

/-- A line of a text, with what stands before and behind it. -/
structure LineIn (t front line behind : Text) : Prop where
  text  : t = front ++ (line ++ behind)
  /-- A line feed ends what is before the line. -/
  start : ∀ c ∈ front.getLast?, c = '\n'
  /-- A line feed begins what is behind it. -/
  stop  : ∀ c ∈ behind.head?, c = '\n'
  plain : '\n' ∉ line

/-- What is read of a line: a carriage return directly before the line feed belongs to that. -/
inductive Holds (behind : Text) : Text → Text → Prop
  | last {note : Text} (hend : behind = []) : Holds behind note note
  | plain {note : Text} (hfeed : behind ≠ []) (hreturn : note.getLast? ≠ some '\r') :
      Holds behind note note
  | returned {note : Text} (hfeed : behind ≠ []) : Holds behind (note ++ ['\r']) note

variable {t front line behind note : Text}

/-- What holds of a text without line feeds, and of a line in front of any text of which it holds,
holds of every text. -/
theorem induction_lines {P : Text → Prop} (last : ∀ t, '\n' ∉ t → P t)
    (cons : ∀ line t, '\n' ∉ line → P t → P (line ++ '\n' :: t)) (t : Text) : P t := by
  by_cases h : '\n' ∈ t
  · obtain ⟨line, behind, htext, hline⟩ := List.eq_append_cons_of_mem h
    have hlength : behind.length < t.length := by
      rw [htext, List.length_append, List.length_cons]
      omega
    exact htext ▸ cons line behind hline (induction_lines last cons behind)
  · exact last t h
termination_by t.length

/-- A text is cut at its first line feed in one way only. -/
theorem eq_of_append_cons {l m b d : Text} (hl : '\n' ∉ l) (hm : '\n' ∉ m)
    (h : l ++ '\n' :: b = m ++ '\n' :: d) : l = m ∧ b = d := by
  have hlength : l.length = m.length := by
    have hfirst := congrArg (List.idxOf '\n') h
    rwa [List.idxOf_append_of_notMem hl, List.idxOf_append_of_notMem hm, List.idxOf_cons_self,
      List.idxOf_cons_self] at hfirst
  obtain ⟨hlm, htail⟩ := List.append_inj h hlength
  exact ⟨hlm, (List.cons.inj htail).2⟩

/-- A text without line feeds is split into itself. -/
theorem lines_of_not_mem (h : '\n' ∉ t) : lines t = [t] := by
  have hpieces : t.splitOn '\n' = [t] :=
    List.splitOnP_eq_singleton fun c hc => beq_false_of_ne (ne_of_mem_of_not_mem hc h)
  unfold lines
  rw [hpieces]
  rfl

/-- The first line goes up to the first line feed, less a carriage return at its end. -/
theorem lines_append_cons (h : '\n' ∉ line) (t : Text) :
    lines (line ++ '\n' :: t) = withoutReturn line :: lines t := by
  have hpieces : (line ++ '\n' :: t).splitOn '\n' = line :: t.splitOn '\n' :=
    List.splitOnP_append_cons_of_forall_mem
      (fun c hc => beq_false_of_ne (ne_of_mem_of_not_mem hc h)) '\n' rfl t
  have hne : t.splitOn '\n' ≠ [] := List.splitOn_ne_nil _ _
  simp only [lines, hpieces, List.dropLast_cons_of_ne_nil hne,
    List.getLast?_cons_of_ne_nil hne, List.map_cons, List.cons_append]

/-- A text without line feeds is its only line. -/
theorem lineIn_of_not_mem (h : '\n' ∉ t) :
    LineIn t front line behind ↔ front = [] ∧ line = t ∧ behind = [] := by
  constructor
  · -- a line feed on either side of the line would be one of the text
    intro hl
    have hfront : front = [] := by
      by_contra hne
      have hlast := List.getLast_mem hne
      rw [hl.start _ (List.getLast?_eq_some_getLast hne)] at hlast
      exact h (hl.text ▸ List.mem_append_left _ hlast)
    have hbehind : behind = [] := by
      by_contra hne
      have hhead := List.head_mem hne
      rw [hl.stop _ (List.head?_eq_some_head hne)] at hhead
      exact h (hl.text ▸ List.mem_append_right _ (List.mem_append_right _ hhead))
    have htext := hl.text
    rw [hfront, hbehind, List.append_nil] at htext
    exact ⟨hfront, htext.symm, hbehind⟩
  · rintro ⟨rfl, rfl, rfl⟩
    exact ⟨by simp, nofun, nofun, h⟩

/-- The lines of a text that has a line feed: the one before the first, and those behind it. -/
theorem lineIn_append_cons {l : Text} (h : '\n' ∉ l) :
    LineIn (l ++ '\n' :: t) front line behind ↔
      (front = [] ∧ line = l ∧ behind = '\n' :: t) ∨
        ∃ front', front = l ++ '\n' :: front' ∧ LineIn t front' line behind := by
  constructor
  · intro hl
    have htext := hl.text
    -- a line has nothing before it, and then it is the first one, or a line feed, and then it
    -- stands behind the first one
    by_cases hfront : front = []
    · subst hfront
      left
      rw [List.nil_append] at htext
      match behind, hl.stop with
      | [], _ =>
        rw [List.append_nil] at htext
        exact absurd (htext ▸ List.mem_append_right l List.mem_cons_self) hl.plain
      | c :: b, hstop =>
        obtain rfl : c = '\n' := hstop c rfl
        obtain ⟨rfl, rfl⟩ := eq_of_append_cons h hl.plain htext
        exact ⟨rfl, rfl, rfl⟩
    · right
      have hfeed : '\n' ∈ front := by
        have hlast := List.getLast_mem hfront
        rwa [hl.start _ (List.getLast?_eq_some_getLast hfront)] at hlast
      obtain ⟨m, front', rfl, hm⟩ := List.eq_append_cons_of_mem hfeed
      rw [List.append_assoc, List.cons_append] at htext
      obtain ⟨rfl, rfl⟩ := eq_of_append_cons h hm htext
      refine ⟨front', rfl, rfl, ?_, hl.stop, hl.plain⟩
      intro c hc
      have hne : front' ≠ [] := by
        rintro rfl
        exact absurd hc (by simp)
      refine hl.start c ?_
      rw [List.getLast?_append_cons, List.getLast?_cons_of_ne_nil hne]
      exact hc
  · rintro (⟨rfl, rfl, rfl⟩ | ⟨front', rfl, hl⟩)
    · exact ⟨rfl, nofun, fun c hc => (Option.some_inj.1 hc).symm, h⟩
    · refine ⟨by rw [hl.text, List.append_assoc, List.cons_append], ?_, hl.stop, hl.plain⟩
      intro c hc
      rw [List.getLast?_append_cons] at hc
      match front', hl.start with
      | [], _ => exact (Option.some_inj.1 hc).symm
      | d :: f, hstart =>
        rw [List.getLast?_cons_cons] at hc
        exact hstart c hc

/-- The last line holds what is written on it. -/
theorem holds_nil_iff : Holds [] line note ↔ note = line := by
  constructor
  · rintro (_ | h | h)
    · rfl
    all_goals exact absurd rfl (by assumption)
  · rintro rfl
    exact .last rfl

/-- A line with a line feed behind it holds what is left without a carriage return. -/
theorem holds_cons_iff {c : Char} : Holds (c :: behind) line note ↔ note = withoutReturn line := by
  constructor
  · rintro (h | ⟨-, hreturn⟩ | -)
    · contradiction
    · rw [withoutReturn, if_neg hreturn]
    · rw [withoutReturn, List.getLast?_concat, if_pos rfl, List.dropLast_concat]
  · rintro rfl
    unfold withoutReturn
    split
    · next hreturn =>
      have hline := List.dropLast_append_getLast? _ hreturn
      -- the line is named by what is left of it
      generalize line.dropLast = u at hline ⊢
      subst hline
      exact .returned nofun
    · next hreturn => exact .plain nofun hreturn

/-- The lines that are split off are those of the text, numbered by the line feeds before them. -/
theorem mem_lines_iff (t : Text) (i n : Nat) (note : Text) :
    (note, n) ∈ (lines t).zipIdx i ↔
      ∃ front line behind, LineIn t front line behind ∧ n = i + front.count '\n' ∧
        Holds behind line note := by
  -- on the lines of the text; the first number is general, since it grows with each line
  induction t using induction_lines generalizing i with
  | last t h =>
    rw [lines_of_not_mem h]
    simp only [lineIn_of_not_mem h, List.zipIdx_cons, List.zipIdx_nil, List.mem_singleton,
      Prod.mk.injEq]
    constructor
    · rintro ⟨rfl, rfl⟩
      exact ⟨[], note, [], ⟨rfl, rfl, rfl⟩, rfl, .last rfl⟩
    · rintro ⟨_, _, _, ⟨rfl, rfl, rfl⟩, rfl, hnote⟩
      exact ⟨holds_nil_iff.1 hnote, rfl⟩
  | cons l t h ih =>
    rw [lines_append_cons h, List.zipIdx_cons, List.mem_cons, ih, Prod.mk.injEq]
    have hcount (f : Text) : (l ++ '\n' :: f).count '\n' = 1 + f.count '\n' := by
      rw [List.count_append, List.count_eq_zero.2 h, List.count_cons_self, Nat.zero_add,
        Nat.add_comm]
    simp only [lineIn_append_cons h]
    constructor
    · rintro (⟨rfl, rfl⟩ | ⟨front, line, behind, hl, rfl, hnote⟩)
      · exact ⟨[], l, '\n' :: t, .inl ⟨rfl, rfl, rfl⟩, rfl, holds_cons_iff.2 rfl⟩
      · refine ⟨l ++ '\n' :: front, line, behind, .inr ⟨front, rfl, hl⟩, ?_, hnote⟩
        rw [hcount, Nat.add_assoc]
    · rintro ⟨_, _, _, ⟨rfl, rfl, rfl⟩ | ⟨front, rfl, hl⟩, rfl, hnote⟩
      · exact .inl ⟨holds_cons_iff.1 hnote, rfl⟩
      · refine .inr ⟨front, _, _, hl, ?_, hnote⟩
        rw [hcount, Nat.add_assoc]

-- ---------------------------------------------------------------------------
-- What a text has that is not blank
-- ---------------------------------------------------------------------------

/-- The characters that are not blank. -/
def inked (t : Text) : Text := t.filter fun c => !isBlank c

@[simp] theorem inked_append (t u : Text) : inked (t ++ u) = inked t ++ inked u :=
  List.filter_append t u

theorem inked_eq_nil_iff : inked t = [] ↔ Text.isBlank t = true := by
  simp [inked, Text.isBlank]

/-- A carriage return is blank, so nothing else is lost with it. -/
theorem inked_withoutReturn (line : Text) : inked (withoutReturn line) = inked line := by
  unfold withoutReturn
  split
  · next hreturn =>
    conv_rhs => rw [← List.dropLast_append_getLast? _ hreturn]
    rw [inked_append]
    exact (List.append_nil _).symm
  · rfl

/-- The lines have every character that is not blank, each once and in order. -/
theorem flatMap_inked_lines (t : Text) : (lines t).flatMap inked = inked t := by
  induction t using induction_lines with
  | last t h => rw [lines_of_not_mem h, List.flatMap_singleton]
  | cons l t h ih =>
    rw [lines_append_cons h, List.flatMap_cons, ih, inked_withoutReturn, inked_append]
    rfl

-- ---------------------------------------------------------------------------
-- Notes
-- ---------------------------------------------------------------------------

/-- With lines numbered from one, those that are blank are dropped. -/
theorem split_true (t : Text) :
    split t true =
      (((lines t).zipIdx 1).filter fun l => !(Text.isBlank l.1)).map Prod.swap := rfl

/-- A line is blank exactly if the note it holds is. -/
theorem Holds.isBlank (h : Holds behind line note) : Text.isBlank note = Text.isBlank line := by
  cases h with
  | last hend => rfl
  | plain hfeed hreturn => rfl
  | returned hfeed => simp [Text.isBlank, show Jot.isBlank '\r' = true from rfl]

/-- A note has no character that is not on its line. -/
theorem Holds.mem (h : Holds behind line note) {c : Char} (hc : c ∈ note) : c ∈ line := by
  cases h with
  | last hend => exact hc
  | plain hfeed hreturn => exact hc
  | returned hfeed => exact List.mem_append_left _ hc

/-- The notes of a text are its lines that are not blank. -/
theorem mem_split_iff (t : Text) (n : Nat) (note : Text) :
    (n, note) ∈ split t true ↔
      ∃ front line behind, LineIn t front line behind ∧ n = 1 + front.count '\n' ∧
        Holds behind line note ∧ ∃ c ∈ line, isBlank c = false := by
  have hmem : (n, note) ∈ split t true ↔
      (note, n) ∈ (lines t).zipIdx 1 ∧ Text.isBlank note = false := by
    rw [split_true]
    simp
  rw [hmem, mem_lines_iff]
  constructor
  · rintro ⟨⟨front, line, behind, hl, hn, hnote⟩, hblank⟩
    refine ⟨front, line, behind, hl, hn, hnote, ?_⟩
    rw [hnote.isBlank, Text.isBlank, List.all_eq_false] at hblank
    simpa using hblank
  · rintro ⟨front, line, behind, hl, hn, hnote, c, hc, hink⟩
    refine ⟨⟨front, line, behind, hl, hn, hnote⟩, ?_⟩
    rw [hnote.isBlank, Text.isBlank, List.all_eq_false]
    exact ⟨c, hc, by rw [hink]; exact Bool.false_ne_true⟩

/-- The numbers of the notes increase. -/
theorem pairwise_split (t : Text) : (split t true).Pairwise (fun l m => l.1 < m.1) := by
  rw [split_true, List.pairwise_map]
  have hnumbers : ((lines t).zipIdx 1).Pairwise fun l m => l.2 < m.2 := by
    rw [← List.pairwise_map (f := Prod.snd), List.zipIdx_map_snd]
    exact List.pairwise_lt_range' 1
  exact hnumbers.filter _

/-- Blank lines have nothing that is not blank. -/
theorem flatMap_inked_filter (ls : List (Text × Nat)) :
    (ls.filter fun l => !(Text.isBlank l.1)).flatMap (fun l => inked l.1) =
      ls.flatMap fun l => inked l.1 := by
  induction ls with
  | nil => rfl
  | cons l ls ih =>
    rw [List.filter_cons, List.flatMap_cons]
    split
    · rw [List.flatMap_cons, ih]
    · next hblank => rw [ih, inked_eq_nil_iff.2 (by simpa using hblank), List.nil_append]

/-- The notes have every character that is not blank, each once and in order. -/
theorem flatMap_inked_split (t : Text) :
    (split t true).flatMap (fun l => inked l.2) = inked t := by
  calc (split t true).flatMap (fun l => inked l.2)
      = (((lines t).zipIdx 1).filter fun l => !(Text.isBlank l.1)).flatMap fun l => inked l.1 := by
        rw [split_true, List.flatMap_map]
        rfl
    _ = ((lines t).zipIdx 1).flatMap fun l => inked l.1 := flatMap_inked_filter _
    _ = (lines t).flatMap inked := by
        rw [← List.flatMap_map Prod.fst inked, List.zipIdx_map_fst]
    _ = inked t := flatMap_inked_lines t

/-- **A text is split without loss.**  Its notes are exactly its lines that are not blank, each
under the number of the line, in order; none has a line feed, and in sequence they have every
character of the text that is not blank. -/
theorem split_by_line (t : Text) :
    (∀ n note, (n, note) ∈ split t true ↔
      ∃ front line behind, LineIn t front line behind ∧ n = 1 + front.count '\n' ∧
        Holds behind line note ∧ ∃ c ∈ line, isBlank c = false) ∧
    (split t true).Pairwise (fun l m => l.1 < m.1) ∧
    (∀ l ∈ split t true, '\n' ∉ l.2) ∧
    (split t true).flatMap (fun l => l.2.filter fun c => !isBlank c) =
      t.filter fun c => !isBlank c := by
  refine ⟨mem_split_iff t, pairwise_split t, ?_, flatMap_inked_split t⟩
  intro l hl hfeed
  obtain ⟨front, line, behind, hline, -, hnote, -⟩ := (mem_split_iff t l.1 l.2).1 hl
  exact hline.plain (hnote.mem hfeed)

/-- A blank line counts, and a carriage return stays where no line feed follows. -/
example : split "a\r\n \n\rb\nc\r".toList true =
    [(1, ['a']), (3, ['\r', 'b']), (4, ['c', '\r'])] := by
  decide

end Notes

end Jot
