import Jot.Proofs.Written.Label
import Jot.Proofs.Written.Marker

/-!
# Jot — events, written and read

An event is a label behind a mark, and an ellipsis on one side of the label makes it one end of a
range.  The sign for an ellipsis may be part of a label as well.  So behind a bare label the
pattern takes it for the last character of the label, unless the label is as long as a label can
be, and the reader cuts it off again.  Labels that end with the sign themselves cannot be told
apart in this way.

* `Title`, `Event` — what can be written;
* `takes_opening` — the pattern takes a label with an ellipsis behind it on either route;
* `Event.read_print` — the reader finds the label and the form;
* `event_reads` — both together.
-/

namespace Jot

namespace Written

open Recognizer (Takes takes_both takes_optional takes_optional_nil)

variable {rest : Text}

-- ---------------------------------------------------------------------------
-- Events
-- ---------------------------------------------------------------------------

/-- The spellings of an ellipsis. -/
inductive Ellipsis where
  | sign
  | stops

def Ellipsis.print : Ellipsis → Text
  | sign => ['…']
  | stops => ['.', '.', '.']

/-- A label that does not end in an ellipsis. -/
structure Title where
  label : Label
  plain : label.print.getLast? ≠ some '…'

/-- An event: a point in time, or one end of a range. -/
inductive Event where
  | point (t : Title)
  | opens (t : Title) (e : Ellipsis)
  | closes (e : Ellipsis) (t : Title)

namespace Event

def print : Event → Text
  | point t => '!' :: t.label.print
  | opens t e => '!' :: (t.label.print ++ e.print)
  | closes e t => e.print ++ t.label.print

/-- What is read from an event. -/
def value : Event → Jot.Event
  | point t => ⟨t.label.content, .point⟩
  | opens t _ => ⟨t.label.content, .opens⟩
  | closes _ t => ⟨t.label.content, .closes⟩

end Event

-- ---------------------------------------------------------------------------
-- The pattern
-- ---------------------------------------------------------------------------

theorem takes_ellipsis (e : Ellipsis) (rest : Text) :
    Takes Recognizer.ellipsis e.print rest := by
  cases e <;> rfl

/-- A space or the end of the note is no ellipsis. -/
theorem ellipsis_eq_none (hrest : rest.StartsIn (· == ' ')) : Recognizer.ellipsis rest = none := by
  cases rest with
  | nil => rfl
  | cons c t =>
    obtain rfl : c = ' ' := by simpa using hrest
    rfl

/-- A bare label that can grow. -/
def Bare.grow (b : Bare) (h : b.tail.length < Jot.Label.tailLimit) : Bare where
  head   := b.head
  tail   := b.tail ++ ['…']
  lead   := b.lead
  tails  := List.forall_mem_append.2 ⟨b.tails, List.forall_mem_singleton.2 (by decide)⟩
  length := by
    rw [List.length_append]
    exact h

/-- A label with an ellipsis behind it: the sign belongs to a bare label until that is full. -/
theorem takes_opening (l : Label) (e : Ellipsis) (hrest : rest.StartsIn (· == ' ')) :
    Takes (.both Jot.Label.recognize (.optional Recognizer.ellipsis)) (l.print ++ e.print)
      rest := by
  have hstop : rest.StartsIn fun c => !Jot.Label.isTail c := hrest.of_beq rfl
  have hellipsis : Takes (.optional Recognizer.ellipsis) e.print rest :=
    takes_optional (takes_ellipsis e rest)
  cases l with
  | quoted q line => exact takes_both (q.takes line _) hellipsis
  | bare b =>
    cases e with
    | stops => exact takes_both (b.takes (.inr (Text.startsIn_cons.2 rfl))) hellipsis
    | sign =>
      -- a full label leaves the sign to the ellipsis; another one takes it, and no ellipsis is left
      by_cases hfull : b.tail.length = Jot.Label.tailLimit
      · exact takes_both (b.takes (.inl hfull)) hellipsis
      · have hgrow := (b.grow (Nat.lt_of_le_of_ne b.length hfull)).takes (.inr hstop)
        have hnone := takes_optional_nil (ellipsis_eq_none hrest)
        have htakes := takes_both hgrow hnone
        rwa [List.append_nil] at htakes

/-- A character of a bare label is no full stop, and what is quoted ends with a quote. -/
theorem Title.getLast?_print (t : Title) :
    ∃ c, t.label.print.getLast? = some c ∧ c ≠ '…' ∧ c ≠ '.' := by
  have hplain := t.plain
  cases hlabel : t.label with
  | quoted q line =>
    have hlast : q.print.getLast? = some '"' := List.getLast?_concat (l := '"' :: q.content)
    exact ⟨'"', hlast, by decide, by decide⟩
  | bare b =>
    rw [hlabel] at hplain
    have hlast : b.print.getLast? = some (b.print.getLast (List.cons_ne_nil _ _)) :=
      List.getLast?_eq_some_getLast _
    refine ⟨_, hlast, fun hc => hplain (hc ▸ hlast), fun hc => ?_⟩
    have htail := b.isTail_of_mem_print _ (List.getLast_mem (List.cons_ne_nil b.head b.tail))
    rw [show (b.head :: b.tail).getLast _ = '.' from hc] at htail
    contradiction

namespace Event

/-- The pattern for events takes a written event whole. -/
theorem take?_print (e : Event) (hrest : rest.StartsIn (· == ' ')) :
    Pattern.event.take? (e.print ++ rest) = some e.print.length := by
  have hstop : rest.StartsIn fun c => !Jot.Label.isTail c := hrest.of_beq rfl
  have hopen {t : Text} : Takes (.char '!') ['!'] t := rfl
  refine Pattern.take?_eq_some_iff.2 ⟨?_, ?_⟩
  · -- with a mark in front the first alternative takes the event; with an ellipsis in front it
    -- refuses, and the second one does
    cases e with
    | point t =>
      have htakes := takes_both hopen
        (takes_both (w := []) (t.label.takes hstop) (takes_optional_nil (ellipsis_eq_none hrest)))
      rw [List.append_nil] at htakes
      exact Recognizer.takes_firstOf htakes
    | opens t e =>
      exact Recognizer.takes_firstOf (takes_both hopen (takes_opening t.label e hrest))
    | closes e t =>
      have htakes := takes_both (takes_ellipsis e (t.label.print ++ rest)) (t.label.takes hstop)
      refine Recognizer.takes_firstOf_of_none ?_ (Recognizer.takes_firstOf htakes)
      cases e <;> rfl
  · cases e with
    | point t => exact Nat.succ_pos _
    | opens t e => exact Nat.succ_pos _
    | closes e t => cases e <;> exact Nat.succ_pos _

-- ---------------------------------------------------------------------------
-- The reader
-- ---------------------------------------------------------------------------

/-- Nothing is cut off from the end of a text with another last character. -/
theorem before?_eq_none {t : Text} {c x : Char} (h : t.getLast? = some c) (hx : c ≠ x)
    (tail : Text) : Text.before? (tail ++ [x]) t = none := by
  rw [Option.eq_none_iff_forall_ne_some]
  intro rest hrest
  rw [Text.before?_eq_some_iff.1 hrest, ← List.append_assoc, List.getLast?_concat] at h
  exact hx (Option.some.inj h).symm

/-- A text that ends with neither spelling of an ellipsis has none cut off. -/
theorem findSome?_before?_eq_none {t : Text} {c : Char} (h : t.getLast? = some c) (hsign : c ≠ '…')
    (hstop : c ≠ '.') : Jot.Event.ellipses.findSome? (Text.before? · t) = none := by
  have hone : Text.before? ['…'] t = none := before?_eq_none h hsign []
  have hthree : Text.before? ['.', '.', '.'] t = none :=
    before?_eq_none h hstop ['.', '.']
  rw [Jot.Event.ellipses, List.findSome?_cons, hone, List.findSome?_cons, hthree]
  rfl

/-- An ellipsis is cut off in its own spelling. -/
theorem findSome?_before?_print (t : Text) (e : Ellipsis) :
    Jot.Event.ellipses.findSome? (Text.before? · (t ++ e.print)) = some t := by
  cases e with
  | sign =>
    have hcut : Text.before? ['…'] (t ++ ['…']) = some t := Text.before?_eq_some_iff.2 rfl
    rw [Ellipsis.print, Jot.Event.ellipses, List.findSome?_cons, hcut]
  | stops =>
    have hlast : (t ++ ['.', '.', '.']).getLast? = some '.' := by simp
    have hone : Text.before? ['…'] (t ++ ['.', '.', '.']) = none :=
      before?_eq_none hlast (by decide) []
    have hcut : Text.before? ['.', '.', '.'] (t ++ ['.', '.', '.']) = some t :=
      Text.before?_eq_some_iff.2 rfl
    rw [Ellipsis.print, Jot.Event.ellipses, List.findSome?_cons, hone, List.findSome?_cons, hcut]

/-- A written event is read with its label and its form. -/
theorem read_print (e : Event) : Jot.Event.read e.print = e.value := by
  cases e with
  | point t =>
    obtain ⟨c, hlast, hsign, hstop⟩ := t.getLast?_print
    have hread : Jot.Event.read ('!' :: t.label.print) =
        ⟨Jot.Label.content t.label.print, .point⟩ := by
      simp only [Jot.Event.read, findSome?_before?_eq_none hlast hsign hstop]
    exact hread.trans (congrArg (Jot.Event.mk · .point) t.label.content_print)
  | opens t e =>
    have hread : Jot.Event.read ('!' :: (t.label.print ++ e.print)) =
        ⟨Jot.Label.content t.label.print, .opens⟩ := by
      simp only [Jot.Event.read, findSome?_before?_print]
    exact hread.trans (congrArg (Jot.Event.mk · .opens) t.label.content_print)
  | closes e t =>
    have hread : Jot.Event.read (e.print ++ t.label.print) =
        ⟨Jot.Label.content t.label.print, .closes⟩ := by
      cases e <;> rfl
    exact hread.trans (congrArg (Jot.Event.mk · .closes) t.label.content_print)

end Event

end Written

/-- **Events are read as they are written.**  At the start of a note, with a space or nothing
behind it, an event is one token with the label and the form it was written for, and no error
follows; the ends of a range are told from points in time. -/
theorem event_reads (k : Keywords) (e : Written.Event) {rest : Text}
    (hrest : rest.StartsIn (· == ' ')) :
    ReadAlone k e.print rest .event (.event e.value) ∧
      (e.value.isRange = true ↔ e.value.form ≠ .point) := by
  have htake := e.take?_print hrest
  have hblank : rest.StartsIn isBlank := hrest.of_beq rfl
  refine ⟨?_, by simp [Event.isRange]⟩
  rw [← e.read_print]
  -- the first character depends on the spelling: a mark, the sign, or a full stop
  cases e with
  | point t => exact Marker.readAlone (m := .event) (by decide) htake hblank
  | opens t e => exact Marker.readAlone (m := .event) (by decide) htake hblank
  | closes e t =>
    cases e with
    | sign => exact Marker.readAlone (m := .event) (by decide) htake hblank
    | stops => exact Marker.readAlone (m := .event) (by decide) htake hblank

/-- A label as long as can be, with an ellipsis inside and one behind it. -/
theorem event_reads_longest :
    let label : Written.Bare :=
      ⟨'…', "ABCDEFGHIJKLMNOPQR".toList, by decide, List.all_eq_true.1 rfl, by decide⟩
    let e : Written.Event := .opens ⟨.bare label, by decide⟩ .sign
    Text.StartsIn (· == ' ') [' ', '…'] ∧ e.print = "!…ABCDEFGHIJKLMNOPQR…".toList ∧
      e.value = ⟨"…abcdefghijklmnopqr".toList, .opens⟩ ∧
      ReadAlone Keywords.standard e.print [' ', '…'] .event (.event e.value) ∧
      (e.value.isRange = true ↔ e.value.form ≠ .point) := by
  intro label e
  have hrest : Text.StartsIn (· == ' ') [' ', '…'] := Text.startsIn_cons.2 rfl
  exact ⟨hrest, by decide, by decide, event_reads Keywords.standard e hrest⟩

end Jot
