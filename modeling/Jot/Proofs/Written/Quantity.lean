import Jot.Proofs.Expression.Shapes
import Jot.Proofs.Written.Label
import Jot.Proofs.Written.Marker

/-!
# Jot — beans and cells, written and read

A bean or a cell is written at the start of a note, with a space or nothing behind it, and read
back as what it was written for.  The pattern and the reader cut the text by different means: the
pattern by what each part consists of, the reader by the first colon or comma behind the symbol.
Colons and commas inside quotes belong to the quotes, and an amount has none.

* `Amount`, `Measure`, `Quantity` — what can be written;
* `Quantity.take?_print` — the pattern takes the whole text;
* `Quantity.read_bean`, `Quantity.read_cell` — the reader finds the parts;
* `quantity_reads` — both together.
-/

namespace Jot

namespace Written

open Recognizer (Takes takes_both takes_optional takes_optional_nil)

variable {rest : Text}

-- ---------------------------------------------------------------------------
-- Beans and cells
-- ---------------------------------------------------------------------------

/-- A number, all of which is what its pattern takes. -/
structure Amount where
  text  : Text
  whole : Regex.number.match? text = some text.length

/-- What stands behind the symbol of a cell: nothing, or a colon and perhaps an amount. -/
inductive Measure where
  | none
  | colon
  | amount (negative : Bool) (a : Amount)

/-- A bean or a cell. -/
inductive Quantity where
  | bean (sign : Sign) (symbol : Label) (amount : Option Amount)
  | cell (symbol : Label) (measure : Measure) (unit : Option Label)

def signChar : Sign → Char
  | .plus => '+'
  | .minus => '-'

/-- An amount with its minus sign. -/
def signed (negative : Bool) (a : Amount) : Text := (if negative then ['-'] else []) ++ a.text

def amountText (a : Option Amount) : Text := (a.map fun a => ':' :: a.text).getD []

def unitText (u : Option Label) : Text := (u.map fun l => ',' :: l.print).getD []

def Measure.print : Measure → Text
  | none => []
  | colon => [':']
  | amount negative a => ':' :: signed negative a

def Quantity.print : Quantity → Text
  | bean sign symbol amount => signChar sign :: (symbol.print ++ amountText amount)
  | cell symbol measure unit => '%' :: (symbol.print ++ (measure.print ++ unitText unit))

/-- Without a colon one is meant, and with nothing behind it zero. -/
def Measure.value : Measure → Text
  | none => ['1']
  | colon => ['0']
  | amount negative a => signed negative a

def Quantity.marker : Quantity → Marker
  | bean .. => .bean
  | cell .. => .cell

/-- What is read from a quantity. -/
def Quantity.value : Quantity → Value
  | bean sign symbol amount => .bean ⟨sign, symbol.content, (amount.map Amount.text).getD ['1']⟩
  | cell symbol measure unit => .cell ⟨symbol.content, measure.value, unit.map Label.content⟩

namespace Amount

/-- The recogniser takes all of an amount, since it computes the expression. -/
theorem number_text (a : Amount) : Recognizer.number a.text = some a.text.length :=
  (Recognizer.computes_number a.text).trans a.whole

theorem blind_number : Recognizer.Blind (fun c => !isNumberChar c) Recognizer.number :=
  Recognizer.blind_number fun c hc => by simpa using hc

/-- An amount is taken whole in front of anything that is not of a number. -/
theorem takes (a : Amount) (hrest : rest.StartsIn fun c => !isNumberChar c) :
    Takes Recognizer.number a.text rest :=
  blind_number.takes a.number_text hrest

/-- An amount has only characters of numbers, or it would be cut before one that is not. -/
theorem isNumberChar_of_mem (a : Amount) : ∀ c ∈ a.text, isNumberChar c = true := by
  intro c hc
  simpa using blind_number.eq_false_of_mem Recognizer.bounded_number a.number_text c hc

/-- A number does not begin with a sign. -/
theorem exists_cons (a : Amount) : ∃ c t, a.text = c :: t ∧ c ≠ '-' := by
  have hnumber := a.number_text
  cases h : a.text with
  | nil =>
    rw [h] at hnumber
    contradiction
  | cons c t =>
    refine ⟨c, t, rfl, ?_⟩
    rintro rfl
    rw [h] at hnumber
    contradiction

end Amount

/-- A part that begins with a character of its own may be left out where another one follows. -/
theorem takes_part_nil {r : Recognizer} {c : Char} (hrest : rest.StartsIn fun x => !(x == c)) :
    Takes (.optional (.both (.char c) r)) [] rest :=
  takes_optional_nil (Recognizer.both_eq_none (Recognizer.one_eq_none hrest))

theorem takes_part {r : Recognizer} {c : Char} {v : Text} (h : Takes r v rest) :
    Takes (.optional (.both (.char c) r)) (c :: v) rest := by
  have hchar : Takes (.char c) [c] (v ++ rest) := if_pos (beq_self_eq_true c)
  exact takes_optional (takes_both hchar h)

/-- The amount of a bean, which may be left out. -/
theorem takes_amountText (a : Option Amount) (hrest : rest.StartsIn (· == ' ')) :
    Takes (.optional (.both (.char ':') Recognizer.number)) (amountText a) rest := by
  cases a with
  | none => exact takes_part_nil (hrest.of_beq rfl)
  | some a => exact takes_part (a.takes (hrest.of_beq rfl))

/-- An amount with a minus sign or without one. -/
theorem takes_signed (negative : Bool) (a : Amount)
    (hrest : rest.StartsIn fun c => !isNumberChar c) :
    Takes Recognizer.signedNumber (signed negative a) rest := by
  refine takes_both ?_ (a.takes hrest)
  cases negative with
  | true => exact takes_optional (v := ['-']) rfl
  | false =>
    obtain ⟨c, t, htext, hc⟩ := a.exists_cons
    refine takes_optional_nil (Recognizer.one_eq_none ?_)
    rw [htext]
    simpa using hc

namespace Measure

/-- What stands behind the symbol of a cell is taken up to the unit. -/
theorem takes_print (m : Measure) (hrest : rest.StartsIn fun c => c == ',' || c == ' ') :
    Takes (.optional (.both (.char ':') (.optional Recognizer.signedNumber))) m.print rest := by
  have hnumber : rest.StartsIn fun c => !isNumberChar c := hrest.stop (eq_false_of_beq_or rfl rfl)
  cases m with
  | none => exact takes_part_nil (hrest.stop (eq_false_of_beq_or rfl rfl))
  | colon =>
    -- behind a lone colon there is nothing that a number could begin with
    have hblind : Recognizer.Blind (fun c => !isNumberChar c) Recognizer.signedNumber :=
      Recognizer.blind_signedNumber fun c hc => by simpa using hc
    have hnone : Recognizer.signedNumber rest = Option.none := hblind [] rest hnumber
    exact takes_part (takes_optional_nil hnone)
  | amount negative a => exact takes_part (takes_optional (takes_signed negative a hnumber))

/-- A measure has no comma, so the first comma behind the symbol is the one in front of the unit. -/
theorem ne_comma_of_mem (m : Measure) : ∀ c ∈ m.print, (c != ',') = true := by
  have hamount (a : Amount) : ∀ c ∈ a.text, (c != ',') = true := by
    intro c hc
    rw [bne_iff_ne]
    rintro rfl
    exact absurd (a.isNumberChar_of_mem _ hc) (by decide)
  cases m with
  | none => simp [print]
  | colon => simp [print]
  | amount negative a =>
    refine List.forall_mem_cons.2 ⟨rfl, List.forall_mem_append.2 ⟨?_, hamount a⟩⟩
    cases negative <;> simp

/-- The reader finds the amount that was written, or the one that is meant. -/
theorem valueOf_print (m : Measure) : Jot.Cell.valueOf m.print = m.value := by
  cases m with
  | none => rfl
  | colon => rfl
  | amount negative a =>
    obtain ⟨c, t, htext, -⟩ := a.exists_cons
    rw [print, value, signed, htext]
    cases negative <;> rfl

end Measure

/-- The unit of a cell, which may be left out. -/
theorem takes_unitText (u : Option Label) (hrest : rest.StartsIn (· == ' ')) :
    Takes (.optional (.both (.char ',') Jot.Label.recognize)) (unitText u) rest := by
  cases u with
  | none => exact takes_part_nil (hrest.of_beq rfl)
  | some l => exact takes_part (l.takes (hrest.of_beq rfl))

namespace Quantity

/-- The pattern takes all of a quantity and nothing behind it. -/
theorem take?_print (q : Quantity) (hrest : rest.StartsIn (· == ' ')) :
    q.marker.pattern.take? (q.print ++ rest) = some q.print.length := by
  refine Pattern.take?_eq_some_iff.2 ⟨?_, by cases q <;> exact Nat.succ_pos _⟩
  cases q with
  | bean sign symbol amount =>
    -- each part ends where the next one begins, with a character that cannot belong to it
    have hlabel : Text.StartsIn (fun c => !Jot.Label.isTail c) (amountText amount ++ rest) := by
      cases amount with
      | none => exact hrest.of_beq rfl
      | some a => exact Text.startsIn_cons.2 rfl
    have hopen {t : Text} : Takes (.one fun c => c == '+' || c == '-') [signChar sign] t := by
      cases sign <;> rfl
    exact takes_both hopen (takes_both (symbol.takes hlabel) (takes_amountText amount hrest))
  | cell symbol measure unit =>
    have hunit : Text.StartsIn (fun c => c == ',' || c == ' ') (unitText unit ++ rest) := by
      cases unit with
      | none => exact hrest.of_beq rfl
      | some l => exact Text.startsIn_cons.2 rfl
    have hlabel : Text.StartsIn (fun c => !Jot.Label.isTail c)
        ((measure.print ++ unitText unit) ++ rest) := by
      rw [List.append_assoc]
      cases measure with
      | none => exact hunit.stop (eq_false_of_beq_or rfl rfl)
      | colon => exact Text.startsIn_cons.2 rfl
      | amount negative a => exact Text.startsIn_cons.2 rfl
    have hopen {t : Text} : Takes (.char '%') ['%'] t := rfl
    exact takes_both hopen (takes_both (symbol.takes hlabel)
      (takes_both (measure.takes_print hunit) (takes_unitText unit hrest)))

/-- Neither a colon nor a comma belongs to a label. -/
theorem colon_or_comma_of_isTail :
    ∀ c, Jot.Label.isTail c = true → (c == ':' || c == ',') = false := by
  intro c hc
  rw [Bool.or_eq_false_iff, beq_eq_false_iff_ne, beq_eq_false_iff_ne]
  constructor
  all_goals
    rintro rfl
    contradiction

/-- A bean is cut at the first colon outside of quotes. -/
theorem read_bean (sign : Sign) (symbol : Label) (amount : Option Amount) :
    Jot.Bean.read (signChar sign :: (symbol.print ++ amountText amount)) =
      ⟨sign, symbol.content, (amount.map Amount.text).getD ['1']⟩ := by
  have hrest : Text.StartsIn (· == ':') (amountText amount) := by
    cases amount <;> simp [amountText]
  have hcolon : ∀ c, Jot.Label.isTail c = true → (c == ':') = false := fun c hc =>
    (Bool.or_eq_false_iff.1 (colon_or_comma_of_isTail c hc)).1
  -- the label ends with its quotes, or before the colon
  have hsplit := symbol.split_print hcolon hrest
  simp only [Jot.Bean.read, List.drop_succ_cons, List.drop_zero, hsplit]
  congr 1
  · cases sign <;> rfl
  · cases amount with
    | none => rfl
    | some a =>
      obtain ⟨c, t, htext, -⟩ := a.exists_cons
      simp [amountText, htext]

/-- A cell is cut at the first colon or comma outside of quotes, and its measure at the comma. -/
theorem read_cell (symbol : Label) (measure : Measure) (unit : Option Label) :
    Jot.Cell.read ('%' :: (symbol.print ++ (measure.print ++ unitText unit))) =
      ⟨symbol.content, measure.value, unit.map Label.content⟩ := by
  have hrest : Text.StartsIn (fun c => c == ':' || c == ',') (measure.print ++ unitText unit) := by
    cases measure <;> cases unit <;> simp [Measure.print, unitText]
  have hunit : Text.StartsIn (fun c => !(c != ',')) (unitText unit) := by
    cases unit <;> simp [unitText]
  have hsplit := symbol.split_print colon_or_comma_of_isTail hrest
  simp only [Jot.Cell.read, List.drop_succ_cons, List.drop_zero, hsplit]
  rw [Text.takeWhile_append_of_startsIn measure.ne_comma_of_mem hunit,
    Text.dropWhile_append_of_startsIn measure.ne_comma_of_mem hunit, measure.valueOf_print]
  cases unit with
  | none => rfl
  | some l => simp [unitText, l.content_print]

/-- What is decoded from the text of a quantity is what it was written for. -/
theorem decode_print (q : Quantity) : decode q.marker.tokenKind q.print = q.value := by
  cases q with
  | bean sign symbol amount => exact congrArg Value.bean (read_bean sign symbol amount)
  | cell symbol measure unit => exact congrArg Value.cell (read_cell symbol measure unit)

end Quantity

end Written

/-- **Beans and cells are read as they are written.**  At the start of a note, with a space or
nothing behind it, a quantity is one token with the sign, symbol, amount and unit it was written
for, and no error follows. -/
theorem quantity_reads (k : Keywords) (q : Written.Quantity) {rest : Text}
    (hrest : rest.StartsIn (· == ' ')) :
    ReadAlone k q.print rest q.marker.tokenKind q.value := by
  have htake := q.take?_print hrest
  have hblank : rest.StartsIn isBlank := hrest.of_beq rfl
  rw [← q.decode_print]
  cases q with
  | bean sign symbol amount =>
    have hopens : Written.signChar sign ∈ Marker.bean.openers := by cases sign <;> decide
    exact Marker.readAlone hopens htake hblank
  | cell symbol measure unit =>
    have hopens : '%' ∈ Marker.cell.openers := by decide
    exact Marker.readAlone hopens htake hblank

/-- Punctuation and quotes inside of the labels, and every part written. -/
theorem quantity_reads_quoted :
    let symbol : Written.Quote := ⟨['a', ':', ',', '\\', '"'],
      .plain (by decide) (by decide) (.plain (by decide) (by decide)
        (.plain (by decide) (by decide) (.escaped '"' .nil)))⟩
    let unit : Written.Quote := ⟨['C', ',', '1'],
      .plain (by decide) (by decide) (.plain (by decide) (by decide)
        (.plain (by decide) (by decide) .nil))⟩
    let q : Written.Quantity := .cell (.quoted symbol (by decide))
      (.amount true ⟨"2.5e3".toList, (Recognizer.computes_number _).symm.trans (by decide)⟩)
      (some (.quoted unit (by decide)))
    Text.StartsIn (· == ' ') [' ', 'x'] ∧ q.print = "%\"a:,\\\"\":-2.5e3,\"C,1\"".toList ∧
      ReadAlone Keywords.standard q.print [' ', 'x'] .cell
        (.cell ⟨['a', ':', ',', '\\', '"'], "-2.5e3".toList, some ['C', ',', '1']⟩) := by
  intro symbol unit q
  have hrest : Text.StartsIn (· == ' ') [' ', 'x'] := Text.startsIn_cons.2 rfl
  exact ⟨hrest, by decide, quantity_reads Keywords.standard q hrest⟩

end Jot
