import Jot.Total

/-!
# Jot — text

A note is read as a list of characters, that is, of Unicode scalar values.  The sizes that
readers of the output see are counted in bytes of UTF-8; columns are counted in characters.
Both are functions of the list, so no operation ever cuts through a character.
-/

namespace Jot

/-- Text is a list of characters. -/
abbrev Text := List Char

namespace Text

/-- The characters of a fixed string. -/
abbrev ofString (s : String) : Text := s.toList

/-- The size of a text in bytes of UTF-8. -/
def byteSize (t : Text) : Nat := total Char.utf8Size t

@[simp] theorem byteSize_nil : byteSize [] = 0 := rfl

@[simp] theorem byteSize_cons (c : Char) (t : Text) :
    byteSize (c :: t) = c.utf8Size + byteSize t :=
  total_cons Char.utf8Size c t

@[simp] theorem byteSize_append (s t : Text) :
    byteSize (s ++ t) = byteSize s + byteSize t :=
  total_append Char.utf8Size s t

/-- The number of line feeds in a text. -/
def lineBreaks (t : Text) : Nat := t.count '\n'

/-- What is left of `t` when it begins with `lead`. -/
def after? : Text → Text → Option Text
  | [], t => some t
  | _ :: _, [] => none
  | x :: lead, c :: t => if x = c then after? lead t else none

theorem after?_eq_some_iff {lead t rest : Text} :
    after? lead t = some rest ↔ t = lead ++ rest := by
  induction lead generalizing t with
  | nil => simp [after?]
  | cons x lead ih =>
    cases t with
    | nil => simp [after?]
    | cons c t =>
      by_cases h : x = c
      · simp [after?, h, ih]
      · simp [after?, h, Ne.symm h]

/-- What is left of `t` when it ends with `tail`. -/
def before? (tail t : Text) : Option Text :=
  (after? tail.reverse t.reverse).map List.reverse

theorem before?_eq_some_iff {tail t rest : Text} :
    before? tail t = some rest ↔ t = rest ++ tail := by
  simp only [before?, Option.map_eq_some_iff, after?_eq_some_iff]
  constructor
  · rintro ⟨r, h, rfl⟩
    simpa using congrArg List.reverse h
  · rintro rfl
    exact ⟨rest.reverse, by simp, by simp⟩

/-- Equality up to the case of ASCII letters. -/
def sameIgnoringAsciiCase (s t : Text) : Bool :=
  s.map Char.toLower == t.map Char.toLower

/-- The decimal digits of a number. -/
def ofNat (n : Nat) : Text := Nat.toDigits 10 n

end Text

end Jot
