import Jot.Recognizer

/-!
# Jot — quoted names

A name between double quotes may hold any character; a backslash takes the meaning from the
character after it, so that a quote can be part of the name.  `Quoted.name` recognises such a
name, and `Text.dequote` gives what stands between the quotes, escapes left as written.
-/

namespace Jot

namespace Quoted

/-- Looks for the closing quote of a name of which `n` characters have been passed.  Only
characters of the class `allowed` may occur, escaped or not. -/
def close (allowed : Char → Bool) (n : Nat) : Text → Option Nat
  | [] => none
  | '"' :: _ => some (n + 1)
  | '\\' :: c :: rest => if allowed c then close allowed (n + 2) rest else none
  | ['\\'] => none
  | c :: rest => if allowed c then close allowed (n + 1) rest else none

/-- A quoted name with characters of one class. -/
def nameOf (allowed : Char → Bool) : Recognizer
  | '"' :: rest => close allowed 1 rest
  | _ => none

/-- A quoted name; line feeds are allowed. -/
def name : Recognizer := nameOf fun _ => true

/-- A quoted name on one line. -/
def inline : Recognizer := nameOf (· != '\n')

theorem close_le {allowed : Char → Bool} {n : Nat} {t : Text} {m : Nat}
    (h : close allowed n t = some m) : m ≤ n + t.length := by
  fun_induction close allowed n t <;> simp_all <;> omega

theorem bounded_nameOf (allowed : Char → Bool) : Recognizer.Bounded (nameOf allowed) := by
  intro t n h
  unfold nameOf at h
  split at h
  · have := close_le h
    simp only [List.length_cons]
    omega
  · contradiction

end Quoted

namespace Text

/-- Whether the whole text is one quoted name. -/
def isQuoted (t : Text) : Bool := Quoted.name t == some t.length

/-- The text between the quotes of a quoted name; any other text as it is. -/
def dequote (t : Text) : Text := if isQuoted t then (t.drop 1).dropLast else t

end Text

end Jot
