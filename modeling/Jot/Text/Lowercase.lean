import Jot.Text.Basic
import Jot.Text.CaseTables

/-!
# Jot — lower case

The full lower case of a text.  Two letters need more than a table row: the dotted capital I
becomes an i with a dot above, and the capital sigma becomes a final sigma where a word ends,
that is, when a cased letter precedes it and none follows, characters such as apostrophes and
combining marks not counted.
-/

namespace Jot

/-- The character that a row of the mapping sends `n` to. -/
def LowerRow.lookup? (row : LowerRow) (n : Nat) : Option Char :=
  if row.first ≤ n ∧ n ≤ row.last ∧ (n - row.first) % row.step = 0 then
    some (Char.ofNat (row.target + (n - row.first)))
  else
    none

/-- The lower case of a character on its own, the sigma taken as inside a word. -/
def lowerChar (c : Char) : Text :=
  if c.toNat < 0x80 then [c.toLower]
  else if c.toNat = 0x130 then ['i', Char.ofNat 0x307]
  else [(lowerRows.findSome? (·.lookup? c.toNat)).getD c]

/-- Whether the first character that counts is a cased letter. -/
def reachesCased (t : Text) : Bool :=
  match t.dropWhile caseIgnorableRanges.has with
  | [] => false
  | c :: _ => casedRanges.has c

/-- The lower case of a capital sigma with `before` (nearest character first) on its left and
`after` on its right. -/
def lowerSigma (before after : Text) : Char :=
  if reachesCased before && !reachesCased after then 'ς' else 'σ'

/-- Lower case, read from left to right: `before` holds the characters already passed and
`done` their lower case, both nearest first. -/
def lowerFrom (before done : Text) : Text → Text
  | [] => done.reverse
  | c :: rest =>
    let low := if c = 'Σ' then [lowerSigma before rest] else lowerChar c
    lowerFrom (c :: before) (low.reverse ++ done) rest

/-- The lower case of a text. -/
def Text.lowercase (t : Text) : Text := lowerFrom [] [] t

end Jot
