import Jot.Json.Basic

/-!
# Jot — writing JSON

The layout for people: one item a line, two spaces a level, nothing inside an empty list or
object, and every character beyond ASCII as itself.
-/

namespace Jot

namespace Json

/-- A character inside a string literal. -/
def escapeChar (c : Char) : Text :=
  if c = '"' then ['\\', '"']
  else if c = '\\' then ['\\', '\\']
  else if c = '\x08' then ['\\', 'b']
  else if c = '\t' then ['\\', 't']
  else if c = '\n' then ['\\', 'n']
  else if c = '\x0c' then ['\\', 'f']
  else if c = '\r' then ['\\', 'r']
  else if c.toNat < 0x20 then
    ['\\', 'u', '0', '0', Nat.digitChar (c.toNat / 16), Nat.digitChar (c.toNat % 16)]
  else [c]

/-- A string literal. -/
def quote (t : Text) : Text := '"' :: t.flatMap escapeChar ++ ['"']

/-- A new line, indented for a depth. -/
def newline (depth : Nat) : Text := '\n' :: List.replicate (2 * depth) ' '

mutual

/-- A value, laid out at a depth. -/
def prettyAt (depth : Nat) : Json Text → Text
  | null => "null".toList
  | bool true => "true".toList
  | bool false => "false".toList
  | number literal => literal
  | string s => quote s
  | array [] => ['[', ']']
  | array (j :: js) => '[' :: prettyItems (depth + 1) (j :: js) ++ newline depth ++ [']']
  | object [] => ['\x7b', '\x7d']
  | object (f :: fs) =>
    '\x7b' :: prettyFields (depth + 1) (f :: fs) ++ newline depth ++ ['\x7d']

/-- The items of a list, each on a line of its own. -/
def prettyItems (depth : Nat) : List (Json Text) → Text
  | [] => []
  | [j] => newline depth ++ prettyAt depth j
  | j :: js => newline depth ++ prettyAt depth j ++ ',' :: prettyItems depth js

/-- The fields of an object, each on a line of its own. -/
def prettyFields (depth : Nat) : List (Text × Json Text) → Text
  | [] => []
  | [(key, j)] => newline depth ++ quote key ++ ':' :: ' ' :: prettyAt depth j
  | (key, j) :: fs =>
    newline depth ++ quote key ++ ':' :: ' ' :: prettyAt depth j ++ ',' :: prettyFields depth fs

end

/-- A value in the layout for people. -/
def pretty (j : Json Text) : Text := prettyAt 0 j

end Json

end Jot
