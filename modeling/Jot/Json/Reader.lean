import Jot.Json.Basic
import Jot.Recognizer

/-!
# Jot — reading JSON

The reader is strict: no comments, no trailing commas, no control characters in strings, no
number with a leading zero.  A literal may be well formed and still spell no text, when it
escapes half of a surrogate pair; such a string is read as `none`, and only a part of the value
that is looked at has to object to it.
-/

namespace Jot

namespace Json

-- ---------------------------------------------------------------------------
-- Strings
-- ---------------------------------------------------------------------------

/-- The value of a hexadecimal digit. -/
def hexDigit? (c : Char) : Option Nat :=
  if c.isDigit then some (c.toNat - 48)
  else if 'a' ≤ c ∧ c ≤ 'f' then some (c.toNat - 87)
  else if 'A' ≤ c ∧ c ≤ 'F' then some (c.toNat - 55)
  else none

/-- The number that hexadecimal digits spell. -/
def hexNumber? (digits : Text) : Option Nat :=
  digits.foldlM (fun n c => (hexDigit? c).map (16 * n + ·)) 0

/-- The code of the character that a one-letter escape stands for. -/
def escapeCode? : Char → Option Nat
  | '"' => some 0x22
  | '\\' => some 0x5C
  | '/' => some 0x2F
  | 'b' => some 0x08
  | 'f' => some 0x0C
  | 'n' => some 0x0A
  | 'r' => some 0x0D
  | 't' => some 0x09
  | _ => none

/-- The codes in a literal behind its opening quote, and what follows the closing one.  `acc`
holds the codes before, latest first. -/
def literalCodes (acc : List Nat) : Text → Option (List Nat × Text)
  | [] => none
  | '"' :: rest => some (acc.reverse, rest)
  | '\\' :: 'u' :: a :: b :: c :: d :: rest =>
    match hexNumber? [a, b, c, d] with
    | some n => literalCodes (n :: acc) rest
    | none => none
  | '\\' :: e :: rest =>
    match escapeCode? e with
    | some n => literalCodes (n :: acc) rest
    | none => none
  | ['\\'] => none
  | c :: rest => if c.toNat < 0x20 then none else literalCodes (c.toNat :: acc) rest

theorem length_lt_of_literalCodes {acc : List Nat} {t : Text} {codes : List Nat} {rest : Text}
    (h : literalCodes acc t = some (codes, rest)) : rest.length < t.length := by
  fun_induction literalCodes acc t <;> simp_all <;> omega

/-- The text that codes spell, surrogates in pairs. -/
def textOfCodes? : List Nat → Option Text
  | [] => some []
  | [n] => if 0xD800 ≤ n ∧ n < 0xE000 then none else some [Char.ofNat n]
  | n :: m :: codes =>
    if 0xD800 ≤ n ∧ n < 0xDC00 ∧ 0xDC00 ≤ m ∧ m < 0xE000 then
      (textOfCodes? codes).map
        (Char.ofNat (0x10000 + 0x400 * (n - 0xD800) + (m - 0xDC00)) :: ·)
    else if 0xD800 ≤ n ∧ n < 0xE000 then none
    else (textOfCodes? (m :: codes)).map (Char.ofNat n :: ·)

-- ---------------------------------------------------------------------------
-- Values
-- ---------------------------------------------------------------------------

/-- White space between the parts of a value. -/
def isGap (c : Char) : Bool := c == ' ' || c == '\t' || c == '\n' || c == '\r'

/-- The text without leading white space. -/
def skipGap (t : Text) : Text := t.dropWhile isGap

theorem length_skipGap_le (t : Text) : (skipGap t).length ≤ t.length :=
  (List.dropWhile_sublist isGap).length_le

/-- A number. -/
def numeral : Recognizer :=
  let digit : Char → Bool := Char.isDigit
  .sequence [
    .optional (.one (· == '-')),
    .firstOf [.one (· == '0'), .both (.one digit) (.many digit)],
    .optional (.both (.one (· == '.')) (.many1 digit)),
    .optional (.sequence [
      .one fun c => c == 'e' || c == 'E',
      .optional (.one fun c => c == '+' || c == '-'),
      .many1 digit])]

/-- The fixed words of the format. -/
def constants : List (Text × Json (Option Text)) :=
  [("null".toList, .null), ("true".toList, .bool true), ("false".toList, .bool false)]

/-- Reads a word or a number. -/
def readPlain? (t : Text) : Option (Json (Option Text) × Text) :=
  match constants.findSome? fun c => (Text.after? c.1 t).map (c.2, ·) with
  | some found => some found
  | none => (numeral t).map fun n => (.number (t.take n), t.drop n)

/-- What was read, and the text that follows it, which is shorter than `t`. -/
abbrev Read (α : Type) (t : Text) := Option (α × { rest : Text // rest.length < t.length })

/-- Reads a string from its opening quote. -/
def readString? : (t : Text) → Read (Option Text) t
  | '"' :: body =>
    match h : literalCodes [] body with
    | some (codes, rest) =>
      some (textOfCodes? codes, ⟨rest, Nat.lt_succ_of_lt (length_lt_of_literalCodes h)⟩)
    | none => none
  | _ => none

mutual

/-- Reads a value that starts with the first character. -/
def readValue? (t : Text) : Read (Json (Option Text)) t :=
  match t with
  | '[' :: body =>
    have gap := Nat.lt_succ_of_le (length_skipGap_le body)
    match h : skipGap body with
    | ']' :: rest => some (.array [], ⟨rest, by
        simp_all
        omega⟩)
    | _ =>
      match readItems? [] (skipGap body) with
      | some (items, ⟨rest, hrest⟩) => some (.array items, ⟨rest, by
          simp
          omega⟩)
      | none => none
  | '\x7b' :: body =>
    have gap := Nat.lt_succ_of_le (length_skipGap_le body)
    match h : skipGap body with
    | '\x7d' :: rest => some (.object [], ⟨rest, by
        simp_all
        omega⟩)
    | _ =>
      match readFields? [] (skipGap body) with
      | some (fields, ⟨rest, hrest⟩) => some (.object fields, ⟨rest, by
          simp
          omega⟩)
      | none => none
  | '"' :: body => (readString? ('"' :: body)).map fun r => (.string r.1, r.2)
  | t =>
    match readPlain? t with
    | some (j, rest) => if h : rest.length < t.length then some (j, ⟨rest, h⟩) else none
    | none => none
termination_by (t.length, 0)

/-- Reads the items of a list up to its closing bracket; `acc` holds those before, latest
first. -/
def readItems? (acc : List (Json (Option Text))) (t : Text) :
    Read (List (Json (Option Text))) t :=
  match readValue? t with
  | none => none
  | some (j, ⟨rest, hrest⟩) =>
    match h : skipGap rest with
    | ']' :: rest' => some ((j :: acc).reverse, ⟨rest', by
        have := length_skipGap_le rest
        simp_all
        omega⟩)
    | ',' :: rest' =>
      have : (skipGap rest').length < t.length := by
        have := length_skipGap_le rest
        have := length_skipGap_le rest'
        simp_all
        omega
      match readItems? (j :: acc) (skipGap rest') with
      | some (items, ⟨rest'', h''⟩) => some (items, ⟨rest'', Nat.lt_trans h'' this⟩)
      | none => none
    | _ => none
termination_by (t.length, 1)

/-- Reads the fields of an object up to its closing brace; `acc` holds those before, latest
first. -/
def readFields? (acc : List (Option Text × Json (Option Text))) (t : Text) :
    Read (List (Option Text × Json (Option Text))) t :=
  match readString? t with
  | none => none
  | some (key, ⟨rest, hrest⟩) =>
    match hc : skipGap rest with
    | ':' :: body =>
      have hbody : (skipGap body).length < t.length := by
        have := length_skipGap_le rest
        have := length_skipGap_le body
        simp_all
        omega
      match readValue? (skipGap body) with
      | none => none
      | some (j, ⟨rest', hrest'⟩) =>
        match h : skipGap rest' with
        | '\x7d' :: rest'' => some (((key, j) :: acc).reverse, ⟨rest'', by
            have := length_skipGap_le rest'
            simp_all
            omega⟩)
        | ',' :: rest'' =>
          have : (skipGap rest'').length < t.length := by
            have := length_skipGap_le rest'
            have := length_skipGap_le rest''
            simp_all
            omega
          match readFields? ((key, j) :: acc) (skipGap rest'') with
          | some (fields, ⟨last, hlast⟩) => some (fields, ⟨last, Nat.lt_trans hlast this⟩)
          | none => none
        | _ => none
    | _ => none
termination_by (t.length, 1)

end

/-- Reads a text that is one value, with white space around it. -/
def read? (t : Text) : Option (Json (Option Text)) :=
  match readValue? (skipGap t) with
  | some (j, ⟨rest, _⟩) => if (skipGap rest).isEmpty then some j else none
  | none => none

end Json

end Jot
