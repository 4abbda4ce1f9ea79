import Jot.Text.Basic

/-!
# Jot — JSON values

Values of the data format in which settings are read and results are written.  The type of the
strings is a parameter: a value that is written holds texts, and a value that was read holds
what the literals in it spell, which may be nothing (`Jot.Json.Reader`).
-/

namespace Jot

/-- A JSON value with strings of type `σ`; numbers are kept as they are written. -/
inductive Json (σ : Type) where
  | null
  | bool (b : Bool)
  | number (literal : Text)
  | string (s : σ)
  | array (items : List (Json σ))
  | object (fields : List (σ × Json σ))

namespace Json

/-- A natural number. -/
def nat {σ : Type} (n : Nat) : Json σ := .number (Text.ofNat n)

/-- A fixed string. -/
def str (s : String) : Json Text := .string s.toList

/-- A value that may be absent; `null` stands for its absence. -/
def orNull {α σ : Type} (f : α → Json σ) : Option α → Json σ
  | some a => f a
  | none => .null

/-- An object with fixed keys. -/
def record (fields : List (String × Json Text)) : Json Text :=
  .object (fields.map fun f => (f.1.toList, f.2))

/-- A field that is left out when its value is absent. -/
def fieldIf {α : Type} (key : String) (f : α → Json Text) : Option α → List (String × Json Text)
  | some a => [(key, f a)]
  | none => []

end Json

end Jot
