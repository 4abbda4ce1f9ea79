import Jot.Lexer

/-!
# Jot — the log

What the lexer and the assembler report while they work, kept as data; `LogLine.render` gives
the line that is written.  The lexer reports every violation and every change of state, the
assembler every error that it takes over from a formula, a link or a reaction.
-/

namespace Jot

/-- How much a line of the log matters. -/
inductive LogLevel where
  | debug
  | trace
deriving DecidableEq

/-- One report. -/
inductive LogLine where
  /-- A stretch of text breaks a rule. -/
  | violation (kind : ViolationKind) (state : State) (place : Place) (text : Text)
  /-- The lexer goes from one state to another, or to the same one again. -/
  | transition (source target : State) (offset : Nat)
  /-- A node ends with an error token that starts at `offset`. -/
  | bubbled (node : TokenKind) (offset : Nat)

namespace LogLine

/-- Changes of state are only of interest when the lexer itself is examined. -/
def level : LogLine → LogLevel
  | transition .. => .trace
  | _ => .debug

/-- The report in words. -/
def message : LogLine → Text
  | violation kind state place text =>
    kind.name.toList ++ " in state ".toList ++ state.name.toList ++ " at ".toList ++
      Text.ofNat place.line ++ ':' :: Text.ofNat place.col ++ ": ".toList ++ text.literal
  | transition source target offset =>
    source.name.toList ++ " -> ".toList ++ target.name.toList ++ " at byte ".toList ++
      Text.ofNat offset
  | bubbled node offset =>
    node.name.toList ++ " bubbled an error at byte ".toList ++ Text.ofNat offset

/-- The part of the program that reports. -/
def origin : LogLine → String
  | bubbled .. => "sowhat::record"
  | _ => "sowhat::lexer"

/-- The whole line. -/
def render (l : LogLine) : Text :=
  (match l.level with
    | .debug => "[DEBUG] "
    | .trace => "[TRACE] ").toList ++ l.origin.toList ++ ": ".toList ++ l.message

end LogLine

/-- What the lexer reports in one step. -/
def Step.log (s : Step) : List LogLine :=
  let complaint :=
    match s.choice.emit with
    | .error kind => [.violation kind s.before.state s.before.place s.token.text]
    | _ => []
  let move :=
    match s.choice.transition with
    | .stay => []
    | _ => [.transition s.before.state s.after.state s.after.place.offset]
  complaint ++ move

end Jot
