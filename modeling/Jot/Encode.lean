import Jot.Json.Basic
import Jot.Record

/-!
# Jot — results as JSON

The fields of every result and their order.  A value is written without a mark of its type.  A
field without a value is `null`; only the remark of a violation and the error of a capture are
left out when there is none.
-/

namespace Jot

open Json (orNull fieldIf)

/-- A text as a JSON string. -/
def Text.toJson (t : Text) : Json Text := .string t

namespace Violation

/-- A violation: its kind, the text, and the remark if there is one. -/
def toJson (v : Violation) : Json Text :=
  .record ([("kind", .str v.kind.name), ("text", .string v.text)] ++
    fieldIf "message" Text.toJson v.message)

end Violation

-- ---------------------------------------------------------------------------
-- Values
-- ---------------------------------------------------------------------------

/-- A sign as it is written before a bean. -/
def Sign.toJson : Sign → Json Text
  | plus => .str "+"
  | minus => .str "-"

/-- A bean; the amount stays text. -/
def Bean.toJson (b : Bean) : Json Text :=
  .record [("sign", b.sign.toJson), ("symbol", .string b.symbol), ("value", .string b.value)]

/-- A cell; the unit is `null` when none is written. -/
def Cell.toJson (c : Cell) : Json Text :=
  .record [("symbol", .string c.symbol), ("value", .string c.value),
    ("unit", orNull Text.toJson c.unit)]

/-- The form of an event by name. -/
def EventForm.toJson : EventForm → Json Text
  | opens => .str "open"
  | closes => .str "close"
  | point => .str "point"

/-- An event; whether it is one end of a range is spelled out. -/
def Event.toJson (e : Event) : Json Text :=
  .record [("label", .string e.label), ("isRange", .bool e.isRange), ("form", e.form.toJson)]

/-- A moment in its canonical spelling, or the violation in its place. -/
def DateValue.toJson : DateValue → Json Text
  | instant i => .string i.render
  | invalid v => v.toJson

/-- A link; parts that are not written are `null`. -/
def Link.toJson (l : Link) : Json Text :=
  .record [("href", orNull Text.toJson l.href), ("title", orNull Text.toJson l.title),
    ("img-src", orNull Text.toJson l.imageSource),
    ("img-title", orNull Text.toJson l.imageTitle)]

/-- A reaction and the text that it quotes. -/
def Reaction.toJson (r : Reaction) : Json Text :=
  .record [("reaction", orNull (fun k : ReactionKind => .str k.name) r.reaction),
    ("record", .string r.record)]

/-- The fields that say where a piece is. -/
def Piece.placeFields (p : Piece) : List (String × Json Text) :=
  [("offset", .nat p.offset), ("line", .nat p.line), ("col", .nat p.col),
    ("lineBreaks", .nat p.lineBreaks)]

mutual

/-- A call with its piece; a broken one is marked and carries the cause. -/
def Call.toJson : Call → Json Text
  | ⟨piece, operator, args, status⟩ =>
    .record ([("type", .str (match status with | .sound => "func" | .broken _ => "error")),
        ("operator", orNull Text.toJson operator), ("args", .array (Arg.listToJson args)),
        ("text", .string piece.text)] ++
      piece.placeFields ++
      [("error", orNull Violation.toJson
        (match status with | .sound => none | .broken cause => cause))])

/-- An argument: `null` when it is left out. -/
def Arg.toJson : Arg → Json Text
  | .skip => .null
  | .value t => .string t
  | .call c => c.toJson

/-- The arguments of a call, in order. -/
def Arg.listToJson : List Arg → List (Json Text)
  | [] => []
  | a :: rest => a.toJson :: Arg.listToJson rest

end

/-- A formula; the name and the call are `null` when they are missing. -/
def Formula.toJson (f : Formula) : Json Text :=
  .record [("name", orNull Text.toJson f.name), ("procedure", orNull Call.toJson f.procedure)]

/-- Any value, without a mark of its type. -/
def Value.toJson : Value → Json Text
  | text t => .string t
  | arg a => orNull Text.toJson a
  | bean b => b.toJson
  | cell c => c.toJson
  | event e => e.toJson
  | date d => d.toJson
  | error v => v.toJson
  | formula f => f.toJson
  | link l => l.toJson
  | reaction r => r.toJson

-- ---------------------------------------------------------------------------
-- Tokens and records
-- ---------------------------------------------------------------------------

/-- A token: kind, text, value and place. -/
def Token.toJson (t : Token) : Json Text :=
  .record ([("type", .str t.kind.name), ("text", .string t.text), ("value", t.value.toJson)] ++
    t.placeFields)

/-- An entry of a record, with the value as `f` writes it. -/
def Capture.toJson {α : Type} (f : α → Json Text) (c : Capture α) : Json Text :=
  .record ([("type", .str c.kind.name), ("value", f c.value), ("text", .string c.text)] ++
    c.placeFields ++ fieldIf "error" Violation.toJson c.error)

/-- A list of entries. -/
def Capture.listToJson {α : Type} (f : α → Json Text) (cs : List (Capture α)) : Json Text :=
  .array (cs.map (Capture.toJson f))

/-- A record, field by field. -/
def Record.toJson (r : Record) : Json Text :=
  .record [
    ("date", orNull (Capture.toJson DateValue.toJson) r.date),
    ("pin", orNull (Capture.toJson Text.toJson) r.pin),
    ("todo", orNull (Capture.toJson Text.toJson) r.todo),
    ("done", orNull (Capture.toJson Text.toJson) r.done),
    ("reaction", orNull (Capture.toJson Reaction.toJson) r.reaction),
    ("folder", Capture.listToJson Text.toJson r.folder),
    ("tag", Capture.listToJson Text.toJson r.tag),
    ("mention", Capture.listToJson Text.toJson r.mention),
    ("event", Capture.listToJson Event.toJson r.event),
    ("url", Capture.listToJson Text.toJson r.url),
    ("bean", Capture.listToJson Bean.toJson r.bean),
    ("cell", Capture.listToJson Cell.toJson r.cell),
    ("link", Capture.listToJson Link.toJson r.link),
    ("formula", Capture.listToJson Formula.toJson r.formula),
    ("error", Capture.listToJson Violation.toJson r.error),
    ("text", .string r.text),
    ("body", .string r.body),
    ("chunks", Capture.listToJson Value.toJson r.chunks)]

end Jot
