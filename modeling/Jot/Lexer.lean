import Jot.Grammar.Rule
import Jot.Keywords
import Jot.Token.Basic
import Jot.Token.Decode

/-!
# Jot — the lexer

The lexer reads a note from left to right.  A `Cursor` holds what is left of the note and where
the lexer stands; `Cursor.step?` reads one token, and `tokenize` reads them all.  No note is
refused: text that fits nowhere becomes an error token or a word.
-/

namespace Jot

/-- The lexer between two tokens: the rest of the note, its place, the state, and the states to
return to, innermost first. -/
structure Cursor where
  rest : Text
  place : Place
  state : State
  stack : List State

/-- What the rules of a state make of a text: how many characters are taken, what they become,
and where the lexer goes. -/
structure Choice where
  length : Nat
  emit : Emit
  transition : Transition

/-- The first rule that matches. -/
def firstMatch? (rules : List Rule) (t : Text) : Option Choice :=
  rules.findSome? fun r => (r.pattern.take? t).map fun n => ⟨n, r.emit, r.transition⟩

/-- What a state makes of a text that none of its rules matches: the run of characters up to
the next blank, or a single blank, is an error if the state has a violation to report, and a
word otherwise. -/
def State.fallback (s : State) (t : Text) : Choice :=
  let n := (Pattern.symbol.take? t).getD 1
  match s.recovery with
  | some r => ⟨n, .error r.kind, .next r.state⟩
  | none => ⟨n, .token .word, .stay⟩

/-- What a state makes of a text. -/
def State.choose (s : State) (t : Text) : Choice :=
  (firstMatch? s.rules t).getD (s.fallback t)

theorem State.choose_length_pos (s : State) (t : Text) : 0 < (s.choose t).length := by
  unfold State.choose
  cases h : firstMatch? s.rules t with
  | some c =>
    obtain ⟨r, -, hr⟩ := List.exists_of_findSome?_eq_some h
    obtain ⟨n, hn, rfl⟩ := Option.map_eq_some_iff.1 hr
    exact Pattern.take?_pos hn
  | none =>
    have pos : 0 < (Pattern.symbol.take? t).getD 1 := by
      cases hn : Pattern.symbol.take? t with
      | some n => exact Pattern.take?_pos hn
      | none => exact Nat.one_pos
    unfold State.fallback
    cases s.recovery <;> exact pos

/-- The kind and the value of the token that a text becomes. -/
def Emit.read (k : Keywords) (t : Text) : Emit → TokenKind × Value
  | .token kind => (kind, decode kind t)
  | .keyword => ((k.kind? t).getD .word, .text t)
  | .error v => (.error, .error (Violation.of v t))

/-- The state and the states to return to after a transition.  Nothing returns from free text,
so going there forgets the states to return to; returning with none to return to goes there
too. -/
def Transition.apply (state : State) (stack : List State) : Transition → State × List State
  | .stay => (state, stack)
  | .next .prose => (.prose, [])
  | .next s => (s, stack)
  | .push s => (s, state :: stack)
  | .pop =>
    match stack with
    | s :: rest => (s, rest)
    | [] => (.prose, [])

/-- One token, the choice that led to it, and the cursor before and behind it. -/
structure Step where
  before : Cursor
  token : Token
  choice : Choice
  after : Cursor

namespace Cursor

/-- The lexer at the start of a note. -/
def start (t : Text) : Cursor := ⟨t, .start, .start, []⟩

/-- Reads the next token; there is none at the end of the note. -/
def step? (k : Keywords) (c : Cursor) : Option Step :=
  if c.rest.isEmpty then none else
  let choice := c.state.choose c.rest
  let text := c.rest.take choice.length
  let (kind, value) := choice.emit.read k text
  let (state, stack) := choice.transition.apply c.state c.stack
  some {
    before := c
    token := { toPiece := Piece.ofText c.place text, kind, value }
    choice
    after := {
      rest := c.rest.drop choice.length
      place := c.place.after text
      state
      stack } }

theorem rest_length_lt_of_step? {k : Keywords} {c : Cursor} {s : Step}
    (h : c.step? k = some s) : s.after.rest.length < c.rest.length := by
  unfold step? at h
  split at h
  · contradiction
  · next hne =>
    cases h
    have pos := c.state.choose_length_pos c.rest
    have : c.rest ≠ [] := by simpa using hne
    have := List.length_pos_iff.2 this
    simp only [List.length_drop]
    omega

/-- All steps from a cursor to the end of the note, in front of those in `acc`, which are kept
latest first. -/
def stepsFrom (k : Keywords) (acc : List Step) (c : Cursor) : List Step :=
  match _h : c.step? k with
  | none => acc.reverse
  | some s => stepsFrom k (s :: acc) s.after
termination_by c.rest.length
decreasing_by exact rest_length_lt_of_step? ‹_›

theorem stepsFrom_none {k : Keywords} {acc : List Step} {c : Cursor} (h : c.step? k = none) :
    c.stepsFrom k acc = acc.reverse := by
  rw [stepsFrom]
  split <;> simp_all

theorem stepsFrom_some {k : Keywords} {acc : List Step} {c : Cursor} {s : Step}
    (h : c.step? k = some s) : c.stepsFrom k acc = s.after.stepsFrom k (s :: acc) := by
  rw [stepsFrom]
  split <;> simp_all

/-- The steps that come after do not depend on those before. -/
theorem stepsFrom_eq_reverse_append (k : Keywords) (acc : List Step) (c : Cursor) :
    c.stepsFrom k acc = acc.reverse ++ c.stepsFrom k [] := by
  cases h : c.step? k with
  | none => simp [stepsFrom_none h]
  | some s =>
    rw [stepsFrom_some h, stepsFrom_some h, stepsFrom_eq_reverse_append k (s :: acc),
      stepsFrom_eq_reverse_append k [s]]
    simp
termination_by c.rest.length
decreasing_by all_goals exact rest_length_lt_of_step? h

/-- A step that can be taken is the first one. -/
theorem stepsFrom_cons {k : Keywords} {c : Cursor} {s : Step} (h : c.step? k = some s) :
    c.stepsFrom k [] = s :: s.after.stepsFrom k [] := by
  rw [stepsFrom_some h, stepsFrom_eq_reverse_append]
  rfl

end Cursor

/-- The steps in which a note is read. -/
def steps (k : Keywords) (t : Text) : List Step := (Cursor.start t).stepsFrom k []

/-- The tokens of a note. -/
def tokenize (k : Keywords) (t : Text) : List Token := (steps k t).map Step.token

end Jot
