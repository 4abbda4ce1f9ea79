import Jot.Proofs.Lexeme
import Jot.Token.Decode

/-!
# Jot — markers at the start of a note

Beans, cells, events and other constructs of one token begin with a character of their own and end
at white space.  So at the start of a note it is enough to know that the pattern of such a marker
takes a text in order to know how the note is read up to there.

* `Marker.take?_before` — no rule that is tried before that of a marker matches;
* `Marker.readAlone` — the token of the marker, and the white space behind it.
-/

namespace Jot

-- ---------------------------------------------------------------------------
-- Markers at the start of a note
-- ---------------------------------------------------------------------------

/-- A note begins with `text`, which is read as one token, and white space or nothing follows. -/
def ReadAlone (k : Keywords) (text rest : Text) (kind : TokenKind) (v : Value) : Prop :=
  ∃ later, tokenize k (text ++ rest) = ⟨Piece.ofText Place.start text, kind, v⟩ :: later ∧
    (∀ t ∈ later.head?, t.kind = .space) ∧ (rest = [] → later = [])

namespace Marker

variable {k : Keywords} {m : Marker} {c : Char} {t rest : Text}

/-- The rules that are tried before that of a marker at the start of a note. -/
def before (m : Marker) : List Rule := State.start.rules.takeWhile (· != Rule.mark m)

theorem exists_rules_start (m : Marker) :
    ∃ post, State.start.rules = m.before ++ Rule.mark m :: post := by
  cases m <;> exact ⟨_, rfl⟩

/-- The characters that a marker begins with, where these are fixed. -/
def openers : Marker → List Char
  | tag => ['#']
  | mention => ['@']
  | cell => ['%']
  | event => ['!', '…', '.']
  | url => []
  | bean => ['+', '-']

/-- Markers are told apart by their first character. -/
theorem take?_before (hc : c ∈ m.openers) (t : Text) :
    ∀ q ∈ m.before, q.pattern.take? (c :: t) = none := by
  -- with the first character known, each of these patterns is refused by evaluation
  have hall : (m.before.all fun q => (q.pattern.take? (c :: t)).isNone) = true := by
    cases m with
    | tag | mention | cell =>
      obtain rfl := List.mem_singleton.1 hc
      rfl
    | event =>
      simp only [openers, List.mem_cons, List.not_mem_nil, or_false] at hc
      rcases hc with rfl | rfl | rfl <;> rfl
    | url => contradiction
    | bean =>
      simp only [openers, List.mem_cons, List.not_mem_nil, or_false] at hc
      rcases hc with rfl | rfl <;> rfl
  intro q hq
  exact Option.isNone_iff_eq_none.1 (List.all_eq_true.1 hall q hq)

/-- Behind a marker white space is read, if there is any. -/
theorem kind_head_of_marked {p : Place} {stack : List State} (hrest : rest.StartsIn isBlank) :
    ∀ x ∈ ((Cursor.stepsFrom k [] ⟨rest, p, .marked m, stack⟩).map Step.token).head?,
      x.kind = .space := by
  cases hstep : Cursor.step? k ⟨rest, p, .marked m, stack⟩ with
  | none => simp [Cursor.stepsFrom_none hstep]
  | some s =>
    obtain ⟨n, hn⟩ :=
      Pattern.take?_whitespace_of_startsIn (Cursor.rest_ne_nil_of_step? hstep) hrest
    have hrules : (State.marked m).rules =
        [] ++ Rule.space (.next .prose) :: [Rule.failure m.violation .prose] := rfl
    have hr : s.By k _ (Rule.space (.next .prose)) :=
      Cursor.by_of_rule hstep hrules (List.forall_mem_nil _) hn
    have hkind : s.token.kind = .space := congrArg Prod.fst hr.read
    simp [Cursor.stepsFrom_cons hstep, hkind]

/-- A marker that its pattern takes is read as one token, and no error follows. -/
theorem readAlone (hc : c ∈ m.openers)
    (htake : m.pattern.take? (c :: t ++ rest) = some (c :: t).length)
    (hrest : rest.StartsIn isBlank) :
    ReadAlone k (c :: t) rest m.tokenKind (decode m.tokenKind (c :: t)) := by
  obtain ⟨post, hrules⟩ := m.exists_rules_start
  have hlexes : Cursor.Lexes k (Cursor.start (c :: t ++ rest)) [(m.tokenKind, c :: t)]
      ⟨rest, Place.start.after (c :: t), .marked m, [.start]⟩ :=
    Cursor.lexes_of_rule m.before (Rule.mark m) hrules (take?_before hc _) htake rfl rfl
  refine ⟨_, hlexes.tokenize, kind_head_of_marked hrest, ?_⟩
  rintro rfl
  rw [Cursor.stepsFrom_none (Cursor.step?_eq_none_iff.2 rfl)]
  rfl

end Marker

end Jot
