import Jot.Proofs.Nodes
import Jot.Proofs.Stack

/-!
# Jot — where constructs end

Twice it is decided where a formula, a link or a reaction ends: by the lexer, when it leaves the
states of the construct, and by the reader, which sees kinds of token only.  Both run side by
side: for each loop of a reader, a run of the lexer from the states that belong to the loop is as
long as what the loop takes.  Reactions have one state and one loop; formulas and links follow in
modules of their own.

* `Construct.endsAt` — the steps at which the lexer ends a construct;
* `extent` — how many steps it makes for one;
* `Reaction.consumed_readBody` — the loop of reactions.
-/

namespace Jot

-- ---------------------------------------------------------------------------
-- The end of a construct in the lexer
-- ---------------------------------------------------------------------------

/-- The states behind the first group of a link. -/
def State.isImage : State → Bool
  | link .image | link .imageSource | link .imageTitle | link .imageEnd => true
  | _ => false

/-- Whether a step reads white space. -/
def Step.isSpace (s : Step) : Bool := s.token.kind = .space

/-- Whether the next token that is not a space is an opening parenthesis. -/
def opensGroup (later : List Step) : Bool :=
  (later.dropWhile Step.isSpace).head?.any fun s => s.token.kind = .lparen

/-- Whether a construct ends with a step, behind which come the steps `later`.  Formulas and
reactions end where the lexer goes on to free text.  A link ends with an error, with its first
group unless another one follows, and with its second group. -/
def Construct.endsAt (c : Construct) (s : Step) (later : List Step) : Bool :=
  match c with
  | formula | reaction => s.after.state = .prose
  | link =>
    s.token.kind = .error ||
      (s.token.kind = .rparen &&
        ((s.after.state = .link .image && !opensGroup later) ||
          (s.before.state.isImage && s.after.state = .prose)))

/-- The number of steps up to the first one that satisfies `stop`, which is counted, or of all
steps if there is none. -/
def extent (stop : Step → List Step → Bool) : List Step → Nat
  | [] => 0
  | s :: later => if stop s later then 1 else extent stop later + 1

section Extent

variable {stop : Step → List Step → Bool} {s : Step} {ss later : List Step}

theorem extent_cons_of_stop (h : stop s later = true) : extent stop (s :: later) = 1 := by
  rw [extent, if_pos h]

theorem extent_cons_of_not_stop (h : stop s later = false) :
    extent stop (s :: later) = extent stop later + 1 := by
  rw [extent, h]
  rfl

/-- The steps that are counted come first, and unless they are all there are, the last one of
them is where the construct stops. -/
theorem exists_extent (stop : Step → List Step → Bool) (ss : List Step) :
    ∃ front later, ss = front ++ later ∧ front.length = extent stop ss ∧
      (later = [] ∨ ∃ init s, front = init ++ [s] ∧ stop s later = true) := by
  induction ss with
  | nil => exact ⟨[], [], rfl, rfl, .inl rfl⟩
  | cons s ss ih =>
    by_cases h : stop s ss = true
    · exact ⟨[s], ss, rfl, (extent_cons_of_stop h).symm, .inr ⟨[], s, rfl, h⟩⟩
    · obtain ⟨front, later, rfl, hlen, hend⟩ := ih
      refine ⟨s :: front, later, rfl, ?_, ?_⟩
      · rw [extent_cons_of_not_stop (Bool.eq_false_iff.2 h), List.length_cons, hlen]
      · rcases hend with hnil | ⟨init, x, rfl, hx⟩
        · exact .inl hnil
        · exact .inr ⟨s :: init, x, rfl, hx⟩

end Extent

-- ---------------------------------------------------------------------------
-- Reactions
-- ---------------------------------------------------------------------------

variable {k : Keywords} {c d : Cursor} {r : Rule} {s : Step} {ss : List Step} {n : Nat}

/-- A step in a reaction reads its body, or it reads what ends the reaction. -/
theorem Step.By.reaction_cases (h : s.By k c r) (hc : Stacked n c.state c.stack)
    (hs : c.state = .reaction) :
    (s.token.kind = .textBlob ∧ s.after.state = .reaction) ∨
    ((s.token.kind = .reactionClose ∨ s.token.kind = .error) ∧ s.after.state = .prose) :=
  h.relates
    (Q := fun s kind _ t => s = .reaction →
      (kind = .textBlob ∧ t = .reaction) ∨
      ((kind = .reactionClose ∨ kind = .error) ∧ t = .prose))
    (by decide) hc hs

/-- The reader takes as many tokens as the lexer makes steps in a reaction. -/
theorem Reaction.consumed_readBody (h : Cursor.Run k c ss d) (hc : Stacked n c.state c.stack)
    (hs : c.state = .reaction) (i : Nat) (body : Text) :
    (readBody i body (ss.map Step.token)).consumed =
      i + extent Construct.reaction.endsAt ss := by
  induction h generalizing n i body with
  | nil => rfl
  | @cons c d s ss head _ ih =>
    obtain ⟨r, hr⟩ := Cursor.exists_rule_of_step? head
    rw [List.map_cons, readBody]
    -- the reader stops where the lexer leaves the state
    rcases hr.reaction_cases hc hs with ⟨hk, ht⟩ | ⟨hk, ht⟩
    · have hne : s.after.state ≠ .prose := by rw [ht]; decide
      rw [extent_cons_of_not_stop (decide_eq_false hne)]
      simp only [hk]
      rw [ih (hr.stacked hc) ht (i + 1)]
      omega
    · rw [extent_cons_of_stop (decide_eq_true ht)]
      rcases hk with hk | hk
      all_goals simp only [hk]

end Jot
