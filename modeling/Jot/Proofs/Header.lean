import Jot.Proofs.Stack

/-!
# Jot — the header of a note

The states at the start of a note are passed in one direction only: pin, date, folders, keyword,
free text.  `State.headerRank` numbers them, and what may occur once in a note is read on the way
from one number to a greater one.

* `Step.By.headerRank_le` — no step goes back;
* `Step.By.headerRank_of_once` — a token that occurs once goes on;
* `tokenize_once` — a note has at most one pin, date, task, task done and reaction.
-/

namespace Jot

-- ---------------------------------------------------------------------------
-- Ranks
-- ---------------------------------------------------------------------------

/-- How far the header of the note has been passed. -/
def State.headerRank : State → Nat
  | start => 0
  | pin => 1
  | date => 2
  | folder => 3
  | folderEnd => 4
  | _ => 5

/-- The last rank at which a token of a kind that a note has at most once can be read. -/
def TokenKind.lastRank? : TokenKind → Option Nat
  | pin | reactionOpen => some 0
  | date => some 1
  | todo | done => some 4
  | _ => none

namespace Step.By

variable {k : Keywords} {c : Cursor} {r : Rule} {s : Step} {n m : Nat}

/-- No step goes back in the header. -/
theorem headerRank_le (h : s.By k c r) (hc : Stacked n c.state c.stack) :
    c.state.headerRank ≤ s.after.state.headerRank :=
  h.relates (Q := fun s _ _ t => s.headerRank ≤ t.headerRank) (by decide) hc

/-- A token that a note has at most once is read at a rank to which no later step returns. -/
theorem headerRank_of_once (h : s.By k c r) (hc : Stacked n c.state c.stack)
    (hm : s.token.kind.lastRank? = some m) :
    c.state.headerRank ≤ m ∧ m < s.after.state.headerRank :=
  h.relates
    (Q := fun s kind _ t => ∀ m ∈ kind.lastRank?, s.headerRank ≤ m ∧ m < t.headerRank)
    (by decide) hc m hm

end Step.By

-- ---------------------------------------------------------------------------
-- Runs
-- ---------------------------------------------------------------------------

namespace Cursor.Run

variable {k : Keywords} {c d : Cursor} {ss : List Step} {n m : Nat} {kind : TokenKind}

/-- Past its last rank a kind does not occur. -/
theorem kind_ne_of_lt (h : Run k c ss d) (hc : Stacked n c.state c.stack)
    (hm : kind.lastRank? = some m) (hlt : m < c.state.headerRank) :
    ∀ s ∈ ss, s.token.kind ≠ kind := by
  induction h generalizing n with
  | nil => simp
  | cons head _ ih =>
    obtain ⟨r, hr⟩ := exists_rule_of_step? head
    refine List.forall_mem_cons.2 ⟨?_, ih (hr.stacked hc) ?_⟩
    · -- such a token is read at its last rank at the latest, and that has been passed
      rintro rfl
      have := (hr.headerRank_of_once hc hm).1
      omega
    · have := hr.headerRank_le hc
      omega

/-- A kind with a last rank occurs at most once. -/
theorem length_filter_kind_le_one (h : Run k c ss d) (hc : Stacked n c.state c.stack)
    (hm : kind.lastRank? = some m) :
    (ss.filter fun s => s.token.kind = kind).length ≤ 1 := by
  induction h generalizing n with
  | nil => exact Nat.zero_le 1
  | @cons c d s ss head tail ih =>
    obtain ⟨r, hr⟩ := exists_rule_of_step? head
    by_cases hkind : s.token.kind = kind
    · -- behind this token the run is past the last rank, so no other one follows
      have hrank := (hr.headerRank_of_once hc (hkind ▸ hm)).2
      have hnone := tail.kind_ne_of_lt (hr.stacked hc) hm hrank
      have hnil : (ss.filter fun s => s.token.kind = kind) = [] :=
        List.filter_eq_nil_iff.2 fun s hs => by simpa using hnone s hs
      rw [List.filter_cons, hnil]
      split <;> simp
    · rw [List.filter_cons, if_neg (by simpa using hkind)]
      exact ih (hr.stacked hc)

end Cursor.Run

/-- A note has at most one token of each kind that belongs to the header and is no folder, and at
most one reaction. -/
theorem tokenize_once (k : Keywords) (note : Text) {kind : TokenKind} {m : Nat}
    (hm : kind.lastRank? = some m) :
    ((tokenize k note).filter fun t => t.kind = kind).length ≤ 1 := by
  obtain ⟨d, hrun, -⟩ := Cursor.run_steps k note
  have h := hrun.length_filter_kind_le_one (.empty rfl) hm
  rwa [tokenize, List.filter_map, List.length_map]

end Jot
