import Jot.Proofs.Delimiter
import Jot.Proofs.Truncation

/-!
# Jot — white space

Hardly any pattern matches where a text begins with white space, and the few that may are tried
behind the one for white space or where nothing else is expected.  So outside a reaction the lexer
reads white space as white space wherever a token ends in front of it.

* `Pattern.rejectsBlank` — the patterns that match no text with a blank in front;
* `State.rules_eq_beforeSpace` — every state but that of reactions has a rule for white space;
* `Cursor.by_space` — where a blank is next, that rule is the one that is taken.
-/

namespace Jot

-- ---------------------------------------------------------------------------
-- Recognisers at white space
-- ---------------------------------------------------------------------------

/-- No letter is a blank, by their code points. -/
theorem isAlpha_eq_false_of_isBlank {c : Char} (hc : isBlank c = true) : c.isAlpha = false := by
  rw [Bool.eq_false_iff]
  intro halpha
  have hletter : (decide (c.val ≥ 'A'.val ∧ c.val ≤ 'Z'.val) ||
      (decide (c.val ≥ 'a'.val) && decide (c.val ≤ 'z'.val))) = true := halpha
  simp [UInt32.le_iff_toNat_le] at hletter
  simp [isBlank] at hc
  have hval : c.val.toNat = c.toNat := rfl
  omega

namespace Recognizer

/-- Takes nothing of a text that begins with a blank. -/
def RejectsBlank (r : Recognizer) : Prop := ∀ c t, isBlank c = true → r (c :: t) = none

variable {p : Char → Bool} {r s : Recognizer} {rs : List Recognizer} {a : Char} {lead : Text}

theorem rejectsBlank_one (h : ∀ c, isBlank c = true → p c = false) : RejectsBlank (one p) := by
  intro c t hc
  exact one_eq_none (Text.startsIn_cons.2 (by rw [h c hc]; rfl))

/-- No blank is the same as a character that is not blank. -/
theorem ne_of_isBlank (ha : isBlank a = false) : ∀ c, isBlank c = true → (c == a) = false := by
  intro c hc
  rw [beq_eq_false_iff_ne]
  rintro rfl
  rw [ha] at hc
  contradiction

theorem rejectsBlank_char (ha : isBlank a = false) : RejectsBlank (char a) :=
  rejectsBlank_one (ne_of_isBlank ha)

/-- A literal rejects blanks by its first character. -/
theorem rejectsBlank_literal (ha : isBlank a = false) : RejectsBlank (literal (a :: lead)) := by
  intro c t hc
  have hne : ¬a = c := fun h => by
    rw [h, hc] at ha
    contradiction
  exact congrArg (Option.map _) (if_neg hne)

/-- A sequence rejects what its first part does. -/
theorem rejectsBlank_both (hr : RejectsBlank r) (s : Recognizer) : RejectsBlank (both r s) :=
  fun c t hc => both_eq_none (hr c t hc)

/-- An alternative rejects what all of it does. -/
theorem rejectsBlank_firstOf (h : ∀ r ∈ rs, RejectsBlank r) : RejectsBlank (firstOf rs) := by
  intro c t hc
  induction rs with
  | nil => rfl
  | cons r rs ih =>
    obtain ⟨hr, hrs⟩ := List.forall_mem_cons.1 h
    show (r (c :: t)).or (firstOf rs (c :: t)) = none
    rw [hr c t hc, ih hrs, Option.none_or]

theorem rejectsBlank_digit : RejectsBlank (one Char.isDigit) :=
  rejectsBlank_one fun c hc => isDigit_eq_false_of_separator (by rw [hc]; rfl)

theorem rejectsBlank_ellipsis : RejectsBlank ellipsis := by
  refine rejectsBlank_firstOf (List.forall_mem_cons.2 ⟨rejectsBlank_char (by decide), ?_⟩)
  exact List.forall_mem_singleton.2 (rejectsBlank_literal (by decide))

end Recognizer

open Recognizer in
/-- Where a text begins with a blank, no pattern matches but those that may begin with one. -/
theorem Pattern.rejectsBlank {p : Pattern}
    (hp : p ∉ [whitespace, remainder, textBlob, argument]) : RejectsBlank p.recognizer := by
  -- it is the first part of a pattern that decides, so the rest of it is left open
  cases p with
  | whitespace | remainder | textBlob | argument => exact absurd (by decide) hp
  | symbol =>
    intro c t hc
    simp [recognizer, many1, hc]
  | dateTime =>
    exact rejectsBlank_both (rejectsBlank_both (rejectsBlank_both rejectsBlank_digit _) _) _
  | reactionOpen =>
    have hverbs : ∀ verb ∈ reactionVerbs, verb.head?.any (fun a => !isBlank a) = true := by decide
    refine rejectsBlank_both (rejectsBlank_firstOf fun r hr => ?_) _
    obtain ⟨verb, hverb, rfl⟩ := List.mem_map.1 hr
    obtain ⟨a, hhead, ha⟩ := (Option.any_eq_true _ _).1 (hverbs verb hverb)
    obtain ⟨lead, rfl⟩ := List.head?_eq_some_iff.1 hhead
    exact rejectsBlank_literal (by simpa using ha)
  | event =>
    refine rejectsBlank_firstOf (List.forall_mem_cons.2 ⟨?_, List.forall_mem_singleton.2 ?_⟩)
    · exact rejectsBlank_both (rejectsBlank_char (by decide)) _
    · exact rejectsBlank_both rejectsBlank_ellipsis _
  | url =>
    refine rejectsBlank_firstOf (List.forall_mem_cons.2 ⟨?_, List.forall_mem_singleton.2 ?_⟩)
    · exact rejectsBlank_both (rejectsBlank_one fun c hc => isAlpha_eq_false_of_isBlank hc) _
    · exact rejectsBlank_both (rejectsBlank_literal (by decide)) _
  | bean =>
    refine rejectsBlank_both (rejectsBlank_one fun c hc => ?_) _
    rw [ne_of_isBlank (by decide) c hc, ne_of_isBlank (by decide) c hc]
    rfl
  | pin | folder | tag | mention | cell =>
    exact rejectsBlank_both (rejectsBlank_char (by decide)) _
  | reactionClose | lparen | rparen => exact rejectsBlank_char (by decide)
  | link | formulaOpen => exact rejectsBlank_literal (by decide)
  | operator =>
    refine rejectsBlank_both (rejectsBlank_one fun c hc => ?_) _
    rw [isOperatorChar, hc]
    rfl
  | quotedName =>
    intro c t hc
    exact Quoted.nameOf_of_ne (beq_eq_false_iff_ne.1 (ne_of_isBlank (by decide) c hc)) t

-- ---------------------------------------------------------------------------
-- The rule for white space
-- ---------------------------------------------------------------------------

namespace State

/-- The rules of a state that are tried before the one for white space. -/
def beforeSpace (s : State) : List Rule := s.rules.takeWhile (·.pattern != .whitespace)

/-- Where the rule for white space leads. -/
def atSpace (s : State) : Transition :=
  ((s.rules.find? (·.pattern == .whitespace)).map Rule.transition).getD .stay

/-- In front of the body of a reaction there is no rule for white space, in all other states there
is. -/
theorem rules_eq_beforeSpace {s : State} (hs : s ≠ .reaction) :
    ∃ post, s.rules = s.beforeSpace ++ Rule.space s.atSpace :: post := by
  cases s with
  | reaction => contradiction
  | marked m => exact ⟨_, rfl⟩
  | formula s => cases s <;> exact ⟨_, rfl⟩
  | link s => cases s <;> exact ⟨_, rfl⟩
  | _ => exact ⟨_, rfl⟩

/-- The rules in front of it do not match a blank. -/
theorem take?_beforeSpace {s : State} (hs : s ≠ .reaction) {c : Char} (hc : isBlank c = true)
    (t : Text) : ∀ q ∈ s.beforeSpace, q.pattern.take? (c :: t) = none := by
  -- in the tables of rules only harmless patterns come first
  have table : ∀ s ∈ State.all, s ≠ .reaction → ∀ q ∈ s.beforeSpace,
      q.pattern ∉ [Pattern.whitespace, .remainder, .textBlob, .argument] := by
    decide
  intro q hq
  have hpattern := table s s.mem_all hs q hq
  exact congrArg (Option.filter _) (Pattern.rejectsBlank hpattern c t hc)

end State

/-- Outside a reaction white space is read where it is next. -/
theorem Cursor.by_space {k : Keywords} {c : Cursor} {s : Step} (h : c.step? k = some s)
    (hc : c.state ≠ .reaction) (hblank : c.rest.StartsIn isBlank) :
    s.By k c (Rule.space c.state.atSpace) := by
  obtain ⟨post, hrules⟩ := State.rules_eq_beforeSpace hc
  have hne : c.rest ≠ [] := rest_ne_nil_of_step? h
  obtain ⟨n, hn⟩ := Pattern.take?_whitespace_of_startsIn hne hblank
  refine by_of_rule h hrules ?_ hn
  obtain ⟨x, t, hrest⟩ := List.exists_cons_of_ne_nil hne
  rw [hrest, Text.startsIn_cons] at hblank
  rw [hrest]
  exact State.take?_beforeSpace hc hblank t

end Jot
