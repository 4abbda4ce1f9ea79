import Jot.Proofs.Agreement
import Jot.Proofs.Expression.Words
import Jot.Proofs.WhiteSpace
import Jot.Proofs.Written.Label
import Jot.Proofs.Written.Lexing
import Jot.Proofs.Written.Marker

/-!
# Jot — where labels end

A label without quotes ends at the white space below U+1000.  The wide white space, from U+1000 on,
is among the characters of labels and goes on in them; it is read as white space only behind a label
that can take no more.  White space that is read behind a label ends what the label is written for.

* `TokenKind.spells_expression` — without quotes, labelled tokens have no white space below U+1000;
* `Cursor.Run.labelsEnd` — what follows a label along a run of the lexer;
* `labelsEnd_and_swallows_iff` — where labels end, and which white space is part of labels.
-/

namespace Jot

variable {k : Keywords} {c d : Cursor} {r : Rule} {s : Step} {ss : List Step} {n : Nat}

-- ---------------------------------------------------------------------------
-- White space inside labels
-- ---------------------------------------------------------------------------

/-- The tokens that are written for a label. -/
def TokenKind.isLabelled : TokenKind → Bool
  | tag | mention | folder | event | bean | cell | arg => true
  | _ => false

/-- No white space but the wide one. -/
def BlankOnlyWide (c : Char) : Prop := isBlank c = true → 0x1000 ≤ c.toNat

/-- Behind the first character of a label the only white space is the wide one. -/
theorem blankOnlyWide_of_isTail {c : Char} (hc : Label.isTail c = true) : BlankOnlyWide c := by
  intro hblank
  have halpha : c.isAlpha = false := isAlpha_eq_false_of_isBlank hblank
  have hdigit : c.isDigit = false :=
    Recognizer.isDigit_eq_false_of_separator (by rw [hblank]; rfl)
  have hsign (a : Char) (ha : isBlank a = false) : (c == a) = false :=
    Recognizer.ne_of_isBlank ha c hblank
  simp only [Label.isTail, Label.isLead, halpha, hdigit, hsign '$' rfl, hsign '-' rfl,
    hsign '_' rfl, Bool.or_false, Bool.or_eq_true, Bool.and_eq_true, beq_iff_eq,
    decide_eq_true_eq] at hc
  simp only [isBlank, Bool.or_eq_true, Bool.and_eq_true, beq_iff_eq, decide_eq_true_eq] at hblank
  omega

theorem BlankOnlyWide.of_not_blank {c : Char} (hc : isBlank c = false) : BlankOnlyWide c := by
  intro hblank
  rw [hc] at hblank
  contradiction

namespace Regex

theorem spells_wide_char {a : Char} (ha : isBlank a = false) : Spells BlankOnlyWide (char a) :=
  spells_char (.of_not_blank ha)

theorem spells_wide_label : Spells BlankOnlyWide label :=
  spells_label fun _ hc => blankOnlyWide_of_isTail hc

/-- A choice of two characters that are not blank spells no narrow white space. -/
theorem spells_wide_sign {a b : Char} (ha : isBlank a = false) (hb : isBlank b = false) :
    Spells BlankOnlyWide (one fun c => c == a || c == b) := by
  refine spells_one fun c hc => ?_
  rw [Bool.or_eq_true, beq_iff_eq, beq_iff_eq] at hc
  rcases hc with rfl | rfl
  · exact .of_not_blank ha
  · exact .of_not_blank hb

/-- A number spells no narrow white space, in whatever form it is written. -/
theorem spells_wide_number : Spells BlankOnlyWide number := by
  have hdigit : Spells BlankOnlyWide digit :=
    spells_one fun c hc => blankOnlyWide_of_isTail (by simp [Label.isTail, hc])
  have hpoint : Spells BlankOnlyWide (optional (char '.')) :=
    spells_optional (spells_wide_char rfl)
  have hexponent := spells_seq (spells_wide_sign (a := 'e') (b := 'E') rfl rfl)
    (spells_seq (spells_optional (spells_wide_sign (a := '+') (b := '-') rfl rfl))
      (spells_seq (spells_plus hdigit) spells_empty))
  have hfraction := spells_seq (spells_star hdigit)
    (spells_seq hpoint (spells_seq (spells_plus hdigit) spells_empty))
  have hwhole := spells_seq (spells_plus hdigit)
    (spells_seq hpoint (spells_seq (spells_star hdigit) spells_empty))
  exact spells_seq (spells_alt hfraction hwhole) (spells_optional hexponent)

theorem spells_wide_signedNumber : Spells BlankOnlyWide signedNumber :=
  spells_seq (spells_optional (spells_wide_char rfl)) spells_wide_number

theorem spells_wide_ellipsis : Spells BlankOnlyWide ellipsis :=
  spells_alt (spells_wide_char rfl) (spells_times (spells_wide_char rfl) 3)

end Regex

open Regex in
/-- Without quotes, the tokens of labels have no white space below U+1000. -/
theorem TokenKind.spells_expression {kind : TokenKind} (h : kind.isLabelled = true) :
    ∃ e, kind.expression? = some e ∧ Spells BlankOnlyWide e := by
  have hlabel := spells_wide_label
  cases kind with
  | tag | mention => exact ⟨_, rfl, spells_seq (spells_wide_char rfl) hlabel⟩
  | folder => exact ⟨_, rfl, spells_seq (spells_wide_char rfl) (spells_optional hlabel)⟩
  | event =>
    have hopen := spells_seq (spells_wide_char (a := '!') rfl)
      (spells_seq hlabel (spells_seq (spells_optional spells_wide_ellipsis) spells_empty))
    exact ⟨_, rfl, spells_alt hopen (spells_seq spells_wide_ellipsis hlabel)⟩
  | bean =>
    have hamount := spells_optional
      (spells_seq (spells_wide_char (a := ':') rfl) spells_wide_number)
    exact ⟨_, rfl, spells_seq (spells_wide_sign rfl rfl)
      (spells_seq hlabel (spells_seq hamount spells_empty))⟩
  | cell =>
    have hamount := spells_optional (spells_seq (spells_wide_char (a := ':') rfl)
      (spells_optional spells_wide_signedNumber))
    have hunit := spells_optional (spells_seq (spells_wide_char (a := ',') rfl) hlabel)
    exact ⟨_, rfl, spells_seq (spells_wide_char rfl)
      (spells_seq hlabel (spells_seq hamount (spells_seq hunit spells_empty)))⟩
  | arg =>
    exact ⟨_, rfl, spells_alt hlabel
      (spells_alt spells_wide_signedNumber (spells_wide_char rfl))⟩
  | _ => contradiction

/-- A labelled token of a note that has no quotes has no white space below U+1000. -/
theorem le_toNat_of_isBlank {note : Text} {t : Token} (ht : t ∈ tokenize k note)
    (hlabel : t.kind.isLabelled = true) (hquote : '"' ∉ t.text) {x : Char} (hx : x ∈ t.text)
    (hblank : isBlank x = true) : 0x1000 ≤ x.toNat := by
  obtain ⟨e, he, hspells⟩ := TokenKind.spells_expression hlabel
  exact hspells t.text (matches_of_mem_tokenize ht he) hquote x hx hblank

-- ---------------------------------------------------------------------------
-- White space behind labels
-- ---------------------------------------------------------------------------

/-- The states behind a label that is not an argument. -/
def State.isBehindLabel : State → Bool
  | folder | marked _ => true
  | _ => false

/-- Behind the label that is read in `s`, white space is read in `s'` and ends what the label is
written for. -/
structure Step.EndsLabel (s s' : Step) : Prop where
  space   : s'.token.kind = .space
  outside : s.token.kind ≠ .arg → s'.after.state = .prose ∨ s'.after.state = .folderEnd
  /-- An argument ends, but the formula goes on. -/
  inside  : s.token.kind = .arg → s'.after.state = s.after.state

/-- White space behind a label is read as such, and leads out of what the label is written for. -/
theorem Step.By.endsLabel {s' : Step} (h : s.By k c r) (hc : Stacked n c.state c.stack)
    (hlabel : s.token.kind.isLabelled = true) (h' : s.after.step? k = some s')
    (hblank : s'.token.text.StartsIn isBlank) : s.EndsLabel s' := by
  have hbehind := h.relates
    (Q := fun _ kind _ t => kind.isLabelled = true → t ≠ .reaction ∧
      (kind ≠ .arg → t.isBehindLabel = true) ∧ (kind = .arg → t.isFormula = true))
    (by decide) hc hlabel
  obtain ⟨r', hr'⟩ := Cursor.exists_rule_of_step? h'
  have hrest : s.after.rest.StartsIn isBlank := by
    intro x hx
    refine hblank x ?_
    rw [hr'.rest, List.head?_append_of_ne_nil _ hr'.text_ne_nil] at hx
    exact hx
  -- no state but that of a reaction has a rule in front of white space that matches it
  have hspace := Cursor.by_space h' hbehind.1 hrest
  have hkind : s'.token.kind = .space := congrArg Prod.fst hspace.read
  have hends := hspace.relates
    (Q := fun s kind _ t => kind = .space →
      (s.isBehindLabel = true → t = .prose ∨ t = .folderEnd) ∧ (s.isFormula = true → t = s))
    (by decide) (h.stacked hc) hkind
  exact ⟨hkind, fun hne => hends.1 (hbehind.2.1 hne), fun harg => hends.2 (hbehind.2.2 harg)⟩

-- ---------------------------------------------------------------------------
-- Labels that go on
-- ---------------------------------------------------------------------------

/-- Each lexeme of a list becomes a token of the same kind and text. -/
theorem Token.exists_mem_layout {l : Lexeme} {ls : List Lexeme} (hl : l ∈ ls) (p : Place) :
    ∃ t ∈ layout p ls, t.kind = l.1 ∧ t.text = l.2 := by
  induction ls generalizing p with
  | nil => contradiction
  | cons m ls ih =>
    rcases List.mem_cons.1 hl with rfl | hl
    · exact ⟨_, List.mem_cons_self, rfl, rfl⟩
    · obtain ⟨t, ht, h⟩ := ih hl (p.after m.2)
      exact ⟨t, List.mem_cons_of_mem _ ht, h⟩

/-- The character `x` is part of a token of the kind `kind` that has no quotes. -/
def PartOf (k : Keywords) (kind : TokenKind) (x : Char) : Prop :=
  ∃ note, ∃ t ∈ tokenize k note, t.kind = kind ∧ '"' ∉ t.text ∧ x ∈ t.text

/-- A character is part of a token if the lexer reads a lexeme with it from the start of a note. -/
theorem Cursor.Lexes.partOf {note t : Text} {kind : TokenKind} {ls : List Lexeme} {x : Char}
    (h : Lexes k (start note) ls d) (hl : (kind, t) ∈ ls) (hquote : '"' ∉ t) (hx : x ∈ t) :
    PartOf k kind x := by
  obtain ⟨u, hu, hkind, htext⟩ := Token.exists_mem_layout hl Place.start
  refine ⟨note, u, ?_, hkind, htext ▸ hquote, htext ▸ hx⟩
  rw [h.tokenize]
  exact List.mem_append_left _ hu

section

variable {x : Char} (hx : Label.isTail x = true)

include hx

/-- Behind a letter, a character of labels is taken with it. -/
theorem Label.takes_behind : Recognizer.Takes recognize ['a', x] [] := by
  let b : Written.Bare := ⟨'a', [x], rfl, List.forall_mem_singleton.2 hx, Nat.le_add_left 1 17⟩
  exact b.takes (.inr Text.startsIn_nil)

/-- A label of a letter and a character of labels brings no quote with it. -/
theorem Label.quote_not_mem_behind (lead : Text) (h : '"' ∉ lead) : '"' ∉ lead ++ ['a', x] := by
  have hne : '"' ≠ x := by
    rintro rfl
    contradiction
  simp [h, hne]

open Recognizer in
/-- A marker can be written with a label of two characters. -/
theorem Marker.exists_take? {m : Marker} (hm : m ≠ .url) :
    ∃ o ∈ m.openers, '"' ∉ [o] ∧ m.pattern.take? [o, 'a', x] = some 3 := by
  have hlabel : Recognizer.Takes Label.recognize ['a', x] [] := Label.takes_behind hx
  have hwhole {p : Pattern} {o : Char} (h : Recognizer.Takes p.recognizer [o, 'a', x] []) :
      p.take? [o, 'a', x] = some 3 :=
    Pattern.take?_eq_some_iff.2 ⟨h, Nat.succ_pos 2⟩
  -- an amount and a unit behind the label are left out, as is an ellipsis
  cases m with
  | url => contradiction
  | tag => exact ⟨'#', by decide, by decide, hwhole (takes_both (v := ['#']) rfl hlabel)⟩
  | mention => exact ⟨'@', by decide, by decide, hwhole (takes_both (v := ['@']) rfl hlabel)⟩
  | bean =>
    refine ⟨'+', by decide, by decide, hwhole ?_⟩
    exact takes_both (v := ['+']) rfl (takes_both (v := ['a', x]) (w := []) hlabel rfl)
  | cell =>
    refine ⟨'%', by decide, by decide, hwhole ?_⟩
    exact takes_both (v := ['%']) rfl (takes_both (v := ['a', x]) (w := []) hlabel rfl)
  | event =>
    refine ⟨'!', by decide, by decide, hwhole (takes_firstOf ?_)⟩
    exact takes_both (v := ['!']) rfl (takes_both (v := ['a', x]) (w := []) hlabel rfl)

/-- What goes on in a bare label is part of the token of a marker. -/
theorem Marker.partOf (k : Keywords) {m : Marker} (hm : m ≠ .url) :
    PartOf k m.tokenKind x := by
  obtain ⟨o, ho, hquote, htake⟩ := m.exists_take? hx hm
  obtain ⟨post, hrules⟩ := m.exists_rules_start
  have hlexes : Cursor.Lexes k (Cursor.start ([o, 'a', x] ++ [])) [(m.tokenKind, [o, 'a', x])]
      ⟨[], Place.start.after [o, 'a', x], .marked m, [.start]⟩ :=
    Cursor.lexes_of_rule m.before (Rule.mark m) hrules (take?_before ho _) htake rfl rfl
  exact hlexes.partOf List.mem_cons_self (Label.quote_not_mem_behind hx [o] hquote) (by simp)

/-- At the start of a note folders are read. -/
theorem folder_partOf (k : Keywords) : PartOf k .folder x := by
  have htake : Pattern.folder.take? (['/', 'a', x] ++ []) = some 3 := by
    refine Pattern.take?_eq_some_iff.2 ⟨?_, Nat.succ_pos 2⟩
    exact Recognizer.takes_both (v := ['/']) rfl
      (Recognizer.takes_optional (Label.takes_behind hx))
  have hlexes : Cursor.Lexes k (Cursor.start (['/', 'a', x] ++ [])) [(.folder, ['/', 'a', x])] _ :=
    Cursor.lexes_of_rule [⟨.pin, _, _⟩, Rule.dateTime] (Rule.folder (.next .folder)) rfl
      (List.forall_mem_cons.2 ⟨rfl, List.forall_mem_singleton.2 rfl⟩) htake rfl rfl
  exact hlexes.partOf List.mem_cons_self
    (Label.quote_not_mem_behind hx ['/'] (by decide)) (by simp)

/-- The name of a formula is an argument. -/
theorem arg_partOf (k : Keywords) : PartOf k .arg x := by
  have htake : Pattern.argument.take? (['a', x] ++ []) = some 2 := by
    have hlabel : Recognizer.Takes Pattern.argument.recognizer ['a', x] [] :=
      Recognizer.takes_firstOf (Label.takes_behind hx)
    exact Pattern.take?_eq_some_iff.2 ⟨hlabel, Nat.succ_pos 1⟩
  have hopen : Cursor.Lexes k ⟨['('] ++ ['a', x], Place.start.after ['$', '$'], .formula .opened,
      [.start]⟩ [(.lparen, ['('])] _ :=
    Cursor.lexes_of_rule [] (Rule.lparen (.next (.formula .name))) rfl (List.forall_mem_nil _)
      rfl rfl rfl
  have hname := (Written.lexes_formulaOpen.append hopen).append
    (Cursor.lexes_of_rule [Rule.rparen _, Rule.space _] (Rule.arg (.next (.formula .nameEnd))) rfl
      (List.forall_mem_cons.2 ⟨rfl, List.forall_mem_singleton.2 rfl⟩) htake rfl rfl)
  exact hname.partOf (by simp) (Label.quote_not_mem_behind hx [] (by decide)) (by simp)

end

/-- Whatever goes on in a bare label is part of labels of each kind. -/
theorem partOf_of_isTail (k : Keywords) {kind : TokenKind} (h : kind.isLabelled = true)
    {x : Char} (hx : Label.isTail x = true) : PartOf k kind x := by
  cases kind with
  | tag => exact Marker.partOf (m := .tag) hx k (by decide)
  | mention => exact Marker.partOf (m := .mention) hx k (by decide)
  | cell => exact Marker.partOf (m := .cell) hx k (by decide)
  | event => exact Marker.partOf (m := .event) hx k (by decide)
  | bean => exact Marker.partOf (m := .bean) hx k (by decide)
  | folder => exact folder_partOf hx k
  | arg => exact arg_partOf hx k
  | _ => contradiction

-- ---------------------------------------------------------------------------
-- Notes
-- ---------------------------------------------------------------------------

/-- White space directly behind a label is read as such and ends it, all along the steps `ss`. -/
def LabelsEnd (ss : List Step) : Prop :=
  ∀ s s', [s, s'] <:+: ss → s.token.kind.isLabelled = true → s'.token.text.StartsIn isBlank →
    s.EndsLabel s'

/-- Along a run of the lexer white space behind a label ends it. -/
theorem Cursor.Run.labelsEnd (h : Run k c ss d) (hc : Stacked n c.state c.stack) :
    LabelsEnd ss := by
  rintro s s' ⟨before, behind, rfl⟩ hlabel hblank
  rw [List.append_assoc] at h
  obtain ⟨b, hbefore, hpair⟩ := run_append_iff.1 h
  obtain ⟨m, hb⟩ := hbefore.stacked hc
  obtain ⟨r, hr, hnext⟩ := hpair.uncons
  cases hnext with
  | cons head _ => exact hr.endsLabel hb hlabel head hblank

/-- White space `x` is part of a token that is written for a label without quotes. -/
structure Swallows (k : Keywords) (kind : TokenKind) (x : Char) : Prop where
  label  : kind.isLabelled = true
  blank  : isBlank x = true
  inside : PartOf k kind x

/-- **A bare label ends at white space, but not at the wide one.**  White space directly behind a
label ends what the label is written for; but labels without quotes, of whatever kind, have the
white space from U+1000 on inside, and no other. -/
theorem labelsEnd_and_swallows_iff (k : Keywords) :
    (∀ note, LabelsEnd (steps k note)) ∧
      ∀ kind x, Swallows k kind x ↔
        kind.isLabelled = true ∧ isBlank x = true ∧ 0x1000 ≤ x.toNat := by
  constructor
  · intro note
    obtain ⟨d, hrun, -⟩ := Cursor.run_steps k note
    exact hrun.labelsEnd (.empty rfl)
  · intro kind x
    constructor
    · rintro ⟨hlabel, hblank, note, t, ht, rfl, hquote, hx⟩
      exact ⟨hlabel, hblank, le_toNat_of_isBlank ht hlabel hquote hx hblank⟩
    · rintro ⟨hlabel, hblank, hwide⟩
      have htail : Label.isTail x = true := by simp [Label.isTail, Label.isLead, hwide]
      exact ⟨hlabel, hblank, partOf_of_isTail k hlabel htail⟩

/-- The ideographic space does not end a tag. -/
theorem ideographic_space_in_tag :
    ∃ t ∈ tokenize Keywords.standard "#a\u3000b".toList,
      t.kind = .tag ∧ '"' ∉ t.text ∧ t.text.any isBlank = true := by
  decide +kernel

/-- It is white space behind a label of nineteen characters, and between words. -/
example :
    (tokenize Keywords.standard "#abcdefghijklmnopqrs\u3000b\u3000c".toList).map
        (fun t => (t.kind, t.text.length)) =
      [(.tag, 20), (.space, 1), (.word, 1), (.space, 1), (.word, 1)] := by
  decide +kernel

end Jot
