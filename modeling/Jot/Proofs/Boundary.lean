import Jot.Proofs.Run

/-!
# Jot — where tokens end

The rules of a state are tried in order, and white space and stretches without white space are
taken as a whole.  So the character behind such a token is known, and with it, at times, the rule
of the next step.

* `firstMatch?_eq_some_iff` — what it means to be the first rule that matches;
* `Cursor.by_of_rule` — the first rule that matches does the step;
* `Step.By.pattern_of_kind` — the pattern by which a token of some kind is read;
* `Step.By.text_eq_takeWhile` — a run of characters ends where its class ends;
* `Step.By.startsIn_of_space`, `Step.By.startsIn_of_symbol` — what stands behind the token.
-/

namespace Jot

-- ---------------------------------------------------------------------------
-- The first character of a text
-- ---------------------------------------------------------------------------

/-- A text is empty or begins with a character of a class. -/
def Text.StartsIn (p : Char → Bool) (t : Text) : Prop := ∀ c ∈ t.head?, p c = true

namespace Text

variable {p : Char → Bool} {c : Char} {s t : Text}

@[simp] theorem startsIn_nil : StartsIn p [] := fun _ h => nomatch h

@[simp] theorem startsIn_cons : StartsIn p (c :: t) ↔ p c = true := by
  simp [StartsIn]

/-- Where a class is left out, something else follows. -/
theorem startsIn_dropWhile (p : Char → Bool) (t : Text) :
    StartsIn (fun c => !p c) (t.dropWhile p) := by
  intro c hc
  have h := List.head?_dropWhile_not p t
  rw [Option.mem_def.1 hc] at h
  simpa using h

/-- Characters of a class are taken up to where something else begins. -/
theorem takeWhile_append_of_startsIn (hs : ∀ c ∈ s, p c = true)
    (ht : StartsIn (fun c => !p c) t) : (s ++ t).takeWhile p = s := by
  rw [List.takeWhile_append_of_pos hs]
  cases t with
  | nil => exact List.append_nil s
  | cons c t =>
    have hc : ¬p c = true := by simpa using ht
    rw [List.takeWhile_cons_of_neg hc, List.append_nil]

/-- Behind characters of a class the text is left that begins with something else. -/
theorem dropWhile_append_of_startsIn (hs : ∀ c ∈ s, p c = true)
    (ht : StartsIn (fun c => !p c) t) : (s ++ t).dropWhile p = t := by
  rw [List.dropWhile_append_of_pos hs]
  cases t with
  | nil => rfl
  | cons c t =>
    have hc : ¬p c = true := by simpa using ht
    exact List.dropWhile_cons_of_neg hc

end Text

-- ---------------------------------------------------------------------------
-- The rule of a step
-- ---------------------------------------------------------------------------

section Rules

variable {k : Keywords} {c : Cursor} {s : Step} {r : Rule} {pre post : List Rule} {t : Text}
  {n : Nat}

/-- A choice is that of the first rule that matches. -/
theorem firstMatch?_eq_some_iff {rules : List Rule} {choice : Choice} :
    firstMatch? rules t = some choice ↔
      ∃ pre r post n, rules = pre ++ r :: post ∧ (∀ q ∈ pre, q.pattern.take? t = none) ∧
        r.pattern.take? t = some n ∧ choice = ⟨n, r.emit, r.transition⟩ := by
  rw [firstMatch?, List.findSome?_eq_some_iff]
  simp only [Option.map_eq_some_iff, Option.map_eq_none_iff]
  constructor
  · rintro ⟨pre, r, post, hrules, ⟨n, hr, rfl⟩, hpre⟩
    exact ⟨pre, r, post, n, hrules, hpre, hr, rfl⟩
  · rintro ⟨pre, r, post, n, hrules, hpre, hr, rfl⟩
    exact ⟨pre, r, post, hrules, ⟨n, hr, rfl⟩, hpre⟩

/-- The first rule that matches decides. -/
theorem State.choose_of_rule {state : State} (hrules : state.rules = pre ++ r :: post)
    (hpre : ∀ q ∈ pre, q.pattern.take? t = none) (hr : r.pattern.take? t = some n) :
    state.choose t = ⟨n, r.emit, r.transition⟩ := by
  have hfirst := firstMatch?_eq_some_iff.2 ⟨pre, r, post, n, hrules, hpre, hr, rfl⟩
  rw [State.choose, hfirst, Option.getD_some]

/-- The first rule that matches is the one by which the step is made. -/
theorem Cursor.by_of_rule (h : c.step? k = some s) (hrules : c.state.rules = pre ++ r :: post)
    (hpre : ∀ q ∈ pre, q.pattern.take? c.rest = none) (hr : r.pattern.take? c.rest = some n) :
    s.By k c r :=
  by_of_choose h (hrules ▸ List.mem_append_right pre List.mem_cons_self) hr
    (State.choose_of_rule hrules hpre hr)

end Rules

-- ---------------------------------------------------------------------------
-- The pattern of a token
-- ---------------------------------------------------------------------------

/-- The pattern by which tokens of a kind are read, in whatever state.  Nodes are not read by the
lexer, and errors by more than one pattern. -/
def TokenKind.pattern? : TokenKind → Option Pattern
  | word | todo | done => some .symbol
  | space => some .whitespace
  | pin => some .pin
  | date => some .dateTime
  | folder => some .folder
  | tag => some .tag
  | mention => some .mention
  | cell => some .cell
  | event => some .event
  | url => some .url
  | bean => some .bean
  | linkOpen => some .link
  | href | title | imageSource | imageTitle => some .quotedName
  | formulaOpen => some .formulaOpen
  | operator => some .operator
  | arg => some .argument
  | lparen => some .lparen
  | rparen => some .rparen
  | reactionOpen => some .reactionOpen
  | reactionClose => some .reactionClose
  | textBlob => some .textBlob
  | error | formula | link | reaction => none

/-- A token of a kind was read by the pattern of the kind. -/
theorem Step.By.pattern_of_kind {k : Keywords} {c : Cursor} {r : Rule} {s : Step}
    (h : s.By k c r) {p : Pattern} (hp : s.token.kind.pattern? = some p) : r.pattern = p :=
  State.forall_rules
    (P := fun _ r => ∀ kind ∈ r.emit.kinds, ∀ p ∈ kind.pattern?, r.pattern = p)
    (by decide) h.rule _ h.kind_mem p hp

-- ---------------------------------------------------------------------------
-- Runs of characters
-- ---------------------------------------------------------------------------

/-- A repetition takes all characters of its class, and at least one. -/
theorem Recognizer.many1_eq_some_iff {p : Char → Bool} {t : Text} {n : Nat} :
    many1 p t = some n ↔ 0 < n ∧ (t.takeWhile p).length = n := by
  unfold many1
  cases (t.takeWhile p).length with
  | zero => simp only [reduceCtorEq, false_iff]; omega
  | succ m => simp only [Option.some_inj]; omega

/-- A pattern takes what it recognises, unless that is empty. -/
theorem Pattern.take?_eq_some_iff {p : Pattern} {t : Text} {n : Nat} :
    p.take? t = some n ↔ p.recognizer t = some n ∧ 0 < n := by
  rw [take?, Option.filter_eq_some_iff, decide_eq_true_eq]

/-- Where white space is next, its pattern takes some of it. -/
theorem Pattern.take?_whitespace_of_startsIn {t : Text} (ht : t ≠ []) (h : t.StartsIn isBlank) :
    ∃ m, Pattern.whitespace.take? t = some m := by
  obtain ⟨x, t, rfl⟩ := List.exists_cons_of_ne_nil ht
  obtain ⟨m, hm, htake⟩ := Recognizer.many1_isSome (Text.startsIn_cons.1 h) t
  exact exists_take? hm htake

namespace Step.By

variable {k : Keywords} {c : Cursor} {s : Step} {r : Rule} {p : Char → Bool}

/-- A token that is a run of a class is all of that run. -/
theorem text_eq_takeWhile (h : s.By k c r) (hp : r.pattern.recognizer = Recognizer.many1 p) :
    s.token.text = c.rest.takeWhile p := by
  have htake := h.take
  rw [Pattern.take?, hp, Option.filter_eq_some_iff] at htake
  have hlen := (Recognizer.many1_eq_some_iff.1 htake.1).2
  -- both are at the start of what is left, and they are of one length
  have htext : s.token.text <+: c.rest := ⟨s.after.rest, h.rest.symm⟩
  exact (List.prefix_of_prefix_length_le htext (List.takeWhile_prefix p)
    (Nat.le_of_eq hlen.symm)).eq_of_length hlen.symm

/-- What follows such a token is what follows the run. -/
theorem rest_eq_dropWhile (h : s.By k c r) (hp : r.pattern.recognizer = Recognizer.many1 p) :
    s.after.rest = c.rest.dropWhile p := by
  have hrest := h.rest
  rw [h.text_eq_takeWhile hp] at hrest
  have hsplit : c.rest.takeWhile p ++ c.rest.dropWhile p = c.rest :=
    List.takeWhile_append_dropWhile
  exact (List.append_cancel_left (hsplit.trans hrest)).symm

theorem pattern_of_space (h : s.By k c r) (hk : s.token.kind = .space) :
    r.pattern = .whitespace :=
  h.pattern_of_kind (by rw [hk]; rfl)

theorem text_of_space (h : s.By k c r) (hk : s.token.kind = .space) :
    s.token.text = c.rest.takeWhile isBlank :=
  h.text_eq_takeWhile (by rw [h.pattern_of_space hk]; rfl)

theorem startsIn_of_space (h : s.By k c r) (hk : s.token.kind = .space) :
    s.after.rest.StartsIn fun x => !isBlank x := by
  rw [h.rest_eq_dropWhile (p := isBlank) (by rw [h.pattern_of_space hk]; rfl)]
  exact Text.startsIn_dropWhile isBlank c.rest

/-- A token of white space is not empty, so it is only read where there is some. -/
theorem not_startsIn_of_space (h : s.By k c r) (hk : s.token.kind = .space) :
    ¬c.rest.StartsIn fun x => !isBlank x := by
  intro hstart
  refine h.text_ne_nil ?_
  rw [h.text_of_space hk]
  cases hrest : c.rest with
  | nil => rfl
  | cons x t =>
    rw [hrest, Text.startsIn_cons] at hstart
    have hx : ¬isBlank x = true := by simpa using hstart
    exact List.takeWhile_cons_of_neg hx

/-- A token of a single character is that character. -/
theorem text_of_char {a : Char} (h : s.By k c r) (hp : r.pattern.recognizer = Recognizer.char a) :
    s.token.text = [a] := by
  have htake := h.take
  rw [Pattern.take?, hp, h.rest] at htake
  cases htext : s.token.text with
  | nil => exact absurd htext h.text_ne_nil
  | cons x t =>
    rw [htext, List.cons_append] at htake
    -- the token has a first character, and no other one could have been taken
    by_cases hx : x = a
    · simp [Recognizer.char, Recognizer.one, hx] at htake
      rw [hx, htake]
    · simp [Recognizer.char, Recognizer.one, hx] at htake

/-- A parenthesis that opens is written as such. -/
theorem text_of_lparen (h : s.By k c r) (hk : s.token.kind = .lparen) : s.token.text = ['('] :=
  h.text_of_char (by rw [h.pattern_of_kind (p := .lparen) (by rw [hk]; rfl)]; rfl)

/-- Behind a stretch without white space there is white space, or nothing. -/
theorem startsIn_of_symbol (h : s.By k c r) (hp : r.pattern = .symbol) :
    s.after.rest.StartsIn isBlank := by
  rw [h.rest_eq_dropWhile (p := fun x => !isBlank x) (by rw [hp]; rfl)]
  -- what is not of the class of non-blanks is blank
  have hstart := Text.startsIn_dropWhile (fun x => !isBlank x) c.rest
  intro x hx
  simpa using hstart x hx

end Step.By

end Jot
