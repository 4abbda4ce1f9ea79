import Jot.Proofs.Errors

/-!
# Jot — what a construct owns

The readers of formulas, links and reactions look at any token list, also at one that the lexer
cannot produce.  Each answers exactly at its opener, and then takes nothing but its own tokens and
the error token that ended it, which it hands on.

* `Construct.read?_eq_none` — no answer anywhere else;
* `Construct.Reads.owned` — what a reader takes, and what it says about that;
* `Construct.read?_owned` — both together, for every token list.
-/

namespace Jot

theorem TokenKind.isAnnotation_of_isHeader {kind : TokenKind} (h : kind.isHeader = true) :
    kind.isAnnotation = true := by
  cases kind <;> first | rfl | contradiction

-- ---------------------------------------------------------------------------
-- Openers
-- ---------------------------------------------------------------------------

/-- The call of a formula, once the group of its name has been read. -/
def Formula.Setup.procedure (g : Setup) : Reading (Option Call) :=
  if g.closed then readProcedure g.consumed g.rest else ⟨g.consumed, none, g.error⟩

/-- What the reader of formulas answers at the sign of a formula, from the two groups behind it. -/
theorem Formula.read?_of_opener {t : Token} (ht : t.kind = .formulaOpen) (ts : List Token) :
    Formula.read? (t :: ts) =
      some (Reading.ofTokens .formula
        (.formula ⟨(readSetup 1 none ts).name, (readSetup 1 none ts).procedure.node⟩) (t :: ts)
        (readSetup 1 none ts).procedure.consumed (readSetup 1 none ts).procedure.error) :=
  congrArg (Option.map _) (if_pos ht)

/-- Both groups of a link, once the first one has been read. -/
def Link.Group.withImage (g : Group) : Group := if g.closed then readImage g else g

/-- What the reader of links answers at the bracket of a link. -/
theorem Link.read?_of_opener {t : Token} (ht : t.kind = .linkOpen) (ts : List Token) :
    Link.read? (t :: ts) =
      some (Reading.ofTokens .link (.link (readSetup 1 ts).withImage.link) (t :: ts)
        (readSetup 1 ts).withImage.consumed (readSetup 1 ts).withImage.error) :=
  congrArg (Option.map _) (if_pos ht)

/-- What the reader of reactions answers at a verb, which names the kind of the reaction. -/
theorem Reaction.read?_of_opener {t : Token} (ht : t.kind = .reactionOpen) (ts : List Token) :
    Reaction.read? (t :: ts) =
      some (Reading.ofTokens .reaction
        (.reaction ⟨ReactionKind.ofOpener? t.text, (readBody 1 [] ts).node⟩) (t :: ts)
        (readBody 1 [] ts).consumed (readBody 1 [] ts).error) :=
  if_pos ht

namespace Construct

variable {c : Construct} {t : Token} {tokens run rest : List Token} {r : Reading Token}

/-- A reader answers at no token but the opener of its construct. -/
theorem read?_eq_none (h : ∀ t ∈ tokens.head?, t.kind ≠ c.opener) : c.read? tokens = none := by
  cases tokens with
  | nil => cases c <;> rfl
  | cons t ts =>
    have ht : t.kind ≠ c.opener := h t rfl
    cases c with
    | formula | link => exact congrArg (Option.map _) (if_neg ht)
    | reaction => exact if_neg ht

/-- A reading begins with the opener. -/
theorem exists_cons_of_read? (h : c.read? tokens = some r) :
    ∃ t ts, tokens = t :: ts ∧ t.kind = c.opener := by
  cases tokens with
  | nil => cases c <;> contradiction
  | cons t ts =>
    by_cases ht : t.kind = c.opener
    · exact ⟨t, ts, rfl, ht⟩
    · rw [read?_eq_none (by simpa using ht)] at h
      contradiction

/-- The opener is taken, so a reading takes something. -/
theorem consumed_pos (h : c.read? tokens = some r) : 0 < r.consumed := by
  obtain ⟨t, ts, rfl, ht⟩ := exists_cons_of_read? h
  obtain ⟨taken, rest, x, rfl, hx⟩ := c.exists_reads ht ts
  obtain rfl : x = r := Option.some_inj.1 (hx.read.symm.trans h)
  rw [hx.consumed]
  exact Nat.succ_pos taken.length

/-- No construct takes the opener of another one. -/
theorem eq_of_takes_opener {d : Construct} (h : c.takes d.opener = true) : d = c := by
  cases c <;> cases d <;> first | rfl | contradiction

theorem takes_word (c : Construct) : c.takes .word = false := by
  cases c <;> rfl

-- ---------------------------------------------------------------------------
-- What a reader takes
-- ---------------------------------------------------------------------------

/-- The law of a reading at the front of a token list: it takes the opener, tokens of the construct,
and as the last one perhaps an error, and its node is made of exactly these. -/
structure Owned (c : Construct) (tokens : List Token) (r : Reading Token) : Prop where
  bounds     : 1 ≤ r.consumed ∧ r.consumed ≤ tokens.length
  kind       : r.node.kind = c.nodeKind
  place      : tokens.head?.map (·.toPlace) = some r.node.toPlace
  text       : r.node.text = (tokens.take r.consumed).flatMap (·.text)
  lineBreaks : r.node.lineBreaks = total (·.lineBreaks) (tokens.take r.consumed)
  takes      : ∀ t ∈ tokens.take r.consumed, c.takes t.kind = true
  spares     : ∀ t ∈ tokens.take r.consumed, t.kind ≠ .word ∧ t.kind.isHeader = false ∧
    t.kind.isAnnotation = false ∧ ∀ d : Construct, t.kind = d.opener → d = c
  error      : r.error.isSome = true ↔ ∃ t ∈ tokens.take r.consumed, t.kind = .error
  last       : ∀ e ∈ r.error, e.kind = .error ∧
    ∃ init, tokens.take r.consumed = init ++ [e] ∧ ∀ x ∈ init, x.kind ≠ .error

/-- What a construct takes is neither a word, nor an annotation, nor the opener of another
construct. -/
theorem spares_of_takes (h : c.takes t.kind = true) :
    t.kind ≠ .word ∧ t.kind.isHeader = false ∧ t.kind.isAnnotation = false ∧
      ∀ d : Construct, t.kind = d.opener → d = c := by
  have hannotation : t.kind.isAnnotation = false := by
    rw [← Bool.not_eq_true]
    intro hk
    rw [takes_eq_false hk] at h
    contradiction
  refine ⟨?_, ?_, hannotation, fun d hd => eq_of_takes_opener (hd ▸ h)⟩
  · intro hword
    rw [hword, c.takes_word] at h
    contradiction
  · rw [← Bool.not_eq_true]
    intro hk
    rw [TokenKind.isAnnotation_of_isHeader hk] at hannotation
    contradiction

/-- A reader hands on an error exactly if it took one. -/
theorem Reads.isSome_error_iff (h : c.Reads run rest r) :
    r.error.isSome = true ↔ ∃ t ∈ run, t.kind = .error := by
  obtain ⟨init, hinit, hne⟩ := h.exists_init
  constructor
  · intro hsome
    obtain ⟨e, he⟩ := Option.isSome_iff_exists.1 hsome
    exact ⟨e, by simp [hinit, he], h.error e he⟩
  · -- there is none among the tokens in front, so it is the one that was handed on
    rintro ⟨t, ht, hk⟩
    rw [hinit] at ht
    rcases List.mem_append.1 ht with ht | ht
    · exact absurd hk (hne t ht)
    · exact Option.isSome_of_mem (Option.mem_toList.1 ht)

/-- The tokens that a reader takes are as the law says. -/
theorem Reads.owned (h : c.Reads run rest r) : c.Owned (run ++ rest) r := by
  obtain ⟨t, front, hparts, -, -⟩ := h.parts
  obtain ⟨init, hinit, hne⟩ := h.exists_init
  have htake : (run ++ rest).take r.consumed = run := by rw [h.consumed, List.take_left]
  -- the error is the end of what was taken, so it stands behind a part without errors
  have hlast : ∀ e ∈ r.error, run = init ++ [e] := by
    intro e he
    rw [hinit, he]
    rfl
  exact {
    bounds     := by
      rw [h.consumed, List.length_append, hparts, List.length_cons]
      omega
    kind       := h.kind
    place      := by
      rw [h.place hparts, hparts]
      rfl
    text       := htake.symm ▸ h.text
    lineBreaks := htake.symm ▸ h.lineBreaks
    takes      := htake.symm ▸ h.takes
    spares     := htake.symm ▸ fun t ht => spares_of_takes (h.takes t ht)
    error      := htake.symm ▸ h.isSome_error_iff
    last       := htake.symm ▸ fun e he => ⟨h.error e he, init, hlast e he, hne⟩ }

-- ---------------------------------------------------------------------------
-- Answers
-- ---------------------------------------------------------------------------

/-- What the reader of a construct answers to a token list. -/
inductive Answer (c : Construct) (tokens : List Token) : Option (Reading Token) → Prop
  | refused (h : ∀ t ∈ tokens.head?, t.kind ≠ c.opener) : c.Answer tokens none
  | read {t : Token} {r : Reading Token} (head : tokens.head? = some t) (opener : t.kind = c.opener)
      (owned : c.Owned tokens r) : c.Answer tokens (some r)

/-- **A construct takes what it owns**, and answers exactly at its opener. -/
theorem read?_owned (c : Construct) (tokens : List Token) : c.Answer tokens (c.read? tokens) := by
  by_cases hhead : ∀ t ∈ tokens.head?, t.kind ≠ c.opener
  · rw [read?_eq_none hhead]
    exact .refused hhead
  · cases tokens with
    | nil => exact absurd (fun t ht => by contradiction) hhead
    | cons t ts =>
      have ht : t.kind = c.opener := by simpa using hhead
      obtain ⟨taken, rest, r, rfl, h⟩ := c.exists_reads ht ts
      have howned := h.owned
      rw [List.cons_append] at howned
      rw [← List.cons_append, h.read]
      exact .read rfl ht howned

end Construct

end Jot
