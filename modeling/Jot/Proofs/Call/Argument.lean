import Jot.Proofs.Spans
import Jot.Proofs.Truncation
import Jot.Proofs.Written.Label

/-!
# Jot — arguments of calls

What an argument stands for is decided in two places: the lexer takes the quotes away, and the
reader of calls, which sees what is left, puts in the digits of π.  So a name of π is read as the
number with quotes and without.  The arguments of a call that are no calls are, at all depths and
in order, what its argument tokens stand for.

* `Pattern.exists_unquotes` — an argument is a quoted text or stays as it is;
* `exists_means_of_mem_tokenize` — what an argument token stands for;
* `Level.gathers` — the arguments of a call and the argument tokens that it was read from;
* `parse_gathers` — the same for the formulas of a note.
-/

namespace Jot

-- ---------------------------------------------------------------------------
-- Quotes of an argument
-- ---------------------------------------------------------------------------

/-- What is written in an argument: the text between its quotes or, if there are none, all of it. -/
inductive Unquotes : Text → Text → Prop
  | quoted (body : Text) : Unquotes ('"' :: (body ++ ['"'])) body
  | bare {t : Text} (h : t.head? ≠ some '"') : Unquotes t t

/-- All of an argument is a quoted text, of which the quotes are taken away, or it is not quoted and
stays as it is. -/
theorem Pattern.exists_unquotes {t : Text} (h : Pattern.argument.take? t = some t.length) :
    ∃ body, Unquotes t body ∧ t.dequote = body := by
  obtain ⟨c, u, rfl⟩ := List.exists_cons_of_length_pos (take?_pos h)
  by_cases hc : c = '"'
  · subst hc
    rw [take?, recognizer_argument_of_quote, Option.filter_eq_some_iff] at h
    obtain ⟨q, rest, htext, hlen, -⟩ := Written.exists_quote_of_nameOf rfl h.1
    obtain rfl : rest = [] := by
      rw [htext, List.length_append] at hlen
      exact List.length_eq_zero_iff.1 (by omega)
    rw [htext, List.append_nil]
    exact ⟨q.content, .quoted q.content, q.dequote_print⟩
  · have hbare : Text.isQuoted (c :: u) = false := by
      rw [Text.isQuoted, Quoted.name, Quoted.nameOf_of_ne hc]
      rfl
    refine ⟨c :: u, .bare (by simpa using hc), ?_⟩
    rw [Text.dequote, hbare]
    rfl

-- ---------------------------------------------------------------------------
-- What an argument stands for
-- ---------------------------------------------------------------------------

/-- The names of π. -/
def piNames : List Text := ["🥧", "pi", "Pi", "pI", "PI"].map String.toList

/-- A character with a given lower case is that character or its upper case. -/
theorem eq_of_toLower_eq {c d : Char} (h : c.toLower = d) : c = d ∨ c = d.toUpper := by
  unfold Char.toLower at h
  split at h
  · next hc =>
    subst h
    have hlower : 'a'.val ≤ c.val + ('a'.val - 'A'.val) ∧
        c.val + ('a'.val - 'A'.val) ≤ 'z'.val := by
      simp only [UInt32.le_iff_toNat_le, UInt32.toNat_add, ge_iff_le] at hc ⊢
      simp at hc ⊢
      omega
    have hback : c.val + ('a'.val - 'A'.val) + ('A'.val - 'a'.val) = c.val := by
      rw [UInt32.add_assoc]
      exact UInt32.add_zero _
    right
    unfold Char.toUpper
    rw [dif_pos hlower]
    exact Char.ext hback.symm
  · exact .inl h

/-- The reader takes for π the pie and the two letters in any case. -/
theorem isPi_iff {t : Text} : Decode.isPi t = true ↔ t ∈ piNames := by
  constructor
  · intro h
    rcases Bool.or_eq_true_iff.1 h with h | h
    · rw [eq_of_beq h]
      decide
    · have hlower : t.map Char.toLower = ['p', 'i'] := eq_of_beq h
      obtain ⟨p, t, rfl, hp, ht⟩ := List.map_eq_cons_iff.1 hlower
      obtain ⟨i, t, rfl, hi, ht⟩ := List.map_eq_cons_iff.1 ht
      obtain rfl := List.map_eq_nil_iff.1 ht
      rcases eq_of_toLower_eq hp with rfl | rfl <;>
        rcases eq_of_toLower_eq hi with rfl | rfl <;> decide
  · exact (by decide : ∀ t ∈ piNames, Decode.isPi t = true) t

/-- What an argument that is written as `t`, and is `body` without quotes, stands for: a dash for
one that is left out, a name of π for its digits, and anything else for itself. -/
structure Means (t body : Text) (a : Arg) : Prop where
  unquotes : Unquotes t body
  skip     : a = .skip ↔ t = ['-']
  pi       : a = .value Decode.piDigits ↔ body ∈ piNames ∨ body = Decode.piDigits
  value    : t ≠ ['-'] → body ∉ piNames → a = .value body

/-- The reader of calls makes of an argument what the argument stands for. -/
theorem means_callArg {t body : Text} (hquotes : Unquotes t body) (hbody : t.dequote = body) :
    Means t body (Decode.callArg (.arg (Decode.arg t))) := by
  subst hbody
  by_cases hdash : t = ['-']
  · subst hdash
    -- a dash is no name of π, so it is left out and nothing else
    have hno : ¬(Text.dequote ['-'] ∈ piNames ∨ Text.dequote ['-'] = Decode.piDigits) := by decide
    exact ⟨hquotes, ⟨fun _ => rfl, fun _ => rfl⟩, ⟨nofun, fun h => absurd h hno⟩,
      fun hne => absurd rfl hne⟩
  · have harg : Decode.callArg (.arg (Decode.arg t)) =
        .value (if Decode.isPi t.dequote then Decode.piDigits else t.dequote) := by
      rw [Decode.arg, if_neg hdash]
      rfl
    rw [harg]
    refine ⟨hquotes, ⟨nofun, fun h => absurd h hdash⟩, ?_, ?_⟩
    · rw [← isPi_iff, Arg.value.injEq]
      split
      · next hpi => exact ⟨fun _ => .inl hpi, fun _ => rfl⟩
      · next hpi => exact ⟨.inr, fun h => h.resolve_left hpi⟩
    · intro _ hpi
      rw [if_neg (isPi_iff.not.2 hpi)]

/-- What an argument token of a note stands for. -/
theorem exists_means_of_mem_tokenize {k : Keywords} {note : Text} {t : Token}
    (ht : t ∈ tokenize k note) (hk : t.kind = .arg) :
    ∃ body, Means t.text body (Decode.callArg t.value) := by
  have hvalue := (decoded_of_mem_tokenize ht).value_of_isLexed (by rw [hk]; rfl)
  obtain ⟨s, c, r, hr, rfl⟩ := exists_rule_of_mem_tokenize ht
  have hpattern : r.pattern = .argument := hr.pattern_of_kind (by rw [hk]; rfl)
  have htake := hr.take_text (by rw [hpattern]; nofun)
  rw [hpattern] at htake
  obtain ⟨body, hquotes, hbody⟩ := Pattern.exists_unquotes htake
  rw [hvalue, hk]
  exact ⟨body, means_callArg hquotes hbody⟩

-- ---------------------------------------------------------------------------
-- The arguments of a call
-- ---------------------------------------------------------------------------

namespace Call

/-- The arguments, those of nested calls in their place, are what the argument tokens stand for. -/
inductive Gathers : List Arg → List Token → Prop
  | nil : Gathers [] []
  | leaf {a : Arg} {args : List Arg} {t : Token} {ts : List Token} {body : Text}
      (h : Means t.text body a) (tail : Gathers args ts) : Gathers (a :: args) (t :: ts)
  | call {c : Call} {args : List Arg} {ts us : List Token} (inner : Gathers c.args ts)
      (tail : Gathers args us) : Gathers (.call c :: args) (ts ++ us)

variable {f : Frame} {t : Token} {taken rest ts us : List Token} {c : Call} {e : Ending}
  {args more : List Arg}

/-- Two rows of arguments that have gathered their tokens have gathered them together. -/
theorem Gathers.append (h : Gathers args ts) (h' : Gathers more us) :
    Gathers (args ++ more) (ts ++ us) := by
  induction h with
  | nil => exact h'
  | leaf ha _ ih => exact .leaf ha ih
  | call inner _ _ ih =>
    rw [List.append_assoc]
    exact .call inner ih

/-- The argument tokens among some tokens. -/
def argumentsOf (ts : List Token) : List Token := ts.filter fun t => t.kind = .arg

theorem argumentsOf_cons_of_ne (h : t.kind ≠ .arg) : argumentsOf (t :: ts) = argumentsOf ts :=
  List.filter_cons_of_neg (by simpa using h)

/-- A token that is added to a frame adds an argument if it is one. -/
theorem Gathers.add (h : Gathers f.args.reverse ts)
    (ht : t.kind = .arg → ∃ body, Means t.text body (Decode.callArg t.value)) :
    Gathers (f.add t).args.reverse (ts ++ argumentsOf [t]) := by
  rw [f.args_add]
  by_cases hk : t.kind = .arg
  · obtain ⟨body, hmeans⟩ := ht hk
    rw [if_pos hk, List.reverse_cons, argumentsOf, List.filter_cons_of_pos (by simpa using hk)]
    exact h.append (.leaf hmeans .nil)
  · rw [if_neg hk, argumentsOf_cons_of_ne hk, argumentsOf, List.filter_nil, List.append_nil]
    exact h

/-- A nested call brings in the argument tokens that it has gathered. -/
theorem Gathers.receive {d : Call} (h : Gathers f.args.reverse ts) (hd : Gathers d.args us) :
    Gathers (f.receive d).args.reverse (ts ++ us) := by
  show Gathers (Arg.call d :: f.args).reverse (ts ++ us)
  rw [List.reverse_cons]
  have hcall : Gathers [.call d] (us ++ []) := .call hd .nil
  rw [List.append_nil] at hcall
  exact h.append hcall

/-- Level by level, a call gathers the argument tokens that are read. -/
theorem Level.gathers (h : Level f taken rest c e)
    (htaken : ∀ t ∈ taken, t.kind = .arg → ∃ body, Means t.text body (Decode.callArg t.value))
    (hf : Gathers f.args.reverse ts) : Gathers c.args (ts ++ argumentsOf taken) := by
  induction h generalizing ts with
  | stop f | foreign f rest hk =>
    rw [argumentsOf, List.filter_nil, List.append_nil]
    exact hf
  | error f rest hk | close f rest hk =>
    rw [argumentsOf_cons_of_ne (by rw [hk]; decide), argumentsOf, List.filter_nil,
      List.append_nil]
    exact hf
  | @token f t taken rest c e hk _ ih =>
    obtain ⟨ht, htaken⟩ := List.forall_mem_cons.1 htaken
    have hnext := ih htaken (hf.add ht)
    rwa [List.append_assoc, argumentsOf, argumentsOf, ← List.filter_append] at hnext
  -- the tokens of the nested call come first, and then those behind it
  | @call f t inner taken rest d c e hk _ _ ihinside ihtail =>
    obtain ⟨-, htaken⟩ := List.forall_mem_cons.1 htaken
    obtain ⟨hinner, htaken⟩ := List.forall_mem_append.1 htaken
    have hd : Gathers d.args ([] ++ argumentsOf inner) := ihinside hinner .nil
    have hnext := ihtail htaken (hf.receive hd)
    rw [argumentsOf_cons_of_ne (by rw [hk]; decide), argumentsOf, List.filter_append,
      ← List.append_assoc]
    exact hnext
  | @cut f t inner rest d e hk _ ih =>
    obtain ⟨-, hinner⟩ := List.forall_mem_cons.1 htaken
    have hd : Gathers d.args ([] ++ argumentsOf inner) := ih hinner .nil
    rw [argumentsOf_cons_of_ne (by rw [hk]; decide)]
    exact hf.receive hd

/-- A call of a note: it was read at a parenthesis, and its arguments at all depths are what the
argument tokens stand for that were taken for it. -/
def Gathered (tokens : List Token) (c : Call) : Prop :=
  ∃ front t taken rest error, tokens = front ++ t :: (taken ++ rest) ∧ t.kind = .lparen ∧
    read (t :: (taken ++ rest)) = ⟨1 + taken.length, c, error⟩ ∧
    Gathers c.args (argumentsOf taken)

end Call

-- ---------------------------------------------------------------------------
-- Notes
-- ---------------------------------------------------------------------------

/-- The calls of the formulas of a record have the arguments that were read for them. -/
def Record.Gathered (tokens : List Token) (r : Record) : Prop :=
  ∀ e ∈ r.formula, ∀ c ∈ e.value.procedure, c.Gathered tokens

/-- **Arguments of a call stand for what is written between their quotes**, or for all that is
written where there are none.  A name of π stands for its digits either way, and a dash for an
argument that is left out. -/
theorem parse_gathers (k : Keywords) (note : Text) :
    (parse k note).Gathered (tokenize k note) := by
  intro e he c hc
  obtain ⟨front, t, behind, hsplit, hk, rfl⟩ := exists_read_of_mem_formula he c hc
  obtain ⟨taken, rest, c, ending, rfl, hlevel⟩ := Call.exists_level (Frame.enter t) behind
  have hread := Call.read_of_lparen hk hlevel
  -- what is taken for the call is part of the note
  have htaken : ∀ x ∈ taken, x.kind = .arg →
      ∃ body, Means x.text body (Decode.callArg x.value) := by
    intro x hx
    have hmem : x ∈ tokenize k note := by
      rw [hsplit]
      exact List.mem_append_right _ (List.mem_cons_of_mem _ (List.mem_append_left _ hx))
    exact exists_means_of_mem_tokenize hmem
  refine ⟨front, t, taken, rest, ending.error, hsplit, hk, ?_, ?_⟩
  · rw [hread]
  · rw [hread]
    exact hlevel.gathers htaken .nil

/-- The text of an argument that is written down. -/
def Arg.text? : Arg → Option Text
  | value t => some t
  | _ => none

/-- An argument that is written as none of the names of π can be read as its digits. -/
theorem quoted_name_of_pi :
    let note := "$$()(+ \"pi\")".toList
    let written := (tokenize Keywords.standard note).filter fun t => t.kind = .arg
    let read := (parse Keywords.standard note).formula.flatMap fun e =>
      (e.value.procedure.map fun c => c.args.map Arg.text?).getD []
    written.map (·.text) = ["\"pi\"".toList] ∧ "\"pi\"".toList ∉ piNames ∧
      read = [some Decode.piDigits] := by
  decide +kernel

end Jot
