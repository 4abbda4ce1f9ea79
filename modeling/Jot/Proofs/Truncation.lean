import Jot.Proofs.Expression.Patterns
import Jot.Proofs.Lexeme

/-!
# Jot — cutting a note

A note that is cut behind a token is read as before up to there.  Patterns with an expression do
not look ahead, so they take the same of a text that is cut behind what they take, and those that
took nothing take nothing still.  The rest of a text ends where the text ends.  The body of a
reaction is the exception: where its closing quote is cut away, its last character is held back.

* `Pattern.take?_take_eq_none`, `Pattern.take?_take` — what patterns take of a text that is cut;
* `Cursor.exists_step_take`, `Cursor.Run.exists_take` — one step and a whole run before the cut;
* `tokenize_take` — the tokens of a note that is cut behind one of its tokens.
-/

namespace Jot

-- ---------------------------------------------------------------------------
-- The body of a reaction
-- ---------------------------------------------------------------------------

namespace Recognizer

variable {t v : Text}

/-- The body of a reaction ends in front of the first closing quote. -/
theorem quotedBody_append_close (hv : '”' ∉ v) (w : Text) :
    quotedBody (v ++ '”' :: w) = some v.length := by
  have hstop : Text.StartsIn (fun c => !(c != '”')) ('”' :: w) := by simp
  have hne : ∀ c ∈ v, (c != '”') = true := fun c hc => by
    rw [bne_iff_ne]
    rintro rfl
    exact hv hc
  rw [quotedBody, if_pos (by simp), Text.takeWhile_append_of_startsIn hne hstop]

/-- Without a closing quote the body of a reaction leaves out the last character. -/
theorem quotedBody_of_not_mem (h : '”' ∉ t) : quotedBody t = some (t.length - 1) := by
  rw [quotedBody, if_neg (by simpa using h)]

end Recognizer

-- ---------------------------------------------------------------------------
-- Patterns
-- ---------------------------------------------------------------------------

namespace Pattern

variable {p : Pattern} {e : Regex} {t : Text} {m n : Nat}

theorem take?_eq_none_iff : p.take? t = none ↔ ∀ n, p.recognizer t = some n → n = 0 := by
  rw [take?, Option.filter_eq_none_iff]
  simp

/-- A pattern that takes nothing takes nothing of less text either. -/
theorem take?_take_eq_none (h : p.take? t = none) (m : Nat) : p.take? (t.take m) = none := by
  rw [take?_eq_none_iff] at h ⊢
  -- an expression has no more ends in less text; the two patterns without one are looked at by
  -- themselves
  cases he : p.expression? with
  | some e =>
    have hp := computes_recognizer he
    rw [hp, Regex.match?] at h
    rw [hp, Regex.match?, Regex.ends_take]
    cases hends : e.ends t with
    | nil => simp
    | cons a as =>
      obtain rfl : a = 0 := h a (by rw [hends]; rfl)
      simp
  | none =>
    cases p with
    | remainder =>
      obtain rfl : t = [] := List.length_eq_zero_iff.1 (h _ rfl)
      simpa using h
    | textBlob =>
      by_cases hclose : '”' ∈ t
      · obtain ⟨v, w, rfl, hv⟩ := List.eq_append_cons_of_mem hclose
        obtain rfl : v = [] :=
          List.length_eq_zero_iff.1 (h _ (Recognizer.quotedBody_append_close hv w))
        cases m with
        | zero => simp [recognizer, Recognizer.quotedBody]
        | succ m => simp [recognizer, Recognizer.quotedBody]
      · have hlen := h _ (Recognizer.quotedBody_of_not_mem hclose)
        have hclose' : '”' ∉ t.take m := fun hmem => hclose (List.mem_of_mem_take hmem)
        intro n hn
        rw [recognizer, Recognizer.quotedBody_of_not_mem hclose', Option.some_inj] at hn
        rw [List.length_take] at hn
        omega
    | _ => contradiction

/-- A pattern takes the same of a text that is cut behind what it takes.  For the body of a
reaction, the closing quote must be left. -/
theorem take?_take (h : p.take? t = some n) (hn : n ≤ m) (hblob : p = .textBlob → n < m) :
    p.take? (t.take m) = some n := by
  have hle := take?_le h
  rw [take?_eq_some_iff] at h ⊢
  refine ⟨?_, h.2⟩
  -- an expression prefers the same end, which is not cut off; the other two patterns look at the
  -- end of the text
  cases he : p.expression? with
  | some e =>
    have hp := computes_recognizer he
    rw [hp, Regex.match?] at h
    rw [hp, Regex.match?, Regex.ends_take]
    obtain ⟨as, has⟩ := List.head?_eq_some_iff.1 h.1
    simp [has, hn]
  | none =>
    cases p with
    | remainder =>
      have hlen : t.length = n := Option.some_inj.1 h.1
      rw [List.take_of_length_le (by omega)]
      exact h.1
    | textBlob =>
      have hm := hblob rfl
      by_cases hclose : '”' ∈ t
      · obtain ⟨v, w, rfl, hv⟩ := List.eq_append_cons_of_mem hclose
        have hlen : v.length = n :=
          Option.some_inj.1 ((Recognizer.quotedBody_append_close hv w).symm.trans h.1)
        obtain ⟨k, rfl⟩ : ∃ k, m = v.length + (k + 1) := ⟨m - v.length - 1, by omega⟩
        rw [List.take_length_add_append, List.take_succ_cons, ← hlen]
        exact Recognizer.quotedBody_append_close hv _
      · have hlen : t.length - 1 = n :=
          Option.some_inj.1 ((Recognizer.quotedBody_of_not_mem hclose).symm.trans h.1)
        rw [List.take_of_length_le (by omega)]
        exact h.1
    | _ => contradiction

end Pattern

-- ---------------------------------------------------------------------------
-- Steps and runs
-- ---------------------------------------------------------------------------

/-- The first rule of a state that matches a text. -/
theorem State.exists_first_rule (s : State) {t : Text} (ht : t ≠ []) :
    ∃ pre r post n, s.rules = pre ++ r :: post ∧ (∀ q ∈ pre, q.pattern.take? t = none) ∧
      r.pattern.take? t = some n := by
  obtain ⟨r, hr, n, hn⟩ := s.exists_rule_take? ht
  have hsome : (s.rules.find? fun r => (r.pattern.take? t).isSome).isSome := by
    rw [List.find?_isSome]
    exact ⟨r, hr, by rw [hn, Option.isSome_some]⟩
  obtain ⟨r', hr'⟩ := Option.isSome_iff_exists.1 hsome
  obtain ⟨hmatch, pre, post, hrules, hpre⟩ := List.find?_eq_some_iff_append.1 hr'
  obtain ⟨n', hn'⟩ := Option.isSome_iff_exists.1 hmatch
  exact ⟨pre, r', post, n', hrules, fun q hq => by simpa using hpre q hq, hn'⟩

/-- The pattern for the body of a reaction is used for nothing else. -/
theorem Rule.emit_of_textBlob {s : State} {r : Rule} (hr : r ∈ s.rules)
    (h : r.pattern = .textBlob) : r.emit = .token .textBlob :=
  State.forall_rules
    (P := fun _ r => r.pattern = .textBlob → r.emit = .token .textBlob) (by decide) hr h

/-- What that pattern takes becomes the body of a reaction. -/
theorem Step.By.kind_of_textBlob {k : Keywords} {c : Cursor} {r : Rule} {s : Step}
    (h : s.By k c r) (hr : r.pattern = .textBlob) : s.token.kind = .textBlob := by
  have hkind := h.kind_mem
  rw [Rule.emit_of_textBlob h.rule hr] at hkind
  exact List.mem_singleton.1 hkind

/-- What a pattern has taken, it takes whole when nothing follows. -/
theorem Step.By.take_text {k : Keywords} {c : Cursor} {r : Rule} {s : Step} (h : s.By k c r)
    (hr : r.pattern ≠ .textBlob) :
    r.pattern.take? s.token.text = some s.token.text.length := by
  have hcut := Pattern.take?_take h.take (Nat.le_refl _) fun hp => absurd hp hr
  rwa [h.rest, List.take_left] at hcut

/-- A rule makes the same token of the same text at the same place. -/
theorem Step.By.token_eq {k : Keywords} {c c' : Cursor} {r : Rule} {s s' : Step}
    (h : s.By k c r) (h' : s'.By k c' r) (hplace : c'.place = c.place)
    (htext : s'.token.text = s.token.text) : s'.token = s.token := by
  have hpiece := h'.piece
  rw [hplace, htext, ← h.piece] at hpiece
  have hread := h'.read
  rw [htext, ← h.read, Prod.mk.injEq] at hread
  calc
    s'.token = ⟨s'.token.toPiece, s'.token.kind, s'.token.value⟩ := rfl
    _ = ⟨s.token.toPiece, s.token.kind, s.token.value⟩ := by rw [hpiece, hread.1, hread.2]

namespace Cursor

variable {k : Keywords} {c d : Cursor} {s : Step} {ss : List Step} {m : Nat}

/-- The same cursor, with less text left. -/
def take (m : Nat) (c : Cursor) : Cursor := { c with rest := c.rest.take m }

/-- A step is taken in the same way when the text is cut behind it. -/
theorem exists_step_take (h : c.step? k = some s) (hm : s.token.text.length ≤ m)
    (hblob : s.token.kind = .textBlob → s.token.text.length < m) :
    ∃ s', (c.take m).step? k = some s' ∧ s'.token = s.token ∧
      s'.after = s.after.take (m - s.token.text.length) := by
  obtain ⟨pre, r, post, n, hrules, hpre, hr⟩ :=
    c.state.exists_first_rule (rest_ne_nil_of_step? h)
  have hby : s.By k c r := by_of_rule h hrules hpre hr
  -- the rules in front fail as before, and this one takes the same
  have hcut : r.pattern.take? (c.rest.take m) = some s.token.text.length :=
    Pattern.take?_take hby.take hm fun hp => hblob (hby.kind_of_textBlob hp)
  cases hstep : (c.take m).step? k with
  | none =>
    have hnil : c.rest.take m = [] := step?_eq_none_iff.1 hstep
    have hle := Pattern.take?_le hcut
    rw [hnil, List.length_nil, Nat.le_zero] at hle
    exact absurd (List.length_eq_zero_iff.1 hle) hby.text_ne_nil
  | some s' =>
    have hby' : s'.By k (c.take m) r :=
      by_of_rule hstep hrules (fun q hq => Pattern.take?_take_eq_none (hpre q hq) m) hcut
    have hlen : s'.token.text.length = s.token.text.length :=
      Option.some_inj.1 (hby'.take.symm.trans hcut)
    have hrest : s'.token.text ++ s'.after.rest =
        s.token.text ++ s.after.rest.take (m - s.token.text.length) := calc
      s'.token.text ++ s'.after.rest = c.rest.take m := hby'.rest.symm
      _ = (s.token.text ++ s.after.rest).take m := by rw [← hby.rest]
      _ = _ := by rw [List.take_append, List.take_of_length_le hm]
    obtain ⟨htext, hrest⟩ := List.append_inj hrest hlen
    have hgoes : (s'.after.state, s'.after.stack) = (s.after.state, s.after.stack) :=
      hby'.goes.trans hby.goes.symm
    rw [Prod.mk.injEq] at hgoes
    refine ⟨s', rfl, hby.token_eq hby' rfl htext, ?_⟩
    calc
      s'.after = ⟨s'.after.rest, s'.after.place, s'.after.state, s'.after.stack⟩ := rfl
      _ = ⟨s.after.rest.take (m - s.token.text.length), s.after.place, s.after.state,
            s.after.stack⟩ := by
        rw [hrest, hby'.place, htext, hgoes.1, hgoes.2, hby.place]
        rfl

/-- A run is the same run when the text is cut behind it, unless the closing quote of a reaction
is cut away. -/
theorem Run.exists_take (h : Run k c ss d) (hm : (ss.flatMap (·.token.text)).length = m)
    (hlast : ∀ s ∈ ss.getLast?, s.token.kind ≠ .textBlob) :
    ∃ ts, Run k (c.take m) ts (d.take 0) ∧ ts.map Step.token = ss.map Step.token := by
  induction h generalizing m with
  | nil c =>
    subst hm
    exact ⟨[], .nil _, rfl⟩
  | @cons c d s ss head tail ih =>
    rw [List.flatMap_cons, List.length_append] at hm
    obtain ⟨ts, hts, htokens⟩ := ih rfl fun t ht => hlast t (by
      rw [List.getLast?_cons, Option.mem_def.1 ht]
      rfl)
    -- a body in front of another step has its closing quote left
    have hblob : s.token.kind = .textBlob → s.token.text.length < m := by
      intro hkind
      cases tail with
      | nil => exact absurd hkind (hlast s rfl)
      | cons head' tail' =>
        obtain ⟨r, hr⟩ := exists_rule_of_step? head'
        have hpos := List.length_pos_iff.2 hr.text_ne_nil
        rw [List.flatMap_cons, List.length_append] at hm
        omega
    obtain ⟨s', hstep, htoken, hafter⟩ := exists_step_take head (by omega) hblob
    have hlen : m - s.token.text.length = (ss.flatMap (·.token.text)).length := by omega
    rw [hlen] at hafter
    exact ⟨s' :: ts, .cons hstep (hafter ▸ hts), by rw [List.map_cons, htoken, htokens]; rfl⟩

/-- The start of a note that is cut behind a run is the start of what the run reads. -/
theorem Run.take_start {note : Text} (h : Run k (start note) ss d) :
    (start note).take (ss.flatMap (·.token.text)).length =
      start (ss.flatMap (·.token.text)) := by
  have hprefix : ss.flatMap (·.token.text) <+: note := ⟨d.rest, h.rest_eq.symm⟩
  exact congrArg start (List.prefix_iff_eq_take.1 hprefix).symm

end Cursor

-- ---------------------------------------------------------------------------
-- Notes
-- ---------------------------------------------------------------------------

/-- **A note that is cut behind a token is read as before up to there**, unless that token is the
body of a reaction. -/
theorem tokenize_take (k : Keywords) (note : Text) (n : Nat)
    (h : ∀ t ∈ ((tokenize k note).take n).getLast?, t.kind ≠ .textBlob) :
    tokenize k (((tokenize k note).take n).flatMap (·.text)) = (tokenize k note).take n := by
  obtain ⟨e, hrun, -⟩ := Cursor.run_steps k note
  rw [← List.take_append_drop n (steps k note)] at hrun
  obtain ⟨d, hfront, -⟩ := Cursor.run_append_iff.1 hrun
  have htokens : (tokenize k note).take n = ((steps k note).take n).map Step.token :=
    List.map_take.symm
  rw [htokens, List.flatMap_map]
  have hlast : ∀ s ∈ ((steps k note).take n).getLast?, s.token.kind ≠ .textBlob := by
    intro s hs
    refine h s.token ?_
    rw [htokens, List.getLast?_map, Option.mem_def.1 hs]
    rfl
  obtain ⟨ts, hts, heq⟩ := hfront.exists_take rfl hlast
  rw [hfront.take_start] at hts
  rw [hts.tokenize_eq rfl, heq]

/-- A reaction as a whole may stand before the cut. -/
theorem tokenize_take_behind_reaction :
    let tokens := tokenize Keywords.standard "Liked “ab” c #d".toList
    (∀ t ∈ (tokens.take 5).getLast?, t.kind ≠ .textBlob) ∧
      (tokens.take 5).map (·.kind) =
        [.reactionOpen, .textBlob, .reactionClose, .space, .word] ∧
      tokenize Keywords.standard "Liked “ab” c".toList = tokens.take 5 := by
  intro tokens
  have hlast : ∀ t ∈ (tokens.take 5).getLast?, t.kind ≠ .textBlob := by decide +kernel
  have htext : (tokens.take 5).flatMap (·.text) = "Liked “ab” c".toList := by decide +kernel
  exact ⟨hlast, by decide +kernel, htext ▸ tokenize_take Keywords.standard _ 5 hlast⟩

/-- A cut behind the body of a reaction changes how the body is read. -/
example :
    let tokens := tokenize Keywords.standard "Liked “ab” c #d".toList
    (tokenize Keywords.standard ((tokens.take 2).flatMap (·.text))).map (·.text) =
      ["Liked “".toList, "a".toList, "b".toList] := by
  decide +kernel

end Jot
