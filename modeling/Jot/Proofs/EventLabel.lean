import Jot.Proofs.Annotations
import Jot.Proofs.Expression.Words

/-!
# Jot — what events name

The pattern for events asks for a label, so marks alone are no events.  But the sign for an
ellipsis is also a character of labels, and what the pattern has taken for the label the reader cuts
off as the ellipsis when nothing else is there: `!…` is an event, and it names nothing.

* `Label.content_eq_nil_iff` — lower case leaves something of every label;
* `Event.isBare_of_matches` — in every event a label stands behind a mark or an ellipsis;
* `event_label_eq_nil_iff` — the one event without a name.
-/

namespace Jot

-- ---------------------------------------------------------------------------
-- Labels
-- ---------------------------------------------------------------------------

/-- Lower case never leaves a character out. -/
theorem lowerChar_ne_nil (c : Char) : lowerChar c ≠ [] := by
  unfold lowerChar
  split
  · exact List.cons_ne_nil _ _
  · split <;> exact List.cons_ne_nil _ _

/-- Lower case of a text is empty only if nothing is written. -/
theorem lowerFrom_eq_nil_iff (before done t : Text) :
    lowerFrom before done t = [] ↔ done = [] ∧ t = [] := by
  induction t generalizing before done with
  | nil => simp [lowerFrom]
  | cons c t ih =>
    -- a capital sigma depends on what stands around it, but becomes some sigma
    have hlow : (if c = 'Σ' then [lowerSigma before t] else lowerChar c) ≠ [] := by
      split
      · exact List.cons_ne_nil _ _
      · exact lowerChar_ne_nil c
    rw [lowerFrom, ih]
    simp [hlow]

theorem Text.lowercase_eq_nil_iff {t : Text} : t.lowercase = [] ↔ t = [] := by
  rw [lowercase, lowerFrom_eq_nil_iff]
  simp

/-- A quoted text has a quote in it. -/
theorem Text.quote_mem_of_isQuoted {t : Text} (h : t.isQuoted = true) : '"' ∈ t := by
  unfold isQuoted Quoted.name Quoted.nameOf at h
  split at h
  · exact List.mem_cons_self
  · contradiction

/-- Only nothing stands for nothing, unless there are quotes. -/
theorem Label.content_eq_nil_iff {t : Text} (hquote : '"' ∉ t) : content t = [] ↔ t = [] := by
  have hbare : ¬t.isQuoted = true := fun h => hquote (Text.quote_mem_of_isQuoted h)
  rw [content, if_neg hbare, Text.lowercase_eq_nil_iff]

-- ---------------------------------------------------------------------------
-- The parts of an event
-- ---------------------------------------------------------------------------

namespace Regex

variable {v : Text}

/-- A bare label begins with a character that may lead it. -/
theorem exists_lead_of_matches (h : label.Matches v) (hquote : '"' ∉ v) :
    ∃ c t, v = c :: t ∧ Label.isLead c = true := by
  cases h with
  | altLeft h =>
    cases h with
    | seq h _ =>
      cases h with
      | one hc => exact absurd (beq_iff_eq.1 hc ▸ List.mem_cons_self) hquote
  | altRight h =>
    cases h with
    | seq h _ =>
      cases h with
      | one hc => exact ⟨_, _, rfl, hc⟩

theorem eq_of_matches_char {a : Char} (h : (char a).Matches v) : v = [a] := by
  cases h with
  | one hc => rw [beq_iff_eq.1 hc]

/-- A character some times over matches that many of it. -/
theorem eq_replicate_of_matches_times {a : Char} {n : Nat} (h : (times n (char a)).Matches v) :
    v = List.replicate n a := by
  induction n generalizing v with
  | zero =>
    cases h
    rfl
  | succ n ih =>
    cases h with
    | seq hchar hmore =>
      rw [eq_of_matches_char hchar, ih hmore]
      rfl

/-- An ellipsis is the sign or three full stops. -/
theorem mem_ellipses_of_matches (h : ellipsis.Matches v) : v ∈ Event.ellipses := by
  cases h with
  | altLeft h =>
    rw [eq_of_matches_char h]
    exact List.mem_cons_self
  | altRight h =>
    rw [eq_replicate_of_matches_times h]
    exact List.mem_cons_of_mem _ List.mem_cons_self

end Regex

/-- The texts of events without quotes: a label stands behind a mark or an ellipsis. -/
inductive Event.IsBare : Text → Prop where
  | marked (c : Char) (t : Text) (hc : Label.isLead c = true) : IsBare ('!' :: c :: t)
  | closing (ellipsis : Text) (hellipsis : ellipsis ∈ ellipses) (c : Char) (t : Text)
      (hc : Label.isLead c = true) : IsBare (ellipsis ++ c :: t)

/-- What the expression of events matches, without quotes, has a label behind a mark or an ellipsis.
-/
theorem Event.isBare_of_matches {e : Regex} {t : Text}
    (he : TokenKind.event.expression? = some e) (h : e.Matches t) (hquote : '"' ∉ t) :
    IsBare t := by
  cases he
  -- the two halves of the expression: a mark in front of the label, or an ellipsis
  cases h with
  | altLeft h =>
    cases h with
    | seq hmark h =>
      cases h with
      | seq hlabel _ =>
        rw [Regex.eq_of_matches_char hmark] at hquote ⊢
        obtain ⟨c, u, rfl, hc⟩ := Regex.exists_lead_of_matches hlabel fun hmem =>
          hquote (List.mem_append_right _ (List.mem_append_left _ hmem))
        exact .marked c _ hc
  | altRight h =>
    cases h with
    | seq hellipsis hlabel =>
      obtain ⟨c, u, rfl, hc⟩ := Regex.exists_lead_of_matches hlabel fun hmem =>
        hquote (List.mem_append_right _ hmem)
      exact .closing _ (Regex.mem_ellipses_of_matches hellipsis) c u hc

-- ---------------------------------------------------------------------------
-- The label of an event
-- ---------------------------------------------------------------------------

namespace Event

variable {t : Text}

/-- Marks alone are no event, but for the one that the sign for an ellipsis stands behind. -/
theorem IsBare.not_mem_marks (h : IsBare t) :
    t ∉ [['!'], ['…'], ['.', '.', '.'], ['!', '.', '.', '.']] := by
  cases h with
  | marked c t hc =>
    have hne : c ≠ '.' := by
      rintro rfl
      contradiction
    simp [hne]
  | closing ellipsis hellipsis c t hc =>
    rcases List.mem_cons.1 hellipsis with rfl | hellipsis
    · simp
    · obtain rfl := List.mem_singleton.1 hellipsis
      simp

/-- What stands in front of an ellipsis at the end, if there is one. -/
def cutEllipsis (body : Text) : Text := (ellipses.findSome? (Text.before? · body)).getD body

/-- Behind a mark the label is what stands in front of the ellipsis. -/
theorem label_read_mark (body : Text) :
    (read ('!' :: body)).label = Label.content (cutEllipsis body) := by
  rw [cutEllipsis, read]
  split
  · next h => rw [h, Option.getD_some]
  · next h => rw [h, Option.getD_none]

/-- Cutting off an ellipsis adds no character. -/
theorem mem_of_mem_cutEllipsis {x : Char} {body : Text} (hx : x ∈ cutEllipsis body) :
    x ∈ body := by
  unfold cutEllipsis at hx
  cases hcut : ellipses.findSome? (Text.before? · body) with
  | none => rwa [hcut] at hx
  | some name =>
    obtain ⟨ellipsis, -, hbefore⟩ := List.exists_of_findSome?_eq_some hcut
    rw [hcut] at hx
    rw [Text.before?_eq_some_iff.1 hbefore]
    exact List.mem_append_left ellipsis hx

/-- Only from the sign for an ellipsis nothing is left; full stops are no label. -/
theorem cutEllipsis_eq_nil_iff {c : Char} (hc : Label.isLead c = true) (t : Text) :
    cutEllipsis (c :: t) = [] ↔ c :: t = ['…'] := by
  constructor
  · unfold cutEllipsis
    cases hcut : ellipses.findSome? (Text.before? · (c :: t)) with
    | none => exact fun h => absurd h (List.cons_ne_nil c t)
    | some name =>
      rintro rfl
      obtain ⟨ellipsis, hellipsis, hbefore⟩ := List.exists_of_findSome?_eq_some hcut
      have hbody : c :: t = ellipsis := Text.before?_eq_some_iff.1 hbefore
      rcases List.mem_cons.1 hellipsis with hsign | hstops
      · exact hbody.trans hsign
      · obtain rfl : c = '.' := (List.cons.inj (hbody.trans (List.mem_singleton.1 hstops))).1
        contradiction
  · intro h
    rw [h]
    rfl

/-- An event without quotes has an empty label only if it is the mark with the sign. -/
theorem IsBare.label_eq_nil_iff (h : IsBare t) (hquote : '"' ∉ t) :
    (read t).label = [] ↔ t = ['!', '…'] := by
  cases h with
  | marked c t hc =>
    have hname : '"' ∉ cutEllipsis (c :: t) := fun hmem =>
      hquote (List.mem_cons_of_mem _ (mem_of_mem_cutEllipsis hmem))
    rw [label_read_mark, Label.content_eq_nil_iff hname, cutEllipsis_eq_nil_iff hc]
    exact (List.cons_inj_right '!').symm
  | closing ellipsis hellipsis c t hc =>
    have hname : '"' ∉ c :: t := fun hmem => hquote (List.mem_append_right _ hmem)
    have hlabel : Label.content (c :: t) ≠ [] := fun h =>
      List.cons_ne_nil c t ((Label.content_eq_nil_iff hname).1 h)
    rcases List.mem_cons.1 hellipsis with rfl | hstops
    · exact iff_of_false hlabel (by simp)
    · rw [List.mem_singleton.1 hstops]
      exact iff_of_false hlabel (by simp)

end Event

-- ---------------------------------------------------------------------------
-- Notes
-- ---------------------------------------------------------------------------

/-- **An event names something**, with one exception: a mark with nothing but the sign for an
ellipsis behind it is an event with an empty label.  Of the other marks that stand alone none is an
event. -/
theorem event_label_eq_nil_iff {k : Keywords} {note : Text} {t : Token}
    (ht : t ∈ tokenize k note) (hk : t.kind = .event) (hquote : '"' ∉ t.text) :
    (∃ e, t.value = .event e ∧ (e.label = [] ↔ t.text = "!…".toList)) ∧
      t.text ∉ ["!", "…", "...", "!..."].map String.toList := by
  have hvalue : t.value = .event (Event.read t.text) := by
    rw [(decoded_of_mem_tokenize ht).value_of_isLexed (by rw [hk]; rfl), hk]
    rfl
  obtain ⟨e, he⟩ : ∃ e, TokenKind.event.expression? = some e := ⟨_, rfl⟩
  have hbare := Event.isBare_of_matches he (matches_of_mem_tokenize ht (hk ▸ he)) hquote
  exact ⟨⟨_, hvalue, hbare.label_eq_nil_iff hquote⟩, hbare.not_mem_marks⟩

/-- The second sign in `…Trip…` is part of the name. -/
theorem event_label_of_closing :
    ∃ t ∈ tokenize Keywords.standard "…Trip… home".toList, t.kind = .event ∧ '"' ∉ t.text ∧
      (∃ e, t.value = .event e ∧ (e.label = [] ↔ t.text = "!…".toList)) ∧
      t.text ∉ ["!", "…", "...", "!..."].map String.toList := by
  obtain ⟨t, ht, hk, hquote⟩ : ∃ t ∈ tokenize Keywords.standard "…Trip… home".toList,
      t.kind = .event ∧ '"' ∉ t.text := by
    decide +kernel
  exact ⟨t, ht, hk, hquote, event_label_eq_nil_iff ht hk hquote⟩

/-- The sign for an ellipsis makes an event of a mark, and no label is left. -/
theorem event_of_mark_and_sign :
    ∃ t ∈ tokenize Keywords.standard "!…".toList,
      t.kind = .event ∧ '"' ∉ t.text ∧ t.value = .event ⟨[], .opens⟩ := by
  obtain ⟨t, ht, hk, htext⟩ : ∃ t ∈ tokenize Keywords.standard "!…".toList,
      t.kind = .event ∧ t.text = "!…".toList := by
    decide +kernel
  have hvalue := (decoded_of_mem_tokenize ht).value_of_isLexed (by rw [hk]; rfl)
  rw [hk, htext] at hvalue
  exact ⟨t, ht, hk, by rw [htext]; decide, hvalue⟩

end Jot
