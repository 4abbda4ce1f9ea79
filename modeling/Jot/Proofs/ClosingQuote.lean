import Jot.Proofs.Annotations
import Jot.Proofs.Call.Argument
import Jot.Proofs.Written.Event
import Jot.Proofs.Written.Quantity

/-!
# Jot — closing quotes

A quote is looked for in three places: by the pattern for the names of a link, by the patterns for
labels, which take no line feed, and by the readers of values, which take the quotes away.  All of
them stop at the first quote that is not escaped, that is, behind an even number of backslashes, so
what is read for a label is what the pattern has found between the quotes.

* `Quoted.Inside` — what stands between two quotes, by counting backslashes;
* `Quoted.name_eq_some_iff`, `Quoted.inline_eq_some_iff` — where a name in quotes ends;
* `Token.HasLabel` — the labels of a token, as they are written and as they are read;
* `closing_quotes_agree` — the quotes that are taken away are those the pattern has found.
-/

namespace Jot

-- ---------------------------------------------------------------------------
-- Backslashes
-- ---------------------------------------------------------------------------

namespace Text

/-- How many backslashes a text ends with. -/
def backslashes (t : Text) : Nat := (t.reverse.takeWhile (· == '\\')).length

/-- The text ends with an odd number of backslashes, so what follows is escaped. -/
def Escapes (t : Text) : Prop := t.backslashes % 2 = 1

instance (t : Text) : Decidable t.Escapes := inferInstanceAs (Decidable (_ = _))

/-- The backslashes at the end of a text go back into the text in front only where it is made of
nothing else. -/
theorem backslashes_append (t u : Text) :
    (t ++ u).backslashes =
      if u.backslashes = u.length then u.length + t.backslashes else u.backslashes := by
  unfold backslashes
  rw [List.reverse_append, List.takeWhile_append, List.length_reverse]
  split
  · rw [List.length_append, List.length_reverse]
  · rfl

/-- Behind a text that escapes nothing, the backslashes in front of it make no difference. -/
theorem escapes_append_iff {t : Text} (ht : ¬t.Escapes) (u : Text) :
    (t ++ u).Escapes ↔ u.Escapes := by
  unfold Escapes at ht ⊢
  rw [backslashes_append]
  split <;> omega

end Text

-- ---------------------------------------------------------------------------
-- What stands between quotes
-- ---------------------------------------------------------------------------

namespace Quoted

/-- What stands between an opening quote and the quote that closes it. -/
structure Inside (body : Text) : Prop where
  /-- The quote behind it is not escaped. -/
  closed : ¬body.Escapes
  /-- Each quote in it is. -/
  quotes : ∀ front behind, body = front ++ '"' :: behind → front.Escapes

variable {front body : Text} {c : Char}

theorem inside_nil : Inside [] where
  closed := by decide
  quotes front behind h := absurd h (by simp)

/-- Whether a quote is escaped is decided by what stands behind the last part that is complete. -/
theorem Inside.append_iff (hfront : Inside front) : Inside (front ++ body) ↔ Inside body := by
  constructor
  · intro h
    refine ⟨(Text.escapes_append_iff hfront.closed body).not.1 h.closed, ?_⟩
    rintro before behind rfl
    exact (Text.escapes_append_iff hfront.closed before).1
      (h.quotes (front ++ before) behind (List.append_assoc _ _ _).symm)
  · intro h
    refine ⟨(Text.escapes_append_iff hfront.closed body).not.2 h.closed, ?_⟩
    intro before behind hsplit
    -- the quote stands in `body`, behind all of `front`, or in `front` itself
    rcases List.append_eq_append_iff.1 hsplit with ⟨v, rfl, hbody⟩ | ⟨v, hv, hquote⟩
    · exact (Text.escapes_append_iff hfront.closed v).2 (h.quotes v behind hbody)
    · cases v with
      | nil =>
        exact absurd (h.quotes [] behind hquote.symm) (by decide)
      | cons x v =>
        obtain ⟨rfl, -⟩ := List.cons.inj hquote
        exact hfront.quotes before v hv

/-- A character that is neither a quote nor a backslash may stand between quotes. -/
theorem inside_plain (hquote : c ≠ '"') (hescape : c ≠ '\\') : Inside [c] where
  closed := by simp [Text.Escapes, Text.backslashes, hescape]
  quotes front behind h := by
    rcases List.singleton_eq_append_iff.1 h with ⟨-, h⟩ | ⟨-, h⟩
    · exact absurd (List.cons.inj h).1.symm hquote
    · exact absurd h (List.cons_ne_nil _ _)

/-- A backslash takes with it whatever stands behind it, a quote or another backslash. -/
theorem inside_escaped (c : Char) : Inside ['\\', c] where
  closed := by
    by_cases hc : c = '\\'
    · subst hc
      decide
    · simp [Text.Escapes, Text.backslashes, hc]
  quotes front behind h := by
    -- only the second character can be a quote, and there the backslash stands in front
    match front, h with
    | [], h => exact absurd (List.cons.inj h).1 (by decide)
    | [x], h =>
      obtain ⟨rfl, -⟩ := List.cons.inj h
      decide
    | x :: y :: front, h => simp at h

theorem Inside.ne_quote {t : Text} (h : Inside (c :: t)) : c ≠ '"' := by
  rintro rfl
  exact absurd (h.quotes [] t rfl) (by decide)

/-- What stands between two quotes is made of plain characters and escaped ones. -/
theorem quotable_of_inside : {body : Text} → Inside body → Written.Quotable body
  | [], _ => .nil
  | [c], h => by
    have hescape : c ≠ '\\' := by
      rintro rfl
      exact absurd (by decide) h.closed
    exact .plain h.ne_quote hescape .nil
  | c :: d :: t, h => by
    -- one character is taken off, or two, so that what is left stands between quotes again
    by_cases hescape : c = '\\'
    · subst hescape
      exact .escaped d (quotable_of_inside ((inside_escaped d).append_iff.1 h))
    · exact .plain h.ne_quote hescape
        (quotable_of_inside ((inside_plain h.ne_quote hescape).append_iff.1 h))

/-- Between two quotes stands what can be written there. -/
theorem quotable_iff : Written.Quotable body ↔ Inside body := by
  constructor
  · intro h
    induction h with
    | nil => exact inside_nil
    | plain hquote hescape _ ih => exact (inside_plain hquote hescape).append_iff.2 ih
    | escaped c _ ih => exact (inside_escaped c).append_iff.2 ih
  · exact quotable_of_inside

-- ---------------------------------------------------------------------------
-- Names in quotes
-- ---------------------------------------------------------------------------

variable {t u : Text} {n : Nat}

/-- A name in quotes ends with the first quote that is not escaped. -/
theorem nameOf_eq_some_iff {allowed : Char → Bool} (hescape : allowed '\\' = true) :
    nameOf allowed t = some n ↔
      ∃ body behind, t = '"' :: (body ++ '"' :: behind) ∧ n = body.length + 2 ∧ Inside body ∧
        ∀ c ∈ body, allowed c = true := by
  constructor
  · intro h
    obtain ⟨q, rest, rfl, rfl, hallowed⟩ := Written.exists_quote_of_nameOf hescape h
    exact ⟨q.content, rest, q.print_append rest, q.length_print, quotable_iff.1 q.quotable,
      hallowed⟩
  · rintro ⟨body, behind, rfl, rfl, hbody, hallowed⟩
    let q : Written.Quote := ⟨body, quotable_iff.2 hbody⟩
    have hname := q.nameOf_print_append hallowed behind
    rwa [q.print_append, q.length_print] at hname

/-- A name in quotes reaches to the first quote that is not escaped. -/
theorem name_eq_some_iff :
    name t = some n ↔
      ∃ body behind, t = '"' :: (body ++ '"' :: behind) ∧ n = body.length + 2 ∧ Inside body := by
  rw [name, nameOf_eq_some_iff rfl]
  simp only [implies_true, and_true]

/-- There is no name in quotes where every quote that might close it is escaped. -/
theorem name_eq_none_iff :
    name t = none ↔
      ∀ body behind : Text, t = '"' :: (body ++ '"' :: behind) → body.Escapes := by
  constructor
  · intro h body
    -- the first quote that is not escaped would close the name
    induction hlength : body.length using Nat.strongRecOn generalizing body with
    | _ m ih =>
      rintro behind rfl
      by_contra hclosed
      have hinside : Inside body := by
        refine ⟨hclosed, ?_⟩
        rintro front rest rfl
        refine ih front.length ?_ front rfl (rest ++ '"' :: behind) ?_
        · rw [← hlength, List.length_append, List.length_cons]
          omega
        · rw [List.append_assoc, List.cons_append]
      rw [name_eq_some_iff.2 ⟨body, behind, rfl, rfl, hinside⟩] at h
      contradiction
  · intro h
    rw [Option.eq_none_iff_forall_ne_some]
    intro n hn
    obtain ⟨body, behind, htext, -, hbody⟩ := name_eq_some_iff.1 hn
    exact hbody.closed (h body behind htext)

/-- On one line both patterns find the same quote. -/
theorem inline_eq_some_iff : inline t = some n ↔ name t = some n ∧ '\n' ∉ t.take n := by
  have htake (body behind : Text) :
      ('"' :: (body ++ '"' :: behind)).take (body.length + 2) = '"' :: (body ++ ['"']) := by
    rw [List.take_succ_cons, List.take_length_add_append, List.take_succ_cons, List.take_zero]
  have hallowed (body : Text) :
      (∀ c ∈ body, (c != '\n') = true) ↔ '\n' ∉ '"' :: (body ++ ['"']) := by
    simp only [bne_iff_ne, List.mem_cons, List.mem_append, List.not_mem_nil, or_false,
      Char.reduceEq, false_or]
    exact List.forall_mem_ne'
  rw [inline, nameOf_eq_some_iff rfl, name_eq_some_iff]
  constructor
  · rintro ⟨body, behind, rfl, rfl, hbody, hline⟩
    rw [htake]
    exact ⟨⟨body, behind, rfl, rfl, hbody⟩, (hallowed body).1 hline⟩
  · rintro ⟨⟨body, behind, rfl, rfl, hbody⟩, hline⟩
    rw [htake] at hline
    exact ⟨body, behind, rfl, rfl, hbody, (hallowed body).2 hline⟩

end Quoted

-- ---------------------------------------------------------------------------
-- Labels of tokens
-- ---------------------------------------------------------------------------

/-- A label of a token: the text from where it begins to the end of the token, and what was read
for it. -/
inductive Token.HasLabel (t : Token) : Text → Text → Prop
  | marked {c : Char} {written label : Text} (hkind : t.kind = .tag ∨ t.kind = .mention)
      (htext : t.text = c :: written) (hvalue : t.value = .text label) : HasLabel t written label
  | folder {c : Char} {written label : Text} (hkind : t.kind = .folder)
      (htext : t.text = c :: written) (hvalue : t.value = .text ('/' :: label)) :
      HasLabel t written label
  | argument {label : Text} (hkind : t.kind = .arg) (hvalue : t.value = .arg (some label)) :
      HasLabel t t.text label
  | bean {c : Char} {written : Text} {b : Bean} (hkind : t.kind = .bean)
      (htext : t.text = c :: written) (hvalue : t.value = .bean b) : HasLabel t written b.symbol
  | cell {c : Char} {written : Text} {m : Cell} (hkind : t.kind = .cell)
      (htext : t.text = c :: written) (hvalue : t.value = .cell m) : HasLabel t written m.symbol
  /-- The unit of a cell stands behind the first comma that does not belong to the symbol. -/
  | unit {c : Char} {symbol amount written label : Text} {m : Cell} (hkind : t.kind = .cell)
      (htext : t.text = c :: (symbol ++ (amount ++ ',' :: written)))
      (hsymbol : Label.recognize (symbol ++ (amount ++ ',' :: written)) = some symbol.length)
      (hamount : ',' ∉ amount) (hvalue : t.value = .cell m) (hunit : m.unit = some label) :
      HasLabel t written label
  | event {written : Text} {e : Event} (hkind : t.kind = .event)
      (htext : t.text = '!' :: written) (hvalue : t.value = .event e) : HasLabel t written e.label
  | closing {ellipsis written : Text} {e : Event} (hkind : t.kind = .event)
      (hellipsis : ellipsis ∈ Event.ellipses) (htext : t.text = ellipsis ++ written)
      (hvalue : t.value = .event e) : HasLabel t written e.label

/-- A label between quotes on one line, whatever stands behind it, and what the quotes hold. -/
inductive QuotedLabel : Text → Text → Prop
  | mk (q : Written.Quote) (line : '\n' ∉ q.content) (behind : Text) :
      QuotedLabel (q.print ++ behind) q.content

theorem QuotedLabel.of_print (q : Written.Quote) (line : '\n' ∉ q.content) :
    QuotedLabel q.print q.content := by
  have h := mk q line []
  rwa [List.append_nil] at h

section

variable {k : Keywords} {note written label : Text} {t : Token} {n : Nat}

/-- The pattern of a token takes its text whole, if nothing follows. -/
theorem recognizer_text_of_mem_tokenize {p : Pattern} (ht : t ∈ tokenize k note)
    (hp : t.kind.pattern? = some p) (hblob : p ≠ .textBlob) :
    p.recognizer t.text = some t.text.length := by
  obtain ⟨s, c, r, hr, rfl⟩ := exists_rule_of_mem_tokenize ht
  have hpattern : r.pattern = p := hr.pattern_of_kind hp
  have htake := hr.take_text (by rw [hpattern]; exact hblob)
  rw [hpattern] at htake
  exact (Pattern.take?_eq_some_iff.1 htake).1

namespace Recognizer

variable {r s : Recognizer} {u : Text} {p : Char → Bool} {c : Char}

/-- One recognizer behind another takes the sum of what both take. -/
theorem exists_of_both (h : both r s u = some n) :
    ∃ i j, r u = some i ∧ s (u.drop i) = some j ∧ n = i + j := by
  obtain ⟨i, hi, h⟩ := Option.bind_eq_some_iff.1 h
  obtain ⟨j, hj, rfl⟩ := Option.map_eq_some_iff.1 h
  exact ⟨i, j, hi, hj, rfl⟩

/-- What comes behind a known part takes the rest. -/
theorem behind_part {v : Text} (h : both r s (u ++ v) = some (u ++ v).length)
    (hr : r (u ++ v) = some u.length) : s v = some v.length := by
  obtain ⟨i, j, hi, hj, hlength⟩ := exists_of_both h
  obtain rfl : i = u.length := Option.some.inj (hi.symm.trans hr)
  obtain rfl : j = v.length := by
    rw [List.length_append] at hlength
    omega
  rwa [List.drop_left] at hj

theorem of_one_cons (h : one p (c :: u) = some n) : p c = true ∧ n = 1 := by
  by_cases hc : p c = true
  · exact ⟨hc, (Option.some.inj ((if_pos hc).symm.trans h)).symm⟩
  · exact absurd ((if_neg hc).symm.trans h) (Option.some_ne_none n).symm

/-- What comes behind one character takes the rest. -/
theorem behind_one (h : both (one p) s (c :: u) = some (c :: u).length) :
    p c = true ∧ s u = some u.length := by
  obtain ⟨i, j, hi, hj, hlength⟩ := exists_of_both h
  obtain ⟨hc, rfl⟩ := of_one_cons hi
  rw [List.length_cons, Nat.add_comm 1] at hlength
  rw [Nat.succ.inj hlength]
  exact ⟨hc, hj⟩

/-- An optional part is missing, or it takes all of the text. -/
theorem of_optional (h : optional r u = some u.length) : u = [] ∨ r u = some u.length := by
  unfold optional at h
  cases hr : r u with
  | none =>
    rw [hr] at h
    exact .inl (List.length_eq_zero_iff.1 (Option.some.inj h).symm)
  | some m =>
    rw [hr] at h
    exact .inr h

end Recognizer

open Recognizer

/-- A label that begins with a quote is a quote. -/
theorem exists_quote_of_recognize (h : Label.recognize written = some n)
    (hquote : written.head? = some '"') :
    ∃ (q : Written.Quote) (behind : Text), '\n' ∉ q.content ∧ written = q.print ++ behind ∧
      n = q.print.length := by
  obtain ⟨l, behind, rfl, rfl⟩ := Written.exists_label_of_recognize h
  cases l with
  | bare b => exact absurd (Option.some.inj hquote) b.head_ne_quote
  | quoted q line => exact ⟨q, behind, line, rfl, rfl⟩

/-- If all of a text is a label and begins with a quote, all of it is the quote. -/
theorem exists_quote_of_whole (h : Label.recognize written = some written.length)
    (hquote : written.head? = some '"') :
    ∃ q : Written.Quote, '\n' ∉ q.content ∧ written = q.print := by
  obtain ⟨q, behind, line, rfl, hlength⟩ := exists_quote_of_recognize h hquote
  rw [List.length_append] at hlength
  obtain rfl : behind = [] := List.length_eq_zero_iff.1 (by omega)
  exact ⟨q, line, List.append_nil _⟩

-- ---------------------------------------------------------------------------
-- Readers
-- ---------------------------------------------------------------------------

variable {p : Char → Bool} {c : Char}

/-- A label behind a mark. -/
theorem quotedLabel_of_content (h : Label.recognize written = some written.length)
    (hquote : written.head? = some '"') : QuotedLabel written (Label.content written) := by
  obtain ⟨q, line, rfl⟩ := exists_quote_of_whole h hquote
  rw [show Label.content q.print = q.content from (Written.Label.quoted q line).content_print]
  exact .of_print q line

/-- The label of a folder may be missing. -/
theorem quotedLabel_of_folder
    (h : Pattern.folder.recognizer (c :: written) = some (c :: written).length)
    (hquote : written.head? = some '"') : QuotedLabel written (Label.content written) := by
  rcases of_optional (behind_one h).2 with rfl | hlabel
  · contradiction
  · exact quotedLabel_of_content hlabel hquote

/-- An argument in quotes is a label. -/
theorem quotedLabel_of_argument (h : Pattern.argument.recognizer written = some written.length)
    (hquote : written.head? = some '"') : QuotedLabel written (Text.dequote written) := by
  obtain ⟨u, rfl⟩ := List.head?_eq_some_iff.1 hquote
  rw [Pattern.recognizer_argument_of_quote] at h
  obtain ⟨q, line, hq⟩ := exists_quote_of_whole (Option.or_eq_some_iff.2 (.inl h)) hquote
  rw [hq, q.dequote_print]
  exact .of_print q line

/-- The symbol of a bean or a cell. -/
theorem quotedLabel_of_split {r : Recognizer} (stop : Char → Bool)
    (h : both (one p) (both Label.recognize r) (c :: written) = some (c :: written).length)
    (hquote : written.head? = some '"') : QuotedLabel written (Label.split stop written).1 := by
  obtain ⟨n, -, hlabel, -⟩ := exists_of_both (behind_one h).2
  obtain ⟨q, behind, line, rfl, -⟩ := exists_quote_of_recognize hlabel hquote
  rw [q.split_print_append]
  exact .mk q line behind

/-- What stands between the symbol of a cell and its unit ends at the comma. -/
theorem takes_unit {amount : Text} (hamount : ',' ∉ amount)
    (h : both (optional (both (char ':') (optional signedNumber)))
      (optional (both (char ',') Label.recognize)) (amount ++ ',' :: written) =
        some (amount ++ ',' :: written).length) :
    Label.recognize written = some written.length ∧
      Text.StartsIn (fun c => c == ':' || c == ',') (amount ++ ',' :: written) := by
  -- no number has a comma in it, so the amount stops in front of the first one
  have hblind : Blind (· == ',') (optional (both (char ':') (optional signedNumber))) :=
    blind_optional (blind_both (blind_one (by simp)) (bounded_char ':')
      (blind_optional (blind_signedNumber (by simp [isNumberChar]))))
  have hbound : Bounded (optional (both (char ':') (optional signedNumber))) := by grind
  obtain ⟨i, j, hi, hj, hlength⟩ := exists_of_both h
  rw [hblind amount _ (Text.startsIn_cons.2 rfl)] at hi
  have hle : i ≤ amount.length := hbound amount i hi
  have hrest : (amount ++ ',' :: written).drop i = amount.drop i ++ ',' :: written :=
    List.drop_append_of_le_length hle
  obtain rfl : j = (amount.drop i ++ ',' :: written).length := by
    rw [← hrest, List.length_drop]
    omega
  rw [hrest] at hj
  replace hj := (of_optional hj).resolve_left (by simp)
  have hend : amount.drop i = [] := by
    cases hdrop : amount.drop i with
    | nil => rfl
    | cons x v =>
      rw [hdrop] at hj
      have hx : x ∈ amount := List.mem_of_mem_drop (hdrop ▸ List.mem_cons_self)
      rw [beq_iff_eq.1 (behind_one hj).1] at hx
      contradiction
  obtain rfl : i = amount.length := Nat.le_antisymm hle (List.drop_eq_nil_iff.1 hend)
  rw [hend] at hj
  refine ⟨(behind_one hj).2, ?_⟩
  cases amount with
  | nil => exact Text.startsIn_cons.2 rfl
  | cons x v =>
    have hcolon := (of_optional hi).resolve_left (List.cons_ne_nil x v)
    rw [List.cons_append, Text.startsIn_cons, (behind_one hcolon).1]
    rfl

/-- The unit of a cell, behind the comma. -/
theorem quotedLabel_of_unit {symbol amount : Text}
    (h : Pattern.cell.recognizer (c :: (symbol ++ (amount ++ ',' :: written))) =
      some (c :: (symbol ++ (amount ++ ',' :: written))).length)
    (hsymbol : Label.recognize (symbol ++ (amount ++ ',' :: written)) = some symbol.length)
    (hamount : ',' ∉ amount) (hquote : written.head? = some '"') :
    ∃ label, (Cell.read (c :: (symbol ++ (amount ++ ',' :: written)))).unit = some label ∧
      QuotedLabel written label := by
  obtain ⟨hunit, hstart⟩ := takes_unit hamount (behind_part (behind_one h).2 hsymbol)
  obtain ⟨l, rest, htext, hlabel⟩ := Written.exists_label_of_recognize hsymbol
  obtain ⟨rfl, rfl⟩ := List.append_inj htext hlabel
  have hsplit := l.split_print Written.Quantity.colon_or_comma_of_isTail hstart
  have hplain : ∀ c ∈ amount, (c != ',') = true := fun c hc =>
    bne_iff_ne.2 (ne_of_mem_of_not_mem hc hamount)
  refine ⟨Label.content written, ?_, quotedLabel_of_content hunit hquote⟩
  simp only [Cell.read, List.drop_succ_cons, List.drop_zero, hsplit]
  rw [Text.dropWhile_append_of_startsIn hplain (Text.startsIn_cons.2 rfl)]

/-- An ellipsis in either spelling. -/
theorem exists_of_ellipsis {u : Text} (h : Recognizer.ellipsis u = some n) :
    ∃ (e : Written.Ellipsis) (rest : Text), u = e.print ++ rest ∧ n = e.print.length := by
  rcases Option.or_eq_some_iff.1 h with hsign | ⟨-, hstops⟩
  · match u with
    | [] => contradiction
    | c :: rest =>
      obtain ⟨hc, rfl⟩ := of_one_cons hsign
      exact ⟨.sign, rest, by rw [beq_iff_eq.1 hc]; rfl, rfl⟩
  · obtain ⟨rest, hrest, rfl⟩ := Option.map_eq_some_iff.1 (Option.or_none.symm.trans hstops)
    exact ⟨.stops, rest, Text.after?_eq_some_iff.1 hrest, rfl⟩

/-- A quote does not end in an ellipsis. -/
def Written.Quote.title (q : Written.Quote) (line : '\n' ∉ q.content) : Written.Title where
  label := .quoted q line
  plain := by
    have hlast : q.print.getLast? = some '"' := List.getLast?_concat (l := '"' :: q.content)
    rw [Written.Label.print, hlast]
    decide

/-- The label of an event behind its mark, with an ellipsis behind it or none. -/
theorem quotedLabel_of_event
    (h : Pattern.event.recognizer ('!' :: written) = some ('!' :: written).length)
    (hquote : written.head? = some '"') :
    QuotedLabel written (Event.read ('!' :: written)).label := by
  rcases Option.or_eq_some_iff.1 h with hmarked | ⟨-, hclosing⟩
  · obtain ⟨n, -, hn, -⟩ := exists_of_both (behind_one hmarked).2
    obtain ⟨q, behind, line, rfl, rfl⟩ := exists_quote_of_recognize hn hquote
    -- nothing stands behind the label, or an ellipsis
    rcases of_optional (behind_part (behind_one hmarked).2 hn) with rfl | hellipsis
    · have hread : Event.read ('!' :: q.print) = _ :=
        (Written.Event.point (q.title line)).read_print
      rw [List.append_nil, hread]
      exact .of_print q line
    · obtain ⟨e, rest, rfl, hlength⟩ := exists_of_ellipsis hellipsis
      obtain rfl : rest = [] := by
        rw [List.length_append] at hlength
        exact List.length_eq_zero_iff.1 (by omega)
      have hread : Event.read ('!' :: (q.print ++ e.print)) = _ :=
        (Written.Event.opens (q.title line) e).read_print
      rw [List.append_nil, hread]
      exact .mk q line e.print
  · contradiction

/-- The label of an event behind an ellipsis. -/
theorem quotedLabel_of_closing (e : Written.Ellipsis)
    (h : Pattern.event.recognizer (e.print ++ written) = some (e.print ++ written).length)
    (hquote : written.head? = some '"') :
    QuotedLabel written (Event.read (e.print ++ written)).label := by
  rcases Option.or_eq_some_iff.1 h with hmarked | ⟨-, hclosing⟩
  · cases e <;> contradiction
  · have hlabel := behind_part (Option.or_none.symm.trans hclosing)
      (Written.takes_ellipsis e written)
    obtain ⟨q, line, rfl⟩ := exists_quote_of_whole hlabel hquote
    have hread : Event.read (e.print ++ q.print) = _ :=
      (Written.Event.closes e (q.title line)).read_print
    rw [hread]
    exact .of_print q line

-- ---------------------------------------------------------------------------
-- Tokens
-- ---------------------------------------------------------------------------

/-- A label that a token has in quotes is read as what these hold. -/
theorem Token.HasLabel.quotedLabel (h : t.HasLabel written label) (ht : t ∈ tokenize k note)
    (hquote : written.head? = some '"') : QuotedLabel written label := by
  have hdecode (hlexed : t.kind.isLexed = true) : t.value = decode t.kind t.text :=
    (decoded_of_mem_tokenize ht).value_of_isLexed hlexed
  have htake {p : Pattern} (hp : t.kind.pattern? = some p) (hblob : p ≠ .textBlob) :
      p.recognizer t.text = some t.text.length :=
    recognizer_text_of_mem_tokenize ht hp hblob
  -- kind by kind: the pattern has taken the text whole, and the value is what the reader made of it
  cases h with
  | @marked c written label hkind htext hvalue =>
    rw [htext] at hdecode htake
    obtain ⟨hlabel, hread⟩ : Label.recognize written = some written.length ∧
        t.value = .text (Label.content written) := by
      rcases hkind with hkind | hkind <;> rw [hkind] at hdecode htake
      · exact ⟨(behind_one (htake rfl (by decide))).2, hdecode rfl⟩
      · exact ⟨(behind_one (htake rfl (by decide))).2, hdecode rfl⟩
    obtain rfl : Label.content written = label := Value.text.inj (hread.symm.trans hvalue)
    exact quotedLabel_of_content hlabel hquote
  | @folder c written label hkind htext hvalue =>
    rw [htext, hkind] at hdecode htake
    have hpath : '/' :: Label.content written = '/' :: label :=
      Value.text.inj ((hdecode rfl).symm.trans hvalue)
    rw [← (List.cons.inj hpath).2]
    exact quotedLabel_of_folder (htake rfl (by decide)) hquote
  | @argument label hkind hvalue =>
    rw [hkind] at hdecode htake
    have harg : Decode.arg t.text = some label := Value.arg.inj ((hdecode rfl).symm.trans hvalue)
    have hdash : t.text ≠ ['-'] := by
      intro hdash
      rw [hdash] at hquote
      contradiction
    rw [Decode.arg, if_neg hdash, Option.some_inj] at harg
    rw [← harg]
    exact quotedLabel_of_argument (htake rfl (by decide)) hquote
  | @bean c written b hkind htext hvalue =>
    rw [htext, hkind] at hdecode htake
    obtain rfl : Bean.read (c :: written) = b := Value.bean.inj ((hdecode rfl).symm.trans hvalue)
    exact quotedLabel_of_split (· == ':') (htake rfl (by decide)) hquote
  | @cell c written m hkind htext hvalue =>
    rw [htext, hkind] at hdecode htake
    obtain rfl : Cell.read (c :: written) = m := Value.cell.inj ((hdecode rfl).symm.trans hvalue)
    exact quotedLabel_of_split (fun c => c == ':' || c == ',') (htake rfl (by decide)) hquote
  | @unit c symbol amount written label m hkind htext hsymbol hamount hvalue hunit =>
    rw [htext, hkind] at hdecode htake
    obtain ⟨label', hread, hlabel⟩ :=
      quotedLabel_of_unit (htake rfl (by decide)) hsymbol hamount hquote
    rw [Value.cell.inj ((hdecode rfl).symm.trans hvalue), hunit] at hread
    rw [Option.some.inj hread]
    exact hlabel
  | @event written e hkind htext hvalue =>
    rw [htext, hkind] at hdecode htake
    obtain rfl : Event.read ('!' :: written) = e :=
      Value.event.inj ((hdecode rfl).symm.trans hvalue)
    exact quotedLabel_of_event (htake rfl (by decide)) hquote
  | @closing ellipsis written e hkind hellipsis htext hvalue =>
    rw [htext, hkind] at hdecode htake
    obtain rfl : Event.read (ellipsis ++ written) = e :=
      Value.event.inj ((hdecode rfl).symm.trans hvalue)
    obtain ⟨e, rfl⟩ : ∃ e : Written.Ellipsis, ellipsis = e.print := by
      rcases List.mem_cons.1 hellipsis with rfl | hstops
      · exact ⟨.sign, rfl⟩
      · exact ⟨.stops, List.mem_singleton.1 hstops⟩
    exact quotedLabel_of_closing e (htake rfl (by decide)) hquote

end

-- ---------------------------------------------------------------------------
-- All quotes
-- ---------------------------------------------------------------------------

/-- A name in quotes is never empty, so the pattern for the names of a link takes it. -/
theorem Pattern.take?_quotedName (t : Text) : Pattern.quotedName.take? t = Quoted.name t := by
  show (Quoted.name t).filter (0 < ·) = Quoted.name t
  cases hname : Quoted.name t with
  | none => rfl
  | some n =>
    obtain ⟨body, -, -, rfl, -⟩ := Quoted.name_eq_some_iff.1 hname
    exact Option.filter_eq_some_iff.2 ⟨rfl, by simp⟩

/-- Where a quote stands first, a label is a name in quotes on one line. -/
theorem Label.recognize_of_quote {t : Text} (hquote : t.head? = some '"') :
    Label.recognize t = Quoted.inline t := by
  obtain ⟨u, rfl⟩ := List.head?_eq_some_iff.1 hquote
  show (Quoted.inline ('"' :: u)).or none = _
  rw [Option.or_none]

/-- Wherever a quoted label is looked for, it ends with the same quote. -/
theorem QuotedLabel.ends {written label : Text} (h : QuotedLabel written label) :
    (∃ behind, written = '"' :: (label ++ '"' :: behind)) ∧
      ∀ more, Label.recognize (written ++ more) = some (label.length + 2) ∧
        Quoted.name (written ++ more) = some (label.length + 2) := by
  obtain ⟨q, line, behind⟩ := h
  refine ⟨⟨behind, q.print_append behind⟩, fun more => ?_⟩
  rw [List.append_assoc, ← q.length_print]
  exact ⟨q.takes line _, q.name_print_append _⟩

/-- **All quotes are closed by the same rule.**  A name in quotes ends with the first quote behind
an even number of backslashes, and there is none if there is no such quote; the pattern for the
names of a link takes just this, and the patterns for labels do unless there is a line feed in it.
So a label that a token has in quotes is read as what stands between the quotes that the pattern
has found, whatever comes behind the token. -/
theorem closing_quotes_agree (t : Text) :
    (∀ n, Quoted.name t = some n ↔
      ∃ body behind, t = '"' :: (body ++ '"' :: behind) ∧ n = body.length + 2 ∧
        Quoted.Inside body) ∧
    (Quoted.name t = none ↔
      ∀ body behind : Text, t = '"' :: (body ++ '"' :: behind) → body.Escapes) ∧
    Pattern.quotedName.take? t = Quoted.name t ∧
    (∀ n, t.head? = some '"' →
      (Label.recognize t = some n ↔ Quoted.name t = some n ∧ '\n' ∉ t.take n)) ∧
    (∀ k, ∀ tok ∈ tokenize k t, ∀ written label, tok.HasLabel written label →
      written.head? = some '"' →
        (∃ behind, written = '"' :: (label ++ '"' :: behind)) ∧
          ∀ more, Label.recognize (written ++ more) = some (label.length + 2) ∧
            Quoted.name (written ++ more) = some (label.length + 2)) := by
  refine ⟨fun n => Quoted.name_eq_some_iff, Quoted.name_eq_none_iff, Pattern.take?_quotedName t,
    ?_, ?_⟩
  · intro n hquote
    rw [Label.recognize_of_quote hquote, Quoted.inline_eq_some_iff]
  · intro k tok htok written label hlabel hquote
    exact (hlabel.quotedLabel htok hquote).ends

/-- A unit with an escaped quote, behind a symbol with a comma. -/
theorem closing_quotes_agree_unit :
    ∃ tok ∈ tokenize Keywords.standard "%\"a,b\":1,\"c\\\"d\" \"x\"".toList,
      tok.HasLabel "\"c\\\"d\"".toList "c\\\"d".toList ∧
        Label.recognize "\"c\\\"d\" \"x\"".toList = some 6 ∧
        Quoted.name "\"c\\\"d\" \"x\"".toList = some 6 := by
  obtain ⟨tok, htok, hkind, htext⟩ :
      ∃ tok ∈ tokenize Keywords.standard "%\"a,b\":1,\"c\\\"d\" \"x\"".toList,
        tok.kind = .cell ∧ tok.text = "%\"a,b\":1,\"c\\\"d\"".toList := by
    decide +kernel
  have hvalue := (decoded_of_mem_tokenize htok).value_of_isLexed (by rw [hkind]; rfl)
  rw [hkind, htext] at hvalue
  have hlabel : tok.HasLabel "\"c\\\"d\"".toList "c\\\"d".toList :=
    @Token.HasLabel.unit tok '%' "\"a,b\"".toList [':', '1'] _ _ _ hkind htext (by decide)
      (by decide) hvalue (by decide)
  obtain ⟨-, hends⟩ :=
    (closing_quotes_agree _).2.2.2.2 Keywords.standard tok htok _ _ hlabel rfl
  exact ⟨tok, htok, hlabel, hends " \"x\"".toList⟩

end Jot
