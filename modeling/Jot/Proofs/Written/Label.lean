import Jot.Proofs.Delimiter

/-!
# Jot — quotes and labels, written and read

A label is written without quotes or between them.  Without quotes it ends where its characters
end, or when it is as long as a label can be; between quotes it ends at the closing one.  The
patterns, which look for the end of a label, and the readers of values, which look for what may
stand behind it, find the same end.

* `Quotable`, `Quote`, `Bare`, `Label` — what can be written;
* `Quote.nameOf_print_append`, `Quote.dequote_print` — quotes in front of any text;
* `Bare.takes`, `Label.takes` — what the patterns take for a label;
* `exists_quote_of_nameOf`, `exists_label_of_recognize` — they take nothing else for one;
* `Label.content_print`, `Label.split_print` — what is read from it.
-/

namespace Jot

namespace Written

-- ---------------------------------------------------------------------------
-- Quotes
-- ---------------------------------------------------------------------------

/-- What can stand between quotes: characters other than the quote and the backslash, and any
character behind a backslash. -/
inductive Quotable : Text → Prop where
  | nil : Quotable []
  | plain {c : Char} {t : Text} (hquote : c ≠ '"') (hescape : c ≠ '\\') (tail : Quotable t) :
      Quotable (c :: t)
  | escaped (c : Char) {t : Text} (tail : Quotable t) : Quotable ('\\' :: c :: t)

/-- A content that can be written between quotes. -/
structure Quote where
  content  : Text
  quotable : Quotable content

def Quote.print (q : Quote) : Text := '"' :: (q.content ++ ['"'])

/-- The closing quote is found behind a content that can be quoted. -/
theorem Quotable.close_append {allowed : Char → Bool} {t : Text} (h : Quotable t)
    (hallowed : ∀ c ∈ t, allowed c = true) (n : Nat) (rest : Text) :
    Quoted.close allowed n (t ++ '"' :: rest) = some (n + t.length + 1) := by
  -- on how the content is made up: what stands behind a backslash is passed over with it
  induction h generalizing n with
  | nil => rfl
  | plain hquote hescape _ ih =>
    obtain ⟨hc, ht⟩ := List.forall_mem_cons.1 hallowed
    rw [List.cons_append, Quoted.close_cons_of_plain hquote hescape, if_pos hc, ih ht]
    simp only [List.length_cons, Option.some_inj]
    omega
  | escaped c _ ih =>
    obtain ⟨-, hallowed⟩ := List.forall_mem_cons.1 hallowed
    obtain ⟨hc, ht⟩ := List.forall_mem_cons.1 hallowed
    rw [List.cons_append, List.cons_append, Quoted.close, if_pos hc, ih ht]
    simp only [List.length_cons, Option.some_inj]
    omega

/-- What is passed on the way to the closing quote can be written between quotes. -/
theorem exists_quotable_of_close {allowed : Char → Bool} {n m : Nat} {t : Text}
    (hescape : allowed '\\' = true) (h : Quoted.close allowed n t = some m) :
    ∃ body rest, Quotable body ∧ (∀ c ∈ body, allowed c = true) ∧ t = body ++ '"' :: rest ∧
      m = n + body.length + 1 := by
  -- on the search, which stops at a quote, passes pairs with a backslash, and passes other
  -- characters
  fun_induction Quoted.close allowed n t with
  | case1 | case4 | case5 | case7 => contradiction
  | case2 n rest => exact ⟨[], rest, .nil, List.forall_mem_nil _, rfl, (Option.some.inj h).symm⟩
  | case3 n c t hc ih =>
    obtain ⟨body, rest, hbody, hallowed, rfl, rfl⟩ := ih h
    refine ⟨'\\' :: c :: body, rest, .escaped c hbody, ?_, rfl, ?_⟩
    · exact List.forall_mem_cons.2 ⟨hescape, List.forall_mem_cons.2 ⟨hc, hallowed⟩⟩
    · simp only [List.length_cons]
      omega
  | case6 n c t hquote hnext hlast hc ih =>
    obtain ⟨body, rest, hbody, hallowed, rfl, rfl⟩ := ih h
    have hne : c ≠ '\\' := by
      rintro rfl
      cases body with
      | nil => exact hnext '"' rest rfl rfl
      | cons x body => exact hnext x _ rfl rfl
    refine ⟨c :: body, rest, .plain (fun hc => hquote hc) hne hbody,
      List.forall_mem_cons.2 ⟨hc, hallowed⟩, rfl, ?_⟩
    simp only [List.length_cons]
    omega

namespace Quote

theorem print_append (q : Quote) (rest : Text) :
    q.print ++ rest = '"' :: (q.content ++ '"' :: rest) := by
  simp [print]

theorem length_print (q : Quote) : q.print.length = q.content.length + 2 := by
  simp [print]

/-- A quote ends at its closing one, whatever comes behind it. -/
theorem nameOf_print_append {allowed : Char → Bool} (q : Quote)
    (hallowed : ∀ c ∈ q.content, allowed c = true) (rest : Text) :
    Quoted.nameOf allowed (q.print ++ rest) = some q.print.length := by
  rw [q.print_append, q.length_print]
  refine (q.quotable.close_append hallowed 1 rest).trans ?_
  rw [Option.some_inj]
  omega

/-- A name in quotes ends at the closing quote. -/
theorem name_print_append (q : Quote) (rest : Text) :
    Quoted.name (q.print ++ rest) = some q.print.length :=
  q.nameOf_print_append (fun _ _ => rfl) rest

/-- The pattern for names in quotes takes a quote whole. -/
theorem take?_print (q : Quote) (rest : Text) :
    Pattern.quotedName.take? (q.print ++ rest) = some q.print.length := by
  rw [Pattern.take?, Pattern.recognizer, q.name_print_append, Option.filter_some]
  exact if_pos (by simp [print])

theorem isQuoted_print (q : Quote) : Text.isQuoted q.print = true := by
  have hname := q.name_print_append []
  rw [List.append_nil] at hname
  rw [Text.isQuoted, hname, beq_self_eq_true]

theorem dequote_print (q : Quote) : Text.dequote q.print = q.content := by
  rw [Text.dequote, if_pos q.isQuoted_print]
  simp [print]

/-- On one line a quote is a label. -/
theorem takes (q : Quote) (line : '\n' ∉ q.content) (rest : Text) :
    Recognizer.Takes Label.recognize q.print rest := by
  have hallowed : ∀ c ∈ q.content, (c != '\n') = true := fun c hc => by
    rw [bne_iff_ne]
    rintro rfl
    exact line hc
  exact Recognizer.takes_firstOf (q.nameOf_print_append hallowed rest)

/-- A quote is split off where it ends. -/
theorem split_print_append (q : Quote) (stop : Char → Bool) (rest : Text) :
    Jot.Label.split stop (q.print ++ rest) = (q.content, rest) := by
  rw [Jot.Label.split, q.name_print_append]
  simp only
  rw [List.take_left, List.drop_left, q.dequote_print]

end Quote

/-- A name in quotes is a quote. -/
theorem exists_quote_of_nameOf {allowed : Char → Bool} {n : Nat} {t : Text}
    (hescape : allowed '\\' = true) (h : Quoted.nameOf allowed t = some n) :
    ∃ (q : Quote) (rest : Text), t = q.print ++ rest ∧ n = q.print.length ∧
      ∀ c ∈ q.content, allowed c = true := by
  unfold Quoted.nameOf at h
  split at h
  · obtain ⟨body, rest, hbody, hallowed, rfl, rfl⟩ := exists_quotable_of_close hescape h
    let q : Quote := ⟨body, hbody⟩
    refine ⟨q, rest, (q.print_append rest).symm, ?_, hallowed⟩
    rw [q.length_print]
    show 1 + body.length + 1 = body.length + 2
    omega
  · contradiction

-- ---------------------------------------------------------------------------
-- Labels
-- ---------------------------------------------------------------------------

/-- A label without quotes. -/
structure Bare where
  head   : Char
  tail   : Text
  lead   : Label.isLead head = true
  tails  : ∀ c ∈ tail, Label.isTail c = true
  length : tail.length ≤ Label.tailLimit

/-- A label; a quoted one stands on one line. -/
inductive Label where
  | bare (b : Bare)
  | quoted (q : Quote) (line : '\n' ∉ q.content)

def Bare.print (b : Bare) : Text := b.head :: b.tail

def Label.print : Label → Text
  | bare b => b.print
  | quoted q _ => q.print

/-- What a label stands for; case counts only between quotes. -/
def Label.content : Label → Text
  | bare b => b.print.lowercase
  | quoted q _ => q.content

theorem isTail_of_isLead {c : Char} (h : Jot.Label.isLead c = true) :
    Jot.Label.isTail c = true := by
  simp [Jot.Label.isTail, h]

namespace Bare

variable {rest : Text}

theorem isTail_of_mem_print (b : Bare) : ∀ c ∈ b.print, Jot.Label.isTail c = true :=
  List.forall_mem_cons.2 ⟨isTail_of_isLead b.lead, b.tails⟩

/-- A bare label does not begin with a quote. -/
theorem head_ne_quote (b : Bare) : b.head ≠ '"' := by
  intro h
  have hlead := b.lead
  rw [h] at hlead
  contradiction

theorem nameOf_print_append (b : Bare) (allowed : Char → Bool) (rest : Text) :
    Quoted.nameOf allowed (b.print ++ rest) = none :=
  Quoted.nameOf_of_ne b.head_ne_quote _

/-- A label as long as a label can be is taken in front of anything. -/
theorem takes (b : Bare) (hrest : b.tail.length = Jot.Label.tailLimit ∨
    rest.StartsIn fun c => !Jot.Label.isTail c) :
    Recognizer.Takes Jot.Label.recognize b.print rest := by
  have hhead : Recognizer.Takes (.one Jot.Label.isLead) [b.head] (b.tail ++ rest) := if_pos b.lead
  have hbare : Recognizer.Takes Jot.Label.bare b.print rest :=
    Recognizer.takes_both hhead (Recognizer.takes_upTo b.tails b.length hrest)
  exact Recognizer.takes_firstOf_of_none (b.nameOf_print_append _ rest)
    (Recognizer.takes_firstOf hbare)

end Bare

namespace Label

variable {rest : Text} {stop : Char → Bool}

/-- A label is taken where a character comes that cannot belong to it. -/
theorem takes (l : Label) (hrest : rest.StartsIn fun c => !Jot.Label.isTail c) :
    Recognizer.Takes Jot.Label.recognize l.print rest := by
  cases l with
  | bare b => exact b.takes (.inr hrest)
  | quoted q line => exact q.takes line rest

/-- A written label stands for its content. -/
theorem content_print (l : Label) : Jot.Label.content l.print = l.content := by
  cases l with
  | bare b =>
    have hname : Quoted.name b.print = none := by
      have h := b.nameOf_print_append (fun _ => true) []
      rwa [List.append_nil] at h
    have hquoted : ¬Text.isQuoted b.print = true := by
      rw [Text.isQuoted, hname]
      exact Bool.false_ne_true
    exact if_neg hquoted
  | quoted q line =>
    rw [print, Jot.Label.content, if_pos q.isQuoted_print, q.dequote_print]
    rfl

/-- A label is split off where a character comes that cannot belong to it. -/
theorem split_print (l : Label) (hstop : ∀ c, Jot.Label.isTail c = true → stop c = false)
    (hrest : rest.StartsIn stop) : Jot.Label.split stop (l.print ++ rest) = (l.content, rest) := by
  cases l with
  | bare b =>
    have hname : Quoted.name (b.print ++ rest) = none := b.nameOf_print_append _ rest
    have hall : ∀ c ∈ b.print, (!stop c) = true := fun c hc => by
      rw [hstop c (b.isTail_of_mem_print c hc)]
      rfl
    have hend : rest.StartsIn fun c => !(!stop c) := by simpa using hrest
    rw [print, Jot.Label.split, hname]
    simp only
    rw [Text.takeWhile_append_of_startsIn hall hend, Text.dropWhile_append_of_startsIn hall hend]
    rfl
  | quoted q line => exact q.split_print_append stop rest

end Label

/-- What is recognised as a bare label is one. -/
theorem exists_bare_of_recognize {t : Text} {n : Nat} (h : Jot.Label.bare t = some n) :
    ∃ (b : Bare) (rest : Text), t = b.print ++ rest ∧ n = b.print.length := by
  obtain ⟨m, hlead, htail⟩ := Option.bind_eq_some_iff.1 h
  match t with
  | [] => contradiction
  | c :: u =>
    by_cases hc : Jot.Label.isLead c = true
    · obtain rfl : 1 = m := Option.some.inj ((if_pos hc).symm.trans hlead)
      obtain ⟨length, hlength, rfl⟩ := Option.map_eq_some_iff.1 htail
      obtain ⟨rest, hrest⟩ := (List.takeWhile_prefix Jot.Label.isTail).trans
        (List.take_prefix Jot.Label.tailLimit u)
      -- the longest row of characters of labels, cut off at the limit
      let b : Bare := {
        head   := c
        tail   := (u.take Jot.Label.tailLimit).takeWhile Jot.Label.isTail
        lead   := hc
        tails  := List.all_eq_true.1 List.all_takeWhile
        length := Nat.le_trans (Recognizer.length_takeWhile_le _ _) (List.length_take_le _ _) }
      refine ⟨b, rest, congrArg (c :: ·) hrest.symm, ?_⟩
      rw [← Option.some.inj hlength]
      exact Nat.add_comm 1 _
    · exact absurd ((if_neg hc).symm.trans hlead) (Option.some_ne_none m).symm

/-- What is recognised as a label is one. -/
theorem exists_label_of_recognize {t : Text} {n : Nat} (h : Jot.Label.recognize t = some n) :
    ∃ (l : Label) (rest : Text), t = l.print ++ rest ∧ n = l.print.length := by
  rcases Option.or_eq_some_iff.1 h with hquoted | ⟨-, hbare⟩
  · obtain ⟨q, rest, rfl, rfl, hallowed⟩ := exists_quote_of_nameOf rfl hquoted
    have hline : '\n' ∉ q.content := fun hfeed => absurd (hallowed _ hfeed) (by decide)
    exact ⟨.quoted q hline, rest, rfl, rfl⟩
  · obtain ⟨b, rest, rfl, rfl⟩ := exists_bare_of_recognize (Option.or_none.symm.trans hbare)
    exact ⟨.bare b, rest, rfl, rfl⟩

end Written

end Jot
