import Jot.Proofs.Boundary

/-!
# Jot — delimiters

What does not belong to a label, a number or an operator ends it, whatever comes behind, so these
are cut in the same place in front of any text that begins with a character that stops them.  A
quoted label ends at its closing quote.

* `Recognizer.Takes` — a recogniser takes a text whole in front of another one;
* `Recognizer.Blind` — a recogniser that does not look past a character that stops it;
* `Recognizer.blind_number`, `Recognizer.blind_bare`, `Recognizer.blind_operatorName`;
* `Pattern.take?_operator_append`, `Pattern.take?_argument_append` — operators and arguments
  in front of a delimiter.
-/

namespace Jot

/-- The characters that may stand behind an operator or an argument. -/
def isDelimiter (c : Char) : Bool := c == ' ' || c == ')'

/-- The characters of numbers. -/
def isNumberChar (c : Char) : Bool :=
  c.isDigit || c == '.' || c == 'e' || c == 'E' || c == '+' || c == '-'

/-- A class that holds neither of two characters holds nothing that is one of them. -/
theorem eq_false_of_beq_or {p : Char → Bool} {a b : Char} (ha : p a = false) (hb : p b = false) :
    ∀ c, (c == a || c == b) = true → p c = false := by
  intro c hc
  rw [Bool.or_eq_true, beq_iff_eq, beq_iff_eq] at hc
  rcases hc with rfl | rfl
  · exact ha
  · exact hb

/-- A class with neither the space nor the closing parenthesis is stopped by delimiters. -/
theorem eq_false_of_isDelimiter {p : Char → Bool} (hspace : p ' ' = false)
    (hclose : p ')' = false) : ∀ c, isDelimiter c = true → p c = false :=
  eq_false_of_beq_or hspace hclose

theorem Text.StartsIn.mono {p q : Char → Bool} {t : Text} (h : t.StartsIn p)
    (hpq : ∀ c, p c = true → q c = true) : t.StartsIn q :=
  fun c hc => hpq c (h c hc)

theorem Text.StartsIn.of_beq {p : Char → Bool} {a : Char} {t : Text} (h : t.StartsIn (· == a))
    (ha : p a = true) : t.StartsIn p :=
  h.mono fun c hc => by rwa [beq_iff_eq.1 hc]

theorem Text.StartsIn.stop {p stop : Char → Bool} {t : Text} (h : t.StartsIn stop)
    (hstop : ∀ c, stop c = true → p c = false) : t.StartsIn fun c => !p c :=
  h.mono fun c hc => by rw [hstop c hc]; rfl

namespace Recognizer

variable {p stop : Char → Bool} {r s : Recognizer} {rs : List Recognizer} {v w t rest : Text}

-- ---------------------------------------------------------------------------
-- Taking a text
-- ---------------------------------------------------------------------------

/-- The recogniser takes `v`, and no more, when `rest` follows. -/
def Takes (r : Recognizer) (v rest : Text) : Prop := r (v ++ rest) = some v.length

/-- A sequence takes what its parts take one behind the other. -/
theorem takes_both (hr : Takes r v (w ++ rest)) (hs : Takes s w rest) :
    Takes (both r s) (v ++ w) rest := by
  rw [Takes, both, List.append_assoc, hr, Option.bind_some, List.drop_left, hs, Option.map_some,
    List.length_append]

/-- The last part of a text. -/
theorem both_append (hr : Takes r v w) (hs : s w = some w.length) :
    both r s (v ++ w) = some (v ++ w).length := by
  rw [both, hr, Option.bind_some, List.drop_left, hs, Option.map_some, List.length_append]

theorem takes_optional (h : Takes r v rest) : Takes (optional r) v rest := by
  rw [Takes, optional, h, Option.getD_some]

theorem takes_optional_nil (h : r rest = none) : Takes (optional r) [] rest := by
  rw [Takes, optional, List.nil_append, h]
  rfl

/-- The first recogniser is preferred. -/
theorem takes_firstOf (h : Takes r v rest) : Takes (firstOf (r :: rs)) v rest := by
  show (r (v ++ rest)).or _ = _
  rw [h, Option.some_or]

theorem takes_firstOf_of_none (hr : r (v ++ rest) = none) (h : Takes (firstOf rs) v rest) :
    Takes (firstOf (r :: rs)) v rest := by
  show (r (v ++ rest)).or (firstOf rs (v ++ rest)) = _
  rw [hr, Option.none_or, h]

/-- A class does not match where no character of it stands. -/
theorem one_eq_none (h : t.StartsIn fun c => !p c) : one p t = none := by
  cases t with
  | nil => rfl
  | cons c t =>
    have hc : ¬p c = true := by simpa using h
    exact if_neg hc

-- ---------------------------------------------------------------------------
-- Recognisers that do not look past a character that stops them
-- ---------------------------------------------------------------------------

/-- Nothing changes when a text is continued with a character that stops the recogniser. -/
def Blind (stop : Char → Bool) (r : Recognizer) : Prop :=
  ∀ t rest : Text, rest.StartsIn stop → r (t ++ rest) = r t

/-- A text that is taken whole is taken whole in front of a character that stops. -/
theorem Blind.takes (h : Blind stop r) (hv : r v = some v.length) (hrest : rest.StartsIn stop) :
    Takes r v rest :=
  (h v rest hrest).trans hv

/-- No character that stops is taken. -/
theorem Blind.eq_false_of_mem (h : Blind stop r) (hbound : Bounded r) (hv : r v = some v.length) :
    ∀ c ∈ v, stop c = false := by
  intro c hc
  obtain ⟨front, behind, rfl⟩ := List.append_of_mem hc
  refine Bool.eq_false_iff.2 fun hstop => ?_
  rw [h front _ (Text.startsIn_cons.2 hstop)] at hv
  have hle := hbound front _ hv
  simp only [List.length_append, List.length_cons] at hle
  omega

/-- Characters of a class are taken up to what is not of the class, and what follows has no say in
it. -/
theorem takeWhile_append_of_stop (h : rest.StartsIn fun c => !p c) (t : Text) :
    (t ++ rest).takeWhile p = t.takeWhile p := by
  induction t with
  | nil => exact Text.takeWhile_append_of_startsIn (s := []) (by simp) h
  | cons c t ih =>
    rw [List.cons_append, List.takeWhile_cons, List.takeWhile_cons, ih]

theorem startsIn_take (h : rest.StartsIn p) (n : Nat) : Text.StartsIn p (rest.take n) := by
  intro c hc
  refine h c ?_
  cases rest with
  | nil => simp at hc
  | cons x rest =>
    cases n with
    | zero => simp at hc
    | succ n => exact hc

/-- A text of the greatest length is taken whole in front of any other. -/
theorem takes_upTo {n : Nat} (hv : ∀ c ∈ v, p c = true) (hlength : v.length ≤ n)
    (hrest : v.length = n ∨ rest.StartsIn fun c => !p c) : Takes (upTo n p) v rest := by
  -- behind a text of the greatest length nothing more is looked at
  have hstart : Text.StartsIn (fun c => !p c) (rest.take (n - v.length)) := by
    rcases hrest with rfl | hrest
    · simp
    · exact startsIn_take hrest _
  rw [Takes, upTo, List.take_append, List.take_of_length_le hlength,
    Text.takeWhile_append_of_startsIn hv hstart]

section

variable (hstop : ∀ c, stop c = true → p c = false)

include hstop

/-- A class is blind to what is not of the class. -/
theorem blind_one : Blind stop (one p) := by
  intro t rest h
  cases t with
  | cons c t => rfl
  | nil => exact one_eq_none (h.stop hstop)

/-- A repetition of a class is blind to the same, since it ends where the class does. -/
theorem blind_many : Blind stop (many p) := by
  intro t rest h
  rw [many, takeWhile_append_of_stop (h.stop hstop), many]

theorem blind_many1 : Blind stop (many1 p) := by
  intro t rest h
  rw [many1, takeWhile_append_of_stop (h.stop hstop), many1]

/-- A bounded repetition may end earlier, and then it looks at nothing behind. -/
theorem blind_upTo (n : Nat) : Blind stop (upTo n p) := by
  intro t rest h
  have htake := startsIn_take (h.stop hstop) (n - t.length)
  rw [upTo, List.take_append, takeWhile_append_of_stop htake, upTo]

end

theorem blind_optional (h : Blind stop r) : Blind stop (optional r) := by
  intro t rest hrest
  rw [optional, h t rest hrest, optional]

/-- A sequence is blind if its parts are. -/
theorem blind_both (hr : Blind stop r) (hbound : Bounded r) (hs : Blind stop s) :
    Blind stop (both r s) := by
  intro t rest hrest
  rw [both, both, hr t rest hrest]
  cases hn : r t with
  | none => rfl
  | some n =>
    -- the first part stays in the text, so the second one sees the rest of it, continued
    have hle : n ≤ t.length := hbound t n hn
    rw [Option.bind_some, Option.bind_some, List.drop_append_of_le_length hle, hs _ rest hrest]

theorem blind_firstOf_nil : Blind stop (firstOf []) := fun _ _ _ => rfl

/-- An alternative is blind if each of its recognisers is. -/
theorem blind_firstOf_cons (hr : Blind stop r) (hrs : Blind stop (firstOf rs)) :
    Blind stop (firstOf (r :: rs)) := by
  intro t rest hrest
  show (r (t ++ rest)).or (firstOf rs (t ++ rest)) = (r t).or (firstOf rs t)
  rw [hr t rest hrest, hrs t rest hrest]

/-- A number ends in front of what is no character of numbers. -/
theorem blind_number (hstop : ∀ c, stop c = true → isNumberChar c = false) :
    Blind stop number := by
  have hchars {c : Char} (hc : stop c = true) :
      c.isDigit = false ∧ (c == '.') = false ∧ (c == 'e' || c == 'E') = false ∧
        (c == '+' || c == '-') = false := by
    have h := hstop c hc
    simp only [isNumberChar, Bool.or_eq_false_iff] at h ⊢
    exact ⟨h.1.1.1.1.1, h.1.1.1.1.2, ⟨h.1.1.1.2, h.1.1.2⟩, h.1.2, h.2⟩
  -- the parts of a number use only characters of numbers, so each of them is blind
  have hdigits : Blind stop (many1 Char.isDigit) := blind_many1 fun c hc => (hchars hc).1
  have hpoint : Blind stop (both (char '.') (many1 Char.isDigit)) :=
    blind_both (blind_one fun c hc => (hchars hc).2.1) (bounded_char _) hdigits
  have hfraction : Blind stop (both (many Char.isDigit) (both (char '.') (many1 Char.isDigit))) :=
    blind_both (blind_many fun c hc => (hchars hc).1) (bounded_many _) hpoint
  have hmantissa := blind_firstOf_cons hfraction (blind_firstOf_cons hdigits blind_firstOf_nil)
  have hsign : Blind stop (optional (one fun c => c == '+' || c == '-')) :=
    blind_optional (blind_one fun c hc => (hchars hc).2.2.2)
  have hexponent : Blind stop (both (one fun c => c == 'e' || c == 'E')
      (both (optional (one fun c => c == '+' || c == '-')) (many1 Char.isDigit))) :=
    blind_both (blind_one fun c hc => (hchars hc).2.2.1) (bounded_one _)
      (blind_both hsign (bounded_optional (bounded_one _)) hdigits)
  exact blind_both hmantissa (by grind) (blind_optional hexponent)

/-- A sign in front makes no difference. -/
theorem blind_signedNumber (hstop : ∀ c, stop c = true → isNumberChar c = false) :
    Blind stop signedNumber := by
  have hsign : ∀ c, stop c = true → (c == '-') = false := fun c hc =>
    (Bool.or_eq_false_iff.1 (hstop c hc)).2
  exact blind_both (blind_optional (blind_one hsign)) (bounded_optional (bounded_char _))
    (blind_number hstop)

/-- A label without quotation marks ends in front of what is no character of labels. -/
theorem blind_bare (hstop : ∀ c, stop c = true → Label.isTail c = false) :
    Blind stop Label.bare := by
  have hlead : ∀ c, stop c = true → Label.isLead c = false := fun c hc =>
    (Bool.or_eq_false_iff.1 (Bool.or_eq_false_iff.1 (Bool.or_eq_false_iff.1 (hstop c hc)).1).1).1
  exact blind_both (blind_one hlead) (bounded_one _) (blind_upTo hstop _)

/-- An operator ends in front of what is no character of operators. -/
theorem blind_operatorName (hstop : ∀ c, stop c = true → isOperatorChar c = false) :
    Blind stop operatorName :=
  blind_both (blind_one hstop) (bounded_one _) (blind_upTo hstop _)

end Recognizer

-- ---------------------------------------------------------------------------
-- Quoted names
-- ---------------------------------------------------------------------------

namespace Quoted

variable {allowed : Char → Bool} {n m : Nat} {t : Text}

/-- Any character but a quote and a backslash is passed over, if it is allowed. -/
theorem close_cons_of_plain {c : Char} (hquote : c ≠ '"') (hescape : c ≠ '\\') :
    close allowed n (c :: t) = if allowed c then close allowed (n + 1) t else none := by
  rw [close]
  · exact fun h => absurd h hquote
  · exact fun _ _ h => absurd h hescape
  · exact fun h => absurd h hescape

/-- A closing quote that is found stays the closing quote, whatever is written behind it. -/
theorem close_append (h : close allowed n t = some m) (rest : Text) :
    close allowed n (t ++ rest) = some m := by
  -- by the cases of the reader; those in which it finds no quote are excluded
  fun_induction close allowed n t with
  | case1 | case4 | case5 | case7 => contradiction
  | case2 => exact h
  | case3 n c t hc ih =>
    show close allowed n ('\\' :: c :: (t ++ rest)) = some m
    rw [close, if_pos hc]
    exact ih h
  | case6 n c t hquote hescape hlast hc ih =>
    have hne : c ≠ '\\' := by
      rintro rfl
      cases t with
      | nil => exact hlast rfl rfl
      | cons x t => exact hescape x t rfl rfl
    rw [List.cons_append, close_cons_of_plain hquote hne, if_pos hc]
    exact ih h

/-- What is found among some characters is found among all. -/
theorem close_of_close (h : close allowed n t = some m) : close (fun _ => true) n t = some m := by
  fun_induction close allowed n t with
  | case1 | case4 | case5 | case7 => contradiction
  | case2 => exact h
  | case3 n c t hc ih =>
    rw [close, if_pos rfl]
    exact ih h
  | case6 n c t hquote hescape hlast hc ih =>
    rw [close, if_pos rfl]
    · exact ih h
    · exact hquote
    · exact hescape
    · exact hlast

/-- What does not begin with a quote is no name in quotes. -/
theorem nameOf_of_ne {c : Char} (hc : c ≠ '"') (t : Text) : nameOf allowed (c :: t) = none := by
  unfold nameOf
  split
  · next h => exact absurd (List.cons.inj h).1 hc
  · rfl

/-- A name on one line is closed in the same place, whatever is written behind it. -/
theorem inline_append (h : inline t = some m) (rest : Text) : inline (t ++ rest) = some m := by
  unfold inline nameOf at h ⊢
  split at h
  · exact close_append h rest
  · contradiction

/-- A name that is closed on one line is closed in the same place if it may have more lines. -/
theorem name_of_inline (h : inline t = some m) : name t = some m := by
  unfold inline nameOf at h
  split at h
  · exact close_of_close h
  · contradiction

end Quoted

-- ---------------------------------------------------------------------------
-- Operators and arguments
-- ---------------------------------------------------------------------------

namespace Pattern

open Recognizer

variable {c : Char} {t rest : Text} {n : Nat}

/-- Behind an operator a delimiter may follow, and then anything. -/
theorem take?_operator_append (t : Text) (h : rest.StartsIn isDelimiter) :
    Pattern.operator.take? (t ++ rest) = Pattern.operator.take? t :=
  congrArg (Option.filter _) (blind_operatorName (eq_false_of_isDelimiter rfl rfl) t rest h)

/-- An argument that begins with a quote is a quoted label. -/
theorem recognizer_argument_of_quote (t : Text) :
    Pattern.argument.recognizer ('"' :: t) = Quoted.inline ('"' :: t) := by
  show ((Quoted.inline ('"' :: t)).or none).or none = _
  rw [Option.or_none, Option.or_none]

/-- An argument without quotes is a bare label, a number or a dash. -/
theorem recognizer_argument_of_ne (hc : c ≠ '"') (t : Text) :
    Pattern.argument.recognizer (c :: t) =
      firstOf [Label.bare, signedNumber, char '-'] (c :: t) := by
  have hquoted : Quoted.inline (c :: t) = none := Quoted.nameOf_of_ne hc t
  show ((Quoted.inline (c :: t)).or ((Label.bare (c :: t)).or none)).or _ = _
  rw [hquoted, Option.none_or, Option.or_none]
  rfl

/-- An argument without quotation marks ends in front of a delimiter. -/
theorem blind_unquoted : Blind isDelimiter (firstOf [Label.bare, signedNumber, char '-']) :=
  blind_firstOf_cons (blind_bare (eq_false_of_isDelimiter rfl rfl))
    (blind_firstOf_cons (blind_signedNumber (eq_false_of_isDelimiter rfl rfl))
      (blind_firstOf_cons (blind_one (eq_false_of_isDelimiter rfl rfl)) blind_firstOf_nil))

/-- Behind an argument a delimiter may follow, and then anything. -/
theorem take?_argument_append (h : Pattern.argument.take? t = some n)
    (hrest : rest.StartsIn isDelimiter) : Pattern.argument.take? (t ++ rest) = some n := by
  rw [take?, Option.filter_eq_some_iff] at h ⊢
  refine ⟨?_, h.2⟩
  cases t with
  | nil =>
    have hnone : Pattern.argument.recognizer [] = none := rfl
    rw [hnone] at h
    exact absurd h.1.symm (Option.some_ne_none n)
  | cons c t =>
    rw [List.cons_append]
    by_cases hc : c = '"'
    · -- inside quotes even a delimiter is part of the label
      subst hc
      rw [recognizer_argument_of_quote] at h ⊢
      exact Quoted.inline_append h.1 rest
    · rw [recognizer_argument_of_ne hc] at h ⊢
      rw [← List.cons_append, blind_unquoted (c :: t) rest hrest]
      exact h.1

/-- Parentheses are no arguments. -/
theorem ne_paren_of_argument (h : Pattern.argument.take? (c :: t) = some n) :
    c ≠ '(' ∧ c ≠ ')' := by
  constructor
  · rintro rfl
    have hnone : Pattern.argument.take? ('(' :: t) = none := rfl
    rw [hnone] at h
    contradiction
  · rintro rfl
    have hnone : Pattern.argument.take? (')' :: t) = none := rfl
    rw [hnone] at h
    contradiction

end Pattern

end Jot
