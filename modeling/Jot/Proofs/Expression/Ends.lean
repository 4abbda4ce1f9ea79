import Jot.Regex

/-!
# Jot — how expressions match

`Regex.ends` tries the ways to match in order, so a sequence asks for backtracking: when the rest
fails behind the preferred match of the first part, the other matches of that part are tried in
turn.  `Regex.Matches` is the language of an expression, without any order.

* `Regex.mem_ends_iff` — the list of ends has every match at the start of a text and no other;
* `Regex.ends_take` — cutting a text leaves the ends that are inside, in their order;
* `Regex.Settled` — where nothing is won by giving back, the preferred match of a sequence is made
  of the preferred matches of its parts (`Regex.match?_seq`).
-/

namespace Jot.Regex

variable {p : Char → Bool} {r s u : Regex} {t v w : Text} {c : Char} {m n : Nat} {ns : List Nat}

-- ---------------------------------------------------------------------------
-- Equations
-- ---------------------------------------------------------------------------

@[simp] theorem ends_empty (t : Text) : empty.ends t = [0] := by rw [ends]

@[simp] theorem ends_one_nil (p : Char → Bool) : (one p).ends [] = [] := by rw [ends]

@[simp] theorem ends_one_cons (p : Char → Bool) (c : Char) (t : Text) :
    (one p).ends (c :: t) = if p c then [1] else [] := by rw [ends]

/-- In a sequence, each match of the first part is carried on by the second, in order of preference
of the first. -/
theorem ends_seq (r s : Regex) (t : Text) :
    (seq r s).ends t = (r.ends t).flatMap fun n => (s.ends (t.drop n)).map (n + ·) := by rw [ends]

/-- The matches of the left side are preferred to all of the right side. -/
theorem ends_alt (r s : Regex) (t : Text) : (alt r s).ends t = r.ends t ++ s.ends t := by rw [ends]

/-- A repetition goes on as long as it can before it stops.  A round that takes nothing is not
counted, so the repetitions are finitely many. -/
theorem ends_star (r : Regex) (t : Text) :
    (star r).ends t = ((r.ends t).flatMap fun n =>
      if 0 < n ∧ n ≤ t.length then ((star r).ends (t.drop n)).map (n + ·) else []) ++ [0] := by
  rw [ends]
  simp only [dite_eq_ite]

-- ---------------------------------------------------------------------------
-- Languages
-- ---------------------------------------------------------------------------

/-- The texts that an expression matches as a whole. -/
inductive Matches : Regex → Text → Prop where
  | empty : Matches empty []
  | one {p : Char → Bool} {c : Char} (h : p c = true) : Matches (one p) [c]
  | seq {r s : Regex} {v w : Text} (hr : Matches r v) (hs : Matches s w) :
      Matches (seq r s) (v ++ w)
  | altLeft {r s : Regex} {v : Text} (h : Matches r v) : Matches (alt r s) v
  | altRight {r s : Regex} {v : Text} (h : Matches s v) : Matches (alt r s) v
  | starNil {r : Regex} : Matches (star r) []
  | starCons {r : Regex} {v w : Text} (hr : Matches r v) (hs : Matches (star r) w) :
      Matches (star r) (v ++ w)

/-- What is tried is a match: the expression matches the text up to each of the ends. -/
theorem matches_of_mem_ends (h : n ∈ r.ends t) : n ≤ t.length ∧ r.Matches (t.take n) := by
  induction r generalizing t n with
  | empty =>
    obtain rfl : n = 0 := by simpa using h
    exact ⟨Nat.zero_le _, .empty⟩
  | one p =>
    cases t with
    | nil => simp at h
    | cons c t =>
      obtain ⟨hc, rfl⟩ : p c = true ∧ n = 1 := by simpa using h
      exact ⟨by simp, .one hc⟩
  | seq r s ihr ihs =>
    -- the end is where the second part ends behind an end of the first
    rw [ends_seq, List.mem_flatMap] at h
    obtain ⟨a, ha, h⟩ := h
    obtain ⟨b, hb, rfl⟩ := List.mem_map.1 h
    obtain ⟨hle, hr⟩ := ihr ha
    obtain ⟨hle', hs⟩ := ihs hb
    rw [List.length_drop] at hle'
    refine ⟨by omega, ?_⟩
    rw [List.take_add]
    exact .seq hr hs
  | alt r s ihr ihs =>
    rw [ends_alt, List.mem_append] at h
    rcases h with h | h
    · exact ⟨(ihr h).1, .altLeft (ihr h).2⟩
    · exact ⟨(ihs h).1, .altRight (ihs h).2⟩
  | star r ih =>
    -- each repetition takes something, so what is left of the text gets shorter
    induction hlen : t.length using Nat.strongRecOn generalizing t n with
    | _ l ihl =>
      subst hlen
      rw [ends_star, List.mem_append, List.mem_flatMap] at h
      rcases h with ⟨a, ha, h⟩ | h
      · split at h
        · next hpos =>
          obtain ⟨b, hb, rfl⟩ := List.mem_map.1 h
          have hshort : (t.drop a).length < t.length := by
            rw [List.length_drop]
            omega
          obtain ⟨hle', hs⟩ := ihl _ hshort hb rfl
          rw [List.length_drop] at hle'
          refine ⟨by omega, ?_⟩
          rw [List.take_add]
          exact .starCons (ih ha).2 hs
        · contradiction
      · obtain rfl : n = 0 := by simpa using h
        exact ⟨Nat.zero_le _, .starNil⟩

/-- A match at the start of a text is tried, whatever follows it. -/
theorem mem_ends_of_matches (h : r.Matches v) (t : Text) : v.length ∈ r.ends (v ++ t) := by
  -- by induction on the match; in a sequence the second part is what follows the first
  induction h generalizing t with
  | empty => simp
  | one h => simp [h]
  | @seq r s v w _ _ ihr ihs =>
    rw [ends_seq, List.mem_flatMap]
    refine ⟨v.length, ?_, ?_⟩
    · rw [List.append_assoc]
      exact ihr _
    · rw [List.append_assoc, List.drop_left, List.length_append]
      exact List.mem_map_of_mem (ihs t)
  | altLeft _ ih => exact ends_alt .. ▸ List.mem_append_left _ (ih t)
  | altRight _ ih => exact ends_alt .. ▸ List.mem_append_right _ (ih t)
  | starNil =>
    rw [ends_star]
    exact List.mem_append_right _ (List.mem_singleton.2 rfl)
  | @starCons r v w _ _ ihr ihs =>
    cases v with
    -- a round of no characters can be left out of the match
    | nil => exact ihs t
    | cons c v =>
      rw [ends_star, List.append_assoc]
      refine List.mem_append_left _ (List.mem_flatMap.2 ⟨_, ihr _, ?_⟩)
      rw [if_pos (by simp), List.drop_left, List.length_append]
      exact List.mem_map_of_mem (ihs t)

/-- The ends of an expression are the lengths of its matches at the start of the text. -/
theorem mem_ends_iff : n ∈ r.ends t ↔ n ≤ t.length ∧ r.Matches (t.take n) := by
  refine ⟨matches_of_mem_ends, fun ⟨hle, h⟩ => ?_⟩
  have hmem := mem_ends_of_matches h (t.drop n)
  rwa [List.length_take_of_le hle, List.take_append_drop] at hmem

-- ---------------------------------------------------------------------------
-- Cutting the text
-- ---------------------------------------------------------------------------

/-- Of ends that are counted from `n`, those up to `m` are counted up to `m - n`. -/
theorem filter_map_add (m n : Nat) (ns : List Nat) :
    (ns.map (n + ·)).filter (· ≤ m) =
      if n ≤ m then (ns.filter (· ≤ m - n)).map (n + ·) else [] := by
  split
  · next h =>
    rw [List.filter_map]
    congr 2
    funext k
    simp only [Function.comp_apply, decide_eq_decide]
    omega
  · next h =>
    rw [List.filter_eq_nil_iff]
    intro k hk
    obtain ⟨j, -, rfl⟩ := List.mem_map.1 hk
    simp only [decide_eq_true_eq]
    omega

/-- What lies behind the cut can be dropped before the ends are carried on, if it leads to nothing
in front of the cut. -/
theorem flatMap_filter_le {f g : Nat → List Nat} (l : List Nat) (m : Nat)
    (hle : ∀ n ∈ l, n ≤ m → f n = (g n).filter (· ≤ m))
    (hgt : ∀ n ∈ l, m < n → (g n).filter (· ≤ m) = []) :
    (l.filter (· ≤ m)).flatMap f = (l.flatMap g).filter (· ≤ m) := by
  induction l with
  | nil => rfl
  | cons n l ih =>
    obtain ⟨hn, hl⟩ := List.forall_mem_cons.1 hle
    obtain ⟨hn', hl'⟩ := List.forall_mem_cons.1 hgt
    rw [List.flatMap_cons, List.filter_append, ← ih hl hl']
    by_cases h : n ≤ m
    · rw [List.filter_cons_of_pos (by simpa using h), List.flatMap_cons, hn h]
    · rw [List.filter_cons_of_neg (by simpa using h), hn' (by omega), List.nil_append]

/-- Expressions do not look ahead: when the text is cut, the ends that are inside are left, in
their order. -/
theorem ends_take (r : Regex) (t : Text) (m : Nat) :
    r.ends (t.take m) = (r.ends t).filter (· ≤ m) := by
  induction r generalizing t m with
  | empty => simp
  | one p =>
    cases m with
    | zero => cases t <;> simp [List.filter_eq_nil_iff]
    | succ m =>
      cases t with
      | nil => simp
      | cons c t => cases hc : p c <;> simp [hc]
  | seq r s ihr ihs =>
    rw [ends_seq, ends_seq, ihr]
    -- an end of the first part inside the cut is carried on inside it, one behind the cut is not
    refine flatMap_filter_le _ m (fun n _ hn => ?_) fun n _ hn => ?_
    · rw [List.drop_take, ihs, filter_map_add, if_pos hn]
    · rw [filter_map_add, if_neg (by omega)]
  | alt r s ihr ihs => rw [ends_alt, ends_alt, ihr, ihs, List.filter_append]
  | star r ih =>
    -- as for a sequence, by induction on the text, of which every round takes something
    induction hlen : t.length using Nat.strongRecOn generalizing t m with
    | _ l ihl =>
      subst hlen
      rw [ends_star, ends_star, ih, List.filter_append]
      congr 1
      refine flatMap_filter_le _ m (fun n hmem hn => ?_) fun n _ hn => ?_
      · have hle : n ≤ t.length := (matches_of_mem_ends hmem).1
        by_cases hpos : 0 < n
        · have hshort : (t.drop n).length < t.length := by
            rw [List.length_drop]
            omega
          rw [if_pos ⟨hpos, by rw [List.length_take]; omega⟩, if_pos ⟨hpos, hle⟩,
            List.drop_take, ihl _ hshort _ _ rfl, filter_map_add, if_pos hn]
        · rw [if_neg (fun h => hpos h.1), if_neg (fun h => hpos h.1)]
          rfl
      · split
        · rw [filter_map_add, if_neg (by omega)]
        · rfl

-- ---------------------------------------------------------------------------
-- Preferred matches
-- ---------------------------------------------------------------------------

/-- Backtracking: the preferred match of a sequence is behind the first match of its first part that
can be carried on. -/
theorem match?_seq_eq_findSome? (r s : Regex) (t : Text) :
    (seq r s).match? t =
      (r.ends t).findSome? fun n => (s.match? (t.drop n)).map (n + ·) := by
  rw [match?, ends_seq, List.head?_flatMap]
  congr 1
  funext n
  rw [List.head?_map, match?]

/-- The right side is asked only where the left side does not match. -/
theorem match?_alt (r s : Regex) (t : Text) :
    (alt r s).match? t = (r.match? t).or (s.match? t) := by
  rw [match?, ends_alt, List.head?_append, match?, match?]

theorem match?_eq_none_iff : r.match? t = none ↔ r.ends t = [] := List.head?_eq_none_iff

theorem ends_seq_empty (r : Regex) (t : Text) : (seq r empty).ends t = r.ends t := by
  rw [ends_seq]
  simp

/-- Sequences can be bracketed in either way, and the order of the matches is the same. -/
theorem ends_seq_assoc (r s u : Regex) (t : Text) :
    (seq (seq r s) u).ends t = (seq r (seq s u)).ends t := by
  simp only [ends_seq, List.flatMap_assoc, List.flatMap_map, List.map_flatMap, List.drop_drop,
    List.map_map]
  -- only the sums differ, and they are bracketed like the sequences
  congr 1
  funext n
  congr 1
  funext m
  congr 1
  funext k
  simp [Nat.add_assoc]

/-- What follows an alternative can be drawn into both of its sides. -/
theorem ends_seq_alt (r s u : Regex) (t : Text) :
    (seq (alt r s) u).ends t = (alt (seq r u) (seq s u)).ends t := by
  simp only [ends_seq, ends_alt, List.flatMap_append]

/-- An expression behind a list of others is the last one of the list. -/
theorem ends_sequence_seq (rs : List Regex) (u : Regex) (t : Text) :
    (seq (sequence rs) u).ends t = (rs.foldr seq u).ends t := by
  induction rs generalizing t with
  | nil => simp [sequence, ends_seq]
  | cons r rs ih =>
    rw [sequence, ends_seq_assoc, List.foldr_cons, ends_seq, ends_seq]
    simp only [ih]

/-- Nothing is won by giving back: if `s` fails behind the preferred match of `r`, it fails behind
all others. -/
def Settled (r s : Regex) : Prop :=
  ∀ t n ns, r.ends t = n :: ns → s.match? (t.drop n) = none → ∀ m ∈ ns, s.match? (t.drop m) = none

/-- The preferred match of a sequence, where nothing is won by giving back. -/
theorem match?_seq (h : Settled r s) (t : Text) :
    (seq r s).match? t = (r.match? t).bind fun n => (s.match? (t.drop n)).map (n + ·) := by
  rw [match?_seq_eq_findSome?, match?]
  cases hends : r.ends t with
  | nil => rfl
  | cons n ns =>
    rw [List.findSome?_cons, List.head?_cons, Option.bind_some]
    cases hs : s.match? (t.drop n) with
    | some k => rfl
    | none =>
      -- the preferred match cannot be carried on, and then no other one can
      rw [Option.map_none, List.findSome?_eq_none_iff]
      intro m hm
      rw [h t n ns hends hs m hm, Option.map_none]

/-- The expression matches in some way at the start of every text. -/
def Total (r : Regex) : Prop := ∀ t, r.ends t ≠ []

theorem total_empty : Total empty := fun t => by simp

theorem total_optional (r : Regex) : Total (optional r) := fun t => by simp [optional, ends_alt]

theorem total_star (r : Regex) : Total (star r) := by
  intro t
  rw [ends_star]
  exact List.append_ne_nil_of_right_ne_nil _ (List.cons_ne_nil 0 [])

theorem total_seq (hr : Total r) (hs : Total s) : Total (seq r s) := by
  intro t
  obtain ⟨n, ns, hn⟩ := List.exists_cons_of_ne_nil (hr t)
  simp [ends_seq, hn, hs (t.drop n)]

/-- Nothing is given back in front of an expression that matches everywhere. -/
theorem settled_of_total (h : Total s) : Settled r s :=
  fun t n _ _ hn => absurd (match?_eq_none_iff.1 hn) (h (t.drop n))

/-- All ways to match at the start of a text take the same number of characters. -/
def Definite (r : Regex) : Prop := ∀ t, ∀ m ∈ r.ends t, ∀ n ∈ r.ends t, m = n

/-- Nothing is given back by an expression whose matches all end in one place. -/
theorem settled_of_definite (h : Definite r) : Settled r s := by
  intro t n ns hends hs m hm
  have hmn : m = n :=
    h t m (hends ▸ List.mem_cons_of_mem n hm) n (hends ▸ List.mem_cons_self)
  rwa [hmn]

/-- Every match takes `n` characters. -/
def Wide (n : Nat) (r : Regex) : Prop := ∀ t, ∀ m ∈ r.ends t, m = n

theorem wide_empty : Wide 0 empty := fun t m hm => by simpa using hm

/-- A class takes one character. -/
theorem wide_one (p : Char → Bool) : Wide 1 (one p) := by
  intro t m hm
  cases t with
  | nil => simp at hm
  | cons c t => exact (by simpa using hm : p c = true ∧ m = 1).2

/-- The widths of a sequence are added up. -/
theorem wide_seq (hr : Wide m r) (hs : Wide n s) : Wide (m + n) (seq r s) := by
  intro t k hk
  rw [ends_seq, List.mem_flatMap] at hk
  obtain ⟨a, ha, hk⟩ := hk
  obtain ⟨b, hb, rfl⟩ := List.mem_map.1 hk
  rw [hr t a ha, hs _ b hb]

theorem wide_alt (hr : Wide n r) (hs : Wide n s) : Wide n (alt r s) := by
  intro t k hk
  rw [ends_alt, List.mem_append] at hk
  exact hk.elim (hr t k) (hs t k)

theorem wide_times (h : Wide n r) (k : Nat) : Wide (k * n) (times k r) := by
  induction k with
  | zero => exact (Nat.zero_mul n).symm ▸ wide_empty
  | succ k ih =>
    rw [Nat.succ_mul, Nat.add_comm]
    exact wide_seq h ih

/-- A literal takes as many characters as it has. -/
theorem wide_literal (t : Text) : Wide t.length (literal t) := by
  induction t with
  | nil => exact wide_empty
  | cons c t ih =>
    rw [List.length_cons, Nat.add_comm]
    exact wide_seq (wide_one _) ih

/-- An expression of a fixed width has only one end. -/
theorem Wide.definite (h : Wide n r) : Definite r :=
  fun t a ha b hb => (h t a ha).trans (h t b hb).symm

/-- An alternative is definite when at most one side matches. -/
theorem definite_alt (hr : Definite r) (hs : Definite s)
    (h : ∀ t, r.ends t = [] ∨ s.ends t = []) : Definite (alt r s) := by
  intro t a ha b hb
  rw [ends_alt] at ha hb
  rcases h t with hnil | hnil
  · -- both ends belong to the side that matches
    rw [hnil, List.nil_append] at ha hb
    exact hs t a ha b hb
  · rw [hnil, List.append_nil] at ha hb
    exact hr t a ha b hb

/-- The expression does not match where a character of the class stands. -/
def Rejects (p : Char → Bool) (r : Regex) : Prop := ∀ c t, p c = true → r.match? (c :: t) = none

/-- What a match gives back begins with a character of the class. -/
def GivesBack (p : Char → Bool) (r : Regex) : Prop :=
  ∀ t n ns, r.ends t = n :: ns → ∀ m ∈ ns, ∃ c v, t.drop m = c :: v ∧ p c = true

/-- Nothing is won by giving back what the next expression does not begin with. -/
theorem settled_of_rejects (hr : GivesBack p r) (hs : Rejects p s) : Settled r s := by
  intro t n ns hends _ m hm
  obtain ⟨c, v, hdrop, hc⟩ := hr t n ns hends m hm
  rw [hdrop]
  exact hs c v hc

/-- The expression matches in at most one way, and only something that begins with a character of
the class. -/
def Once (p : Char → Bool) (r : Regex) : Prop :=
  ∀ t, r.ends t = [] ∨ ∃ c v n, t = c :: v ∧ p c = true ∧ 0 < n ∧ n ≤ t.length ∧ r.ends t = [n]

/-- A class matches in one way at most, and what it matches begins with it. -/
theorem once_one (p : Char → Bool) : Once p (one p) := by
  intro t
  cases t with
  | nil => exact .inl (ends_one_nil p)
  | cons c t =>
    cases hc : p c with
    | false => exact .inl (by simp [hc])
    | true => exact .inr ⟨c, t, 1, rfl, hc, Nat.one_pos, by simp, by simp [hc]⟩

theorem ends_star_of_eq_nil (h : r.ends t = []) : (star r).ends t = [0] := by
  rw [ends_star, h]
  rfl

/-- Where a round has one match, the ends are those of the repetition behind it, and at last the
empty match. -/
theorem ends_star_of_eq_singleton (h : r.ends t = [n]) (hpos : 0 < n) (hle : n ≤ t.length) :
    (star r).ends t = ((star r).ends (t.drop n)).map (n + ·) ++ [0] := by
  rw [ends_star, h, List.flatMap_singleton, if_pos ⟨hpos, hle⟩]

/-- An option gives back the round that it takes, which begins with a character of the class. -/
theorem givesBack_optional (h : Once p r) : GivesBack p (optional r) := by
  intro t n ns hends m hm
  rw [optional, ends_alt, ends_empty] at hends
  rcases h t with hnil | ⟨c, v, k, rfl, hc, -, -, hk⟩
  · rw [hnil, List.nil_append, List.cons.injEq] at hends
    rw [← hends.2] at hm
    contradiction
  · rw [hk, List.singleton_append, List.cons.injEq] at hends
    rw [← hends.2, List.mem_singleton] at hm
    exact ⟨c, v, by rw [hm]; rfl, hc⟩

/-- A repetition gives back whole rounds, and each of them begins with a character of the class. -/
theorem givesBack_star (h : Once p r) : GivesBack p (star r) := by
  intro t n ns hends m hm
  induction hlen : t.length using Nat.strongRecOn generalizing t n ns m with
  | _ l ih =>
    subst hlen
    rcases h t with hnil | ⟨c, v, k, rfl, hc, hpos, hle, hk⟩
    · rw [ends_star_of_eq_nil hnil, List.cons.injEq] at hends
      rw [← hends.2] at hm
      contradiction
    · rw [ends_star_of_eq_singleton hk hpos hle] at hends
      cases hrest : (star r).ends ((c :: v).drop k) with
      | nil => exact absurd hrest (total_star r _)
      | cons a as =>
        rw [hrest, List.map_cons, List.cons_append, List.cons.injEq] at hends
        rw [← hends.2, List.mem_append, List.mem_singleton, List.mem_map] at hm
        -- either it stops behind a later round, or it takes no round at all
        rcases hm with ⟨b, hb, rfl⟩ | rfl
        · have hshort : ((c :: v).drop k).length < (c :: v).length := by
            rw [List.length_drop]
            omega
          obtain ⟨d, x, hdrop, hd⟩ := ih _ hshort _ _ _ hrest b hb rfl
          exact ⟨d, x, by rw [← List.drop_drop, hdrop], hd⟩
        · exact ⟨c, v, rfl, hc⟩

end Jot.Regex
