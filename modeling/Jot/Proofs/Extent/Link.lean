import Jot.Proofs.Extent.Basic

/-!
# Jot — where links end

Behind the first group of a link the lexer does not know whether the link goes on before it sees
what stands behind the spaces, and the reader looks ahead for the same token.  Links may follow
one another without free text between them.

* `Link.consumed_readGroup` — the second group;
* `Link.consumed_readImage` — looking ahead for it;
* `Link.finish_readSetup` — the first group and what follows it.
-/

namespace Jot

variable {k : Keywords} {c d : Cursor} {r : Rule} {s : Step} {ss later : List Step} {n : Nat}

-- ---------------------------------------------------------------------------
-- Links
-- ---------------------------------------------------------------------------

/-- The states in the first group of a link. -/
def State.isLinkSetup : State → Bool
  | link .href | link .title | link .setupEnd => true
  | _ => false

/-- The states in the second group of a link. -/
def State.isLinkImage : State → Bool
  | link .imageSource | link .imageTitle | link .imageEnd => true
  | _ => false

/-- The second group is behind the first one. -/
theorem State.isImage_of_isLinkImage {s : State} (h : s.isLinkImage = true) :
    s.isImage = true := by
  unfold isLinkImage at h
  split at h <;> first | rfl | contradiction

/-- What a step can do in front of the first group. -/
theorem Step.By.opened_cases (h : s.By k c r) (hc : Stacked n c.state c.stack)
    (hs : c.state = .link .opened) :
    (s.token.kind = .space ∧ s.after.state = .link .opened) ∨
    (s.token.kind = .lparen ∧ s.after.state.isLinkSetup = true) ∨ s.token.kind = .error :=
  h.relates
    (Q := fun s kind _ t => s = .link .opened →
      (kind = .space ∧ t = .link .opened) ∨ (kind = .lparen ∧ t.isLinkSetup = true) ∨
      kind = .error)
    (by decide) hc hs

/-- What a step can do in the first group. -/
theorem Step.By.linkSetup_cases (h : s.By k c r) (hc : Stacked n c.state c.stack)
    (hs : c.state.isLinkSetup = true) :
    ((s.token.kind = .space ∨ s.token.kind = .href ∨ s.token.kind = .title) ∧
      s.after.state.isLinkSetup = true) ∨
    (s.token.kind = .rparen ∧ s.after.state = .link .image) ∨ s.token.kind = .error :=
  h.relates
    (Q := fun s kind _ t => s.isLinkSetup = true →
      ((kind = .space ∨ kind = .href ∨ kind = .title) ∧ t.isLinkSetup = true) ∨
      (kind = .rparen ∧ t = .link .image) ∨ kind = .error)
    (by decide) hc hs

/-- Behind the first group spaces change nothing, and a parenthesis opens the second one. -/
theorem Step.By.image_cases (h : s.By k c r) (hc : Stacked n c.state c.stack)
    (hs : c.state = .link .image) :
    (s.token.kind = .space → s.after.state = .link .image) ∧
      (s.token.kind = .lparen → s.after.state.isLinkImage = true) :=
  h.relates
    (Q := fun s kind _ t => s = .link .image →
      (kind = .space → t = .link .image) ∧ (kind = .lparen → t.isLinkImage = true))
    (by decide) hc hs

/-- What a step can do in the second group. -/
theorem Step.By.linkImage_cases (h : s.By k c r) (hc : Stacked n c.state c.stack)
    (hs : c.state.isLinkImage = true) :
    ((s.token.kind = .space ∨ s.token.kind = .imageSource ∨ s.token.kind = .imageTitle) ∧
      s.after.state.isLinkImage = true) ∨
    (s.token.kind = .rparen ∧ s.after.state = .prose) ∨ s.token.kind = .error :=
  h.relates
    (Q := fun s kind _ t => s.isLinkImage = true →
      ((kind = .space ∨ kind = .imageSource ∨ kind = .imageTitle) ∧ t.isLinkImage = true) ∨
      (kind = .rparen ∧ t = .prose) ∨ kind = .error)
    (by decide) hc hs

theorem Construct.endsAt_link_of_error (hk : s.token.kind = .error) :
    link.endsAt s later = true := by
  simp [endsAt, hk]

/-- The kinds of token that can end a group. -/
def TokenKind.endsGroup : TokenKind → Bool
  | error | rparen => true
  | _ => false

/-- Nothing but an error and a closing parenthesis can end a link. -/
theorem Construct.endsAt_link_of_endsGroup (h : s.token.kind.endsGroup = false) :
    link.endsAt s later = false := by
  have hne : s.token.kind ≠ .error ∧ s.token.kind ≠ .rparen := by
    constructor <;> intro hk <;> rw [hk] at h <;> contradiction
  simp [endsAt, hne]

/-- The second group ends for the reader where it ends for the lexer. -/
theorem Link.consumed_readGroup (h : Cursor.Run k c ss d) (hc : Stacked n c.state c.stack)
    (hs : c.state.isLinkImage = true) (i : Nat) (l : Link) :
    (readGroup i l (ss.map Step.token)).consumed = i + extent Construct.link.endsAt ss := by
  induction h generalizing n i l with
  | nil => rfl
  | @cons c d s ss head _ ih =>
    obtain ⟨r, hr⟩ := Cursor.exists_rule_of_step? head
    rw [List.map_cons, readGroup]
    rcases hr.linkImage_cases hc hs with ⟨hk, ht⟩ | ⟨hk, ht⟩ | hk
    · have hgroup : s.token.kind.endsGroup = false := by
        rcases hk with hk | hk | hk <;> rw [hk] <;> rfl
      have hgo : Construct.link.endsAt s ss = false := Construct.endsAt_link_of_endsGroup hgroup
      rw [extent_cons_of_not_stop hgo]
      rcases hk with hk | hk | hk
      all_goals
        simp only [hk]
        rw [ih (hr.stacked hc) ht (i + 1)]
        omega
    · -- the parenthesis that closes this group ends the link, since it is the second one
      have himage : s.before.state.isImage = true := by
        rw [hr.before]
        exact State.isImage_of_isLinkImage hs
      rw [extent_cons_of_stop (by simp [Construct.endsAt, hk, ht, himage])]
      simp only [hk]
    · rw [extent_cons_of_stop (Construct.endsAt_link_of_error hk)]
      simp only [hk]

-- ---------------------------------------------------------------------------
-- Spaces in front of a group
-- ---------------------------------------------------------------------------

/-- In front of a group of a link, the lexer stays where it is as long as it reads spaces. -/
theorem Cursor.Run.dropWhile_isSpace (h : Run k c ss d) (hc : Stacked n c.state c.stack)
    (hs : c.state = .link .opened ∨ c.state = .link .image) :
    ∃ b m, b.state = c.state ∧ Stacked m b.state b.stack ∧
      Run k b (ss.dropWhile Step.isSpace) d := by
  induction h generalizing n with
  | nil c => exact ⟨c, n, rfl, hc, .nil c⟩
  | @cons c d s ss head tail ih =>
    obtain ⟨r, hr⟩ := Cursor.exists_rule_of_step? head
    cases hspace : s.isSpace with
    | false =>
      rw [List.dropWhile_cons_of_neg (by simp [hspace])]
      exact ⟨c, n, rfl, hc, .cons head tail⟩
    | true =>
      have hk : s.token.kind = .space := of_decide_eq_true hspace
      have hstays : s.after.state = c.state := by
        rcases hs with hs | hs
        · -- a space is one of the kinds that stay
          rcases hr.opened_cases hc hs with ⟨-, ht⟩ | ⟨hk', -⟩ | hk'
          · rw [ht, hs]
          · rw [hk] at hk'
            contradiction
          · rw [hk] at hk'
            contradiction
        · rw [(hr.image_cases hc hs).1 hk, hs]
      rw [List.dropWhile_cons_of_pos hspace, ← hstays]
      exact ih (hr.stacked hc) (hstays ▸ hs)

/-- A link does not end with a space, so spaces can be counted apart. -/
theorem extent_link_dropWhile (ss : List Step) :
    extent Construct.link.endsAt ss = (ss.takeWhile Step.isSpace).length +
      extent Construct.link.endsAt (ss.dropWhile Step.isSpace) := by
  induction ss with
  | nil => rfl
  | cons s ss ih =>
    cases hspace : s.isSpace with
    | false => simp [hspace]
    | true =>
      have hk : s.token.kind = .space := of_decide_eq_true hspace
      have hgo : Construct.link.endsAt s ss = false :=
        Construct.endsAt_link_of_endsGroup (by rw [hk]; rfl)
      rw [extent_cons_of_not_stop hgo, List.takeWhile_cons_of_pos hspace,
        List.dropWhile_cons_of_pos hspace, List.length_cons, ih]
      omega

/-- The reader sees as many spaces as the lexer reads. -/
theorem length_takeWhile_space (ss : List Step) :
    ((ss.map Step.token).takeWhile fun t => t.kind = .space).length =
      (ss.takeWhile Step.isSpace).length := by
  rw [List.takeWhile_map, List.length_map]
  rfl

/-- Behind the spaces the reader sees the tokens of the steps that are left. -/
theorem drop_takeWhile_space (ss : List Step) :
    (ss.map Step.token).drop (ss.takeWhile Step.isSpace).length =
      (ss.dropWhile Step.isSpace).map Step.token := by
  have hsplit : ss.takeWhile Step.isSpace ++ ss.dropWhile Step.isSpace = ss :=
    List.takeWhile_append_dropWhile
  have hdrop : ss.drop (ss.takeWhile Step.isSpace).length = ss.dropWhile Step.isSpace :=
    (congrArg (List.drop _) hsplit.symm).trans List.drop_left
  rw [← List.map_drop, hdrop]

/-- The second group is taken if the lexer reads it, and nothing otherwise. -/
theorem Link.consumed_readImage (h : Cursor.Run k c ss d) (hc : Stacked n c.state c.stack)
    (hs : c.state = .link .image) (i : Nat) (l : Link) (closed : Bool) (e : Option Token) :
    (readImage ⟨i, l, closed, e, ss.map Step.token⟩).consumed =
      if opensGroup ss then i + extent Construct.link.endsAt ss else i := by
  obtain ⟨b, m, hb, hstack, hrun⟩ := h.dropWhile_isSpace hc (.inr hs)
  simp only [readImage, length_takeWhile_space, drop_takeWhile_space]
  rw [opensGroup, extent_link_dropWhile]
  cases hmore : ss.dropWhile Step.isSpace with
  | nil => rfl
  | cons s more =>
    rw [hmore] at hrun
    obtain ⟨r, hr, tail⟩ := hrun.uncons
    -- the first token behind the spaces decides, for the reader and for the count
    by_cases hk : s.token.kind = .lparen
    · have hgroup := (hr.image_cases hstack (hb.trans hs)).2 hk
      have hgo : Construct.link.endsAt s more = false :=
        Construct.endsAt_link_of_endsGroup (by rw [hk]; rfl)
      rw [extent_cons_of_not_stop hgo]
      simp only [List.map_cons, hk, if_true, List.head?_cons, Option.any_some, decide_true]
      rw [consumed_readGroup tail (hr.stacked hstack) hgroup]
      omega
    · simp [hk]

/-- The number of tokens of a link, once its first group has been read. -/
def Link.Group.finish (g : Group) : Nat := if g.closed then (readImage g).consumed else g.consumed

/-- A link ends for the reader where it ends for the lexer, from its first group on. -/
theorem Link.finish_readGroup (h : Cursor.Run k c ss d) (hc : Stacked n c.state c.stack)
    (hs : c.state.isLinkSetup = true) (i : Nat) (l : Link) :
    (readGroup i l (ss.map Step.token)).finish = i + extent Construct.link.endsAt ss := by
  induction h generalizing n i l with
  | nil => rfl
  | @cons c d s ss head tail ih =>
    obtain ⟨r, hr⟩ := Cursor.exists_rule_of_step? head
    rw [List.map_cons, readGroup]
    rcases hr.linkSetup_cases hc hs with ⟨hk, ht⟩ | ⟨hk, ht⟩ | hk
    · have hgroup : s.token.kind.endsGroup = false := by
        rcases hk with hk | hk | hk <;> rw [hk] <;> rfl
      have hgo : Construct.link.endsAt s ss = false := Construct.endsAt_link_of_endsGroup hgroup
      rw [extent_cons_of_not_stop hgo]
      rcases hk with hk | hk | hk
      all_goals
        simp only [hk]
        rw [ih (hr.stacked hc) ht (i + 1)]
        omega
    · -- whether the link goes on is decided by what comes next, in both
      simp only [hk, Group.finish, if_true]
      rw [consumed_readImage tail (hr.stacked hc) ht]
      by_cases hopen : opensGroup ss = true
      · rw [extent_cons_of_not_stop (by simp [Construct.endsAt, hk, ht, hopen]), if_pos hopen]
        omega
      · rw [extent_cons_of_stop (by simp [Construct.endsAt, hk, ht, hopen]), if_neg hopen]
    · rw [extent_cons_of_stop (Construct.endsAt_link_of_error hk)]
      simp only [hk, Group.finish]
      rfl

/-- A link ends for the reader where it ends for the lexer, with the spaces in front of its first
group. -/
theorem Link.finish_readSetup (h : Cursor.Run k c ss d) (hc : Stacked n c.state c.stack)
    (hs : c.state = .link .opened) (i : Nat) :
    (readSetup i (ss.map Step.token)).finish = i + extent Construct.link.endsAt ss := by
  obtain ⟨b, m, hb, hstack, hrun⟩ := h.dropWhile_isSpace hc (.inl hs)
  simp only [readSetup, length_takeWhile_space, drop_takeWhile_space]
  rw [extent_link_dropWhile]
  cases hmore : ss.dropWhile Step.isSpace with
  | nil => rfl
  | cons s more =>
    -- the spaces have been passed, so this is none
    have hspace : s.isSpace = false := by
      have := List.head?_dropWhile_not Step.isSpace ss
      rwa [hmore] at this
    rw [hmore] at hrun
    obtain ⟨r, hr, tail⟩ := hrun.uncons
    rcases hr.opened_cases hstack (hb.trans hs) with ⟨hk, -⟩ | ⟨hk, ht⟩ | hk
    · simp [Step.isSpace, hk] at hspace
    · have hgo : Construct.link.endsAt s more = false :=
        Construct.endsAt_link_of_endsGroup (by rw [hk]; rfl)
      rw [extent_cons_of_not_stop hgo]
      simp only [List.map_cons, hk]
      rw [finish_readGroup tail (hr.stacked hstack) ht]
      omega
    · rw [extent_cons_of_stop (Construct.endsAt_link_of_error hk)]
      simp only [List.map_cons, hk, Group.finish]
      exact Nat.add_assoc ..

end Jot
