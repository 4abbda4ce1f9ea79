import Jot.Proofs.Boundary
import Jot.Proofs.Conservation
import Jot.Proofs.Header

/-!
# Jot — the layout of a note

The header comes first and in one order: pin, date, folders, keyword.  `Headed` says what may
still come when the header has been passed up to some rank, and a run of the lexer keeps to it.
Behind a broken folder the keywords are still on offer, but there only white space can follow, and
white space leads on to free text.

* `Cursor.Run.headed` — the tokens of a run keep to the order of the header;
* `Headed.exists_parts`, `Headed.exists_folders`, `Headed.exists_splits` — what the order means
  for a token list;
* `parse_layout` — so the body of a note is one piece of it, behind the header.
-/

namespace Jot

variable {k : Keywords} {note : Text} {c d : Cursor} {r : Rule} {s s' : Step} {ss : List Step}
  {n : Nat} {t : Token} {ts : List Token}

-- ---------------------------------------------------------------------------
-- Behind the header
-- ---------------------------------------------------------------------------

/-- Behind the header a step reads nothing of it, and stays there. -/
theorem Step.By.behind_header (h : s.By k c r) (hc : Stacked n c.state c.stack)
    (hrank : c.state.headerRank = 5) :
    s.token.kind.isHeader = false ∧ s.after.state.headerRank = 5 :=
  h.relates
    (Q := fun s kind _ t => s.headerRank = 5 → kind.isHeader = false ∧ t.headerRank = 5)
    (by decide) hc hrank

/-- Behind the header a run reads nothing of it. -/
theorem Cursor.Run.isHeader_eq_false (h : Run k c ss d) (hc : Stacked n c.state c.stack)
    (hrank : c.state.headerRank = 5) : ∀ t ∈ ss.map Step.token, t.kind.isHeader = false := by
  induction h generalizing n with
  | nil => simp
  | cons head _ ih =>
    obtain ⟨r, hr⟩ := exists_rule_of_step? head
    obtain ⟨hkind, hafter⟩ := hr.behind_header hc hrank
    exact List.forall_mem_cons.2 ⟨hkind, ih (hr.stacked hc) hafter⟩

/-- Where white space follows the folders, the header is over. -/
theorem Cursor.Run.isHeader_eq_false_of_blank (h : Run k c ss d)
    (hc : Stacked n c.state c.stack) (hs : c.state = .folderEnd)
    (hblank : c.rest.StartsIn isBlank) :
    ∀ t ∈ ss.map Step.token, t.kind.isHeader = false := by
  cases h with
  | nil => simp
  | @cons _ _ s ss head tail =>
    obtain ⟨m, hm⟩ := Pattern.take?_whitespace_of_startsIn (rest_ne_nil_of_step? head) hblank
    -- the rule for white space is tried first, before all keywords
    have hrules : c.state.rules = [] ++ Rule.space (.next .prose) :: Rule.prose .keyword := by
      rw [hs]
      rfl
    have hr : s.By k c (Rule.space (.next .prose)) := by_of_rule head hrules (by simp) hm
    have hkind : s.token.kind = .space := congrArg Prod.fst hr.read
    have hafter : s.after.state = .prose := congrArg Prod.fst hr.goes
    refine List.forall_mem_cons.2 ⟨by rw [hkind]; rfl, ?_⟩
    exact tail.isHeader_eq_false (hr.stacked hc) (by rw [hafter]; rfl)

-- ---------------------------------------------------------------------------
-- The order of the header
-- ---------------------------------------------------------------------------

/-- The tokens keep to the order of the header when it has been passed up to a rank. -/
inductive Headed : Nat → List Token → Prop where
  | body {n : Nat} {ts : List Token} (h : ∀ t ∈ ts, t.kind.isHeader = false) : Headed n ts
  | space {n m : Nat} {t : Token} {ts : List Token} (ht : t.kind = .space)
      (hm : m = if n = 3 then 4 else n) (tail : Headed m ts) : Headed n (t :: ts)
  | pin {n : Nat} {t : Token} {ts : List Token} (ht : t.kind = .pin) (hn : n = 0)
      (tail : Headed 1 ts) : Headed n (t :: ts)
  | date {n : Nat} {t : Token} {ts : List Token} (ht : t.kind = .date) (hn : n ≤ 1)
      (tail : Headed 2 ts) : Headed n (t :: ts)
  | folder {n : Nat} {t : Token} {ts : List Token} (ht : t.kind = .folder) (hn : n ≤ 3)
      (tail : Headed 3 ts) : Headed n (t :: ts)
  | task {n : Nat} {t : Token} {ts : List Token} (ht : t.kind = .todo ∨ t.kind = .done)
      (h : ∀ x ∈ ts, x.kind.isHeader = false) : Headed n (t :: ts)

/-- A token of the kind read at rank `n` leads to rank `m`: a token of the header up to its own
place in it, white space behind the folders past them, and any other token behind the header. -/
def TokenKind.leads (n m : Nat) : TokenKind → Bool
  | pin => n == 0 && m == 1
  | date => n ≤ 1 && m == 2
  | folder => n ≤ 3 && m == 3
  | space => m == 5 || m == if n = 3 then 4 else n
  | _ => m == 5

/-- Only a broken folder leaves the order of the header. -/
theorem Step.By.leads (h : s.By k c r) (hc : Stacked n c.state c.stack) :
    s.token.kind.leads c.state.headerRank s.after.state.headerRank = true ∨
    (s.token.kind = .error ∧ c.state = .folder ∧ s.after.state = .folderEnd) :=
  h.relates
    (Q := fun s kind _ t => kind.leads s.headerRank t.headerRank = true ∨
      (kind = .error ∧ s = .folder ∧ t = .folderEnd))
    (by decide) hc

/-- A token that leads on to a rank comes in front of tokens that keep to the order from there. -/
theorem Headed.of_leads {m : Nat} (h : t.kind.leads n m = true) (tail : Headed m ts)
    (hbehind : m = 5 → ∀ x ∈ ts, x.kind.isHeader = false) : Headed n (t :: ts) := by
  have others (hk : t.kind.isHeader = false) (hm : m = 5) : Headed n (t :: ts) :=
    .body (List.forall_mem_cons.2 ⟨hk, hbehind hm⟩)
  -- each part of the header has a place of its own; every other token is of the body
  cases hk : t.kind with
  | pin =>
    obtain ⟨hn, rfl⟩ : n = 0 ∧ m = 1 := by simpa [hk, TokenKind.leads] using h
    exact .pin hk hn tail
  | date =>
    obtain ⟨hn, rfl⟩ : n ≤ 1 ∧ m = 2 := by simpa [hk, TokenKind.leads] using h
    exact .date hk hn tail
  | folder =>
    obtain ⟨hn, rfl⟩ : n ≤ 3 ∧ m = 3 := by simpa [hk, TokenKind.leads] using h
    exact .folder hk hn tail
  | space =>
    have hm : m = 5 ∨ m = if n = 3 then 4 else n := by simpa [hk, TokenKind.leads] using h
    rcases hm with hm | hm
    · exact others (by rw [hk]; rfl) hm
    · exact .space hk hm tail
  | todo | done =>
    have hm : m = 5 := by simpa [hk, TokenKind.leads] using h
    exact .task (by simp [hk]) (hbehind hm)
  | _ => exact others (by rw [hk]; rfl) (by simpa [hk, TokenKind.leads] using h)

/-- A broken folder is a stretch without white space. -/
theorem Step.By.pattern_of_folder_error (h : s.By k c r) (hs : c.state = .folder)
    (hk : s.token.kind = .error) : r.pattern = .symbol := by
  have htable := State.forall_rules
    (P := fun s r => s = .folder → .error ∈ r.emit.kinds → r.pattern = .symbol) (by decide) h.rule
  exact htable hs (hk ▸ h.kind_mem)

/-- The tokens of a run keep to the order of the header. -/
theorem Cursor.Run.headed (h : Run k c ss d) (hc : Stacked n c.state c.stack) :
    Headed c.state.headerRank (ss.map Step.token) := by
  -- by induction on the run: each step passes the header up to some rank, from which the others go
  -- on
  induction h generalizing n with
  | nil => exact .body (by simp)
  | @cons c d s ss head tail ih =>
    obtain ⟨r, hr⟩ := exists_rule_of_step? head
    have hstack := hr.stacked hc
    have htail := ih hstack
    rw [List.map_cons]
    rcases hr.leads hc with hleads | ⟨hk, hs, ht⟩
    · exact .of_leads hleads htail fun hm => tail.isHeader_eq_false hstack hm
    · -- a broken folder takes everything up to white space
      have hblank := hr.startsIn_of_symbol (hr.pattern_of_folder_error hs hk)
      exact .body (List.forall_mem_cons.2
        ⟨by rw [hk]; rfl, tail.isHeader_eq_false_of_blank hstack ht hblank⟩)

-- ---------------------------------------------------------------------------
-- What the order means
-- ---------------------------------------------------------------------------

/-- Some tokens are the parts of a header, each part complete and in its place, and other tokens
behind it. -/
structure HeaderParts (ts pins dates folders tasks rest : List Token) : Prop where
  eq      : ts = pins ++ dates ++ folders ++ tasks ++ rest
  pins    : pins.length ≤ 1 ∧ ∀ t ∈ pins, t.kind = .pin
  dates   : dates.length ≤ 1 ∧ ∀ t ∈ dates, t.kind = .date
  folders : ∀ t ∈ folders, t.kind = .folder
  tasks   : tasks.length ≤ 1 ∧ ∀ t ∈ tasks, t.kind = .todo ∨ t.kind = .done
  rest    : ∀ t ∈ rest, t.kind.isHeader = false

/-- In front there is nothing but the header and white space, and behind it no header. -/
structure Splits (ts front rest : List Token) : Prop where
  eq    : ts = front ++ rest
  front : ∀ t ∈ front, t.kind.isHeader = true ∨ t.kind = .space
  rest  : ∀ t ∈ rest, t.kind.isHeader = false

theorem Splits.behind (h : ∀ t ∈ ts, t.kind.isHeader = false) : Splits ts [] ts :=
  ⟨rfl, List.forall_mem_nil _, h⟩

/-- White space and parts of the header may be put in front. -/
theorem Splits.cons {front rest : List Token} (h : Splits ts front rest)
    (ht : t.kind.isHeader = true ∨ t.kind = .space) : Splits (t :: ts) (t :: front) rest :=
  ⟨by rw [h.eq, List.cons_append], List.forall_mem_cons.2 ⟨ht, h.front⟩, h.rest⟩

namespace Headed

theorem filter_space_cons (ht : t.kind ≠ .space) (ts : List Token) :
    ((t :: ts).filter fun t => t.kind ≠ .space) = t :: ts.filter fun t => t.kind ≠ .space :=
  List.filter_cons_of_pos (by simpa using ht)

/-- But for white space, the parts of the header come in their order. -/
theorem exists_parts (h : Headed n ts) :
    ∃ pins dates folders tasks rest,
      HeaderParts (ts.filter fun t => t.kind ≠ .space) pins dates folders tasks rest ∧
      (0 < n → pins = []) ∧ (1 < n → dates = []) ∧ (3 < n → folders = []) := by
  induction h with
  | @body n ts h =>
    refine ⟨[], [], [], [], ts.filter fun t => t.kind ≠ .space, ⟨rfl, ?_, ?_, ?_, ?_, ?_⟩, ?_⟩
    · simp
    · simp
    · simp
    · simp
    · exact fun t ht => h t (List.mem_filter.1 ht).1
    · simp
  | @space n m t ts ht hm _ ih =>
    obtain ⟨pins, dates, folders, tasks, rest, hparts, hpins, hdates, hfolders⟩ := ih
    have hle : n ≤ m := by
      rw [hm]
      split <;> omega
    refine ⟨pins, dates, folders, tasks, rest, ?_, fun hn => hpins (by omega),
      fun hn => hdates (by omega), fun hn => hfolders (by omega)⟩
    rwa [List.filter_cons_of_neg (by simp [ht])]
  -- behind a part of the header nothing comes that stands before it, so its list was empty
  | @pin n t ts ht hn _ ih =>
    obtain ⟨pins, dates, folders, tasks, rest, hparts, hpins, -, -⟩ := ih
    obtain rfl := hpins Nat.one_pos
    refine ⟨[t], dates, folders, tasks, rest, ⟨?_, ?_, hparts.dates, hparts.folders, hparts.tasks,
      hparts.rest⟩, fun h => by omega, fun h => by omega, fun h => by omega⟩
    · rw [filter_space_cons (by rw [ht]; decide), hparts.eq]
      rfl
    · simpa using ht
  | @date n t ts ht hn _ ih =>
    obtain ⟨pins, dates, folders, tasks, rest, hparts, hpins, hdates, -⟩ := ih
    obtain rfl := hpins Nat.two_pos
    obtain rfl := hdates Nat.one_lt_two
    refine ⟨[], [t], folders, tasks, rest, ⟨?_, hparts.pins, ?_, hparts.folders, hparts.tasks,
      hparts.rest⟩, fun _ => rfl, fun h => by omega, fun h => by omega⟩
    · rw [filter_space_cons (by rw [ht]; decide), hparts.eq]
      rfl
    · simpa using ht
  | @folder n t ts ht hn _ ih =>
    obtain ⟨pins, dates, folders, tasks, rest, hparts, hpins, hdates, -⟩ := ih
    obtain rfl := hpins (by omega)
    obtain rfl := hdates (by omega)
    refine ⟨[], [], t :: folders, tasks, rest, ⟨?_, hparts.pins, hparts.dates, ?_, hparts.tasks,
      hparts.rest⟩, fun _ => rfl, fun _ => rfl, fun h => by omega⟩
    · rw [filter_space_cons (by rw [ht]; decide), hparts.eq]
      rfl
    · exact List.forall_mem_cons.2 ⟨ht, hparts.folders⟩
  | @task n t ts ht h =>
    have hne : t.kind ≠ .space := by rcases ht with ht | ht <;> rw [ht] <;> decide
    refine ⟨[], [], [], [t], ts.filter fun t => t.kind ≠ .space,
      ⟨filter_space_cons hne ts, ?_, ?_, ?_, ?_, ?_⟩, ?_⟩
    · simp
    · simp
    · simp
    · simpa using ht
    · exact fun x hx => h x (List.mem_filter.1 hx).1
    · simp

theorem ne_folder_of_isHeader (h : t.kind.isHeader = false) : t.kind ≠ .folder := by
  intro hk
  rw [hk] at h
  contradiction

/-- When the folders have been passed, there are no more. -/
theorem ne_folder (h : Headed n ts) (hn : 3 < n) : ∀ t ∈ ts, t.kind ≠ .folder := by
  induction h with
  | body h => exact fun t ht => ne_folder_of_isHeader (h t ht)
  | @space n m t ts ht hm _ ih =>
    have hlt : 3 < m := by
      rw [hm]
      split <;> omega
    exact List.forall_mem_cons.2 ⟨by rw [ht]; decide, ih hlt⟩
  | pin | date | folder => omega
  | task ht h =>
    refine List.forall_mem_cons.2 ⟨?_, fun t ht => ne_folder_of_isHeader (h t ht)⟩
    rcases ht with ht | ht <;> rw [ht] <;> decide

/-- The folders stand in one place, with nothing between them. -/
theorem exists_folders (h : Headed n ts) :
    ∃ front folders behind, ts = front ++ folders ++ behind ∧
      (∀ t ∈ folders, t.kind = .folder) ∧ (∀ t ∈ front ++ behind, t.kind ≠ .folder) ∧
      (n = 3 → front = []) := by
  induction h with
  | @body n ts h =>
    exact ⟨[], [], ts, rfl, by simp, fun t ht => ne_folder_of_isHeader (h t ht), fun _ => rfl⟩
  | @space n m t ts ht hm tail ih =>
    have hne : t.kind ≠ .folder := by rw [ht]; decide
    by_cases hn : n = 3
    · -- behind a folder, white space ends the folders
      have hbehind := tail.ne_folder (by rw [hm, if_pos hn]; omega)
      exact ⟨[], [], t :: ts, rfl, by simp, List.forall_mem_cons.2 ⟨hne, hbehind⟩, fun _ => rfl⟩
    · obtain ⟨front, folders, behind, rfl, hfolders, hothers, -⟩ := ih
      exact ⟨t :: front, folders, behind, rfl, hfolders,
        List.forall_mem_cons.2 ⟨hne, hothers⟩, fun h => absurd h hn⟩
  | @pin n t ts ht hn _ ih =>
    obtain ⟨front, folders, behind, rfl, hfolders, hothers, -⟩ := ih
    exact ⟨t :: front, folders, behind, rfl, hfolders,
      List.forall_mem_cons.2 ⟨by rw [ht]; decide, hothers⟩, fun h => by omega⟩
  | @date n t ts ht hn _ ih =>
    obtain ⟨front, folders, behind, rfl, hfolders, hothers, -⟩ := ih
    exact ⟨t :: front, folders, behind, rfl, hfolders,
      List.forall_mem_cons.2 ⟨by rw [ht]; decide, hothers⟩, fun h => by omega⟩
  | @folder n t ts ht hn _ ih =>
    obtain ⟨front, folders, behind, rfl, hfolders, hothers, hfront⟩ := ih
    obtain rfl := hfront rfl
    exact ⟨[], t :: folders, behind, rfl, List.forall_mem_cons.2 ⟨ht, hfolders⟩, hothers,
      fun _ => rfl⟩
  | @task n t ts ht h =>
    refine ⟨[], [], t :: ts, rfl, by simp, List.forall_mem_cons.2 ⟨?_, ?_⟩, fun _ => rfl⟩
    · rcases ht with ht | ht <;> rw [ht] <;> decide
    · exact fun x hx => ne_folder_of_isHeader (h x hx)

/-- A note can be cut behind its header. -/
theorem exists_splits (h : Headed n ts) : ∃ front rest, Splits ts front rest := by
  have grow {t : Token} {ts : List Token} (ht : t.kind.isHeader = true ∨ t.kind = .space)
      (hts : ∃ front rest, Splits ts front rest) : ∃ front rest, Splits (t :: ts) front rest := by
    obtain ⟨front, rest, hsplits⟩ := hts
    exact ⟨t :: front, rest, hsplits.cons ht⟩
  -- the cut is in front of the first token from which on there is no header
  induction h with
  | @body n ts h => exact ⟨[], ts, .behind h⟩
  | space ht _ _ ih => exact grow (.inr ht) ih
  | pin ht _ _ ih => exact grow (.inl (by rw [ht]; rfl)) ih
  | date ht _ _ ih => exact grow (.inl (by rw [ht]; rfl)) ih
  | folder ht _ _ ih => exact grow (.inl (by rw [ht]; rfl)) ih
  | @task n t ts ht h =>
    have hheader : t.kind.isHeader = true := by rcases ht with ht | ht <;> rw [ht] <;> rfl
    exact grow (.inl hheader) ⟨[], ts, .behind h⟩

end Headed

-- ---------------------------------------------------------------------------
-- Reactions
-- ---------------------------------------------------------------------------

/-- At the start of a note the lexer stays at the start over white space only. -/
theorem Cursor.Run.eq_space_of_start (h : Run k c ss d) (hc : Stacked n c.state c.stack)
    (hd : d.state = .start) :
    c.state = .start ∧ ∀ t ∈ ss.map Step.token, t.kind = .space := by
  induction h generalizing n with
  | nil => exact ⟨hd, by simp⟩
  | cons head _ ih =>
    obtain ⟨r, hr⟩ := exists_rule_of_step? head
    obtain ⟨hafter, hspaces⟩ := ih (hr.stacked hc) hd
    obtain ⟨hstart, hk⟩ := hr.relates
      (Q := fun s kind _ t => t = .start → s = .start ∧ kind = .space) (by decide) hc hafter
    exact ⟨hstart, List.forall_mem_cons.2 ⟨hk, hspaces⟩⟩

/-- White space is one token, if there is any. -/
theorem Cursor.Run.length_le_one_of_space (h : Run k c ss d)
    (hspaces : ∀ t ∈ ss.map Step.token, t.kind = .space) : ss.length ≤ 1 := by
  match ss with
  | [] => exact Nat.zero_le 1
  | [_] => exact Nat.le_refl 1
  | s :: s' :: ss =>
    obtain ⟨hs, hspaces⟩ := List.forall_mem_cons.1 hspaces
    obtain ⟨r, hr, tail⟩ := h.uncons
    obtain ⟨r', hr', -⟩ := tail.uncons
    -- the first token has taken all white space, so the second cannot begin with any
    have hs' := hspaces s'.token List.mem_cons_self
    exact absurd (hr.startsIn_of_space hs) (hr'.not_startsIn_of_space hs')

/-- A reaction is opened at the start of a note, perhaps behind white space, and then there is no
header. -/
theorem Cursor.Run.reaction_first {front behind : List Step}
    (h : Run k c (front ++ s :: behind) d) (hc : Stacked n c.state c.stack)
    (hk : s.token.kind = .reactionOpen) :
    front.length ≤ 1 ∧ (∀ t ∈ front.map Step.token, t.kind = .space) ∧
      ∀ t ∈ (front ++ s :: behind).map Step.token, t.kind.isHeader = false := by
  obtain ⟨b, hfront, hrun⟩ := run_append_iff.1 h
  obtain ⟨r, hr, tail⟩ := hrun.uncons
  obtain ⟨m, hb⟩ := hfront.stacked hc
  -- only at the start is a reaction looked for, and it leads behind the header
  obtain ⟨hstart, hrank⟩ := hr.relates
    (Q := fun s kind _ t => kind = .reactionOpen → s = .start ∧ t.headerRank = 5)
    (by decide) hb hk
  have hspaces := (hfront.eq_space_of_start hc hstart).2
  refine ⟨hfront.length_le_one_of_space hspaces, hspaces, ?_⟩
  rw [List.map_append, List.map_cons]
  refine List.forall_mem_append.2 ⟨fun t ht => ?_, List.forall_mem_cons.2 ⟨?_, ?_⟩⟩
  · rw [hspaces t ht]
    rfl
  · rw [hk]
    rfl
  · exact tail.isHeader_eq_false (hr.stacked hb) hrank

-- ---------------------------------------------------------------------------
-- The body
-- ---------------------------------------------------------------------------

/-- A token of white space has nothing else in it. -/
theorem isBlank_of_space (ht : t ∈ tokenize k note) (hk : t.kind = .space) :
    ∀ x ∈ t.text, isBlank x = true := by
  obtain ⟨s, c, r, hr, rfl⟩ := exists_rule_of_mem_tokenize ht
  rw [hr.text_of_space hk]
  exact List.all_eq_true.1 List.all_takeWhile

theorem Text.trim_append_of_blank {s : Text} (hs : ∀ x ∈ s, Jot.isBlank x = true) (t : Text) :
    trim (s ++ t) = trim t := by
  rw [trim, trim, trimStart, trimStart, List.dropWhile_append_of_pos hs]

/-- What is left by trimming is one piece of the text. -/
theorem Text.trim_infix (t : Text) : trim t <:+: t := by
  have hend : trimEnd (trimStart t) <+: trimStart t := by
    have h := List.dropWhile_suffix Jot.isBlank (l := (trimStart t).reverse)
    rw [← List.reverse_prefix, List.reverse_reverse] at h
    exact h
  exact hend.isInfix.trans (List.dropWhile_suffix Jot.isBlank).isInfix

/-- Cut behind the header, a note leaves its body. -/
theorem Splits.body_eq {front rest : List Token} (h : Splits (tokenize k note) front rest) :
    (parse k note).body = Text.trim (rest.flatMap (·.text)) := by
  have hbody : (parse k note).body =
      Text.trim (((tokenize k note).filter (!·.kind.isHeader)).flatMap (·.text)) :=
    congrArg Text.trim (cuts_nodes (tokenize k note)).body
  have hkeep : rest.filter (!·.kind.isHeader) = rest := by
    rw [List.filter_eq_self]
    intro t ht
    rw [h.rest t ht]
    rfl
  -- in front of the cut there is only white space that is not of the header
  have hblank : ∀ x ∈ (front.filter (!·.kind.isHeader)).flatMap (·.text), isBlank x = true := by
    intro x hx
    obtain ⟨t, ht, hxt⟩ := List.mem_flatMap.1 hx
    obtain ⟨hmem, hheader⟩ := List.mem_filter.1 ht
    have hspace : t.kind = .space := (h.front t hmem).resolve_left (by simpa using hheader)
    exact isBlank_of_space (h.eq ▸ List.mem_append_left rest hmem) hspace x hxt
  rw [hbody, h.eq, List.filter_append, hkeep, List.flatMap_append, Text.trim_append_of_blank hblank]

-- ---------------------------------------------------------------------------
-- The layout of a note
-- ---------------------------------------------------------------------------

/-- How a note is laid out. -/
structure Layout (note : Text) (tokens : List Token) (r : Record) : Prop where
  /-- White space apart, the header comes first, its parts in order. -/
  order    : ∃ pins dates folders tasks rest,
    HeaderParts (tokens.filter fun t => t.kind ≠ .space) pins dates folders tasks rest
  /-- Not even white space stands between two folders. -/
  adjacent : ∃ front folders behind, tokens = front ++ folders ++ behind ∧
    (∀ t ∈ folders, t.kind = .folder) ∧ ∀ t ∈ front ++ behind, t.kind ≠ .folder
  before   : ∀ front t behind, tokens = front ++ t :: behind → t.kind.isHeader = true →
    ∀ x ∈ front, x.kind.isHeader = true ∨ x.kind = .space
  /-- A reaction comes first, and in place of a header. -/
  once     : (tokens.filter fun t => t.kind = .reactionOpen).length ≤ 1
  reaction : ∀ front t behind, tokens = front ++ t :: behind → t.kind = .reactionOpen →
    front.length ≤ 1 ∧ (∀ x ∈ front, x.kind = .space) ∧ ∀ x ∈ tokens, x.kind.isHeader = false
  /-- The body is what stands behind the last token of the header. -/
  body     : ∀ front t behind, tokens = front ++ t :: behind → t.kind.isHeader = true →
    (∀ x ∈ behind, x.kind.isHeader = false) →
    note = (front ++ [t]).flatMap (·.text) ++ behind.flatMap (·.text) ∧
      r.body = Text.trim (behind.flatMap (·.text))
  whole    : (∀ t ∈ tokens, t.kind.isHeader = false) → r.body = Text.trim note
  piece    : r.body <:+: note

/-- **The header comes first, and the body is the rest.** -/
theorem parse_layout (k : Keywords) (note : Text) :
    Layout note (tokenize k note) (parse k note) := by
  obtain ⟨d, hrun, -⟩ := Cursor.run_steps k note
  have hheaded : Headed 0 (tokenize k note) := hrun.headed (.empty rfl)
  have hnote := flatMap_text_tokenize k note
  obtain ⟨header, rest, hsplits⟩ := hheaded.exists_splits
  -- a token of the header cannot stand among the tokens behind it
  have hbefore : ∀ front t behind, tokenize k note = front ++ t :: behind →
      t.kind.isHeader = true → ∀ x ∈ front, x.kind.isHeader = true ∨ x.kind = .space := by
    intro front t behind h ht
    rw [hsplits.eq, List.append_eq_append_iff] at h
    rcases h with ⟨others, -, hothers⟩ | ⟨others, rfl, -⟩
    · have hmem : t ∈ rest := by
        rw [hothers]
        exact List.mem_append_right others List.mem_cons_self
      rw [hsplits.rest t hmem] at ht
      contradiction
    · exact fun x hx => hsplits.front x (List.mem_append_left others hx)
  refine {
    order    := ?_
    adjacent := ?_
    before   := hbefore
    once     := tokenize_once k note rfl
    reaction := ?_
    body     := ?_
    whole    := ?_
    piece    := ?_ }
  · obtain ⟨pins, dates, folders, tasks, rest, hparts, -⟩ := hheaded.exists_parts
    exact ⟨pins, dates, folders, tasks, rest, hparts⟩
  · obtain ⟨front, folders, behind, h, hfolders, hothers, -⟩ := hheaded.exists_folders
    exact ⟨front, folders, behind, h, hfolders, hothers⟩
  · intro front t behind h hk
    -- the tokens are those of steps, and so the run can be cut at the opener
    obtain ⟨front, later, hss, rfl, hlater⟩ := List.map_eq_append_iff.1 h
    obtain ⟨s, behind, rfl, rfl, -⟩ := List.map_eq_cons_iff.1 hlater
    rw [hss] at hrun
    obtain ⟨hlen, hspaces, hothers⟩ := hrun.reaction_first (.empty rfl) hk
    rw [tokenize, hss, List.length_map]
    exact ⟨hlen, hspaces, hothers⟩
  · intro front t behind h ht hbehind
    -- a note can also be cut behind the last token of its header
    have hcut : Splits (tokenize k note) (front ++ [t]) behind :=
      { eq    := by rw [h, List.append_assoc, List.singleton_append]
        front := List.forall_mem_append.2
          ⟨hbefore front t behind h ht, List.forall_mem_singleton.2 (.inl ht)⟩
        rest  := hbehind }
    refine ⟨?_, hcut.body_eq⟩
    rw [← List.flatMap_append, ← hcut.eq, hnote]
  · intro hnone
    rw [(Splits.behind hnone).body_eq]
    exact congrArg Text.trim hnote
  · rw [hsplits.body_eq]
    refine (Text.trim_infix _).trans ?_
    rw [hsplits.eq, List.flatMap_append] at hnote
    exact ⟨header.flatMap (·.text), [], by rw [List.append_nil, hnote]⟩

end Jot
