import Mathlib.Data.List.DropRight
import Jot.Proofs.Extent.Link
import Jot.Proofs.Written.Label
import Jot.Proofs.Written.Lexing
import Jot.Record

/-!
# Jot — written links are read back

A link before it is printed: a setup and perhaps an image, each a pair of parentheses around at
most two quoted contents.  A content may hold whatever does not end it: parentheses, line feeds,
openers of other constructs, and quotes behind a backslash.  Both groups are read alike, in states
of their own and as tokens of kinds of their own (`Part`).

* `Group`, `Link` — what can be written;
* `Group.lexes`, `Link.lexes` — the lexer on groups and on links;
* `Group.readGroup_layout`, `Link.read?_layout` — the tokens of a link make up its value;
* `parse_link_print` — a link that is printed and parsed is the same link.
-/

namespace Jot

namespace Written

-- ---------------------------------------------------------------------------
-- Links
-- ---------------------------------------------------------------------------

/-- A group of a link; there is no second content without a first one. -/
inductive Group where
  | empty
  | one (a : Quote)
  | two (a b : Quote)

structure Link where
  setup : Group
  image : Option Group

-- ---------------------------------------------------------------------------
-- What is written
-- ---------------------------------------------------------------------------

/-- What stands in the parentheses of a group. -/
def Group.inner : Group → Text
  | empty => []
  | one a => a.print
  | two a b => a.print ++ ([' '] ++ b.print)

def Group.print (g : Group) : Text := ['('] ++ (g.inner ++ [')'])

/-- An image has a space before it. -/
def Link.imageText (l : Link) : Text := (l.image.map fun g => [' '] ++ g.print).getD []

def Link.print (l : Link) : Text := [':', '/', '/'] ++ (l.setup.print ++ l.imageText)

-- ---------------------------------------------------------------------------
-- What is meant
-- ---------------------------------------------------------------------------

def Group.first? : Group → Option Text
  | empty => none
  | one a | two a _ => some a.content

def Group.second? : Group → Option Text
  | empty | one _ => none
  | two _ b => some b.content

/-- What is read from a link: every content that is written, and nothing for the others. -/
def Link.value (l : Link) : Jot.Link where
  href        := l.setup.first?
  title       := l.setup.second?
  imageSource := l.image.bind Group.first?
  imageTitle  := l.image.bind Group.second?

-- ---------------------------------------------------------------------------
-- Lexemes
-- ---------------------------------------------------------------------------

/-- The two groups of a link. -/
inductive Part where
  | setup
  | image

namespace Part

def firstKind : Part → TokenKind
  | setup => .href
  | image => .imageSource

def secondKind : Part → TokenKind
  | setup => .title
  | image => .imageTitle

/-- Where the opening parenthesis is read. -/
def before : Part → LinkState
  | setup => .opened
  | image => .image

/-- Where the first content is read. -/
def first : Part → LinkState
  | setup => .href
  | image => .imageSource

/-- Where the second content is read. -/
def second : Part → LinkState
  | setup => .title
  | image => .imageTitle

/-- Where nothing but the closing parenthesis is left. -/
def last : Part → LinkState
  | setup => .setupEnd
  | image => .imageEnd

/-- Where the lexer goes behind the closing parenthesis. -/
def behind : Part → State
  | setup => .link .image
  | image => .prose

/-- What is left of the stack behind the closing parenthesis. -/
def left (stack : List State) : Part → List State
  | setup => stack
  | image => []

end Part

def Group.innerLexemes (part : Part) : Group → List Lexeme
  | empty => []
  | one a => [(part.firstKind, a.print)]
  | two a b => [(part.firstKind, a.print), (.space, [' ']), (part.secondKind, b.print)]

def Group.lexemes (part : Part) (g : Group) : List Lexeme :=
  (.lparen, ['(']) :: (g.innerLexemes part ++ [(.rparen, [')'])])

def Link.imageLexemes (l : Link) : List Lexeme :=
  (l.image.map fun g => (TokenKind.space, [' ']) :: g.lexemes .image).getD []

def Link.lexemes (l : Link) : List Lexeme :=
  (.linkOpen, [':', '/', '/']) :: (l.setup.lexemes .setup ++ l.imageLexemes)

theorem Group.textOf_innerLexemes (part : Part) (g : Group) :
    Lexeme.textOf (g.innerLexemes part) = g.inner := by
  cases g <;> simp [innerLexemes, inner]

theorem Group.textOf_lexemes (part : Part) (g : Group) :
    Lexeme.textOf (g.lexemes part) = g.print := by
  simp [lexemes, print, g.textOf_innerLexemes]

theorem Link.textOf_lexemes (l : Link) : Lexeme.textOf l.lexemes = l.print := by
  cases h : l.image <;>
    simp [lexemes, imageLexemes, print, imageText, h, Group.textOf_lexemes]

-- ---------------------------------------------------------------------------
-- The lexer on groups
-- ---------------------------------------------------------------------------

section Lexing

open Cursor

variable {k : Keywords} {rest : Text} {p : Place} {stack : List State}

/-- Everywhere in a link, spaces are passed over. -/
theorem lexes_space_link (st : LinkState) (h : rest.StartsIn fun c => !isBlank c) :
    Lexes k ⟨[' '] ++ rest, p, .link st, stack⟩ [(.space, [' '])]
      ⟨rest, p.after [' '], .link st, stack⟩ := by
  cases st
  all_goals
    exact lexes_of_rule [] (Rule.space .stay) rfl (List.forall_mem_nil _) (take?_space h) rfl rfl

/-- The first content of a group is read whole, with its quotes. -/
theorem lexes_first (part : Part) (q : Quote) :
    Lexes k ⟨q.print ++ rest, p, .link part.first, stack⟩ [(part.firstKind, q.print)]
      ⟨rest, p.after q.print, .link part.second, stack⟩ := by
  cases part
  all_goals
    exact lexes_of_rule [Rule.space .stay] (Rule.quoted _ (.next _)) rfl
      (List.forall_mem_singleton.2 rfl) (q.take?_print rest) rfl rfl

/-- The second content of a group is read whole, and then only the closing parenthesis is left. -/
theorem lexes_second (part : Part) (q : Quote) :
    Lexes k ⟨q.print ++ rest, p, .link part.second, stack⟩ [(part.secondKind, q.print)]
      ⟨rest, p.after q.print, .link part.last, stack⟩ := by
  cases part
  all_goals
    exact lexes_of_rule [Rule.space .stay] (Rule.quoted _ (.next _)) rfl
      (List.forall_mem_singleton.2 rfl) (q.take?_print rest) rfl rfl

/-- The parenthesis of a group is read where the group can begin. -/
theorem lexes_open (part : Part) :
    Lexes k ⟨['('] ++ rest, p, .link part.before, stack⟩ [(.lparen, ['('])]
      ⟨rest, p.after ['('], .link part.first, stack⟩ := by
  cases part
  all_goals
    exact lexes_of_rule [Rule.space .stay] (Rule.lparen (.next _)) rfl
      (List.forall_mem_singleton.2 rfl) rfl rfl rfl

/-- A group can be closed before the first content, before the second one, and behind it. -/
theorem lexes_close (part : Part) {st : LinkState}
    (hst : st = part.first ∨ st = part.second ∨ st = part.last) :
    Lexes k ⟨[')'] ++ rest, p, .link st, stack⟩ [(.rparen, [')'])]
      ⟨rest, p.after [')'], part.behind, part.left stack⟩ := by
  have hquoted (q : Rule) (hq : q.pattern = .quotedName) :
      ∀ x ∈ [Rule.space .stay, q], x.pattern.take? ([')'] ++ rest) = none :=
    List.forall_mem_cons.2 ⟨rfl, List.forall_mem_singleton.2 (hq ▸ rfl)⟩
  cases part
  all_goals
    -- only where a content can come does its rule stand in front of that of the parenthesis
    rcases hst with rfl | rfl | rfl
    · exact lexes_of_rule [Rule.space .stay, Rule.quoted _ (.next _)] (Rule.rparen (.next _)) rfl
        (hquoted _ rfl) rfl rfl rfl
    · exact lexes_of_rule [Rule.space .stay, Rule.quoted _ (.next _)] (Rule.rparen (.next _)) rfl
        (hquoted _ rfl) rfl rfl rfl
    · exact lexes_of_rule [Rule.space .stay] (Rule.rparen (.next _)) rfl
        (List.forall_mem_singleton.2 rfl) rfl rfl rfl

/-- The contents of a group lead to a state in which the group can be closed. -/
theorem Group.lexes_inner (g : Group) (part : Part) (rest : Text) (p : Place)
    (stack : List State) :
    ∃ st, (st = part.first ∨ st = part.second ∨ st = part.last) ∧
      Lexes k ⟨g.inner ++ rest, p, .link part.first, stack⟩ (g.innerLexemes part)
        ⟨rest, p.after g.inner, .link st, stack⟩ := by
  -- each content leads one state further
  cases g with
  | empty => exact ⟨part.first, .inl rfl, .refl _⟩
  | one a => exact ⟨part.second, .inr (.inl rfl), lexes_first part a⟩
  | two a b =>
    have hquote : Text.StartsIn (fun c => !isBlank c) (b.print ++ rest) := Text.startsIn_cons.2 rfl
    have hfirst : Lexes k ⟨a.print ++ ([' '] ++ (b.print ++ rest)), p, .link part.first, stack⟩
        _ _ := lexes_first part a
    have hspace := hfirst.append (lexes_space_link part.second hquote)
    have htwo := hspace.append (lexes_second part b)
    exact ⟨part.last, .inr (.inr rfl),
      by simpa [inner, innerLexemes, Place.after_append] using htwo⟩

/-- A group is read whole, whatever comes behind it. -/
theorem Group.lexes (g : Group) (part : Part) :
    Lexes k ⟨g.print ++ rest, p, .link part.before, stack⟩ (g.lexemes part)
      ⟨rest, p.after g.print, part.behind, part.left stack⟩ := by
  have hopen : Lexes k ⟨['('] ++ (g.inner ++ ([')'] ++ rest)), p, .link part.before, stack⟩ _ _ :=
    lexes_open part
  obtain ⟨st, hst, hinner⟩ :=
    g.lexes_inner (k := k) part ([')'] ++ rest) (p.after ['(']) stack
  have hclose := (hopen.append hinner).append (lexes_close part hst)
  simpa [print, lexemes, Place.after_append] using hclose

/-- At the start of a note, a link is nothing else that a note may start with. -/
theorem lexes_linkOpen :
    Lexes k (start ([':', '/', '/'] ++ rest)) [(.linkOpen, [':', '/', '/'])]
      ⟨rest, Place.start.after [':', '/', '/'], .link .opened, [.start]⟩ := by
  refine lexes_of_rule
    [⟨.pin, _, _⟩, Rule.dateTime, Rule.folder _, ⟨.reactionOpen, _, _⟩, Rule.mark .tag,
      Rule.mark .mention, Rule.mark .cell, Rule.mark .event, Rule.mark .url, Rule.mark .bean]
    ⟨.link, _, .push (.link .opened)⟩ rfl ?_ rfl rfl rfl
  repeat refine List.forall_mem_cons.2 ⟨rfl, ?_⟩
  exact List.forall_mem_nil _

/-- A link is read whole.  Without an image the lexer goes on to look for one. -/
theorem Link.lexes (l : Link) (rest : Text) :
    ∃ st stack, (l.image = none → st = .link .image) ∧
      Lexes k (start (l.print ++ rest)) l.lexemes
        ⟨rest, Place.start.after l.print, st, stack⟩ := by
  have hopen : Lexes k (start ([':', '/', '/'] ++ (l.setup.print ++ (l.imageText ++ rest)))) _ _ :=
    lexes_linkOpen
  have hsetup := hopen.append (l.setup.lexes .setup)
  cases h : l.image with
  | none =>
    refine ⟨.link .image, [.start], fun _ => rfl, ?_⟩
    simpa [print, lexemes, imageText, imageLexemes, h, Place.after_append, Part.behind,
      Part.left] using hsetup
  | some g =>
    have hparen : Text.StartsIn (fun c => !isBlank c) (g.print ++ rest) := Text.startsIn_cons.2 rfl
    have htext : l.imageText ++ rest = [' '] ++ (g.print ++ rest) := by
      simp [imageText, h]
    rw [htext] at hsetup
    have hspace := hsetup.append (lexes_space_link .image hparen)
    have himage := hspace.append (g.lexes .image)
    refine ⟨.prose, [], nofun, ?_⟩
    simpa [print, lexemes, imageText, imageLexemes, h, Place.after_append, Part.behind,
      Part.left] using himage

end Lexing

end Written

-- ---------------------------------------------------------------------------
-- Links without an image
-- ---------------------------------------------------------------------------

/-- A space behind the setup of a link is passed over. -/
theorem Step.By.stays_of_space {k : Keywords} {c : Cursor} {r : Rule} {s : Step} (h : s.By k c r)
    (hs : c.state = .link .image) (hk : s.token.kind = .space) : s.after.state = .link .image := by
  have htable := State.forall_rules
    (P := fun s r => s = .link .image → .space ∈ r.emit.kinds → r.transition = .stay)
    (by decide) h.rule
  have hgoes := h.goes
  rw [htable hs (hk ▸ h.kind_mem), hs] at hgoes
  exact (Prod.mk.inj hgoes).1

theorem Step.By.head_of_lparen {k : Keywords} {c : Cursor} {r : Rule} {s : Step} (h : s.By k c r)
    (hk : s.token.kind = .lparen) : c.rest.head? = some '(' := by
  rw [h.rest, h.text_of_lparen hk]
  rfl

/-- Where an image could come, no group is opened unless a parenthesis stands behind the blanks. -/
theorem Cursor.Run.opensGroup_eq_false {k : Keywords} {c d : Cursor} {ss : List Step}
    (h : Run k c ss d) (hs : c.state = .link .image)
    (hrest : (c.rest.dropWhile isBlank).head? ≠ some '(') : opensGroup ss = false := by
  -- on the run, as long as it reads blanks
  induction h with
  | nil => rfl
  | @cons c d s ss head tail ih =>
    obtain ⟨r, hr⟩ := exists_rule_of_step? head
    by_cases hk : s.token.kind = .space
    · have hrest' : s.after.rest = c.rest.dropWhile isBlank :=
        hr.rest_eq_dropWhile (by rw [hr.pattern_of_space hk]; rfl)
      have hopens : opensGroup (s :: ss) = opensGroup ss := by
        rw [opensGroup, List.dropWhile_cons_of_pos (by simp [Step.isSpace, hk]), opensGroup]
      rw [hopens]
      exact ih (hr.stays_of_space hs hk) (by rwa [hrest', List.dropWhile_idempotent])
    · have hparen : s.token.kind ≠ .lparen := by
        intro hlparen
        obtain ⟨t, ht⟩ := List.head?_eq_some_iff.1 (hr.head_of_lparen hlparen)
        rw [ht] at hrest
        exact hrest rfl
      simp [opensGroup, Step.isSpace, hk, hparen]

/-- Where no group is opened the reader of links takes nothing for an image, not even the spaces. -/
theorem Link.readImage_eq_self {ss : List Step} (h : opensGroup ss = false) (i : Nat) (l : Link)
    (closed : Bool) (e : Option Token) :
    readImage ⟨i, l, closed, e, ss.map Step.token⟩ = ⟨i, l, closed, e, ss.map Step.token⟩ := by
  simp only [readImage, length_takeWhile_space, drop_takeWhile_space]
  rw [opensGroup] at h
  cases hmore : ss.dropWhile Step.isSpace with
  | nil => rfl
  | cons s more =>
    have hk : s.token.kind ≠ .lparen := by simpa [hmore] using h
    simp [hk]

-- ---------------------------------------------------------------------------
-- Reading links
-- ---------------------------------------------------------------------------

namespace Written

/-- A link with the contents of a group filled in. -/
def Part.fill (g : Group) (l : Jot.Link) : Part → Jot.Link
  | setup => { l with href := g.first?.or l.href, title := g.second?.or l.title }
  | image =>
    { l with
      imageSource := g.first?.or l.imageSource
      imageTitle := g.second?.or l.imageTitle }

/-- Behind its opening parenthesis, the tokens of a group fill in its contents. -/
theorem Group.readGroup_layout (g : Group) (part : Part) (p : Place) (i : Nat) (l : Jot.Link)
    (more : List Token) :
    Jot.Link.readGroup i l
        (Token.layout p (g.innerLexemes part ++ [(.rparen, [')'])]) ++ more) =
      ⟨i + (g.innerLexemes part).length + 1, part.fill g l, true, none, more⟩ := by
  cases part <;> cases g
  all_goals
    simp [innerLexemes, Token.layout, Jot.Link.readGroup, decode, Value.asText,
      Quote.dequote_print, Part.fill, first?, second?, Part.firstKind, Part.secondKind]

/-- The tokens of the setup fill in the address and the title. -/
theorem Group.readSetup_layout (g : Group) (p : Place) (more : List Token) :
    Jot.Link.readSetup 1 (Token.layout p (g.lexemes .setup) ++ more) =
      ⟨1 + (g.lexemes .setup).length, ⟨g.first?, g.second?, none, none⟩, true, none, more⟩ := by
  show Jot.Link.readGroup (1 + 0 + 1) Jot.Link.empty
    (Token.layout (p.after ['(']) (g.innerLexemes .setup ++ [(.rparen, [')'])]) ++ more) = _
  rw [g.readGroup_layout]
  have hlen : 1 + 0 + 1 + (g.innerLexemes .setup).length + 1 = 1 + (g.lexemes .setup).length := by
    simp only [lexemes, List.length_cons, List.length_append, List.length_nil]
    omega
  rw [hlen]
  simp [Part.fill, Jot.Link.empty]

/-- The image is read if there is one, and nothing else is taken for one. -/
theorem Link.readImage_layout (l : Link) (p : Place) (i : Nat) (ss : List Step)
    (h : l.image = none → opensGroup ss = false) :
    Jot.Link.readImage ⟨i, ⟨l.setup.first?, l.setup.second?, none, none⟩, true, none,
        Token.layout p l.imageLexemes ++ ss.map Step.token⟩ =
      ⟨i + l.imageLexemes.length, l.value, true, none, ss.map Step.token⟩ := by
  cases himage : l.image with
  | none =>
    rw [imageLexemes, value, himage]
    exact Jot.Link.readImage_eq_self (h himage) i _ true none
  | some g =>
    rw [imageLexemes, value, himage]
    show Jot.Link.readGroup (i + 1 + 1) _ (Token.layout ((p.after [' ']).after ['('])
      (g.innerLexemes .image ++ [(.rparen, [')'])]) ++ ss.map Step.token) = _
    rw [g.readGroup_layout]
    have hlen : i + 1 + 1 + (g.innerLexemes .image).length + 1 =
        i + ((TokenKind.space, [' ']) :: g.lexemes .image).length := by
      simp only [Group.lexemes, List.length_cons, List.length_append, List.length_nil]
      omega
    rw [hlen]
    simp [Part.fill]

/-- The tokens of a link make up its value. -/
theorem Link.read?_layout (l : Link) (ss : List Step)
    (h : l.image = none → opensGroup ss = false) :
    Jot.Link.read? (Token.layout Place.start l.lexemes ++ ss.map Step.token) =
      some ⟨l.lexemes.length, ⟨Piece.ofText Place.start l.print, .link, .link l.value⟩, none⟩ := by
  let p := Place.start.after [':', '/', '/']
  have hopener : afterOpener? .linkOpen (Token.layout Place.start l.lexemes ++ ss.map Step.token) =
      some (Token.layout p (l.setup.lexemes .setup) ++
        (Token.layout (p.after l.setup.print) l.imageLexemes ++ ss.map Step.token)) := by
    rw [← List.append_assoc, ← l.setup.textOf_lexemes .setup, ← Token.layout_append]
    rfl
  have hsetup := l.setup.readSetup_layout p
    (Token.layout (p.after l.setup.print) l.imageLexemes ++ ss.map Step.token)
  -- behind the setup the reader looks for an image, in the tokens of one or in whatever follows
  have himage := l.readImage_layout (p.after l.setup.print)
    (1 + (l.setup.lexemes .setup).length) ss h
  have hlen : 1 + (l.setup.lexemes .setup).length + l.imageLexemes.length = l.lexemes.length := by
    simp only [lexemes, List.length_cons, List.length_append]
    omega
  have htake : (Token.layout Place.start l.lexemes ++ ss.map Step.token).take l.lexemes.length =
      Token.layout Place.start l.lexemes :=
    List.take_left' (Token.length_layout Place.start l.lexemes)
  have hnode : Token.synthesize .link (.link l.value) (Token.layout Place.start l.lexemes) =
      ⟨Piece.ofText Place.start l.print, .link, .link l.value⟩ := by
    rw [← l.textOf_lexemes]
    exact Token.synthesize_layout .link _ Place.start _ _
  rw [Jot.Link.read?, hopener, Option.map_some]
  simp only [hsetup, himage, if_true, hlen]
  rw [Reading.ofTokens, htake, hnode]

end Written

-- ---------------------------------------------------------------------------
-- Notes
-- ---------------------------------------------------------------------------

/-- **A link that is printed and parsed is the same link**, whatever its contents are and whatever
comes behind it, unless what comes behind a link without an image looks like one. -/
theorem parse_link_print (k : Keywords) (l : Written.Link) (rest : Text)
    (h : l.image = none → (rest.dropWhile isBlank).head? ≠ some '(') :
    (parse k (l.print ++ rest)).link.head? =
      some {
        toPiece := Piece.ofText Place.start l.print
        kind    := .link
        value   := l.value
        error   := none } := by
  obtain ⟨st, stack, hst, hlexes⟩ := l.lexes (k := k) rest
  let behind : Cursor := ⟨rest, Place.start.after l.print, st, stack⟩
  obtain ⟨e, hrun, -⟩ := Cursor.run_stepsFrom k behind
  have hopens (himage : l.image = none) : opensGroup (behind.stepsFrom k []) = false :=
    hrun.opensGroup_eq_false (hst himage) (h himage)
  have hread := l.read?_layout (behind.stepsFrom k []) hopens
  have htokens := hlexes.tokenize
  let opener : Token := ⟨Piece.ofText Place.start [':', '/', '/'], .linkOpen, .text [':', '/', '/']⟩
  obtain ⟨later, hlater⟩ : ∃ later, Token.layout Place.start l.lexemes ++
      (behind.stepsFrom k []).map Step.token = opener :: later := ⟨_, rfl⟩
  rw [hlater] at htokens hread
  have hnodes := nodes_cons_of_construct (t := opener) hread
  show ((nodes (tokenize k (l.print ++ rest))).filterMap Node.link?).head? = _
  rw [htokens, hnodes]
  rfl

/-- A parenthesis, a quote and a line feed in one content, the opener of a formula in another one,
and behind the link a parenthesis that does not follow at once. -/
theorem parse_link_print_nested :
    let href : Written.Quote := ⟨[')', '\\', '"', '\n'],
      .plain (by decide) (by decide) (.escaped '"' (.plain (by decide) (by decide) .nil))⟩
    let title : Written.Quote := ⟨['$', '$', '('],
      .plain (by decide) (by decide) (.plain (by decide) (by decide)
        (.plain (by decide) (by decide) .nil))⟩
    let l : Written.Link := ⟨.two href title, none⟩
    let rest : Text := "\n $(\"x\")".toList
    (l.image = none → (rest.dropWhile isBlank).head? ≠ some '(') ∧
      l.print = "://(\")\\\"\n\" \"$$(\")".toList ∧
      (parse Keywords.standard (l.print ++ rest)).link.head? =
        some ⟨Piece.ofText Place.start l.print, .link,
          ⟨some [')', '\\', '"', '\n'], some ['$', '$', '('], none, none⟩, none⟩ := by
  intro href title l rest
  have hrest : l.image = none → (rest.dropWhile isBlank).head? ≠ some '(' := by decide
  exact ⟨hrest, by decide, parse_link_print Keywords.standard l rest hrest⟩

end Jot
