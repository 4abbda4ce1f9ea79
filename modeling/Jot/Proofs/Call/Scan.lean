import Mathlib.Order.Bounds.Basic
import Jot.Proofs.Call.Level

/-!
# Jot — calls by counting parentheses

Another way to find the end of a call is to pass its tokens with nothing but a number in hand: how
many parentheses are open inside the call.  `scan` does so and notes the depth of each token;
the reader of calls, which builds a tree, takes the same tokens (`Call.Lawful`).

* `isLeast_scan` — the scan stops at the first of the four ends of a call (`Ends`);
* `Level.exists_noted` — level by level, the reader makes of a call what the scan notes there;
* `lawful_read` — what a call is, read off the scan, at every depth.
-/

namespace Jot.Call

-- ---------------------------------------------------------------------------
-- Scanning
-- ---------------------------------------------------------------------------

/-- A token of a call, the number of calls inside it that are open around the token, and the tokens
behind it. -/
structure Mark where
  depth : Nat
  token : Token
  behind : List Token

/-- The text of an operator token. -/
def Mark.operator? (m : Mark) : Option Text :=
  if m.token.kind = .operator then m.token.value.asText else none

/-- Passes the tokens of a call behind its opening parenthesis, while `depth` more are open. -/
def scan (depth : Nat) : List Token → List Mark
  | [] => []
  | t :: ts =>
    match t.kind with
    | .lparen => ⟨depth, t, ts⟩ :: scan (depth + 1) ts
    | .rparen => ⟨depth, t, ts⟩ :: if depth = 0 then [] else scan (depth - 1) ts
    | .operator | .arg | .space => ⟨depth, t, ts⟩ :: scan depth ts
    | .error => [⟨depth, t, ts⟩]
    | _ => []

/-- The scan stops in front of a token that has no place in a call. -/
theorem scan_of_isForeign {depth : Nat} {t : Token} {ts : List Token}
    (h : t.kind.isForeign = true) : scan depth (t :: ts) = [] := by
  rw [scan]
  cases hk : t.kind <;> first | rfl | (rw [hk] at h; contradiction)

theorem scan_of_isLevel {depth : Nat} {t : Token} {ts : List Token}
    (h : t.kind.isLevel = true) : scan depth (t :: ts) = ⟨depth, t, ts⟩ :: scan depth ts := by
  rw [scan]
  cases hk : t.kind <;> first | rfl | (rw [hk] at h; contradiction)

/-- The tokens that stand at a depth. -/
def own (depth : Nat) (marks : List Mark) : List Mark := marks.filter fun m => m.depth = depth

/-- The tokens of a call at its own depth, behind its opening parenthesis. -/
def direct (ts : List Token) : List Mark := own 0 (scan 0 ts)

/-- A call can end behind `k` tokens: they close all that is open, the last of them is an error, the
next one has no place in a call, or there is none. -/
def Ends (depth : Nat) (ts : List Token) (k : Nat) : Prop :=
  (ts.take k).countP (·.kind = .rparen) = (ts.take k).countP (·.kind = .lparen) + depth + 1 ∨
  (∃ t ∈ (ts.take k).getLast?, t.kind = .error) ∨
  (∃ t ∈ (ts.drop k).head?, t.kind.isForeign = true) ∨
  k = ts.length

variable {depth n : Nat} {t : Token} {ts : List Token}

theorem not_ends_zero (hk : t.kind.isForeign = false) : ¬ Ends depth (t :: ts) 0 := by
  simp [Ends, hk]

/-- Behind its first token, the scan of a call is that of the rest at the depth it has then. -/
theorem ends_succ {depth' : Nat} (hk : t.kind ≠ .error) (k : Nat)
    (hdepth : [t].countP (·.kind = .rparen) + depth' = [t].countP (·.kind = .lparen) + depth) :
    Ends depth (t :: ts) (k + 1) ↔ Ends depth' ts k := by
  have hlast : (∃ x ∈ (t :: ts.take k).getLast?, x.kind = .error) ↔
      ∃ x ∈ (ts.take k).getLast?, x.kind = .error := by
    rw [List.getLast?_cons]
    cases (ts.take k).getLast? <;> simp [hk]
  have hcount : (t :: ts.take k).countP (·.kind = .rparen) =
        (t :: ts.take k).countP (·.kind = .lparen) + depth + 1 ↔
      (ts.take k).countP (·.kind = .rparen) =
        (ts.take k).countP (·.kind = .lparen) + depth' + 1 := by
    rw [← List.singleton_append, List.countP_append, List.countP_append]
    omega
  rw [Ends, Ends, List.take_succ_cons, List.drop_succ_cons, List.length_cons, hcount, hlast,
    Nat.add_right_cancel_iff]

/-- The first end behind a token that does not end the call is the first end of the rest, one
further. -/
theorem isLeast_succ {depth' : Nat} (hforeign : t.kind.isForeign = false) (herror : t.kind ≠ .error)
    (hdepth : [t].countP (·.kind = .rparen) + depth' = [t].countP (·.kind = .lparen) + depth)
    (h : IsLeast {k | Ends depth' ts k} n) : IsLeast {k | Ends depth (t :: ts) k} (n + 1) := by
  refine ⟨(ends_succ herror n hdepth).2 h.1, ?_⟩
  intro k hk
  cases k with
  | zero => exact absurd hk (not_ends_zero hforeign)
  | succ k => exact Nat.succ_le_succ (h.2 ((ends_succ herror k hdepth).1 hk))

/-- Where a call ends behind its first token, that is its first end. -/
theorem isLeast_one (hforeign : t.kind.isForeign = false) (h : Ends depth (t :: ts) 1) :
    IsLeast {k | Ends depth (t :: ts) k} 1 := by
  refine ⟨h, ?_⟩
  intro k hk
  cases k with
  | zero => exact absurd hk (not_ends_zero hforeign)
  | succ k => exact Nat.succ_le_succ (Nat.zero_le k)

/-- The scan stops at the first end of the call. -/
theorem isLeast_scan (depth : Nat) (ts : List Token) :
    IsLeast {k | Ends depth ts k} (scan depth ts).length := by
  induction ts generalizing depth with
  | nil => exact ⟨.inr (.inr (.inr rfl)), fun k _ => Nat.zero_le k⟩
  | cons t ts ih =>
    rw [scan]
    split
    case h_1 hk =>
      exact isLeast_succ (by rw [hk]; rfl) (by rw [hk]; decide) (by simp [hk]; omega)
        (ih (depth + 1))
    case h_2 hk =>
      -- a closing parenthesis is the end at depth zero only
      cases depth with
      | zero => exact isLeast_one (by rw [hk]; rfl) (.inl (by simp [hk]))
      | succ depth =>
        rw [if_neg (Nat.succ_ne_zero depth)]
        exact isLeast_succ (by rw [hk]; rfl) (by rw [hk]; decide) (by simp [hk]; omega) (ih depth)
    case h_3 hk | h_4 hk | h_5 hk =>
      exact isLeast_succ (by rw [hk]; rfl) (by rw [hk]; decide) (by simp [hk]) (ih depth)
    case h_6 hk => exact isLeast_one (by rw [hk]; rfl) (.inr (.inl ⟨t, by simp, hk⟩))
    case h_7 =>
      have hforeign : t.kind.isForeign = true := by
        cases hk : t.kind <;> first | rfl | contradiction
      exact ⟨.inr (.inr (.inl ⟨t, rfl, hforeign⟩)), fun k _ => Nat.zero_le k⟩

-- ---------------------------------------------------------------------------
-- The law of a call
-- ---------------------------------------------------------------------------

/-- What the scan of the tokens `t :: ts` says about the call `c` in front of them, apart from its
arguments: it takes `n` tokens. -/
structure Flat (t : Token) (ts : List Token) (n : Nat) (c : Call) : Prop where
  opens      : t.kind = .lparen
  consumed   : n = 1 + (scan 0 ts).length
  ends       : IsLeast {k | Ends 0 ts k} (scan 0 ts).length
  place      : c.toPlace = t.toPlace
  text       : c.text = ((t :: ts).take n).flatMap (·.text)
  lineBreaks : c.lineBreaks = total (·.lineBreaks) ((t :: ts).take n)
  operator   : c.operator = (direct ts).findSome? Mark.operator?

mutual

/-- The law of a call that takes `n` tokens from the front of a list, and of each call inside it. -/
inductive Lawful : List Token → Nat → Call → Prop
  | intro {t : Token} {ts : List Token} {n : Nat} {c : Call} (flat : Flat t ts n c)
      (args : Entries (direct ts) c.args) : Lawful (t :: ts) n c

/-- The arguments that the tokens at the depth of a call stand for: one for each argument token and
one for each call. -/
inductive Entries : List Mark → List Arg → Prop
  | nil : Entries [] []
  | arg {m : Mark} {ms : List Mark} {as : List Arg} (h : m.token.kind = .arg)
      (tail : Entries ms as) : Entries (m :: ms) (Decode.callArg m.token.value :: as)
  | call {m : Mark} {ms : List Mark} {as : List Arg} {n : Nat} {d : Call}
      (h : m.token.kind = .lparen) (inner : Lawful (m.token :: m.behind) n d)
      (tail : Entries ms as) : Entries (m :: ms) (.call d :: as)
  | other {m : Mark} {ms : List Mark} {as : List Arg} (harg : m.token.kind ≠ .arg)
      (hcall : m.token.kind ≠ .lparen) (tail : Entries ms as) : Entries (m :: ms) as

end

-- ---------------------------------------------------------------------------
-- Levels and scans
-- ---------------------------------------------------------------------------

/-- What the scan passes behind a call around which `depth` calls are open. -/
def onward (depth : Nat) (rest : List Token) : Ending → List Mark
  | .closed => if depth = 0 then [] else scan (depth - 1) rest
  | .cut _ => []

/-- What the scan notes of the tokens `taken` while the reader reads on in the call `f`, from which
it makes the call `c`. -/
structure Noted (f : Frame) (taken : List Token) (c : Call) (depth : Nat) (marks : List Mark) :
    Prop where
  length   : marks.length = taken.length
  deep     : ∀ m ∈ marks, depth ≤ m.depth
  operator : c.operator = f.operator.or ((own depth marks).findSome? Mark.operator?)
  args     : ∃ as, c.args = f.args.reverse ++ as ∧ Entries (own depth marks) as

variable {f : Frame} {taken rest inner : List Token} {c d : Call} {e : Ending}
  {marks inside : List Mark}

theorem own_cons (t : Token) (ts : List Token) (marks : List Mark) :
    own depth (⟨depth, t, ts⟩ :: marks) = ⟨depth, t, ts⟩ :: own depth marks :=
  List.filter_cons_of_pos (decide_eq_true rfl)

/-- Deeper tokens are not among those of the depth. -/
theorem own_append_of_deep (h : ∀ m ∈ inside, depth + 1 ≤ m.depth) (marks : List Mark) :
    own depth (inside ++ marks) = own depth marks := by
  have hinside : own depth inside = [] := by
    rw [own, List.filter_eq_nil_iff]
    intro m hm
    have hdeep := h m hm
    rw [decide_eq_true_eq]
    omega
  rw [own, List.filter_append]
  exact congrArg (· ++ own depth marks) hinside

theorem findSome?_operator?_cons (m : Mark) (marks : List Mark) :
    (m :: marks).findSome? Mark.operator? = m.operator?.or (marks.findSome? Mark.operator?) := by
  rw [List.findSome?_cons]
  cases m.operator? <;> rfl

namespace Noted

/-- Where nothing is taken nothing is noted. -/
theorem nil (f : Frame) (status : CallStatus) (depth : Nat) :
    Noted f [] (f.finish status) depth [] where
  length   := rfl
  deep     := by simp
  operator := Option.or_none.symm
  args     := ⟨[], (List.append_nil _).symm, .nil⟩

/-- The last token of a call is no part of what it says. -/
theorem last (f : Frame) (status : CallStatus) (ts : List Token)
    (hk : t.kind = .error ∨ t.kind = .rparen) :
    Noted f [t] ((f.absorb t.toPiece).finish status) depth [⟨depth, t, ts⟩] where
  length   := rfl
  deep     := by simp
  operator := by
    have hne : t.kind ≠ .operator := by rcases hk with hk | hk <;> rw [hk] <;> decide
    rw [own_cons, findSome?_operator?_cons, Mark.operator?, if_neg hne, Option.none_or]
    exact Option.or_none.symm
  args     := by
    refine ⟨[], (List.append_nil _).symm, ?_⟩
    rw [own_cons]
    refine .other ?_ ?_ .nil
    all_goals rcases hk with hk | hk <;> rw [hk] <;> decide

/-- A token of the level is noted in front of what is noted behind it. -/
theorem token (hk : t.kind.isLevel = true) (ts : List Token)
    (h : Noted (f.add t) taken c depth marks) :
    Noted f (t :: taken) c depth (⟨depth, t, ts⟩ :: marks) where
  length   := by rw [List.length_cons, List.length_cons, h.length]
  deep     := List.forall_mem_cons.2 ⟨Nat.le_refl depth, h.deep⟩
  operator := by
    rw [own_cons, findSome?_operator?_cons, h.operator, f.operator_add, Option.or_assoc]
    rfl
  args     := by
    obtain ⟨as, hargs, hentries⟩ := h.args
    rw [f.args_add] at hargs
    rw [own_cons]
    by_cases harg : t.kind = .arg
    · rw [if_pos harg, List.reverse_cons, List.append_assoc] at hargs
      exact ⟨_, hargs, .arg harg hentries⟩
    · rw [if_neg harg] at hargs
      exact ⟨as, hargs, .other harg (TokenKind.ne_of_isLevel hk).1 hentries⟩

/-- A nested call is one argument; its own tokens stand deeper. -/
theorem call (hk : t.kind = .lparen) {ts : List Token} (hlawful : Lawful (t :: ts) n d)
    (hinside : Noted (Frame.enter t) inner d (depth + 1) inside)
    (h : Noted (f.receive d) taken c depth marks) :
    Noted f (t :: (inner ++ taken)) c depth (⟨depth, t, ts⟩ :: (inside ++ marks)) where
  length   := by
    rw [List.length_cons, List.length_cons, List.length_append, List.length_append, h.length,
      hinside.length]
  deep     := by
    refine List.forall_mem_cons.2 ⟨Nat.le_refl depth, List.forall_mem_append.2 ⟨?_, h.deep⟩⟩
    exact fun m hm => Nat.le_of_succ_le (hinside.deep m hm)
  operator := by
    have hne : t.kind ≠ .operator := by rw [hk]; decide
    rw [own_cons, own_append_of_deep hinside.deep, findSome?_operator?_cons, Mark.operator?,
      if_neg hne, h.operator]
    rfl
  args     := by
    obtain ⟨as, hargs, hentries⟩ := h.args
    have hreceive : (f.receive d).args.reverse = f.args.reverse ++ [.call d] := List.reverse_cons
    rw [hreceive, List.append_assoc] at hargs
    rw [own_cons, own_append_of_deep hinside.deep]
    exact ⟨_, hargs, .call hk hlawful hentries⟩

/-- The law of a call is what the scan notes directly inside it. -/
theorem lawful (h : Noted (Frame.enter t) taken c 0 marks) (hk : t.kind = .lparen)
    (hlevel : Level (Frame.enter t) taken rest c e)
    (hscan : scan 0 (taken ++ rest) = marks ++ onward 0 rest e) :
    Lawful (t :: (taken ++ rest)) (1 + taken.length) c := by
  have hmarks : scan 0 (taken ++ rest) = marks := by
    rw [hscan]
    cases e <;> exact List.append_nil marks
  have htake : (t :: (taken ++ rest)).take (1 + taken.length) = t :: taken := by
    rw [Nat.add_comm, List.take_succ_cons, List.take_left]
  obtain ⟨as, hargs, hentries⟩ := h.args
  rw [← hmarks] at hentries
  refine .intro ?_ (hargs ▸ hentries)
  exact {
    opens      := hk
    consumed   := by rw [hmarks, h.length]
    ends       := isLeast_scan 0 _
    place      := by rw [hlevel.piece]; rfl
    text       := by rw [hlevel.text, htake]; simp [Frame.pieces_enter]
    lineBreaks := by rw [hlevel.lineBreaks, htake]; simp [Frame.pieces_enter]
    operator   := by rw [h.operator, ← hmarks]; rfl }

end Noted

/-- Level by level, the reader passes the tokens that the scan passes. -/
theorem Level.exists_noted (h : Level f taken rest c e) (depth : Nat) :
    ∃ marks, scan depth (taken ++ rest) = marks ++ onward depth rest e ∧
      Noted f taken c depth marks := by
  induction h generalizing depth with
  | stop f => exact ⟨[], rfl, .nil f _ depth⟩
  | foreign f rest hk => exact ⟨[], scan_of_isForeign hk, .nil f _ depth⟩
  | @error f t rest hk =>
    refine ⟨[⟨depth, t, rest⟩], ?_, .last f _ rest (.inl hk)⟩
    rw [List.singleton_append, scan, hk]
    rfl
  | @close f t rest hk =>
    refine ⟨[⟨depth, t, rest⟩], ?_, .last f _ rest (.inr hk)⟩
    rw [List.singleton_append, scan, hk]
    rfl
  | @token f t taken rest c e hk _ ih =>
    obtain ⟨marks, hscan, h⟩ := ih depth
    refine ⟨⟨depth, t, taken ++ rest⟩ :: marks, ?_, h.token hk _⟩
    rw [List.cons_append, scan_of_isLevel hk, hscan, List.cons_append]
  | @call f t inner taken rest d c e hk hlevel _ ihinside ihtail =>
    -- the nested call is seen from the inside for its own law, and at its depth for this one
    obtain ⟨_, hscan0, hzero⟩ := ihinside 0
    obtain ⟨inside, hscani, hinside⟩ := ihinside (depth + 1)
    obtain ⟨marks, hscan, h⟩ := ihtail depth
    refine ⟨_, ?_, .call hk (hzero.lawful hk hlevel hscan0) hinside h⟩
    rw [List.cons_append, List.append_assoc, scan, hk, List.cons_append, List.append_assoc, ← hscan]
    exact congrArg (_ :: ·) hscani
  | @cut f t inner rest d e hk hlevel ih =>
    obtain ⟨_, hscan0, hzero⟩ := ih 0
    obtain ⟨inside, hscani, hinside⟩ := ih (depth + 1)
    have h : Noted (f.receive d) [] ((f.receive d).finish (.ofError e)) depth [] :=
      .nil _ _ depth
    have hcall := Noted.call hk (hzero.lawful hk hlevel hscan0) hinside h
    rw [List.append_nil, List.append_nil] at hcall
    refine ⟨_, ?_, hcall⟩
    rw [List.cons_append, scan, hk]
    exact congrArg (_ :: ·) hscani

/-- **A call is what the scan finds**, at every depth: where it ends, its piece, its operator and
its arguments. -/
theorem lawful_read (ts : List Token) (hk : t.kind = .lparen) :
    Lawful (t :: ts) (read (t :: ts)).consumed (read (t :: ts)).node := by
  obtain ⟨taken, rest, c, e, rfl, h⟩ := exists_level (Frame.enter t) ts
  obtain ⟨marks, hscan, hnoted⟩ := h.exists_noted 0
  rw [read_of_lparen hk h]
  exact hnoted.lawful hk h hscan

/-- A token that stands at the first position of a note. -/
def sampleToken (kind : TokenKind) (text : Text) : Token :=
  ⟨Piece.ofText Place.start text, kind, decode kind text⟩

/-- The call `(+(*2)-` is not closed, but it ends in front of a word. -/
theorem lawful_read_unclosed :
    (sampleToken .lparen ['(']).kind = .lparen ∧
      Lawful
        [sampleToken .lparen ['('], sampleToken .operator ['+'], sampleToken .lparen ['('],
          sampleToken .operator ['*'], sampleToken .arg ['2'], sampleToken .rparen [')'],
          sampleToken .arg ['-'], sampleToken .word ['x']]
        7
        { toPiece := Piece.ofText Place.start ['(', '+', '(', '*', '2', ')', '-']
          operator := some ['+']
          args := [
            .call {
              toPiece := Piece.ofText Place.start ['(', '*', '2', ')']
              operator := some ['*']
              args := [.value ['2']]
              status := .sound },
            .skip]
          status := .sound } :=
  ⟨rfl, lawful_read _ rfl⟩

end Jot.Call
