import Jot.Proofs.Call.Level

/-!
# Jot — errors in calls

An error token ends the call that reads it and all calls around it.  In the tree of calls these are
the root, its last argument, the last argument of that, and so on; no other call is touched.  So
the tree is the one that is read without the token (`Breaks`), and its errors lie on that path
(`BrokenBy`).

* `Level.sound` — without an error token no call of the tree has an error;
* `Level.exists_breaks` — what an error token does to the tree in front of it;
* `read_outcome` — both together, for every token list.
-/

namespace Jot.Call

-- ---------------------------------------------------------------------------
-- Trees of calls
-- ---------------------------------------------------------------------------

/-- Neither a call nor any call inside it has an error. -/
inductive Sound : Call → Prop
  | intro {c : Call} (status : c.status = .sound) (args : ∀ d, .call d ∈ c.args → Sound d) : Sound c

/-- All calls among some arguments are sound. -/
def AllSound (args : List Arg) : Prop := ∀ d, .call d ∈ args → Sound d

/-- The errors of a call lie on the path of last arguments that has this depth: the calls on it
have this cause, all others are sound. -/
inductive BrokenBy (cause : Option Violation) : Nat → Call → Prop
  | here {c : Call} (status : c.status = .broken cause) (args : AllSound c.args) :
      BrokenBy cause 0 c
  | inner {depth : Nat} {c d : Call} {before : List Arg} (status : c.status = .broken cause)
      (args : c.args = before ++ [.call d]) (earlier : AllSound before)
      (last : BrokenBy cause depth d) : BrokenBy cause (depth + 1) c

/-- The call that an error token ends. -/
def withError (c : Call) (t : Token) : Call :=
  { c with
    text := c.text ++ t.text
    lineBreaks := c.lineBreaks + t.lineBreaks
    status := .broken t.violation }

/-- Calls and arguments are defined together, so this needs a look at the call. -/
theorem with_toPlace (c : Call) : { c with toPlace := c.toPlace } = c := by
  cases c
  rfl

/-- An error token behind a call and `depth` open calls inside it ends them all.  They take its text
and its error; nothing else about them changes. -/
inductive Breaks (t : Token) : Nat → Call → Call → Prop
  | here (c : Call) : Breaks t 0 c (c.withError t)
  | inner {depth : Nat} {c d d' : Call} {before : List Arg} (args : c.args = before ++ [.call d])
      (last : Breaks t depth d d') :
      Breaks t (depth + 1) c { c.withError t with args := before ++ [.call d'] }

namespace Breaks

variable {t : Token} {depth : Nat} {c c' : Call}

/-- A call that is ended by an error token takes its text, wherever in the tree the token was read.
-/
theorem toPiece (h : Breaks t depth c c') : c'.toPiece = (c.withError t).toPiece := by
  cases h <;> rfl

/-- The errors that a token brings into a sound tree lie on the path of its last arguments. -/
theorem brokenBy (h : Breaks t depth c c') (hc : Sound c) : BrokenBy t.violation depth c' := by
  induction h with
  | here c =>
    obtain ⟨-, hargs⟩ := hc
    exact .here rfl hargs
  | @inner depth c d d' before hbefore _ ih =>
    obtain ⟨-, hargs⟩ := hc
    have hlast : Sound d := hargs d (by rw [hbefore]; exact List.mem_concat_self)
    refine .inner rfl rfl ?_ (ih hlast)
    intro x hx
    exact hargs x (by rw [hbefore]; exact List.mem_append_left _ hx)

end Breaks

-- ---------------------------------------------------------------------------
-- Levels without an error
-- ---------------------------------------------------------------------------

variable {f : Frame} {t : Token} {taken rest : List Token} {c : Call} {e : Ending}

/-- An argument in front keeps calls sound unless it is a call that is not. -/
theorem AllSound.cons {a : Arg} {args : List Arg} (ha : ∀ d, a = .call d → Sound d)
    (h : AllSound args) : AllSound (a :: args) := by
  intro d hd
  rcases List.mem_cons.1 hd with hd | hd
  · exact ha d hd.symm
  · exact h d hd

theorem AllSound.finish (h : AllSound f.args) : Sound (f.finish .sound) :=
  .intro rfl fun d hd => h d (List.mem_reverse.1 hd)

theorem callArg_ne_call (v : Value) (d : Call) : Decode.callArg v ≠ .call d := by
  unfold Decode.callArg
  split <;> intro h <;> contradiction

/-- A token brings no call into a frame. -/
theorem AllSound.add (h : AllSound f.args) (t : Token) : AllSound (f.add t).args := by
  rw [f.args_add]
  split
  · exact .cons (fun d hd => absurd hd (callArg_ne_call _ d)) h
  · exact h

theorem AllSound.receive {d : Call} (h : AllSound f.args) (hd : Sound d) :
    AllSound (f.receive d).args :=
  .cons (fun _ hx => Arg.call.inj hx ▸ hd) h

/-- Where no error ends the reading, there is none in the tree. -/
theorem Level.sound (h : Level f taken rest c e) (hf : AllSound f.args) (he : e.error = none) :
    Sound c := by
  induction h with
  | stop f => exact hf.finish
  | foreign f rest hk => exact hf.finish
  | error f rest hk => contradiction
  | close f rest hk => exact AllSound.finish hf
  | token hk _ ih => exact ih (hf.add _) he
  | call hk _ _ ihinside ihtail =>
    exact ihtail (hf.receive (ihinside (fun d hd => by contradiction) rfl)) he
  | cut hk _ ih =>
    cases he
    exact (hf.receive (ih (fun d hd => by contradiction) rfl)).finish

/-- Unless an error ends it, a level takes no error token. -/
theorem Level.ne_error (h : Level f taken rest c e) (he : e.error = none) :
    ∀ x ∈ taken, x.kind ≠ .error := by
  induction h with
  | stop f => simp
  | foreign f rest hk => simp
  | error f rest hk => contradiction
  | close f rest hk => simp [hk]
  | token hk _ ih => exact List.forall_mem_cons.2 ⟨(TokenKind.ne_of_isLevel hk).2.2, ih he⟩
  | call hk _ _ ihinside ihtail =>
    refine List.forall_mem_cons.2 ⟨by rw [hk]; decide, ?_⟩
    exact List.forall_mem_append.2 ⟨ihinside rfl, ihtail he⟩
  | cut hk _ ih => exact List.forall_mem_cons.2 ⟨by rw [hk]; decide, ih he⟩

-- ---------------------------------------------------------------------------
-- Levels that an error ends
-- ---------------------------------------------------------------------------

/-- Whether a call is closed depends on nothing behind it. -/
theorem Level.closed_before (h : Level f taken rest c .closed) (rest' : List Token) :
    Level f taken rest' c .closed := by
  generalize he : Ending.closed = e at h
  induction h generalizing rest' with
  | stop f => contradiction
  | foreign f rest hk => contradiction
  | error f rest hk => contradiction
  | close f rest hk => exact .close f rest' hk
  | token hk _ ih => exact .token hk (ih rest' he)
  | call hk _ _ ihinside ihtail => exact .call hk (ihinside _ rfl) (ihtail rest' he)
  | cut hk _ ih => contradiction

/-- A closed call closes what is opened inside it, and then itself. -/
theorem Level.countP_of_closed (h : Level f taken rest c .closed) :
    taken.countP (·.kind = .rparen) = taken.countP (·.kind = .lparen) + 1 := by
  generalize he : Ending.closed = e at h
  induction h with
  | stop f => contradiction
  | foreign f rest hk => contradiction
  | error f rest hk => contradiction
  | close f rest hk => simp [hk]
  | token hk _ ih => simp [TokenKind.ne_of_isLevel hk, ih he]
  | call hk _ _ ihinside ihtail =>
    rw [List.countP_cons, List.countP_cons, List.countP_append, List.countP_append, ihinside rfl,
      ihtail he]
    simp [hk]
    omega
  | cut hk _ ih => contradiction

/-- An error token ends the call that reads it. -/
theorem finish_absorb (f : Frame) (t : Token) :
    (f.absorb t.toPiece).finish (.broken t.violation) = (f.finish .sound).withError t := by
  simp [Frame.finish, Frame.absorb, withError, Piece.join]

/-- An error token inside a nested call ends the call around it as well. -/
theorem finish_receive {d d' : Call} (f : Frame) (h : d'.toPiece = (d.withError t).toPiece) :
    (f.receive d').finish (.ofError (some t)) =
      { ((f.receive d).finish .sound).withError t with args := f.args.reverse ++ [.call d'] } := by
  simp [Frame.finish, Frame.receive, Frame.absorb, Frame.withArg, withError, Piece.join, h,
    CallStatus.ofError, Nat.add_assoc]

/-- An error token ends what is read without it. -/
theorem Level.exists_breaks (h : Level f taken rest c (.cut (some t))) :
    ∃ init depth c₀, taken = init ++ [t] ∧ t.kind = .error ∧ Level f init [] c₀ (.cut none) ∧
      init.countP (·.kind = .lparen) = init.countP (·.kind = .rparen) + depth ∧
      Breaks t depth c₀ c := by
  generalize he : Ending.cut (some t) = e at h
  induction h with
  | stop f => cases he
  | foreign f rest hk => cases he
  | error f rest hk =>
    cases he
    exact ⟨[], 0, f.finish .sound, rfl, hk, .stop f, rfl, finish_absorb f t ▸ .here _⟩
  | close f rest hk => cases he
  | @token f x taken rest c e hk _ ih =>
    obtain ⟨init, depth, c₀, rfl, ht, hlevel, hcount, hbreaks⟩ := ih he
    refine ⟨x :: init, depth, c₀, rfl, ht, .token hk hlevel, ?_, hbreaks⟩
    simpa [TokenKind.ne_of_isLevel hk] using hcount
  | @call f x inner taken rest d c e hk hinside _ _ ih =>
    obtain ⟨init, depth, c₀, rfl, ht, hlevel, hcount, hbreaks⟩ := ih he
    -- the error comes behind the nested call, which is closed with or without it
    have hcall := Level.call hk (hinside.closed_before (init ++ [])) hlevel
    refine ⟨x :: (inner ++ init), depth, c₀, by simp, ht, hcall, ?_, hbreaks⟩
    rw [List.countP_cons, List.countP_cons, List.countP_append, List.countP_append,
      hinside.countP_of_closed, hcount]
    simp [hk]
    omega
  | @cut f x inner rest d e hk _ ih =>
    cases he
    obtain ⟨init, depth, d₀, rfl, ht, hlevel, hcount, hbreaks⟩ := ih rfl
    -- the error is inside the nested call, which is the last argument, one parenthesis deeper
    refine ⟨x :: init, depth + 1, _, rfl, ht, .cut hk hlevel, ?_, ?_⟩
    · rw [List.countP_cons, List.countP_cons, hcount]
      simp [hk]
      omega
    · rw [finish_receive f hbreaks.toPiece]
      exact .inner List.reverse_cons hbreaks

-- ---------------------------------------------------------------------------
-- Token lists
-- ---------------------------------------------------------------------------

/-- The errors in what the reader of calls makes of some tokens. -/
inductive Outcome (tokens : List Token) : Reading Call → Prop
  | sound {n : Nat} {c : Call} (taken : ∀ x ∈ tokens.take n, x.kind ≠ .error) (node : Sound c) :
      Outcome tokens ⟨n, c, none⟩
  /-- The error token `t` comes behind the tokens `init`, of which the call `c` is read; without any
  tokens it has no place of its own.  Behind the first token, `depth` calls are then open. -/
  | broken {init rest : List Token} {t : Token} {p : Place} {depth : Nat} {c c' : Call}
      (split : tokens = init ++ t :: rest) (kind : t.kind = .error)
      (before : read init = ⟨init.length, { c with toPlace := p }, none⟩)
      (opened : init.tail.countP (·.kind = .lparen) =
        init.tail.countP (·.kind = .rparen) + depth)
      (breaks : Breaks t depth c c') (node : BrokenBy t.violation depth c') :
      Outcome tokens ⟨init.length + 1, c', some t⟩

/-- A call that is cut does not begin with a closing parenthesis. -/
theorem Level.ne_rparen {x : Token} {error : Option Token}
    (h : Level f (x :: taken) rest c (.cut error)) : x.kind ≠ .rparen := by
  cases h with
  | error _ _ hk => rw [hk]; decide
  | token hk _ => exact (TokenKind.ne_of_isLevel hk).2.1
  | call hk _ _ => rw [hk]; decide
  | cut hk _ => rw [hk]; decide

/-- The tokens `opener` and those of the level `init` behind them, read without what follows: that
gives the call `c`, but for its place, and `init` holds all parentheses behind the first token. -/
structure Alone (opener init : List Token) (c : Call) : Prop where
  read   : ∃ p : Place,
    read (opener ++ init) = ⟨(opener ++ init).length, { c with toPlace := p }, none⟩
  opened : (opener ++ init).tail.countP (·.kind = .lparen) = init.countP (·.kind = .lparen)
  closed : (opener ++ init).tail.countP (·.kind = .rparen) = init.countP (·.kind = .rparen)

/-- Behind its opening parenthesis the tokens of a level are read as that level. -/
theorem alone_of_lparen {init : List Token} (hk : t.kind = .lparen)
    (h : Level (Frame.enter t) init [] c (.cut none)) : Alone [t] init c where
  read   := by
    have hread := read_of_lparen hk h
    rw [List.append_nil, Nat.add_comm, ← c.with_toPlace] at hread
    exact ⟨c.toPlace, hread⟩
  opened := rfl
  closed := rfl

/-- Without an opening parenthesis a list is read as a level from its first token on. -/
theorem alone_of_ne_lparen {init behind : List Token}
    (hhead : ∀ x ∈ (init ++ behind).head?, x.kind ≠ .lparen)
    (h : Level (Frame.start (((init ++ behind).head?.map (·.toPlace)).getD Place.start)) init [] c
      (.cut none)) : Alone [] init c := by
  cases init with
  | nil =>
    cases h
    exact ⟨⟨Place.start, rfl⟩, rfl, rfl⟩
  | cons x init =>
    have hinit : ∀ y ∈ (x :: init).head?, y.kind ≠ .lparen := hhead
    have hopen : x.kind ≠ .lparen := hhead x rfl
    have hclose : x.kind ≠ .rparen := h.ne_rparen
    have hread : Call.read (x :: init) = ⟨(x :: init).length, c, none⟩ :=
      read_of_ne_lparen hinit (List.append_nil _).symm h
    rw [← c.with_toPlace] at hread
    exact ⟨⟨c.toPlace, hread⟩, by simp [hopen], by simp [hclose]⟩

/-- What becomes of a level, from the tokens in front of it on. -/
theorem Level.outcome (opener : List Token) (h : Level f taken rest c e) (hf : AllSound f.args)
    (hopener : ∀ x ∈ opener, x.kind ≠ .error)
    (halone : ∀ init behind c₀, taken ++ rest = init ++ behind → Level f init [] c₀ (.cut none) →
      Alone opener init c₀) :
    Outcome (opener ++ (taken ++ rest)) ⟨(opener ++ taken).length, c, e.error⟩ := by
  -- without an error the level is sound; with one it breaks what is read without the token
  cases he : e.error with
  | none =>
    refine .sound ?_ (h.sound hf he)
    rw [← List.append_assoc, List.take_left]
    exact List.forall_mem_append.2 ⟨hopener, h.ne_error he⟩
  | some t =>
    cases e with
    | closed => contradiction
    | cut e =>
      cases he
      obtain ⟨init, depth, c₀, rfl, ht, hlevel, hcount, hbreaks⟩ := h.exists_breaks
      have ha := halone init ([t] ++ rest) c₀ (List.append_assoc ..) hlevel
      obtain ⟨p, hread⟩ := ha.read
      have hsplit : opener ++ (init ++ [t] ++ rest) = opener ++ init ++ t :: rest := by simp
      have hlength : (opener ++ (init ++ [t])).length = (opener ++ init).length + 1 := by
        rw [← List.append_assoc, List.length_append, List.length_singleton]
      rw [hlength]
      refine .broken hsplit ht hread ?_ hbreaks (hbreaks.brokenBy (hlevel.sound hf rfl))
      rw [ha.opened, ha.closed, hcount]

/-- **Errors lie on the path of last arguments**, down to the call that has read the error token,
and the rest of the tree is as it was without that token. -/
theorem read_outcome (tokens : List Token) : Outcome tokens (read tokens) := by
  -- a list that does not begin with a parenthesis is read as well, in a frame without one
  by_cases hhead : ∀ x ∈ tokens.head?, x.kind ≠ .lparen
  · obtain ⟨taken, rest, c, e, rfl, h⟩ :=
      exists_level (Frame.start ((tokens.head?.map (·.toPlace)).getD Place.start)) tokens
    rw [read_of_ne_lparen hhead rfl h]
    refine h.outcome [] (fun d hd => by contradiction) (by simp) ?_
    intro init behind c₀ hsplit hlevel
    rw [hsplit] at hhead hlevel
    exact alone_of_ne_lparen hhead hlevel
  · cases tokens with
    | nil => exact absurd (fun x hx => by contradiction) hhead
    | cons t ts =>
      have hk : t.kind = .lparen := by simpa using hhead
      obtain ⟨taken, rest, c, e, rfl, h⟩ := exists_level (Frame.enter t) ts
      rw [read_of_lparen hk h, Nat.add_comm]
      refine h.outcome [t] (fun d hd => by contradiction) (by simp [hk]) ?_
      intro init behind c₀ _ hlevel
      exact alone_of_lparen hk hlevel

end Jot.Call
