import Jot.Proofs.Nodes

/-!
# Jot — calls one by one

The reader of calls passes the tokens once and keeps the calls that are open on a stack.  Seen from
one of these calls, it reads the tokens at the depth of that call one after the other, and each
nested call as a whole (`Call.Level`).  So what holds of a call at every depth is an induction over
its levels.

* `Call.exists_level` — any tokens can be read in this way, from any call that is open;
* `Call.readFrom_of_level` — the reader with its stack does nothing else;
* `Call.read_of_lparen`, `Call.read_of_ne_lparen` — the same for a token list as a whole.
-/

namespace Jot

/-- Kinds of token that belong to a call and leave its depth as it is. -/
def TokenKind.isLevel : TokenKind → Bool
  | .operator | .arg | .space => true
  | _ => false

/-- Kinds of token at which a call ends without taking them. -/
def TokenKind.isForeign : TokenKind → Bool
  | .lparen | .rparen | .operator | .arg | .space | .error => false
  | _ => true

theorem TokenKind.ne_of_isLevel {kind : TokenKind} (h : kind.isLevel = true) :
    kind ≠ .lparen ∧ kind ≠ .rparen ∧ kind ≠ .error := by
  cases kind <;> first | decide | contradiction

/-- The call behind a token at its own depth. -/
def Frame.add (f : Frame) (t : Token) : Frame :=
  match t.kind with
  | .operator => (f.withOperator t.value).absorb t.toPiece
  | .arg => (f.withArg (Decode.callArg t.value)).absorb t.toPiece
  | _ => f.absorb t.toPiece

@[simp] theorem Frame.pieces_add (f : Frame) (t : Token) :
    (f.add t).pieces = t.toPiece :: f.pieces := by
  unfold add
  split <;> rfl

@[simp] theorem Frame.place_add (f : Frame) (t : Token) : (f.add t).place = f.place := by
  unfold add
  split <;> rfl

theorem Frame.operator_add (f : Frame) (t : Token) :
    (f.add t).operator = f.operator.or (if t.kind = .operator then t.value.asText else none) := by
  unfold add
  split <;> simp_all [absorb, withOperator, withArg]

theorem Frame.args_add (f : Frame) (t : Token) :
    (f.add t).args = if t.kind = .arg then Decode.callArg t.value :: f.args else f.args := by
  unfold add
  split <;> simp_all [absorb, withOperator, withArg]

theorem Frame.pieces_enter (t : Token) : (enter t).pieces = [t.toPiece] := rfl

theorem Frame.pieces_receive (f : Frame) (c : Call) :
    (f.receive c).pieces = c.toPiece :: f.pieces := rfl

theorem Frame.place_receive (f : Frame) (c : Call) : (f.receive c).place = f.place := rfl

/-- The status of the calls that an error token ends, or the lack of further tokens. -/
def CallStatus.ofError : Option Token → CallStatus
  | none => .sound
  | some t => .broken t.violation

namespace Call

/-- How a call ends: at its closing parenthesis, or before it.  In the second case the calls around
it end as well, perhaps by an error token. -/
inductive Ending where
  | closed
  | cut (error : Option Token)

/-- The error token that has ended a call. -/
def Ending.error : Ending → Option Token
  | closed => none
  | cut e => e

/-- Reading on in the open call `f`, the reader takes the tokens `taken`, in front of `rest`; the
call is then `c`, and this is how it ends. -/
inductive Level : Frame → List Token → List Token → Call → Ending → Prop
  | stop (f : Frame) : Level f [] [] (f.finish .sound) (.cut none)
  | foreign (f : Frame) {t : Token} (rest : List Token) (h : t.kind.isForeign = true) :
      Level f [] (t :: rest) (f.finish .sound) (.cut none)
  | error (f : Frame) {t : Token} (rest : List Token) (h : t.kind = .error) :
      Level f [t] rest ((f.absorb t.toPiece).finish (.broken t.violation)) (.cut (some t))
  | close (f : Frame) {t : Token} (rest : List Token) (h : t.kind = .rparen) :
      Level f [t] rest ((f.absorb t.toPiece).finish .sound) .closed
  | token {f : Frame} {t : Token} {taken rest : List Token} {c : Call} {e : Ending}
      (h : t.kind.isLevel = true) (tail : Level (f.add t) taken rest c e) :
      Level f (t :: taken) rest c e
  /-- A nested call that is closed becomes an argument. -/
  | call {f : Frame} {t : Token} {inner taken rest : List Token} {d c : Call} {e : Ending}
      (h : t.kind = .lparen) (inside : Level (Frame.enter t) inner (taken ++ rest) d .closed)
      (tail : Level (f.receive d) taken rest c e) :
      Level f (t :: (inner ++ taken)) rest c e
  /-- A nested call that is cut takes the call around it with it. -/
  | cut {f : Frame} {t : Token} {inner rest : List Token} {d : Call} {e : Option Token}
      (h : t.kind = .lparen) (inside : Level (Frame.enter t) inner rest d (.cut e)) :
      Level f (t :: inner) rest ((f.receive d).finish (.ofError e)) (.cut e)

-- ---------------------------------------------------------------------------
-- Every token list can be read
-- ---------------------------------------------------------------------------

/-- Every token is one of those that a level is made of. -/
theorem kind_cases (kind : TokenKind) :
    kind.isForeign = true ∨ kind = .error ∨ kind = .rparen ∨ kind.isLevel = true ∨
      kind = .lparen := by
  cases kind <;> decide

/-- Whatever the tokens are, reading from an open call comes to an end. -/
theorem exists_level (f : Frame) (ts : List Token) :
    ∃ taken rest c e, ts = taken ++ rest ∧ Level f taken rest c e := by
  -- a nested call leaves fewer tokens behind it
  induction hlen : ts.length using Nat.strongRecOn generalizing f ts with
  | _ n ih =>
    subst hlen
    cases ts with
    | nil => exact ⟨[], [], _, _, rfl, .stop f⟩
    | cons t ts =>
      have hshort : ts.length < (t :: ts).length := Nat.lt_succ_self _
      rcases kind_cases t.kind with hk | hk | hk | hk | hk
      · exact ⟨[], t :: ts, _, _, rfl, .foreign f ts hk⟩
      · exact ⟨[t], ts, _, _, rfl, .error f ts hk⟩
      · exact ⟨[t], ts, _, _, rfl, .close f ts hk⟩
      · obtain ⟨taken, rest, c, e, hts, h⟩ := ih _ hshort (f.add t) ts rfl
        exact ⟨t :: taken, rest, c, e, congrArg (t :: ·) hts, .token hk h⟩
      · obtain ⟨inner, behind, d, e, rfl, hinside⟩ := ih _ hshort (Frame.enter t) ts rfl
        -- a call that was cut leaves nothing to read in the one around it
        cases e with
        | cut e => exact ⟨t :: inner, behind, _, _, rfl, .cut hk hinside⟩
        | closed =>
          have hbehind : behind.length < (t :: (inner ++ behind)).length := by
            rw [List.length_cons, List.length_append]
            omega
          obtain ⟨taken, rest, c, e, rfl, h⟩ := ih _ hbehind (f.receive d) behind rfl
          exact ⟨t :: (inner ++ taken), rest, c, e, by simp, .call hk hinside h⟩

-- ---------------------------------------------------------------------------
-- The reader
-- ---------------------------------------------------------------------------

/-- The outermost call, when the innermost one has ended as `c` and so do those around it. -/
def endAll (status : CallStatus) (c : Call) : List Frame → Call
  | [] => c
  | g :: outer => endAll status ((g.receive c).finish status) outer

/-- To end all open calls is to end the innermost one and go on with those around it. -/
theorem finishAll_eq_endAll (status : CallStatus) (f : Frame) (outer : List Frame) :
    Frame.finishAll status f outer = endAll status (f.finish status) outer := by
  induction outer generalizing f with
  | nil => rfl
  | cons g outer ih => exact ih _

/-- What the reader does behind a call: it reads on in the call around it, or comes to an end. -/
def resume (consumed : Nat) (c : Call) (rest : List Token) : Ending → List Frame → Reading Call
  | .closed, [] => ⟨consumed, c, none⟩
  | .closed, g :: outer => readFrom consumed (g.receive c) outer rest
  | .cut e, outer => ⟨consumed, endAll (.ofError e) c outer, e⟩

variable {f : Frame} {outer : List Frame} {t : Token} {ts taken rest : List Token} {c : Call}
  {e : Ending} {i : Nat}

theorem readFrom_of_isForeign (h : t.kind.isForeign = true) :
    readFrom i f outer (t :: ts) = ⟨i, Frame.finishAll .sound f outer, none⟩ := by
  rw [readFrom]
  cases hk : t.kind <;> first | rfl | (rw [hk] at h; contradiction)

theorem readFrom_of_isLevel (h : t.kind.isLevel = true) :
    readFrom i f outer (t :: ts) = readFrom (i + 1) (f.add t) outer ts := by
  rw [readFrom, Frame.add]
  cases hk : t.kind <;> first | rfl | (rw [hk] at h; contradiction)

/-- The reader with its stack reads level by level. -/
theorem readFrom_of_level (h : Level f taken rest c e) (i : Nat) (outer : List Frame) :
    readFrom i f outer (taken ++ rest) = resume (i + taken.length) c rest e outer := by
  -- by induction on the level; the frames of the calls around it are arbitrary, so that a nested
  -- call can be read above its own
  induction h generalizing i outer with
  | stop f =>
    exact congrArg (Reading.mk i · none) (finishAll_eq_endAll .sound f outer)
  | foreign f rest hk =>
    rw [List.nil_append, readFrom_of_isForeign hk, finishAll_eq_endAll]
    rfl
  | error f rest hk =>
    rw [List.singleton_append, readFrom, hk]
    simp only [finishAll_eq_endAll]
    rfl
  | close f rest hk =>
    rw [List.singleton_append, readFrom, hk]
    cases outer <;> rfl
  | @token f t taken rest c e hk _ ih =>
    rw [List.cons_append, readFrom_of_isLevel hk, ih, List.length_cons, Nat.add_right_comm,
      Nat.add_assoc]
  | @call f t inner taken rest d c e hk _ _ ihinside ihtail =>
    have hread : readFrom i f outer (t :: (inner ++ (taken ++ rest))) =
        readFrom (i + 1) (Frame.enter t) (f :: outer) (inner ++ (taken ++ rest)) := by
      rw [readFrom, hk]
    rw [List.cons_append, List.append_assoc, hread, ihinside]
    -- the nested call is closed, so the reader is back in the call around it
    show readFrom (i + 1 + inner.length) (f.receive d) outer (taken ++ rest) = _
    rw [ihtail, List.length_cons, List.length_append]
    congr 1
    omega
  | @cut f t inner rest d e hk _ ih =>
    have hread : readFrom i f outer (t :: (inner ++ rest)) =
        readFrom (i + 1) (Frame.enter t) (f :: outer) (inner ++ rest) := by
      rw [readFrom, hk]
    rw [List.cons_append, hread, ih, List.length_cons]
    show Reading.mk (i + 1 + inner.length) _ e = Reading.mk (i + (inner.length + 1)) _ e
    rw [Nat.add_assoc, Nat.add_comm 1]
    rfl

-- ---------------------------------------------------------------------------
-- Token lists
-- ---------------------------------------------------------------------------

/-- Where no call is open around it, a level is all that is read. -/
theorem readFrom_of_level_nil (h : Level f taken rest c e) (i : Nat) :
    readFrom i f [] (taken ++ rest) = ⟨i + taken.length, c, e.error⟩ := by
  rw [readFrom_of_level h]
  cases e <;> rfl

/-- Behind a parenthesis the reader of calls reads the level that it opens. -/
theorem read_of_lparen (hk : t.kind = .lparen) (h : Level (Frame.enter t) taken rest c e) :
    read (t :: (taken ++ rest)) = ⟨1 + taken.length, c, e.error⟩ := by
  rw [read, if_pos hk, readFrom_of_level_nil h]

/-- In front of anything else it reads on as if a parenthesis stood there. -/
theorem read_of_ne_lparen {tokens : List Token} (hk : ∀ x ∈ tokens.head?, x.kind ≠ .lparen)
    (htokens : tokens = taken ++ rest)
    (h : Level (Frame.start ((tokens.head?.map (·.toPlace)).getD Place.start)) taken rest c e) :
    read tokens = ⟨taken.length, c, e.error⟩ := by
  have hread : read tokens =
      readFrom 0 (Frame.start ((tokens.head?.map (·.toPlace)).getD Place.start)) [] tokens := by
    cases tokens with
    | nil => rfl
    | cons t ts => exact if_neg (hk t rfl)
  rw [hread]
  -- the frame depends on the tokens as well, so only the last argument is split
  have hend := readFrom_of_level_nil h 0
  rw [← htokens, Nat.zero_add] at hend
  exact hend

-- ---------------------------------------------------------------------------
-- The piece of a call
-- ---------------------------------------------------------------------------

/-- The piece of a call is made of the tokens that are read, those of nested calls included. -/
theorem Level.piece (h : Level f taken rest c e) :
    c.toPiece =
      { Piece.join (f.pieces.reverse ++ taken.map (·.toPiece)) with toPlace := f.place } := by
  induction h with
  | stop f => simp [Frame.finish]
  | foreign f rest hk => simp [Frame.finish]
  | error f rest hk => simp [Frame.finish, Frame.absorb]
  | close f rest hk => simp [Frame.finish, Frame.absorb]
  | @token f t taken rest c e hk _ ih =>
    rw [ih, Frame.pieces_add, Frame.place_add]
    simp
  | @call f t inner taken rest d c e hk _ _ ihinside ihtail =>
    rw [ihtail, Frame.pieces_receive, Frame.place_receive]
    -- the nested call is one piece, joined from its tokens
    simp [Piece.join, ihinside, Frame.pieces_enter, Nat.add_assoc]
  | @cut f t inner rest d e hk _ ih =>
    show { Piece.join (f.receive d).pieces.reverse with toPlace := f.place } = _
    rw [Frame.pieces_receive]
    simp [Piece.join, ih, Frame.pieces_enter]

/-- The text of a call is what had been read of it, and then the tokens of its level. -/
theorem Level.text (h : Level f taken rest c e) :
    c.text = f.pieces.reverse.flatMap (·.text) ++ taken.flatMap (·.text) := by
  rw [h.piece]
  simp [Piece.join, List.flatMap_map]

theorem Level.lineBreaks (h : Level f taken rest c e) :
    c.lineBreaks = total (·.lineBreaks) f.pieces.reverse + total (·.lineBreaks) taken := by
  rw [h.piece]
  simp [Piece.join, total_map]

end Call

end Jot
