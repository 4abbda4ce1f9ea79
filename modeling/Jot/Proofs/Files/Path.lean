import Jot.Files
import Mathlib.Data.List.Basic

/-!
# Jot — paths in a file system

A file system is a tree in which every name and every location can be asked about.  Which entry a
path names can then be said without following it: the components alone give the location, and the
path is good if there is an entry at that location and all that it passes on the way are
directories.

* `Entry.at?`, `Entry.lawful`, `FileSystem` — trees, and `FileSystem.shelf`, which is one;
* `Location.walk`, `FileSystem.Names` — what a path names;
* `Entry.follow_eq_ok_iff` — following a path leads to what it names;
* `FileSystem.resolve_eq_ok_iff` — the same for the world of a command.
-/

namespace Jot

-- ---------------------------------------------------------------------------
-- Trees
-- ---------------------------------------------------------------------------

/-- What can be the name of an entry. -/
def isEntryName (name : Text) : Bool :=
  name != [] && name != ['.'] && name != ['.', '.'] && !name.contains '/' &&
    !name.contains '\x00' && decide (Text.byteSize name ≤ nameLimit)

/-- The operating system can be asked about a location. -/
def Location.fits (l : Location) : Bool := decide (Text.byteSize (l.display []) ≤ pathLimit)

/-- What stands at a location below an entry. -/
def Entry.at? : Entry → Location → Option Entry
  | e, [] => some e
  | .file _, _ :: _ => none
  | .directory entries, name :: l =>
    (entries.find? fun e => e.1 == name).bind fun e => e.2.at? l

mutual

/-- An entry that can stand at a location: names are names, and differ in each directory. -/
def Entry.lawful (l : Location) : Entry → Bool
  | .file _ => l.fits
  | .directory entries =>
    l.fits && decide (entries.map Prod.fst).Nodup && Entry.lawfulAll l entries

/-- The entries of a directory at a location. -/
def Entry.lawfulAll (l : Location) : List (Text × Entry) → Bool
  | [] => true
  | (name, e) :: rest => isEntryName name && e.lawful (l ++ [name]) && Entry.lawfulAll l rest

end

/-- All files there are, and the directory in which a command runs. -/
structure FileSystem where
  root   : Entry
  place  : Location
  lawful : root.lawful [] = true
  home   : ∃ entries, root.at? place = some (.directory entries)

namespace Shelf

/-- Old notes, and among them a file that is none. -/
def old : Entry := .directory [
  ("a.sowhat".toList, .file "#a".toUTF8),
  ("todo.txt".toList, .file "#t".toUTF8)]

/-- The notes, with the old ones in a directory of their own. -/
def notes : Entry := .directory [("old".toList, old), ("b.sw".toList, .file "#b".toUTF8)]

end Shelf

/-- A file system with directories in directories.  The command runs in the one that holds the
notes and a file beside them. -/
def FileSystem.shelf : FileSystem where
  root   := .directory [("home".toList, .directory [
    ("notes".toList, Shelf.notes),
    ("c.txt".toList, .file "#c".toUTF8)])]
  place  := ["home".toList]
  lawful := by decide
  home   := ⟨_, rfl⟩

namespace Entry

variable {e d : Entry} {entries : List (Text × Entry)} {l m : Location} {name : Text}

/-- What stands at a location below another one is found in two steps. -/
theorem at?_append (e : Entry) (l m : Location) : e.at? (l ++ m) = (e.at? l).bind (at? · m) := by
  induction l generalizing e with
  | nil => rfl
  | cons name l ih =>
    cases e with
    | file content => rfl
    | directory entries =>
      show ((entries.find? fun e => e.1 == name).bind fun e => e.2.at? (l ++ m)) = _
      simp only [ih, at?, Option.bind_assoc]

/-- The entries of a directory are lawful when each has a name and is lawful there. -/
theorem lawfulAll_eq_true_iff :
    lawfulAll l entries = true ↔
      ∀ e ∈ entries, isEntryName e.1 = true ∧ e.2.lawful (l ++ [e.1]) = true := by
  induction entries with
  | nil => simp [lawfulAll]
  | cons e entries ih =>
    obtain ⟨name, e⟩ := e
    simp only [lawfulAll, Bool.and_eq_true, ih, List.forall_mem_cons]

/-- Every lawful entry stands where the operating system can be asked about it. -/
theorem fits_of_lawful (h : e.lawful l = true) : l.fits = true := by
  cases e with
  | file content => exact h
  | directory entries =>
    rw [lawful, Bool.and_eq_true, Bool.and_eq_true] at h
    exact h.1.1

theorem nodup_of_lawful (h : (directory entries).lawful l = true) :
    (entries.map Prod.fst).Nodup := by
  rw [lawful, Bool.and_eq_true, Bool.and_eq_true] at h
  exact of_decide_eq_true h.1.2

theorem lawful_of_mem (h : (directory entries).lawful l = true) :
    ∀ e ∈ entries, isEntryName e.1 = true ∧ e.2.lawful (l ++ [e.1]) = true := by
  rw [lawful, Bool.and_eq_true] at h
  exact lawfulAll_eq_true_iff.1 h.2

/-- What stands below a lawful entry is lawful, and the way there has names only. -/
theorem lawful_of_at? (h : e.lawful l = true) (hd : e.at? m = some d) :
    d.lawful (l ++ m) = true ∧ ∀ name ∈ m, isEntryName name = true := by
  -- on the way down, which is a name longer at each directory
  induction m generalizing e l with
  | nil =>
    rw [at?, Option.some_inj] at hd
    rw [List.append_nil, ← hd]
    exact ⟨h, nofun⟩
  | cons name m ih =>
    cases e with
    | file content => contradiction
    | directory entries =>
      obtain ⟨found, hfind, hbelow⟩ := Option.bind_eq_some_iff.1 hd
      obtain rfl : found.1 = name := by simpa using List.find?_some hfind
      obtain ⟨hname, hfound⟩ := lawful_of_mem h found (List.mem_of_find?_eq_some hfind)
      obtain ⟨hlawful, hnames⟩ := ih hfound hbelow
      rw [List.append_assoc] at hlawful
      exact ⟨hlawful, List.forall_mem_cons.2 ⟨hname, hnames⟩⟩

/-- The entry of a name is the one that stands there. -/
theorem child_eq_ok_iff (h : e.lawful l = true) :
    e.child name = .ok d ↔ e.at? [name] = some d := by
  cases e with
  | file content =>
    exact ⟨nofun, nofun⟩
  | directory entries =>
    by_cases hlong : nameLimit < Text.byteSize name
    · rw [child, if_pos hlong]
      -- a name that is too long is no name of an entry
      refine ⟨nofun, fun hd => ?_⟩
      have hname := (lawful_of_at? h hd).2 name List.mem_cons_self
      simp only [isEntryName, Bool.and_eq_true, decide_eq_true_eq] at hname
      omega
    · show _ ↔ ((entries.find? fun e => e.1 == name).bind fun e => some e.2) = some d
      rw [child, if_neg hlong]
      cases hfind : entries.find? fun e => e.1 == name with
      | none => exact ⟨nofun, nofun⟩
      | some found => simp

end Entry

-- ---------------------------------------------------------------------------
-- Paths
-- ---------------------------------------------------------------------------

/-- One component of a path. -/
def Location.step (l : Location) (name : Text) : Location :=
  if name = [] ∨ name = ['.'] then l else if name = ['.', '.'] then l.dropLast else l ++ [name]

/-- Where components lead from a location. -/
def Location.walk (l : Location) (path : List Text) : Location := path.foldl step l

/-- Components lead from a location to an entry, and through directories only. -/
structure Entry.Leads (root : Entry) (start : Location) (path : List Text) (l : Location)
    (e : Entry) : Prop where
  location : l = start.walk path
  entry    : root.at? l = some e
  way      : ∀ front name behind, path = front ++ name :: behind →
    ∃ entries, root.at? (start.walk front) = some (.directory entries)

/-- Where a path starts. -/
def FileSystem.origin (fs : FileSystem) (path : Text) : Location :=
  if path.head? = some '/' then [] else fs.place

/-- A path names an entry. -/
structure FileSystem.Names (fs : FileSystem) (path : Text) (l : Location) (e : Entry) : Prop where
  nonempty : path ≠ []
  leads    : fs.root.Leads (fs.origin path) (path.splitOn '/') l e

namespace Entry

variable {root e here next : Entry} {entries : List (Text × Entry)} {l start m : Location}
  {name : Text} {path : List Text} {trail : List (Text × Entry)}

/-- Without components a path leads to the entry where it starts. -/
theorem leads_nil : root.Leads start [] l e ↔ l = start ∧ root.at? l = some e := by
  constructor
  · intro h
    exact ⟨h.location, h.entry⟩
  · rintro ⟨rfl, h⟩
    exact ⟨rfl, h, by simp⟩

/-- The first component leads on from a directory, and the others from where it leads. -/
theorem leads_cons :
    root.Leads start (name :: path) l e ↔
      (∃ entries, root.at? start = some (.directory entries)) ∧
        root.Leads (start.step name) path l e := by
  constructor
  · intro h
    refine ⟨h.way [] name path rfl, h.location, h.entry, ?_⟩
    rintro front x behind rfl
    exact h.way (name :: front) x behind rfl
  · rintro ⟨hstart, h⟩
    refine ⟨h.location, h.entry, ?_⟩
    intro front x behind hsplit
    cases front with
    | nil => exact hstart
    | cons y front =>
      obtain ⟨rfl, hpath⟩ := List.cons.inj hsplit
      exact h.way front x behind hpath

/-- A path that leads somewhere begins at an entry. -/
theorem Leads.exists_start (h : root.Leads start path l e) : ∃ d, root.at? start = some d := by
  cases path with
  | nil =>
    obtain ⟨rfl, hentry⟩ := leads_nil.1 h
    exact ⟨e, hentry⟩
  | cons name path =>
    obtain ⟨⟨entries, hstart⟩, -⟩ := leads_cons.1 h
    exact ⟨_, hstart⟩

/-- A component that is a name leads below where it starts. -/
theorem step_of_isEntryName (h : isEntryName name = true) (l : Location) :
    l.step name = l ++ [name] := by
  simp only [isEntryName, Bool.and_eq_true, bne_iff_ne] at h
  have hspecial : ¬(name = [] ∨ name = ['.']) := by
    rintro (hname | hname)
    · exact h.1.1.1.1.1 hname
    · exact h.1.1.1.1.2 hname
  rw [Location.step, if_neg hspecial, if_neg h.1.1.1.2]

/-- Names on the way to a directory can be followed first. -/
theorem leads_append_iff (hroot : root.lawful [] = true)
    (hm : root.at? (start ++ m) = some (.directory entries)) :
    root.Leads start (m ++ path) l e ↔ root.Leads (start ++ m) path l e := by
  induction m generalizing start with
  | nil => rw [List.nil_append, List.append_nil]
  | cons name m ih =>
    have hname : isEntryName name = true := (lawful_of_at? hroot hm).2 name (by simp)
    have hstart : ∃ entries, root.at? start = some (.directory entries) := by
      rw [at?_append] at hm
      obtain ⟨d, hd, hm⟩ := Option.bind_eq_some_iff.1 hm
      cases d with
      | file content => contradiction
      | directory entries => exact ⟨entries, hd⟩
    rw [← List.singleton_append, ← List.append_assoc] at hm
    rw [List.cons_append, leads_cons, step_of_isEntryName hname, ih hm, List.append_assoc,
      List.singleton_append]
    exact and_iff_right hstart

/-- The names that led to an entry, with the directories they were found in. -/
inductive Trail (root : Entry) : List (Text × Entry) → Entry → Prop
  | top : Trail root [] root
  | step {trail : List (Text × Entry)} {here next : Entry} {name : Text}
      (h : Trail root trail here) (hnext : here.at? [name] = some next) :
      Trail root ((name, here) :: trail) next

/-- The location that the names of a trail spell. -/
def locationOf (trail : List (Text × Entry)) : Location := (trail.map Prod.fst).reverse

/-- A trail leads to the entry at the location it spells. -/
theorem Trail.at? (h : Trail root trail here) : root.at? (locationOf trail) = some here := by
  induction h with
  | top => rfl
  | @step trail here next name _ hnext ih =>
    show root.at? ((name :: trail.map Prod.fst).reverse) = _
    rw [List.reverse_cons, at?_append]
    exact (congrArg (Option.bind · _) ih).trans hnext

theorem locationOf_cons (name : Text) (here : Entry) (trail : List (Text × Entry)) :
    locationOf ((name, here) :: trail) = locationOf trail ++ [name] :=
  List.reverse_cons

/-- A file is in the way of every component. -/
theorem not_leads_of_file {content : ByteArray} (h : root.at? start = some (.file content)) :
    ¬root.Leads start (name :: path) l e := by
  intro hleads
  obtain ⟨⟨entries, hstart⟩, -⟩ := leads_cons.1 hleads
  exact absurd (Option.some.inj (h.symm.trans hstart)) nofun

/-- A component that is a name leads to the entry of that name. -/
theorem follow_name (hroot : root.lawful [] = true) (h : Trail root trail here)
    (hdot : ¬(name = [] ∨ name = ['.'])) (hup : name ≠ ['.', '.'])
    (hnext : here.at? [name] = some next) :
    follow Location.fits root trail here (name :: path) =
      follow Location.fits root ((name, here) :: trail) next path := by
  have hhere : here.lawful (locationOf trail) = true := (lawful_of_at? hroot h.at?).1
  have hfits : Location.fits ((trail.map Prod.fst).reverse ++ [name]) = true :=
    fits_of_lawful (lawful_of_at? hhere hnext).1
  have hchild : here.child name = .ok next := (child_eq_ok_iff hhere).2 hnext
  rw [follow.eq_def]
  simp only [if_neg hdot, if_neg hup]
  rw [if_pos hfits, hchild]

/-- A component that is a name leads nowhere if there is no entry of that name. -/
theorem follow_missing (hroot : root.lawful [] = true) (h : Trail root trail here)
    (hdot : ¬(name = [] ∨ name = ['.'])) (hup : name ≠ ['.', '.'])
    (hmissing : here.at? [name] = none) :
    follow Location.fits root trail here (name :: path) ≠ .ok (l, e) := by
  have hhere : here.lawful (locationOf trail) = true := (lawful_of_at? hroot h.at?).1
  rw [follow.eq_def]
  simp only [if_neg hdot, if_neg hup]
  split
  · cases hchild : here.child name with
    | error why => nofun
    | ok next =>
      rw [(child_eq_ok_iff hhere).1 hchild] at hmissing
      contradiction
  · nofun

/-- **Following a path leads to what it names.** -/
theorem follow_eq_ok_iff (hroot : root.lawful [] = true) (h : Trail root trail here) :
    follow Location.fits root trail here path = .ok (l, e) ↔
      root.Leads (locationOf trail) path l e := by
  induction path generalizing trail here with
  | nil =>
    rw [leads_nil, follow.eq_def, Except.ok.injEq, Prod.mk.injEq]
    constructor
    · rintro ⟨rfl, rfl⟩
      exact ⟨rfl, h.at?⟩
    · rintro ⟨rfl, hentry⟩
      exact ⟨rfl, Option.some.inj (h.at?.symm.trans hentry)⟩
  | cons name path ih =>
    -- a component that stays, one that goes up, and one that goes down
    by_cases hdot : name = [] ∨ name = ['.']
    · cases here with
      | file content =>
        refine iff_of_false ?_ (not_leads_of_file h.at?)
        rw [follow.eq_def]
        simp only [if_pos hdot]
        nofun
      | directory entries =>
        rw [leads_cons, Location.step, if_pos hdot, ← ih h, follow.eq_def]
        simp only [if_pos hdot]
        exact (and_iff_right ⟨entries, h.at?⟩).symm
    by_cases hup : name = ['.', '.']
    · cases here with
      | file content =>
        refine iff_of_false ?_ (not_leads_of_file h.at?)
        rw [follow.eq_def]
        simp only [if_neg hdot, if_pos hup]
        nofun
      | directory entries =>
        rw [leads_cons, Location.step, if_neg hdot, if_pos hup, follow.eq_def]
        simp only [if_neg hdot, if_pos hup]
        rw [and_iff_right ⟨entries, h.at?⟩]
        cases h with
        | top => exact ih .top
        | step hparent _ =>
          simp only [locationOf_cons, List.dropLast_concat]
          exact ih hparent
    · cases hnext : here.at? [name] with
      | some next =>
        rw [follow_name hroot h hdot hup hnext, ih (h.step hnext), leads_cons, Location.step,
          if_neg hdot, if_neg hup, locationOf_cons]
        cases here with
        | file content => contradiction
        | directory entries => exact (and_iff_right ⟨entries, h.at?⟩).symm
      | none =>
        refine iff_of_false (follow_missing hroot h hdot hup hnext) ?_
        rw [leads_cons, Location.step, if_neg hdot, if_neg hup]
        rintro ⟨-, hleads⟩
        obtain ⟨d, hd⟩ := hleads.exists_start
        rw [at?_append, h.at?] at hd
        exact absurd (hnext.symm.trans hd) (Option.some_ne_none d).symm

end Entry

namespace FileSystem

variable {fs : FileSystem} {stdin : ByteArray} {path : Text} {l : Location} {e : Entry}

/-- The world of a command that runs in the file system. -/
def world (fs : FileSystem) (stdin : ByteArray) : World := World.ofRoot stdin fs.root fs.place

/-- **A path is resolved to what it names**, and to nothing else. -/
theorem resolve_eq_ok_iff : (fs.world stdin).resolve path = .ok (l, e) ↔ fs.Names path l e := by
  show Entry.locate Location.fits fs.root fs.root fs.place path = .ok (l, e) ↔ _
  by_cases hempty : path = []
  · rw [Entry.locate, if_pos hempty]
    exact ⟨nofun, fun h => absurd hempty h.nonempty⟩
  · have hnames : fs.Names path l e ↔
        fs.root.Leads (fs.origin path) (path.splitOn '/') l e :=
      ⟨Names.leads, fun h => ⟨hempty, h⟩⟩
    rw [Entry.locate, if_neg hempty, hnames, origin]
    split
    · exact Entry.follow_eq_ok_iff fs.lawful .top
    · -- a relative path is followed from the root as well, behind the names of the directory of the
      -- command
      obtain ⟨entries, hhome⟩ := fs.home
      have hplace : fs.root.Leads [] (fs.place ++ path.splitOn '/') l e ↔
          fs.root.Leads ([] ++ fs.place) (path.splitOn '/') l e :=
        Entry.leads_append_iff fs.lawful hhome
      exact (Entry.follow_eq_ok_iff fs.lawful .top).trans hplace

/-- What a path names is there. -/
theorem Names.at? (h : fs.Names path l e) : fs.root.at? l = some e := h.leads.entry

/-- A path names one entry at most. -/
theorem Names.unique {l' : Location} {e' : Entry} (h : fs.Names path l e)
    (h' : fs.Names path l' e') : l = l' ∧ e = e' := by
  obtain rfl : l = l' := h.leads.location.trans h'.leads.location.symm
  exact ⟨rfl, Option.some.inj (h.at?.symm.trans h'.at?)⟩

end FileSystem

end Jot
