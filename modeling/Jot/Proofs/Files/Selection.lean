import Jot.Command.Sources
import Jot.Proofs.Files.Path
import Mathlib.Data.List.Nodup
import Mathlib.Data.List.TakeWhile

/-!
# Jot — the files that a path selects

A path that names a file selects this file.  One that names a directory selects the notes below it,
which a walk through the directory meets one by one and which are then put in the order of their
locations.

* `IsNote`, `FileSystem.Selects` — what is selected, said without a walk;
* `isNoteName_iff` — notes by their extension;
* `Entry.mem_visit_iff`, `Entry.nodup_visit` — a walk meets each note once;
* `Location.compare_eq_lt_iff` — the order of locations;
* `FileSystem.mem_pick_iff`, `FileSystem.pairwise_pick` — what is selected, and in which order.
-/

namespace Jot

-- ---------------------------------------------------------------------------
-- Names of notes
-- ---------------------------------------------------------------------------

/-- The name of a note: behind the last full stop, which is not the first character, there is one of
two extensions. -/
def IsNote (name : Text) : Prop :=
  ∃ stem extension, name = stem ++ '.' :: extension ∧ stem ≠ [] ∧
    (extension = "sw".toList ∨ extension = "sowhat".toList)

/-- A text without full stops has none from behind either. -/
theorem ne_stop_of_mem_reverse {t : Text} (h : '.' ∉ t) : ∀ c ∈ t.reverse, (c != '.') = true := by
  intro c hc
  rw [bne_iff_ne]
  rintro rfl
  exact h (List.mem_reverse.1 hc)

/-- Behind the last full stop of a name is its extension. -/
theorem extension?_append {stem extension : Text} (h : '.' ∉ extension) :
    extension? (stem ++ '.' :: extension) = if stem = [] then none else some extension := by
  have htail : ((stem ++ '.' :: extension).reverse.takeWhile (· != '.')).reverse = extension := by
    rw [List.reverse_append, List.reverse_cons, List.append_assoc,
      List.takeWhile_append_of_pos (ne_stop_of_mem_reverse h)]
    simp
  unfold extension?
  simp only [htail, List.length_append, List.length_cons]
  cases stem with
  | nil => simp
  | cons c stem => simp

/-- The extension of a name stands behind its last full stop, with something before that. -/
theorem extension?_eq_some_iff {name extension : Text} :
    extension? name = some extension ↔
      ∃ stem, name = stem ++ '.' :: extension ∧ stem ≠ [] ∧ '.' ∉ extension := by
  constructor
  · intro h
    by_cases hdot : '.' ∈ name
    · -- the last full stop is the first one from behind
      obtain ⟨tail, stem, hsplit, htail⟩ := List.eq_append_cons_of_mem (List.mem_reverse.2 hdot)
      have hname : name = stem.reverse ++ '.' :: tail.reverse := by
        rw [← List.reverse_reverse name, hsplit]
        simp
      rw [hname, extension?_append (mt List.mem_reverse.1 htail)] at h
      split at h
      · contradiction
      next hstem =>
        obtain rfl := Option.some.inj h
        exact ⟨stem.reverse, hname, hstem, mt List.mem_reverse.1 htail⟩
    · have hall : name.reverse.takeWhile (· != '.') = name.reverse :=
        List.takeWhile_eq_self_iff.2 (ne_stop_of_mem_reverse hdot)
      have hshort : ¬name.length + 1 < name.length := by omega
      simp [extension?, hall, hshort] at h
  · rintro ⟨stem, rfl, hstem, hdot⟩
    rw [extension?_append hdot, if_neg hstem]

/-- The names that are taken for notes are those of notes. -/
theorem isNoteName_iff (name : Text) : isNoteName name = true ↔ IsNote name := by
  have hdotless : ∀ extension ∈ noteExtensions, '.' ∉ extension := by decide
  unfold isNoteName
  constructor
  · intro h
    split at h
    next extension hname =>
      obtain ⟨stem, hsplit, hstem, -⟩ := extension?_eq_some_iff.1 hname
      exact ⟨stem, extension, hsplit, hstem, by simpa [noteExtensions] using h⟩
    next => contradiction
  · rintro ⟨stem, extension, hname, hstem, hextension⟩
    have hmem : extension ∈ noteExtensions := by simpa [noteExtensions] using hextension
    rw [extension?_eq_some_iff.2 ⟨stem, hname, hstem, hdotless extension hmem⟩]
    exact List.contains_iff_mem.2 hmem

-- ---------------------------------------------------------------------------
-- Walks
-- ---------------------------------------------------------------------------

namespace Entry

variable {entries : List (Text × Entry)} {e : Text × Entry} {f : NoteFile} {name : Text}
  {l m : Location}

/-- Where names differ, looking up a name finds the entry that has it. -/
theorem find?_eq_some_iff (h : (entries.map Prod.fst).Nodup) :
    (entries.find? fun e => e.1 == name) = some e ↔ e ∈ entries ∧ e.1 = name := by
  constructor
  · intro hfind
    exact ⟨List.mem_of_find?_eq_some hfind, by simpa using List.find?_some hfind⟩
  · rintro ⟨he, rfl⟩
    obtain ⟨found, hfound⟩ : ∃ found, (entries.find? fun x => x.1 == e.1) = some found := by
      rw [← Option.isSome_iff_exists, List.find?_isSome]
      exact ⟨e, he, beq_self_eq_true e.1⟩
    have hname : found.1 = e.1 := by simpa using List.find?_some hfound
    rw [hfound, List.inj_on_of_nodup_map h (List.mem_of_find?_eq_some hfound) he hname]

/-- What stands below a directory stands below one of its entries. -/
theorem at?_directory_iff (h : (entries.map Prod.fst).Nodup) {content : ByteArray} :
    (directory entries).at? m = some (.file content) ↔
      ∃ e ∈ entries, ∃ below, m = e.1 :: below ∧ e.2.at? below = some (.file content) := by
  cases m with
  | nil => simp [at?]
  | cons name m =>
    rw [at?, Option.bind_eq_some_iff]
    constructor
    · rintro ⟨e, hfind, hbelow⟩
      obtain ⟨he, rfl⟩ := (find?_eq_some_iff h).1 hfind
      exact ⟨e, he, m, rfl, hbelow⟩
    · rintro ⟨e, he, below, hm, hbelow⟩
      obtain ⟨rfl, rfl⟩ := List.cons.inj hm
      exact ⟨e, (find?_eq_some_iff h).2 ⟨he, rfl⟩, hbelow⟩

mutual

/-- A walk meets the notes below an entry. -/
theorem mem_visit_iff (f : NoteFile) (l : Location) : (e : Entry) → e.lawful l = true →
    (Visit.note f ∈ e.visit l ↔
      ∃ m, e.at? m = some (.file f.content) ∧ f.location = l ++ m ∧
        isNoteName (f.location.getLast?.getD []) = true)
  | .file content, _ => by
    obtain ⟨location, bytes⟩ := f
    rw [visit]
    constructor
    · intro hmem
      split at hmem
      next hname =>
        obtain ⟨rfl, rfl⟩ := NoteFile.mk.inj (Visit.note.inj (List.mem_singleton.1 hmem))
        exact ⟨[], rfl, (List.append_nil location).symm, hname⟩
      next => exact absurd hmem List.not_mem_nil
    · rintro ⟨m, hm, hlocation, hname⟩
      cases m with
      | nil =>
        obtain rfl : content = bytes := Entry.file.inj (Option.some.inj hm)
        obtain rfl : location = l := hlocation.trans (List.append_nil l)
        rw [if_pos hname]
        exact List.mem_singleton_self _
      | cons name m => contradiction
  | .directory entries, h => by
    have hall : lawfulAll l entries = true := lawfulAll_eq_true_iff.2 (lawful_of_mem h)
    rw [visit, List.mem_cons, or_iff_right nofun, mem_visitAll_iff f l entries hall]
    simp only [at?_directory_iff (nodup_of_lawful h)]
    constructor
    · rintro ⟨e, he, m, hm, hlocation, hname⟩
      exact ⟨e.1 :: m, ⟨e, he, m, rfl, hm⟩, hlocation, hname⟩
    · rintro ⟨_, ⟨e, he, m, rfl, hm⟩, hlocation, hname⟩
      exact ⟨e, he, m, hm, hlocation, hname⟩

/-- A walk through the entries of a directory meets what is below one of them. -/
theorem mem_visitAll_iff (f : NoteFile) (l : Location) : (entries : List (Text × Entry)) →
    lawfulAll l entries = true →
    (Visit.note f ∈ visitAll l entries ↔
      ∃ e ∈ entries, ∃ m, e.2.at? m = some (.file f.content) ∧ f.location = l ++ e.1 :: m ∧
        isNoteName (f.location.getLast?.getD []) = true)
  | [], _ => by simp [visitAll]
  | (name, e) :: entries, h => by
    simp only [lawfulAll, Bool.and_eq_true] at h
    rw [visitAll, List.mem_append, mem_visit_iff f (l ++ [name]) e h.1.2,
      mem_visitAll_iff f l entries h.2]
    simp only [List.mem_cons, exists_eq_or_imp, List.append_assoc, List.singleton_append]

end

/-- The notes among what a walk meets. -/
theorem mem_filterMap_note? {visits : List Visit} :
    f ∈ visits.filterMap Visit.note? ↔ Visit.note f ∈ visits := by
  rw [List.mem_filterMap]
  constructor
  · rintro ⟨v, hv, hnote⟩
    cases v with
    | directory l => contradiction
    | note g =>
      obtain rfl : g = f := Option.some.inj hnote
      exact hv
  · intro h
    exact ⟨_, h, rfl⟩

mutual

/-- A walk meets each note once. -/
theorem nodup_visit (l : Location) : (e : Entry) → e.lawful l = true →
    (((e.visit l).filterMap Visit.note?).map NoteFile.location).Nodup
  | .file content, _ => by
    rw [visit]
    split
    · exact List.nodup_singleton _
    · exact List.nodup_nil
  | .directory entries, h => by
    rw [visit, List.filterMap_cons_none rfl]
    exact nodup_visitAll l entries (lawfulAll_eq_true_iff.2 (lawful_of_mem h)) (nodup_of_lawful h)

/-- What is below different entries is at different locations. -/
theorem nodup_visitAll (l : Location) : (entries : List (Text × Entry)) →
    lawfulAll l entries = true → (entries.map Prod.fst).Nodup →
    (((visitAll l entries).filterMap Visit.note?).map NoteFile.location).Nodup
  | [], _, _ => List.nodup_nil
  | (name, e) :: entries, h, hnodup => by
    simp only [lawfulAll, Bool.and_eq_true] at h
    obtain ⟨hname, hnodup⟩ := List.nodup_cons.1 hnodup
    rw [visitAll, List.filterMap_append, List.map_append, List.nodup_append]
    refine ⟨nodup_visit (l ++ [name]) e h.1.2, nodup_visitAll l entries h.2 hnodup, ?_⟩
    intro place hplace place' hplace' heq
    obtain ⟨f, hf, rfl⟩ := List.mem_map.1 hplace
    obtain ⟨g, hg, rfl⟩ := List.mem_map.1 hplace'
    obtain ⟨m, -, hflocation, -⟩ :=
      (mem_visit_iff f (l ++ [name]) e h.1.2).1 (mem_filterMap_note?.1 hf)
    obtain ⟨other, hother, m', -, hglocation, -⟩ :=
      (mem_visitAll_iff g l entries h.2).1 (mem_filterMap_note?.1 hg)
    -- the component behind `l` is the name of the entry
    rw [hflocation, hglocation, List.append_assoc, List.singleton_append] at heq
    have hsame : name = other.1 := (List.cons.inj (List.append_cancel_left heq)).1
    exact hname (List.mem_map.2 ⟨other, hother, hsame.symm⟩)

end

end Entry

-- ---------------------------------------------------------------------------
-- The order of locations
-- ---------------------------------------------------------------------------

namespace Location

variable {α : Type}

/-- Lists are compared as the order of their members says. -/
theorem compare_list_eq_lt_iff [Ord α] [LT α] [Std.LawfulEqOrd α]
    (h : ∀ a b : α, compare a b = .lt ↔ a < b) (l m : List α) : compare l m = .lt ↔ l < m := by
  induction l generalizing m with
  | nil =>
    cases m with
    | nil => exact iff_of_false nofun (List.not_lt_nil [])
    | cons b m => exact iff_of_true rfl (List.nil_lt_cons b m)
  | cons a l ih =>
    cases m with
    | nil => exact iff_of_false nofun nofun
    | cons b m =>
      rw [List.compare_cons_cons, List.cons_lt_cons_iff, ← h, ← ih,
        ← Std.compare_eq_iff_eq (a := a) (b := b), Ordering.then_eq_lt]

/-- Locations are ordered component by component, and these by code points. -/
theorem compare_eq_lt_iff (l m : Location) : compare l m = .lt ↔ l < m := by
  have hchar : ∀ a b : Char, compare a b = .lt ↔ a < b := by
    intro a b
    exact compareOfLessAndEq_eq_lt
  exact compare_list_eq_lt_iff (compare_list_eq_lt_iff hchar) l m

end Location

-- ---------------------------------------------------------------------------
-- What a path selects
-- ---------------------------------------------------------------------------

/-- The files that a path selects: one that it names, or a note at any depth below a directory that
it names. -/
inductive FileSystem.Selects (fs : FileSystem) (path : Text) : NoteFile → Prop
  | file {l : Location} {content : ByteArray} (h : fs.Names path l (.file content)) :
      Selects fs path ⟨l, content⟩
  | below {l m : Location} {entries : List (Text × Entry)} {name : Text} {content : ByteArray}
      (h : fs.Names path l (.directory entries))
      (hbelow : fs.root.at? (l ++ m ++ [name]) = some (.file content)) (hname : IsNote name) :
      Selects fs path ⟨l ++ m ++ [name], content⟩

/-- The files that an entry at a location stands for. -/
def pick (l : Location) : Entry → List NoteFile
  | .file content => [⟨l, content⟩]
  | .directory entries => sortedNotes ((Entry.directory entries).visit l)

namespace FileSystem

variable {fs : FileSystem} {path : Text} {l : Location} {e : Entry} {f : NoteFile}

theorem mem_sortedNotes {visits : List Visit} :
    f ∈ sortedNotes visits ↔ Visit.note f ∈ visits := by
  unfold sortedNotes
  rw [(List.mergeSort_perm _ _).mem_iff, Entry.mem_filterMap_note?]

/-- What is selected has the content that is there. -/
theorem Selects.at? (h : fs.Selects path f) :
    fs.root.at? f.location = some (.file f.content) := by
  cases h with
  | file h => exact h.at?
  | below h hbelow _ => exact hbelow

/-- **The files that a path selects.** -/
theorem mem_pick_iff (h : fs.Names path l e) : f ∈ pick l e ↔ fs.Selects path f := by
  -- a path names one entry only, so a file is not also selected as something below a directory
  cases e with
  | file content =>
    constructor
    · intro hf
      obtain rfl := List.mem_singleton.1 hf
      exact .file h
    · intro hf
      cases hf with
      | file hnames =>
        obtain ⟨rfl, he⟩ := h.unique hnames
        obtain rfl := Entry.file.inj he
        exact List.mem_singleton_self _
      | below hnames _ _ => exact absurd (h.unique hnames).2 nofun
  | directory entries =>
    have hlawful : (Entry.directory entries).lawful l = true :=
      (Entry.lawful_of_at? fs.lawful h.at?).1
    have hbelow_iff : ∀ m content, (Entry.directory entries).at? m = some (.file content) ↔
        fs.root.at? (l ++ m) = some (.file content) := by
      intro m content
      rw [Entry.at?_append, h.at?, Option.bind_some]
    show f ∈ sortedNotes _ ↔ _
    rw [mem_sortedNotes, Entry.mem_visit_iff f l _ hlawful]
    obtain ⟨location, content⟩ := f
    constructor
    · rintro ⟨m, hm, (rfl : location = l ++ m), hname⟩
      -- a directory is no file, so the way from it to a file has a last name
      obtain rfl | ⟨m, name, rfl⟩ := m.eq_nil_or_concat'
      · exact absurd (Option.some.inj hm) nofun
      · rw [hbelow_iff, ← List.append_assoc] at hm
        rw [← List.append_assoc] at hname ⊢
        rw [List.getLast?_concat, Option.getD_some, isNoteName_iff] at hname
        exact .below h hm hname
    · intro hf
      cases hf with
      | file hnames => exact absurd (h.unique hnames).2 nofun
      | @below _ m _ name _ hnames hbelow hname =>
        obtain ⟨rfl, -⟩ := h.unique hnames
        rw [List.append_assoc] at hbelow
        refine ⟨m ++ [name], (hbelow_iff _ _).2 hbelow, List.append_assoc l m [name], ?_⟩
        rw [List.getLast?_concat, Option.getD_some]
        exact (isNoteName_iff name).2 hname

/-- The files that a path selects are in the order of their locations, each once. -/
theorem pairwise_pick (h : fs.Names path l e) :
    (pick l e).Pairwise fun f g => f.location < g.location := by
  cases e with
  | file content => exact List.pairwise_singleton _ _
  | directory entries =>
    let notes := ((Entry.directory entries).visit l).filterMap Visit.note?
    let le (f g : NoteFile) : Bool := f.location.le g.location
    have hsorted : (notes.mergeSort le).Pairwise fun f g => le f g = true := by
      refine List.pairwise_mergeSort ?_ ?_ notes
      · intro f g h
        exact Std.TransCmp.isLE_trans
      · intro f g
        show ((compare f.location g.location).isLE || (compare g.location f.location).isLE) = true
        rw [Std.OrientedOrd.eq_swap (a := g.location)]
        cases compare f.location g.location <;> rfl
    have hnodup : ((notes.mergeSort le).map NoteFile.location).Nodup := by
      rw [((List.mergeSort_perm notes le).map _).nodup_iff]
      exact Entry.nodup_visit l _ (Entry.lawful_of_at? fs.lawful h.at?).1
    -- what is not behind and somewhere else is before
    refine (hsorted.and (List.pairwise_map.1 hnodup)).imp ?_
    intro f g ⟨hle, hne⟩
    rw [← Location.compare_eq_lt_iff]
    have hle : (compare f.location g.location).isLE = true := hle
    cases hcompare : compare f.location g.location with
    | lt => rfl
    | eq => exact absurd (Std.compare_eq_iff_eq.1 hcompare) hne
    | gt => rw [hcompare] at hle; contradiction

end FileSystem

end Jot
