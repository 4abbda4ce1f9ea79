import Jot.Proofs.Files.Selection
import Mathlib.Data.List.Forall2

/-!
# Jot — the sources of a command

The inputs of a command are read in two parts.  Standard input gives one source for each time it is
named.  The other inputs are paths; what they select is put together, and each file stays where it
was selected first.

* `Progress.bind_result_eq_ok_iff`, `decodeUtf8_eq_ok_iff` — steps that succeed;
* `exists_mem_distinct`, `pairwise_distinct` — of the files at one location the first one is kept;
* `FileSystem.Before`, `FileSystem.Selection` — the selected files in their order;
* `FileSystem.selection_distinct` — what is kept of all that the paths select is a selection;
* `FileSystem.readSources_eq_ok_iff` — the parts of a successful reading;
* `FileSystem.reads_inputs` — when inputs are read, and as what.
-/

namespace Jot

-- ---------------------------------------------------------------------------
-- Steps that succeed
-- ---------------------------------------------------------------------------

namespace Progress

variable {α β ε : Type}

/-- Two steps succeed when the first does, and the second with its result. -/
theorem bind_result_eq_ok_iff {p : Progress α} {f : α → Progress β} {b : β} :
    (p >>= f).result = .ok b ↔ ∃ a, p.result = .ok a ∧ (f a).result = .ok b := by
  obtain ⟨lines, result⟩ := p
  cases result with
  | error why => exact ⟨nofun, fun ⟨_, h, _⟩ => nomatch h⟩
  | ok a =>
    show (f a).result = .ok b ↔ ∃ a', Except.ok a = Except.ok a' ∧ (f a').result = .ok b
    constructor
    · intro h
      exact ⟨a, rfl, h⟩
    · rintro ⟨a', ha, h⟩
      rw [Except.ok.inj ha]
      exact h

/-- An attempt succeeds with what was attempted. -/
theorem attempt_result_eq_ok_iff {r : Except ε α} {f : ε → Failure} {a : α} :
    (attempt r f).result = .ok a ↔ r = .ok a := by
  cases r with
  | error e => exact ⟨nofun, nofun⟩
  | ok b => exact ⟨fun h => congrArg _ (Except.ok.inj h), fun h => congrArg _ (Except.ok.inj h)⟩

theorem pure_result_eq_ok_iff {a b : α} : (pure a : Progress α).result = .ok b ↔ b = a := by
  show Except.ok a = Except.ok b ↔ b = a
  rw [Except.ok.injEq, eq_comm]

end Progress

/-- Bytes are decoded to the text that they encode. -/
theorem decodeUtf8_eq_ok_iff {bytes : ByteArray} {t : Text} :
    decodeUtf8 bytes = .ok t ↔ t.utf8Encode = bytes := by
  constructor
  · intro h
    unfold decodeUtf8 String.fromUTF8? at h
    by_cases hvalid : bytes.IsValidUTF8
    · rw [dif_pos hvalid] at h
      rw [← Except.ok.inj h]
      exact String.utf8Encode_toList
    · rw [dif_neg hvalid] at h
      contradiction
  · rintro rfl
    have hvalid : t.utf8Encode.IsValidUTF8 := ⟨t, rfl⟩
    have hstring : String.fromUTF8 t.utf8Encode hvalid = String.ofList t :=
      String.toByteArray_inj.1 String.toByteArray_ofList.symm
    unfold decodeUtf8 String.fromUTF8?
    rw [dif_pos hvalid, hstring]
    show Except.ok (String.ofList t).toList = Except.ok t
    rw [String.toList_ofList]

-- ---------------------------------------------------------------------------
-- What is selected twice
-- ---------------------------------------------------------------------------

/-- The first file is kept, and of the others those at another location. -/
theorem distinct_cons (f : NoteFile) (files : List NoteFile) :
    distinct (f :: files) = f :: distinct (files.filter (·.location != f.location)) := by
  have hfilter : (fun g : NoteFile => decide ((g.location == f.location) = false)) =
      fun g => g.location != f.location := by
    funext g
    rw [Bool.decide_eq_false, bne]
  unfold distinct
  rw [List.eraseDupsBy_cons, hfilter]

/-- What holds of a list if it holds of what is kept behind its first file holds of every list. -/
theorem distinct_induction {P : List NoteFile → Prop} (nil : P [])
    (cons : ∀ f files, P (files.filter (·.location != f.location)) → P (f :: files)) :
    ∀ files, P files
  | [] => nil
  | f :: files => cons f files (distinct_induction nil cons _)
termination_by files => files.length
decreasing_by
  have := List.length_filter_le (·.location != f.location) files
  simp only [List.length_cons]
  omega

/-- What is kept was there. -/
theorem mem_of_mem_distinct {files : List NoteFile} {f : NoteFile} (h : f ∈ distinct files) :
    f ∈ files := by
  induction files using distinct_induction with
  | nil => exact h
  | cons g files ih =>
    rw [distinct_cons] at h
    cases h with
    | head => exact List.mem_cons_self
    | tail _ h => exact List.mem_cons_of_mem g (List.mem_of_mem_filter (ih h))

/-- A location that is selected stays selected. -/
theorem exists_mem_distinct {files : List NoteFile} {f : NoteFile} (h : f ∈ files) :
    ∃ g ∈ distinct files, g.location = f.location := by
  induction files using distinct_induction with
  | nil => contradiction
  | cons g files ih =>
    simp only [distinct_cons, List.mem_cons, exists_eq_or_imp]
    -- either the first file stands there already, or the file is not left out with it
    by_cases hlocation : g.location = f.location
    · exact Or.inl hlocation
    · refine Or.inr (ih ?_)
      cases h with
      | head => contradiction
      | tail _ h => exact List.mem_filter.2 ⟨h, bne_iff_ne.2 (Ne.symm hlocation)⟩

/-- In a list, a file comes before all others at its location and at that of another one. -/
def ComesFirst (files : List NoteFile) (f g : NoteFile) : Prop :=
  f.location ≠ g.location ∧ ∃ front behind, files = front ++ f :: behind ∧
    ∀ x ∈ front, x.location ≠ f.location ∧ x.location ≠ g.location

/-- What is left out changes nothing for what is somewhere else. -/
theorem ComesFirst.of_filter {files : List NoteFile} {f g h : NoteFile}
    (hfirst : ComesFirst (files.filter (·.location != h.location)) f g)
    (hf : f.location ≠ h.location) (hg : g.location ≠ h.location) :
    ComesFirst (h :: files) f g := by
  obtain ⟨hne, front, behind, hsplit, hfront⟩ := hfirst
  obtain ⟨front', rest, rfl, rfl, hrest⟩ := List.filter_eq_append_iff.1 hsplit
  obtain ⟨skipped, behind, rfl, hskipped, -, -⟩ := List.filter_eq_cons_iff.1 hrest
  refine ⟨hne, h :: (front' ++ skipped), behind, by simp, ?_⟩
  -- what is in front is at the location of `h`, or was in front already
  intro x hx
  by_cases hlocation : x.location = h.location
  · rw [hlocation]
    exact ⟨hf.symm, hg.symm⟩
  · rcases List.mem_cons.1 hx with rfl | hx
    · contradiction
    rcases List.mem_append.1 hx with hx | hx
    · exact hfront x (List.mem_filter.2 ⟨hx, bne_iff_ne.2 hlocation⟩)
    · exact absurd (bne_iff_ne.2 hlocation) (hskipped x hx)

/-- The files that are kept come first, in this order. -/
theorem pairwise_distinct (files : List NoteFile) :
    (distinct files).Pairwise (ComesFirst files) := by
  induction files using distinct_induction with
  | nil => exact List.Pairwise.nil
  | cons h files ih =>
    have haway : ∀ x ∈ distinct (files.filter (·.location != h.location)),
        x.location ≠ h.location := by
      intro x hx
      exact bne_iff_ne.1 (List.mem_filter.1 (mem_of_mem_distinct hx)).2
    rw [distinct_cons, List.pairwise_cons]
    constructor
    · intro g hg
      exact ⟨(haway g hg).symm, [], files, rfl, nofun⟩
    · refine ih.imp_of_mem ?_
      intro f g hf hg hfirst
      exact hfirst.of_filter (haway f hf) (haway g hg)

-- ---------------------------------------------------------------------------
-- What paths select
-- ---------------------------------------------------------------------------

namespace FileSystem

variable {fs : FileSystem} {stdin : ByteArray} {path : Text} {paths : List Text}
  {files : List NoteFile} {picks : List (List NoteFile)} {f g : NoteFile}

/-- The files that a path stands for, in their order. -/
def Picks (fs : FileSystem) (path : Text) (files : List NoteFile) : Prop :=
  ∃ l e, fs.Names path l e ∧ files = pick l e

/-- The files that a path stands for are those that it selects. -/
theorem Picks.mem_iff (h : fs.Picks path files) : f ∈ files ↔ fs.Selects path f := by
  obtain ⟨l, e, hnames, rfl⟩ := h
  exact mem_pick_iff hnames

theorem Picks.pairwise (h : fs.Picks path files) :
    files.Pairwise fun f g => f.location < g.location := by
  obtain ⟨l, e, hnames, rfl⟩ := h
  exact pairwise_pick hnames

/-- All that some paths stand for is what one of them selects. -/
theorem mem_flatten_iff (h : List.Forall₂ fs.Picks paths picks) :
    f ∈ picks.flatten ↔ ∃ path ∈ paths, fs.Selects path f := by
  induction h with
  | nil => simp
  | cons hpick _ ih =>
    simp only [List.flatten_cons, List.mem_append, hpick.mem_iff, ih, List.mem_cons,
      exists_eq_or_imp]

/-- The first path to select one of two files selects the one before the other. -/
def Before (fs : FileSystem) (paths : List Text) (f g : NoteFile) : Prop :=
  ∃ front path behind, paths = front ++ path :: behind ∧
    (∀ p ∈ front, ¬fs.Selects p f ∧ ¬fs.Selects p g) ∧ fs.Selects path f ∧
    (fs.Selects path g → f.location < g.location)

/-- A path that selects neither file decides nothing. -/
theorem Before.cons (h : fs.Before paths f g) (hf : ¬fs.Selects path f)
    (hg : ¬fs.Selects path g) : fs.Before (path :: paths) f g := by
  obtain ⟨front, p, behind, rfl, hfront, hselects, horder⟩ := h
  exact ⟨path :: front, p, behind, rfl, List.forall_mem_cons.2 ⟨⟨hf, hg⟩, hfront⟩, hselects, horder⟩

/-- A file that comes first is selected before the other one. -/
theorem before_of_comesFirst (h : List.Forall₂ fs.Picks paths picks)
    (hfirst : ComesFirst picks.flatten f g) : fs.Before paths f g := by
  obtain ⟨hne, front, behind, hsplit, hfront⟩ := hfirst
  -- on the paths: the first that selects one of the two files decides
  induction h generalizing front with
  | nil => exact absurd hsplit.symm (by simp)
  | @cons path files paths picks hpick _ ih =>
    -- either all that `path` selects is in front, or `f` is the next file that it selects
    have hlater : ∀ between, front = files ++ between →
        picks.flatten = between ++ f :: behind → fs.Before (path :: paths) f g := by
      rintro between rfl hbetween
      obtain ⟨hfiles, hfront⟩ := List.forall_mem_append.1 hfront
      refine (ih between hbetween hfront).cons ?_ ?_
      · rw [← hpick.mem_iff]
        exact fun hf => (hfiles f hf).1 rfl
      · rw [← hpick.mem_iff]
        exact fun hg => (hfiles g hg).2 rfl
    rw [List.flatten_cons, List.append_eq_append_iff] at hsplit
    obtain ⟨between, hfiles, hbehind⟩ | ⟨rest, rfl, hbehind⟩ := hsplit
    · exact hlater between hfiles hbehind
    · cases rest with
      | nil => exact hlater [] (by simp) hbehind.symm
      | cons x rest =>
        obtain ⟨rfl, -⟩ := List.cons.inj hbehind
        refine ⟨[], path, paths, rfl, nofun, hpick.mem_iff.1 (by simp), ?_⟩
        intro hg
        have horder := (List.pairwise_cons.1 (List.pairwise_append.1 hpick.pairwise).2.1).1
        rcases List.mem_append.1 (hpick.mem_iff.2 hg) with hg | hg
        · exact absurd rfl (hfront g hg).2
        · rcases List.mem_cons.1 hg with rfl | hg
          · exact absurd rfl hne
          · exact horder g hg

/-- A selection: what paths select, each file once and where it is selected first. -/
structure Selection (fs : FileSystem) (paths : List Text) (files : List NoteFile) : Prop where
  selected : ∀ f, f ∈ files ↔ ∃ path ∈ paths, fs.Selects path f
  once     : (files.map NoteFile.location).Nodup
  ordered  : files.Pairwise (fs.Before paths)

/-- Of all that some paths select, what is kept is a selection. -/
theorem selection_distinct (h : List.Forall₂ fs.Picks paths picks) :
    fs.Selection paths (distinct picks.flatten) := by
  refine ⟨?_, ?_, ?_⟩
  · intro f
    rw [← mem_flatten_iff h]
    refine ⟨mem_of_mem_distinct, fun hf => ?_⟩
    obtain ⟨g, hg, hlocation⟩ := exists_mem_distinct hf
    -- there is only one file at a location
    obtain ⟨_, -, hfselects⟩ := (mem_flatten_iff h).1 hf
    obtain ⟨_, -, hgselects⟩ := (mem_flatten_iff h).1 (mem_of_mem_distinct hg)
    have hcontent : some (Entry.file g.content) = some (Entry.file f.content) := by
      rw [← hgselects.at?, hlocation, hfselects.at?]
    have hsame : g = f := by
      obtain ⟨location, content⟩ := g
      obtain rfl := hlocation
      obtain rfl := Entry.file.inj (Option.some.inj hcontent)
      rfl
    exact hsame ▸ hg
  · exact List.pairwise_map.2 ((pairwise_distinct _).imp And.left)
  · exact (pairwise_distinct _).imp (before_of_comesFirst h)

/-- The files of a path are looked up with success when it names something. -/
theorem selectPath_eq_ok_iff :
    (selectPath (fs.world stdin) path).result = .ok files ↔ fs.Picks path files := by
  unfold selectPath Picks
  rw [Progress.bind_result_eq_ok_iff]
  simp only [Progress.attempt_result_eq_ok_iff, Prod.exists, resolve_eq_ok_iff]
  refine exists_congr fun l => exists_congr fun e => and_congr_right fun _ => ?_
  cases e with
  | file content => exact Progress.pure_result_eq_ok_iff
  | directory entries => exact Progress.pure_result_eq_ok_iff

/-- The files of some paths are put together when each of them names something. -/
theorem selectAll_eq_ok_iff :
    (selectAll (fs.world stdin) paths).result = .ok files ↔
      ∃ picks, List.Forall₂ fs.Picks paths picks ∧ files = picks.flatten := by
  induction paths generalizing files with
  | nil => simp [selectAll, Progress.pure_result_eq_ok_iff]
  | cons path paths ih =>
    simp only [selectAll, Progress.bind_result_eq_ok_iff, Progress.pure_result_eq_ok_iff,
      selectPath_eq_ok_iff, ih, List.forall₂_cons_left_iff]
    constructor
    · rintro ⟨first, hfirst, _, ⟨picks, hpicks, rfl⟩, rfl⟩
      exact ⟨first :: picks, ⟨first, picks, hfirst, hpicks, rfl⟩, rfl⟩
    · rintro ⟨_, ⟨first, picks, hfirst, hpicks, rfl⟩, rfl⟩
      exact ⟨first, hfirst, picks.flatten, ⟨picks, hpicks, rfl⟩, rfl⟩

end FileSystem

-- ---------------------------------------------------------------------------
-- What is read
-- ---------------------------------------------------------------------------

/-- A list can be matched if each of its members can. -/
theorem exists_forall₂_iff {α β : Type} {R : α → β → Prop} {l : List α} :
    (∃ m, List.Forall₂ R l m) ↔ ∀ a ∈ l, ∃ b, R a b := by
  constructor
  · rintro ⟨m, h⟩
    induction h with
    | nil => nofun
    | cons hab _ ih => exact List.forall_mem_cons.2 ⟨⟨_, hab⟩, ih⟩
  · intro h
    induction l with
    | nil => exact ⟨[], .nil⟩
    | cons a l ih =>
      obtain ⟨⟨b, hb⟩, hl⟩ := List.forall_mem_cons.1 h
      obtain ⟨m, hm⟩ := ih hl
      exact ⟨b :: m, .cons hb hm⟩

/-- The sources that standard input is for a number of times: all its text is in the first one. -/
inductive ReadsStdin (bytes : ByteArray) : Nat → List Source → Prop
  | never : ReadsStdin bytes 0 []
  | some {t : Text} (n : Nat) (h : t.utf8Encode = bytes) :
      ReadsStdin bytes (n + 1) (⟨"<stdin>".toList, t⟩ :: List.replicate n ⟨"<stdin>".toList, []⟩)

/-- The source that a file is: its text, and where it is. -/
structure ReadsFile (f : NoteFile) (s : Source) : Prop where
  label : s.label = f.location.display []
  text  : s.text.utf8Encode = f.content

/-- The inputs that are paths. -/
def inputPaths (inputs : List Text) : List Text := inputs.filter (· != stdinName)

/-- Where standard input is not named, all inputs are paths. -/
theorem inputPaths_eq_self {inputs : List Text} (h : stdinName ∉ inputs) :
    inputPaths inputs = inputs := by
  refine List.filter_eq_self.2 ?_
  intro input hinput
  rw [bne_iff_ne]
  rintro rfl
  exact h hinput

/-- What keeps inputs from being read. -/
inductive FileSystem.Refuses (fs : FileSystem) (stdin : ByteArray) (inputs : List Text) : Prop
  | missing {path : Text} (h : path ∈ inputPaths inputs) (hmissing : ∀ l e, ¬fs.Names path l e)
  | nothing (hinputs : inputs ≠ []) (hstdin : stdinName ∉ inputs)
      (h : ∀ path ∈ inputPaths inputs, ∀ f, ¬fs.Selects path f)
  | stdin (h : stdinName ∈ inputs) (hstdin : ∀ t : Text, t.utf8Encode ≠ stdin)
  | file {path : Text} {f : NoteFile} (h : path ∈ inputPaths inputs) (hf : fs.Selects path f)
      (hcontent : ∀ t : Text, t.utf8Encode ≠ f.content)

/-- Standard input is read with success when it is a text, or is not asked for. -/
theorem stdinSources_eq_ok_iff {w : World} {times : Nat} {sources : List Source} :
    (stdinSources w times).result = .ok sources ↔ ReadsStdin w.stdin times sources := by
  cases times with
  | zero =>
    rw [stdinSources, Progress.pure_result_eq_ok_iff]
    constructor
    · rintro rfl
      exact .never
    · intro h
      cases h
      rfl
  | succ n =>
    simp only [stdinSources, Progress.bind_result_eq_ok_iff, Progress.attempt_result_eq_ok_iff,
      Progress.pure_result_eq_ok_iff, decodeUtf8_eq_ok_iff]
    constructor
    · rintro ⟨t, ht, rfl⟩
      exact .some n ht
    · intro h
      cases h with
      | some _ ht => exact ⟨_, ht, rfl⟩

/-- There are no sources if standard input is not named. -/
theorem ReadsStdin.eq_nil_iff {bytes : ByteArray} {times : Nat} {sources : List Source}
    (h : ReadsStdin bytes times sources) : sources = [] ↔ times = 0 := by
  cases h with
  | never => exact iff_of_true rfl rfl
  | some n ht => exact iff_of_false nofun nofun

/-- Standard input that is named can be read if it is a text. -/
theorem exists_readsStdin_iff {bytes : ByteArray} {times : Nat} :
    (∃ sources, ReadsStdin bytes times sources) ↔
      times = 0 ∨ ∃ t : Text, t.utf8Encode = bytes := by
  constructor
  · rintro ⟨_, _ | ⟨n, ht⟩⟩
    · exact Or.inl rfl
    · exact Or.inr ⟨_, ht⟩
  · intro h
    cases times with
    | zero => exact ⟨[], .never⟩
    | succ n =>
      obtain ⟨t, ht⟩ := h.resolve_left n.succ_ne_zero
      exact ⟨_, .some n ht⟩

namespace FileSystem

variable {fs : FileSystem} {stdin : ByteArray} {inputs : List Text} {files : List NoteFile}
  {sources : List Source}

/-- Files are read with success when each of them is a text. -/
theorem fileSources_eq_ok_iff :
    (fileSources (fs.world stdin) files).result = .ok sources ↔
      List.Forall₂ ReadsFile files sources := by
  induction files generalizing sources with
  | nil => simp [fileSources, Progress.pure_result_eq_ok_iff]
  | cons f files ih =>
    simp only [fileSources, NoteFile.source, Progress.bind_result_eq_ok_iff,
      Progress.attempt_result_eq_ok_iff, Progress.pure_result_eq_ok_iff, decodeUtf8_eq_ok_iff, ih,
      List.forall₂_cons_left_iff]
    constructor
    · rintro ⟨s, ⟨t, ht, rfl⟩, rest, hrest, rfl⟩
      exact ⟨_, rest, ⟨rfl, ht⟩, hrest, rfl⟩
    · rintro ⟨⟨label, t⟩, rest, ⟨rfl, ht⟩, hrest, rfl⟩
      exact ⟨_, ⟨t, ht, rfl⟩, rest, hrest, rfl⟩

/-- Inputs are read with success when standard input, the paths and the files are, and there is
something to read. -/
theorem readSources_eq_ok_iff :
    (readSources (fs.world stdin) inputs).result = .ok sources ↔
      ∃ fromStdin picks fromFiles, ReadsStdin stdin (inputs.count stdinName) fromStdin ∧
        List.Forall₂ fs.Picks (inputPaths inputs) picks ∧
        (inputPaths inputs = [] ∨ distinct picks.flatten ≠ [] ∨ fromStdin ≠ []) ∧
        List.Forall₂ ReadsFile (distinct picks.flatten) fromFiles ∧
        sources = fromStdin ++ fromFiles := by
  -- the last part of the program, for given sources of standard input and given files
  have hread : ∀ (fromStdin : List Source) (files : List NoteFile),
      (if !(inputPaths inputs).isEmpty && files.isEmpty && fromStdin.isEmpty then
          Progress.fail .noNotes
        else return fromStdin ++ (← fileSources (fs.world stdin) files)).result = .ok sources ↔
      (inputPaths inputs = [] ∨ files ≠ [] ∨ fromStdin ≠ []) ∧
        ∃ fromFiles, List.Forall₂ ReadsFile files fromFiles ∧ sources = fromStdin ++ fromFiles := by
    intro fromStdin files
    by_cases hany : inputPaths inputs = [] ∨ files ≠ [] ∨ fromStdin ≠ []
    · rw [if_neg (by simpa [not_and, or_iff_not_imp_left] using hany), and_iff_right hany]
      simp only [Progress.bind_result_eq_ok_iff, fileSources_eq_ok_iff,
        Progress.pure_result_eq_ok_iff]
    · rw [if_pos (by simpa [not_or, and_assoc] using hany)]
      exact ⟨nofun, fun h => absurd h.1 hany⟩
  unfold readSources
  simp only [Progress.bind_result_eq_ok_iff, stdinSources_eq_ok_iff, selectAll_eq_ok_iff]
  constructor
  · rintro ⟨fromStdin, hstdin, _, ⟨picks, hpicks, rfl⟩, h⟩
    obtain ⟨hany, fromFiles, hfiles, rfl⟩ := (hread _ _).1 h
    exact ⟨fromStdin, picks, fromFiles, hstdin, hpicks, hany, hfiles, rfl⟩
  · rintro ⟨fromStdin, picks, fromFiles, hstdin, hpicks, hany, hfiles, rfl⟩
    exact ⟨fromStdin, hstdin, _, ⟨picks, hpicks, rfl⟩, (hread _ _).2 ⟨hany, fromFiles, hfiles, rfl⟩⟩

/-- Where inputs are read, nothing keeps them from being read. -/
theorem not_refuses_of_ok (h : (readSources (fs.world stdin) inputs).result = .ok sources) :
    ¬fs.Refuses stdin inputs := by
  obtain ⟨fromStdin, picks, fromFiles, hstdin, hpicks, hany, hfiles, -⟩ :=
    readSources_eq_ok_iff.1 h
  have hselection := selection_distinct hpicks
  intro hrefuses
  -- each of the four reasons contradicts one part of the reading
  cases hrefuses with
  | missing hpath hmissing =>
    obtain ⟨_, l, e, hnames, -⟩ := exists_forall₂_iff.1 ⟨_, hpicks⟩ _ hpath
    exact hmissing l e hnames
  | nothing hinputs hnostdin hselects =>
    rcases hany with hpaths | hsome | hsome
    · exact hinputs ((inputPaths_eq_self hnostdin).symm.trans hpaths)
    · obtain ⟨f, hf⟩ := List.exists_mem_of_ne_nil _ hsome
      obtain ⟨path, hpath, hf⟩ := (hselection.selected f).1 hf
      exact hselects path hpath f hf
    · exact hsome (hstdin.eq_nil_iff.2 (List.count_eq_zero.2 hnostdin))
  | stdin hmem hbytes =>
    rcases exists_readsStdin_iff.1 ⟨_, hstdin⟩ with hcount | ⟨t, ht⟩
    · exact List.count_eq_zero.1 hcount hmem
    · exact hbytes t ht
  | file hpath hf hbytes =>
    have hmem := (hselection.selected _).2 ⟨_, hpath, hf⟩
    obtain ⟨s, hs⟩ := exists_forall₂_iff.1 ⟨_, hfiles⟩ _ hmem
    exact hbytes s.text hs.text

/-- Where nothing keeps inputs from being read, they are. -/
theorem ok_of_not_refuses (h : ¬fs.Refuses stdin inputs) :
    ∃ sources, (readSources (fs.world stdin) inputs).result = .ok sources := by
  obtain ⟨fromStdin, hstdin⟩ :
      ∃ fromStdin, ReadsStdin stdin (inputs.count stdinName) fromStdin := by
    rw [exists_readsStdin_iff, List.count_eq_zero]
    by_contra hnone
    obtain ⟨hmem, hbytes⟩ := not_or.1 hnone
    exact h (.stdin (not_not.1 hmem) (not_exists.1 hbytes))
  obtain ⟨picks, hpicks⟩ : ∃ picks, List.Forall₂ fs.Picks (inputPaths inputs) picks := by
    refine exists_forall₂_iff.2 ?_
    intro path hpath
    by_contra hnone
    exact h (.missing hpath fun l e hnames => hnone ⟨_, l, e, hnames, rfl⟩)
  have hselection := selection_distinct hpicks
  obtain ⟨fromFiles, hfiles⟩ :
      ∃ fromFiles, List.Forall₂ ReadsFile (distinct picks.flatten) fromFiles := by
    refine exists_forall₂_iff.2 ?_
    intro f hf
    obtain ⟨path, hpath, hf⟩ := (hselection.selected f).1 hf
    by_contra hnone
    exact h (.file hpath hf fun t ht => hnone ⟨⟨_, t⟩, rfl, ht⟩)
  -- all parts are there, so it remains that there is something to read
  refine ⟨_, readSources_eq_ok_iff.2 ⟨fromStdin, picks, fromFiles, hstdin, hpicks, ?_, hfiles, rfl⟩⟩
  by_contra hnone
  obtain ⟨hpaths, hnone⟩ := not_or.1 hnone
  obtain ⟨hnofiles, hnostdin⟩ := not_or.1 hnone
  refine h (.nothing ?_ ?_ ?_)
  · rintro rfl
    exact hpaths rfl
  · exact List.count_eq_zero.1 (hstdin.eq_nil_iff.1 (not_not.1 hnostdin))
  · intro path hpath f hf
    have hmem := (hselection.selected f).2 ⟨path, hpath, hf⟩
    rw [not_not.1 hnofiles] at hmem
    contradiction

/-- **The inputs of a command** are read unless one of them names nothing, there is nothing to be
read, or something that is to be read is no text.  Then standard input comes first, and behind it
comes each file that is selected. -/
theorem reads_inputs (fs : FileSystem) (stdin : ByteArray) (inputs : List Text) :
    ((∃ why, (readSources (fs.world stdin) inputs).result = .error why) ↔
      fs.Refuses stdin inputs) ∧
    ∀ sources, (readSources (fs.world stdin) inputs).result = .ok sources →
      ∃ fromStdin files fromFiles, sources = fromStdin ++ fromFiles ∧
        ReadsStdin stdin (inputs.count stdinName) fromStdin ∧
        fs.Selection (inputPaths inputs) files ∧ List.Forall₂ ReadsFile files fromFiles := by
  refine ⟨⟨?_, ?_⟩, ?_⟩
  · rintro ⟨why, herror⟩
    by_contra hrefuses
    obtain ⟨sources, hok⟩ := ok_of_not_refuses hrefuses
    rw [herror] at hok
    contradiction
  · intro hrefuses
    cases hresult : (readSources (fs.world stdin) inputs).result with
    | error why => exact ⟨why, rfl⟩
    | ok sources => exact absurd hrefuses (not_refuses_of_ok hresult)
  · intro sources hok
    obtain ⟨fromStdin, picks, fromFiles, hstdin, hpicks, -, hfiles, rfl⟩ :=
      readSources_eq_ok_iff.1 hok
    exact ⟨fromStdin, distinct picks.flatten, fromFiles, rfl, hstdin, selection_distinct hpicks,
      hfiles⟩

end FileSystem

-- ---------------------------------------------------------------------------
-- The sources on a shelf
-- ---------------------------------------------------------------------------

namespace Shelf

/-- Inputs that overlap: a directory, one around it, a file that is no note, a note that has been
selected by then, and standard input twice. -/
def inputs : List Text :=
  ["notes/old", "notes", "c.txt", "-", "notes/b.sw", "-"].map String.toList

/-- The old note. -/
def a : NoteFile := ⟨["home", "notes", "old", "a.sowhat"].map String.toList, "#a".toUTF8⟩

/-- The note beside the directory of the old ones. -/
def b : NoteFile := ⟨["home", "notes", "b.sw"].map String.toList, "#b".toUTF8⟩

/-- The file that is no note and is named as such. -/
def c : NoteFile := ⟨["home", "c.txt"].map String.toList, "#c".toUTF8⟩

end Shelf

namespace FileSystem

/-- What is selected by each of the paths. -/
theorem picks_shelf :
    List.Forall₂ shelf.Picks (inputPaths Shelf.inputs)
      [[Shelf.a], [Shelf.b, Shelf.a], [Shelf.c], [Shelf.b]] := by
  have hold : (shelf.world .empty).resolve "notes/old".toList =
      .ok (["home", "notes", "old"].map String.toList, Shelf.old) := rfl
  have hnotes : (shelf.world .empty).resolve "notes".toList =
      .ok (["home", "notes"].map String.toList, Shelf.notes) := rfl
  have hc : (shelf.world .empty).resolve "c.txt".toList =
      .ok (Shelf.c.location, .file Shelf.c.content) := rfl
  have hb : (shelf.world .empty).resolve "notes/b.sw".toList =
      .ok (Shelf.b.location, .file Shelf.b.content) := rfl
  have hfirst : [Shelf.a] = pick (["home", "notes", "old"].map String.toList) Shelf.old :=
    (List.mergeSort_singleton Shelf.a).symm
  have hsecond : [Shelf.b, Shelf.a] = pick (["home", "notes"].map String.toList) Shelf.notes := by
    -- the walk meets the old note first, but `b` is before `old`
    have hle : Shelf.a.location.le Shelf.b.location = false := by decide
    show _ = [Shelf.a, Shelf.b].mergeSort _
    simp [List.mergeSort, List.MergeSort.Internal.splitInTwo, hle]
  exact .cons ⟨_, _, resolve_eq_ok_iff.1 hold, hfirst⟩
    (.cons ⟨_, _, resolve_eq_ok_iff.1 hnotes, hsecond⟩
      (.cons ⟨_, _, resolve_eq_ok_iff.1 hc, rfl⟩
        (.cons ⟨_, _, resolve_eq_ok_iff.1 hb, rfl⟩ .nil)))

/-- On the shelf, each file is read once, and standard input is asked twice. -/
theorem reads_inputs_shelf :
    ¬shelf.Refuses "#s".toUTF8 Shelf.inputs ∧
    ∃ fromStdin files fromFiles, (fromStdin ++ fromFiles).map (fun s => (s.label, s.text)) =
        [("<stdin>".toList, "#s".toList), ("<stdin>".toList, []),
          ("/home/notes/old/a.sowhat".toList, "#a".toList),
          ("/home/notes/b.sw".toList, "#b".toList), ("/home/c.txt".toList, "#c".toList)] ∧
      ReadsStdin "#s".toUTF8 2 fromStdin ∧ shelf.Selection (inputPaths Shelf.inputs) files ∧
      List.Forall₂ ReadsFile files fromFiles := by
  have hreads := reads_inputs shelf "#s".toUTF8 Shelf.inputs
  -- the inputs are read, as these sources
  have hdistinct : distinct [Shelf.a, Shelf.b, Shelf.a, Shelf.c, Shelf.b] =
      [Shelf.a, Shelf.b, Shelf.c] := rfl
  have hfiles : List.Forall₂ ReadsFile (distinct [Shelf.a, Shelf.b, Shelf.a, Shelf.c, Shelf.b])
      [⟨"/home/notes/old/a.sowhat".toList, "#a".toList⟩, ⟨"/home/notes/b.sw".toList, "#b".toList⟩,
        ⟨"/home/c.txt".toList, "#c".toList⟩] := by
    rw [hdistinct]
    exact .cons ⟨rfl, rfl⟩ (.cons ⟨rfl, rfl⟩ (.cons ⟨rfl, rfl⟩ .nil))
  have hresult : (readSources (shelf.world "#s".toUTF8) Shelf.inputs).result =
      .ok ([⟨"<stdin>".toList, "#s".toList⟩, ⟨"<stdin>".toList, []⟩] ++
        [⟨"/home/notes/old/a.sowhat".toList, "#a".toList⟩,
          ⟨"/home/notes/b.sw".toList, "#b".toList⟩, ⟨"/home/c.txt".toList, "#c".toList⟩]) :=
    readSources_eq_ok_iff.2
      ⟨_, _, _, .some 1 rfl, picks_shelf, .inr (.inr (List.cons_ne_nil _ _)), hfiles, rfl⟩
  constructor
  · rw [← hreads.1, hresult]
    rintro ⟨why, hwhy⟩
    contradiction
  · obtain ⟨fromStdin, files, fromFiles, hsources, hparts⟩ := hreads.2 _ hresult
    exact ⟨fromStdin, files, fromFiles, hsources ▸ rfl, hparts⟩

end FileSystem

end Jot
