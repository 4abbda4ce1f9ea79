import Jot.Text.Basic

/-!
# Jot — arguments

How a command is written: general options, the name of what is to be done, then inputs and
options in any order.  Nothing may be said twice on either side of the name, and behind `--`
everything is an input.
-/

namespace Jot

/-- What is to be done with the sources. -/
inductive Job where
  | tokenize (json : Bool)
  | parse (json byLine : Bool)
deriving DecidableEq

/-- A well-formed command. -/
structure Invocation where
  verbose : Bool
  config : Option Text
  job : Job
  inputs : List Text

/-- What the arguments ask for. -/
inductive Request where
  | run (i : Invocation)
  | version
  | help
  | misuse

/-- The general options. -/
structure GeneralOptions where
  verbose : Bool
  config : Option Text

namespace GeneralOptions

/-- No option given. -/
def none : GeneralOptions := ⟨false, .none⟩

/-- Options on both sides of the name; the later ones count. -/
def merge (first second : GeneralOptions) : GeneralOptions :=
  ⟨first.verbose || second.verbose, second.config.or first.config⟩

/-- The options with a settings file, if there is none yet; the path must not be empty. -/
def withConfig? (o : GeneralOptions) (path : Text) : Option GeneralOptions :=
  if o.config.isNone && !path.isEmpty then some { o with config := some path } else .none

/-- The options with progress reports, if they are not yet asked for. -/
def withVerbose? (o : GeneralOptions) : Option GeneralOptions :=
  if o.verbose then .none else some { o with verbose := true }

end GeneralOptions

/-- A word that can stand for itself; it is no option and not empty. -/
def isOperand (word : Text) : Bool :=
  match word with
  | [] => false
  | ['-'] => true
  | c :: _ => c != '-'

/-- Reads a general option at the front of the arguments: the options with it, and what
follows it. -/
def readGeneral? (o : GeneralOptions) : List Text → Option (GeneralOptions × List Text)
  | [] => none
  | word :: rest =>
    if word = "--verbose".toList then o.withVerbose?.map (·, rest)
    else if word = "--config".toList then
      match rest with
      | value :: rest => if isOperand value then (o.withConfig? value).map (·, rest) else none
      | [] => none
    else
      (Text.after? "--config=".toList word).bind fun value => (o.withConfig? value).map (·, rest)

theorem length_lt_of_readGeneral? {o o' : GeneralOptions} {words rest : List Text}
    (h : readGeneral? o words = some (o', rest)) : rest.length < words.length := by
  unfold readGeneral? at h
  split at h
  · contradiction
  · split at h
    · obtain ⟨_, _, h⟩ := Option.map_eq_some_iff.1 h
      cases h
      simp
    · split at h
      · split at h
        · split at h
          · obtain ⟨_, _, h⟩ := Option.map_eq_some_iff.1 h
            cases h
            simp only [List.length_cons]
            omega
          · contradiction
        · contradiction
      · obtain ⟨_, _, h⟩ := Option.bind_eq_some_iff.1 h
        obtain ⟨_, _, h⟩ := Option.map_eq_some_iff.1 h
        cases h
        simp

/-- The flags and inputs behind the name of a job, inputs latest first. -/
structure JobOptions where
  json : Bool
  byLine : Bool
  inputs : List Text

namespace JobOptions

/-- The options with a flag that the job knows and that is not given yet. -/
def withFlag? (o : JobOptions) (knowsLines : Bool) (word : Text) : Option JobOptions :=
  if word = "--json".toList && !o.json then some { o with json := true }
  else if word = "--lines".toList && knowsLines && !o.byLine then some { o with byLine := true }
  else none

/-- The options with one more input. -/
def withInput (o : JobOptions) (word : Text) : JobOptions :=
  { o with inputs := word :: o.inputs }

end JobOptions

/-- Reads what follows the name of a job; `none` stands for a call for help. -/
def readJob (knowsLines : Bool) (general : GeneralOptions) (o : JobOptions) :
    List Text → Except Request (GeneralOptions × JobOptions)
  | [] => if o.inputs.isEmpty then .error .misuse else .ok (general, o)
  | word :: rest =>
    if word = "--".toList then
      let o := rest.foldl JobOptions.withInput o
      if rest.any List.isEmpty || o.inputs.isEmpty then .error .misuse else .ok (general, o)
    else if isOperand word then readJob knowsLines general (o.withInput word) rest
    else if word = "--help".toList ∨ word.take 2 = "-h".toList then .error .help
    else
      match o.withFlag? knowsLines word with
      | some o => readJob knowsLines general o rest
      | none =>
        match _h : readGeneral? general (word :: rest) with
        | some (general, rest) => readJob knowsLines general o rest
        | none => .error .misuse
termination_by words => words.length
decreasing_by
  · simp
  · simp
  · exact length_lt_of_readGeneral? ‹_›

/-- The invocation of a job, from the words behind its name. -/
def readInvocation (general : GeneralOptions) (knowsLines : Bool) (job : JobOptions → Job)
    (words : List Text) : Request :=
  match readJob knowsLines .none ⟨false, false, []⟩ words with
  | .error r => r
  | .ok (later, o) =>
    let general := general.merge later
    .run ⟨general.verbose, general.config, job o, o.inputs.reverse⟩

/-- The names that help can be asked about. -/
def helpTopics : List Text := ["tokenize", "parse", "help"].map String.toList

/-- Reads what follows a call for help by its name: nothing, or one topic. -/
def readTopic : List Text → Request
  | [] => .help
  | [topic] => if helpTopics.contains topic then .help else .misuse
  | _ => .misuse

/-- Reads the arguments of a command, general options first. -/
def readArguments (general : GeneralOptions) : List Text → Request
  | [] => .misuse
  | word :: rest =>
    if word = "tokenize".toList then
      readInvocation general false (fun o => .tokenize o.json) rest
    else if word = "parse".toList then
      readInvocation general true (fun o => .parse o.json o.byLine) rest
    else if word = "--version".toList ∨ word.take 2 = "-V".toList then .version
    else if word = "--help".toList ∨ word.take 2 = "-h".toList then .help
    else if word = "help".toList then readTopic rest
    else
      match _h : readGeneral? general (word :: rest) with
      | some (general, rest) => readArguments general rest
      | none => .misuse
termination_by words => words.length
decreasing_by exact length_lt_of_readGeneral? ‹_›

end Jot
