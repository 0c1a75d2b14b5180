import LiveTopology.CommandLine.Usage
import LiveTopology.Text.Similarity

/-!
# Reading the command line

Arguments are read from left to right and the first fault ends the reading. A flag that waits for
its value takes the next argument unless that looks like a flag; whether a value is missing or a
flag repeated is only settled when the next flag comes or the arguments end. An argument that is
not known at all is reported before such a flag. Flags win over the environment.
-/

namespace LiveTopology.CommandLine

/-- The arguments of the command that serves. -/
structure ServeArguments where
  /-- The path of the configuration. -/
  config : String
  /-- The address to listen on, if not that of the configuration. -/
  bind : Option String
  deriving DecidableEq, Repr

/-- What the command line asks for. -/
inductive Invocation where
  | serve (arguments : ServeArguments)
  | help (topic : Topic)
  deriving DecidableEq, Repr

/-- How an argument is written. -/
inductive Written where
  /-- Two dashes alone. -/
  | dashes
  /-- Two dashes and a name, with the value behind an equals sign if there is one. -/
  | long (name : String) (value : Option String)
  /-- A dash and a letter. -/
  | short (letter : Char)
  | plain
  deriving DecidableEq, Repr

/-- How an argument is written; a dash alone is plain. -/
def written (argument : String) : Written :=
  match argument.toList with
  | ['-', '-'] => .dashes
  | '-' :: '-' :: rest =>
    let name := String.ofList (rest.takeWhile (· ≠ '='))
    match rest.dropWhile (· ≠ '=') with
    | [] => .long name none
    | _ :: value => .long name (some (String.ofList value))
  | '-' :: letter :: _ => .short letter
  | _ => .plain

/-- The flag of a topic whose name is most like a given one. -/
def similarFlag? (topic : Topic) (name : String) : Option Flag :=
  (Text.similarTo name (topic.flags.map Flag.name)).getLast?.bind topic.flag?

/-! ## The command that serves -/

/-- A flag that was begun. -/
inductive Pending where
  | none
  /-- A flag that waits for its value. -/
  | open (flag : Flag)
  /-- A flag with its value that is not yet taken over. -/
  | filled (flag : Flag) (value : String)
  deriving DecidableEq, Repr

/-- The flags with their values that were read so far, in order, and the one that was begun. -/
structure Progress where
  given : List (Flag × String)
  pending : Pending
  deriving DecidableEq, Repr

namespace Progress

/-- Takes over a flag with its value, which must be its first. -/
def take (p : Progress) (flag : Flag) (value : String) : Except UsageError Progress :=
  if p.given.any fun entry => entry.1 = flag then .error (.repeatedFlag flag)
  else .ok { p with given := p.given ++ [(flag, value)] }

/-- Takes over the flag that was begun. -/
def settle (p : Progress) : Except UsageError Progress :=
  match p.pending with
  | .none => .ok p
  | .open flag => .error (.missingValue flag)
  | .filled flag value => { p with pending := .none }.take flag value

/-- The flags to show in the usage line of an unknown flag: those given, where a flag that was
repeated does not count. -/
def shown (p : Progress) : List Flag :=
  let given := p.given.map Prod.fst
  match p.pending with
  | .filled flag _ => if given.contains flag then given.filter (· ≠ flag) else given ++ [flag]
  | _ => given

/-- The value given for a flag. -/
def value? (p : Progress) (flag : Flag) : Option String :=
  (p.given.find? fun entry => entry.1 = flag).map Prod.snd

end Progress

/-- The error about an unknown flag of the command that serves. -/
def unknownServeFlag (p : Progress) (name : String) : UsageError :=
  match similarFlag? .serve name with
  | none => .unexpectedArgument ("--" ++ name) none ⟨.serve, p.shown⟩
  | some flag =>
    let shown := if p.shown.contains flag then p.shown else p.shown ++ [flag]
    .unexpectedArgument ("--" ++ name) (some (.similarFlag flag)) ⟨.serve, shown⟩

/-- The error about an argument of the command that serves which is no flag. -/
def unexpectedInServe (argument : String) : UsageError :=
  .unexpectedArgument argument none ⟨.serve, []⟩

/-- The flags among the arguments of the command that serves, or nothing if they ask for help. -/
def readServe : Progress → List String → Except UsageError (Option Progress)
  | p, [] => p.settle.map some
  | p, argument :: rest =>
    match written argument with
    | .dashes =>
      match rest with
      | [] => p.settle.map some
      | other :: _ => .error (unexpectedInServe other)
    | .long name value =>
      match Topic.serve.flag? name, value with
      | none, _ => .error (unknownServeFlag p name)
      | some .help, some value =>
        .error (.unexpectedValue value .help ⟨.serve, p.given.map Prod.fst⟩)
      | some .help, none => do
        let _ ← p.settle
        pure none
      | some flag, some value => do
        let p ← p.settle
        let p ← p.take flag value
        readServe p rest
      | some flag, none => do
        let p ← p.settle
        readServe { p with pending := .open flag } rest
    | .short letter =>
      if letter = 'h' then do
        let _ ← p.settle
        pure none
      else .error (unexpectedInServe (String.ofList ['-', letter]))
    | .plain =>
      match p.pending with
      | .open flag => readServe { p with pending := .filled flag argument } rest
      | _ => .error (unexpectedInServe argument)

/-- The arguments that flags and environment make up. -/
def ServeArguments.ofProgress (environment : Environment) (p : Progress) : ServeArguments where
  config := ((p.value? .config).or environment.config).getD "config.toml"
  bind := (p.value? .bind).or environment.bind

/-! ## The program -/

/-- The topic to which the words behind `help` lead. -/
def helpTopic : Topic → List String → Except UsageError Topic
  | topic, [] => .ok topic
  | topic, word :: rest =>
    match topic, Topic.ofWord? word with
    | .program, some topic => helpTopic topic rest
    | topic, _ => .error (.unknownCommand word [] ⟨topic, []⟩)

/-- The error about a word where a command is expected. -/
def unknownCommand (word : String) : UsageError :=
  .unknownCommand word (Text.similarTo word (commandWords.map Prod.fst)) ⟨.program, []⟩

/-- The error about an unknown flag of the program. A flag of a command is only thought of if the
command comes later. -/
def unknownProgramFlag (name : String) (rest : List String) : UsageError :=
  let argument := "--" ++ name
  match similarFlag? .program name with
  | some flag => .unexpectedArgument argument (some (.similarFlag flag)) ⟨.program, [flag]⟩
  | none =>
    let tip := if rest.contains "serve" then
      (similarFlag? .serve name).map (.flagOf "serve") else none
    .unexpectedArgument argument tip ⟨.program, []⟩

/-- What the arguments behind the program's name ask for. -/
def read (environment : Environment) : List String → Except UsageError Invocation
  | [] => .error .noCommand
  | argument :: rest =>
    match Topic.ofWord? argument with
    | some .serve => do
      match ← readServe ⟨[], .none⟩ rest with
      | none => pure (.help .serve)
      | some p => pure (.serve (.ofProgress environment p))
    | some _ => do
      let topic ← helpTopic .program rest
      pure (.help topic)
    | none =>
      match written argument with
      | .dashes =>
        match rest with
        | [] => .error .noCommand
        | word :: _ =>
          if (Topic.ofWord? word).isSome then
            .error (.unexpectedArgument word (some (.withoutDashes word)) ⟨.program, []⟩)
          else .error (unknownCommand word)
      | .long name value =>
        match Topic.program.flag? name, value with
        | some flag, some value => .error (.unexpectedValue value flag ⟨.program, []⟩)
        | some _, none => .ok (.help .program)
        | none, _ => .error (unknownProgramFlag name rest)
      | .short letter =>
        if letter = 'h' then .ok (.help .program)
        else .error (.unexpectedArgument (String.ofList ['-', letter]) none ⟨.program, []⟩)
      | .plain => .error (unknownCommand argument)

end LiveTopology.CommandLine
