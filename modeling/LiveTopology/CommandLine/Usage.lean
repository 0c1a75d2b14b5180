/-!
# What may be said on the command line

The program has a command that serves and one that shows help. Each has a usage line; after an
argument that was not understood, the line shows the options that were given instead of all.
-/

namespace LiveTopology.CommandLine

/-- The program itself or one of its commands. -/
inductive Topic where
  | program
  | serve
  | help
  deriving DecidableEq, Repr

/-- The words for the commands. -/
def commandWords : List (String × Topic) := [("serve", .serve), ("help", .help)]

/-- The command of a word. -/
def Topic.ofWord? (word : String) : Option Topic :=
  (commandWords.find? fun entry => entry.1 = word).map Prod.snd

/-- A flag. All but `help` take a value. -/
inductive Flag where
  | config
  | bind
  | help
  deriving DecidableEq, Repr

/-- The name of a flag. -/
def Flag.name : Flag → String
  | .config => "config"
  | .bind => "bind"
  | .help => "help"

/-- A flag with its value, as usage lines and messages show it. -/
def Flag.text : Flag → String
  | .config => "--config <CONFIG>"
  | .bind => "--bind <BIND>"
  | .help => "--help"

/-- The flags of the program or of a command. -/
def Topic.flags : Topic → List Flag
  | .program => [.help]
  | .serve => [.config, .bind, .help]
  | .help => []

/-- The flag of a topic with a name. -/
def Topic.flag? (topic : Topic) (name : String) : Option Flag :=
  topic.flags.find? fun flag => flag.name = name

/-- A usage line: for the program or a command, with the flags to show, or all if there are none. -/
structure Usage where
  topic : Topic
  flags : List Flag
  deriving DecidableEq, Repr

/-- The text of a usage line. -/
def Usage.text (usage : Usage) : String :=
  let flags := usage.flags.map Flag.text
  let words := match usage.topic with
    | .program => ["net-state"] ++ flags ++ ["<COMMAND>"]
    | .serve => ["net-state", "serve"] ++ (if flags.isEmpty then ["[OPTIONS]"] else flags)
    | .help => ["net-state", "help", "[COMMAND]..."]
  "Usage: " ++ String.intercalate " " words

/-- The variables of the environment that stand for flags. -/
structure Environment where
  config : Option String
  bind : Option String
  deriving DecidableEq, Repr

/-- The help about the program or a command. -/
def help (environment : Environment) (topic : Topic) : String :=
  let usage := (⟨topic, []⟩ : Usage).text
  match topic with
  | .program =>
    "Live node topology of a pub/sub runtime\n\n" ++ usage ++ "\n\n" ++
      "Commands:\n" ++
      "  serve  Run the service\n" ++
      "  help   Print this message or the help of the given subcommand(s)\n\n" ++
      "Options:\n" ++
      "  -h, --help  Print help\n"
  | .serve =>
    "Run the service\n\n" ++ usage ++ "\n\n" ++
      "Options:\n" ++
      "      --config <CONFIG>  Path to the TOML config file [env: NET_STATE_CONFIG=" ++
      environment.config.getD "" ++ "] [default: config.toml]\n" ++
      "      --bind <BIND>      Override the API bind address (host:port) [env: NET_STATE_BIND=" ++
      environment.bind.getD "" ++ "]\n" ++
      "  -h, --help             Print help\n"
  | .help =>
    "Print this message or the help of the given subcommand(s)\n\n" ++ usage ++ "\n\n" ++
      "Arguments:\n" ++
      "  [COMMAND]...  Print help for the subcommand(s)\n"

/-- What may have been meant by an argument that was not understood. -/
inductive Tip where
  /-- A flag with a similar name. -/
  | similarFlag (flag : Flag)
  /-- A flag of a command that comes later. -/
  | flagOf (command : String) (flag : Flag)
  /-- A command behind the two dashes that end the flags. -/
  | withoutDashes (command : String)
  deriving DecidableEq, Repr

/-- The text of a tip. -/
def Tip.text : Tip → String
  | .similarFlag flag => "a similar argument exists: '--" ++ flag.name ++ "'"
  | .flagOf command flag => "'" ++ command ++ " --" ++ flag.name ++ "' exists"
  | .withoutDashes command =>
    "subcommand '" ++ command ++ "' exists; to use it, remove the '--' before it"

/-- A command line that is not accepted. -/
inductive UsageError where
  | noCommand
  | unexpectedArgument (argument : String) (tip : Option Tip) (usage : Usage)
  | unknownCommand (word : String) (similar : List String) (usage : Usage)
  | missingValue (flag : Flag)
  | repeatedFlag (flag : Flag)
  | unexpectedValue (value : String) (flag : Flag) (usage : Usage)
  deriving DecidableEq, Repr

/-- The tip about words that are similar to an unknown command. -/
def similarCommands (words : List String) : String :=
  (if words.length = 1 then "a similar subcommand exists: " else "some similar subcommands exist: ")
    ++ String.intercalate ", " (words.map fun word => "'" ++ word ++ "'")

/-- The text of a usage error, put together from what is wrong, a tip and the usage line. -/
def usageReport (problem : String) (tip : Option String) (usage : Option Usage) : String :=
  let tip := (tip.map fun tip => "\n\n  tip: " ++ tip).getD ""
  let usage := (usage.map fun usage => "\n\n" ++ usage.text).getD ""
  "error: " ++ problem ++ tip ++ usage ++ "\n\nFor more information, try '--help'.\n"

/-- The text of a usage error. Without a command the help is shown. -/
def UsageError.text (environment : Environment) : UsageError → String
  | .noCommand => help environment .program
  | .unexpectedArgument argument tip usage =>
    usageReport ("unexpected argument '" ++ argument ++ "' found") (tip.map Tip.text) (some usage)
  | .unknownCommand word similar usage =>
    usageReport ("unrecognized subcommand '" ++ word ++ "'")
      (if similar.isEmpty then none else some (similarCommands similar)) (some usage)
  | .missingValue flag =>
    usageReport ("a value is required for '" ++ flag.text ++ "' but none was supplied") none none
  | .repeatedFlag flag =>
    usageReport ("the argument '" ++ flag.text ++ "' cannot be used multiple times") none
      (some ⟨.serve, []⟩)
  | .unexpectedValue value flag usage =>
    usageReport ("unexpected value '" ++ value ++ "' for '" ++ flag.text ++
      "' found; no more were expected") none (some usage)

end LiveTopology.CommandLine
