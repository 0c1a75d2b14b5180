/-!
# Lifecycle commands

A runtime reports that one of its nodes came up or went down. Four kinds of node do so, each with a
word for its start and one for its stop. Any other word is kept as it is and changes nothing.
-/

namespace LiveTopology.Node

/-- The kinds of node. -/
inductive Role where
  | module
  | publisher
  | subscriber
  | runtime
  deriving DecidableEq, Repr

/-- The word with which a node of a kind reports its start. -/
def Role.startWord : Role → String
  | .module => "module-inst"
  | .publisher => "pub-start"
  | .subscriber => "sub-start"
  | .runtime => "rt-start"

/-- The word with which a node of a kind reports its stop. -/
def Role.stopWord : Role → String
  | .module => "module-uninst"
  | .publisher => "pub-stop"
  | .subscriber => "sub-stop"
  | .runtime => "rt-stop"

/-- A lifecycle command. -/
inductive Command where
  | start (role : Role)
  | stop (role : Role)
  /-- A word that is no command of the lifecycle. -/
  | other (word : String)
  deriving DecidableEq, Repr

/-- The command that a word stands for. -/
def Command.ofWord (word : String) : Command :=
  if word = "module-inst" then .start .module
  else if word = "module-uninst" then .stop .module
  else if word = "pub-start" then .start .publisher
  else if word = "pub-stop" then .stop .publisher
  else if word = "sub-start" then .start .subscriber
  else if word = "sub-stop" then .stop .subscriber
  else if word = "rt-start" then .start .runtime
  else if word = "rt-stop" then .stop .runtime
  else .other word

/-- The word of a command. -/
def Command.word : Command → String
  | .start role => role.startWord
  | .stop role => role.stopWord
  | .other word => word

/-- What a command does to the registry. -/
inductive Kind where
  | start
  | stop
  | unknown
  deriving DecidableEq, Repr

/-- The kind of a command. -/
def Command.kind : Command → Kind
  | .start _ => .start
  | .stop _ => .stop
  | .other _ => .unknown

/-- Every word is kept, known or not. -/
theorem word_ofWord (word : String) : (Command.ofWord word).word = word := by
  unfold Command.ofWord
  repeat' split
  all_goals simp_all [Command.word, Role.startWord, Role.stopWord]

end LiveTopology.Node
