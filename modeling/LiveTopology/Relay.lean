import LiveTopology.Bus.Request
import LiveTopology.Json.Typed

/-!
# Commands of viewers

A viewer may publish, subscribe and unsubscribe through the service. A command is a JSON object
with the field `action` and the fields that the action takes, or an array with the action first.
The object or array is read as a whole before the fields of the action are looked at, so their
faults have no place in the text. What follows in the text is looked at after them.
-/

namespace LiveTopology

open Bus Json

/-- A command of a viewer. -/
inductive RelayCommand where
  | publish (topic message : String)
  | subscribe (topic : String)
  | unsubscribeAll
  deriving DecidableEq, Repr

/-- Why a command had no effect. -/
inductive RelayError where
  | malformed (error : ReadError)
  | dispatch (error : Bus.Error)

/-- The wording of a relay error. -/
def RelayError.message : RelayError → String
  | .malformed error => "malformed command: " ++ error.message
  | .dispatch error => "dispatch: " ++ error.text

namespace RelayCommand

/-- The actions. -/
inductive Action where
  | publish
  | subscribe
  | unsubscribeAll
  deriving DecidableEq, Repr

/-- The words for the actions. -/
def actionWords : List String := ["publish", "subscribe", "unsubscribe_all"]

/-- The action of a word. -/
def Action.ofWord? (word : String) : Option Action :=
  if word = "publish" then some .publish
  else if word = "subscribe" then some .subscribe
  else if word = "unsubscribe_all" then some .unsubscribeAll
  else none

/-- An action, read from its word. -/
def readAction : Reader Action := fun input => do
  let (word, rest) ← typedString "variant identifier" input
  match Action.ofWord? word with
  | some action => pure (action, rest)
  | none => .error (.here (.unknownVariant word actionWords) rest)

/-- The parts of a command: its action and the rest of what was written. -/
inductive Parts where
  /-- The members of an object other than the action, in the order of the text. -/
  | named (action : Action) (fields : List (String × Value))
  /-- The items of an array behind the action. -/
  | listed (action : Action) (arguments : List Value)

/-- Takes a member of a command. -/
def commandMember (depth : Nat) (key : String) (found : Option Action × List (String × Value)) :
    Reader (Option Action × List (String × Value)) := fun input =>
  if key = "action" then
    if found.1.isSome then .error (.pending (.duplicateField key) input)
    else do
      let rest ← readColon input
      let (action, rest) ← readAction rest
      pure ((some action, found.2), rest)
  else do
    let rest ← readColon input
    let (value, rest) ← value depth rest
    pure ((found.1, found.2 ++ [(key, value)]), rest)

/-- A command written as an array, behind its opening bracket. -/
def readListed (depth : Nat) : Reader Parts := fun input =>
  match skipSpace input with
  | [] => .error (.next .endInList [])
  | b :: rest =>
    if b = Byte.closeBracket then .error (.here (.missingField "action") rest)
    else do
      let (action, rest) ← readAction (b :: rest)
      let (arguments, rest) ← readItems (value depth) (rest.length + 1) false rest
      pure (.listed action arguments, rest)

/-- A command written as an object, behind its opening brace. -/
def readNamed (depth : Nat) : Reader Parts :=
  members (commandMember depth) (none, []) fun found =>
    match found with
    | (none, _) => .error (.missingField "action")
    | (some action, fields) => .ok (.named action fields)

/-- The parts of a command. -/
def readParts (depth : Nat) : Reader Parts := fun input =>
  match skipSpace input with
  | [] => .error (.next .endInValue [])
  | b :: rest =>
    if b = Byte.openBracket then
      match depth with
      | 0 => .error (.next .tooDeep (b :: rest))
      | depth + 1 => readListed depth rest
    else typedObject "internally tagged enum RelayCommand" depth readNamed (b :: rest)

/-- A string among the parts. -/
def stringPart : Value → Except Cause String
  | .string text => .ok text
  | other => .error (.wrongType (.ofValue other) "a string")

/-- The strings among the fields that have the given names, each at most once. What has another
name is passed over. -/
def namedParts (names : List String) :
    List (String × Value) → List (String × String) → Except Cause (List (String × String))
  | [], found => .ok found
  | (name, value) :: rest, found =>
    if names.contains name then
      if found.any fun part => part.1 = name then .error (.duplicateField name)
      else do
        let text ← stringPart value
        namedParts names rest (found ++ [(name, text)])
    else namedParts names rest found

/-- A part that must be there. -/
def requiredPart (name : String) (found : List (String × String)) : Except Cause String :=
  match found.find? fun part => part.1 = name with
  | some part => .ok part.2
  | none => .error (.missingField name)

/-- The end of an argument list, after `count` arguments were taken. -/
def noFurther (count : Nat) (rest : List Value) : Except Cause Unit :=
  match rest with
  | [] => .ok ()
  | _ :: _ =>
    .error (.wrongLength (count + rest.length)
      (toString count ++ (if count = 1 then " element" else " elements") ++ " in sequence"))

/-- The command that the parts make up. -/
def ofParts : Parts → Except Cause RelayCommand
  | .named .publish fields => do
    let found ← namedParts ["topic", "message"] fields []
    let topic ← requiredPart "topic" found
    let message ← requiredPart "message" found
    pure (.publish topic message)
  | .named .subscribe fields => do
    let found ← namedParts ["topic"] fields []
    let topic ← requiredPart "topic" found
    pure (.subscribe topic)
  | .named .unsubscribeAll _ => pure .unsubscribeAll
  | .listed .publish arguments =>
    let expected := "struct variant RelayCommand::Publish with 2 elements"
    match arguments with
    | [] => .error (.wrongLength 0 expected)
    | first :: rest => do
      let topic ← stringPart first
      match rest with
      | [] => .error (.wrongLength 1 expected)
      | second :: rest => do
        let message ← stringPart second
        noFurther 2 rest
        pure (.publish topic message)
  | .listed .subscribe arguments =>
    match arguments with
    | [] => .error (.wrongLength 0 "struct variant RelayCommand::Subscribe with 1 element")
    | first :: rest => do
      let topic ← stringPart first
      noFurther 1 rest
      pure (.subscribe topic)
  | .listed .unsubscribeAll arguments => do
    noFurther 0 arguments
    pure .unsubscribeAll

/-- The command that a text denotes. -/
def parse (text : String) : Except RelayError RelayCommand :=
  (documentWith (readParts depthLimit) ofParts (Text.bytes text)).mapError .malformed

/-- The request that a command makes. -/
def request : RelayCommand → Request
  | .publish topic message => .publish topic message
  | .subscribe topic => .subscribe topic
  | .unsubscribeAll => .unsubscribeAll

/-- Sends the request of a command. -/
def forward {β : Type} [Bus β] (command : RelayCommand) (bus : β) : Except RelayError Unit × β :=
  let (outcome, bus) := send command.request bus
  (outcome.mapError .dispatch, bus)

/-- Reads a command and sends its request. -/
def handleText {β : Type} [Bus β] (text : String) (bus : β) :
    Except RelayError RelayCommand × β :=
  match parse text with
  | .error error => (.error error, bus)
  | .ok command =>
    let (outcome, bus) := command.forward bus
    (outcome.map fun _ => command, bus)

end RelayCommand

end LiveTopology
