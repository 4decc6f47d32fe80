import RemoteTree.Command.Basic

/-!
# Command lines

The grammar of the program's arguments: options with and without values, in short and long form
and anywhere on the line, and the words of one command. Two dashes alone end the options. The
first fault on the line is the one reported, but for a value, which is looked at only when the
next option or word has come.
-/

set_option autoImplicit false

namespace RemoteTree

/-- Why a command line asks for no command. Asking for help or for the version is one reason. -/
inductive UsageError where
  | help
  | version
  | empty
  | noCommand
  | unknownCommand
  | unknownArgument
  | missingArgument
  | noValue
  | badValue
  | unwantedValue
  | repeated
  deriving DecidableEq, Repr

def UsageError.message : UsageError → String
  | .help =>
      "Usage: ixp [--address <address>] <command> <path>\n\n" ++
        "Commands: read, write, create, remove, stat, ls, lines, help"
  | .version => "ixp 0.1.0"
  | .empty => "no command given; try --help"
  | .noCommand => "no command given"
  | .unknownCommand => "unrecognized command"
  | .unknownArgument => "unexpected argument"
  | .missingArgument => "a required argument is missing"
  | .noValue => "an option needs a value"
  | .badValue => "the value of an option is no number"
  | .unwantedValue => "an option has a value that it cannot have"
  | .repeated => "an option is given twice"

/-- What a command line asks for. -/
structure Invocation where
  address : Option String
  command : Command
  deriving DecidableEq, Repr

namespace CommandLine

/-- What an option does. -/
inductive OptionKind where
  | text
  | number
  | switch
  | help
  | version
  deriving DecidableEq, Repr

/-- An option. -/
structure OptionForm where
  long : String
  short : Option Char
  kind : OptionKind
  deriving DecidableEq, Repr

def OptionForm.takesValue (form : OptionForm) : Bool := form.kind = .text || form.kind = .number

/-- The option that names the address, which may stand before the command or behind it. -/
def addressOption : OptionForm := ⟨"address", some 'a', .text⟩

def helpOption : OptionForm := ⟨"help", some 'h', .help⟩

def leadingOptions : List OptionForm := [addressOption, helpOption, ⟨"version", some 'V', .version⟩]

/-- The arguments of a command: its options, and whether words may follow the path. -/
structure CommandForm where
  name : String
  options : List OptionForm
  takesWords : Bool
  deriving DecidableEq, Repr

def commandForms : List CommandForm :=
  [⟨"read", [], false⟩,
    ⟨"write", [], true⟩,
    ⟨"create", [], true⟩,
    ⟨"remove", [], false⟩,
    ⟨"stat", [⟨"json", none, .switch⟩], false⟩,
    ⟨"ls", [⟨"long", some 'l', .switch⟩], false⟩,
    ⟨"lines", [⟨"timeout", none, .number⟩, ⟨"extend", none, .number⟩], false⟩]

def commandForm? (name : String) : Option CommandForm :=
  commandForms.find? fun form => form.name = name

def helpCommand : String := "help"

/-- What has been read of a line: the options with their values, the words, the latest first, and
the option that came last, if it takes a value, with that value once it has come. -/
structure Given where
  values : Table String String := []
  path : Option String := none
  words : List String := []
  pending : Option (OptionForm × Option String) := none

namespace Given

def isWaiting (given : Given) : Bool :=
  match given.pending with
  | some (_, none) => true
  | _ => false

def number? (text : String) : Option Nat :=
  let digits :=
    match text.toList with
    | '+' :: rest => rest
    | characters => characters
  if !digits.isEmpty && digits.all Char.isDigit then
    let number := digits.foldl (fun number digit => 10 * number + (digit.toNat - 0x30)) 0
    if number < UInt64.size then some number else none
  else none

/-- Keeps the value of an option, which may be given once. -/
def store (given : Given) (form : OptionForm) (value : String) : Except UsageError Given :=
  if (Table.find? form.long given.values).isSome then .error .repeated
  else if form.kind = .number ∧ number? value = none then .error .badValue
  else .ok { given with values := Table.insert form.long value given.values }

def settle (given : Given) : Except UsageError Given :=
  match given.pending with
  | none => .ok given
  | some (_, none) => .error .noValue
  | some (form, some value) => { given with pending := none }.store form value

def attach (given : Given) (form : OptionForm) (value : String) : Except UsageError Given := do
  (← given.settle).store form value

def expect (given : Given) (form : OptionForm) : Except UsageError Given := do
  return { ← given.settle with pending := some (form, none) }

def act (given : Given) (form : OptionForm) : Except UsageError Given := do
  let given ← given.settle
  match form.kind with
  | .help => throw .help
  | .version => throw .version
  | _ => given.store form "true"

def addWord (given : Given) (takesWords : Bool) (word : String) : Except UsageError Given :=
  if given.path.isNone then do
    return { ← given.settle with path := some word }
  else if takesWords then do
    let given ← given.settle
    return { given with words := word :: given.words }
  else .error .unknownArgument

def addValue (given : Given) (value : String) : Given :=
  { given with pending := given.pending.map fun pending => (pending.1, some value) }

end Given

/-- Takes in the letters behind one dash. A letter that needs a value has the rest for it. -/
def readLetters (options : List OptionForm) : List Char → Given → Except UsageError Given
  | [], given => .ok given
  | letter :: rest, given =>
      match options.find? fun form => form.short = some letter with
      | none => .error .unknownArgument
      | some form =>
          if form.takesValue then
            match rest with
            | [] => given.expect form
            | '=' :: value => given.attach form (String.ofList value)
            | value => given.attach form (String.ofList value)
          else
            match given.act form with
            | .ok given => readLetters options rest given
            | .error error => .error error

/-- Takes in the name behind two dashes, with a value behind an equals sign if there is one. -/
def readName (options : List OptionForm) (characters : List Char) (given : Given) :
    Except UsageError Given :=
  let name := characters.takeWhile (· != '=')
  match options.find? fun form => form.long = String.ofList name with
  | none => .error .unknownArgument
  | some form =>
      match form.takesValue, characters.drop name.length with
      | true, [] => given.expect form
      | true, _ :: value => given.attach form (String.ofList value)
      | false, [] => given.act form
      | false, _ => .error .unwantedValue

/-- What an argument looks like. -/
inductive Shape where
  | name (characters : List Char)
  | letters (characters : List Char)
  | separator
  | word

/-- The shape of an argument. A dash alone is a word. -/
def shapeOf (argument : String) : Shape :=
  match argument.toList with
  | ['-', '-'] => .separator
  | '-' :: '-' :: name => .name name
  | ['-'] => .word
  | '-' :: letters => .letters letters
  | _ => .word

def readArguments (form : CommandForm) :
    List String → Bool → Given → Except UsageError Given
  | [], _, given => given.settle
  | argument :: rest, onlyWords, given =>
      let options := form.options ++ [addressOption, helpOption]
      let shape := if onlyWords then .word else shapeOf argument
      match shape with
      | .separator => readArguments form rest true given
      | .name characters =>
          match readName options characters given with
          | .ok given => readArguments form rest onlyWords given
          | .error error => .error error
      | .letters characters =>
          match readLetters options characters given with
          | .ok given => readArguments form rest onlyWords given
          | .error error => .error error
      | .word =>
          if given.isWaiting && !onlyWords then
            readArguments form rest onlyWords (given.addValue argument)
          else
            match given.addWord form.takesWords argument with
            | .ok given => readArguments form rest onlyWords given
            | .error error => .error error

def commandOf (name path : String) (given : Given) : Command :=
  let words := given.words.reverse
  let isGiven := fun option => (Table.find? option given.values).isSome
  let number := fun option => (Table.find? option given.values).bind Given.number?
  if name = "read" then .read path
  else if name = "write" then .write path words
  else if name = "create" then .create path words
  else if name = "remove" then .remove path
  else if name = "stat" then .stat path (isGiven "json")
  else if name = "ls" then .list path (isGiven "long")
  else .follow path (number "timeout") (number "extend")

/-- Reads a command. An extension of a timeout needs the timeout. -/
def readCommand (form : CommandForm) (arguments : List String) :
    Except UsageError (Option String × Command) := do
  let given ← readArguments form arguments false {}
  let isGiven := fun option => (Table.find? option given.values).isSome
  match given.path with
  | none => throw .missingArgument
  | some path =>
      if isGiven "extend" && !isGiven "timeout" then throw .missingArgument
      else return (Table.find? addressOption.long given.values, commandOf form.name path given)

def isCommand (word : String) : Bool := word = helpCommand || (commandForm? word).isSome

/-- What the command that asks for help comes to: words behind it must be one command. -/
def helpOn : List String → UsageError
  | [] => .help
  | [command] => if isCommand command then .help else .unknownCommand
  | _ => .unknownCommand

/-- Reads the arguments in front of the command, the command, and what comes behind it. The
address behind the command counts more than the one in front. -/
def readLeading : List String → Bool → Given → Except UsageError Invocation
  | [], _, given => do
      let given ← given.settle
      throw (if given.values.isEmpty then .empty else .noCommand)
  | argument :: rest, onlyWords, given =>
      let shape := if onlyWords then .word else shapeOf argument
      match shape with
      | .separator => readLeading rest true given
      | .name characters =>
          match readName leadingOptions characters given with
          | .ok given => readLeading rest onlyWords given
          | .error error => .error error
      | .letters characters =>
          match readLetters leadingOptions characters given with
          | .ok given => readLeading rest onlyWords given
          | .error error => .error error
      | .word =>
          if onlyWords then
            .error (if isCommand argument then .unknownArgument else .unknownCommand)
          else if given.isWaiting then readLeading rest onlyWords (given.addValue argument)
          else if argument = helpCommand then .error (helpOn rest)
          else
            match commandForm? argument with
            | none => .error .unknownCommand
            | some form => do
                let (address, command) ← readCommand form rest
                let given ← given.settle
                let leading := Table.find? addressOption.long given.values
                return ⟨address.orElse fun _ => leading, command⟩

def parse (arguments : List String) : Except UsageError Invocation :=
  readLeading arguments false {}

end CommandLine

end RemoteTree
