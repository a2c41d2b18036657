/-
# The grammar of command lines

A command line is a path of commands, each with words of its own and options. A grammar says
which commands there are, which words each takes and which options it knows, and what each of
them is for; reading a command line by a grammar gives one level for each command on the path.

Options are settled one after another: an option that still waits for its value is settled by the
next option, by the next word, or at the end. Only then is its value looked at, which decides
which of several mistakes is reported.
-/

namespace TableStore.CommandLine

/-- What an option takes. -/
inductive OptionKind where
  /-- Nothing. -/
  | flag
  /-- Any text. -/
  | text
  /-- Texts separated by commas. -/
  | texts
  /-- A text that is not empty. -/
  | path
  /-- A number of an unsigned word. -/
  | count
  deriving DecidableEq, Repr

/-- An option, given as `--name`. -/
structure OptionSpec where
  name : String
  kind : OptionKind
  /-- Whether the option may be given more than once. -/
  repeatable : Bool
  /-- What stands for the value in a help text. A flag has none. -/
  placeholder : String
  /-- What the option is for. -/
  summary : String
  deriving DecidableEq, Repr

/-- A word that a command takes. -/
structure WordSpec where
  /-- What stands for the word in a help text. -/
  placeholder : String
  /-- What the word is, where its placeholder does not say it all. -/
  summary : String
  deriving DecidableEq, Repr

/-- What a command is for and what may follow its name. A command with commands of its own takes
no words. -/
inductive Grammar where
  | mk (summary : String) (options : List OptionSpec) (words : List WordSpec)
    (commands : List (String × Grammar)) (versioned : Bool)

namespace Grammar

/-- What a command does. -/
def summary : Grammar → String
  | .mk summary _ _ _ _ => summary

/-- The options of a command, in the order of its help text. -/
def options : Grammar → List OptionSpec
  | .mk _ options _ _ _ => options

/-- The words that a command takes. -/
def words : Grammar → List WordSpec
  | .mk _ _ words _ _ => words

/-- The commands below a command. -/
def commands : Grammar → List (String × Grammar)
  | .mk _ _ _ commands _ => commands

/-- Whether the command can be asked for its version. -/
def versioned : Grammar → Bool
  | .mk _ _ _ _ versioned => versioned

/-- Whether a word names a command, or the help that goes with commands. -/
def knows (grammar : Grammar) (word : String) : Bool :=
  (grammar.commands.lookup word).isSome || (word = "help" && !grammar.commands.isEmpty)

end Grammar

/-- Why a command line is not run. -/
inductive UsageError where
  /-- Help was asked for, about the command at the end of a path. -/
  | helpAsked (path : List String)
  | versionAsked
  /-- Nothing follows the command at the end of a path, though it has commands of its own. -/
  | nothingGiven (path : List String)
  | missingCommand
  | unknownCommand
  | missingWord
  | unknownArgument
  | missingValue
  | unexpectedValue
  | invalidCount
  | repeatedOption
  deriving DecidableEq, Repr

/-- What is wrong below a command, as seen from above it. -/
def UsageError.below (name : String) : UsageError → UsageError
  | .helpAsked path => .helpAsked (name :: path)
  | .nothingGiven path => .nothingGiven (name :: path)
  | error => error

/-- The number that a text denotes: decimal digits, with or without a plus in front. -/
def readCount? (text : String) : Option UInt64 :=
  let digits :=
    match text.toList with
    | '+' :: rest => rest
    | letters => letters
  let number := Nat.ofDigitChars 10 digits 0
  if digits ≠ [] ∧ digits.all Char.isDigit ∧ number < UInt64.size then some (UInt64.ofNat number)
  else none

/-- What an argument looks like. -/
inductive Shape where
  /-- Two dashes alone: only words follow. -/
  | separator
  /-- An option, with the value written to its name by an equals sign. -/
  | long (name : String) (value : Option String)
  /-- A dash and a letter. -/
  | short (letter : Char)
  | word
  deriving DecidableEq, Repr

/-- The shape of an argument. A single dash is a word. -/
def shapeOf (argument : String) : Shape :=
  match argument.toList with
  | ['-', '-'] => .separator
  | '-' :: '-' :: rest =>
      let name := String.ofList (rest.takeWhile fun c => c ≠ '=')
      match rest.dropWhile fun c => c ≠ '=' with
      | [] => .long name none
      | _ :: value => .long name (some (String.ofList value))
  | '-' :: letter :: _ => .short letter
  | _ => .word

/-- One command of a command line, as it was given. -/
structure Level where
  /-- The settled options with their values, in order. -/
  options : List (String × List String)
  words : List String
  deriving DecidableEq, Repr

namespace Level

/-- All values given for an option. -/
def values (level : Level) (name : String) : List String :=
  (level.options.filter fun option => option.1 = name).flatMap Prod.snd

/-- Whether an option was given. -/
def has (level : Level) (name : String) : Bool :=
  level.options.any fun option => option.1 = name

/-- Settle an option with the values given for it. -/
def settle (level : Level) (spec : OptionSpec) (values : List String) :
    Except UsageError Level :=
  if spec.kind ≠ .flag ∧ values = [] then .error .missingValue
  else if !spec.repeatable && level.has spec.name then .error .repeatedOption
  else if spec.kind = .path ∧ values.contains "" then .error .missingValue
  else if spec.kind = .count ∧ values.any fun value => (readCount? value).isNone then
    .error .invalidCount
  else
    let values := if spec.kind = .texts then values.flatMap fun text => text.splitOn "," else values
    .ok { level with options := level.options ++ [(spec.name, values)] }

end Level

/-- How far a command has been read. -/
structure Progress where
  level : Level
  /-- The last option, with its value if that has come, until it is settled. -/
  pending : Option (OptionSpec × Option String)
  /-- Whether only words may follow. -/
  wordsOnly : Bool

namespace Progress

/-- The start of a command. -/
def start : Progress where
  level := ⟨[], []⟩
  pending := none
  wordsOnly := false

/-- Settle the option that is pending. -/
def settle (progress : Progress) : Except UsageError Progress :=
  match progress.pending with
  | none => .ok progress
  | some (spec, value) => do
      let level ← progress.level.settle spec value.toList
      return { progress with level, pending := none }

/-- Whether an option still waits for its value. -/
def awaitsValue (progress : Progress) : Bool :=
  match progress.pending with
  | some (_, none) => true
  | _ => false

/-- Read an option that has been given by its name. -/
def readLong (grammar : Grammar) (progress : Progress) (name : String) (value : Option String) :
    Except UsageError Progress :=
  if name = "help" ∨ (name = "version" ∧ grammar.versioned) then
    if value.isSome then .error .unexpectedValue
    else do
      discard progress.settle
      throw (if name = "help" then .helpAsked [] else .versionAsked)
  else
    match grammar.options.find? fun spec => spec.name = name with
    | none => .error .unknownArgument
    | some spec =>
        match spec.kind, value with
        | .flag, some _ => .error .unexpectedValue
        | .flag, none => do
            let settled ← progress.settle
            return { settled with level := ← settled.level.settle spec [] }
        | _, some value => do
            let settled ← progress.settle
            return { settled with level := ← settled.level.settle spec [value] }
        | _, none => do
            let settled ← progress.settle
            return { settled with pending := some (spec, none) }

/-- Read an option that has been given by its letter. -/
def readShort (grammar : Grammar) (progress : Progress) (letter : Char) :
    Except UsageError Progress :=
  if letter = 'h' ∨ (letter = 'V' ∧ grammar.versioned) then do
    discard progress.settle
    throw (if letter = 'h' then .helpAsked [] else .versionAsked)
  else .error .unknownArgument

/-- Read a word: the value that an option waits for, or the next word of the command. -/
def readWord (grammar : Grammar) (progress : Progress) (word : String) :
    Except UsageError Progress :=
  match progress.wordsOnly, progress.pending with
  | false, some (spec, none) => .ok { progress with pending := some (spec, some word) }
  | _, _ =>
      if progress.level.words.length < grammar.words.length then do
        let settled ← progress.settle
        return { settled with
          level := { settled.level with words := settled.level.words ++ [word] } }
      else if grammar.commands.isEmpty then .error .unknownArgument
      else if progress.wordsOnly && grammar.knows word then .error .unknownArgument
      else .error .unknownCommand

/-- Read an argument that names no command. -/
def read (grammar : Grammar) (progress : Progress) (argument : String) :
    Except UsageError Progress :=
  if progress.wordsOnly then progress.readWord grammar argument
  else
    match shapeOf argument with
    | .separator => .ok { progress with wordsOnly := true }
    | .long name value => progress.readLong grammar name value
    | .short letter => progress.readShort grammar letter
    | .word => progress.readWord grammar argument

/-- The end of a command that names no command below it. -/
def finish (grammar : Grammar) (progress : Progress) : Except UsageError Level := do
  let level := (← progress.settle).level
  if !grammar.commands.isEmpty then
    throw (if level.options.isEmpty then .nothingGiven [] else .missingCommand)
  else if level.words.length < grammar.words.length then throw .missingWord
  else return level

end Progress

/-- What asking for help on a path of commands gives. -/
def helpOn (grammar : Grammar) : List String → UsageError
  | [] => .helpAsked []
  | word :: rest =>
      match grammar.commands.lookup word with
      | some below => (helpOn below rest).below word
      | none => if grammar.knows word && rest.isEmpty then .helpAsked [word] else .unknownCommand

/-- Read a command, from where it has been read so far, and the commands below it. What is wrong
with the commands below is reported before what is pending here. -/
def readLevels (grammar : Grammar) (progress : Progress) :
    List String → Except UsageError (List (Option String × Level))
  | [] => do
      let level ← progress.finish grammar
      return [(none, level)]
  | argument :: rest =>
      let free := !progress.wordsOnly && !progress.awaitsValue
      match if free then grammar.commands.lookup argument else none with
      | some below => do
          let levels ← (readLevels below .start rest).mapError (UsageError.below argument)
          let level := (← progress.settle).level
          return (some argument, level) :: levels
      | none =>
          if free && grammar.knows argument then .error (helpOn grammar rest)
          else do
            let progress ← progress.read grammar argument
            readLevels grammar progress rest

end TableStore.CommandLine
