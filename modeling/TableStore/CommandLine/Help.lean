/-
# Help texts

What a grammar says about one of its commands: what the command is for, how it is called, and
lists of what may follow it. In each list the labels are filled up to the longest one, so that
what is said about them stands in one column.
-/

import TableStore.CommandLine.Grammar

namespace TableStore.CommandLine

/-- Something that may be given, and what is said about it. -/
structure HelpEntry where
  label : String
  summary : String
  deriving DecidableEq, Repr

/-- A list of entries under a title. -/
structure HelpList where
  title : String
  entries : List HelpEntry
  deriving DecidableEq, Repr

/-- A help text. -/
structure HelpPage where
  summary : String
  /-- The words of a call, in order. -/
  usage : List String
  lists : List HelpList
  deriving DecidableEq, Repr

/-- The line of an entry. Its label is filled up to a width, also when nothing follows. -/
def HelpEntry.line (width : Nat) (entry : HelpEntry) : String :=
  "  " ++ String.ofList (entry.label.toList.rightpad width ' ') ++ "  " ++ entry.summary

namespace HelpList

/-- The length of the longest label. -/
def width (list : HelpList) : Nat :=
  list.entries.foldl (fun width entry => max width entry.label.length) 0

/-- The lines of a list, after a blank one. A list without entries is left out. -/
def lines (list : HelpList) : List String :=
  if list.entries.isEmpty then []
  else "" :: (list.title ++ ":") :: list.entries.map (HelpEntry.line list.width)

end HelpList

namespace HelpPage

/-- The lines of a help text. -/
def lines (page : HelpPage) : List String :=
  page.summary :: "" :: ("Usage: " ++ " ".intercalate page.usage) ::
    page.lists.flatMap HelpList.lines

/-- A help text as it is printed. -/
def text (page : HelpPage) : String :=
  String.join (page.lines.map fun line => line ++ "\n")

end HelpPage

/-- A placeholder as it is shown. -/
def angled (placeholder : String) : String :=
  "<" ++ placeholder ++ ">"

/-- What is said about a word. -/
def WordSpec.entry (word : WordSpec) : HelpEntry :=
  ⟨angled word.placeholder, word.summary⟩

/-- What is said about an option. Room is left for a letter. -/
def OptionSpec.entry (option : OptionSpec) : HelpEntry where
  label := "    --" ++ option.name ++
    if option.kind = .flag then "" else " " ++ angled option.placeholder
  summary := option.summary

/-- What is said about the help that goes with commands. -/
def helpCommandEntry : HelpEntry :=
  ⟨"help", "Print this message or the help of the given subcommand(s)"⟩

namespace Grammar

/-- The commands below a command, with the help that goes with them. -/
def commandEntries (grammar : Grammar) : List HelpEntry :=
  if grammar.commands.isEmpty then []
  else grammar.commands.map (fun command => ⟨command.1, command.2.summary⟩) ++ [helpCommandEntry]

/-- The options of a command, with those that ask about the command itself. -/
def optionEntries (grammar : Grammar) : List HelpEntry :=
  grammar.options.map OptionSpec.entry ++ [⟨"-h, --help", "Print help"⟩] ++
    if grammar.versioned then [⟨"-V, --version", "Print version"⟩] else []

/-- The help text of a command that is called by some words. -/
def helpPage (grammar : Grammar) (call : List String) : HelpPage where
  summary := grammar.summary
  usage := call ++ ["[OPTIONS]"] ++ grammar.words.map (fun word => angled word.placeholder) ++
    if grammar.commands.isEmpty then [] else [angled "COMMAND"]
  lists :=
    [⟨"Commands", grammar.commandEntries⟩,
      ⟨"Arguments", grammar.words.map WordSpec.entry⟩,
      ⟨"Options", grammar.optionEntries⟩]

end Grammar

/-- The help text of the help that goes with commands. It takes no options. -/
def helpCommandPage (call : List String) : HelpPage where
  summary := helpCommandEntry.summary
  usage := call ++ ["[COMMAND]..."]
  lists := [⟨"Arguments", [⟨"[COMMAND]...", "Print help for the subcommand(s)"⟩]⟩]

/-- The help text of the command at the end of a path. -/
def HelpPage.ofPath (grammar : Grammar) (call : List String) : List String → HelpPage
  | [] => grammar.helpPage call
  | name :: path =>
      match grammar.commands.lookup name with
      | some below => HelpPage.ofPath below (call ++ [name]) path
      | none => helpCommandPage (call ++ [name])

end TableStore.CommandLine
