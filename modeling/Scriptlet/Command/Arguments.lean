import Scriptlet.Entry
import Scriptlet.Text.Numeral
import Scriptlet.Text.Similarity

namespace Scriptlet.Command

/-- What the words of a command line belong to: the program or one of its
commands. -/
inductive Scope where
  | program
  | check
  | view
  deriving DecidableEq

namespace Scope

def commands : List Scope := [check, view]

def name : Scope → String
  | program => "mvscript"
  | check => "check"
  | view => "view"

/-- The words that begin a command line of this kind. -/
def invocation : Scope → String
  | program => program.name
  | command => program.name ++ " " ++ command.name

/-- What may follow those words. -/
def synopsis : Scope → String
  | program => "[OPTIONS] COMMAND [ARGS]..."
  | check => "[OPTIONS] [PATH]"
  | view => "[OPTIONS] [FILE]"

/-- The options and whether they take a value. -/
def options : Scope → List (String × Bool)
  | program => [("--version", false), ("--help", false)]
  | check => [("--help", false)]
  | view =>
    [("--entry", true), ("--stdin", false), ("--color", false), ("--no-color", false),
      ("--help", false)]

/-- Whether options may stand behind other words. -/
def isInterspersed : Scope → Bool
  | program => false
  | _ => true

end Scope

/-- What is wrong with a command line. -/
inductive Misuse where
  | missingCommand
  | unknownCommand (name : String)
  | unknownOption (name : String) (similar : List String)
  | missingValue (option : String)
  | needlessValue (option : String)
  | unknownEntry (name : String)
  | missingFile (path : String)
  | directoryForFile (path : String)
  | forbiddenFile (path : String)
  | missingPath (path : String)
  | forbiddenPath (path : String)
  | extraArguments (arguments : List String)
  | nothingToView
  deriving DecidableEq

namespace Misuse

/-- Alternatives to an option that there is not. -/
def suggestion : List String → String
  | [] => ""
  | [option] => " Did you mean " ++ option ++ "?"
  | options => " (Possible options: " ++ ", ".intercalate options ++ ")"

def message : Misuse → String
  | missingCommand => "Missing command."
  | unknownCommand name => "No such command " ++ Text.quoted name ++ "."
  | unknownOption name similar => "No such option: " ++ name ++ suggestion similar
  | missingValue option => "Option " ++ Text.quoted option ++ " requires an argument."
  | needlessValue option => "Option " ++ Text.quoted option ++ " does not take a value."
  | unknownEntry name =>
    "Invalid value for '--entry': " ++ Text.quoted name ++ " is not one of " ++
      ", ".intercalate (Entry.all.map fun entry => Text.quoted entry.name) ++ "."
  | missingFile path =>
    "Invalid value for '[FILE]': File " ++ Text.quoted path ++ " does not exist."
  | directoryForFile path =>
    "Invalid value for '[FILE]': File " ++ Text.quoted path ++ " is a directory."
  | forbiddenFile path =>
    "Invalid value for '[FILE]': File " ++ Text.quoted path ++ " is not readable."
  | missingPath path =>
    "Invalid value for '[PATH]': Path " ++ Text.quoted path ++ " does not exist."
  | forbiddenPath path =>
    "Invalid value for '[PATH]': Path " ++ Text.quoted path ++ " is not readable."
  | extraArguments [argument] => "Got unexpected extra argument (" ++ argument ++ ")"
  | extraArguments arguments =>
    "Got unexpected extra arguments (" ++ " ".intercalate arguments ++ ")"
  | nothingToView => "pass a FILE or --stdin"

/-- Whether the usage of the command is shown together with the message. -/
def showsUsage : Misuse → Bool
  | missingValue _ => false
  | needlessValue _ => false
  | _ => true

end Misuse

/-- A command line taken apart: the options in order, each with its value if it
takes one, and the other words. -/
structure Words where
  options : List (String × String)
  others : List String

namespace Words

/-- The value that an option is given last. -/
def value? (words : Words) (option : String) : Option String :=
  words.options.reverse.lookup option

def has (words : Words) (option : String) : Bool :=
  (words.value? option).isSome

end Words

/-- A word in front of and behind its first equals sign. -/
def splitValue (word : String) : String × Option String :=
  match word.toList.dropWhile (· ≠ '=') with
  | [] => (word, none)
  | _ :: value =>
    (String.ofList (word.toList.takeWhile (· ≠ '=')), some (String.ofList value))

/-- The complaint about a word that begins like an option. Behind a single dash
only one character is looked at. -/
def notAnOption (scope : Scope) (word : String) : Misuse :=
  match word.toList with
  | '-' :: c :: _ =>
    if c = '-' then
      let name := (splitValue word).1
      .unknownOption name (Text.closeMatches name (scope.options.map Prod.fst))
    else .unknownOption (String.ofList ['-', c]) []
  | _ => .unknownOption word []

/-- Whether a word begins like an option. A dash alone does not. -/
def looksLikeOption (word : String) : Bool :=
  match word.toList with
  | '-' :: _ :: _ => true
  | _ => false

/-- An option and its value behind those found before. -/
def Words.addOption (words : Words) (name value : String) : Words :=
  { words with options := words.options ++ [(name, value)] }

/-- Takes a command line apart. Behind two dashes there are no options, and
where options have to come first there are none behind the first other word.
An option without value of its own takes the next word. -/
def takeApart (scope : Scope) (found : Words) : List String → Except Misuse Words
  | [] => .ok found
  | word :: rest =>
    if word = "--" then .ok { found with others := found.others ++ rest }
    else if looksLikeOption word then
      let (name, value) := splitValue word
      match scope.options.lookup name with
      | none => .error (notAnOption scope word)
      | some false =>
        match value with
        | some _ => .error (.needlessValue name)
        | none => takeApart scope (found.addOption name "") rest
      | some true =>
        match value with
        | some value => takeApart scope (found.addOption name value) rest
        | none =>
          match rest with
          | [] => .error (.missingValue name)
          | value :: later => takeApart scope (found.addOption name value) later
    else if scope.isInterspersed then
      takeApart scope { found with others := found.others ++ [word] } rest
    else .ok { found with others := found.others ++ word :: rest }

/-- What `view` is asked for. -/
structure ViewRequest where
  file : Option String
  entry : Entry
  useInput : Bool
  color : Bool
  extra : List String

/-- What a command line asks for. Words that no command takes are kept, for they
are only refused after the path in front of them. -/
inductive Request where
  | version
  | help (scope : Scope)
  | check (path : String) (extra : List String)
  | view (request : ViewRequest)

/-- What is wrong with a command line, and the command concerned. -/
structure UsageError where
  scope : Scope
  misuse : Misuse

namespace Request

/-- A request for help or for the version counts at once, the first one of
several. -/
def immediate? (scope : Scope) (words : Words) : Option Request :=
  words.options.findSome? fun (name, _) =>
    if name = "--help" then some (.help scope)
    else if name = "--version" then some .version
    else none

/-- The colour option that is given last counts; without any there is colour. -/
def colorOf (words : Words) : Bool :=
  match words.options.reverse.find? fun option =>
      option.1 = "--color" || option.1 = "--no-color" with
  | some option => option.1 = "--color"
  | none => true

def ofViewWords (words : Words) : Except Misuse Request := do
  let name := (words.value? "--entry").getD Entry.program.name
  match Entry.ofName? name with
  | none => .error (.unknownEntry name)
  | some entry =>
    return .view {
      file := words.others.head?
      entry := entry
      useInput := words.has "--stdin"
      color := colorOf words
      extra := words.others.drop 1 }

def ofCheckWords (words : Words) : Request :=
  .check (words.others.headD ".") (words.others.drop 1)

/-- The words behind the name of a command. -/
def ofCommand (scope : Scope) (arguments : List String) : Except UsageError Request :=
  let read : Except Misuse Request := do
    let words ← takeApart scope ⟨[], []⟩ arguments
    match immediate? scope words with
    | some request => return request
    | none =>
      match scope with
      | .view => ofViewWords words
      | _ => return ofCheckWords words
  read.mapError (UsageError.mk scope)

/-- What a name that no command has comes to. A name that begins with neither a
letter nor a numeral cannot be one, and is answered like an empty command line. -/
def ofUnknown (name : String) : Except Misuse Request :=
  match name.toList with
  | [] => .error (.unknownCommand name)
  | c :: _ =>
    if Text.isLetter c || Text.isNumeral c then .error (.unknownCommand name)
    else .ok (.help .program)

/-- The words of a whole command line. -/
def ofArguments (arguments : List String) : Except UsageError Request :=
  if arguments.isEmpty then .ok (.help .program)
  else
    match takeApart .program ⟨[], []⟩ arguments with
    | .error misuse => .error ⟨.program, misuse⟩
    | .ok words =>
      match immediate? .program words with
      | some request => .ok request
      | none =>
        match words.others with
        | [] => .error ⟨.program, .missingCommand⟩
        | name :: rest =>
          match Scope.commands.find? fun scope => scope.name = name with
          | some scope => ofCommand scope rest
          | none => (ofUnknown name).mapError (UsageError.mk .program)

end Request

end Scriptlet.Command
