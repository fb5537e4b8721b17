import Mosaic.Document
import Mosaic.Output.Formats
import Mosaic.Settings.Loader

/-! The command line: a file is read with settings from several layers and put out in a format. -/
namespace Mosaic.CommandLine

/-- What the arguments have chosen so far. -/
structure Choices where
  path : Option String
  template : Bool
  config : Option String
  left : Option String
  right : Option String
  format : Option String
  listFormats : Bool
deriving DecidableEq

def Choices.none : Choices := ⟨.none, false, .none, .none, .none, .none, false⟩

/-- An option that takes a value. -/
inductive Setting where
  | config
  | left
  | right
  | format
deriving DecidableEq

inductive Argument where
  | plain (value : String)
  | template
  | listFormats
  | help
  | version
  /-- An option, perhaps with its value. -/
  | setting (setting : Setting) (value : Option String)
  | unknown
deriving DecidableEq

inductive Request where
  | run (choices : Choices)
  | help
  | version
  | misuse
deriving DecidableEq

def settingOfLong? (name : String) : Option Setting :=
  if name = "config" then some .config
  else if name = "tpl-ld" then some .left
  else if name = "tpl-rd" then some .right
  else if name = "format" then some .format
  else none

def longArgument (body : List Char) : Argument :=
  let name := String.ofList (body.takeWhile (· ≠ '='))
  let value := match body.dropWhile (· ≠ '=') with
    | _ :: value => some (String.ofList value)
    | [] => none
  match settingOfLong? name, value with
  | some setting, value => .setting setting value
  | none, some _ => .unknown
  | none, none =>
    if name = "tpl" then .template
    else if name = "list-formats" then .listFormats
    else if name = "help" then .help
    else if name = "version" then .version
    else .unknown

/-- The value behind the letter of an option. -/
def attachedValue? : List Char → Option String
  | [] => none
  | '=' :: value => some (String.ofList value)
  | value => some (String.ofList value)

def shortArgument (letter : Char) (rest : List Char) : Argument :=
  if letter = 'c' then .setting .config (attachedValue? rest)
  else if letter = 'f' then .setting .format (attachedValue? rest)
  else if letter = 'h' then .help
  else if letter = 'V' then .version
  else .unknown

/-- What an argument is, where options are still looked for. -/
def argument (arg : String) : Argument :=
  match arg.toList with
  | '-' :: '-' :: body => longArgument body
  | '-' :: letter :: rest => shortArgument letter rest
  | _ => .plain arg

namespace Choices

def setPath? (c : Choices) (path : String) : Option Choices :=
  if c.path.isSome then .none else some { c with path }

def set? (c : Choices) (setting : Setting) (value : String) : Option Choices :=
  match setting with
  | .config => if c.config.isSome then .none else some { c with config := value }
  | .left => if c.left.isSome then .none else some { c with left := value }
  | .right => if c.right.isSome then .none else some { c with right := value }
  | .format => if c.format.isSome then .none else some { c with format := value }

def askTemplate? (c : Choices) : Option Choices :=
  if c.template then .none else some { c with template := true }

def askList? (c : Choices) : Option Choices :=
  if c.listFormats then .none else some { c with listFormats := true }

end Choices

/-- The request that is complete after the last argument: a path, or the list of formats. -/
def complete (c : Choices) : Request := if c.path.isSome ∨ c.listFormats then .run c else .misuse

def readPlain (c : Choices) : List String → Request
  | [] => complete c
  | arg :: rest =>
    match c.setPath? arg with
    | some c => readPlain c rest
    | none => .misuse

/-- What arguments ask for. A value may not look like an option, and two dashes end the
options. -/
def readArguments (c : Choices) : List String → Request
  | [] => complete c
  | "--" :: rest => readPlain c rest
  | arg :: rest =>
    let go (next : Option Choices) : Request :=
      match next with
      | some c => readArguments c rest
      | none => .misuse
    match argument arg with
    | .plain value => go (c.setPath? value)
    | .template => go c.askTemplate?
    | .listFormats => go c.askList?
    | .help => .help
    | .version => .version
    | .unknown => .misuse
    | .setting setting (some value) => go (c.set? setting value)
    | .setting setting none =>
      match rest with
      | [] => .misuse
      | value :: more =>
        match argument value, c.set? setting value with
        | .plain _, some c => readArguments c more
        | _, _ => .misuse

/-- What all arguments ask for; without any there is nothing to do. -/
def request (args : List String) : Request :=
  if args.isEmpty then .misuse else readArguments .none args

/-- What the program prints and the code it ends with. -/
structure Outcome where
  code : Nat
  output : String
  errors : String
deriving DecidableEq

def done (output : String) : Outcome := ⟨0, output, ""⟩

def failed (reason : String) : Outcome := ⟨1, "", "Error: " ++ reason ++ "\n"⟩

def usage : String :=
  "Usage: weft <path> [--tpl] [--config <file>] [--tpl-ld <ld>] [--tpl-rd <rd>] " ++
    "[--format <format>]\n       weft --list-formats\n"

def formatList : String :=
  "Available formats:\n\n" ++ String.join (Formats.builtin.entries.map fun format =>
    "  " ++ format.name ++ "\n    " ++ format.description ++ "\n\n")

/-- The file with settings that is looked for where the program runs. -/
def localSettings : String := "weft.toml"

def loader? (c : Choices) : Option Settings.Loader := do
  let loader := Settings.Loader.standard.withOptionalFile localSettings
  let loader := c.config.elim loader loader.withFile
  let loader ← c.left.elim (some loader) fun left => loader.setOverride? "tpl.ld" (.text left)
  c.right.elim (some loader) fun right => loader.setOverride? "tpl.rd" (.text right)

def showFile (files : Files) (c : Choices) (path : String) : Outcome :=
  match (loader? c).bind (·.build? files) with
  | none => failed "Config error: the settings cannot be read"
  | some config =>
    match (files path).read with
    | .error reason => failed ("IO error: " ++ reason)
    | .ok content =>
      let file : SourceFile := ⟨path, if c.template then [templateProperty] else []⟩
      match file.parse .builtin config content with
      | .error e => failed e.text
      | .ok ast =>
        match Formats.builtin.serialize (c.format.getD Format.treeView.name) ast with
        | .ok output => done output
        | .error e =>
          failed (e.text ++ "\nAvailable formats: " ++ ", ".intercalate Formats.builtin.names)

def run (files : Files) (args : List String) : Outcome :=
  match request args with
  | .help => done usage
  | .version => done "weft 0.1.0\n"
  | .misuse => ⟨2, "", usage⟩
  | .run c =>
    if c.listFormats then done formatList
    else
      match c.path with
      | some path => showFile files c path
      | none => ⟨2, "", usage⟩

/-- The paths that a run looks at. -/
def paths (args : List String) : List String :=
  match request args with
  | .run c =>
    let settings := localSettings :: c.config.toList
    settings ++ settings.filterMap Settings.fullName? ++ c.path.toList
  | _ => []

end Mosaic.CommandLine
