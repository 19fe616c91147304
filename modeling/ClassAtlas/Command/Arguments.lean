import ClassAtlas.Analysis

/-!
# Command line arguments

Options have a long name and perhaps a letter. A value follows in the next argument, after an
equals sign, or right after the letter; several letters can share a dash. Two dashes alone end the
options. Options for all commands can stand before or after the command's name. An option that
does not repeat stands once in each of the two places.
-/

namespace ClassAtlas.Command

/-- How results are printed. -/
inductive OutputForm
  | text
  | json
  | compact
  deriving DecidableEq, Repr

/-- The form with a given word. -/
def OutputForm.ofWord? : String → Option OutputForm
  | "text" => some text
  | "json" => some json
  | "compact" => some compact
  | _ => none

/-- What to do. -/
inductive Task
  | check (input : AnalysisInput) (form : OutputForm) (rules : Option String)
  | classes (input : AnalysisInput) (package : Option String) (all : Bool) (form : OutputForm)
  | listRules
  | init (force : Bool)
  deriving DecidableEq, Repr

/-- What to do, with the options for all commands. -/
structure Invocation where
  task : Task
  config : Option String
  verbose : Bool
  deriving DecidableEq, Repr

/-- Why arguments do not name a task. -/
inductive Stop
  | usage
  | help
  | version
  deriving DecidableEq, Repr

/-- The options of all commands. -/
inductive OptionKey
  | verbose
  | config
  | dependency
  | exclude
  | format
  | rules
  | package
  | all
  | force
  | help
  | version
  deriving DecidableEq, Repr

namespace OptionKey

/-- The long name of an option. -/
def long : OptionKey → String
  | verbose => "verbose"
  | config => "config"
  | dependency => "dependency"
  | exclude => "exclude"
  | format => "format"
  | rules => "rules"
  | package => "package"
  | all => "all"
  | force => "force"
  | help => "help"
  | version => "version"

/-- The letter of an option. -/
def letter? : OptionKey → Option Char
  | verbose => some 'v'
  | config => some 'c'
  | dependency => some 'd'
  | exclude => some 'e'
  | format => some 'f'
  | package => some 'p'
  | help => some 'h'
  | version => some 'V'
  | rules | all | force => none

/-- Whether an option takes a value. -/
def takesValue : OptionKey → Bool
  | config | dependency | exclude | format | rules | package => true
  | verbose | all | force | help | version => false

/-- Whether an option can stand more than once. -/
def repeats : OptionKey → Bool
  | dependency | exclude => true
  | _ => false

/-- Whether an option can have a value. Paths are not empty. -/
def accepts (value : String) : OptionKey → Bool
  | config | dependency => value ≠ ""
  | format => (OutputForm.ofWord? value).isSome
  | _ => true

end OptionKey

/-- The options and other arguments of one place. -/
structure Parsed where
  options : List (OptionKey × String) := []
  others : List String := []
  deriving DecidableEq, Repr

namespace Parsed

/-- The values of an option in order. -/
def values (parsed : Parsed) (key : OptionKey) : List String :=
  (parsed.options.filter fun option => option.1 = key).map Prod.snd

/-- The value of an option. -/
def value? (parsed : Parsed) (key : OptionKey) : Option String := (parsed.values key).head?

/-- Whether an option is given. -/
def has (parsed : Parsed) (key : OptionKey) : Bool := !(parsed.values key).isEmpty

/-- Add an option. -/
def add (parsed : Parsed) (key : OptionKey) (value : String) : Except Stop Parsed :=
  match key with
  | .help => .error .help
  | .version => .error .version
  | _ =>
    if (parsed.has key && !key.repeats) || !key.accepts value then .error .usage
    else .ok { parsed with options := parsed.options ++ [(key, value)] }

end Parsed

/-- Take the value of an option from the next argument, which must not look like an option. -/
def nextValue : List String → Except Stop (String × List String)
  | value :: rest =>
    if value.startsWith "-" && value ≠ "-" then .error .usage else .ok (value, rest)
  | [] => .error .usage

/-- Read a long option; the two dashes are gone. -/
def longOption (keys : List OptionKey) (parsed : Parsed) (letters : List Char)
    (rest : List String) : Except Stop (Parsed × List String) := do
  let (name, attached) := match Name.splitFirst '=' letters with
    | some (name, value) => (String.ofList name, some (String.ofList value))
    | none => (String.ofList letters, none)
  match keys.find? fun key => key.long = name with
  | none => throw .usage
  | some key =>
    match key.takesValue, attached with
    | true, some value => return (← parsed.add key value, rest)
    | true, none =>
      let (value, rest) ← nextValue rest
      return (← parsed.add key value, rest)
    | false, none => return (← parsed.add key "", rest)
    | false, some _ => throw .usage

/-- Read options by their letters; the dash is gone. -/
def letterOptions (keys : List OptionKey) (parsed : Parsed) (letters : List Char)
    (rest : List String) : Except Stop (Parsed × List String) :=
  match letters with
  | [] => .ok (parsed, rest)
  | letter :: more =>
    match keys.find? fun key => key.letter? = some letter with
    | none => .error .usage
    | some key =>
      if key.takesValue then do
        let (value, rest) ← match more with
          | [] => nextValue rest
          | '=' :: value => pure (String.ofList value, rest)
          | value => pure (String.ofList value, rest)
        return (← parsed.add key value, rest)
      else do letterOptions keys (← parsed.add key "") more rest

/-- Read options up to the first other argument. Two dashes alone are left in place. -/
def leadingOptions (keys : List OptionKey) :
    Nat → Parsed → List String → Except Stop (Parsed × List String)
  | 0, parsed, arguments => .ok (parsed, arguments)
  | _, parsed, [] => .ok (parsed, [])
  | rounds + 1, parsed, argument :: rest =>
    match argument.toList with
    | ['-'] | ['-', '-'] => .ok (parsed, argument :: rest)
    | '-' :: '-' :: letters => do
      let (parsed, rest) ← longOption keys parsed letters rest
      leadingOptions keys rounds parsed rest
    | '-' :: letters => do
      let (parsed, rest) ← letterOptions keys parsed letters rest
      leadingOptions keys rounds parsed rest
    | _ => .ok (parsed, argument :: rest)

/-- Read options and other arguments in any order; each other argument has to pass a test. -/
def mixedArguments (keys : List OptionKey) (test : String → Bool) :
    Nat → Parsed → List String → Except Stop Parsed
  | 0, parsed, _ => .ok parsed
  | rounds + 1, parsed, arguments => do
    let (parsed, rest) ← leadingOptions keys arguments.length parsed arguments
    match rest with
    | [] => return parsed
    | "--" :: others =>
      if others.all test then return { parsed with others := parsed.others ++ others }
      else throw .usage
    | other :: rest =>
      if test other then
        mixedArguments keys test rounds { parsed with others := parsed.others ++ [other] } rest
      else throw .usage

/-- The options for all commands. -/
def sharedKeys : List OptionKey := [.verbose, .config, .help]

/-- Read the arguments after a command's name. -/
def commandArguments (keys : List OptionKey) (test : String → Bool) (arguments : List String) :
    Except Stop Parsed :=
  mixedArguments (keys ++ sharedKeys) test (arguments.length + 1) {} arguments

/-- The locations and patterns among parsed arguments. -/
def Parsed.input (parsed : Parsed) : AnalysisInput :=
  { classpath := parsed.others
    dependencies := parsed.values .dependency
    exclude := parsed.values .exclude }

/-- The form of output, by default a text. -/
def Parsed.form (parsed : Parsed) : OutputForm :=
  ((parsed.value? .format).bind OutputForm.ofWord?).getD .text

/-- The names of the commands. -/
def commandNames : List String := ["check", "classes", "list-rules", "init", "help"]

/-- Whether help can be had on what is named: on all commands or on one of them. -/
def isHelpTopic : List String → Bool
  | [] => true
  | [name] => commandNames.contains name
  | _ => false

/-- Read the arguments of a named command. -/
def task (name : String) (arguments : List String) : Except Stop (Task × Parsed) := do
  let path (argument : String) : Bool := argument ≠ ""
  let nothing (_ : String) : Bool := false
  match name with
  | "check" =>
    let parsed ← commandArguments [.dependency, .exclude, .format, .rules] path arguments
    return (.check parsed.input parsed.form (parsed.value? .rules), parsed)
  | "classes" =>
    let parsed ← commandArguments [.dependency, .exclude, .package, .all, .format] path arguments
    return (.classes parsed.input (parsed.value? .package) (parsed.has .all) parsed.form, parsed)
  | "list-rules" =>
    let parsed ← commandArguments [] nothing arguments
    return (.listRules, parsed)
  | "init" =>
    let parsed ← commandArguments [.force] nothing arguments
    return (.init (parsed.has .force), parsed)
  | "help" => throw (if isHelpTopic arguments then .help else .usage)
  | _ => throw .usage

/-- Read all arguments. The settings file can also be named by the environment, where an empty
text is refused. The environment is looked at unless the option stands in both of its places. -/
def parse (environment : Option String) (arguments : List String) : Except Stop Invocation := do
  let (shared, rest) ← leadingOptions (.version :: sharedKeys) arguments.length {} arguments
  match rest with
  | [] => throw .usage
  | name :: rest =>
    let (task, parsed) ← task name rest
    if environment = some "" && !(shared.has .config && parsed.has .config) then throw .usage
    return {
      task
      config := (parsed.value? .config).or ((shared.value? .config).or environment)
      verbose := shared.has .verbose || parsed.has .verbose }

end ClassAtlas.Command
