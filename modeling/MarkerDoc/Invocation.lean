import MarkerDoc.Path

/-!
# The command line

A command line names one of three commands, with options before or after it.  The two general
options may be given on either side of the command; what is given after it counts.

Arguments are bytes, like the paths among them.  Options are written `--name value`,
`--name=value`, `-n value`, `-nvalue` or `-n=value`, and short flags may share a hyphen.  Everything
after `--` is taken as it stands.  An option that is given twice on the same side, a missing value,
an empty path, a filter that is no text and anything unknown are usage errors.  The flags for help
and version answer as soon as they are met, if nothing before them is wrong.
-/

namespace MarkerDoc

/-- What the program is asked to do. -/
inductive Task where
  | doc (path : Path) (output : Option Path)
  | test (path : Path) (filter : Option String)
  | dump (path : Path)
deriving DecidableEq

/-- A task with the general options. -/
structure Invocation where
  settings : Option Path
  verbose : Bool
  task : Task
deriving DecidableEq

/-- The pages of help. -/
inductive HelpTopic where
  | general
  | doc
  | test
  | dump
  | help
deriving DecidableEq

/-- What a command line comes to. -/
inductive Request where
  | run (invocation : Invocation)
  | version
  | help (topic : HelpTopic)
  | usageError
deriving DecidableEq

namespace Request

/-- The options that exist. -/
inductive Flag where
  | config
  | verbose
  | output
  | filter
  | help
  | version
deriving DecidableEq

/-- Whether an option is followed by a value. -/
def Flag.takesValue : Flag → Bool
  | .config | .output | .filter => true
  | _ => false

/-- Whether a value that names a file is expected. -/
def Flag.takesPath : Flag → Bool
  | .config | .output => true
  | _ => false

/-- Whether a value that is a text is expected. -/
def Flag.takesText : Flag → Bool
  | .filter => true
  | _ => false

def Flag.long : Flag → String
  | .config => "config"
  | .verbose => "verbose"
  | .output => "output"
  | .filter => "filter"
  | .help => "help"
  | .version => "version"

def Flag.short : Flag → Char
  | .config => 'c'
  | .verbose => 'v'
  | .output => 'o'
  | .filter => 'f'
  | .help => 'h'
  | .version => 'V'

/-- The side of the command line that is being read. -/
structure Level where
  topic : HelpTopic
  flags : List Flag
  /-- How many plain arguments are accepted. -/
  plain : Nat
deriving DecidableEq

def Level.general : Level :=
  ⟨.general, [.config, .verbose, .help, .version], 0⟩

def Level.ofName? : String → Option Level
  | "doc" => some ⟨.doc, [.output, .config, .verbose, .help], 1⟩
  | "test" => some ⟨.test, [.filter, .config, .verbose, .help], 1⟩
  | "dump" => some ⟨.dump, [.config, .verbose, .help], 1⟩
  | _ => none

/-- What has been read on one side. -/
structure Given where
  values : List (Flag × String) := []
  plain : List String := []
deriving DecidableEq

def Given.value? (g : Given) (f : Flag) : Option String :=
  (g.values.find? (·.1 == f)).map (·.2)

/-- Why reading stopped early. -/
inductive Interruption where
  | usage
  | help
  | version
deriving DecidableEq

/-- Records an option with its value, which is empty for a flag. -/
def Given.record (g : Given) (f : Flag) (value : String) : Except Interruption Given :=
  if f = .help then .error .help
  else if f = .version then .error .version
  else if (g.value? f).isSome then .error .usage
  else if f.takesPath && value == "" then .error .usage
  else if f.takesText && (Bytes.toText? value).isNone then .error .usage
  else .ok { g with values := g.values ++ [(f, value)] }

/-- Records an argument that is no option. -/
def Given.recordPlain (level : Level) (g : Given) (value : String) : Except Interruption Given :=
  if g.plain.length < level.plain && value != "" then
    .ok { g with plain := g.plain ++ [value] }
  else .error .usage

/-- Reads a group of short options.  An option that still waits for its value is handed back. -/
def shortGroup (level : Level) (g : Given) : List Char → Except Interruption (Given × Option Flag)
  | [] => .ok (g, none)
  | c :: cs =>
    match level.flags.find? (·.short == c) with
    | none => .error .usage
    | some f =>
      if f.takesValue then
        match cs with
        | [] => .ok (g, some f)
        | '=' :: value => (g.record f (String.ofList value)).map (·, none)
        | value => (g.record f (String.ofList value)).map (·, none)
      else do shortGroup level (← g.record f "") cs

/-- Reads a long option, without its hyphens. -/
def longOption (level : Level) (g : Given) (text : String) :
    Except Interruption (Given × Option Flag) :=
  let name := String.ofList (text.toList.takeWhile (· != '='))
  let value := (text.toList.drop name.length).tail?.map String.ofList
  match level.flags.find? (·.long == name), value with
  | none, _ => .error .usage
  | some f, some value =>
    if f.takesValue then (g.record f value).map (·, none) else .error .usage
  | some f, none =>
    if f.takesValue then .ok (g, some f) else (g.record f "").map (·, none)

/-- Whether an argument is written like an option. -/
def looksLikeOption (arg : String) : Bool :=
  match arg.toList with
  | '-' :: _ :: _ => true
  | _ => false

/-- Reads the options of one side.  `pending` is an option that waits for its value.  Where the
general options are read, the name of a command ends them; the answer then holds the command and
the arguments after it. -/
def readArgs (level : Level) (g : Given) (pending : Option Flag) :
    List String → Except Interruption (Given × Option (String × List String))
  | [] => if pending.isSome then .error .usage else .ok (g, none)
  | arg :: args =>
    match pending with
    | some f =>
      if looksLikeOption arg then .error .usage
      else do readArgs level (← g.record f arg) none args
    | none =>
      if arg = "--" then
        (args.foldlM (Given.recordPlain level) g).map (·, none)
      else
        match Text.stripStart? "--" arg with
        | some text => do
          let (g, pending) ← longOption level g text
          readArgs level g pending args
        | none =>
          if looksLikeOption arg then do
            let (g, pending) ← shortGroup level g (arg.toList.drop 1)
            readArgs level g pending args
          else if level.topic = .general then .ok (g, some (arg, args))
          else do readArgs level (← g.recordPlain level arg) none args

/-- The answer to an interruption on the side of a topic. -/
def ofInterruption (topic : HelpTopic) : Interruption → Request
  | .usage => .usageError
  | .help => .help topic
  | .version => .version

/-- The task that the arguments after a command describe. -/
def task (topic : HelpTopic) (g : Given) : Task :=
  let path : Path := ⟨g.plain.head?.getD "."⟩
  match topic with
  | .doc => .doc path ((g.value? .output).map Path.mk)
  | .test => .test path ((g.value? .filter).map Bytes.toText)
  | _ => .dump path

/-- The page of help that is asked for by name. -/
def helpOn : List String → Request
  | [] => .help .general
  | ["doc"] => .help .doc
  | ["test"] => .help .test
  | ["dump"] => .help .dump
  | ["help"] => .help .help
  | _ => .usageError

/-- What the program answers when it is asked for its version. -/
def versionText : String := "hashdoc 0.3.0\n"

/-- The general options in print. -/
def generalHelp : String :=
  "  -c, --config <CONFIG>  Configuration file (defaults to hashdoc.toml in the project root)\n" ++
  "  -v, --verbose          Enable debug logging\n" ++
  "  -h, --help             Print help\n"

/-- The plain argument of every command in print. -/
def pathHelp : String :=
  "Arguments:\n  [PATH]  Path to a source file or project directory [default: .]\n\n"

/-- A page of help. -/
def helpText : HelpTopic → String
  | .general =>
    "Documentation and embedded tests from ### comments\n\n" ++
    "Usage: hashdoc [OPTIONS] <COMMAND>\n\n" ++
    "Commands:\n" ++
    "  doc   Generate Markdown documentation\n" ++
    "  test  Run the tests embedded in doc comments\n" ++
    "  dump  Print the extracted records as JSON\n" ++
    "  help  Print this message or the help of the given subcommand(s)\n\n" ++
    "Options:\n" ++ generalHelp ++
    "  -V, --version          Print version\n"
  | .doc =>
    "Generate Markdown documentation\n\nUsage: hashdoc doc [OPTIONS] [PATH]\n\n" ++ pathHelp ++
    "Options:\n" ++
    "  -o, --output <OUTPUT>  Output directory for generated documentation\n" ++ generalHelp
  | .test =>
    "Run the tests embedded in doc comments\n\nUsage: hashdoc test [OPTIONS] [PATH]\n\n" ++
    pathHelp ++ "Options:\n" ++
    "  -f, --filter <FILTER>  Only run modules whose package name contains this string\n" ++
    generalHelp
  | .dump =>
    "Print the extracted records as JSON\n\nUsage: hashdoc dump [OPTIONS] [PATH]\n\n" ++
    pathHelp ++ "Options:\n" ++ generalHelp
  | .help =>
    "Print this message or the help of the given subcommand(s)\n\n" ++
    "Usage: hashdoc help [COMMAND]...\n\n" ++
    "Arguments:\n  [COMMAND]...  Print help for the subcommand(s)\n"

/-- Reads a command line. -/
def ofArgs (args : List String) : Request :=
  match readArgs .general {} none args with
  | .error i => ofInterruption .general i
  | .ok (_, none) => .usageError
  | .ok (general, some (command, rest)) =>
    if command = "help" then helpOn rest
    else
      match Level.ofName? command with
      | none => .usageError
      | some level =>
        match readArgs level {} none rest with
        | .error i => ofInterruption level.topic i
        | .ok (g, _) =>
          .run {
            settings := ((g.value? .config).or (general.value? .config)).map Path.mk
            verbose := (g.value? .verbose).isSome || (general.value? .verbose).isSome
            task := task level.topic g }

end Request

end MarkerDoc
