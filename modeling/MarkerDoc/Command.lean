import MarkerDoc.Discovery
import MarkerDoc.Invocation
import MarkerDoc.Report
import MarkerDoc.Settings.Read
import MarkerDoc.TestRun.Process

/-!
# Commands

A command works on a session: a disk, what has been printed, and what test commands have complained
about.  It ends well or with an error; either way the session holds what was done until then.

Running test scripts is left to a runner, an action on the session.
-/

namespace MarkerDoc

/-- A disk together with what has been printed. -/
structure Session where
  disk : Disk
  printed : String := ""
  /-- The messages about errors that test commands have left. -/
  complaints : String := ""
deriving DecidableEq

def Session.print (s : Session) (text : String) : Session :=
  { s with printed := s.printed ++ text }

def Session.complain (s : Session) (text : String) : Session :=
  { s with complaints := s.complaints ++ text }

/-- Why a command failed. -/
inductive CommandError where
  | settingsFile (file : Path)
  | settingsRoot (root : Path)
  | noSuchPath (path : Path)
  | nothingFound (path : Path)
  | outputDir (dir : Path)
  | pageDir (dir : Path)
  | page (file : Path)
  | indexPage (file : Path)
  | nothingGenerated
  | testsFailed
  | unprintableRecord
deriving DecidableEq

def CommandError.message : CommandError → String
  | .settingsFile file => "Failed to load config '" ++ file.display ++ "'"
  | .settingsRoot root => "Failed to load config from '" ++ root.display ++ "'"
  | .noSuchPath path => "Path '" ++ path.display ++ "' does not exist"
  | .nothingFound path => "No source or document files found in '" ++ path.display ++ "'"
  | .outputDir dir => "Failed to create output directory '" ++ dir.display ++ "'"
  | .pageDir dir => "Failed to create '" ++ dir.display ++ "'"
  | .page file => "Failed to write '" ++ file.display ++ "'"
  | .indexPage file => "Failed to write index '" ++ file.display ++ "'"
  | .nothingGenerated => "No documentation was generated"
  | .testsFailed => "Some tests failed"
  | .unprintableRecord => "path contains invalid UTF-8 characters"

/-- The exit code of a failed command.  A record that cannot be printed is not expected, and stops
the program short. -/
def CommandError.exitCode : CommandError → Nat
  | .unprintableRecord => 101
  | _ => 1

/-- What is said about a failed command. -/
def CommandError.complaint (e : CommandError) : String :=
  (if e.exitCode = 1 then "Error: " else "") ++ e.message ++ "\n"

/-- An error, with the session as it was left. -/
structure Failure where
  session : Session
  error : CommandError
deriving DecidableEq

/-- What a runner does to a session. -/
abbrev Runner := Settings → Script → Path → StateM Session (Except TestError Finish)

/-- The runner that asks a host. -/
def Runner.ofHost (host : Host (StateM Session)) : Runner :=
  fun settings => host.runner settings.test

namespace Disk

/-- The name of the settings file of a project. -/
def settingsName : String := "hashdoc.toml"

/-- Reads settings from a file. -/
def settingsAt (d : Disk) (file : Path) : Except SettingsError Settings :=
  match d.read file with
  | .error cause => .error (.unreadable cause)
  | .ok text => Settings.parse text

/-- The settings of a project: those of its settings file, or the defaults if it has none. -/
def settingsOf (d : Disk) (root : Path) : Except SettingsError Settings :=
  let file := root.join ⟨settingsName⟩
  if d.isFile file then d.settingsAt file else .ok {}

/-- The settings for a command: those of the file it names, or those of the project. -/
def settingsFor (d : Disk) (explicit : Option Path) (path : Path) : Except CommandError Settings :=
  match explicit with
  | some file =>
    match d.settingsAt file with
    | .ok s => .ok s
    | .error _ => .error (.settingsFile file)
  | none =>
    let root := d.projectRoot path
    match d.settingsOf root with
    | .ok s => .ok s
    | .error _ => .error (.settingsRoot root)

/-- The project of some files on the disk. -/
def collect (d : Disk) (settings : ExtractSettings) (root : Path) (files : List Path) : Project :=
  Project.collect settings d.read root files

/-- The files for a command, without those below the output directory. -/
def inputsFor (d : Disk) (settings : ExtractSettings) (path : Path) (output : Option Path) :
    Except CommandError Inputs :=
  match d.resolve? settings path with
  | none => .error (.noSuchPath path)
  | some inputs =>
    let files := match output with
      | some dir => d.excludeBelow dir inputs.files
      | none => inputs.files
    if files.isEmpty then .error (.nothingFound path) else .ok { inputs with files }

end Disk

namespace Command

/-- The directory for pages, where none is named. -/
def outputName : String := "doc"

/-- Ends with an error in a session. -/
def failWith {α : Type} (s : Session) (error : CommandError) : Except Failure α :=
  .error ⟨s, error⟩

/-- Goes on with a result, or ends with its error in a session. -/
def orFail {α : Type} (s : Session) : Except CommandError α → Except Failure α
  | .ok a => .ok a
  | .error e => failWith s e

/-- Writes a page at its place below the output directory and says so. -/
def writePage (output : Path) (s : Session) (page : Path × String) : Except Failure Session :=
  let file := output.join page.1
  let parent := file.parent?
  match s.disk.createDirs (parent.getD ⟨""⟩) with
  | .error _ => failWith s (.pageDir (parent.getD ⟨""⟩))
  | .ok disk =>
    let s := { s with disk }
    match s.disk.write file page.2.toUTF8 with
    | .error _ => failWith s (.page file)
    | .ok disk => .ok ({ s with disk }.print ("Generated: " ++ file.display ++ "\n"))

/-- The heading of the index page: the name of the project's directory. -/
def heading (d : Disk) (root : Path) : String :=
  match d.locate root with
  | .ok place => (place.getLast?.map Bytes.toText).getD "Documentation"
  | .error _ => "Documentation"

/-- Writes the pages of a project and its index page. -/
def generate (output : Path) (project : Project) (s : Session) : Except Failure Session :=
  match s.disk.createDirs output with
  | .error _ => failWith s (.outputDir output)
  | .ok disk => do
    let s ← project.pages.foldlM (writePage output) { s with disk }
    if project.pages.isEmpty then failWith s .nothingGenerated
    else
      let file := output.join ⟨Page.indexName⟩
      let page := Page.ofIndex (heading s.disk project.root) project.index project.root
      match s.disk.write file page.toUTF8 with
      | .error _ => failWith s (.indexPage file)
      | .ok disk =>
        .ok ({ s with disk }.print ("Generated: " ++ file.display ++ "\n\n" ++
          "Documentation generated in: " ++ output.display ++ "\n"))

/-- Writes documentation pages. -/
def doc (settings : Settings) (path : Path) (output : Option Path) (s : Session) :
    Except Failure Session := do
  let dir := output.getD ((s.disk.projectRoot path).join ⟨outputName⟩)
  let inputs ← orFail s (s.disk.inputsFor settings.extract path (some dir))
  generate dir (s.disk.collect settings.extract inputs.root inputs.files) s

/-- Prints the records of a project. -/
def dump (settings : Settings) (path : Path) (s : Session) : Except Failure Session := do
  let inputs ← orFail s (s.disk.inputsFor settings.extract path none)
  match Report.records? (s.disk.collect settings.extract inputs.root inputs.files) with
  | some text => .ok (s.print text)
  | none => failWith s .unprintableRecord

/-- Runs the tests of a project and prints the results. -/
def test (runner : Runner) (settings : Settings) (path : Path) (filter : Option String)
    (s : Session) : Except Failure Session := do
  let inputs ← orFail s (s.disk.inputsFor settings.extract path none)
  let project := s.disk.collect settings.extract inputs.root inputs.files
  let (summary, s) := (TestRun.runAll (runner settings) filter project.modules).run s
  if summary.outcomes.isEmpty && summary.errors.isEmpty then
    .ok (s.print "No embedded tests found\n")
  else
    let s := s.print (Report.summary summary)
    if summary.allPassed then .ok s else failWith s .testsFailed

/-- Does what an invocation asks for. -/
def run (runner : Runner) (invocation : Invocation) (s : Session) : Except Failure Session :=
  match invocation.task with
  | .doc path output => do
    let settings ← orFail s (s.disk.settingsFor invocation.settings path)
    doc settings path output s
  | .test path filter => do
    let settings ← orFail s (s.disk.settingsFor invocation.settings path)
    test runner settings path filter s
  | .dump path => do
    let settings ← orFail s (s.disk.settingsFor invocation.settings path)
    dump settings path s

end Command

end MarkerDoc
