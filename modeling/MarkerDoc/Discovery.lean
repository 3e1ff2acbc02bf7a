import MarkerDoc.Disk
import MarkerDoc.Settings

/-!
# Finding files

A command works on a single file or on everything below a directory.  The search passes over
hidden directories, those that are excluded by name and those whose names are no text; the directory
it starts from is always searched.  What it finds comes in component-wise order of the paths,
whatever the order of the directory entries.
-/

namespace MarkerDoc

namespace ExtractSettings

/-- Whether a file is looked for. -/
def isSought (settings : ExtractSettings) (p : Path) : Bool :=
  settings.isSource p || settings.isDocument p

/-- Whether a directory is searched: its name is a text, and neither hidden nor excluded. -/
def searches (settings : ExtractSettings) (name : String) : Bool :=
  match Bytes.toText? name with
  | some text => !(Text.startsWith "." text || settings.isExcludedDir text)
  | none => false

end ExtractSettings

namespace Listing

/-- The paths of the source and document files of a directory tree, given the path of the
directory.  A directory whose path does not lead to it is taken for a file. -/
def matching (settings : ExtractSettings) (isDir : Path → Bool) (dir : Path) : Listing → List Path
  | .nil => []
  | .file name _ rest =>
    let p := dir.join ⟨name⟩
    (if settings.isSought p then [p] else []) ++ rest.matching settings isDir dir
  | .dir name inside rest =>
    let p := dir.join ⟨name⟩
    (if isDir p then if settings.searches name then inside.matching settings isDir p else []
     else if settings.isSought p then [p]
     else []) ++
      rest.matching settings isDir dir

end Listing

/-- The files that a command works on, with the directory they belong to. -/
structure Inputs where
  root : Path
  files : List Path
deriving DecidableEq

namespace Disk

/-- The directory that a path stands for: itself, or the one that holds the file. -/
def projectRoot (d : Disk) (p : Path) : Path :=
  if d.isFile p then
    match p.parent? with
    | some parent => if parent.isEmpty then ⟨"."⟩ else parent
    | none => ⟨"."⟩
  else p

/-- The source and document files below a directory, in order. -/
def collectFiles (d : Disk) (settings : ExtractSettings) (dir : Path) (inside : Listing) :
    List Path :=
  (inside.matching settings d.isDir dir).mergeSort Path.le

/-- The files that a path stands for; nothing if there is no such file or directory. -/
def resolve? (d : Disk) (settings : ExtractSettings) (p : Path) : Option Inputs :=
  match d.entry p with
  | .ok (.file _) => some { root := d.projectRoot p, files := [p] }
  | .ok (.dir inside) => some { root := p, files := d.collectFiles settings p inside }
  | .error _ => none

/-- Leaves out the files below a directory, as far as it exists. -/
def excludeBelow (d : Disk) (dir : Path) (files : List Path) : List Path :=
  match d.locate dir with
  | .error _ => files
  | .ok place => files.filter fun f =>
    match d.locate f with
    | .ok found => !place.isPrefixOf found
    | .error _ => true

end Disk

end MarkerDoc
