import MarkerDoc.Module.Extract
import MarkerDoc.Page

/-!
# Projects

A project is what comes of a list of files: modules from source files, documents from document
files, and a record of what was left out.  Each file is judged on its own, so one that fails does
not touch the others, and everything stays in the order of the files.

Files are judged in one of two ways, those that are given with their contents and those that are to
be read.  The results are then gone through once, each added to the list that it belongs to.
-/

namespace MarkerDoc

/-- A file that gave no module or document. -/
structure FileFailure where
  path : Path
  error : ExtractError
deriving DecidableEq

structure Project where
  root : Path
  modules : List Module := []
  documents : List Document := []
  failures : List FileFailure := []
  /-- Source files whose package block asks to be left out. -/
  skipped : List Path := []
deriving DecidableEq

/-- Reads a document. -/
def Document.load (read : Path → Except FileError String) (path : Path) :
    Except FileError Document :=
  match read path with
  | .ok content => .ok { path, content }
  | .error cause => .error cause

/-- What comes of one file. -/
inductive FileResult where
  | module (m : Module)
  | document (d : Document)
  | skipped
  | failed (error : ExtractError)
  | unrecognized
deriving DecidableEq

namespace FileResult

def ofExtraction : Except ExtractError (Extraction Module) → FileResult
  | .ok (.found m) => .module m
  | .ok (.skipped _) => .skipped
  | .error e => .failed e

/-- Judges a file that is given with its content, by its extension. -/
def ofText (settings : ExtractSettings) (path : Path) (content : String) : FileResult :=
  if settings.isSource path then ofExtraction (Module.extract settings path content)
  else if settings.isDocument path then .document { path, content }
  else .unrecognized

/-- Judges a file by its extension, and reads it if that is known. -/
def ofFile (settings : ExtractSettings) (read : Path → Except FileError String) (path : Path) :
    FileResult :=
  if settings.isSource path then ofExtraction (Module.extractFile settings read path)
  else if settings.isDocument path then
    match Document.load read path with
    | .ok d => .document d
    | .error cause => .failed (.unreadable cause)
  else .unrecognized

end FileResult

namespace Project

/-- Adds the result of a file to the list that it belongs to. -/
def add (p : Project) (path : Path) : FileResult → Project
  | .module m => { p with modules := p.modules ++ [m] }
  | .document d => { p with documents := p.documents ++ [d] }
  | .skipped => { p with skipped := p.skipped ++ [path] }
  | .failed error => { p with failures := p.failures ++ [{ path, error }] }
  | .unrecognized => p

/-- Gathers the results of files, one after the other. -/
def merge (root : Path) (results : List (Path × FileResult)) : Project :=
  results.foldl (fun p r => p.add r.1 r.2) { root }

/-- The project of some files that are given with their contents. -/
def ofSources (settings : ExtractSettings) (root : Path) (files : List (Path × String)) : Project :=
  merge root (files.map fun f => (f.1, FileResult.ofText settings f.1 f.2))

/-- The project of some files that are read one by one. -/
def collect (settings : ExtractSettings) (read : Path → Except FileError String) (root : Path)
    (files : List Path) : Project :=
  merge root (files.map fun p => (p, FileResult.ofFile settings read p))

def index (p : Project) : Index :=
  Index.build p.root p.modules p.documents

/-- The first module with a name. -/
def module? (p : Project) (name : String) : Option Module :=
  p.modules.find? (·.name == name)

/-- The pages of the project with their places, in the order in which they are written. -/
def pages (p : Project) : List (Path × String) :=
  p.modules.map (fun m => (Page.modulePath m, Page.ofModule m)) ++
    p.documents.map (fun d => (Page.documentPath p.root d, Page.ofDocument d))

end Project

end MarkerDoc
