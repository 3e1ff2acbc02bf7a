import MarkerDoc.FileError
import MarkerDoc.Path

/-!
# File trees

A disk is a tree of directories and regular files, without links, together with the directory in
which programs work.  A place on the disk is the list of names that leads to it from the top.  Names
are bytes, like the paths that are made of them.

A directory is a list of entries: it is empty, or it begins with a file or a directory and goes on
with the remaining entries.  Following a path checks every step: only directories can be entered,
even by a step that leads nowhere.  A disk may refuse paths that are too long.
-/

namespace MarkerDoc

/-- The entries of a directory. -/
inductive Listing where
  | nil
  | file (name : String) (content : ByteArray) (rest : Listing)
  | dir (name : String) (inside rest : Listing)
deriving DecidableEq

/-- What a name in a directory stands for. -/
inductive Entry where
  | file (content : ByteArray)
  | dir (inside : Listing)

namespace Listing

/-- The entry with a name. -/
def find? (name : String) : Listing → Option Entry
  | .nil => none
  | .file n content rest => if name = n then some (.file content) else rest.find? name
  | .dir n inside rest => if name = n then some (.dir inside) else rest.find? name

/-- Puts an entry in front of others. -/
def cons (name : String) (entry : Entry) (rest : Listing) : Listing :=
  match entry with
  | .file content => .file name content rest
  | .dir inside => .dir name inside rest

/-- Puts an entry in place of the one with its name, or at the end. -/
def set (name : String) (entry : Entry) : Listing → Listing
  | .nil => cons name entry .nil
  | .file n content rest =>
    if name = n then cons name entry rest else .file n content (rest.set name entry)
  | .dir n inside rest =>
    if name = n then cons name entry rest else .dir n inside (rest.set name entry)

/-- Takes out the entry with a name. -/
def erase (name : String) : Listing → Listing
  | .nil => .nil
  | .file n content rest => if name = n then rest else .file n content (rest.erase name)
  | .dir n inside rest => if name = n then rest else .dir n inside (rest.erase name)

/-- The entry at a place. -/
def get? (listing : Listing) : List String → Option Entry
  | [] => some (.dir listing)
  | name :: names =>
    match listing.find? name, names with
    | found, [] => found
    | some (.dir inside), names => inside.get? names
    | _, _ => none

/-- Changes the entries of the directory at a place; nothing happens if there is none. -/
def modifyAt (f : Listing → Listing) : List String → Listing → Listing
  | [], listing => f listing
  | name :: names, listing =>
    match listing.find? name with
    | some (.dir inside) => listing.set name (.dir (modifyAt f names inside))
    | _ => listing

/-- Every file with its place, given the place of the directory. -/
def filesAt (place : List String) : Listing → List (List String × ByteArray)
  | .nil => []
  | .file name content rest => (place ++ [name], content) :: rest.filesAt place
  | .dir name inside rest => inside.filesAt (place ++ [name]) ++ rest.filesAt place

end Listing

/-- A file tree with the place where programs work. -/
structure Disk where
  top : Listing := .nil
  cwd : List String := []
  /-- The length of the longest path that can be followed, if there is a limit. -/
  maxPath : Option Nat := none
deriving DecidableEq

namespace Disk

/-- The length of the longest name that a file may have. -/
def maxName : Nat := 255

/-- Whether a path is short enough to be followed. -/
def fits (d : Disk) (p : Path) : Bool :=
  d.maxPath.all (p.text.length ≤ ·)

/-- The directory at a place. -/
def listing (d : Disk) (place : List String) : Except FileError Listing :=
  match d.top.get? place with
  | some (.dir inside) => .ok inside
  | some (.file _) => .error .notADirectory
  | none => .error .notFound

/-- Follows one piece of a path from a place. -/
def enter (d : Disk) (place : List String) (piece : String) : Except FileError (List String) := do
  let inside ← d.listing place
  if Path.isIdle piece then pure place
  else if piece = ".." then pure place.dropLast
  else if maxName < piece.length then throw .nameTooLong
  else
    match inside.find? piece with
    | some _ => pure (place ++ [piece])
    | none => throw .notFound

/-- Where the pieces of a path start from. -/
def origin (d : Disk) (p : Path) : List String :=
  if p.isAbsolute then [] else d.cwd

/-- Refuses paths that cannot be followed at all. -/
def checkPath (d : Disk) (p : Path) : Except FileError Unit :=
  if p.text.toList.contains (Char.ofNat 0) then .error .nulInName
  else if p.isEmpty then .error .notFound
  else if d.fits p then .ok ()
  else .error .nameTooLong

/-- The place that a path leads to. -/
def locate (d : Disk) (p : Path) : Except FileError (List String) := do
  d.checkPath p
  (Text.splitOn "/" p.text).foldlM d.enter (d.origin p)

/-- What stands where a path leads to. -/
def entry (d : Disk) (p : Path) : Except FileError Entry := do
  let place ← d.locate p
  match d.top.get? place with
  | some e => pure e
  | none => throw .notFound

def isFile (d : Disk) (p : Path) : Bool :=
  match d.entry p with
  | .ok (.file _) => true
  | _ => false

def isDir (d : Disk) (p : Path) : Bool :=
  match d.entry p with
  | .ok (.dir _) => true
  | _ => false

/-- The bytes of a file. -/
def readBytes (d : Disk) (p : Path) : Except FileError ByteArray := do
  match ← d.entry p with
  | .file content => pure content
  | .dir _ => throw .isADirectory

/-- The text of a file. -/
def read (d : Disk) (p : Path) : Except FileError String := do
  match String.fromUTF8? (← d.readBytes p) with
  | some text => pure text
  | none => throw .invalidText

/-- The pieces of a path with the last one apart. -/
def splitLast (pieces : List String) : List String × String :=
  (pieces.dropLast, pieces.getLast?.getD "")

/-- Makes a directory. -/
def createDir (d : Disk) (p : Path) : Except FileError Disk := do
  d.checkPath p
  let (front, last) := splitLast (Text.dropEndWhile (· == "") (Text.splitOn "/" p.text))
  if Path.isIdle last || last == ".." then
    let _ ← d.locate p
    throw .alreadyExists
  else
    let parent ← front.foldlM d.enter (d.origin p)
    let inside ← d.listing parent
    if maxName < last.length then throw .nameTooLong
    else if (inside.find? last).isSome then throw .alreadyExists
    else pure { d with top := d.top.modifyAt (·.set last (.dir .nil)) parent }

/-- Makes a directory and the directories on the way to it, as far as they are missing. -/
def createDirsFrom : Nat → Disk → Path → Except FileError Disk
  | 0, _, _ => .error .notFound
  | fuel + 1, d, p =>
    if p.isEmpty then .ok d
    else
      match d.createDir p with
      | .ok d => .ok d
      | .error .notFound =>
        match p.parent? with
        | none => .error .notFound
        | some parent => do
          let d ← createDirsFrom fuel d parent
          match d.createDir p with
          | .ok d => .ok d
          | .error e => if d.isDir p then .ok d else .error e
      | .error e => if d.isDir p then .ok d else .error e

/-- Makes a directory and the directories on the way to it, as far as they are missing. -/
def createDirs (d : Disk) (p : Path) : Except FileError Disk :=
  createDirsFrom (p.components.length + 1) d p

/-- Writes a file, in place of one that was there. -/
def write (d : Disk) (p : Path) (content : ByteArray) : Except FileError Disk := do
  d.checkPath p
  let (front, last) := splitLast (Text.splitOn "/" p.text)
  if Path.isIdle last || last == ".." then
    let _ ← d.locate p
    throw .isADirectory
  else
    let parent ← front.foldlM d.enter (d.origin p)
    let inside ← d.listing parent
    if maxName < last.length then throw .nameTooLong
    else
      match inside.find? last with
      | some (.dir _) => throw .isADirectory
      | _ => pure { d with top := d.top.modifyAt (·.set last (.file content)) parent }

/-- Takes a file away. -/
def remove (d : Disk) (p : Path) : Disk :=
  match d.locate p with
  | .ok place => { d with top := d.top.modifyAt (·.erase (place.getLast?.getD "")) place.dropLast }
  | .error _ => d

/-- Writes a file after making the directories on the way to it; if that is not possible the disk
stays as it is. -/
def addFile (d : Disk) (p : Path) (content : ByteArray) : Disk :=
  match d.createDirs (p.parent?.getD ⟨""⟩) with
  | .error _ => d
  | .ok d =>
    match d.write p content with
    | .ok d => d
    | .error _ => d

/-- Makes a directory and those on the way to it; if that is not possible the disk stays as it
is. -/
def addDir (d : Disk) (p : Path) : Disk :=
  match d.createDirs p with
  | .ok d => d
  | .error _ => d

/-- The directories that every disk has. -/
def standardDirs : List Path :=
  ["/bin", "/boot", "/dev/fd", "/home", "/lib", "/media", "/mnt", "/opt", "/proc", "/root", "/run",
    "/sbin", "/srv", "/sys", "/tmp", "/usr/bin", "/usr/lib", "/usr/local/bin", "/usr/local/lib",
    "/usr/sbin", "/usr/share", "/var/tmp"].map Path.mk

/-- The list of the accounts that every system has. -/
def accounts : String :=
  "root:x:0:0:root:/root:/bin/bash\n" ++
  "daemon:x:1:1:daemon:/usr/sbin:/usr/sbin/nologin\n" ++
  "bin:x:2:2:bin:/bin:/usr/sbin/nologin\n" ++
  "sys:x:3:3:sys:/dev:/usr/sbin/nologin\n" ++
  "sync:x:4:65534:sync:/bin:/bin/sync\n" ++
  "games:x:5:60:games:/usr/games:/usr/sbin/nologin\n" ++
  "man:x:6:12:man:/var/cache/man:/usr/sbin/nologin\n" ++
  "lp:x:7:7:lp:/var/spool/lpd:/usr/sbin/nologin\n" ++
  "mail:x:8:8:mail:/var/mail:/usr/sbin/nologin\n" ++
  "news:x:9:9:news:/var/spool/news:/usr/sbin/nologin\n" ++
  "uucp:x:10:10:uucp:/var/spool/uucp:/usr/sbin/nologin\n" ++
  "proxy:x:13:13:proxy:/bin:/usr/sbin/nologin\n" ++
  "www-data:x:33:33:www-data:/var/www:/usr/sbin/nologin\n" ++
  "backup:x:34:34:backup:/var/backups:/usr/sbin/nologin\n" ++
  "list:x:38:38:Mailing List Manager:/var/list:/usr/sbin/nologin\n" ++
  "irc:x:39:39:ircd:/run/ircd:/usr/sbin/nologin\n" ++
  "_apt:x:42:65534::/nonexistent:/usr/sbin/nologin\n" ++
  "nobody:x:65534:65534:nobody:/nonexistent:/usr/sbin/nologin\n"

/-- The files that every disk has, with their contents. -/
def standardFiles : List (Path × String) :=
  [(⟨"/dev/null"⟩, ""), (⟨"/etc/passwd"⟩, accounts)]

/-- A disk with nothing but the standard directories and files and an empty working directory. -/
def fresh (cwd : List String) : Disk :=
  let d := standardDirs.foldl addDir { maxPath := some 4095 }
  let d := standardFiles.foldl (fun d (p, text) => d.addFile p text.toUTF8) d
  { d.addDir ⟨"/" ++ Text.joinWith "/" cwd⟩ with cwd }

/-- The files below the working directory, each with its path from there. -/
def workingFiles (d : Disk) : List (String × ByteArray) :=
  match d.listing d.cwd with
  | .ok inside => (inside.filesAt []).map fun (place, content) => (Text.joinWith "/" place, content)
  | .error _ => []

end Disk

end MarkerDoc
