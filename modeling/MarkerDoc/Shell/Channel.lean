import MarkerDoc.Shell.Machine

/-!
# Connecting channels

A redirection connects a channel to a file, to a text or to what another channel is connected to.
-/

namespace MarkerDoc.Shell

/-- Why a file could not be opened, in the words of the shell. -/
def openReason (writing : Bool) : FileError → String
  | .notFound => if writing then "Directory nonexistent" else "No such file"
  | e => reason e

/-- Opens a device for reading or writing. -/
def openDevice (m : Machine) (op path : String) : Nat × Machine :=
  let unit := Machine.deviceUnit path
  m.addStream (
    if op = "<" then (if unit = "" then .nothing else .endless unit)
    else if path = "/dev/full" then .full
    else .nothing)

/-- Opens what a path leads to, for reading, writing or both; the error is the complaint. -/
def openPath (m : Machine) (op path : String) : Except String (Nat × Machine) :=
  let writing := op != "<"
  let complaint (e : FileError) : String :=
    (if writing then "cannot create " else "cannot open ") ++ path ++ ": " ++ openReason writing e
  match Machine.deviceChannel? path with
  | some channel =>
    match m.streamId? channel with
    | some id => .ok (id, m)
    | none => .error (complaint .notFound)
  | none =>
    if Machine.isDevice path then .ok (openDevice m op path)
    else if op = "<" then
      match m.kind path with
      | .ok .file => .ok (m.addStream (.reading ((m.fileText path).toOption.getD "").toList true))
      | .ok _ => .ok (m.addStream (.reading [] true))
      | .error e => .error (complaint e)
    else
      let old := m.fileText path
      let isThere := old.toOption.isSome
      if op = ">" && m.flags.contains 'C' && isThere then .error (complaint .alreadyExists)
      else
        let text := if op = ">" || op = ">|" then "" else old.toOption.getD ""
        match m.writeFile path text with
        | .error e => .error (complaint e)
        | .ok m =>
          match m.place? path with
          | some place =>
            .ok (m.addStream (
              if op = "<>" then .sharing place 0
              else .writing place (if op = ">>" then none else some 0)))
          | none => .error (complaint .notFound)

/-- The channel that a redirection copies, or none if it closes one; nothing if the text says
neither. -/
def copiedChannel? (text : String) : Option (Option Nat) :=
  match text.toList with
  | ['-'] => some none
  | [c] => if c.isDigit then some (some (c.toNat - 0x30)) else none
  | _ => none

/-- Whether a redirection copies a channel. -/
def copies (op : String) : Bool := op == "<&" || op == ">&"

/-- Connects a channel; the error is the complaint. -/
def connectTo (m : Machine) (channel : Nat) (op target : String) : Except String Machine :=
  if op = "<<" then
    let (id, m) := m.addStream (.reading target.toList false)
    .ok (m.connect channel id)
  else if copies op then
    match copiedChannel? target with
    | some (some source) =>
      match m.streamId? source with
      | some id => .ok (m.connect channel id)
      | none => .error (target ++ ": Bad file descriptor")
    | _ => .ok (m.disconnect channel)
  else
    match openPath m op target with
    | .ok (id, m) => .ok (m.connect channel id)
    | .error e => .error e

end MarkerDoc.Shell
