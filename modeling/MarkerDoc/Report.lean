import MarkerDoc.Json
import MarkerDoc.Project
import MarkerDoc.TestRun

/-!
# Printed reports

What the commands print: the extracted records, and the results of a test run.
-/

namespace MarkerDoc.Report

/-- The fields that every item has, around those that only some have. -/
def itemJson (i : Item) : Json :=
  let kind := Page.kindWord i
  let fields (extra : List (String × Json)) : Json :=
    .object ([("description", .string i.description), ("kind", .string kind),
      ("line", .number i.line), ("statement", .string i.statement)] ++ extra)
  match i.kind with
  | .routine (some test) => fields [("test", .string test)]
  | .routine none => fields [("test", .null)]
  | _ => fields []

def packageJson (p : PackageItem) : Json :=
  .object [("description", .string p.description), ("line", .number p.line),
    ("statement", .string p.statement)]

def flavorWord : Flavor → String
  | .core => "core"
  | .extended => "extended"

def pathJson? (p : Path) : Option Json :=
  p.toText?.map .string

def moduleJson? (m : Module) : Option Json := do
  let path ← pathJson? m.path
  pure (.object [("file_path", path), ("flavor", .string (flavorWord m.flavor)),
    ("items", .array (m.items.map itemJson)), ("package_item", packageJson m.package)])

def documentJson? (d : Document) : Option Json := do
  let path ← pathJson? d.path
  pure (.object [("content", .string d.content), ("file_path", path)])

def failureJson? (f : FileFailure) : Option Json := do
  let path ← pathJson? f.path
  pure (.object [("error", .string f.error.message), ("path", path)])

/-- The records of a project; nothing if the path of one is no text. -/
def projectJson? (p : Project) : Option Json := do
  let failures ← p.failures.mapM failureJson?
  let modules ← p.modules.mapM moduleJson?
  let documents ← p.documents.mapM documentJson?
  let skipped ← p.skipped.mapM pathJson?
  pure (.object [("documents", .array documents), ("failures", .array failures),
    ("modules", .array modules), ("skipped", .array skipped)])

/-- The records of a project in print; nothing if the path of one is no text. -/
def records? (p : Project) : Option String :=
  (projectJson? p).map fun records => records.pretty 0 ++ "\n"

/-- A time in milliseconds, with two places. -/
def millisText (millis : Nat) : String :=
  toString millis ++ ".00ms"

/-- The line of a module that was run. -/
def outcomeLine (o : Outcome) : String :=
  let result := match o.status with
    | .passed => "  PASS " ++ o.package ++ " (" ++ toString o.subtests ++ " subtests)"
    | .failed (some code) => "  FAIL " ++ o.package ++ " (exit code " ++ toString code ++ ")"
    | .failed none => "  FAIL " ++ o.package ++ " (terminated by signal)"
  result ++ " [" ++ millisText o.millis ++ "]\n"

/-- The line of a module that could not be run. -/
def errorLine (e : ModuleError) : String :=
  "  ERROR " ++ e.package ++ ": " ++ e.error.message ++ "\n"

/-- The last line of a run. -/
def totalLine (s : Summary) : String :=
  "Test result: " ++ toString s.passed ++ " passed, " ++ toString s.failed ++ " failed, " ++
    toString s.errors.length ++ " errors, " ++ toString s.untested ++ " without tests (in " ++
    millisText s.millis ++ ")\n"

/-- The results of a run in print. -/
def summary (s : Summary) : String :=
  String.join (s.outcomes.map outcomeLine) ++ String.join (s.errors.map errorLine) ++ "\n" ++
    totalLine s

end MarkerDoc.Report
