import MarkerDoc.Module

/-!
# Test scripts

The tests of a module are put together into one script, with one sub-test for each routine name
in increasing order.  Where two routines share a name the later test is kept, and the name is
noted as overwritten.
-/

namespace MarkerDoc

/-- The script that runs the tests of one module. -/
structure Script where
  package : String
  source : String
  /-- The names of the sub-tests, in order. -/
  subtests : List String
  /-- A name for every test that took the place of an earlier one. -/
  overwritten : List String
deriving DecidableEq

namespace Script

/-- Puts a test into a list that is sorted by name, in place of one with the same name, and gives
back the body of that one. -/
def insertTest (name body : String) :
    List (String × String) → Option String × List (String × String)
  | [] => (none, [(name, body)])
  | (n, b) :: rest =>
    if name = n then (some b, (name, body) :: rest)
    else if name < n then (none, (name, body) :: (n, b) :: rest)
    else
      let (replaced, rest) := insertTest name body rest
      (replaced, (n, b) :: rest)

/-- The tests by name, and the names of those that took the place of an earlier one. -/
structure Gathered where
  bodies : List (String × String) := []
  overwritten : List String := []
deriving DecidableEq

def Gathered.add (g : Gathered) (test : String × String) : Gathered :=
  let (replaced, bodies) := insertTest test.1 test.2 g.bodies
  { bodies
    overwritten := if replaced.isSome then g.overwritten ++ [test.1] else g.overwritten }

/-- A name inside single quotes. -/
def quoted (name : String) : String :=
  Text.replace "'" "\\'" (Text.replace "\\" "\\\\" name)

/-- The block of a sub-test.  Line breaks at the end of the body are dropped. -/
def subtest (name body : String) : String :=
  "\nsubtest '" ++ quoted name ++ "' => sub \x7b\n" ++
    String.ofList (Text.dropEndWhile (· == '\n') body.toList) ++ "\n\x7d;\n"

/-- What every script begins with. -/
def preamble (package : String) : String :=
  "use strict;\nuse warnings;\nuse Test::More;\nuse " ++ package ++ ";\n"

/-- What every script ends with. -/
def closing : String :=
  "\ndone_testing();\n"

/-- The script for the tests of a module, unless it has none. -/
def ofModule? (m : Module) : Option Script :=
  let gathered := (m.items.filterMap Item.namedTest?).foldl Gathered.add {}
  let kept := gathered.bodies
  if kept.isEmpty then none
  else
    some {
      package := m.name
      source := preamble m.name ++ String.join (kept.map fun t => subtest t.1 t.2) ++ closing
      subtests := kept.map (·.1)
      overwritten := gathered.overwritten }

end Script

end MarkerDoc
