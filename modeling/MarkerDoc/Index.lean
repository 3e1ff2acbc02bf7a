import MarkerDoc.Module

/-!
# The namespace index

Modules are placed in a tree by the segments of their names, documents by the steps of their
paths below the project.  A node may hold an entry and have children at the same time.

The children of a node form a forest, kept in increasing order of the keys that they are found
under.  A forest is either empty or a first tree, given by its key, the segment that its node
carries, its entry and the forest below it, followed by the trees after it.  An insertion gives a
node that it makes its key for a segment; nothing in the type says that the two agree.
-/

namespace MarkerDoc

/-- What stands at a node of the index. -/
inductive Leaf where
  | module (m : Module)
  | document (d : Document)
deriving DecidableEq

/-- Trees in increasing order of their keys. -/
inductive Forest where
  | nil
  | tree (key segment : String) (leaf : Option Leaf) (below after : Forest)
deriving DecidableEq

/-- A node of the index: the segment that names it, empty for the root, its entry and what is
below it. -/
structure Index where
  segment : String := ""
  leaf : Option Leaf := none
  below : Forest := .nil
deriving DecidableEq

namespace Forest

def isEmpty : Forest → Bool
  | .nil => true
  | .tree .. => false

/-- The keys of the trees, in order. -/
def keys : Forest → List String
  | .nil => []
  | .tree key _ _ _ after => key :: after.keys

/-- A single path of new nodes that ends in an entry. -/
def branch (segment : String) (leaf : Leaf) (after : Forest) : List String → Forest
  | [] => .tree segment segment (some leaf) .nil after
  | next :: rest => .tree segment segment none (branch next leaf .nil rest) after

/-- Puts an entry at the path of a segment and the segments after it, making the nodes that are
missing, and gives back the entry that stood there. -/
def exchange (segment : String) (rest : List String) (leaf : Leaf) :
    Forest → Option Leaf × Forest
  | .nil => (none, branch segment leaf .nil rest)
  | .tree k s l below after =>
    if segment = k then
      match rest with
      | [] => (l, .tree k s (some leaf) below after)
      | next :: rest' =>
        let (held, below') := below.exchange next rest' leaf
        (held, .tree k s l below' after)
    else if segment < k then (none, branch segment leaf (.tree k s l below after) rest)
    else
      let (held, after') := after.exchange segment rest leaf
      (held, .tree k s l below after')

/-- Puts an entry at the path of a segment and the segments after it. -/
def insert (segment : String) (rest : List String) (leaf : Leaf) (f : Forest) : Forest :=
  (f.exchange segment rest leaf).2

/-- The tree with a key. -/
def find? (key : String) : Forest → Option Index
  | .nil => none
  | .tree k segment leaf below after =>
    if key = k then some { segment, leaf, below } else after.find? key

/-- Every node with its depth, each before the nodes below it. -/
def walkFrom (depth : Nat) : Forest → List (Nat × Index)
  | .nil => []
  | .tree _ segment leaf below after =>
    (depth, { segment, leaf, below }) :: (below.walkFrom (depth + 1) ++ after.walkFrom depth)

end Forest

namespace Index

/-- The index that holds nothing. -/
def empty : Index := {}

def isEmpty (i : Index) : Bool :=
  i.leaf.isNone && i.below.isEmpty

/-- Puts an entry at a path, and gives back the entry that stood there. -/
def exchange (i : Index) (leaf : Leaf) : List String → Option Leaf × Index
  | [] => (i.leaf, { i with leaf := some leaf })
  | segment :: rest =>
    let (held, below) := i.below.exchange segment rest leaf
    (held, { i with below })

/-- Puts an entry at a path, in place of what stood there. -/
def insert (i : Index) (leaf : Leaf) (segments : List String) : Index :=
  (i.exchange leaf segments).2

/-- The node at a path. -/
def get? (i : Index) : List String → Option Index
  | [] => some i
  | segment :: rest => (i.below.find? segment).bind fun child => child.get? rest

/-- The entry at a path. -/
def leafAt? (i : Index) (segments : List String) : Option Leaf :=
  (i.get? segments).bind (·.leaf)

/-- Every node below the root with its depth, each before the nodes below it. -/
def walk (i : Index) : List (Nat × Index) :=
  i.below.walkFrom 0

/-- The entries below the root, in the order of the walk. -/
def leaves (i : Index) : List Leaf :=
  i.walk.filterMap (·.2.leaf)

/-- Adds an entry that has a place; an entry without segments is left out. -/
def place (i : Index) (segments : List String) (leaf : Leaf) : Index :=
  match segments with
  | [] => i
  | _ => i.insert leaf segments

end Index

/-- The place of a document: the steps of its path below the root in print, without the
extension. -/
def documentSegments (root path : Path) : List String :=
  let steps := (root.componentsBelow? path).getD path.components
  ((Path.stemSteps steps).filterMap Path.Component.name?).map Bytes.toText

/-- The entries of a project with their places, modules before documents. -/
def placements (root : Path) (modules : List Module) (documents : List Document) :
    List (List String × Leaf) :=
  modules.map (fun m => (m.package.segments, .module m)) ++
    documents.map (fun d => (documentSegments root d.path, .document d))

/-- The index of some modules and documents.  A later entry takes the place of an earlier one, and
documents come after modules. -/
def Index.build (root : Path) (modules : List Module) (documents : List Document) : Index :=
  (placements root modules documents).foldl (fun i p => i.place p.1 p.2) .empty

end MarkerDoc
