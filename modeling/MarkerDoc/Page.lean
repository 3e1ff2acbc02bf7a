import MarkerDoc.Index
import MarkerDoc.Text.Lowercase

/-!
# Pages

A module becomes one Markdown page with a table of contents and one section for each kind of
item, a document is its own page, and the index becomes a page of nested links.  Each page has a
place below the output directory that follows from the name of its module or the path of its
document.
-/

namespace MarkerDoc.Page

/-- A text with a line break after it. -/
def line (s : String) : String :=
  s ++ "\n"

/-- A text as a paragraph of its own. -/
def paragraph (s : String) : String :=
  line s ++ "\n"

/-- A block of code, with a blank line after it. -/
def codeBlock (s : String) : String :=
  line "```perl" ++ line s ++ paragraph "```"

/-- Characters that surround the name of an attribute without belonging to it. -/
def isAttributeWrapping (c : Char) : Bool :=
  "'\"[]+,(".toList.contains c

/-- The name of an attribute: the second word of its statement, without what surrounds it. -/
def attributeTitle (statement : String) : String :=
  match (Text.words statement)[1]? with
  | some word =>
    String.ofList (Text.dropEndWhile isAttributeWrapping
      (word.toList.dropWhile isAttributeWrapping))
  | none => statement

/-- The heading of an item. -/
def title (i : Item) : String :=
  match i.kind with
  | .routine _ => Item.routineName i.statement
  | .attribute => attributeTitle i.statement
  | .modifier => i.statement

/-- The word for the kind of an item in its anchor. -/
def kindWord (i : Item) : String :=
  match i.kind with
  | .routine _ => "routine"
  | .attribute => "attribute"
  | .modifier => "modifier"

/-- A heading as part of an anchor: in lower case, with a hyphen for all but letters and digits. -/
def slug (heading : String) : String :=
  String.ofList ((Text.toLower heading).toList.map fun c =>
    if Text.isAlphanumeric c then c else '-')

/-- The anchor of an item on the page of its module. -/
def anchor (i : Item) : String :=
  kindWord i ++ "-" ++ slug (title i)

/-- The line of an item in the table of contents. -/
def contentsEntry (i : Item) : String :=
  line ("- [`" ++ title i ++ "`](#" ++ anchor i ++ ")")

/-- The section of an item. -/
def itemSection (i : Item) : String :=
  paragraph ("### <a id=\"" ++ anchor i ++ "\"></a>`" ++ title i ++ "`") ++
    codeBlock i.statement ++
    (if i.description = "" then "" else paragraph i.description) ++
    (match i.testBody? with
      | some test => paragraph "**Example:**" ++ codeBlock test
      | none => "") ++
    paragraph "---"

/-- The items of one kind under their heading; nothing if there are none. -/
def itemGroup (heading : String) (items : List Item) : String :=
  if items.isEmpty then ""
  else paragraph ("## " ++ heading) ++ String.join (items.map itemSection)

/-- The page of a module. -/
def ofModule (m : Module) : String :=
  paragraph ("# " ++ m.name) ++
    (if m.package.description = "" then "" else paragraph m.package.description) ++
    (if m.items.isEmpty then ""
     else
      paragraph "## Contents" ++ line (String.join (m.items.map contentsEntry)) ++
        itemGroup "Routines" (m.items.filter Item.isRoutine) ++
        itemGroup "Attributes" (m.items.filter Item.isAttribute) ++
        itemGroup "Modifiers" (m.items.filter Item.isModifier))

/-- The page of a document. -/
def ofDocument (d : Document) : String :=
  d.content

/-- The place of a page with the given steps below the output directory. -/
def place (segments : List String) : Path :=
  (Path.ofSegments (segments.map Bytes.ofText)).withExtension "md"

def modulePath (m : Module) : Path :=
  place m.package.segments

def documentPath (root : Path) (d : Document) : Path :=
  place (documentSegments root d.path)

/-- The place of the page of an index entry. -/
def leafPath (root : Path) : Leaf → Path
  | .module m => modulePath m
  | .document d => documentPath root d

/-- The page of an index entry. -/
def ofLeaf : Leaf → String
  | .module m => ofModule m
  | .document d => ofDocument d

/-- A path as the target of a link. -/
def linkTarget (p : Path) : String :=
  Text.joinWith "/" (p.components.map fun c => Bytes.toText c.text)

/-- The line of a node on the index page. -/
def indexEntry (root : Path) (depth : Nat) (node : Index) : String :=
  let name := match node.leaf with
    | some leaf => "[" ++ node.segment ++ "](" ++ linkTarget (leafPath root leaf) ++ ")"
    | none => node.segment
  line (String.join (List.replicate depth "  ") ++ "- " ++ name)

/-- The name of the index page. -/
def indexName : String := "index.md"

/-- The index page. -/
def ofIndex (heading : String) (index : Index) (root : Path) : String :=
  paragraph ("# " ++ heading) ++
    String.join (index.walk.map fun (depth, node) => indexEntry root depth node)

end MarkerDoc.Page
