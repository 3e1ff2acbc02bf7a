import MarkerDoc.Disk
import MarkerDoc.Proofs.Placement
import Mathlib.Logic.Function.Basic

/-!
# What stands where in a file tree

A directory tree is seen here as a function from places to what stands there.  Making a directory
and writing a file then are updates of that function at one place, and everything that programs ask
of a tree can be answered from it.

A tree is well formed if each directory has every name once and all names are names a file can
have.  For such a tree the function says everything but the order of the entries, and overwriting
files keeps that order.
-/

namespace MarkerDoc

/-- What stands at a place. -/
inductive Node where
  | dir
  | file (content : ByteArray)
deriving DecidableEq

def Node.content? : Node → Option ByteArray
  | .dir => none
  | .file content => some content

namespace Entry

def node : Entry → Node
  | .file content => .file content
  | .dir _ => .dir

/-- Whether an entry has nothing behind it: a file or an empty directory. -/
def IsBare : Entry → Prop
  | .file _ => True
  | .dir inside => inside = .nil

end Entry

/-- A name that a file can have. -/
structure IsFileName (s : String) : Prop extends Page.IsPlain s where
  nul : Char.ofNat 0 ∉ s.toList
  size : s.length ≤ Disk.maxName

theorem isFileName_iff {s : String} :
    IsFileName s ↔
      (Path.component? s = some (.name s) ∧ '/' ∉ s.toList) ∧
        Char.ofNat 0 ∉ s.toList ∧ s.length ≤ Disk.maxName :=
  ⟨fun h => ⟨⟨h.name, h.slash⟩, h.nul, h.size⟩, fun h => ⟨⟨h.1.1, h.1.2⟩, h.2.1, h.2.2⟩⟩

instance (s : String) : Decidable (IsFileName s) :=
  decidable_of_iff' _ isFileName_iff

namespace Listing

/-- What stands at a place of a directory tree. -/
def node? (l : Listing) (place : List String) : Option Node :=
  (l.get? place).map Entry.node

@[simp] theorem node?_nil (l : Listing) : l.node? [] = some .dir := by
  simp [node?, get?, Entry.node]

theorem node?_cons (l : Listing) (name : String) (names : List String) :
    l.node? (name :: names) =
      match l.find? name with
      | none => none
      | some (.file content) => if names = [] then some (.file content) else none
      | some (.dir inside) => inside.node? names := by
  cases names with
  | nil =>
      cases hfound : l.find? name with
      | none => simp [node?, get?, hfound]
      | some entry => cases entry <;> simp [node?, get?, hfound, Entry.node]
  | cons next names =>
      cases hfound : l.find? name with
      | none => simp [node?, get?, hfound]
      | some entry => cases entry <;> simp [node?, get?, hfound]

theorem node?_singleton (l : Listing) (name : String) :
    l.node? [name] = (l.find? name).map Entry.node := by
  rw [node?_cons]
  cases l.find? name with
  | none => rfl
  | some entry => cases entry <;> simp [Entry.node]

theorem node?_eq_dir_iff {l : Listing} {place : List String} :
    l.node? place = some .dir ↔ ∃ inside, l.get? place = some (.dir inside) := by
  rw [node?]
  cases l.get? place with
  | none => simp
  | some entry => cases entry <;> simp [Entry.node]

theorem node?_eq_file_iff {l : Listing} {place : List String} {content : ByteArray} :
    l.node? place = some (.file content) ↔ l.get? place = some (.file content) := by
  rw [node?]
  cases l.get? place with
  | none => simp
  | some entry => cases entry <;> simp [Entry.node]

theorem node?_singleton_eq_dir_iff {l : Listing} {name : String} :
    l.node? [name] = some .dir ↔ ∃ inside, l.find? name = some (.dir inside) := by
  rw [node?_eq_dir_iff]
  rfl

theorem node?_singleton_eq_file_iff {l : Listing} {name : String} {content : ByteArray} :
    l.node? [name] = some (.file content) ↔ l.find? name = some (.file content) := by
  rw [node?_eq_file_iff]
  rfl

theorem node?_cons_of_find?
    {l inside : Listing} {name : String} (h : l.find? name = some (.dir inside))
    (names : List String) : l.node? (name :: names) = inside.node? names := by
  rw [node?_cons, h]

/-- The content of the file at a place. -/
def content? (l : Listing) (place : List String) : Option ByteArray :=
  (l.node? place).bind Node.content?

theorem content?_eq_some_iff {l : Listing} {place : List String} {content : ByteArray} :
    l.content? place = some content ↔ l.node? place = some (.file content) := by
  rw [content?]
  cases l.node? place with
  | none => simp
  | some node => cases node <;> simp [Node.content?]

theorem node?_append_of_get?
    {l inside : Listing} {place : List String} (h : l.get? place = some (.dir inside))
    (names : List String) :
    l.node? (place ++ names) = inside.node? names := by
  induction place generalizing l with
  | nil =>
      simp only [get?, Option.some.injEq, Entry.dir.injEq] at h
      rw [List.nil_append, h]
  | cons name place ih =>
      rw [List.cons_append, node?_cons]
      cases hfound : l.find? name with
      | none => cases place <;> simp [get?, hfound] at h
      | some entry =>
          cases entry with
          | file content => cases place <;> simp [get?, hfound] at h
          | dir next =>
              apply ih
              cases place with
              | nil => simpa [get?, hfound] using h
              | cons _ _ => simpa [get?, hfound] using h

theorem node?_concat_of_get?
    {l inside : Listing} {place : List String} (h : l.get? place = some (.dir inside))
    (name : String) :
    l.node? (place ++ [name]) = (inside.find? name).map Entry.node := by
  rw [node?_append_of_get? h, node?_singleton]

/-- Whatever has something behind it is a directory. -/
theorem node?_eq_dir_of_append
    {l : Listing} {place : List String} {name : String} {names : List String}
    (h : (l.node? (place ++ name :: names)).isSome) :
    l.node? place = some .dir := by
  induction place generalizing l with
  | nil => simp
  | cons first place ih =>
      rw [List.cons_append, node?_cons] at h
      rw [node?_cons]
      cases hfound : l.find? first with
      | none => simp [hfound] at h
      | some entry =>
          cases entry with
          | file content => simp [hfound] at h
          | dir inside =>
              rw [hfound] at h
              exact ih h

theorem node?_dropLast
    {l : Listing} {place : List String} (h : l.node? place = some .dir) :
    l.node? place.dropLast = some .dir := by
  rcases List.eq_nil_or_concat place with rfl | ⟨front, last, rfl⟩
  · exact h
  · rw [List.concat_eq_append] at h ⊢
    rw [List.dropLast_concat]
    exact node?_eq_dir_of_append (Option.isSome_of_eq_some h)

theorem isSome_node?_of_prefix
    {l : Listing} {place place' : List String} (h : (l.node? place').isSome)
    (hfront : place <+: place') :
    (l.node? place).isSome := by
  obtain ⟨names, rfl⟩ := hfront
  cases names with
  | nil => simpa using h
  | cons name names => simp [node?_eq_dir_of_append h]

/-! ## Changing a tree -/

/-- A directory is empty or has a first entry. -/
@[elab_as_elim]
theorem cons_induction
    {motive : Listing → Prop} (nil : motive .nil)
    (cons : ∀ name entry rest, motive rest → motive (cons name entry rest)) (l : Listing) :
    motive l := by
  induction l with
  | nil => exact nil
  | file name content rest ih => exact cons name (.file content) rest ih
  | dir name inside rest _ ih => exact cons name (.dir inside) rest ih

theorem find?_cons (name n : String) (entry : Entry) (rest : Listing) :
    (cons n entry rest).find? name = if name = n then some entry else rest.find? name := by
  cases entry <;> simp [cons, find?]

theorem set_cons (name n : String) (entry e : Entry) (rest : Listing) :
    (cons n e rest).set name entry =
      if name = n then cons name entry rest else cons n e (rest.set name entry) := by
  cases e <;> simp [cons, set]

theorem find?_set (l : Listing) (name n : String) (entry : Entry) :
    (l.set n entry).find? name = if name = n then some entry else l.find? name := by
  induction l using cons_induction with
  | nil => simp [set, find?_cons, find?]
  | cons m e rest ih =>
      by_cases hn : n = m
      · subst hn
        by_cases hname : name = n <;> simp [set_cons, find?_cons, hname]
      · by_cases hname : name = m
        · subst hname
          simp [set_cons, find?_cons, hn, Ne.symm hn]
        · simp [set_cons, find?_cons, hn, hname, ih]

theorem node?_set
    {l : Listing} {name : String} {entry : Entry} (hbare : entry.IsBare)
    (hname : l.node? [name] ≠ some .dir) :
    (l.set name entry).node? = Function.update l.node? [name] (some entry.node) := by
  funext place
  cases place with
  | nil => simp
  | cons first names =>
      by_cases hfirst : first = name
      · subst hfirst
        rw [node?_cons, find?_set, if_pos rfl]
        cases names with
        | nil => cases entry <;> simp [Entry.node]
        | cons next names =>
            -- Nothing was behind the name before, as it was no directory.
            have hbefore : l.node? ([first] ++ next :: names) = none := by
              by_contra hsome
              exact hname (node?_eq_dir_of_append (Option.isSome_iff_ne_none.mpr hsome))
            rw [List.singleton_append] at hbefore
            cases entry with
            | file content => simp [hbefore]
            | dir inside =>
                obtain rfl : inside = .nil := hbare
                simp [hbefore, node?_cons, find?]
      · have hne : first :: names ≠ [name] := by simp [hfirst]
        rw [Function.update_of_ne hne, node?_cons, node?_cons, find?_set, if_neg hfirst]

/-- Putting a file or an empty directory into a directory changes what stands at one place, unless
it takes the place of a directory. -/
theorem node?_modifyAt_set
    {l : Listing} {parent : List String} {name : String} {entry : Entry}
    (hbare : entry.IsBare) (hparent : l.node? parent = some .dir)
    (hname : l.node? (parent ++ [name]) ≠ some .dir) :
    (l.modifyAt (·.set name entry) parent).node? =
      Function.update l.node? (parent ++ [name]) (some entry.node) := by
  induction parent generalizing l with
  | nil => exact node?_set hbare hname
  | cons first parent ih =>
      rw [node?_cons] at hparent
      cases hfound : l.find? first with
      | none => simp [hfound] at hparent
      | some found =>
          cases found with
          | file content => cases parent <;> simp [hfound] at hparent
          | dir inside =>
              rw [hfound] at hparent
              rw [List.cons_append, node?_cons, hfound] at hname
              have hinside := ih hparent hname
              funext place
              rw [modifyAt, hfound]
              cases place with
              | nil => simp
              | cons next names =>
                  rw [node?_cons, find?_set]
                  by_cases hnext : next = first
                  · subst hnext
                    by_cases hnames : names = parent ++ [name]
                    · simp [hinside, hnames]
                    · simp [hinside, hnames, node?_cons, hfound]
                  · simp [hnext, node?_cons]

/-! ## Well-formed trees -/

/-- The names of a directory's entries. -/
def names : Listing → List String
  | .nil => []
  | .file name _ rest => name :: rest.names
  | .dir name _ rest => name :: rest.names

/-- Every directory has each name once, and only names that a file can have. -/
def WellFormed : Listing → Prop
  | .nil => True
  | .file name _ rest => IsFileName name ∧ name ∉ rest.names ∧ rest.WellFormed
  | .dir name inside rest =>
    IsFileName name ∧ name ∉ rest.names ∧ inside.WellFormed ∧ rest.WellFormed

/-- Whether a tree is well formed can be checked. -/
instance decidableWellFormed : DecidablePred WellFormed
  | .nil => inferInstanceAs (Decidable True)
  | .file name _ rest =>
    have := decidableWellFormed rest
    inferInstanceAs (Decidable (IsFileName name ∧ name ∉ rest.names ∧ rest.WellFormed))
  | .dir name inside rest =>
    have := decidableWellFormed inside
    have := decidableWellFormed rest
    inferInstanceAs (Decidable
      (IsFileName name ∧ name ∉ rest.names ∧ inside.WellFormed ∧ rest.WellFormed))

end Listing

def Entry.WellFormed : Entry → Prop
  | .file _ => True
  | .dir inside => inside.WellFormed

namespace Listing

@[simp] theorem names_cons (name : String) (entry : Entry) (rest : Listing) :
    (cons name entry rest).names = name :: rest.names := by
  cases entry <;> rfl

theorem wellFormed_cons_iff {name : String} {entry : Entry} {rest : Listing} :
    (cons name entry rest).WellFormed ↔
      IsFileName name ∧ name ∉ rest.names ∧ entry.WellFormed ∧ rest.WellFormed := by
  cases entry <;> simp [cons, WellFormed, Entry.WellFormed]

theorem isSome_find?_iff {l : Listing} {name : String} :
    (l.find? name).isSome ↔ name ∈ l.names := by
  induction l using cons_induction with
  | nil => simp [find?, names]
  | cons n entry rest ih =>
      by_cases hname : name = n <;> simp [find?_cons, hname, ih]

theorem WellFormed.isFileName
    {l : Listing} (h : l.WellFormed) {name : String} (hname : name ∈ l.names) :
    IsFileName name := by
  induction l using cons_induction with
  | nil => simp [names] at hname
  | cons n entry rest ih =>
      obtain ⟨hn, -, -, hrest⟩ := wellFormed_cons_iff.mp h
      rw [names_cons, List.mem_cons] at hname
      rcases hname with rfl | hname
      · exact hn
      · exact ih hrest hname

theorem WellFormed.find?
    {l : Listing} (h : l.WellFormed) {name : String} {entry : Entry}
    (hfound : l.find? name = some entry) :
    entry.WellFormed := by
  induction l using cons_induction with
  | nil => simp [Listing.find?] at hfound
  | cons n e rest ih =>
      obtain ⟨-, -, he, hrest⟩ := wellFormed_cons_iff.mp h
      rw [find?_cons] at hfound
      by_cases hname : name = n
      · rw [if_pos hname, Option.some.injEq] at hfound
        exact hfound ▸ he
      · rw [if_neg hname] at hfound
        exact ih hrest hfound

theorem mem_names_set_iff {l : Listing} {name n : String} {entry : Entry} :
    n ∈ (l.set name entry).names ↔ n = name ∨ n ∈ l.names := by
  rw [← isSome_find?_iff, ← isSome_find?_iff, find?_set]
  by_cases hn : n = name <;> simp [hn]

theorem WellFormed.set
    {l : Listing} (h : l.WellFormed) {name : String} {entry : Entry}
    (hname : IsFileName name) (hentry : entry.WellFormed) :
    (l.set name entry).WellFormed := by
  induction l using cons_induction with
  | nil => exact wellFormed_cons_iff.mpr ⟨hname, by simp [names], hentry, trivial⟩
  | cons n e rest ih =>
      obtain ⟨hn, hnew, he, hrest⟩ := wellFormed_cons_iff.mp h
      rw [set_cons]
      by_cases heq : name = n
      · subst heq
        rw [if_pos rfl, wellFormed_cons_iff]
        exact ⟨hname, hnew, hentry, hrest⟩
      · rw [if_neg heq, wellFormed_cons_iff, mem_names_set_iff]
        exact ⟨hn, by simp [hnew, Ne.symm heq], he, ih hrest⟩

theorem WellFormed.modifyAt
    {l : Listing} (h : l.WellFormed) {f : Listing → Listing}
    (hf : ∀ l' : Listing, l'.WellFormed → (f l').WellFormed) (place : List String) :
    (l.modifyAt f place).WellFormed := by
  induction place generalizing l with
  | nil => exact hf l h
  | cons name place ih =>
      rw [Listing.modifyAt]
      cases hfound : l.find? name with
      | none => exact h
      | some entry =>
          cases entry with
          | file content => exact h
          | dir inside =>
              have hmem : name ∈ l.names := by simp [← isSome_find?_iff, hfound]
              exact h.set (h.isFileName hmem) (ih (h.find? hfound))

theorem WellFormed.get?
    {l : Listing} (h : l.WellFormed) {place : List String} {entry : Entry}
    (hget : l.get? place = some entry) :
    entry.WellFormed := by
  induction place generalizing l with
  | nil =>
      simp only [Listing.get?, Option.some.injEq] at hget
      exact hget ▸ h
  | cons name place ih =>
      cases hfound : l.find? name with
      | none => cases place <;> simp [Listing.get?, hfound] at hget
      | some found =>
          have hwf := h.find? hfound
          cases place with
          | nil =>
              obtain rfl : found = entry := by simpa [Listing.get?, hfound] using hget
              exact hwf
          | cons next place =>
              cases found with
              | file content => simp [Listing.get?, hfound] at hget
              | dir inside => exact ih hwf (by simpa [Listing.get?, hfound] using hget)

theorem WellFormed.isFileName_of_isSome
    {l : Listing} (h : l.WellFormed) {place : List String} (hsome : (l.node? place).isSome)
    {name : String} (hname : name ∈ place) :
    IsFileName name := by
  induction place generalizing l with
  | nil => simp at hname
  | cons first place ih =>
      rw [node?_cons] at hsome
      cases hfound : l.find? first with
      | none => simp [hfound] at hsome
      | some entry =>
          have hfirst : first ∈ l.names := by simp [← isSome_find?_iff, hfound]
          rcases List.mem_cons.mp hname with rfl | hname
          · exact h.isFileName hfirst
          · cases entry with
            | file content =>
                have hnil : place = [] := by
                  by_contra hne
                  simp [hfound, hne] at hsome
                simp [hnil] at hname
            | dir inside =>
                rw [hfound] at hsome
                exact ih (h.find? hfound) hsome hname

/-! ## The order of the entries -/

/-- A tree with every file emptied. -/
def shape : Listing → Listing
  | .nil => .nil
  | .file name _ rest => .file name .empty rest.shape
  | .dir name inside rest => .dir name inside.shape rest.shape

end Listing

def Entry.shape : Entry → Entry
  | .file _ => .file .empty
  | .dir inside => .dir inside.shape

namespace Listing

@[simp] theorem shape_cons (name : String) (entry : Entry) (rest : Listing) :
    (cons name entry rest).shape = cons name entry.shape rest.shape := by
  cases entry <;> rfl

@[simp] theorem names_shape (l : Listing) : l.shape.names = l.names := by
  induction l using cons_induction with
  | nil => rfl
  | cons name entry rest ih => simp [ih]

theorem shape_set
    {l : Listing} {name : String} {entry e : Entry} (hfound : l.find? name = some e)
    (hshape : entry.shape = e.shape) :
    (l.set name entry).shape = l.shape := by
  induction l using cons_induction with
  | nil => simp [find?] at hfound
  | cons n first rest ih =>
      rw [find?_cons] at hfound
      rw [set_cons]
      by_cases hname : name = n
      · rw [if_pos hname, Option.some.injEq] at hfound
        rw [if_pos hname, shape_cons, shape_cons, hshape, hname, hfound]
      · rw [if_neg hname] at hfound
        rw [if_neg hname, shape_cons, shape_cons, ih hfound]

/-- Writing over a file moves no entry. -/
theorem shape_modifyAt_set
    {l : Listing} {parent : List String} {name : String} {old : ByteArray}
    (h : l.node? (parent ++ [name]) = some (.file old)) (content : ByteArray) :
    (l.modifyAt (·.set name (.file content)) parent).shape = l.shape := by
  induction parent generalizing l with
  | nil =>
      exact shape_set (node?_singleton_eq_file_iff.mp h) rfl
  | cons first parent ih =>
      rw [List.cons_append, node?_cons] at h
      rw [modifyAt]
      cases hfound : l.find? first with
      | none => rfl
      | some found =>
          cases found with
          | file _ => rfl
          | dir inside =>
              rw [hfound] at h
              exact shape_set hfound (congrArg Entry.dir (ih h))

theorem content?_rest
    {name : String} {rest : Listing} (hnew : name ∉ rest.names) (entry : Entry) :
    rest.content? = fun place =>
      if place.head? = some name then none else (cons name entry rest).content? place := by
  funext place
  cases place with
  | nil => simp [content?]
  | cons first names =>
      rw [content?, content?, node?_cons, node?_cons, find?_cons]
      by_cases hfirst : first = name
      · subst hfirst
        have hnone : rest.find? first = none := by
          rwa [← Option.not_isSome_iff_eq_none, isSome_find?_iff]
        simp [hnone]
      · simp [hfirst]

theorem content?_rest_eq
    {name : String} {rest rest' : Listing} (entry entry' : Entry)
    (hnew : name ∉ rest.names) (hnew' : name ∉ rest'.names)
    (hcontent : (cons name entry rest).content? = (cons name entry' rest').content?) :
    rest.content? = rest'.content? := by
  rw [content?_rest hnew entry, content?_rest hnew' entry', hcontent]

/-- Well-formed trees with the same entries in the same order are equal if their files have the
same contents. -/
theorem WellFormed.eq_of_shape_eq
    {l l' : Listing} (h : l.WellFormed) (hshape : l.shape = l'.shape)
    (hcontent : l.content? = l'.content?) :
    l = l' := by
  induction l generalizing l' with
  | nil =>
      cases l' with
      | nil => rfl
      | file _ _ _ | dir _ _ _ => simp [shape] at hshape
  | file name content rest ih =>
      cases l' with
      | nil | dir _ _ _ => simp [shape] at hshape
      | file name' content' rest' =>
          simp only [shape, file.injEq, true_and] at hshape
          obtain ⟨rfl, hrest⟩ := hshape
          obtain ⟨-, hnew, hwf⟩ := h
          have hnew' : name ∉ rest'.names := by rwa [← names_shape, ← hrest, names_shape]
          have hhere : content = content' := by
            have hsame := congrFun hcontent [name]
            simpa [content?, node?_singleton, Listing.find?, Entry.node, Node.content?] using hsame
          have htail : rest = rest' := by
            apply ih hwf hrest
            exact content?_rest_eq (.file content) (.file content') hnew hnew' hcontent
          rw [hhere, htail]
  | dir name inside rest ih_inside ih =>
      cases l' with
      | nil | file _ _ _ => simp [shape] at hshape
      | dir name' inside' rest' =>
          simp only [shape, dir.injEq] at hshape
          obtain ⟨rfl, hinside, hrest⟩ := hshape
          obtain ⟨-, hnew, hwf_inside, hwf⟩ := h
          have hnew' : name ∉ rest'.names := by rwa [← names_shape, ← hrest, names_shape]
          have hhere : inside = inside' := by
            apply ih_inside hwf_inside hinside
            funext names
            have hsame := congrFun hcontent (name :: names)
            simpa [content?, node?_cons, Listing.find?] using hsame
          have htail : rest = rest' := by
            apply ih hwf hrest
            exact content?_rest_eq (.dir inside) (.dir inside') hnew hnew' hcontent
          rw [hhere, htail]

end Listing

end MarkerDoc
