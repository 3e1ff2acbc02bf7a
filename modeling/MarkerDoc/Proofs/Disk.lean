import MarkerDoc.Proofs.FileTree

/-!
# Following paths on a disk

Where a path leads depends only on what stands where.  A disk that has grown, by directories that
were made and files that were written, still leads every path to where it led before.

Making a directory and writing a file change what stands at one place: the one where the path leads
afterwards.
-/

namespace MarkerDoc

theorem bind_eq_ok_iff {ε α β : Type} {x : Except ε α} {f : α → Except ε β} {b : β} :
    x >>= f = .ok b ↔ ∃ a, x = .ok a ∧ f a = .ok b := by
  cases x <;> simp [bind, Except.bind]

namespace Disk

/-- What stands at a place of the disk. -/
def node? (d : Disk) (place : List String) : Option Node :=
  d.top.node? place

theorem listing_eq_ok_iff {d : Disk} {place : List String} {inside : Listing} :
    d.listing place = .ok inside ↔ d.top.get? place = some (.dir inside) := by
  rw [listing]
  cases d.top.get? place with
  | none => simp
  | some entry => cases entry <;> simp

theorem exists_listing_iff {d : Disk} {place : List String} :
    (∃ inside, d.listing place = .ok inside) ↔ d.node? place = some .dir := by
  simp only [listing_eq_ok_iff, node?, Listing.node?_eq_dir_iff]

/-! ## Steps of a path -/

/-- Where one piece of a path leads from a directory. -/
inductive Enters (d : Disk) (place : List String) : String → List String → Prop
  | stay {piece : String} (hidle : Path.isIdle piece = true) : Enters d place piece place
  | up : Enters d place ".." place.dropLast
  | into {name : String} (hname : Path.component? name = some (.name name))
      (hsize : name.length ≤ maxName) (hnode : (d.node? (place ++ [name])).isSome) :
      Enters d place name (place ++ [name])

theorem enter_eq_ok_iff {d : Disk} {place place' : List String} {piece : String} :
    d.enter place piece = .ok place' ↔
      d.node? place = some .dir ∧ d.Enters place piece place' := by
  rw [← exists_listing_iff, enter, bind_eq_ok_iff]
  constructor
  · rintro ⟨inside, hinside, h⟩
    refine ⟨⟨inside, hinside⟩, ?_⟩
    have hnode := Listing.node?_concat_of_get? (listing_eq_ok_iff.mp hinside) piece
    split at h
    · next hidle =>
        cases h
        exact .stay hidle
    · next hidle =>
        split at h
        · next hup =>
            cases h
            exact hup ▸ .up
        · next hup =>
            split at h
            · cases h
            · next hsize =>
                cases hfound : inside.find? piece with
                | none => simp [hfound] at h
                | some found =>
                    rw [hfound] at h
                    cases h
                    refine .into ?_ (by omega) ?_
                    · exact Path.component?_eq_name_iff.mpr ⟨rfl, by simpa using hidle, hup⟩
                    · rw [node?, hnode, hfound]
                      rfl
  · rintro ⟨⟨inside, hinside⟩, h⟩
    refine ⟨inside, hinside, ?_⟩
    have hnode := Listing.node?_concat_of_get? (listing_eq_ok_iff.mp hinside) piece
    cases h with
    | stay hidle => rw [if_pos hidle]; rfl
    | up => rfl
    | into hname hsize hsome =>
        obtain ⟨-, hidle, hup⟩ := Path.component?_eq_name_iff.mp hname
        rw [node?, hnode, Option.isSome_map] at hsome
        obtain ⟨found, hfound⟩ := Option.isSome_iff_exists.mp hsome
        rw [if_neg (by simp [hidle]), if_neg hup, if_neg (by omega), hfound]
        rfl

/-- One step leads to something that is there. -/
theorem isSome_node?_of_enter
    {d : Disk} {place place' : List String} {piece : String}
    (h : d.enter place piece = .ok place') : (d.node? place').isSome := by
  obtain ⟨hdir, h⟩ := enter_eq_ok_iff.mp h
  cases h with
  | stay _ => simp [hdir]
  | up => exact Option.isSome_of_eq_some (Listing.node?_dropLast hdir)
  | into _ _ hnode => exact hnode

/-- The steps of some pieces of a path, one after the other. -/
def Follows (d : Disk) (place : List String) (pieces : List String) (place' : List String) : Prop :=
  pieces.foldlM d.enter place = .ok place'

theorem follows_nil_iff {d : Disk} {place place' : List String} :
    d.Follows place [] place' ↔ place = place' := by
  simp [Follows, pure, Except.pure]

theorem follows_cons_iff {d : Disk} {place place' : List String} {piece : String}
    {pieces : List String} :
    d.Follows place (piece :: pieces) place' ↔
      ∃ next, d.enter place piece = .ok next ∧ d.Follows next pieces place' := by
  rw [Follows, List.foldlM_cons, bind_eq_ok_iff]
  rfl

theorem follows_append_iff {d : Disk} {place place' : List String} {front back : List String} :
    d.Follows place (front ++ back) place' ↔
      ∃ next, d.Follows place front next ∧ d.Follows next back place' := by
  rw [Follows, List.foldlM_append, bind_eq_ok_iff]
  rfl

theorem follows_singleton_iff {d : Disk} {place place' : List String} {piece : String} :
    d.Follows place [piece] place' ↔ d.enter place piece = .ok place' := by
  simp [follows_cons_iff, follows_nil_iff]

theorem checkPath_eq_ok_iff {d : Disk} {p : Path} :
    d.checkPath p = .ok () ↔
      Char.ofNat 0 ∉ p.text.toList ∧ p.text ≠ "" ∧ d.fits p = true := by
  unfold checkPath
  split_ifs with hnul hempty hsize
  · simp_all
  · simp_all [Path.isEmpty]
  · simp only [true_iff]
    exact ⟨by simpa using hnul, by simpa [Path.isEmpty] using hempty, hsize⟩
  · simp only [false_iff, not_and]
    intro _ _
    exact hsize

theorem fits_of_length_le
    {d : Disk} {p q : Path} (h : d.fits p = true) (hle : q.text.length ≤ p.text.length) :
    d.fits q = true := by
  unfold fits at h ⊢
  cases hlimit : d.maxPath with
  | none => rfl
  | some limit =>
      rw [hlimit] at h
      simp only [Option.all_some, decide_eq_true_eq] at h ⊢
      omega

theorem locate_eq_ok_iff {d : Disk} {p : Path} {place : List String} :
    d.locate p = .ok place ↔
      d.checkPath p = .ok () ∧ d.Follows (d.origin p) (Text.splitOn "/" p.text) place := by
  rw [locate, bind_eq_ok_iff]
  exact ⟨fun ⟨(), hcheck, hfollows⟩ => ⟨hcheck, hfollows⟩, fun ⟨hcheck, hfollows⟩ =>
    ⟨(), hcheck, hfollows⟩⟩

/-- A path leads to something that is there. -/
theorem isSome_node?_of_locate
    {d : Disk} {p : Path} {place : List String} (h : d.locate p = .ok place) :
    (d.node? place).isSome := by
  obtain ⟨-, hfollows⟩ := locate_eq_ok_iff.mp h
  obtain ⟨front, last, hpieces⟩ := List.eq_nil_or_concat _ |>.resolve_left
    (Text.splitOn_slash_ne_nil p.text)
  rw [hpieces, List.concat_eq_append, follows_append_iff] at hfollows
  obtain ⟨next, -, hlast⟩ := hfollows
  exact isSome_node?_of_enter (follows_singleton_iff.mp hlast)

theorem entry_eq_ok_iff {d : Disk} {p : Path} {e : Entry} :
    d.entry p = .ok e ↔ ∃ place, d.locate p = .ok place ∧ d.top.get? place = some e := by
  rw [entry, bind_eq_ok_iff]
  apply exists_congr
  intro place
  cases d.top.get? place <;> simp [pure, Except.pure, throw, throwThe, MonadExceptOf.throw]

theorem isDir_iff {d : Disk} {p : Path} :
    d.isDir p = true ↔ ∃ place, d.locate p = .ok place ∧ d.node? place = some .dir := by
  have hentry : d.isDir p = true ↔ ∃ inside, d.entry p = .ok (.dir inside) := by
    unfold isDir
    split <;> simp_all
  simp only [hentry, entry_eq_ok_iff, node?, Listing.node?_eq_dir_iff]
  grind

theorem isFile_iff {d : Disk} {p : Path} :
    d.isFile p = true ↔
      ∃ place content, d.locate p = .ok place ∧ d.node? place = some (.file content) := by
  have hentry : d.isFile p = true ↔ ∃ content, d.entry p = .ok (.file content) := by
    unfold isFile
    split <;> simp_all
  simp only [hentry, entry_eq_ok_iff, node?, Listing.node?_eq_file_iff]
  grind

/-- Reading a path gives what stands where it leads. -/
theorem readBytes_of_locate
    {d : Disk} {p : Path} {place : List String} (h : d.locate p = .ok place) :
    d.readBytes p =
      match d.node? place with
      | some (.file content) => .ok content
      | _ => .error .isADirectory := by
  obtain ⟨node, hnode⟩ := Option.isSome_iff_exists.mp (isSome_node?_of_locate h)
  rw [readBytes, hnode]
  cases node with
  | dir =>
      obtain ⟨inside, hget⟩ := Listing.node?_eq_dir_iff.mp hnode
      rw [entry_eq_ok_iff.mpr ⟨place, h, hget⟩]
      rfl
  | file content =>
      rw [entry_eq_ok_iff.mpr ⟨place, h, Listing.node?_eq_file_iff.mp hnode⟩]
      rfl

theorem read_congr
    {d d' : Disk} {p : Path} {place : List String} (h : d.locate p = .ok place)
    (h' : d'.locate p = .ok place) (hnode : d'.node? place = d.node? place) :
    d'.read p = d.read p := by
  rw [read, read, readBytes_of_locate h, readBytes_of_locate h', hnode]

/-! ## Disks that grow -/

/-- What was there is still there: directories as directories and files as files. -/
structure Extends (d d' : Disk) : Prop where
  cwd : d'.cwd = d.cwd
  maxPath : d'.maxPath = d.maxPath
  dir : ∀ {place}, d.node? place = some .dir → d'.node? place = some .dir
  file : ∀ {place content}, d.node? place = some (.file content) →
    ∃ content', d'.node? place = some (.file content')

namespace Extends

variable {d d' d'' : Disk}

theorem refl (d : Disk) : Extends d d :=
  ⟨rfl, rfl, fun h => h, fun h => ⟨_, h⟩⟩

theorem trans (h : Extends d d') (h' : Extends d' d'') : Extends d d'' where
  cwd := h'.cwd.trans h.cwd
  maxPath := h'.maxPath.trans h.maxPath
  dir hdir := h'.dir (h.dir hdir)
  file hfile := by
    obtain ⟨content, hfile'⟩ := h.file hfile
    exact h'.file hfile'

theorem isSome (h : Extends d d') {place : List String} (hsome : (d.node? place).isSome) :
    (d'.node? place).isSome := by
  obtain ⟨node, hnode⟩ := Option.isSome_iff_exists.mp hsome
  cases node with
  | dir => simp [h.dir hnode]
  | file content =>
      obtain ⟨content', hfile⟩ := h.file hnode
      simp [hfile]

/-- What is a directory now was one before, if it was there. -/
theorem dir_of_isSome
    (h : Extends d d') {place : List String} (hdir : d'.node? place = some .dir)
    (hsome : (d.node? place).isSome) : d.node? place = some .dir := by
  obtain ⟨node, hnode⟩ := Option.isSome_iff_exists.mp hsome
  cases node with
  | dir => exact hnode
  | file content =>
      obtain ⟨content', hfile⟩ := h.file hnode
      simp [hdir] at hfile

theorem enter
    (h : Extends d d') {place place' : List String} {piece : String}
    (henter : d.enter place piece = .ok place') : d'.enter place piece = .ok place' := by
  obtain ⟨hdir, hstep⟩ := enter_eq_ok_iff.mp henter
  refine enter_eq_ok_iff.mpr ⟨h.dir hdir, ?_⟩
  cases hstep with
  | stay hidle => exact .stay hidle
  | up => exact .up
  | into hname hsize hnode => exact .into hname hsize (h.isSome hnode)

theorem follows
    (h : Extends d d') {place place' : List String} {pieces : List String}
    (hfollows : d.Follows place pieces place') : d'.Follows place pieces place' := by
  induction pieces generalizing place with
  | nil => exact hfollows
  | cons piece pieces ih =>
      obtain ⟨next, henter, hrest⟩ := follows_cons_iff.mp hfollows
      exact follows_cons_iff.mpr ⟨next, h.enter henter, ih hrest⟩

theorem origin (h : Extends d d') (p : Path) : d'.origin p = d.origin p := by
  rw [Disk.origin, Disk.origin, h.cwd]

theorem fits (h : Extends d d') (p : Path) : d'.fits p = d.fits p := by
  rw [Disk.fits, Disk.fits, h.maxPath]

theorem checkPath (h : Extends d d') (p : Path) : d'.checkPath p = d.checkPath p := by
  rw [Disk.checkPath, Disk.checkPath, h.fits]

theorem locate
    (h : Extends d d') {p : Path} {place : List String} (hlocate : d.locate p = .ok place) :
    d'.locate p = .ok place := by
  obtain ⟨hcheck, hfollows⟩ := locate_eq_ok_iff.mp hlocate
  rw [locate_eq_ok_iff, h.origin, h.checkPath]
  exact ⟨hcheck, h.follows hfollows⟩

theorem isDir (h : Extends d d') {p : Path} (hdir : d.isDir p = true) : d'.isDir p = true := by
  obtain ⟨place, hlocate, hnode⟩ := isDir_iff.mp hdir
  exact isDir_iff.mpr ⟨place, h.locate hlocate, h.dir hnode⟩

theorem isFile (h : Extends d d') {p : Path} (hfile : d.isFile p = true) :
    d'.isFile p = true := by
  obtain ⟨place, content, hlocate, hnode⟩ := isFile_iff.mp hfile
  obtain ⟨content', hnode'⟩ := h.file hnode
  exact isFile_iff.mpr ⟨place, content', h.locate hlocate, hnode'⟩

end Extends

/-! ## One change -/

/-- A disk with an entry put into a directory. -/
def put (d : Disk) (parent : List String) (name : String) (entry : Entry) : Disk :=
  { d with top := d.top.modifyAt (·.set name entry) parent }

/-- That an entry can be put into a directory, in place of nothing or of a file by a file. -/
structure Takes (d : Disk) (parent : List String) (name : String) (entry : Entry) : Prop where
  inDir : d.node? parent = some .dir
  isFileName : IsFileName name
  bare : entry.IsBare
  free : d.node? (parent ++ [name]) ≠ some .dir
  kind : entry.node = .dir → d.node? (parent ++ [name]) = none

namespace Takes

variable {d : Disk} {parent : List String} {name : String} {entry : Entry}

theorem node?_put (h : d.Takes parent name entry) :
    (d.put parent name entry).node? =
      Function.update d.node? (parent ++ [name]) (some entry.node) :=
  Listing.node?_modifyAt_set h.bare h.inDir h.free

theorem extends_put (h : d.Takes parent name entry) : d.Extends (d.put parent name entry) where
  cwd := rfl
  maxPath := rfl
  dir {place} hdir := by
    rw [h.node?_put, Function.update_of_ne, hdir]
    rintro rfl
    exact h.free hdir
  file {place content} hfile := by
    rw [h.node?_put]
    by_cases hplace : place = parent ++ [name]
    · subst hplace
      rw [Function.update_self]
      cases entry with
      | file content' => exact ⟨content', rfl⟩
      | dir inside => simp [h.kind rfl] at hfile
    · rw [Function.update_of_ne hplace]
      exact ⟨content, hfile⟩

theorem enter_put (h : d.Takes parent name entry) :
    (d.put parent name entry).enter parent name = .ok (parent ++ [name]) := by
  refine enter_eq_ok_iff.mpr ⟨h.extends_put.dir h.inDir, ?_⟩
  refine .into h.isFileName.name h.isFileName.size ?_
  rw [h.node?_put, Function.update_self]
  rfl

theorem wellFormed_put (h : d.Takes parent name entry) (hwf : d.top.WellFormed) :
    (d.put parent name entry).top.WellFormed := by
  have hentry : entry.WellFormed := by
    have hbare := h.bare
    cases entry with
    | file content => trivial
    | dir inside =>
        obtain rfl : inside = .nil := hbare
        trivial
  exact hwf.modifyAt (fun l hl => hl.set h.isFileName hentry) parent

end Takes

theorem splitLast_concat (front : List String) (last : String) :
    splitLast (front ++ [last]) = (front, last) := by
  simp [splitLast]

theorem isFileName_of_mem_splitOn
    {d : Disk} {p : Path} (hcheck : d.checkPath p = .ok ()) {name : String}
    (hmem : name ∈ Text.splitOn "/" p.text) (hname : Path.component? name = some (.name name))
    (hsize : name.length ≤ maxName) : IsFileName name := by
  have hslash := Text.slash_not_mem_of_mem_splitOn hmem
  have hnul : Char.ofNat 0 ∉ name.toList := fun h =>
    (checkPath_eq_ok_iff.mp hcheck).1 (Text.mem_of_mem_splitOn_slash hmem h)
  exact ⟨⟨hname, hslash⟩, hnul, hsize⟩

/-- Pieces that say nothing lead from a directory to itself. -/
theorem follows_idle
    {d : Disk} {place : List String} (hdir : d.node? place = some .dir) {pieces : List String}
    (hidle : ∀ s ∈ pieces, Path.isIdle s = true) : d.Follows place pieces place := by
  induction pieces with
  | nil => exact follows_nil_iff.mpr rfl
  | cons piece pieces ih =>
      have hstay := enter_eq_ok_iff.mpr ⟨hdir, .stay (hidle piece (by simp))⟩
      exact follows_cons_iff.mpr ⟨place, hstay, ih fun s hs => hidle s (by simp [hs])⟩

theorem exists_splitOn_eq_concat (p : Path) :
    ∃ front last, Text.splitOn "/" p.text = front ++ [last] := by
  have hne := Text.splitOn_slash_ne_nil p.text
  exact ⟨_, _, (List.dropLast_concat_getLast hne).symm⟩

/-- Writing a file puts it where its path leads afterwards. -/
theorem exists_put_of_write
    {d d' : Disk} {p : Path} {content : ByteArray} (h : d.write p content = .ok d') :
    ∃ parent name, d.Takes parent name (.file content) ∧ d' = d.put parent name (.file content) ∧
      d'.locate p = .ok (parent ++ [name]) := by
  obtain ⟨front, last, hpieces⟩ := exists_splitOn_eq_concat p
  rw [write, bind_eq_ok_iff] at h
  obtain ⟨⟨⟩, hcheck, h⟩ := h
  simp only [hpieces, splitLast_concat] at h
  split at h
  · obtain ⟨_, -, h⟩ := bind_eq_ok_iff.mp h
    cases h
  · next hlast =>
      obtain ⟨parent, hfollows, h⟩ := bind_eq_ok_iff.mp h
      obtain ⟨inside, hlisting, h⟩ := bind_eq_ok_iff.mp h
      split at h
      · cases h
      · next hsize =>
          have hdir := exists_listing_iff.mp ⟨inside, hlisting⟩
          have hnode := Listing.node?_concat_of_get? (listing_eq_ok_iff.mp hlisting) last
          have hname : Path.component? last = some (.name last) := by
            rw [Path.component?_eq_name_iff]
            simpa using hlast
          split at h
          · cases h
          · next hfree =>
              have htakes : d.Takes parent last (.file content) := by
                refine ⟨hdir, ?_, trivial, ?_, nofun⟩
                · exact isFileName_of_mem_splitOn hcheck (by simp [hpieces]) hname (by omega)
                · rw [node?, hnode]
                  cases hfound : inside.find? last with
                  | none => simp
                  | some found =>
                      cases found with
                      | file _ => simp [Entry.node]
                      | dir _ => exact absurd hfound (hfree _)
              obtain rfl : d.put parent last (.file content) = d' := by
                cases h
                rfl
              refine ⟨parent, last, htakes, rfl, ?_⟩
              rw [locate_eq_ok_iff, hpieces, follows_append_iff]
              exact ⟨hcheck, parent, htakes.extends_put.follows hfollows,
                follows_singleton_iff.mpr htakes.enter_put⟩

/-- A path that leads to a file ends with the file's name. -/
theorem exists_name_of_file
    {d : Disk} {p : Path} {place : List String} {content : ByteArray}
    (hlocate : d.locate p = .ok place) (hfile : d.node? place = some (.file content)) :
    ∃ front parent name, Text.splitOn "/" p.text = front ++ [name] ∧
      d.Follows (d.origin p) front parent ∧ d.node? parent = some .dir ∧ IsFileName name ∧
      place = parent ++ [name] := by
  obtain ⟨front, last, hpieces⟩ := exists_splitOn_eq_concat p
  obtain ⟨hcheck, hfollows⟩ := locate_eq_ok_iff.mp hlocate
  rw [hpieces, follows_append_iff] at hfollows
  obtain ⟨parent, hfront, hlast⟩ := hfollows
  obtain ⟨hdir, hstep⟩ := enter_eq_ok_iff.mp (follows_singleton_iff.mp hlast)
  cases hstep with
  | stay hidle => simp [hdir] at hfile
  | up =>
      have hup : d.node? parent.dropLast = some .dir := Listing.node?_dropLast hdir
      simp [hup] at hfile
  | into hname hsize hsome =>
      refine ⟨front, parent, last, hpieces, hfront, hdir, ?_, rfl⟩
      exact isFileName_of_mem_splitOn hcheck (by simp [hpieces]) hname hsize

/-- A file can be written over. -/
theorem exists_write_of_locate
    {d : Disk} {p : Path} {place : List String} {old : ByteArray}
    (hlocate : d.locate p = .ok place) (hfile : d.node? place = some (.file old))
    (content : ByteArray) :
    ∃ parent name, place = parent ++ [name] ∧ d.Takes parent name (.file content) ∧
      d.write p content = .ok (d.put parent name (.file content)) := by
  obtain ⟨hcheck, -⟩ := locate_eq_ok_iff.mp hlocate
  obtain ⟨front, parent, name, hpieces, hfront, hdir, hname, rfl⟩ :=
    exists_name_of_file hlocate hfile
  refine ⟨parent, name, rfl, ⟨hdir, hname, trivial, by simp [hfile], nofun⟩, ?_⟩
  obtain ⟨inside, hlisting⟩ := exists_listing_iff.mpr hdir
  have hnode := Listing.node?_concat_of_get? (listing_eq_ok_iff.mp hlisting) name
  rw [node?, hnode, Option.map_eq_some_iff] at hfile
  obtain ⟨found, hfound, hfile⟩ := hfile
  cases found with
  | dir _ => simp [Entry.node] at hfile
  | file _ =>
      have hfold : front.foldlM d.enter (d.origin p) = .ok parent := hfront
      obtain ⟨-, hidle, hup⟩ := Path.component?_eq_name_iff.mp hname.name
      simp [write, hcheck, hpieces, splitLast_concat, hidle, hup, hfold, hlisting, hfound,
        bind, Except.bind, pure, Except.pure, Nat.not_lt.mpr hname.size, put]

/-- The pieces of a path without slashes at its end, which say nothing. -/
theorem exists_dropEndWhile_slashes (p : Path) :
    ∃ kept slashes, Text.splitOn "/" p.text = kept ++ slashes ∧
      (∀ s ∈ slashes, Path.isIdle s = true) ∧
      Text.dropEndWhile (· == "") (Text.splitOn "/" p.text) = kept := by
  refine ⟨_, _, List.rdropWhile_append_rtakeWhile.symm, ?_, rfl⟩
  intro s hs
  have hempty := List.mem_rtakeWhile_imp hs
  simp [Path.isIdle, beq_iff_eq.mp hempty]

/-- Making a directory puts it where its path leads afterwards. -/
theorem exists_put_of_createDir {d d' : Disk} {p : Path} (h : d.createDir p = .ok d') :
    ∃ parent name, d.Takes parent name (.dir .nil) ∧ d' = d.put parent name (.dir .nil) ∧
      d'.locate p = .ok (parent ++ [name]) := by
  rw [createDir, bind_eq_ok_iff] at h
  obtain ⟨⟨⟩, hcheck, h⟩ := h
  obtain ⟨kept, slashes, hpieces, hslashes, hkept⟩ := exists_dropEndWhile_slashes p
  rw [hkept] at h
  rcases List.eq_nil_or_concat kept with rfl | ⟨front, last, rfl⟩
  · obtain ⟨_, -, h⟩ := bind_eq_ok_iff.mp h
    cases h
  · simp only [List.concat_eq_append, splitLast_concat] at h hpieces
    split at h
    · obtain ⟨_, -, h⟩ := bind_eq_ok_iff.mp h
      cases h
    · next hlast =>
        obtain ⟨parent, hfollows, h⟩ := bind_eq_ok_iff.mp h
        obtain ⟨inside, hlisting, h⟩ := bind_eq_ok_iff.mp h
        have hdir := exists_listing_iff.mp ⟨inside, hlisting⟩
        have hnode := Listing.node?_concat_of_get? (listing_eq_ok_iff.mp hlisting) last
        have hname : Path.component? last = some (.name last) := by
          rw [Path.component?_eq_name_iff]
          simpa using hlast
        split_ifs at h with hsize hfound
        have hfree : d.node? (parent ++ [last]) = none := by
          rw [node?, hnode, Option.map_eq_none_iff]
          simpa using hfound
        have htakes : d.Takes parent last (.dir .nil) := by
          refine ⟨hdir, ?_, rfl, by simp [hfree], fun _ => hfree⟩
          exact isFileName_of_mem_splitOn hcheck (by simp [hpieces]) hname (by omega)
        obtain rfl : d.put parent last (.dir .nil) = d' := by
          cases h
          rfl
        have hmade : (d.put parent last (.dir .nil)).node? (parent ++ [last]) = some .dir := by
          rw [htakes.node?_put, Function.update_self]
          rfl
        refine ⟨parent, last, htakes, rfl, ?_⟩
        rw [locate_eq_ok_iff, hpieces, follows_append_iff]
        refine ⟨hcheck, _, ?_, follows_idle hmade hslashes⟩
        rw [follows_append_iff]
        exact ⟨parent, htakes.extends_put.follows hfollows,
          follows_singleton_iff.mpr htakes.enter_put⟩

theorem isDir_of_createDir {d d' : Disk} {p : Path} (h : d.createDir p = .ok d') :
    d'.isDir p = true := by
  obtain ⟨parent, name, htakes, rfl, hlocate⟩ := exists_put_of_createDir h
  refine isDir_iff.mpr ⟨_, hlocate, ?_⟩
  rw [htakes.node?_put, Function.update_self]
  rfl

theorem createDir_of_isDir {d : Disk} {p : Path} (h : d.isDir p = true) :
    d.createDir p = .error .alreadyExists := by
  obtain ⟨place, hlocate, hdir⟩ := isDir_iff.mp h
  obtain ⟨hcheck, hfollows⟩ := locate_eq_ok_iff.mp hlocate
  obtain ⟨kept, slashes, hpieces, -, hkept⟩ := exists_dropEndWhile_slashes p
  rcases List.eq_nil_or_concat kept with rfl | ⟨front, last, rfl⟩
  · simp [createDir, hcheck, hkept, splitLast, Path.isIdle, hlocate, bind, Except.bind, throw,
      throwThe, MonadExceptOf.throw]
  · rw [List.concat_eq_append] at hkept hpieces
    rw [hpieces, follows_append_iff] at hfollows
    obtain ⟨next, hfollows, -⟩ := hfollows
    obtain ⟨parent, hfront, hlast⟩ := follows_append_iff.mp hfollows
    have hfold : front.foldlM d.enter (d.origin p) = .ok parent := hfront
    obtain ⟨hparent, hstep⟩ := enter_eq_ok_iff.mp (follows_singleton_iff.mp hlast)
    cases hstep with
    | stay hidle =>
        simp [createDir, hcheck, hkept, splitLast_concat, hidle, hlocate, bind, Except.bind, throw,
          throwThe, MonadExceptOf.throw]
    | up =>
        simp [createDir, hcheck, hkept, splitLast_concat, hlocate, bind, Except.bind, throw,
          throwThe, MonadExceptOf.throw]
    | into hname hsize hsome =>
        obtain ⟨inside, hlisting⟩ := exists_listing_iff.mpr hparent
        have hnode := Listing.node?_concat_of_get? (listing_eq_ok_iff.mp hlisting) last
        rw [node?, hnode, Option.isSome_map] at hsome
        obtain ⟨-, hidle, hup⟩ := Path.component?_eq_name_iff.mp hname
        simp [createDir, hcheck, hkept, splitLast_concat, hidle, hup, hfold, hlisting, hsome, bind,
          Except.bind, throw, throwThe, MonadExceptOf.throw, Nat.not_lt.mpr hsize]

/-- A directory that is there needs not be made. -/
theorem createDirs_of_isDir {d : Disk} {p : Path} (h : d.isDir p = true) :
    d.createDirs p = .ok d := by
  obtain ⟨place, hlocate, -⟩ := isDir_iff.mp h
  obtain ⟨hcheck, -⟩ := locate_eq_ok_iff.mp hlocate
  have hempty : p.isEmpty = false := by
    have hne := (checkPath_eq_ok_iff.mp hcheck).2.1
    simpa [Path.isEmpty] using hne
  simp [createDirs, createDirsFrom, hempty, createDir_of_isDir h, h]

end Disk

end MarkerDoc
