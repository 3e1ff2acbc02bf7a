import MarkerDoc.Proofs.Disk

/-!
# Runs of writes

A run of writes makes directories and writes files, one after the other.  Afterwards each of its
files is there, with what was written to it last; every other file is as it was before.  Written
again, the same files leave the disk as it is.
-/

namespace MarkerDoc.Disk

def content? (d : Disk) (place : List String) : Option ByteArray :=
  d.top.content? place

theorem content?_eq_some_iff {d : Disk} {place : List String} {content : ByteArray} :
    d.content? place = some content ↔ d.node? place = some (.file content) :=
  Listing.content?_eq_some_iff

theorem Takes.content?_put
    {d : Disk} {parent : List String} {name : String} {entry : Entry}
    (h : d.Takes parent name entry) :
    (d.put parent name entry).content? =
      Function.update d.content? (parent ++ [name]) entry.node.content? := by
  funext place
  have hnode := congrFun h.node?_put place
  by_cases hplace : place = parent ++ [name]
  · subst hplace
    rw [Function.update_self] at hnode ⊢
    exact congrArg (·.bind Node.content?) hnode
  · rw [Function.update_of_ne hplace] at hnode ⊢
    exact congrArg (·.bind Node.content?) hnode

/-- A run that writes some files in order. -/
inductive Writes : Disk → List (Path × ByteArray) → Disk → Prop
  | done (d : Disk) : Writes d [] d
  | dir {d d₁ d' : Disk} {p : Path} {files : List (Path × ByteArray)}
      (h : d.createDir p = .ok d₁) (rest : Writes d₁ files d') : Writes d files d'
  | file {d d₁ d' : Disk} {p : Path} {content : ByteArray} {files : List (Path × ByteArray)}
      (h : d.write p content = .ok d₁) (rest : Writes d₁ files d') :
      Writes d ((p, content) :: files) d'

/-- What a list of writes leaves at a place, if it writes there at all. -/
def lastWritten? (d : Disk) (files : List (Path × ByteArray)) (place : List String) :
    Option ByteArray :=
  ((files.filter fun f => d.locate f.1 = .ok place).map Prod.snd).getLast?

theorem lastWritten?_cons
    (d : Disk) (f : Path × ByteArray) (files : List (Path × ByteArray)) (place : List String) :
    d.lastWritten? (f :: files) place =
      (d.lastWritten? files place).or (if d.locate f.1 = .ok place then some f.2 else none) := by
  unfold lastWritten?
  by_cases hplace : d.locate f.1 = .ok place
  · simp [hplace, List.getLast?_cons]
  · simp [hplace]

theorem lastWritten?_eq_none
    {d : Disk} {files : List (Path × ByteArray)} {place : List String}
    (h : ∀ f ∈ files, d.locate f.1 ≠ .ok place) : d.lastWritten? files place = none := by
  simpa [lastWritten?, List.filter_eq_nil_iff] using h

namespace Writes

variable {d d₁ d' : Disk} {files files' : List (Path × ByteArray)}

theorem append (h : Writes d files d₁) (h' : Writes d₁ files' d') :
    Writes d (files ++ files') d' := by
  induction h with
  | done _ => exact h'
  | dir hdir _ ih => exact .dir hdir (ih h')
  | file hfile _ ih => exact .file hfile (ih h')

/-- Each step of a run puts one entry somewhere. -/
theorem isExtension (h : Writes d files d') : d.Extends d' := by
  induction h with
  | done d => exact .refl d
  | dir hdir _ ih =>
      obtain ⟨parent, name, htakes, rfl, -⟩ := exists_put_of_createDir hdir
      exact htakes.extends_put.trans ih
  | file hfile _ ih =>
      obtain ⟨parent, name, htakes, rfl, -⟩ := exists_put_of_write hfile
      exact htakes.extends_put.trans ih

theorem wellFormed (h : Writes d files d') (hwf : d.top.WellFormed) : d'.top.WellFormed := by
  induction h with
  | done _ => exact hwf
  | dir hdir _ ih =>
      obtain ⟨parent, name, htakes, rfl, -⟩ := exists_put_of_createDir hdir
      exact ih (htakes.wellFormed_put hwf)
  | file hfile _ ih =>
      obtain ⟨parent, name, htakes, rfl, -⟩ := exists_put_of_write hfile
      exact ih (htakes.wellFormed_put hwf)

theorem isFile (h : Writes d files d') {f : Path × ByteArray} (hf : f ∈ files) :
    d'.isFile f.1 = true := by
  induction h with
  | done _ => simp at hf
  | dir _ _ ih => exact ih hf
  | file hfile rest ih =>
      rcases List.mem_cons.mp hf with rfl | hf
      · obtain ⟨parent, name, htakes, rfl, hlocate⟩ := exists_put_of_write hfile
        apply rest.isExtension.isFile
        rw [isFile_iff]
        exact ⟨_, _, hlocate, by rw [htakes.node?_put, Function.update_self]; rfl⟩
      · exact ih hf

/-- The last write to a file counts, and files that are not written stay. -/
theorem content?_eq (h : Writes d files d') (place : List String) :
    d'.content? place = (d'.lastWritten? files place).or (d.content? place) := by
  induction h with
  | done d => rfl
  | @dir d _ _ _ _ hdir rest ih =>
      obtain ⟨parent, name, htakes, rfl, -⟩ := exists_put_of_createDir hdir
      rw [ih, htakes.content?_put]
      by_cases hplace : place = parent ++ [name]
      · subst hplace
        have hfree : d.content? (parent ++ [name]) = none :=
          congrArg (·.bind Node.content?) (htakes.kind rfl)
        rw [Function.update_self, hfree]
        rfl
      · rw [Function.update_of_ne hplace]
  | file hfile rest ih =>
      obtain ⟨parent, name, htakes, rfl, hlocate⟩ := exists_put_of_write hfile
      rw [ih, htakes.content?_put, lastWritten?_cons, rest.isExtension.locate hlocate]
      by_cases hplace : place = parent ++ [name]
      · subst hplace
        simp [Entry.node, Node.content?]
      · simp [Function.update_of_ne hplace, Ne.symm hplace]

end Writes

theorem createDirsFrom_cases
    {fuel : Nat} {d d' : Disk} {p : Path} (h : createDirsFrom fuel d p = .ok d') :
    d.Writes [] d' ∧ (p.isEmpty = true ∨ d'.isDir p = true) := by
  induction fuel generalizing d d' p with
  | zero => simp [createDirsFrom] at h
  | succ fuel ih =>
      rw [createDirsFrom] at h
      by_cases hempty : p.isEmpty = true
      · rw [if_pos hempty] at h
        cases h
        exact ⟨.done d, .inl hempty⟩
      · rw [if_neg hempty] at h
        split at h
        · next made hmade =>
            cases h
            exact ⟨.dir hmade (.done _), .inr (isDir_of_createDir hmade)⟩
        · split at h
          · simp at h
          · next parent _ =>
              obtain ⟨d₁, hparent, h⟩ := bind_eq_ok_iff.mp h
              obtain ⟨hwrites, -⟩ := ih hparent
              split at h
              · next made hmade =>
                  cases h
                  exact ⟨hwrites.append (.dir hmade (.done _)), .inr (isDir_of_createDir hmade)⟩
              · split_ifs at h with hdir
                cases h
                exact ⟨hwrites, .inr hdir⟩
        · split_ifs at h with hdir
          cases h
          exact ⟨.done d, .inr hdir⟩

theorem writes_of_createDirs {d d' : Disk} {p : Path} (h : d.createDirs p = .ok d') :
    d.Writes [] d' :=
  (createDirsFrom_cases h).1

theorem isDir_of_createDirs
    {d d' : Disk} {p : Path} (h : d.createDirs p = .ok d') (hp : p.isEmpty = false) :
    d'.isDir p = true :=
  (createDirsFrom_cases h).2.resolve_left (by simp [hp])

/-! ## Writing again -/

theorem exists_overwrite
    {d : Disk} {p : Path} (hfile : d.isFile p = true) (content : ByteArray) :
    ∃ e, d.write p content = .ok e ∧ e.top.shape = d.top.shape := by
  obtain ⟨place, old, hlocate, hnode⟩ := isFile_iff.mp hfile
  obtain ⟨parent, name, rfl, -, hwrite⟩ := exists_write_of_locate hlocate hnode content
  exact ⟨_, hwrite, Listing.shape_modifyAt_set hnode content⟩

theorem lastWritten?_congr
    {d e : Disk} {files : List (Path × ByteArray)} (h : ∀ f ∈ files, e.locate f.1 = d.locate f.1) :
    e.lastWritten? files = d.lastWritten? files := by
  funext place
  unfold lastWritten?
  rw [List.filter_congr]
  intro f hf
  rw [h f hf]

/-- Writing the same files once more, with nothing new made on the way, changes nothing. -/
theorem Writes.eq_of_again
    {d d' e : Disk} {files : List (Path × ByteArray)} (h : Writes d files d')
    (hagain : Writes d' files e) (hwf : d.top.WellFormed)
    (hshape : e.top.shape = d'.top.shape) :
    e = d' := by
  have hlocate : ∀ f ∈ files, e.locate f.1 = d'.locate f.1 := by
    intro f hf
    obtain ⟨place, content, hplace, -⟩ := isFile_iff.mp (h.isFile hf)
    rw [hplace, hagain.isExtension.locate hplace]
  have hcontent : d'.content? = e.content? := by
    funext place
    rw [hagain.content?_eq, lastWritten?_congr hlocate, h.content?_eq]
    cases d'.lastWritten? files place <;> simp
  have htop : d'.top = e.top := (h.wellFormed hwf).eq_of_shape_eq hshape.symm hcontent
  have hcwd := hagain.isExtension.cwd
  have hlimit := hagain.isExtension.maxPath
  cases e
  cases d'
  simp_all

end MarkerDoc.Disk
