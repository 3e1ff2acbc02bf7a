import MarkerDoc.Command
import MarkerDoc.Proofs.Links
import MarkerDoc.Proofs.Writing

/-!
# Writing the pages of a project

The pages of a project are written one after the other, each after its directory has been made, and
the index page comes last.  That is a run of writes, and it reports each file as it is written.  A
disk on which all of these files stand already takes the same run without anything new being made.
-/

namespace MarkerDoc

namespace Command

/-- The line that reports a file. -/
def generatedLine (output : Path) (page : Path × String) : String :=
  "Generated: " ++ (output.join page.1).display ++ "\n"

/-- What is printed while the pages of a project are written. -/
def report (output : Path) (project : Project) : String :=
  String.join (project.pages.map (generatedLine output)) ++
    ("Generated: " ++ (output.join ⟨Page.indexName⟩).display ++ "\n\n" ++
      "Documentation generated in: " ++ output.display ++ "\n")

/-- A page as a file below the output directory. -/
def placed (output : Path) (page : Path × String) : Path × ByteArray :=
  (output.join page.1, page.2.toUTF8)

theorem placed_fst (output : Path) (page : Path × String) :
    (placed output page).1 = output.join page.1 :=
  rfl

/-- The path of the directory of a page. -/
def pageDir (output : Path) (page : Path × String) : Path :=
  (output.join page.1).parent?.getD ⟨""⟩

/-- The name of a directory as a heading. -/
def headingOf (place : List String) : String :=
  (place.getLast?.map Bytes.toText).getD "Documentation"

/-- The files that are written for a project whose directory is at a place. -/
def filesOf (output : Path) (project : Project) (place : List String) : List (Path × ByteArray) :=
  (project.writes (headingOf place)).map (placed output)

variable {output : Path} {s s' : Session}

/-- That the directory of a page needs not be made. -/
def HasDir (d : Disk) (p : Path) : Prop :=
  p.isEmpty = true ∨ d.isDir p = true

theorem HasDir.createDirs {d : Disk} {p : Path} (h : HasDir d p) : d.createDirs p = .ok d := by
  rcases h with hempty | hdir
  · simp [Disk.createDirs, Disk.createDirsFrom, hempty]
  · exact Disk.createDirs_of_isDir hdir

theorem HasDir.mono {d d' : Disk} {p : Path} (h : HasDir d p) (hext : d.Extends d') :
    HasDir d' p :=
  h.imp_right hext.isDir

theorem writePage_eq_ok_iff {page : Path × String} :
    writePage output s page = .ok s' ↔
      ∃ d₁ d₂, s.disk.createDirs (pageDir output page) = .ok d₁ ∧
        d₁.write (output.join page.1) page.2.toUTF8 = .ok d₂ ∧
        s' = { s with disk := d₂ }.print (generatedLine output page) := by
  unfold writePage pageDir generatedLine
  dsimp only
  generalize (output.join page.1).parent?.getD ⟨""⟩ = parent
  generalize output.join page.1 = file
  constructor
  · intro h
    split at h
    · cases h
    · next d₁ hdirs =>
        split at h
        · cases h
        · next d₂ hwrite =>
            rw [Except.ok.injEq] at h
            exact ⟨d₁, d₂, hdirs, hwrite, h.symm⟩
  · rintro ⟨d₁, d₂, hdirs, hwrite, rfl⟩
    rw [hdirs]
    dsimp only
    rw [hwrite]

/-- Writing pages is a run of writes, after which each page has its directory. -/
theorem foldlM_writePage
    {pages : List (Path × String)} (h : pages.foldlM (writePage output) s = .ok s') :
    s.disk.Writes (pages.map (placed output)) s'.disk ∧
      (∀ page ∈ pages, HasDir s'.disk (pageDir output page)) ∧
      s' = { s with disk := s'.disk }.print (String.join (pages.map (generatedLine output))) := by
  induction pages generalizing s with
  | nil =>
      obtain rfl : s = s' := by simpa [pure, Except.pure] using h
      exact ⟨.done _, by simp, by simp [Session.print]⟩
  | cons page pages ih =>
      rw [List.foldlM_cons, bind_eq_ok_iff] at h
      obtain ⟨s₁, hpage, h⟩ := h
      obtain ⟨d₁, d₂, hdirs, hwrite, rfl⟩ := writePage_eq_ok_iff.mp hpage
      obtain ⟨hwrites, hready, hs'⟩ := ih h
      have hstep : d₁.Writes [placed output page] d₂ := .file hwrite (.done _)
      refine ⟨?_, ?_, ?_⟩
      · exact (Disk.writes_of_createDirs hdirs).append (hstep.append hwrites)
      · intro page' hpage'
        rcases List.mem_cons.mp hpage' with rfl | hpage'
        · have hmade : HasDir d₁ (pageDir output page') := (Disk.createDirsFrom_cases hdirs).2
          exact (hmade.mono hstep.isExtension).mono hwrites.isExtension
        · exact hready page' hpage'
      · rw [hs']
        simp [Session.print, String.append_assoc]

/-- What writing the pages of a project at a place does to a disk. -/
structure Generated (output : Path) (project : Project) (place : List String) (d d' : Disk) :
    Prop where
  writes : d.Writes (filesOf output project place) d'
  pages_ne : project.pages ≠ []
  isDir : d'.isDir output = true
  hasDir : ∀ page ∈ project.pages, HasDir d' (pageDir output page)

/-- Writing the pages of a project is a run of writes that ends with the index page. -/
theorem generated_of_generate
    {project : Project} {place : List String} (h : generate output project s = .ok s')
    (houtput : output.isEmpty = false) (hroot : s.disk.locate project.root = .ok place) :
    Generated output project place s.disk s'.disk ∧
      s' = { s with disk := s'.disk }.print (report output project) := by
  simp only [generate] at h
  split at h
  · cases h
  · next d₁ hdirs =>
      obtain ⟨s₂, hpages, h⟩ := bind_eq_ok_iff.mp h
      obtain ⟨hwrites, hready, hs₂⟩ := foldlM_writePage hpages
      have hmade := Disk.writes_of_createDirs hdirs
      have hheading : heading s₂.disk project.root = headingOf place := by
        have hlocate := hwrites.isExtension.locate (hmade.isExtension.locate hroot)
        rw [heading, hlocate]
        rfl
      rw [hheading] at h
      split at h
      · cases h
      · next hne =>
          split at h
          · cases h
          · next d₃ hindex =>
              cases h
              have hlast : s₂.disk.Writes [placed output (⟨Page.indexName⟩,
                  Page.ofIndex (headingOf place) project.index project.root)] d₃ :=
                .file hindex (.done _)
              refine ⟨⟨?_, by simpa using hne, ?_, ?_⟩, ?_⟩
              · rw [filesOf, Project.writes, List.map_append]
                exact hmade.append (hwrites.append hlast)
              · have hdir := Disk.isDir_of_createDirs hdirs houtput
                exact hlast.isExtension.isDir (hwrites.isExtension.isDir hdir)
              · intro page hpage
                exact (hready page hpage).mono hlast.isExtension
              · rw [hs₂, report]
                simp only [Session.print, String.append_assoc]

/-- Where all the pages stand already, writing them again makes nothing new. -/
theorem foldlM_writePage_again
    {pages : List (Path × String)} {d : Disk} {printed complaints : String}
    (hdirs : ∀ page ∈ pages, HasDir d (pageDir output page))
    (hfiles : ∀ page ∈ pages, d.isFile (output.join page.1) = true) :
    ∃ e, pages.foldlM (writePage output) ⟨d, printed, complaints⟩ =
        .ok ⟨e, printed ++ String.join (pages.map (generatedLine output)), complaints⟩ ∧
      d.Writes (pages.map (placed output)) e ∧ e.top.shape = d.top.shape := by
  induction pages generalizing d printed with
  | nil => exact ⟨d, by simp [pure, Except.pure], .done _, rfl⟩
  | cons page pages ih =>
      obtain ⟨d₁, hwrite, hshape⟩ := Disk.exists_overwrite (hfiles page (by simp)) page.2.toUTF8
      have hstep : d.Writes [placed output page] d₁ := .file hwrite (.done _)
      have hpage : writePage output ⟨d, printed, complaints⟩ page =
          .ok ⟨d₁, printed ++ generatedLine output page, complaints⟩ :=
        writePage_eq_ok_iff.mpr ⟨d, d₁, (hdirs page (by simp)).createDirs, hwrite, rfl⟩
      have hdirs' : ∀ q ∈ pages, HasDir d₁ (pageDir output q) := by
        intro q hq
        exact (hdirs q (List.mem_cons_of_mem _ hq)).mono hstep.isExtension
      have hfiles' : ∀ q ∈ pages, d₁.isFile (output.join q.1) = true := by
        intro q hq
        exact hstep.isExtension.isFile (hfiles q (List.mem_cons_of_mem _ hq))
      obtain ⟨e, hrest, hwrites, hshape'⟩ := ih hdirs' hfiles'
      refine ⟨e, ?_, hstep.append hwrites, hshape'.trans hshape⟩
      rw [List.foldlM_cons, bind_eq_ok_iff, List.map_cons, String.join_cons,
        ← String.append_assoc]
      exact ⟨_, hpage, hrest⟩

theorem exists_generate_of_files
    {project : Project} {place : List String} {s : Session} (hne : project.pages ≠ [])
    (hroot : s.disk.locate project.root = .ok place) (houtput : s.disk.isDir output = true)
    (hdirs : ∀ page ∈ project.pages, HasDir s.disk (pageDir output page))
    (hfiles : ∀ f ∈ filesOf output project place, s.disk.isFile f.1 = true) :
    ∃ e, generate output project s = .ok ({ s with disk := e }.print (report output project)) ∧
      s.disk.Writes (filesOf output project place) e ∧ e.top.shape = s.disk.top.shape := by
  have hpages : ∀ page ∈ project.pages, s.disk.isFile (output.join page.1) = true := by
    intro page hpage
    rw [← placed_fst]
    exact hfiles _ (List.mem_map_of_mem (List.mem_append_left _ hpage))
  obtain ⟨d₁, hfold, hwrites, hshape⟩ :=
    @foldlM_writePage_again output _ s.disk s.printed s.complaints hdirs hpages
  have hheading : heading d₁ project.root = headingOf place := by
    rw [heading, hwrites.isExtension.locate hroot]
    rfl
  have hfile : d₁.isFile (output.join ⟨Page.indexName⟩) = true := by
    apply hwrites.isExtension.isFile
    have hlast : (⟨Page.indexName⟩, Page.ofIndex (headingOf place) project.index project.root) ∈
        project.writes (headingOf place) := by
      simp [Project.writes]
    have hindex := hfiles _ (List.mem_map_of_mem hlast)
    rwa [placed_fst] at hindex
  obtain ⟨e, hwrite, hshape'⟩ := Disk.exists_overwrite hfile
    (Page.ofIndex (headingOf place) project.index project.root).toUTF8
  refine ⟨e, ?_, ?_, hshape'.trans hshape⟩
  · unfold generate
    rw [Disk.createDirs_of_isDir houtput]
    dsimp only
    rw [bind_eq_ok_iff]
    refine ⟨_, hfold, ?_⟩
    rw [if_neg (by simpa using hne)]
    dsimp only
    rw [hheading, hwrite]
    simp only [Session.print, report, String.append_assoc]
  · rw [filesOf, Project.writes, List.map_append]
    exact hwrites.append (.file hwrite (.done _))

/-- Where the pages have been written, writing them again leaves the disk as it is. -/
theorem Generated.again
    {project : Project} {place : List String} {d : Disk} {t : Session}
    (h : Generated output project place d t.disk) (hwf : d.top.WellFormed)
    (hroot : d.locate project.root = .ok place) :
    generate output project t = .ok (t.print (report output project)) := by
  obtain ⟨e, hgenerate, hwrites, hshape⟩ : ∃ e, generate output project t =
        .ok ({ t with disk := e }.print (report output project)) ∧
      t.disk.Writes (filesOf output project place) e ∧ e.top.shape = t.disk.top.shape := by
    apply exists_generate_of_files h.pages_ne (h.writes.isExtension.locate hroot) h.isDir h.hasDir
    intro f hf
    exact h.writes.isFile hf
  have hdisk : e = t.disk := h.writes.eq_of_again hwrites hwf hshape
  rw [hgenerate, hdisk]

/-- Files that could not be read or were skipped have no part in what is written. -/
theorem generate_congr
    {p q : Project} (hroot : q.root = p.root) (hmodules : q.modules = p.modules)
    (hdocuments : q.documents = p.documents) (output : Path) (s : Session) :
    generate output q s = generate output p s := by
  have hpages : q.pages = p.pages := by
    rw [Project.pages, Project.pages, hroot, hmodules, hdocuments]
  have hindex : q.index = p.index := by
    rw [Project.index, Project.index, hroot, hmodules, hdocuments]
  unfold generate
  rw [hpages, hindex, hroot]

end Command

end MarkerDoc
