import MarkerDoc.Proofs.Generation
import MarkerDoc.Proofs.Growth
import MarkerDoc.Proofs.Invocation

/-!
# Writing documentation again

Writing documentation twice is the same as writing it once.  The first run may find the output
directory or make it; after it the disk has grown below that directory only.  What the second run
reads lies elsewhere, so it finds the same files, works out the same pages, and writes over each
file what it holds already.
-/

namespace MarkerDoc

/-! ## What a run works with -/

/-- The directory for the pages. -/
def Disk.outputDir (d : Disk) (path : Path) (output : Option Path) : Path :=
  output.getD ((d.projectRoot path).join ⟨Command.outputName⟩)

theorem Disk.outputDir_none (d : Disk) (path : Path) :
    d.outputDir path none = (d.projectRoot path).join ⟨Command.outputName⟩ := by
  rw [outputDir, Option.getD_none]

theorem Disk.outputDir_some (d : Disk) (path out : Path) : d.outputDir path (some out) = out := by
  rw [outputDir, Option.getD_some]

/-- What a run works with before it writes anything. -/
structure DocPlan where
  dir : Path
  inputs : Inputs
  project : Project

/-- What a run on a disk works with. -/
def Disk.docPlan (d : Disk) (explicit : Option Path) (path : Path) (output : Option Path) :
    Except CommandError DocPlan := do
  let settings ← d.settingsFor explicit path
  let dir := d.outputDir path output
  let inputs ← d.inputsFor settings.extract path (some dir)
  pure { dir, inputs, project := d.collect settings.extract inputs.root inputs.files }

theorem Disk.docPlan_eq_ok_iff
    {d : Disk} {explicit : Option Path} {path : Path} {output : Option Path} {plan : DocPlan} :
    d.docPlan explicit path output = .ok plan ↔
      ∃ settings, d.settingsFor explicit path = .ok settings ∧
        plan.dir = d.outputDir path output ∧
        d.inputsFor settings.extract path (some plan.dir) = .ok plan.inputs ∧
        plan.project = d.collect settings.extract plan.inputs.root plan.inputs.files := by
  obtain ⟨dir, inputs, project⟩ := plan
  rw [docPlan, bind_eq_ok_iff]
  apply exists_congr
  intro settings
  apply and_congr_right
  intro _
  rw [bind_eq_ok_iff]
  constructor
  · rintro ⟨inputs', hinputs, h⟩
    cases h
    exact ⟨rfl, hinputs, rfl⟩
  · rintro ⟨hdir, hinputs, hproject⟩
    dsimp only at hdir hinputs hproject
    subst hdir hproject
    exact ⟨inputs, hinputs, rfl⟩

theorem Command.orFail_eq_ok_iff
    {α : Type} {s : Session} {x : Except CommandError α} {a : α} :
    orFail s x = .ok a ↔ x = .ok a := by
  cases x <;> simp [orFail, failWith]

/-- A run reads what it works with and then writes. -/
theorem Command.run_doc_eq_ok_iff
    {runner : Runner} {invocation : Invocation} {path : Path} {output : Option Path}
    (htask : invocation.task = .doc path output) {s s' : Session} :
    Command.run runner invocation s = .ok s' ↔
      ∃ plan, s.disk.docPlan invocation.settings path output = .ok plan ∧
        generate plan.dir plan.project s = .ok s' := by
  unfold Command.run
  rw [htask]
  dsimp only
  simp only [bind_eq_ok_iff, orFail_eq_ok_iff, doc, Disk.docPlan_eq_ok_iff]
  constructor
  · rintro ⟨settings, hsettings, inputs, hinputs, h⟩
    exact ⟨⟨_, inputs, _⟩, ⟨settings, hsettings, rfl, hinputs, rfl⟩, h⟩
  · rintro ⟨plan, ⟨settings, hsettings, hdir, hinputs, hproject⟩, h⟩
    rw [hdir] at hinputs
    rw [hproject, hdir] at h
    exact ⟨settings, hsettings, plan.inputs, hinputs, h⟩

/-! ## Projects of the same files -/

/-- A kind of result that is neither a failure nor a file of an unknown extension. -/
structure FileResult.LeftByReading {α : Type} (part : Path × FileResult → Option α) : Prop where
  failed : ∀ p error, part (p, .failed error) = none
  unrecognized : ∀ p, part (p, .unrecognized) = none

/-- A file that cannot be read has no part in a project but as a failure. -/
theorem FileResult.LeftByReading.of_error
    {α : Type} {part : Path × FileResult → Option α} (h : LeftByReading part)
    (settings : ExtractSettings) {store : Path → Except FileError String} {p : Path}
    {cause : FileError} (hread : store p = .error cause) :
    part (p, ofFile settings store p) = none := by
  by_cases hrecognized : settings.Recognizes p
  · rw [ofFile_of_error hrecognized hread, h.failed]
  · rw [ofFile_of_not_recognizes hrecognized, h.unrecognized]

theorem FileResult.leftByReading_module? : LeftByReading fun r => r.2.module? :=
  ⟨fun _ _ => rfl, fun _ => rfl⟩

theorem FileResult.leftByReading_document? : LeftByReading fun r => r.2.document? :=
  ⟨fun _ _ => rfl, fun _ => rfl⟩

theorem FileResult.leftByReading_skipped? : LeftByReading fun r => r.2.skipped? r.1 :=
  ⟨fun _ _ => rfl, fun _ => rfl⟩

namespace Disk

theorem exists_error_of_not_fits {d : Disk} {p : Path} (h : d.fits p = false) :
    ∃ cause, d.read p = .error cause := by
  cases hread : d.read p with
  | error cause => exact ⟨cause, rfl⟩
  | ok text =>
      obtain ⟨found, hlocate⟩ := exists_locate_of_read hread
      simp [fits_of_locate hlocate] at h

theorem exists_read_of_pages
    {d : Disk} {settings : ExtractSettings} {root : Path} {files : List Path}
    (h : (d.collect settings root files).pages ≠ []) :
    ∃ f ∈ files, ∃ text, d.read f = .ok text := by
  by_contra hnone
  have herror : ∀ f ∈ files, ∃ cause, d.read f = .error cause := by
    intro f hf
    cases hread : d.read f with
    | error cause => exact ⟨cause, rfl⟩
    | ok text => exact absurd ⟨f, hf, text, hread⟩ hnone
  have hempty : ∀ {α : Type} {part : Path × FileResult → Option α},
      FileResult.LeftByReading part →
        (files.map fun p => (p, FileResult.ofFile settings d.read p)).filterMap part = [] := by
    intro α part hpart
    rw [List.filterMap_map, List.filterMap_eq_nil_iff]
    intro f hf
    obtain ⟨cause, hread⟩ := herror f hf
    exact hpart.of_error settings hread
  have hmodules := hempty FileResult.leftByReading_module?
  have hdocuments := hempty FileResult.leftByReading_document?
  apply h
  rw [collect, Project.collect, Project.merge_eq, Project.pages, hmodules, hdocuments]
  rfl

section

variable {d d' : Disk} {settings : ExtractSettings} {files files' : List Path}

/-- Paths that are too long have no part in a project but as failures. -/
theorem filterMap_ofFile_filter
    {α : Type} {part : Path × FileResult → Option α} (hpart : FileResult.LeftByReading part)
    (d : Disk) (files : List Path) :
    (files.map fun p => (p, FileResult.ofFile settings d.read p)).filterMap part =
      ((files.filter d.fits).map fun p =>
        (p, FileResult.ofFile settings d.read p)).filterMap part := by
  rw [List.filterMap_map, List.filterMap_map, List.filterMap_filter]
  apply List.filterMap_congr
  intro p _
  cases hfits : d.fits p with
  | true => rfl
  | false =>
      obtain ⟨cause, hread⟩ := d.exists_error_of_not_fits hfits
      exact hpart.of_error settings hread

theorem ofFile_congr (p : Path) (hread : d'.read p = d.read p) :
    FileResult.ofFile settings d'.read p = FileResult.ofFile settings d.read p := by
  simp only [FileResult.ofFile, Module.extractFile, Document.load, hread]

theorem collect_congr (root : Path) (hread : ∀ f ∈ files, d'.read f = d.read f) :
    d'.collect settings root files = d.collect settings root files := by
  rw [collect, collect, Project.collect, Project.collect]
  congr 1
  apply List.map_congr_left
  intro f hf
  rw [ofFile_congr f (hread f hf)]

theorem filterMap_ofFile_eq
    {α : Type} {part : Path × FileResult → Option α} (hpart : FileResult.LeftByReading part)
    (hfits : d'.fits = d.fits) (hfiles : files'.filter d.fits = files.filter d.fits)
    (hread : ∀ f ∈ files, d.fits f = true → d'.read f = d.read f) :
    (files'.map fun p => (p, FileResult.ofFile settings d'.read p)).filterMap part =
      (files.map fun p => (p, FileResult.ofFile settings d.read p)).filterMap part := by
  rw [filterMap_ofFile_filter hpart d', filterMap_ofFile_filter hpart d, hfits, hfiles]
  congr 1
  apply List.map_congr_left
  intro f hf
  obtain ⟨hmem, hfits⟩ := List.mem_filter.mp hf
  rw [ofFile_congr f (hread f hmem hfits)]

end

end Disk

/-! ## Two runs -/

/-- A run that works with the same as another: the same files, as far as their paths can be
followed, and the same modules and documents. -/
structure DocPlan.Repeats (d : Disk) (plan plan' : DocPlan) : Prop where
  dir : plan'.dir = plan.dir
  root : plan'.project.root = plan.project.root
  files : plan'.inputs.files.filter d.fits = plan.inputs.files.filter d.fits
  modules : plan'.project.modules = plan.project.modules
  documents : plan'.project.documents = plan.project.documents
  skipped : plan'.project.skipped = plan.project.skipped
  exact : (∀ f ∈ plan'.inputs.files, d.fits f = true) → plan' = plan

namespace Disk.GrownBelow

variable {d d' : Disk} {place : List String} {dir path : Path} {settings : ExtractSettings}
  {inputs : Inputs}

theorem read_eq_of_mem
    (h : GrownBelow d d' dir place) (hinputs : d.inputsFor settings path (some dir) = .ok inputs)
    {f : Path} (hf : f ∈ inputs.files) (hfits : d.fits f = true) :
    d'.read f = d.read f := by
  obtain ⟨-, -, root, -, hfiles⟩ := inputsFor_spec h.wellFormed hinputs
  obtain ⟨hout, hlocated⟩ := hfiles f hf
  obtain ⟨inner, hinner⟩ := hlocated hfits
  rw [h.leadsBelow_iff hinner] at hout
  exact h.read_eq hinner hout

/-- The root of a project with pages is not below the directory, as some file of it is read. -/
theorem root_not_below
    (h : GrownBelow d d' dir place) (hinputs : d.inputsFor settings path (some dir) = .ok inputs)
    (hpages : (d.collect settings inputs.root inputs.files).pages ≠ []) {root : List String}
    (hroot : d.locate inputs.root = .ok root) :
    ¬ place <+: root := by
  obtain ⟨-, -, root', hroot', hfiles⟩ := inputsFor_spec h.wellFormed hinputs
  obtain rfl : root' = root := by simpa using hroot'.symm.trans hroot
  obtain ⟨f, hf, text, hread⟩ := exists_read_of_pages hpages
  obtain ⟨found, hfound⟩ := exists_locate_of_read hread
  obtain ⟨hout, hlocated⟩ := hfiles f hf
  obtain ⟨inner, hinner⟩ := hlocated (fits_of_locate hfound)
  rw [h.leadsBelow_iff hinner] at hout
  intro hbelow
  exact hout (hbelow.trans (List.prefix_append root' inner))

/-- What a run works with is the same when the disk has grown below its output directory. -/
theorem exists_docPlan
    {explicit : Option Path} {output : Option Path} {plan : DocPlan}
    (h : GrownBelow d d' plan.dir place) (hplan : d.docPlan explicit path output = .ok plan)
    (hexplicit : ∀ file, explicit = some file → ¬ d.LeadsBelow plan.dir file)
    (hpages : plan.project.pages ≠ []) :
    ∃ plan', d'.docPlan explicit path output = .ok plan' ∧ plan.Repeats d plan' := by
  obtain ⟨settings, hsettings, hdir, hinputs, hproject⟩ := docPlan_eq_ok_iff.mp hplan
  obtain ⟨hroot, ⟨found, hpath⟩, root, hlocate, -⟩ := inputsFor_spec h.wellFormed hinputs
  have hout := h.root_not_below hinputs (hproject ▸ hpages) hlocate
  have hsettings' := h.settingsFor_eq hpath (hroot ▸ hlocate) hout hexplicit hsettings
  obtain ⟨inputs', hinputs', hroot', hsame, hsubset⟩ := h.exists_inputsFor hinputs
  have hdir' : plan.dir = d'.outputDir path output := by
    rw [hdir, outputDir, outputDir, h.projectRoot_eq hpath]
  have hread : ∀ f ∈ plan.inputs.files, d.fits f = true → d'.read f = d.read f :=
    fun f hf hfits => h.read_eq_of_mem hinputs hf hfits
  have hlimit : d'.fits = d.fits := funext h.grown.fits
  refine ⟨⟨plan.dir, inputs', d'.collect settings.extract inputs'.root inputs'.files⟩,
    docPlan_eq_ok_iff.mpr ⟨settings, hsettings', hdir', hinputs', rfl⟩, ?_⟩
  constructor
  · rfl
  · simp only [hproject, collect, Project.collect, Project.root_merge, hroot']
  · exact hsame
  · simp only [hproject, collect, Project.collect, Project.merge_eq]
    exact filterMap_ofFile_eq FileResult.leftByReading_module? hlimit hsame hread
  · simp only [hproject, collect, Project.collect, Project.merge_eq]
    exact filterMap_ofFile_eq FileResult.leftByReading_document? hlimit hsame hread
  · simp only [hproject, collect, Project.collect, Project.merge_eq]
    exact filterMap_ofFile_eq FileResult.leftByReading_skipped? hlimit hsame hread
  · intro hfits
    have hfits' : ∀ f ∈ plan.inputs.files, d.fits f = true := fun f hf => hfits f (hsubset hf)
    have hfiles : inputs'.files = plan.inputs.files := by
      rwa [List.filter_eq_self.mpr hfits, List.filter_eq_self.mpr hfits'] at hsame
    have hcollect : d'.collect settings.extract inputs'.root inputs'.files = plan.project := by
      rw [hproject, hroot', hfiles]
      exact collect_congr _ fun f hf => hread f hf (hfits' f hf)
    have hinputs_eq : inputs' = plan.inputs := by
      cases inputs'
      cases hplan_inputs : plan.inputs
      simp_all
    rw [hcollect, hinputs_eq]

end Disk.GrownBelow

namespace Command

variable {path : Path} {output : Option Path}

theorem isPlain_indexName : Page.IsPlain Page.indexName := by
  constructor
  · decide +kernel
  · decide +kernel

/-- After a run the disk has grown below its output directory, if its pages stay there. -/
theorem grownBelow_of_writes
    {d d' : Disk} {dir : Path} {project : Project} {root place : List String}
    (hwf : d.top.WellFormed) (hwrites : d.Writes (filesOf dir project root) d')
    (hplace : d'.locate dir = .ok place) (hdir : d'.node? place = some .dir)
    (hbelow : ∀ page ∈ project.pages, d'.LeadsBelow dir (dir.join page.1))
    (hfresh : (d.node? place).isSome → d.locate dir = .ok place) :
    d.GrownBelow d' dir place := by
  refine ⟨hwf, hwrites.wellFormed hwf, hwrites.isExtension, hplace, hdir, ?_, hfresh⟩
  intro p hout
  have hnone : d'.lastWritten? (filesOf dir project root) p = none := by
    apply Disk.lastWritten?_eq_none
    intro f hf hp
    obtain ⟨page, hpage, rfl⟩ := List.mem_map.mp hf
    rw [placed_fst] at hp
    rcases List.mem_append.mp hpage with hpage | hpage
    · exact hout ((Disk.leadsBelow_iff hplace hp).mp (hbelow page hpage))
    · obtain rfl := List.mem_singleton.mp hpage
      obtain rfl := Disk.locate_join_eq hplace isPlain_indexName hp
      exact hout (List.prefix_append _ _)
  rw [hwrites.content?_eq, hnone, Option.none_or]

/-- An output directory that is there after a run was there before, if anything was at its place. -/
theorem outputDir_fresh
    {d d' : Disk} (hext : d.Extends d') (hup : ∀ out, output = some out → .up ∉ out.components)
    {root place : List String} (hroot : d.locate (d.projectRoot path) = .ok root)
    (hplace : d'.locate (d.outputDir path output) = .ok place) (hsome : (d.node? place).isSome) :
    d.locate (d.outputDir path output) = .ok place := by
  cases output with
  | none =>
      have hname : IsFileName outputName := by decide +kernel
      rw [Disk.outputDir_none] at hplace ⊢
      exact hext.locate_join_of_isSome hroot hname hplace hsome
  | some out =>
      rw [Disk.outputDir_some] at hplace ⊢
      exact hext.locate_of_isSome (hup out rfl) hplace hsome

theorem outputDir_ne_empty
    {d : Disk} (hout : ∀ out, output = some out → out.text ≠ "") {root : List String}
    (hroot : d.locate (d.projectRoot path) = .ok root) :
    (d.outputDir path output).isEmpty = false := by
  have hne : (d.outputDir path output).text ≠ "" := by
    cases output with
    | none =>
        rw [Disk.outputDir_none]
        apply Path.text_join_ne_empty
        exact (Disk.checkPath_eq_ok_iff.mp (Disk.locate_eq_ok_iff.mp hroot).1).2.1
    | some out => exact hout out rfl
  simpa [Path.isEmpty] using hne

/-- Writing documentation again with the same arguments finds the same files, reports the same, and
leaves the disk as it is.  On a disk that limits the length of paths, files whose paths are too long
can be found in addition; they are not read. -/
theorem doc_idempotent
    {args : List String} {invocation : Invocation} {path : Path} {output : Option Path}
    {runner : Runner} {s s' : Session}
    (hargs : Request.ofArgs args = .run invocation) (htask : invocation.task = .doc path output)
    (htree : s.disk.top.WellFormed)
    (hup : ∀ out, output = some out → .up ∉ out.components)
    (hsettings : ∀ file, invocation.settings = some file →
      ¬ s.disk.LeadsBelow (s.disk.outputDir path output) file)
    (hrun : Command.run runner invocation s = .ok s')
    (hbelow : ∀ plan, s.disk.docPlan invocation.settings path output = .ok plan →
      ∀ page ∈ plan.project.pages, s'.disk.LeadsBelow plan.dir (plan.dir.join page.1)) :
    ∃ plan plan',
      s.disk.docPlan invocation.settings path output = .ok plan ∧
      s'.disk.docPlan invocation.settings path output = .ok plan' ∧ plan.Repeats s.disk plan' ∧
      (s.disk.maxPath = none → plan' = plan) ∧
      s' = { s with disk := s'.disk }.print (report plan.dir plan.project) ∧
      ∀ t, t.disk = s'.disk →
        Command.run runner invocation t = .ok (t.print (report plan.dir plan.project)) := by
  obtain ⟨plan, hplan, hgenerate⟩ := (run_doc_eq_ok_iff htask).mp hrun
  obtain ⟨settings, -, hdir, hinputs, hproject⟩ := Disk.docPlan_eq_ok_iff.mp hplan
  obtain ⟨hroot, -, root, hlocate, -⟩ := Disk.inputsFor_spec htree hinputs
  have hprojectRoot : s.disk.locate plan.project.root = .ok root := by
    rw [hproject, Disk.collect, Project.collect, Project.root_merge]
    exact hlocate
  rw [hroot] at hlocate
  have hdirne : plan.dir.isEmpty = false := by
    rw [hdir]
    apply outputDir_ne_empty _ hlocate
    rintro out rfl
    exact Request.output_ne_empty hargs htask
  -- The first run has written below the output directory only.
  obtain ⟨hgenerated, hs'⟩ := generated_of_generate hgenerate hdirne hprojectRoot
  obtain ⟨place, hplace, hnode⟩ := Disk.isDir_iff.mp hgenerated.isDir
  have hgrown : s.disk.GrownBelow s'.disk plan.dir place := by
    apply grownBelow_of_writes htree hgenerated.writes hplace hnode (hbelow plan hplan)
    intro hsome
    rw [hdir] at hplace ⊢
    exact outputDir_fresh hgenerated.writes.isExtension hup hlocate hplace hsome
  obtain ⟨plan', hplan', hrepeats⟩ :=
    hgrown.exists_docPlan hplan (hdir ▸ hsettings) hgenerated.pages_ne
  have hunlimited : s.disk.maxPath = none → plan' = plan := fun hlimit =>
    hrepeats.exact fun f _ => by rw [Disk.fits, hlimit]; rfl
  refine ⟨plan, plan', hplan, hplan', hrepeats, hunlimited, hs', ?_⟩
  -- The second run works with the same and writes the same files once more.
  intro t ht
  rw [run_doc_eq_ok_iff htask]
  refine ⟨plan', ht ▸ hplan', ?_⟩
  rw [hrepeats.dir, generate_congr hrepeats.root hrepeats.modules hrepeats.documents]
  exact (ht ▸ hgenerated).again htree hprojectRoot

/-- A directory with one source file. -/
def greeter : Disk where
  top := .dir "p" (.dir "lib" (.file "Foo.pm" "package Foo;\n##! Greets.\n".toUTF8 .nil) .nil) .nil
  cwd := ["p"]

/-- The same directory with its documentation. -/
def greeterDocumented : Session where
  disk :=
    { top := .dir "p"
        (.dir "lib" (.file "Foo.pm" "package Foo;\n##! Greets.\n".toUTF8 .nil)
          (.dir "doc"
            (.file "Foo.md" "# Foo\n\nGreets.\n\n".toUTF8
              (.file "index.md" "# p\n\n- [Foo](Foo.md)\n".toUTF8 .nil))
            .nil)) .nil
      cwd := ["p"] }
  printed := "Generated: ./doc/Foo.md\nGenerated: ./doc/index.md\n\n" ++
    "Documentation generated in: ./doc\n"

/-- The output directory is made by the first run, inside the directory that is searched. -/
theorem doc_idempotent_greeter :
    let runner : Runner := fun _ _ _ => pure (.ok { status := .passed })
    let invocation : Invocation := ⟨none, false, .doc ⟨"."⟩ none⟩
    Request.ofArgs ["doc"] = .run invocation ∧
      Command.run runner invocation { disk := greeter } = .ok greeterDocumented ∧
      greeterDocumented.disk ≠ greeter ∧
      Command.run runner invocation greeterDocumented =
        .ok (greeterDocumented.print greeterDocumented.printed) := by
  intro runner invocation
  have hargs : Request.ofArgs ["doc"] = .run invocation := by decide +kernel
  have hrun : Command.run runner invocation { disk := greeter } = .ok greeterDocumented := by
    decide +kernel
  have hpages : (greeter.docPlan none ⟨"."⟩ none).map (fun plan =>
      (plan.dir, plan.project.pages.map Prod.fst)) = .ok (⟨"./doc"⟩, [⟨"Foo.md"⟩]) := by
    decide +kernel
  have hbelow : ∀ plan, greeter.docPlan none ⟨"."⟩ none = .ok plan →
      ∀ page ∈ plan.project.pages,
        greeterDocumented.disk.LeadsBelow plan.dir (plan.dir.join page.1) := by
    intro plan hplan page hpage
    rw [hplan, Except.map, Except.ok.injEq, Prod.mk.injEq] at hpages
    obtain ⟨hdir, hpaths⟩ := hpages
    have hpath : page.1 ∈ plan.project.pages.map Prod.fst := List.mem_map_of_mem hpage
    rw [hpaths, List.mem_singleton] at hpath
    rw [hdir, hpath]
    exact ⟨["p", "doc"], ["Foo.md"], by decide +kernel, by decide +kernel⟩
  obtain ⟨plan, plan', -, -, -, -, hprinted, hagain⟩ :=
    doc_idempotent hargs rfl (by decide +kernel) nofun nofun hrun hbelow
  have hreport : report plan.dir plan.project = greeterDocumented.printed := by
    simpa [Session.print] using (congrArg Session.printed hprinted).symm
  refine ⟨hargs, hrun, by decide +kernel, ?_⟩
  rw [← hreport]
  exact hagain greeterDocumented rfl

end Command

end MarkerDoc
