import MarkerDoc.Command
import MarkerDoc.Proofs.ByteOrder

/-!
# Batches of files

A project is made of its files one by one.  Each file is judged by its path and its content alone,
and the judgements are laid one after the other into four lists, each of which holds what one kind
of judgement has left.  So a batch of files is the sum of its parts, a file leaves exactly one trace
if its extension is known and none otherwise, and whether the contents are given or read from a disk
makes no difference: the two ways of judging a file agree wherever it can be read.  A file that
cannot be read leaves its trace among the failures and touches nothing else.
-/

namespace MarkerDoc

theorem Module.path_of_extract
    {settings : ExtractSettings} {path : Path} {source : String} {m : Module}
    (h : Module.extract settings path source = .ok (.found m)) : m.path = path := by
  unfold Module.extract Module.ofElements at h
  split at h
  · cases h
  · split at h
    · cases h
    · cases h
    · simp only at h
      split at h
      · cases h
      · cases h
        rfl

/-! ## Reading text -/

namespace Disk

/-- A file can be read as text exactly when its bytes are the encoding of one. -/
theorem read_eq_ok_iff (d : Disk) (p : Path) (text : String) :
    d.read p = .ok text ↔ d.readBytes p = .ok text.toUTF8 := by
  unfold read
  cases d.readBytes p with
  | error cause =>
      simp [bind, Except.bind]
  | ok bytes =>
      simp only [bind, Except.bind, Except.ok.injEq]
      rw [← fromUTF8?_eq_some_iff]
      cases String.fromUTF8? bytes with
      | none => simp [throw, throwThe, MonadExceptOf.throw]
      | some found => simp [pure, Except.pure]

end Disk

/-! ## The judgement of one file -/

/-- The extension of a file is known. -/
def ExtractSettings.Recognizes (settings : ExtractSettings) (p : Path) : Prop :=
  settings.isSource p = true ∨ settings.isDocument p = true

instance (settings : ExtractSettings) (p : Path) : Decidable (settings.Recognizes p) :=
  inferInstanceAs (Decidable (_ ∨ _))

namespace FileResult

variable {settings : ExtractSettings} {store : Path → Except FileError String} {p : Path}

theorem ofText_of_not_recognizes (h : ¬ settings.Recognizes p) (content : String) :
    ofText settings p content = .unrecognized := by
  obtain ⟨hsource, hdocument⟩ := not_or.mp h
  simp [ofText, hsource, hdocument]

theorem ofFile_of_not_recognizes
    (h : ¬ settings.Recognizes p) (store : Path → Except FileError String) :
    ofFile settings store p = .unrecognized := by
  obtain ⟨hsource, hdocument⟩ := not_or.mp h
  simp [ofFile, hsource, hdocument]

/-- A file that can be read is judged as if it were given with its content. -/
theorem ofFile_eq_ofText {content : String} (hread : store p = .ok content) :
    ofFile settings store p = ofText settings p content := by
  unfold ofFile ofText
  by_cases hsource : settings.isSource p = true
  · simp [hsource, Module.extractFile, hread]
  · by_cases hdocument : settings.isDocument p = true
    · simp [hsource, hdocument, Document.load, hread]
    · simp [hsource, hdocument]

theorem ofFile_of_error (h : settings.Recognizes p) {cause : FileError}
    (hread : store p = .error cause) :
    ofFile settings store p = .failed (.unreadable cause) := by
  unfold ofFile
  by_cases hsource : settings.isSource p = true
  · simp [hsource, Module.extractFile, hread, ofExtraction]
  · have hdocument : settings.isDocument p = true := h.resolve_left hsource
    simp [hsource, hdocument, Document.load, hread]

/-- The path under which the result of a file stands in its list, if it stands in one. -/
def path? (p : Path) : FileResult → Option Path
  | .module m => some m.path
  | .document d => some d.path
  | .skipped => some p
  | .failed _ => some p
  | .unrecognized => none

theorem path?_ofText (content : String) :
    (ofText settings p content).path? p = if settings.Recognizes p then some p else none := by
  by_cases hrecognized : settings.Recognizes p
  · rw [if_pos hrecognized]
    unfold ofText
    by_cases hsource : settings.isSource p = true
    · cases hextract : Module.extract settings p content with
      | error e => simp [hsource, ofExtraction, path?]
      | ok extraction =>
          cases extraction with
          | found m => simp [hsource, ofExtraction, path?, Module.path_of_extract hextract]
          | skipped reason => simp [hsource, ofExtraction, path?]
    · have hdocument : settings.isDocument p = true := hrecognized.resolve_left hsource
      rw [if_neg hsource, if_pos hdocument]
      rfl
  · rw [if_neg hrecognized, ofText_of_not_recognizes hrecognized]
    rfl

theorem path?_ofFile (store : Path → Except FileError String) :
    (ofFile settings store p).path? p = if settings.Recognizes p then some p else none := by
  cases hread : store p with
  | ok content => rw [ofFile_eq_ofText hread, path?_ofText]
  | error cause =>
      by_cases hrecognized : settings.Recognizes p
      · rw [if_pos hrecognized, ofFile_of_error hrecognized hread]
        rfl
      · rw [if_neg hrecognized, ofFile_of_not_recognizes hrecognized]
        rfl

/-! ## What a result leaves in each list -/

def module? : FileResult → Option Module
  | .module m => some m
  | _ => none

def document? : FileResult → Option Document
  | .document d => some d
  | _ => none

def failure? (path : Path) : FileResult → Option FileFailure
  | .failed error => some { path, error }
  | _ => none

def skipped? (path : Path) : FileResult → Option Path
  | .skipped => some path
  | _ => none

end FileResult

namespace Project

/-! ## Laying projects one after the other -/

/-- Two projects of one root, list by list. -/
def append (p q : Project) : Project :=
  { root := p.root
    modules := p.modules ++ q.modules
    documents := p.documents ++ q.documents
    failures := p.failures ++ q.failures
    skipped := p.skipped ++ q.skipped }

/-- The paths under which files stand in one of the four lists. -/
def paths (p : Project) : List Path :=
  p.modules.map (·.path) ++ p.documents.map (·.path) ++ p.failures.map (·.path) ++ p.skipped

/-- Each list of a project holds what the results have left in it, in the order of the files. -/
theorem merge_eq (root : Path) (results : List (Path × FileResult)) :
    merge root results =
      { root
        modules := results.filterMap fun r => r.2.module?
        documents := results.filterMap fun r => r.2.document?
        failures := results.filterMap fun r => r.2.failure? r.1
        skipped := results.filterMap fun r => r.2.skipped? r.1 } := by
  induction results using List.reverseRecOn with
  | nil =>
      rfl
  | append_singleton results r ih =>
      obtain ⟨path, result⟩ := r
      unfold merge at ih ⊢
      rw [List.foldl_append, ih]
      cases result <;> simp [add, FileResult.module?, FileResult.document?, FileResult.failure?,
        FileResult.skipped?]

theorem root_merge (root : Path) (results : List (Path × FileResult)) :
    (merge root results).root = root := by
  rw [merge_eq]

theorem merge_append (root : Path) (front back : List (Path × FileResult)) :
    merge root (front ++ back) = (merge root front).append (merge root back) := by
  simp [merge_eq, append, List.filterMap_append]

theorem paths_merge_singleton (root p : Path) (result : FileResult) :
    (merge root [(p, result)]).paths = (result.path? p).toList := by
  cases result <;> rfl

/-- A project is made of files one by one: the batch is the sum of its parts, and every part that is
a single file stands under its own path in exactly one of the four lists, or in none if its
extension is unknown. -/
structure MadeFileByFile {φ : Type} (settings : ExtractSettings) (path : φ → Path)
    (project : List φ → Project) : Prop where
  append : ∀ xs ys, project (xs ++ ys) = (project xs).append (project ys)
  inOrder : ∀ xs,
    (project xs).modules = xs.flatMap (fun x => (project [x]).modules) ∧
      (project xs).documents = xs.flatMap (fun x => (project [x]).documents) ∧
      (project xs).failures = xs.flatMap (fun x => (project [x]).failures) ∧
      (project xs).skipped = xs.flatMap (fun x => (project [x]).skipped)
  single : ∀ x, (project [x]).paths = if settings.Recognizes (path x) then [path x] else []

theorem madeFileByFile_merge
    {φ : Type} {settings : ExtractSettings} (root : Path) {path : φ → Path}
    {result : φ → FileResult} (hpath : ∀ x, (result x).path? (path x) =
      if settings.Recognizes (path x) then some (path x) else none) :
    MadeFileByFile settings path fun xs => merge root (xs.map fun x => (path x, result x)) := by
  constructor
  · intro xs ys
    rw [List.map_append, merge_append]
  · intro xs
    simp only [merge_eq]
    have hlist : ∀ {β : Type} (part : Path × FileResult → Option β),
        (xs.map fun x => (path x, result x)).filterMap part =
          xs.flatMap fun x => ([x].map fun x => (path x, result x)).filterMap part := by
      intro β part
      induction xs with
      | nil =>
          rfl
      | cons x xs ih =>
          rw [List.map_cons, ← List.singleton_append, List.filterMap_append, ih,
            List.flatMap_cons, List.map_singleton]
    exact ⟨hlist _, hlist _, hlist _, hlist _⟩
  · intro x
    rw [List.map_singleton, paths_merge_singleton, hpath]
    split_ifs <;> rfl

/-! ## Reading the files -/

section

variable {settings : ExtractSettings} {store : Path → Except FileError String} {root : Path}

theorem collect_eq_ofSources
    {contents : Path → String} {files : List Path}
    (hread : ∀ p ∈ files, settings.Recognizes p → store p = .ok (contents p)) :
    collect settings store root files =
      ofSources settings root (files.map fun p => (p, contents p)) := by
  unfold collect ofSources
  rw [List.map_map]
  congr 1
  apply List.map_congr_left
  intro p hp
  rw [Function.comp_apply]
  by_cases hrecognized : settings.Recognizes p
  · rw [FileResult.ofFile_eq_ofText (hread p hp hrecognized)]
  · rw [FileResult.ofFile_of_not_recognizes hrecognized,
      FileResult.ofText_of_not_recognizes hrecognized]

theorem collect_of_unreadable
    {p : Path} (hrecognized : settings.Recognizes p) {cause : FileError}
    (hread : store p = .error cause) (front back : List Path) :
    collect settings store root (front ++ p :: back) =
      { collect settings store root (front ++ back) with
        failures := (collect settings store root front).failures ++
          ⟨p, .unreadable cause⟩ :: (collect settings store root back).failures } := by
  unfold collect
  rw [List.map_append, List.map_cons, List.map_append, FileResult.ofFile_of_error hrecognized hread]
  simp [merge_eq, FileResult.module?, FileResult.document?, FileResult.failure?,
    FileResult.skipped?]

end

/-- Files are judged independently of each other, in the order in which they are given, and whether
their contents are given or read makes no difference.  A file that is not readable as text becomes
one failure in its place. -/
theorem files_independent (settings : ExtractSettings) (root : Path) :
    MadeFileByFile settings Prod.fst (ofSources settings root) ∧
      (∀ store, MadeFileByFile settings id (collect settings store root)) ∧
      (∀ (d : Disk) (contents : Path → String) (files : List Path),
        (∀ p ∈ files, settings.Recognizes p → d.readBytes p = .ok (contents p).toUTF8) →
          d.collect settings root files =
            ofSources settings root (files.map fun p => (p, contents p))) ∧
      ∀ (d : Disk) (front back : List Path) (p : Path), settings.Recognizes p →
        (∀ text : String, d.readBytes p ≠ .ok text.toUTF8) →
          ∃ cause, d.read p = .error cause ∧
            d.collect settings root (front ++ p :: back) =
              { d.collect settings root (front ++ back) with
                failures := (d.collect settings root front).failures ++
                  ⟨p, .unreadable cause⟩ :: (d.collect settings root back).failures } := by
  refine ⟨madeFileByFile_merge root fun f => FileResult.path?_ofText f.2,
    fun store => madeFileByFile_merge root fun p => FileResult.path?_ofFile store, ?_, ?_⟩
  · intro d contents files hbytes
    apply collect_eq_ofSources
    intro p hp hrecognized
    exact (d.read_eq_ok_iff p (contents p)).mpr (hbytes p hp hrecognized)
  · intro d front back p hrecognized hbytes
    cases hread : d.read p with
    | ok text => exact absurd ((d.read_eq_ok_iff p text).mp hread) (hbytes text)
    | error cause => exact ⟨cause, rfl, collect_of_unreadable hrecognized hread front back⟩

/-- A document that is no text stands between two that are. -/
theorem files_independent_unreadable_between :
    let d : Disk :=
      { top :=
          .file "a.md" "One.".toUTF8 (.file "b.md" ⟨#[0xff]⟩ (.file "c.md" "Two.".toUTF8 .nil))
        cwd := [] }
    let readable : Project :=
      { root := ⟨"."⟩, documents := [⟨⟨"a.md"⟩, "One."⟩, ⟨⟨"c.md"⟩, "Two."⟩] }
    d.collect {} ⟨"."⟩ [⟨"a.md"⟩, ⟨"c.md"⟩] = readable ∧
      d.collect {} ⟨"."⟩ [⟨"a.md"⟩, ⟨"b.md"⟩, ⟨"c.md"⟩] =
        { readable with failures := [⟨⟨"b.md"⟩, .unreadable .invalidText⟩] } := by
  intro d readable
  obtain ⟨-, -, hgiven, hunreadable⟩ := files_independent {} ⟨"."⟩
  have hreadable : d.collect {} ⟨"."⟩ [⟨"a.md"⟩, ⟨"c.md"⟩] = readable := by
    rw [hgiven d (fun p => if p = ⟨"a.md"⟩ then "One." else "Two.")]
    · decide +kernel
    · decide +kernel
  refine ⟨hreadable, ?_⟩
  have hread : d.read ⟨"b.md"⟩ = .error .invalidText := by decide +kernel
  obtain ⟨cause, hcause, hcollect⟩ := hunreadable d [⟨"a.md"⟩] [⟨"c.md"⟩] ⟨"b.md"⟩
    (by decide +kernel) (by
      intro text htext
      rw [← d.read_eq_ok_iff, hread] at htext
      cases htext)
  rw [hread, Except.error.injEq] at hcause
  subst hcause
  rw [List.singleton_append, List.singleton_append, hreadable] at hcollect
  rw [hcollect]
  decide +kernel

end Project

end MarkerDoc
