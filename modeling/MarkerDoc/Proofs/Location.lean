import MarkerDoc.Discovery
import MarkerDoc.Proofs.Disk

/-!
# Where paths lead

A path that goes on through names leads to the place behind those names, as long as it is not too
long to be followed.  The path of the directory that holds a file leads to where the file's path
leads without its last step.  Paths that take the same steps lead to the same place.
-/

namespace MarkerDoc

namespace Path

/-! ## Paths through names -/

/-- The path that leads from another through some names. -/
def through (p : Path) (names : List String) : Path :=
  names.foldl (fun p s => p.join ⟨s⟩) p

theorem through_append (p : Path) (front behind : List String) :
    p.through (front ++ behind) = (p.through front).through behind :=
  List.foldl_append

theorem components_through
    {p : Path} (hp : p.text ≠ "") {names : List String} (h : ∀ s ∈ names, Page.IsPlain s) :
    (p.through names).components = p.components ++ names.map .name := by
  rw [through, components_foldl_join hp fun s hs => (h s hs).isAbsolute_eq_false]
  congr 1
  induction names with
  | nil => rfl
  | cons s names ih =>
      rw [List.flatMap_cons, (h s (by simp)).steps_eq, ih fun t ht => h t (by simp [ht])]
      rfl

theorem through_injective
    {p : Path} (hp : p.text ≠ "") {names names' : List String}
    (h : ∀ s ∈ names, Page.IsPlain s) (h' : ∀ s ∈ names', Page.IsPlain s)
    (heq : (p.through names).components = (p.through names').components) :
    names = names' := by
  rw [components_through hp h, components_through hp h', List.append_cancel_left_eq] at heq
  exact List.map_injective_iff.mpr (fun a b hab => by simpa using hab) heq

theorem exists_text_join {name : String} (h : Page.IsPlain name) (p : Path) :
    ∃ between, (between = "" ∨ between = "/") ∧
      (p.join ⟨name⟩).text = p.text ++ between ++ name := by
  rw [join, if_neg (by simp [h.isAbsolute_eq_false])]
  split
  · exact ⟨"", .inl rfl, by simp⟩
  · exact ⟨"/", .inr rfl, rfl⟩

theorem exists_text_through
    {names : List String} (h : ∀ s ∈ names, Page.IsPlain s) (p : Path) :
    ∃ rest, (p.through names).text = p.text ++ rest := by
  induction names generalizing p with
  | nil => exact ⟨"", by simp [through]⟩
  | cons s names ih =>
      obtain ⟨between, -, hjoin⟩ := exists_text_join (h s (by simp)) p
      obtain ⟨rest, hrest⟩ := ih (fun t ht => h t (by simp [ht])) (p.join ⟨s⟩)
      refine ⟨between ++ s ++ rest, ?_⟩
      rw [through, List.foldl_cons]
      rw [through] at hrest
      simp only [hrest, hjoin, String.append_assoc]

theorem splitOn_join
    {p : Path} (hp : p.text ≠ "") {name : String} (h : Page.IsPlain name) :
    ∃ front idle, Text.splitOn "/" p.text = front ++ idle ∧ (∀ s ∈ idle, isIdle s = true) ∧
      Text.splitOn "/" (p.join ⟨name⟩).text = front ++ [name] := by
  have hname := Page.splitOn_slash_of_not_mem h.slash
  obtain ⟨s⟩ := p
  rw [join, if_neg (by simp [h.isAbsolute_eq_false])]
  by_cases hlast : s.toList.getLast? = some '/'
  · obtain ⟨t, rfl⟩ := exists_of_getLast?_slash hlast
    rw [if_pos (by simp)]
    refine ⟨Text.splitOn "/" t, [""], ?_, by simp [isIdle], ?_⟩
    · have hslash := Text.splitOn_slash_append t ""
      rw [String.append_empty] at hslash
      exact hslash
    · rw [Text.splitOn_slash_append, hname]
  · rw [if_neg (by simpa [isEmpty, hlast] using hp)]
    exact ⟨Text.splitOn "/" s, [], by simp, by simp, by rw [Text.splitOn_slash_append, hname]⟩

theorem exists_splitOn_join
    {p q : Path} (hp : p.text ≠ "") (hq : q.isAbsolute = false) :
    ∃ front, Text.splitOn "/" (p.join q).text = front ++ Text.splitOn "/" q.text := by
  obtain ⟨s⟩ := p
  rw [join, if_neg (by simp [hq])]
  by_cases hlast : s.toList.getLast? = some '/'
  · obtain ⟨t, rfl⟩ := exists_of_getLast?_slash hlast
    rw [if_pos (by simp)]
    exact ⟨_, Text.splitOn_slash_append t q.text⟩
  · rw [if_neg (by simpa [isEmpty, hlast] using hp)]
    exact ⟨_, Text.splitOn_slash_append s q.text⟩

theorem exists_splitOn_ofSegments
    {names : List String} {last : String} (hnames : ∀ s ∈ names, s ≠ "")
    (hlast : Page.IsPlain last) :
    ∃ front, Text.splitOn "/" (ofSegments (names ++ [last])).text = front ++ [last] := by
  have hpiece := Page.splitOn_slash_of_not_mem hlast.slash
  rw [ofSegments, List.foldl_append, List.foldl_cons, List.foldl_nil]
  by_cases hnil : names = []
  · subst hnil
    rw [List.foldl_nil, join_of_empty]
    exact ⟨[], hpiece⟩
  · obtain ⟨front, hfront⟩ :=
      exists_splitOn_join (text_ofSegments_ne_empty hnil hnames) hlast.isAbsolute_eq_false
    rw [hpiece] at hfront
    exact ⟨front, hfront⟩

theorem isAbsolute_eq_of_text_eq
    {p q : Path} {rest : String} (h : q.text = p.text ++ rest) (hp : p.text ≠ "") :
    q.isAbsolute = p.isAbsolute := by
  obtain ⟨c, cs, hcs⟩ := List.exists_cons_of_ne_nil (mt String.toList_eq_nil_iff.mp hp)
  simp [isAbsolute, h, hcs]

theorem isAbsolute_eq_false_of_splitOn
    {p : Path} {s : String} (h : Text.splitOn "/" p.text = [s]) : p.isAbsolute = false := by
  rw [← Bool.not_eq_true, isAbsolute_iff]
  rintro ⟨t, ht⟩
  have hsplit := Text.splitOn_slash_append "" t
  rw [String.empty_append, ← ht, h] at hsplit
  obtain ⟨first, others, hempty⟩ := List.exists_cons_of_ne_nil (Text.splitOn_slash_ne_nil "")
  rw [hempty] at hsplit
  simp [Text.splitOn_slash_ne_nil] at hsplit

/-! ## The path of a file's directory -/

theorem parent?_of_pieces
    {p : Path} {lead : Option String} {body : List String} {last : String}
    (hpieces : p.pieces = ⟨lead, body ++ [last]⟩) (hlast : component? last = some (.name last)) :
    p.parent? = some (Pieces.toPath ⟨lead, body.rdropWhile isIdle⟩) := by
  have hidle := (component?_eq_name_iff.mp hlast).2.1
  have hsettle : p.pieces.settle.body = body ++ [last] := by
    rw [hpieces, Pieces.settle, Text.dropEndWhile_of_getLast?]
    intro s hs
    have heq : last = s := by simpa using hs
    exact heq ▸ hidle
  rw [parent?_of_settle hsettle, hpieces]

theorem parent?_of_splitOn
    {p : Path} {name : String} (hpieces : Text.splitOn "/" p.text = [name])
    (hname : component? name = some (.name name)) : p.parent? = some ⟨""⟩ := by
  obtain ⟨-, hidle, -⟩ := component?_eq_name_iff.mp hname
  have hne : name ≠ "" ∧ name ≠ "." := by simpa [isIdle] using hidle
  have hlead : p.pieces = ⟨none, [] ++ [name]⟩ := by
    rw [pieces, hpieces]
    simp [Pieces.ofList, hne]
  rw [parent?_of_pieces hlead hname]
  rfl

/-- The pieces before the last one start with a lead or with something that says more. -/
theorem exists_pieces_concat
    {p : Path} {front : List String} {last : String} (hfront : front ≠ [])
    (hpieces : Text.splitOn "/" p.text = front ++ [last]) :
    ∃ lead body, p.pieces = ⟨lead, body ++ [last]⟩ ∧ front = lead.toList ++ body ∧
      (lead = none → body.rdropWhile isIdle ≠ []) := by
  obtain ⟨first, rest, rfl⟩ := List.exists_cons_of_ne_nil hfront
  rw [pieces, hpieces]
  by_cases hempty : first = ""
  · subst hempty
    refine ⟨some "", rest, ?_, rfl, fun h => absurd h (Option.some_ne_none _)⟩
    cases rest <;> rfl
  · by_cases hdot : first = "."
    · subst hdot
      exact ⟨some ".", rest, rfl, rfl, fun h => absurd h (Option.some_ne_none _)⟩
    · refine ⟨none, first :: rest, ?_, rfl, ?_⟩
      · simp [Pieces.ofList, hempty, hdot]
      · intro _ hnil
        have hidle := List.rdropWhile_eq_nil_iff.mp hnil first (by simp)
        simp [isIdle, hempty, hdot] at hidle

/-- A path begins another one and leads where a front of its pieces leads, but for pieces that say
nothing. -/
structure Begins (q p : Path) (front : List String) : Prop where
  text_ne : q.text ≠ ""
  text_eq : ∃ rest, p.text = q.text ++ rest
  pieces_eq : ∃ kept idle idle', front = kept ++ idle ∧
    Text.splitOn "/" q.text = kept ++ idle' ∧ ∀ s ∈ idle ++ idle', isIdle s = true

theorem begins_slash
    {p : Path} {idle : List String} {last : String} (hidle : ∀ s ∈ idle, isIdle s = true)
    (hpieces : Text.splitOn "/" p.text = "" :: idle ++ [last]) :
    Begins ⟨"/"⟩ p ("" :: idle) := by
  refine ⟨by decide, ⟨Text.joinWith "/" (idle ++ [last]), ?_⟩, [""], idle, [""], rfl,
    by decide +kernel, ?_⟩
  · have hsplit : "" :: idle ++ [last] = [""] ++ (idle ++ [last]) := by simp
    rw [← Text.joinWith_splitOn_slash p.text, hpieces, hsplit,
      Text.joinWith_append "/" (by simp) (by simp)]
    rfl
  · simpa [or_imp, forall_and, isIdle] using hidle

theorem begins_joinWith
    {p : Path} {kept idle : List String} {last : String} (hkept : kept ≠ [])
    (hroot : kept ≠ [""]) (hidle : ∀ s ∈ idle, isIdle s = true)
    (hpieces : Text.splitOn "/" p.text = kept ++ idle ++ [last]) :
    Begins ⟨Text.joinWith "/" kept⟩ p (kept ++ idle) := by
  have hsplit : Text.splitOn "/" (Text.joinWith "/" kept) = kept := by
    apply Text.splitOn_slash_joinWith hkept
    intro s hs
    have hmem : s ∈ Text.splitOn "/" p.text := by simp [hpieces, hs]
    exact Text.slash_not_mem_of_mem_splitOn hmem
  refine ⟨?_, ⟨"/" ++ Text.joinWith "/" (idle ++ [last]), ?_⟩, kept, idle, [], rfl, ?_, ?_⟩
  · intro hempty
    have hsingle : Text.splitOn "/" "" = [""] := by decide +kernel
    exact hroot (hsplit.symm.trans (hempty ▸ hsingle))
  · rw [← Text.joinWith_splitOn_slash p.text, hpieces, List.append_assoc,
      Text.joinWith_append "/" hkept (by simp), String.append_assoc]
  · rw [List.append_nil]
    exact hsplit
  · simpa using hidle

/-- Where a file's path has something before the name, its parent leads the same way. -/
theorem exists_parent?
    {p : Path} {front : List String} {last : String} (hfront : front ≠ [])
    (hpieces : Text.splitOn "/" p.text = front ++ [last])
    (hlast : component? last = some (.name last)) :
    ∃ parent, p.parent? = some parent ∧ parent.Begins p front := by
  obtain ⟨lead, body, hlead, rfl, hactive⟩ := exists_pieces_concat hfront hpieces
  have hparent := parent?_of_pieces hlead hlast
  have hbody : body.rdropWhile isIdle ++ body.rtakeWhile isIdle = body :=
    List.rdropWhile_append_rtakeWhile
  have hidle : ∀ s ∈ body.rtakeWhile isIdle, isIdle s = true := fun s hs =>
    List.mem_rtakeWhile_imp hs
  refine ⟨_, hparent, ?_⟩
  by_cases hroot : lead = some "" ∧ body.rdropWhile isIdle = []
  · obtain ⟨rfl, hnil⟩ := hroot
    rw [hnil, List.nil_append] at hbody
    rw [hbody] at hidle
    rw [hnil]
    exact begins_slash hidle hpieces
  · have hpath : Pieces.toPath ⟨lead, body.rdropWhile isIdle⟩ =
        ⟨Text.joinWith "/" (lead.toList ++ body.rdropWhile isIdle)⟩ := by
      unfold Pieces.toPath
      split
      · next hslash hnil => exact absurd ⟨hslash, hnil⟩ hroot
      · rfl
    have hsplit : lead.toList ++ body =
        lead.toList ++ body.rdropWhile isIdle ++ body.rtakeWhile isIdle := by
      rw [List.append_assoc, hbody]
    rw [hpath, hsplit]
    rw [hsplit] at hpieces
    refine begins_joinWith ?_ ?_ hidle hpieces
    · cases lead with
      | none => exact hactive rfl
      | some s => simp
    · cases lead with
      | none =>
          -- The last piece that is kept says something.
          intro hempty
          have hlast := List.rdropWhile_last_not isIdle body (hactive rfl)
          simp_all [isIdle]
      | some s => simpa using hroot

end Path

namespace Disk

theorem follows_unique
    {d : Disk} {place a b : List String} {pieces : List String} (ha : d.Follows place pieces a)
    (hb : d.Follows place pieces b) : a = b := by
  simpa using ha.symm.trans hb

theorem eq_of_follows_idle
    {d : Disk} {place place' : List String} {pieces : List String}
    (hidle : ∀ s ∈ pieces, Path.isIdle s = true) (h : d.Follows place pieces place') :
    place = place' := by
  induction pieces generalizing place with
  | nil => exact follows_nil_iff.mp h
  | cons piece pieces ih =>
      obtain ⟨next, henter, hrest⟩ := follows_cons_iff.mp h
      obtain ⟨hdir, -⟩ := enter_eq_ok_iff.mp henter
      have hstay := enter_eq_ok_iff.mpr ⟨hdir, .stay (hidle piece (by simp))⟩
      obtain rfl : place = next := by simpa using hstay.symm.trans henter
      exact ih (fun s hs => hidle s (by simp [hs])) hrest

/-- A path that goes on with a name leads one step further. -/
theorem locate_join_iff
    {d : Disk} {p : Path} {place : List String} (hlocate : d.locate p = .ok place)
    {name : String} (hname : Page.IsPlain name) {place' : List String} :
    d.locate (p.join ⟨name⟩) = .ok place' ↔
      d.checkPath (p.join ⟨name⟩) = .ok () ∧ d.enter place name = .ok place' := by
  obtain ⟨hcheck, hfollows⟩ := locate_eq_ok_iff.mp hlocate
  have hp : p.text ≠ "" := (checkPath_eq_ok_iff.mp hcheck).2.1
  obtain ⟨front, idle, hpieces, hidle, hjoin⟩ := Path.splitOn_join hp hname
  have horigin : d.origin (p.join ⟨name⟩) = d.origin p := by
    obtain ⟨between, -, htext⟩ := Path.exists_text_join hname p
    rw [String.append_assoc] at htext
    rw [origin, origin, Path.isAbsolute_eq_of_text_eq htext hp]
  obtain ⟨next, hfront, hback⟩ := follows_append_iff.mp (hpieces ▸ hfollows)
  obtain rfl : next = place := eq_of_follows_idle hidle hback
  rw [locate_eq_ok_iff, horigin, hjoin, follows_append_iff]
  apply and_congr_right
  intro _
  constructor
  · rintro ⟨next', hfront', hlast⟩
    obtain rfl : next = next' := follows_unique hfront hfront'
    exact follows_singleton_iff.mp hlast
  · intro henter
    exact ⟨next, hfront, follows_singleton_iff.mpr henter⟩

theorem locate_join_eq
    {d : Disk} {p : Path} {place place' : List String} (hlocate : d.locate p = .ok place)
    {name : String} (hname : Page.IsPlain name) (h : d.locate (p.join ⟨name⟩) = .ok place') :
    place' = place ++ [name] := by
  obtain ⟨-, henter⟩ := (locate_join_iff hlocate hname).mp h
  obtain ⟨-, hstep⟩ := enter_eq_ok_iff.mp henter
  obtain ⟨-, hidle, hup⟩ := Path.component?_eq_name_iff.mp hname.name
  cases hstep with
  | stay hstay => exact absurd hstay (by simp [hidle])
  | up => exact absurd rfl hup
  | into _ _ _ => rfl

theorem locate_join_of_isSome
    {d : Disk} {p : Path} {place : List String} (hlocate : d.locate p = .ok place)
    {name : String} (hname : IsFileName name) (hcheck : d.checkPath (p.join ⟨name⟩) = .ok ())
    (hsome : (d.node? (place ++ [name])).isSome) :
    d.locate (p.join ⟨name⟩) = .ok (place ++ [name]) := by
  have hdir : d.node? place = some .dir := Listing.node?_eq_dir_of_append hsome
  refine (locate_join_iff hlocate hname.toIsPlain).mpr ⟨hcheck, ?_⟩
  exact enter_eq_ok_iff.mpr ⟨hdir, .into hname.name hname.size hsome⟩

theorem checkPath_join
    {d : Disk} {p : Path} (hp : d.checkPath p = .ok ()) {name : String} (hname : IsFileName name)
    (hfits : d.fits (p.join ⟨name⟩) = true) : d.checkPath (p.join ⟨name⟩) = .ok () := by
  obtain ⟨hnul, hne, -⟩ := checkPath_eq_ok_iff.mp hp
  obtain ⟨between, hbetween, htext⟩ := Path.exists_text_join hname.toIsPlain p
  refine checkPath_eq_ok_iff.mpr ⟨?_, Path.text_join_ne_empty hne, hfits⟩
  have hbetween_nul : Char.ofNat 0 ∉ between.toList := by
    rcases hbetween with rfl | rfl <;> decide
  simp [htext, hnul, hbetween_nul, hname.nul]

/-- A path through names that are there leads behind them, unless it is too long. -/
theorem locate_through
    {d : Disk} (hwf : d.top.WellFormed) {p : Path} {place : List String}
    (hlocate : d.locate p = .ok place) {names : List String}
    (hnode : (d.node? (place ++ names)).isSome)
    (hfits : d.fits (p.through names) = true) :
    d.locate (p.through names) = .ok (place ++ names) := by
  induction names generalizing p place with
  | nil => simpa [Path.through] using hlocate
  | cons name names ih =>
      have hnames : ∀ s ∈ name :: names, IsFileName s := fun s hs =>
        hwf.isFileName_of_isSome hnode (by simp [hs])
      have hname := hnames name (by simp)
      have happend : place ++ name :: names = place ++ [name] ++ names := by simp
      rw [happend] at hnode ⊢
      have hnext : (d.node? (place ++ [name])).isSome :=
        Listing.isSome_node?_of_prefix hnode (List.prefix_append _ _)
      refine ih (locate_join_of_isSome hlocate hname ?_ hnext) hnode hfits
      apply checkPath_join (locate_eq_ok_iff.mp hlocate).1 hname
      apply fits_of_length_le hfits
      have hplain : ∀ s ∈ names, Page.IsPlain s := fun s hs =>
        (hnames s (List.mem_cons_of_mem _ hs)).toIsPlain
      obtain ⟨rest, hrest⟩ := Path.exists_text_through hplain (p.join ⟨name⟩)
      have hthrough : p.through (name :: names) = (p.join ⟨name⟩).through names := rfl
      rw [hthrough, hrest, String.length_append]
      exact Nat.le_add_right _ _

theorem locate_dot
    {d : Disk} (h : d.node? d.cwd = some .dir) (hfits : d.fits ⟨"."⟩ = true) :
    d.locate ⟨"."⟩ = .ok d.cwd := by
  have hpieces : Text.splitOn "/" "." = ["."] := by decide +kernel
  refine locate_eq_ok_iff.mpr
    ⟨checkPath_eq_ok_iff.mpr ⟨by decide, by decide, hfits⟩, ?_⟩
  rw [hpieces]
  exact follows_singleton_iff.mpr (enter_eq_ok_iff.mpr ⟨h, .stay (by decide +kernel)⟩)

/-- A path that begins another leads where the front of the other leads. -/
theorem locate_of_begins
    {d : Disk} {p q : Path} {front place : List String} (h : q.Begins p front)
    (hcheck : d.checkPath p = .ok ()) (hfront : d.Follows (d.origin p) front place)
    (hdir : d.node? place = some .dir) : d.locate q = .ok place := by
  obtain ⟨hne, ⟨rest, htext⟩, kept, idle, idle', rfl, hsplit, hidle⟩ := h
  have hcheck' : d.checkPath q = .ok () := by
    obtain ⟨hnul, -, hfits⟩ := checkPath_eq_ok_iff.mp hcheck
    rw [htext] at hnul
    refine checkPath_eq_ok_iff.mpr ⟨fun h => hnul (by simp [h]), hne, fits_of_length_le hfits ?_⟩
    rw [htext, String.length_append]
    exact Nat.le_add_right _ _
  have horigin : d.origin q = d.origin p := by
    rw [origin, origin, Path.isAbsolute_eq_of_text_eq htext hne]
  obtain ⟨next, hkept, hback⟩ := follows_append_iff.mp hfront
  obtain rfl : next = place := eq_of_follows_idle (fun s hs => hidle s (by simp [hs])) hback
  rw [locate_eq_ok_iff, horigin, hsplit, follows_append_iff]
  exact ⟨hcheck', next, hkept, follows_idle hdir fun s hs => hidle s (by simp [hs])⟩

/-- The directory that holds a file is the project's root for it. -/
theorem locate_projectRoot
    {d : Disk} {p : Path} {place : List String} {content : ByteArray}
    (hlocate : d.locate p = .ok place) (hfile : d.node? place = some (.file content)) :
    ∃ root name, place = root ++ [name] ∧ d.locate (d.projectRoot p) = .ok root := by
  obtain ⟨hcheck, -⟩ := locate_eq_ok_iff.mp hlocate
  obtain ⟨front, parent, name, hpieces, hfront, hdir, hname, rfl⟩ :=
    exists_name_of_file hlocate hfile
  have hisFile : d.isFile p = true := isFile_iff.mpr ⟨_, content, hlocate, hfile⟩
  refine ⟨parent, name, rfl, ?_⟩
  by_cases hnil : front = []
  · -- The path is a name alone, and the root is the working directory.
    subst hnil
    obtain rfl : d.cwd = parent := by
      have horigin := follows_nil_iff.mp hfront
      simpa [origin, Path.isAbsolute_eq_false_of_splitOn hpieces] using horigin
    have hroot : d.projectRoot p = ⟨"."⟩ := by
      simp [projectRoot, hisFile, Path.parent?_of_splitOn hpieces hname.name, Path.isEmpty]
    have hshort : (".").length ≤ p.text.length := by
      obtain ⟨-, hne, -⟩ := checkPath_eq_ok_iff.mp hcheck
      exact Nat.one_le_iff_ne_zero.mpr (by simpa using hne)
    rw [hroot]
    exact locate_dot hdir (fits_of_length_le (checkPath_eq_ok_iff.mp hcheck).2.2 hshort)
  · obtain ⟨q, hparent, hbegins⟩ := Path.exists_parent? hnil hpieces hname.name
    have hroot : d.projectRoot p = q := by
      simp [projectRoot, hisFile, hparent, Path.isEmpty, hbegins.text_ne]
    rw [hroot]
    exact locate_of_begins hbegins hcheck hfront hdir

/-! ## Paths that take the same steps -/

theorem follows_filter
    {d : Disk} {place place' : List String} {pieces : List String}
    (h : d.Follows place pieces place') :
    d.Follows place (pieces.filter fun piece => !Path.isIdle piece) place' := by
  induction pieces generalizing place with
  | nil => exact h
  | cons piece pieces ih =>
      obtain ⟨next, henter, hrest⟩ := follows_cons_iff.mp h
      cases hidle : Path.isIdle piece with
      | true =>
          obtain rfl : place = next :=
            eq_of_follows_idle (by simp [hidle]) (follows_singleton_iff.mpr henter)
          rw [List.filter_cons_of_neg (by simp [hidle])]
          exact ih hrest
      | false =>
          rw [List.filter_cons_of_pos (by simp [hidle])]
          exact follows_cons_iff.mpr ⟨next, henter, ih hrest⟩

/-- Pieces that say nothing can stand anywhere in front of one that says something. -/
theorem follows_of_filter
    {d : Disk} {place place' : List String} {pieces : List String} {last : String}
    (hlast : Path.isIdle last = false)
    (h : d.Follows place ((pieces ++ [last]).filter fun piece => !Path.isIdle piece) place') :
    d.Follows place (pieces ++ [last]) place' := by
  induction pieces generalizing place with
  | nil => simpa [hlast] using h
  | cons piece pieces ih =>
      rw [List.cons_append] at h ⊢
      cases hidle : Path.isIdle piece with
      | true =>
          rw [List.filter_cons_of_neg (by simp [hidle])] at h
          have hrest := ih h
          have hdir : d.node? place = some .dir := by
            obtain ⟨first, others, hfirst⟩ : ∃ first others, pieces ++ [last] = first :: others :=
              List.exists_cons_of_ne_nil (by simp)
            rw [hfirst] at hrest
            obtain ⟨next, henter, -⟩ := follows_cons_iff.mp hrest
            exact (enter_eq_ok_iff.mp henter).1
          exact follows_cons_iff.mpr ⟨place, enter_eq_ok_iff.mpr ⟨hdir, .stay hidle⟩, hrest⟩
      | false =>
          rw [List.filter_cons_of_pos (by simp [hidle])] at h
          obtain ⟨next, henter, hrest⟩ := follows_cons_iff.mp h
          exact follows_cons_iff.mpr ⟨next, henter, ih hrest⟩

/-- Paths with the same pieces that say something have the same characters, but for slashes and
dots. -/
theorem mem_text_of_filter_eq
    {p q : Path}
    (hfilter : (Text.splitOn "/" p.text).filter (fun piece => !Path.isIdle piece) =
      (Text.splitOn "/" q.text).filter fun piece => !Path.isIdle piece)
    {c : Char} (hslash : c ≠ '/') (hdot : c ≠ '.') (hc : c ∈ q.text.toList) :
    c ∈ p.text.toList := by
  rw [← Text.joinWith_splitOn_slash q.text] at hc
  obtain ⟨piece, hpiece, hc⟩ :=
    (Text.mem_of_mem_joinWith hc).resolve_left (by simpa using hslash)
  have hactive : Path.isIdle piece = false := by
    rw [← Bool.not_eq_true, Path.isIdle, Bool.or_eq_true, beq_iff_eq, beq_iff_eq]
    rintro (rfl | rfl)
    · simp at hc
    · exact hdot (by simpa using hc)
  have hshared : piece ∈ (Text.splitOn "/" p.text).filter fun piece => !Path.isIdle piece := by
    rw [hfilter]
    exact List.mem_filter.mpr ⟨hpiece, by simp [hactive]⟩
  exact Text.mem_of_mem_splitOn_slash (List.mem_filter.mp hshared).1 hc

/-- Paths that take the same steps from the same origin lead to the same place, if the second one
ends with a step and is not too long. -/
theorem locate_of_moves
    {d : Disk} {p q : Path} {place : List String} (hlocate : d.locate p = .ok place)
    (hmoves : p.components.filter Path.Component.moves = q.components.filter Path.Component.moves)
    (hroot : Path.Component.root ∈ p.components ↔ Path.Component.root ∈ q.components)
    {pieces : List String} {last : String} (hpieces : Text.splitOn "/" q.text = pieces ++ [last])
    (hlast : Path.isIdle last = false) (hfits : d.fits q = true) :
    d.locate q = .ok place := by
  obtain ⟨hcheck, hfollows⟩ := locate_eq_ok_iff.mp hlocate
  have hfilter : (Text.splitOn "/" p.text).filter (fun piece => !Path.isIdle piece) =
      (Text.splitOn "/" q.text).filter fun piece => !Path.isIdle piece := by
    rw [← Path.map_text_steps, ← Path.map_text_steps, ← Path.filter_moves_components,
      ← Path.filter_moves_components, hmoves]
  have horigin : d.origin q = d.origin p := by
    have habsolute : p.isAbsolute = q.isAbsolute := by
      rw [Bool.eq_iff_iff, Path.isAbsolute_iff_root_mem, Path.isAbsolute_iff_root_mem, hroot]
    rw [origin, origin, habsolute]
  refine locate_eq_ok_iff.mpr ⟨checkPath_eq_ok_iff.mpr ⟨?_, ?_, hfits⟩, ?_⟩
  · intro hnul
    exact (checkPath_eq_ok_iff.mp hcheck).1
      (mem_text_of_filter_eq hfilter (by decide) (by decide) hnul)
  · intro hempty
    rw [hempty, show Text.splitOn "/" "" = [] ++ [""] from by decide +kernel] at hpieces
    have heq : "" = last := by simpa using (List.append_inj' hpieces rfl).2
    rw [← heq] at hlast
    exact absurd hlast (by decide)
  · rw [horigin, hpieces]
    apply follows_of_filter hlast
    rw [← hpieces, ← hfilter]
    exact follows_filter hfollows

end Disk

end MarkerDoc
