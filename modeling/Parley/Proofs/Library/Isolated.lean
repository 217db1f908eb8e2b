import Mathlib
import Parley.Proofs.Archive.Folder
import Parley.Proofs.Library.Visit

/-! Files are loaded each for itself.

What a library has under a name after all of a folder has been loaded is made of the files of that name, in the order of
their names (`under_loadAll`): the dialog that was there, or else the first that loads on its own. So the files of one
stem do nothing to the dialogs of others (`loadAll_isolates`). -/
namespace Parley

/-- Reading a file of a folder gives its bytes or is refused by the system, and reading it as JSON gives a value or
finds that it is none. -/
structure Archive.Readable (archive : Archive) (folder : Path) : Prop where
  content : ∀ name ∈ archive.list folder, ∀ fault, archive.content (folder ++ [name]) ≠ .error (.path fault)
  json : ∀ name ∈ archive.list folder, ∀ text fault, archive.script (folder ++ [name]) = .ok text →
    Json.readTo Archive.deepest text = .error fault → fault = .malformed

namespace Library

/-- The paths of what stands in a folder, in the order of their names. -/
def paths (archive : Archive) (folder : Path) : List Path := (archive.list folder).map fun name => folder ++ [name]

/-- The files of a folder that may hold the dialog of a name. -/
def candidates (config : Config) (archive : Archive) (folder : Path) (id : String) : List Path :=
  (paths archive folder).filter fun path =>
    path.stem = id ∧ (path.suffix = config.scriptExtension ∨ path.suffix = config.compiledExtension)

/-- The dialog that a file is on its own. -/
def alone? (config : Config) (archive : Archive) (path : Path) : Option Dialog :=
  (loader? config archive path).bind Except.toOption

/-- The dialog of the first file of a name that loads on its own. -/
def first? (config : Config) (archive : Archive) (folder : Path) (id : String) : Option Dialog :=
  (candidates config archive folder id).findSome? (alone? config archive)

variable {config : Config} {archive other : Archive} {folder path : Path} {id stem : String}

theorem ordered_list (archive : Archive) (folder : Path) :
    (archive.list folder).Pairwise fun a b => Text.comesBefore a b = true := by
  unfold Archive.list
  cases (archive.place folder).toOption with
  | none => exact .nil
  | some place => exact Names.ordered_sorted _

/-! ### One file -/

/-- How a file is loaded is a matter of its content. -/
theorem loader?_congr (hroot : archive.root = other.root) (hcontent : archive.content path = other.content path) :
    loader? config archive path = loader? config other path := by
  have hdisplay : archive.display path = other.display path := by
    rw [Archive.display, hroot]
    rfl
  have hscript : archive.script path = other.script path := by
    rw [Archive.script, Archive.script, hcontent, Archive.displayUnread, Archive.displayUnread, hroot, hdisplay]
  rw [loader?, loader?, Archive.loadScript, Archive.loadScript, Archive.loadDocument, Archive.loadDocument, hscript,
    hdisplay]

/-- A file that is read does not break down. -/
theorem loader?_ne_breakdown (hcontent : ∀ fault, archive.content path ≠ .error (.path fault))
    (hjson : ∀ text fault, archive.script path = .ok text → Json.readTo Archive.deepest text = .error fault →
      fault = .malformed) (cause : Breakdown) :
    loader? config archive path ≠ some (.error (.breakdown cause)) := by
  have hscript : archive.script path ≠ .error (.breakdown cause) := by
    intro h
    unfold Archive.script at h
    split at h
    · cases h
    · rename_i fault hfault
      cases hread : archive.content path with
      | ok bytes =>
        rw [hread] at hfault
        cases hfault
      | error found =>
        rw [hread] at hfault
        cases hfault
        exact hcontent fault hread
    · cases h
  unfold loader?
  split
  · intro h
    rcases bind_eq_error_iff.mp (Option.some.inj h) with h | ⟨text, -, h⟩
    · exact hscript h
    · obtain ⟨_, _, h⟩ := mapError_eq_error_iff.mp h
      cases h
  · split
    · intro h
      rcases bind_eq_error_iff.mp (Option.some.inj h) with h | ⟨text, htext, h⟩
      · exact hscript h
      · split at h
        · cases h
        · rename_i fault hmalformed hfault
          exact hmalformed (hjson text fault htext hfault)
        · obtain ⟨_, _, h⟩ := mapError_eq_error_iff.mp h
          cases h
    · exact fun h => nomatch h

theorem steady_of_readable (config : Config) (h : archive.Readable folder) :
    Visit.Steady config archive (paths archive folder) := by
  intro path hpath
  obtain ⟨name, hname, rfl⟩ := List.mem_map.mp hpath
  exact loader?_ne_breakdown (h.content name hname) (h.json name hname)

/-! ### The files of a name -/

/-- Of attempts, the first that gives a dialog counts, unless a dialog was there. -/
theorem foldl_attempt (id : String) (loaded : List (Except FileFault Dialog)) (found : Option Dialog × Option String) :
    (loaded.foldl (attempt id) found).1 = found.1.or ((loaded.findSome? Except.toOption).map (·.withId id)) := by
  induction loaded generalizing found with
  | nil => simp
  | cons first rest ih =>
    rw [List.foldl_cons, ih]
    obtain ⟨dialog, message⟩ := found
    cases dialog with
    | some dialog => rfl
    | none =>
      cases first with
      | ok dialog => rfl
      | error fault => cases fault <;> rfl

theorem isSome_loader?_iff : (loader? config archive path).isSome = true ↔
    path.suffix = config.scriptExtension ∨ path.suffix = config.compiledExtension := by
  unfold loader?
  split
  · rename_i hscript
    simp [hscript]
  · rename_i hscript
    split
    · rename_i hcompiled
      simp [hcompiled]
    · rename_i hcompiled
      simp [hscript, hcompiled]

/-- Attempts are made with the candidates. -/
theorem findSome?_attempts (config : Config) (archive : Archive) (folder : Path) (id : String) :
    (attempts config archive id (paths archive folder)).findSome? Except.toOption =
      first? config archive folder id := by
  unfold first? candidates
  induction paths archive folder with
  | nil => rfl
  | cons path rest ih =>
    have hsome := @isSome_loader?_iff config archive path
    rw [attempts_cons, List.findSome?_append, ih, attempts_singleton, List.filter_cons]
    by_cases hstem : path.stem = id
    · cases hloader : loader? config archive path with
      | none =>
        have hother := mt hsome.mpr (by simp [hloader])
        simp [hstem, hother]
      | some loaded =>
        have hfile := hsome.mp (by simp [hloader])
        cases hloaded : loaded.toOption <;> simp [hstem, hfile, alone?, hloader, hloaded]
    · simp [hstem]

/-- Folders that differ in the files of one stem have the same files of other names, in the same order. -/
theorem attempts_congr (config : Config) (h : archive.SameBut folder stem other) (hid : id ≠ stem) :
    attempts config archive id (paths archive folder) = attempts config other id (paths other folder) := by
  have hfilter : ∀ archive : Archive, (paths archive folder).filter (fun path => path.stem = id) =
      ((archive.list folder).filter fun name => Path.stem [name] = id).map fun name => folder ++ [name] := by
    intro archive
    rw [paths, List.filter_map]
    refine congrArg _ (List.filter_congr fun name _ => ?_)
    simp only [Function.comp, Path.stem_append]
  have hnames : (archive.list folder).filter (fun name => Path.stem [name] = id) =
      (other.list folder).filter (fun name => Path.stem [name] = id) := by
    refine Names.eq_of_ordered ((ordered_list archive folder).filter _) ((ordered_list other folder).filter _) ?_
    intro name
    rw [List.mem_filter, List.mem_filter]
    refine and_congr_left fun hstem => h.list name ?_
    rwa [of_decide_eq_true hstem]
  rw [attempts, attempts, hfilter, hfilter, ← hnames]
  refine List.filterMap_congr fun path hpath => ?_
  obtain ⟨name, hname, rfl⟩ := List.mem_map.mp hpath
  obtain ⟨hlisted, hstem⟩ := List.mem_filter.mp hname
  refine loader?_congr h.root (h.content name hlisted ?_)
  rwa [of_decide_eq_true hstem]

/-! ### All files -/

/-- After all of a folder has been loaded, the library has the names that it had and as many more as it says, and under
each name what the files of that name make of it. -/
theorem under_loadAll (library : Library) (hfolder : archive.entry folder = .ok .folder)
    (hreadable : archive.Readable folder) :
    ∃ count after log, library.loadAll archive folder = (.ok count, after, log) ∧
      (∃ added, after.dialogs.names = library.dialogs.names ++ added ∧ added.length = count) ∧
      ∀ id, after.under id =
        (attempts library.config archive id (paths archive folder)).foldl (attempt id) (library.under id) := by
  obtain ⟨last, hlast, ⟨added, hnames, hcount⟩, hunder⟩ :=
    @Visit.entries_of_steady archive _ ⟨library, 0, []⟩ (steady_of_readable library.config hreadable)
  have hload : library.loadAll archive folder = (.ok last.count, last.library, last.log ++
      [⟨.info, s!"Loaded {last.count} dialogs, {last.library.failed.size} failed."⟩]) := by
    unfold paths at hlast
    simp only [loadAll, hfolder, hlast]
  exact ⟨_, _, _, hload, ⟨added, hnames, by rw [hcount, Nat.zero_add]⟩, hunder⟩

/-- What a library has after a folder has been loaded into it. -/
structure Filled (archive : Archive) (folder : Path) (library after : Library) (count : Nat) : Prop where
  /-- The names that are new have been counted. -/
  added : ∃ added, after.dialogs.names = library.dialogs.names ++ added ∧ added.length = count
  /-- A dialog that was there stays. -/
  kept : ∀ id dialog, library.dialogs.get? id = some dialog → after.dialogs.get? id = some dialog
  /-- A dialog is there if one of its files loads on its own. -/
  loaded : ∀ id, library.dialogs.get? id = none → (after.dialogs.contains id = true ↔
    ∃ path ∈ candidates library.config archive folder id, (alone? library.config archive path).isSome = true)
  /-- The first file that does so is the one. -/
  first : ∀ id, library.dialogs.get? id = none →
    after.dialogs.get? id = (first? library.config archive folder id).map (·.withId id)

theorem filled_loadAll (library : Library) (hfolder : archive.entry folder = .ok .folder)
    (hreadable : archive.Readable folder) :
    ∃ count after log, library.loadAll archive folder = (.ok count, after, log) ∧
      Filled archive folder library after count := by
  obtain ⟨count, after, log, hload, hadded, hunder⟩ := under_loadAll library hfolder hreadable
  have hdialog : ∀ id, after.dialogs.get? id =
      (library.dialogs.get? id).or ((first? library.config archive folder id).map (·.withId id)) := by
    intro id
    have hfound := congrArg Prod.fst (hunder id)
    rwa [foldl_attempt, findSome?_attempts] at hfound
  refine ⟨count, after, log, hload, hadded, fun id dialog hthere => ?_, fun id hnew => ?_, fun id hnew => ?_⟩
  · rw [hdialog, hthere]
    rfl
  · rw [← Table.isSome_get?, hdialog, hnew, Option.none_or, Option.isSome_map, first?, List.isSome_findSome?,
      List.any_eq_true]
  · rw [hdialog, hnew, Option.none_or]

/-- **Every file is loaded for itself.** A folder is loaded without a fault, its files in the order of their names.
Dialogs that are there stay, and any other name gets the dialog of its first file that loads on its own. The files of
one stem do nothing to what there is under other names. -/
theorem loadAll_isolates (library : Library) (hfolder : archive.entry folder = .ok .folder)
    (hreadable : archive.Readable folder) :
    Names.Ascending (archive.list folder) ∧
    (∃ count after log, library.loadAll archive folder = (.ok count, after, log) ∧
      Filled archive folder library after count) ∧
    ∀ other stem, archive.SameBut folder stem other → other.entry folder = .ok .folder → other.Readable folder →
      ∀ id, id ≠ stem →
        (library.loadAll archive folder).2.1.under id = (library.loadAll other folder).2.1.under id := by
  refine ⟨Names.ascending_of_ordered (ordered_list archive folder), filled_loadAll library hfolder hreadable, ?_⟩
  intro other stem hsame hother hreadable' id hid
  obtain ⟨count, after, log, hload, -, hunder⟩ := under_loadAll library hfolder hreadable
  obtain ⟨count', after', log', hload', -, hunder'⟩ := under_loadAll library hother hreadable'
  rw [hload, hload']
  show after.under id = after'.under id
  rw [hunder, hunder', attempts_congr library.config hsame hid]

/-! ### A folder with three files -/

/-- Texts that are no JSON break nothing down. -/
theorem readable_of_scripts (h : ∀ name ∈ archive.list folder, ∃ text, archive.script (folder ++ [name]) = .ok text ∧
    Json.readTo Archive.deepest text = .error .malformed) : archive.Readable folder := by
  refine ⟨fun name hname fault hfault => ?_, fun name hname found fault hfound hfault => ?_⟩
  · obtain ⟨text, hscript, -⟩ := h name hname
    rw [Archive.script, hfault] at hscript
    cases hscript
  · obtain ⟨text, hscript, hmalformed⟩ := h name hname
    rw [hscript] at hfound
    cases hfound
    rw [hmalformed] at hfault
    cases hfault
    rfl

/-- A broken document, and a script of the same stem and one of another. -/
def harbour : Archive where
  root := "/"
  entries := [(["b.yarn"], .file "title: B\n---\n<<jump B>>\n===\n".toUTF8), (["a.json"], .file "[".toUTF8),
    (["a.yarn"], .file "title: A\n---\n<<jump A>>\n===\n".toUTF8)]

/-- The same folder after the other script has been broken. -/
def flooded : Archive := harbour.put ["b.yarn"] (.file "Waves".toUTF8)

theorem list_harbour : harbour.list [] = ["a.json", "a.yarn", "b.yarn"] := by cbv

theorem list_flooded : flooded.list [] = ["a.json", "a.yarn", "b.yarn"] := by cbv

theorem readable_harbour : harbour.Readable [] := by
  refine readable_of_scripts ?_
  rw [list_harbour]
  simp only [List.forall_mem_cons]
  exact ⟨⟨"[", by cbv, rfl⟩, ⟨"title: A\n---\n<<jump A>>\n===\n", by cbv, rfl⟩,
    ⟨"title: B\n---\n<<jump B>>\n===\n", by cbv, rfl⟩, List.forall_mem_nil _⟩

theorem readable_flooded : flooded.Readable [] := by
  refine readable_of_scripts ?_
  rw [list_flooded]
  simp only [List.forall_mem_cons]
  exact ⟨⟨"[", by cbv, rfl⟩, ⟨"title: A\n---\n<<jump A>>\n===\n", by cbv, rfl⟩, ⟨"Waves", by cbv, rfl⟩,
    List.forall_mem_nil _⟩

/-- Breaking one script leaves what there is under the other name. -/
theorem loadAll_isolates_harbour :
    harbour.entry [] = .ok .folder ∧ harbour.Readable [] ∧ harbour.SameBut [] "b" flooded ∧
    flooded.entry [] = .ok .folder ∧ flooded.Readable [] ∧
    (∃ count after log, (empty {}).loadAll harbour [] = (.ok count, after, log) ∧
      Filled harbour [] (empty {}) after count) ∧
    ((empty {}).loadAll harbour []).2.1.under "a" = ((empty {}).loadAll flooded []).2.1.under "a" := by
  have hfolder : harbour.entry [] = .ok .folder := by cbv
  have hnames : ∀ listed ∈ harbour.list [], Text.settled listed = listed ∧ listed ≠ ".." := by
    rw [list_harbour]
    simp only [List.forall_mem_cons]
    exact ⟨⟨by cbv, by decide⟩, ⟨by cbv, by decide⟩, ⟨by cbv, by decide⟩, List.forall_mem_nil _⟩
  have hwrite : harbour.write ([] ++ ["b.yarn"]) "Waves".toUTF8 = (.ok (), flooded) := by cbv
  obtain ⟨hsame, hother⟩ := Archive.sameBut_write hfolder (by decide) hnames hwrite
  have hstem : Path.stem [Text.settled "b.yarn"] = "b" := by cbv
  rw [hstem] at hsame
  obtain ⟨-, hfilled, hisolated⟩ := loadAll_isolates (empty {}) hfolder readable_harbour
  exact ⟨hfolder, readable_harbour, hsame, hother, readable_flooded, hfilled,
    hisolated flooded "b" hsame hother readable_flooded "a" (by decide)⟩

end Library

end Parley
