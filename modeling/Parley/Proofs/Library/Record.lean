import Parley.Proofs.Library.Isolated
import Parley.Proofs.Tables

/-! The record of failures.

A library notes under the stem of a file why the file was not loaded, and never takes a note back. So its notes are
those of all files that were ever tried and failed, one for each stem, and its dialogs are those that were tried and
loaded (`Recorded`). The record is faithful exactly if no stem has files of both kinds, and at the first time no two of
the first kind (`faithful_iff`). -/
namespace Parley.Library

/-- A file that was tried, and why it was not loaded if it was not. -/
structure Trial where
  path : Path
  fault? : Option LoadFault

namespace Trial

/-- The note about a file that failed. -/
def note? (trial : Trial) : Option (String × String) :=
  trial.fault?.map fun fault => (trial.path.stem, fault.message)

/-- The name of the dialog of a file that was loaded. -/
def loaded? (trial : Trial) : Option String :=
  match trial.fault? with
  | none => some trial.path.stem
  | some _ => none

end Trial

namespace Visit

/-- The trial of an entry of the folder, if it is a file of a dialog that is not there yet. -/
def trial? (archive : Archive) (path : Path) (visit : Visit) : Option Trial :=
  if visit.library.dialogs.contains path.stem then none
  else
    match loader? visit.library.config archive path with
    | some (.ok _) => some ⟨path, none⟩
    | some (.error (.load fault)) => some ⟨path, some fault⟩
    | _ => none

/-- The trials of a visit, to its end or to a breakdown. -/
def trials (archive : Archive) : List Path → Visit → List Trial
  | [], _ => []
  | path :: rest, visit =>
    match visit.entry archive path with
    | .error _ => []
    | .ok next => (visit.trial? archive path).toList ++ trials archive rest next

end Visit

/-- The trials when all of a folder is loaded. -/
def trials (library : Library) (archive : Archive) (folder : Path) : List Trial :=
  match archive.entry folder with
  | .ok .folder => Visit.trials archive (paths archive folder) ⟨library, 0, []⟩
  | _ => []

/-- The library after a folder has been loaded several times, as it was each time. -/
def reloaded (folder : Path) : List Archive → Library → Library
  | [], library => library
  | archive :: rest, library => reloaded folder rest (library.loadAll archive folder).2.1

/-- The trials of all these times. -/
def history (folder : Path) : List Archive → Library → List Trial
  | [], _ => []
  | archive :: rest, library =>
    library.trials archive folder ++ history folder rest (library.loadAll archive folder).2.1

/-- No name has both a dialog and a note that it failed. -/
def Apart (library : Library) : Prop :=
  ∀ id, ¬(library.dialogs.contains id = true ∧ library.failed.contains id = true)

/-- The record of failures is faithful: each time a folder has been loaded, what is there and what failed are apart, and
the first time there is a note for every file that failed. -/
structure Faithful (config : Config) (folder : Path) (archives : List Archive) : Prop where
  apart : ∀ times, times <+: archives → Apart (reloaded folder times (empty config))
  counted : ∀ archive ∈ archives.head?, ((empty config).loadAll archive folder).2.1.failed.size =
    (((empty config).trials archive folder).filterMap Trial.note?).length

/-- What trials have made of a library. -/
structure Recorded (library : Library) (trials : List Trial) (after : Library) : Prop where
  config : after.config = library.config
  failed : after.failed = library.failed.putAll (trials.filterMap Trial.note?)
  names : after.dialogs.names = library.dialogs.names ++ trials.filterMap Trial.loaded?

variable {library next after : Library} {archive : Archive} {folder path : Path} {earlier later : List Trial}
  {id : String}

/-! ### Trials -/

theorem mem_notes {trials : List Trial} : id ∈ (trials.filterMap Trial.note?).map Prod.fst ↔
    ∃ trial ∈ trials, trial.fault?.isSome = true ∧ trial.path.stem = id := by
  rw [List.map_filterMap, List.mem_filterMap]
  refine exists_congr fun trial => and_congr_right fun _ => ?_
  unfold Trial.note?
  cases trial.fault? <;> simp

theorem mem_loaded {trials : List Trial} : id ∈ trials.filterMap Trial.loaded? ↔
    ∃ trial ∈ trials, trial.fault? = none ∧ trial.path.stem = id := by
  rw [List.mem_filterMap]
  refine exists_congr fun trial => and_congr_right fun _ => ?_
  unfold Trial.loaded?
  cases trial.fault? <;> simp

/-- Each entry of a folder is tried at most once. -/
theorem Visit.sublist_trials (archive : Archive) (paths : List Path) (visit : Visit) :
    ((Visit.trials archive paths visit).map Trial.path).Sublist paths := by
  induction paths generalizing visit with
  | nil => exact List.Sublist.refl _
  | cons path rest ih =>
    unfold Visit.trials
    split
    · exact List.nil_sublist _
    · rename_i next hentry
      have hpath : ∀ trial ∈ visit.trial? archive path, trial.path = path := by
        intro trial htrial
        unfold trial? at htrial
        grind
      cases htrial : visit.trial? archive path with
      | none => exact (ih next).cons _
      | some trial =>
        rw [Option.toList_some, List.singleton_append, List.map_cons, hpath trial htrial]
        exact (ih next).cons_cons _

theorem sublist_trials (library : Library) (archive : Archive) (folder : Path) :
    ((library.trials archive folder).map Trial.path).Sublist (paths archive folder) := by
  unfold trials
  split
  · exact Visit.sublist_trials _ _ _
  · exact List.nil_sublist _

theorem sublist_notes (trials : List Trial) :
    ((trials.filterMap Trial.note?).map Prod.fst).Sublist (trials.map fun trial => trial.path.stem) := by
  induction trials with
  | nil => exact List.Sublist.refl _
  | cons trial rest ih =>
    cases hfault : trial.fault? with
    | none =>
      rw [List.filterMap_cons_none (by rw [Trial.note?, hfault]; rfl)]
      exact ih.cons _
    | some fault =>
      rw [List.filterMap_cons_some (by rw [Trial.note?, hfault]; rfl)]
      exact ih.cons_cons _

theorem Recorded.refl (library : Library) : Recorded library [] library :=
  ⟨rfl, rfl, (List.append_nil _).symm⟩

theorem Recorded.trans (h : Recorded library earlier next) (h' : Recorded next later after) :
    Recorded library (earlier ++ later) after := by
  refine ⟨h'.config.trans h.config, ?_, ?_⟩
  · rw [h'.failed, h.failed, List.filterMap_append, Table.putAll_append]
  · rw [h'.names, h.names, List.filterMap_append, List.append_assoc]

/-! ### Times that a folder is loaded -/

/-- An entry of the folder does to a library what belongs to its trial. -/
theorem Visit.Step.recorded {visit next : Visit} (h : Step archive path visit next) :
    Recorded visit.library (visit.trial? archive path).toList next.library := by
  cases h with
  | passed hother =>
    have htrial : visit.trial? archive path = none := by simp [trial?, hother]
    rw [htrial]
    exact .refl _
  | skipped hknown log =>
    have htrial : visit.trial? archive path = none := by simp [trial?, hknown]
    rw [htrial]
    exact .refl _
  | @failed fault hfile hnew log =>
    have htrial : visit.trial? archive path = some ⟨path, some fault⟩ := by simp [trial?, hnew, hfile]
    rw [htrial]
    exact ⟨rfl, rfl, (List.append_nil _).symm⟩
  | @loaded dialog hfile hnew log =>
    have htrial : visit.trial? archive path = some ⟨path, none⟩ := by simp [trial?, hnew, hfile]
    have hmem : path.stem ∉ visit.library.dialogs.names := by
      rw [← Table.contains_iff, hnew]
      exact Bool.false_ne_true
    rw [htrial]
    refine ⟨rfl, rfl, ?_⟩
    show (visit.library.dialogs.put _ _).names = _
    rw [Table.names_put, if_neg hmem]
    rfl

theorem Visit.recorded_entries (archive : Archive) (paths : List Path) (visit : Visit) :
    Recorded visit.library (Visit.trials archive paths visit) (entries archive paths visit).1.library := by
  induction paths generalizing visit with
  | nil => exact .refl _
  | cons path rest ih =>
    unfold Visit.trials entries
    cases hentry : visit.entry archive path with
    | error cause => exact .refl _
    | ok next => exact (step_cases hentry).recorded.trans (ih next)

/-- Loading all of a folder does to a library what belongs to its trials. -/
theorem recorded_loadAll (library : Library) (archive : Archive) (folder : Path) :
    Recorded library (library.trials archive folder) (library.loadAll archive folder).2.1 := by
  unfold trials loadAll
  cases archive.entry folder with
  | error fault => cases fault <;> exact .refl _
  | ok found =>
    cases found with
    | file content => exact .refl _
    | folder =>
      have hrecorded := Visit.recorded_entries archive (paths archive folder) ⟨library, 0, []⟩
      unfold paths at hrecorded ⊢
      dsimp only
      split
      · rename_i hentries
        rwa [hentries] at hrecorded
      · rename_i hentries
        rwa [hentries] at hrecorded

theorem recorded_reloaded (folder : Path) (archives : List Archive) (library : Library) :
    Recorded library (history folder archives library) (reloaded folder archives library) := by
  induction archives generalizing library with
  | nil => exact .refl _
  | cons archive rest ih => exact (recorded_loadAll library archive folder).trans (ih _)

theorem history_append (folder : Path) (a b : List Archive) (library : Library) :
    history folder (a ++ b) library = history folder a library ++ history folder b (reloaded folder a library) := by
  induction a generalizing library with
  | nil => rfl
  | cons archive rest ih => rw [List.cons_append, history, ih, history, List.append_assoc, reloaded]

/-- What is logged last is how many dialogs the library got, and how many notes it has. -/
theorem log_loadAll {count : Nat} (hfolder : archive.entry folder = .ok .folder)
    (hcount : (library.loadAll archive folder).1 = .ok count) :
    ∃ log, (library.loadAll archive folder).2.2 = log ++
      [⟨.info, s!"Loaded {count} dialogs, {(library.loadAll archive folder).2.1.failed.size} failed."⟩] := by
  unfold loadAll at hcount ⊢
  rw [hfolder] at hcount ⊢
  dsimp only at hcount ⊢
  split at hcount
  · cases hcount
  · cases hcount
    exact ⟨_, rfl⟩

/-! ### The record of a new library -/

variable {config : Config} {archives : List Archive}

/-- A new library has the dialogs of the files that were loaded. -/
theorem contains_reloaded : (reloaded folder archives (empty config)).dialogs.contains id = true ↔
    ∃ trial ∈ history folder archives (empty config), trial.fault? = none ∧ trial.path.stem = id := by
  rw [Table.contains_iff, (recorded_reloaded folder archives _).names]
  exact mem_loaded

/-- A new library has a note about every stem of a file that failed. -/
theorem failed_reloaded : (reloaded folder archives (empty config)).failed.contains id = true ↔
    ∃ trial ∈ history folder archives (empty config), trial.fault?.isSome = true ∧ trial.path.stem = id := by
  rw [Table.contains_iff, (recorded_reloaded folder archives _).failed]
  exact Table.mem_names_ofList.trans mem_notes

/-- **The record of failures is that of all files that ever failed.** Whatever is in the folder each time that it is
loaded into a new library, the notes are those of all files that were tried and failed, a later one for the same stem in
the place of an earlier one, and the dialogs are those of all files that were loaded. So the record is faithful exactly
if no stem has both a file that failed and one that was loaded, at any time, and no two files that failed the first time
have the same stem. The log tells how many notes there are. -/
theorem faithful_iff (config : Config) (folder : Path) (archives : List Archive) :
    (reloaded folder archives (empty config)).failed =
      Table.ofList ((history folder archives (empty config)).filterMap Trial.note?) ∧
    (reloaded folder archives (empty config)).dialogs.names =
      (history folder archives (empty config)).filterMap Trial.loaded? ∧
    (∀ (library : Library) (archive : Archive) (count : Nat), archive.entry folder = .ok .folder →
      (library.loadAll archive folder).1 = .ok count → ∃ log, (library.loadAll archive folder).2.2 = log ++
        [⟨.info, s!"Loaded {count} dialogs, {(library.loadAll archive folder).2.1.failed.size} failed."⟩]) ∧
    (Faithful config folder archives ↔
      (¬∃ failing ∈ history folder archives (empty config), ∃ other ∈ history folder archives (empty config),
        failing.fault?.isSome = true ∧ other.fault? = none ∧ failing.path.stem = other.path.stem) ∧
      ∀ archive ∈ archives.head?,
        ((((empty config).trials archive folder).filterMap Trial.note?).map Prod.fst).Nodup) := by
  have hcounted : ∀ archive, ((empty config).loadAll archive folder).2.1.failed.size =
      (((empty config).trials archive folder).filterMap Trial.note?).length ↔
        ((((empty config).trials archive folder).filterMap Trial.note?).map Prod.fst).Nodup := by
    intro archive
    rw [(recorded_loadAll (empty config) archive folder).failed]
    exact Table.size_ofList_eq_iff
  refine ⟨(recorded_reloaded folder archives _).failed, (recorded_reloaded folder archives _).names, ?_, ?_, ?_⟩
  · intro library archive count hfolder hcount
    exact log_loadAll hfolder hcount
  · intro hfaithful
    refine ⟨?_, fun archive harchive => (hcounted archive).mp (hfaithful.counted archive harchive)⟩
    rintro ⟨failing, hfailing, other, hother, hfault, hnone, hstem⟩
    refine hfaithful.apart archives List.prefix_rfl failing.path.stem ⟨?_, ?_⟩
    · exact contains_reloaded.mpr ⟨other, hother, hnone, hstem.symm⟩
    · exact failed_reloaded.mpr ⟨failing, hfailing, hfault, rfl⟩
  · rintro ⟨hapart, hnodup⟩
    refine ⟨?_, fun archive harchive => (hcounted archive).mpr (hnodup archive harchive)⟩
    rintro times ⟨rest, rfl⟩ id ⟨hdialog, hfailed⟩
    obtain ⟨other, hother, hnone, hstem⟩ := contains_reloaded.mp hdialog
    obtain ⟨failing, hfailing, hfault, hsame⟩ := failed_reloaded.mp hfailed
    rw [history_append] at hapart
    exact hapart ⟨failing, List.mem_append_left _ hfailing, other, List.mem_append_left _ hother, hfault, hnone,
      hsame.trans hstem.symm⟩

/-- Where entries have different stems, so do trials. -/
theorem trials_distinct (library : Library) (h : ((paths archive folder).map Path.stem).Nodup) :
    ((library.trials archive folder).map fun trial => trial.path.stem).Nodup := by
  rw [← Function.comp_def, ← List.map_map]
  exact h.sublist ((sublist_trials library archive folder).map Path.stem)

/-- A script that is read, and one that is broken. -/
def pier : Archive where
  root := "/"
  entries := [(["a.yarn"], .file "title: A\n---\n<<jump A>>\n===\n".toUTF8), (["b.yarn"], .file "Waves".toUTF8)]

/-- The record is faithful where the files have different stems. -/
theorem faithful_pier : Faithful {} [] [pier] := by
  have hlist : pier.list [] = ["a.yarn", "b.yarn"] := by cbv
  have hstems : (paths pier []).map Path.stem = ["a", "b"] := by
    rw [paths, hlist]
    cbv
  have hdistinct := trials_distinct (empty {}) (hstems ▸ (by decide : ["a", "b"].Nodup))
  have hhistory : history [] [pier] (empty {}) = (empty {}).trials pier [] := List.append_nil _
  refine (faithful_iff {} [] [pier]).2.2.2.mpr ⟨?_, ?_⟩
  · rw [hhistory]
    rintro ⟨failing, hfailing, other, hother, hfault, hnone, hstem⟩
    rw [List.inj_on_of_nodup_map hdistinct hfailing hother hstem, hnone] at hfault
    cases hfault
  · intro archive harchive
    cases harchive
    exact hdistinct.sublist (sublist_notes _)

/-! ### A script that is repaired -/

theorem loader?_script {text : String} (hsuffix : path.suffix = config.scriptExtension)
    (hscript : archive.script path = .ok text) :
    loader? config archive path = some ((Dialog.ofScript path.stem text).mapError .load) := by
  rw [loader?, if_pos hsuffix, Archive.loadScript, hscript]
  rfl

/-- In a folder with one file, that file is attempted. -/
theorem under_single {name : String} {loaded : Except FileFault Dialog} (library : Library)
    (hfolder : archive.entry folder = .ok .folder) (hreadable : archive.Readable folder)
    (hlist : archive.list folder = [name])
    (hfile : loader? library.config archive (folder ++ [name]) = some loaded) :
    (library.loadAll archive folder).2.1.under (Path.stem (folder ++ [name])) =
      attempt (Path.stem (folder ++ [name])) (library.under (Path.stem (folder ++ [name]))) loaded := by
  obtain ⟨count, after, log, hload, -, hunder⟩ := under_loadAll library hfolder hreadable
  rw [hload]
  show after.under _ = _
  rw [hunder, paths, hlist, List.map_singleton, attempts_singleton, if_pos rfl, hfile]
  rfl

/-- A folder with a script that is broken. -/
def sunk : Archive where
  root := "/"
  entries := [(["a.yarn"], .file "Waves".toUTF8)]

/-- The same folder after the script has been repaired. -/
def raised : Archive := sunk.put ["a.yarn"] (.file "title: A\n---\n<<jump A>>\n===\n".toUTF8)

theorem list_sunk : sunk.list [] = ["a.yarn"] := by cbv

theorem list_raised : raised.list [] = ["a.yarn"] := by cbv

theorem readable_sunk : sunk.Readable [] := by
  refine readable_of_scripts ?_
  rw [list_sunk]
  exact List.forall_mem_singleton.mpr ⟨"Waves", by cbv, rfl⟩

theorem readable_raised : raised.Readable [] := by
  refine readable_of_scripts ?_
  rw [list_raised]
  exact List.forall_mem_singleton.mpr ⟨"title: A\n---\n<<jump A>>\n===\n", by cbv, rfl⟩

/-- A script that failed and was then repaired has both a dialog and a note that it failed. -/
theorem not_faithful_after_repair :
    (reloaded [] [sunk, raised] (empty {})).dialogs.contains "a" = true ∧
    (reloaded [] [sunk, raised] (empty {})).failed.contains "a" = true ∧
    ¬Faithful {} [] [sunk, raised] := by
  have hstem : Path.stem ["a.yarn"] = "a" := by cbv
  have hsuffix : Path.suffix ["a.yarn"] = ({} : Config).scriptExtension := by cbv
  obtain ⟨fault, hsunk⟩ : ∃ fault, loader? {} sunk ["a.yarn"] = some (.error (.load fault)) := by
    have hscript : sunk.script ["a.yarn"] = .ok "Waves" := by cbv
    rw [loader?_script hsuffix hscript, hstem]
    exact ⟨_, rfl⟩
  obtain ⟨dialog, hraised⟩ : ∃ dialog, loader? {} raised ["a.yarn"] = some (.ok dialog) := by
    have hscript : raised.script ["a.yarn"] = .ok "title: A\n---\n<<jump A>>\n===\n" := by cbv
    rw [loader?_script hsuffix hscript, hstem]
    exact ⟨_, rfl⟩
  have hfirst := under_single (empty {}) (by cbv) readable_sunk list_sunk hsunk
  have hconfig := (recorded_loadAll (empty {}) sunk []).config
  have hsecond := under_single ((empty {}).loadAll sunk []).2.1 (by cbv) readable_raised list_raised
    (by rw [hconfig]; exact hraised)
  rw [List.nil_append, hstem] at hfirst hsecond
  rw [hfirst] at hsecond
  have hdialog : (reloaded [] [sunk, raised] (empty {})).dialogs.contains "a" = true := by
    rw [← Table.isSome_get?]
    exact Option.isSome_iff_exists.mpr ⟨_, congrArg Prod.fst hsecond⟩
  have hfailed : (reloaded [] [sunk, raised] (empty {})).failed.contains "a" = true := by
    rw [← Table.isSome_get?]
    exact Option.isSome_iff_exists.mpr ⟨_, congrArg Prod.snd hsecond⟩
  exact ⟨hdialog, hfailed, fun hfaithful => hfaithful.apart _ List.prefix_rfl "a" ⟨hdialog, hfailed⟩⟩

end Parley.Library
