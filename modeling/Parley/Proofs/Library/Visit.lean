import Parley.Library.Basic

/-! A visit to the files of a folder, name by name.

What an entry can do to a visit is said once (`Visit.Step`). It changes what the library has under its own stem and
under no other (`Visit.Step.under`), so that a visit leaves under a name what the files of that name make of it, one
after the other (`under_entries`), and counts the names that are new (`grown_entries`). -/
namespace Parley.Library

/-- What a library has under a name: the dialog, and why a file of that name was not loaded. -/
def under (library : Library) (id : String) : Option Dialog × Option String :=
  (library.dialogs.get? id, library.failed.get? id)

/-- What there is under a name after another file of that name: a dialog that is there stays. -/
def attempt (id : String) (found : Option Dialog × Option String) (loaded : Except FileFault Dialog) :
    Option Dialog × Option String :=
  match found.1, loaded with
  | none, .ok dialog => (some (dialog.withId id), found.2)
  | none, .error (.load fault) => (none, some fault.message)
  | _, _ => found

/-- What the files of a name are when they are loaded, in order. -/
def attempts (config : Config) (archive : Archive) (id : String) (paths : List Path) : List (Except FileFault Dialog) :=
  (paths.filter fun path => path.stem = id).filterMap (loader? config archive)

theorem attempts_singleton (config : Config) (archive : Archive) (id : String) (path : Path) :
    attempts config archive id [path] = if path.stem = id then (loader? config archive path).toList else [] := by
  by_cases hstem : path.stem = id
  · rw [attempts, List.filter_cons_of_pos (by simpa using hstem), if_pos hstem]
    cases hloader : loader? config archive path <;> simp [hloader]
  · rw [attempts, List.filter_cons_of_neg (by simpa using hstem), if_neg hstem]
    rfl

theorem attempts_cons (config : Config) (archive : Archive) (id : String) (path : Path) (rest : List Path) :
    attempts config archive id (path :: rest) =
      attempts config archive id [path] ++ attempts config archive id rest := by
  rw [attempts, attempts, attempts, ← List.filterMap_append, ← List.filter_append]
  rfl

namespace Visit

variable {archive : Archive} {path : Path} {paths : List Path} {visit next last : Visit}

/-! ### One entry -/

/-- What an entry of the folder does to a visit that goes on after it. -/
inductive Step (archive : Archive) (path : Path) (visit : Visit) : Visit → Prop where
  /-- It is no file of a dialog. -/
  | passed (other : loader? visit.library.config archive path = none) : Step archive path visit visit
  /-- Its dialog is there already. -/
  | skipped (known : visit.library.dialogs.contains path.stem = true) (log : List LogEntry) :
      Step archive path visit { visit with log := log }
  /-- It is not loaded. -/
  | failed {fault : LoadFault} (file : loader? visit.library.config archive path = some (.error (.load fault)))
      (new : visit.library.dialogs.contains path.stem = false) (log : List LogEntry) :
      Step archive path visit { visit with
        library := { visit.library with failed := visit.library.failed.put path.stem fault.message }
        log := log }
  /-- It is loaded. -/
  | loaded {dialog : Dialog} (file : loader? visit.library.config archive path = some (.ok dialog))
      (new : visit.library.dialogs.contains path.stem = false) (log : List LogEntry) :
      Step archive path visit { visit with
        library := { visit.library with
          dialogs := visit.library.dialogs.put path.stem (dialog.withId path.stem) }
        count := visit.count + 1
        log := log }

/-- An entry does nothing else. -/
theorem step_cases (h : visit.entry archive path = .ok next) : Step archive path visit next := by
  unfold entry at h
  split at h
  · rename_i hother
    cases h
    exact .passed hother
  · rename_i loaded hfile
    split at h
    · rename_i hknown
      cases h
      exact .skipped hknown _
    · rename_i hnew
      have hnew : visit.library.dialogs.contains path.stem = false := Bool.eq_false_iff.mpr hnew
      cases loaded with
      | ok dialog =>
        cases h
        exact .loaded hfile hnew _
      | error fault =>
        cases fault with
        | load fault =>
          cases h
          exact .failed hfile hnew _
        | breakdown cause => cases h

theorem config_of_step (h : Step archive path visit next) : next.library.config = visit.library.config := by
  cases h <;> rfl

/-- What there is under other names than its stem, an entry leaves as it is. -/
theorem Step.under_other (h : Step archive path visit next) {id : String} (hstem : path.stem ≠ id) :
    next.library.under id = visit.library.under id := by
  cases h with
  | passed | skipped => rfl
  | failed => simp [Library.under, Table.get?_put_of_ne _ _ hstem.symm]
  | loaded => simp [Library.under, Table.get?_put_of_ne _ _ hstem.symm]

/-- Under its stem there is then what the file makes of it, if the entry is a file of a dialog. -/
theorem Step.under_own (h : Step archive path visit next) :
    next.library.under path.stem =
      (loader? visit.library.config archive path).toList.foldl (attempt path.stem) (visit.library.under path.stem) := by
  have hnone : visit.library.dialogs.contains path.stem = false → visit.library.dialogs.get? path.stem = none :=
    fun hnew => by rwa [← Table.isSome_get?, Option.isSome_eq_false_iff, Option.isNone_iff_eq_none] at hnew
  cases h with
  | passed hother =>
    rw [hother]
    rfl
  | skipped hknown log =>
    rw [← Table.isSome_get?] at hknown
    obtain ⟨dialog, hdialog⟩ := Option.isSome_iff_exists.mp hknown
    cases loader? visit.library.config archive path with
    | none => rfl
    | some loaded => simp [Library.under, attempt, hdialog]
  | failed hfile hnew log => simp [Library.under, attempt, hfile, hnone hnew, Table.get?_put]
  | loaded hfile hnew log => simp [Library.under, attempt, hfile, hnone hnew, Table.get?_put]

/-- An entry changes what there is under its stem, and under no other. -/
theorem Step.under (h : Step archive path visit next) (id : String) :
    next.library.under id =
      (attempts visit.library.config archive id [path]).foldl (attempt id) (visit.library.under id) := by
  rw [attempts_singleton]
  by_cases hstem : path.stem = id
  · subst hstem
    rw [if_pos rfl]
    exact h.under_own
  · rw [if_neg hstem]
    exact h.under_other hstem

/-- A visit has got as many dialogs more as it has counted, under new names. -/
def Grown (visit next : Visit) : Prop :=
  ∃ added, next.library.dialogs.names = visit.library.dialogs.names ++ added ∧ next.count = visit.count + added.length

theorem Grown.refl (visit : Visit) : Grown visit visit := ⟨[], (List.append_nil _).symm, rfl⟩

theorem Grown.trans (h : Grown visit next) (h' : Grown next last) : Grown visit last := by
  obtain ⟨added, hnames, hcount⟩ := h
  obtain ⟨more, hnames', hcount'⟩ := h'
  refine ⟨added ++ more, ?_, ?_⟩
  · rw [hnames', hnames, List.append_assoc]
  · rw [hcount', hcount, List.length_append, Nat.add_assoc]

theorem Step.grown (h : Step archive path visit next) : Grown visit next := by
  cases h with
  | passed | skipped | failed => exact ⟨[], (List.append_nil _).symm, rfl⟩
  | @loaded dialog hfile hnew log =>
    refine ⟨[path.stem], ?_, rfl⟩
    have hmem : path.stem ∉ visit.library.dialogs.names := by
      rw [← Table.contains_iff, hnew]
      exact Bool.false_ne_true
    show (visit.library.dialogs.put _ _).names = _
    rw [Table.names_put, if_neg hmem]

/-! ### All entries -/

/-- Nothing that is loaded breaks down. -/
def Steady (config : Config) (archive : Archive) (paths : List Path) : Prop :=
  ∀ path ∈ paths, ∀ cause, loader? config archive path ≠ some (.error (.breakdown cause))

/-- A visit goes on after every entry that does not break down. -/
theorem exists_entry (h : ∀ cause, loader? visit.library.config archive path ≠ some (.error (.breakdown cause))) :
    ∃ next, visit.entry archive path = .ok next := by
  unfold entry
  split
  · exact ⟨_, rfl⟩
  · rename_i loaded hloaded
    split
    · exact ⟨_, rfl⟩
    · cases loaded with
      | ok dialog => exact ⟨_, rfl⟩
      | error fault =>
        cases fault with
        | load fault => exact ⟨_, rfl⟩
        | breakdown cause => exact absurd hloaded (h cause)

/-- A visit goes on to the end: under each name is what the files of that name make of it, and the names that are new
have been counted. -/
theorem entries_of_steady (h : Steady visit.library.config archive paths) :
    ∃ last, entries archive paths visit = (last, none) ∧ Grown visit last ∧
      ∀ id, last.library.under id =
        (attempts visit.library.config archive id paths).foldl (attempt id) (visit.library.under id) := by
  induction paths generalizing visit with
  | nil => exact ⟨visit, rfl, .refl visit, fun id => rfl⟩
  | cons path rest ih =>
    obtain ⟨hpath, hrest⟩ := List.forall_mem_cons.mp h
    obtain ⟨next, hnext⟩ := exists_entry hpath
    have hstep := step_cases hnext
    obtain ⟨last, hlast, hgrown, hunder⟩ := @ih next (by rwa [config_of_step hstep])
    refine ⟨last, ?_, hstep.grown.trans hgrown, fun id => ?_⟩
    · rw [entries, hnext]
      exact hlast
    · rw [hunder, attempts_cons, List.foldl_append, hstep.under, config_of_step hstep]

end Visit

end Parley.Library
