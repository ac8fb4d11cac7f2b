import InjectionPlan.Command.Files
import InjectionPlan.Command.Run

namespace InjectionPlan
namespace Command

/-!
# What a failed run leaves of the files

A run creates its output after it has loaded the settings and before it reads the plan.  So if the
settings cannot be loaded, all files are left as they are, and if the plan cannot be loaded, all but
the output.  The output is empty then, whatever it was before (`Arguments.runOn_of_unloaded`): what
had been in it is lost, or there is a file where there was none.  This holds also if the output is
the file of the plan itself, which is then found empty.
-/

theorem bind_eq_ok {computation : Except Fault α} {next : α -> Except Fault β} {result : β}
    (succeeds : computation >>= next = .ok result) :
    exists value, computation = .ok value ∧ next value = .ok result := by
  cases computation with
  | error fault => cases succeeds
  | ok value => exact ⟨value, rfl, succeeds⟩

/-! ## Files around one that is emptied -/

namespace Files

@[simp] theorem item?_put (files : Files) (location other : Location) (content : ByteArray) :
    (files.put location content).item? other =
      if other = [] then some .folder
      else if location = other then some (.file content)
      else files.item? other := by
  unfold item?
  split
  · rfl
  · exact Table.get?_set _ _ _ _

variable {files : Files} {location : Location}

/-- A file that is put somewhere opens no new ways. -/
theorem checkFolder_of_put {content : ByteArray} {folder : Location}
    (isFolder : (files.put location content).checkFolder folder = .ok ()) :
    files.checkFolder folder = .ok () := by
  unfold checkFolder at isFolder ⊢
  rw [item?_put] at isFolder
  by_cases outermost : folder = []
  · rw [outermost]
    rfl
  · rw [if_neg outermost] at isFolder
    by_cases same : location = folder
    · rw [if_pos same] at isFolder
      cases isFolder
    · rwa [if_neg same] at isFolder

theorem walk_of_put {content : ByteArray} {names : List String} {start last : Location}
    (leads : (files.put location content).walk start names = .ok last) :
    files.walk start names = .ok last := by
  induction names generalizing start with
  | nil => exact leads
  | cons name rest ih =>
      rcases bind_eq_ok leads with ⟨_, isFolder, leads⟩
      rcases bind_eq_ok leads with ⟨next, steps, leads⟩
      rw [walk, checkFolder_of_put isFolder, steps]
      exact ih leads

theorem read_eq_ok_iff (files : Files) (text : String) (content : ByteArray) :
    files.read text = .ok content <->
      exists path place, Path.ofText text = .ok path ∧
        files.walk (files.origin path) path.steps = .ok place ∧ path.slash = false ∧
        files.item? place = some (.file content) := by
  constructor
  · intro reads
    rcases bind_eq_ok reads with ⟨path, isPath, reads⟩
    rcases bind_eq_ok reads with ⟨place, leads, reads⟩
    refine ⟨path, place, isPath, leads, ?_⟩
    split at reads
    · cases reads
    · cases reads
    · next isFile =>
      split at reads
      · cases reads
      · next noSlash =>
        cases reads
        exact ⟨Bool.not_eq_true _ ▸ noSlash, isFile⟩
  · rintro ⟨path, place, isPath, leads, noSlash, isFile⟩
    rw [read, isPath]
    change (files.walk (files.origin path) path.steps).bind _ = _
    rw [leads, Except.bind, isFile, noSlash]
    rfl

/-- From files of which one has been emptied, either nothing is read or what was there before. -/
theorem read_of_put {text : String} {bytes : ByteArray}
    (reads : (files.put location .empty).read text = .ok bytes) :
    bytes = .empty ∨ files.read text = .ok bytes := by
  rcases (read_eq_ok_iff _ _ _).mp reads with ⟨path, place, isPath, leads, noSlash, isFile⟩
  rw [item?_put] at isFile
  split at isFile
  · cases isFile
  · split at isFile
    · cases isFile
      exact Or.inl rfl
    · exact Or.inr ((read_eq_ok_iff _ _ _).mpr
        ⟨path, place, isPath, walk_of_put leads, noSlash, isFile⟩)

/-- A file is never created in the place of the outermost folder. -/
theorem ne_nil_of_locationFor {text : String} (creates : files.locationFor text = .ok location) :
    location ≠ [] := by
  rcases bind_eq_ok creates with ⟨path, _, creates⟩
  split at creates
  · cases creates
  · next name _ =>
    rcases bind_eq_ok creates with ⟨folder, _, creates⟩
    rcases bind_eq_ok creates with ⟨_, _, creates⟩
    split at creates
    · cases creates
    · next regular =>
      rcases bind_eq_ok creates with ⟨place, steps, creates⟩
      have isPlace : place = location := by
        split at creates <;> cases creates
        rfl
      unfold step at steps
      split at steps
      · next same => simp [same] at regular
      · split at steps
        · next same => simp [same] at regular
        · split at steps <;> cases steps
          rw [← isPlace]
          exact List.concat_ne_nil _ _

theorem create_run (files : Files) (path : String) :
    (storage.create path).run files =
      match files.locationFor path with
      | .error cause => (.error cause, files)
      | .ok location => (.ok location, files.put location .empty) := by
  cases creates : files.locationFor path <;> simp [storage, creates] <;> rfl

end Files

/-! ## Runs -/

namespace Arguments

/-- The settings that the arguments ask for, from the files as they are. -/
def settingsOn (arguments : Arguments) (files : Files) : Except Failure Dot.Settings :=
  match arguments.settings with
  | none => .ok (arguments.adjust .default)
  | some path => arguments.settingsFrom path (files.read path)

/-- A run on files, with the files that it leaves. -/
def runOn (arguments : Arguments) (files : Files) : Report × Files :=
  (arguments.run Files.storage).run files

/-- The place where a run creates its output. -/
def outputOn (arguments : Arguments) (files : Files) : Option Location :=
  match arguments.settingsOn files, arguments.output with
  | .ok _, some path => (files.locationFor path).toOption
  | _, _ => none

end Arguments

/-- A failure to load the settings or the plan. -/
def Failure.isLoading : Failure -> Bool
  | settings _ _ => true
  | plan _ _ => true
  | _ => false

namespace Arguments

theorem loadSettings_run (arguments : Arguments) (files : Files) :
    (arguments.loadSettings Files.storage).run files = (arguments.settingsOn files, files) := by
  unfold loadSettings settingsOn
  cases arguments.settings with
  | none => rfl
  | some path => rfl

theorem runOn_of_settings {arguments : Arguments} {files : Files} {failure : Failure}
    (failed : arguments.settingsOn files = .error failure) :
    arguments.runOn files = (⟨.error failure, .empty, []⟩, files) := by
  have loads := arguments.loadSettings_run files
  rw [failed] at loads
  unfold runOn run
  rw [StateT.run_bind, loads]
  rfl

theorem runOn_of_loaded {arguments : Arguments} {files : Files} {settings : Dot.Settings}
    (loaded : arguments.settingsOn files = .ok settings) :
    arguments.runOn files = (arguments.print Files.storage settings).run files := by
  have loads := arguments.loadSettings_run files
  rw [loaded] at loads
  unfold runOn run
  rw [StateT.run_bind, loads]
  rfl

theorem print_run (arguments : Arguments) (files : Files) (settings : Dot.Settings) :
    (arguments.print Files.storage settings).run files =
      match arguments.output with
      | none =>
        let printout := Printout.ofBytes arguments.plan settings (files.read arguments.plan)
        (arguments.report printout printout.bytes, files)
      | some path =>
        match files.locationFor path with
        | .error cause => (⟨.error (.output path cause), .empty, arguments.settingsLog⟩, files)
        | .ok location =>
          let emptied := files.put location .empty
          let printout := Printout.ofBytes arguments.plan settings (emptied.read arguments.plan)
          (arguments.report printout .empty,
            emptied.put location (emptied.contentAt location ++ printout.bytes)) := by
  unfold print
  cases arguments.output with
  | none => rfl
  | some path =>
      dsimp only
      rw [StateT.run_bind, Files.create_run]
      cases files.locationFor path <;> rfl

end Arguments

/-! ## Failures to load -/

/-- There is no plan in a file that has been emptied. -/
theorem planIn_of_put {files : Files} {path : String} {cause : LoadError}
    (fails : planIn path (files.read path) = .error cause) (location : Location) :
    exists cause, planIn path ((files.put location .empty).read path) = .error cause := by
  cases reads : (files.put location .empty).read path with
  | error fault => exact ⟨.unreadable path fault, rfl⟩
  | ok bytes =>
      rcases Files.read_of_put reads with rfl | same
      · exact ⟨_, rfl⟩
      · exact ⟨cause, same ▸ fails⟩

namespace Printout

variable {path : String} {settings : Dot.Settings} {bytes : Except FileError ByteArray}

theorem ofBytes_of_error {cause : LoadError} (fails : planIn path bytes = .error cause) :
    ofBytes path settings bytes = ⟨.error (.plan path cause), .empty, []⟩ := by
  rw [ofBytes, fails]

/-- Once a plan has been loaded, what fails is not its loading. -/
theorem planIn_of_isLoading {failure : Failure}
    (failed : (ofBytes path settings bytes).outcome = .error failure)
    (loading : failure.isLoading = true) : exists cause, planIn path bytes = .error cause := by
  unfold ofBytes at failed
  cases loaded : planIn path bytes with
  | error cause => exact ⟨cause, rfl⟩
  | ok result =>
      rw [loaded] at failed
      dsimp only at failed
      cases rendered : (result.2.render settings none).outcome with
      | error error =>
          rw [rendered] at failed
          cases failed
          cases loading
      | ok summary =>
          rw [rendered] at failed
          cases failed

end Printout

namespace Arguments

/-- A run has not loaded what it needs: it cannot be loaded from the files as they are, or the run
fails to load it. -/
def Unloaded (arguments : Arguments) (files : Files) : Prop :=
  (exists failure, arguments.settingsOn files = .error failure) ∨
    (exists cause, planIn arguments.plan (files.read arguments.plan) = .error cause) ∨
    exists failure, (arguments.runOn files).1.outcome = .error failure ∧ failure.isLoading = true

/-- What comes of a run that has not loaded what it needs: an error, nothing on the standard output,
and an empty output file if one was created. -/
structure Fails (arguments : Arguments) (files : Files) : Prop where
  outcome : exists failure, (arguments.runOn files).1.outcome = .error failure
  standardOutput : (arguments.runOn files).1.standardOutput = .empty
  items : forall location, (arguments.runOn files).2.item? location =
    if arguments.outputOn files = some location then some (.file .empty) else files.item? location

theorem fails_of_settings {arguments : Arguments} {files : Files} {failure : Failure}
    (failed : arguments.settingsOn files = .error failure) : arguments.Fails files := by
  have nowhere : arguments.outputOn files = none := by rw [outputOn, failed]
  exact {
    outcome := ⟨failure, by rw [runOn_of_settings failed]⟩
    standardOutput := by rw [runOn_of_settings failed]
    items := fun location => by rw [runOn_of_settings failed, nowhere, if_neg nofun] }

section

variable {arguments : Arguments} {files : Files} {settings : Dot.Settings}
  (loaded : arguments.settingsOn files = .ok settings)

include loaded

theorem fails_of_no_output (nowhere : arguments.output = none)
    (unloaded : arguments.Unloaded files) : arguments.Fails files := by
  have runs := (runOn_of_loaded loaded).trans (arguments.print_run files settings)
  rw [nowhere] at runs
  dsimp only at runs
  have noPlan : exists cause, planIn arguments.plan (files.read arguments.plan) = .error cause := by
    rcases unloaded with ⟨failure, failed⟩ | fails | ⟨failure, failed, loading⟩
    · cases loaded.symm.trans failed
    · exact fails
    · rw [runs] at failed
      exact Printout.planIn_of_isLoading failed loading
  rcases noPlan with ⟨cause, fails⟩
  rw [Printout.ofBytes_of_error fails] at runs
  have uncreated : arguments.outputOn files = none := by rw [outputOn, loaded, nowhere]
  exact {
    outcome := ⟨.plan arguments.plan cause, by rw [runs]; rfl⟩
    standardOutput := by rw [runs]; rfl
    items := fun location => by rw [runs, uncreated, if_neg nofun] }

theorem fails_of_output {path : String} (named : arguments.output = some path)
    (unloaded : arguments.Unloaded files) : arguments.Fails files := by
  have runs := (runOn_of_loaded loaded).trans (arguments.print_run files settings)
  rw [named] at runs
  dsimp only at runs
  have output : arguments.outputOn files = (files.locationFor path).toOption := by
    rw [outputOn, loaded, named]
  cases creates : files.locationFor path with
  | error cause =>
      rw [creates] at runs output
      exact {
        outcome := ⟨.output path cause, by rw [runs]⟩
        standardOutput := by rw [runs]
        items := fun location => by rw [runs, output]; rfl }
  | ok location =>
      rw [creates] at runs output
      dsimp only [Except.toOption] at runs output
      have noPlan : exists cause, planIn arguments.plan
          ((files.put location .empty).read arguments.plan) = .error cause := by
        rcases unloaded with ⟨failure, failed⟩ | ⟨cause, fails⟩ | ⟨failure, failed, loading⟩
        · cases loaded.symm.trans failed
        · exact planIn_of_put fails location
        · rw [runs] at failed
          exact Printout.planIn_of_isLoading failed loading
      rcases noPlan with ⟨cause, fails⟩
      rw [Printout.ofBytes_of_error fails] at runs
      exact {
        outcome := ⟨.plan arguments.plan cause, by rw [runs]; rfl⟩
        standardOutput := by rw [runs]; rfl
        items := by
          intro other
          have inside := Files.ne_nil_of_locationFor creates
          have emptied : (files.put location .empty).contentAt location = .empty := by
            rw [Files.contentAt, Files.item?_put, if_neg inside, if_pos rfl]
          rw [runs, output, emptied, ByteArray.append_empty, Files.item?_put, Files.item?_put]
          by_cases same : location = other
          · rw [if_neg (same ▸ inside), if_pos same, if_pos (congrArg some same)]
          · rw [if_neg same, if_neg same, if_neg fun created => same (Option.some.inj created)]
            split
            · next outermost => rw [outermost, Files.item?, if_pos rfl]
            · rfl }

end

theorem fails_of_unloaded {arguments : Arguments} {files : Files}
    (unloaded : arguments.Unloaded files) : arguments.Fails files := by
  cases loaded : arguments.settingsOn files with
  | error failure => exact fails_of_settings loaded
  | ok settings =>
      cases named : arguments.output with
      | none => exact fails_of_no_output loaded named unloaded
      | some path => exact fails_of_output loaded named unloaded

/-- A run that has not loaded the settings or the plan fails.  It leaves all files as they are
exactly if it creates no output or one that had been an empty file before. -/
theorem runOn_of_unloaded (arguments : Arguments) (files : Files)
    (unloaded : arguments.Unloaded files) :
    arguments.Fails files ∧
      ((forall location, (arguments.runOn files).2.item? location = files.item? location) <->
        forall location, arguments.outputOn files = some location ->
          files.item? location = some (.file .empty)) := by
  have fails := fails_of_unloaded unloaded
  refine ⟨fails, ?_, ?_⟩
  · intro same location output
    rw [← same, fails.items, if_pos output]
  · intro empty location
    rw [fails.items]
    split
    · next output => exact (empty location output).symm
    · rfl

/-! ### An output that is lost -/

/-- The arguments `in -o out`. -/
def toOut : Arguments :=
  ⟨"in", some "out", none, none, none, false⟩

end Arguments

/-- A folder with one file. -/
def Files.withOut (content : ByteArray) : Files :=
  ⟨.ofList [(["out"], .file content)], []⟩

theorem splitOn_name {name : String} (isName : name ∈ ["in", "out"]) :
    name.splitOn "/" = [name] := by
  simp only [List.mem_cons, List.not_mem_nil, or_false] at isName
  rcases isName with rfl | rfl
  all_goals
    unfold String.splitOn
    rw [if_neg (by decide)]
    repeat (rw [String.splitOnAux, if_neg (by decide), if_neg (by decide)])
    rw [String.splitOnAux, if_pos (by decide)]
    decide

/-- The two names are paths of one step. -/
theorem ofText_name {name : String} (isName : name ∈ ["in", "out"]) :
    Path.ofText name = .ok ⟨false, [name], false⟩ := by
  have whole := splitOn_name isName
  simp only [List.mem_cons, List.not_mem_nil, or_false] at isName
  rcases isName with rfl | rfl
  all_goals
    rw [Path.ofText, whole]
    rfl

theorem planIn_withOut (content : ByteArray) :
    planIn "in" ((Files.withOut content).read "in") =
      .error (.unreadable "in" .notFound) := by
  rw [Files.read, ofText_name (by decide)]
  rfl

theorem Arguments.outputOn_withOut (content : ByteArray) :
    toOut.outputOn (.withOut content) = some ["out"] := by
  rw [outputOn]
  change ((Files.withOut content).locationFor "out").toOption = _
  rw [Files.locationFor, ofText_name (by decide)]
  rfl

/-- There is no plan, but an output to be lost. -/
theorem Arguments.runOn_withOut :
    toOut.Fails (.withOut "old".toUTF8) ∧
      (toOut.runOn (.withOut "old".toUTF8)).2.item? ["out"] = some (.file .empty) :=
  have unloaded : toOut.Unloaded (.withOut "old".toUTF8) := .inr (.inl ⟨_, planIn_withOut _⟩)
  have fails := (runOn_of_unloaded toOut (.withOut "old".toUTF8) unloaded).1
  ⟨fails, (fails.items ["out"]).trans (if_pos (outputOn_withOut _))⟩

/-- So failures to load may destroy what was there. -/
theorem Arguments.not_kept :
    ¬ forall (arguments : Arguments) (files : Files),
      (exists failure, arguments.settingsOn files = .error failure) ∨
        (exists cause, planIn arguments.plan (files.read arguments.plan) = .error cause) ->
      (exists failure, (arguments.runOn files).1.outcome = .error failure) ∧
        forall location, (arguments.runOn files).2.item? location = files.item? location := by
  intro kept
  have noPlan := planIn_withOut "old".toUTF8
  have fails : toOut.Fails (.withOut "old".toUTF8) :=
    fails_of_unloaded (.inr (.inl ⟨_, noPlan⟩))
  have same := (kept toOut (.withOut "old".toUTF8) (.inr ⟨_, noPlan⟩)).2 ["out"]
  rw [fails.items, if_pos (outputOn_withOut _)] at same
  have lost : ByteArray.empty = "old".toUTF8 := Item.file.inj (Option.some.inj same)
  exact absurd (congrArg ByteArray.size lost) (by decide)

end Command
end InjectionPlan
