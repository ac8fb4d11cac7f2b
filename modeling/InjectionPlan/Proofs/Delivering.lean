import InjectionPlan.Proofs.Overwriting
import InjectionPlan.Proofs.Rendering

namespace InjectionPlan

/-!
# What a successful run delivers

A run writes what it has printed to a file or to the standard output.  Where it goes makes no
difference to what it is: the settings are loaded before the output is created, and a plan that has
been loaded was not in the output, since there is no plan in an empty file.  So a run that succeeds
with an output would have printed the same without one, and the output holds all of it
(`Arguments.runOn_delivers`).  The output is found where it was created, under the same path.
-/

/-- What is assigned to a key last is what counts. -/
theorem Table.assign_assign [DecidableEq Key] (key : Key) (first second : Value)
    (entries : List (Key × Value)) :
    assign key second (assign key first entries) = assign key second entries := by
  induction entries with
  | nil => simp [assign]
  | cons entry rest ih =>
      rcases entry with ⟨other, old⟩
      by_cases same : other = key
      · simp [assign, same]
      · simp [assign, same, ih]

namespace Command

/-! ## A file that has just been put somewhere -/

namespace Files

variable {files : Files} {location : Location}

/-- What is put last at a location is what stands there. -/
theorem put_put (files : Files) (location : Location) (first second : ByteArray) :
    (files.put location first).put location second = files.put location second := by
  have same : (files.items.set location (.file first)).set location (.file second) =
      files.items.set location (.file second) :=
    Table.ext_entries (Table.assign_assign location _ _ files.items.entries)
  rw [put, put, same]
  rfl

theorem contentAt_put (inside : location ≠ []) (content : ByteArray) :
    (files.put location content).contentAt location = content := by
  rw [contentAt, item?_put, if_neg inside, if_pos rfl]

theorem checkFolder_eq_ok_iff (files : Files) (folder : Location) :
    files.checkFolder folder = .ok () <-> files.item? folder = some .folder := by
  unfold checkFolder
  split <;> simp [*]

/-- A file that takes no folder's place closes no way. -/
theorem checkFolder_put (noFolder : files.item? location ≠ some .folder) {content : ByteArray}
    {folder : Location} (isFolder : files.checkFolder folder = .ok ()) :
    (files.put location content).checkFolder folder = .ok () := by
  rw [checkFolder_eq_ok_iff] at isFolder ⊢
  rw [item?_put]
  split
  · rfl
  · have different : location ≠ folder := fun same => noFolder (same ▸ isFolder)
    rw [if_neg different, isFolder]

theorem walk_put (noFolder : files.item? location ≠ some .folder) {content : ByteArray}
    {names : List String} {start last : Location} (leads : files.walk start names = .ok last) :
    (files.put location content).walk start names = .ok last := by
  induction names generalizing start with
  | nil => exact leads
  | cons name rest ih =>
      rcases bind_eq_ok leads with ⟨_, isFolder, leads⟩
      rcases bind_eq_ok leads with ⟨next, steps, leads⟩
      rw [walk, checkFolder_put noFolder isFolder, steps]
      exact ih leads

/-- The way to the last name goes through the folder before it. -/
theorem walk_concat {names : List String} {name : String} {start folder last : Location}
    (leads : files.walk start names = .ok folder) (isFolder : files.checkFolder folder = .ok ())
    (steps : step folder name = .ok last) : files.walk start (names ++ [name]) = .ok last := by
  induction names generalizing start with
  | nil =>
      cases leads
      rw [List.nil_append, walk, isFolder, steps]
      rfl
  | cons first rest ih =>
      rcases bind_eq_ok leads with ⟨_, isFirst, leads⟩
      rcases bind_eq_ok leads with ⟨next, goes, leads⟩
      rw [List.cons_append, walk, isFirst, goes]
      exact ih leads

/-- A path at which a file can be created leads to the place of that file. -/
theorem path_of_locationFor {text : String} (creates : files.locationFor text = .ok location) :
    files.item? location ≠ some .folder ∧
      exists path, Path.ofText text = .ok path ∧ path.slash = false ∧
        files.walk (files.origin path) path.steps = .ok location := by
  rcases bind_eq_ok creates with ⟨path, isPath, creates⟩
  split at creates
  · cases creates
  · next name isLast =>
    rcases bind_eq_ok creates with ⟨folder, leads, creates⟩
    rcases bind_eq_ok creates with ⟨_, isFolder, creates⟩
    split at creates
    · cases creates
    · next regular =>
      rcases bind_eq_ok creates with ⟨place, steps, creates⟩
      split at creates
      · cases creates
      · next noFolder =>
        cases creates
        refine ⟨noFolder, path, isPath, ?_, ?_⟩
        · exact Bool.eq_false_iff.mpr fun slash => regular (by rw [slash]; rfl)
        · rcases List.getLast?_eq_some_iff.mp isLast with ⟨names, split⟩
          rw [split, List.dropLast_concat] at leads
          rw [split]
          exact walk_concat leads isFolder steps

/-- What has been written to a file that was created at a path is read back under that path. -/
theorem read_put {text : String} (creates : files.locationFor text = .ok location)
    (content : ByteArray) : (files.put location content).read text = .ok content := by
  rcases path_of_locationFor creates with ⟨noFolder, path, isPath, noSlash, leads⟩
  refine (read_eq_ok_iff _ _ _).mpr ⟨path, location, isPath, ?_, noSlash, ?_⟩
  · exact walk_put noFolder leads
  · rw [item?_put, if_neg (ne_nil_of_locationFor creates), if_pos rfl]

end Files

/-- A plan that can be loaded after a file has been emptied was not in that file. -/
theorem read_of_planIn {files : Files} {location : Location} {path : String}
    {loaded : Document × Plan}
    (loads : planIn path ((files.put location .empty).read path) = .ok loaded) :
    files.read path = (files.put location .empty).read path := by
  cases reads : (files.put location .empty).read path with
  | error fault =>
      rw [reads] at loads
      cases loads
  | ok bytes =>
      rcases Files.read_of_put reads with rfl | same
      · rw [reads] at loads
        cases loads
      · exact same

/-- What has been printed of a plan is the whole text of its draft. -/
theorem Printout.bytes_of_ok {path : String} {settings : Dot.Settings}
    {bytes : Except FileError ByteArray} {summary : Summary}
    (succeeds : (ofBytes path settings bytes).outcome = .ok summary) :
    exists document plan, planIn path bytes = .ok (document, plan) ∧
      (ofBytes path settings bytes).bytes = (plan.draft settings).text.toUTF8 := by
  unfold ofBytes at succeeds ⊢
  cases loads : planIn path bytes with
  | error cause =>
      rw [loads] at succeeds
      cases succeeds
  | ok loaded =>
      rcases loaded with ⟨document, plan⟩
      rw [loads] at succeeds
      dsimp only at succeeds ⊢
      refine ⟨document, plan, rfl, ?_⟩
      cases rendered : (plan.render settings none).outcome with
      | error error =>
          rw [rendered] at succeeds
          cases succeeds
      | ok summary => exact Dot.Draft.bytes_of_write (plan.render_write settings none rendered)

/-! ## Runs with and without an output -/

namespace Arguments

/-- The same arguments without an output. -/
def withoutOutput (arguments : Arguments) : Arguments :=
  { arguments with output := none }

theorem settingsOn_withoutOutput (arguments : Arguments) (files : Files) :
    arguments.withoutOutput.settingsOn files = arguments.settingsOn files := rfl

/-- A run that has written what it printed to a file: the settings and the plan that it has loaded,
what it has printed, and the place of the file. -/
structure Delivered (arguments : Arguments) (files : Files) (path : String) (summary : Summary)
    (settings : Dot.Settings) (plan : Plan) (printout : Printout) (location : Location) :
    Prop where
  prepared : (arguments.loadSettings Files.storage).run files = (.ok settings, files)
  loaded : exists document, planIn arguments.plan (files.read arguments.plan) = .ok (document, plan)
  /-- What is printed in memory from the files as they were. -/
  printed : (printPlan Files.storage arguments.plan settings).run files = (printout, files)
  outcome : printout.outcome = .ok summary
  whole : printout.bytes = (plan.draft settings).text.toUTF8
  ended : exists statements, (plan.draft settings).text = statements ++ "\x7d\n"
  created : files.locationFor path = .ok location
  /-- The file is found under the path that was given. -/
  found : (arguments.runOn files).2.read path = .ok printout.bytes
  /-- The file holds what was printed, and all others are as they were. -/
  items : forall other, (arguments.runOn files).2.item? other =
    if location = other then some (.file printout.bytes) else files.item? other
  silent : (arguments.runOn files).1.standardOutput = .empty
  /-- Without an output the same run succeeds, prints the same and leaves all files alone. -/
  withoutOutput : exists log,
    arguments.withoutOutput.runOn files = (⟨.ok summary, printout.bytes, log⟩, files)

theorem withoutOutput_runOn (arguments : Arguments) (files : Files) {settings : Dot.Settings}
    (loaded : arguments.settingsOn files = .ok settings) :
    let printout := Printout.ofBytes arguments.plan settings (files.read arguments.plan)
    arguments.withoutOutput.runOn files =
      (arguments.withoutOutput.report printout printout.bytes, files) := by
  have same := (arguments.settingsOn_withoutOutput files).trans loaded
  exact (runOn_of_loaded same).trans (arguments.withoutOutput.print_run files settings)

/-- A run that creates its output leaves there what it prints, and nothing else has changed. -/
theorem runOn_of_created {arguments : Arguments} {files : Files} {settings : Dot.Settings}
    {path : String} {location : Location} (loaded : arguments.settingsOn files = .ok settings)
    (named : arguments.output = some path) (creates : files.locationFor path = .ok location) :
    let printout := Printout.ofBytes arguments.plan settings
      ((files.put location .empty).read arguments.plan)
    arguments.runOn files =
      (arguments.report printout .empty, files.put location printout.bytes) := by
  have runs := (runOn_of_loaded loaded).trans (arguments.print_run files settings)
  rw [named] at runs
  dsimp only at runs
  rw [creates] at runs
  dsimp only at runs
  rwa [Files.contentAt_put (Files.ne_nil_of_locationFor creates), ByteArray.empty_append,
    Files.put_put] at runs

/-- A run that succeeds with an output has created it. -/
theorem created_of_ok {arguments : Arguments} {files : Files} {path : String} {summary : Summary}
    (named : arguments.output = some path)
    (succeeds : (arguments.runOn files).1.outcome = .ok summary) :
    exists settings location, arguments.settingsOn files = .ok settings ∧
      files.locationFor path = .ok location := by
  cases loaded : arguments.settingsOn files with
  | error failure =>
      rw [runOn_of_settings loaded] at succeeds
      cases succeeds
  | ok settings =>
      cases creates : files.locationFor path with
      | error cause =>
          rw [runOn_of_loaded loaded, print_run, named] at succeeds
          dsimp only at succeeds
          rw [creates] at succeeds
          cases succeeds
      | ok location => exact ⟨settings, location, rfl, rfl⟩

/-- A run that succeeds with an output has written to it, and to no other file, all that is printed
in memory for the same plan and settings; and without an output it succeeds in the same way and
prints the same. -/
theorem runOn_delivers {arguments : Arguments} {files : Files} {path : String} {summary : Summary}
    (named : arguments.output = some path)
    (succeeds : (arguments.runOn files).1.outcome = .ok summary) :
    exists settings plan printout location,
      arguments.Delivered files path summary settings plan printout location := by
  rcases created_of_ok named succeeds with ⟨settings, location, loaded, creates⟩
  have runs := runOn_of_created loaded named creates
  dsimp only at runs
  rw [runs] at succeeds
  have printed : (Printout.ofBytes arguments.plan settings
      ((files.put location .empty).read arguments.plan)).outcome = .ok summary := succeeds
  rcases Printout.bytes_of_ok printed with ⟨document, plan, loads, whole⟩
  -- From here on the plan may be read from the files as they were.
  have same := read_of_planIn loads
  rw [← same] at printed loads whole runs
  refine ⟨settings, plan, Printout.ofBytes arguments.plan settings (files.read arguments.plan),
    location, ?_⟩
  exact {
    prepared := by rw [loadSettings_run, loaded]
    loaded := ⟨document, loads⟩
    printed := rfl
    outcome := printed
    whole := whole
    ended := ⟨_, rfl⟩
    created := creates
    found := by rw [runs, Files.read_put creates]
    items := by
      intro other
      have inside := Files.ne_nil_of_locationFor creates
      rw [runs, Files.item?_put]
      by_cases outermost : other = []
      · rw [if_pos outermost, if_neg (outermost ▸ inside), outermost]
        rfl
      · rw [if_neg outermost]
    silent := by rw [runs]; rfl
    withoutOutput :=
      ⟨_, (arguments.withoutOutput_runOn files loaded).trans (by rw [report, printed])⟩ }

end Arguments

/-! ### An output that is replaced -/

/-- A plan of a root alone, as it is written down. -/
def rootOnly : String :=
  "\x7b\"root\":\"r\",\"nodes\":[\x7b\"key\":\"r\"\x7d]\x7d"

/-- The plan that is meant. -/
def alone : Plan :=
  ⟨⟨#[⟨none, .noPreference⟩], #[], #[#[]]⟩, 0, [], .ofList [("r", 0)]⟩

/-- A folder with a plan and an output that is to be replaced. -/
def Files.withPlan : Files :=
  ⟨.ofList [(["in"], .file rootOnly.toUTF8), (["out"], .file "old".toUTF8)], []⟩

theorem locationFor_withPlan : Files.withPlan.locationFor "out" = .ok ["out"] := by
  rw [Files.locationFor, ofText_name (by decide)]
  rfl

/-- The plan is found, also after the output has been emptied. -/
theorem read_withPlan :
    Files.withPlan.read "in" = .ok rootOnly.toUTF8 ∧
      (Files.withPlan.put ["out"] .empty).read "in" = .ok rootOnly.toUTF8 := by
  rw [Files.read, Files.read, ofText_name (by decide)]
  exact ⟨rfl, rfl⟩

theorem planIn_rootOnly :
    exists document, planIn "in" (.ok rootOnly.toUTF8) = .ok (document, alone) := by
  have isText : textOf (.ok rootOnly.toUTF8) = .ok rootOnly := by
    have decoded : String.fromUTF8? rootOnly.toUTF8 = some rootOnly := dif_pos rootOnly.isValidUTF8
    rw [textOf, Except.bind, decoded]
  have reads : Document.ofText rootOnly = .ok ⟨"r", [⟨"r", none, .noPreference⟩], [], []⟩ := by
    decide +kernel
  rw [planIn, isText]
  dsimp only
  rw [reads]
  exact ⟨_, rfl⟩

theorem render_alone : (alone.render .default none).outcome = .ok ⟨1, 0, 0⟩ := by
  decide +kernel

namespace Arguments

theorem settingsOn_toOut (files : Files) : toOut.settingsOn files = .ok .default := rfl

theorem outcome_withPlan : (toOut.runOn .withPlan).1.outcome = .ok ⟨1, 0, 0⟩ := by
  rcases planIn_rootOnly with ⟨document, loads⟩
  have found : (Files.withPlan.put ["out"] .empty).read toOut.plan = .ok rootOnly.toUTF8 :=
    read_withPlan.2
  have printed : (Printout.ofBytes "in" .default (.ok rootOnly.toUTF8)).outcome =
      (alone.render .default none).outcome.mapError (.rendering "in") := by
    rw [Printout.ofBytes, loads]
  rw [runOn_of_created (settingsOn_toOut _) rfl locationFor_withPlan, found]
  dsimp only [report]
  rw [show toOut.plan = "in" from rfl, printed, render_alone]
  rfl

theorem delivers_withPlan :
    (toOut.runOn .withPlan).1.outcome = .ok ⟨1, 0, 0⟩ ∧
      (toOut.runOn .withPlan).2.read "out" = .ok (alone.draft .default).text.toUTF8 := by
  rcases runOn_delivers rfl outcome_withPlan with ⟨settings, plan, printout, location, delivered⟩
  refine ⟨outcome_withPlan, delivered.found.trans (congrArg Except.ok ?_)⟩
  rcases delivered.loaded with ⟨document, loads⟩
  rcases planIn_rootOnly with ⟨meant, loadsMeant⟩
  have prepared := congrArg Prod.fst delivered.prepared
  rw [loadSettings_run, settingsOn_toOut] at prepared
  rw [show toOut.plan = "in" from rfl, read_withPlan.1, loadsMeant] at loads
  have isMeant : alone = plan := congrArg Prod.snd (Except.ok.inj loads)
  rw [delivered.whole, ← Except.ok.inj prepared, ← isMeant]

end Arguments
end Command
end InjectionPlan
