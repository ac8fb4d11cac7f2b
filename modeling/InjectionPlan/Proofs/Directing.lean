import Mathlib.Data.List.Induction
import Mathlib.Data.List.Nodup
import InjectionPlan.Proofs.Decoding
import InjectionPlan.Proofs.Overwriting

namespace InjectionPlan

/-!
# Which direction takes effect

In a preamble attributes of the graph are assigned one after the other, and of the assignments to
one name the last takes effect.  A direction among the arguments takes the place of the one in the
settings, and nothing else in the preamble changes.  But the direction is written ahead of the
further attributes of the graph.  So it takes effect exactly if these do not assign another value to
`rankdir` (`Arguments.effectiveDirection_iff`).
-/

namespace Dot

/-! ## Assignments in a preamble -/

/-- Reads an assignment to an attribute of the graph; the value may be bare or between quotes. -/
def scanGraphAssignment : Scanner (String × String) := fun input => do
  let (name, input) <- scanHead input
  let (value, input) <- scanName input
  let rest <- behind lineEnd input
  return ((name, value), rest)

/-- Reads a preamble and gives the assignments to attributes of the graph.  Nothing but defaults
may follow them. -/
def readAssignments (text : String) : Option (List (String × String)) := do
  let input <- behind "digraph ".toList text.toList
  let (_, input) <- scanQuoted input
  let input <- behind [' ', '\x7b', '\n'] input
  let (assignments, input) := scanMany scanGraphAssignment input
  let (_, input) := scanOptional (scanDefaults "node") input
  let (_, input) := scanOptional (scanDefaults "edge") input
  if input = [] then some assignments else none

/-- The value of an attribute after several assignments: the last one to its name counts. -/
def lastValue (name : String) (assignments : List (String × String)) : Option String :=
  assignments.foldl (fun value entry => if entry.1 = name then some entry.2 else value) none

/-- The value of an attribute of the graph that takes effect in a preamble. -/
def effective (name text : String) : Option String :=
  (readAssignments text).bind (lastValue name)

/-- What is assigned to attributes of the graph: the direction and then further values. -/
def Settings.assigned (settings : Settings) : List (RankDirection ⊕ (String × String)) :=
  settings.rankDirection.toList.map .inl ++ settings.graphAttributes.entries.map .inr

/-- The name and the value of an assignment. -/
def assignedEntry : RankDirection ⊕ (String × String) -> String × String
  | .inl direction => ("rankdir", direction.display)
  | .inr entry => entry

/-- The statement of an assignment. -/
def assignedStatement : RankDirection ⊕ (String × String) -> String
  | .inl direction => directionStatement (some direction)
  | .inr entry => settingStatement entry

theorem toList_directionStatement (direction : RankDirection) (rest : List Char) :
    (directionStatement (some direction)).toList ++ rest =
      [' ', ' '] ++ ((attributeName "rankdir").toList ++
        '=' :: ((attributeName direction.display).toList ++ ';' :: '\n' :: rest)) := by
  have bare : attributeName "rankdir" = "rankdir" := by decide
  have word : attributeName direction.display = direction.display := by
    cases direction <;> decide
  simp [directionStatement, bare, word]

theorem scans_assigned (assigned : RankDirection ⊕ (String × String)) :
    Scans scanGraphAssignment (assignedEntry assigned) (assignedStatement assigned).toList := by
  intro rest
  cases assigned with
  | inl direction =>
      rw [assignedStatement, toList_directionStatement, scanGraphAssignment, scanHead_assigned]
      simp [scanName_attributeName direction.display (show isWordChar ';' = false by decide),
        behind, lineEnd, assignedEntry]
  | inr entry =>
      rw [assignedStatement, toList_settingStatement, scanGraphAssignment, scanHead_assigned]
      simp [scans_quoted_name entry.2 (';' :: '\n' :: rest), behind, lineEnd, assignedEntry]

theorem scanMany_assigned (assigned : List (RankDirection ⊕ (String × String)))
    {rest : List Char} (stops : scanHead rest = none) :
    scanMany scanGraphAssignment
        (assigned.flatMap (fun each => (assignedStatement each).toList) ++ rest) =
      (assigned.map assignedEntry, rest) := by
  apply scanMany_flatMap
  · exact fun each _ => scans_assigned each
  · rintro (direction | entry)
    · simp [assignedStatement, directionStatement]
    · simp [assignedStatement, settingStatement]
  · rw [scanGraphAssignment, stops]
    rfl

theorem toList_preamble (settings : Settings) :
    (preamble settings).toList =
      "digraph ".toList ++ ((quote settings.graphName).toList ++ ([' ', '\x7b', '\n'] ++
        (settings.assigned.flatMap (fun assigned => (assignedStatement assigned).toList) ++
          ((defaultsStatement "node"
              (defaults settings.fontName settings.nodeAttributes)).toList ++
            ((defaultsStatement "edge"
                (defaults settings.fontName settings.edgeAttributes)).toList ++ []))))) := by
  have direction : (directionStatement settings.rankDirection).toList =
      (settings.rankDirection.toList.map Sum.inl).flatMap fun assigned =>
        (assignedStatement assigned).toList := by
    cases settings.rankDirection with
    | none => rfl
    | some direction => exact (List.append_nil _).symm
  rw [Settings.assigned, List.flatMap_append, ← direction]
  simp [preamble, settingStatement, assignedStatement, String.toList_join, List.flatMap_map]

/-- From a preamble the assignments are read that the settings ask for. -/
theorem readAssignments_preamble (settings : Settings) :
    readAssignments (preamble settings) = some (settings.assigned.map assignedEntry) := by
  rcases scanOptional_defaults "edge" (defaults settings.fontName settings.edgeAttributes)
    (show scanDefaults "edge" [] = none from rfl) with ⟨edgeRead, edgeScanned, _⟩
  rcases scanOptional_defaults "node" (defaults settings.fontName settings.nodeAttributes)
    (scanDefaults_other (defaults settings.fontName settings.edgeAttributes)
      (show scanDefaults "node" [] = none from rfl)) with ⟨nodeRead, nodeScanned, _⟩
  have stops := scanHead_defaultsStatement (Or.inl rfl)
    (defaults settings.fontName settings.nodeAttributes)
    (scanHead_defaultsStatement (Or.inr rfl) (defaults settings.fontName settings.edgeAttributes)
      (show scanHead [] = none from rfl))
  have scanned := scanMany_assigned settings.assigned stops
  rw [readAssignments, toList_preamble, behind_append]
  simp only [Option.bind_eq_bind, Option.bind_some, scans_quote settings.graphName _,
    behind_append, scanned, nodeScanned, edgeScanned, if_true]

/-! ## Values that take effect -/

theorem lastValue_concat (name : String) (earlier : List (String × String))
    (last : String × String) :
    lastValue name (earlier ++ [last]) =
      if last.1 = name then some last.2 else lastValue name earlier := by
  rw [lastValue, List.foldl_append]
  rfl

/-- Later assignments come before earlier ones. -/
theorem lastValue_append (name : String) (earlier later : List (String × String)) :
    lastValue name (earlier ++ later) = (lastValue name later).or (lastValue name earlier) := by
  induction later using List.reverseRecOn with
  | nil => rw [List.append_nil]; rfl
  | append_singleton later last ih =>
      rw [← List.append_assoc, lastValue_concat, lastValue_concat, ih]
      split <;> rfl

theorem mem_of_lastValue {name value : String} {assignments : List (String × String)}
    (takesEffect : lastValue name assignments = some value) : (name, value) ∈ assignments := by
  induction assignments using List.reverseRecOn with
  | nil => cases takesEffect
  | append_singleton earlier last ih =>
      rw [lastValue_concat] at takesEffect
      split at takesEffect
      · next same =>
        cases takesEffect
        exact List.mem_append_right _ (List.mem_singleton.mpr (Prod.ext same.symm rfl))
      · exact List.mem_append_left _ (ih takesEffect)

theorem lastValue_ne_none {name value : String} {assignments : List (String × String)}
    (assigned : (name, value) ∈ assignments) : lastValue name assignments ≠ none := by
  induction assignments using List.reverseRecOn with
  | nil => cases assigned
  | append_singleton earlier last ih =>
      rw [lastValue_concat]
      split
      · exact Option.some_ne_none _
      · next different =>
        refine ih ((List.mem_append.mp assigned).resolve_right fun isLast => different ?_)
        rw [← List.mem_singleton.mp isLast]

/-- Where each name occurs once every assignment takes effect. -/
theorem AttributeMap.lastValue_eq_some_iff (map : AttributeMap) (name value : String) :
    lastValue name map.entries = some value <-> (name, value) ∈ map.entries := by
  refine ⟨mem_of_lastValue, fun assigned => ?_⟩
  have different (left right : String × String) (less : left.1 < right.1) : left.1 ≠ right.1 :=
    fun same => String.lt_irrefl _ (same ▸ less)
  have distinct : (map.entries.map Prod.fst).Nodup :=
    List.pairwise_map.mpr (map.sorted.imp (different _ _))
  cases takesEffect : lastValue name map.entries with
  | none => exact absurd takesEffect (lastValue_ne_none assigned)
  | some other =>
      have same := List.inj_on_of_nodup_map distinct (mem_of_lastValue takesEffect) assigned rfl
      rw [(Prod.mk.inj same).2]

/-- The further attributes count before the direction. -/
theorem effective_rankdir (settings : Settings) :
    effective "rankdir" (preamble settings) =
      (lastValue "rankdir" settings.graphAttributes.entries).or
        (settings.rankDirection.map RankDirection.display) := by
  have further : settings.graphAttributes.entries.map (assignedEntry ∘ Sum.inr) =
      settings.graphAttributes.entries := List.map_id _
  rw [effective, readAssignments_preamble, Option.bind_some, Settings.assigned, List.map_append,
    List.map_map, List.map_map, further, lastValue_append]
  cases settings.rankDirection <;> rfl

end Dot

namespace Command

open Dot

namespace Arguments

/-- The arguments without a direction. -/
def withoutDirection (arguments : Arguments) : Arguments :=
  { arguments with rankDirection := none }

/-- With the direction and without it the same settings are adjusted. -/
theorem settingsOn_withoutDirection {arguments : Arguments} {files : Files} {settings : Settings}
    (loaded : arguments.settingsOn files = .ok settings) :
    exists base, settings = arguments.adjust base ∧
      arguments.withoutDirection.settingsOn files =
        .ok (arguments.withoutDirection.adjust base) := by
  have asks : arguments.withoutDirection.settings = arguments.settings := rfl
  unfold settingsOn at loaded ⊢
  rw [asks]
  cases named : arguments.settings with
  | none =>
      rw [named] at loaded
      cases loaded
      exact ⟨.default, rfl, rfl⟩
  | some path =>
      rw [named] at loaded
      unfold settingsFrom at loaded ⊢
      dsimp only at loaded ⊢
      cases read : settingsIn path (files.read path) with
      | error cause =>
          rw [read] at loaded
          cases loaded
      | ok base =>
          rw [read] at loaded
          cases loaded
          exact ⟨base, rfl, rfl⟩

/-- A direction among the arguments takes the place of the one in the settings, and nothing else in
the preamble changes.  It takes effect unless the further attributes of the graph assign another
value to the name. -/
theorem effectiveDirection_iff {arguments : Arguments} {files : Files} {settings : Settings}
    {direction : RankDirection} (given : arguments.rankDirection = some direction)
    (loaded : arguments.settingsOn files = .ok settings) :
    exists plain, arguments.withoutDirection.settingsOn files = .ok plain ∧
      (exists before after,
        preamble plain = before ++ directionStatement plain.rankDirection ++ after ∧
          preamble settings = before ++ directionStatement (some direction) ++ after) ∧
      effective "rankdir" (preamble settings) =
        some ((lastValue "rankdir" plain.graphAttributes.entries).getD direction.display) ∧
      (effective "rankdir" (preamble settings) = some direction.display <->
        forall value, ("rankdir", value) ∈ plain.graphAttributes.entries ->
          value = direction.display) := by
  rcases settingsOn_withoutDirection loaded with ⟨base, rfl, plain⟩
  have directed : (arguments.adjust base).rankDirection = some direction := by
    rw [adjust, Settings.override, given]
    rfl
  have takesEffect : effective "rankdir" (preamble (arguments.adjust base)) =
      some ((lastValue "rankdir" base.graphAttributes.entries).getD direction.display) := by
    have further : (arguments.adjust base).graphAttributes = base.graphAttributes := rfl
    rw [effective_rankdir, directed, further]
    cases lastValue "rankdir" base.graphAttributes.entries <;> rfl
  refine ⟨_, plain, ?_, takesEffect, ?_⟩
  · rw [preamble_around, preamble_around (arguments.adjust base), directed]
    exact ⟨_, _, rfl, rfl⟩
  · rw [takesEffect, Option.some.injEq]
    have further : (arguments.withoutDirection.adjust base).graphAttributes =
      base.graphAttributes := rfl
    constructor
    · intro same value assigned
      rw [further, ← AttributeMap.lastValue_eq_some_iff] at assigned
      rw [assigned] at same
      exact same
    · intro alike
      cases found : lastValue "rankdir" base.graphAttributes.entries with
      | none => rfl
      | some value => exact alike value (mem_of_lastValue found)

end Arguments

/-! ## A direction that does not take effect -/

/-- Settings with a direction among the further attributes, as they are written down. -/
def downward : String :=
  "[graph_attributes]\nrankdir = \"TB\"\n"

/-- The settings that are meant. -/
def downwardSettings : Settings :=
  { Settings.default with graphAttributes := .ofList [("rankdir", "TB")] }

/-- A folder with these settings. -/
def Files.withDownward : Files :=
  ⟨.ofList [(["in"], .file downward.toUTF8)], []⟩

/-- They are to be used from left to right. -/
def rightward : Arguments :=
  ⟨"plan", none, some "in", some .leftToRight, none, false⟩

theorem settingsOn_withDownward {arguments : Arguments} (named : arguments.settings = some "in") :
    arguments.settingsOn .withDownward = .ok (arguments.adjust downwardSettings) := by
  have found : Files.withDownward.read "in" = .ok downward.toUTF8 := by
    rw [Files.read, ofText_name (by decide)]
    rfl
  have decoded : String.fromUTF8? downward.toUTF8 = some downward := dif_pos downward.isValidUTF8
  have isText : textOf (.ok downward.toUTF8) = .ok downward := by
    rw [textOf, Except.bind, decoded]
  have meant : (Settings.ofToml downward).toOption = some downwardSettings := by decide +kernel
  have means : Settings.ofToml downward = .ok downwardSettings := by
    cases reads : Settings.ofToml downward with
    | error fault =>
        rw [reads] at meant
        cases meant
    | ok settings =>
        rw [reads] at meant
        exact congrArg Except.ok (Option.some.inj meant)
  have inFile : settingsIn "in" (.ok downward.toUTF8) = .ok downwardSettings := by
    rw [settingsIn, isText]
    dsimp only
    rw [means]
    rfl
  rw [Arguments.settingsOn, named]
  dsimp only
  rw [Arguments.settingsFrom, found, inFile]

namespace Arguments

theorem effectiveDirection_withDownward :
    rightward.rankDirection = some .leftToRight ∧
      rightward.settingsOn .withDownward = .ok (rightward.adjust downwardSettings) ∧
      effective "rankdir" (preamble (rightward.adjust downwardSettings)) = some "TB" := by
  have loaded := settingsOn_withDownward (show rightward.settings = some "in" from rfl)
  rcases effectiveDirection_iff rfl loaded with ⟨plain, loadedPlain, _, takesEffect, _⟩
  have same := settingsOn_withDownward
    (show rightward.withoutDirection.settings = some "in" from rfl)
  cases loadedPlain.symm.trans same
  refine ⟨rfl, loaded, takesEffect.trans ?_⟩
  decide

/-- A direction among the arguments does not always take effect. -/
theorem not_effectiveDirection :
    ¬ forall (arguments : Arguments) (files : Files) (settings : Settings)
      (direction : RankDirection), arguments.rankDirection = some direction ->
        arguments.settingsOn files = .ok settings ->
          effective "rankdir" (preamble settings) = some direction.display := by
  intro always
  have loaded := settingsOn_withDownward (show rightward.settings = some "in" from rfl)
  have takesEffect := always rightward .withDownward _ .leftToRight rfl loaded
  rw [effective_rankdir] at takesEffect
  exact absurd takesEffect (by decide)

end Arguments
end Command
end InjectionPlan
