import InjectionPlan.Dot.Rendering
import InjectionPlan.Proofs.Writing

namespace InjectionPlan

/-!
# Renderings that are cut short

What a plan is to be rendered as is settled before a byte is written: the opening of the graph, a
statement for each descriptor that a sink is handed which keeps everything, and the closing if that
dump succeeds (`Plan.wholeText`).  An output with a quota holds the beginning of that text, as long
as the quota allows, wherever in a token the cut falls (`Plan.render_within`).  If the whole text
fits, the rendering comes to what the dump comes to; if not, to a refusal in the stage that the cut
falls into.
-/

namespace Dot

open Diagram (Descriptor)

namespace Output

/-- How a text that does not fit is refused. -/
def exhausted : Refusal := ⟨"byte quota exhausted"⟩

/-- Whether bytes fit into a quota, as an answer. -/
def answerFor (quota : Nat) (bytes : ByteArray) : Except Refusal Unit :=
  if bytes.size ≤ quota then .ok () else .error exhausted

/-- An output that holds of some bytes as many as its quota allows. -/
structure Begins (output : Output) (quota : Nat) (whole : ByteArray) : Prop where
  limit : output.quota = some quota
  bytes : output.bytes = whole.extract 0 quota

theorem extract_of_size_le {bytes : ByteArray} {quota : Nat} (fits : bytes.size ≤ quota) :
    bytes.extract 0 quota = bytes := by
  have largest : max quota bytes.size = quota := Nat.max_eq_left fits
  rw [← largest]
  exact ByteArray.extract_zero_max_size

/-- The beginning of some bytes is the same whatever follows behind it. -/
theorem extract_append_of_le {bytes : ByteArray} {quota : Nat} (long : quota ≤ bytes.size)
    (more : ByteArray) : (bytes ++ more).extract 0 quota = bytes.extract 0 quota := by
  rw [ByteArray.extract_append, Nat.sub_eq_zero_of_le long, Nat.zero_sub, ByteArray.extract_same,
    ByteArray.append_empty]

theorem extract_min (bytes : ByteArray) (quota : Nat) :
    bytes.extract 0 (min quota bytes.size) = bytes.extract 0 quota := by
  rcases Nat.le_total bytes.size quota with fits | long
  · rw [Nat.min_eq_right fits, ByteArray.extract_zero_size, extract_of_size_le fits]
  · rw [Nat.min_eq_left long]

variable {output : Output} {quota : Nat} {whole : ByteArray}

theorem begins_empty (quota : Nat) : (empty (some quota)).Begins quota .empty where
  limit := rfl
  bytes := (extract_of_size_le (Nat.zero_le quota)).symm

/-- Once the quota is used up, nothing that would have followed makes a difference. -/
theorem Begins.append_of_lt (begins : output.Begins quota whole) (full : quota < whole.size)
    (more : ByteArray) : output.Begins quota (whole ++ more) where
  limit := begins.limit
  bytes := begins.bytes.trans (extract_append_of_le (Nat.le_of_lt full) more).symm

/-- Counting statements leaves the bytes alone. -/
theorem Begins.of_same {counted : Output} (begins : output.Begins quota whole)
    (bytes : counted.bytes = output.bytes) (limit : counted.quota = output.quota) :
    counted.Begins quota whole where
  limit := limit.trans begins.limit
  bytes := bytes.trans begins.bytes

theorem answerFor_append_of_lt (full : quota < whole.size) (more : ByteArray) :
    answerFor quota (whole ++ more) = .error exhausted := by
  apply if_neg
  rw [ByteArray.size_append]
  omega

/-- An output that has refused nothing takes of a further text what the quota leaves room for. -/
theorem Begins.write (begins : output.Begins quota whole) (fits : whole.size ≤ quota)
    (text : String) :
    (output.write text).1 = answerFor quota (whole ++ text.toUTF8) ∧
      (output.write text).2.Begins quota (whole ++ text.toUTF8) := by
  have held : output.bytes = whole := begins.bytes.trans (extract_of_size_le fits)
  unfold Output.write answerFor
  rw [begins.limit, held, ByteArray.size_append]
  dsimp only
  split
  · next enough =>
    refine ⟨rfl, rfl, ?_⟩
    apply (extract_of_size_le _).symm
    rwa [ByteArray.size_append]
  · refine ⟨rfl, rfl, ?_⟩
    rw [ByteArray.extract_append, extract_of_size_le fits, Nat.zero_sub]

/-- The statements of descriptors are taken as if they were one text. -/
theorem Begins.takeAll (begins : output.Begins quota whole) (fits : whole.size ≤ quota)
    (descriptors : List Descriptor) :
    let statements := (String.join (descriptors.map statement)).toUTF8
    (sink.takeAll descriptors output).1 = answerFor quota (whole ++ statements) ∧
      (sink.takeAll descriptors output).2.Begins quota (whole ++ statements) := by
  induction descriptors generalizing output whole with
  | nil =>
      have nothing : whole ++ (String.join ([].map statement)).toUTF8 = whole := by simp
      dsimp only
      rw [nothing]
      exact ⟨(if_pos fits).symm, begins⟩
  | cons descriptor rest ih =>
      have split : whole ++ (String.join ((descriptor :: rest).map statement)).toUTF8 =
          whole ++ (statement descriptor).toUTF8 ++
            (String.join (rest.map statement)).toUTF8 := by
        simp [String.join_cons, ByteArray.append_assoc]
      rcases begins.write fits (statement descriptor) with ⟨answer, written⟩
      rcases take_sink descriptor output with ⟨counted, taken, bytes, limit⟩
      have begun := written.of_same bytes limit
      dsimp only
      rw [split, Sink.takeAll, taken, answer]
      by_cases enough : (whole ++ (statement descriptor).toUTF8).size ≤ quota
      · rw [answerFor, if_pos enough]
        exact ih begun enough
      · have full := Nat.lt_of_not_le enough
        rw [answerFor, if_neg enough]
        exact ⟨(answerFor_append_of_lt full _).symm, begun.append_of_lt full _⟩

end Output
end Dot

open Dot.Output (Begins answerFor begins_empty exhausted extract_min)

/-- A dump to an output writes the statements of its script as far as they fit. -/
theorem Graph.dump_within (graph : Graph) (root : NodeId) (unshared : List NodeId)
    {output : Dot.Output} {quota : Nat} {opening : ByteArray} (begun : output.Begins quota opening)
    (fits : opening.size ≤ quota) :
    let script := graph.script root unshared
    let content := opening ++ (String.join (script.descriptors.map Dot.statement)).toUTF8
    let dumped := graph.dump root unshared Dot.sink output
    dumped.1 = script.outcome (answerFor quota content) ∧ dumped.2.store.Begins quota content := by
  have plays := graph.dump_eq_play root unshared Dot.sink output
  rcases begun.takeAll fits (graph.script root unshared).descriptors with ⟨answer, filled⟩
  have results := congrArg Prod.fst plays
  have stores := congrArg Prod.snd plays
  dsimp only [Script.play] at results stores
  rw [answer] at results
  rw [← stores] at filled
  exact ⟨results, filled⟩

namespace Plan

/-- What stands behind the last statement; a dump that fails leaves the graph open. -/
def ending : Except DumpError Summary -> String
  | .ok _ => Dot.closing
  | .error _ => ""

/-- What a plan is rendered as without a quota. -/
def wholeText (plan : Plan) (settings : Dot.Settings) : String :=
  let dumped := plan.graph.dump plan.root plan.unshared Sink.collecting .empty
  Dot.preamble settings ++
    String.join (dumped.2.store.nodes.toList.map Dot.nodeStatement) ++
    String.join (dumped.2.store.edges.toList.map Dot.edgeStatement) ++
    ending dumped.1

/-- The bytes of the opening and of the statements of a plan. -/
def content (plan : Plan) (settings : Dot.Settings) : ByteArray :=
  (Dot.preamble settings).toUTF8 ++
    (String.join ((plan.graph.script plan.root plan.unshared).descriptors.map
      Dot.statement)).toUTF8

theorem toUTF8_wholeText (plan : Plan) (settings : Dot.Settings) :
    (plan.wholeText settings).toUTF8 =
      plan.content settings ++
        (ending (plan.graph.script plan.root plan.unshared).result).toUTF8 := by
  simp [wholeText, content, Graph.script, Script.descriptors, Dot.statement, Function.comp_def,
    ByteArray.append_assoc]

theorem start_within (settings : Dot.Settings) (quota : Nat) :
    (Dot.Output.start settings (some quota)).1 = answerFor quota (Dot.preamble settings).toUTF8 ∧
      (Dot.Output.start settings (some quota)).2.Begins quota (Dot.preamble settings).toUTF8 := by
  have opened := (begins_empty quota).write (Nat.zero_le quota) (Dot.preamble settings)
  rwa [ByteArray.empty_append] at opened

/-- Nothing follows an opening that does not fit. -/
theorem render_unopened (plan : Plan) {settings : Dot.Settings} {quota : Nat}
    (full : ¬ (Dot.preamble settings).toUTF8.size ≤ quota) :
    (plan.render settings (some quota)).outcome = .error (.preamble exhausted) ∧
      (plan.render settings (some quota)).output.Begins quota
        (Dot.preamble settings).toUTF8 := by
  rcases start_within settings quota with ⟨answer, begun⟩
  rw [answerFor, if_neg full] at answer
  unfold render
  rcases started : Dot.Output.start settings (some quota) with ⟨first, output⟩
  rw [started] at answer begun
  dsimp only at answer begun
  subst answer
  exact ⟨rfl, begun⟩

/-- An opening that fits is followed by the statements, and these by the closing unless the dump
fails or they do not fit. -/
theorem render_opened (plan : Plan) {settings : Dot.Settings} {quota : Nat}
    (opens : (Dot.preamble settings).toUTF8.size ≤ quota) :
    let rendering := plan.render settings (some quota)
    let dumped := (plan.graph.script plan.root plan.unshared).outcome
      (answerFor quota (plan.content settings))
    (forall error, dumped = .error error -> rendering.outcome = .error (.content error) ∧
      rendering.output.Begins quota (plan.content settings)) ∧
    forall summary, dumped = .ok summary -> (plan.content settings).size ≤ quota ->
      rendering.outcome =
        (if (plan.content settings ++ Dot.closing.toUTF8).size ≤ quota then .ok summary
          else .error (.closing exhausted)) ∧
        rendering.output.Begins quota (plan.content settings ++ Dot.closing.toUTF8) := by
  rcases start_within settings quota with ⟨answer, begun⟩
  rw [answerFor, if_pos opens] at answer
  unfold render
  rcases started : Dot.Output.start settings (some quota) with ⟨first, output⟩
  rw [started] at answer begun
  dsimp only at answer begun ⊢
  subst answer
  rcases plan.graph.dump_within plan.root plan.unshared begun opens with ⟨results, filled⟩
  rw [← content] at results filled
  rcases dumped : plan.graph.dump plan.root plan.unshared Dot.sink output with ⟨result, session⟩
  rw [dumped] at results filled
  dsimp only at results filled ⊢
  rw [dumped, ← results]
  constructor
  · rintro error rfl
    exact ⟨rfl, filled⟩
  · rintro summary rfl contains
    rcases filled.write contains Dot.closing with ⟨answered, whole⟩
    rcases finished : session.store.finish with ⟨last, ended⟩
    rw [← Dot.Output.finish, finished] at answered whole
    dsimp only at answered whole ⊢
    rw [finished, answered, answerFor]
    by_cases ends : (plan.content settings ++ Dot.closing.toUTF8).size ≤ quota
    · rw [if_pos ends, if_pos ends]
      exact ⟨rfl, whole⟩
    · rw [if_neg ends, if_neg ends]
      exact ⟨rfl, whole⟩

/-- The three stages of a rendering, each of which is reached if what comes before it fits. -/
theorem render_stages (plan : Plan) (settings : Dot.Settings) (quota : Nat) :
    let script := plan.graph.script plan.root plan.unshared
    let opening := (Dot.preamble settings).toUTF8
    let content := plan.content settings
    (plan.render settings (some quota)).output.Begins quota (plan.wholeText settings).toUTF8 ∧
      (plan.render settings (some quota)).outcome =
        if opening.size ≤ quota then
          if content.size ≤ quota then
            match script.result with
            | .error error => .error (.content error)
            | .ok summary =>
              if (content ++ Dot.closing.toUTF8).size ≤ quota then .ok summary
              else .error (.closing exhausted)
          else .error (.content (.sink exhausted))
        else .error (.preamble exhausted) := by
  dsimp only
  rw [toUTF8_wholeText]
  by_cases opens : (Dot.preamble settings).toUTF8.size ≤ quota
  · rcases plan.render_opened opens with ⟨fails, succeeds⟩
    rw [if_pos opens]
    by_cases contains : (plan.content settings).size ≤ quota
    · rw [answerFor, if_pos contains] at fails succeeds
      rw [if_pos contains]
      cases comes : (plan.graph.script plan.root plan.unshared).result with
      | error error =>
          rcases fails error comes with ⟨outcome, begins⟩
          refine ⟨?_, outcome⟩
          simpa [ending] using begins
      | ok summary =>
          rcases succeeds summary comes contains with ⟨outcome, begins⟩
          exact ⟨begins, outcome⟩
    · rw [answerFor, if_neg contains] at fails
      rw [if_neg contains]
      rcases fails (.sink exhausted) rfl with ⟨outcome, begins⟩
      exact ⟨begins.append_of_lt (Nat.lt_of_not_le contains) _, outcome⟩
  · rw [if_neg opens, content, ByteArray.append_assoc]
    rcases plan.render_unopened opens with ⟨outcome, begins⟩
    exact ⟨begins.append_of_lt (Nat.lt_of_not_le opens) _, outcome⟩

/-- With a quota, a rendering writes as much of the whole text as fits.  If all of it fits, the
rendering comes to what the dump comes to; otherwise it fails where the first byte that does not fit
belongs: to the opening, to the closing, or to a descriptor. -/
theorem render_within (plan : Plan) (settings : Dot.Settings) (quota : Nat) :
    let rendering := plan.render settings (some quota)
    let dumped := plan.graph.dump plan.root plan.unshared Sink.collecting .empty
    let size := (plan.wholeText settings).toUTF8.size
    rendering.output.bytes = (plan.wholeText settings).toUTF8.extract 0 (min quota size) ∧
      rendering.outcome =
        if size ≤ quota then dumped.1.mapError .content
        else if quota < (Dot.preamble settings).toUTF8.size then .error (.preamble exhausted)
        else if dumped.1.isOk ∧ size ≤ quota + Dot.closing.toUTF8.size then
          .error (.closing exhausted)
        else .error (.content (.sink exhausted)) := by
  have stages := plan.render_stages settings quota
  have whole := plan.toUTF8_wholeText settings
  dsimp only at stages ⊢
  rcases stages with ⟨begins, outcome⟩
  constructor
  · rw [begins.bytes, extract_min]
  · have dumped : (plan.graph.dump plan.root plan.unshared Sink.collecting .empty).1 =
      (plan.graph.script plan.root plan.unshared).result := rfl
    rw [dumped, outcome, whole]
    cases (plan.graph.script plan.root plan.unshared).result with
    | error error =>
        have failed : (Except.error error : Except DumpError Summary).isOk = false := rfl
        have nothing : "".toUTF8.size = 0 := rfl
        simp only [ending, content, ByteArray.size_append, failed, nothing, Bool.false_eq_true,
          false_and, if_false, Nat.add_zero]
        split_ifs <;> first | rfl | omega
    | ok summary =>
        have succeeded : (Except.ok summary : Except DumpError Summary).isOk = true := rfl
        simp only [ending, content, ByteArray.size_append, succeeded, true_and]
        split_ifs <;> first | rfl | omega

end Plan
end InjectionPlan
