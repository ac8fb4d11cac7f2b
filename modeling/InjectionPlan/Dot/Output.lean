import InjectionPlan.Dot.Statement
import InjectionPlan.Sink

namespace InjectionPlan
namespace Dot

/-!
# Writing DOT to an output of limited size

An output holds the bytes written so far and may have a quota.  A text that does not fit is
written as far as it fits and then refused, so the bytes are always the beginning of what was to
be written.  The sink writes one statement for each descriptor and counts the statements that
were written whole.
-/

/-- The bytes written and the number that may be written. -/
structure Output where
  bytes : ByteArray
  quota : Option Nat
  nodesWritten : Nat
  edgesWritten : Nat

namespace Output

/-- An output to which nothing has been written. -/
def empty (quota : Option Nat) : Output :=
  ⟨.empty, quota, 0, 0⟩

/-- Writes a text, as far as it fits. -/
def write (output : Output) (text : String) : Except Refusal Unit × Output :=
  let more := text.toUTF8
  match output.quota with
  | none => (.ok (), { output with bytes := output.bytes ++ more })
  | some quota =>
    if output.bytes.size + more.size ≤ quota then
      (.ok (), { output with bytes := output.bytes ++ more })
    else
      (.error ⟨"byte quota exhausted"⟩,
        { output with bytes := output.bytes ++ more.extract 0 (quota - output.bytes.size) })

/-- Starts a graph. -/
def start (settings : Settings) (quota : Option Nat) : Except Refusal Unit × Output :=
  (empty quota).write (preamble settings)

/-- Ends the graph. -/
def finish (output : Output) : Except Refusal Unit × Output :=
  output.write closing

/-- The text of bytes that are UTF-8 up to an incomplete last character, which becomes U+FFFD.
The last character has at most three bytes before its end. -/
def textOf (bytes : ByteArray) : String :=
  match String.fromUTF8? bytes with
  | some text => text
  | none =>
    let shorter := [1, 2, 3].findSome? fun count =>
      String.fromUTF8? (bytes.extract 0 (bytes.size - count))
    (shorter.getD "").push '\ufffd'

/-- The text written. -/
def text (output : Output) : String :=
  textOf output.bytes

end Output

/-- Writes a statement for each descriptor. -/
def sink : Sink Output where
  takeNode node output :=
    match output.write (nodeStatement node) with
    | (.ok (), written) => (.ok (), { written with nodesWritten := written.nodesWritten + 1 })
    | (.error refusal, written) => (.error refusal, written)
  takeEdge edge output :=
    match output.write (edgeStatement edge) with
    | (.ok (), written) => (.ok (), { written with edgesWritten := written.edgesWritten + 1 })
    | (.error refusal, written) => (.error refusal, written)

end Dot
end InjectionPlan
