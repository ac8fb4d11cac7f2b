namespace InjectionPlan
namespace Text

/-!
# The last segment of a qualified name

A component type is named in full, either with `::` between its segments or with a dot.  Labels
show only the last segment: what follows the last `::`, and of that what follows the last dot.
Both separators are looked for from the right, so `a:::b` has the last segment `b`.
-/

/-- What follows the last occurrence of a mark, if the mark occurs at all. -/
def afterLast (mark : List Char) : List Char -> Option (List Char)
  | [] => none
  | first :: rest =>
    match afterLast mark rest with
    | some tail => some tail
    | none =>
      if mark.isPrefixOf (first :: rest) then some ((first :: rest).drop mark.length) else none

/-- The segment of a qualified name after the last `::` and then after the last dot. -/
def lastSegment (name : String) : String :=
  let full := name.toList
  let dotted := (afterLast [':', ':'] full).getD full
  String.ofList ((afterLast ['.'] dotted).getD dotted)

end Text
end InjectionPlan
