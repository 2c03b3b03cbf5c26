import ReviewGate.Review.Shadow

/-!
# `ReviewGate.Review.Markup` — the styles in printed text

Printed lines name styles between square brackets, `[bold]` where one begins and `[/bold]` where it
ends. Other brackets are text.

## Contents
- `styles`, `styleMarks`: the styles and how they are written.
- `IsUnmarked`, `WellMarked`: texts without marks, and texts whose marks come in pairs.
- `withoutStyles`: a text without the marks of styles.
- `Printed.lines`: what is printed, as lines of a terminal that shows no styles.
-/

namespace ReviewGate

/-- The styles of printed text. -/
def styles : List String :=
  ["bold", "dim", "bold cyan", "green"] ++ Severity.all.map (·.color)

/-- The marks where a style begins and ends. -/
def styleMarks : List (List Char) :=
  styles.flatMap fun style => [s!"[{style}]".toList, s!"[/{style}]".toList]

/-- The text has no bracket that could open a mark, and no backslash, with which a bracket stands for
itself. -/
def IsUnmarked (text : String) : Prop := ∀ c ∈ text.toList, c ≠ '[' ∧ c ≠ '\\'

-- by the characters of the text, and not by trying all characters
instance (text : String) : Decidable (IsUnmarked text) :=
  List.decidableBAll (fun c => c ≠ '[' ∧ c ≠ '\\') text.toList

/-- Each style that begins in the text ends in it, one inside another or behind it, and there are no
other marks. -/
inductive WellMarked : String → Prop
  | unmarked {text : String} (h : IsUnmarked text) : WellMarked text
  | styled {style text : String} (hstyle : style ∈ styles) (h : WellMarked text) :
      WellMarked (s!"[{style}]" ++ text ++ s!"[/{style}]")
  | append {front back : String} (hfront : WellMarked front) (hback : WellMarked back) :
      WellMarked (front ++ back)

/-- The characters without the marks of styles, the first `skipped` being part of a mark. -/
def withoutMarks : (skipped : Nat) → List Char → List Char
  | _, [] => []
  | skipped + 1, _ :: cs => withoutMarks skipped cs
  | 0, c :: cs =>
      match styleMarks.find? (·.isPrefixOf (c :: cs)) with
      | some mark => withoutMarks (mark.length - 1) cs
      | none => c :: withoutMarks 0 cs

/-- The text without the marks of styles. -/
def withoutStyles (s : String) : String := String.ofList (withoutMarks 0 s.toList)

/-- What is printed, as lines of a terminal that shows no styles. -/
def Printed.lines : Printed → List String
  | .line text => [withoutStyles text]
  | .table title columns rows =>
      title :: " | ".intercalate columns ::
        rows.map fun cells => " | ".intercalate (cells.map (·.plain))
  | .question text => [text]

end ReviewGate
