/-!
# Lines of a text

A text is cut after every newline. A line loses its newline and one carriage return before it; a
last line without a newline keeps its carriage return, and an empty one is not a line.
-/

namespace AgentGateway.Text

/-- Cuts at every mark. The accumulator holds the current part in reverse. -/
def splitMarked {α : Type} (isMark : α → Bool) : List α → List α → List (List α) → List (List α)
  | [], part, done => (part.reverse :: done).reverse
  | c :: rest, part, done =>
    if isMark c then splitMarked isMark rest [] (part.reverse :: done)
    else splitMarked isMark rest (c :: part) done

/-- The parts between the marks of a text: one more than there are marks. -/
def split {α : Type} (isMark : α → Bool) (text : List α) : List (List α) :=
  splitMarked isMark text [] []

/-- Takes away one carriage return at the end. -/
def dropReturn (line : List Char) : List Char :=
  if line.getLast? = some '\r' then line.dropLast else line

def lines (text : List Char) : List (List Char) :=
  let parts := split (· == '\n') text
  let last := parts.getLast?.getD []
  let terminated := parts.dropLast.map dropReturn
  if last.isEmpty then terminated else terminated ++ [last]

end AgentGateway.Text
