namespace Amalgam
namespace Text

/-!
# Lines

A text is cut after every line feed, so each line keeps its terminator and the
lines of a text concatenate to it.  A carriage return is an ordinary character
of its line.  Only the last line may lack a terminator, and an empty text has
no line at all.
-/

/-- Puts one character in front of a text that is already cut into lines. -/
def consLine (c : Char) : List (List Char) → List (List Char)
  | [] => [[c]]
  | line :: rest =>
      if c = '\n' then [c] :: line :: rest else (c :: line) :: rest

/-- The lines of a text, each with its terminator. -/
def cutLines (cs : List Char) : List (List Char) :=
  cs.foldr consLine []

/-- The lines of a string, each with its terminator. -/
def linesOf (s : String) : List String :=
  (cutLines s.toList).map String.ofList

/-- The number of line feeds in a string. -/
def countBreaks (s : String) : Nat :=
  s.toList.count '\n'

/-- Whether the last character of a string is a line feed. -/
def isTerminated (s : String) : Bool :=
  s.toList.getLast? == some '\n'

@[simp]
theorem flatten_consLine (c : Char) (lines : List (List Char)) :
    (consLine c lines).flatten = c :: lines.flatten := by
  cases lines with
  | nil => rfl
  | cons line rest =>
    by_cases h : c = '\n' <;> simp [consLine, h]

/-- Cutting a text into lines loses nothing. -/
@[simp]
theorem flatten_cutLines (cs : List Char) : (cutLines cs).flatten = cs := by
  induction cs with
  | nil => rfl
  | cons c cs ih => simpa [cutLines] using ih

@[simp]
theorem countBreaks_append (s t : String) :
    countBreaks (s ++ t) = countBreaks s + countBreaks t := by
  simp [countBreaks, String.toList_append]

end Text
end Amalgam
