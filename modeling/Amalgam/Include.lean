import Amalgam.Text.Blank

namespace Amalgam
namespace Include

/-!
# Local include directives

A line is a local include when, without blank characters at its ends, it starts
with `#include "` and the stem that the project's private file names begin
with.  The name it includes runs from that stem to the next double quote, or to
the end of the trimmed line when the quote is never closed.

The directive is matched as text.  There is no tokenizer here: a directive with
a space after `#` is not recognised, and one inside a block comment is.
-/

/-- What every local include starts with, before the name. -/
def opening : String :=
  "#include \""

/-- The rest of `cs` after a leading `lead`, if it starts that way. -/
def afterLead? : List Char → List Char → Option (List Char)
  | [], cs => some cs
  | _ :: _, [] => none
  | l :: lead, c :: cs => if l = c then afterLead? lead cs else none

/-- The name captured from the characters of a line. -/
def capture? (stem line : List Char) : Option (List Char) :=
  (afterLead? (opening.toList ++ stem) (Text.trim line)).map fun rest =>
    stem ++ rest.takeWhile (· != '"')

/-- The file name that a local include names; `none` for every other line. -/
def name? (stem line : String) : Option String :=
  (capture? stem.toList line.toList).map String.ofList

/-- Whether a line is a local include. -/
def isLocal (stem line : String) : Bool :=
  (name? stem line).isSome

/-- A line cut of its trailing blanks and put into a block comment of its own. -/
def commentOut (line : String) : String :=
  "/* " ++ String.ofList (Text.trimEnd line.toList) ++ " */\n"

/-- What replaces a line, for the lines that are replaced at all. -/
def replacement? (stem line : String) : Option String :=
  if isLocal stem line then some (commentOut line) else none

/-- The line as it stands in the amalgamation.  A local include becomes a
comment, because the file it names is already there; every other line is kept
to the last character. -/
def relocate (stem line : String) : String :=
  (replacement? stem line).getD line

theorem afterLead?_eq_some_iff {lead cs rest : List Char} :
    afterLead? lead cs = some rest ↔ cs = lead ++ rest := by
  induction lead generalizing cs with
  | nil => simp [afterLead?]
  | cons l lead ih =>
    cases cs with
    | nil => simp [afterLead?]
    | cons c cs =>
      by_cases h : l = c
      · simp [afterLead?, h, ih]
      · simp [afterLead?, h, Ne.symm h]

theorem relocate_of_isLocal {stem line : String} (h : isLocal stem line = true) :
    relocate stem line = commentOut line := by
  simp [relocate, replacement?, h]

theorem relocate_of_not_isLocal {stem line : String}
    (h : isLocal stem line = false) : relocate stem line = line := by
  simp [relocate, replacement?, h]

end Include
end Amalgam
