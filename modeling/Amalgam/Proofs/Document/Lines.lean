import Amalgam.Proofs.Document.Grammar
import Amalgam.Proofs.Include.Relocation
import Amalgam.Proofs.Text.Encoding

namespace Amalgam

/-!
# The lines of a document

A block is a list of full lines: the marker and the relocated lines of the file,
the last one closed if need be.  The lines around the implementation section are
single lines as well, because an identifier holds no line feed.  This is what
lets a document be cut into lines piece by piece.

File names are free text.  Only a name without a line feed has a marker that is
one line; a name that was found in a source is always of this kind.
-/

/-! ## Single lines -/

theorem isFullLine_markerLine {name : String} (h : '\n' ∉ name.toList) :
    Text.IsFullLine (markerLine name) := by
  have hend : " === */\n" = " === */" ++ "\n" := by decide
  rw [markerLine, hend, ← String.append_assoc]
  apply Text.isFullLine_append_break
  simpa [String.toList_append] using h

/-- A marker is a comment, whatever the name is. -/
theorem isLocal_markerLine (stem name : String) :
    Include.isLocal stem (markerLine name) = false := by
  have hstart : "/* === " = "/* " ++ "=== " := by decide
  rw [markerLine, hstart, String.append_assoc, String.append_assoc]
  exact Include.isLocal_comment stem _

theorem not_mem_intercalate {separator : String} {parts : List String} {c : Char}
    (hseparator : c ∉ separator.toList) (hparts : ∀ part ∈ parts, c ∉ part.toList) :
    c ∉ (separator.intercalate parts).toList := by
  induction parts with
  | nil => simp
  | cons part parts ih =>
      obtain ⟨hpart, hparts⟩ := List.forall_mem_cons.1 hparts
      cases parts with
      | nil => rwa [String.intercalate_singleton]
      | cons next rest =>
          rw [String.intercalate_cons_cons, String.toList_append, String.toList_append]
          simp only [List.mem_append, not_or]
          exact ⟨⟨hpart, hseparator⟩, ih hparts⟩

namespace Manifest

variable {m : Manifest} {store : Store}

/-- The condition holds what its macros and its spelling hold, and no other characters. -/
theorem Valid.not_mem_implementationCondition (h : m.Valid) {c : Char}
    (hidentifier : isIdentifierRest c = false)
    (hspelling : ∀ text ∈ [" || ", "defined(", ")"], c ∉ text.toList) :
    c ∉ m.implementationCondition.toList := by
  obtain ⟨hseparator, hopening, hclosing⟩ : c ∉ " || ".toList ∧ c ∉ "defined(".toList ∧
      c ∉ ")".toList := by
    simpa using hspelling
  apply not_mem_intercalate hseparator
  intro part hpart
  obtain ⟨name, hname, rfl⟩ := List.mem_map.1 hpart
  have hmacro := not_mem_of_isIdentifier (h.macros_identifiers name hname) hidentifier
  rw [String.toList_append, String.toList_append, List.mem_append, List.mem_append]
  exact not_or.2 ⟨not_or.2 ⟨hopening, hmacro⟩, hclosing⟩

theorem Valid.break_not_mem_implementationCondition (h : m.Valid) :
    '\n' ∉ m.implementationCondition.toList :=
  h.not_mem_implementationCondition (by decide) (by decide)

theorem Valid.isFullLine_openingLine (h : m.Valid) : Text.IsFullLine m.openingLine := by
  apply Text.isFullLine_append_break
  simpa [String.toList_append] using h.break_not_mem_implementationCondition

theorem Valid.isFullLine_closingLine (h : m.Valid) : Text.IsFullLine m.closingLine := by
  have hend : " */\n" = " */" ++ "\n" := by decide
  rw [closingLine, hend, ← String.append_assoc]
  apply Text.isFullLine_append_break
  simpa [String.toList_append] using h.break_not_mem_implementationCondition

theorem isLocal_openingLine (stem : String) (m : Manifest) :
    Include.isLocal stem m.openingLine = false := by
  have hline : m.openingLine.toList =
      '#' :: 'i' :: 'f' :: ' ' :: (m.implementationCondition ++ "\n").toList := by
    rw [openingLine, String.append_assoc, String.toList_append]
    rfl
  exact Include.isLocal_eq_false_of_not_prefix hline (by decide) (by simp [Include.opening])

theorem isLocal_closingLine (stem : String) (m : Manifest) :
    Include.isLocal stem m.closingLine = false := by
  have hline : m.closingLine.toList = '#' :: 'e' :: 'n' :: 'd' ::
      ("if /* " ++ m.implementationCondition ++ " */\n").toList := by
    have hstart : "#endif /* " = "#end" ++ "if /* " := by decide
    rw [closingLine, hstart, String.append_assoc, String.append_assoc, String.toList_append,
      ← String.append_assoc]
    rfl
  exact Include.isLocal_eq_false_of_not_prefix hline (by decide) (by simp [Include.opening])

end Manifest

/-! ## The lines of a block -/

/-- Emitted lines with the line feed that they need make a closed text. -/
theorem join_append_closingBreak {emitted : List String} (h : Text.AreLines emitted) :
    String.join emitted ++ closingBreak emitted = Text.close (String.join emitted) := by
  induction h with
  | nil => rfl
  | last hne hbreak =>
      rename_i line
      have hopen := Text.isTerminated_eq_false_of_not_mem hbreak
      simp [closingBreak, hopen, Text.close_of_not_mem hne hbreak]
  | cons hfull hrest ih =>
      rename_i line rest
      rw [String.join_cons, Text.close_append hfull.isClosed, ← ih, String.append_assoc]
      -- The last line decides, and it is in the rest unless the rest is empty.
      cases rest with
      | nil => simp [closingBreak, hfull.isTerminated]
      | cons next rest => simp [closingBreak]

/-- The relocated lines of a text, each of them closed. -/
def relocatedLines (stem content : String) : List String :=
  (Text.linesOf content).map fun line => Text.close (Include.relocate stem line)

theorem block_eq_join (stem name content : String) :
    (InputFile.ofContent name content).block stem =
      String.join (markerLine name :: relocatedLines stem content) := by
  have hlines := Include.areLines_map_relocate (Text.areLines_linesOf content) stem
  rw [InputFile.block, String.append_assoc]
  show markerLine name ++ (String.join ((Text.linesOf content).map _) ++
    closingBreak ((Text.linesOf content).map _)) = _
  rw [join_append_closingBreak hlines, Text.close_join hlines, List.map_map,
    String.join_cons]
  rfl

theorem isFullLine_of_mem_relocatedLines {stem content line : String}
    (h : line ∈ relocatedLines stem content) : Text.IsFullLine line := by
  have hlines := Include.areLines_map_relocate (Text.areLines_linesOf content) stem
  obtain ⟨original, horiginal, rfl⟩ := List.mem_map.1 h
  exact hlines.isFullLine_close _ (List.mem_map_of_mem horiginal)

theorem isLocal_of_mem_relocatedLines {stem content line : String}
    (h : line ∈ relocatedLines stem content) : Include.isLocal stem line = false := by
  obtain ⟨original, -, rfl⟩ := List.mem_map.1 h
  rw [Include.isLocal_close, Include.isLocal_relocate]

/-! ## The names of a rendered registry -/

/-- A name that a source includes holds no line feed. -/
theorem break_not_mem_of_mem_namesIn {stem content name : String}
    (h : name ∈ Include.namesIn stem content) : '\n' ∉ name.toList := by
  obtain ⟨line, hline, hname⟩ := Include.mem_namesIn.1 h
  obtain ⟨body, hbody, hchars⟩ := (Text.areLines_linesOf content).exists_body line hline
  exact Include.break_not_mem_of_name? hbody hchars hname

/-- If the seed headers hold no line feed, then no header does. -/
theorem Manifest.break_not_mem_of_mem_headers {m : Manifest} {store : Store}
    {a : Amalgamation} (h : m.render store = .ok a)
    (hseed : ∀ name ∈ m.headers, '\n' ∉ name.toList) :
    ∀ name ∈ a.registry.headers, '\n' ∉ name.toList := by
  obtain ⟨hvalid, hdiscover, -⟩ := render_eq_ok_iff.1 h
  obtain ⟨-, hregistry⟩ := scanSources_eq_ok_iff.1 hdiscover
  rw [hvalid.insertAll_seedRegistry] at hregistry
  intro name hname
  rw [hregistry] at hname
  rcases List.mem_append.1 hname with hheader | hdiscovered
  · exact hseed name hheader
  · rw [List.mem_eraseDups, List.mem_filter, mem_includedNames] at hdiscovered
    obtain ⟨⟨source, -, hincluded⟩, -⟩ := hdiscovered
    exact break_not_mem_of_mem_namesIn hincluded

end Amalgam
