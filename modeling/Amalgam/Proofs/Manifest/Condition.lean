import Amalgam.Proofs.Document.Lines
import Amalgam.Proofs.Include.Comment
import Amalgam.Proofs.Text.Delimiters

namespace Amalgam

/-!
# The condition of the implementation section

The two lines around the implementation section spell out the macros of a manifest, and
the macros can be read back from either of them.  This rests on validation: an identifier
holds no blank, no parenthesis, no slash and no line feed, so it cannot be mistaken for a
separator, for the end of a comment or for the end of the line.

Without validation the condition does NOT determine the macros.
-/

namespace Manifest

variable {m : Manifest}

/-! ## Reading a condition -/

/-- The macros that a condition asks for, from left to right. -/
def macrosIn? (condition : String) : Option (List String) :=
  ((Text.splitAround " || ".toList condition.toList).map String.ofList).mapM
    (Text.between? "defined(" ")")

/-- The condition of a valid manifest is read back as the macros it was made from. -/
theorem Valid.macrosIn?_implementationCondition (h : m.Valid) :
    macrosIn? m.implementationCondition = some m.macros := by
  have hseparator : " || ".toList = ' ' :: "|| ".toList := by decide
  have hparts : ∀ part ∈ (m.macros.map fun x => "defined(" ++ x ++ ")").map String.toList,
      ' ' ∉ part := by
    simp only [List.forall_mem_map]
    intro name hname
    have hblank := not_mem_of_isIdentifier (h.macros_identifiers name hname)
      (by decide : isIdentifierRest ' ' = false)
    simpa [String.toList_append] using hblank
  have hne : (m.macros.map fun x => "defined(" ++ x ++ ")").map String.toList ≠ [] := by
    simpa using h.macros_ne_nil
  have hcondition : m.implementationCondition.toList = (' ' :: "|| ".toList).intercalate
      ((m.macros.map fun x => "defined(" ++ x ++ ")").map String.toList) := by
    rw [implementationCondition, String.toList_intercalate, hseparator]
  have hstrings : ((m.macros.map fun x => "defined(" ++ x ++ ")").map String.toList).map
      String.ofList = m.macros.map fun x => "defined(" ++ x ++ ")" := by
    have hround : String.ofList ∘ String.toList = id := funext fun _ => String.ofList_toList
    rw [List.map_map, hround, List.map_id]
  rw [macrosIn?, hcondition, hseparator, Text.splitAround_intercalate hne hparts, hstrings]
  exact Text.mapM_map_eq_some fun name _ => Text.between?_append "defined(" name ")"

/-! ## The two lines -/

/-- The comment in the closing line ends where the line ends. -/
theorem Valid.dropInfix?_closer_closingLine (h : m.Valid) :
    m.closingLine.toList.dropInfix? Include.closer =
      some (("#endif /* " ++ m.implementationCondition ++ " ").toList, ['\n']) := by
  have hend : " */\n".toList = " ".toList ++ Include.closer ++ ['\n'] := by decide
  have hline : m.closingLine.toList =
      ("#endif /* " ++ m.implementationCondition ++ " ").toList ++ Include.closer ++ ['\n'] := by
    simp only [closingLine, String.toList_append, hend, List.append_assoc]
  rw [hline, Include.dropInfix?_append_closer_iff]
  -- Behind the first asterisk there is no slash, and in front of it there is no asterisk.
  have hstart : "#endif /* ".toList = "#endif /".toList ++ "* ".toList := by decide
  have hslash : '/' ∉ "* ".toList ++ (m.implementationCondition.toList ++ " ".toList) := by
    rw [List.mem_append, List.mem_append, not_or, not_or]
    exact ⟨by decide, h.not_mem_implementationCondition (by decide) (by decide), by decide⟩
  rw [String.toList_append, String.toList_append, hstart, List.append_assoc, List.append_assoc,
    Include.closer_infix_append_iff hslash]
  intro hinfix
  have hasterisk : '*' ∈ "#endif /".toList := hinfix.mem (by decide)
  revert hasterisk
  decide

/-- The lines around the implementation section of a valid manifest are single lines, and
the comment in the second one ends at its end.  Splitting the condition gives the macros
back in their order.  So either of the two lines determines the macros. -/
theorem guard_names_macros (h : m.validate = .ok ()) :
    Text.IsFullLine m.openingLine ∧ Text.IsFullLine m.closingLine ∧
    m.closingLine.toList.dropInfix? Include.closer =
      some (("#endif /* " ++ m.implementationCondition ++ " ").toList, ['\n']) ∧
    macrosIn? m.implementationCondition = some m.macros ∧
    ∀ other : Manifest, other.validate = .ok () →
      (other.openingLine = m.openingLine ∨ other.closingLine = m.closingLine) →
      other.macros = m.macros := by
  have hvalid := validate_eq_ok_iff_valid.1 h
  have hmacros := hvalid.macrosIn?_implementationCondition
  refine ⟨hvalid.isFullLine_openingLine, hvalid.isFullLine_closingLine,
    hvalid.dropInfix?_closer_closingLine, hmacros, ?_⟩
  intro other hother hlines
  have hcondition : other.implementationCondition = m.implementationCondition := by
    rcases hlines with hopening | hclosing
    · rwa [openingLine, openingLine, String.append_left_inj, String.append_right_inj]
        at hopening
    · rwa [closingLine, closingLine, String.append_left_inj, String.append_right_inj]
        at hclosing
  have hotherMacros :=
    (validate_eq_ok_iff_valid.1 hother).macrosIn?_implementationCondition
  rw [hcondition, hmacros, Option.some.injEq] at hotherMacros
  exact hotherMacros.symm

/-- The first macro has the name of the operator that asks for it. -/
def operatorSample : Manifest :=
  { sample with macros := ["defined", "_9", "LIB_IMPL"] }

theorem guard_names_macros_operatorSample :
    let other : Manifest := { operatorSample with sources := ["z.c"], prologue := "" }
    operatorSample.validate = .ok () ∧
    operatorSample.closingLine =
      "#endif /* defined(defined) || defined(_9) || defined(LIB_IMPL) */\n" ∧
    operatorSample.closingLine.toList.dropInfix? Include.closer =
      some ("#endif /* defined(defined) || defined(_9) || defined(LIB_IMPL) ".toList, ['\n']) ∧
    macrosIn? operatorSample.implementationCondition = some ["defined", "_9", "LIB_IMPL"] ∧
    other.validate = .ok () ∧ other.closingLine = operatorSample.closingLine ∧
    other.macros = operatorSample.macros := by
  intro other
  have hvalid : operatorSample.validate = .ok () := rfl
  have hother : other.validate = .ok () := rfl
  have hclosing : other.closingLine = operatorSample.closingLine := rfl
  obtain ⟨-, -, hcloser, hmacros, hunique⟩ := guard_names_macros hvalid
  exact ⟨hvalid, by decide, hcloser, hmacros, hother, hclosing,
    hunique other hother (Or.inr hclosing)⟩

example :
    Manifest.implementationCondition { sample with macros := ["A) || defined(B"] } =
      Manifest.implementationCondition { sample with macros := ["A", "B"] } := by
  decide

end Manifest
end Amalgam
