import Amalgam.Include
import Amalgam.Proofs.Text.Lines
import Amalgam.Proofs.Text.Trim

namespace Amalgam
namespace Include

/-!
# Relocated lines

A local include is recognised by what is left of a line after trimming, so its
terminator and its trailing blanks do not matter.  The comment that takes the
place of a local include is one full line and is not a local include; every
other line stays as it is.  Relocation therefore keeps the lines of a file apart
and leaves no local include behind.
-/

variable {stem line : String}

/-- The exact form of a local include, and the name that it includes. -/
theorem name?_eq_some_iff {name : String} :
    name? stem line = some name ↔
      ∃ rest : List Char,
        Text.trim line.toList = opening.toList ++ stem.toList ++ rest ∧
          name.toList = stem.toList ++ rest.takeWhile (· != '"') := by
  rw [name?, Option.map_eq_some_iff]
  simp only [capture?, Option.map_eq_some_iff, afterLead?_eq_some_iff]
  constructor
  · rintro ⟨chars, ⟨rest, htrim, rfl⟩, rfl⟩
    exact ⟨rest, htrim, String.toList_ofList⟩
  · rintro ⟨rest, htrim, hname⟩
    exact ⟨name.toList, ⟨rest, htrim, hname.symm⟩, String.ofList_toList⟩

theorem isLocal_iff_opening :
    isLocal stem line = true ↔
      opening.toList ++ stem.toList <+: Text.trim line.toList := by
  rw [isLocal, Option.isSome_iff_exists]
  constructor
  · rintro ⟨name, hname⟩
    obtain ⟨rest, htrim, -⟩ := name?_eq_some_iff.1 hname
    exact ⟨rest, htrim.symm⟩
  · rintro ⟨rest, htrim⟩
    exact ⟨String.ofList (stem.toList ++ rest.takeWhile (· != '"')),
      name?_eq_some_iff.2 ⟨rest, htrim.symm, String.toList_ofList⟩⟩

/-! ## What trimming hides -/

theorem name?_congr {other : String}
    (h : Text.trim line.toList = Text.trim other.toList) :
    name? stem line = name? stem other := by
  rw [name?, name?, capture?, capture?, h]

theorem isLocal_congr {other : String}
    (h : Text.trim line.toList = Text.trim other.toList) :
    isLocal stem line = isLocal stem other := by
  rw [isLocal, isLocal, name?_congr h]

theorem isLocal_append_break (stem line : String) :
    isLocal stem (line ++ "\n") = isLocal stem line := by
  apply isLocal_congr
  rw [String.toList_append]
  exact Text.trim_append Text.isBlank_of_mem_break line.toList

theorem isLocal_close (stem line : String) :
    isLocal stem (Text.close line) = isLocal stem line := by
  unfold Text.close
  split
  · rfl
  · exact isLocal_append_break stem line

theorem name?_trimEnd (stem line : String) :
    name? stem (String.ofList (Text.trimEnd line.toList)) = name? stem line := by
  apply name?_congr
  rw [String.toList_ofList, Text.trim_trimEnd]

theorem isLocal_trimEnd (stem line : String) :
    isLocal stem (String.ofList (Text.trimEnd line.toList)) = isLocal stem line := by
  rw [isLocal, isLocal, name?_trimEnd]

/-! ## Lines that are not local includes -/

/-- A text that begins with a visible character is a local include only if it
begins with the directive itself. -/
theorem isLocal_eq_false_of_not_prefix {c : Char} {cs : List Char}
    (hline : line.toList = c :: cs) (hvisible : Text.isBlank c = false)
    (hleads : ¬ opening.toList <+: c :: cs) : isLocal stem line = false := by
  rw [Bool.eq_false_iff]
  intro hlocal
  have hopening : opening.toList <+: Text.trim line.toList :=
    (List.prefix_append _ _).trans (isLocal_iff_opening.1 hlocal)
  have htrim := hopening.trans (Text.trim_prefix_trimStart line.toList)
  rw [hline, Text.trimStart_of_not_isBlank hvisible] at htrim
  exact hleads htrim

/-- An empty line is not a local include. -/
theorem isLocal_break (stem : String) : isLocal stem "\n" = false := by
  rw [Bool.eq_false_iff]
  intro hlocal
  have hopening := isLocal_iff_opening.1 hlocal
  have htrim : Text.trim "\n".toList = [] := by decide
  rw [htrim, List.prefix_nil, List.append_eq_nil_iff] at hopening
  exact absurd hopening.1 (by decide)

/-- No comment is a local include. -/
theorem isLocal_comment (stem text : String) : isLocal stem ("/* " ++ text) = false := by
  have hline : ("/* " ++ text).toList = '/' :: '*' :: ' ' :: text.toList := by
    rw [String.toList_append]
    rfl
  exact isLocal_eq_false_of_not_prefix hline (by decide) (by simp [opening])

theorem isLocal_commentOut (stem line : String) :
    isLocal stem (commentOut line) = false := by
  rw [commentOut, String.append_assoc]
  exact isLocal_comment stem _

/-- Relocation leaves no local include behind. -/
theorem isLocal_relocate (stem line : String) :
    isLocal stem (relocate stem line) = false := by
  cases hlocal : isLocal stem line with
  | true => rw [relocate_of_isLocal hlocal, isLocal_commentOut]
  | false => rw [relocate_of_not_isLocal hlocal, hlocal]

/-! ## Relocation and the ends of lines -/

theorem commentOut_eq_append_break (line : String) :
    commentOut line =
      ("/* " ++ String.ofList (Text.trimEnd line.toList) ++ " */") ++ "\n" := by
  have hend : " */\n" = " */" ++ "\n" := by decide
  rw [commentOut, hend, ← String.append_assoc]

theorem isClosed_commentOut (line : String) : Text.IsClosed (commentOut line) := by
  rw [commentOut_eq_append_break]
  exact Text.isClosed_append_break _

theorem isFullLine_commentOut {body : List Char} (hbody : '\n' ∉ body)
    (hline : line.toList = body ∨ line.toList = body ++ ['\n']) :
    Text.IsFullLine (commentOut line) := by
  have htrim := Text.break_not_mem_trimEnd hbody hline
  rw [commentOut_eq_append_break]
  apply Text.isFullLine_append_break
  simpa [String.toList_append] using htrim

theorem areLines_map_relocate {lines : List String} (h : Text.AreLines lines)
    (stem : String) : Text.AreLines (lines.map (relocate stem)) := by
  refine h.map fun line hline => ?_
  obtain ⟨body, hbody, hchars⟩ := h.exists_body line hline
  cases hlocal : isLocal stem line with
  | true =>
      rw [relocate_of_isLocal hlocal]
      exact Or.inl (isFullLine_commentOut hbody hchars)
  | false => exact Or.inr (relocate_of_not_isLocal hlocal)

/-- The name in a line holds no line feed, whatever the stem is. -/
theorem break_not_mem_of_name? {name : String} {body : List Char} (hbody : '\n' ∉ body)
    (hline : line.toList = body ∨ line.toList = body ++ ['\n'])
    (hname : name? stem line = some name) : '\n' ∉ name.toList := by
  obtain ⟨rest, htrim, hchars⟩ := name?_eq_some_iff.1 hname
  have hbreak := Text.break_not_mem_trim hbody hline
  rw [htrim] at hbreak
  rw [hchars]
  intro hmem
  apply hbreak
  rcases List.mem_append.1 hmem with hstem | hrest
  · exact List.mem_append_left _ (List.mem_append_right _ hstem)
  · exact List.mem_append_right _ ((List.takeWhile_prefix _).mem hrest)

end Include
end Amalgam
