import Amalgam.Proofs.Include.Relocation

namespace Amalgam
namespace Include

/-!
# The comment around a local include

Commenting out keeps the directive: between the delimiters stands the line without
its trailing blanks, and that is still a local include of the same name.  The
comment itself is not a local include, so relocating a second time changes nothing.

The text of the directive is NOT looked at.  A line that ends a comment of its own
also ends the comment around it, too early.
-/

variable {stem line : String}

/-! ## Where a block comment ends -/

/-- The two characters that end a block comment. -/
def closer : List Char :=
  ['*', '/']

/-- One block comment and a line feed: behind the first closer there is nothing but
the line feed. -/
def IsBlockComment (text : String) : Prop :=
  ∃ body inside : List Char,
    text.toList = ['/', '*'] ++ body ∧ body.dropInfix? closer = some (inside, ['\n'])

/-- A closer is the first one exactly when there is none in front of it. -/
theorem dropInfix?_append_closer_iff (inside rest : List Char) :
    (inside ++ closer ++ rest).dropInfix? closer = some (inside, rest) ↔
      ¬ closer <:+: inside := by
  rw [List.dropInfix?_eq_some_iff]
  constructor
  · rintro ⟨-, hfirst⟩ ⟨before, after, hinside⟩
    have hsplit : inside ++ closer ++ rest = before ++ closer ++ (after ++ closer ++ rest) := by
      rw [← hinside]
      simp only [List.append_assoc]
    have hshorter := hfirst before closer _ hsplit (beq_self_eq_true closer)
    rw [← hinside] at hshorter
    simp only [List.length_append, closer, List.length_cons, List.length_nil] at hshorter
    omega
  · intro hnone
    refine ⟨⟨closer, rfl, beq_self_eq_true closer⟩, fun before found after hsplit hfound => ?_⟩
    obtain rfl := eq_of_beq hfound
    by_contra hshort
    -- An earlier closer begins inside, so all of it but its last character is there.
    have hbefore : before ++ closer <+: inside ++ closer ++ rest := ⟨after, hsplit.symm⟩
    have hinside : inside ++ ['*'] <+: inside ++ closer ++ rest :=
      ⟨'/' :: rest, by simp [closer]⟩
    have hlength : (before ++ closer).length ≤ (inside ++ ['*']).length := by
      simp only [List.length_append, closer, List.length_cons, List.length_nil]
      omega
    have hprefix := List.prefix_of_prefix_length_le hbefore hinside hlength
    have hinfix : closer <:+: inside ++ ['*'] :=
      (List.suffix_append before closer).isInfix.trans hprefix.isInfix
    rcases List.infix_concat_iff.1 hinfix with hsuffix | hinner
    · obtain ⟨front, hfront⟩ := hsuffix
      have hlast := congrArg List.getLast? hfront
      simp [closer] at hlast
    · exact hnone hinner

/-- A text that is put between the delimiters of a comment makes one comment unless it
holds a closer. -/
theorem isBlockComment_iff {text : String} {inside : List Char}
    (h : text.toList = ['/', '*'] ++ (inside ++ closer ++ ['\n'])) :
    IsBlockComment text ↔ ¬ closer <:+: inside := by
  rw [← dropInfix?_append_closer_iff inside ['\n'], IsBlockComment, h]
  constructor
  · rintro ⟨body, first, hbody, hfirst⟩
    rw [List.append_cancel_left_eq] at hbody
    subst hbody
    obtain ⟨⟨found, hsplit, hfound⟩, -⟩ := List.dropInfix?_eq_some_iff.1 hfirst
    obtain rfl := eq_of_beq hfound
    rw [List.append_cancel_right_eq, List.append_cancel_right_eq] at hsplit
    rw [← hsplit] at hfirst
    exact hfirst
  · exact fun hfirst => ⟨_, _, rfl, hfirst⟩

/-- A closer does not reach into a text that has no slash. -/
theorem closer_infix_append_iff {cs tail : List Char} (h : '/' ∉ tail) :
    closer <:+: cs ++ tail ↔ closer <:+: cs := by
  constructor
  · intro hinfix
    rcases List.infix_append_iff.1 hinfix with hleft | hright | ⟨front, back, hsplit, hcs, htail⟩
    · exact hleft
    · exact absurd (hright.mem (by decide)) h
    · rcases List.eq_nil_or_concat back with rfl | ⟨most, last, rfl⟩
      · rw [List.append_nil] at hsplit
        rw [hsplit]
        exact hcs.isInfix
      · have hlast := congrArg List.getLast? hsplit
        have hslash : last = '/' := by simpa [closer] using hlast.symm
        exact absurd (htail.mem (by simp [hslash])) h
  · exact fun hcs => hcs.trans (List.prefix_append cs tail).isInfix

theorem closer_infix_cons_space_iff {cs : List Char} :
    closer <:+: ' ' :: cs ↔ closer <:+: cs := by
  rw [List.infix_cons_iff]
  refine or_iff_right fun hprefix => ?_
  obtain ⟨rest, hrest⟩ := hprefix
  simp [closer] at hrest

theorem closer_infix_trimEnd_iff {cs : List Char} :
    closer <:+: Text.trimEnd cs ↔ closer <:+: cs := by
  obtain ⟨tail, hcs, htail⟩ := Text.exists_trimEnd_append cs
  have hslash : '/' ∉ tail := fun hmem => absurd (htail _ hmem) (by decide)
  conv_rhs => rw [hcs, closer_infix_append_iff hslash]

/-! ## The comment that replaces a line -/

theorem toList_commentOut (line : String) :
    (commentOut line).toList =
      ['/', '*'] ++ ((' ' :: Text.trimEnd line.toList ++ [' ']) ++ closer ++ ['\n']) := by
  have hstart : "/* ".toList = ['/', '*', ' '] := by decide
  have hend : " */\n".toList = ' ' :: closer ++ ['\n'] := by decide
  rw [commentOut, String.toList_append, String.toList_append, hstart, hend,
    String.toList_ofList]
  simp

/-- The comment ends where it should unless the line ends a comment of its own. -/
theorem isBlockComment_commentOut_iff :
    IsBlockComment (commentOut line) ↔ ¬ closer <:+: line.toList := by
  rw [isBlockComment_iff (toList_commentOut line), closer_infix_append_iff (by decide),
    closer_infix_cons_space_iff, closer_infix_trimEnd_iff]

theorem relocate_relocate (stem line : String) :
    relocate stem (relocate stem line) = relocate stem line :=
  relocate_of_not_isLocal (isLocal_relocate stem line)

/-- A line whose only line feed may be its last character. -/
theorem exists_body_of_dropLast (h : '\n' ∉ line.toList.dropLast) :
    ∃ body : List Char, '\n' ∉ body ∧
      (line.toList = body ∨ line.toList = body ++ ['\n']) := by
  rcases List.eq_nil_or_concat' line.toList with hempty | ⟨body, last, hline⟩
  · exact ⟨[], by simp, Or.inl hempty⟩
  · rw [hline, List.dropLast_concat] at h
    by_cases hlast : last = '\n'
    · exact ⟨body, h, Or.inr (by rw [hline, hlast])⟩
    · refine ⟨body ++ [last], ?_, Or.inl hline⟩
      rw [List.mem_append, List.mem_singleton]
      exact not_or.2 ⟨h, Ne.symm hlast⟩

/-- Relocation leaves no local include, so it is done after one pass.  What it makes of
a local include is one full line, from which the directive can be read back, and this
line is one block comment exactly when the directive holds no closer. -/
theorem relocate_sound_and_reversible (stem : String)
    (h : '\n' ∉ line.toList.dropLast) :
    isLocal stem (relocate stem line) = false ∧
    relocate stem (relocate stem line) = relocate stem line ∧
    (isLocal stem line = true →
      Text.IsFullLine (relocate stem line) ∧
      (∃ directive blanks : String,
        relocate stem line = "/* " ++ directive ++ " */\n" ∧
        line = directive ++ blanks ∧
        (∀ c ∈ blanks.toList, Text.isBlank c = true) ∧
        (∀ c ∈ directive.toList.getLast?, Text.isBlank c = false) ∧
        isLocal stem directive = true ∧
        name? stem directive = name? stem line) ∧
      (IsBlockComment (relocate stem line) ↔ ¬ closer <:+: line.toList)) := by
  refine ⟨isLocal_relocate stem line, relocate_relocate stem line, fun hlocal => ?_⟩
  obtain ⟨body, hbody, hline⟩ := exists_body_of_dropLast h
  obtain ⟨tail, htail, hblank⟩ := Text.exists_trimEnd_append line.toList
  rw [relocate_of_isLocal hlocal]
  refine ⟨isFullLine_commentOut hbody hline,
    ⟨String.ofList (Text.trimEnd line.toList), String.ofList tail, rfl, ?_, ?_, ?_, ?_, ?_⟩,
    isBlockComment_commentOut_iff⟩
  · rw [← String.ofList_append, ← htail, String.ofList_toList]
  · rw [String.toList_ofList]
    exact hblank
  · rw [String.toList_ofList]
    exact Text.isBlank_getLast?_trimEnd line.toList
  · rw [isLocal_trimEnd, hlocal]
  · exact name?_trimEnd stem line

/-- The directive has a comment of its own behind it, which closes the comment too early. -/
theorem relocate_sound_and_reversible_trailing_comment :
    let line := " #include \"lgc.h\" /* gc */\t\r\n"
    '\n' ∉ line.toList.dropLast ∧ isLocal "l" line = true ∧
    relocate "l" line = "/*  #include \"lgc.h\" /* gc */ */\n" ∧
    Text.IsFullLine (relocate "l" line) ∧
    closer <:+: line.toList ∧ ¬ IsBlockComment (relocate "l" line) := by
  intro line
  have hbreak : '\n' ∉ line.toList.dropLast := by decide
  have hlocal : isLocal "l" line = true := by decide
  have hcloser : closer <:+: line.toList :=
    ⟨" #include \"lgc.h\" /* gc ".toList, "\t\r\n".toList, by decide⟩
  obtain ⟨-, -, hcomment⟩ := relocate_sound_and_reversible "l" hbreak
  obtain ⟨hfull, -, hblock⟩ := hcomment hlocal
  exact ⟨hbreak, hlocal, by decide, hfull, hcloser, fun hcomplete => hblock.1 hcomplete hcloser⟩

end Include
end Amalgam
