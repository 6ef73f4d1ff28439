import Amalgam.Proofs.Include.Relocation

namespace Amalgam

/-!
# Carriage returns before line feeds

A text can be given a carriage return before each of its line feeds.  Its lines stay
the same up to their terminators, and a terminator with a carriage return is as blank as
one without.  So nothing that looks at trimmed lines can tell the two texts apart: a line
is a local include of the same name, and the comment that takes its place is the same.

A carriage return that is there already is NOT looked at; its line feed gets another one.
-/

namespace Text

/-- A character, with a carriage return before it if it is a line feed. -/
def withReturn (c : Char) : List Char :=
  if c = '\n' then ['\r', '\n'] else [c]

/-- The text with a carriage return before every line feed. -/
def withReturns (s : String) : String :=
  String.ofList (s.toList.flatMap withReturn)

theorem toList_withReturns (s : String) :
    (withReturns s).toList = s.toList.flatMap withReturn :=
  String.toList_ofList

@[simp]
theorem withReturns_append (s t : String) :
    withReturns (s ++ t) = withReturns s ++ withReturns t := by
  rw [withReturns, String.toList_append, List.flatMap_append, String.ofList_append]
  rfl

theorem withReturns_join (texts : List String) :
    withReturns (String.join texts) = String.join (texts.map withReturns) := by
  induction texts with
  | nil => rfl
  | cons text texts ih =>
      rw [String.join_cons, withReturns_append, ih, List.map_cons, String.join_cons]

theorem flatMap_withReturn_of_not_mem {cs : List Char} (h : '\n' ∉ cs) :
    cs.flatMap withReturn = cs := by
  induction cs with
  | nil => rfl
  | cons c cs ih =>
      obtain ⟨hc, hcs⟩ := not_or.1 (mt List.mem_cons.2 h)
      rw [List.flatMap_cons, ih hcs, withReturn, if_neg (Ne.symm hc), List.singleton_append]

/-- A text within a line has no line feed to change. -/
theorem withReturns_of_not_mem {s : String} (h : '\n' ∉ s.toList) : withReturns s = s := by
  rw [withReturns, flatMap_withReturn_of_not_mem h, String.ofList_toList]

theorem countBreaks_withReturns (s : String) : countBreaks (withReturns s) = countBreaks s := by
  rw [countBreaks, countBreaks, toList_withReturns]
  induction s.toList with
  | nil => rfl
  | cons c cs ih =>
      have hpair : ['\r', '\n'].count '\n' = 1 := by decide
      rw [List.flatMap_cons, List.count_append, ih, withReturn, List.count_cons, Nat.add_comm]
      by_cases hc : c = '\n'
      · rw [if_pos hc, hpair, if_pos (beq_iff_eq.2 hc)]
      · rw [if_neg hc, List.count_singleton]

theorem isBlank_of_mem_return_break : ∀ c ∈ ['\r', '\n'], isBlank c = true := by
  rw [List.forall_mem_cons, List.forall_mem_singleton]
  decide

/-! ## Lines -/

section Line

variable {line : String} {body : List Char} (hbody : '\n' ∉ body)
  (hline : line.toList = body ∨ line.toList = body ++ ['\n'])
include hbody hline

/-- A line keeps what stands before its terminator, and gains a carriage return there if
it has one. -/
theorem toList_withReturns_of_line :
    (line.toList = body ∧ withReturns line = line) ∨
      (line.toList = body ++ ['\n'] ∧ (withReturns line).toList = body ++ ['\r', '\n']) := by
  rcases hline with hopen | hfull
  · exact Or.inl ⟨hopen, withReturns_of_not_mem (hopen ▸ hbody)⟩
  · refine Or.inr ⟨hfull, ?_⟩
    rw [toList_withReturns, hfull, List.flatMap_append, flatMap_withReturn_of_not_mem hbody]
    rfl

theorem withReturns_cases :
    ('\n' ∉ line.toList ∧ withReturns line = line) ∨
      ∃ front : String, '\n' ∉ front.toList ∧ line = front ++ "\n" ∧
        withReturns line = front ++ "\r\n" := by
  rcases toList_withReturns_of_line hbody hline with ⟨hopen, hsame⟩ | ⟨hfull, hreturn⟩
  · exact Or.inl ⟨hopen ▸ hbody, hsame⟩
  · refine Or.inr ⟨String.ofList body, by rwa [String.toList_ofList], ?_, ?_⟩
    · rw [← String.toList_inj, hfull, String.toList_append, String.toList_ofList]
      rfl
    · rw [← String.toList_inj, hreturn, String.toList_append, String.toList_ofList]
      rfl

theorem trimEnd_withReturns :
    trimEnd (withReturns line).toList = trimEnd line.toList := by
  rcases toList_withReturns_of_line hbody hline with ⟨-, hsame⟩ | ⟨hfull, hreturn⟩
  · rw [hsame]
  · rw [hfull, hreturn, trimEnd_append isBlank_of_mem_return_break,
      trimEnd_append isBlank_of_mem_break]

theorem trim_withReturns :
    trim (withReturns line).toList = trim line.toList := by
  rw [← trim_trimEnd, trimEnd_withReturns hbody hline, trim_trimEnd]

theorem isTerminated_withReturns :
    isTerminated (withReturns line) = isTerminated line := by
  rcases toList_withReturns_of_line hbody hline with ⟨-, hsame⟩ | ⟨hfull, hreturn⟩
  · rw [hsame]
  · rw [isTerminated, isTerminated, hfull, hreturn]
    simp

end Line

/-- The lines of the text with carriage returns are the lines of the text, each with its
own. -/
theorem linesOf_withReturns (s : String) :
    linesOf (withReturns s) = (linesOf s).map withReturns := by
  have hlines := areLines_linesOf s
  have hmap : AreLines ((linesOf s).map withReturns) := by
    refine hlines.map fun line hline => ?_
    obtain ⟨body, hbody, hchars⟩ := hlines.exists_body line hline
    rcases toList_withReturns_of_line hbody hchars with ⟨-, hsame⟩ | ⟨-, hreturn⟩
    · exact Or.inr hsame
    · refine Or.inl ⟨body ++ ['\r'], ?_, ?_⟩
      · simpa using hbody
      · rw [hreturn, List.append_assoc]
        rfl
  rw [← linesOf_join hmap, ← withReturns_join, join_linesOf]

end Text

/-! ## Local includes -/

namespace Include

variable {stem line : String} {body : List Char} (hbody : '\n' ∉ body)
  (hline : line.toList = body ∨ line.toList = body ++ ['\n'])
include hbody hline

theorem name?_withReturns :
    name? stem (Text.withReturns line) = name? stem line :=
  name?_congr (Text.trim_withReturns hbody hline)

theorem isLocal_withReturns :
    isLocal stem (Text.withReturns line) = isLocal stem line :=
  isLocal_congr (Text.trim_withReturns hbody hline)

/-- The comment around a line does not tell how the line ended. -/
theorem commentOut_withReturns :
    commentOut (Text.withReturns line) = commentOut line := by
  rw [commentOut, commentOut, Text.trimEnd_withReturns hbody hline]

end Include
end Amalgam
