import Amalgam.Text.Line

namespace Amalgam
namespace Text

/-!
# Lines as pieces of a text

The lines of a text are full lines, except that the last one may lack its line
feed.  Lists of this shape and texts are the same thing: joining the list and
cutting the text undo each other.  So a text that is empty or ends in a line
feed can be cut apart from whatever follows it.

A text that does end in the middle of a line is NOT cut apart from what
follows: its last line and the first line behind it are one line.
-/

/-- A line feed at the end and no other one. -/
def IsFullLine (line : String) : Prop :=
  ∃ body : List Char, '\n' ∉ body ∧ line.toList = body ++ ['\n']

/-- Full lines, and possibly a last line that lacks its line feed. -/
inductive AreLines : List String → Prop
  | nil : AreLines []
  | last {line : String} (hne : line ≠ "") (hbreak : '\n' ∉ line.toList) :
      AreLines [line]
  | cons {line : String} {rest : List String} (hfull : IsFullLine line)
      (hrest : AreLines rest) : AreLines (line :: rest)

/-- A text that does not end in the middle of a line. -/
def IsClosed (s : String) : Prop :=
  s = "" ∨ isTerminated s = true

instance (s : String) : Decidable (IsClosed s) :=
  inferInstanceAs (Decidable (_ ∨ _))

/-- The text with a line feed added when it ends in the middle of a line. -/
def close (s : String) : String :=
  if IsClosed s then s else s ++ "\n"

/-! ## The end of a text -/

theorem isTerminated_append (s t : String) :
    isTerminated (s ++ t) = if t = "" then isTerminated s else isTerminated t := by
  by_cases ht : t = ""
  · simp [ht]
  · have hchars : t.toList ≠ [] := by simpa using ht
    rw [if_neg ht, isTerminated, isTerminated, String.toList_append,
      List.getLast?_append, List.getLast?_eq_some_getLast hchars]
    rfl

theorem isTerminated_append_right (s : String) {t : String} (h : isTerminated t = true) :
    isTerminated (s ++ t) = true := by
  have hne : t ≠ "" := by
    rintro rfl
    contradiction
  rw [isTerminated_append, if_neg hne, h]

theorem isTerminated_append_break (s : String) : isTerminated (s ++ "\n") = true :=
  isTerminated_append_right s (by decide)

/-- A text keeps its line feed when a closed text follows. -/
theorem isTerminated_append_of_isClosed {s t : String} (hs : isTerminated s = true)
    (ht : IsClosed t) : isTerminated (s ++ t) = true := by
  rw [isTerminated_append]
  split
  · exact hs
  · exact ht.resolve_left ‹_›

theorem isClosed_append_break (s : String) : IsClosed (s ++ "\n") :=
  Or.inr (isTerminated_append_break s)

theorem IsFullLine.isTerminated {line : String} (h : IsFullLine line) :
    Text.isTerminated line = true := by
  obtain ⟨body, -, hline⟩ := h
  simp [Text.isTerminated, hline]

theorem IsFullLine.isClosed {line : String} (h : IsFullLine line) : IsClosed line :=
  Or.inr h.isTerminated

theorem isTerminated_eq_false_of_not_mem {line : String} (h : '\n' ∉ line.toList) :
    isTerminated line = false := by
  rw [isTerminated, beq_eq_false_iff_ne]
  intro hlast
  exact h (List.mem_of_getLast? hlast)

theorem isFullLine_append_break {line : String} (h : '\n' ∉ line.toList) :
    IsFullLine (line ++ "\n") :=
  ⟨line.toList, h, String.toList_append⟩

/-- A text within a line can stand in front of a full line. -/
theorem IsFullLine.append_left {s line : String} (h : IsFullLine line) (hs : '\n' ∉ s.toList) :
    IsFullLine (s ++ line) := by
  obtain ⟨body, hbody, hline⟩ := h
  refine ⟨s.toList ++ body, ?_, ?_⟩
  · rw [List.mem_append, not_or]
    exact ⟨hs, hbody⟩
  · rw [String.toList_append, hline, List.append_assoc]

theorem isFullLine_break : IsFullLine "\n" :=
  ⟨[], List.not_mem_nil, rfl⟩

theorem IsClosed.append {s t : String} (hs : IsClosed s) (ht : IsClosed t) :
    IsClosed (s ++ t) := by
  by_cases hempty : t = ""
  · simpa [hempty] using hs
  · exact Or.inr (by rw [isTerminated_append, if_neg hempty]; exact ht.resolve_left hempty)

theorem IsClosed.of_append {s t : String} (h : IsClosed (s ++ t)) : IsClosed t := by
  by_cases hempty : t = ""
  · exact Or.inl hempty
  · refine Or.inr ?_
    rcases h with h | h
    · exact absurd (String.append_eq_empty_iff.1 h).2 hempty
    · rwa [isTerminated_append, if_neg hempty] at h

theorem isClosed_join {texts : List String} (h : ∀ text ∈ texts, IsClosed text) :
    IsClosed (String.join texts) := by
  induction texts with
  | nil => exact Or.inl rfl
  | cons text texts ih =>
      obtain ⟨htext, htexts⟩ := List.forall_mem_cons.1 h
      rw [String.join_cons]
      exact htext.append (ih htexts)

theorem isTerminated_join {texts : List String} (hne : texts ≠ [])
    (h : ∀ text ∈ texts, isTerminated text = true) :
    isTerminated (String.join texts) = true := by
  cases texts with
  | nil => contradiction
  | cons text texts =>
      obtain ⟨htext, htexts⟩ := List.forall_mem_cons.1 h
      rw [String.join_cons]
      exact isTerminated_append_of_isClosed htext
        (isClosed_join fun other hother => Or.inr (htexts other hother))

theorem close_of_isClosed {s : String} (h : IsClosed s) : close s = s :=
  if_pos h

theorem close_append {s : String} (h : IsClosed s) (t : String) :
    close (s ++ t) = s ++ close t := by
  by_cases ht : IsClosed t
  · rw [close_of_isClosed ht, close_of_isClosed (h.append ht)]
  · have hst : ¬ IsClosed (s ++ t) := fun hclosed => ht hclosed.of_append
    rw [close, if_neg hst, close, if_neg ht, String.append_assoc]

theorem close_of_not_mem {line : String} (hne : line ≠ "") (h : '\n' ∉ line.toList) :
    close line = line ++ "\n" := by
  refine if_neg ?_
  rintro (hempty | hterminated)
  · exact hne hempty
  · rw [isTerminated_eq_false_of_not_mem h] at hterminated
    contradiction

/-! ## Cutting and joining -/

theorem cutLines_of_not_mem {cs : List Char} (hne : cs ≠ []) (h : '\n' ∉ cs) :
    cutLines cs = [cs] := by
  induction cs with
  | nil => contradiction
  | cons c cs ih =>
      obtain ⟨hc, hcs⟩ := not_or.1 (mt List.mem_cons.2 h)
      show consLine c (cutLines cs) = _
      cases cs with
      | nil => rfl
      | cons d ds =>
          rw [ih (by simp) hcs]
          exact if_neg (Ne.symm hc)

theorem cutLines_append_break {body : List Char} (h : '\n' ∉ body) (cs : List Char) :
    cutLines (body ++ '\n' :: cs) = (body ++ ['\n']) :: cutLines cs := by
  induction body with
  | nil =>
      show consLine '\n' (cutLines cs) = _
      cases cutLines cs <;> rfl
  | cons c body ih =>
      obtain ⟨hc, hbody⟩ := not_or.1 (mt List.mem_cons.2 h)
      show consLine c (cutLines (body ++ '\n' :: cs)) = _
      rw [ih hbody]
      exact if_neg (Ne.symm hc)

theorem linesOf_append_of_isFullLine {line : String} (h : IsFullLine line) (s : String) :
    linesOf (line ++ s) = line :: linesOf s := by
  obtain ⟨body, hbody, hline⟩ := h
  have hchars : (line ++ s).toList = body ++ '\n' :: s.toList := by
    rw [String.toList_append, hline, List.append_assoc, List.singleton_append]
  rw [linesOf, hchars, cutLines_append_break hbody, List.map_cons, ← hline,
    String.ofList_toList]
  rfl

/-- Joining lines and cutting the text gives the lines back. -/
theorem linesOf_join {lines : List String} (h : AreLines lines) :
    linesOf (String.join lines) = lines := by
  induction h with
  | nil => rfl
  | last hne hbreak =>
      rename_i line
      have hchars : line.toList ≠ [] := by simpa using hne
      rw [String.join_cons, String.join_nil, String.append_empty, linesOf,
        cutLines_of_not_mem hchars hbreak]
      simp
  | cons hfull hrest ih =>
      rw [String.join_cons, linesOf_append_of_isFullLine hfull, ih]

/-- Cutting a text and joining the lines gives the text back. -/
@[simp]
theorem join_linesOf (s : String) : String.join (linesOf s) = s := by
  apply String.toList_inj.1
  rw [String.toList_join, linesOf, List.flatMap_map]
  simp [List.flatMap_id']

theorem areLines_consLine (c : Char) {lines : List (List Char)}
    (h : AreLines (lines.map String.ofList)) :
    AreLines ((consLine c lines).map String.ofList) := by
  by_cases hc : c = '\n'
  · subst hc
    have hfull : IsFullLine (String.ofList ['\n']) := ⟨[], by simp, by simp⟩
    cases lines with
    | nil => exact .cons hfull .nil
    | cons line rest => exact .cons hfull h
  · cases lines with
    | nil => exact .last (by simp) (by simpa using Ne.symm hc)
    | cons line rest =>
        simp only [consLine, if_neg hc, List.map_cons]
        rw [List.map_cons] at h
        -- The case split on `AreLines` needs variables in place of the strings.
        generalize hrest : rest.map String.ofList = restTexts at h ⊢
        generalize hline : String.ofList line = lineText at h
        cases h with
        | last hne hbreak =>
            subst hline
            exact .last (by simp) (by simpa [Ne.symm hc] using hbreak)
        | cons hfull hareLines =>
            subst hline
            obtain ⟨body, hbody, heq⟩ := hfull
            refine .cons ⟨c :: body, ?_, ?_⟩ hareLines
            · simpa [Ne.symm hc] using hbody
            · simpa using heq

/-- The lines of a text are full, except possibly the last one. -/
theorem areLines_linesOf (s : String) : AreLines (linesOf s) := by
  rw [linesOf]
  induction s.toList with
  | nil => exact .nil
  | cons c cs ih => exact areLines_consLine c ih

theorem areLines_append {lines rest : List String}
    (hlines : ∀ line ∈ lines, IsFullLine line) (hrest : AreLines rest) :
    AreLines (lines ++ rest) := by
  induction lines with
  | nil => exact hrest
  | cons line lines ih =>
      obtain ⟨hline, hlines⟩ := List.forall_mem_cons.1 hlines
      exact .cons hline (ih hlines)

theorem areLines_of_forall_isFullLine {lines : List String}
    (h : ∀ line ∈ lines, IsFullLine line) : AreLines lines := by
  simpa using areLines_append h .nil

/-- No line of a closed text lacks its line feed. -/
theorem AreLines.isFullLine {lines : List String} (h : AreLines lines)
    (hclosed : IsClosed (String.join lines)) : ∀ line ∈ lines, IsFullLine line := by
  induction h with
  | nil => simp
  | last hne hbreak =>
      rename_i line
      rw [String.join_cons, String.join_nil, String.append_empty] at hclosed
      rcases hclosed with hempty | hterminated
      · contradiction
      · rw [isTerminated_eq_false_of_not_mem hbreak] at hterminated
        contradiction
  | cons hfull hrest ih =>
      rw [String.join_cons] at hclosed
      exact List.forall_mem_cons.2 ⟨hfull, ih hclosed.of_append⟩

theorem isFullLine_of_mem_linesOf {s : String} (h : IsClosed s) :
    ∀ line ∈ linesOf s, IsFullLine line :=
  (areLines_linesOf s).isFullLine (by rwa [join_linesOf])

/-- A closed text is cut apart from what follows it. -/
theorem linesOf_append {s : String} (h : IsClosed s) (t : String) :
    linesOf (s ++ t) = linesOf s ++ linesOf t := by
  -- The lines of `s` are full, so the lines of both texts are lines together.
  have hlines := areLines_append (isFullLine_of_mem_linesOf h) (areLines_linesOf t)
  have hcut := linesOf_join hlines
  rwa [String.join_append, join_linesOf, join_linesOf] at hcut

theorem linesOf_of_isFullLine {line : String} (h : IsFullLine line) :
    linesOf line = [line] := by
  simpa using linesOf_join (.cons h .nil)

/-- A line feed behind a text is an empty line exactly when it does not end a line of
the text. -/
theorem getLast?_linesOf_append_break {s : String} :
    (linesOf (s ++ "\n")).getLast? = some "\n" ↔ IsClosed s := by
  constructor
  · intro hlast
    obtain ⟨front, hfront⟩ := List.getLast?_eq_some_iff.1 hlast
    -- The lines in front of the empty one make up the text, and they are full.
    have hjoin : s ++ "\n" = String.join front ++ "\n" := by
      rw [← join_linesOf (s ++ "\n"), hfront, String.join_append, String.join_cons,
        String.join_nil, String.append_empty]
    rw [String.append_left_inj] at hjoin
    rw [hjoin]
    refine isClosed_join fun line hline => ?_
    have hmem : line ∈ linesOf (s ++ "\n") := by
      rw [hfront]
      exact List.mem_append_left _ hline
    exact (isFullLine_of_mem_linesOf (isClosed_append_break s) line hmem).isClosed
  · intro hclosed
    have hbreak : linesOf "\n" = ["\n"] := linesOf_of_isFullLine isFullLine_break
    rw [linesOf_append hclosed, hbreak, List.getLast?_concat]

/-- Closing a text closes its last line and no other. -/
theorem close_join {lines : List String} (h : AreLines lines) :
    close (String.join lines) = String.join (lines.map close) := by
  induction h with
  | nil => rfl
  | last hne hbreak => simp
  | cons hfull hrest ih =>
      rw [String.join_cons, close_append hfull.isClosed, ih, List.map_cons,
        String.join_cons, close_of_isClosed hfull.isClosed]

theorem AreLines.isFullLine_close {lines : List String} (h : AreLines lines) :
    ∀ line ∈ lines, IsFullLine (close line) := by
  induction h with
  | nil => simp
  | last hne hbreak =>
      rename_i line
      rw [List.forall_mem_singleton, close_of_not_mem hne hbreak]
      exact isFullLine_append_break hbreak
  | cons hfull hrest ih =>
      rw [List.forall_mem_cons, close_of_isClosed hfull.isClosed]
      exact ⟨hfull, ih⟩

/-- A line has no line feed before its end. -/
theorem AreLines.exists_body {lines : List String} (h : AreLines lines) :
    ∀ line ∈ lines, ∃ body : List Char, '\n' ∉ body ∧
      (line.toList = body ∨ line.toList = body ++ ['\n']) := by
  induction h with
  | nil => simp
  | last hne hbreak => exact List.forall_mem_singleton.2 ⟨_, hbreak, Or.inl rfl⟩
  | cons hfull hrest ih =>
      obtain ⟨body, hbody, hline⟩ := hfull
      exact List.forall_mem_cons.2 ⟨⟨body, hbody, Or.inr hline⟩, ih⟩

/-- Lines stay lines when each of them is kept or replaced by a full line. -/
theorem AreLines.map {lines : List String} {f : String → String} (h : AreLines lines)
    (hf : ∀ line ∈ lines, IsFullLine (f line) ∨ f line = line) :
    AreLines (lines.map f) := by
  induction h with
  | nil => exact .nil
  | last hne hbreak =>
      rw [List.map_singleton]
      rcases List.forall_mem_singleton.1 hf with hfull | hkept
      · exact .cons hfull .nil
      · rw [hkept]
        exact .last hne hbreak
  | cons hfull hrest ih =>
      obtain ⟨hline, hlines⟩ := List.forall_mem_cons.1 hf
      rw [List.map_cons]
      refine .cons ?_ (ih hlines)
      rcases hline with hreplaced | hkept
      · exact hreplaced
      · rwa [hkept]

end Text
end Amalgam
