import Amalgam.Text.Blank
import Mathlib.Data.List.DropRight

namespace Amalgam
namespace Text

/-!
# Trimming

Blank characters at the end of a text are invisible to trimming: adding them or
taking them away leaves the trimmed text as it is.  What is left after trimming
is a piece of the text, so it holds no character that the text does not hold.
-/

theorem trimEnd_prefix_self (cs : List Char) : trimEnd cs <+: cs :=
  List.rdropWhile_prefix isBlank cs

theorem trimEnd_append {tail : List Char} (h : ∀ c ∈ tail, isBlank c = true)
    (cs : List Char) : trimEnd (cs ++ tail) = trimEnd cs := by
  have hreverse : ∀ c ∈ tail.reverse, isBlank c = true := by simpa using h
  rw [trimEnd, List.reverse_append, List.dropWhile_append_of_pos hreverse, trimEnd]

theorem trim_append {tail : List Char} (h : ∀ c ∈ tail, isBlank c = true)
    (cs : List Char) : trim (cs ++ tail) = trim cs := by
  unfold trim trimStart
  rw [List.dropWhile_append]
  by_cases hcs : cs.dropWhile isBlank = []
  · have htail : tail.dropWhile isBlank = [] := List.dropWhile_eq_nil_iff.2 h
    simp [hcs, htail]
  · rw [if_neg (by simpa using hcs), trimEnd_append h]

@[simp]
theorem trim_trimEnd (cs : List Char) : trim (trimEnd cs) = trim cs := by
  obtain ⟨tail, hcs, htail⟩ := exists_trimEnd_append cs
  conv_rhs => rw [hcs, trim_append htail]

theorem trim_prefix_trimStart (cs : List Char) : trim cs <+: trimStart cs :=
  trimEnd_prefix_self (trimStart cs)

theorem mem_of_mem_trim {c : Char} {cs : List Char} (h : c ∈ trim cs) : c ∈ cs :=
  (List.dropWhile_suffix isBlank).mem ((trim_prefix_trimStart cs).mem h)

theorem trimStart_of_not_isBlank {c : Char} (h : isBlank c = false) (cs : List Char) :
    trimStart (c :: cs) = c :: cs := by
  simp [trimStart, h]

theorem isBlank_of_mem_break : ∀ c ∈ ['\n'], isBlank c = true := by
  rw [List.forall_mem_singleton]
  decide

/-- The terminator of a line is blank, so a trimmed line has no line feed. -/
theorem break_not_mem_trimEnd {cs body : List Char} (hbody : '\n' ∉ body)
    (h : cs = body ∨ cs = body ++ ['\n']) : '\n' ∉ trimEnd cs := by
  have htrim : trimEnd cs = trimEnd body := by
    rcases h with rfl | rfl
    · rfl
    · exact trimEnd_append isBlank_of_mem_break body
  rw [htrim]
  exact fun hmem => hbody ((trimEnd_prefix_self body).mem hmem)

theorem break_not_mem_trim {cs body : List Char} (hbody : '\n' ∉ body)
    (h : cs = body ∨ cs = body ++ ['\n']) : '\n' ∉ trim cs := by
  rw [← trim_trimEnd]
  exact fun hmem => break_not_mem_trimEnd hbody h (mem_of_mem_trim hmem)

/-! ## What trimming leaves -/

theorem trimStart_append {lead : List Char} (h : ∀ c ∈ lead, isBlank c = true)
    (cs : List Char) : trimStart (lead ++ cs) = trimStart cs :=
  List.dropWhile_append_of_pos h

/-- A text that begins with a visible character has nothing to lose at its start. -/
theorem trimStart_eq_self {cs : List Char} (h : ∀ c ∈ cs.head?, isBlank c = false) :
    trimStart cs = cs := by
  cases cs with
  | nil => rfl
  | cons c cs => exact trimStart_of_not_isBlank (h c rfl) cs

theorem isBlank_head?_trimStart (cs : List Char) :
    ∀ c ∈ (trimStart cs).head?, isBlank c = false := by
  intro c hc
  have hhead := List.head?_dropWhile_not isBlank cs
  rw [trimStart, Option.mem_def] at hc
  rwa [hc] at hhead

theorem isBlank_getLast?_trimEnd (cs : List Char) :
    ∀ c ∈ (trimEnd cs).getLast?, isBlank c = false := by
  rw [trimEnd, List.getLast?_reverse]
  exact isBlank_head?_trimStart cs.reverse

/-- A text that ends in a visible character has nothing to lose at its end. -/
theorem trimEnd_eq_self {cs : List Char} (h : ∀ c ∈ cs.getLast?, isBlank c = false) :
    trimEnd cs = cs := by
  rw [← List.head?_reverse] at h
  have hreverse : cs.reverse.dropWhile isBlank = cs.reverse := trimStart_eq_self h
  rw [trimEnd, hreverse, List.reverse_reverse]

/-- `core` is what stands between the blank characters at the two ends of `cs`. -/
structure IsTrimmed (cs core : List Char) : Prop where
  exists_blanks : ∃ lead tail : List Char, cs = lead ++ core ++ tail ∧
    (∀ c ∈ lead, isBlank c = true) ∧ ∀ c ∈ tail, isBlank c = true
  head_visible : ∀ c ∈ core.head?, isBlank c = false
  last_visible : ∀ c ∈ core.getLast?, isBlank c = false

theorem isTrimmed_trim (cs : List Char) : IsTrimmed cs (trim cs) where
  exists_blanks := by
    obtain ⟨tail, htail, hblank⟩ := exists_trimEnd_append (trimStart cs)
    refine ⟨cs.takeWhile isBlank, tail, ?_, ?_, hblank⟩
    · rw [List.append_assoc, trim, ← htail, trimStart, List.takeWhile_append_dropWhile]
    · exact fun c hc => List.mem_takeWhile_imp hc
  head_visible c hc := by
    obtain ⟨tail, htail⟩ := trim_prefix_trimStart cs
    apply isBlank_head?_trimStart cs
    rw [Option.mem_def] at hc
    rw [← htail, List.head?_append, hc]
    rfl
  last_visible := isBlank_getLast?_trimEnd (trimStart cs)

/-- Trimming is determined by what it leaves. -/
theorem trim_eq_iff_isTrimmed {cs core : List Char} : trim cs = core ↔ IsTrimmed cs core := by
  constructor
  · rintro rfl
    exact isTrimmed_trim cs
  · rintro ⟨⟨lead, tail, rfl, hlead, htail⟩, hhead, hlast⟩
    rw [trim_append htail, trim, trimStart_append hlead, trimStart_eq_self hhead,
      trimEnd_eq_self hlast]

end Text
end Amalgam
