import Amalgam.Proofs.Include.Relocation

namespace Amalgam
namespace Include

/-!
# The grammar of a local include

Between blank characters a local include reads: the opening, the name, and then
nothing or a text that starts with a quote.  The name is the stem and a text
without quotes.  The recogniser accepts the lines that can be read in this way
and no others, and it finds the name.

The stem is any text.  It may hold quotes itself, because only what follows it
in the name is free of them.
-/

variable {stem line name : String}

/-- The line reads as a local include of the name. -/
def IsDirectiveFor (stem line name : String) : Prop :=
  ∃ core rest behind : List Char,
    Text.IsTrimmed line.toList core ∧
      core = opening.toList ++ name.toList ++ behind ∧
      name.toList = stem.toList ++ rest ∧ '"' ∉ rest ∧
      (behind = [] ∨ behind.head? = some '"')

/-! ## Up to the next quote -/

/-- A text is cut at its first quote, or not at all if it has none. -/
theorem takeWhile_ne_quote_eq_iff {cs rest : List Char} :
    cs.takeWhile (· != '"') = rest ↔
      '"' ∉ rest ∧ ∃ behind, cs = rest ++ behind ∧
        (behind = [] ∨ behind.head? = some '"') := by
  constructor
  · rintro rfl
    refine ⟨fun hmem => ?_, cs.dropWhile (· != '"'), ?_, ?_⟩
    · have hquote := List.mem_takeWhile_imp hmem
      simp at hquote
    · exact List.takeWhile_append_dropWhile.symm
    · have hhead := List.head?_dropWhile_not (· != '"') cs
      cases hbehind : cs.dropWhile (· != '"') with
      | nil => exact Or.inl rfl
      | cons c behind =>
          rw [hbehind] at hhead
          right
          simpa using hhead
  · rintro ⟨hrest, behind, rfl, hbehind⟩
    have hkeep : ∀ c ∈ rest, (c != '"') = true := by
      intro c hc
      simpa using fun heq : c = '"' => hrest (heq ▸ hc)
    rw [List.takeWhile_append_of_pos hkeep]
    cases behind with
    | nil => simp
    | cons c behind =>
        have hc : c = '"' := by simpa using hbehind
        simp [hc]

/-! ## The grammar and the recogniser -/

theorem name?_eq_some_iff_isDirectiveFor :
    name? stem line = some name ↔ IsDirectiveFor stem line name := by
  rw [name?_eq_some_iff]
  constructor
  · rintro ⟨text, htrim, hname⟩
    obtain ⟨hquote, behind, htext, hbehind⟩ :=
      takeWhile_ne_quote_eq_iff.1 (rfl : text.takeWhile (· != '"') = _)
    refine ⟨_, _, behind, Text.isTrimmed_trim line.toList, ?_, hname, hquote, hbehind⟩
    calc
      Text.trim line.toList = opening.toList ++ stem.toList ++ text := htrim
      _ = opening.toList ++ (stem.toList ++ text.takeWhile (· != '"')) ++ behind := by
        conv_lhs => rw [htext]
        simp only [List.append_assoc]
      _ = opening.toList ++ name.toList ++ behind := by rw [hname]
  · rintro ⟨core, rest, behind, hcore, hspelt, hname, hquote, hbehind⟩
    have hrest : (rest ++ behind).takeWhile (· != '"') = rest :=
      takeWhile_ne_quote_eq_iff.2 ⟨hquote, behind, rfl, hbehind⟩
    refine ⟨rest ++ behind, ?_, by rw [hrest, hname]⟩
    rw [Text.trim_eq_iff_isTrimmed.2 hcore, hspelt, hname]
    simp only [List.append_assoc]

theorem IsDirectiveFor.unique {other : String} (h : IsDirectiveFor stem line name)
    (hother : IsDirectiveFor stem line other) : name = other := by
  rw [← name?_eq_some_iff_isDirectiveFor] at h hother
  exact Option.some.inj (h.symm.trans hother)

theorem isLocal_iff_exists_isDirectiveFor :
    isLocal stem line = true ↔ ∃ name, IsDirectiveFor stem line name := by
  rw [isLocal, Option.isSome_iff_exists]
  exact exists_congr fun _ => name?_eq_some_iff_isDirectiveFor

/-- A name between quotes is read back, whatever blanks stand before the directive
and whatever stands behind it. -/
theorem isDirectiveFor_quoted {blanks rest : String}
    (hblanks : ∀ c ∈ blanks.toList, Text.isBlank c = true) (hrest : '"' ∉ rest.toList)
    (stem behind : String) :
    IsDirectiveFor stem (blanks ++ opening ++ (stem ++ rest) ++ "\"" ++ behind)
      (stem ++ rest) := by
  obtain ⟨tail, htail, hblank⟩ := Text.exists_trimEnd_append behind.toList
  let kept := Text.trimEnd behind.toList
  have hquote : "\"".toList = ['"'] := by decide
  refine ⟨opening.toList ++ (stem ++ rest).toList ++ '"' :: kept, rest.toList, '"' :: kept,
    ⟨⟨blanks.toList, tail, ?_, hblanks, hblank⟩, ?_, ?_⟩, rfl, String.toList_append, hrest,
    Or.inr rfl⟩
  · simp only [String.toList_append, hquote]
    conv_lhs => rw [htail]
    simp [kept]
  -- The directive begins with a visible character.
  · intro c hc
    have hhash : c = '#' := by simpa [opening] using hc.symm
    rw [hhash]
    decide
  -- It ends in the second quote, unless something visible is behind that.
  · intro c hc
    rw [List.getLast?_append, List.getLast?_cons, Option.mem_def] at hc
    cases hkept : kept.getLast? with
    | none =>
        have hlast : c = '"' := by simpa [hkept] using hc.symm
        rw [hlast]
        decide
    | some last =>
        have hlast : c = last := by simpa [hkept] using hc.symm
        rw [hlast]
        exact Text.isBlank_getLast?_trimEnd behind.toList last hkept

/-- A line is recognised, and its name found, exactly when it reads as a local include.
There is one name at most, and replacement agrees with recognition.  Every name that the
stem begins can be included. -/
theorem recognises_grammar (stem line : String) :
    (∀ name, name? stem line = some name ↔ IsDirectiveFor stem line name) ∧
    (∀ name other, IsDirectiveFor stem line name → IsDirectiveFor stem line other →
      name = other) ∧
    (isLocal stem line = true ↔ ∃ name, IsDirectiveFor stem line name) ∧
    (replacement? stem line = some (commentOut line) ↔
      ∃ name, IsDirectiveFor stem line name) ∧
    (replacement? stem line = none ↔ ¬ ∃ name, IsDirectiveFor stem line name) ∧
    (∀ blanks rest behind : String, (∀ c ∈ blanks.toList, Text.isBlank c = true) →
      '"' ∉ rest.toList →
      name? stem (blanks ++ opening ++ (stem ++ rest) ++ "\"" ++ behind) =
        some (stem ++ rest)) := by
  refine ⟨fun _ => name?_eq_some_iff_isDirectiveFor, fun _ _ h hother => h.unique hother,
    isLocal_iff_exists_isDirectiveFor, ?_, ?_, ?_⟩
  · rw [← isLocal_iff_exists_isDirectiveFor, replacement?]
    simp
  · rw [← isLocal_iff_exists_isDirectiveFor, replacement?]
    simp
  · intro blanks rest behind hblanks hrest
    exact name?_eq_some_iff_isDirectiveFor.2 (isDirectiveFor_quoted hblanks hrest stem behind)

/-- The stem ends in a quote, the line begins with a no-break space, and behind the name
there is a third quote. -/
theorem recognises_grammar_quote_in_stem :
    let stem := "my.\""
    let line := "\u00a0#include \"my.\"x[h\" /* \" */\r\n"
    IsDirectiveFor stem line "my.\"x[h" ∧
    (∀ other, IsDirectiveFor stem line other → other = "my.\"x[h") ∧
    replacement? stem line = some (commentOut line) ∧
    (∀ c ∈ "\u2003\t".toList, Text.isBlank c = true) ∧ '"' ∉ "x[h".toList ∧
    name? stem ("\u2003\t" ++ opening ++ (stem ++ "x[h") ++ "\"" ++ " \" ") =
      some "my.\"x[h" := by
  intro stem line
  obtain ⟨hname, hunique, -, hreplaced, -, hquoted⟩ := recognises_grammar stem line
  have hdirective : IsDirectiveFor stem line "my.\"x[h" := (hname _).1 (by decide)
  have hblanks : ∀ c ∈ "\u2003\t".toList, Text.isBlank c = true :=
    List.all_eq_true.1 (by decide)
  have hrest : '"' ∉ "x[h".toList := by decide
  exact ⟨hdirective, fun other hother => hunique _ _ hother hdirective,
    hreplaced.2 ⟨_, hdirective⟩, hblanks, hrest, hquoted _ _ _ hblanks hrest⟩

end Include
end Amalgam
