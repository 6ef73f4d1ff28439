import Amalgam.Include
import Mathlib.Data.List.DropRight

namespace Amalgam

/-!
# Delimited texts

A text that stands between two fixed texts can be taken out again, whatever it is.  Texts
that were joined by a separator can be told apart when none of them holds the character
that the separator begins with.

That the separator itself does not occur in them would NOT be enough: the end of one text
and the beginning of the separator could make up another separator.
-/

/-! ## Taking texts apart -/

/-- The rest of a text after a leading text. -/
def dropLead? (lead s : String) : Option String :=
  (Include.afterLead? lead.toList s.toList).map String.ofList

/-- The rest of a text before a trailing text. -/
def dropTail? (tail s : String) : Option String :=
  (Include.afterLead? tail.toList.reverse s.toList.reverse).map fun rest =>
    String.ofList rest.reverse

theorem dropLead?_eq_some_iff {lead s rest : String} :
    dropLead? lead s = some rest ↔ s = lead ++ rest := by
  rw [dropLead?, Option.map_eq_some_iff, ← String.toList_inj, String.toList_append]
  simp only [Include.afterLead?_eq_some_iff]
  constructor
  · rintro ⟨chars, hs, rfl⟩
    rwa [String.toList_ofList]
  · exact fun hs => ⟨rest.toList, hs, String.ofList_toList⟩

theorem dropTail?_eq_some_iff {tail s rest : String} :
    dropTail? tail s = some rest ↔ s = rest ++ tail := by
  rw [dropTail?, Option.map_eq_some_iff, ← String.toList_inj, String.toList_append]
  simp only [Include.afterLead?_eq_some_iff]
  constructor
  · rintro ⟨chars, hs, rfl⟩
    rw [String.toList_ofList, ← List.reverse_inj, hs]
    simp
  · intro hs
    exact ⟨rest.toList.reverse, by simp [hs], by simp⟩

namespace Text

/-- The text that stands between an opening and a closing text. -/
def between? (opening closing s : String) : Option String :=
  (dropLead? opening s).bind (dropTail? closing)

theorem between?_eq_some_iff {opening closing s inside : String} :
    between? opening closing s = some inside ↔ s = opening ++ inside ++ closing := by
  rw [between?, Option.bind_eq_some_iff]
  simp only [dropLead?_eq_some_iff, dropTail?_eq_some_iff]
  constructor
  · rintro ⟨rest, rfl, rfl⟩
    rw [String.append_assoc]
  · rintro rfl
    exact ⟨inside ++ closing, String.append_assoc, rfl⟩

theorem between?_append (opening inside closing : String) :
    between? opening closing (opening ++ inside ++ closing) = some inside :=
  between?_eq_some_iff.2 rfl

/-- What is read back from each text by itself is read back from all of them. -/
theorem mapM_map_eq_some {α β : Type} {read : β → Option α} {write : α → β}
    {names : List α} (h : ∀ name ∈ names, read (write name) = some name) :
    (names.map write).mapM read = some names := by
  induction names with
  | nil => rfl
  | cons name names ih =>
      obtain ⟨hname, hnames⟩ := List.forall_mem_cons.1 h
      rw [List.map_cons, List.mapM_cons, hname, ih hnames]
      rfl

/-! ## Splitting at a separator -/

/-- The parts of a text between the occurrences of a separator, which are looked for from
left to right and do not overlap.  An empty separator separates nothing. -/
def splitAround (separator cs : List Char) : List (List Char) :=
  match cs.dropInfix? separator with
  | none => [cs]
  | some (front, rest) =>
      if rest.length < cs.length then front :: splitAround separator rest else [cs]
termination_by cs.length

variable {first : Char} {separator : List Char}

theorem dropInfix?_of_not_mem {cs : List Char} (h : first ∉ cs) :
    cs.dropInfix? (first :: separator) = none := by
  rw [Option.eq_none_iff_forall_ne_some]
  rintro ⟨front, rest⟩ hsome
  obtain ⟨⟨found, hcs, hfound⟩, -⟩ := List.dropInfix?_eq_some_iff.1 hsome
  obtain rfl := eq_of_beq hfound
  apply h
  simp [hcs]

/-- A separator whose first character does not occur in front of it is the first one. -/
theorem dropInfix?_append_of_not_mem {front : List Char} (h : first ∉ front)
    (rest : List Char) :
    (front ++ (first :: separator) ++ rest).dropInfix? (first :: separator) =
      some (front, rest) := by
  refine List.dropInfix?_eq_some_iff.2 ⟨⟨_, rfl, beq_self_eq_true _⟩, ?_⟩
  intro before found after hsplit hfound
  obtain rfl := eq_of_beq hfound
  by_contra hshort
  -- An earlier separator would begin in front, and so would its first character.
  have hbefore : before ++ [first] <+: front ++ (first :: separator) ++ rest :=
    ⟨separator ++ after, by rw [hsplit]; simp⟩
  have hfront : front <+: front ++ (first :: separator) ++ rest :=
    ⟨first :: separator ++ rest, by simp⟩
  have hlength : (before ++ [first]).length ≤ front.length := by
    rw [List.length_append, List.length_singleton]
    omega
  have hstarts := List.prefix_of_prefix_length_le hbefore hfront hlength
  exact h (hstarts.mem (by simp))

theorem splitAround_of_not_mem {cs : List Char} (h : first ∉ cs) :
    splitAround (first :: separator) cs = [cs] := by
  rw [splitAround, dropInfix?_of_not_mem h]

theorem splitAround_append {front : List Char} (h : first ∉ front) (rest : List Char) :
    splitAround (first :: separator) (front ++ (first :: separator) ++ rest) =
      front :: splitAround (first :: separator) rest := by
  have hshorter : rest.length < (front ++ (first :: separator) ++ rest).length := by
    simp only [List.length_append, List.length_cons]
    omega
  rw [splitAround, dropInfix?_append_of_not_mem h]
  exact if_pos hshorter

/-- Joining texts and splitting the result gives the texts back. -/
theorem splitAround_intercalate {parts : List (List Char)} (hne : parts ≠ [])
    (h : ∀ part ∈ parts, first ∉ part) :
    splitAround (first :: separator) ((first :: separator).intercalate parts) = parts := by
  induction parts with
  | nil => contradiction
  | cons part parts ih =>
      obtain ⟨hpart, hparts⟩ := List.forall_mem_cons.1 h
      cases parts with
      | nil => rw [List.intercalate_singleton, splitAround_of_not_mem hpart]
      | cons next parts =>
          rw [List.intercalate_cons_cons, splitAround_append hpart, ih (by simp) hparts]

end Text
end Amalgam
