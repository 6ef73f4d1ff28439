namespace Amalgam
namespace Text

/-!
# Blank characters and trimming

The twenty-five characters with the Unicode property `White_Space`, and the
removal of blank characters from the ends of a text.  Trimming looks at single
characters only: it knows nothing of lines, and a line terminator is as blank
as a space.
-/

/-- The characters with the Unicode property `White_Space`. -/
def isBlank (c : Char) : Bool :=
  let n := c.toNat
  (0x09 ≤ n && n ≤ 0x0D) || n == 0x20 || n == 0x85 || n == 0xA0 || n == 0x1680 ||
    (0x2000 ≤ n && n ≤ 0x200A) || n == 0x2028 || n == 0x2029 || n == 0x202F ||
    n == 0x205F || n == 0x3000

/-- The text without its leading blank characters. -/
def trimStart (cs : List Char) : List Char :=
  cs.dropWhile isBlank

/-- The text without its trailing blank characters. -/
def trimEnd (cs : List Char) : List Char :=
  (cs.reverse.dropWhile isBlank).reverse

/-- The text without blank characters at either end. -/
def trim (cs : List Char) : List Char :=
  trimEnd (trimStart cs)

/-- Trimming the end cuts the text in two, and the part cut off is blank. -/
theorem exists_trimEnd_append (cs : List Char) :
    ∃ tail, cs = trimEnd cs ++ tail ∧ ∀ c ∈ tail, isBlank c = true := by
  refine ⟨(cs.reverse.takeWhile isBlank).reverse, ?_, ?_⟩
  · rw [trimEnd, ← List.reverse_append, List.takeWhile_append_dropWhile,
      List.reverse_reverse]
  · intro c hc
    exact List.all_eq_true.1 List.all_takeWhile c (List.mem_reverse.1 hc)

end Text
end Amalgam
