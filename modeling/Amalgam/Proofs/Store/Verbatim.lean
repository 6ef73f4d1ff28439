import Amalgam.Proofs.FileTree.Inputs
import Amalgam.Proofs.Store.Reading
import Amalgam.Proofs.Text.Encoding
import Amalgam.Proofs.Text.Lines

namespace Amalgam

/-!
# Files are read verbatim

The lines that a store makes of a file hold the bytes of the file, no more and no fewer, and
the bytes leave no choice where to cut.  Bytes are only text when they are well-formed UTF-8;
other bytes give no lines at all.

In UTF-8 the byte of a line feed is a line feed, so whether a text ends in one can be seen in
its last byte.
-/

namespace Text

/-! ## The shape of lines -/

/-- Lines that bytes are cut into: each line holds something and has a line feed at its end
only, all but the last one do have it there, and joined they are encoded by the bytes. -/
structure AreLinesOf (content : ByteArray) (lines : List String) : Prop where
  ne_empty : ∀ line ∈ lines, line ≠ ""
  break_not_mem : ∀ line ∈ lines, '\n' ∉ line.toList.dropLast
  terminated : ∀ line ∈ lines.dropLast, isTerminated line = true
  encoded : (String.join lines).toUTF8 = content

/-- Bytes that do not end in the middle of a line. -/
def AreClosed (content : ByteArray) : Prop :=
  content = ByteArray.empty ∨ content.data.toList.getLast? = some 0x0A

theorem isFullLine_iff {line : String} :
    IsFullLine line ↔ '\n' ∉ line.toList.dropLast ∧ isTerminated line = true := by
  rw [isTerminated, beq_iff_eq, List.getLast?_eq_some_iff]
  constructor
  · rintro ⟨body, hbody, hline⟩
    rw [hline, List.dropLast_concat]
    exact ⟨hbody, body, rfl⟩
  · rintro ⟨hbody, body, hline⟩
    rw [hline, List.dropLast_concat] at hbody
    exact ⟨body, hbody, hline⟩

theorem ne_empty_of_isTerminated {line : String} (h : isTerminated line = true) :
    line ≠ "" := by
  rintro rfl
  contradiction

theorem not_mem_of_not_isTerminated {line : String} (hbreak : '\n' ∉ line.toList.dropLast)
    (h : ¬ isTerminated line = true) : '\n' ∉ line.toList := by
  rw [isTerminated, beq_iff_eq] at h
  cases hlast : line.toList.getLast? with
  | none =>
      rw [List.getLast?_eq_none_iff.1 hlast]
      exact List.not_mem_nil
  | some c =>
      obtain ⟨body, hline⟩ := List.getLast?_eq_some_iff.1 hlast
      rw [hline, List.dropLast_concat] at hbreak
      rw [hlast, Option.some.injEq] at h
      rw [hline, List.mem_append, List.mem_singleton, not_or]
      exact ⟨hbreak, Ne.symm h⟩

theorem areLines_iff {lines : List String} :
    AreLines lines ↔ (∀ line ∈ lines, line ≠ "") ∧
      (∀ line ∈ lines, '\n' ∉ line.toList.dropLast) ∧
      ∀ line ∈ lines.dropLast, isTerminated line = true := by
  constructor
  · intro h
    induction h with
    | nil => simp
    | last hne hbreak =>
        refine ⟨List.forall_mem_singleton.2 hne, List.forall_mem_singleton.2 ?_, by simp⟩
        exact fun hmem => hbreak ((List.dropLast_sublist _).mem hmem)
    | @cons line rest hfull hrest ih =>
        obtain ⟨hne, hbreak, hterminated⟩ := ih
        obtain ⟨hline, hend⟩ := isFullLine_iff.1 hfull
        refine ⟨List.forall_mem_cons.2 ⟨ne_empty_of_isTerminated hend, hne⟩,
          List.forall_mem_cons.2 ⟨hline, hbreak⟩, ?_⟩
        cases rest with
        | nil => simp
        | cons next rest => exact List.forall_mem_cons.2 ⟨hend, hterminated⟩
  · intro h
    induction lines with
    | nil => exact .nil
    | cons line rest ih =>
        obtain ⟨hnes, hbreaks, hterminated⟩ := h
        obtain ⟨hne, hrestNe⟩ := List.forall_mem_cons.1 hnes
        obtain ⟨hbreak, hrestBreak⟩ := List.forall_mem_cons.1 hbreaks
        cases rest with
        | nil =>
            by_cases hend : isTerminated line = true
            · exact .cons (isFullLine_iff.2 ⟨hbreak, hend⟩) .nil
            · exact .last hne (not_mem_of_not_isTerminated hbreak hend)
        | cons next rest =>
            obtain ⟨hend, hrestEnd⟩ := List.forall_mem_cons.1 hterminated
            exact .cons (isFullLine_iff.2 ⟨hbreak, hend⟩) (ih ⟨hrestNe, hrestBreak, hrestEnd⟩)

/-- The lines of a text are the only ones that its bytes can be cut into. -/
theorem areLinesOf_toUTF8_iff {text : String} {lines : List String} :
    AreLinesOf text.toUTF8 lines ↔ lines = linesOf text := by
  constructor
  · intro h
    have hlines : AreLines lines := areLines_iff.2 ⟨h.ne_empty, h.break_not_mem, h.terminated⟩
    have hjoin : String.join lines = text := String.toByteArray_inj.1 h.encoded
    rw [← hjoin, linesOf_join hlines]
  · rintro rfl
    obtain ⟨hne, hbreak, hterminated⟩ := areLines_iff.1 (areLines_linesOf text)
    exact ⟨hne, hbreak, hterminated, by rw [join_linesOf]⟩

theorem areClosed_toUTF8_iff {text : String} : AreClosed text.toUTF8 ↔ IsClosed text := by
  rw [AreClosed, IsClosed, getLast?_toUTF8_eq_break_iff, ← String.toByteArray_inj]
  rfl

end Text

namespace FileTree

/-! ## Files below a directory -/

/-- Somewhere a file of this content is read as these lines. -/
def IsReadAs (content : ByteArray) (lines : List String) : Prop :=
  ∃ (t : FileTree) (root name : String), t.read (Path.join root name) = .ok content ∧
    (t.storeAt root).read name = .ok ⟨name, lines⟩

section Reading

variable {t : FileTree} {root name : String} {content : ByteArray}

theorem storeAt_of_read (h : t.read (Path.join root name) = .ok content) :
    t.storeAt root name =
      (Utf8.decode content).mapError (.notText (Path.join root name)) := by
  unfold storeAt
  simp only [h]

/-- A file that holds the bytes of a text is read as the lines of the text. -/
theorem read_storeAt_of_toUTF8 {text : String}
    (h : t.read (Path.join root name) = .ok text.toUTF8) :
    (t.storeAt root).read name = .ok ⟨name, Text.linesOf text⟩ := by
  rw [Store.read, storeAt_of_read h, decode_toUTF8]
  rfl

/-- A file that holds other bytes is not read. -/
theorem read_storeAt_of_not_isValidUTF8 (h : t.read (Path.join root name) = .ok content)
    (hcontent : ¬ content.IsValidUTF8) :
    (t.storeAt root).read name =
      .error (.notText (Path.join root name) (Utf8.firstFault 0 content.toList)) := by
  rw [Store.read, storeAt_of_read h, decode_of_not_isValidUTF8 hcontent]
  rfl

theorem exists_eq_toUTF8_of_isReadAs {lines : List String} (h : IsReadAs content lines) :
    ∃ text : String, content = text.toUTF8 ∧ lines = Text.linesOf text := by
  obtain ⟨t, root, name, hread, hlines⟩ := h
  by_cases hcontent : content.IsValidUTF8
  · obtain ⟨text, rfl⟩ := exists_eq_toUTF8 hcontent
    rw [read_storeAt_of_toUTF8 hread, Except.ok.injEq, InputFile.mk.injEq] at hlines
    exact ⟨text, rfl, hlines.2.symm⟩
  · rw [read_storeAt_of_not_isValidUTF8 hread hcontent] at hlines
    cases hlines

/-- Reading a file below a directory fails for its encoding exactly when its bytes are no
well-formed UTF-8.  Otherwise it gives lines that are encoded by the bytes, and no others
are.  When a content that does not end in the middle of a line stands in front of another
one, the lines of the two are the lines of the one and then those of the other. -/
theorem read_verbatim (h : t.read (Path.join root name) = .ok content) :
    ((∃ fault, (t.storeAt root).read name =
        .error (.notText (Path.join root name) fault)) ↔ ¬ content.IsValidUTF8) ∧
    (content.IsValidUTF8 → ∃ lines, (t.storeAt root).read name = .ok ⟨name, lines⟩ ∧
      Text.AreLinesOf content lines ∧ ∀ other, Text.AreLinesOf content other → other = lines) ∧
    ∀ (front rest : ByteArray) (frontLines restLines : List String),
      content = front ++ rest → Text.AreClosed front →
      IsReadAs front frontLines → IsReadAs rest restLines →
      (t.storeAt root).read name = .ok ⟨name, frontLines ++ restLines⟩ := by
  refine ⟨⟨?_, ?_⟩, ?_, ?_⟩
  · rintro ⟨fault, hfault⟩ hcontent
    obtain ⟨text, rfl⟩ := exists_eq_toUTF8 hcontent
    rw [read_storeAt_of_toUTF8 h] at hfault
    cases hfault
  · exact fun hcontent => ⟨_, read_storeAt_of_not_isValidUTF8 h hcontent⟩
  · intro hcontent
    obtain ⟨text, rfl⟩ := exists_eq_toUTF8 hcontent
    exact ⟨Text.linesOf text, read_storeAt_of_toUTF8 h, Text.areLinesOf_toUTF8_iff.2 rfl,
      fun other hother => Text.areLinesOf_toUTF8_iff.1 hother⟩
  · rintro front rest frontLines restLines rfl hclosed hfront hrest
    obtain ⟨frontText, rfl, rfl⟩ := exists_eq_toUTF8_of_isReadAs hfront
    obtain ⟨restText, rfl, rfl⟩ := exists_eq_toUTF8_of_isReadAs hrest
    rw [← Text.toUTF8_append] at h
    rw [read_storeAt_of_toUTF8 h, Text.linesOf_append (Text.areClosed_toUTF8_iff.1 hclosed)]

end Reading

/-- The tree of one file in the working directory. -/
def oneFile (content : ByteArray) : FileTree :=
  (onlyDirectory ["home"]).put ["home", "f"] (.file content)

theorem read_oneFile (content : ByteArray) :
    (oneFile content).read (Path.join "." "f") = .ok content := by
  rfl

/-- Bytes with an empty line, a carriage return and an open last line, and bytes that end
in the middle of a character. -/
theorem read_verbatim_oneFile :
    let front := "a\r\n\n".toUTF8
    let rest := "é".toUTF8
    let broken : ByteArray := ⟨#[0x61, 0xC3]⟩
    (oneFile (front ++ rest)).read (Path.join "." "f") = .ok (front ++ rest) ∧
    ((oneFile (front ++ rest)).storeAt ".").read "f" = .ok ⟨"f", ["a\r\n", "\n"] ++ ["é"]⟩ ∧
    (oneFile broken).read (Path.join "." "f") = .ok broken ∧
    ¬ broken.IsValidUTF8 ∧
    ∃ fault, ((oneFile broken).storeAt ".").read "f" = .error (.notText "./f" fault) := by
  intro front rest broken
  have hfront : IsReadAs front ["a\r\n", "\n"] :=
    ⟨oneFile front, ".", "f", read_oneFile front, read_storeAt_of_toUTF8 (read_oneFile front)⟩
  have hrest : IsReadAs rest ["é"] :=
    ⟨oneFile rest, ".", "f", read_oneFile rest, read_storeAt_of_toUTF8 (read_oneFile rest)⟩
  have hbroken : ¬ broken.IsValidUTF8 := by
    rw [← ByteArray.validateUTF8_eq_true_iff]
    decide
  obtain ⟨-, -, happend⟩ := read_verbatim (read_oneFile (front ++ rest))
  obtain ⟨hfault, -⟩ := read_verbatim (read_oneFile broken)
  refine ⟨read_oneFile _, ?_, read_oneFile _, hbroken, hfault.2 hbroken⟩
  exact happend front rest _ _ rfl (Or.inr (by decide)) hfront hrest

end FileTree
end Amalgam
