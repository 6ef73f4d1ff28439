import Amalgam.Proofs.Document.Lines

namespace Amalgam

/-!
# No local include is left

Every line of a rendered document is a line of an injected text, a marker, a
relocated line, or one of the two lines around the implementation section.  Only
the injected texts are copied without a look at their lines, so a document holds
a local include only if one of them does.

A prologue that ends in the middle of a line is excluded: its last line would run
into the first marker.
-/

/-- A closed text without local includes. -/
structure IsInert (stem text : String) : Prop where
  closed : Text.IsClosed text
  not_local : ∀ line ∈ Text.linesOf text, Include.isLocal stem line = false

section Inert

variable {stem : String}

theorem isInert_of_isFullLine {line : String} (hfull : Text.IsFullLine line)
    (hlocal : Include.isLocal stem line = false) : IsInert stem line where
  closed := hfull.isClosed
  not_local := by
    rw [Text.linesOf_of_isFullLine hfull, List.forall_mem_singleton]
    exact hlocal

theorem IsInert.append {text other : String} (htext : IsInert stem text)
    (hother : IsInert stem other) : IsInert stem (text ++ other) where
  closed := htext.closed.append hother.closed
  not_local := by
    rw [Text.linesOf_append htext.closed, List.forall_mem_append]
    exact ⟨htext.not_local, hother.not_local⟩

theorem isInert_join {texts : List String} (h : ∀ text ∈ texts, IsInert stem text) :
    IsInert stem (String.join texts) := by
  induction texts with
  | nil => exact ⟨Or.inl rfl, nofun⟩
  | cons text texts ih =>
      obtain ⟨htext, htexts⟩ := List.forall_mem_cons.1 h
      rw [String.join_cons]
      exact htext.append (ih htexts)

theorem isInert_append_break {text : String}
    (h : ∀ line ∈ Text.linesOf text, Include.isLocal stem line = false) :
    IsInert stem (text ++ "\n") := by
  by_cases hclosed : Text.IsClosed text
  -- The line feed is then a line of its own.
  · have hbreak : IsInert stem "\n" :=
      isInert_of_isFullLine ⟨[], by simp, rfl⟩ (Include.isLocal_break stem)
    exact IsInert.append ⟨hclosed, h⟩ hbreak
  -- The line feed then ends the last line, which trimming does not see.
  · have hclose : text ++ "\n" = String.join ((Text.linesOf text).map Text.close) := by
      rw [← Text.close_join (Text.areLines_linesOf text), Text.join_linesOf, Text.close,
        if_neg hclosed]
    rw [hclose]
    refine isInert_join fun closedLine hmem => ?_
    obtain ⟨line, hline, rfl⟩ := List.mem_map.1 hmem
    refine isInert_of_isFullLine ((Text.areLines_linesOf text).isFullLine_close line hline) ?_
    rw [Include.isLocal_close]
    exact h line hline

/-- A block is inert, whatever the file holds. -/
theorem isInert_blockOf (store : Store) {name : String} (h : '\n' ∉ name.toList) :
    IsInert stem (store.blockOf stem name) := by
  rw [Store.blockOf, block_eq_join]
  refine isInert_join (List.forall_mem_cons.2 ⟨?_, fun line hline => ?_⟩)
  · exact isInert_of_isFullLine (isFullLine_markerLine h) (isLocal_markerLine stem name)
  · exact isInert_of_isFullLine (isFullLine_of_mem_relocatedLines hline)
      (isLocal_of_mem_relocatedLines hline)

end Inert

namespace Manifest

variable {m : Manifest} {store : Store}

theorem Valid.isInert_documentText (h : m.Valid) {headers : List String}
    (hprologue : IsInert m.stem m.prologue)
    (hepilogue : ∀ line ∈ Text.linesOf m.epilogue, Include.isLocal m.stem line = false)
    (hnames : ∀ name ∈ headers ++ m.sources, '\n' ∉ name.toList) :
    IsInert m.stem (m.documentText store headers) := by
  obtain ⟨hheaders, hsources⟩ := List.forall_mem_append.1 hnames
  have hopening : IsInert m.stem m.openingLine :=
    isInert_of_isFullLine h.isFullLine_openingLine (isLocal_openingLine m.stem m)
  have hclosing : IsInert m.stem m.closingLine :=
    isInert_of_isFullLine h.isFullLine_closingLine (isLocal_closingLine m.stem m)
  have hsections : IsInert m.stem (String.join (headers.map (m.headerSection store))) := by
    refine isInert_join (List.forall_mem_map.2 fun name hname => ?_)
    have hblock : IsInert m.stem (store.blockOf m.stem name) :=
      isInert_blockOf store (hheaders name hname)
    unfold headerSection
    split
    · exact hblock.append (isInert_append_break hepilogue)
    · rwa [String.append_empty]
  have hblocks : IsInert m.stem (String.join (m.sources.map (store.blockOf m.stem))) :=
    isInert_join (List.forall_mem_map.2 fun name hname =>
      isInert_blockOf store (hsources name hname))
  exact (((hprologue.append hsections).append hopening).append hblocks).append hclosing

end Manifest

/-- Scanning an inert text offers no name to a registry. -/
theorem IsInert.scan {stem text : String} (h : IsInert stem text) (r : Registry) :
    r.scan stem (Text.linesOf text) = r := by
  have hnames : (Text.linesOf text).filterMap (Include.name? stem) = [] := by
    rw [List.filterMap_eq_nil_iff]
    intro line hline
    have hnone := Option.isSome_eq_false_iff.1 (h.not_local line hline)
    exact Option.isNone_iff_eq_none.1 hnone
  rw [Registry.scan, hnames, Registry.insertAll_nil]

/-- Relocating the lines of an inert text gives the text back. -/
theorem IsInert.join_map_relocate {stem text : String} (h : IsInert stem text) :
    String.join ((Text.linesOf text).map (Include.relocate stem)) = text := by
  have hlines : (Text.linesOf text).map (Include.relocate stem) = Text.linesOf text := by
    refine (List.map_congr_left fun line hline => ?_).trans (List.map_id _)
    exact Include.relocate_of_not_isLocal (h.not_local line hline)
  rw [hlines, Text.join_linesOf]

namespace Manifest

/-- No line of a rendered document is a local include.  So scanning the document
changes no registry, and relocating its lines changes nothing. -/
theorem no_local_include_of_render {m : Manifest} {store : Store} {a : Amalgamation}
    (h : m.render store = .ok a)
    (hprologue : ∀ line ∈ Text.linesOf m.prologue, Include.isLocal m.stem line = false)
    (hepilogue : ∀ line ∈ Text.linesOf m.epilogue, Include.isLocal m.stem line = false)
    (hclosed : m.prologue = "" ∨ Text.isTerminated m.prologue = true)
    (hnames : ∀ name ∈ m.headers ++ m.sources, '\n' ∉ name.toList) :
    ∃ text : String, Utf8.decode a.document = .ok text ∧
      (∀ line ∈ Text.linesOf text, Include.isLocal m.stem line = false) ∧
      (∀ r : Registry, r.scan m.stem (Text.linesOf text) = r) ∧
      String.join ((Text.linesOf text).map (Include.relocate m.stem)) = text := by
  obtain ⟨hseed, hsources⟩ := List.forall_mem_append.1 hnames
  have hheaders := break_not_mem_of_mem_headers h hseed
  obtain ⟨hvalid, -⟩ := render_eq_ok_iff.1 h
  have hinert : IsInert m.stem (m.documentText store a.registry.headers) :=
    hvalid.isInert_documentText ⟨hclosed, hprologue⟩ hepilogue
      (List.forall_mem_append.2 ⟨hheaders, hsources⟩)
  refine ⟨_, ?_, hinert.not_local, hinert.scan, hinert.join_map_relocate⟩
  rw [document_eq_of_render h, decode_toUTF8]

theorem no_local_include_of_render_sample :
    sample.render Store.sample = .ok sampleAmalgamation ∧
    (∀ line ∈ Text.linesOf sample.prologue, Include.isLocal sample.stem line = false) ∧
    (∀ line ∈ Text.linesOf sample.epilogue, Include.isLocal sample.stem line = false) ∧
    Text.IsClosed sample.prologue ∧
    (∀ name ∈ sample.headers ++ sample.sources, '\n' ∉ name.toList) ∧
    ∃ text : String, Utf8.decode sampleAmalgamation.document = .ok text ∧
      ∀ line ∈ Text.linesOf text, Include.isLocal sample.stem line = false := by
  have hprologue : ∀ line ∈ Text.linesOf sample.prologue,
      Include.isLocal sample.stem line = false := by decide
  have hepilogue : ∀ line ∈ Text.linesOf sample.epilogue,
      Include.isLocal sample.stem line = false := by decide
  have hclosed : Text.IsClosed sample.prologue := by decide
  have hnames : ∀ name ∈ sample.headers ++ sample.sources, '\n' ∉ name.toList := by decide
  obtain ⟨text, hdecode, hlines, -⟩ :=
    no_local_include_of_render render_sample_eq_ok hprologue hepilogue hclosed hnames
  exact ⟨render_sample_eq_ok, hprologue, hepilogue, hclosed, hnames, text, hdecode, hlines⟩

end Manifest
end Amalgam
