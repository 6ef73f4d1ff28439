import Amalgam.Proofs.Document.Grammar

namespace Amalgam

/-!
# Files with two blocks

The headers of a document are distinct, and so are its sources, but nothing keeps the
two lists apart.  A source that is a seed header as well, or that another source
includes, has a header block in front of the implementation section and a source
block inside it.  These are the only files with two blocks.

Excluding such a source by name keeps it out of the headers.
-/

namespace Manifest

variable {m : Manifest} {store : Store}

/-- The sources that are not headers as well. -/
theorem Valid.source_not_mem_headers_iff (h : m.Valid) {r : Registry}
    (hdiscover : m.discover store = .ok r) {source : String} :
    source ∉ r.headers ↔
      source ∉ m.headers ∧
        (source ∈ m.excluded ∨ ∀ file ∈ m.sources,
          ∀ line ∈ Text.linesOf (store.textOf file),
            Include.name? m.stem line ≠ some source) := by
  have hincluded : source ∉ includedNames store m.stem m.sources ↔
      ∀ file ∈ m.sources, ∀ line ∈ Text.linesOf (store.textOf file),
        Include.name? m.stem line ≠ some source := by
    rw [mem_includedNames]
    simp only [Include.mem_namesIn, not_exists, not_and, ne_eq]
  rw [h.mem_headers_of_discover hdiscover, ← hincluded]
  tauto

/-- Every file of a document has one block exactly when no source is a seed header or
is included by a source without being excluded.  The source blocks stand between the
opening and the closing line, and the header blocks in front of them. -/
theorem nodup_blocks_iff_of_render {a : Amalgamation} (h : m.render store = .ok a) :
    a.document =
      (m.prologue ++ String.join (a.registry.headers.map (m.headerSection store)) ++
        m.openingLine ++ String.join (m.sources.map (store.blockOf m.stem)) ++
        m.closingLine).toUTF8 ∧
    a.registry.headers.Nodup ∧ m.sources.Nodup ∧
    ((a.registry.headers ++ m.sources).Nodup ↔
      ∀ source ∈ m.sources, source ∉ m.headers ∧
        (source ∈ m.excluded ∨ ∀ file ∈ m.sources,
          ∀ line ∈ Text.linesOf (store.textOf file),
            Include.name? m.stem line ≠ some source)) := by
  obtain ⟨hvalid, hdiscover, -⟩ := render_eq_ok_iff.1 h
  obtain ⟨hregistry, -, -⟩ := registry_of_render h
  have hapart : (a.registry.headers ++ m.sources).Nodup ↔
      ∀ source ∈ m.sources, source ∉ a.registry.headers := by
    rw [List.nodup_append']
    constructor
    · rintro ⟨-, -, hdisjoint⟩ source hsource hheader
      exact hdisjoint hheader hsource
    · intro hsources
      exact ⟨hregistry.nodup, hvalid.sources_nodup, fun name hheader hsource =>
        hsources name hsource hheader⟩
  refine ⟨document_eq_of_render h, hregistry.nodup, hvalid.sources_nodup, ?_⟩
  rw [hapart]
  exact forall₂_congr fun source _ => hvalid.source_not_mem_headers_iff hdiscover

theorem nodup_blocks_sample :
    sample.render Store.sample = .ok sampleAmalgamation ∧
      (sampleRegistry.headers ++ sample.sources).Nodup := by
  obtain ⟨-, -, -, hnodup⟩ := nodup_blocks_iff_of_render render_sample_eq_ok
  exact ⟨render_sample_eq_ok, hnodup.2 (by decide)⟩

/-- One of the two sources includes the other. -/
def nested : Manifest where
  sources := ["a.c", "b.c"]
  headers := ["x.h"]
  excluded := []
  configHeader := "x.h"
  stem := ""
  macros := ["LIB_IMPL"]
  prologue := ""
  epilogue := ""

end Manifest

/-- The files of the two sources and their header. -/
def Store.nested : Store :=
  Store.ofList
    [("x.h", "int x;\n"), ("a.c", "#include \"b.c\"\nint a;\n"), ("b.c", "int b;\n")]

namespace Manifest

/-- The included source has a block in front of the implementation section and
another one inside it. -/
theorem two_blocks_of_included_source :
    nested.validate = .ok () ∧
    ∃ a : Amalgamation, nested.render Store.nested = .ok a ∧
      "b.c" ∈ nested.sources ∧ "b.c" ∈ a.registry.headers ∧
      ¬ (a.registry.headers ++ nested.sources).Nodup ∧
      a.document =
        (Store.nested.blockOf "" "x.h" ++ "\n" ++ Store.nested.blockOf "" "b.c" ++
          nested.openingLine ++
          Store.nested.blockOf "" "a.c" ++ Store.nested.blockOf "" "b.c" ++
          nested.closingLine).toUTF8 := by
  have hvalid : nested.Valid := validate_eq_ok_iff_valid.1 rfl
  have hdiscover : nested.discover Store.nested = .ok ⟨["x.h", "b.c"], []⟩ := rfl
  have hread : ∀ name ∈ ["x.h", "b.c"] ++ nested.sources, Store.nested.Readable name := by
    decide
  refine ⟨rfl, _, hvalid.render_eq_ok hdiscover hread, by decide, by decide, by decide, ?_⟩
  refine congrArg String.toUTF8 ?_
  decide +kernel

end Manifest
end Amalgam
