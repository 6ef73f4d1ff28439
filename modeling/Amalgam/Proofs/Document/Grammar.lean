import Amalgam.Proofs.Discovery.Order
import Amalgam.Proofs.Emission.Writing
import Amalgam.Rendering
import Mathlib.Algebra.GroupWithZero.Nat
import Mathlib.Data.List.Nodup

namespace Amalgam

/-!
# The grammar of a document

A rendered document is determined by the manifest, the headers and the contents
of the files: prologue, header blocks, opening line, source blocks, closing line.
The epilogue and a line feed follow the block of the configuration header, which
occurs once, so they occur once.

Rendering succeeds exactly when the manifest is valid and every file that is
needed can be read.
-/

theorem join_flatMap {α : Type} (xs : List α) (texts : α → List String) :
    String.join (xs.flatMap texts) = String.join (xs.map fun x => String.join (texts x)) := by
  induction xs with
  | nil => rfl
  | cons x xs ih =>
      rw [List.flatMap_cons, String.join_append, ih, List.map_cons, String.join_cons]

theorem Text.countBreaks_join (texts : List String) :
    countBreaks (String.join texts) = (texts.map countBreaks).sum := by
  induction texts with
  | nil => rfl
  | cons text texts ih =>
      rw [String.join_cons, countBreaks_append, ih, List.map_cons, List.sum_cons]

namespace Manifest

variable {m : Manifest} {store : Store}

/-- A header's block, with what is injected behind the configuration header. -/
def headerSection (m : Manifest) (store : Store) (name : String) : String :=
  store.blockOf m.stem name ++ if name = m.configHeader then m.epilogue ++ "\n" else ""

/-- The text of the document with the given headers. -/
def documentText (m : Manifest) (store : Store) (headers : List String) : String :=
  m.prologue ++ String.join (headers.map (m.headerSection store)) ++ m.openingLine ++
    String.join (m.sources.map (store.blockOf m.stem)) ++ m.closingLine

/-- The counters of the document with the given headers. -/
def documentStats (m : Manifest) (store : Store) (headers : List String) : Stats :=
  ((m.outline headers).map (Part.gainIn store m.stem)).sum.withLinesOf
    (m.documentText store headers)

theorem join_textIn_headerParts (m : Manifest) (store : Store) (name : String) :
    String.join ((m.headerParts name).map (Part.textIn store m.stem)) =
      m.headerSection store name := by
  unfold headerParts headerSection
  by_cases hconfig : name = m.configHeader
  · simp [hconfig, Part.textIn]
  · simp [hconfig, Part.textIn]

/-- The parts of the outline make up the document. -/
theorem join_textIn_outline (m : Manifest) (store : Store) (headers : List String) :
    String.join ((m.outline headers).map (Part.textIn store m.stem)) =
      m.documentText store headers := by
  have hsources : m.sources.map (Part.textIn store m.stem ∘ Part.source) =
      m.sources.map (store.blockOf m.stem) := rfl
  simp only [outline, List.map_append, List.map_singleton, String.join_append,
    String.join_cons, String.join_nil, String.append_empty, List.map_map,
    List.map_flatMap, join_flatMap, join_textIn_headerParts, hsources]
  rfl

theorem header_mem_outline_iff {headers : List String} {name : String} :
    Part.header name ∈ m.outline headers ↔ name ∈ headers := by
  have hparts : ∀ other, Part.header name ∈ m.headerParts other ↔ name = other := by
    intro other
    unfold headerParts
    split <;> simp
  simp [outline, hparts]

theorem source_mem_outline_iff {headers : List String} {name : String} :
    Part.source name ∈ m.outline headers ↔ name ∈ m.sources := by
  have hparts : ∀ other, Part.source name ∉ m.headerParts other := by
    intro other
    unfold headerParts
    split <;> simp
  simp [outline, hparts]

theorem readable_outline_iff {headers : List String} :
    (∀ part ∈ m.outline headers, part.Readable store) ↔
      ∀ name ∈ headers ++ m.sources, store.Readable name := by
  constructor
  · intro h name hname
    rcases List.mem_append.1 hname with hheader | hsource
    · exact h (.header name) (header_mem_outline_iff.2 hheader)
    · exact h (.source name) (source_mem_outline_iff.2 hsource)
  · intro h part hpart
    cases part with
    | text content => trivial
    | header name => exact h name (List.mem_append_left _ (header_mem_outline_iff.1 hpart))
    | source name => exact h name (List.mem_append_right _ (source_mem_outline_iff.1 hpart))

/-- While all files can be read, an emission without a limit is the document. -/
theorem into_unbounded_of_readable {headers : List String}
    (h : ∀ name ∈ headers ++ m.sources, store.Readable name) :
    Emission.into Sink.unbounded m headers store =
      ⟨(m.documentText store headers).toUTF8, .ok (m.documentStats store headers)⟩ := by
  have hparts : writeParts store m.stem (m.outline headers) ⟨Sink.unbounded, {}⟩ = .ok () _ :=
    (writeParts_eq_ok_iff rfl).2 ⟨readable_outline_iff.2 h, rfl⟩
  rw [Emission.into_of_ok hparts, join_textIn_outline]
  exact congrArg₂ Emission.mk ByteArray.empty_append
    (congrArg Except.ok (Stats.zero_add _))

/-- With given headers, rendering succeeds exactly when all files can be read. -/
theorem renderWith_eq_ok_iff {registry : Registry} {a : Amalgamation} :
    m.renderWith store registry = .ok a ↔
      (∀ name ∈ registry.headers ++ m.sources, store.Readable name) ∧
        a = ⟨registry, (m.documentText store registry.headers).toUTF8,
          m.documentStats store registry.headers⟩ := by
  constructor
  · intro h
    have hread : ∀ name ∈ registry.headers ++ m.sources, store.Readable name := by
      cases hparts : writeParts store m.stem (m.outline registry.headers)
          ⟨Sink.unbounded, {}⟩ with
      | error failure e =>
          rw [renderWith, Emission.into_of_error hparts] at h
          cases h
      | ok _ e => exact readable_outline_iff.1 ((writeParts_eq_ok_iff rfl).1 hparts).1
    rw [renderWith, into_unbounded_of_readable hread] at h
    exact ⟨hread, (Except.ok.inj h).symm⟩
  · rintro ⟨hread, rfl⟩
    rw [renderWith, into_unbounded_of_readable hread]
    rfl

theorem checked_eq_ok_iff : m.checked = .ok () ↔ m.Valid := by
  rw [← validate_eq_ok_iff_valid, checked]
  cases hvalidate : m.validate with
  | error fault => simp [Except.mapError]
  | ok _ => simp [Except.mapError]

/-- What a successful rendering is: a valid manifest, a discovered registry, readable
files, and the document with the counters that these determine. -/
theorem render_eq_ok_iff {a : Amalgamation} :
    m.render store = .ok a ↔
      m.Valid ∧ m.discover store = .ok a.registry ∧
        (∀ name ∈ a.registry.headers ++ m.sources, store.Readable name) ∧
        a = ⟨a.registry, (m.documentText store a.registry.headers).toUTF8,
          m.documentStats store a.registry.headers⟩ := by
  rw [render, except_bind_eq_ok_iff]
  constructor
  · rintro ⟨_, hchecked, h⟩
    obtain ⟨registry, hdiscover, h⟩ := except_bind_eq_ok_iff.1 h
    obtain ⟨hread, ha⟩ := renderWith_eq_ok_iff.1 h
    subst ha
    exact ⟨checked_eq_ok_iff.1 hchecked, hdiscover, hread, rfl⟩
  · rintro ⟨hvalid, hdiscover, hread, ha⟩
    refine ⟨(), checked_eq_ok_iff.2 hvalid, except_bind_eq_ok_iff.2 ⟨_, hdiscover, ?_⟩⟩
    exact renderWith_eq_ok_iff.2 ⟨hread, ha⟩

theorem Valid.render_eq_ok (h : m.Valid) {registry : Registry}
    (hdiscover : m.discover store = .ok registry)
    (hread : ∀ name ∈ registry.headers ++ m.sources, store.Readable name) :
    m.render store = .ok ⟨registry, (m.documentText store registry.headers).toUTF8,
      m.documentStats store registry.headers⟩ :=
  render_eq_ok_iff.2 ⟨h, hdiscover, hread, rfl⟩

theorem document_eq_of_render {a : Amalgamation} (h : m.render store = .ok a) :
    a.document = (m.documentText store a.registry.headers).toUTF8 := by
  obtain ⟨-, -, -, ha⟩ := render_eq_ok_iff.1 h
  exact congrArg Amalgamation.document ha

/-- A rendered registry keeps the seed headers in front, holds no name twice and no
excluded name. -/
theorem registry_of_render {a : Amalgamation} (h : m.render store = .ok a) :
    a.registry.WellFormed ∧ a.registry.excluded = m.excluded ∧
      m.headers <+: a.registry.headers := by
  obtain ⟨hvalid, hdiscover, -⟩ := render_eq_ok_iff.1 h
  obtain ⟨-, hregistry⟩ := scanSources_eq_ok_iff.1 hdiscover
  refine ⟨?_, ?_, ?_⟩
  · rw [hregistry]
    exact (Registry.wellFormed_ofSeed m.headers m.excluded).insertAll _
  · rw [hregistry, hvalid.insertAll_seedRegistry]
  · rw [hregistry, hvalid.insertAll_seedRegistry]
    exact List.prefix_append _ _

/-- Away from the configuration header, the header sections are plain blocks. -/
theorem map_headerSection_of_not_mem {headers : List String}
    (h : m.configHeader ∉ headers) :
    headers.map (m.headerSection store) = headers.map (store.blockOf m.stem) := by
  refine List.map_congr_left fun name hname => ?_
  have hne : name ≠ m.configHeader := fun heq => h (heq ▸ hname)
  rw [headerSection, if_neg hne, String.append_empty]

/-- The document of a successful rendering: the prologue, the header blocks with the
epilogue and a line feed behind the one block of the configuration header, and the
source blocks between the opening and the closing line. -/
theorem document_of_render {a : Amalgamation} (h : m.render store = .ok a) :
    (∀ name ∈ a.registry.headers ++ m.sources,
      store name = .ok (store.textOf name)) ∧
    a.registry.headers.Nodup ∧
    (∀ name ∈ a.registry.headers, name ∉ m.excluded) ∧
    a.registry.headers.count m.configHeader = 1 ∧
    ∃ before after : List String,
      a.registry.headers = before ++ m.configHeader :: after ∧
      a.document =
        (m.prologue ++
          String.join (before.map (store.blockOf m.stem)) ++
          store.blockOf m.stem m.configHeader ++ (m.epilogue ++ "\n") ++
          String.join (after.map (store.blockOf m.stem)) ++
          m.openingLine ++
          String.join (m.sources.map (store.blockOf m.stem)) ++
          m.closingLine).toUTF8 := by
  obtain ⟨hvalid, -, hread, -⟩ := render_eq_ok_iff.1 h
  obtain ⟨hregistry, hexcluded, hseed⟩ := registry_of_render h
  have hconfig : m.configHeader ∈ a.registry.headers :=
    hseed.subset hvalid.configHeader_mem
  refine ⟨fun name hname => (hread name hname).eq, hregistry.nodup, ?_,
    List.count_eq_one_of_mem hregistry.nodup hconfig, ?_⟩
  · intro name hname
    rw [← hexcluded]
    exact hregistry.not_excluded name hname
  · obtain ⟨before, after, hsplit⟩ := List.append_of_mem hconfig
    -- Since no header occurs twice, the others have plain blocks as sections.
    have hnodup := hregistry.nodup
    rw [hsplit, List.nodup_middle, List.nodup_cons, List.mem_append, not_or] at hnodup
    obtain ⟨⟨hbefore, hafter⟩, -⟩ := hnodup
    refine ⟨before, after, hsplit, ?_⟩
    have hsection : m.headerSection store m.configHeader =
        store.blockOf m.stem m.configHeader ++ (m.epilogue ++ "\n") := by
      rw [headerSection, if_pos rfl]
    rw [document_eq_of_render h, documentText, hsplit, List.map_append,
      List.map_cons, map_headerSection_of_not_mem hbefore,
      map_headerSection_of_not_mem hafter, hsection, String.join_append, String.join_cons]
    simp only [String.append_assoc]

/-- The document of the sample. -/
def sampleText : String :=
  String.join
    ["/* lib */\n",
     "/* === cfg.h === */\n", "#define API\n", "/* #include \"far.h\" */\n",
     "#undef API\n", "\n",
     "/* === near.h === */\n",
     "/* === tail.h === */\n", "int tail;\n",
     "#if defined(LIB_IMPLEMENTATION) || defined(LIB_IMPL)\n",
     "/* === b.c === */\n", "/* #include \"cfg.h\" */\n",
     "/*   #include \"near.h\" */\n", "/* #include \"skip.h\" */\n", "int b;\n",
     "/* === a.c === */\n", "/* near */\n", "/* #include \"near.h\" */\n",
     "/* #include \"tail.h */\n", "int a;\n",
     "#endif /* defined(LIB_IMPLEMENTATION) || defined(LIB_IMPL) */\n"]

/-- What rendering makes of the sample. -/
def sampleAmalgamation : Amalgamation where
  registry := sampleRegistry
  document := sampleText.toUTF8
  stats := { headers := 3, sources := 2, commentedOut := 6, lines := 21 }

theorem documentText_sample :
    sample.documentText Store.sample sampleRegistry.headers = sampleText := by
  decide +kernel

theorem documentStats_sample :
    sample.documentStats Store.sample sampleRegistry.headers = sampleAmalgamation.stats := by
  -- The line feeds are counted text by text, since a long text is slow to take apart.
  have hlines : Text.countBreaks sampleText = sampleAmalgamation.stats.lines := by
    rw [sampleText, Text.countBreaks_join]
    decide +kernel
  rw [documentStats, documentText_sample, Stats.withLinesOf, hlines]
  decide +kernel

theorem readable_sample : ∀ name ∈ sampleRegistry.headers ++ sample.sources,
    Store.sample.Readable name := by
  decide

theorem render_sample_eq_ok : sample.render Store.sample = .ok sampleAmalgamation := by
  have hvalid : sample.Valid := validate_eq_ok_iff_valid.1 rfl
  rw [hvalid.render_eq_ok discover_sample_eq_ok readable_sample, documentText_sample,
    documentStats_sample]
  rfl

theorem document_of_render_sample :
    sample.render Store.sample = .ok sampleAmalgamation ∧
    sampleRegistry.headers.count sample.configHeader = 1 ∧
    ∃ before after : List String,
      sampleRegistry.headers = before ++ sample.configHeader :: after ∧
      sampleText.toUTF8 =
        (sample.prologue ++
          String.join (before.map (Store.sample.blockOf sample.stem)) ++
          Store.sample.blockOf sample.stem sample.configHeader ++
          (sample.epilogue ++ "\n") ++
          String.join (after.map (Store.sample.blockOf sample.stem)) ++
          sample.openingLine ++
          String.join (sample.sources.map (Store.sample.blockOf sample.stem)) ++
          sample.closingLine).toUTF8 := by
  obtain ⟨-, -, -, hcount, hdocument⟩ := document_of_render render_sample_eq_ok
  exact ⟨render_sample_eq_ok, hcount, hdocument⟩

end Manifest
end Amalgam
