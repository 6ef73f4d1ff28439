import Amalgam.Proofs.Document.Lines

namespace Amalgam

/-!
# The seams of a document

Where one piece of a document ends and the next one begins, a line ends.  A block ends
in a line feed whatever its file holds, and so does the text that is injected behind
the configuration header.

The prologue and the epilogue are copied as they are.  An open prologue makes the first
marker stand in the middle of a line, and an open epilogue takes the line feed behind it
as its own, so that no empty line is left.
-/

/-! ## The ends of blocks -/

theorem isTerminated_markerLine (name : String) :
    Text.isTerminated (markerLine name) = true := by
  have hend : " === */\n" = " === */" ++ "\n" := by decide
  rw [markerLine, hend, ← String.append_assoc]
  exact Text.isTerminated_append_break _

/-- A block ends in a line feed, whatever the file holds. -/
theorem Store.isTerminated_blockOf (store : Store) (stem name : String) :
    Text.isTerminated (store.blockOf stem name) = true := by
  rw [Store.blockOf, block_eq_join, String.join_cons]
  refine Text.isTerminated_append_of_isClosed (isTerminated_markerLine name) ?_
  exact Text.isClosed_join fun line hline =>
    (isFullLine_of_mem_relocatedLines hline).isClosed

theorem Store.exists_blockOf_eq (store : Store) (stem name : String) :
    ∃ body, store.blockOf stem name = markerLine name ++ body :=
  ⟨_, by rw [Store.blockOf, block_eq_join, String.join_cons]⟩

/-! ## Where the pieces stand -/

/-- A piece stands in a text right behind a leading text. -/
def StandsBehind (lead piece text : String) : Prop :=
  ∃ rest, text = lead ++ piece ++ rest

/-- The marker of the first file that is still to come, or the given line when there is
none. -/
def delimiterOf (last : String) : List String → String
  | [] => last
  | name :: _ => markerLine name

/-- In front of pieces that begin with markers there is a delimiter, whether or not there
are any pieces. -/
theorem standsBehind_delimiterOf {pieceOf : String → String}
    (hpiece : ∀ name, ∃ body, pieceOf name = markerLine name ++ body)
    (lead last rest : String) (after : List String) :
    StandsBehind lead (delimiterOf last after)
      (lead ++ String.join (after.map pieceOf) ++ last ++ rest) := by
  cases after with
  | nil =>
      refine ⟨rest, ?_⟩
      rw [List.map_nil, String.join_nil, String.append_empty, delimiterOf]
  | cons name after =>
      obtain ⟨body, hbody⟩ := hpiece name
      refine ⟨body ++ String.join (after.map pieceOf) ++ last ++ rest, ?_⟩
      simp only [delimiterOf, List.map_cons, String.join_cons, hbody, String.append_assoc]

namespace Manifest

variable {m : Manifest} {store : Store} {headers before : List String}

/-- What stands in front of the block of a header, given the headers before it. -/
def textBeforeHeader (m : Manifest) (store : Store) (before : List String) : String :=
  m.prologue ++ String.join (before.map (m.headerSection store))

/-- What stands in front of the block of a source, given the headers and the sources
before it. -/
def textBeforeSource (m : Manifest) (store : Store) (headers before : List String) :
    String :=
  m.textBeforeHeader store headers ++ m.openingLine ++
    String.join (before.map (store.blockOf m.stem))

theorem isTerminated_openingLine (m : Manifest) : Text.isTerminated m.openingLine = true :=
  Text.isTerminated_append_break _

theorem isTerminated_headerSection (m : Manifest) (store : Store) (name : String) :
    Text.isTerminated (m.headerSection store name) = true := by
  unfold headerSection
  refine Text.isTerminated_append_of_isClosed (store.isTerminated_blockOf m.stem name) ?_
  split
  · exact Text.isClosed_append_break m.epilogue
  · exact Or.inl rfl

/-- Only the first header can begin in the middle of a line, when the prologue ends in
one. -/
theorem isClosed_textBeforeHeader_iff :
    Text.IsClosed (m.textBeforeHeader store before) ↔
      before ≠ [] ∨ Text.IsClosed m.prologue := by
  by_cases hbefore : before = []
  · simp [textBeforeHeader, hbefore]
  · have hsections : Text.isTerminated
        (String.join (before.map (m.headerSection store))) = true :=
      Text.isTerminated_join (by simpa using hbefore)
        (List.forall_mem_map.2 fun other _ => m.isTerminated_headerSection store other)
    exact iff_of_true (Or.inr (Text.isTerminated_append_right _ hsections)) (Or.inl hbefore)

theorem isTerminated_textBeforeSource :
    Text.isTerminated (m.textBeforeSource store headers before) = true := by
  have hopening := Text.isTerminated_append_right (m.textBeforeHeader store headers)
    m.isTerminated_openingLine
  refine Text.isTerminated_append_of_isClosed hopening ?_
  exact Text.isClosed_join (List.forall_mem_map.2 fun other _ =>
    Or.inr (store.isTerminated_blockOf m.stem other))

theorem textBeforeHeader_append (before after : List String) :
    m.textBeforeHeader store (before ++ after) =
      m.textBeforeHeader store before ++ String.join (after.map (m.headerSection store)) := by
  rw [textBeforeHeader, textBeforeHeader, List.map_append, String.join_append,
    String.append_assoc]

theorem textBeforeHeader_append_configHeader (m : Manifest) (store : Store)
    (before : List String) :
    m.textBeforeHeader store (before ++ [m.configHeader]) =
      m.textBeforeHeader store before ++ store.blockOf m.stem m.configHeader ++
        (m.epilogue ++ "\n") := by
  rw [textBeforeHeader_append, List.map_singleton, String.join_cons, String.join_nil,
    String.append_empty, headerSection, if_pos rfl, String.append_assoc]

theorem textBeforeSource_append (before after : List String) :
    m.textBeforeSource store headers (before ++ after) =
      m.textBeforeSource store headers before ++
        String.join (after.map (store.blockOf m.stem)) := by
  rw [textBeforeSource, textBeforeSource, List.map_append, String.join_append,
    ← String.append_assoc]

theorem exists_headerSection_eq (m : Manifest) (store : Store) (name : String) :
    ∃ body, m.headerSection store name = markerLine name ++ body := by
  obtain ⟨body, hblock⟩ := store.exists_blockOf_eq m.stem name
  exact ⟨_, by rw [headerSection, hblock, String.append_assoc]⟩

/-- Behind some of the headers stands the marker of the next one, or the opening line. -/
theorem standsBehind_textBeforeHeader (m : Manifest) (store : Store)
    (before after : List String) :
    StandsBehind (m.textBeforeHeader store before) (delimiterOf m.openingLine after)
      (m.documentText store (before ++ after)) := by
  have htext : m.documentText store (before ++ after) =
      m.textBeforeHeader store before ++ String.join (after.map (m.headerSection store)) ++
        m.openingLine ++
        (String.join (m.sources.map (store.blockOf m.stem)) ++ m.closingLine) := by
    rw [← textBeforeHeader_append, ← String.append_assoc]
    rfl
  rw [htext]
  exact standsBehind_delimiterOf (m.exists_headerSection_eq store) _ _ _ after

/-- Behind some of the sources stands the marker of the next one, or the closing line. -/
theorem standsBehind_textBeforeSource {after : List String}
    (h : m.sources = before ++ after) :
    StandsBehind (m.textBeforeSource store headers before) (delimiterOf m.closingLine after)
      (m.documentText store headers) := by
  have htext : m.documentText store headers =
      m.textBeforeSource store headers before ++
        String.join (after.map (store.blockOf m.stem)) ++ m.closingLine ++ "" := by
    rw [← textBeforeSource_append, ← h, String.append_empty]
    rfl
  rw [htext]
  exact standsBehind_delimiterOf (store.exists_blockOf_eq m.stem) _ _ _ after

/-- How the pieces of a document meet, given its headers. -/
structure HasSeams (m : Manifest) (store : Store) (headers : List String) (text : String) :
    Prop where
  /-- A block begins with its marker and ends in a line feed. -/
  block_closed : ∀ name ∈ headers ++ m.sources,
    (∃ body, store.blockOf m.stem name = markerLine name ++ body) ∧
      Text.isTerminated (store.blockOf m.stem name) = true
  /-- The first marker depends on the prologue, the others begin lines. -/
  header_marker : ∀ before name after, headers = before ++ name :: after →
    StandsBehind (m.textBeforeHeader store before) (markerLine name) text ∧
      (Text.IsClosed (m.textBeforeHeader store before) ↔
        before ≠ [] ∨ Text.IsClosed m.prologue)
  opening_line : StandsBehind (m.textBeforeHeader store headers) m.openingLine text ∧
    Text.IsClosed (m.textBeforeHeader store headers)
  source_marker : ∀ before name after, m.sources = before ++ name :: after →
    StandsBehind (m.textBeforeSource store headers before) (markerLine name) text ∧
      Text.IsClosed (m.textBeforeSource store headers before)
  closing_line : text = m.textBeforeSource store headers m.sources ++ m.closingLine ∧
    Text.IsClosed (m.textBeforeSource store headers m.sources)
  config_mem : m.configHeader ∈ headers
  /-- The lines between the block of the configuration header and the next delimiter. -/
  epilogue_lines : ∀ before after, headers = before ++ m.configHeader :: after → ∃ rest,
    text = m.textBeforeHeader store before ++ store.blockOf m.stem m.configHeader ++
      (m.epilogue ++ "\n") ++ (delimiterOf m.openingLine after ++ rest) ∧
    Text.linesOf text =
      Text.linesOf (m.textBeforeHeader store before ++ store.blockOf m.stem m.configHeader) ++
        Text.linesOf (m.epilogue ++ "\n") ++
        Text.linesOf (delimiterOf m.openingLine after ++ rest) ∧
    ((Text.linesOf (m.epilogue ++ "\n")).getLast? = some "\n" ↔ Text.IsClosed m.epilogue)

/-- The pieces of any document meet in this way, as long as the configuration header is
among the headers. -/
theorem hasSeams_documentText (hconfig : m.configHeader ∈ headers) :
    m.HasSeams store headers (m.documentText store headers) where
  block_closed name _ :=
    ⟨store.exists_blockOf_eq m.stem name, store.isTerminated_blockOf m.stem name⟩
  header_marker before name after h := by
    rw [h]
    exact ⟨m.standsBehind_textBeforeHeader store before (name :: after),
      isClosed_textBeforeHeader_iff⟩
  opening_line := by
    have hstands := m.standsBehind_textBeforeHeader store headers []
    rw [List.append_nil] at hstands
    exact ⟨hstands, isClosed_textBeforeHeader_iff.2 (Or.inl (List.ne_nil_of_mem hconfig))⟩
  source_marker before name after h :=
    ⟨standsBehind_textBeforeSource h, Or.inr isTerminated_textBeforeSource⟩
  closing_line := ⟨rfl, Or.inr isTerminated_textBeforeSource⟩
  config_mem := hconfig
  epilogue_lines before after h := by
    obtain ⟨rest, htext⟩ :=
      m.standsBehind_textBeforeHeader store (before ++ [m.configHeader]) after
    rw [List.append_assoc, List.singleton_append, ← h,
      textBeforeHeader_append_configHeader, String.append_assoc] at htext
    have hblock := Text.isTerminated_append_right (m.textBeforeHeader store before)
      (store.isTerminated_blockOf m.stem m.configHeader)
    have hinjected := Text.isClosed_append_break m.epilogue
    refine ⟨rest, htext, ?_, Text.getLast?_linesOf_append_break⟩
    rw [htext, Text.linesOf_append (Text.IsClosed.append (Or.inr hblock) hinjected),
      Text.linesOf_append (Or.inr hblock)]

/-- In a rendered document every block ends in a line feed and every delimiter begins a
line, except that the first marker does so only if the prologue leaves no open line.  The
text injected behind the configuration header ends in an empty line exactly when the
epilogue leaves no open line. -/
theorem seams_of_render {a : Amalgamation} (h : m.render store = .ok a) :
    ∃ text : String, Utf8.decode a.document = .ok text ∧
      m.HasSeams store a.registry.headers text := by
  obtain ⟨hvalid, -⟩ := render_eq_ok_iff.1 h
  obtain ⟨-, -, hseed⟩ := registry_of_render h
  have hconfig : m.configHeader ∈ a.registry.headers := hseed.subset hvalid.configHeader_mem
  refine ⟨_, ?_, hasSeams_documentText hconfig⟩
  rw [document_eq_of_render h, decode_toUTF8]

/-- The sample with a prologue and an epilogue that end in the middle of a line. -/
def openSample : Manifest :=
  { sample with prologue := "/* lib */", epilogue := "#undef API" }

/-- The first marker follows the prologue on its line, and no empty line follows the
epilogue. -/
theorem seams_of_render_openSample :
    ∃ a : Amalgamation, openSample.render Store.sample = .ok a ∧
      ∃ text : String, Utf8.decode a.document = .ok text ∧
        openSample.HasSeams Store.sample a.registry.headers text ∧
        ¬ Text.IsClosed (openSample.textBeforeHeader Store.sample []) ∧
        ¬ (Text.linesOf (openSample.epilogue ++ "\n")).getLast? = some "\n" := by
  have hvalid : openSample.Valid := validate_eq_ok_iff_valid.1 rfl
  have hdiscover : openSample.discover Store.sample = .ok sampleRegistry :=
    discover_sample_eq_ok
  have hread : ∀ name ∈ sampleRegistry.headers ++ openSample.sources,
      Store.sample.Readable name := by decide
  have hrender := hvalid.render_eq_ok hdiscover hread
  obtain ⟨text, hdecode, hseams⟩ := seams_of_render hrender
  obtain ⟨rest, -, -, hempty⟩ := hseams.epilogue_lines [] ["near.h", "tail.h"] rfl
  obtain ⟨-, hfirst⟩ := hseams.header_marker [] "cfg.h" ["near.h", "tail.h"] rfl
  refine ⟨_, hrender, text, hdecode, hseams, ?_, ?_⟩
  · rw [hfirst]
    decide
  · rw [hempty]
    decide

end Manifest
end Amalgam
