import Amalgam.Proofs.Document.Counting
import Amalgam.Proofs.Text.Returns

namespace Amalgam

/-!
# Line endings of the input files

Files whose lines end in a carriage return and a line feed make the same document as
files whose lines end in a line feed alone, except that every copied line keeps the
terminator it came with.  What the run itself puts into the document always ends in a line
feed alone: markers, comments, line feeds that a file lacks, and injected texts.

So a document of such files has mixed line endings.  It is NOT the document of the other
files with its line endings replaced.
-/

/-- A stretch of a document, told apart by where its text comes from. -/
inductive Stretch where
  /-- What a run puts there: an injected text, a marker, the comment in the place of a
  local include, or a line feed that a file lacks. -/
  | made (text : String)
  /-- A line of a file, as it stands there. -/
  | copied (line : String)
deriving DecidableEq

namespace Stretch

def text : Stretch → String
  | .made text => text
  | .copied line => line

/-- The texts of stretches, one behind the other. -/
def textOf (stretches : List Stretch) : String :=
  String.join (stretches.map text)

/-- The stretch that a line of a file becomes. -/
def ofLine (stem line : String) : Stretch :=
  if Include.isLocal stem line then .made (Include.commentOut line) else .copied line

/-- The stretch with a carriage return before the terminator of a copied line. -/
def withReturns : Stretch → Stretch
  | .made text => .made text
  | .copied line => .copied (Text.withReturns line)

theorem text_ofLine (stem line : String) :
    (ofLine stem line).text = Include.relocate stem line := by
  cases hlocal : Include.isLocal stem line with
  | true => rw [ofLine, if_pos hlocal, Include.relocate_of_isLocal hlocal, text]
  | false =>
      rw [ofLine, if_neg (by simp [hlocal]), Include.relocate_of_not_isLocal hlocal, text]

theorem copied_eq_ofLine_iff {stem line other : String} :
    ofLine stem line = .copied other ↔ line = other ∧ Include.isLocal stem line = false := by
  cases hlocal : Include.isLocal stem line with
  | true => simp [ofLine, hlocal]
  | false => simp [ofLine, hlocal]

theorem textOf_append (stretches more : List Stretch) :
    textOf (stretches ++ more) = textOf stretches ++ textOf more := by
  rw [textOf, List.map_append, String.join_append, textOf, textOf]

theorem textOf_flatMap {α : Type} (xs : List α) (f : α → List Stretch) :
    textOf (xs.flatMap f) = String.join (xs.map fun x => textOf (f x)) := by
  rw [textOf, List.map_flatMap, join_flatMap]
  rfl

/-- Carriage returns are no line feeds. -/
theorem countBreaks_textOf_map_withReturns (stretches : List Stretch) :
    Text.countBreaks (textOf (stretches.map withReturns)) =
      Text.countBreaks (textOf stretches) := by
  have hstretch : ∀ s : Stretch,
      Text.countBreaks s.withReturns.text = Text.countBreaks s.text := by
    intro s
    cases s with
    | made text => rfl
    | copied line => exact Text.countBreaks_withReturns line
  simp only [textOf, Text.countBreaks_join, List.map_map, Function.comp_def, hstretch]

end Stretch

/-! ## The stretches of a document -/

/-- The stretches of the block of a named file of a store. -/
def Store.stretchesOf (store : Store) (stem name : String) : List Stretch :=
  let lines := Text.linesOf (store.textOf name)
  .made (markerLine name) :: (lines.map (Stretch.ofLine stem) ++
    if needsBreak stem lines then [.made "\n"] else [])

def Part.stretchesIn (store : Store) (stem : String) : Part → List Stretch
  | .text content => [.made content]
  | .header name => store.stretchesOf stem name
  | .source name => store.stretchesOf stem name

/-- The stretches of the document with the given headers. -/
def Manifest.stretches (m : Manifest) (store : Store) (headers : List String) :
    List Stretch :=
  (m.outline headers).flatMap (Part.stretchesIn store m.stem)

section Texts

variable {m : Manifest} {store : Store} {stem : String} {headers : List String}

theorem Store.textOf_stretchesOf (store : Store) (stem name : String) :
    Stretch.textOf (store.stretchesOf stem name) = store.blockOf stem name := by
  have hlines : ∀ lines : List String, (lines.map (Stretch.ofLine stem)).map Stretch.text =
      lines.map (Include.relocate stem) := by
    intro lines
    rw [List.map_map]
    exact List.map_congr_left fun line _ => Stretch.text_ofLine stem line
  have hbreak : ∀ lines : List String,
      Stretch.textOf (if needsBreak stem lines then [.made "\n"] else []) =
        closingBreak (lines.map (Include.relocate stem)) := by
    intro lines
    rw [closingBreak_map_relocate]
    cases needsBreak stem lines with
    | true => rfl
    | false => rfl
  rw [stretchesOf, ← List.cons_append, Stretch.textOf_append, hbreak, Stretch.textOf,
    List.map_cons, hlines, String.join_cons]
  rfl

theorem Part.textOf_stretchesIn (store : Store) (stem : String) (part : Part) :
    Stretch.textOf (part.stretchesIn store stem) = part.textIn store stem := by
  cases part with
  | text content =>
      show String.join [content] = content
      rw [String.join_cons, String.join_nil, String.append_empty]
  | header name => exact store.textOf_stretchesOf stem name
  | source name => exact store.textOf_stretchesOf stem name

/-- The stretches make up the document. -/
theorem Manifest.textOf_stretches (m : Manifest) (store : Store) (headers : List String) :
    Stretch.textOf (m.stretches store headers) = m.documentText store headers := by
  rw [stretches, Stretch.textOf_flatMap, ← join_textIn_outline]
  exact congrArg String.join
    (List.map_congr_left fun part _ => part.textOf_stretchesIn store m.stem)

theorem Store.copied_mem_stretchesOf_iff {name line : String} :
    .copied line ∈ store.stretchesOf stem name ↔
      line ∈ Text.linesOf (store.textOf name) ∧ Include.isLocal stem line = false := by
  have hbreak : ∀ lines : List String,
      Stretch.copied line ∉ (if needsBreak stem lines then [Stretch.made "\n"] else []) := by
    intro lines
    split <;> simp
  rw [stretchesOf, List.mem_cons, List.mem_append, List.mem_map]
  simp only [reduceCtorEq, false_or, hbreak, or_false, Stretch.copied_eq_ofLine_iff]
  constructor
  · rintro ⟨_, hline, rfl, hlocal⟩
    exact ⟨hline, hlocal⟩
  · rintro ⟨hline, hlocal⟩
    exact ⟨line, hline, rfl, hlocal⟩

/-- The copied lines of a document are the lines of its files that are no local
includes. -/
theorem Manifest.copied_mem_stretches_iff {line : String} :
    .copied line ∈ m.stretches store headers ↔
      ∃ name ∈ headers ++ m.sources, line ∈ Text.linesOf (store.textOf name) ∧
        Include.isLocal m.stem line = false := by
  rw [stretches, List.mem_flatMap]
  constructor
  · rintro ⟨part, hpart, hline⟩
    cases part with
    | text content => simp [Part.stretchesIn] at hline
    | header name =>
        exact ⟨name, List.mem_append_left _ (header_mem_outline_iff.1 hpart),
          Store.copied_mem_stretchesOf_iff.1 hline⟩
    | source name =>
        exact ⟨name, List.mem_append_right _ (source_mem_outline_iff.1 hpart),
          Store.copied_mem_stretchesOf_iff.1 hline⟩
  · rintro ⟨name, hname, hline⟩
    rw [← Store.copied_mem_stretchesOf_iff] at hline
    rcases List.mem_append.1 hname with hheader | hsource
    · exact ⟨.header name, header_mem_outline_iff.2 hheader, hline⟩
    · exact ⟨.source name, source_mem_outline_iff.2 hsource, hline⟩

end Texts

/-! ## The store with carriage returns -/

/-- The store with a carriage return before every line feed of every file. -/
def Store.withReturns (store : Store) : Store := fun name =>
  (store name).map Text.withReturns

section Returns

variable {m : Manifest} {store : Store} {stem name : String}

theorem Store.readable_withReturns_iff :
    store.withReturns.Readable name ↔ store.Readable name := by
  rw [Readable, Readable, withReturns]
  cases store name with
  | error cause => simp [Except.map]
  | ok content => simp [Except.map]

theorem Store.textOf_withReturns (store : Store) (name : String) :
    store.withReturns.textOf name = Text.withReturns (store.textOf name) := by
  rw [textOf, textOf, withReturns]
  cases store name with
  | error cause => rfl
  | ok content => rfl

theorem Include.namesIn_withReturns (stem content : String) :
    namesIn stem (Text.withReturns content) = namesIn stem content := by
  rw [namesIn, Text.linesOf_withReturns, List.filterMap_map]
  refine List.filterMap_congr fun line hline => ?_
  obtain ⟨body, hbody, hchars⟩ := (Text.areLines_linesOf content).exists_body line hline
  rw [Function.comp_apply, name?_withReturns hbody hchars]

theorem includedNames_withReturns (store : Store) (stem : String) (sources : List String) :
    includedNames store.withReturns stem sources = includedNames store stem sources := by
  simp only [includedNames, Store.textOf_withReturns, Include.namesIn_withReturns]

/-- Discovery does not see how the lines of the sources end. -/
theorem Manifest.discover_withReturns {r : Registry} (h : m.discover store = .ok r) :
    m.discover store.withReturns = .ok r := by
  obtain ⟨hread, hr⟩ := scanSources_eq_ok_iff.1 h
  refine scanSources_eq_ok_iff.2 ⟨fun source hsource => ?_, ?_⟩
  · exact Store.readable_withReturns_iff.2 (hread source hsource)
  · rw [includedNames_withReturns, hr]

theorem Store.localsOf_withReturns (store : Store) (stem name : String) :
    store.withReturns.localsOf stem name = store.localsOf stem name := by
  have hlines := Text.areLines_linesOf (store.textOf name)
  rw [localsOf, localsOf, countLocal, countLocal, textOf_withReturns,
    Text.linesOf_withReturns, List.countP_map]
  refine List.countP_congr fun line hline => ?_
  obtain ⟨body, hbody, hchars⟩ := hlines.exists_body line hline
  rw [Function.comp_apply, Include.isLocal_withReturns hbody hchars]

theorem Include.isTerminated_relocate_withReturns {line : String} {body : List Char}
    (hbody : '\n' ∉ body) (hline : line.toList = body ∨ line.toList = body ++ ['\n']) :
    Text.isTerminated (relocate stem (Text.withReturns line)) =
      Text.isTerminated (relocate stem line) := by
  have hlocal : isLocal stem (Text.withReturns line) = isLocal stem line :=
    isLocal_withReturns hbody hline
  cases hcase : isLocal stem line with
  | true =>
      rw [relocate_of_isLocal hcase, relocate_of_isLocal (hlocal.trans hcase),
        commentOut_withReturns hbody hline]
  | false =>
      rw [relocate_of_not_isLocal hcase, relocate_of_not_isLocal (hlocal.trans hcase),
        Text.isTerminated_withReturns hbody hline]

theorem Stretch.ofLine_withReturns {line : String} {body : List Char} (hbody : '\n' ∉ body)
    (hline : line.toList = body ∨ line.toList = body ++ ['\n']) :
    ofLine stem (Text.withReturns line) = (ofLine stem line).withReturns := by
  rw [ofLine, ofLine, Include.isLocal_withReturns hbody hline,
    Include.commentOut_withReturns hbody hline]
  split
  · rfl
  · rfl

/-- A file lacks its last line feed with or without carriage returns. -/
theorem needsBreak_map_withReturns (stem content : String) :
    needsBreak stem ((Text.linesOf content).map Text.withReturns) =
      needsBreak stem (Text.linesOf content) := by
  rw [needsBreak, needsBreak, List.getLast?_map]
  cases hlast : (Text.linesOf content).getLast? with
  | none => rfl
  | some line =>
      have hline : line ∈ Text.linesOf content := List.mem_of_getLast? hlast
      obtain ⟨body, hbody, hchars⟩ := (Text.areLines_linesOf content).exists_body line hline
      rw [Option.map_some]
      show (!Text.isTerminated (Include.relocate stem (Text.withReturns line))) =
        !Text.isTerminated (Include.relocate stem line)
      rw [Include.isTerminated_relocate_withReturns hbody hchars]

theorem Store.stretchesOf_withReturns (store : Store) (stem name : String) :
    store.withReturns.stretchesOf stem name =
      (store.stretchesOf stem name).map Stretch.withReturns := by
  have hlines := Text.areLines_linesOf (store.textOf name)
  have hmap : ((Text.linesOf (store.textOf name)).map Text.withReturns).map
      (Stretch.ofLine stem) =
      ((Text.linesOf (store.textOf name)).map (Stretch.ofLine stem)).map
        Stretch.withReturns := by
    rw [List.map_map, List.map_map]
    refine List.map_congr_left fun line hline => ?_
    obtain ⟨body, hbody, hchars⟩ := hlines.exists_body line hline
    rw [Function.comp_apply, Function.comp_apply, Stretch.ofLine_withReturns hbody hchars]
  simp only [stretchesOf, textOf_withReturns, Text.linesOf_withReturns, hmap,
    needsBreak_map_withReturns, List.map_cons, List.map_append]
  split
  · rfl
  · rfl

namespace Manifest

theorem stretches_withReturns (m : Manifest) (store : Store) (headers : List String) :
    m.stretches store.withReturns headers =
      (m.stretches store headers).map Stretch.withReturns := by
  rw [stretches, stretches, List.map_flatMap]
  congr 1
  funext part
  cases part with
  | text content => rfl
  | header name => exact store.stretchesOf_withReturns m.stem name
  | source name => exact store.stretchesOf_withReturns m.stem name

/-- None of the four counters sees how the lines end. -/
theorem documentStats_withReturns (m : Manifest) (store : Store) (headers : List String) :
    m.documentStats store.withReturns headers = m.documentStats store headers := by
  have hgain : Part.gainIn store.withReturns m.stem = Part.gainIn store m.stem := by
    funext part
    cases part with
    | text content => rfl
    | header name => rw [Part.gainIn, Part.gainIn, Store.localsOf_withReturns]
    | source name => rw [Part.gainIn, Part.gainIn, Store.localsOf_withReturns]
  rw [documentStats, documentStats, hgain, Stats.withLinesOf, Stats.withLinesOf,
    ← textOf_stretches, ← textOf_stretches, stretches_withReturns,
    Stretch.countBreaks_textOf_map_withReturns]

/-- Carriage returns before all line feeds of all files change neither the registry nor
the counters, and they go into the document where they stand in the files: in front of the
terminator of every copied line that has one, and nowhere else. -/
theorem render_withReturns {a : Amalgamation} (h : m.render store = .ok a) :
    let stretches := m.stretches store a.registry.headers
    ∃ b : Amalgamation, m.render store.withReturns = .ok b ∧
      b.registry = a.registry ∧ b.stats = a.stats ∧
      a.document = (Stretch.textOf stretches).toUTF8 ∧
      b.document = (Stretch.textOf (stretches.map Stretch.withReturns)).toUTF8 ∧
      (∀ line, .copied line ∈ stretches ↔
        ∃ name ∈ a.registry.headers ++ m.sources, line ∈ Text.linesOf (store.textOf name) ∧
          Include.isLocal m.stem line = false) ∧
      ∀ line, .copied line ∈ stretches →
        ('\n' ∉ line.toList ∧ Text.withReturns line = line) ∨
          ∃ body : String, '\n' ∉ body.toList ∧ line = body ++ "\n" ∧
            Text.withReturns line = body ++ "\r\n" := by
  intro stretches
  obtain ⟨hvalid, hdiscover, hread, ha⟩ := render_eq_ok_iff.1 h
  have hreadReturns : ∀ name ∈ a.registry.headers ++ m.sources,
      store.withReturns.Readable name :=
    fun name hname => Store.readable_withReturns_iff.2 (hread name hname)
  have hrender := hvalid.render_eq_ok (discover_withReturns hdiscover) hreadReturns
  refine ⟨_, hrender, rfl, ?_, ?_, ?_, fun line => copied_mem_stretches_iff, ?_⟩
  · rw [documentStats_withReturns]
    exact (congrArg Amalgamation.stats ha).symm
  · rw [textOf_stretches, document_eq_of_render h]
  · rw [← stretches_withReturns, textOf_stretches]
  · intro line hcopied
    obtain ⟨name, -, hline, -⟩ := copied_mem_stretches_iff.1 hcopied
    obtain ⟨body, hbody, hchars⟩ :=
      (Text.areLines_linesOf (store.textOf name)).exists_body line hline
    exact Text.withReturns_cases hbody hchars

/-- The sample with carriage returns.  The local include that had one already is commented
out as before, and the lines that end their files without a line feed stay as they are. -/
theorem render_withReturns_sample :
    sample.render Store.sample = .ok sampleAmalgamation ∧
    ∃ b : Amalgamation, sample.render Store.sample.withReturns = .ok b ∧
      b.registry = sampleRegistry ∧ b.stats = sampleAmalgamation.stats ∧
      b.document = (String.join
        ["/* lib */\n",
         "/* === cfg.h === */\n", "#define API\r\n", "/* #include \"far.h\" */\n",
         "#undef API\n", "\n",
         "/* === near.h === */\n",
         "/* === tail.h === */\n", "int tail;\r\n",
         "#if defined(LIB_IMPLEMENTATION) || defined(LIB_IMPL)\n",
         "/* === b.c === */\n", "/* #include \"cfg.h\" */\n",
         "/*   #include \"near.h\" */\n", "/* #include \"skip.h\" */\n", "int b;\n",
         "/* === a.c === */\n", "/* near */\r\n", "/* #include \"near.h\" */\n",
         "/* #include \"tail.h */\n", "int a;\r\n",
         "#endif /* defined(LIB_IMPLEMENTATION) || defined(LIB_IMPL) */\n"]).toUTF8 := by
  obtain ⟨b, hb, hregistry, hstats, -, hdocument, -⟩ := render_withReturns render_sample_eq_ok
  refine ⟨render_sample_eq_ok, b, hb, hregistry, hstats, ?_⟩
  rw [hdocument]
  refine congrArg String.toUTF8 ?_
  decide +kernel

end Manifest

end Returns
end Amalgam
