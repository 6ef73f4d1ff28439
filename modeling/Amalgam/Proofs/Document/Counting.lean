import Amalgam.Proofs.Document.Grammar
import Amalgam.Proofs.Text.Lines

namespace Amalgam

/-!
# The counters of a document

An emission that succeeds has counted every block once, every local include of every
emitted file once, and every line once.  A file that is emitted twice is counted twice.

Nothing is asked of the manifest or of the headers.  A destination that refuses a write
is not treated here; then the counters stay behind.
-/

/-! ## Line feeds and lines -/

namespace Text

theorem IsFullLine.countBreaks {line : String} (h : IsFullLine line) :
    countBreaks line = 1 := by
  obtain ⟨body, hbody, hline⟩ := h
  rw [Text.countBreaks, hline, List.count_append, List.count_eq_zero_of_not_mem hbody]
  rfl

/-- A text that does not end in the middle of a line has as many lines as line feeds. -/
theorem length_linesOf {s : String} (h : IsClosed s) :
    (linesOf s).length = countBreaks s := by
  have hone : (linesOf s).map countBreaks = (linesOf s).map fun _ => 1 :=
    List.map_congr_left fun line hline => (isFullLine_of_mem_linesOf h line hline).countBreaks
  calc
    (linesOf s).length = ((linesOf s).map fun _ => 1).sum := by simp
    _ = ((linesOf s).map countBreaks).sum := by rw [hone]
    _ = countBreaks s := by rw [← countBreaks_join, join_linesOf]

end Text

/-! ## Sums of counters -/

/-- What adds up for two gains adds up for any number. -/
theorem Stats.sum_of_additive {f : Stats → Nat} (hzero : f 0 = 0)
    (hadd : ∀ s t, f (s + t) = f s + f t) (gains : List Stats) :
    f gains.sum = (gains.map f).sum := by
  induction gains with
  | nil => exact hzero
  | cons gain gains ih => rw [List.sum_cons, hadd, ih, List.map_cons, List.sum_cons]

namespace Manifest

variable {m : Manifest} {store : Store}

/-- Only the blocks of a document gain anything but lines. -/
theorem sum_gainIn_outline {f : Stats → Nat} (hzero : f 0 = 0)
    (hadd : ∀ s t, f (s + t) = f s + f t) (m : Manifest) (store : Store)
    (headers : List String) :
    f ((m.outline headers).map (Part.gainIn store m.stem)).sum =
      (headers.map fun name => f (Part.gainIn store m.stem (.header name))).sum +
        (m.sources.map fun name => f (Part.gainIn store m.stem (.source name))).sum := by
  have hparts : ∀ name, ((m.headerParts name).map fun part =>
      f (part.gainIn store m.stem)).sum = f (Part.gainIn store m.stem (.header name)) := by
    intro name
    unfold headerParts
    split
    · simp [Part.gainIn, hzero]
    · simp
  have hheaders : ((headers.flatMap m.headerParts).map fun part =>
      f (part.gainIn store m.stem)).sum =
        (headers.map fun name => f (Part.gainIn store m.stem (.header name))).sum := by
    induction headers with
    | nil => rfl
    | cons name headers ih =>
        rw [List.flatMap_cons, List.map_append, List.sum_append, hparts, ih, List.map_cons,
          List.sum_cons]
  have htext : ∀ content, f (Part.gainIn store m.stem (.text content)) = 0 := fun _ => hzero
  rw [Stats.sum_of_additive hzero hadd, List.map_map]
  simp only [outline, Function.comp_def, List.map_append, List.sum_append, hheaders, htext,
    List.map_singleton, List.sum_singleton, List.map_map, Nat.zero_add, Nat.add_zero]

section Counters

variable (m : Manifest) (store : Store) (headers : List String)

theorem headers_documentStats :
    (m.documentStats store headers).headers = headers.length := by
  have hsum := sum_gainIn_outline (f := Stats.headers) rfl (fun _ _ => rfl) m store headers
  exact hsum.trans (by simp [Part.gainIn])

theorem sources_documentStats :
    (m.documentStats store headers).sources = m.sources.length := by
  have hsum := sum_gainIn_outline (f := Stats.sources) rfl (fun _ _ => rfl) m store headers
  exact hsum.trans (by simp [Part.gainIn])

theorem commentedOut_documentStats :
    (m.documentStats store headers).commentedOut =
      ((headers ++ m.sources).map (store.localsOf m.stem)).sum := by
  rw [List.map_append, List.sum_append]
  exact sum_gainIn_outline (f := Stats.commentedOut) rfl (fun _ _ => rfl) m store headers

/-- Whatever the macros are, the last line of a document is closed. -/
theorem isTerminated_documentText :
    Text.isTerminated (m.documentText store headers) = true := by
  have hend : " */\n" = " */" ++ "\n" := by decide
  rw [documentText, closingLine, hend, ← String.append_assoc, ← String.append_assoc]
  exact Text.isTerminated_append_break _

end Counters

end Manifest

namespace Emission

variable {sink : Sink} {m : Manifest} {headers : List String} {store : Store}

/-- An emission to a destination without a limit that succeeds has appended the document
and has counted what it consists of. -/
theorem eq_document_of_ok (hsink : sink.limit = none) {stats : Stats}
    (h : (into sink m headers store).outcome = .ok stats) :
    (∀ name ∈ headers ++ m.sources, store.Readable name) ∧
      (into sink m headers store).written =
        sink.bytes ++ (m.documentText store headers).toUTF8 ∧
      stats = m.documentStats store headers := by
  cases hparts : writeParts store m.stem (m.outline headers) ⟨sink, {}⟩ with
  | error failure e =>
      rw [into_of_error hparts] at h
      contradiction
  | ok _ e =>
      obtain ⟨hread, he⟩ := (writeParts_eq_ok_iff hsink).1 hparts
      rw [into_of_ok hparts] at h ⊢
      rw [Manifest.join_textIn_outline] at he
      refine ⟨Manifest.readable_outline_iff.1 hread, by rw [he]; rfl, ?_⟩
      dsimp only at h
      split at h
      · contradiction
      · rw [← Except.ok.inj h, he]
        exact Stats.zero_add _

end Emission

namespace Manifest

/-- The counters of an emission that succeeds, for any manifest and headers.  What it has
written ends in a line feed, so its line feeds are its lines. -/
theorem counters_of_emission {m : Manifest} {headers : List String} {store : Store}
    {sink : Sink} {stats : Stats} (hsink : sink.limit = none)
    (h : (Emission.into sink m headers store).outcome = .ok stats) :
    (∀ name ∈ headers ++ m.sources, store name = .ok (store.textOf name)) ∧
    stats.headers = headers.length ∧
    stats.sources = m.sources.length ∧
    stats.commentedOut = ((headers ++ m.sources).map fun name =>
      (Text.linesOf (store.textOf name)).countP (Include.isLocal m.stem)).sum ∧
    ∃ output : String,
      (Emission.into sink m headers store).written = sink.bytes ++ output.toUTF8 ∧
      stats.lines = output.toList.count '\n' ∧
      output.toList.getLast? = some '\n' ∧
      stats.lines = (Text.linesOf output).length := by
  obtain ⟨hread, hwritten, rfl⟩ := Emission.eq_document_of_ok hsink h
  have hterminated := m.isTerminated_documentText store headers
  refine ⟨fun name hname => (hread name hname).eq, m.headers_documentStats store headers,
    m.sources_documentStats store headers, m.commentedOut_documentStats store headers,
    m.documentText store headers, hwritten, rfl, eq_of_beq hterminated, ?_⟩
  rw [Text.length_linesOf (Or.inr hterminated)]
  rfl

/-- An emission with a header that is given twice and a source that is a header too.  The
local includes of these files are counted for each of their blocks. -/
theorem counters_of_emission_sample :
    let emission := Emission.into Sink.unbounded sample ["cfg.h", "a.c", "cfg.h"] Store.sample
    Sink.unbounded.limit = none ∧
    ∃ stats, emission.outcome = .ok stats ∧
      stats.headers = 3 ∧ stats.sources = 2 ∧ stats.commentedOut = 9 ∧
      ∃ output : String, emission.written = output.toUTF8 ∧
        stats.lines = (Text.linesOf output).length := by
  intro emission
  have hread : ∀ name ∈ ["cfg.h", "a.c", "cfg.h"] ++ sample.sources,
      Store.sample.Readable name := by decide
  obtain ⟨e, hparts⟩ : ∃ e, writeParts Store.sample sample.stem
      (sample.outline ["cfg.h", "a.c", "cfg.h"]) ⟨Sink.unbounded, {}⟩ = .ok () e ∧
        e.sink.refusesFlush = false :=
    ⟨_, (writeParts_eq_ok_iff rfl).2 ⟨readable_outline_iff.2 hread, rfl⟩, rfl⟩
  have hok : emission.outcome = .ok e.stats :=
    (congrArg Emission.outcome (Emission.into_of_ok hparts.1)).trans (by rw [hparts.2]; rfl)
  obtain ⟨-, hheaders, hsources, hlocals, output, hwritten, -, -, hlines⟩ :=
    counters_of_emission rfl hok
  refine ⟨rfl, e.stats, hok, hheaders, hsources, hlocals.trans (by decide +kernel), output, ?_,
    hlines⟩
  exact hwritten.trans ByteArray.empty_append

end Manifest
end Amalgam
