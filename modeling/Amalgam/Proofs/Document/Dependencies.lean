import Amalgam.Proofs.Document.Grammar

namespace Amalgam

/-!
# Where the included files are

A directive that becomes a comment leaves a gap, unless the file that it names is in
the document.  For the directives of the sources this is so: discovery has seen them,
and it takes every name that is not excluded.

Headers are not scanned.  A directive of a header is covered only when its file is a
seed header, or excluded, or included by some source too.  A file that nothing but
headers include is NOT in the document, although its directives are commented out.
-/

namespace Manifest

variable {m : Manifest} {store : Store}

/-- A line of a file became a comment, and this is the name of the file that it
included. -/
structure IsCommentedOut (m : Manifest) (store : Store) (file line included : String) :
    Prop where
  line_mem : line ∈ Text.linesOf (store.textOf file)
  replaced : Include.replacement? m.stem line = some (Include.commentOut line)
  name_eq : Include.name? m.stem line = some included

/-- Every line that names a file is replaced. -/
theorem isCommentedOut_iff {file line included : String} :
    m.IsCommentedOut store file line included ↔
      line ∈ Text.linesOf (store.textOf file) ∧
        Include.name? m.stem line = some included := by
  constructor
  · exact fun h => ⟨h.line_mem, h.name_eq⟩
  · rintro ⟨hline, hname⟩
    have hlocal : Include.isLocal m.stem line = true := by
      rw [Include.isLocal, hname, Option.isSome_some]
    exact ⟨hline, if_pos hlocal, hname⟩

/-- Scanning the sources finds what their directives name. -/
theorem mem_includedNames_iff_isCommentedOut {included : String} :
    included ∈ includedNames store m.stem m.sources ↔
      ∃ source ∈ m.sources, ∃ line, m.IsCommentedOut store source line included := by
  simp only [mem_includedNames, Include.mem_namesIn, isCommentedOut_iff]

/-- A file is a header of the document or excluded exactly when it is a seed header, or
excluded, or included by a source. -/
theorem Valid.mem_headers_or_excluded_iff (h : m.Valid) {r : Registry}
    (hdiscover : m.discover store = .ok r) {included : String} :
    included ∈ r.headers ∨ included ∈ m.excluded ↔
      included ∈ m.headers ∨ included ∈ m.excluded ∨
        ∃ source ∈ m.sources, ∃ line, m.IsCommentedOut store source line included := by
  rw [h.mem_headers_of_discover hdiscover, ← mem_includedNames_iff_isCommentedOut]
  tauto

/-- What the commented-out directives of a document named.  Those of the sources named
headers of the document or excluded files.  One of a header did so exactly when the file
is a seed header, or excluded, or included by a source. -/
theorem included_of_isCommentedOut {a : Amalgamation} (h : m.render store = .ok a) :
    a.document = (m.documentText store a.registry.headers).toUTF8 ∧
    (∀ source ∈ m.sources, ∀ line included,
      m.IsCommentedOut store source line included →
        included ∈ a.registry.headers ∨ included ∈ m.excluded) ∧
    ∀ header ∈ a.registry.headers, ∀ line included,
      m.IsCommentedOut store header line included →
        (included ∈ a.registry.headers ∨ included ∈ m.excluded ↔
          included ∈ m.headers ∨ included ∈ m.excluded ∨
            ∃ source ∈ m.sources, ∃ other,
              m.IsCommentedOut store source other included) := by
  obtain ⟨hvalid, hdiscover, -⟩ := render_eq_ok_iff.1 h
  refine ⟨document_eq_of_render h, ?_, ?_⟩
  · intro source hsource line included hline
    rw [hvalid.mem_headers_or_excluded_iff hdiscover]
    exact Or.inr (Or.inr ⟨source, hsource, line, hline⟩)
  · intro header _ line included _
    exact hvalid.mem_headers_or_excluded_iff hdiscover

theorem included_of_isCommentedOut_sample :
    sample.render Store.sample = .ok sampleAmalgamation ∧
    (sample.IsCommentedOut Store.sample "b.c" "#include \"skip.h\"\n" "skip.h" ∧
      ("skip.h" ∈ sampleRegistry.headers ∨ "skip.h" ∈ sample.excluded)) ∧
    sample.IsCommentedOut Store.sample "cfg.h" "#include \"far.h\"" "far.h" ∧
      ¬ ("far.h" ∈ sample.headers ∨ "far.h" ∈ sample.excluded ∨
        ∃ source ∈ sample.sources, ∃ other,
          sample.IsCommentedOut Store.sample source other "far.h") := by
  obtain ⟨-, hsources, hheaders⟩ := included_of_isCommentedOut render_sample_eq_ok
  have hskip : sample.IsCommentedOut Store.sample "b.c" "#include \"skip.h\"\n" "skip.h" :=
    isCommentedOut_iff.2 (by decide +kernel)
  have hfar : sample.IsCommentedOut Store.sample "cfg.h" "#include \"far.h\"" "far.h" :=
    isCommentedOut_iff.2 (by decide +kernel)
  refine ⟨render_sample_eq_ok, ⟨hskip, hsources "b.c" (by decide) _ _ hskip⟩, hfar, ?_⟩
  rw [← hheaders "cfg.h" (by decide) _ _ hfar]
  decide

/-- A source, the header that it includes, and a header that only this header
includes. -/
def chained : Manifest where
  sources := ["a.c"]
  headers := ["x.h"]
  excluded := []
  configHeader := "x.h"
  stem := ""
  macros := ["LIB_IMPL"]
  prologue := ""
  epilogue := ""

end Manifest

/-- The files of the chain. -/
def Store.chained : Store :=
  Store.ofList
    [("a.c", "#include \"x.h\"\nint a;\n"), ("x.h", "#include \"y.h\"\nint x;\n"),
     ("y.h", "int y;\n")]

namespace Manifest

/-- A directive of a header becomes a comment, and the file that it named is not in the
document. -/
theorem lost_include_of_header :
    chained.validate = .ok () ∧
    ∃ a : Amalgamation, chained.render Store.chained = .ok a ∧
      "x.h" ∈ a.registry.headers ∧
      chained.IsCommentedOut Store.chained "x.h" "#include \"y.h\"\n" "y.h" ∧
      Store.chained.Readable "y.h" ∧
      ¬ ∀ file ∈ a.registry.headers ++ chained.sources, ∀ line included,
        chained.IsCommentedOut Store.chained file line included →
          included ∈ a.registry.headers ∨ included ∈ chained.excluded := by
  have hvalid : chained.Valid := validate_eq_ok_iff_valid.1 rfl
  have hdiscover : chained.discover Store.chained = .ok ⟨["x.h"], []⟩ := rfl
  have hread : ∀ name ∈ ["x.h"] ++ chained.sources, Store.chained.Readable name := by decide
  have hlost : chained.IsCommentedOut Store.chained "x.h" "#include \"y.h\"\n" "y.h" :=
    isCommentedOut_iff.2 (by decide +kernel)
  refine ⟨rfl, _, hvalid.render_eq_ok hdiscover hread, by decide, hlost, by decide, ?_⟩
  intro hcovered
  exact absurd (hcovered "x.h" (by decide) _ _ hlost) (by decide)

end Manifest
end Amalgam
