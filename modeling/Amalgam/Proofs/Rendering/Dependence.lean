import Amalgam.Proofs.Document.Grammar
import Mathlib.Logic.Function.Basic

namespace Amalgam

/-!
# What a rendering depends on

A rendering looks at the sources, and then at the headers that it found there.  Two
stores that agree on these files give the same result, be it a document or a failure.

Which headers are looked at is known only once the sources have been scanned.  So the
agreement on the headers is asked for under the registry of one of the stores, and
discovery is compared first.
-/

section Agreement

variable {store other : Store} {stem : String}

theorem Store.read_congr {name : String} (h : other name = store name) :
    other.read name = store.read name := by
  rw [Store.read, Store.read, h]

theorem scanSources_congr {sources : List String}
    (h : ∀ source ∈ sources, other source = store source) (registry : Registry) :
    scanSources other stem sources registry = scanSources store stem sources registry := by
  induction sources generalizing registry with
  | nil => rfl
  | cons source sources ih =>
      obtain ⟨hsource, hsources⟩ := List.forall_mem_cons.1 h
      rw [scanSources, scanSources, Store.read_congr hsource]
      cases store.read source with
      | error cause => rfl
      | ok file => exact ih hsources _

/-- Whether two stores agree on the file of a part, if it has one. -/
def Part.AgreesIn (store other : Store) : Part → Prop
  | .text _ => True
  | .header name => other name = store name
  | .source name => other name = store name

theorem writePart_congr {part : Part} (h : part.AgreesIn store other) :
    writePart other stem part = writePart store stem part := by
  cases part with
  | text content => rfl
  | header name => rw [writePart, writePart, Store.read_congr h]
  | source name => rw [writePart, writePart, Store.read_congr h]

theorem writeParts_congr {parts : List Part}
    (h : ∀ part ∈ parts, part.AgreesIn store other) :
    writeParts other stem parts = writeParts store stem parts := by
  induction parts with
  | nil => rfl
  | cons part parts ih =>
      obtain ⟨hpart, hparts⟩ := List.forall_mem_cons.1 h
      rw [writeParts, writeParts, writePart_congr hpart, ih hparts]

end Agreement

namespace Manifest

variable {m : Manifest} {store other : Store}

theorem discover_congr (h : ∀ source ∈ m.sources, other source = store source) :
    m.discover other = m.discover store :=
  scanSources_congr h _

theorem renderWith_congr {registry : Registry}
    (hsources : ∀ source ∈ m.sources, other source = store source)
    (hheaders : ∀ header ∈ registry.headers, other header = store header) :
    m.renderWith other registry = m.renderWith store registry := by
  have hparts : ∀ part ∈ m.outline registry.headers, part.AgreesIn store other := by
    intro part hpart
    cases part with
    | text content => trivial
    | header name => exact hheaders name (header_mem_outline_iff.1 hpart)
    | source name => exact hsources name (source_mem_outline_iff.1 hpart)
  simp only [renderWith, Emission.into, emit, writeParts_congr hparts]

theorem render_congr (hsources : ∀ source ∈ m.sources, other source = store source)
    (hheaders : ∀ registry, m.discover store = .ok registry →
      ∀ header ∈ registry.headers, other header = store header) :
    m.render other = m.render store := by
  rw [render, render, discover_congr hsources]
  cases m.checked with
  | error failure => rfl
  | ok _ =>
      cases hdiscover : m.discover store with
      | error failure => rfl
      | ok registry => exact renderWith_congr hsources (hheaders registry hdiscover)

/-- What is excluded is never discovered, whether the manifest is valid or not. -/
theorem not_mem_headers_of_mem_excluded {registry : Registry}
    (hdiscover : m.discover store = .ok registry) {name : String} (h : name ∈ m.excluded) :
    name ∉ registry.headers := by
  intro hname
  obtain ⟨-, hregistry⟩ := scanSources_eq_ok_iff.1 hdiscover
  have hwell : registry.WellFormed := by
    rw [hregistry]
    exact (Registry.wellFormed_ofSeed m.headers m.excluded).insertAll _
  apply hwell.not_excluded name hname
  rw [hregistry, Registry.excluded_insertAll, excluded_seedRegistry]
  exact h

/-- A rendering depends on nothing but the sources and the headers found there.  In
particular no other file has an influence, and no excluded header that is not a source,
neither by what it contains nor by being there at all. -/
theorem render_depends_on_inputs (m : Manifest) (store : Store) :
    (∀ other : Store, (∀ source ∈ m.sources, other source = store source) →
      (∀ registry, m.discover store = .ok registry →
        ∀ header ∈ registry.headers, other header = store header) →
      m.render other = m.render store) ∧
    ∀ name, name ∉ m.sources →
      (name ∈ m.excluded ∨
        ∀ registry, m.discover store = .ok registry → name ∉ registry.headers) →
      ∀ result, m.render (Function.update store name result) = m.render store := by
  refine ⟨fun other => render_congr, fun name hsource hname result => ?_⟩
  have hheader : ∀ registry, m.discover store = .ok registry → name ∉ registry.headers := by
    rcases hname with hexcluded | hheader
    · exact fun registry hdiscover => not_mem_headers_of_mem_excluded hdiscover hexcluded
    · exact hheader
  refine render_congr (fun source hmem => ?_) (fun registry hdiscover header hmem => ?_)
  · refine Function.update_of_ne ?_ _ _
    rintro rfl
    exact hsource hmem
  · refine Function.update_of_ne ?_ _ _
    rintro rfl
    exact hheader registry hdiscover hmem

end Manifest

/-- The files of the sample, but for one that only a header includes. -/
def Store.elsewhere : Store :=
  Function.update Store.sample "far.h" (.ok "#include \"near.h\"\n")

namespace Manifest

theorem render_depends_on_inputs_sample :
    ((∀ source ∈ sample.sources, Store.elsewhere source = Store.sample source) ∧
      (∀ registry, sample.discover Store.sample = .ok registry →
        ∀ header ∈ registry.headers, Store.elsewhere header = Store.sample header) ∧
      sample.render Store.elsewhere = sample.render Store.sample) ∧
    ("skip.h" ∉ sample.sources ∧ "skip.h" ∈ sample.excluded ∧
      sample.render (Function.update Store.sample "skip.h" (.error (.missing "skip.h"))) =
        sample.render Store.sample) ∧
    "far.h" ∉ sample.sources ∧
      (∀ registry, sample.discover Store.sample = .ok registry →
        "far.h" ∉ registry.headers) ∧
      sample.render (Function.update Store.sample "far.h" (.ok "")) =
        sample.render Store.sample := by
  obtain ⟨hagree, hother⟩ := render_depends_on_inputs sample Store.sample
  have hfar : ∀ registry, sample.discover Store.sample = .ok registry →
      "far.h" ∉ registry.headers := by
    intro registry hdiscover
    rw [discover_sample_eq_ok, Except.ok.injEq] at hdiscover
    rw [← hdiscover]
    decide
  have hsources : ∀ source ∈ sample.sources, Store.elsewhere source = Store.sample source :=
    fun source hmem => Function.update_of_ne (by rintro rfl; revert hmem; decide) _ _
  have hheaders : ∀ registry, sample.discover Store.sample = .ok registry →
      ∀ header ∈ registry.headers, Store.elsewhere header = Store.sample header := by
    intro registry hdiscover header hmem
    refine Function.update_of_ne ?_ _ _
    rintro rfl
    exact hfar registry hdiscover hmem
  refine ⟨⟨hsources, hheaders, hagree _ hsources hheaders⟩,
    ⟨by decide, by decide, hother "skip.h" (by decide) (Or.inl (by decide)) _⟩,
    by decide, hfar, hother "far.h" (by decide) (Or.inr hfar) _⟩

end Manifest
end Amalgam
