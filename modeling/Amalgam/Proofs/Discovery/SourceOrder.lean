import Amalgam.Proofs.Discovery.Order

namespace Amalgam

/-!
# The order of the sources

Discovery finds the same headers whatever order the sources stand in.  Which of them are
new differs at every step of two such scans, but in the end each has kept the first
occurrence of every name that was offered and is neither a seed header nor excluded.

The order in which the discovered headers stand does depend on the sources, and so does
the failure that is reported when several of them cannot be read.
-/

/-- Lists with the same members have the same first occurrences, up to their order. -/
theorem perm_eraseDups_of_mem_iff {α : Type*} [BEq α] [LawfulBEq α] {xs ys : List α}
    (h : ∀ x, x ∈ xs ↔ x ∈ ys) : xs.eraseDups.Perm ys.eraseDups := by
  rw [List.perm_ext_iff_of_nodup (nodup_eraseDups xs) (nodup_eraseDups ys)]
  intro x
  rw [List.mem_eraseDups, List.mem_eraseDups, h]

namespace Registry

variable {r : Registry}

/-- The names in a registry and those that were offered to it determine which names it
holds afterwards; the order of the offers does not matter. -/
theorem perm_admitted {names others : List String} (h : names.Perm others) :
    (names.filter r.admits).eraseDups.Perm (others.filter r.admits).eraseDups := by
  apply perm_eraseDups_of_mem_iff
  intro name
  rw [List.mem_filter, List.mem_filter, h.mem_iff]

end Registry

theorem includedNames_perm {store : Store} {stem : String} {sources order : List String}
    (h : sources.Perm order) :
    (includedNames store stem sources).Perm (includedNames store stem order) :=
  h.flatMap_right _

namespace Manifest

variable {m : Manifest} {store : Store}

/-- Every condition of a valid manifest survives a change in the order of its sources. -/
theorem Valid.reorder (h : m.Valid) {order : List String} (horder : m.sources.Perm order) :
    Valid { m with sources := order } where
  sources_ne_nil := by
    intro hempty
    have hnil : m.sources.Perm [] := hempty ▸ horder
    exact h.sources_ne_nil hnil.eq_nil
  sources_nodup := horder.nodup_iff.1 h.sources_nodup
  headers_nodup := h.headers_nodup
  headers_not_excluded := h.headers_not_excluded
  configHeader_mem := h.configHeader_mem
  macros_ne_nil := h.macros_ne_nil
  macros_identifiers := h.macros_identifiers

/-- Discovery fails for a source that cannot be read and for no other reason. -/
theorem exists_discover_eq_ok_iff :
    (∃ r, m.discover store = .ok r) ↔ ∀ source ∈ m.sources, store.Readable source := by
  constructor
  · rintro ⟨r, hr⟩
    exact (scanSources_eq_ok_iff.1 hr).1
  · exact fun hread => ⟨_, scanSources_eq_ok_iff.2 ⟨hread, rfl⟩⟩

/-- The registry of a valid manifest, split into the seed headers and the rest. -/
theorem Valid.eq_of_discover (h : m.Valid) {r : Registry} (hr : m.discover store = .ok r) :
    r = ⟨m.headers ++ ((includedNames store m.stem m.sources).filter
      m.seedRegistry.admits).eraseDups, m.excluded⟩ := by
  rw [← h.insertAll_seedRegistry]
  exact (scanSources_eq_ok_iff.1 hr).2

/-- Sources behind the others are scanned when the others have been, so they only add
to the end of the registry. -/
theorem exists_discover_append {r : Registry} (hr : m.discover store = .ok r)
    {more : List String} (hmore : ∀ source ∈ more, store.Readable source) :
    ∃ r', Manifest.discover { m with sources := m.sources ++ more } store = .ok r' ∧
      r.headers <+: r'.headers ∧ r'.excluded = r.excluded := by
  obtain ⟨hread, hregistry⟩ := scanSources_eq_ok_iff.1 hr
  refine ⟨r.insertAll (includedNames store m.stem more), ?_,
    r.headers_prefix_insertAll _, Registry.excluded_insertAll _ _⟩
  refine scanSources_eq_ok_iff.2 ⟨List.forall_mem_append.2 ⟨hread, hmore⟩, ?_⟩
  rw [includedNames_append, Registry.insertAll_append, hregistry]
  rfl

/-- A valid manifest stays valid when its sources are put into another order, and
discovery succeeds for both orders or for neither.  The two registries begin with the seed
headers and hold the same headers, each of them once.  More sources behind the others leave
the registry as it is, up to what they add at its end. -/
theorem discover_of_reordered_sources (store : Store) (hvalid : m.validate = .ok ())
    {order : List String} (horder : m.sources.Perm order) :
    let reordered : Manifest := { m with sources := order }
    reordered.validate = .ok () ∧
    ((∃ r, m.discover store = .ok r) ↔ ∃ r', reordered.discover store = .ok r') ∧
    (∀ r r', m.discover store = .ok r → reordered.discover store = .ok r' →
      (∃ found found' : List String, r.headers = m.headers ++ found ∧
        r'.headers = m.headers ++ found' ∧ found.Perm found') ∧
      r.headers.Perm r'.headers ∧ r.headers.Nodup ∧ r'.headers.Nodup ∧
      r'.excluded = r.excluded) ∧
    ∀ more r, (∀ source ∈ more, store.Readable source) → m.discover store = .ok r →
      ∃ r', Manifest.discover { m with sources := m.sources ++ more } store = .ok r' ∧
        r.headers <+: r'.headers ∧ r'.excluded = r.excluded := by
  intro reordered
  have h := validate_eq_ok_iff_valid.1 hvalid
  have hreordered : reordered.Valid := h.reorder horder
  refine ⟨validate_eq_ok_iff_valid.2 hreordered, ?_, ?_, ?_⟩
  · rw [exists_discover_eq_ok_iff, exists_discover_eq_ok_iff]
    exact forall_congr' fun source => by rw [horder.mem_iff]
  · intro r r' hr hr'
    -- Both registries come from the same seed, so they admit the same names.
    have hnames : (includedNames store m.stem m.sources).Perm
        (includedNames store m.stem order) :=
      includedNames_perm horder
    have hfound := Registry.perm_admitted (r := m.seedRegistry) hnames
    have hheaders := hfound.append_left m.headers
    have hnodup := nodup_headers_of_discover hr
    rw [h.eq_of_discover hr] at hnodup ⊢
    rw [hreordered.eq_of_discover hr']
    exact ⟨⟨_, _, rfl, rfl, hfound⟩, hheaders, hnodup, hheaders.nodup_iff.1 hnodup, rfl⟩
  · exact fun more r hmore hr => exists_discover_append hr hmore

end Manifest

/-- Two sources that include the same headers in opposite orders, and a third one. -/
def Store.crossed : Store :=
  Store.ofList
    [("a.c", "#include \"p.h\"\n#include \"cfg.h\"\n#include \"q.h\"\n"),
     ("b.c", "#include \"q.h\"\n#include \"skip.h\"\n  #include \"p.h"),
     ("c.c", "#include \"p.h\"\r\n#include \"s.h\"\n")]

namespace Manifest

/-- The sample with its sources scanned in the order of the alphabet finds `p.h` first,
and as it stands it finds `q.h` first. -/
theorem discover_of_reordered_sources_crossed :
    let reordered : Manifest := { sample with sources := ["a.c", "b.c"] }
    sample.validate = .ok () ∧ sample.sources.Perm ["a.c", "b.c"] ∧
    (∀ source ∈ ["c.c"], Store.crossed.Readable source) ∧
    ∃ r r' grown : Registry, sample.discover Store.crossed = .ok r ∧
      reordered.discover Store.crossed = .ok r' ∧
      r.headers = ["cfg.h", "q.h", "p.h"] ∧ r'.headers = ["cfg.h", "p.h", "q.h"] ∧
      r.headers.Perm r'.headers ∧
      Manifest.discover { sample with sources := sample.sources ++ ["c.c"] } Store.crossed =
        .ok grown ∧
      r.headers <+: grown.headers := by
  intro reordered
  have hvalid : sample.validate = .ok () := rfl
  have horder : sample.sources.Perm ["a.c", "b.c"] := List.Perm.swap "a.c" "b.c" []
  have hmore : ∀ source ∈ ["c.c"], Store.crossed.Readable source := by decide
  have hr : sample.discover Store.crossed = .ok ⟨["cfg.h", "q.h", "p.h"], ["skip.h"]⟩ := by
    decide +kernel
  have hr' : reordered.discover Store.crossed =
      .ok ⟨["cfg.h", "p.h", "q.h"], ["skip.h"]⟩ := by
    decide +kernel
  obtain ⟨-, -, hsame, hgrow⟩ :=
    discover_of_reordered_sources Store.crossed hvalid horder
  obtain ⟨-, hperm, -⟩ := hsame _ _ hr hr'
  obtain ⟨grown, hgrown, hprefix, -⟩ := hgrow _ _ hmore hr
  exact ⟨hvalid, horder, hmore, _, _, grown, hr, hr', rfl, rfl, hperm, hgrown, hprefix⟩

end Manifest
end Amalgam
