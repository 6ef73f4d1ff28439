import Amalgam.Discovery
import Amalgam.Proofs.Manifest.Validity
import Amalgam.Proofs.Registry.Admission
import Amalgam.Proofs.Store.Reading

namespace Amalgam

/-!
# The order of discovery

Scanning the sources offers to the registry every name that a line of a source
includes: source after source, line after line.  For a valid manifest the seed
headers come out as they are, followed by the discovered headers in the order in
which they are first named.

Only the sources are scanned.  What a header includes has no influence here.
-/

/-- The names that the local includes of a text name, from top to bottom. -/
def Include.namesIn (stem content : String) : List String :=
  (Text.linesOf content).filterMap (Include.name? stem)

theorem Include.mem_namesIn {stem content name : String} :
    name ∈ namesIn stem content ↔
      ∃ line ∈ Text.linesOf content, name? stem line = some name :=
  List.mem_filterMap

/-- The names that the sources include, in the order of scanning. -/
def includedNames (store : Store) (stem : String) (sources : List String) :
    List String :=
  sources.flatMap fun source => Include.namesIn stem (store.textOf source)

theorem includedNames_cons (store : Store) (stem source : String)
    (sources : List String) :
    includedNames store stem (source :: sources) =
      Include.namesIn stem (store.textOf source) ++ includedNames store stem sources :=
  List.flatMap_cons

theorem includedNames_append (store : Store) (stem : String) (xs ys : List String) :
    includedNames store stem (xs ++ ys) =
      includedNames store stem xs ++ includedNames store stem ys :=
  List.flatMap_append

theorem includedNames_congr {store other : Store} {stem : String}
    {sources : List String} (h : ∀ source ∈ sources, other source = store source) :
    includedNames other stem sources = includedNames store stem sources := by
  induction sources with
  | nil => rfl
  | cons source sources ih =>
      obtain ⟨hsource, hsources⟩ := List.forall_mem_cons.1 h
      rw [includedNames_cons, includedNames_cons, ih hsources, Store.textOf,
        Store.textOf, hsource]

theorem mem_includedNames {store : Store} {stem name : String} {sources : List String} :
    name ∈ includedNames store stem sources ↔
      ∃ source ∈ sources, name ∈ Include.namesIn stem (store.textOf source) :=
  List.mem_flatMap

/-- A scan succeeds exactly when every source can be read, and then it offers
all their included names. -/
theorem scanSources_eq_ok_iff {store : Store} {stem : String} {sources : List String}
    {r r' : Registry} :
    scanSources store stem sources r = .ok r' ↔
      (∀ source ∈ sources, store.Readable source) ∧
        r' = r.insertAll (includedNames store stem sources) := by
  induction sources generalizing r with
  | nil => simp [scanSources, includedNames, eq_comm]
  | cons source sources ih =>
      rw [scanSources, List.forall_mem_cons]
      cases hread : store.read source with
      | error cause =>
          refine iff_of_false (by simp) fun h => ?_
          rw [h.1.1.read] at hread
          contradiction
      | ok file =>
          have hsource := Store.readable_of_read hread
          rw [hsource.read, Except.ok.injEq] at hread
          subst hread
          simp only [ih, hsource, true_and]
          rw [includedNames_cons, Registry.insertAll_append]
          rfl

/-- Readable sources are scanned before the others are looked at. -/
theorem scanSources_append {store : Store} {stem : String} {sources : List String}
    (h : ∀ source ∈ sources, store.Readable source) (rest : List String) (r : Registry) :
    scanSources store stem (sources ++ rest) r =
      scanSources store stem rest (r.insertAll (includedNames store stem sources)) := by
  induction sources generalizing r with
  | nil => rfl
  | cons source sources ih =>
      obtain ⟨hsource, hsources⟩ := List.forall_mem_cons.1 h
      rw [List.cons_append, scanSources, hsource.read, includedNames_cons,
        Registry.insertAll_append]
      exact ih hsources _

namespace Manifest

variable {m : Manifest} {store : Store}

theorem Valid.headers_seedRegistry (h : m.Valid) :
    m.seedRegistry.headers = m.headers :=
  Registry.headers_ofSeed_of_nodup h.headers_nodup h.headers_not_excluded

theorem excluded_seedRegistry (m : Manifest) : m.seedRegistry.excluded = m.excluded :=
  Registry.excluded_ofSeed m.headers m.excluded

theorem Valid.seedRegistry_admits_iff (h : m.Valid) {name : String} :
    m.seedRegistry.admits name = true ↔ name ∉ m.headers ∧ name ∉ m.excluded := by
  rw [Registry.admits_iff, h.headers_seedRegistry, excluded_seedRegistry]

/-- Offering names to the seed registry leaves the seed headers in front. -/
theorem Valid.insertAll_seedRegistry (h : m.Valid) (names : List String) :
    m.seedRegistry.insertAll names =
      ⟨m.headers ++ (names.filter m.seedRegistry.admits).eraseDups, m.excluded⟩ := by
  have hheaders := Registry.headers_insertAll m.seedRegistry names
  have hexcluded := Registry.excluded_insertAll m.seedRegistry names
  rw [h.headers_seedRegistry] at hheaders
  rw [excluded_seedRegistry] at hexcluded
  rw [← hheaders, ← hexcluded]

/-- What discovery finds depends on nothing but the contents of the sources. -/
theorem Valid.discover_eq_ok (h : m.Valid)
    (hread : ∀ source ∈ m.sources, store.Readable source) :
    m.discover store = .ok ⟨m.headers ++ ((includedNames store m.stem m.sources).filter
      m.seedRegistry.admits).eraseDups, m.excluded⟩ := by
  rw [← h.insertAll_seedRegistry]
  exact scanSources_eq_ok_iff.2 ⟨hread, rfl⟩

/-- Discovery reports the first source that cannot be read. -/
theorem discover_eq_error {source : String} {cause : InputError}
    (h : store.firstUnread? m.sources = some (source, cause)) :
    m.discover store = .error (.unscannable source cause) := by
  obtain ⟨before, after, hsources, hcause, hbefore⟩ :=
    Store.firstUnread?_eq_some_iff.1 h
  rw [discover, hsources, scanSources_append hbefore, scanSources,
    Store.read_of_error hcause]

/-- The headers that discovery finds: the seed headers, and what the sources include
unless it is excluded. -/
theorem Valid.mem_headers_of_discover (h : m.Valid) {r : Registry}
    (hdiscover : m.discover store = .ok r) {name : String} :
    name ∈ r.headers ↔
      name ∈ m.headers ∨
        (name ∈ includedNames store m.stem m.sources ∧ name ∉ m.excluded) := by
  obtain ⟨-, hr⟩ := scanSources_eq_ok_iff.1 hdiscover
  rw [hr, h.insertAll_seedRegistry, List.mem_append, List.mem_eraseDups, List.mem_filter,
    h.seedRegistry_admits_iff]
  tauto

/-- Discovery registers no name twice. -/
theorem nodup_headers_of_discover {r : Registry} (h : m.discover store = .ok r) :
    r.headers.Nodup := by
  obtain ⟨-, hr⟩ := scanSources_eq_ok_iff.1 h
  rw [hr]
  exact ((Registry.wellFormed_ofSeed m.headers m.excluded).insertAll _).nodup

/-- The position of the first source that includes the name; the number of
sources when none does. -/
def firstReference (m : Manifest) (store : Store) (name : String) : Nat :=
  m.sources.findIdx fun source =>
    (Include.namesIn m.stem (store.textOf source)).contains name

/-- The discovered headers: every name that a source includes, except seed headers
and excluded names, once and in the order of first inclusion. -/
structure IsDiscovery (m : Manifest) (store : Store) (found : List String) : Prop where
  mem_iff : ∀ name, name ∈ found ↔
    (∃ source ∈ m.sources, ∃ line ∈ Text.linesOf (store.textOf source),
      Include.name? m.stem line = some name) ∧
    name ∉ m.headers ∧ name ∉ m.excluded
  nodup : found.Nodup
  in_order : found.Pairwise fun x y =>
    (includedNames store m.stem m.sources).idxOf x <
      (includedNames store m.stem m.sources).idxOf y

theorem isDiscovery_eraseDups (h : m.Valid) :
    m.IsDiscovery store
      ((includedNames store m.stem m.sources).filter m.seedRegistry.admits).eraseDups where
  mem_iff name := by
    rw [List.mem_eraseDups, List.mem_filter, h.seedRegistry_admits_iff, mem_includedNames]
    simp only [Include.mem_namesIn]
  nodup := nodup_eraseDups _
  in_order := by
    refine (pairwise_idxOf_eraseDups _).imp_of_mem fun {x y} hx hy hlt => ?_
    rw [List.mem_eraseDups] at hx hy
    exact idxOf_lt_idxOf_of_filter (List.mem_filter.1 hx).2 (List.mem_filter.1 hy).2 hlt

/-- In a list that is ordered by a key, the name with the smaller key comes first. -/
theorem idxOf_lt_idxOf_of_pairwise {key : String → Nat} {names : List String}
    (h : names.Pairwise fun x y => key x < key y) {x y : String} (hx : x ∈ names)
    (hy : y ∈ names) (hlt : key x < key y) : names.idxOf x < names.idxOf y := by
  have hxlt := List.idxOf_lt_length_of_mem hx
  have hylt := List.idxOf_lt_length_of_mem hy
  rcases Nat.lt_trichotomy (names.idxOf x) (names.idxOf y) with hbefore | hsame | hafter
  · exact hbefore
  · have heq : x = y := by
      rw [← List.getElem_idxOf hxlt, ← List.getElem_idxOf hylt]
      simp [hsame]
    rw [heq] at hlt
    exact absurd hlt (Nat.lt_irrefl _)
  · have hkey := List.pairwise_iff_getElem.1 h _ _ hylt hxlt hafter
    rw [List.getElem_idxOf, List.getElem_idxOf] at hkey
    omega

/-- A name that an earlier source is the first to include is included earlier. -/
theorem idxOf_includedNames_lt_of_firstReference_lt {x y : String}
    (h : m.firstReference store x < m.firstReference store y) :
    (includedNames store m.stem m.sources).idxOf x <
      (includedNames store m.stem m.sources).idxOf y := by
  -- Among the first `j` sources some include `x`, and none includes `y`.
  let j := m.firstReference store y
  have hlength : m.firstReference store x < m.sources.length :=
    Nat.lt_of_lt_of_le h List.findIdx_le_length
  have hx : x ∈ includedNames store m.stem (m.sources.take j) := by
    have hsource := List.findIdx_getElem (w := hlength)
    refine mem_includedNames.2 ⟨m.sources[m.firstReference store x], ?_, ?_⟩
    · exact List.mem_take_iff_getElem.2 ⟨m.firstReference store x, by omega, rfl⟩
    · exact List.contains_iff_mem.1 hsource
  have hy : y ∉ includedNames store m.stem (m.sources.take j) := by
    rw [mem_includedNames]
    rintro ⟨source, hsource, hmem⟩
    obtain ⟨i, hi, rfl⟩ := List.mem_take_iff_getElem.1 hsource
    have hij : i < m.firstReference store y := by omega
    have hnot := List.not_of_lt_findIdx hij
    rw [List.contains_iff_mem.2 hmem] at hnot
    contradiction
  have hsplit : includedNames store m.stem m.sources =
      includedNames store m.stem (m.sources.take j) ++
        includedNames store m.stem (m.sources.drop j) := by
    rw [← includedNames_append, List.take_append_drop]
  have hxlt := List.idxOf_lt_length_of_mem hx
  rw [hsplit, List.idxOf_append, List.idxOf_append, if_pos hx, if_neg hy]
  omega

/-- Discovery returns the seed headers and then the discovered headers, in the
order of first discovery.  It depends on nothing but the sources. -/
theorem discover_eq_headers_append (hvalid : m.validate = .ok ())
    (hread : ∀ source ∈ m.sources, store.Readable source) :
    ∃ found : List String,
      m.discover store = .ok ⟨m.headers ++ found, m.excluded⟩ ∧
      m.IsDiscovery store found ∧
      (∀ x ∈ found, ∀ y ∈ found,
        m.firstReference store x < m.firstReference store y →
          found.idxOf x < found.idxOf y) ∧
      (∀ name, name ∉ m.headers →
        (∀ source ∈ m.sources, ∀ line ∈ Text.linesOf (store.textOf source),
          Include.name? m.stem line ≠ some name) →
        name ∉ m.headers ++ found) ∧
      (∀ other : Store, (∀ source ∈ m.sources, other source = store source) →
        m.discover other = .ok ⟨m.headers ++ found, m.excluded⟩) := by
  have h := validate_eq_ok_iff_valid.1 hvalid
  have hfound : m.IsDiscovery store _ := isDiscovery_eraseDups h
  refine ⟨_, h.discover_eq_ok hread, hfound, ?_, ?_, ?_⟩
  · intro x hx y hy hlt
    exact idxOf_lt_idxOf_of_pairwise hfound.in_order hx hy
      (idxOf_includedNames_lt_of_firstReference_lt hlt)
  · intro name hseed hnot hmem
    rcases List.mem_append.1 hmem with hheader | hdiscovered
    · exact hseed hheader
    · obtain ⟨⟨source, hsource, line, hline, hname⟩, -⟩ :=
        (hfound.mem_iff name).1 hdiscovered
      exact hnot source hsource line hline hname
  · intro other hsame
    have hother : ∀ source ∈ m.sources, other.Readable source := by
      intro source hsource
      rw [Store.Readable, hsame source hsource]
      exact hread source hsource
    have hnames : includedNames other m.stem m.sources =
        includedNames store m.stem m.sources :=
      includedNames_congr hsame
    rw [h.discover_eq_ok hother, hnames]

/-- Two sources that share a header, name an excluded one, and leave a quote open. -/
def sample : Manifest where
  sources := ["b.c", "a.c"]
  headers := ["cfg.h"]
  excluded := ["skip.h"]
  configHeader := "cfg.h"
  stem := ""
  macros := ["LIB_IMPLEMENTATION", "LIB_IMPL"]
  prologue := "/* lib */\n"
  epilogue := "#undef API\n"

end Manifest

/-- The files of the sample: one is empty, two end in the middle of a line, and one of
these ends in a local include. -/
def Store.sample : Store :=
  Store.ofList
    [("cfg.h", "#define API\n#include \"far.h\""),
     ("near.h", ""),
     ("tail.h", "int tail;\n"),
     ("b.c", "#include \"cfg.h\"\n  #include \"near.h\" \t\r\n#include \"skip.h\"\nint b;"),
     ("a.c", "/* near */\n#include \"near.h\"\n#include \"tail.h\nint a;\n")]

namespace Manifest

/-- The headers of the sample.  What only the configuration header includes is not
among them. -/
def sampleRegistry : Registry :=
  ⟨["cfg.h", "near.h", "tail.h"], ["skip.h"]⟩

theorem discover_sample_eq_ok : sample.discover Store.sample = .ok sampleRegistry := rfl

theorem discover_eq_headers_append_sample :
    sample.validate = .ok () ∧
      (∀ source ∈ sample.sources, Store.sample.Readable source) ∧
      ∃ found : List String,
        sample.discover Store.sample = .ok ⟨sample.headers ++ found, sample.excluded⟩ ∧
        sample.IsDiscovery Store.sample found ∧
        found = ["near.h", "tail.h"] := by
  have hvalid : sample.validate = .ok () := rfl
  have hread : ∀ source ∈ sample.sources, Store.sample.Readable source := by decide
  obtain ⟨found, hdiscover, hfound, -⟩ := discover_eq_headers_append hvalid hread
  refine ⟨hvalid, hread, found, hdiscover, hfound, ?_⟩
  rw [discover_sample_eq_ok, Except.ok.injEq, sampleRegistry, Registry.mk.injEq] at hdiscover
  have hheaders : sample.headers ++ ["near.h", "tail.h"] = sample.headers ++ found :=
    hdiscover.1
  exact (List.append_cancel_left hheaders).symm

end Manifest
end Amalgam
