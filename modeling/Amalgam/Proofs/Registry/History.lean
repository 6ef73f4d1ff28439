import Amalgam.Proofs.Registry.Admission

namespace Amalgam

/-!
# The history of a registry

A registry is told single names and the lines of files, in any order and any number of
times.  It keeps of this history the first occurrences of the names that are not excluded,
and nothing else: how the names were grouped, and what was offered again, leaves no trace.

The seed is offered in the same way.  A seed that holds a name twice, or an excluded name,
does NOT come out as it is.
-/

/-- What is offered to a registry at one go. -/
inductive Offer where
  /-- A single name. -/
  | single (name : String)
  /-- The local includes among the lines of a file. -/
  | file (stem : String) (lines : List String)
deriving DecidableEq

/-- The names that an offer consists of. -/
def Offer.names : Offer → List String
  | .single name => [name]
  | .file stem lines => lines.filterMap (Include.name? stem)

namespace Registry

/-- The registry after an offer. -/
def offer (r : Registry) : Offer → Registry
  | .single name => r.insert name
  | .file stem lines => r.scan stem lines

/-- The registry after a sequence of offers. -/
def offerAll (r : Registry) (offers : List Offer) : Registry :=
  offers.foldl offer r

variable {r : Registry}

/-! ## One offer, and a sequence of offers -/

theorem offer_eq_insertAll (r : Registry) (o : Offer) : r.offer o = r.insertAll o.names := by
  cases o with
  | single name => rfl
  | file stem lines => rfl

theorem offerAll_eq_insertAll (r : Registry) (offers : List Offer) :
    r.offerAll offers = r.insertAll (offers.flatMap Offer.names) := by
  induction offers generalizing r with
  | nil => rfl
  | cons o offers ih =>
      rw [List.flatMap_cons, insertAll_append, ← offer_eq_insertAll, ← ih]
      rfl

/-- A seed and a history of offers are one sequence of names. -/
theorem offerAll_ofSeed (seed excluded : List String) (offers : List Offer) :
    (ofSeed seed excluded).offerAll offers =
      ofSeed (seed ++ offers.flatMap Offer.names) excluded := by
  rw [offerAll_eq_insertAll, ofSeed, ← insertAll_append, ofSeed]

/-! ## Offering again -/

/-- A name that has been offered is not admitted any more. -/
theorem admits_insertAll_of_mem {names : List String} {name : String} (h : name ∈ names) :
    (r.insertAll names).admits name = false := by
  rw [Bool.eq_false_iff, Ne, admits_iff, headers_insertAll, excluded_insertAll]
  rintro ⟨hheaders, hexcluded⟩
  obtain ⟨hold, hnew⟩ := not_or.1 (mt List.mem_append.2 hheaders)
  apply hnew
  rw [List.mem_eraseDups, List.mem_filter, admits_iff]
  exact ⟨h, hold, hexcluded⟩

theorem insertAll_eq_self {names : List String} (h : ∀ name ∈ names, r.admits name = false) :
    r.insertAll names = r := by
  induction names with
  | nil => rfl
  | cons name names ih =>
      obtain ⟨hname, hnames⟩ := List.forall_mem_cons.1 h
      rw [insertAll_cons, insert_of_not_admits hname, ih hnames]

/-- An offer that has been made before changes nothing. -/
theorem offer_offerAll_of_mem {offers : List Offer} {o : Offer} (h : o ∈ offers) :
    (r.offerAll offers).offer o = r.offerAll offers := by
  rw [offer_eq_insertAll, offerAll_eq_insertAll]
  refine insertAll_eq_self fun name hname => admits_insertAll_of_mem ?_
  exact List.mem_flatMap.2 ⟨o, h, hname⟩

theorem headers_prefix_offerAll (r : Registry) (offers : List Offer) :
    r.headers <+: (r.offerAll offers).headers := by
  rw [offerAll_eq_insertAll]
  exact r.headers_prefix_insertAll _

/-- A name was added exactly when the list is longer. -/
theorem tryInsert_iff_length_lt (r : Registry) (name : String) :
    (r.tryInsert name).1 = true ↔
      r.headers.length < (r.tryInsert name).2.headers.length := by
  show r.admits name = true ↔ r.headers.length < (r.insert name).headers.length
  cases hadmits : r.admits name with
  | false => simp [insert_of_not_admits hadmits]
  | true => simp [insert_of_admits hadmits]

/-- After any seed and any history the headers are the first occurrences of the names
offered so far, the excluded ones left out.  They grow at the end only, and whoever offers a
name is told whether they did. -/
theorem headers_of_history (seed excluded : List String) (offers : List Offer) :
    let r := (ofSeed seed excluded).offerAll offers
    r.headers = ((seed ++ offers.flatMap Offer.names).filter fun name =>
      !excluded.contains name).eraseDups ∧
    r.headers.Nodup ∧
    (∀ name ∈ r.headers, name ∉ excluded) ∧
    (∀ more : List Offer, r.headers <+: (r.offerAll more).headers) ∧
    (∀ name, (r.tryInsert name).1 = true ↔
      r.headers.length < (r.tryInsert name).2.headers.length) ∧
    (∀ o ∈ offers, r.offer o = r) := by
  intro r
  have hr : r = ofSeed (seed ++ offers.flatMap Offer.names) excluded :=
    offerAll_ofSeed seed excluded offers
  have hwell : r.WellFormed := hr ▸ wellFormed_ofSeed _ excluded
  have hexcluded : r.excluded = excluded := hr ▸ excluded_ofSeed _ excluded
  refine ⟨hr ▸ headers_ofSeed _ excluded, hwell.nodup, ?_, r.headers_prefix_offerAll,
    r.tryInsert_iff_length_lt, fun o ho => offer_offerAll_of_mem ho⟩
  intro name hname
  rw [← hexcluded]
  exact hwell.not_excluded name hname

/-- The seed holds a name twice and an excluded one, and a file is scanned twice.  A new name
is added then, and an excluded one is not. -/
theorem headers_of_history_sample :
    let file := Offer.file "" ["#include \"d.h\"\n", "int d;\n", "#include \"x.h\"\n",
      "#include \"a.h\""]
    let offers := [.single "c.h", file, .single "d.h", file, .single "q.h"]
    let r := (ofSeed ["a.h", "x.h", "b.h", "a.h"] ["x.h", "q.h", "x.h"]).offerAll offers
    file ∈ offers ∧ r.offer file = r ∧ "d.h" ∈ r.headers ∧ "d.h" ∉ ["x.h", "q.h", "x.h"] ∧
      r.headers = ["a.h", "b.h", "c.h", "d.h"] ∧
      (r.tryInsert "z.h").1 = true ∧ (r.tryInsert "q.h").1 = false := by
  intro file offers r
  obtain ⟨hheaders, -, hexcluded, -, hadded, hagain⟩ :=
    headers_of_history ["a.h", "x.h", "b.h", "a.h"] ["x.h", "q.h", "x.h"] offers
  have hfile : file ∈ offers := by decide
  have hall : r.headers = ["a.h", "b.h", "c.h", "d.h"] := hheaders.trans (by decide)
  have hmem : "d.h" ∈ r.headers := by
    rw [hall]
    decide
  have hrefused : (r.tryInsert "q.h").1 = false :=
    Bool.eq_false_iff.2 fun h => absurd ((hadded "q.h").1 h) (by decide)
  exact ⟨hfile, hagain file hfile, hmem, hexcluded "d.h" hmem, hall,
    (hadded "z.h").2 (by decide), hrefused⟩

end Registry
end Amalgam
