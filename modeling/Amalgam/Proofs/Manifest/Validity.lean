import Amalgam.Manifest.Basic
import Amalgam.Manifest.Validation

namespace Amalgam
namespace Manifest

/-!
# What validation promises

Validation is a chain of tests.  Here the tests are stated as one property of a
manifest, and validation accepts exactly the manifests that have it.  The later
stages use the property and never the chain.
-/

/-- The conditions that every accepted manifest meets. -/
structure Valid (m : Manifest) : Prop where
  sources_ne_nil : m.sources ≠ []
  sources_nodup : m.sources.Nodup
  headers_nodup : m.headers.Nodup
  headers_not_excluded : ∀ name ∈ m.headers, name ∉ m.excluded
  configHeader_mem : m.configHeader ∈ m.headers
  macros_ne_nil : m.macros ≠ []
  macros_identifiers : ∀ name ∈ m.macros, isIdentifier name = true

theorem firstRepeatedAfter?_eq_none_iff {seen names : List String} :
    firstRepeatedAfter? seen names = none ↔
      names.Nodup ∧ ∀ name ∈ names, name ∉ seen := by
  induction names generalizing seen with
  | nil => simp [firstRepeatedAfter?]
  | cons name names ih =>
      by_cases hseen : name ∈ seen
      · simp [firstRepeatedAfter?, hseen]
      · rw [firstRepeatedAfter?, if_neg hseen, ih, List.nodup_cons]
        constructor
        · rintro ⟨hnodup, hfresh⟩
          have hname : name ∉ names := fun hmem =>
            hfresh name hmem List.mem_cons_self
          refine ⟨⟨hname, hnodup⟩, List.forall_mem_cons.2 ⟨hseen, ?_⟩⟩
          exact fun other hother hmem =>
            hfresh other hother (List.mem_cons_of_mem _ hmem)
        · rintro ⟨⟨hname, hnodup⟩, hfresh⟩
          refine ⟨hnodup, fun other hother hmem => ?_⟩
          rcases List.mem_cons.1 hmem with rfl | hmem
          · exact hname hother
          · exact hfresh other (List.mem_cons_of_mem _ hother) hmem

theorem firstRepeated?_eq_none_iff {names : List String} :
    firstRepeated? names = none ↔ names.Nodup := by
  simp [firstRepeated?, firstRepeatedAfter?_eq_none_iff]

/-- No condition is violated exactly when the manifest is valid. -/
theorem fault?_eq_none_iff {m : Manifest} : m.fault? = none ↔ m.Valid := by
  unfold fault?
  constructor
  · intro h
    -- Each `split` passes one test; failing it reports a fault.
    split at h <;> try contradiction
    rename_i hsources
    split at h <;> try contradiction
    rename_i hsourcesRepeated
    split at h <;> try contradiction
    rename_i hheadersRepeated
    split at h <;> try contradiction
    rename_i hexcluded
    split at h <;> try contradiction
    rename_i hconfig
    split at h <;> try contradiction
    rename_i hmacros
    split at h <;> try contradiction
    rename_i hidentifiers
    rw [← Option.eq_none_iff_forall_ne_some] at hsourcesRepeated hheadersRepeated
    rw [← Option.eq_none_iff_forall_ne_some] at hexcluded hidentifiers
    exact
      { sources_ne_nil := by simpa using hsources
        sources_nodup := firstRepeated?_eq_none_iff.1 hsourcesRepeated
        headers_nodup := firstRepeated?_eq_none_iff.1 hheadersRepeated
        headers_not_excluded := by simpa using hexcluded
        configHeader_mem := by simpa using hconfig
        macros_ne_nil := by simpa using hmacros
        macros_identifiers := by simpa using hidentifiers }
  · intro h
    have hsources : m.sources.isEmpty = false := by simpa using h.sources_ne_nil
    have hsourcesRepeated := firstRepeated?_eq_none_iff.2 h.sources_nodup
    have hheadersRepeated := firstRepeated?_eq_none_iff.2 h.headers_nodup
    have hexcluded : m.headers.find? (m.excluded.contains ·) = none := by
      simpa using h.headers_not_excluded
    have hconfig : m.headers.contains m.configHeader = true := by
      simpa using h.configHeader_mem
    have hmacros : m.macros.isEmpty = false := by simpa using h.macros_ne_nil
    have hidentifiers : m.macros.find? (!isIdentifier ·) = none := by
      simpa using h.macros_identifiers
    simp only [hsources, hsourcesRepeated, hheadersRepeated, hexcluded, hconfig, hmacros,
      hidentifiers, Bool.not_true, Bool.false_eq_true, if_false]

/-- Validation accepts the valid manifests and no others. -/
theorem validate_eq_ok_iff_valid {m : Manifest} : m.validate = .ok () ↔ m.Valid :=
  validate_eq_ok_iff.trans fault?_eq_none_iff

/-- An identifier holds no character that an identifier cannot go on with. -/
theorem not_mem_of_isIdentifier {name : String} {c : Char} (h : isIdentifier name = true)
    (hc : isIdentifierRest c = false) : c ∉ name.toList := by
  intro hmem
  rw [isIdentifier] at h
  cases hchars : name.toList with
  | nil => simp [hchars] at hmem
  | cons first rest =>
      rw [hchars, Bool.and_eq_true, List.all_eq_true] at h
      rw [hchars] at hmem
      rcases List.mem_cons.1 hmem with rfl | hrest
      -- What an identifier can begin with, it can also go on with.
      · have hstart : isIdentifierRest c = true := by
          have hfirst := h.1
          simp only [isIdentifierStart, Bool.or_eq_true] at hfirst
          simp only [isIdentifierRest, Char.isAlphanum, Bool.or_eq_true]
          exact hfirst.imp_right Or.inl
        rw [hstart] at hc
        contradiction
      · rw [h.2 c hrest] at hc
        contradiction

end Manifest
end Amalgam
