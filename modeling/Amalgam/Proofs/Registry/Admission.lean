import Amalgam.Registry
import Mathlib.Data.List.Basic
import Mathlib.Tactic.Tauto

namespace Amalgam

/-!
# What a registry admits

Offering names to a registry appends the first occurrence of every name that is
neither present nor excluded, and nothing else.  So the headers never hold a name
twice, never hold an excluded name, and what stands in front never moves.
-/

/-! ## First occurrences -/

section FirstOccurrence

variable {α : Type*} [BEq α] [LawfulBEq α]

theorem nodup_eraseDups (l : List α) : l.eraseDups.Nodup := by
  -- The recursion is that of `eraseDups`: on the filtered tail, not on the tail.
  cases l with
  | nil => exact List.nodup_nil
  | cons a l =>
      rw [List.eraseDups_cons, List.nodup_cons]
      refine ⟨?_, nodup_eraseDups _⟩
      simp [List.mem_eraseDups]
termination_by l.length
decreasing_by
  have hshorter := List.length_filter_le (fun b => !b == a) l
  rw [List.length_cons]
  omega

theorem eraseDups_of_nodup {l : List α} (h : l.Nodup) : l.eraseDups = l := by
  induction l with
  | nil => rfl
  | cons a l ih =>
      obtain ⟨ha, hl⟩ := List.nodup_cons.1 h
      have hkeep : l.filter (fun b => !b == a) = l := by
        rw [List.filter_eq_self]
        intro b hb
        have hne : b ≠ a := fun heq => ha (heq ▸ hb)
        simpa using hne
      rw [List.eraseDups_cons, hkeep, ih hl]

/-- Filtering keeps the order of first occurrences. -/
theorem idxOf_lt_idxOf_of_filter {p : α → Bool} {x y : α} (hx : p x = true)
    (hy : p y = true) {l : List α}
    (h : (l.filter p).idxOf x < (l.filter p).idxOf y) : l.idxOf x < l.idxOf y := by
  induction l with
  | nil => simp at h
  | cons a l ih =>
      by_cases ha : p a = true
      · rw [List.filter_cons_of_pos ha, List.idxOf_cons, List.idxOf_cons] at h
        rw [List.idxOf_cons, List.idxOf_cons]
        by_cases hax : a = x
        · by_cases hay : a = y
          · simp [hay] at h
          · simp [hax, beq_eq_false_iff_ne.2 (hax ▸ hay)]
        · by_cases hay : a = y
          · simp [hay] at h
          · have hbax := beq_eq_false_iff_ne.2 hax
            have hbay := beq_eq_false_iff_ne.2 hay
            simp only [hbax, hbay, cond_false] at h ⊢
            have := ih (by omega)
            omega
      · rw [List.filter_cons_of_neg ha] at h
        have hbax : (a == x) = false := beq_eq_false_iff_ne.2 fun heq => ha (heq ▸ hx)
        have hbay : (a == y) = false := beq_eq_false_iff_ne.2 fun heq => ha (heq ▸ hy)
        have := ih h
        rw [List.idxOf_cons, List.idxOf_cons]
        simp only [hbax, hbay, cond_false]
        omega

/-- Erasing later duplicates leaves the first occurrences in their order. -/
theorem pairwise_idxOf_eraseDups (l : List α) :
    l.eraseDups.Pairwise fun x y => l.idxOf x < l.idxOf y := by
  cases l with
  | nil => exact List.Pairwise.nil
  | cons a l =>
      rw [List.eraseDups_cons, List.pairwise_cons]
      have hmem {y : α} (hy : y ∈ (l.filter fun b => !b == a).eraseDups) :
          (!y == a) = true := by
        rw [List.mem_eraseDups] at hy
        exact (List.mem_filter.1 hy).2
      have hhead {y : α} (hy : (!y == a) = true) :
          (a :: l).idxOf y = l.idxOf y + 1 := by
        have hay : (a == y) = false := by
          rw [beq_eq_false_iff_ne]
          rintro rfl
          simp at hy
        rw [List.idxOf_cons, hay, cond_false]
      constructor
      · intro y hy
        rw [List.idxOf_cons_self, hhead (hmem hy)]
        omega
      · have htail := pairwise_idxOf_eraseDups (l.filter fun b => !b == a)
        refine htail.imp_of_mem fun {x y} hx hy hlt => ?_
        rw [hhead (hmem hx), hhead (hmem hy)]
        have hlt' :=
          idxOf_lt_idxOf_of_filter (p := fun b => !b == a) (hmem hx) (hmem hy) hlt
        omega
termination_by l.length
decreasing_by
  have hshorter := List.length_filter_le (fun b => !b == a) l
  rw [List.length_cons]
  omega

end FirstOccurrence

namespace Registry

theorem admits_iff {r : Registry} {name : String} :
    r.admits name = true ↔ name ∉ r.headers ∧ name ∉ r.excluded := by
  simp [admits_eq, contains, excludes]

theorem insert_of_admits {r : Registry} {name : String} (h : r.admits name = true) :
    r.insert name = { r with headers := r.headers ++ [name] } := by
  rw [admits_eq, Bool.not_eq_true'] at h
  rw [insert, tryInsert, h]
  rfl

/-- An admitted name is not admitted again, and nothing else changes. -/
theorem admits_insert {r : Registry} {name : String} (h : r.admits name = true)
    (other : String) :
    (r.insert name).admits other = (r.admits other && !other == name) := by
  rw [insert_of_admits h, Bool.eq_iff_iff, Bool.and_eq_true, admits_iff, admits_iff]
  simp only [List.mem_append, List.mem_singleton, not_or, Bool.not_eq_true',
    beq_eq_false_iff_ne]
  tauto

theorem insert_of_not_admits {r : Registry} {name : String} (h : r.admits name = false) :
    r.insert name = r := by
  rw [admits_eq, Bool.not_eq_false'] at h
  rw [insert, tryInsert, if_pos h]

/-- No name twice, and no excluded name. -/
structure WellFormed (r : Registry) : Prop where
  nodup : r.headers.Nodup
  not_excluded : ∀ name ∈ r.headers, name ∉ r.excluded

theorem WellFormed.insert {r : Registry} (h : r.WellFormed) (name : String) :
    (r.insert name).WellFormed := by
  cases hadmits : r.admits name with
  | false => rwa [insert_of_not_admits hadmits]
  | true =>
      obtain ⟨hfresh, hallowed⟩ := admits_iff.1 hadmits
      rw [insert_of_admits hadmits]
      constructor
      · refine List.nodup_append.2 ⟨h.nodup, List.pairwise_singleton _ _, ?_⟩
        intro other hother new hnew heq
        rw [heq, List.mem_singleton.1 hnew] at hother
        exact hfresh hother
      · intro other hother
        rcases List.mem_append.1 hother with hold | hnew
        · exact h.not_excluded other hold
        · rwa [List.mem_singleton.1 hnew]

theorem WellFormed.insertAll {r : Registry} (h : r.WellFormed) (names : List String) :
    (r.insertAll names).WellFormed := by
  induction names generalizing r with
  | nil => exact h
  | cons name names ih => exact ih (h.insert name)

theorem wellFormed_ofSeed (seed excluded : List String) :
    (ofSeed seed excluded).WellFormed :=
  WellFormed.insertAll ⟨List.nodup_nil, by simp⟩ seed

/-- Offering names appends the first occurrences of those that are admitted. -/
theorem headers_insertAll (r : Registry) (names : List String) :
    (r.insertAll names).headers =
      r.headers ++ (names.filter r.admits).eraseDups := by
  induction names generalizing r with
  | nil => simp
  | cons name names ih =>
      rw [insertAll_cons, ih]
      cases hadmits : r.admits name with
      | false =>
          rw [insert_of_not_admits hadmits, List.filter_cons_of_neg (by simp [hadmits])]
      | true =>
          -- The name is not admitted again, which is what erases its later occurrences.
          have hrest : names.filter (r.insert name).admits =
              (names.filter r.admits).filter (fun other => !other == name) := by
            rw [List.filter_filter]
            refine List.filter_congr fun other _ => ?_
            rw [admits_insert hadmits, Bool.and_comm]
          rw [List.filter_cons_of_pos hadmits, List.eraseDups_cons, hrest,
            insert_of_admits hadmits, List.append_assoc, List.singleton_append]

/-- The headers in a registry stay in front of what is added. -/
theorem headers_prefix_insertAll (r : Registry) (names : List String) :
    r.headers <+: (r.insertAll names).headers := by
  rw [headers_insertAll]
  exact List.prefix_append _ _

theorem headers_ofSeed (seed excluded : List String) :
    (ofSeed seed excluded).headers =
      (seed.filter fun name => !excluded.contains name).eraseDups := by
  rw [ofSeed, headers_insertAll, List.nil_append]
  refine congrArg List.eraseDups (List.filter_congr fun name _ => ?_)
  rw [admits_eq]
  rfl

theorem excluded_ofSeed (seed excluded : List String) :
    (ofSeed seed excluded).excluded = excluded :=
  excluded_insertAll _ seed

/-- A seed without duplicates and excluded names is taken as it is. -/
theorem headers_ofSeed_of_nodup {seed excluded : List String} (hnodup : seed.Nodup)
    (hexcluded : ∀ name ∈ seed, name ∉ excluded) :
    (ofSeed seed excluded).headers = seed := by
  have hkeep : seed.filter (fun name => !excluded.contains name) = seed := by
    rw [List.filter_eq_self]
    simpa using hexcluded
  rw [headers_ofSeed, hkeep, eraseDups_of_nodup hnodup]

end Registry
end Amalgam
