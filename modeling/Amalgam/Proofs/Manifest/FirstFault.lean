import Amalgam.Proofs.Manifest.Validity

namespace Amalgam
namespace Manifest

/-!
# The fault that is reported

A manifest can violate several conditions, and one condition at several names.  One
fault is reported: that of the first violated condition, with the first name that
violates it.  Here every condition stands by itself, beside the fault that tells of it,
and the order in which they are tried is a list of its own.

The conditions do not use the tests of validation.  An identifier is a word of letters,
digits and underscores that does not begin with a digit, and a name is repeated if it
stands at a smaller index as well.
-/

/-! ## Identifiers -/

/-- The digits of ASCII. -/
def IsDigit (c : Char) : Prop :=
  '0' ≤ c ∧ c ≤ '9'

instance (c : Char) : Decidable (IsDigit c) :=
  inferInstanceAs (Decidable (_ ∧ _))

/-- The letters of ASCII. -/
def IsLetter (c : Char) : Prop :=
  ('A' ≤ c ∧ c ≤ 'Z') ∨ ('a' ≤ c ∧ c ≤ 'z')

/-- An identifier of C in ASCII. -/
structure IsIdentifier (s : String) : Prop where
  ne_empty : s ≠ ""
  forall_mem : ∀ c ∈ s.toList, c = '_' ∨ IsLetter c ∨ IsDigit c
  head_not_digit : ∀ c ∈ s.toList.head?, ¬ IsDigit c

theorem isDigit_iff {c : Char} : c.isDigit = true ↔ IsDigit c := by
  simp [Char.isDigit, IsDigit, Char.le_def]

theorem isAlpha_iff {c : Char} : c.isAlpha = true ↔ IsLetter c := by
  have hranges : c.isAlpha = (decide (c.val ≥ 'A'.val ∧ c.val ≤ 'Z'.val) ||
      (decide (c.val ≥ 'a'.val) && decide (c.val ≤ 'z'.val))) := rfl
  simp [hranges, IsLetter, Char.le_def]

theorem IsLetter.not_isDigit {c : Char} (h : IsLetter c) : ¬ IsDigit c := by
  rintro ⟨-, hdigit⟩
  rcases h with ⟨hupper, -⟩ | ⟨hlower, -⟩
  · exact absurd (Char.le_trans hupper hdigit) (by decide)
  · exact absurd (Char.le_trans hlower hdigit) (by decide)

theorem isIdentifierStart_iff {c : Char} :
    isIdentifierStart c = true ↔ c = '_' ∨ IsLetter c := by
  simp [isIdentifierStart, isAlpha_iff]

theorem isIdentifierRest_iff {c : Char} :
    isIdentifierRest c = true ↔ c = '_' ∨ IsLetter c ∨ IsDigit c := by
  simp [isIdentifierRest, Char.isAlphanum, isAlpha_iff, isDigit_iff]

/-- The test of validation recognises the identifiers. -/
theorem isIdentifier_iff {s : String} : isIdentifier s = true ↔ IsIdentifier s := by
  rw [isIdentifier]
  cases hchars : s.toList with
  | nil =>
      refine iff_of_false Bool.false_ne_true fun h => h.ne_empty ?_
      exact String.toList_inj.1 hchars
  | cons c cs =>
      have hne : s ≠ "" := by
        rintro rfl
        contradiction
      rw [Bool.and_eq_true, List.all_eq_true, isIdentifierStart_iff]
      constructor
      · rintro ⟨hc, hcs⟩
        refine ⟨hne, ?_, ?_⟩
        · rw [hchars, List.forall_mem_cons]
          exact ⟨hc.imp_right Or.inl, fun d hd => isIdentifierRest_iff.1 (hcs d hd)⟩
        · rw [hchars]
          rintro _ ⟨⟩
          rcases hc with rfl | hletter
          · decide
          · exact hletter.not_isDigit
      · intro h
        have hall := h.forall_mem
        rw [hchars, List.forall_mem_cons] at hall
        have hhead : ¬ IsDigit c := h.head_not_digit c (by rw [hchars]; rfl)
        refine ⟨hall.1.imp_right fun hc => hc.resolve_right hhead, fun d hd => ?_⟩
        exact isIdentifierRest_iff.2 (hall.2 d hd)

/-! ## The first name that violates a condition -/

/-- The name stands at the smallest index at which the condition is violated.  Whether
it is violated can depend on the names at smaller indices. -/
def IsFirst (violates : List String → String → Prop) (names : List String)
    (name : String) : Prop :=
  ∃ i, names[i]? = some name ∧ violates (names.take i) name ∧
    ∀ j < i, ∀ other, names[j]? = some other → ¬ violates (names.take j) other

theorem not_isFirst_nil {violates : List String → String → Prop} {name : String} :
    ¬ IsFirst violates [] name := by
  rintro ⟨i, hi, -⟩
  rw [List.getElem?_nil] at hi
  contradiction

/-- The head violates the condition, or else the first violation is in the tail. -/
theorem isFirst_cons_iff {violates : List String → String → Prop} {head name : String}
    {names : List String} :
    IsFirst violates (head :: names) name ↔
      (violates [] head ∧ head = name) ∨
        (¬ violates [] head ∧ IsFirst (fun seen => violates (head :: seen)) names name) := by
  constructor
  · rintro ⟨i, hi, hviolates, hbefore⟩
    cases i with
    | zero =>
        obtain rfl : head = name := Option.some.inj hi
        exact Or.inl ⟨hviolates, rfl⟩
    | succ i =>
        refine Or.inr ⟨hbefore 0 (Nat.succ_pos i) head rfl, i, hi, hviolates, ?_⟩
        exact fun j hj => hbefore (j + 1) (Nat.succ_lt_succ hj)
  · rintro (⟨hviolates, rfl⟩ | ⟨hhead, i, hi, hviolates, hbefore⟩)
    · exact ⟨0, rfl, hviolates, fun j hj => absurd hj (Nat.not_lt_zero j)⟩
    · refine ⟨i + 1, hi, hviolates, fun j hj other hother => ?_⟩
      cases j with
      | zero =>
          obtain rfl : head = other := Option.some.inj hother
          exact hhead
      | succ j => exact hbefore j (Nat.lt_of_succ_lt_succ hj) other hother

/-- Searching a list finds the first name with a property. -/
theorem find?_eq_some_iff_isFirst {p : String → Bool} {violates : String → Prop}
    (hp : ∀ name, p name = true ↔ violates name) {names : List String} {name : String} :
    names.find? p = some name ↔ IsFirst (fun _ => violates) names name := by
  induction names with
  | nil => exact iff_of_false nofun not_isFirst_nil
  | cons head names ih =>
      rw [isFirst_cons_iff, ← hp, ← ih, List.find?_cons]
      cases hhead : p head with
      | true => simp
      | false => simp

theorem firstRepeatedAfter?_eq_some_iff {seen names : List String} {name : String} :
    firstRepeatedAfter? seen names = some name ↔
      IsFirst (fun earlier other => other ∈ earlier ∨ other ∈ seen) names name := by
  induction names generalizing seen with
  | nil => exact iff_of_false nofun not_isFirst_nil
  | cons head names ih =>
      have hseen : ∀ earlier : List String, ∀ other : String,
          (other ∈ earlier ∨ other ∈ head :: seen) ↔
            (other ∈ head :: earlier ∨ other ∈ seen) := by
        intro earlier other
        rw [List.mem_cons, List.mem_cons, or_assoc, or_left_comm]
      rw [isFirst_cons_iff, firstRepeatedAfter?]
      by_cases hhead : head ∈ seen
      · simp [hhead]
      · have hnot : ¬ (head ∈ ([] : List String) ∨ head ∈ seen) := by simpa using hhead
        rw [if_neg hhead, ih]
        simp only [hseen, hnot, false_and, not_false_eq_true, true_and, false_or]

/-- The name that is reported as repeated is the first that stands before itself. -/
theorem firstRepeated?_eq_some_iff {names : List String} {name : String} :
    firstRepeated? names = some name ↔
      IsFirst (fun earlier other => other ∈ earlier) names name := by
  simp [firstRepeated?, firstRepeatedAfter?_eq_some_iff]

/-! ## The conditions in order -/

/-- What is asked of a manifest. -/
inductive Condition where
  | someSource
  | sourcesDistinct
  | headersDistinct
  | headersNotExcluded
  | configHeaderSeeded
  | someMacro
  | macrosIdentifiers
deriving DecidableEq

namespace Condition

/-- The conditions, in the order in which a violation is reported. -/
def order : List Condition :=
  [someSource, sourcesDistinct, headersDistinct, headersNotExcluded, configHeaderSeeded,
   someMacro, macrosIdentifiers]

/-- What a condition says of a manifest. -/
def Holds (m : Manifest) : Condition → Prop
  | someSource => m.sources ≠ []
  | sourcesDistinct => m.sources.Nodup
  | headersDistinct => m.headers.Nodup
  | headersNotExcluded => ∀ name ∈ m.headers, name ∉ m.excluded
  | configHeaderSeeded => m.configHeader ∈ m.headers
  | someMacro => m.macros ≠ []
  | macrosIdentifiers => ∀ name ∈ m.macros, IsIdentifier name

/-- Whether a fault is the one that tells of a violated condition. -/
def IsToldBy (m : Manifest) (fault : Fault) : Condition → Prop
  | someSource => fault = .noSources
  | sourcesDistinct => ∃ name, fault = .duplicateSource name ∧
      IsFirst (fun earlier other => other ∈ earlier) m.sources name
  | headersDistinct => ∃ name, fault = .duplicateHeader name ∧
      IsFirst (fun earlier other => other ∈ earlier) m.headers name
  | headersNotExcluded => ∃ name, fault = .excludedSeedHeader name ∧
      IsFirst (fun _ other => other ∈ m.excluded) m.headers name
  | configHeaderSeeded => fault = .configHeaderNotSeeded m.configHeader
  | someMacro => fault = .noImplementationMacros
  | macrosIdentifiers => ∃ name, fault = .invalidMacro name ∧
      IsFirst (fun _ other => ¬ IsIdentifier other) m.macros name

/-- The condition is violated and those before it are not. -/
def IsFirstViolated (m : Manifest) (condition : Condition) : Prop :=
  ¬ condition.Holds m ∧
    ∃ earlier later, order = earlier ++ condition :: later ∧
      ∀ other ∈ earlier, other.Holds m

theorem mem_order (condition : Condition) : condition ∈ order := by
  cases condition <;> decide

/-- The fault that the test of a single condition gives. -/
def fault? (m : Manifest) : Condition → Option Fault
  | someSource => if m.sources.isEmpty then some .noSources else none
  | sourcesDistinct => (firstRepeated? m.sources).map .duplicateSource
  | headersDistinct => (firstRepeated? m.headers).map .duplicateHeader
  | headersNotExcluded => (m.headers.find? (m.excluded.contains ·)).map .excludedSeedHeader
  | configHeaderSeeded =>
      if !m.headers.contains m.configHeader then
        some (.configHeaderNotSeeded m.configHeader)
      else none
  | someMacro => if m.macros.isEmpty then some .noImplementationMacros else none
  | macrosIdentifiers => (m.macros.find? (!isIdentifier ·)).map .invalidMacro

variable {m : Manifest} {fault : Fault}

theorem fault?_eq_none_iff {condition : Condition} :
    condition.fault? m = none ↔ condition.Holds m := by
  cases condition with
  | someSource => simp [Condition.fault?, Holds]
  | sourcesDistinct => simp [Condition.fault?, Holds, firstRepeated?_eq_none_iff]
  | headersDistinct => simp [Condition.fault?, Holds, firstRepeated?_eq_none_iff]
  | headersNotExcluded => simp [Condition.fault?, Holds]
  | configHeaderSeeded => simp [Condition.fault?, Holds]
  | someMacro => simp [Condition.fault?, Holds]
  | macrosIdentifiers => simp [Condition.fault?, Holds, isIdentifier_iff]

/-- A search for the first name tells of a fault with the name that it finds. -/
theorem map_eq_some_iff_of_search {found : Option String} {tells : String → Fault}
    {first : String → Prop} (h : ∀ name, found = some name ↔ first name) :
    found.map tells = some fault ↔
      found.map tells ≠ none ∧ ∃ name, fault = tells name ∧ first name := by
  simp only [← h]
  cases found with
  | none => simp
  | some name => simp [eq_comm]

/-- A test that looks at no name tells of one fault. -/
theorem ite_eq_some_iff {violated : Bool} {told : Fault} :
    (if violated then some told else none) = some fault ↔
      (if violated then some told else none) ≠ none ∧ fault = told := by
  cases violated with
  | false => simp
  | true => simp [eq_comm]

theorem fault?_eq_some_iff {condition : Condition} :
    condition.fault? m = some fault ↔ ¬ condition.Holds m ∧ condition.IsToldBy m fault := by
  rw [← fault?_eq_none_iff]
  cases condition with
  | someSource => exact ite_eq_some_iff
  | sourcesDistinct => exact map_eq_some_iff_of_search fun _ => firstRepeated?_eq_some_iff
  | headersDistinct => exact map_eq_some_iff_of_search fun _ => firstRepeated?_eq_some_iff
  | headersNotExcluded =>
      refine map_eq_some_iff_of_search fun _ => find?_eq_some_iff_isFirst fun name => ?_
      exact List.contains_iff_mem
  | configHeaderSeeded => exact ite_eq_some_iff
  | someMacro => exact ite_eq_some_iff
  | macrosIdentifiers =>
      refine map_eq_some_iff_of_search fun _ => find?_eq_some_iff_isFirst fun name => ?_
      rw [Bool.not_eq_true', ← isIdentifier_iff, Bool.not_eq_true]

/-- Validation tries the conditions in their order. -/
theorem fault?_eq_findSome? (m : Manifest) :
    m.fault? = order.findSome? fun condition => condition.fault? m := by
  unfold Manifest.fault?
  simp only [order, List.findSome?_cons, List.findSome?_nil, Condition.fault?]
  -- A test that finds a fault ends both sides; otherwise both go on with the next test.
  cases m.sources.isEmpty with
  | true => rfl
  | false =>
  cases firstRepeated? m.sources with
  | some name => rfl
  | none =>
  cases firstRepeated? m.headers with
  | some name => rfl
  | none =>
  cases m.headers.find? (m.excluded.contains ·) with
  | some name => rfl
  | none =>
  cases m.headers.contains m.configHeader with
  | false => rfl
  | true =>
  cases m.macros.isEmpty with
  | true => rfl
  | false =>
  cases m.macros.find? (!isIdentifier ·) with
  | some name => rfl
  | none => rfl

theorem forall_holds_iff :
    (∀ condition : Condition, condition.Holds m) ↔ m.fault? = none := by
  rw [fault?_eq_findSome?, List.findSome?_eq_none_iff]
  constructor
  · exact fun h condition _ => fault?_eq_none_iff.2 (h condition)
  · exact fun h condition => fault?_eq_none_iff.1 (h condition (mem_order condition))

theorem exists_isFirstViolated_iff :
    (∃ condition : Condition, condition.IsFirstViolated m ∧ condition.IsToldBy m fault) ↔
      m.fault? = some fault := by
  rw [fault?_eq_findSome?, List.findSome?_eq_some_iff]
  constructor
  · rintro ⟨condition, ⟨hviolated, earlier, later, horder, hearlier⟩, htold⟩
    refine ⟨earlier, condition, later, horder, fault?_eq_some_iff.2 ⟨hviolated, htold⟩, ?_⟩
    exact fun other hother => fault?_eq_none_iff.2 (hearlier other hother)
  · rintro ⟨earlier, condition, later, horder, hfault, hearlier⟩
    obtain ⟨hviolated, htold⟩ := fault?_eq_some_iff.1 hfault
    refine ⟨condition, ⟨hviolated, earlier, later, horder, fun other hother => ?_⟩, htold⟩
    exact fault?_eq_none_iff.1 (hearlier other hother)

end Condition

theorem validate_eq_error_iff {m : Manifest} {fault : Fault} :
    m.validate = .error fault ↔ m.fault? = some fault := by
  unfold validate
  split <;> simp [*]

/-- Validation accepts a manifest exactly if all conditions hold.  It rejects any other
with the fault that tells of the first violated condition, at the first name that
violates it. -/
theorem validate_reports_first_violation (m : Manifest) :
    (m.validate = .ok () ↔
      m.sources ≠ [] ∧ m.sources.Nodup ∧ m.headers.Nodup ∧
        (∀ name ∈ m.headers, name ∉ m.excluded) ∧ m.configHeader ∈ m.headers ∧
        m.macros ≠ [] ∧ ∀ name ∈ m.macros, IsIdentifier name) ∧
    ∀ fault, m.validate = .error fault ↔
      ∃ condition : Condition, condition.IsFirstViolated m ∧ condition.IsToldBy m fault := by
  refine ⟨?_, fun fault => ?_⟩
  · rw [validate_eq_ok_iff, ← Condition.forall_holds_iff]
    constructor
    · exact fun h => ⟨h .someSource, h .sourcesDistinct, h .headersDistinct,
        h .headersNotExcluded, h .configHeaderSeeded, h .someMacro, h .macrosIdentifiers⟩
    · rintro ⟨hsource, hsources, hheaders, hexcluded, hconfig, hmacro, hmacros⟩ condition
      cases condition with
      | someSource => exact hsource
      | sourcesDistinct => exact hsources
      | headersDistinct => exact hheaders
      | headersNotExcluded => exact hexcluded
      | configHeaderSeeded => exact hconfig
      | someMacro => exact hmacro
      | macrosIdentifiers => exact hmacros
  · rw [validate_eq_error_iff, Condition.exists_isFirstViolated_iff]

/-- A manifest with two repeated sources, an excluded seed header and a macro that is no
identifier. -/
def faulty : Manifest where
  sources := ["a.c", "b.c", "b.c", "a.c"]
  headers := ["x.h"]
  excluded := ["x.h"]
  configHeader := "x.h"
  stem := ""
  macros := ["1BAD"]
  prologue := ""
  epilogue := ""

/-- Of the two repeated sources the one that is repeated first is reported, and the
violations of later conditions are not. -/
theorem validate_reports_first_violation_faulty :
    Condition.sourcesDistinct.IsFirstViolated faulty ∧
      IsFirst (fun earlier other => other ∈ earlier) faulty.sources "b.c" ∧
      faulty.validate = .error (.duplicateSource "b.c") := by
  have hfirst : Condition.sourcesDistinct.IsFirstViolated faulty := by
    refine ⟨by show ¬ List.Nodup _; decide, [.someSource], _, rfl, ?_⟩
    exact List.forall_mem_singleton.2 (by show _ ≠ _; decide)
  have hrepeated : IsFirst (fun earlier other => other ∈ earlier) faulty.sources "b.c" :=
    firstRepeated?_eq_some_iff.1 (by decide)
  refine ⟨hfirst, hrepeated, ?_⟩
  rw [(validate_reports_first_violation faulty).2]
  exact ⟨.sourcesDistinct, hfirst, "b.c", rfl, hrepeated⟩

end Manifest
end Amalgam
