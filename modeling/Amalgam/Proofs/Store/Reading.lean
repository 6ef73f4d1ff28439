import Amalgam.Store

namespace Amalgam

/-!
# Reading from a store

A store is a function, so a name is either readable or not, once and for all.
For a readable name, reading gives the lines of one fixed text.
-/

namespace Store

/-- Whether the store has a content for the name. -/
def Readable (store : Store) (name : String) : Prop :=
  ∃ content, store name = .ok content

instance (store : Store) (name : String) : Decidable (store.Readable name) :=
  match h : store name with
  | .ok content => isTrue ⟨content, h⟩
  | .error _ => isFalse fun ⟨content, hcontent⟩ => by
      rw [h] at hcontent
      contradiction

/-- The content of a readable file.  A file that cannot be read counts as empty. -/
def textOf (store : Store) (name : String) : String :=
  match store name with
  | .ok content => content
  | .error _ => ""

theorem Readable.eq {store : Store} {name : String} (h : store.Readable name) :
    store name = .ok (store.textOf name) := by
  obtain ⟨content, hcontent⟩ := h
  simp [textOf, hcontent]

theorem Readable.read {store : Store} {name : String} (h : store.Readable name) :
    store.read name = .ok (InputFile.ofContent name (store.textOf name)) := by
  rw [Store.read, h.eq]
  rfl

theorem readable_of_read {store : Store} {name : String} {file : InputFile}
    (h : store.read name = .ok file) : store.Readable name := by
  unfold Store.read at h
  cases hname : store name with
  | error cause => simp [hname, Except.map] at h
  | ok content => exact ⟨content, hname⟩

theorem read_of_error {store : Store} {name : String} {cause : InputError}
    (h : store name = .error cause) : store.read name = .error cause := by
  rw [Store.read, h]
  rfl

/-- The first of the names that cannot be read, with the reason. -/
def firstUnread? (store : Store) (names : List String) : Option (String × InputError) :=
  names.findSome? fun name =>
    match store name with
    | .ok _ => none
    | .error cause => some (name, cause)

theorem firstUnread?_eq_none_iff {store : Store} {names : List String} :
    store.firstUnread? names = none ↔ ∀ name ∈ names, store.Readable name := by
  rw [firstUnread?, List.findSome?_eq_none_iff]
  refine forall₂_congr fun name _ => ?_
  cases hname : store name with
  | ok content => simp [Readable, hname]
  | error cause => simp [Readable, hname]

theorem firstUnread?_eq_some_iff {store : Store} {names : List String} {name : String}
    {cause : InputError} :
    store.firstUnread? names = some (name, cause) ↔
      ∃ before after : List String, names = before ++ name :: after ∧
        store name = .error cause ∧ ∀ other ∈ before, store.Readable other := by
  rw [firstUnread?, List.findSome?_eq_some_iff]
  constructor
  · rintro ⟨before, found, after, hnames, hfound, hbefore⟩
    cases hread : store found with
    | ok content => simp [hread] at hfound
    | error reason =>
        simp only [hread, Option.some.injEq, Prod.mk.injEq] at hfound
        obtain ⟨rfl, rfl⟩ := hfound
        refine ⟨before, after, hnames, hread, ?_⟩
        exact firstUnread?_eq_none_iff.1 (List.findSome?_eq_none_iff.2 hbefore)
  · rintro ⟨before, after, hnames, hread, hbefore⟩
    refine ⟨before, name, after, hnames, by rw [hread], ?_⟩
    exact List.findSome?_eq_none_iff.1 (firstUnread?_eq_none_iff.2 hbefore)

end Store

end Amalgam
