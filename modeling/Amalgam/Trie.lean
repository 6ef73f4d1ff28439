namespace Amalgam

/-!
# Tries

A trie maps lists of names to values.  Each node may bear a value and has the
tries below it, one for each name that leads on.  The laws say that `set`
changes one value and no other, and that nothing can be found under a name that
does not lead on.

Nodes that bear nothing are dropped on the way, so a trie does not grow by what
is set and taken away again.
-/

/-- A map from lists of names to values. -/
inductive Trie (α : Type) where
  | node (value : Option α) (children : List (String × Trie α))

namespace Trie

variable {α : Type}

def empty : Trie α := .node none []

def value : Trie α → Option α
  | .node value _ => value

/-- The tries right below, with the names that lead there. -/
def children : Trie α → List (String × Trie α)
  | .node _ children => children

/-- Whether a node bears nothing and leads nowhere. -/
def isVacant : Trie α → Bool
  | .node none [] => true
  | _ => false

def child (t : Trie α) (name : String) : Trie α :=
  (t.children.lookup name).getD empty

def setChild (t : Trie α) (name : String) (c : Trie α) : Trie α :=
  let others := t.children.filter (·.1 != name)
  .node t.value (if c.isVacant then others else (name, c) :: others)

def under (t : Trie α) : List String → Trie α
  | [] => t
  | name :: names => (t.child name).under names

def find? (t : Trie α) (names : List String) : Option α :=
  (t.under names).value

/-- Changes the trie under a list of names. -/
def update (f : Trie α → Trie α) : List String → Trie α → Trie α
  | [], t => f t
  | name :: names, t => t.setChild name (update f names (t.child name))

/-- Sets or takes away the value under a list of names. -/
def set (t : Trie α) (names : List String) (value : Option α) : Trie α :=
  update (fun u => .node value u.children) names t

/-- Takes away all that is below a list of names. -/
def prune (t : Trie α) (names : List String) : Trie α :=
  update (fun u => .node u.value []) names t

mutual

/-- All values with the names they are under, a value before those below it. -/
def toList : Trie α → List (List String × α)
  | .node value children => (value.toList.map fun a => ([], a)) ++ listBelow children

def listBelow : List (String × Trie α) → List (List String × α)
  | [] => []
  | (name, t) :: rest => (t.toList.map fun e => (name :: e.1, e.2)) ++ listBelow rest

end

/-! ## Laws -/

theorem eq_empty_of_isVacant {t : Trie α} (h : t.isVacant = true) : t = empty := by
  match t with
  | .node none [] => rfl
  | .node (some _) _ => simp [isVacant] at h
  | .node none (_ :: _) => simp [isVacant] at h

theorem lookup_filter_of_ne (entries : List (String × Trie α)) {name other : String}
    (h : other ≠ name) :
    (entries.filter (·.1 != name)).lookup other = entries.lookup other := by
  induction entries with
  | nil => rfl
  | cons e entries ih =>
    obtain ⟨key, c⟩ := e
    by_cases hk : key = name
    · subst hk
      have hne : (other == key) = false := by simpa using h
      simp [List.lookup_cons, hne, ih]
    · by_cases ho : other = key
      · simp [hk, ho]
      · have hne : (other == key) = false := by simpa using ho
        simp [hk, List.lookup_cons, hne, ih]

theorem lookup_eq_none_of_not_mem {entries : List (String × Trie α)} {name : String}
    (h : name ∉ entries.map (·.1)) : entries.lookup name = none := by
  induction entries with
  | nil => rfl
  | cons e entries ih =>
    obtain ⟨key, c⟩ := e
    simp only [List.map_cons, List.mem_cons, not_or] at h
    have hne : (name == key) = false := by simpa using h.1
    simp [List.lookup_cons, hne, ih h.2]

@[simp] theorem children_node (value : Option α) (children : List (String × Trie α)) :
    (node value children).children = children := rfl

theorem child_eq_empty_of_not_mem {t : Trie α} {name : String}
    (h : name ∉ t.children.map (·.1)) : t.child name = empty := by
  simp [child, lookup_eq_none_of_not_mem h]

theorem child_setChild_self (t : Trie α) (name : String) (c : Trie α) :
    (t.setChild name c).child name = c := by
  cases h : c.isVacant with
  | false => simp [setChild, child, h]
  | true =>
    have hgone : name ∉ (t.children.filter (·.1 != name)).map (·.1) := by simp
    rw [setChild, h, child, children_node, if_pos rfl, lookup_eq_none_of_not_mem hgone,
      Option.getD_none, eq_empty_of_isVacant h]

theorem child_setChild_of_ne (t : Trie α) {name other : String} (h : other ≠ name)
    (c : Trie α) : (t.setChild name c).child other = t.child other := by
  have hne : (other == name) = false := by simpa using h
  cases hc : c.isVacant with
  | false => simp [setChild, child, hc, List.lookup_cons, hne, lookup_filter_of_ne _ h]
  | true => simp [setChild, child, hc, lookup_filter_of_ne _ h]

theorem under_append (t : Trie α) (names more : List String) :
    t.under (names ++ more) = (t.under names).under more := by
  induction names generalizing t with
  | nil => rfl
  | cons name names ih => exact ih (t.child name)

theorem find?_set_self (t : Trie α) (names : List String) (value : Option α) :
    (t.set names value).find? names = value := by
  induction names generalizing t with
  | nil => rfl
  | cons name names ih =>
    show ((t.setChild name _).child name |>.under names).value = value
    rw [child_setChild_self]
    exact ih (t.child name)

theorem find?_set_of_ne (t : Trie α) {names other : List String} (h : other ≠ names)
    (value : Option α) : (t.set names value).find? other = t.find? other := by
  induction names generalizing t other with
  | nil =>
    cases other with
    | nil => exact absurd rfl h
    | cons => rfl
  | cons name names ih =>
    cases other with
    | nil => rfl
    | cons first rest =>
      show ((t.setChild name _).child first |>.under rest).value = _
      by_cases hf : first = name
      · subst hf
        rw [child_setChild_self]
        exact ih (t.child first) fun hr => h (by rw [hr])
      · rw [child_setChild_of_ne t hf]
        rfl

theorem find?_eq_none_of_not_mem {t : Trie α} {names : List String} {name : String}
    (h : name ∉ (t.under names).children.map (·.1)) : t.find? (names ++ [name]) = none := by
  rw [find?, under_append]
  show ((t.under names).child name).value = none
  rw [child_eq_empty_of_not_mem h]
  rfl

end Trie
end Amalgam
