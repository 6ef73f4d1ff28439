import Amalgam.Plan.Basic
import Amalgam.Proofs.Document.Grammar

namespace Amalgam

/-!
# How rendering and planning end

Rendering and planning check the manifest and scan the sources in the same way, so
up to there they fail alike.  Rendering then reads the headers in the order of the
plan, and the first that cannot be read is reported.

Rendering reads every source a second time, but this cannot fail: a store gives the
same answer twice, and no document is begun before all sources have been scanned.
-/

theorem joinCauses_pair (context cause : String) :
    joinCauses [context, cause] = context ++ ": " ++ cause := by
  rw [joinCauses, String.intercalate_cons_cons, String.intercalate_singleton]

namespace Manifest

variable {m : Manifest} {store : Store}

/-! ## Failures that rendering and planning share -/

theorem checked_eq_error {fault : Fault} (h : m.validate = .error fault) :
    m.checked = .error (.invalidManifest fault) := by
  rw [checked, h]
  rfl

theorem render_eq_error_of_invalid {fault : Fault} (h : m.validate = .error fault) :
    m.render store = .error (.invalidManifest fault) :=
  except_bind_of_error (checked_eq_error h)

theorem plan_eq_error_of_invalid {fault : Fault} (h : m.validate = .error fault) :
    m.plan store = .error (.invalidManifest fault) :=
  except_bind_of_error (checked_eq_error h)

theorem Valid.render_eq_bind (h : m.Valid) :
    m.render store = (m.discover store >>= fun registry => m.renderWith store registry) :=
  except_bind_of_ok (checked_eq_ok_iff.2 h)

theorem Valid.plan_eq_bind (h : m.Valid) :
    m.plan store = (m.discover store >>= fun registry =>
      .ok ⟨registry.headers, m.sources, m.excluded, m.configHeader,
        m.implementationCondition⟩) :=
  except_bind_of_ok (checked_eq_ok_iff.2 h)

/-! ## Unreadable headers -/

/-- What stands in front of a header's block in the outline. -/
def partsBefore (m : Manifest) (before : List String) : List Part :=
  .text m.prologue :: before.flatMap m.headerParts

theorem exists_outline_eq (m : Manifest) (before : List String) (header : String)
    (after : List String) :
    ∃ rest : List Part, m.outline (before ++ header :: after) =
      m.partsBefore before ++ .header header :: rest := by
  have hsection : ∃ injected : List Part, m.headerParts header = .header header :: injected := by
    unfold headerParts
    split
    · exact ⟨_, rfl⟩
    · exact ⟨_, rfl⟩
  obtain ⟨injected, hinjected⟩ := hsection
  refine ⟨injected ++ (after.flatMap m.headerParts ++ ([.text m.openingLine] ++
    (m.sources.map .source ++ [.text m.closingLine]))), ?_⟩
  simp only [outline, partsBefore, List.flatMap_append, List.flatMap_cons, hinjected,
    List.append_assoc, List.cons_append]
  rfl

theorem readable_partsBefore {before : List String}
    (h : ∀ name ∈ before, store.Readable name) :
    ∀ part ∈ m.partsBefore before, part.Readable store := by
  rw [partsBefore, List.forall_mem_cons, List.forall_mem_flatMap]
  refine ⟨trivial, fun name hname part hpart => ?_⟩
  cases part with
  | text content => trivial
  | header other =>
      have hother : other = name := by
        unfold headerParts at hpart
        split at hpart <;> simpa using hpart
      rw [hother]
      exact h name hname
  | source other =>
      unfold headerParts at hpart
      split at hpart <;> simp at hpart

/-- With given headers, rendering reports the first of them that cannot be read. -/
theorem renderWith_eq_error {registry : Registry} {header : String} {cause : InputError}
    (h : store.firstUnread? registry.headers = some (header, cause)) :
    m.renderWith store registry = .error (.headerUnread header cause) := by
  obtain ⟨before, after, hheaders, hcause, hbefore⟩ :=
    Store.firstUnread?_eq_some_iff.1 h
  obtain ⟨rest, houtline⟩ := m.exists_outline_eq before header after
  obtain ⟨e, hparts⟩ : ∃ e, writeParts store m.stem (m.outline registry.headers)
      ⟨Sink.unbounded, {}⟩ = .error (.headerUnread header cause) e := by
    rw [hheaders, houtline]
    exact ⟨_, writeParts_of_unread_header rfl (readable_partsBefore hbefore) hcause rest⟩
  rw [renderWith, Emission.into_of_error hparts]
  rfl

/-! ## The outcome -/

/-- The failures of a rendering. -/
theorem render_eq_error_cases {failure : Failure} (h : m.render store = .error failure) :
    (∃ fault, failure = .invalidManifest fault) ∨
      (∃ source cause, failure = .unscannable source cause) ∨
      ∃ header cause, failure = .headerUnread header cause := by
  cases hvalidate : m.validate with
  | error fault =>
      rw [render_eq_error_of_invalid hvalidate] at h
      cases h
      exact Or.inl ⟨fault, rfl⟩
  | ok _ =>
      have hvalid := validate_eq_ok_iff_valid.1 hvalidate
      rw [hvalid.render_eq_bind] at h
      cases hsources : store.firstUnread? m.sources with
      | some unread =>
          rw [except_bind_of_error (discover_eq_error hsources)] at h
          cases h
          exact Or.inr (Or.inl ⟨_, _, rfl⟩)
      | none =>
          have hread := Store.firstUnread?_eq_none_iff.1 hsources
          rw [except_bind_of_ok (hvalid.discover_eq_ok hread)] at h
          -- Now only a header can be missing.
          cases hheaders : store.firstUnread? (m.headers ++
              ((includedNames store m.stem m.sources).filter
                m.seedRegistry.admits).eraseDups) with
          | some unread =>
              rw [renderWith_eq_error hheaders] at h
              cases h
              exact Or.inr (Or.inr ⟨_, _, rfl⟩)
          | none =>
              have hall := List.forall_mem_append.2
                ⟨Store.firstUnread?_eq_none_iff.1 hheaders, hread⟩
              rw [renderWith_eq_ok_iff.2 ⟨hall, rfl⟩] at h
              cases h

/-- Rendering never gets to a source that it cannot read: the scan has read them all. -/
theorem render_ne_sourceUnread (m : Manifest) (store : Store) (source : String)
    (cause : InputError) : m.render store ≠ .error (.sourceUnread source cause) := by
  intro hrender
  rcases render_eq_error_cases hrender with ⟨_, h⟩ | ⟨_, _, h⟩ | ⟨_, _, h⟩
  · cases h
  · cases h
  · cases h

/-- How rendering and planning end, whatever the manifest and the store are.  Both fail
alike on an invalid manifest and on the first source that cannot be read; otherwise
planning succeeds, and rendering succeeds with the planned headers unless one of them
cannot be read, the first of which is then reported. -/
theorem render_and_plan_outcome (m : Manifest) (store : Store) :
    (∀ fault, m.validate = .error fault →
      m.render store = .error (.invalidManifest fault) ∧
      m.plan store = .error (.invalidManifest fault) ∧
      (Failure.invalidManifest fault).message =
        "invalid amalgamation manifest" ++ ": " ++ fault.message) ∧
    (m.validate = .ok () →
      ∀ source cause, store.firstUnread? m.sources = some (source, cause) →
        m.render store = .error (.unscannable source cause) ∧
        m.plan store = .error (.unscannable source cause) ∧
        (Failure.unscannable source cause).message =
          "failed to scan `" ++ source ++ "` for includes" ++ ": " ++ cause.message) ∧
    (m.validate = .ok () → (∀ source ∈ m.sources, store.Readable source) →
      ∃ plan, m.plan store = .ok plan ∧
        ((∃ a, m.render store = .ok a) ↔ ∀ header ∈ plan.headers, store.Readable header) ∧
        (∀ a, m.render store = .ok a → a.registry.headers = plan.headers) ∧
        ∀ header cause, store.firstUnread? plan.headers = some (header, cause) →
          m.render store = .error (.headerUnread header cause) ∧
          (Failure.headerUnread header cause).message =
            "failed to read header `" ++ header ++ "`" ++ ": " ++ cause.message) ∧
    ∀ source cause, m.render store ≠ .error (.sourceUnread source cause) := by
  refine ⟨fun fault hfault => ?_, fun hvalidate source cause hunread => ?_,
    fun hvalidate hread => ?_, m.render_ne_sourceUnread store⟩
  · exact ⟨render_eq_error_of_invalid hfault, plan_eq_error_of_invalid hfault,
      joinCauses_pair _ _⟩
  · have hvalid := validate_eq_ok_iff_valid.1 hvalidate
    have hdiscover := discover_eq_error hunread
    rw [hvalid.render_eq_bind, hvalid.plan_eq_bind]
    exact ⟨except_bind_of_error hdiscover, except_bind_of_error hdiscover,
      joinCauses_pair _ _⟩
  · have hvalid := validate_eq_ok_iff_valid.1 hvalidate
    have hdiscover := hvalid.discover_eq_ok hread
    rw [hvalid.render_eq_bind, hvalid.plan_eq_bind, except_bind_of_ok hdiscover,
      except_bind_of_ok hdiscover]
    refine ⟨_, rfl, ?_, ?_, ?_⟩
    · simp only [renderWith_eq_ok_iff]
      constructor
      · rintro ⟨a, hall, -⟩
        exact (List.forall_mem_append.1 hall).1
      · exact fun hheaders => ⟨_, List.forall_mem_append.2 ⟨hheaders, hread⟩, rfl⟩
    · intro a ha
      obtain ⟨-, rfl⟩ := renderWith_eq_ok_iff.1 ha
      rfl
    · exact fun header cause hunread => ⟨renderWith_eq_error hunread, joinCauses_pair _ _⟩

end Manifest

/-- The store with one file taken away. -/
def Store.without (store : Store) (name : String) : Store := fun other =>
  if other = name then .error (.missing name) else store other

namespace Manifest

theorem render_and_plan_outcome_sample :
    ({ sample with macros := ["9"] }.validate = .error (.invalidMacro "9") ∧
      { sample with macros := ["9"] }.plan Store.sample =
        .error (.invalidManifest (.invalidMacro "9"))) ∧
    (sample.validate = .ok () ∧
      (Store.sample.without "a.c").firstUnread? sample.sources =
        some ("a.c", .missing "a.c") ∧
      sample.render (Store.sample.without "a.c") =
        .error (.unscannable "a.c" (.missing "a.c"))) ∧
    ((∀ source ∈ sample.sources, (Store.sample.without "near.h").Readable source) ∧
      ∃ plan, sample.plan (Store.sample.without "near.h") = .ok plan ∧
        (Store.sample.without "near.h").firstUnread? plan.headers =
          some ("near.h", .missing "near.h") ∧
        sample.render (Store.sample.without "near.h") =
          .error (.headerUnread "near.h" (.missing "near.h"))) := by
  have hfault : { sample with macros := ["9"] }.validate = .error (.invalidMacro "9") := rfl
  have hvalid : sample.validate = .ok () := rfl
  have hsource : (Store.sample.without "a.c").firstUnread? sample.sources =
      some ("a.c", .missing "a.c") := by decide
  have hread : ∀ source ∈ sample.sources, (Store.sample.without "near.h").Readable source := by
    decide
  obtain ⟨hinvalid, -⟩ := render_and_plan_outcome { sample with macros := ["9"] } Store.sample
  obtain ⟨-, hunscannable, -⟩ :=
    render_and_plan_outcome sample (Store.sample.without "a.c")
  obtain ⟨-, -, hreadable, -⟩ :=
    render_and_plan_outcome sample (Store.sample.without "near.h")
  refine ⟨⟨hfault, (hinvalid _ hfault).2.1⟩,
    ⟨hvalid, hsource, (hunscannable hvalid _ _ hsource).1⟩, hread, ?_⟩
  obtain ⟨plan, hplan, -, -, hunread⟩ := hreadable hvalid hread
  have hheader : (Store.sample.without "near.h").firstUnread? plan.headers =
      some ("near.h", .missing "near.h") := by
    have hheaders : sample.plan (Store.sample.without "near.h") =
        .ok ⟨["cfg.h", "near.h", "tail.h"], sample.sources, sample.excluded,
          sample.configHeader, sample.implementationCondition⟩ := rfl
    rw [hplan, Except.ok.injEq] at hheaders
    rw [hheaders]
    decide
  exact ⟨plan, hplan, hheader, (hunread _ _ hheader).1⟩

end Manifest
end Amalgam
