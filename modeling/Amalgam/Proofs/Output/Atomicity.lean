import Amalgam.Output
import Amalgam.Proofs.FileTree.Replacement
import Amalgam.Proofs.Rendering.Outcome

namespace Amalgam

/-!
# Generating is all or nothing

The document is complete before the tree is touched.  So a document that cannot be
rendered leaves no trace at all, and one that cannot be written leaves every file as it
was.  What a refused write can leave behind are directories on the way to the output
and, until the refusal is disposed of, the temporary file.

A path may lead through its own end, as `a/../a` does.  Then the end is among the
directories on the way and is made like the others, although no file can ever be put
there.
-/

namespace FileTree

variable {t t' : FileTree} {path : String} {content : ByteArray} {abort : Abort}

/-- What a path leads to after a replacement that failed was there before, or else it is
a directory that the path itself leads through. -/
theorem open?_of_replaceFileKeeping_eq_error
    (h : replaceFileKeeping path content t = .error abort t') {entry : Entry}
    (hentry : t'.open? path = .ok entry) :
    t.get? (t.placeOf path) = some entry ∨
      t.get? (t.placeOf path) = none ∧ entry = .directory ∧
        t.placeOf path ∈ t.ancestors path := by
  obtain ⟨hframe, hleftover, -⟩ := replaceFileKeeping_eq_error h
  obtain ⟨place, hresolve, hplace, hmeans⟩ := open?_eq_ok_iff.1 hentry
  have hne : abort.leftover ≠ some place := by
    intro heq
    obtain ⟨-, hfilled, -, hrefused⟩ := hleftover place heq
    -- The path would lead to the temporary file, so that file could have stayed there.
    rw [hplace, Option.some.injEq] at hfilled
    have hfile : Path.meansDirectory path = false := by
      rw [Bool.eq_false_iff]
      intro hdirectory
      rw [hmeans hdirectory] at hfilled
      cases hfilled
    have htarget : t'.destination? place path = some place := by
      refine destination?_eq_some_iff.2 ⟨hresolve, hfile, ?_, Or.inl rfl⟩
      rw [hplace, hfilled]
      simp
    rw [hrefused] at htarget
    cases htarget
  rw [eq_placeOf_of_resolve hresolve, placeOf_congr hframe.here] at hplace hne
  cases hbefore : t.get? (t.placeOf path) with
  | none => exact Or.inr ⟨rfl, hframe.added _ entry hne hbefore hplace⟩
  | some before =>
      rw [hframe.kept _ before hne hbefore] at hplace
      exact Or.inl hplace

theorem discarding_eq_of_error {α : Type} {change : EStateM Abort FileTree α}
    (h : change t = .error abort t') :
    discarding change t =
      match abort.leftover with
      | none => .error abort.failure t'
      | some place => .error abort.failure (t'.erase place) := by
  unfold discarding
  rewrite [h]
  rfl

/-- Once the temporary file of a change that failed is discarded, no file has been
added. -/
theorem discarding_of_error {α : Type} {change : EStateM Abort FileTree α}
    {made : List Place} (h : change t = .error abort t')
    (hframe : Frame made abort.leftover t t')
    (hfree : ∀ place, abort.leftover = some place → t.get? place = none) :
    ∃ t'', discarding change t = .error abort.failure t'' ∧ Frame made none t t'' := by
  rw [discarding_eq_of_error h]
  cases hleftover : abort.leftover with
  | none =>
      rw [hleftover] at hframe
      exact ⟨t', rfl, hframe⟩
  | some leftover =>
      have hplace := hfree leftover hleftover
      refine ⟨t'.erase leftover, rfl, hframe.here, hframe.space, hframe.fixed, ?_, ?_⟩
      · intro place entry _ hentry
        have hne : place ≠ leftover := by
          rintro rfl
          rw [hplace] at hentry
          cases hentry
        rw [get?_erase_of_ne t' hne]
        exact hframe.kept place entry (by simpa [hleftover] using hne.symm) hentry
      · intro place entry _ hnone hentry
        rw [get?_erase (ne_nil_of_get?_eq_none hplace)] at hentry
        split_ifs at hentry with heq
        exact hframe.added place entry (by simpa [hleftover] using Ne.symm heq) hnone hentry

end FileTree

namespace Manifest

section Generating

variable {m : Manifest} {store : Store} {output : String} {t t' : FileTree}
  {a : Amalgamation} {failure : Failure} {abort : FileTree.Abort}

theorem generateKeeping_of_render_error (h : m.render store = .error failure) :
    m.generateKeeping store output t = .error (.clean failure) t := by
  unfold generateKeeping
  rw [h]

theorem generateKeeping_of_render_ok (h : m.render store = .ok a) :
    m.generateKeeping store output t =
      match FileTree.replaceFileKeeping output a.document t with
      | .ok _ t' => .ok a t'
      | .error abort t' => .error abort t' := by
  unfold generateKeeping
  rewrite [h]
  rfl

theorem generateKeeping_eq_ok_iff :
    m.generateKeeping store output t = .ok a t' ↔
      m.render store = .ok a ∧
        FileTree.replaceFileKeeping output a.document t = .ok () t' := by
  cases hrender : m.render store with
  | error failure =>
      rw [generateKeeping_of_render_error hrender]
      simp
  | ok rendered =>
      rw [generateKeeping_of_render_ok hrender]
      cases hwrite : FileTree.replaceFileKeeping output rendered.document t with
      | error abort t'' =>
          refine iff_of_false (by simp) ?_
          rintro ⟨heq, h⟩
          cases heq
          rw [hwrite] at h
          cases h
      | ok _ t'' =>
          constructor
          · intro h
            cases h
            exact ⟨rfl, hwrite⟩
          · rintro ⟨heq, h⟩
            cases heq
            rw [hwrite] at h
            cases h
            rfl

theorem generateKeeping_eq_error_iff :
    m.generateKeeping store output t = .error abort t' ↔
      (∃ failure, m.render store = .error failure ∧ abort = .clean failure ∧ t' = t) ∨
        ∃ a, m.render store = .ok a ∧
          FileTree.replaceFileKeeping output a.document t = .error abort t' := by
  cases hrender : m.render store with
  | error failure =>
      rw [generateKeeping_of_render_error hrender]
      simp [eq_comm]
  | ok rendered =>
      rw [generateKeeping_of_render_ok hrender]
      cases hwrite : FileTree.replaceFileKeeping output rendered.document t with
      | error other t'' => simp [hwrite]
      | ok _ t'' => simp [hwrite]

/-- What a failed generation has changed, and what it has left over. -/
theorem generateKeeping_eq_error (h : m.generateKeeping store output t = .error abort t') :
    FileTree.Frame (t.ancestors output) abort.leftover t t' ∧
      (∀ place, abort.leftover = some place →
        ∃ a, m.render store = .ok a ∧ t.IsLeftover t' output a.document place) ∧
      (abort.leftover.isSome ↔ abort.failure = .notReplaced output) := by
  rcases generateKeeping_eq_error_iff.1 h with ⟨failure, hrender, rfl, rfl⟩ | ⟨a, hrender, hwrite⟩
  · have hfailure : failure ≠ .notReplaced output := by
      rcases render_eq_error_cases hrender with ⟨_, rfl⟩ | ⟨_, _, rfl⟩ | ⟨_, _, rfl⟩ <;> simp
    exact ⟨FileTree.Frame.refl _, by simp [FileTree.Abort.clean],
      by simpa [FileTree.Abort.clean] using hfailure⟩
  · obtain ⟨hframe, hleftover, hiff⟩ := FileTree.replaceFileKeeping_eq_error hwrite
    exact ⟨hframe, fun place hplace => ⟨a, hrender, hleftover place hplace⟩, hiff⟩

/-- After a generation that failed, everything is still there that was there. -/
theorem kept_of_generateKeeping_eq_error
    (h : m.generateKeeping store output t = .error abort t') {place : Place} {entry : Entry}
    (hentry : t.get? place = some entry) : t'.get? place = some entry := by
  obtain ⟨hframe, hleftover, -⟩ := generateKeeping_eq_error h
  refine hframe.kept place entry (fun heq => ?_) hentry
  obtain ⟨a, -, hplace⟩ := hleftover place heq
  rw [hplace.free] at hentry
  cases hentry

theorem generate_of_generateKeeping_eq_ok (h : m.generateKeeping store output t = .ok a t') :
    m.generate store output t = .ok a t' := by
  unfold generate FileTree.discarding
  rw [h]

theorem generate_of_generateKeeping_eq_error
    (h : m.generateKeeping store output t = .error abort t') :
    ∃ t'', m.generate store output t = .error abort.failure t'' ∧
      FileTree.Frame (t.ancestors output) none t t'' := by
  obtain ⟨hframe, hleftover, -⟩ := generateKeeping_eq_error h
  refine FileTree.discarding_of_error h hframe fun place hplace => ?_
  obtain ⟨a, -, hplace⟩ := hleftover place hplace
  exact hplace.free

theorem generate_eq_ok_iff :
    m.generate store output t = .ok a t' ↔
      m.render store = .ok a ∧
        FileTree.replaceFileKeeping output a.document t = .ok () t' := by
  rw [← generateKeeping_eq_ok_iff]
  refine ⟨fun h => ?_, generate_of_generateKeeping_eq_ok⟩
  cases hkeeping : m.generateKeeping store output t with
  | ok rendered t'' =>
      rw [generate_of_generateKeeping_eq_ok hkeeping] at h
      cases h
      rfl
  | error abort t'' =>
      obtain ⟨_, hgenerate, -⟩ := generate_of_generateKeeping_eq_error hkeeping
      rw [hgenerate] at h
      cases h

/-- The temporary file that could not be moved is the last thing to go. -/
theorem generate_of_leftover (h : m.render store = .ok a) {place : Place}
    (hwrite : FileTree.replaceFileKeeping output a.document t =
      .error ⟨failure, some place⟩ t') :
    m.generate store output t = .error failure (t'.erase place) :=
  FileTree.discarding_eq_of_error (generateKeeping_eq_error_iff.2 (Or.inr ⟨a, h, hwrite⟩))

theorem frame_of_generate_eq_error (h : m.generate store output t = .error failure t') :
    FileTree.Frame (t.ancestors output) none t t' := by
  cases hkeeping : m.generateKeeping store output t with
  | ok rendered t'' =>
      rw [generate_of_generateKeeping_eq_ok hkeeping] at h
      cases h
  | error abort t'' =>
      obtain ⟨_, hgenerate, hframe⟩ := generate_of_generateKeeping_eq_error hkeeping
      rw [hgenerate] at h
      cases h
      exact hframe

end Generating

/-- How a generation ends.  If the document cannot be rendered, that failure is
reported and the tree is as it was.  Otherwise either the output holds the document and
nothing else has happened but that directories were made on the way to it, or everything
that was there still is, and the only additions are directories on the way and the
temporary file, which goes with the report of the failure.  In the second case the output
has not come to exist, unless the path leads through it: then it may be one of the
directories. -/
theorem generate_all_or_nothing (m : Manifest) (store : Store) (output : String)
    (t : FileTree) :
    (∀ failure, m.render store = .error failure →
      m.generateKeeping store output t = .error (.clean failure) t ∧
      m.generate store output t = .error failure t) ∧
    ∀ a, m.render store = .ok a →
      (∃ t', m.generateKeeping store output t = .ok a t' ∧
        m.generate store output t = .ok a t' ∧
        t'.read output = .ok a.document ∧
        FileTree.Frame (t.ancestors output) (some (t.placeOf output)) t t') ∨
      ∃ abort t', m.generateKeeping store output t = .error abort t' ∧
        (∀ place entry, t.get? place = some entry → t'.get? place = some entry) ∧
        FileTree.Frame (t.ancestors output) abort.leftover t t' ∧
        (∀ place, abort.leftover = some place →
          t.IsLeftover t' output a.document place) ∧
        (∀ entry, t'.open? output = .ok entry →
          t.get? (t.placeOf output) = some entry ∨
            t.get? (t.placeOf output) = none ∧ entry = .directory ∧
              t.placeOf output ∈ t.ancestors output) ∧
        ∃ t'', m.generate store output t = .error abort.failure t'' ∧
          FileTree.Frame (t.ancestors output) none t t'' := by
  refine ⟨fun failure hrender => ?_, fun a hrender => ?_⟩
  · have hkeeping : m.generateKeeping store output t = .error (.clean failure) t :=
      generateKeeping_of_render_error hrender
    exact ⟨hkeeping, FileTree.discarding_eq_of_error hkeeping⟩
  · cases hwrite : FileTree.replaceFileKeeping output a.document t with
    | ok _ t' =>
        obtain ⟨hframe, hread, -⟩ := FileTree.replaceFileKeeping_eq_ok hwrite
        have hkeeping := generateKeeping_eq_ok_iff.2 ⟨hrender, hwrite⟩
        exact Or.inl ⟨t', hkeeping, generate_of_generateKeeping_eq_ok hkeeping, hread, hframe⟩
    | error abort t' =>
        obtain ⟨hframe, hleftover, -⟩ := FileTree.replaceFileKeeping_eq_error hwrite
        have hkeeping := generateKeeping_eq_error_iff.2 (Or.inr ⟨a, hrender, hwrite⟩)
        exact Or.inr ⟨abort, t', hkeeping,
          fun place entry => kept_of_generateKeeping_eq_error hkeeping, hframe, hleftover,
          fun entry => FileTree.open?_of_replaceFileKeeping_eq_error hwrite,
          generate_of_generateKeeping_eq_error hkeeping⟩

end Manifest

/-- A tree with nothing but a working directory. -/
def FileTree.home : FileTree :=
  FileTree.onlyDirectory ["home"]

namespace FileTree

/-- A path that leads through its own end, which is made on the way. -/
theorem replaceFileKeeping_own_ancestor (content : ByteArray) :
    replaceFileKeeping "a/../a" content home =
      .error ⟨.notReplaced "a/../a", some ["home", ".tmp000000"]⟩
        (((home.put ["home", "a"] .directory).put ["home", ".tmp000000"]
          (.file ByteArray.empty)).put ["home", ".tmp000000"] (.file content)) := by
  with_unfolding_all rfl

/-- A tree that holds an output, with a bound on what fits into it and fixed places. -/
def written (content : ByteArray) (space : Option Nat) (fixed : List Place) : FileTree :=
  { (home.put ["home", "out"] .directory).put ["home", "out", "lib.h"] (.file content) with
    space := space
    fixed := fixed }

theorem replaceFileKeeping_missing_directory (content : ByteArray) :
    replaceFileKeeping "out/lib.h" content home = .ok () (written content none []) := by
  with_unfolding_all rfl

section Written

variable (old content : ByteArray) (space : Option Nat) (fixed : List Place)

theorem get?_written :
    (written old space fixed).get? ["home", "out", "lib.h"] = some (.file old) := by
  with_unfolding_all rfl

/-- Whatever is mounted, what stands in the tree stays. -/
theorem fixed_written (other : List Place) :
    { written old space fixed with fixed := other } = written old space other := rfl

theorem makeTemporary_written :
    makeTemporary "out" (written old space fixed) =
      .ok ["home", "out", ".tmp000000"]
        ((written old space fixed).put ["home", "out", ".tmp000000"]
          (.file ByteArray.empty)) := by
  have hplace : (written old space fixed).resolve "out" = .ok ["home", "out"] := by
    with_unfolding_all rfl
  have hdirectory : (written old space fixed).isDirectory "out" = true := by
    with_unfolding_all rfl
  -- The room for the name depends on the working directory only.
  have hroom : (written old space fixed).roomForTemporary "out" = true :=
    show home.roomForTemporary "out" = true by decide +kernel
  have hfresh : (written old space fixed).freshName ["home", "out"] = ".tmp000000" := by
    have hnames : (written old space fixed).namesIn ["home", "out"] = ["lib.h"] := by
      with_unfolding_all rfl
    rw [freshName, hnames]
    decide
  rw [makeTemporary, hplace, hdirectory, hroom, ← hfresh]
  rfl

/-- The directory is there, so the replacement begins with its temporary file. -/
theorem replaceFileKeeping_written :
    replaceFileKeeping "out/lib.h" content (written old space fixed) =
      (do fillTemporary "out/lib.h" ["home", "out", ".tmp000000"] content
          moveTemporary "out/lib.h" ["home", "out", ".tmp000000"] :
        EStateM Abort FileTree Unit)
        ((written old space fixed).put ["home", "out", ".tmp000000"]
          (.file ByteArray.empty)) := by
  have hensure : ensureDirectory "out" (written old space fixed) =
      .ok () (written old space fixed) := by
    with_unfolding_all rfl
  have hdirectory : Path.directory "out/lib.h" = "out" := by decide
  rw [replaceFileKeeping, hdirectory, bind_of_ok hensure,
    bind_of_ok (makeTemporary_written old space fixed)]

theorem replaceFileKeeping_without_space (h : 0 < content.size) :
    ∃ t', replaceFileKeeping "out/lib.h" content (written old (some 0) fixed) =
      .error (.clean (.contentNotWritten "out/lib.h" .noSpace)) t' := by
  have hfits : ((written old (some 0) fixed).put ["home", "out", ".tmp000000"]
      (.file ByteArray.empty)).fits content = false :=
    decide_eq_false (Nat.not_le.2 h)
  rw [replaceFileKeeping_written]
  exact ⟨_, bind_of_error (fillTemporary_of_not_fits hfits)⟩

theorem replaceFileKeeping_over_fixed :
    ∃ t', replaceFileKeeping "out/lib.h" content
        (written old none [["home", "out", "lib.h"]]) =
      .error ⟨.notReplaced "out/lib.h", some ["home", "out", ".tmp000000"]⟩ t' := by
  rw [replaceFileKeeping_written]
  exact ⟨_, by with_unfolding_all rfl⟩

end Written

end FileTree

namespace Manifest

/-- A manifest that is refused; an output that is written; one whose path leads through
itself; and an existing one that stays, as there is no space or as it is fixed. -/
theorem generate_all_or_nothing_sample :
    ({ sample with macros := ["9"] }.render Store.sample =
        .error (.invalidManifest (.invalidMacro "9")) ∧
      { sample with macros := ["9"] }.generateKeeping Store.sample "out/lib.h" .home =
        .error (.clean (.invalidManifest (.invalidMacro "9"))) .home) ∧
    sample.render Store.sample = .ok sampleAmalgamation ∧
    (∃ t', sample.generateKeeping Store.sample "out/lib.h" .home = .ok sampleAmalgamation t' ∧
      t'.read "out/lib.h" = .ok sampleAmalgamation.document) ∧
    (∃ abort t', sample.generateKeeping Store.sample "a/../a" .home = .error abort t' ∧
      ∀ place entry, FileTree.home.get? place = some entry → t'.get? place = some entry) ∧
    (∃ t', sample.generateKeeping Store.sample "out/lib.h"
        (.written "old".toUTF8 (some 0) []) =
          .error (.clean (.contentNotWritten "out/lib.h" .noSpace)) t' ∧
      t'.get? ["home", "out", "lib.h"] = some (.file "old".toUTF8)) ∧
    ∃ t', sample.generateKeeping Store.sample "out/lib.h"
        (.written "old".toUTF8 none [["home", "out", "lib.h"]]) =
          .error ⟨.notReplaced "out/lib.h", some ["home", "out", ".tmp000000"]⟩ t' ∧
      t'.get? ["home", "out", "lib.h"] = some (.file "old".toUTF8) := by
  have hinvalid : { sample with macros := ["9"] }.render Store.sample =
      .error (.invalidManifest (.invalidMacro "9")) := render_eq_error_of_invalid rfl
  obtain ⟨hunrendered, -⟩ := generate_all_or_nothing { sample with macros := ["9"] }
    Store.sample "out/lib.h" .home
  have hstays : ∀ t abort t'', FileTree.replaceFileKeeping "out/lib.h"
        sampleAmalgamation.document t = .error abort t'' →
      t.get? ["home", "out", "lib.h"] = some (.file "old".toUTF8) →
      ∃ t', sample.generateKeeping Store.sample "out/lib.h" t = .error abort t' ∧
        t'.get? ["home", "out", "lib.h"] = some (.file "old".toUTF8) := by
    intro t abort t'' hwrite hold
    have hkeeping := generateKeeping_eq_error_iff.2 (Or.inr ⟨_, render_sample_eq_ok, hwrite⟩)
    obtain ⟨-, hrendered⟩ := generate_all_or_nothing sample Store.sample "out/lib.h" t
    rcases hrendered _ render_sample_eq_ok with ⟨t', h, -⟩ | ⟨other, t', h, hkept, -⟩
    · rw [hkeeping] at h
      cases h
    · rw [hkeeping] at h
      cases h
      exact ⟨t'', hkeeping, hkept _ _ hold⟩
  have hsize : 0 < sampleAmalgamation.document.size := by decide +kernel
  refine ⟨⟨hinvalid, (hunrendered _ hinvalid).1⟩, render_sample_eq_ok, ?_, ?_, ?_, ?_⟩
  · obtain ⟨-, hrendered⟩ := generate_all_or_nothing sample Store.sample "out/lib.h" .home
    rcases hrendered _ render_sample_eq_ok with ⟨t', h, -, hread, -⟩ | ⟨abort, t', h, -⟩
    · exact ⟨t', h, hread⟩
    · rw [generateKeeping_of_render_ok render_sample_eq_ok,
        FileTree.replaceFileKeeping_missing_directory] at h
      cases h
  · obtain ⟨-, hrendered⟩ := generate_all_or_nothing sample Store.sample "a/../a" .home
    rcases hrendered _ render_sample_eq_ok with ⟨t', h, -⟩ | ⟨abort, t', h, hkept, -⟩
    · rw [generateKeeping_of_render_ok render_sample_eq_ok,
        FileTree.replaceFileKeeping_own_ancestor] at h
      cases h
    · exact ⟨abort, t', h, hkept⟩
  · obtain ⟨_, hwrite⟩ := FileTree.replaceFileKeeping_without_space "old".toUTF8 _ [] hsize
    exact hstays _ _ _ hwrite (FileTree.get?_written _ _ _)
  · obtain ⟨_, hwrite⟩ := FileTree.replaceFileKeeping_over_fixed "old".toUTF8
      sampleAmalgamation.document
    exact hstays _ _ _ hwrite (FileTree.get?_written _ _ _)

/-- A generation that fails to write can leave a directory at the output, where nothing
was before. -/
theorem directory_at_output_of_failed_generation :
    sample.render Store.sample = .ok sampleAmalgamation ∧
    FileTree.home.pathExists "a/../a" = false ∧
    FileTree.home.get? (FileTree.home.placeOf "a/../a") = none ∧
    ∃ abort t', sample.generateKeeping Store.sample "a/../a" .home = .error abort t' ∧
      t'.pathExists "a/../a" = true ∧
      t'.get? (FileTree.home.placeOf "a/../a") = some .directory := by
  have hwrite := FileTree.replaceFileKeeping_own_ancestor sampleAmalgamation.document
  refine ⟨render_sample_eq_ok, by decide +kernel, by with_unfolding_all rfl, _, _,
    generateKeeping_eq_error_iff.2 (Or.inr ⟨_, render_sample_eq_ok, hwrite⟩), ?_, ?_⟩
  · with_unfolding_all rfl
  · with_unfolding_all rfl

end Manifest
end Amalgam
