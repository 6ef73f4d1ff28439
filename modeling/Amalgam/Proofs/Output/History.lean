import Amalgam.Plan.Basic
import Amalgam.Proofs.Command.Effect
import Amalgam.Proofs.Output.Checking
import Amalgam.Proofs.Rendering.Dependence

namespace Amalgam

/-!
# An output over time

Generations, checks and plans follow each other on one output, each with a manifest and
a store of its own and an answer, and others change the tree in between.  The output always
holds the document of the last generation that succeeded; before the first one it is as it
was at the start.

What carries this is `FileTree.Preserves`: a generation that fails, and whoever spares the
output, preserves it.  The one thing that can happen to an output without
a generation is that it becomes a directory, where nothing was, because its own path
leads through it.
-/

namespace FileTree

/-! ## Changes that preserve an output -/

/-- A change after which an output is as it was, unless nothing was there and one of the
directories on the way has been made in its place. -/
structure Preserves (output : String) (t t' : FileTree) : Prop where
  here : t'.here = t.here
  entry : t'.get? (t.placeOf output) = t.get? (t.placeOf output) ∨
    t.get? (t.placeOf output) = none ∧ t'.get? (t.placeOf output) = some .directory ∧
      t.placeOf output ∈ t.ancestors output
  read : ∀ content, t.read output = .ok content → t'.read output = .ok content

/-- A change that leaves an output alone, and removes no directory on the way to it. -/
structure Spares (output : String) (t t' : FileTree) : Prop where
  here : t'.here = t.here
  same : t'.get? (t.placeOf output) = t.get? (t.placeOf output)
  kept : ∀ place ∈ t.waypoints output, t.get? place = some .directory →
    t'.get? place = some .directory

section Preserving

variable {output : String} {t t' t'' : FileTree}

theorem ancestors_congr (h : t'.here = t.here) (path : String) :
    t'.ancestors path = t.ancestors path := by
  unfold ancestors
  exact List.map_congr_left fun parent _ => placeOf_congr h parent

theorem Preserves.refl (t : FileTree) : Preserves output t t where
  here := rfl
  entry := Or.inl rfl
  read _ := id

theorem Preserves.trans (h : Preserves output t t') (h' : Preserves output t' t'') :
    Preserves output t t'' where
  here := h'.here.trans h.here
  entry := by
    have hentry := h'.entry
    rw [placeOf_congr h.here, ancestors_congr h.here] at hentry
    rcases hentry with hsame | ⟨hnone, hmade, hown⟩
    · rw [hsame]
      exact h.entry
    · -- What is empty after the first change was empty before.
      rcases h.entry with hsame | ⟨-, hdirectory, -⟩
      · exact Or.inr ⟨hsame ▸ hnone, hmade, hown⟩
      · rw [hdirectory] at hnone
        cases hnone
  read content hread := h'.read content (h.read content hread)

theorem Frame.preserves (h : Frame (t.ancestors output) none t t') :
    Preserves output t t' where
  here := h.here
  entry := by
    cases hbefore : t.get? (t.placeOf output) with
    | some entry => exact Or.inl (h.kept _ entry (by simp) hbefore)
    | none =>
        cases hafter : t'.get? (t.placeOf output) with
        | none => exact Or.inl rfl
        | some entry =>
            obtain ⟨rfl, hown⟩ := h.added _ entry (by simp) hbefore hafter
            exact Or.inr ⟨rfl, rfl, hown⟩
  read content hread := h.read_eq_ok (by simp) hread (by simp)

theorem Spares.preserves (h : Spares output t t') : Preserves output t t' where
  here := h.here
  entry := Or.inl h.same
  read content hread := by
    obtain ⟨place, hplace, hfile, hmeans⟩ := read_eq_ok_iff.1 hread
    refine read_eq_ok_iff.2 ⟨place, resolve_of_waypoints h.here h.kept hplace, ?_, hmeans⟩
    rw [eq_placeOf_of_resolve hplace] at hfile ⊢
    rw [h.same, hfile]

end Preserving

end FileTree

/-! ## Sessions -/

/-- Someone who changes the tree and always spares an output. -/
structure Bystander (output : String) where
  change : FileTree → FileTree
  spares : ∀ t, FileTree.Spares output t (change t)

/-- What can happen while an output is in use. -/
inductive Turn (output : String) where
  | generate (m : Manifest) (store : Store)
  | check (m : Manifest) (store : Store)
  | plan (m : Manifest) (store : Store)
  | others (bystander : Bystander output)

/-- A generation that has succeeded, with the trees before and after. -/
structure Generation where
  manifest : Manifest
  store : Store
  before : FileTree
  after : FileTree
  amalgamation : Amalgamation

/-- The files that a generation has read. -/
def Generation.inputs (g : Generation) : List String :=
  g.manifest.sources ++ g.amalgamation.registry.headers

/-- What a turn is answered. -/
inductive Answer where
  | generated (result : Except Failure Amalgamation)
  | checked (result : Except Failure Freshness)
  | planned (result : Except Failure Plan)

/-- A tree, the last generation that has succeeded on it, and the answers so far. -/
structure Session where
  tree : FileTree
  latest : Option Generation
  answers : List Answer

namespace Session

variable {output : String}

def step (s : Session) : Turn output → Session
  | .generate m store =>
      match m.generate store output s.tree with
      | .ok a t => ⟨t, some ⟨m, store, s.tree, t, a⟩, s.answers ++ [.generated (.ok a)]⟩
      | .error failure t => ⟨t, s.latest, s.answers ++ [.generated (.error failure)]⟩
  | .check m store =>
      { s with answers := s.answers ++ [.checked (m.check store output s.tree)] }
  | .plan m store => { s with answers := s.answers ++ [.planned (m.plan store)] }
  | .others bystander => { s with tree := bystander.change s.tree }

/-- The session after some turns. -/
def run (start : FileTree) (turns : List (Turn output)) : Session :=
  turns.foldl step ⟨start, none, []⟩

theorem run_singleton (start : FileTree) (turn : Turn output) :
    run start [turn] = step ⟨start, none, []⟩ turn := rfl

theorem run_append (start : FileTree) (turns more : List (Turn output)) :
    run start (turns ++ more) = more.foldl step (run start turns) :=
  List.foldl_append

/-- What is true all along: since the last generation that succeeded, or else since the
start, the output has been preserved. -/
structure IsSound (output : String) (start : FileTree) (s : Session) : Prop where
  initial : s.latest = none → start.Preserves output s.tree
  latest : ∀ g, s.latest = some g →
    g.manifest.generate g.store output g.before = .ok g.amalgamation g.after ∧
      g.after.Preserves output s.tree

section Soundness

variable {start t : FileTree} {s : Session} {m : Manifest} {store : Store}

theorem step_of_generate_ok {a : Amalgamation}
    (h : m.generate store output s.tree = .ok a t) :
    s.step (.generate m store : Turn output) =
      ⟨t, some ⟨m, store, s.tree, t, a⟩, s.answers ++ [.generated (.ok a)]⟩ := by
  simp only [step, h]

theorem step_of_generate_error {failure : Failure}
    (h : m.generate store output s.tree = .error failure t) :
    s.step (.generate m store : Turn output) =
      ⟨t, s.latest, s.answers ++ [.generated (.error failure)]⟩ := by
  simp only [step, h]

theorem isSound_start (start : FileTree) : IsSound output start ⟨start, none, []⟩ where
  initial _ := FileTree.Preserves.refl start
  latest _ h := by cases h

/-- What is answered does not matter. -/
theorem IsSound.preserve (h : IsSound output start s) (ht : s.tree.Preserves output t)
    (answers : List Answer) : IsSound output start ⟨t, s.latest, answers⟩ where
  initial hnone := (h.initial hnone).trans ht
  latest g hg := ⟨(h.latest g hg).1, (h.latest g hg).2.trans ht⟩

theorem IsSound.step (h : IsSound output start s) (turn : Turn output) :
    IsSound output start (s.step turn) := by
  have hsame : s.tree.Preserves output s.tree := FileTree.Preserves.refl s.tree
  cases turn with
  | generate m store =>
      cases hgenerate : m.generate store output s.tree with
      | ok a t =>
          rw [step_of_generate_ok hgenerate]
          refine ⟨nofun, fun g hg => ?_⟩
          cases hg
          exact ⟨hgenerate, FileTree.Preserves.refl t⟩
      | error failure t =>
          rw [step_of_generate_error hgenerate]
          exact h.preserve (Manifest.frame_of_generate_eq_error hgenerate).preserves _
  | check m store => exact h.preserve hsame _
  | plan m store => exact h.preserve hsame _
  | others bystander => exact h.preserve (bystander.spares s.tree).preserves _

theorem isSound_run (start : FileTree) (turns : List (Turn output)) :
    IsSound output start (run start turns) := by
  have hfrom : ∀ s, IsSound output start s →
      IsSound output start (turns.foldl Session.step s) := by
    induction turns with
    | nil => exact fun s h => h
    | cons turn turns ih => exact fun s h => ih (s.step turn) (h.step turn)
  exact hfrom _ (isSound_start start)

end Soundness

/-! ## Answers -/

theorem answers_prefix_step (s : Session) (turn : Turn output) :
    s.answers <+: (s.step turn).answers := by
  cases turn with
  | generate m store =>
      rw [step]
      split
      · exact List.prefix_append _ _
      · exact List.prefix_append _ _
  | check m store => exact List.prefix_append _ _
  | plan m store => exact List.prefix_append _ _
  | others bystander => exact List.prefix_rfl

/-- What has been answered stays answered. -/
theorem answers_prefix_foldl (s : Session) (turns : List (Turn output)) :
    s.answers <+: (turns.foldl step s).answers := by
  induction turns generalizing s with
  | nil => exact List.prefix_rfl
  | cons turn turns ih => exact (s.answers_prefix_step turn).trans (ih (s.step turn))

/-- The answer to a turn is the next one, whatever follows. -/
theorem answers_step_prefix_run (start : FileTree) (turns : List (Turn output))
    (turn : Turn output) (more : List (Turn output)) :
    ((run start turns).step turn).answers <+: (run start (turns ++ turn :: more)).answers := by
  rw [run_append]
  exact answers_prefix_foldl _ more

end Session

/-! ## Checks after a generation -/

section Inputs

variable {output root : String} {g : Generation}

/-- Writing the output changes no input, unless the output is one. -/
theorem Generation.storeAt_after
    (hgenerate : g.manifest.generate (g.before.storeAt root) output g.before =
      .ok g.amalgamation g.after) {name : String} (hname : name ∈ g.inputs)
    (hne : g.before.placeOf (Path.join root name) ≠ g.before.placeOf output) :
    g.after.storeAt root name = g.before.storeAt root name := by
  obtain ⟨hrender, hwrite⟩ := Manifest.generate_eq_ok_iff.1 hgenerate
  obtain ⟨-, -, hreadable, -⟩ := Manifest.render_eq_ok_iff.1 hrender
  obtain ⟨text, htext⟩ := hreadable name (List.mem_append.2 (List.mem_append.1 hname).symm)
  obtain ⟨content, hread⟩ := FileTree.exists_read_of_storeAt htext
  obtain ⟨hframe, -, hdirectory⟩ := FileTree.replaceFileKeeping_eq_ok hwrite
  apply FileTree.storeAt_congr
  rw [hread]
  refine hframe.read_eq_ok ?_ hread ?_
  · rintro place ⟨⟩
    exact hdirectory
  · simpa using hne.symm

/-- While the output holds the document and the inputs are the same, it is up to date. -/
theorem Generation.check_eq_upToDate
    (hrender : g.manifest.render g.store = .ok g.amalgamation) {t : FileTree}
    (hread : t.read output = .ok g.amalgamation.document) {store : Store}
    (hinputs : ∀ name ∈ g.inputs, store name = g.store name) :
    g.manifest.check store output t = .ok .upToDate := by
  have hagain : g.manifest.render store = .ok g.amalgamation := by
    rw [← hrender]
    refine Manifest.render_congr (fun source hsource => ?_) ?_
    · exact hinputs source (List.mem_append_left _ hsource)
    · intro registry hdiscover header hheader
      obtain ⟨-, hregistry, -⟩ := Manifest.render_eq_ok_iff.1 hrender
      rw [hdiscover, Except.ok.injEq] at hregistry
      rw [hregistry] at hheader
      exact hinputs header (List.mem_append_right _ hheader)
  rw [Manifest.check_of_read hagain hread]
  exact if_pos rfl

end Inputs

namespace Session

/-- An output over time, whatever is generated, checked and planned there in whichever
order, and whether it succeeds or not.  Before any generation has succeeded, the output
is as it was at the start; later on it holds the document of the last generation that
has.  Then a check finds it up to date while the inputs are the same, and this includes
the files of a directory when the output is none of them.  What a check finds otherwise
is decided by whether the output exists and by its digest.  Checks and plans change
nothing, and what they find is the next answer of the session, whatever follows. -/
theorem output_over_time {output : String} (start : FileTree) (turns : List (Turn output)) :
    let s := run start turns
    (s.latest = none → start.Preserves output s.tree) ∧
    (∀ g, s.latest = some g →
      g.manifest.generate g.store output g.before = .ok g.amalgamation g.after ∧
      g.manifest.render g.store = .ok g.amalgamation ∧
      s.tree.read output = .ok g.amalgamation.document ∧
      (∀ store : Store, (∀ name ∈ g.inputs, store name = g.store name) →
        g.manifest.check store output s.tree = .ok .upToDate) ∧
      ∀ root, g.store = g.before.storeAt root →
        (∀ name ∈ g.inputs,
          g.before.placeOf (Path.join root name) ≠ g.before.placeOf output) →
        (∀ name ∈ g.inputs, s.tree.storeAt root name = g.after.storeAt root name) →
        g.manifest.check (s.tree.storeAt root) output s.tree = .ok .upToDate) ∧
    (∀ m store a, Manifest.render m store = .ok a →
      (m.check store output s.tree = .ok .missing ↔ s.tree.pathExists output = false) ∧
      ∀ content, s.tree.read output = .ok content →
        (m.check store output s.tree = .ok .upToDate ↔
          Sha256.digest content = Sha256.digest a.document) ∧
        (Sha256.digest content ≠ Sha256.digest a.document →
          m.check store output s.tree =
            .ok (.stale (Sha256.digest a.document) (Sha256.digest content)))) ∧
    (∀ m store, (s.step (.check m store : Turn output)).tree = s.tree ∧
      (s.step (.plan m store : Turn output)).tree = s.tree) ∧
    (∀ m store (more : List (Turn output)),
      s.answers ++ [.checked (m.check store output s.tree)] <+:
        (run start (turns ++ .check m store :: more)).answers ∧
      s.answers ++ [.planned (m.plan store)] <+:
        (run start (turns ++ .plan m store :: more)).answers) ∧
    ∀ task options, task ≠ .generate →
      (Command.execute task options s.tree).1 = s.tree := by
  intro s
  have hsound := isSound_run start turns
  refine ⟨hsound.initial, fun g hg => ?_, fun m store a hrender => ?_,
    fun m store => ⟨rfl, rfl⟩, fun m store more => ⟨?_, ?_⟩, fun task options htask => Command.execute_tree htask options _⟩
  · obtain ⟨hgenerate, hpreserves⟩ := hsound.latest g hg
    obtain ⟨hrender, hwrite⟩ := Manifest.generate_eq_ok_iff.1 hgenerate
    obtain ⟨-, hwritten, -⟩ := FileTree.replaceFileKeeping_eq_ok hwrite
    have hread := hpreserves.read _ hwritten
    refine ⟨hgenerate, hrender, hread, fun store => Generation.check_eq_upToDate hrender hread, ?_⟩
    intro root hstore hapart hunchanged
    refine Generation.check_eq_upToDate hrender hread fun name hname => ?_
    rw [hstore] at hgenerate ⊢
    rw [hunchanged name hname]
    exact Generation.storeAt_after hgenerate hname (hapart name hname)
  · refine ⟨Manifest.check_eq_missing_iff hrender, fun content hread => ?_⟩
    rw [Manifest.check_of_read hrender hread, Amalgamation.digest]
    by_cases hdigest : Sha256.digest content = Sha256.digest a.document
    · rw [if_pos hdigest.symm]
      exact ⟨iff_of_true rfl hdigest, fun hne => absurd hdigest hne⟩
    · rw [if_neg (Ne.symm hdigest)]
      exact ⟨iff_of_false (by simp) hdigest, fun _ => rfl⟩
  · exact answers_step_prefix_run start turns (.check m store) more
  · exact answers_step_prefix_run start turns (.plan m store) more

end Session

/-- A working directory with the files of the sample in a directory of their own. -/
def FileTree.project : FileTree :=
  ["cfg.h", "near.h", "tail.h", "b.c", "a.c"].foldl
    (fun t name => t.put ["home", "src", name] (.file (Store.sample.textOf name).toUTF8))
    (home.put ["home", "src"] .directory)

theorem FileTree.storeAt_project :
    ∀ name ∈ ["cfg.h", "near.h", "tail.h", "b.c", "a.c"],
      project.storeAt "src" name = Store.sample name := by
  decide +kernel

theorem FileTree.replaceFileKeeping_project (content : ByteArray) :
    ∃ t', replaceFileKeeping "out/lib.h" content project = .ok () t' :=
  ⟨_, by with_unfolding_all rfl⟩

/-- Someone who mounts something on the output of the sample. -/
def Bystander.mounting : Bystander "out/lib.h" where
  change t := { t with fixed := [["home", "out", "lib.h"]] }
  spares _ := ⟨rfl, rfl, fun _ _ => id⟩

theorem Session.step_mounting (latest : Option Generation) (answers : List Answer)
    (content : ByteArray) :
    step ⟨.written content none [], latest, answers⟩ (.others .mounting) =
      ⟨.written content none [["home", "out", "lib.h"]], latest, answers⟩ :=
  congrArg (Session.mk · latest answers) (FileTree.fixed_written content none [] _)

/-- Once something is mounted on an output, no generation succeeds. -/
theorem Session.run_mounting {m m' : Manifest} {store store' : Store} {a a' : Amalgamation}
    (h : m.render store = .ok a) (h' : m'.render store' = .ok a') :
    ∃ t, run .home [.generate m store, .others .mounting, .generate m' store'] =
      ⟨t, some ⟨m, store, .home, .written a.document none [], a⟩,
        [.generated (.ok a), .generated (.error (.notReplaced "out/lib.h"))]⟩ := by
  have hfirst : m.generate store "out/lib.h" .home = .ok a (.written a.document none []) :=
    Manifest.generate_eq_ok_iff.2
      ⟨h, FileTree.replaceFileKeeping_missing_directory a.document⟩
  obtain ⟨t, hrefused⟩ := FileTree.replaceFileKeeping_over_fixed a.document a'.document
  have hsecond := Manifest.generate_of_leftover h' hrefused
  rw [run, List.foldl_cons, List.foldl_cons, List.foldl_cons, List.foldl_nil,
    step_of_generate_ok (s := ⟨.home, none, []⟩) hfirst, step_mounting,
    step_of_generate_error hsecond]
  exact ⟨_, rfl⟩

theorem Manifest.render_project_eq_ok :
    sample.render (FileTree.project.storeAt "src") = .ok sampleAmalgamation := by
  rw [← render_sample_eq_ok]
  refine render_congr (fun source hsource => ?_) ?_
  · exact FileTree.storeAt_project source (by revert source; decide)
  · intro registry hdiscover header hheader
    rw [discover_sample_eq_ok, Except.ok.injEq] at hdiscover
    rw [← hdiscover] at hheader
    exact FileTree.storeAt_project header (by revert header; decide)

/-- The sample can be rendered without its prologue as well. -/
theorem Manifest.render_without_prologue_eq_ok :
    ∃ a, { sample with prologue := "" }.render Store.sample = .ok a :=
  ⟨_, Valid.render_eq_ok (validate_eq_ok_iff_valid.1 rfl) discover_sample_eq_ok readable_sample⟩

namespace Session

open Manifest in
/-- A check before there is an output; a generation; and a generation, another one that
fails because the output cannot be replaced any more, a plan and a check. -/
theorem output_over_time_sample :
    let store := FileTree.project.storeAt "src"
    (∃ s, run FileTree.project [(.check sample store : Turn "out/lib.h")] = s ∧
      s.latest = none ∧ FileTree.project.Preserves "out/lib.h" s.tree ∧
      sample.render store = .ok sampleAmalgamation ∧
      sample.check store "out/lib.h" s.tree = .ok .missing) ∧
    (∃ s g, run FileTree.project [(.generate sample store : Turn "out/lib.h")] = s ∧
      s.latest = some g ∧ s.tree.read "out/lib.h" = .ok sampleAmalgamation.document ∧
      (∀ name ∈ g.inputs, Store.sample name = g.store name) ∧
      sample.check Store.sample "out/lib.h" s.tree = .ok .upToDate ∧
      (∀ name ∈ g.inputs,
        g.before.placeOf (Path.join "src" name) ≠ g.before.placeOf "out/lib.h") ∧
      sample.check (s.tree.storeAt "src") "out/lib.h" s.tree = .ok .upToDate) ∧
    ∃ s, run FileTree.home
        [(.generate sample Store.sample : Turn "out/lib.h"), .others .mounting,
          .generate { sample with prologue := "" } Store.sample,
          .plan sample Store.sample, .check sample Store.sample] = s ∧
      s.tree.read "out/lib.h" = .ok sampleAmalgamation.document ∧
      s.answers =
        [.generated (.ok sampleAmalgamation), .generated (.error (.notReplaced "out/lib.h")),
         .planned (sample.plan Store.sample), .checked (.ok .upToDate)] := by
  intro store
  refine ⟨?_, ?_, ?_⟩
  · obtain ⟨hinitial, -, hcheck, -⟩ := output_over_time FileTree.project
      [(.check sample store : Turn "out/lib.h")]
    have hmissing : FileTree.project.pathExists "out/lib.h" = false := by decide +kernel
    exact ⟨_, rfl, rfl, hinitial rfl, render_project_eq_ok,
      (hcheck _ _ _ render_project_eq_ok).1.2 hmissing⟩
  · obtain ⟨t', hwrite⟩ := FileTree.replaceFileKeeping_project sampleAmalgamation.document
    have hrun := (run_singleton FileTree.project
      (.generate sample store : Turn "out/lib.h")).trans
        (step_of_generate_ok (s := ⟨FileTree.project, none, []⟩)
          (generate_eq_ok_iff.2 ⟨render_project_eq_ok, hwrite⟩))
    obtain ⟨-, hlatest, -⟩ := output_over_time FileTree.project
      [(.generate sample store : Turn "out/lib.h")]
    rw [hrun] at hlatest
    obtain ⟨-, -, hread, hstores, hfiles⟩ := hlatest _ rfl
    have hsame : ∀ name ∈ sample.sources ++ sampleAmalgamation.registry.headers,
        Store.sample name = store name :=
      fun name hname => (FileTree.storeAt_project name (by revert name; decide)).symm
    have hapart : ∀ name ∈ sample.sources ++ sampleAmalgamation.registry.headers,
        FileTree.project.placeOf (Path.join "src" name) ≠
          FileTree.project.placeOf "out/lib.h" := by
      decide +kernel
    exact ⟨_, _, hrun, rfl, hread, hsame, hstores Store.sample hsame, hapart,
      hfiles "src" rfl hapart fun name _ => rfl⟩
  · obtain ⟨plain, hplain⟩ := render_without_prologue_eq_ok
    obtain ⟨t, hrun⟩ := run_mounting render_sample_eq_ok hplain
    obtain ⟨-, hlatest, -⟩ := output_over_time FileTree.home
      [(.generate sample Store.sample : Turn "out/lib.h"), .others .mounting,
        .generate { sample with prologue := "" } Store.sample]
    rw [hrun] at hlatest
    obtain ⟨-, -, hread, hstores, -⟩ := hlatest _ rfl
    have hcheck := hstores Store.sample fun name _ => rfl
    have hrest := run_append .home
      [(.generate sample Store.sample : Turn "out/lib.h"), .others .mounting,
        .generate { sample with prologue := "" } Store.sample]
      [.plan sample Store.sample, .check sample Store.sample]
    rw [hrun, List.foldl_cons, List.foldl_cons, List.foldl_nil] at hrest
    refine ⟨_, hrest, hread, ?_⟩
    rw [← hcheck]
    rfl

/-- An output can come to exist although no generation has succeeded. -/
theorem output_changed_without_generation :
    ∃ s, run FileTree.home
        [(.generate Manifest.sample Store.sample : Turn "a/../a")] = s ∧
      s.latest = none ∧
      FileTree.home.get? (FileTree.home.placeOf "a/../a") = none ∧
      s.tree.get? (FileTree.home.placeOf "a/../a") = some .directory ∧
      Manifest.sample.check Store.sample "a/../a" FileTree.home = .ok .missing ∧
      Manifest.sample.check Store.sample "a/../a" s.tree =
        .error (.digestNotRead "a/../a" .isDirectory) := by
  have hgenerate := Manifest.generate_of_leftover Manifest.render_sample_eq_ok
    (FileTree.replaceFileKeeping_own_ancestor Manifest.sampleAmalgamation.document)
  have hrun := (run_singleton FileTree.home
    (.generate Manifest.sample Store.sample : Turn "a/../a")).trans
      (step_of_generate_error (s := ⟨FileTree.home, none, []⟩) hgenerate)
  have hmissing : FileTree.home.pathExists "a/../a" = false := by decide +kernel
  refine ⟨_, hrun, rfl, by with_unfolding_all rfl, by with_unfolding_all rfl,
    (Manifest.check_eq_missing_iff Manifest.render_sample_eq_ok).2 hmissing, ?_⟩
  exact Manifest.check_of_directory Manifest.render_sample_eq_ok (by with_unfolding_all rfl)

end Session
end Amalgam
