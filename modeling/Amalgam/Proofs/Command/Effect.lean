import Amalgam.Command.Run
import Amalgam.Proofs.Output.Atomicity
import Amalgam.Proofs.Rendering.Dependence

namespace Amalgam
namespace Command

/-!
# What a command does to the tree

Only a generation changes the tree.  If it fails, no file has been added or changed,
with one exception: the program ends at once, so a temporary file that could not take
the place of the output is not discarded any more and stays in the directory.
-/

section Running

variable {arguments : List String} {task : Task} {options : Options} {s : Settings}
  {t : FileTree}

/-- A check and a plan leave the tree as it is. -/
theorem execute_tree (h : task ≠ .generate) (options : Options) (t : FileTree) :
    (execute task options t).1 = t := by
  unfold execute
  cases settings t options with
  | error failure => rfl
  | ok s =>
      cases task with
      | generate => exact absurd rfl h
      | check => rfl
      | plan json => rfl

/-- Without settings there is nothing to generate. -/
theorem run_tree_of_not_generate
    (h : ∀ options s, read arguments = .ok (.task .generate options) →
      settings t options ≠ .ok s) : (run arguments t).1 = t := by
  unfold run
  cases hread : read arguments with
  | error stop => cases stop <;> rfl
  | ok invocation =>
      cases invocation with
      | completions shell => rfl
      | task task options =>
          by_cases htask : task = .generate
          · subst htask
            show (execute .generate options t).1 = t
            unfold execute
            cases hsettings : settings t options with
            | error failure => rfl
            | ok s => exact absurd hsettings (h options s hread)
          · exact execute_tree htask options t

theorem exit_outcome_eq_one_iff {r : Report} {verbose : Bool} :
    (r.outcome verbose).exit = 1 ↔ r.failure.isSome := by
  unfold Report.outcome
  cases r.failure with
  | none => simp
  | some message => simp

/-- A generation fails as a command when it fails as a change of the tree, and leaves
behind what that has left. -/
theorem run_generate (hread : read arguments = .ok (.task .generate options))
    (hsettings : settings t options = .ok s) :
    (run arguments t).1 =
        endState (s.manifest.generateKeeping (t.storeAt s.sourceDir) s.output t) ∧
      ((run arguments t).2.exit = 1 ↔
        ∃ abort t', s.manifest.generateKeeping (t.storeAt s.sourceDir) s.output t =
          .error abort t') := by
  have hrun : run arguments t = execute .generate options t := by
    unfold run
    rw [hread]
  rw [hrun]
  unfold execute
  simp only [hsettings, perform, generate]
  cases s.manifest.generateKeeping (t.storeAt s.sourceDir) s.output t with
  | ok a t' => simp [endState, exit_outcome_eq_one_iff]
  | error abort t' => simp [endState, exit_outcome_eq_one_iff, Report.failed]

/-- The files after a run that has failed.  All that was there still is, and at most one
file has been added.  It is there exactly if the temporary file of a generation could
not take the place of the output; then it is that file, under a new name next to the
output, and holds the whole document. -/
theorem files_of_failed_run (h : (run arguments t).2.exit = 1) :
    (∀ place entry, t.get? place = some entry →
      (run arguments t).1.get? place = some entry) ∧
    ∃ leftover : Option Place,
      (∀ place content, leftover ≠ some place →
        ((run arguments t).1.get? place = some (.file content) ↔
          t.get? place = some (.file content))) ∧
      (∀ place, leftover = some place → ∃ options s a,
        read arguments = .ok (.task .generate options) ∧ settings t options = .ok s ∧
          s.manifest.render (t.storeAt s.sourceDir) = .ok a ∧
          t.IsLeftover (run arguments t).1 s.output a.document place) ∧
      ∀ options s abort t', read arguments = .ok (.task .generate options) →
        settings t options = .ok s →
        s.manifest.generateKeeping (t.storeAt s.sourceDir) s.output t = .error abort t' →
        (leftover.isSome ↔ abort.failure = .notReplaced s.output) := by
  by_cases hgenerate : ∃ options s, read arguments = .ok (.task .generate options) ∧
      settings t options = .ok s
  · obtain ⟨options, s, hread, hsettings⟩ := hgenerate
    obtain ⟨htree, hexit⟩ := run_generate hread hsettings
    obtain ⟨abort, t', hkeeping⟩ := hexit.1 h
    obtain ⟨hframe, hleftover, hmoved⟩ := Manifest.generateKeeping_eq_error hkeeping
    rw [hkeeping, endState] at htree
    rw [htree]
    refine ⟨fun place entry => Manifest.kept_of_generateKeeping_eq_error hkeeping,
      abort.leftover, fun place content hne => hframe.get?_eq_file_iff hne,
      fun place hplace => ?_, ?_⟩
    · obtain ⟨a, hrender, hplace⟩ := hleftover place hplace
      exact ⟨options, s, a, hread, hsettings, hrender, hplace⟩
    · intro options' s' abort' t'' hread' hsettings' hkeeping'
      rw [hread] at hread'
      cases hread'
      rw [hsettings] at hsettings'
      cases hsettings'
      rw [hkeeping] at hkeeping'
      cases hkeeping'
      exact hmoved
  · have htree : (run arguments t).1 = t := by
      refine run_tree_of_not_generate fun options s hread hsettings => ?_
      exact hgenerate ⟨options, s, hread, hsettings⟩
    rw [htree]
    refine ⟨fun _ _ => id, none, fun _ _ _ => Iff.rfl, ?_, ?_⟩
    · intro place hplace
      cases hplace
    · intro options s abort t' hread hsettings
      exact absurd ⟨options, s, hread, hsettings⟩ hgenerate

end Running

end Command

/-- A project of two empty files, with nothing but its file names configured. -/
def FileTree.twoFiles : FileTree :=
  (((home.put ["home", "lua"] .directory).put ["home", "lua", "a.c"]
    (.file ByteArray.empty)).put ["home", "lua", "x.h"] (.file ByteArray.empty)).put
      ["home", "Amalgam.toml"] (.file
        "[amalgam]\nsources=[\"a.c\"]\nheaders=[\"x.h\"]\nconfig_header=\"x.h\"\n".toUTF8)

namespace Command

def twoFilesConfig : Config where
  sources := some ["a.c"]
  headers := some ["x.h"]
  configHeader := some "x.h"

/-- The settings of that project, for an output that leads through its own place. -/
def twoFiles : Settings :=
  .resolve { output := some "a/../a" } twoFilesConfig

theorem read_twoFiles :
    read ["-o", "a/../a"] = .ok (.task .generate { output := some "a/../a" }) := by
  decide +kernel

theorem settings_twoFiles :
    settings FileTree.twoFiles { output := some "a/../a" } = .ok twoFiles := by
  have hload : Config.load FileTree.twoFiles none FileTree.twoFiles.workingDirectory =
      .ok twoFilesConfig := by decide +kernel
  unfold settings
  rw [hload]
  rfl

theorem render_twoFiles :
    ∃ a, twoFiles.manifest.render (FileTree.twoFiles.storeAt twoFiles.sourceDir) = .ok a := by
  have hstore : ∀ name ∈ ["a.c", "x.h"], FileTree.twoFiles.storeAt "lua" name =
      Store.ofList [("a.c", ""), ("x.h", "")] name := by
    decide +kernel
  have hvalid : twoFiles.manifest.Valid := Manifest.validate_eq_ok_iff_valid.1 rfl
  have hdiscover : twoFiles.manifest.discover (Store.ofList [("a.c", ""), ("x.h", "")]) =
      .ok ⟨["x.h"], twoFiles.manifest.excluded⟩ := rfl
  have hrender := hvalid.render_eq_ok hdiscover (by decide)
  refine ⟨_, (Manifest.render_congr ?_ ?_).trans hrender⟩
  · exact fun source hsource => hstore source (by revert source; decide)
  · intro registry hregistry header hheader
    rw [hdiscover, Except.ok.injEq] at hregistry
    rw [← hregistry] at hheader
    exact hstore header (by revert header; decide)

/-- The temporary file of that project gets its first name. -/
theorem replaceFileKeeping_twoFiles (content : ByteArray) :
    FileTree.replaceFileKeeping twoFiles.output content FileTree.twoFiles =
      .error ⟨.notReplaced twoFiles.output, some ["home", ".tmp000000"]⟩
        (((FileTree.twoFiles.put ["home", "a"] .directory).put ["home", ".tmp000000"]
          (.file ByteArray.empty)).put ["home", ".tmp000000"] (.file content)) := by
  with_unfolding_all rfl

theorem generateKeeping_twoFiles :
    ∃ content, twoFiles.manifest.generateKeeping
        (FileTree.twoFiles.storeAt twoFiles.sourceDir) twoFiles.output FileTree.twoFiles =
      .error ⟨.notReplaced twoFiles.output, some ["home", ".tmp000000"]⟩
        (((FileTree.twoFiles.put ["home", "a"] .directory).put ["home", ".tmp000000"]
          (.file ByteArray.empty)).put ["home", ".tmp000000"] (.file content)) := by
  obtain ⟨a, hrender⟩ := render_twoFiles
  exact ⟨a.document, Manifest.generateKeeping_eq_error_iff.2
    (Or.inr ⟨a, hrender, replaceFileKeeping_twoFiles a.document⟩)⟩

theorem files_of_failed_run_twoFiles :
    (run ["-o", "a/../a"] FileTree.twoFiles).2.exit = 1 ∧
    (∀ place entry, FileTree.twoFiles.get? place = some entry →
      (run ["-o", "a/../a"] FileTree.twoFiles).1.get? place = some entry) ∧
    ∃ a place, FileTree.twoFiles.IsLeftover (run ["-o", "a/../a"] FileTree.twoFiles).1
      "a/../a" (Amalgamation.document a) place := by
  obtain ⟨content, hkeeping⟩ := generateKeeping_twoFiles
  have hexit := (run_generate read_twoFiles settings_twoFiles).2.2 ⟨_, _, hkeeping⟩
  obtain ⟨hkept, leftover, -, hleftover, hmoved⟩ := files_of_failed_run hexit
  have hsome := (hmoved _ _ _ _ read_twoFiles settings_twoFiles hkeeping).2 rfl
  obtain ⟨place, hplace⟩ := Option.isSome_iff_exists.1 hsome
  obtain ⟨options, s, a, hread, hsettings, -, hfile⟩ := hleftover place hplace
  rw [read_twoFiles] at hread
  cases hread
  rw [settings_twoFiles] at hsettings
  cases hsettings
  exact ⟨hexit, hkept, a, place, hfile⟩

/-- A run that fails can leave a file where there was none. -/
theorem file_added_by_failed_run :
    (run ["-o", "a/../a"] FileTree.twoFiles).2.exit = 1 ∧
    FileTree.twoFiles.get? ["home", ".tmp000000"] = none ∧
    ∃ content, (run ["-o", "a/../a"] FileTree.twoFiles).1.get? ["home", ".tmp000000"] =
      some (.file content) := by
  obtain ⟨content, hkeeping⟩ := generateKeeping_twoFiles
  obtain ⟨htree, hexit⟩ := run_generate read_twoFiles settings_twoFiles
  refine ⟨hexit.2 ⟨_, _, hkeeping⟩, rfl, content, ?_⟩
  rw [htree, hkeeping, endState]
  exact FileTree.get?_put_self _ (by decide) _

end Command
end Amalgam
