import Amalgam.Proofs.Command.Effect
import Amalgam.Proofs.Document.Lines
import Amalgam.Proofs.Plan.Reading
import Amalgam.Proofs.Rendering.Outcome

namespace Amalgam

/-!
# What a printed plan tells

A plan is made for a valid manifest, so its configuration header is one of its headers and
none of them occurs twice.  This is what makes the mark in the printed text unique, and with
it the text tells everything that the plan does.

The mark also tells where the epilogue goes.  A rendering that succeeds has the headers of
the plan, and injects the epilogue behind the block of the marked one and nowhere else.
-/

section Running

variable {arguments : List String} {options : Command.Options} {s : Command.Settings}
  {t : FileTree} {p : Plan}

/-- A plan that succeeds is printed, as text unless the JSON form is asked for. -/
theorem Command.run_plan {json : Bool}
    (hread : read arguments = .ok (.task (.plan json) options))
    (hsettings : settings t options = .ok s)
    (hplan : s.manifest.plan (t.storeAt s.sourceDir) = .ok p) :
    (run arguments t).2.exit = 0 ∧
      (run arguments t).2.stdout = if json then p.toJson ++ "\n" else p.toText := by
  unfold run
  simp only [hread, execute, hsettings, perform, plan, hplan]
  exact ⟨rfl, rfl⟩

end Running

namespace Manifest

variable {m : Manifest} {store : Store} {p : Plan}

/-- What a successful plan is: the discovered headers of a valid manifest, and what the
manifest says itself. -/
theorem plan_eq_ok_iff :
    m.plan store = .ok p ↔ m.Valid ∧ ∃ r, m.discover store = .ok r ∧
      p = ⟨r.headers, m.sources, m.excluded, m.configHeader, m.implementationCondition⟩ := by
  rw [plan, except_bind_eq_ok_iff]
  constructor
  · rintro ⟨_, hchecked, h⟩
    obtain ⟨r, hdiscover, h⟩ := except_bind_eq_ok_iff.1 h
    cases h
    exact ⟨checked_eq_ok_iff.1 hchecked, r, hdiscover, rfl⟩
  · rintro ⟨hvalid, r, hdiscover, rfl⟩
    exact ⟨(), checked_eq_ok_iff.2 hvalid, except_bind_eq_ok_iff.2 ⟨r, hdiscover, rfl⟩⟩

theorem wellFormed_of_plan (h : m.plan store = .ok p) : p.WellFormed := by
  obtain ⟨hvalid, r, hdiscover, rfl⟩ := plan_eq_ok_iff.1 h
  exact
    { headers_nodup := nodup_headers_of_discover hdiscover
      configHeader_mem :=
        (hvalid.mem_headers_of_discover hdiscover).2 (Or.inl hvalid.configHeader_mem)
      condition_single := hvalid.break_not_mem_implementationCondition }

/-- Planning and rendering find the same headers. -/
theorem headers_eq_of_render {a : Amalgamation} (hplan : m.plan store = .ok p)
    (hrender : m.render store = .ok a) : a.registry.headers = p.headers := by
  obtain ⟨-, r, hdiscover, rfl⟩ := plan_eq_ok_iff.1 hplan
  obtain ⟨-, hregistry, -⟩ := render_eq_ok_iff.1 hrender
  rw [hdiscover, Except.ok.injEq] at hregistry
  rw [hregistry]

/-- When no header occurs twice, the document is made of plain blocks, except that the
epilogue and a line feed follow the block of the configuration header. -/
theorem documentText_of_nodup {before after : List String}
    (h : (before ++ m.configHeader :: after).Nodup) :
    m.documentText store (before ++ m.configHeader :: after) =
      m.prologue ++ String.join (before.map (store.blockOf m.stem)) ++
        store.blockOf m.stem m.configHeader ++ (m.epilogue ++ "\n") ++
        String.join (after.map (store.blockOf m.stem)) ++ m.openingLine ++
        String.join (m.sources.map (store.blockOf m.stem)) ++ m.closingLine := by
  rw [List.nodup_middle, List.nodup_cons, List.mem_append, not_or] at h
  obtain ⟨⟨hbefore, hafter⟩, -⟩ := h
  rw [documentText, List.map_append, List.map_cons, map_headerSection_of_not_mem hbefore,
    map_headerSection_of_not_mem hafter, headerSection, if_pos rfl, String.join_append,
    String.join_cons]
  simp only [String.append_assoc]

/-- The printed text of a plan with plain names is read back as the plan.  So it is the text
of no other plan of this kind, whatever manifest and store that was made for.  Of the lines
beneath the first heading, which are those of the headers, just one carries the mark, and
rendering injects the epilogue behind the block of its header and behind no other block. -/
theorem plan_determined_by_text (h : m.plan store = .ok p) (hnames : p.HasPlainNames) :
    (∀ arguments options s t,
      Command.read arguments = .ok (.task (.plan false) options) →
      Command.settings t options = .ok s →
      s.manifest = m → t.storeAt s.sourceDir = store →
      (Command.run arguments t).2.exit = 0 ∧ (Command.run arguments t).2.stdout = p.toText) ∧
    Plan.ofText? p.toText = some p ∧
    (∀ (other : Manifest) (otherStore : Store) (q : Plan), other.plan otherStore = .ok q →
      q.HasPlainNames → q.toText = p.toText → q = p) ∧
    ∃ before after : List String,
      p.headers = before ++ p.configHeader :: after ∧
      (Plan.sectionsOf p.toText).head? =
        some ⟨"Headers:\n", p.headers.map (Plan.headerLine p.configHeader)⟩ ∧
      (∀ i line, (p.headers.map (Plan.headerLine p.configHeader))[i]? = some line →
        (Plan.CarriesMark line ↔ i = before.length)) ∧
      ∀ a, m.render store = .ok a →
        a.document =
          (m.prologue ++ String.join (before.map (store.blockOf m.stem)) ++
            store.blockOf m.stem p.configHeader ++ (m.epilogue ++ "\n") ++
            String.join (after.map (store.blockOf m.stem)) ++ m.openingLine ++
            String.join (m.sources.map (store.blockOf m.stem)) ++ m.closingLine).toUTF8 := by
  have hwell := wellFormed_of_plan h
  have hread := hwell.ofText?_toText hnames
  have hnodup := hwell.headers_nodup
  obtain ⟨before, after, hsplit⟩ := List.append_of_mem hwell.configHeader_mem
  refine ⟨?_, hread, ?_, before, after, hsplit, ?_, ?_, ?_⟩
  · rintro arguments options s t harguments hsettings rfl rfl
    exact Command.run_plan harguments hsettings h
  · intro other otherStore q hq hqnames htext
    have hother := (wellFormed_of_plan hq).ofText?_toText hqnames
    rw [htext, hread, Option.some.injEq] at hother
    exact hother.symm
  · rw [hwell.sectionsOf_toText hnames]
    rfl
  · exact fun i line hline => hwell.carriesMark_iff hnames hsplit hline
  · intro a ha
    have hheaders := headers_eq_of_render h ha
    obtain ⟨-, r, -, rfl⟩ := plan_eq_ok_iff.1 h
    rw [hsplit] at hnodup hheaders
    rw [document_eq_of_render ha, hheaders, documentText_of_nodup hnodup]

/-- The plan of the sample. -/
def samplePlan : Plan where
  headers := ["cfg.h", "near.h", "tail.h"]
  sources := ["b.c", "a.c"]
  excluded := ["skip.h"]
  configHeader := "cfg.h"
  condition := "defined(LIB_IMPLEMENTATION) || defined(LIB_IMPL)"

/-- The plan of the project of two empty files. -/
def twoFilesPlan : Plan where
  headers := ["x.h"]
  sources := ["a.c"]
  excluded := ["ljumptab.h"]
  configHeader := "x.h"
  condition := "defined(LUA_IMPLEMENTATION) || defined(LUAMALG_IMPLEMENTATION)"

theorem plan_twoFiles :
    Command.twoFiles.manifest.plan
      (FileTree.twoFiles.storeAt Command.twoFiles.sourceDir) = .ok twoFilesPlan := by
  decide +kernel

/-- The plan of the sample, which another manifest has as well, and that of a project on
which the command is run. -/
theorem plan_determined_by_text_sample :
    let other : Manifest := { sample with prologue := "", epilogue := "" }
    let marked := "  cfg.h (+ epilogue)\n"
    let plain := "  near.h\n"
    let arguments := ["plan", "-o", "a/../a"]
    sample.plan Store.sample = .ok samplePlan ∧ samplePlan.HasPlainNames ∧
    Plan.ofText? samplePlan.toText = some samplePlan ∧
    (∃ q, other.plan Store.sample = .ok q ∧ q.toText = samplePlan.toText ∧ q = samplePlan) ∧
    samplePlan.headers.map (Plan.headerLine samplePlan.configHeader) =
      [marked, plain, "  tail.h\n"] ∧
    Plan.CarriesMark marked ∧ ¬ Plan.CarriesMark plain ∧
    (Command.read arguments = .ok (.task (.plan false) { output := some "a/../a" }) ∧
      Command.settings .twoFiles { output := some "a/../a" } = .ok Command.twoFiles ∧
      twoFilesPlan.HasPlainNames ∧
      (Command.run arguments .twoFiles).2.exit = 0 ∧
      (Command.run arguments .twoFiles).2.stdout =
        String.join
          ["Headers:\n", "  x.h (+ epilogue)\n", "Excluded:\n", "  ljumptab.h\n",
           "#if defined(LUA_IMPLEMENTATION) || defined(LUAMALG_IMPLEMENTATION)\n",
           "  a.c\n", "#endif\n"]) ∧
    ∃ after : List String,
      samplePlan.headers = samplePlan.configHeader :: after ∧
      sample.render Store.sample = .ok sampleAmalgamation ∧
      sampleAmalgamation.document =
        (sample.prologue ++ Store.sample.blockOf sample.stem "cfg.h" ++
          (sample.epilogue ++ "\n") ++
          String.join (after.map (Store.sample.blockOf sample.stem)) ++ sample.openingLine ++
          String.join (sample.sources.map (Store.sample.blockOf sample.stem)) ++
          sample.closingLine).toUTF8 := by
  intro other marked plain arguments
  have hplan : sample.plan Store.sample = .ok samplePlan :=
    plan_eq_ok_iff.2 ⟨validate_eq_ok_iff_valid.1 rfl, _, discover_sample_eq_ok, by decide⟩
  have hother : other.plan Store.sample = .ok samplePlan :=
    plan_eq_ok_iff.2 ⟨validate_eq_ok_iff_valid.1 rfl, _, discover_sample_eq_ok, by decide⟩
  have hnames : samplePlan.HasPlainNames := ⟨by decide, by decide⟩
  have hlines : samplePlan.headers.map (Plan.headerLine samplePlan.configHeader) =
      [marked, plain, "  tail.h\n"] := by decide
  obtain ⟨-, hread, hunique, before, after, hsplit, -, hmark, hdocument⟩ :=
    plan_determined_by_text hplan hnames
  rw [hlines] at hmark
  have hmarked : Plan.CarriesMark marked := ⟨"cfg.h", by decide⟩
  have hbefore : before = [] :=
    List.length_eq_zero_iff.1 ((hmark 0 marked rfl).1 hmarked).symm
  have hplain : ¬ Plan.CarriesMark plain := by
    rw [hmark 1 plain rfl, hbefore]
    decide
  subst hbefore
  have harguments : Command.read arguments =
      .ok (.task (.plan false) { output := some "a/../a" }) := by decide +kernel
  have hplainNames : twoFilesPlan.HasPlainNames := ⟨by decide, by decide⟩
  obtain ⟨hprinted, -⟩ := plan_determined_by_text plan_twoFiles hplainNames
  obtain ⟨hexit, hstdout⟩ :=
    hprinted _ _ _ _ harguments Command.settings_twoFiles rfl rfl
  have hinjected := hdocument _ render_sample_eq_ok
  rw [List.map_nil, String.join_nil, String.append_empty] at hinjected
  exact ⟨hplan, hnames, hread, ⟨samplePlan, hother, rfl, hunique other _ _ hother hnames rfl⟩,
    hlines, hmarked, hplain,
    ⟨harguments, Command.settings_twoFiles, hplainNames, hexit,
      hstdout.trans (by decide +kernel)⟩,
    after, hsplit, render_sample_eq_ok, hinjected⟩

end Manifest
end Amalgam
