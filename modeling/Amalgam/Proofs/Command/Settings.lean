import Amalgam.Command.Run
import Amalgam.Proofs.Config.Layering
import Mathlib.Data.List.Basic

namespace Amalgam
namespace Command

/-!
# Where the settings of a command come from

A location is taken from the command line, or else from the configuration, or else it is
the default one.  The manifest is that of the configuration; the command line cannot
change it.  There is at most one configuration file, so a command sees at most one layer.
-/

theorem resolve_eq (options : Options) (config : Config) :
    Settings.resolve options config =
      { manifest := config.manifest
        sourceDir := (options.sourceDir.or config.sourceDir).getD Config.defaultSourceDir
        output := (options.output.or config.output).getD Config.defaultOutput } := by
  rw [Settings.resolve, Config.resolvedSourceDir, Config.resolvedOutput, Settings.mk.injEq,
    Option.getD_or, Option.getD_or]
  exact ⟨rfl, rfl, rfl⟩

section Finding

variable {t : FileTree} {options : Options}

/-- A configuration file is one layer. -/
theorem settings_of_file {path : String}
    (h : Config.fileToRead t options.configFile t.workingDirectory = some path) :
    settings t options = (Config.ofFile t path).map fun layer =>
      Settings.resolve options (Config.layered [layer]) := by
  rw [settings, Config.load, h]
  cases hfile : Config.ofFile t path with
  | error failure => simp [hfile, Except.map]
  | ok layer => simp [hfile, Except.map, Config.layered]

/-- No configuration file is no layer. -/
theorem settings_of_no_file
    (h : Config.fileToRead t options.configFile t.workingDirectory = none) :
    settings t options = .ok (Settings.resolve options (Config.layered [])) := by
  rw [settings, Config.load, h]
  rfl

/-- Unless a file is asked for, that of the directory is read, if there is one. -/
theorem fileToRead_none (t : FileTree) (dir : String) :
    Config.fileToRead t none dir =
      if t.pathExists (Path.join dir Config.fileName) then
        some (Path.join dir Config.fileName)
      else none :=
  rfl

end Finding

/-- After any layers an option has the value of the last layer that sets it, and is not
set if no layer sets it; so merging is associative, the empty configuration is neutral on
both sides, and a layer put on twice in a row counts once.  The manifest is the built-in
one with exactly the set options put in.  A location is the one of the command line, or
else the configured one, or else the default one.  A command is configured by the file that
it asks for, or else by that of the working directory, or by none if there is none. -/
theorem settings_of_layers (layers : List Config) :
    let config := Config.layered layers
    (∀ key : Config.Key,
      (∀ value, config.get? key = some value ↔ Config.IsLastValue layers key value) ∧
      (config.get? key = none ↔ ∀ layer ∈ layers, layer.get? key = none)) ∧
    (∀ a b c : Config, (a.merge b).merge c = a.merge (b.merge c)) ∧
    (∀ c : Config, Config.merge {} c = c ∧ Config.merge c {} = c) ∧
    (∀ base layer : Config, (base.merge layer).merge layer = base.merge layer) ∧
    (∀ m : Manifest, config.IsPutIn m ↔ m = config.manifest) ∧
    (∀ options : Options, Settings.resolve options config =
      { manifest := config.manifest
        sourceDir := (options.sourceDir.or config.sourceDir).getD Config.defaultSourceDir
        output := (options.output.or config.output).getD Config.defaultOutput }) ∧
    ∀ (t : FileTree) (options : Options),
      let found := Path.join t.workingDirectory Config.fileName
      (∀ path, options.configFile = some path →
        settings t options = (Config.ofFile t path).map fun layer =>
          Settings.resolve options (Config.layered [layer])) ∧
      (options.configFile = none → t.pathExists found = true →
        settings t options = (Config.ofFile t found).map fun layer =>
          Settings.resolve options (Config.layered [layer])) ∧
      (options.configFile = none → t.pathExists found = false →
        settings t options = .ok (Settings.resolve options (Config.layered []))) := by
  intro config
  refine ⟨fun key => ⟨fun value => ?_, ?_⟩, Config.merge_assoc, fun c => ?_,
    Config.merge_merge_self, fun m => Config.isPutIn_iff, fun options => ?_,
    fun t options => ⟨fun path hpath => ?_, fun hnone hfound => ?_, fun hnone hfound => ?_⟩⟩
  · exact Config.get?_layered_eq_some_iff
  · exact Config.get?_layered_eq_none_iff
  · exact ⟨Config.default_merge c, Config.merge_default c⟩
  · exact resolve_eq options config
  · exact settings_of_file (by rw [hpath, Config.fileToRead])
  · exact settings_of_file (by rw [hnone, fileToRead_none, if_pos hfound])
  · exact settings_of_no_file (by rw [hnone, fileToRead_none, hfound]; rfl)

/-- A layer that sets the output and the release. -/
def lowerLayer : Config where
  output := some "a.h"
  version := some "5.4.6"

/-- A layer that sets the output as well, and empties the list of excluded headers. -/
def upperLayer : Config where
  output := some "b.h"
  excluded := some []

/-- A directory with each of the two layers in a file.  Only the first one is found without
being asked for. -/
def configured : FileTree :=
  ((FileTree.onlyDirectory ["home"]).put ["home", "Amalgam.toml"] (.file
    "[paths]\noutput = \"a.h\"\n[amalgam]\nlua_version = \"5.4.6\"\n".toUTF8)).put
      ["home", "upper.toml"] (.file
        "[paths]\noutput = \"b.h\"\n[amalgam]\nexclude = []\n".toUTF8)

theorem settings_of_layers_sample :
    let config := Config.layered [lowerLayer, upperLayer]
    Config.IsLastValue [lowerLayer, upperLayer] .output "b.h" ∧
    config.get? .output = some "b.h" ∧
    (∀ layer ∈ [lowerLayer, upperLayer], layer.get? .sourceDir = none) ∧
    config.get? .sourceDir = none ∧
    config.manifest.excluded = [] ∧
    config.manifest.prologue = LuaProfile.prologue "5.4.6" ∧
    (Settings.resolve { sourceDir := some "src" } config).sourceDir = "src" ∧
    (Settings.resolve { sourceDir := some "src" } config).output = "b.h" ∧
    settings configured { configFile := some "upper.toml" } =
      .ok ⟨(Config.layered [upperLayer]).manifest, "lua", "b.h"⟩ ∧
    (configured.pathExists "/home/Amalgam.toml" = true ∧
      settings configured {} = .ok ⟨(Config.layered [lowerLayer]).manifest, "lua", "a.h"⟩) ∧
    (FileTree.onlyDirectory ["home"]).pathExists "/home/Amalgam.toml" = false ∧
    settings (.onlyDirectory ["home"]) { sourceDir := some "src" } =
      .ok ⟨(Config.layered []).manifest, "src", "luamalg.h"⟩ := by
  intro config
  obtain ⟨hoptions, -, -, -, hputIn, hresolve, hsettings⟩ :=
    settings_of_layers [lowerLayer, upperLayer]
  have hupper : Config.ofFile configured "upper.toml" = .ok upperLayer := by decide +kernel
  have hlower : Config.ofFile configured
      (Path.join configured.workingDirectory Config.fileName) = .ok lowerLayer := by
    decide +kernel
  have hthere : configured.pathExists "/home/Amalgam.toml" = true := by decide +kernel
  have hmissing : (FileTree.onlyDirectory ["home"]).pathExists "/home/Amalgam.toml" =
      false := by decide +kernel
  have hlast : Config.IsLastValue [lowerLayer, upperLayer] .output "b.h" :=
    ⟨[lowerLayer], upperLayer, [], rfl, rfl, by simp⟩
  have hunset : ∀ layer ∈ [lowerLayer, upperLayer], layer.get? .sourceDir = none :=
    List.forall_mem_cons.2 ⟨rfl, List.forall_mem_singleton.2 rfl⟩
  have hmanifest := (hputIn _).2 rfl
  refine ⟨hlast, ((hoptions .output).1 _).2 hlast, hunset, (hoptions .sourceDir).2.2 hunset,
    hmanifest.of_set .excluded [] rfl, hmanifest.of_version "5.4.6" rfl rfl, ?_, ?_, ?_,
    ⟨hthere, ?_⟩, hmissing, ?_⟩
  · rw [hresolve]
    rfl
  · rw [hresolve]
    rfl
  · rw [(hsettings configured _).1 "upper.toml" rfl, hupper]
    rfl
  · rw [(hsettings configured {}).2.1 rfl hthere, hlower]
    rfl
  · rw [(hsettings (.onlyDirectory ["home"]) _).2.2 rfl hmissing]
    rfl

end Command
end Amalgam
