import Amalgam.Config

namespace Amalgam

/-!
# Layers of configurations

The eleven options of a configuration are the eight fields of a manifest, the two
locations, and the release that the built-in prologue names.  They are looked up by key
here, so that what holds of every option is said once: after any number of layers an
option has the value of the last layer that sets it.

A value that is set counts as set even if it is empty.  The release matters to nothing
but the prologue, and not even to that once a prologue is set.
-/

/-! ## Options by key -/

namespace Manifest

/-- The fields of a manifest. -/
inductive Field where
  | sources
  | headers
  | excluded
  | configHeader
  | stem
  | macros
  | prologue
  | epilogue
deriving DecidableEq

/-- What a field holds. -/
def Field.Value : Field → Type
  | sources | headers | excluded | macros => List String
  | configHeader | stem | prologue | epilogue => String

/-- The value of a field. -/
def get (m : Manifest) : (field : Field) → field.Value
  | .sources => m.sources
  | .headers => m.headers
  | .excluded => m.excluded
  | .configHeader => m.configHeader
  | .stem => m.stem
  | .macros => m.macros
  | .prologue => m.prologue
  | .epilogue => m.epilogue

/-- A manifest is nothing but its fields. -/
theorem ext_get {m n : Manifest} (h : ∀ field, m.get field = n.get field) : m = n := by
  rw [Manifest.mk.injEq]
  exact ⟨h .sources, h .headers, h .excluded, h .configHeader, h .stem, h .macros,
    h .prologue, h .epilogue⟩

/-- Only the prologue of the built-in manifest tells the release. -/
theorem get_lua {field : Field} (h : field ≠ .prologue) (version : String) :
    (lua version).get field = builtIn.get field := by
  cases field with
  | prologue => exact absurd rfl h
  | sources | headers | excluded | configHeader | stem | macros | epilogue =>
      simp only [get, lua, builtIn, LuaProfile.manifest]
      rfl

end Manifest

namespace Config

/-- The options of a configuration. -/
inductive Key where
  | sourceDir
  | output
  | version
  | part (field : Manifest.Field)
deriving DecidableEq

/-- What an option is set to. -/
def Key.Value : Key → Type
  | sourceDir | output | version => String
  | part field => field.Value

/-- The value that an option is set to, if it is set. -/
def get? (c : Config) : (key : Key) → Option key.Value
  | .sourceDir => c.sourceDir
  | .output => c.output
  | .version => c.version
  | .part .sources => c.sources
  | .part .headers => c.headers
  | .part .excluded => c.excluded
  | .part .configHeader => c.configHeader
  | .part .stem => c.stem
  | .part .macros => c.macros
  | .part .prologue => c.prologue
  | .part .epilogue => c.epilogue

/-- A configuration is nothing but its options. -/
theorem ext_get? {c d : Config} (h : ∀ key, c.get? key = d.get? key) : c = d := by
  rw [Config.mk.injEq]
  exact ⟨h .sourceDir, h .output, h (.part .sources), h (.part .headers),
    h (.part .excluded), h (.part .configHeader), h (.part .stem), h (.part .macros),
    h .version, h (.part .prologue), h (.part .epilogue)⟩

@[simp]
theorem get?_default (key : Key) : get? {} key = none := by
  cases key with
  | sourceDir | output | version => rfl
  | part field => cases field <;> rfl

/-! ## Merging -/

/-- The layer decides on what it sets, and the base on the rest. -/
@[simp]
theorem get?_merge (base layer : Config) (key : Key) :
    (base.merge layer).get? key = (layer.get? key).or (base.get? key) := by
  cases key with
  | sourceDir | output | version => exact Option.orElse_eq_or
  | part field => cases field <;> exact Option.orElse_eq_or

theorem default_merge (c : Config) : merge {} c = c :=
  ext_get? fun key => by simp

theorem merge_default (c : Config) : merge c {} = c :=
  ext_get? fun key => by simp

theorem merge_assoc (a b c : Config) : (a.merge b).merge c = a.merge (b.merge c) :=
  ext_get? fun key => by simp [Option.or_assoc]

/-- A layer that is put on twice in a row counts once. -/
theorem merge_merge_self (base layer : Config) :
    (base.merge layer).merge layer = base.merge layer :=
  ext_get? fun key => by simp [← Option.or_assoc]

/-- The configuration of layers, of which a later one is over an earlier one. -/
def layered (layers : List Config) : Config :=
  layers.foldl merge {}

/-- The value is the one that the last layer to set the option sets it to. -/
def IsLastValue (layers : List Config) (key : Key) (value : key.Value) : Prop :=
  ∃ below layer above, layers = below ++ layer :: above ∧
    layer.get? key = some value ∧ ∀ later ∈ above, later.get? key = none

theorem get?_foldl_merge (layers : List Config) (base : Config) (key : Key) :
    (layers.foldl merge base).get? key =
      (layers.reverse.findSome? (·.get? key)).or (base.get? key) := by
  induction layers generalizing base with
  | nil => rfl
  | cons layer layers ih =>
      rw [List.foldl_cons, ih, get?_merge, List.reverse_cons, List.findSome?_append,
        Option.or_assoc]
      simp

/-- Looking for an option goes through the layers from the last to the first. -/
theorem get?_layered (layers : List Config) (key : Key) :
    (layered layers).get? key = layers.reverse.findSome? (·.get? key) := by
  rw [layered, get?_foldl_merge, get?_default, Option.or_none]

theorem get?_layered_eq_some_iff {layers : List Config} {key : Key} {value : key.Value} :
    (layered layers).get? key = some value ↔ IsLastValue layers key value := by
  rw [get?_layered, List.findSome?_eq_some_iff]
  constructor
  · rintro ⟨above, layer, below, hlayers, hvalue, habove⟩
    refine ⟨below.reverse, layer, above.reverse, ?_, hvalue, ?_⟩
    · rw [← List.reverse_reverse layers, hlayers]
      simp
    · exact fun later hlater => habove later (List.mem_reverse.1 hlater)
  · rintro ⟨below, layer, above, rfl, hvalue, habove⟩
    refine ⟨above.reverse, layer, below.reverse, by simp, hvalue, ?_⟩
    exact fun later hlater => habove later (List.mem_reverse.1 hlater)

theorem get?_layered_eq_none_iff {layers : List Config} {key : Key} :
    (layered layers).get? key = none ↔ ∀ layer ∈ layers, layer.get? key = none := by
  rw [get?_layered, List.findSome?_eq_none_iff]
  exact forall_congr' fun layer => by rw [List.mem_reverse]

/-! ## The manifest of a configuration -/

/-- The manifest is the built-in one with exactly the options put in that are set.  The
release is put into the prologue unless the prologue is set. -/
structure IsPutIn (c : Config) (m : Manifest) : Prop where
  of_set : ∀ field value, c.get? (.part field) = some value → m.get field = value
  of_unset : ∀ field, field ≠ .prologue → c.get? (.part field) = none →
    m.get field = Manifest.builtIn.get field
  of_version : ∀ version, c.prologue = none → c.version = some version →
    m.prologue = LuaProfile.prologue version
  of_no_version : c.prologue = none → c.version = none →
    m.prologue = Manifest.builtIn.prologue

theorem get_manifest (c : Config) (field : Manifest.Field) :
    c.manifest.get field = (c.get? (.part field)).getD
      ((Manifest.lua (c.version.getD LuaProfile.defaultVersion)).get field) := by
  cases field <;> rfl

theorem isPutIn_manifest (c : Config) : c.IsPutIn c.manifest where
  of_set field value h := by
    rw [get_manifest, h]
    rfl
  of_unset field hfield h := by
    rw [get_manifest, h]
    exact Manifest.get_lua hfield _
  of_version version hprologue hversion := by
    rw [manifest, hprologue, hversion]
    rfl
  of_no_version hprologue hversion := by
    rw [manifest, hprologue, hversion]
    rfl

/-- No other manifest has the options put in. -/
theorem IsPutIn.unique {c : Config} {m n : Manifest} (hm : c.IsPutIn m) (hn : c.IsPutIn n) :
    m = n := by
  refine Manifest.ext_get fun field => ?_
  cases hset : c.get? (.part field) with
  | some value => rw [hm.of_set field value hset, hn.of_set field value hset]
  | none =>
      by_cases hfield : field = .prologue
      · subst hfield
        show m.prologue = n.prologue
        cases hversion : c.version with
        | some version =>
            rw [hm.of_version version hset hversion, hn.of_version version hset hversion]
        | none => rw [hm.of_no_version hset hversion, hn.of_no_version hset hversion]
      · rw [hm.of_unset field hfield hset, hn.of_unset field hfield hset]

theorem isPutIn_iff {c : Config} {m : Manifest} : c.IsPutIn m ↔ m = c.manifest := by
  constructor
  · exact fun h => h.unique (isPutIn_manifest c)
  · rintro rfl
    exact isPutIn_manifest c

end Config
end Amalgam
