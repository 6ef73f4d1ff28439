import Amalgam.Proofs.Json.Decoding
import Amalgam.Proofs.Plan.Printing
import Mathlib.Data.List.Forall2

namespace Amalgam

/-!
# The JSON form of a plan tells the whole plan

The printed text is the JSON form of one object, in which every field of the plan is found
again.  Nothing is asked of the names, which may hold quotes, backslashes, line feeds and any
other character.
-/

namespace Json

/-! ## Texts that are cut into the same tokens wherever they stand -/

/-- In front of any text, a text adds these tokens.  This does NOT hold of a number, because
more digits could follow. -/
def Prints (text : String) (tokens : List Token) : Prop :=
  ∀ cs rest, Lexes cs rest → Lexes (text.toList ++ cs) (tokens ++ rest)

/-- The tokens of a text that has nothing but marks and blanks. -/
def layout? : List Char → Option (List Token)
  | [] => some []
  | c :: cs =>
      if isBlank c then layout? cs
      else if c ∈ marks then (layout? cs).map (.mark c :: ·)
      else none

section Layout

variable {text : String} {tokens : List Token}

theorem Prints.append {front : String} {frontTokens : List Token}
    (hfront : Prints front frontTokens) (htext : Prints text tokens) :
    Prints (front ++ text) (frontTokens ++ tokens) := by
  intro cs rest hrest
  rw [String.toList_append, List.append_assoc, List.append_assoc]
  exact hfront _ _ (htext _ _ hrest)

theorem Prints.lexes (h : Prints text tokens) : Lexes text.toList tokens := by
  have hwhole := h [] [] .nil
  rwa [List.append_nil, List.append_nil] at hwhole

theorem prints_layout (h : layout? text.toList = some tokens) : Prints text tokens := by
  intro cs rest hrest
  generalize text.toList = layout at h
  induction layout generalizing tokens with
  | nil =>
      cases h
      exact hrest
  | cons c layout ih =>
      rw [layout?] at h
      split at h
      · rename_i hblank
        exact .blank hblank (ih h)
      · split at h
        · rename_i hmark
          obtain ⟨tokens, hlayout, heq⟩ := Option.map_eq_some_iff.1 h
          cases heq
          show Lexes ([c] ++ (layout ++ cs)) (.mark c :: (tokens ++ rest))
          exact .token (.mark hmark) trivial (ih hlayout)
        · cases h

/-- Texts with a comma between any two, each on a line of its own. -/
theorem prints_intercalate {texts : List String} {parts : List (List Token)}
    (h : List.Forall₂ Prints texts parts) :
    Prints (String.intercalate ",\n" texts) (separated parts) := by
  induction h with
  | nil => exact prints_layout (by decide)
  | cons hfirst hothers ih =>
      cases hothers with
      | nil =>
          rw [String.intercalate_singleton, separated, List.intercalate_singleton]
          exact hfirst
      | cons hnext hothers =>
          have hcomma : Prints ",\n" [.mark ','] := prints_layout (by decide)
          rw [String.intercalate_cons_cons, separated_cons_cons, String.append_assoc]
          exact hfirst.append (hcomma.append ih)

end Layout

/-! ## Strings and what is made of them -/

theorem hexDigit?_digitChar {d : Nat} (h : d < 16) :
    Toml.Quoted.hexDigit? (Nat.digitChar d) = some d := by
  have hall : ∀ d < 16, Toml.Quoted.hexDigit? (Nat.digitChar d) = some d := by decide
  exact hall d h

/-- The number of a control character is spelled by two zeros and two more digits. -/
theorem unitOf?_of_lt {n : Nat} (h : n < 0x20) :
    unitOf? ['0', '0', Nat.digitChar (n / 16), Nat.digitChar (n % 16)] = some n := by
  have hzero : Toml.Quoted.hexDigit? '0' = some 0 := by decide
  have hsplit : 0x100 * (0x10 * 0 + 0) + (0x10 * (n / 16) + n % 16) = n := by omega
  simp only [unitOf?, hzero, hexDigit?_digitChar (show n / 16 < 16 by omega),
    hexDigit?_digitChar (show n % 16 < 16 by omega), Option.bind_eq_bind, Option.bind_some,
    Option.pure_def, hsplit]

theorem spells_escapeChar (c : Char) : Spells c (escapeChar c) := by
  unfold escapeChar
  split_ifs with hquote hslash hback htab hfeed hform hreturn hcontrol
  -- The characters that have an escape of two characters come first.
  any_goals
    subst_vars
    exact .short rfl
  · have hunit : Spells (Char.ofNat c.toNat) _ := .unit (unitOf?_of_lt hcontrol) c.valid
    rwa [Char.ofNat_toNat] at hunit
  · exact .plain (Nat.le_of_not_lt hcontrol) hquote hslash

theorem spellsAll_flatMap_escapeChar (cs : List Char) :
    SpellsAll cs (cs.flatMap escapeChar) := by
  induction cs with
  | nil => exact .nil
  | cons c cs ih =>
      rw [List.flatMap_cons]
      exact .cons (spells_escapeChar c) ih

theorem prints_quote (s : String) : Prints (quote s) [.scalar (.text s)] := by
  intro cs rest hrest
  have hlexeme : IsLexeme (.scalar (.text s)) (quote s).toList := by
    have hbody := IsLexeme.text (spellsAll_flatMap_escapeChar s.toList)
    simp only [quote, String.toList_append, String.toList_ofList]
    exact hbody
  exact .token hlexeme trivial hrest

theorem prints_text (s : String) : Prints (quote s) (Value.text s).tokens := by
  rw [Value.tokens]
  exact prints_quote s

/-- A list of strings. -/
def Value.texts (items : List String) : Value :=
  .list (items.map .text)

theorem prints_quoteList (items : List String) :
    Prints (quoteList items) (Value.texts items).tokens := by
  rw [Value.texts, Value.tokens]
  cases items with
  | nil => exact prints_layout (by decide)
  | cons first others =>
      have hopening : Prints "[\n" [.mark '['] := prints_layout (by decide)
      have hindent : Prints "    " [] := prints_layout (by decide)
      have hclosing : Prints "\n  ]" [.mark ']'] := prints_layout (by decide)
      have hitems : List.Forall₂ Prints ((first :: others).map fun item => "    " ++ quote item)
          (((first :: others).map Value.text).map Value.tokens) := by
        rw [List.map_map, List.forall₂_map_left_iff, List.forall₂_map_right_iff,
          List.forall₂_same]
        exact fun item _ => hindent.append (prints_text item)
      exact (hopening.append (prints_intercalate hitems)).append hclosing

theorem prints_member {key value : String} {v : Value} (h : Prints value v.tokens) :
    Prints (member key value) (memberTokens (key, v)) := by
  have hindent : Prints "  " [] := prints_layout (by decide)
  have hcolon : Prints ": " [.mark ':'] := prints_layout (by decide)
  exact ((hindent.append (prints_quote key)).append hcolon).append h

theorem prints_object {texts : List String} {members : List (String × Value)}
    (h : List.Forall₂ (fun text m => Prints text (memberTokens m)) texts members) :
    Prints (object texts) (Value.object members).tokens := by
  have hopening : Prints "\x7b\n" [.mark '\x7b'] := prints_layout (by decide)
  have hclosing : Prints "\n\x7d" [.mark '\x7d'] := prints_layout (by decide)
  have hmembers := prints_intercalate (List.forall₂_map_right_iff.2 h)
  rw [tokens_object]
  exact (hopening.append hmembers).append hclosing

/-! ## Reading a value -/

/-- The member of a key, provided that the key occurs just once. -/
def Value.member? (key : String) : Value → Option Value
  | .object members =>
      match members.filter (·.1 = key) with
      | [m] => some m.2
      | _ => none
  | _ => none

def Value.text? : Value → Option String
  | .scalar (.text content) => some content
  | _ => none

def Value.texts? : Value → Option (List String)
  | .list items => items.mapM Value.text?
  | _ => none

theorem Value.texts?_texts (items : List String) : (Value.texts items).texts? = some items :=
  Text.mapM_map_eq_some fun _ _ => rfl

end Json

namespace Plan

/-! ## The value of a plan -/

/-- The members are in the order of the fields. -/
def members (p : Plan) : List (String × Json.Value) :=
  [("headers", .texts p.headers), ("sources", .texts p.sources),
   ("excluded_headers", .texts p.excluded), ("config_header", .text p.configHeader),
   ("guard", .text p.condition)]

def toValue (p : Plan) : Json.Value :=
  .object p.members

/-- The plan that a value describes. -/
def ofValue? (v : Json.Value) : Option Plan := do
  let headers ← (← v.member? "headers").texts?
  let sources ← (← v.member? "sources").texts?
  let excluded ← (← v.member? "excluded_headers").texts?
  let configHeader ← (← v.member? "config_header").text?
  let condition ← (← v.member? "guard").text?
  return { headers, sources, excluded, configHeader, condition }

theorem ofValue?_toValue (p : Plan) : ofValue? p.toValue = some p := by
  have hheaders : p.toValue.member? "headers" = some (.texts p.headers) := rfl
  have hsources : p.toValue.member? "sources" = some (.texts p.sources) := rfl
  have hexcluded : p.toValue.member? "excluded_headers" = some (.texts p.excluded) := rfl
  have hconfig : p.toValue.member? "config_header" = some (.text p.configHeader) := rfl
  have hcondition : p.toValue.member? "guard" = some (.text p.condition) := rfl
  simp only [ofValue?, hheaders, hsources, hexcluded, hconfig, hcondition,
    Json.Value.texts?_texts, Json.Value.text?, Option.bind_eq_bind, Option.bind_some,
    Option.pure_def]

theorem prints_toJson (p : Plan) : Json.Prints p.toJson p.toValue.tokens := by
  refine Json.prints_object (.cons ?_ (.cons ?_ (.cons ?_ (.cons ?_ (.cons ?_ .nil)))))
  · exact Json.prints_member (Json.prints_quoteList p.headers)
  · exact Json.prints_member (Json.prints_quoteList p.sources)
  · exact Json.prints_member (Json.prints_quoteList p.excluded)
  · exact Json.prints_member (Json.prints_text p.configHeader)
  · exact Json.prints_member (Json.prints_text p.condition)

theorem isText_toJson (p : Plan) : Json.IsText (p.toJson ++ "\n") p.toValue := by
  have hbreak : Json.Prints "\n" [] := Json.prints_layout (by decide)
  have hprinted := (p.prints_toJson.append hbreak).lexes
  rwa [List.append_nil] at hprinted

/-- The printed text is the JSON form of one value only, which is an object with a member for
each field of the plan.  Decoding finds this value, and the plan is read back from it, whatever
names are in it.  So no other plan has this text. -/
theorem determined_by_json (p : Plan) :
    (∀ arguments options s t,
      Command.read arguments = .ok (.task (.plan true) options) →
      Command.settings t options = .ok s →
      s.manifest.plan (t.storeAt s.sourceDir) = .ok p →
      (Command.run arguments t).2.exit = 0 ∧
      (Command.run arguments t).2.stdout = p.toJson ++ "\n") ∧
    (∀ v, Json.IsText (p.toJson ++ "\n") v ↔ v = p.toValue) ∧
    Json.decode? (p.toJson ++ "\n") = some p.toValue ∧
    ofValue? p.toValue = some p ∧
    ∀ q : Plan, q.toJson = p.toJson → q = p := by
  have htext := p.isText_toJson
  have hread := p.ofValue?_toValue
  refine ⟨?_, ?_, Json.decode?_eq_some_iff.2 htext, hread, ?_⟩
  · intro arguments options s t harguments hsettings hplan
    exact Command.run_plan harguments hsettings hplan
  · intro v
    constructor
    · exact htext.unique
    · rintro rfl
      exact htext
  · intro q hq
    have hother := q.isText_toJson
    rw [hq] at hother
    have hvalues : q.toValue = p.toValue := htext.unique hother
    rw [← hvalues, q.ofValue?_toValue, Option.some.injEq] at hread
    exact hread

end Plan

/-- A project with headers whose names cannot stand in a JSON string as they are. -/
def FileTree.oddNames : FileTree :=
  ((home.put ["home", "lua"] .directory).put ["home", "lua", "a.c"]
    (.file ByteArray.empty)).put ["home", "Amalgam.toml"] (.file
      ("[amalgam]\nsources=[\"a.c\"]\nheaders=['\"\\.h',\"\\t\\u0001\u03bb\"]\n" ++
        "exclude=[]\nconfig_header='\"\\.h'\n").toUTF8)

namespace Plan

def oddConfig : Config where
  sources := some ["a.c"]
  headers := some ["\"\\.h", "\t\x01\u03bb"]
  excluded := some []
  configHeader := some "\"\\.h"

/-- The plan of that project. -/
def odd : Plan where
  headers := ["\"\\.h", "\t\x01\u03bb"]
  sources := ["a.c"]
  excluded := []
  configHeader := "\"\\.h"
  condition := "defined(LUA_IMPLEMENTATION) || defined(LUAMALG_IMPLEMENTATION)"

theorem determined_by_json_odd :
    let printed := (Command.run ["plan", "--json"] FileTree.oddNames).2
    printed.exit = 0 ∧ printed.stdout = odd.toJson ++ "\n" ∧
    Json.decode? printed.stdout = some odd.toValue ∧ ofValue? odd.toValue = some odd ∧
    ∀ q : Plan, q.toJson = odd.toJson → q = odd := by
  intro printed
  let options : Command.Options := { json := true }
  have harguments : Command.read ["plan", "--json"] = .ok (.task (.plan true) options) := by
    decide +kernel
  have hload : Config.load FileTree.oddNames none FileTree.oddNames.workingDirectory =
      .ok oddConfig := by
    decide +kernel
  let s : Command.Settings := .resolve options oddConfig
  have hsettings : Command.settings FileTree.oddNames options = .ok s := by
    unfold Command.settings
    rw [hload]
    rfl
  have hplan : s.manifest.plan (FileTree.oddNames.storeAt s.sourceDir) = .ok odd := by
    decide +kernel
  obtain ⟨hrun, -, hdecode, hread, hunique⟩ := odd.determined_by_json
  obtain ⟨hexit, hstdout⟩ := hrun _ _ _ _ harguments hsettings hplan
  refine ⟨hexit, hstdout, ?_, hread, hunique⟩
  rw [hstdout]
  exact hdecode

example :
    odd.toJson =
      String.join
        ["\x7b\n", "  \"headers\": [\n", "    \"\\\"\\\\.h\",\n",
         "    \"\\t\\u0001\u03bb\"\n", "  ],\n", "  \"sources\": [\n", "    \"a.c\"\n",
         "  ],\n", "  \"excluded_headers\": [],\n", "  \"config_header\": \"\\\"\\\\.h\",\n",
         "  \"guard\": \"defined(LUA_IMPLEMENTATION) || defined(LUAMALG_IMPLEMENTATION)\"\n",
         "\x7d"] := by
  decide +kernel

end Plan
end Amalgam
