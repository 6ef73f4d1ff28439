import Amalgam.Plan.Text
import Amalgam.Proofs.Text.Delimiters
import Amalgam.Proofs.Text.Lines

namespace Amalgam
namespace Plan

/-!
# Reading the text form of a plan

The text form is a list of sections, each with a heading and indented lines beneath it.  So
the lines can be grouped again without knowing how many headers or sources there are, and
whether the section of the excluded headers was left out.

A name with a line feed would take up several lines, and a header that ends in the mark of
the configuration header would be taken for it.  The text form does NOT determine the plan
when there are such names.
-/

/-! ## Sections -/

/-- A heading with the indented lines beneath it. -/
structure Section where
  heading : String
  items : List String
deriving DecidableEq

def Section.lines (s : Section) : List String :=
  s.heading :: s.items

def isIndented (line : String) : Bool :=
  "  ".toList.isPrefixOf line.toList

/-- Puts a line in front of lines that are grouped already: those that have no heading yet,
and the sections behind them. -/
def consGrouped (line : String) : List String × List Section → List String × List Section
  | (items, sections) =>
      if isIndented line then (line :: items, sections) else ([], ⟨line, items⟩ :: sections)

/-- The sections of a text.  Indented lines in front of the first heading are in none. -/
def sectionsOf (text : String) : List Section :=
  ((Text.linesOf text).foldr consGrouped ([], [])).2

theorem isIndented_append (rest : String) : isIndented ("  " ++ rest) = true := by
  rw [isIndented, String.toList_append, List.isPrefixOf_iff_prefix]
  exact List.prefix_append _ _

structure IsHeading (line : String) : Prop where
  flush : isIndented line = false
  full : Text.IsFullLine line

structure IsItem (line : String) : Prop where
  indented : isIndented line = true
  full : Text.IsFullLine line

/-- A section whose lines can be told apart from each other and from its heading. -/
structure Section.IsReadable (s : Section) : Prop where
  heading : IsHeading s.heading
  items : ∀ line ∈ s.items, IsItem line

theorem foldr_consGrouped_items {items : List String} (h : ∀ line ∈ items, IsItem line)
    (sections : List Section) :
    items.foldr consGrouped ([], sections) = (items, sections) := by
  induction items with
  | nil => rfl
  | cons line items ih =>
      obtain ⟨hline, hitems⟩ := List.forall_mem_cons.1 h
      rw [List.foldr_cons, ih hitems, consGrouped, if_pos hline.indented]

/-- Grouping the lines of readable sections gives the sections back. -/
theorem foldr_consGrouped {sections : List Section} (h : ∀ s ∈ sections, s.IsReadable) :
    (sections.flatMap Section.lines).foldr consGrouped ([], []) = ([], sections) := by
  induction sections with
  | nil => rfl
  | cons s sections ih =>
      obtain ⟨hs, hsections⟩ := List.forall_mem_cons.1 h
      have hheading : ¬ isIndented s.heading = true := by simp [hs.heading.flush]
      rw [List.flatMap_cons, List.foldr_append, ih hsections, Section.lines, List.foldr_cons,
        foldr_consGrouped_items hs.items, consGrouped, if_neg hheading]

theorem sectionsOf_join {sections : List Section} (h : ∀ s ∈ sections, s.IsReadable) :
    sectionsOf (String.join (sections.flatMap Section.lines)) = sections := by
  have hlines : ∀ line ∈ sections.flatMap Section.lines, Text.IsFullLine line :=
    List.forall_mem_flatMap.2 fun s hs => List.forall_mem_cons.2
      ⟨(h s hs).heading.full, fun line hline => ((h s hs).items line hline).full⟩
  rw [sectionsOf, Text.linesOf_join (Text.areLines_of_forall_isFullLine hlines),
    foldr_consGrouped h]

/-! ## The sections of a plan -/

/-- The section of the excluded headers, if there is one. -/
def excludedSections (names : List String) : List Section :=
  if names.isEmpty then [] else [⟨"Excluded:\n", names.map nameLine⟩]

/-- The sections of the text form. -/
def sections (p : Plan) : List Section :=
  [⟨"Headers:\n", p.headers.map (headerLine p.configHeader)⟩] ++ excludedSections p.excluded ++
    [⟨"#if " ++ p.condition ++ "\n", p.sources.map nameLine⟩, ⟨"#endif\n", []⟩]

/-- What holds of every plan that was made for a manifest. -/
structure WellFormed (p : Plan) : Prop where
  headers_nodup : p.headers.Nodup
  configHeader_mem : p.configHeader ∈ p.headers
  condition_single : '\n' ∉ p.condition.toList

/-- Every name takes up one line, and no header ends in the mark of the configuration
header. -/
structure HasPlainNames (p : Plan) : Prop where
  break_not_mem : ∀ name ∈ p.headers ++ p.sources ++ p.excluded, '\n' ∉ name.toList
  not_marked : ∀ name ∈ p.headers, ¬ " (+ epilogue)".toList <:+ name.toList

theorem join_excludedSections (names : List String) :
    String.join ((excludedSections names).flatMap Section.lines) = excludedSection names := by
  unfold excludedSections excludedSection
  split
  · rfl
  · rw [List.flatMap_singleton, Section.lines, String.join_cons]

theorem join_sections (p : Plan) :
    String.join (p.sections.flatMap Section.lines) = p.toText := by
  -- Lean takes long to derive the equation of `toText`, so the definition is opened without.
  delta toText
  simp only [sections, List.flatMap_append, List.flatMap_cons, List.flatMap_nil,
    Section.lines, String.join_append, String.join_cons, String.join_nil,
    join_excludedSections, List.append_nil, List.cons_append, String.append_empty,
    String.empty_append, String.append_assoc]

theorem headerLine_self (configHeader : String) :
    headerLine configHeader configHeader = "  " ++ configHeader ++ " (+ epilogue)\n" :=
  if_pos rfl

theorem headerLine_of_ne {configHeader header : String} (h : header ≠ configHeader) :
    headerLine configHeader header = nameLine header :=
  if_neg h

/-- The lines of a plan begin and end with fixed texts. -/
theorem isFullLine_between {opening name closing : String} (hopening : '\n' ∉ opening.toList)
    (hname : '\n' ∉ name.toList) (hclosing : Text.IsFullLine closing) :
    Text.IsFullLine (opening ++ name ++ closing) := by
  rw [String.append_assoc]
  exact (hclosing.append_left hname).append_left hopening

theorem isItem_of_name {name closing : String} (hname : '\n' ∉ name.toList)
    (hclosing : Text.IsFullLine closing) : IsItem ("  " ++ name ++ closing) where
  indented := by
    rw [String.append_assoc]
    exact isIndented_append _
  full := isFullLine_between (by decide) hname hclosing

theorem isItem_nameLine {name : String} (h : '\n' ∉ name.toList) : IsItem (nameLine name) :=
  isItem_of_name h Text.isFullLine_break

theorem isItem_headerLine {configHeader name : String} (h : '\n' ∉ name.toList) :
    IsItem (headerLine configHeader name) := by
  by_cases hconfig : name = configHeader
  · have hmark : Text.IsFullLine " (+ epilogue)\n" :=
      ⟨" (+ epilogue)".toList, by decide, by decide⟩
    rw [← hconfig, headerLine_self]
    exact isItem_of_name h hmark
  · rw [headerLine_of_ne hconfig]
    exact isItem_nameLine h

theorem isHeading_headers : IsHeading "Headers:\n" :=
  ⟨by decide, "Headers:".toList, by decide, by decide⟩

theorem isHeading_excluded : IsHeading "Excluded:\n" :=
  ⟨by decide, "Excluded:".toList, by decide, by decide⟩

theorem isHeading_end : IsHeading "#endif\n" :=
  ⟨by decide, "#endif".toList, by decide, by decide⟩

theorem isHeading_condition {condition : String} (h : '\n' ∉ condition.toList) :
    IsHeading ("#if " ++ condition ++ "\n") where
  flush := by
    rw [isIndented, String.append_assoc, String.toList_append]
    rfl
  full := isFullLine_between (by decide) h Text.isFullLine_break

theorem WellFormed.isReadable_of_mem_sections {p : Plan} (h : p.WellFormed)
    (hnames : p.HasPlainNames) : ∀ s ∈ p.sections, s.IsReadable := by
  have hbreak := hnames.break_not_mem
  rw [List.forall_mem_append, List.forall_mem_append] at hbreak
  obtain ⟨⟨hheaders, hsources⟩, hexcluded⟩ := hbreak
  rw [sections, List.forall_mem_append, List.forall_mem_append, List.forall_mem_singleton,
    List.forall_mem_cons, List.forall_mem_singleton]
  refine ⟨⟨⟨isHeading_headers, ?_⟩, ?_⟩, ⟨isHeading_condition h.condition_single, ?_⟩,
    ⟨isHeading_end, List.forall_mem_nil _⟩⟩
  · exact List.forall_mem_map.2 fun name hname => isItem_headerLine (hheaders name hname)
  · unfold excludedSections
    split
    · exact List.forall_mem_nil _
    · exact List.forall_mem_singleton.2 ⟨isHeading_excluded,
        List.forall_mem_map.2 fun name hname => isItem_nameLine (hexcluded name hname)⟩
  · exact List.forall_mem_map.2 fun name hname => isItem_nameLine (hsources name hname)

/-- The sections of a plan with plain names are read back from its text form. -/
theorem WellFormed.sectionsOf_toText {p : Plan} (h : p.WellFormed) (hnames : p.HasPlainNames) :
    sectionsOf p.toText = p.sections := by
  rw [← join_sections, sectionsOf_join (h.isReadable_of_mem_sections hnames)]

example :
    (⟨["x (+ epilogue)", "y"], ["a.c"], [], "y", "A"⟩ : Plan).toText =
      (⟨["x", "y (+ epilogue)"], ["a.c"], [], "x", "A"⟩ : Plan).toText := by
  decide

/-! ## The names in the lines -/

/-- The name in the line of the configuration header. -/
def markedIn? (line : String) : Option String :=
  Text.between? "  " " (+ epilogue)\n" line

/-- The name in the line of any other header or source. -/
def nameIn? (line : String) : Option String :=
  Text.between? "  " "\n" line

/-- The name in the line of a header. -/
def headerIn? (line : String) : Option String :=
  (markedIn? line).or (nameIn? line)

/-- The plan from the lines of its sections, where the condition is in a heading. -/
def ofLines? (headers excluded : List String) (guarded : Section) : Option Plan := do
  let names ← headers.mapM headerIn?
  let sources ← guarded.items.mapM nameIn?
  let excludedNames ← excluded.mapM nameIn?
  let configHeader ← headers.findSome? markedIn?
  let condition ← Text.between? "#if " "\n" guarded.heading
  return ⟨names, sources, excludedNames, configHeader, condition⟩

def ofSections? : List Section → Option Plan
  | [headers, guarded, _] => ofLines? headers.items [] guarded
  | [headers, excluded, guarded, _] => ofLines? headers.items excluded.items guarded
  | _ => none

/-- The plan with the given text form. -/
def ofText? (text : String) : Option Plan :=
  ofSections? (sectionsOf text)

/-- A line carries the mark behind its indentation and a name.  The blank that the mark
begins with is not part of the indentation, so a header that is called `(+ epilogue)` has a
line without the mark. -/
def CarriesMark (line : String) : Prop :=
  ∃ name : String, line = "  " ++ name ++ " (+ epilogue)\n"

theorem nameIn?_nameLine (name : String) : nameIn? (nameLine name) = some name :=
  Text.between?_append "  " name "\n"

theorem markedIn?_headerLine_self (configHeader : String) :
    markedIn? (headerLine configHeader configHeader) = some configHeader := by
  rw [headerLine_self]
  exact Text.between?_append "  " configHeader " (+ epilogue)\n"

/-- The line of a header that does not end in the mark carries the mark only as the line of
the configuration header. -/
theorem carriesMark_headerLine_iff {configHeader header : String}
    (h : ¬ " (+ epilogue)".toList <:+ header.toList) :
    CarriesMark (headerLine configHeader header) ↔ header = configHeader := by
  constructor
  · rintro ⟨name, hline⟩
    by_contra hne
    have hend : " (+ epilogue)\n" = " (+ epilogue)" ++ "\n" := by decide
    rw [headerLine_of_ne hne, nameLine, hend, ← String.append_assoc, String.append_left_inj,
      String.append_assoc, String.append_right_inj] at hline
    exact h ⟨name.toList, by rw [hline, String.toList_append]⟩
  · rintro rfl
    exact ⟨header, headerLine_self header⟩

theorem markedIn?_eq_none_of_not_carriesMark {line : String} (h : ¬ CarriesMark line) :
    markedIn? line = none := by
  rw [Option.eq_none_iff_forall_ne_some]
  exact fun name hname => h ⟨name, Text.between?_eq_some_iff.1 hname⟩

theorem headerIn?_headerLine {configHeader header : String}
    (h : ¬ " (+ epilogue)".toList <:+ header.toList) :
    headerIn? (headerLine configHeader header) = some header := by
  by_cases hconfig : header = configHeader
  · rw [headerIn?, hconfig, markedIn?_headerLine_self, Option.some_or]
  · have hmark := mt (carriesMark_headerLine_iff h).1 hconfig
    rw [headerIn?, markedIn?_eq_none_of_not_carriesMark hmark, Option.none_or,
      headerLine_of_ne hconfig, nameIn?_nameLine]

/-- The configuration header is read back from the only line that carries the mark. -/
theorem WellFormed.findSome?_markedIn? {p : Plan} (h : p.WellFormed)
    (hnames : p.HasPlainNames) :
    (p.headers.map (headerLine p.configHeader)).findSome? markedIn? = some p.configHeader := by
  obtain ⟨before, after, hsplit, hfirst⟩ := List.eq_append_cons_of_mem h.configHeader_mem
  have hbefore : (before.map (headerLine p.configHeader)).findSome? markedIn? = none := by
    rw [List.findSome?_eq_none_iff, List.forall_mem_map]
    intro name hname
    have hne : name ≠ p.configHeader := fun heq => hfirst (heq ▸ hname)
    have hplain := hnames.not_marked name (by simp [hsplit, hname])
    exact markedIn?_eq_none_of_not_carriesMark (mt (carriesMark_headerLine_iff hplain).1 hne)
  rw [hsplit, List.map_append, List.map_cons, List.findSome?_append, hbefore, Option.none_or,
    List.findSome?_cons, markedIn?_headerLine_self]

/-- Among the lines of the headers, the line of the configuration header carries the mark
and no other one does. -/
theorem WellFormed.carriesMark_iff {p : Plan} (h : p.WellFormed) (hnames : p.HasPlainNames)
    {before after : List String} (hsplit : p.headers = before ++ p.configHeader :: after)
    {i : Nat} {line : String}
    (hline : (p.headers.map (headerLine p.configHeader))[i]? = some line) :
    CarriesMark line ↔ i = before.length := by
  rw [List.getElem?_map, Option.map_eq_some_iff] at hline
  obtain ⟨name, hname, rfl⟩ := hline
  rw [carriesMark_headerLine_iff (hnames.not_marked name (List.mem_of_getElem? hname))]
  have hconfig : p.headers[before.length]? = some p.configHeader := by
    rw [hsplit, List.getElem?_append_right (Nat.le_refl _), Nat.sub_self]
    rfl
  constructor
  · rintro rfl
    have hlt := (List.getElem?_eq_some_iff.1 hname).1
    exact (List.getElem?_inj hlt h.headers_nodup).1 (hname.trans hconfig.symm)
  · rintro rfl
    rw [hname, Option.some.injEq] at hconfig
    exact hconfig

theorem WellFormed.ofLines?_eq_some {p : Plan} (h : p.WellFormed) (hnames : p.HasPlainNames) :
    ofLines? (p.headers.map (headerLine p.configHeader)) (p.excluded.map nameLine)
      ⟨"#if " ++ p.condition ++ "\n", p.sources.map nameLine⟩ = some p := by
  have hheaders : (p.headers.map (headerLine p.configHeader)).mapM headerIn? = some p.headers :=
    Text.mapM_map_eq_some fun name hname => headerIn?_headerLine (hnames.not_marked name hname)
  have hplain : ∀ names : List String, (names.map nameLine).mapM nameIn? = some names :=
    fun names => Text.mapM_map_eq_some fun name _ => nameIn?_nameLine name
  rw [ofLines?, hheaders, hplain, hplain, h.findSome?_markedIn? hnames, Text.between?_append]
  rfl

/-- A plan with plain names is read back from its text form. -/
theorem WellFormed.ofText?_toText {p : Plan} (h : p.WellFormed) (hnames : p.HasPlainNames) :
    ofText? p.toText = some p := by
  have hlines := h.ofLines?_eq_some hnames
  rw [ofText?, h.sectionsOf_toText hnames, sections, excludedSections]
  by_cases hempty : p.excluded = []
  · rw [hempty] at hlines ⊢
    exact hlines
  · rw [if_neg (by simpa using hempty)]
    exact hlines

end Plan
end Amalgam
