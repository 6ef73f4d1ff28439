import Amalgam.Proofs.Document.Lines
import Amalgam.Proofs.Text.Delimiters

namespace Amalgam

/-!
# Reading the files out of a document

A document whose registry is known can be taken apart again: drop the prologue, cut
the lines at the expected markers and at the lines around the implementation
section, drop the epilogue behind the configuration header, and unwrap the comments
that relocation made.  This gives back every file up to its normal form.

Blanks behind a local include and a missing last line feed are NOT recovered; the
normal form is what is left of a file without them.  Nor is there a way back when
a file imitates a delimiter or a relocated line, which is what `IsSeparable` rules
out.
-/

/-! ## Normal forms -/

/-- A local include is cut of its trailing blanks and ends in a line feed. -/
def normalLine (stem line : String) : String :=
  if Include.isLocal stem line then String.ofList (Text.trimEnd line.toList) ++ "\n"
  else line

/-- A text with normal lines, closed. -/
def normalForm (stem content : String) : String :=
  Text.close (String.join ((Text.linesOf content).map (normalLine stem)))

theorem normalForm_eq_join (stem content : String) :
    normalForm stem content =
      String.join ((Text.linesOf content).map fun line =>
        Text.close (normalLine stem line)) := by
  have hcontent := Text.areLines_linesOf content
  have hlines : Text.AreLines ((Text.linesOf content).map (normalLine stem)) := by
    refine hcontent.map fun line hline => ?_
    obtain ⟨body, hbody, hchars⟩ := hcontent.exists_body line hline
    unfold normalLine
    split
    · refine Or.inl (Text.isFullLine_append_break ?_)
      simpa using Text.break_not_mem_trimEnd hbody hchars
    · exact Or.inr rfl
  rw [normalForm, Text.close_join hlines, List.map_map]
  rfl

/-! ## Unwrapping comments -/

/-- The text in a line that is one comment. -/
def commented? (line : String) : Option String :=
  (dropLead? "/* " line).bind (dropTail? " */\n")

theorem commented?_eq_some_iff {line text : String} :
    commented? line = some text ↔ line = "/* " ++ text ++ " */\n" :=
  Text.between?_eq_some_iff

/-- A comment around a local include is unwrapped. -/
def restoreLine (stem line : String) : String :=
  match commented? line with
  | none => line
  | some text => if Include.isLocal stem text then text ++ "\n" else line

/-- Unwrapping undoes relocation on every line that does not imitate its result. -/
theorem restoreLine_close_relocate {stem line : String}
    (h : ∀ text, Include.isLocal stem text = true →
      Text.close line ≠ "/* " ++ text ++ " */\n") :
    restoreLine stem (Text.close (Include.relocate stem line)) =
      Text.close (normalLine stem line) := by
  cases hlocal : Include.isLocal stem line with
  | true =>
      let text := String.ofList (Text.trimEnd line.toList)
      have hcomment : Include.commentOut line = "/* " ++ text ++ " */\n" := rfl
      -- Without its blanks the line is still a local include.
      have hinner : Include.isLocal stem text = true := by
        rw [Include.isLocal_trimEnd, hlocal]
      have hnormal : normalLine stem line = text ++ "\n" := if_pos hlocal
      rw [Include.relocate_of_isLocal hlocal,
        Text.close_of_isClosed (Include.isClosed_commentOut line), restoreLine,
        commented?_eq_some_iff.2 hcomment, hnormal,
        Text.close_of_isClosed (Text.isClosed_append_break text)]
      exact if_pos hinner
  | false =>
      have hnormal : normalLine stem line = line := if_neg (by simp [hlocal])
      rw [Include.relocate_of_not_isLocal hlocal, hnormal, restoreLine]
      -- The line is copied, so it must not look like a comment from relocation.
      cases hcommented : commented? (Text.close line) with
      | none => rfl
      | some text =>
          have hinner : ¬ Include.isLocal stem text = true := fun htext =>
            h text htext (commented?_eq_some_iff.1 hcommented)
          exact if_neg hinner

/-! ## Cutting at marks -/

/-- The lines in front of the first occurrence of a mark, and the lines behind it. -/
def cutAt? (mark : String) : List String → Option (List String × List String)
  | [] => none
  | line :: lines =>
      if line = mark then some ([], lines)
      else (cutAt? mark lines).map fun cut => (line :: cut.1, cut.2)

/-- The lines in front of each of several marks in order, and the lines behind the
last mark. -/
def cutAtMarks? : List String → List String → Option (List (List String) × List String)
  | [], lines => some ([], lines)
  | mark :: marks, lines =>
      (cutAt? mark lines).bind fun cut =>
        (cutAtMarks? marks cut.2).map fun rest => (cut.1 :: rest.1, rest.2)

theorem cutAt?_append {mark : String} {front : List String} (h : mark ∉ front)
    (rest : List String) : cutAt? mark (front ++ mark :: rest) = some (front, rest) := by
  induction front with
  | nil => exact if_pos rfl
  | cons line front ih =>
      obtain ⟨hne, hfront⟩ := not_or.1 (mt List.mem_cons.2 h)
      rw [List.cons_append, cutAt?, if_neg (Ne.symm hne), ih hfront]
      rfl

/-- Sections behind marks can be told apart when no line of a section is a mark. -/
theorem cutAtMarks?_flatMap {α : Type} {mark : α → String} {body : α → List String}
    {marks : List String} {stop : String} (hstop : stop ∈ marks) {xs : List α}
    (hmark : ∀ x ∈ xs, mark x ∈ marks)
    (hbody : ∀ x ∈ xs, ∀ line ∈ body x, line ∉ marks) {front : List String}
    (hfront : ∀ line ∈ front, line ∉ marks) (rest : List String) :
    cutAtMarks? (xs.map mark ++ [stop])
        (front ++ (xs.flatMap (fun x => mark x :: body x) ++ stop :: rest)) =
      some (front :: xs.map body, rest) := by
  induction xs generalizing front with
  | nil =>
      have hstopFront : stop ∉ front := fun hmem => hfront stop hmem hstop
      rw [List.map_nil, List.nil_append, List.flatMap_nil, List.nil_append, cutAtMarks?,
        cutAt?_append hstopFront]
      rfl
  | cons x xs ih =>
      obtain ⟨hx, hxs⟩ := List.forall_mem_cons.1 hmark
      obtain ⟨hbodyX, hbodyXs⟩ := List.forall_mem_cons.1 hbody
      have hmarkFront : mark x ∉ front := fun hmem => hfront (mark x) hmem hx
      -- The section of `x` is what stands in front of the next mark.
      rw [List.flatMap_cons, List.cons_append, List.cons_append, List.append_assoc,
        List.map_cons, List.cons_append, cutAtMarks?, cutAt?_append hmarkFront,
        Option.bind_some, ih hxs hbodyXs hbodyX]
      rfl

/-! ## Files that can be told apart -/

theorem comment_inj {text other : String}
    (h : "/* " ++ text ++ " */\n" = "/* " ++ other ++ " */\n") : text = other := by
  have htext := commented?_eq_some_iff.2 h.symm
  have hother := commented?_eq_some_iff.2 (Eq.refl ("/* " ++ other ++ " */\n"))
  rw [htext, Option.some.injEq] at hother
  exact hother

/-- The comment around a local include is not a marker, because the text in a marker
does not begin with a directive. -/
theorem commentOut_ne_markerLine {stem line : String}
    (h : Include.isLocal stem line = true) (name : String) :
    Include.commentOut line ≠ markerLine name := by
  have hmarker : markerLine name = "/* " ++ ("=== " ++ name ++ " ===") ++ " */\n" := by
    have hstart : "/* === " = "/* " ++ "=== " := by decide
    have hend : " === */\n" = " ===" ++ " */\n" := by decide
    rw [markerLine, hstart, hend]
    simp only [String.append_assoc]
  intro heq
  rw [hmarker, Include.commentOut] at heq
  have htext := comment_inj heq
  have hlocal : Include.isLocal stem ("=== " ++ name ++ " ===") = true := by
    rw [← htext, Include.isLocal_trimEnd, h]
  have hchars : ("=== " ++ name ++ " ===").toList =
      '=' :: '=' :: '=' :: ' ' :: (name ++ " ===").toList := by
    rw [String.append_assoc, String.toList_append]
    rfl
  rw [Include.isLocal_eq_false_of_not_prefix hchars (by decide)
    (by simp [Include.opening])] at hlocal
  contradiction

namespace Manifest

variable {m : Manifest} {store : Store} {headers : List String}

/-- The lines at which a document with the given headers is cut. -/
def marks (m : Manifest) (headers : List String) : List String :=
  (headers ++ m.sources).map markerLine ++ [m.openingLine, m.closingLine]

/-- No file and no epilogue imitates a mark or a relocated line. -/
structure IsSeparable (m : Manifest) (store : Store) (headers : List String) :
    Prop where
  break_not_mem : ∀ name ∈ headers ++ m.sources, '\n' ∉ name.toList
  line_not_mark : ∀ name ∈ headers ++ m.sources,
    ∀ line ∈ Text.linesOf (store.textOf name), Text.close line ∉ m.marks headers
  line_not_commented : ∀ name ∈ headers ++ m.sources,
    ∀ line ∈ Text.linesOf (store.textOf name), ∀ text,
      Include.isLocal m.stem text = true → Text.close line ≠ "/* " ++ text ++ " */\n"
  epilogue_not_mark : ∀ line ∈ Text.linesOf (m.epilogue ++ "\n"), line ∉ m.marks headers

theorem commentOut_not_mem_marks {line : String}
    (h : Include.isLocal m.stem line = true) :
    Include.commentOut line ∉ m.marks headers := by
  have hhead : (Include.commentOut line).toList.head? = some '/' := by
    rw [Include.commentOut, String.append_assoc, String.toList_append]
    rfl
  rw [marks, List.mem_append, not_or]
  constructor
  · rw [List.mem_map]
    rintro ⟨name, -, heq⟩
    exact commentOut_ne_markerLine h name heq.symm
  · intro hmem
    rw [List.mem_cons, List.mem_singleton] at hmem
    -- A comment and a directive differ in the first character.
    rcases hmem with hopening | hclosing
    · rw [hopening, openingLine, String.append_assoc, String.toList_append] at hhead
      exact absurd hhead (by simp)
    · rw [hclosing, closingLine, String.append_assoc, String.toList_append] at hhead
      exact absurd hhead (by simp)

/-- No relocated line is a mark. -/
theorem IsSeparable.relocated_not_mark (h : m.IsSeparable store headers) {name : String}
    (hname : name ∈ headers ++ m.sources) :
    ∀ line ∈ relocatedLines m.stem (store.textOf name), line ∉ m.marks headers := by
  intro line hline
  obtain ⟨original, horiginal, rfl⟩ := List.mem_map.1 hline
  cases hlocal : Include.isLocal m.stem original with
  | true =>
      rw [Include.relocate_of_isLocal hlocal,
        Text.close_of_isClosed (Include.isClosed_commentOut original)]
      exact commentOut_not_mem_marks hlocal
  | false =>
      rw [Include.relocate_of_not_isLocal hlocal]
      exact h.line_not_mark name hname original horiginal

/-! ## The lines between the marks -/

/-- The lines of a header's section behind its marker. -/
def sectionLines (m : Manifest) (store : Store) (name : String) : List String :=
  relocatedLines m.stem (store.textOf name) ++
    if name = m.configHeader then Text.linesOf (m.epilogue ++ "\n") else []

/-- The lines of a document behind the prologue. -/
def bodyLines (m : Manifest) (store : Store) (headers : List String) : List String :=
  headers.flatMap (fun name => markerLine name :: m.sectionLines store name) ++
    m.openingLine ::
      (m.sources.flatMap (fun name =>
        markerLine name :: relocatedLines m.stem (store.textOf name)) ++ [m.closingLine])

theorem join_sectionLines (m : Manifest) (store : Store) (name : String) :
    String.join (m.sectionLines store name) =
      String.join (relocatedLines m.stem (store.textOf name)) ++
        if name = m.configHeader then m.epilogue ++ "\n" else "" := by
  rw [sectionLines, String.join_append]
  split
  · rw [Text.join_linesOf]
  · rfl

theorem documentText_eq_join (m : Manifest) (store : Store) (headers : List String) :
    m.documentText store headers =
      m.prologue ++ String.join (m.bodyLines store headers) := by
  have hheaders : (fun name => String.join (markerLine name :: m.sectionLines store name)) =
      m.headerSection store := by
    funext name
    rw [String.join_cons, join_sectionLines, headerSection, Store.blockOf, block_eq_join,
      String.join_cons, String.append_assoc]
  have hsources : (fun name => String.join
      (markerLine name :: relocatedLines m.stem (store.textOf name))) =
      store.blockOf m.stem := by
    funext name
    rw [Store.blockOf, block_eq_join]
  rw [bodyLines, documentText, String.join_append, String.join_cons, String.join_append,
    join_flatMap, join_flatMap, hheaders, hsources, String.join_cons, String.join_nil,
    String.append_empty]
  simp only [String.append_assoc]

theorem isFullLine_of_mem_sectionLines {name line : String}
    (h : line ∈ m.sectionLines store name) : Text.IsFullLine line := by
  rcases List.mem_append.1 h with hrelocated | hepilogue
  · exact isFullLine_of_mem_relocatedLines hrelocated
  · split at hepilogue
    · have hclosed := Text.isClosed_append_break m.epilogue
      exact Text.isFullLine_of_mem_linesOf hclosed line hepilogue
    · contradiction

/-- The lines are what the text behind the prologue is cut into. -/
theorem Valid.linesOf_join_bodyLines (hvalid : m.Valid)
    (h : m.IsSeparable store headers) :
    Text.linesOf (String.join (m.bodyLines store headers)) = m.bodyLines store headers := by
  obtain ⟨hheaders, hsources⟩ := List.forall_mem_append.1 h.break_not_mem
  apply Text.linesOf_join
  apply Text.areLines_of_forall_isFullLine
  rw [bodyLines, List.forall_mem_append, List.forall_mem_cons, List.forall_mem_append,
    List.forall_mem_singleton]
  refine ⟨?_, hvalid.isFullLine_openingLine, ?_, hvalid.isFullLine_closingLine⟩
  · rw [List.forall_mem_flatMap]
    intro name hname
    exact List.forall_mem_cons.2 ⟨isFullLine_markerLine (hheaders name hname),
      fun line hline => isFullLine_of_mem_sectionLines hline⟩
  · rw [List.forall_mem_flatMap]
    intro name hname
    exact List.forall_mem_cons.2 ⟨isFullLine_markerLine (hsources name hname),
      fun line hline => isFullLine_of_mem_relocatedLines hline⟩

/-! ## Recovering the files -/

theorem marker_mem_marks {name : String} (h : name ∈ headers ++ m.sources) :
    markerLine name ∈ m.marks headers :=
  List.mem_append_left _ (List.mem_map_of_mem h)

theorem openingLine_mem_marks (m : Manifest) (headers : List String) :
    m.openingLine ∈ m.marks headers :=
  List.mem_append_right _ List.mem_cons_self

theorem closingLine_mem_marks (m : Manifest) (headers : List String) :
    m.closingLine ∈ m.marks headers :=
  List.mem_append_right _ (List.mem_cons_of_mem _ List.mem_cons_self)

theorem IsSeparable.section_not_mark (h : m.IsSeparable store headers) {name : String}
    (hname : name ∈ headers ++ m.sources) :
    ∀ line ∈ m.sectionLines store name, line ∉ m.marks headers := by
  rw [sectionLines, List.forall_mem_append]
  refine ⟨h.relocated_not_mark hname, fun line hline => ?_⟩
  split at hline
  · exact h.epilogue_not_mark line hline
  · contradiction

/-- The text of a header's section without the epilogue. -/
def dropEpilogue? (m : Manifest) (name text : String) : Option String :=
  if name = m.configHeader then dropTail? (m.epilogue ++ "\n") text else some text

theorem dropEpilogue?_join_sectionLines (m : Manifest) (store : Store) (name : String) :
    m.dropEpilogue? name (String.join (m.sectionLines store name)) =
      some (String.join (relocatedLines m.stem (store.textOf name))) := by
  rw [dropEpilogue?, join_sectionLines]
  split
  · exact dropTail?_eq_some_iff.2 rfl
  · rw [String.append_empty]

/-- A text with the comments around local includes unwrapped. -/
def restore (m : Manifest) (text : String) : String :=
  String.join ((Text.linesOf text).map (restoreLine m.stem))

theorem IsSeparable.restore_join_relocatedLines (h : m.IsSeparable store headers)
    {name : String} (hname : name ∈ headers ++ m.sources) :
    m.restore (String.join (relocatedLines m.stem (store.textOf name))) =
      normalForm m.stem (store.textOf name) := by
  have hlines : Text.AreLines (relocatedLines m.stem (store.textOf name)) :=
    Text.areLines_of_forall_isFullLine fun line hline =>
      isFullLine_of_mem_relocatedLines hline
  have hrestored : (relocatedLines m.stem (store.textOf name)).map (restoreLine m.stem) =
      (Text.linesOf (store.textOf name)).map fun line =>
        Text.close (normalLine m.stem line) := by
    rw [relocatedLines, List.map_map]
    refine List.map_congr_left fun line hline => ?_
    rw [Function.comp_apply]
    exact restoreLine_close_relocate (h.line_not_commented name hname line hline)
  rw [restore, Text.linesOf_join hlines, normalForm_eq_join, hrestored]

/-- The sections of the headers and of the sources, as lines. -/
def sections? (m : Manifest) (headers : List String) (document : ByteArray) :
    Option (List (List String) × List (List String)) :=
  (String.fromUTF8? document).bind fun text =>
    (dropLead? m.prologue text).bind fun body =>
      (cutAtMarks? (headers.map markerLine ++ [m.openingLine]) (Text.linesOf body)).bind
        fun front =>
          (cutAtMarks? (m.sources.map markerLine ++ [m.closingLine]) front.2).map
            fun back => (front.1.tail, back.1.tail)

theorem IsSeparable.sections?_documentText (h : m.IsSeparable store headers)
    (hvalid : m.Valid) :
    m.sections? headers (m.documentText store headers).toUTF8 =
      some (headers.map (m.sectionLines store),
        m.sources.map fun name => relocatedLines m.stem (store.textOf name)) := by
  have hlead : dropLead? m.prologue (m.documentText store headers) =
      some (String.join (m.bodyLines store headers)) :=
    dropLead?_eq_some_iff.2 (documentText_eq_join m store headers)
  have hheader : ∀ name ∈ headers, name ∈ headers ++ m.sources := fun name hname =>
    List.mem_append_left _ hname
  have hsource : ∀ name ∈ m.sources, name ∈ headers ++ m.sources := fun name hname =>
    List.mem_append_right _ hname
  have hfront : ∀ rest, cutAtMarks? (headers.map markerLine ++ [m.openingLine])
      (headers.flatMap (fun name => markerLine name :: m.sectionLines store name) ++
        m.openingLine :: rest) = some ([] :: headers.map (m.sectionLines store), rest) :=
    cutAtMarks?_flatMap (openingLine_mem_marks m headers)
      (fun name hname => marker_mem_marks (hheader name hname))
      (fun name hname => h.section_not_mark (hheader name hname)) (List.forall_mem_nil _)
  have hback : ∀ rest, cutAtMarks? (m.sources.map markerLine ++ [m.closingLine])
      (m.sources.flatMap (fun name =>
          markerLine name :: relocatedLines m.stem (store.textOf name)) ++
        m.closingLine :: rest) =
        some ([] :: m.sources.map (fun name => relocatedLines m.stem (store.textOf name)),
          rest) :=
    cutAtMarks?_flatMap (closingLine_mem_marks m headers)
      (fun name hname => marker_mem_marks (hsource name hname))
      (fun name hname => h.relocated_not_mark (hsource name hname)) (List.forall_mem_nil _)
  rw [sections?, fromUTF8?_toUTF8, Option.bind_some, hlead, Option.bind_some,
    hvalid.linesOf_join_bodyLines h, bodyLines, hfront, Option.bind_some, hback]
  rfl

/-- A header with its text, out of the lines of its section. -/
def recoverHeader? (m : Manifest) (name : String) (lines : List String) :
    Option (String × String) :=
  (m.dropEpilogue? name (String.join lines)).map fun text => (name, m.restore text)

/-- A source with its text, out of the lines of its section. -/
def recoverSource (m : Manifest) (name : String) (lines : List String) :
    String × String :=
  (name, m.restore (String.join lines))

/-- The headers and the sources with their texts, out of a document with the given
headers. -/
def recover? (m : Manifest) (headers : List String) (document : ByteArray) :
    Option (List (String × String)) :=
  (m.sections? headers document).bind fun sections =>
    ((headers.zip sections.1).mapM fun entry => m.recoverHeader? entry.1 entry.2).map
      fun files =>
        files ++ (m.sources.zip sections.2).map fun entry => m.recoverSource entry.1 entry.2

theorem IsSeparable.mapM_recoverHeader? (h : m.IsSeparable store headers) :
    (headers.zip (headers.map (m.sectionLines store))).mapM
        (fun entry => m.recoverHeader? entry.1 entry.2) =
      some (headers.map fun name => (name, normalForm m.stem (store.textOf name))) := by
  have hheader : (fun name => m.recoverHeader? name (m.sectionLines store name)) =
      fun name => pure
        (name, m.restore (String.join (relocatedLines m.stem (store.textOf name)))) := by
    funext name
    rw [recoverHeader?, dropEpilogue?_join_sectionLines]
    rfl
  rw [← List.map_prod_left_eq_zip, List.mapM_map]
  show headers.mapM (fun name => m.recoverHeader? name (m.sectionLines store name)) = _
  rw [hheader, List.mapM_pure]
  refine congrArg some (List.map_congr_left fun name hname => ?_)
  rw [h.restore_join_relocatedLines (List.mem_append_left _ hname)]

theorem IsSeparable.map_recoverSource (h : m.IsSeparable store headers) :
    (m.sources.zip (m.sources.map fun name =>
        relocatedLines m.stem (store.textOf name))).map
        (fun entry => m.recoverSource entry.1 entry.2) =
      m.sources.map fun name => (name, normalForm m.stem (store.textOf name)) := by
  rw [← List.map_prod_left_eq_zip, List.map_map]
  refine List.map_congr_left fun name hname => ?_
  rw [Function.comp_apply, recoverSource,
    h.restore_join_relocatedLines (List.mem_append_right _ hname)]

/-- The files come back in their normal forms. -/
theorem IsSeparable.recover?_documentText (h : m.IsSeparable store headers)
    (hvalid : m.Valid) :
    m.recover? headers (m.documentText store headers).toUTF8 =
      some ((headers ++ m.sources).map fun name =>
        (name, normalForm m.stem (store.textOf name))) := by
  rw [recover?, h.sections?_documentText hvalid, Option.bind_some, h.mapM_recoverHeader?,
    Option.map_some, h.map_recoverSource, List.map_append]

/-- A rendered document gives back every file in its normal form, provided that no
file imitates a mark or a relocated line.  So the document and its registry determine
the normal forms of the files. -/
theorem recover?_document_of_render {a : Amalgamation} (h : m.render store = .ok a)
    (hseparable : m.IsSeparable store a.registry.headers) :
    (∀ name ∈ a.registry.headers ++ m.sources, store name = .ok (store.textOf name)) ∧
    m.recover? a.registry.headers a.document =
      some ((a.registry.headers ++ m.sources).map fun name =>
        (name, normalForm m.stem (store.textOf name))) ∧
    ∀ (other : Store) (b : Amalgamation), m.render other = .ok b →
      m.IsSeparable other b.registry.headers →
      b.registry = a.registry → b.document = a.document →
      ∀ name ∈ a.registry.headers ++ m.sources,
        normalForm m.stem (other.textOf name) = normalForm m.stem (store.textOf name) := by
  obtain ⟨hvalid, -, hread, -⟩ := render_eq_ok_iff.1 h
  have hrecover := hseparable.recover?_documentText hvalid
  rw [← document_eq_of_render h] at hrecover
  refine ⟨fun name hname => (hread name hname).eq, hrecover, ?_⟩
  intro other b hother hotherSeparable hregistry hdocument name hname
  -- Both stores are read out of the same document with the same headers.
  have hotherRecover := hotherSeparable.recover?_documentText hvalid
  rw [← document_eq_of_render hother, hregistry, hdocument, hrecover, Option.some.injEq,
    List.map_inj_left] at hotherRecover
  exact (Prod.mk.inj (hotherRecover name hname)).2.symm

/-- A comment that looks like a relocated line does not hurt when its text is not a
local include. -/
theorem isSeparable_sample : sample.IsSeparable Store.sample sampleRegistry.headers where
  break_not_mem := by decide
  line_not_mark := by decide +kernel
  epilogue_not_mark := by decide +kernel
  line_not_commented := by
    have hcomments : ∀ name ∈ sampleRegistry.headers ++ sample.sources,
        ∀ line ∈ Text.linesOf (Store.sample.textOf name),
          ∀ text ∈ commented? (Text.close line), Include.isLocal sample.stem text = false := by
      decide +kernel
    intro name hname line hline text hlocal hline'
    have htext := hcomments name hname line hline text (commented?_eq_some_iff.2 hline')
    rw [htext] at hlocal
    exact Bool.false_ne_true hlocal

theorem recover?_document_sample :
    sample.render Store.sample = .ok sampleAmalgamation ∧
    sample.IsSeparable Store.sample sampleRegistry.headers ∧
    sample.recover? sampleRegistry.headers sampleAmalgamation.document =
      some
        [("cfg.h", "#define API\n#include \"far.h\"\n"),
         ("near.h", ""),
         ("tail.h", "int tail;\n"),
         ("b.c",
          "#include \"cfg.h\"\n  #include \"near.h\"\n#include \"skip.h\"\nint b;\n"),
         ("a.c", "/* near */\n#include \"near.h\"\n#include \"tail.h\nint a;\n")] := by
  obtain ⟨-, hrecover, -⟩ := recover?_document_of_render render_sample_eq_ok isSeparable_sample
  refine ⟨render_sample_eq_ok, isSeparable_sample, hrecover.trans ?_⟩
  decide +kernel

end Manifest
end Amalgam
