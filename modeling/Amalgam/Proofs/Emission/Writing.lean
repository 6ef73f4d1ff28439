import Amalgam.Emission
import Amalgam.Proofs.Sequencing
import Amalgam.Proofs.Store.Reading

namespace Amalgam

/-!
# What an emitter writes

Into a destination without a limit every step of an emitter succeeds, appends
one fixed text and adds fixed amounts to the counters.  The only thing that can
stop the emission of a document is a file that cannot be read, and the parts
before that file are written in full.

Destinations that run full are not treated here.
-/

/-! ## Counters -/

namespace Stats

/-- Counters are added one by one. -/
instance : Add Stats where
  add s t :=
    { headers := s.headers + t.headers
      sources := s.sources + t.sources
      commentedOut := s.commentedOut + t.commentedOut
      lines := s.lines + t.lines }

instance : Zero Stats where
  zero := {}

@[simp]
theorem add_zero (s : Stats) : s + 0 = s := rfl

@[simp]
theorem zero_add (s : Stats) : 0 + s = s := by
  obtain ⟨headers, sources, commentedOut, lines⟩ := s
  show Stats.mk (0 + headers) (0 + sources) (0 + commentedOut) (0 + lines) = _
  simp only [Nat.zero_add]

/-- The counters with the line feeds of a text as their lines. -/
def withLinesOf (s : Stats) (text : String) : Stats :=
  { s with lines := Text.countBreaks text }

theorem add_withLinesOf (s t u : Stats) (text other : String) :
    s + t.withLinesOf text + u.withLinesOf other =
      s + (t + u).withLinesOf (text ++ other) := by
  show Stats.mk _ _ _ _ = Stats.mk _ _ _ _
  rw [Stats.mk.injEq]
  refine ⟨Nat.add_assoc _ _ _, Nat.add_assoc _ _ _, Nat.add_assoc _ _ _, ?_⟩
  show s.lines + Text.countBreaks text + Text.countBreaks other =
    s.lines + Text.countBreaks (text ++ other)
  rw [Text.countBreaks_append, Nat.add_assoc]

end Stats

namespace Emitter

/-- The emitter after a text has been written in full.  The line feeds of the text
count as lines; `gain` tells what the other counters gain. -/
def extend (e : Emitter) (text : String) (gain : Stats) : Emitter :=
  ⟨{ e.sink with bytes := e.sink.bytes ++ text.toUTF8 },
    e.stats + gain.withLinesOf text⟩

@[simp]
theorem limit_extend (e : Emitter) (text : String) (gain : Stats) :
    (e.extend text gain).sink.limit = e.sink.limit := rfl

theorem extend_empty (e : Emitter) : e.extend "" 0 = e := by
  have hbytes : e.sink.bytes ++ "".toUTF8 = e.sink.bytes := ByteArray.append_empty
  rw [extend, hbytes]
  rfl

theorem extend_extend (e : Emitter) (text other : String) (gain gain' : Stats) :
    (e.extend text gain).extend other gain' = e.extend (text ++ other) (gain + gain') := by
  have hbytes : (text ++ other).toUTF8 = text.toUTF8 ++ other.toUTF8 :=
    String.toByteArray_append
  simp only [extend, Stats.add_withLinesOf, hbytes, ByteArray.append_assoc]

end Emitter

/-! ## The block of a file -/

/-- The line feed that emitted lines need when the last of them lacks its own. -/
def closingBreak (emitted : List String) : String :=
  match emitted.getLast? with
  | none => ""
  | some last => if Text.isTerminated last then "" else "\n"

/-- The marker of a file, its relocated lines, and a line feed if the last emitted
line lacks one. -/
def InputFile.block (stem : String) (file : InputFile) : String :=
  let emitted := file.lines.map (Include.relocate stem)
  markerLine file.name ++ String.join emitted ++ closingBreak emitted

/-- The number of local includes among lines. -/
def countLocal (stem : String) (lines : List String) : Nat :=
  lines.countP (Include.isLocal stem)

theorem closingBreak_map_relocate (stem : String) (lines : List String) :
    closingBreak (lines.map (Include.relocate stem)) =
      if needsBreak stem lines then "\n" else "" := by
  rw [closingBreak, needsBreak, List.getLast?_map]
  cases lines.getLast? with
  | none => rfl
  | some last =>
      rw [Option.map_some]
      cases hlast : Text.isTerminated (Include.relocate stem last) with
      | true => simp [hlast]
      | false => simp [hlast]

namespace Emitter

variable {e e' : Emitter} {stem : String}

theorem addText_of_unlimited (h : e.sink.limit = none) (text : String) :
    addText text e = .ok () (e.extend text 0) := by
  obtain ⟨⟨bytes, limit, refusesFlush⟩, stats⟩ := e
  cases h
  rfl

/-- A line is counted when it is a local include, and is written relocated. -/
theorem addLine_eq (stem line : String) :
    addLine stem line = (do
      if Include.isLocal stem line then countCommentedOut
      addText (Include.relocate stem line)) := by
  unfold addLine Include.relocate Include.replacement?
  cases Include.isLocal stem line with
  | true => rfl
  | false => rfl

theorem addLine_of_unlimited (h : e.sink.limit = none) (line : String) :
    addLine stem line e =
      .ok () (e.extend (Include.relocate stem line)
        { commentedOut := countLocal stem [line] }) := by
  cases hlocal : Include.isLocal stem line with
  | false =>
      have hline : addLine stem line = addText (Include.relocate stem line) := by
        rw [addLine_eq, hlocal]
        rfl
      have hcount : countLocal stem [line] = 0 := by simp [countLocal, hlocal]
      rw [hline, addText_of_unlimited h, hcount]
      rfl
  | true =>
      have hline : addLine stem line =
          (do countCommentedOut; addText (Include.relocate stem line)) := by
        rw [addLine_eq, hlocal]
        rfl
      have hcount : countLocal stem [line] = 1 := by simp [countLocal, hlocal]
      have hcounted : countCommentedOut e = .ok () { e with
          stats := { e.stats with commentedOut := e.stats.commentedOut + 1 } } := rfl
      rw [hline, hcount, bind_of_ok hcounted]
      exact addText_of_unlimited (by exact h) _

theorem addLines_of_unlimited (h : e.sink.limit = none) (lines : List String) :
    addLines stem lines e =
      .ok () (e.extend (String.join (lines.map (Include.relocate stem)))
        { commentedOut := countLocal stem lines }) := by
  induction lines generalizing e with
  | nil =>
      show EStateM.Result.ok () e = .ok () (e.extend "" 0)
      rw [extend_empty]
  | cons line lines ih =>
      have hcount : countLocal stem (line :: lines) =
          countLocal stem [line] + countLocal stem lines := by
        rw [countLocal, countLocal, countLocal, List.countP_cons, List.countP_singleton]
        omega
      rw [addLines, bind_of_ok (addLine_of_unlimited h line), ih (by simpa using h),
        extend_extend, List.map_cons, String.join_cons, hcount]
      rfl

theorem addBlock_of_unlimited (h : e.sink.limit = none) (file : InputFile) :
    addBlock stem file e =
      .ok () (e.extend (file.block stem)
        { commentedOut := countLocal stem file.lines }) := by
  rw [addBlock, bind_of_ok (addText_of_unlimited h _),
    bind_of_ok (addLines_of_unlimited (by simpa using h) _), extend_extend,
    InputFile.block, closingBreak_map_relocate, Stats.zero_add]
  cases needsBreak stem file.lines with
  | true =>
      rw [if_pos rfl, if_pos rfl, addText_of_unlimited (by simpa using h), extend_extend,
        Stats.add_zero]
  | false =>
      rw [if_neg Bool.false_ne_true, if_neg Bool.false_ne_true, String.append_empty]
      rfl

theorem addHeader_of_unlimited (h : e.sink.limit = none) (file : InputFile) :
    addHeader stem file e =
      .ok () (e.extend (file.block stem)
        { headers := 1, commentedOut := countLocal stem file.lines }) := by
  rw [addHeader, bind_of_ok (addBlock_of_unlimited h file)]
  rfl

theorem addSource_of_unlimited (h : e.sink.limit = none) (file : InputFile) :
    addSource stem file e =
      .ok () (e.extend (file.block stem)
        { sources := 1, commentedOut := countLocal stem file.lines }) := by
  rw [addSource, bind_of_ok (addBlock_of_unlimited h file)]
  rfl

end Emitter

/-! ## The parts of a document -/

/-- The block of a named file of a store. -/
def Store.blockOf (store : Store) (stem name : String) : String :=
  (InputFile.ofContent name (store.textOf name)).block stem

/-- The number of local includes in a named file of a store. -/
def Store.localsOf (store : Store) (stem name : String) : Nat :=
  countLocal stem (Text.linesOf (store.textOf name))

namespace Part

/-- Whether the file of a part, if it has one, can be read. -/
def Readable (store : Store) : Part → Prop
  | .text _ => True
  | .header name => store.Readable name
  | .source name => store.Readable name

/-- The text that a part contributes. -/
def textIn (store : Store) (stem : String) : Part → String
  | .text content => content
  | .header name => store.blockOf stem name
  | .source name => store.blockOf stem name

/-- What a part adds to the counters, its lines apart. -/
def gainIn (store : Store) (stem : String) : Part → Stats
  | .text _ => 0
  | .header name => { headers := 1, commentedOut := store.localsOf stem name }
  | .source name => { sources := 1, commentedOut := store.localsOf stem name }

end Part

section Parts

variable {store : Store} {stem : String} {e e' : Emitter}

theorem writePart_of_readable (h : e.sink.limit = none) {part : Part}
    (hread : part.Readable store) :
    writePart store stem part e =
      .ok () (e.extend (part.textIn store stem) (part.gainIn store stem)) := by
  cases part with
  | text content => exact Emitter.addText_of_unlimited h content
  | header name =>
      rw [writePart, Store.Readable.read hread]
      exact Emitter.addHeader_of_unlimited h _
  | source name =>
      rw [writePart, Store.Readable.read hread]
      exact Emitter.addSource_of_unlimited h _

theorem readable_of_writePart {part : Part}
    (h : writePart store stem part e = .ok () e') : part.Readable store := by
  cases part with
  | text content => trivial
  | header name =>
      cases hread : store.read name with
      | ok file => exact Store.readable_of_read hread
      | error cause =>
          rw [writePart, hread] at h
          cases h
  | source name =>
      cases hread : store.read name with
      | ok file => exact Store.readable_of_read hread
      | error cause =>
          rw [writePart, hread] at h
          cases h

/-- Parts are written in full, unless a file among them cannot be read. -/
theorem writeParts_eq_ok_iff (h : e.sink.limit = none) {parts : List Part} :
    writeParts store stem parts e = .ok () e' ↔
      (∀ part ∈ parts, part.Readable store) ∧
        e' = e.extend (String.join (parts.map (Part.textIn store stem)))
          (parts.map (Part.gainIn store stem)).sum := by
  induction parts generalizing e with
  | nil =>
      show EStateM.Result.ok () e = .ok () e' ↔ _ ∧ e' = e.extend "" 0
      simp [Emitter.extend_empty, eq_comm]
  | cons part parts ih =>
      rw [writeParts, bind_eq_ok_iff, List.forall_mem_cons, List.map_cons, List.map_cons,
        String.join_cons, List.sum_cons, ← Emitter.extend_extend]
      constructor
      · rintro ⟨_, middle, hpart, hparts⟩
        have hread := readable_of_writePart hpart
        -- What the first part wrote is known now, so the rest starts from there.
        rw [writePart_of_readable h hread] at hpart
        cases hpart
        rw [ih (by simpa using h)] at hparts
        exact ⟨⟨hread, hparts.1⟩, hparts.2⟩
      · rintro ⟨⟨hread, hrest⟩, he'⟩
        exact ⟨(), _, writePart_of_readable h hread,
          (ih (by simpa using h)).2 ⟨hrest, he'⟩⟩

/-- Readable parts are written in full before the others are looked at. -/
theorem writeParts_append (h : e.sink.limit = none) {parts : List Part}
    (hread : ∀ part ∈ parts, part.Readable store) (rest : List Part) :
    writeParts store stem (parts ++ rest) e =
      writeParts store stem rest
        (e.extend (String.join (parts.map (Part.textIn store stem)))
          (parts.map (Part.gainIn store stem)).sum) := by
  induction parts generalizing e with
  | nil =>
      show writeParts store stem rest e = writeParts store stem rest (e.extend "" 0)
      rw [Emitter.extend_empty]
  | cons part parts ih =>
      obtain ⟨hpart, hparts⟩ := List.forall_mem_cons.1 hread
      rw [List.cons_append, writeParts, bind_of_ok (writePart_of_readable h hpart),
        ih (by simpa using h) hparts, Emitter.extend_extend, List.map_cons, List.map_cons,
        String.join_cons, List.sum_cons]

/-- The parts before an unreadable header are written in full, and nothing else is. -/
theorem writeParts_of_unread_header (h : e.sink.limit = none) {parts : List Part}
    (hread : ∀ part ∈ parts, part.Readable store) {name : String} {cause : InputError}
    (hname : store name = .error cause) (rest : List Part) :
    writeParts store stem (parts ++ .header name :: rest) e =
      .error (.headerUnread name cause)
        (e.extend (String.join (parts.map (Part.textIn store stem)))
          (parts.map (Part.gainIn store stem)).sum) := by
  rw [writeParts_append h hread, writeParts, writePart, Store.read_of_error hname]
  rfl

end Parts

/-! ## The emission of a document -/

namespace Emission

variable {sink : Sink} {m : Manifest} {headers : List String} {store : Store} {e : Emitter}

theorem into_of_error {failure : Failure}
    (h : writeParts store m.stem (m.outline headers) ⟨sink, {}⟩ = .error failure e) :
    into sink m headers store = ⟨e.sink.bytes, .error failure⟩ := by
  rw [into, emit, bind_of_error h]

theorem into_of_ok (h : writeParts store m.stem (m.outline headers) ⟨sink, {}⟩ = .ok () e) :
    into sink m headers store =
      ⟨e.sink.bytes,
        if e.sink.refusesFlush then .error (.unflushed .flushRefused) else .ok e.stats⟩ := by
  rw [into, emit, bind_of_ok h, Emitter.finish, Sink.flush]
  cases e.sink.refusesFlush with
  | true => rfl
  | false => rfl

end Emission
end Amalgam
