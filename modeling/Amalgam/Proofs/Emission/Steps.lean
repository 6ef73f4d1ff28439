import Amalgam.Proofs.Emission.Pieces

namespace Amalgam

/-!
# Steps of an emitter

An emitter can be given an injected text, a header or a source.  Each is written in
pieces and counts once all of them are written, so over a destination with a limit there
are three cases.  All pieces fit; or there is a first one that does not; or the
destination is full already.

In the last case the emitter stays as it is.  The first piece of a step is not a comment,
so it does not count before it is refused.
-/

/-! ## The pieces of a block -/

/-- The piece that a line of a file becomes. -/
def Piece.ofLine (stem line : String) : Piece :=
  ⟨Include.relocate stem line, Include.isLocal stem line⟩

/-- The pieces in which the block of a file is written. -/
def InputFile.pieces (stem : String) (file : InputFile) : List Piece :=
  ⟨markerLine file.name, false⟩ :: (file.lines.map (Piece.ofLine stem) ++
    if needsBreak stem file.lines then [⟨"\n", false⟩] else [])

theorem InputFile.textOf_pieces (stem : String) (file : InputFile) :
    Piece.textOf (file.pieces stem) = file.block stem := by
  have hlines : Piece.textOf (file.lines.map (Piece.ofLine stem)) =
      String.join (file.lines.map (Include.relocate stem)) := by
    rw [Piece.textOf, List.map_map]
    rfl
  have hbreak : Piece.textOf (if needsBreak stem file.lines then [⟨"\n", false⟩] else []) =
      if needsBreak stem file.lines then "\n" else "" := by
    cases needsBreak stem file.lines with
    | true => rfl
    | false => rfl
  rw [pieces, Piece.textOf_cons, Piece.textOf_append, hlines, hbreak,
    ← closingBreak_map_relocate, ← String.append_assoc, block]

namespace Emitter

theorem addPieces_singleton (p : Piece) : addPieces [p] = addPiece p :=
  bind_pure_unit

theorem addLines_eq_addPieces (stem : String) (lines : List String) :
    addLines stem lines = addPieces (lines.map (Piece.ofLine stem)) := by
  induction lines with
  | nil => rfl
  | cons line lines ih =>
      rw [addLines, List.map_cons, addPieces, ih, addLine_eq]
      rfl

theorem addBlock_eq_addPieces (stem : String) (file : InputFile) :
    addBlock stem file = addPieces (file.pieces stem) := by
  rw [addBlock, addLines_eq_addPieces, InputFile.pieces, addPieces, addPieces_append]
  cases needsBreak stem file.lines with
  | true =>
      rw [if_pos rfl, if_pos rfl, addPieces_singleton]
      rfl
  | false => rfl

/-! ## Steps -/

/-- What an emitter can be given to write. -/
inductive Step where
  | text (content : String)
  | header (file : InputFile)
  | source (file : InputFile)
deriving DecidableEq

namespace Step

def perform (stem : String) : Step → EStateM Failure Emitter Unit
  | .text content => addText content
  | .header file => addHeader stem file
  | .source file => addSource stem file

/-- What a step writes if all of it fits. -/
def output (stem : String) : Step → String
  | .text content => content
  | .header file => file.block stem
  | .source file => file.block stem

def isHeader : Step → Bool
  | .header _ => true
  | _ => false

def isSource : Step → Bool
  | .source _ => true
  | _ => false

/-- The pieces in which a step writes its output. -/
def pieces (stem : String) : Step → List Piece
  | .text content => [⟨content, false⟩]
  | .header file => file.pieces stem
  | .source file => file.pieces stem

/-- What counts once all pieces are written. -/
def count : Step → EStateM Failure Emitter Unit
  | .text _ => pure ()
  | .header _ => countHeader
  | .source _ => countSource

/-- What a step adds to the counters if all of its output fits, its lines apart. -/
def gain (stem : String) (step : Step) : Stats where
  headers := step.isHeader.toNat
  sources := step.isSource.toNat
  commentedOut := Piece.countComments (step.pieces stem)

variable {stem : String} {limit : Nat} {e : Emitter} {step : Step}

theorem perform_eq (stem : String) (step : Step) :
    step.perform stem = addPieces (step.pieces stem) >>= fun _ => step.count := by
  cases step with
  | text content =>
      rw [pieces, addPieces_singleton, count, bind_pure_unit]
      rfl
  | header file => rw [perform, addHeader, addBlock_eq_addPieces, pieces, count]
  | source file => rw [perform, addSource, addBlock_eq_addPieces, pieces, count]

theorem textOf_pieces (stem : String) (step : Step) :
    Piece.textOf (step.pieces stem) = step.output stem := by
  cases step with
  | text content =>
      rw [pieces, Piece.textOf_cons, Piece.textOf_nil, String.append_empty, output]
  | header file => exact InputFile.textOf_pieces stem file
  | source file => exact InputFile.textOf_pieces stem file

/-- The first piece of a step is no comment, and only an empty text begins with an empty
piece. -/
theorem exists_pieces_eq_cons (stem : String) (step : Step) :
    ∃ first rest, step.pieces stem = ⟨first, false⟩ :: rest ∧
      (first = "" → step = .text "") := by
  have hmarker : ∀ name, markerLine name ≠ "" := by
    intro name hname
    have hsize := congrArg String.length hname
    simp [markerLine] at hsize
  cases step with
  | text content => exact ⟨content, [], rfl, congrArg Step.text⟩
  | header file => exact ⟨_, _, rfl, fun hname => absurd hname (hmarker file.name)⟩
  | source file => exact ⟨_, _, rfl, fun hname => absurd hname (hmarker file.name)⟩

theorem output_eq_empty_iff : step.output stem = "" ↔ step = .text "" := by
  constructor
  · intro h
    obtain ⟨first, rest, hpieces, hfirst⟩ := exists_pieces_eq_cons stem step
    rw [← textOf_pieces, hpieces, Piece.textOf_cons, String.append_eq_empty_iff] at h
    exact hfirst h.1
  · rintro rfl
    rfl

/-! ### What a step does -/

theorem perform_of_fits (h : e.sink.limit = some limit)
    (hfits : e.sink.bytes.size + (step.output stem).utf8ByteSize ≤ limit) :
    step.perform stem e = .ok () (e.extend (step.output stem) (step.gain stem)) := by
  rw [← textOf_pieces] at hfits
  rw [perform_eq, bind_of_ok (addPieces_of_fits h hfits), textOf_pieces]
  cases step with
  | text content => rfl
  | header file => rfl
  | source file => rfl

theorem perform_of_exceeds (h : e.sink.limit = some limit) {before after : List Piece}
    {p : Piece} (hpieces : step.pieces stem = before ++ p :: after)
    (hfits : e.sink.bytes.size + Piece.byteSize before ≤ limit)
    (hexceeds : limit < e.sink.bytes.size + Piece.byteSize before + p.text.utf8ByteSize) :
    step.perform stem e = .error (.unwritten .full) (e.cutAt limit (step.output stem)
      ((gainOf (before ++ [p])).withLinesOf (Piece.textOf before))) := by
  rw [perform_eq, ← textOf_pieces, hpieces]
  exact bind_of_error (addPieces_of_exceeds h hfits hexceeds)

/-- A full destination stays full, and no step changes its emitter. -/
theorem perform_of_full (h : e.sink.limit = some limit) (hfull : e.sink.bytes.size = limit)
    (stem : String) (step : Step) :
    step.perform stem e =
      if step.output stem = "" then .ok () e else .error (.unwritten .full) e := by
  by_cases hempty : step.output stem = ""
  · rw [if_pos hempty]
    rw [output_eq_empty_iff] at hempty
    subst hempty
    have hfits : e.sink.bytes.size + ((text "").output stem).utf8ByteSize ≤ limit :=
      Nat.le_of_eq hfull
    exact (perform_of_fits h hfits).trans (congrArg _ (extend_empty e))
  · rw [if_neg hempty]
    obtain ⟨first, rest, hpieces, hfirst⟩ := exists_pieces_eq_cons stem step
    have hsize : first.utf8ByteSize ≠ 0 := by
      rw [Ne, String.utf8ByteSize_eq_zero_iff]
      exact fun hfirst' => hempty (output_eq_empty_iff.2 (hfirst hfirst'))
    have hcut : e.cutAt limit (step.output stem) 0 = e := by
      rw [cutAt, extract_append_of_size_le (Nat.le_of_eq hfull.symm), ← hfull,
        ByteArray.extract_zero_size]
      rfl
    have hexceeds : limit < e.sink.bytes.size + Piece.byteSize [] + first.utf8ByteSize := by
      rw [Piece.byteSize_nil]
      omega
    have hpieces' : step.pieces stem = [] ++ ⟨first, false⟩ :: rest := hpieces
    rw [perform_of_exceeds h hpieces' (Nat.le_of_eq hfull) hexceeds]
    exact congrArg _ hcut

end Step

end Emitter
end Amalgam
