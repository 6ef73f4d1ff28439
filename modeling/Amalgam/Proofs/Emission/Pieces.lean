import Amalgam.Proofs.Emission.Limit
import Amalgam.Proofs.Text.Encoding

namespace Amalgam

/-!
# The single writes of an emitter

A block is written in pieces: the marker, one piece for each line, and possibly a line
feed.  A destination with a limit takes pieces in full up to the first one that does not
fit.  Of that piece it takes what fits, so it is full from then on.

What had been counted before a refused piece stays counted.  A local include is counted
just before its comment is written, so the refused piece itself may be counted as well.
-/

/-! ## Pieces -/

/-- A text that an emitter writes at one go. -/
structure Piece where
  text : String
  /-- Whether it is a local include that has become a comment. -/
  isComment : Bool

namespace Piece

/-- The texts of pieces, one behind the other. -/
def textOf (pieces : List Piece) : String :=
  String.join (pieces.map text)

/-- The number of bytes of pieces. -/
def byteSize (pieces : List Piece) : Nat :=
  (textOf pieces).utf8ByteSize

/-- The number of comments among pieces. -/
def countComments (pieces : List Piece) : Nat :=
  pieces.countP isComment

@[simp]
theorem textOf_nil : textOf [] = "" := rfl

@[simp]
theorem textOf_cons (p : Piece) (pieces : List Piece) :
    textOf (p :: pieces) = p.text ++ textOf pieces := by
  rw [textOf, List.map_cons, String.join_cons, textOf]

@[simp]
theorem textOf_append (pieces more : List Piece) :
    textOf (pieces ++ more) = textOf pieces ++ textOf more := by
  rw [textOf, List.map_append, String.join_append, textOf, textOf]

@[simp]
theorem byteSize_nil : byteSize [] = 0 := rfl

@[simp]
theorem byteSize_cons (p : Piece) (pieces : List Piece) :
    byteSize (p :: pieces) = p.text.utf8ByteSize + byteSize pieces := by
  rw [byteSize, textOf_cons, String.utf8ByteSize_append, byteSize]

@[simp]
theorem byteSize_append (pieces more : List Piece) :
    byteSize (pieces ++ more) = byteSize pieces + byteSize more := by
  rw [byteSize, textOf_append, String.utf8ByteSize_append, byteSize, byteSize]

@[simp]
theorem countComments_append (pieces more : List Piece) :
    countComments (pieces ++ more) = countComments pieces + countComments more :=
  List.countP_append

/-- Pieces that do not all fit have a first one that does not fit. -/
theorem exists_first_excess {room : Nat} {pieces : List Piece}
    (h : room < byteSize pieces) :
    ∃ before p after, pieces = before ++ p :: after ∧ byteSize before ≤ room ∧
      room < byteSize before + p.text.utf8ByteSize := by
  induction pieces generalizing room with
  | nil => exact absurd h (Nat.not_lt_zero room)
  | cons p pieces ih =>
      rw [byteSize_cons] at h
      by_cases hfits : p.text.utf8ByteSize ≤ room
      · have hrest : room - p.text.utf8ByteSize < byteSize pieces := by omega
        obtain ⟨before, next, after, rfl, hbefore, hnext⟩ := ih hrest
        refine ⟨p :: before, next, after, rfl, ?_, ?_⟩
        · rw [byteSize_cons]
          omega
        · rw [byteSize_cons]
          omega
      · exact ⟨[], p, pieces, rfl, Nat.zero_le _, by rw [byteSize_nil]; omega⟩

/-! ## Pieces that are written in full -/

/-- Pieces with the number of bytes that are written when each of them is written. -/
def ends (start : Nat) : List Piece → List (Piece × Nat)
  | [] => []
  | p :: pieces =>
      (p, start + p.text.utf8ByteSize) :: ends (start + p.text.utf8ByteSize) pieces

/-- Whether a piece is a comment that is written in full before the limit is passed. -/
def isWhole (limit : Nat) : Piece × Nat → Bool :=
  fun (p, stop) => p.isComment && decide (stop ≤ limit)

/-- The number of comments that lie in the first `limit` bytes from their beginning to
their end. -/
def countWholeComments (limit : Nat) (pieces : List Piece) : Nat :=
  (ends 0 pieces).countP (isWhole limit)

theorem ends_append (start : Nat) (pieces more : List Piece) :
    ends start (pieces ++ more) =
      ends start pieces ++ ends (start + byteSize pieces) more := by
  induction pieces generalizing start with
  | nil => rfl
  | cons p pieces ih =>
      rw [List.cons_append, ends, ends, ih, byteSize_cons, Nat.add_assoc, List.cons_append]

theorem countP_ends_of_le {limit start : Nat} {pieces : List Piece}
    (h : start + byteSize pieces ≤ limit) :
    (ends start pieces).countP (isWhole limit) = countComments pieces := by
  induction pieces generalizing start with
  | nil => rfl
  | cons p pieces ih =>
      rw [byteSize_cons] at h
      have hstop : start + p.text.utf8ByteSize ≤ limit := by omega
      rw [ends, List.countP_cons, ih (by omega), countComments, countComments,
        List.countP_cons]
      simp [isWhole, hstop]

theorem countP_ends_of_lt {limit start : Nat} (h : limit < start) (pieces : List Piece) :
    (ends start pieces).countP (isWhole limit) = 0 := by
  induction pieces generalizing start with
  | nil => rfl
  | cons p pieces ih =>
      have hstop : limit < start + p.text.utf8ByteSize := by omega
      rw [ends, List.countP_cons, ih hstop]
      simp [isWhole, hstop]

/-- The limit lies behind the pieces in `written` and before the end of the next one, if
there is a next one. -/
structure IsSplitAt (limit : Nat) (written rest : List Piece) : Prop where
  fits : byteSize written ≤ limit
  exceeds : ∀ p ∈ rest.head?, limit < byteSize written + p.text.utf8ByteSize

theorem IsSplitAt.of_fits {limit : Nat} {written : List Piece}
    (h : byteSize written ≤ limit) : IsSplitAt limit written [] where
  fits := h
  exceeds p hp := by cases hp

theorem IsSplitAt.countWholeComments {limit : Nat} {written rest : List Piece}
    (h : IsSplitAt limit written rest) :
    Piece.countWholeComments limit (written ++ rest) = countComments written := by
  have hwritten : 0 + byteSize written ≤ limit := by
    rw [Nat.zero_add]
    exact h.fits
  rw [Piece.countWholeComments, ends_append, List.countP_append, countP_ends_of_le hwritten,
    Nat.zero_add]
  cases rest with
  | nil => rfl
  | cons p rest =>
      have hstop : limit < byteSize written + p.text.utf8ByteSize := h.exceeds p rfl
      rw [ends, List.countP_cons, countP_ends_of_lt hstop]
      simp [isWhole, hstop]

end Piece

/-! ## Writing pieces -/

namespace Emitter

/-- Writes a piece.  A comment counts before it is written. -/
def addPiece (p : Piece) : EStateM Failure Emitter Unit := do
  if p.isComment then countCommentedOut
  addText p.text

def addPieces : List Piece → EStateM Failure Emitter Unit
  | [] => pure ()
  | p :: pieces => do
      addPiece p
      addPieces pieces

theorem addPieces_append (pieces more : List Piece) :
    addPieces (pieces ++ more) = addPieces pieces >>= fun _ => addPieces more := by
  induction pieces with
  | nil => rfl
  | cons p pieces ih =>
      rw [List.cons_append, addPieces, addPieces, ih, bind_assoc]

/-- The emitter after a write that was cut at the limit. -/
def cutAt (e : Emitter) (limit : Nat) (text : String) (gain : Stats) : Emitter :=
  ⟨{ e.sink with bytes := (e.sink.bytes ++ text.toUTF8).extract 0 limit }, e.stats + gain⟩

variable {e : Emitter} {limit : Nat}

theorem addText_of_fits (h : e.sink.limit = some limit) {text : String}
    (hfits : e.sink.bytes.size + text.utf8ByteSize ≤ limit) :
    addText text e = .ok () (e.extend text 0) := by
  obtain ⟨⟨bytes, _, refusesFlush⟩, stats⟩ := e
  subst h
  have hroom : text.toUTF8.size ≤ limit - bytes.size := by
    rw [Text.size_toUTF8]
    exact Nat.le_sub_of_add_le' hfits
  simp only [addText, Sink.write, if_pos hroom]
  rfl

theorem addText_of_exceeds (h : e.sink.limit = some limit)
    (hsize : e.sink.bytes.size ≤ limit) {text : String}
    (hexceeds : limit < e.sink.bytes.size + text.utf8ByteSize) :
    addText text e = .error (.unwritten .full) (e.cutAt limit text 0) := by
  obtain ⟨⟨bytes, _, refusesFlush⟩, stats⟩ := e
  subst h
  have hroom : ¬ text.toUTF8.size ≤ limit - bytes.size := by
    rw [Text.size_toUTF8]
    dsimp only at hexceeds hsize
    omega
  rw [cutAt, extract_append_of_le_size hsize]
  simp only [addText, Sink.write, if_neg hroom]
  rfl

/-- What counts before a piece is written. -/
def gainOf (pieces : List Piece) : Stats :=
  { commentedOut := Piece.countComments pieces }

theorem gainOf_append (pieces more : List Piece) :
    gainOf (pieces ++ more) = gainOf pieces + gainOf more := by
  rw [gainOf, Piece.countComments_append]
  rfl

theorem addPiece_eq (p : Piece) (e : Emitter) :
    addPiece p e = addText p.text { e with stats := e.stats + gainOf [p] } := by
  rw [addPiece, gainOf, Piece.countComments, List.countP_singleton]
  cases p.isComment with
  | false => rfl
  | true => rfl

/-- Pieces that fit are written, and the comments among them count. -/
theorem addPieces_of_fits (h : e.sink.limit = some limit) {pieces : List Piece}
    (hfits : e.sink.bytes.size + Piece.byteSize pieces ≤ limit) :
    addPieces pieces e = .ok () (e.extend (Piece.textOf pieces) (gainOf pieces)) := by
  induction pieces generalizing e with
  | nil =>
      show EStateM.Result.ok () e = .ok () (e.extend "" 0)
      rw [extend_empty]
  | cons p pieces ih =>
      rw [Piece.byteSize_cons] at hfits
      have hhead : e.sink.bytes.size + p.text.utf8ByteSize ≤ limit := by omega
      have hpiece : addPiece p e = .ok () (e.extend p.text (gainOf [p])) := by
        rw [addPiece_eq]
        exact addText_of_fits (e := ⟨e.sink, e.stats + gainOf [p]⟩) h hhead
      have hsize : (e.extend p.text (gainOf [p])).sink.bytes.size =
          e.sink.bytes.size + p.text.utf8ByteSize := by
        rw [extend, ByteArray.size_append, Text.size_toUTF8]
      rw [addPieces, bind_of_ok hpiece, ih (by simpa using h) (by omega), extend_extend,
        Piece.textOf_cons, ← gainOf_append, List.singleton_append]

/-- Pieces that do not all fit are written up to the first that does not.  The comments
before it count, and so does this piece if it is one. -/
theorem addPieces_of_exceeds (h : e.sink.limit = some limit)
    {before after : List Piece} {p : Piece}
    (hfits : e.sink.bytes.size + Piece.byteSize before ≤ limit)
    (hexceeds : limit < e.sink.bytes.size + Piece.byteSize before + p.text.utf8ByteSize) :
    addPieces (before ++ p :: after) e = .error (.unwritten .full)
      (e.cutAt limit (Piece.textOf (before ++ p :: after))
        ((gainOf (before ++ [p])).withLinesOf (Piece.textOf before))) := by
  have hbefore := addPieces_of_fits h hfits
  generalize hmiddle : e.extend (Piece.textOf before) (gainOf before) = middle at hbefore
  have hbytes : middle.sink.bytes = e.sink.bytes ++ (Piece.textOf before).toUTF8 := by
    rw [← hmiddle, extend]
  have hmiddleSize : middle.sink.bytes.size = e.sink.bytes.size + Piece.byteSize before := by
    rw [hbytes, ByteArray.size_append, Text.size_toUTF8, Piece.byteSize]
  have hlimit : middle.sink.limit = some limit := by
    rw [← hmiddle]
    exact h
  have hpiece : addText p.text ⟨middle.sink, middle.stats + gainOf [p]⟩ = _ :=
    addText_of_exceeds (e := ⟨middle.sink, middle.stats + gainOf [p]⟩) hlimit
      (hmiddleSize ▸ hfits) (hmiddleSize ▸ hexceeds)
  rw [addPieces_append, bind_of_ok hbefore, addPieces, bind_of_error (addPiece_eq p _ ▸ hpiece)]
  -- What is behind the refused piece lies behind the limit as well.
  have hfull : limit ≤ (middle.sink.bytes ++ p.text.toUTF8).size := by
    rw [ByteArray.size_append, hmiddleSize, Text.size_toUTF8]
    exact Nat.le_of_lt hexceeds
  have hdata : e.sink.bytes ++ (Piece.textOf (before ++ p :: after)).toUTF8 =
      middle.sink.bytes ++ p.text.toUTF8 ++ (Piece.textOf after).toUTF8 := by
    simp only [hbytes, Piece.textOf_append, Piece.textOf_cons, Text.toUTF8_append,
      ByteArray.append_assoc]
  have hstats : middle.stats + gainOf [p] + 0 =
      e.stats + (gainOf (before ++ [p])).withLinesOf (Piece.textOf before) := by
    have hlines := Stats.add_withLinesOf e.stats (gainOf before) (gainOf [p])
      (Piece.textOf before) ""
    rw [String.append_empty, ← gainOf_append] at hlines
    rw [← hmiddle]
    exact hlines
  have hsink : middle.sink = { e.sink with bytes := middle.sink.bytes } := by
    rw [← hmiddle]
    rfl
  rw [cutAt, cutAt, hdata, extract_append_of_size_le hfull, hstats, hsink]

end Emitter
end Amalgam
