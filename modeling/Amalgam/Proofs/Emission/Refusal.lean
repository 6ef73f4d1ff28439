import Amalgam.Proofs.Emission.Steps
import Amalgam.Proofs.Text.Encoding

namespace Amalgam

/-!
# Emitters that go on after a refusal

An emitter keeps its destination and its counters when a write is refused, and more can
be written with it afterwards.  A run is any sequence of steps over a destination with a
limit, where a step that fails does not end the run.

The first write that is refused fills the destination, and from then on no step changes
the emitter.  That is why a whole run counts at most one comment that is not written in
full.

The flush that ends an emission is not treated here.
-/

namespace Emitter

/-! ## Runs -/

/-- What steps write if all of it fits. -/
def outputs (stem : String) (steps : List Step) : String :=
  String.join (steps.map (Step.output stem))

/-- A step that was performed, and its failure if it failed. -/
structure Attempt where
  step : Step
  failure : Option Failure
deriving DecidableEq

/-- The number of attempts at steps of a kind that did not fail. -/
def countDone (kind : Step → Bool) (log : List Attempt) : Nat :=
  log.countP fun a => kind a.step && a.failure.isNone

/-- How a step fails that is performed after others. -/
def refusal? (stem : String) (limit : Nat) (earlier : List Step) (step : Step) :
    Option Failure :=
  if step.output stem ≠ "" ∧ limit < (outputs stem (earlier ++ [step])).utf8ByteSize then
    some (.unwritten .full)
  else none

/-- An emitter and all that was done with it. -/
structure Run where
  emitter : Emitter
  log : List Attempt

namespace Run

/-- A fresh emitter over a destination with a limit. -/
def start (limit : Nat) : Run :=
  ⟨⟨Sink.limited limit, {}⟩, []⟩

/-- Performs a step and goes on with the emitter that it leaves, also if it fails. -/
def attempt (stem : String) (r : Run) (step : Step) : Run :=
  match step.perform stem r.emitter with
  | .ok _ e => ⟨e, r.log ++ [⟨step, none⟩]⟩
  | .error failure e => ⟨e, r.log ++ [⟨step, some failure⟩]⟩

/-- The run of some steps over a destination with a limit. -/
def of (stem : String) (limit : Nat) (steps : List Step) : Run :=
  steps.foldl (attempt stem) (start limit)

def steps (r : Run) : List Step :=
  r.log.map Attempt.step

/-- What is true all along.  The pieces of all steps are split where the first one was
refused: those before it have counted, and so has it if it is a comment. -/
structure IsSound (stem : String) (limit : Nat) (r : Run) : Prop where
  sink : r.emitter.sink = ⟨(outputs stem r.steps).toUTF8.extract 0 limit, some limit, false⟩
  failure : ∀ before a after, r.log = before ++ a :: after →
    a.failure = refusal? stem limit (before.map Attempt.step) a.step
  unrefused : (∀ a ∈ r.log, a.failure = none) →
    (outputs stem r.steps).utf8ByteSize ≤ limit
  headers : r.emitter.stats.headers = countDone Step.isHeader r.log
  sources : r.emitter.stats.sources = countDone Step.isSource r.log
  split : ∃ written rest, r.steps.flatMap (Step.pieces stem) = written ++ rest ∧
    Piece.IsSplitAt limit written rest ∧
    r.emitter.stats.lines = Text.countBreaks (Piece.textOf written) ∧
    r.emitter.stats.commentedOut = Piece.countComments (written ++ rest.take 1)

end Run

section Lists

variable {stem : String} {limit : Nat}

theorem outputs_append (stem : String) (steps : List Step) (step : Step) :
    outputs stem (steps ++ [step]) = outputs stem steps ++ step.output stem := by
  rw [outputs, List.map_append, String.join_append, List.map_singleton,
    String.join_cons, String.join_nil, String.append_empty, outputs]

theorem textOf_flatMap_pieces (stem : String) (steps : List Step) :
    Piece.textOf (steps.flatMap (Step.pieces stem)) = outputs stem steps := by
  induction steps with
  | nil => rfl
  | cons step steps ih =>
      rw [List.flatMap_cons, Piece.textOf_append, ih, Step.textOf_pieces, outputs, outputs,
        List.map_cons, String.join_cons]

theorem byteSize_flatMap_pieces (stem : String) (steps : List Step) :
    Piece.byteSize (steps.flatMap (Step.pieces stem)) = (outputs stem steps).utf8ByteSize := by
  rw [Piece.byteSize, textOf_flatMap_pieces]

/-- Once something did not fit, only empty steps succeed. -/
theorem refusal?_of_exceeds {earlier : List Step}
    (h : limit < (outputs stem earlier).utf8ByteSize) (step : Step) :
    refusal? stem limit earlier step =
      if step.output stem = "" then none else some (.unwritten .full) := by
  have htotal : limit < (outputs stem (earlier ++ [step])).utf8ByteSize := by
    rw [outputs_append, String.utf8ByteSize_append]
    omega
  by_cases hempty : step.output stem = ""
  · rw [if_pos hempty, refusal?, if_neg fun hrefused => hrefused.1 hempty]
  · rw [if_neg hempty, refusal?, if_pos ⟨hempty, htotal⟩]

theorem countDone_append_of_ok (kind : Step → Bool) (log : List Attempt) (step : Step) :
    countDone kind (log ++ [⟨step, none⟩]) = countDone kind log + (kind step).toNat := by
  rw [countDone, List.countP_append, List.countP_singleton, countDone]
  cases kind step with
  | true => rfl
  | false => rfl

theorem countDone_append_of_error (kind : Step → Bool) (log : List Attempt) (step : Step)
    (failure : Failure) :
    countDone kind (log ++ [⟨step, some failure⟩]) = countDone kind log := by
  have hcount : (kind step && (some failure).isNone) = false := Bool.and_false _
  rw [countDone, List.countP_append, List.countP_singleton, hcount, countDone]
  rfl

/-- What holds for every place in a list, and for one more element behind it. -/
theorem forall_split_append {α : Type} {P : List α → α → Prop} {xs : List α} {x : α}
    (h : ∀ before y after, xs = before ++ y :: after → P before y) (hx : P xs x) :
    ∀ before y after, xs ++ [x] = before ++ y :: after → P before y := by
  intro before y after hsplit
  rcases List.append_eq_append_iff.1 hsplit with
    ⟨middle, rfl, hlast⟩ | ⟨middle, rfl, hlast⟩
  · cases middle with
    | nil =>
        cases hlast
        rwa [List.append_nil]
    | cons _ middle => simp at hlast
  · cases middle with
    | nil =>
        cases hlast
        rwa [List.append_nil] at hx
    | cons _ middle =>
        cases hlast
        exact h before y middle rfl

end Lists

namespace Run

variable {stem : String} {limit : Nat} {r : Run} {e : Emitter} {step : Step}

theorem attempt_of_ok (h : step.perform stem r.emitter = .ok () e) :
    r.attempt stem step = ⟨e, r.log ++ [⟨step, none⟩]⟩ := by
  rw [attempt, h]

theorem attempt_of_error {failure : Failure}
    (h : step.perform stem r.emitter = .error failure e) :
    r.attempt stem step = ⟨e, r.log ++ [⟨step, some failure⟩]⟩ := by
  rw [attempt, h]

theorem steps_append (r : Run) (e : Emitter) (a : Attempt) :
    steps ⟨e, r.log ++ [a]⟩ = r.steps ++ [a.step] := by
  rw [steps, List.map_append, List.map_singleton, steps]

namespace IsSound

theorem limit_eq (h : IsSound stem limit r) : r.emitter.sink.limit = some limit := by
  rw [h.sink]

theorem sink_with_bytes (h : IsSound stem limit r) (bytes : ByteArray) :
    { r.emitter.sink with bytes := bytes } = ⟨bytes, some limit, false⟩ := by
  rw [h.sink]

theorem start (stem : String) (limit : Nat) : IsSound stem limit (start limit) where
  sink := by
    show Sink.limited limit = ⟨"".toUTF8.extract 0 limit, some limit, false⟩
    rw [Text.extract_toUTF8_of_le (Nat.zero_le limit)]
    rfl
  failure before a after hlog := by simp [Run.start] at hlog
  unrefused _ := Nat.zero_le limit
  headers := rfl
  sources := rfl
  split := ⟨[], [], rfl, Piece.IsSplitAt.of_fits (Nat.zero_le limit), rfl, rfl⟩

/-- While everything fits, all has been written and has counted. -/
theorem of_fits (h : IsSound stem limit r)
    (hfits : (outputs stem r.steps).utf8ByteSize ≤ limit) :
    r.emitter.sink.bytes = (outputs stem r.steps).toUTF8 ∧
      r.emitter.stats.lines = Text.countBreaks (outputs stem r.steps) ∧
      r.emitter.stats.commentedOut =
        Piece.countComments (r.steps.flatMap (Step.pieces stem)) := by
  refine ⟨by rw [h.sink, Text.extract_toUTF8_of_le hfits], ?_⟩
  obtain ⟨written, rest, hpieces, hsplit, hlines, hcomments⟩ := h.split
  rw [← textOf_flatMap_pieces] at hfits ⊢
  rw [hpieces] at hfits ⊢
  cases rest with
  | nil =>
      rw [List.append_nil]
      exact ⟨hlines, by rwa [List.take_nil, List.append_nil] at hcomments⟩
  | cons p rest =>
      have hexceeds := hsplit.exceeds p rfl
      have hsize : Piece.byteSize (written ++ p :: rest) ≤ limit := hfits
      rw [Piece.byteSize_append, Piece.byteSize_cons] at hsize
      omega

/-- Once something did not fit, the destination is full. -/
theorem size_of_exceeds (h : IsSound stem limit r)
    (hexceeds : limit < (outputs stem r.steps).utf8ByteSize) :
    r.emitter.sink.bytes.size = limit := by
  rw [h.sink, ByteArray.size_extract, Text.size_toUTF8,
    Nat.min_eq_left (Nat.le_of_lt hexceeds), Nat.sub_zero]

/-- A step that fits. -/
theorem attempt_of_fits (h : IsSound stem limit r)
    (hfits : (outputs stem (r.steps ++ [step])).utf8ByteSize ≤ limit) :
    IsSound stem limit (r.attempt stem step) := by
  have hsize := hfits
  rw [outputs_append, String.utf8ByteSize_append] at hsize
  obtain ⟨hbytes, hlines, hcomments⟩ := h.of_fits (Nat.le_of_add_right_le hsize)
  have hroom : r.emitter.sink.bytes.size + (step.output stem).utf8ByteSize ≤ limit := by
    rwa [hbytes, Text.size_toUTF8]
  rw [attempt_of_ok (Step.perform_of_fits h.limit_eq hroom)]
  constructor
  case sink =>
    rw [steps_append, Text.extract_toUTF8_of_le hfits, extend, h.sink_with_bytes,
      hbytes, outputs_append, Text.toUTF8_append]
  case failure =>
    refine forall_split_append h.failure (if_neg ?_).symm
    exact fun hrefused => absurd hfits (Nat.not_le.2 hrefused.2)
  case unrefused =>
    rw [steps_append]
    exact fun _ => hfits
  case headers =>
    rw [countDone_append_of_ok, ← h.headers]
    rfl
  case sources =>
    rw [countDone_append_of_ok, ← h.sources]
    rfl
  case split =>
    rw [steps_append]
    refine ⟨(r.steps ++ [step]).flatMap (Step.pieces stem), [], (List.append_nil _).symm,
      Piece.IsSplitAt.of_fits ?_, ?_, ?_⟩
    · rwa [byteSize_flatMap_pieces]
    · rw [textOf_flatMap_pieces, outputs_append, Text.countBreaks_append, ← hlines]
      rfl
    · rw [List.flatMap_append, List.flatMap_singleton, List.take_nil, List.append_nil,
        Piece.countComments_append, ← hcomments]
      rfl

/-- The first step that does not fit. -/
theorem attempt_of_exceeds (h : IsSound stem limit r)
    (hfits : (outputs stem r.steps).utf8ByteSize ≤ limit)
    (hexceeds : limit < (outputs stem (r.steps ++ [step])).utf8ByteSize) :
    IsSound stem limit (r.attempt stem step) := by
  obtain ⟨hbytes, hlines, hcomments⟩ := h.of_fits hfits
  have hsize : r.emitter.sink.bytes.size = (outputs stem r.steps).utf8ByteSize := by
    rw [hbytes, Text.size_toUTF8]
  have hroom : limit - r.emitter.sink.bytes.size < Piece.byteSize (step.pieces stem) := by
    rw [outputs_append, String.utf8ByteSize_append] at hexceeds
    rw [Piece.byteSize, Step.textOf_pieces, hsize]
    omega
  obtain ⟨before, p, after, hpieces, hbefore, hp⟩ := Piece.exists_first_excess hroom
  rw [attempt_of_error (Step.perform_of_exceeds h.limit_eq hpieces (by omega) (by omega))]
  constructor
  case sink =>
    rw [steps_append, cutAt, h.sink_with_bytes, hbytes, outputs_append,
      Text.toUTF8_append]
  case failure =>
    refine forall_split_append h.failure (if_pos ⟨fun hempty => ?_, hexceeds⟩).symm
    rw [outputs_append, hempty, String.append_empty] at hexceeds
    exact absurd hfits (Nat.not_le.2 hexceeds)
  case unrefused =>
    intro hnone
    have hlast := hnone ⟨step, some (.unwritten .full)⟩ (by simp)
    contradiction
  case headers =>
    rw [countDone_append_of_error, ← h.headers]
    rfl
  case sources =>
    rw [countDone_append_of_error, ← h.sources]
    rfl
  case split =>
    rw [steps_append]
    have hwritten := byteSize_flatMap_pieces stem r.steps
    rw [← hsize] at hwritten
    -- The pieces of this step that come before `p` have been written too.
    refine ⟨r.steps.flatMap (Step.pieces stem) ++ before, p :: after, ?_, ⟨?_, ?_⟩, ?_, ?_⟩
    · rw [List.flatMap_append, List.flatMap_singleton, hpieces, List.append_assoc]
    · rw [Piece.byteSize_append, hwritten]
      omega
    · rintro _ ⟨⟩
      rw [Piece.byteSize_append, hwritten]
      omega
    · rw [Piece.textOf_append, textOf_flatMap_pieces, Text.countBreaks_append, ← hlines]
      rfl
    · have hrefused : (p :: after).take 1 = [p] := rfl
      rw [hrefused, List.append_assoc, Piece.countComments_append, ← hcomments]
      rfl

/-- Once something did not fit, a step only makes the log grow. -/
theorem attempt_eq_of_full (h : IsSound stem limit r)
    (hexceeds : limit < (outputs stem r.steps).utf8ByteSize) (step : Step) :
    r.attempt stem step =
      ⟨r.emitter, r.log ++ [⟨step, refusal? stem limit r.steps step⟩]⟩ := by
  have hperform := Step.perform_of_full h.limit_eq (h.size_of_exceeds hexceeds) stem step
  rw [refusal?_of_exceeds hexceeds]
  by_cases hempty : step.output stem = ""
  · rw [attempt_of_ok (hperform.trans (if_pos hempty)), if_pos hempty]
  · rw [attempt_of_error (hperform.trans (if_neg hempty)), if_neg hempty]

/-- A step after something did not fit. -/
theorem attempt_of_full (h : IsSound stem limit r)
    (hexceeds : limit < (outputs stem r.steps).utf8ByteSize) :
    IsSound stem limit (r.attempt stem step) := by
  have hcount : ∀ kind : Step → Bool, kind (.text "") = false →
      countDone kind (r.log ++ [⟨step, refusal? stem limit r.steps step⟩]) =
        countDone kind r.log := by
    intro kind hkind
    rw [refusal?_of_exceeds hexceeds]
    by_cases hempty : step.output stem = ""
    · rw [if_pos hempty, countDone_append_of_ok, Step.output_eq_empty_iff.1 hempty, hkind]
      rfl
    · rw [if_neg hempty, countDone_append_of_error]
  rw [h.attempt_eq_of_full hexceeds]
  constructor
  case sink =>
    have hsize : limit ≤ (outputs stem r.steps).toUTF8.size := by
      rw [Text.size_toUTF8]
      exact Nat.le_of_lt hexceeds
    rw [steps_append, outputs_append, Text.toUTF8_append,
      extract_append_of_size_le hsize, ← h.sink]
  case failure => exact forall_split_append h.failure rfl
  case unrefused =>
    intro hnone
    have hfits := h.unrefused fun a ha => hnone a (List.mem_append_left _ ha)
    exact absurd hfits (Nat.not_le.2 hexceeds)
  case headers => rw [hcount _ rfl, h.headers]
  case sources => rw [hcount _ rfl, h.sources]
  case split =>
    obtain ⟨written, rest, hpieces, hsplit, hlines, hcomments⟩ := h.split
    rw [steps_append, List.flatMap_append, List.flatMap_singleton, hpieces]
    cases rest with
    | nil =>
        have hsize := hsplit.fits
        rw [List.append_nil] at hpieces
        rw [← hpieces, byteSize_flatMap_pieces] at hsize
        exact absurd hsize (Nat.not_le.2 hexceeds)
    | cons p rest =>
        exact ⟨written, p :: rest ++ step.pieces stem, List.append_assoc _ _ _,
          ⟨hsplit.fits, hsplit.exceeds⟩, hlines, hcomments⟩

/-- Every step keeps what is true all along, whether it fails or not. -/
theorem attempt (h : IsSound stem limit r) (step : Step) :
    IsSound stem limit (r.attempt stem step) := by
  by_cases hbefore : (outputs stem r.steps).utf8ByteSize ≤ limit
  · by_cases hafter : (outputs stem (r.steps ++ [step])).utf8ByteSize ≤ limit
    · exact h.attempt_of_fits hafter
    · exact h.attempt_of_exceeds hbefore (Nat.not_le.1 hafter)
  · exact h.attempt_of_full (Nat.not_le.1 hbefore)

end IsSound

theorem isSound_of (stem : String) (limit : Nat) (steps : List Step) :
    IsSound stem limit (of stem limit steps) := by
  have hfrom : ∀ r, IsSound stem limit r →
      IsSound stem limit (steps.foldl (attempt stem) r) := by
    induction steps with
    | nil => exact fun r h => h
    | cons step steps ih => exact fun r h => ih (r.attempt stem step) (h.attempt step)
  exact hfrom _ (IsSound.start stem limit)

/-- All steps are performed, and in order. -/
theorem steps_of (stem : String) (limit : Nat) (steps : List Step) :
    (of stem limit steps).steps = steps := by
  have hattempt : ∀ (r : Run) step, (r.attempt stem step).steps = r.steps ++ [step] := by
    intro r step
    cases hperform : step.perform stem r.emitter with
    | ok _ e => rw [attempt_of_ok hperform, steps_append]
    | error failure e => rw [attempt_of_error hperform, steps_append]
  have hfrom : ∀ r, (steps.foldl (attempt stem) r).steps = r.steps ++ steps := by
    induction steps with
    | nil => exact fun r => (List.append_nil r.steps).symm
    | cons step steps ih =>
        intro r
        rw [List.foldl_cons, ih, hattempt, List.append_assoc, List.singleton_append]
  exact hfrom _

end Run

/-- A run over a destination with a limit, whatever fails in it.  A step fails exactly if
it has something to write and the limit is passed by then.  The counters of the blocks are
those of the steps that succeeded.  The lines are at most those written, and all of them if
nothing failed.  Every comment that is written in full counts, and over the whole run at
most one that is not. -/
theorem counters_after_refusals (stem : String) (limit : Nat) (steps : List Step) :
    let r := Run.of stem limit steps
    let bytes := r.emitter.sink.bytes
    let whole := Piece.countWholeComments limit (steps.flatMap (Step.pieces stem))
    r.steps = steps ∧
    (∀ before a after, r.log = before ++ a :: after →
      a.failure =
        if a.step.output stem ≠ "" ∧
            limit < (outputs stem (before.map Attempt.step ++ [a.step])).utf8ByteSize then
          some (.unwritten .full)
        else none) ∧
    bytes = (outputs stem steps).toUTF8.extract 0 limit ∧
    Piece.textOf (steps.flatMap (Step.pieces stem)) = outputs stem steps ∧
    r.emitter.stats.headers = countDone Step.isHeader r.log ∧
    r.emitter.stats.sources = countDone Step.isSource r.log ∧
    r.emitter.stats.lines ≤ Text.countBreakBytes bytes ∧
    ((∀ a ∈ r.log, a.failure = none) →
      r.emitter.stats.lines = Text.countBreakBytes bytes) ∧
    whole ≤ r.emitter.stats.commentedOut ∧ r.emitter.stats.commentedOut ≤ whole + 1 := by
  intro r bytes whole
  have hsound : Run.IsSound stem limit r := Run.isSound_of stem limit steps
  have hsteps : r.steps = steps := Run.steps_of stem limit steps
  obtain ⟨written, rest, hpieces, hsplit, hlines, hcomments⟩ := hsound.split
  have hbytes : bytes = (outputs stem steps).toUTF8.extract 0 limit := by
    rw [← hsteps]
    exact congrArg Sink.bytes hsound.sink
  rw [hsteps] at hpieces
  have hwhole : whole = Piece.countComments written := by
    rw [← hsplit.countWholeComments, ← hpieces]
  have hrefused : Piece.countComments (rest.take 1) ≤ 1 :=
    Nat.le_trans List.countP_le_length (List.length_take_le 1 rest)
  rw [Piece.countComments_append, ← hwhole] at hcomments
  refine ⟨hsteps, hsound.failure, hbytes, textOf_flatMap_pieces stem steps, hsound.headers,
    hsound.sources, ?_, fun hnone => ?_, by omega, by omega⟩
  · have hsize : (Piece.textOf written).toUTF8.size ≤ limit := by
      rw [Text.size_toUTF8]
      exact hsplit.fits
    rw [hlines, hbytes, ← textOf_flatMap_pieces, hpieces, Piece.textOf_append,
      Text.toUTF8_append, extract_append_of_le_size hsize, Text.countBreakBytes_append,
      Text.countBreakBytes_toUTF8]
    exact Nat.le_add_right _ _
  · obtain ⟨hall, hcount, -⟩ := hsound.of_fits (hsound.unrefused hnone)
    rw [hcount, show bytes = _ from hall, Text.countBreakBytes_toUTF8]

/-- A run that is cut in the second of two comments, which counts, and a run of the same
block that is not cut. -/
theorem counters_after_refusals_sample :
    let file : InputFile := ⟨"b.c", ["#include \"x.h\"\n", "#include \"y.h\"\n"]⟩
    let steps : List Step := [.text "a\n", .source file, .header file, .text ""]
    let cut := Run.of "" 50 steps
    let full := Run.of "" 62 [.text "a\n", .source file]
    (cut.log = [⟨.text "a\n", none⟩] ++ ⟨.source file, some (.unwritten .full)⟩ ::
        [⟨.header file, some (.unwritten .full)⟩, ⟨.text "", none⟩] ∧
      50 < (outputs "" [.text "a\n", .source file]).utf8ByteSize ∧
      cut.emitter.sink.bytes =
        "a\n/* === b.c === */\n/* #include \"x.h\" */\n/* #inclu".toUTF8 ∧
      cut.emitter.stats.commentedOut = 2 ∧
      Piece.countWholeComments 50 (steps.flatMap (Step.pieces "")) = 1) ∧
    (∀ a ∈ full.log, a.failure = none) ∧
      full.emitter.stats.lines = 4 ∧ Text.countBreakBytes full.emitter.sink.bytes = 4 := by
  intro file steps cut full
  obtain ⟨-, hfailure, hbytes, -, -, -, -, -, -, hmost⟩ := counters_after_refusals "" 50 steps
  -- Only `decide` is to compute the run, so the facts about it are restated for `cut`.
  have hcut : cut = Run.of "" 50 steps := rfl
  rw [← hcut] at hfailure hbytes hmost
  have hlog : cut.log = [⟨.text "a\n", none⟩] ++ ⟨.source file, some (.unwritten .full)⟩ ::
      [⟨.header file, some (.unwritten .full)⟩, ⟨.text "", none⟩] := by
    decide +kernel
  have hwhole : Piece.countWholeComments 50 (steps.flatMap (Step.pieces "")) = 1 := by
    decide +kernel
  have hnone : ∀ a ∈ full.log, a.failure = none := by decide +kernel
  obtain ⟨-, -, -, -, -, -, -, hlines, -, -⟩ :=
    counters_after_refusals "" 62 [.text "a\n", .source file]
  have hbreaks : Text.countBreakBytes full.emitter.sink.bytes = 4 := by decide +kernel
  refine ⟨⟨hlog, ?_, hbytes.trans (by decide +kernel), ?_, hwhole⟩, hnone,
    (hlines hnone).trans hbreaks, hbreaks⟩
  · by_contra hfits
    have hrefused := hfailure _ _ _ hlog
    rw [if_neg fun hcond => hfits hcond.2] at hrefused
    exact Option.some_ne_none _ hrefused
  · rw [hwhole] at hmost
    exact Nat.le_antisymm hmost (by decide +kernel)

end Emitter
end Amalgam
