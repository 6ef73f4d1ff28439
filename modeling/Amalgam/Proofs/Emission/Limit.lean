import Amalgam.Proofs.Document.Grammar

namespace Amalgam

/-!
# Destinations that run full

Over a destination with a limit an emission does what it does without a limit, up to
the byte at which the limit is passed.  There it fails, and what it leaves behind is
the beginning of what it would have written.

This is a statement about two runs of one program.  It is proved once for each way to
build a program: a single write, a change of the counters, a failure, a sequence.

Neither the manifest nor the headers need to be valid.  The stem that lines are matched
against is a field of the manifest and has no other use here, so it is arbitrary too.
-/

/-! ## Bytes that fit -/

/-- Bytes within a limit are kept whatever follows them. -/
theorem extract_append_of_size_le {bytes : ByteArray} {limit : Nat}
    (h : limit ≤ bytes.size) (more : ByteArray) :
    (bytes ++ more).extract 0 limit = bytes.extract 0 limit := by
  have hmore : more.extract (0 - bytes.size) (limit - bytes.size) = ByteArray.empty := by
    rw [ByteArray.extract_eq_empty_iff]
    omega
  rw [ByteArray.extract_append, hmore, ByteArray.append_empty]

/-- A limit behind the bytes leaves a part of what follows them. -/
theorem extract_append_of_le_size {bytes : ByteArray} {limit : Nat}
    (h : bytes.size ≤ limit) (more : ByteArray) :
    (bytes ++ more).extract 0 limit = bytes ++ more.extract 0 (limit - bytes.size) := by
  have hbytes : bytes.extract 0 limit = bytes := by
    have hmax : max limit bytes.size = limit := Nat.max_eq_left h
    rw [← hmax, ByteArray.extract_zero_max_size]
  rw [ByteArray.extract_append, hbytes, Nat.zero_sub]

/-! ## Two runs of one program -/

/-- The emitter over the same bytes, with a limit. -/
def Emitter.withLimit (e : Emitter) (limit : Nat) (refusesFlush : Bool) : Emitter :=
  ⟨⟨e.sink.bytes, some limit, refusesFlush⟩, e.stats⟩

/-- How a run ends without a limit, and how the same run ends with one.  The two agree
while everything fits.  When something does not fit, the run with the limit has kept
what fits and has failed. -/
inductive IsCutTo (limit : Nat) (refusesFlush : Bool) {α : Type} :
    EStateM.Result Failure Emitter α → EStateM.Result Failure Emitter α → Prop
  | fits {a : α} {e : Emitter} (hfits : e.sink.bytes.size ≤ limit) :
      IsCutTo limit refusesFlush (.ok a e) (.ok a (e.withLimit limit refusesFlush))
  | fails {failure : Failure} {e : Emitter} (hfits : e.sink.bytes.size ≤ limit) :
      IsCutTo limit refusesFlush (.error failure e)
        (.error failure (e.withLimit limit refusesFlush))
  | exceeds {whole : EStateM.Result Failure Emitter α} {cut : Emitter}
      (hexceeds : limit < (endState whole).sink.bytes.size)
      (hcut : cut.sink =
        ⟨(endState whole).sink.bytes.extract 0 limit, some limit, refusesFlush⟩) :
      IsCutTo limit refusesFlush whole (.error (.unwritten .full) cut)

/-- The program appends to its destination, and a limit does nothing but cut it
short. -/
structure IsAppending {α : Type} (x : EStateM Failure Emitter α) : Prop where
  appends : ∀ e : Emitter, e.sink.limit = none →
    ∃ added, (endState (x e)).sink = { e.sink with bytes := e.sink.bytes ++ added }
  isCutTo : ∀ (limit : Nat) (refusesFlush : Bool) (e : Emitter), e.sink.limit = none →
    e.sink.bytes.size ≤ limit →
      IsCutTo limit refusesFlush (x e) (x (e.withLimit limit refusesFlush))

namespace IsAppending

variable {α β : Type}

theorem pure (a : α) : IsAppending (Pure.pure a : EStateM Failure Emitter α) where
  appends _ _ := ⟨ByteArray.empty, by rw [ByteArray.append_empty]; rfl⟩
  isCutTo _ _ _ _ hfits := .fits hfits

theorem throw (failure : Failure) :
    IsAppending (throw failure : EStateM Failure Emitter α) where
  appends _ _ := ⟨ByteArray.empty, by rw [ByteArray.append_empty]; rfl⟩
  isCutTo _ _ _ _ hfits := .fails hfits

/-- Counting writes nothing. -/
theorem count (f : Stats → Stats) :
    IsAppending fun e : Emitter =>
      (.ok () { e with stats := f e.stats } : EStateM.Result Failure Emitter Unit) where
  appends _ _ := ⟨ByteArray.empty, by rw [ByteArray.append_empty]; rfl⟩
  isCutTo _ _ _ _ hfits := .fits hfits

/-- One write is cut where the limit is. -/
theorem addText (text : String) : IsAppending (Emitter.addText text) where
  appends e h := by
    rw [Emitter.addText_of_unlimited h]
    exact ⟨text.toUTF8, rfl⟩
  isCutTo limit refusesFlush e h hfits := by
    rw [Emitter.addText_of_unlimited h]
    have hsize : (e.extend text 0).sink.bytes.size = e.sink.bytes.size + text.toUTF8.size :=
      ByteArray.size_append
    by_cases htext : text.toUTF8.size ≤ limit - e.sink.bytes.size
    · have hwrite : Emitter.addText text (e.withLimit limit refusesFlush) =
          .ok () ((e.extend text 0).withLimit limit refusesFlush) := by
        simp only [Emitter.addText, Emitter.withLimit, Sink.write, if_pos htext]
        rfl
      rw [hwrite]
      exact .fits (by omega)
    · have hwrite : Emitter.addText text (e.withLimit limit refusesFlush) =
          .error (.unwritten .full)
            ⟨⟨e.sink.bytes ++ text.toUTF8.extract 0 (limit - e.sink.bytes.size), some limit,
              refusesFlush⟩, e.stats⟩ := by
        simp only [Emitter.addText, Emitter.withLimit, Sink.write, if_neg htext]
      rw [hwrite, ← extract_append_of_le_size hfits]
      exact .exceeds (by rw [endState]; omega) rfl

/-- A sequence is cut where its first part is cut, or else where its second part is. -/
theorem bind {x : EStateM Failure Emitter α} {f : α → EStateM Failure Emitter β}
    (hx : IsAppending x) (hf : ∀ a, IsAppending (f a)) : IsAppending (x >>= f) where
  appends e h := by
    obtain ⟨added, hadded⟩ := hx.appends e h
    cases hrun : x e with
    | error failure e' =>
        rw [hrun] at hadded
        rw [bind_of_error hrun]
        exact ⟨added, hadded⟩
    | ok a e' =>
        rw [hrun, endState] at hadded
        obtain ⟨more, hmore⟩ := (hf a).appends e' (by rw [hadded]; exact h)
        rw [bind_of_ok hrun, hmore, hadded]
        exact ⟨added ++ more, by rw [← ByteArray.append_assoc]⟩
  isCutTo limit refusesFlush e h hfits := by
    have hfirst := hx.isCutTo limit refusesFlush e h hfits
    obtain ⟨added, hadded⟩ := hx.appends e h
    generalize hcutRun : x (e.withLimit limit refusesFlush) = cutRun at hfirst
    cases hrun : x e with
    | error failure e' =>
        rw [hrun] at hfirst
        rw [bind_of_error hrun]
        cases hfirst with
        | fails hfits' =>
            rw [bind_of_error hcutRun]
            exact .fails hfits'
        | exceeds hexceeds hcut =>
            rw [bind_of_error hcutRun]
            exact .exceeds hexceeds hcut
    | ok a e' =>
        rw [hrun] at hfirst hadded
        have hlimit : e'.sink.limit = none := by
          rw [endState] at hadded
          rw [hadded]
          exact h
        rw [bind_of_ok hrun]
        cases hfirst with
        | fits hfits' =>
            rw [bind_of_ok hcutRun]
            exact (hf a).isCutTo limit refusesFlush e' hlimit hfits'
        | exceeds hexceeds hcut =>
            -- What the second part would append lies behind the limit.
            obtain ⟨more, hmore⟩ := (hf a).appends e' hlimit
            rw [endState] at hexceeds hcut
            rw [bind_of_error hcutRun]
            refine .exceeds ?_ ?_
            · rw [hmore, ByteArray.size_append]
              omega
            · rw [hcut, hmore, extract_append_of_size_le (Nat.le_of_lt hexceeds)]

end IsAppending

/-! ## The programs of an emission -/

namespace IsAppending

theorem addLine (stem line : String) : IsAppending (Emitter.addLine stem line) := by
  unfold Emitter.addLine
  split
  · exact addText _
  · exact bind (count fun s => { s with commentedOut := s.commentedOut + 1 }) fun _ => addText _

theorem addLines (stem : String) (lines : List String) :
    IsAppending (Emitter.addLines stem lines) := by
  induction lines with
  | nil => exact pure ()
  | cons line lines ih => exact bind (addLine stem line) fun _ => ih

theorem addBlock (stem : String) (file : InputFile) :
    IsAppending (Emitter.addBlock stem file) := by
  refine bind (addText _) fun _ => bind (addLines stem file.lines) fun _ => ?_
  split
  · exact addText _
  · exact pure ()

theorem addHeader (stem : String) (file : InputFile) :
    IsAppending (Emitter.addHeader stem file) :=
  bind (addBlock stem file) fun _ => count fun s => { s with headers := s.headers + 1 }

theorem addSource (stem : String) (file : InputFile) :
    IsAppending (Emitter.addSource stem file) :=
  bind (addBlock stem file) fun _ => count fun s => { s with sources := s.sources + 1 }

theorem writePart (store : Store) (stem : String) (part : Part) :
    IsAppending (Amalgam.writePart store stem part) := by
  cases part with
  | text content => exact addText content
  | header name =>
      rw [Amalgam.writePart]
      split
      · exact throw _
      · exact addHeader stem _
  | source name =>
      rw [Amalgam.writePart]
      split
      · exact throw _
      · exact addSource stem _

theorem writeParts (store : Store) (stem : String) (parts : List Part) :
    IsAppending (Amalgam.writeParts store stem parts) := by
  induction parts with
  | nil => exact pure ()
  | cons part parts ih => exact bind (writePart store stem part) fun _ => ih

end IsAppending

/-! ## Emission with and without a limit -/

namespace Emission

/-- The bytes are those that the parts have left; flushing adds none. -/
theorem written_into (sink : Sink) (m : Manifest) (headers : List String) (store : Store) :
    (into sink m headers store).written =
      (endState (writeParts store m.stem (m.outline headers) ⟨sink, {}⟩)).sink.bytes := by
  cases hrun : writeParts store m.stem (m.outline headers) ⟨sink, {}⟩ with
  | error failure e =>
      rw [into_of_error hrun]
      rfl
  | ok _ e =>
      rw [into_of_ok hrun]
      rfl

end Emission

/-- An emission whose output fits under the limit is the same as without a limit, except
that the final flush may be refused.  An emission whose output does not fit leaves its
first bytes, as many as the limit allows, and fails because the destination is full,
even where it would have failed for another reason later. -/
theorem emission_to_limited_sink (m : Manifest) (headers : List String) (store : Store)
    (limit : Nat) (refusesFlush : Bool) :
    let whole := Emission.into Sink.unbounded m headers store
    let cut := Emission.into { Sink.limited limit with refusesFlush := refusesFlush } m
      headers store
    (whole.written.size ≤ limit →
      cut.written = whole.written ∧
      cut.outcome = match whole.outcome with
        | .error failure => .error failure
        | .ok stats =>
            if refusesFlush then .error (.unflushed .flushRefused) else .ok stats) ∧
    (limit < whole.written.size →
      cut.written = whole.written.extract 0 limit ∧
      cut.outcome = .error (.unwritten .full)) := by
  intro whole cut
  have hparts := IsAppending.writeParts store m.stem (m.outline headers)
  obtain ⟨added, hadded⟩ := hparts.appends ⟨Sink.unbounded, {}⟩ rfl
  have hcutTo := hparts.isCutTo limit refusesFlush ⟨Sink.unbounded, {}⟩ rfl (Nat.zero_le _)
  have hwritten : whole.written = _ := Emission.written_into Sink.unbounded m headers store
  generalize hwholeRun : writeParts store m.stem (m.outline headers)
    ⟨Sink.unbounded, {}⟩ = wholeRun at hadded hcutTo hwritten
  generalize hcutRun : writeParts store m.stem (m.outline headers)
    (Emitter.withLimit ⟨Sink.unbounded, {}⟩ limit refusesFlush) = cutRun at hcutTo
  cases hcutTo with
  | @fits _ e hfits =>
      have hflush : e.sink.refusesFlush = false := congrArg Sink.refusesFlush hadded
      have hwhole : whole = ⟨e.sink.bytes, .ok e.stats⟩ :=
        (Emission.into_of_ok hwholeRun).trans (by rw [hflush]; rfl)
      have hcut : cut = ⟨(e.withLimit limit refusesFlush).sink.bytes,
          if refusesFlush then .error (.unflushed .flushRefused) else .ok e.stats⟩ :=
        Emission.into_of_ok hcutRun
      rw [hwhole, hcut]
      exact ⟨fun _ => ⟨rfl, rfl⟩, fun hexceeds => absurd hfits (Nat.not_le.2 hexceeds)⟩
  | @fails failure e hfits =>
      have hwhole : whole = ⟨e.sink.bytes, .error failure⟩ := Emission.into_of_error hwholeRun
      have hcut : cut = ⟨(e.withLimit limit refusesFlush).sink.bytes, .error failure⟩ :=
        Emission.into_of_error hcutRun
      rw [hwhole, hcut]
      exact ⟨fun _ => ⟨rfl, rfl⟩, fun hexceeds => absurd hfits (Nat.not_le.2 hexceeds)⟩
  | @exceeds _ e hexceeds hsink =>
      have hcut : cut = ⟨e.sink.bytes, .error (.unwritten .full)⟩ :=
        Emission.into_of_error hcutRun
      rw [hcut, hwritten, hsink]
      exact ⟨fun hfits => absurd hfits (Nat.not_le.2 hexceeds), fun _ => ⟨rfl, rfl⟩⟩

/-- An emission that ends in an unreadable header, cut in a block and cut at its very end,
and one that succeeds and just fits, with a flush that is taken and one that is refused. -/
theorem emission_to_limited_sink_sample :
    let emission := fun sink =>
      Emission.into sink Manifest.sample ["cfg.h", "gone.h"] Store.sample
    let complete := fun sink =>
      Emission.into sink Manifest.sample ["cfg.h", "near.h", "tail.h"] Store.sample
    (emission Sink.unbounded =
      ⟨(String.join
          ["/* lib */\n", "/* === cfg.h === */\n", "#define API\n",
           "/* #include \"far.h\" */\n", "#undef API\n", "\n"]).toUTF8,
        .error (.headerUnread "gone.h" (.missing "gone.h"))⟩) ∧
    (40 < (emission Sink.unbounded).written.size ∧
      (emission (Sink.limited 40)).written =
        ("/* lib */\n" ++ "/* === cfg.h === */\n" ++ "#define AP").toUTF8 ∧
      (emission (Sink.limited 40)).outcome = .error (.unwritten .full)) ∧
    ((emission Sink.unbounded).written.size ≤ 77 ∧
      (emission (Sink.limited 77)).written = (emission Sink.unbounded).written ∧
      (emission (Sink.limited 77)).outcome =
        .error (.headerUnread "gone.h" (.missing "gone.h"))) ∧
    (complete Sink.unbounded =
      ⟨Manifest.sampleText.toUTF8, .ok Manifest.sampleAmalgamation.stats⟩) ∧
    (complete Sink.unbounded).written.size ≤ 425 ∧
      (complete (Sink.limited 425)).written = Manifest.sampleText.toUTF8 ∧
      (complete (Sink.limited 425)).outcome = .ok Manifest.sampleAmalgamation.stats ∧
      (complete { Sink.limited 425 with refusesFlush := true }).written =
        Manifest.sampleText.toUTF8 ∧
      (complete { Sink.limited 425 with refusesFlush := true }).outcome =
        .error (.unflushed .flushRefused) := by
  intro emission complete
  have hread : ∀ part ∈ [Part.text "/* lib */\n", .header "cfg.h", .text "#undef API\n",
      .text "\n"], part.Readable Store.sample := by
    have hheader : Store.sample.Readable "cfg.h" := by decide
    simpa [Part.Readable] using hheader
  obtain ⟨e, hrun, hbytes⟩ : ∃ e,
      writeParts Store.sample "" (Manifest.sample.outline ["cfg.h", "gone.h"])
        ⟨Sink.unbounded, {}⟩ = .error (.headerUnread "gone.h" (.missing "gone.h")) e ∧
      e.sink.bytes = (String.join
          ["/* lib */\n", "/* === cfg.h === */\n", "#define API\n",
           "/* #include \"far.h\" */\n", "#undef API\n", "\n"]).toUTF8 := by
    refine ⟨_, writeParts_of_unread_header rfl hread rfl _, ?_⟩
    refine ByteArray.empty_append.trans (congrArg String.toUTF8 ?_)
    decide +kernel
  have hwhole := Emission.into_of_error hrun
  rw [hbytes] at hwhole
  have hcut := emission_to_limited_sink Manifest.sample ["cfg.h", "gone.h"] Store.sample
  have hexceeds : 40 < (emission Sink.unbounded).written.size := by
    rw [show emission Sink.unbounded = _ from hwhole]
    decide +kernel
  have hfits : (emission Sink.unbounded).written.size ≤ 77 := by
    rw [show emission Sink.unbounded = _ from hwhole]
    decide +kernel
  obtain ⟨hwritten, houtcome⟩ := (hcut 40 false).2 hexceeds
  obtain ⟨hwritten', houtcome'⟩ := (hcut 77 false).1 hfits
  have hcomplete : complete Sink.unbounded =
      ⟨Manifest.sampleText.toUTF8, .ok Manifest.sampleAmalgamation.stats⟩ := by
    rw [← Manifest.documentText_sample, ← Manifest.documentStats_sample]
    exact Manifest.into_unbounded_of_readable Manifest.readable_sample
  have hjust : (complete Sink.unbounded).written.size ≤ 425 := by
    rw [hcomplete]
    decide +kernel
  have hlimited := fun refusesFlush =>
    (emission_to_limited_sink Manifest.sample ["cfg.h", "near.h", "tail.h"] Store.sample 425
      refusesFlush).1 hjust
  rw [show Emission.into _ _ _ _ = _ from hcomplete] at hlimited
  refine ⟨hwhole, ⟨hexceeds, ?_, houtcome⟩, ⟨hfits, hwritten', ?_⟩, hcomplete, hjust,
    (hlimited false).1, (hlimited false).2, (hlimited true).1, (hlimited true).2⟩
  · refine hwritten.trans ?_
    rw [hwhole]
    decide +kernel
  · refine houtcome'.trans ?_
    rw [hwhole]

end Amalgam
