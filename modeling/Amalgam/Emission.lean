import Amalgam.Failure
import Amalgam.Include

namespace Amalgam

/-!
# Emission

The document is a fixed sequence of parts: the prologue, a block for each
header, the line that opens the implementation section, a block for each
source, and the line that closes it.  The epilogue and one line feed follow the
block of the configuration header.  A block is a boundary marker and the
relocated lines of a file, with a line feed added when the last one lacks it.

An emitter writes parts to a destination and counts as it goes.  It survives a
refused write: its counters then tell what had been written before.
-/

/-- Counters kept while emitting. -/
structure Stats where
  headers : Nat := 0
  sources : Nat := 0
  /-- The local includes that became comments. -/
  commentedOut : Nat := 0
  /-- The lines written, injected texts included. -/
  lines : Nat := 0
deriving DecidableEq

/-- A destination with the counters of what was written to it. -/
structure Emitter where
  sink : Sink
  stats : Stats

/-- Whether a relocated file still needs a line feed at its end. -/
def needsBreak (stem : String) (lines : List String) : Bool :=
  match lines.getLast? with
  | none => false
  | some line => !Text.isTerminated (Include.relocate stem line)

namespace Emitter

/-- Writes a text verbatim. -/
def addText (text : String) : EStateM Failure Emitter Unit
  | ⟨sink, stats⟩ =>
      match Sink.write text.toUTF8 sink with
      -- The lines count only once all of the text is written.
      | .ok _ sink =>
          .ok () ⟨sink, { stats with lines := stats.lines + Text.countBreaks text }⟩
      | .error fault sink => .error (.unwritten fault) ⟨sink, stats⟩

def countHeader : EStateM Failure Emitter Unit := fun e =>
  .ok () { e with stats := { e.stats with headers := e.stats.headers + 1 } }

def countSource : EStateM Failure Emitter Unit := fun e =>
  .ok () { e with stats := { e.stats with sources := e.stats.sources + 1 } }

def countCommentedOut : EStateM Failure Emitter Unit := fun e =>
  .ok () { e with
    stats := { e.stats with commentedOut := e.stats.commentedOut + 1 } }

/-- Writes a line as it stands in the amalgamation. -/
def addLine (stem line : String) : EStateM Failure Emitter Unit :=
  match Include.replacement? stem line with
  | none => addText line
  | some comment => do
      -- A comment counts before it is written, so it counts even if that fails.
      countCommentedOut
      addText comment

def addLines (stem : String) : List String → EStateM Failure Emitter Unit
  | [] => pure ()
  | line :: lines => do
      addLine stem line
      addLines stem lines

def addBlock (stem : String) (file : InputFile) : EStateM Failure Emitter Unit := do
  addText (markerLine file.name)
  addLines stem file.lines
  if needsBreak stem file.lines then addText "\n"

/-- Writes the block of a header, which counts once it is complete. -/
def addHeader (stem : String) (file : InputFile) : EStateM Failure Emitter Unit := do
  addBlock stem file
  countHeader

/-- Writes the block of a source, which counts once it is complete. -/
def addSource (stem : String) (file : InputFile) : EStateM Failure Emitter Unit := do
  addBlock stem file
  countSource

/-- Flushes the destination and hands out the counters. -/
def finish : EStateM Failure Emitter Stats
  | ⟨sink, stats⟩ =>
      match Sink.flush sink with
      | .ok _ sink => .ok stats ⟨sink, stats⟩
      | .error fault sink => .error (.unflushed fault) ⟨sink, stats⟩

end Emitter

/-- One part of the document. -/
inductive Part where
  /-- A text injected verbatim. -/
  | text (content : String)
  /-- The block of a header. -/
  | header (name : String)
  /-- The block of a source. -/
  | source (name : String)
deriving DecidableEq

namespace Manifest

/-- The parts of a header: its block, and what is injected after it. -/
def headerParts (m : Manifest) (name : String) : List Part :=
  if name = m.configHeader then
    [.header name, .text m.epilogue, .text "\n"]
  else [.header name]

/-- The parts of the document in order. -/
def outline (m : Manifest) (headers : List String) : List Part :=
  [.text m.prologue] ++ headers.flatMap m.headerParts ++
    [.text m.openingLine] ++ m.sources.map .source ++ [.text m.closingLine]

end Manifest

/-- Writes one part, whose file is read just before. -/
def writePart (store : Store) (stem : String) : Part → EStateM Failure Emitter Unit
  | .text content => Emitter.addText content
  | .header name =>
      match store.read name with
      | .error cause => throw (.headerUnread name cause)
      | .ok file => Emitter.addHeader stem file
  | .source name =>
      match store.read name with
      | .error cause => throw (.sourceUnread name cause)
      | .ok file => Emitter.addSource stem file

/-- Writes parts in order and stops at the first that fails. -/
def writeParts (store : Store) (stem : String) :
    List Part → EStateM Failure Emitter Unit
  | [] => pure ()
  | part :: parts => do
      writePart store stem part
      writeParts store stem parts

/-- Writes the document of a manifest with the given headers to a destination. -/
def emit (m : Manifest) (headers : List String) (store : Store) :
    EStateM Failure Emitter Stats := do
  writeParts store m.stem (m.outline headers)
  Emitter.finish

/-- What an emission leaves behind: the bytes written, and how it ended. -/
structure Emission where
  written : ByteArray
  outcome : Except Failure Stats

/-- The emission of a document to a fresh emitter over a destination. -/
def Emission.into (sink : Sink) (m : Manifest) (headers : List String)
    (store : Store) : Emission :=
  match emit m headers store ⟨sink, {}⟩ with
  | .ok stats e => ⟨e.sink.bytes, .ok stats⟩
  | .error failure e => ⟨e.sink.bytes, .error failure⟩

end Amalgam
