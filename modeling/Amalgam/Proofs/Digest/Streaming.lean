import Amalgam.Proofs.FileTree.Inputs

namespace Amalgam
namespace Sha256

/-!
# Hashing a stream

A file is hashed while it is read.  One read after the other goes to the hasher, and a read
without a byte ends the loop.  Here the loop is a machine that takes one read at a time, for
any hasher: a list that is appended to is one, and it records which updates are made.

Where the stream is cut into reads makes no difference to a digest that depends on nothing
but the bytes of the updates.  A read without a byte in the middle of a stream WOULD make
one: nothing behind it is hashed.
-/

/-! ## The loop -/

/-- The state of the loop: the hasher, and whether the end of the stream was seen. -/
structure Streaming (α : Type) where
  hasher : α
  ended : Bool
deriving DecidableEq

namespace Streaming

/-- The bytes of consecutive reads. -/
def joined : List ByteArray → ByteArray
  | [] => ByteArray.empty
  | chunk :: chunks => chunk ++ joined chunks

/-- A way to read a content to its end: each read has a byte, and none has more than fit
into the buffer. -/
structure IsSplit (content : ByteArray) (chunks : List ByteArray) : Prop where
  size_pos : ∀ chunk ∈ chunks, 0 < chunk.size
  size_le : ∀ chunk ∈ chunks, chunk.size ≤ FileTree.readSize
  joined_eq : joined chunks = content

theorem isEmpty_of_size_pos {chunk : ByteArray} (h : 0 < chunk.size) :
    chunk.isEmpty = false := by
  simpa [ByteArray.isEmpty] using Nat.ne_of_gt h

section Loop

variable {α : Type} (update : α → ByteArray → α)

/-- One more read.  After the end of the stream nothing is read any more. -/
def take (s : Streaming α) (chunk : ByteArray) : Streaming α :=
  if s.ended then s
  else if chunk.isEmpty then { s with ended := true }
  else { s with hasher := update s.hasher chunk }

def run (start : α) (reads : List ByteArray) : Streaming α :=
  reads.foldl (take update) ⟨start, false⟩

/-! ### Steps -/

variable {update} {s : Streaming α} {a : α} {chunk : ByteArray}

theorem take_of_ended (h : s.ended = true) (chunk : ByteArray) : s.take update chunk = s :=
  if_pos h

theorem take_of_isEmpty (h : chunk.isEmpty = true) :
    take update ⟨a, false⟩ chunk = ⟨a, true⟩ := by
  rw [take, h]
  rfl

theorem take_of_not_isEmpty (h : chunk.isEmpty = false) :
    take update ⟨a, false⟩ chunk = ⟨update a chunk, false⟩ := by
  rw [take, h]
  rfl

/-! ### Runs -/

theorem foldl_take_of_ended (h : s.ended = true) (reads : List ByteArray) :
    reads.foldl (take update) s = s := by
  induction reads with
  | nil => rfl
  | cons chunk reads ih => rw [List.foldl_cons, take_of_ended h, ih]

/-- The machine leaves behind the hasher that the loop does. -/
theorem hasher_run (a : α) (reads : List ByteArray) :
    (run update a reads).hasher = feed update a reads := by
  induction reads generalizing a with
  | nil => rfl
  | cons chunk reads ih =>
      rw [run, List.foldl_cons, feed]
      cases hempty : chunk.isEmpty with
      | true =>
          rw [take_of_isEmpty hempty, foldl_take_of_ended rfl]
          rfl
      | false =>
          rw [take_of_not_isEmpty hempty]
          exact ih (update a chunk)

/-- As long as the reads have bytes, each of them becomes one update. -/
theorem run_of_size_pos (a : α) {chunks : List ByteArray}
    (h : ∀ chunk ∈ chunks, 0 < chunk.size) :
    run update a chunks = ⟨chunks.foldl update a, false⟩ := by
  induction chunks generalizing a with
  | nil => rfl
  | cons chunk chunks ih =>
      obtain ⟨hchunk, hchunks⟩ := List.forall_mem_cons.1 h
      rw [run, List.foldl_cons, take_of_not_isEmpty (isEmpty_of_size_pos hchunk),
        List.foldl_cons]
      exact ih (update a chunk) hchunks

/-- The empty read ends the loop, and what comes behind it is left alone. -/
theorem run_append_empty (a : α) {chunks : List ByteArray}
    (h : ∀ chunk ∈ chunks, 0 < chunk.size) (later : List ByteArray) :
    run update a (chunks ++ ByteArray.empty :: later) = ⟨chunks.foldl update a, true⟩ := by
  have hrun : chunks.foldl (take update) ⟨a, false⟩ = ⟨chunks.foldl update a, false⟩ :=
    run_of_size_pos a h
  rw [run, List.foldl_append, hrun, List.foldl_cons, take_of_isEmpty rfl,
    foldl_take_of_ended rfl]

end Loop

/-! ## Hashers -/

/-- The updates of the hash are one update with the bytes of all. -/
theorem foldl_update (h : Hasher) (chunks : List ByteArray) :
    chunks.foldl Hasher.update h = h.update (joined chunks) := by
  induction chunks generalizing h with
  | nil => rfl
  | cons chunk chunks ih => rw [List.foldl_cons, ih, joined, Hasher.update_append]

/-- The recording hasher ends with the list of its updates. -/
theorem foldl_record (log chunks : List ByteArray) :
    chunks.foldl (fun log chunk => log ++ [chunk]) log = log ++ chunks := by
  induction chunks generalizing log with
  | nil => exact (List.append_nil log).symm
  | cons chunk chunks ih => rw [List.foldl_cons, ih, List.append_assoc, List.singleton_append]

/-! ## The reads of a file -/

theorem isSplit_readsOf (content : ByteArray) :
    IsSplit content (FileTree.readsOf content) := by
  induction content using FileTree.readsOf.induct with
  | case1 content hsize =>
      rw [FileTree.readsOf, if_pos hsize, ByteArray.size_eq_zero_iff.1 hsize]
      exact ⟨List.forall_mem_nil _, List.forall_mem_nil _, rfl⟩
  | case2 content hsize ih =>
      have hhead : (content.extract 0 FileTree.readSize).size =
          min FileTree.readSize content.size := by simp
      rw [FileTree.readsOf, if_neg hsize]
      refine ⟨List.forall_mem_cons.2 ⟨?_, ih.size_pos⟩,
        List.forall_mem_cons.2 ⟨?_, ih.size_le⟩, ?_⟩
      · rw [hhead, FileTree.readSize]
        omega
      · rw [hhead]
        exact Nat.min_le_left _ _
      · rw [joined, ih.joined_eq, FileTree.head_append_rest]

end Streaming

/-- However a content is cut into reads, any hasher gets its bytes and nothing else: while
the stream goes on, it has been fed the reads so far, one update for each, and the first
empty read ends the loop for good.  The updates are all of the reads, and these make up the
content.  So a digest that depends on nothing but the bytes of the updates is the digest of
the content, and the digest of the hash at hand is such a one.  A file is read in such a way,
and its digest is the digest of any such stream. -/
theorem digest_of_stream {content : ByteArray} {chunks : List ByteArray}
    (h : Streaming.IsSplit content chunks) (later : List ByteArray) :
    let reads := chunks ++ ByteArray.empty :: later
    (∀ {α : Type} (update : α → ByteArray → α) (start : α),
      (∀ n, (Streaming.run update start (reads.take n)).hasher =
        feed update start (reads.take n)) ∧
      (∀ n ≤ chunks.length, Streaming.run update start (reads.take n) =
        ⟨(chunks.take n).foldl update start, false⟩) ∧
      (∀ n, chunks.length < n →
        Streaming.run update start (reads.take n) = ⟨chunks.foldl update start, true⟩) ∧
      ∀ {β : Type} (digest : α → β),
        (∀ one other, Streaming.joined one = Streaming.joined other →
          digest (one.foldl update start) = digest (other.foldl update start)) →
        digest (feed update start reads) = digest (update start content)) ∧
    feed (fun log chunk => log ++ [chunk]) [] reads = chunks ∧
    Streaming.joined chunks = content ∧
    (∀ updates : List ByteArray, updates.foldl Hasher.update Hasher.start =
      Hasher.start.update (Streaming.joined updates)) ∧
    digestReads reads = digest content ∧
    Streaming.IsSplit content (FileTree.readsOf content) ∧
    ∀ (t : FileTree) (path : String), t.read path = .ok content →
      t.digestOf path = .ok (digestReads reads) := by
  intro reads
  have hfeed : ∀ {α : Type} (update : α → ByteArray → α) (start : α),
      feed update start reads = chunks.foldl update start := by
    intro α update start
    rw [← Streaming.hasher_run, Streaming.run_append_empty start h.size_pos]
  have hdigest : digestReads reads = digest content := by
    rw [digestReads, hfeed, Streaming.foldl_update, h.joined_eq, digest]
  refine ⟨fun update start => ⟨fun n => Streaming.hasher_run start _, ?_, ?_, ?_⟩, ?_,
    h.joined_eq, Streaming.foldl_update Hasher.start, hdigest,
    Streaming.isSplit_readsOf content, ?_⟩
  · intro n hn
    rw [List.take_append_of_le_length hn]
    exact Streaming.run_of_size_pos start fun chunk hchunk =>
      h.size_pos chunk (List.mem_of_mem_take hchunk)
  · intro n hn
    obtain ⟨k, rfl⟩ := Nat.exists_eq_add_of_lt hn
    rw [Nat.add_assoc, List.take_length_add_append, List.take_succ_cons]
    exact Streaming.run_append_empty start h.size_pos _
  · intro β digest hbytes
    -- One update with all of the content is one way to cut it.
    have hwhole : Streaming.joined chunks = Streaming.joined [content] := by
      rw [h.joined_eq, Streaming.joined, Streaming.joined, ByteArray.append_empty]
    rw [hfeed]
    exact hbytes chunks [content] hwhole
  · rw [hfeed, Streaming.foldl_record, List.nil_append]
  · intro t path hread
    rw [FileTree.digestOf_of_read hread, hdigest]

/-- One byte more than the buffer holds, a stream that goes on behind its end, and the digest
of a short one. -/
theorem digest_of_stream_overfull :
    let full : ByteArray := ⟨Array.replicate 8192 0x61⟩
    let tail : ByteArray := ⟨#[0x0A]⟩
    Streaming.IsSplit (full ++ tail) [full, tail] ∧
    Streaming.run (fun log chunk => log ++ [chunk]) [] [full, tail, ByteArray.empty, full] =
      ⟨[full, tail], true⟩ ∧
    digestReads [full, tail, ByteArray.empty, full] = digest (full ++ tail) ∧
    Streaming.IsSplit "abc".toUTF8 ["a".toUTF8, "bc".toUTF8] ∧
    digestReads ["a".toUTF8, "bc".toUTF8, ByteArray.empty, full] =
      "ba7816bf8f01cfea414140de5dae2223b00361a396177a9cb410ff61f20015ad" := by
  intro full tail
  have hfull : full.size = 8192 := Array.size_replicate
  have htail : tail.size = 1 := rfl
  have hsplit : Streaming.IsSplit (full ++ tail) [full, tail] := by
    refine ⟨?_, ?_, ?_⟩
    · rw [List.forall_mem_cons, List.forall_mem_singleton, hfull, htail]
      decide
    · rw [List.forall_mem_cons, List.forall_mem_singleton, hfull, htail]
      decide
    · rw [Streaming.joined, Streaming.joined, Streaming.joined, ByteArray.append_empty]
  have habc : Streaming.IsSplit "abc".toUTF8 ["a".toUTF8, "bc".toUTF8] :=
    ⟨by decide, by decide, by decide +kernel⟩
  obtain ⟨hloop, -, -, -, hdigest, -⟩ := digest_of_stream hsplit [full]
  obtain ⟨-, -, hended, -⟩ := hloop (fun log chunk => log ++ [chunk]) []
  have hbytes : ∀ one other, Streaming.joined one = Streaming.joined other →
      hexOfState (one.foldl Hasher.update Hasher.start).finish =
        hexOfState (other.foldl Hasher.update Hasher.start).finish := by
    intro one other hjoined
    rw [Streaming.foldl_update, Streaming.foldl_update, hjoined]
  obtain ⟨hshort, -⟩ := digest_of_stream habc [full]
  obtain ⟨-, -, -, hwhole⟩ := hshort Hasher.update Hasher.start
  exact ⟨hsplit, hended 4 (by decide), hdigest, habc,
    (hwhole (fun h => hexOfState h.finish) hbytes).trans (by decide +kernel)⟩

end Sha256
end Amalgam
