import Amalgam.FileTree.Inputs
import Amalgam.Proofs.FileTree.Resolution

namespace Amalgam
namespace FileTree

/-!
# Reading inputs from a tree

The store of a directory depends on nothing but what its paths read, and the digest of a
file is the digest of its content: in which chunks the file is read does not matter.
-/

/-! ## Stores of directories -/

section Stores

variable {t t' : FileTree} {root name : String}

theorem storeAt_congr (h : t'.read (Path.join root name) = t.read (Path.join root name)) :
    t'.storeAt root name = t.storeAt root name := by
  unfold storeAt
  simp only [h]

theorem exists_read_of_storeAt {text : String} (h : t.storeAt root name = .ok text) :
    ∃ content, t.read (Path.join root name) = .ok content := by
  unfold storeAt at h
  simp only at h
  split at h
  · cases h
  · rename_i content hread
    exact ⟨content, hread⟩

end Stores

/-! ## Digests of files -/

theorem head_append_rest (content : ByteArray) :
    content.extract 0 readSize ++ content.extract readSize content.size = content := by
  rw [ByteArray.extract_append_extract, Nat.zero_min, ByteArray.extract_zero_max_size]

theorem feed_readsOf (h : Sha256.Hasher) (content : ByteArray) :
    Sha256.feed Sha256.Hasher.update h (readsOf content) = h.update content := by
  induction content using readsOf.induct generalizing h with
  | case1 content hsize =>
      rw [readsOf, if_pos hsize, ByteArray.size_eq_zero_iff.1 hsize]
      rfl
  | case2 content hsize ih =>
      -- No chunk is empty, so none is taken for the end of the stream.
      have hchunk : (content.extract 0 readSize).isEmpty = false := by
        simpa [ByteArray.isEmpty, readSize] using hsize
      rw [readsOf, if_neg hsize, Sha256.feed, hchunk, if_neg (by decide), ih,
        ← Sha256.Hasher.update_append, head_append_rest]

theorem digestReads_readsOf (content : ByteArray) :
    Sha256.digestReads (readsOf content) = Sha256.digest content := by
  rw [Sha256.digestReads, feed_readsOf, Sha256.digest]

theorem digestOf_of_read {t : FileTree} {path : String} {content : ByteArray}
    (h : t.read path = .ok content) :
    t.digestOf path = .ok (Sha256.digest content) := by
  rw [digestOf, read_eq_ok_iff_open?.1 h]
  exact congrArg Except.ok (digestReads_readsOf content)

end FileTree
end Amalgam
