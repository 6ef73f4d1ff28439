import Amalgam.Output
import Amalgam.Proofs.FileTree.Inputs

namespace Amalgam

/-!
# How a check ends

A check renders the document afresh and looks at the output only then.  If there is a
file, the two digests decide; that the file is hashed while it is read does not show.
-/

namespace Manifest

section Checking

variable {m : Manifest} {store : Store} {output : String} {t : FileTree} {a : Amalgamation}

theorem check_of_render_ok (h : m.render store = .ok a) :
    m.check store output t =
      if !t.pathExists output then .ok .missing
      else t.digestOf output >>= fun actual =>
        if a.digest = actual then .ok .upToDate else .ok (.stale a.digest actual) := by
  unfold check
  rw [except_bind_of_ok h]
  split
  · rfl
  · rfl

theorem check_eq_missing_iff (h : m.render store = .ok a) :
    m.check store output t = .ok .missing ↔ t.pathExists output = false := by
  rw [check_of_render_ok h]
  cases hexists : t.pathExists output with
  | false => simp
  | true =>
      simp only [Bool.not_true, Bool.false_eq_true, if_false, Bool.true_eq_false, iff_false]
      rw [except_bind_eq_ok_iff]
      rintro ⟨actual, -, hactual⟩
      split at hactual
      · cases hactual
      · cases hactual

theorem check_of_read (h : m.render store = .ok a) {content : ByteArray}
    (hread : t.read output = .ok content) :
    m.check store output t =
      if a.digest = Sha256.digest content then .ok .upToDate
      else .ok (.stale a.digest (Sha256.digest content)) := by
  rw [check_of_render_ok h, FileTree.pathExists_of_read hread,
    except_bind_of_ok (FileTree.digestOf_of_read hread)]
  rfl

theorem check_of_directory (h : m.render store = .ok a)
    (hopen : t.open? output = .ok .directory) :
    m.check store output t = .error (.digestNotRead output .isDirectory) := by
  rw [check_of_render_ok h, FileTree.pathExists, FileTree.digestOf, hopen]
  rfl

end Checking

end Manifest
end Amalgam
