import Amalgam.FileTree.Replacement
import Amalgam.Proofs.FileTree.Frame
import Mathlib.Data.List.Nodup
import Mathlib.Data.List.Perm.Subperm

namespace Amalgam
namespace FileTree

/-!
# Replacing a file is all or nothing

A replacement can end in five ways: the directory cannot be made, the temporary file
cannot be made, it cannot be filled, it cannot be moved, or all goes well.  The
destination is touched in the last one only, and in the last but one the temporary file
is still there.

The name of the temporary file is free, so it never stands for a file that was there
before.
-/

/-! ## Temporary names -/

theorem digitChar_inj {a b : Nat} (ha : a < 10) (hb : b < 10)
    (h : Nat.digitChar a = Nat.digitChar b) : a = b := by
  have hall : ∀ a < 10, ∀ b < 10, Nat.digitChar a = Nat.digitChar b → a = b := by decide
  exact hall a ha b hb h

theorem digitsIn_injective (width : Nat) : Function.Injective (digitsIn width) := by
  induction width with
  | zero =>
      intro m n h
      simpa [digitsIn] using congrArg List.length h
  | succ width ih =>
      intro m n h
      rw [digitsIn, digitsIn] at h
      obtain ⟨hfront, hlast⟩ := List.append_inj' h rfl
      have htens : m / 10 = n / 10 := ih hfront
      have hones : m % 10 = n % 10 :=
        digitChar_inj (Nat.mod_lt m (by decide)) (Nat.mod_lt n (by decide))
          (List.singleton_inj.1 hlast)
      omega

theorem temporaryName_injective : Function.Injective temporaryName := by
  intro m n h
  unfold temporaryName at h
  apply digitsIn_injective 6
  apply String.ofList_injective
  exact (String.append_right_inj _).1 h

section Fresh

variable (t : FileTree) (directory : Place)

/-- Among one name more than are taken, one is free. -/
theorem freshName_spec :
    t.freshName directory ∉ t.namesIn directory ∧ ∃ n, t.freshName directory = temporaryName n := by
  have hsome : ∃ name, ((List.range ((t.namesIn directory).length + 1)).map temporaryName).find?
      (· ∉ t.namesIn directory) = some name := by
    rw [← Option.isSome_iff_exists, List.find?_isSome]
    by_contra hnone
    have hsubset : (List.range ((t.namesIn directory).length + 1)).map temporaryName ⊆
        t.namesIn directory := by
      intro name hname
      by_contra hfree
      exact hnone ⟨name, hname, by simpa using hfree⟩
    have hnodup := (List.nodup_range (n := (t.namesIn directory).length + 1)).map
      temporaryName_injective
    have hlength := (hnodup.subperm hsubset).length_le
    simp only [List.length_map, List.length_range] at hlength
    omega
  obtain ⟨name, hname⟩ := hsome
  have hfresh : t.freshName directory = name := by
    show Option.getD _ _ = name
    rw [hname, Option.getD_some]
  obtain ⟨n, -, hn⟩ := List.mem_map.1 (List.mem_of_find?_eq_some hname)
  rw [hfresh]
  exact ⟨by simpa using List.find?_some hname, n, hn.symm⟩

theorem get?_fresh : t.get? (directory ++ [t.freshName directory]) = none :=
  get?_eq_none_of_not_mem_namesIn (t.freshName_spec directory).1

end Fresh

/-! ## The steps of a replacement -/

section Steps

variable {t t' : FileTree} {path directory : String} {place temporary : Place}
  {content : ByteArray} {abort : Abort}

theorem frame_ensureDirectory (t : FileTree) (path : String) :
    Frame ((Path.lineage path).map t.placeOf) none t (endState (ensureDirectory path t)) := by
  have hframe : Frame ((Path.lineage path).map t.placeOf) none t
      (endState (makeDirectories path t)) :=
    frame_makeLineage fun parent hparent => List.mem_map_of_mem hparent
  unfold ensureDirectory
  split
  · exact Frame.refl t
  · split
    · rename_i t' hmade
      rw [hmade] at hframe
      exact hframe
    · rename_i refusal t' hrefused
      rw [hrefused] at hframe
      exact hframe

theorem ensureDirectory_eq_error (h : ensureDirectory path t = .error abort t') :
    ∃ refusal, abort = .clean (.directoryNotCreated path refusal) := by
  unfold ensureDirectory at h
  split at h
  · cases h
  · split at h
    · cases h
    · cases h
      exact ⟨_, rfl⟩

theorem makeTemporary_eq_ok (h : makeTemporary directory t = .ok place t') :
    t.get? place = none ∧ (∃ n, place = t.placeOf directory ++ [temporaryName n]) ∧
      t' = t.put place (.file ByteArray.empty) := by
  unfold makeTemporary at h
  split at h
  · rename_i found hfound _
    cases h
    obtain ⟨n, hn⟩ := (t.freshName_spec found).2
    refine ⟨t.get?_fresh found, ⟨n, ?_⟩, rfl⟩
    rw [hn, eq_placeOf_of_resolve hfound]
  · cases h

theorem makeTemporary_eq_error (h : makeTemporary directory t = .error abort t') :
    abort = .clean (.temporaryNotCreated directory) ∧ t' = t := by
  unfold makeTemporary at h
  split at h
  · cases h
  · cases h
    exact ⟨rfl, rfl⟩

theorem fillTemporary_eq_ok (h : fillTemporary path place content t = .ok () t') :
    t' = t.put place (.file content) := by
  unfold fillTemporary at h
  split at h
  · cases h
    rfl
  · cases h

theorem fillTemporary_of_not_fits (h : t.fits content = false) :
    fillTemporary path place content t =
      .error (.clean (.contentNotWritten path .noSpace)) (t.erase place) := by
  rw [fillTemporary, h]
  rfl

theorem fillTemporary_eq_error (h : fillTemporary path place content t = .error abort t') :
    abort = .clean (.contentNotWritten path .noSpace) ∧ t' = t.erase place := by
  unfold fillTemporary at h
  split at h
  · cases h
  · cases h
    exact ⟨rfl, rfl⟩

theorem destination?_eq_some_iff :
    t.destination? temporary path = some place ↔
      t.resolve path = .ok place ∧ Path.meansDirectory path = false ∧
        t.get? place ≠ some .directory ∧ (place = temporary ∨ place ∉ t.fixed) := by
  unfold destination?
  cases hplace : t.resolve path with
  | error refusal => simp
  | ok found =>
      simp only [Except.ok.injEq]
      split_ifs with hfixed hdirectory
      · refine iff_of_false (by simp) ?_
        rintro ⟨rfl, -, -, hfree⟩
        simp only [Bool.and_eq_true, bne_iff_ne, List.contains_iff_mem] at hfixed
        exact hfree.elim hfixed.1 fun h => h hfixed.2
      · refine iff_of_false (by simp) ?_
        rintro ⟨rfl, hfile, hne, -⟩
        rw [hfile, Bool.false_or, hasDirectory_eq_true_iff] at hdirectory
        exact hne hdirectory
      · simp only [Option.some.injEq]
        refine (and_iff_left_of_imp ?_).symm
        rintro rfl
        rw [Bool.or_eq_true, not_or, Bool.not_eq_true, hasDirectory_eq_true_iff] at hdirectory
        refine ⟨hdirectory.1, hdirectory.2, ?_⟩
        simpa [or_iff_not_imp_left] using hfixed

/-- A temporary file that is there is moved with what it holds. -/
theorem moveTemporary_eq_ok {entry : Entry} (hentry : t.get? temporary = some entry)
    (h : moveTemporary path temporary t = .ok () t') :
    ∃ target, t.destination? temporary path = some target ∧
      t' = (t.erase temporary).put target entry := by
  unfold moveTemporary at h
  cases htarget : t.destination? temporary path with
  | none =>
      rw [htarget] at h
      cases h
  | some target =>
      rw [htarget, Option.bind_some, move?_of_get? hentry] at h
      cases h
      exact ⟨target, rfl, rfl⟩

theorem moveTemporary_eq_error {entry : Entry} (hentry : t.get? temporary = some entry)
    (h : moveTemporary path temporary t = .error abort t') :
    t.destination? temporary path = none ∧ abort = ⟨.notReplaced path, some temporary⟩ ∧
      t' = t := by
  unfold moveTemporary at h
  cases htarget : t.destination? temporary path with
  | none =>
      rw [htarget] at h
      cases h
      exact ⟨rfl, rfl, rfl⟩
  | some target =>
      rw [htarget, Option.bind_some, move?_of_get? hentry] at h
      cases h

end Steps

/-! ## The ends of a replacement -/

/-- The places of the directories above a path, as far as the path names them. -/
def ancestors (t : FileTree) (path : String) : List Place :=
  (Path.lineage (Path.directory path)).map t.placeOf

/-- A temporary file that was made for a path and has stayed, with all of the content,
because it cannot take the place that the path leads to. -/
structure IsLeftover (t t' : FileTree) (path : String) (content : ByteArray)
    (place : Place) : Prop where
  free : t.get? place = none
  filled : t'.get? place = some (.file content)
  named : ∃ n, place = t.placeOf (Path.directory path) ++ [temporaryName n]
  refused : t'.destination? place path = none

section Ends

variable {t t' : FileTree} {path : String} {content : ByteArray} {abort : Abort}

/-- A replacement that succeeds puts the whole content at the destination, which was no
directory, and does nothing else but to make directories. -/
theorem replaceFileKeeping_eq_ok (h : replaceFileKeeping path content t = .ok () t') :
    Frame (t.ancestors path) (some (t.placeOf path)) t t' ∧ t'.read path = .ok content ∧
      t.get? (t.placeOf path) ≠ some .directory := by
  obtain ⟨_, t₁, hensure, h⟩ := bind_eq_ok_iff.1 h
  obtain ⟨fresh, t₂, hmake, h⟩ := bind_eq_ok_iff.1 h
  obtain ⟨_, t₃, hfill, hmove⟩ := bind_eq_ok_iff.1 h
  have hframe := frame_ensureDirectory t (Path.directory path)
  rw [hensure, endState] at hframe
  obtain ⟨hfree, -, rfl⟩ := makeTemporary_eq_ok hmake
  have hfresh := ne_nil_of_get?_eq_none hfree
  have ht₃ := fillTemporary_eq_ok hfill
  have hfilled : t₃.get? fresh = some (.file content) := by
    rw [ht₃, get?_put_self _ hfresh]
  obtain ⟨target, htarget, ht'⟩ := moveTemporary_eq_ok hfilled hmove
  obtain ⟨hresolve, hmeans, hdirectory, -⟩ := destination?_eq_some_iff.1 htarget
  have hne : target ≠ [] := by
    rintro rfl
    exact hdirectory (if_pos rfl)
  have hhere : t₃.here = t.here := by
    rw [ht₃]
    exact hframe.here
  have hplace : target = t.placeOf path := by
    rw [eq_placeOf_of_resolve hresolve, placeOf_congr hhere]
  have hget : ∀ place, t'.get? place =
      if place = target then some (.file content)
      else if place = fresh then none else t₁.get? place := by
    intro place
    rw [ht', get?_put hne, get?_erase hfresh, ht₃, get?_put hfresh, get?_put hfresh]
    split_ifs <;> rfl
  refine ⟨?_, ?_, ?_⟩
  · refine hframe.weaken.trans
      (Frame.of_get?_eq (by rw [ht', ht₃]; rfl) fun place hother => ?_)
    rw [hget, if_neg fun heq => hother (by rw [heq, hplace])]
    split_ifs with heq
    · rw [heq, hfree]
    · rfl
  · refine read_eq_ok_iff.2 ⟨target, ?_, by rw [hget, if_pos rfl], hmeans⟩
    -- The two places that the move changes were no directories, so the way is the same.
    refine resolve_of_waypoints (t := t₃) (by rw [ht']; rfl) (fun point _ hpoint => ?_) hresolve
    have htarget : point ≠ target := by
      rintro rfl
      exact hdirectory hpoint
    rw [ht₃, get?_put hfresh, get?_put hfresh] at hpoint
    rw [hget, if_neg htarget]
    split_ifs at hpoint ⊢ with heq
    · cases hpoint
    · exact hpoint
  · intro hbefore
    rw [← hplace] at hbefore
    have hkept := hframe.kept target _ (by simp) hbefore
    have htarget : target ≠ fresh := by
      rintro rfl
      rw [hfree] at hkept
      cases hkept
    apply hdirectory
    rw [ht₃, get?_put_of_ne _ htarget, get?_put_of_ne _ htarget, hkept]

/-- A replacement that fails does nothing but to make directories, and to leave its
temporary file if the destination cannot be taken. -/
theorem replaceFileKeeping_eq_error (h : replaceFileKeeping path content t = .error abort t') :
    Frame (t.ancestors path) abort.leftover t t' ∧
      (∀ place, abort.leftover = some place → t.IsLeftover t' path content place) ∧
      (abort.leftover.isSome ↔ abort.failure = .notReplaced path) := by
  have hframe := frame_ensureDirectory t (Path.directory path)
  rcases bind_eq_error_iff.1 h with hensure | ⟨_, t₁, hensure, h⟩
  · obtain ⟨refusal, rfl⟩ := ensureDirectory_eq_error hensure
    rw [hensure, endState] at hframe
    exact ⟨hframe, by simp [Abort.clean], by simp [Abort.clean]⟩
  rw [hensure, endState] at hframe
  rcases bind_eq_error_iff.1 h with hmake | ⟨fresh, t₂, hmake, h⟩
  · obtain ⟨rfl, rfl⟩ := makeTemporary_eq_error hmake
    exact ⟨hframe, by simp [Abort.clean], by simp [Abort.clean]⟩
  obtain ⟨hfree, ⟨n, hnamed⟩, rfl⟩ := makeTemporary_eq_ok hmake
  have hfresh := ne_nil_of_get?_eq_none hfree
  rcases bind_eq_error_iff.1 h with hfill | ⟨_, t₃, hfill, hmove⟩
  · obtain ⟨rfl, ht'⟩ := fillTemporary_eq_error hfill
    refine ⟨hframe.trans (Frame.of_get?_eq (by rw [ht']; rfl) fun place _ => ?_),
      by simp [Abort.clean], by simp [Abort.clean]⟩
    rw [ht', get?_erase hfresh, get?_put hfresh]
    split_ifs with heq
    · rw [heq, hfree]
    · rfl
  · have ht₃ := fillTemporary_eq_ok hfill
    have hfilled : t₃.get? fresh = some (.file content) := by
      rw [ht₃, get?_put_self _ hfresh]
    obtain ⟨hrefused, rfl, rfl⟩ := moveTemporary_eq_error hfilled hmove
    have hget : ∀ place, t'.get? place =
        if place = fresh then some (.file content) else t₁.get? place := by
      intro place
      rw [ht₃, get?_put hfresh, get?_put hfresh]
      split_ifs <;> rfl
    refine ⟨hframe.weaken.trans
      (Frame.of_get?_eq (by rw [ht₃]; rfl) fun place hother => ?_), ?_, by simp⟩
    · rw [hget, if_neg fun heq => hother (by rw [heq])]
    · rintro place ⟨⟩
      refine ⟨hframe.eq_none (by simp) hfree, hfilled, ⟨n, ?_⟩, hrefused⟩
      rw [hnamed, placeOf_congr hframe.here]

end Ends

end FileTree
end Amalgam
