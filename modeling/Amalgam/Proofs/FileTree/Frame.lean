import Amalgam.FileTree.Change
import Amalgam.Proofs.FileTree.Resolution

namespace Amalgam
namespace FileTree

/-!
# What a change leaves alone

A frame bounds what a change of the tree can do.  Whatever was there stays, and what is
added is a directory at one of some known places; only one place, if any, may come to
hold something else.  Frames of changes in a row are put together by `Frame.trans`.

Making directories stays within the frame of the path and its parents, whether it
succeeds or fails on the way.
-/

/-- What a change does at most: it adds directories at the places `made`, and it does
something at the place `other`, if there is one. -/
structure Frame (made : List Place) (other : Option Place) (t t' : FileTree) : Prop where
  here : t'.here = t.here
  space : t'.space = t.space
  fixed : t'.fixed = t.fixed
  kept : ∀ place entry, other ≠ some place → t.get? place = some entry →
    t'.get? place = some entry
  added : ∀ place entry, other ≠ some place → t.get? place = none →
    t'.get? place = some entry → entry = .directory ∧ place ∈ made

/-! ## Single changes -/

section Single

variable {t : FileTree} {place : Place}

theorem ne_nil_of_get?_eq_none (h : t.get? place = none) : place ≠ [] := by
  rintro rfl
  simp [get?] at h

theorem get?_put (h : place ≠ []) (entry : Entry) (other : Place) :
    (t.put place entry).get? other = if other = place then some entry else t.get? other := by
  by_cases hother : other = place
  · rw [if_pos hother, hother, get?_put_self t h]
  · rw [if_neg hother, get?_put_of_ne t hother]

theorem get?_erase (h : place ≠ []) (other : Place) :
    (t.erase place).get? other = if other = place then none else t.get? other := by
  by_cases hother : other = place
  · rw [if_pos hother, hother, get?_erase_self t h]
  · rw [if_neg hother, get?_erase_of_ne t hother]

end Single

namespace Frame

variable {made : List Place} {other : Option Place} {t t' t'' : FileTree} {place : Place}

/-- A change of the table only, which no place but the excepted one shows. -/
theorem of_get?_eq (hsame : t' = { t with table := t'.table })
    (h : ∀ place, other ≠ some place → t'.get? place = t.get? place) :
    Frame made other t t' where
  here := by rw [hsame]
  space := by rw [hsame]
  fixed := by rw [hsame]
  kept place entry hne hentry := by rw [h place hne, hentry]
  added place entry hne hnone hentry := by
    rw [h place hne, hnone] at hentry
    cases hentry

theorem refl (t : FileTree) : Frame made other t t :=
  of_get?_eq rfl fun _ _ => rfl

theorem trans (h : Frame made other t t') (h' : Frame made other t' t'') :
    Frame made other t t'' where
  here := h'.here.trans h.here
  space := h'.space.trans h.space
  fixed := h'.fixed.trans h.fixed
  kept place entry hne hentry := h'.kept place entry hne (h.kept place entry hne hentry)
  added place entry hne hnone hentry := by
    cases hmiddle : t'.get? place with
    | none => exact h'.added place entry hne hmiddle hentry
    | some middle =>
        -- What the first change has added, the second one has kept.
        have hkept := h'.kept place middle hne hmiddle
        rw [hentry] at hkept
        cases hkept
        exact h.added place entry hne hnone hmiddle

theorem weaken (h : Frame made none t t') : Frame made other t t' where
  here := h.here
  space := h.space
  fixed := h.fixed
  kept place entry _ := h.kept place entry (by simp)
  added place entry _ := h.added place entry (by simp)

theorem put_directory (hplace : t.get? place = none) (hmade : place ∈ made) :
    Frame made other t (t.put place .directory) where
  here := rfl
  space := rfl
  fixed := rfl
  kept place' entry _ hentry := by
    have hne : place' ≠ place := by
      rintro rfl
      rw [hplace] at hentry
      cases hentry
    rw [get?_put_of_ne t hne, hentry]
  added place' entry _ hnone hentry := by
    rw [get?_put (ne_nil_of_get?_eq_none hplace)] at hentry
    split at hentry
    · rename_i heq
      cases hentry
      exact ⟨rfl, heq ▸ hmade⟩
    · rw [hnone] at hentry
      cases hentry

/-- A place that is empty afterwards was empty before. -/
theorem eq_none (h : Frame made other t t') (hne : other ≠ some place)
    (hplace : t'.get? place = none) : t.get? place = none := by
  cases hentry : t.get? place with
  | none => rfl
  | some entry =>
      rw [h.kept place entry hne hentry] at hplace
      cases hplace

/-- Files are neither added nor changed nor removed, but for the place that is
excepted. -/
theorem get?_eq_file_iff (h : Frame made other t t') (hne : other ≠ some place)
    {content : ByteArray} :
    t'.get? place = some (.file content) ↔ t.get? place = some (.file content) := by
  constructor
  · intro hfile
    cases hentry : t.get? place with
    | none => cases (h.added place _ hne hentry hfile).1
    | some entry => rw [← h.kept place entry hne hentry, hfile]
  · exact h.kept place _ hne

/-- A path leads where it led, unless the place that is excepted was a directory on its
way. -/
theorem resolve_eq_ok (h : Frame made other t t')
    (hother : ∀ place, other = some place → t.get? place ≠ some .directory)
    {path : String} (hpath : t.resolve path = .ok place) : t'.resolve path = .ok place := by
  refine resolve_of_waypoints h.here (fun point _ hpoint => ?_) hpath
  exact h.kept point _ (fun heq => hother point heq hpoint) hpoint

/-- A file can be read as before, unless it is at the place that is excepted. -/
theorem read_eq_ok (h : Frame made other t t')
    (hother : ∀ place, other = some place → t.get? place ≠ some .directory)
    {path : String} {content : ByteArray} (hread : t.read path = .ok content)
    (hne : other ≠ some (t.placeOf path)) : t'.read path = .ok content := by
  obtain ⟨place, hplace, hfile, hmeans⟩ := read_eq_ok_iff.1 hread
  rw [← eq_placeOf_of_resolve hplace] at hne
  exact read_eq_ok_iff.2
    ⟨place, h.resolve_eq_ok hother hplace, h.kept place _ hne hfile, hmeans⟩

end Frame

/-! ## Making directories -/

section Making

variable {made : List Place} {t : FileTree} {path : String}

theorem frame_makeDirectory (h : t.placeOf path ∈ made) :
    Frame made none t (endState (makeDirectory path t)) := by
  unfold makeDirectory
  cases hplace : t.resolve path with
  | error refusal => exact Frame.refl t
  | ok place =>
      cases hentry : t.get? place with
      | some entry =>
          simp only [hentry]
          exact Frame.refl t
      | none =>
          simp only [hentry]
          rw [eq_placeOf_of_resolve hplace] at hentry ⊢
          exact Frame.put_directory hentry h

theorem frame_makeDirectoryOnce (h : t.placeOf path ∈ made) :
    Frame made none t (endState (makeDirectoryOnce path t)) := by
  have hframe := frame_makeDirectory h
  unfold makeDirectoryOnce
  cases hmake : makeDirectory path t with
  | ok _ t' =>
      rw [hmake] at hframe
      exact hframe
  | error refusal t' =>
      rw [hmake] at hframe
      simp only
      split
      · exact hframe
      · exact hframe

theorem frame_makeLineage {paths : List String} (h : ∀ path ∈ paths, t.placeOf path ∈ made) :
    Frame made none t (endState (makeLineage paths t)) := by
  induction paths generalizing t with
  | nil => exact Frame.refl t
  | cons path parents ih =>
      obtain ⟨hpath, hparents⟩ := List.forall_mem_cons.1 h
      have hfirst := frame_makeDirectoryOnce hpath
      unfold makeLineage
      split
      · exact Frame.refl t
      · split
        · -- The parents are made, and then the directory is tried once more.
          rename_i t' hmissing
          rw [hmissing, endState] at hfirst
          have hrest := ih (t := t') fun parent hparent => by
            rw [placeOf_congr hfirst.here]
            exact hparents parent hparent
          split
          · rename_i t'' hmade
            rw [hmade, endState] at hrest
            refine (hfirst.trans hrest).trans (frame_makeDirectoryOnce ?_)
            rw [placeOf_congr (hfirst.trans hrest).here]
            exact hpath
          · rename_i refusal t'' hrefused
            rw [hrefused, endState] at hrest
            exact hfirst.trans hrest
        · exact hfirst

end Making

end FileTree
end Amalgam
