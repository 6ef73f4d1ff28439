import Amalgam.FileTree.Resolution
import Amalgam.Proofs.Sequencing

namespace Amalgam
namespace FileTree

/-!
# Where paths lead

There are no links, so where a path leads is a matter of the path and the working
directory alone: if it leads anywhere, then to the place that it means.  The rest of the
tree only decides whether it leads there, and for that all places on the way have to be
directories.

So a path that leads somewhere still does when more directories have been made.
-/

/-! ## The way of a walk -/

/-- The places at which a walk stands before each component, the start included and the
end left out. -/
def waypointsFrom : Place → List String → List Place
  | _, [] => []
  | place, name :: names => place :: waypointsFrom (stepFrom place name) names

/-- Whether a component is short enough for a name.  The dots always are. -/
def IsPassable (name : String) : Prop :=
  name = "." ∨ name = ".." ∨ name.utf8ByteSize ≤ longestName

section Walk

variable {t t' : FileTree} {place target : Place} {names : List String}

theorem follow_cons_eq_ok_iff {name : String} :
    t.follow place (name :: names) = .ok target ↔
      t.get? place = some .directory ∧ IsPassable name ∧
        t.follow (stepFrom place name) names = .ok target := by
  rw [follow_cons]
  unfold stepFrom IsPassable
  cases t.get? place with
  | none => simp
  | some entry =>
      cases entry with
      | file content => simp
      | directory =>
          by_cases hdot : name = "."
          · simp [hdot]
          · by_cases hdots : name = ".."
            · simp [hdots]
            · by_cases hlong : longestName < name.utf8ByteSize
              · simp [hdot, hdots, hlong, Nat.not_le.2 hlong]
              · simp [hdot, hdots, hlong, Nat.not_lt.1 hlong]

/-- A walk ends at the place that its components mean, if all on the way is passable. -/
theorem follow_eq_ok_iff :
    t.follow place names = .ok target ↔
      (∀ point ∈ waypointsFrom place names, t.get? point = some .directory) ∧
        (∀ name ∈ names, IsPassable name) ∧ target = names.foldl stepFrom place := by
  induction names generalizing place with
  | nil =>
      rw [follow_nil]
      simp [waypointsFrom, eq_comm]
  | cons name names ih =>
      rw [follow_cons_eq_ok_iff, ih, waypointsFrom, List.forall_mem_cons,
        List.forall_mem_cons, List.foldl_cons]
      simp only [and_assoc, and_left_comm]

end Walk

/-! ## The way of a path -/

/-- The places on the way of a path. -/
def waypoints (t : FileTree) (path : String) : List Place :=
  waypointsFrom (if Path.isAbsolute path then [] else t.here) (Path.components path)

/-- Whether a text can be a path at all, for its characters and its lengths. -/
structure IsPath (path : String) : Prop where
  nul_not_mem : '\x00' ∉ path.toList
  ne_empty : path.isEmpty = false
  size_le : path.utf8ByteSize ≤ longestPath
  passable : ∀ name ∈ Path.components path, IsPassable name

section Path

variable {t t' : FileTree} {path : String} {place : Place}

theorem resolve_eq_ok_iff :
    t.resolve path = .ok place ↔
      IsPath path ∧ (∀ point ∈ t.waypoints path, t.get? point = some .directory) ∧
        place = t.placeOf path := by
  rw [resolve, except_bind_eq_ok_iff]
  constructor
  · rintro ⟨origin, horigin, hfollow⟩
    unfold start at horigin
    split at horigin
    · cases horigin
    · rename_i hnul
      split at horigin
      · cases horigin
      · rename_i hempty
        split at horigin
        · cases horigin
        · rename_i hsize
          cases horigin
          obtain ⟨hway, hpassable, htarget⟩ := follow_eq_ok_iff.1 hfollow
          refine ⟨⟨by simpa using hnul, by simpa using hempty, Nat.not_lt.1 hsize,
            hpassable⟩, hway, htarget⟩
  · rintro ⟨hpath, hway, rfl⟩
    refine ⟨_, ?_, follow_eq_ok_iff.2 ⟨hway, hpath.passable, rfl⟩⟩
    rw [start, if_neg (by simpa using hpath.nul_not_mem), if_neg (by simp [hpath.ne_empty]),
      if_neg (Nat.not_lt.2 hpath.size_le)]

theorem eq_placeOf_of_resolve (h : t.resolve path = .ok place) : place = t.placeOf path :=
  (resolve_eq_ok_iff.1 h).2.2

theorem placeOf_congr (h : t'.here = t.here) (path : String) :
    t'.placeOf path = t.placeOf path := by
  rw [placeOf, placeOf, h]

theorem waypoints_congr (h : t'.here = t.here) (path : String) :
    t'.waypoints path = t.waypoints path := by
  rw [waypoints, waypoints, h]

/-- A path leads where it led while the places on its way are directories. -/
theorem resolve_of_waypoints (hhere : t'.here = t.here)
    (hway : ∀ point ∈ t.waypoints path, t.get? point = some .directory →
      t'.get? point = some .directory)
    (h : t.resolve path = .ok place) : t'.resolve path = .ok place := by
  obtain ⟨hpath, hdirectories, rfl⟩ := resolve_eq_ok_iff.1 h
  refine resolve_eq_ok_iff.2 ⟨hpath, ?_, (placeOf_congr hhere path).symm⟩
  rw [waypoints_congr hhere]
  exact fun point hpoint => hway point hpoint (hdirectories point hpoint)

/-! ## What a path leads to -/

theorem open?_eq_ok_iff {entry : Entry} :
    t.open? path = .ok entry ↔
      ∃ place, t.resolve path = .ok place ∧ t.get? place = some entry ∧
        (Path.meansDirectory path = true → entry = .directory) := by
  rw [open?, except_bind_eq_ok_iff]
  refine exists_congr fun place => and_congr_right fun _ => ?_
  cases hplace : t.get? place with
  | none => simp
  | some found =>
      cases found with
      | directory =>
          simp only [Except.ok.injEq, Option.some.injEq]
          constructor
          · rintro rfl
            exact ⟨rfl, fun _ => rfl⟩
          · exact fun h => h.1
      | file content =>
          cases hmeans : Path.meansDirectory path with
          | true =>
              simp only [if_pos, Option.some.injEq, forall_const]
              refine iff_of_false (by simp) ?_
              rintro ⟨rfl, h⟩
              cases h
          | false => simp

theorem read_eq_ok_iff_open? {content : ByteArray} :
    t.read path = .ok content ↔ t.open? path = .ok (.file content) := by
  rw [read, except_bind_eq_ok_iff]
  constructor
  · rintro ⟨entry, hentry, h⟩
    cases entry with
    | directory => cases h
    | file other =>
        cases h
        exact hentry
  · exact fun h => ⟨_, h, rfl⟩

theorem read_eq_ok_iff {content : ByteArray} :
    t.read path = .ok content ↔
      ∃ place, t.resolve path = .ok place ∧ t.get? place = some (.file content) ∧
        Path.meansDirectory path = false := by
  rw [read_eq_ok_iff_open?, open?_eq_ok_iff]
  refine exists_congr fun place => and_congr_right fun _ => and_congr_right fun _ => ?_
  simp

theorem pathExists_of_read {content : ByteArray} (h : t.read path = .ok content) :
    t.pathExists path = true := by
  rw [pathExists, read_eq_ok_iff_open?.1 h]
  rfl

theorem hasDirectory_eq_true_iff : t.hasDirectory place = true ↔
    t.get? place = some .directory := by
  unfold hasDirectory
  cases t.get? place with
  | none => simp
  | some entry => cases entry <;> simp [Entry.isDirectory]

end Path

end FileTree
end Amalgam
