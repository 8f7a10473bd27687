import Mathlib.Data.List.Nodup
import SwarmEvolution.Proofs.Swarm.Rows
import SwarmEvolution.Trajectory

/-! Trajectories as tables. A point that is recorded at a place is found there and changes no other
place, so that the records of places which are all different are found together. -/
namespace SwarmEvolution.Trajectory

/-- A point with its place in the table. -/
structure Entry where
  member : Nat
  move : Nat
  point : Point

def Entry.place (entry : Entry) : Nat × Nat := (entry.move, entry.member)

/-- The place of an entry is in the table, and its point has the length of the others. -/
structure Fits (t : Trajectory) (entry : Entry) : Prop where
  member : entry.member < t.members
  move : entry.move < t.moves
  length : entry.point.length = t.dimensions

/-- Records one point after another. -/
def recordAll (t : Trajectory) (entries : List Entry) : Trajectory :=
  entries.foldl (fun t entry => t.record entry.member entry.move entry.point) t

variable {t : Trajectory} {member move : Nat} {p : Point}

@[simp] theorem members_record : (t.record member move p).members = t.members := by
  unfold record; split <;> rfl

@[simp] theorem moves_record : (t.record member move p).moves = t.moves := by
  unfold record; split <;> rfl

@[simp] theorem dimensions_record : (t.record member move p).dimensions = t.dimensions := by
  unfold record; split <;> rfl

section Coordinates

variable {xs : Array Float32} {start : Nat}

theorem getElem?_overwrite (xs : Array Float32) (start : Nat) (p : Point) (i : Nat) :
    (overwrite xs start p)[i]? =
      xs[i]?.map fun x => if start ≤ i then p[i - start]?.getD x else x := by
  induction p generalizing xs start with
  | nil => simp [overwrite]
  | cons y p ih =>
    rw [overwrite, ih, Array.getElem?_setIfInBounds]
    rcases Nat.lt_trichotomy i start with before | rfl | after
    · have still : ¬ start + 1 ≤ i := by omega
      have early : ¬ start ≤ i := by omega
      simp only [Nat.ne_of_gt before, still, early, if_false]
    · have past : ¬ i + 1 ≤ i := Nat.not_succ_le_self i
      simp only [past, Nat.le_refl, if_true, if_false, Nat.sub_self, List.getElem?_cons_zero,
        Option.getD_some]
      by_cases inside : i < xs.size <;> simp [inside]
    · obtain ⟨k, rfl⟩ := Nat.exists_eq_add_of_lt after
      have rest : start + k + 1 - (start + 1) = k := by omega
      have whole : start + k + 1 - start = k + 1 := by omega
      have late : start + 1 ≤ start + k + 1 ∧ start ≤ start + k + 1 := by omega
      simp only [Nat.ne_of_lt after, late, if_false, if_true, rest, whole,
        List.getElem?_cons_succ]

theorem getElem?_overwrite_add (c : Nat) :
    (overwrite xs start p)[start + c]? = xs[start + c]?.map (p[c]?.getD ·) := by
  simp only [getElem?_overwrite, Nat.le_add_right, if_true, Nat.add_sub_cancel_left]

theorem getElem?_overwrite_apart {i : Nat} (apart : i < start ∨ start + p.length ≤ i) :
    (overwrite xs start p)[i]? = xs[i]? := by
  have kept (x : Float32) : (if start ≤ i then p[i - start]?.getD x else x) = x := by
    split
    · rw [List.getElem?_eq_none (by omega)]
      rfl
    · rfl
  simp only [getElem?_overwrite, kept, Option.map_id_fun', id_eq]

theorem getElem?_extract (n c : Nat) :
    (xs.extract start (start + n)).toList[c]? = if c < n then xs[start + c]? else none := by
  rw [Array.getElem?_toList, Array.getElem?_extract]
  by_cases inside : start + c < xs.size
  · have same : c < min (start + n) xs.size - start ↔ c < n := by omega
    simp only [same]
  · simp only [Array.getElem?_eq_none (Nat.not_lt.mp inside), ite_self]

end Coordinates

/-- The coordinates of a point in the table are all there. -/
theorem offset_add_le (row : member < t.members) (column : move < t.moves) :
    t.offset member move + t.dimensions ≤ t.points.size := by
  rw [t.size_points, offset, ← Nat.succ_mul]
  exact Nat.mul_le_mul_right t.dimensions (Rows.index_lt row column)

theorem point?_eq_none_iff :
    t.point? member move = none ↔ t.members ≤ member ∨ t.moves ≤ move := by
  unfold point?
  split <;> simp <;> omega

theorem length_of_point? (found : t.point? member move = some p) : p.length = t.dimensions := by
  unfold point? at found
  split at found
  case isFalse => contradiction
  case isTrue inside =>
    obtain rfl := Option.some.inj found
    rw [Array.length_toList, Array.size_extract,
      Nat.min_eq_left (offset_add_le inside.1 inside.2), Nat.add_sub_cancel_left]

/-- A point is recorded coordinate by coordinate. -/
theorem point?_record_self : (t.record member move p).point? member move =
    (t.point? member move).map fun old => old.mapIdx fun c x => p[c]?.getD x := by
  unfold record
  split
  case isFalse outside => simp only [point?, if_neg outside, Option.map_none]
  case isTrue inside =>
    simp only [point?, if_pos inside, Option.map_some]
    refine congrArg some (List.ext_getElem? fun c => ?_)
    rw [List.getElem?_mapIdx, getElem?_extract, getElem?_extract]
    split
    case isFalse => rfl
    case isTrue below =>
      have kept : (p.take t.dimensions)[c]? = p[c]? := List.getElem?_take_of_lt below
      rw [← kept]
      exact getElem?_overwrite_add c

theorem point?_record_of_ne {m s : Nat} (other : (move, member) ≠ (s, m)) :
    (t.record member move p).point? m s = t.point? m s := by
  unfold record
  split
  case isFalse => rfl
  case isTrue inside =>
    unfold point?
    dsimp only
    split
    case isFalse => rfl
    case isTrue place =>
      have apart : member * t.moves + move ≠ m * t.moves + s := fun same =>
        other (Prod.ext_iff.mpr (Rows.index_injective inside.2 place.2 same).symm)
      refine congrArg some (List.ext_getElem? fun c => ?_)
      rw [getElem?_extract, getElem?_extract]
      split
      case isFalse => rfl
      case isTrue below =>
        refine getElem?_overwrite_apart ((Rows.apart apart below).imp_right fun ends => ?_)
        exact Nat.le_trans (Nat.add_le_add_left (List.length_take_le ..) _) ends

/-- A point of the right length is found as it was recorded. -/
theorem Fits.point?_record (fits : t.Fits ⟨member, move, p⟩) :
    (t.record member move p).point? member move = some p := by
  obtain ⟨row, column, length⟩ := fits
  obtain ⟨old, found⟩ : ∃ old, t.point? member move = some old := by
    rw [← Option.ne_none_iff_exists', ne_eq, point?_eq_none_iff]
    exact not_or.mpr ⟨Nat.not_le_of_lt row, Nat.not_le_of_lt column⟩
  have same : old.length = p.length := (length_of_point? found).trans length.symm
  rw [point?_record_self, found, Option.map_some]
  refine congrArg some (List.ext_getElem? fun c => ?_)
  rw [List.getElem?_mapIdx]
  by_cases below : c < p.length
  · rw [List.getElem?_eq_getElem below, List.getElem?_eq_getElem (same ▸ below)]
    rfl
  · rw [List.getElem?_eq_none (Nat.not_lt.mp below),
      List.getElem?_eq_none (same ▸ Nat.not_lt.mp below)]
    rfl

section Several

variable {entries : List Entry}

theorem recordAll_shape (entries : List Entry) :
    (t.recordAll entries).members = t.members ∧ (t.recordAll entries).moves = t.moves ∧
      (t.recordAll entries).dimensions = t.dimensions := by
  induction entries generalizing t with
  | nil => exact ⟨rfl, rfl, rfl⟩
  | cons entry rest ih =>
    obtain ⟨members, moves, dimensions⟩ := ih (t := t.record entry.member entry.move entry.point)
    exact ⟨members.trans members_record, moves.trans moves_record,
      dimensions.trans dimensions_record⟩

theorem point?_recordAll_of_ne {m s : Nat} (others : ∀ entry ∈ entries, entry.place ≠ (s, m)) :
    (t.recordAll entries).point? m s = t.point? m s := by
  induction entries generalizing t with
  | nil => rfl
  | cons entry rest ih =>
    obtain ⟨apart, others⟩ := List.forall_mem_cons.mp others
    exact (ih others).trans (point?_record_of_ne apart)

/-- Entries with places that are all different are found together. -/
theorem point?_recordAll (fit : ∀ entry ∈ entries, t.Fits entry)
    (distinct : (entries.map Entry.place).Nodup) :
    ∀ entry ∈ entries, (t.recordAll entries).point? entry.member entry.move = some entry.point := by
  induction entries generalizing t with
  | nil => simp
  | cons first rest ih =>
    obtain ⟨apart, distinct⟩ := List.nodup_cons.mp distinct
    obtain ⟨own, fit⟩ := List.forall_mem_cons.mp fit
    intro entry among
    rcases List.mem_cons.mp among with rfl | later
    · have others : ∀ other ∈ rest, other.place ≠ entry.place := fun other member same =>
        apart (same ▸ List.mem_map_of_mem member)
      exact (point?_recordAll_of_ne others).trans own.point?_record
    · refine ih (fun other member => ?_) distinct entry later
      obtain ⟨row, column, length⟩ := fit other member
      exact ⟨by simpa using row, by simpa using column, by simpa using length⟩

end Several

end SwarmEvolution.Trajectory
