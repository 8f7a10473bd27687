import SwarmEvolution.Proofs.Number.Commutativity
import SwarmEvolution.Proofs.Swarm.Trajectories

/-! What trajectories show after any records, and the order in which their distance goes through
them. Records reach a point through its place in the array, the distance cuts the array into pieces;
both see the same table. -/
namespace SwarmEvolution.Trajectory

section Records

/-- The last coordinate that was recorded for a place; points that are too short are passed over. -/
def latest (entries : List Entry) (member move c : Nat) : Option Float32 :=
  entries.reverse.findSome? fun entry =>
    if entry.member = member ∧ entry.move = move then entry.point[c]? else none

/-- What records leave at a place: the latest coordinates, and the origin's where there are none. -/
def shown (dimensions : Nat) (entries : List Entry) (member move : Nat) : Point :=
  (List.range dimensions).map fun c => (latest entries member move c).getD 0

variable {t : Trajectory} {m s : Nat}

theorem map_mapIdx_unchanged (p? : Option Point) :
    (p?.map fun p => p.mapIdx fun _ x => x) = p? := by
  have same (p : Point) : (p.mapIdx fun _ x => x) = p :=
    List.ext_getElem? fun c => by rw [List.getElem?_mapIdx, Option.map_id']
  simp only [same, Option.map_id']

theorem latest_cons (entry : Entry) (entries : List Entry) (c : Nat) :
    latest (entry :: entries) m s c = (latest entries m s c).or
      (if entry.member = m ∧ entry.move = s then entry.point[c]? else none) := by
  rw [latest, List.reverse_cons, List.findSome?_append, List.findSome?_singleton]
  rfl

theorem point?_record (entry : Entry) :
    (t.record entry.member entry.move entry.point).point? m s = (t.point? m s).map fun old =>
      old.mapIdx fun c x =>
        (if entry.member = m ∧ entry.move = s then entry.point[c]? else none).getD x := by
  by_cases here : entry.member = m ∧ entry.move = s
  · simp only [here, and_self, if_true]
    obtain ⟨rfl, rfl⟩ := here
    exact point?_record_self
  · have apart : (entry.move, entry.member) ≠ (s, m) := fun same =>
      here ⟨(Prod.ext_iff.mp same).2, (Prod.ext_iff.mp same).1⟩
    simp only [point?_record_of_ne apart, here, if_false, Option.getD_none, map_mapIdx_unchanged]

/-- Records leave the latest coordinate of each place, and what was there before where there is
none. -/
theorem point?_recordAll_latest (entries : List Entry) :
    (t.recordAll entries).point? m s = (t.point? m s).map fun old =>
      old.mapIdx fun c x => (latest entries m s c).getD x := by
  induction entries generalizing t with
  | nil => exact (map_mapIdx_unchanged (t.point? m s)).symm
  | cons entry entries ih =>
    have later := ih (t := t.record entry.member entry.move entry.point)
    rw [point?_record, Option.map_map] at later
    simp only [latest_cons, Option.getD_or]
    refine later.trans (congrArg (Option.map · _) (funext fun old => ?_))
    exact List.mapIdx_mapIdx

theorem point?_rest (members moves dimensions : Nat) :
    (rest members moves dimensions).point? m s =
      if m < members ∧ s < moves then some (List.replicate dimensions 0) else none := by
  refine ite_congr rfl (fun inside => congrArg some ?_) fun _ => rfl
  have fits := offset_add_le (t := rest members moves dimensions) inside.1 inside.2
  rw [size_points] at fits
  dsimp only [rest] at fits ⊢
  rw [Array.extract_replicate, Nat.min_eq_left fits, Nat.add_sub_cancel_left,
    Array.toList_replicate]

theorem point?_recorded (members moves dimensions : Nat) (entries : List Entry) :
    ((rest members moves dimensions).recordAll entries).point? m s =
      if m < members ∧ s < moves then some (shown dimensions entries m s) else none := by
  rw [point?_recordAll_latest, point?_rest]
  split
  case isFalse => rfl
  case isTrue =>
    refine congrArg some (List.ext_getElem? fun c => ?_)
    rw [shown, List.getElem?_mapIdx, List.getElem?_map, List.getElem?_replicate]
    by_cases below : c < dimensions
    · rw [if_pos below, List.getElem?_range below]
      rfl
    · rw [if_neg below, List.getElem?_eq_none (by simpa using below)]
      rfl

end Records

section Distance

theorem chunks_eq {width count : Nat} {xs : List Float32} (positive : 0 < width)
    (length : xs.length = count * width) :
    chunks width xs = (List.range count).map fun i => (xs.drop (i * width)).take width := by
  obtain ⟨width, rfl⟩ := Nat.exists_eq_add_one_of_ne_zero (Nat.ne_of_gt positive)
  induction count generalizing xs with
  | zero =>
    rw [Nat.zero_mul] at length
    rw [List.eq_nil_of_length_eq_zero length, chunks]
    rfl
  | succ count ih =>
    cases xs with
    | nil => simp at length
    | cons x xs =>
      have rest : (xs.drop width).length = count * (width + 1) := by
        rw [List.length_cons, Nat.succ_mul] at length
        rw [List.length_drop]
        omega
      have later (i : Nat) : (xs.drop width).drop (i * (width + 1)) =
          (x :: xs).drop ((i + 1) * (width + 1)) := by
        rw [List.drop_drop, Nat.succ_mul, ← Nat.add_assoc, List.drop_succ_cons, Nat.add_comm width]
      rw [chunks, Nat.add_sub_cancel, ih rest, List.range_succ_eq_map, List.map_cons, List.map_map,
        Nat.zero_mul]
      simp only [later]
      rfl

/-- The pieces are the points in the order of the table. -/
theorem chunks_points (t : Trajectory) (positive : 0 < t.dimensions) :
    chunks (max t.dimensions 1) t.points.toList =
      (List.range t.members ×ˢ List.range t.moves).map fun place =>
        (t.point? place.1 place.2).getD [] := by
  have length : t.points.toList.length = t.members * t.moves * t.dimensions :=
    Array.length_toList.trans t.size_points
  rw [Nat.max_eq_left positive, chunks_eq positive length, Rows.range_mul, List.map_map]
  refine List.map_congr_left fun place inside => ?_
  obtain ⟨row, column⟩ := List.mem_product.mp inside
  have known : place.1 < t.members ∧ place.2 < t.moves :=
    ⟨List.mem_range.mp row, List.mem_range.mp column⟩
  rw [point?, if_pos known, Option.getD_some, Array.toList_extract, List.extract_eq_take_drop,
    Nat.add_sub_cancel_left]
  rfl

theorem pointDistance_comm (p q : Point) : pointDistance p q = pointDistance q p := by
  rw [pointDistance, List.zipWith_comm, pointDistance]
  refine congrArg (fun f => (Number.sumDouble (List.zipWith f q p)).sqrt) (funext₂ fun y x => ?_)
  exact Number.square_sub_comm ..

theorem distance_comm (t u : Trajectory) : t.distance u = u.distance t := by
  have shapes : (t.members = u.members ∧ t.moves = u.moves ∧ t.dimensions = u.dimensions) ↔
      (u.members = t.members ∧ u.moves = t.moves ∧ u.dimensions = t.dimensions) := by
    simp only [eq_comm]
  simp only [distance, shapes]
  rw [List.zipWith_comm, funext₂ fun q p => pointDistance_comm p q]

/-- Points without coordinates are no distance apart, however many of them there are. -/
theorem sumDouble_pointDistance_nil {α : Type} (xs : List α) :
    Number.sumDouble (xs.map fun _ => pointDistance [] []) = Number.sumDouble [] := by
  have still : (-0.0 : Float) + pointDistance [] [] = -0.0 := by decide
  rw [Number.sumDouble, List.foldl_map]
  exact List.foldl_fixed' (fun _ => still) xs

theorem point?_getD_nil {m s : Nat} {t : Trajectory} (flat : t.dimensions = 0) :
    (t.point? m s).getD [] = [] := by
  cases found : t.point? m s with
  | none => rfl
  | some p => exact List.eq_nil_of_length_eq_zero ((length_of_point? found).trans flat)

/-- Trajectories of one shape are as far apart as their points are in sum, in the order of the
table. -/
theorem distance_eq {t u : Trajectory} (members : t.members = u.members) (moves : t.moves = u.moves)
    (dimensions : t.dimensions = u.dimensions) :
    t.distance u = Number.sumDouble ((List.range t.members ×ˢ List.range t.moves).map fun place =>
      pointDistance ((t.point? place.1 place.2).getD []) ((u.point? place.1 place.2).getD [])) := by
  rw [distance, if_pos ⟨members, moves, dimensions⟩]
  rcases Nat.eq_zero_or_pos t.dimensions with flat | positive
  · -- The array is empty, so there are no pieces, while the table still has its points.
    have bare : t.points.toList = [] := List.eq_nil_of_length_eq_zero
      (t.size_points.trans (by rw [flat, Nat.mul_zero]))
    simp only [bare, chunks, List.zipWith_nil_left, point?_getD_nil flat,
      point?_getD_nil (dimensions.symm.trans flat)]
    exact (sumDouble_pointDistance_nil _).symm
  · rw [chunks_points t positive, chunks_points u (dimensions ▸ positive), ← members, ← moves,
      List.zipWith_map, List.zipWith_self]

end Distance

/-- After any records a place of the table has the coordinates recorded last, and a place outside
has none. The distance of two trajectories is the same both ways. It is infinite for different
shapes and else the sum over the table, member by member and within a member move by move. -/
theorem table_faithful (members moves dimensions : Nat) (entries : List Entry) (t u : Trajectory) :
    (∀ m s, ((rest members moves dimensions).recordAll entries).point? m s =
      if m < members ∧ s < moves then some (shown dimensions entries m s) else none) ∧
    t.distance u = u.distance t ∧
    (t.distance u =
      if t.members = u.members ∧ t.moves = u.moves ∧ t.dimensions = u.dimensions then
        Number.sumDouble ((List.range t.members).flatMap fun m => (List.range t.moves).map fun s =>
          pointDistance ((t.point? m s).getD []) ((u.point? m s).getD []))
      else infinite) ∧
    infinite.isInf ∧ 0 < infinite := by
  refine ⟨fun m s => point?_recorded members moves dimensions entries, distance_comm t u, ?_,
    by decide⟩
  split
  case isTrue same =>
    rw [distance_eq same.1 same.2.1 same.2.2]
    simp only [SProd.sprod, List.product, List.map_flatMap, List.map_map]
    rfl
  case isFalse differ => exact if_neg differ

end SwarmEvolution.Trajectory
