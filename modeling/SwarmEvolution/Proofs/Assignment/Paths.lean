import Mathlib.Data.List.Nodup
import Mathlib.Data.List.Perm.Subperm
import SwarmEvolution.Assignment

/-! Paths of an assignment. A search reaches one column after another and notes for every column the
one that it is reached from at the least cost, so that the ways lead back to column zero. Only the
order of the costs matters for this, not what is added and subtracted. -/
namespace SwarmEvolution

/-- Costs in an order, below a value that no cost can be taken off. -/
class Cost.Ordered (κ : Type) [Cost κ] : Prop where
  lt_irrefl (a : κ) : ¬ a < a
  lt_trans {a b c : κ} : a < b → b < c → a < c
  not_infinity_lt (a : κ) : ¬ Cost.infinity < a
  infinity_sub {a b : κ} : a < b → (Cost.infinity : κ) - a = Cost.infinity

namespace Assignment

section Arrays

variable {α : Type} {xs : Array α} {i j : Nat} {a d : α}

theorem getD_set_self (inside : i < xs.size) : (xs.setIfInBounds i a).getD i d = a := by
  simp [Array.getD_eq_getD_getElem?, inside]

theorem getD_set_of_ne (apart : i ≠ j) : (xs.setIfInBounds i a).getD j d = xs.getD j d := by
  simp [Array.getD_eq_getD_getElem?, apart]

theorem getD_mapIdx {f : Nat → α → α} (inside : i < xs.size) :
    (xs.mapIdx f).getD i d = f i (xs.getD i d) := by
  simp [Array.getD_eq_getD_getElem?, inside]

theorem getD_modify {f : α → α} (inside : i < xs.size) :
    (xs.modify i f).getD j d = if i = j then f (xs.getD j d) else xs.getD j d := by
  by_cases same : i = j
  · subst same
    simp [Array.getD_eq_getD_getElem?, inside, Array.getElem_modify]
  · simp [Array.getD_eq_getD_getElem?, Array.getElem?_modify, same]

theorem getD_replicate (n i : Nat) (a : α) : (Array.replicate n a).getD i a = a := by
  rw [Array.getD_eq_getD_getElem?, Array.getElem?_replicate]
  split <;> rfl

theorem size_foldl {β : Type} {step : Array α → β → Array α}
    (kept : ∀ found b, (step found b).size = found.size) (bs : List β) (found : Array α) :
    (bs.foldl step found).size = found.size := by
  induction bs generalizing found with
  | nil => rfl
  | cons b bs ih => rw [List.foldl_cons, ih, kept]

theorem foldl_range_succ {β : Type} (step : β → Nat → β) (m : Nat) (b : β) :
    (List.range (m + 1)).foldl step b = step ((List.range m).foldl step b) m := by
  rw [List.range_succ, List.foldl_append]
  rfl

end Arrays

/-- Columns in the order in which they were reached, the last one first. The way from each of them
leads to one that was reached before it. -/
inductive Trail (way : Nat → Nat) : List Nat → Prop where
  | start : Trail way [0]
  | reach {j : Nat} {trail : List Nat} : Trail way trail → j ∉ trail → way j ∈ trail →
      Trail way (j :: trail)

namespace Trail

variable {way other : Nat → Nat} {trail : List Nat} {j : Nat}

theorem nodup (t : Trail way trail) : trail.Nodup := by
  induction t with
  | start => exact List.nodup_singleton 0
  | reach _ new _ ih => exact ih.cons new

theorem zero_mem (t : Trail way trail) : 0 ∈ trail := by
  induction t with
  | start => exact List.mem_singleton_self 0
  | reach _ _ _ ih => exact List.mem_cons_of_mem _ ih

/-- Column zero is the first one, so nothing is before it. -/
theorem eq_nil (t : Trail way (0 :: trail)) : trail = [] := by
  cases t with
  | start => rfl
  | reach earlier new _ => exact absurd earlier.zero_mem new

theorem tail (t : Trail way (j :: trail)) (positive : j ≠ 0) : Trail way trail := by
  cases t with
  | start => contradiction
  | reach earlier _ _ => exact earlier

theorem way_mem (t : Trail way (j :: trail)) (positive : j ≠ 0) : way j ∈ trail := by
  cases t with
  | start => contradiction
  | reach _ _ leads => exact leads

theorem not_mem (t : Trail way (j :: trail)) : j ∉ trail := (List.nodup_cons.mp t.nodup).1

theorem congr (t : Trail way trail) (same : ∀ j ∈ trail, other j = way j) : Trail other trail := by
  induction t with
  | start => exact .start
  | reach _ new leads ih =>
    obtain ⟨first, rest⟩ := List.forall_mem_cons.mp same
    exact .reach (ih rest) new (first ▸ leads)

/-- The columns that were reached until a given one. -/
theorem exists_suffix (t : Trail way trail) (member : j ∈ trail) :
    ∃ rest, Trail way (j :: rest) ∧ (j :: rest) <:+ trail := by
  induction t with
  | start =>
    obtain rfl := List.mem_singleton.mp member
    exact ⟨[], .start, List.suffix_rfl⟩
  | reach earlier new leads ih =>
    rcases List.mem_cons.mp member with rfl | later
    · exact ⟨_, earlier.reach new leads, List.suffix_rfl⟩
    · obtain ⟨rest, found, within⟩ := ih later
      exact ⟨rest, found, within.trans (List.suffix_cons _ _)⟩

theorem way_mem_of_mem (t : Trail way trail) (member : j ∈ trail) (positive : j ≠ 0) :
    way j ∈ trail := by
  obtain ⟨rest, found, within⟩ := t.exists_suffix member
  exact within.subset (.tail _ (found.way_mem positive))

/-- No other column is before all others. -/
theorem ne_nil {k : Nat} (t : Trail way (k :: trail)) (member : j ∈ k :: trail)
    (positive : j ≠ 0) : trail ≠ [] := by
  rintro rfl
  obtain rfl := List.mem_singleton.mp t.zero_mem
  exact positive (List.mem_singleton.mp member)

theorem length_le {n : Nat} (t : Trail way trail) (inside : ∀ j ∈ trail, j ≤ n) :
    trail.length ≤ n + 1 := by
  have part : trail ⊆ List.range (n + 1) := fun j member =>
    List.mem_range.mpr (Nat.lt_succ_of_le (inside j member))
  simpa using (List.subperm_of_subset t.nodup part).length_le

end Trail

variable {κ : Type} [Cost κ]

def State.wayFrom (s : State κ) (j : Nat) : Nat := s.way.getD j 0

def Search.leastTo (s : Search κ) (j : Nat) : κ := s.least.getD j Cost.infinity

namespace Scan

def leastTo (found : Scan κ) (j : Nat) : κ := found.least.getD j Cost.infinity

def wayFrom (found : Scan κ) (j : Nat) : Nat := found.way.getD j 0

end Scan

section Scanning

variable (cost : Nat → Nat → κ) (s : Search κ)

/-- The reduced cost of a column for the owner of the column reached last. -/
def Search.reduced (j : Nat) : κ :=
  cost (s.ownerOf s.column - 1) (j - 1) - s.rowPotential.getD (s.ownerOf s.column) Cost.zero
    - s.columnPotential.getD j Cost.zero

/-- A column is reached at less cost from the column reached last than from any before. -/
def Search.Nearer (j : Nat) : Prop := s.isReached j = false ∧ s.reduced cost j < s.leastTo j

/-- Notes the cost of a column if it is less than what is known. -/
def Scan.note (found : Scan κ) (j : Nat) : Scan κ :=
  if s.reduced cost j < found.leastTo j then
    { found with
      least := found.least.setIfInBounds j (s.reduced cost j)
      way := found.way.setIfInBounds j s.column }
  else found

/-- Takes a column if it is cheaper than the one found so far. -/
def Scan.choose (found : Scan κ) (j : Nat) : Scan κ :=
  if found.leastTo j < found.cost then { found with column := j, cost := found.leastTo j }
  else found

variable {cost s} {found : Scan κ} {j m n : Nat}

theorem look_of_reached (reached : s.isReached j = true) : look cost s found j = found := by
  rw [look, if_pos reached]

theorem look_of_unreached (unreached : s.isReached j = false) (inside : j < found.least.size) :
    look cost s found j = (found.note cost s j).choose j := by
  have same : look cost s found j =
      if s.reduced cost j < found.leastTo j then
        (if s.reduced cost j < found.cost then
          ⟨found.least.setIfInBounds j (s.reduced cost j), found.way.setIfInBounds j s.column, j,
            s.reduced cost j⟩
        else ⟨found.least.setIfInBounds j (s.reduced cost j), found.way.setIfInBounds j s.column,
          found.column, found.cost⟩)
      else if found.leastTo j < found.cost then ⟨found.least, found.way, j, found.leastTo j⟩
      else found := by
    rw [look, if_neg (by simp [unreached])]
    rfl
  rw [same, Scan.note]
  split
  · rw [Scan.choose, Scan.leastTo, getD_set_self inside]
  · rfl

/-- What a scan has noted of the columns up to `m`. -/
structure Noted (cost : Nat → Nat → κ) (s : Search κ) (m : Nat) (found : Scan κ) : Prop where
  size_least : found.least.size = s.least.size
  size_way : found.way.size = s.way.size
  nearer : ∀ j, 0 < j → j ≤ m → s.Nearer cost j →
    found.leastTo j = s.reduced cost j ∧ found.wayFrom j = s.column
  kept : ∀ j, (0 < j → j ≤ m → ¬ s.Nearer cost j) →
    found.leastTo j = s.leastTo j ∧ found.wayFrom j = s.wayFrom j

/-- The column that a scan has chosen of those up to `m`. -/
structure Chosen (s : Search κ) (m : Nat) (found : Scan κ) : Prop where
  none : found.column = 0 → found.cost = Cost.infinity
  some : found.column ≠ 0 → found.column ≤ m ∧ s.isReached found.column = false ∧
    found.cost = found.leastTo found.column ∧ ∃ c, found.cost < c
  cheapest : ∀ j, 0 < j → j ≤ m → s.isReached j = false → ¬ found.leastTo j < found.cost

theorem Scan.leastTo_note_of_ne {k : Nat} (apart : k ≠ j) :
    (found.note cost s k).leastTo j = found.leastTo j := by
  rw [Scan.note]
  split
  · exact getD_set_of_ne apart
  · rfl

theorem Scan.column_note : (found.note cost s j).column = found.column := by
  rw [Scan.note]
  split <;> rfl

theorem Scan.cost_note : (found.note cost s j).cost = found.cost := by
  rw [Scan.note]
  split <;> rfl

theorem Noted.note (noted : Noted cost s m found) (unreached : s.isReached (m + 1) = false)
    (least : m + 1 < s.least.size) (way : m + 1 < s.way.size) :
    Noted cost s (m + 1) (found.note cost s (m + 1)) := by
  have known : found.leastTo (m + 1) = s.leastTo (m + 1) :=
    (noted.kept (m + 1) fun _ covered => by omega).1
  rw [Scan.note, known]
  split
  case isTrue lower =>
    have nearer : s.Nearer cost (m + 1) := ⟨unreached, lower⟩
    refine ⟨?_, ?_, fun j positive covered closer => ?_, fun j far => ?_⟩
    · exact Array.size_setIfInBounds.trans noted.size_least
    · exact Array.size_setIfInBounds.trans noted.size_way
    · by_cases last : m + 1 = j
      · subst last
        exact ⟨getD_set_self (noted.size_least ▸ least), getD_set_self (noted.size_way ▸ way)⟩
      · obtain ⟨cheaper, leads⟩ := noted.nearer j positive (by omega) closer
        exact ⟨(getD_set_of_ne last).trans cheaper, (getD_set_of_ne last).trans leads⟩
    · have apart : m + 1 ≠ j := by
        rintro rfl
        exact far (Nat.succ_pos m) (Nat.le_refl _) nearer
      obtain ⟨same, leads⟩ := noted.kept j fun positive covered => far positive (by omega)
      exact ⟨(getD_set_of_ne apart).trans same, (getD_set_of_ne apart).trans leads⟩
  case isFalse higher =>
    refine ⟨noted.size_least, noted.size_way, fun j positive covered closer => ?_,
      fun j far => noted.kept j fun positive covered => far positive (by omega)⟩
    have apart : j ≠ m + 1 := by
      rintro rfl
      exact higher closer.2
    exact noted.nearer j positive (by omega) closer

theorem Noted.choose (noted : Noted cost s m found) (k : Nat) :
    Noted cost s m (found.choose k) := by
  rw [Scan.choose]
  split
  · exact ⟨noted.size_least, noted.size_way, noted.nearer, noted.kept⟩
  · exact noted

theorem Noted.skip (noted : Noted cost s m found) (reached : s.isReached (m + 1) = true) :
    Noted cost s (m + 1) found := by
  refine ⟨noted.size_least, noted.size_way, fun j positive covered closer => ?_,
    fun j far => noted.kept j fun positive covered => far positive (by omega)⟩
  have apart : j ≠ m + 1 := by
    rintro rfl
    exact absurd closer.1 (by simp [reached])
  exact noted.nearer j positive (by omega) closer

theorem Chosen.note (chosen : Chosen s m found) :
    Chosen s m (found.note cost s (m + 1)) := by
  refine ⟨?_, ?_, fun j positive covered unreached => ?_⟩
  · rw [Scan.column_note, Scan.cost_note]
    exact chosen.none
  · rw [Scan.column_note, Scan.cost_note]
    intro some
    obtain ⟨covered, unreached, equal, below⟩ := chosen.some some
    exact ⟨covered, unreached, by rw [Scan.leastTo_note_of_ne (by omega), equal], below⟩
  · rw [Scan.leastTo_note_of_ne (by omega), Scan.cost_note]
    exact chosen.cheapest j positive covered unreached

variable [Cost.Ordered κ]

theorem Chosen.choose (chosen : Chosen s m found) (unreached : s.isReached (m + 1) = false) :
    Chosen s (m + 1) (found.choose (m + 1)) := by
  rw [Scan.choose]
  split
  case isTrue lower =>
    refine ⟨fun none => absurd none (Nat.succ_ne_zero m),
      fun _ => ⟨Nat.le_refl _, unreached, rfl, _, lower⟩, fun j positive covered free less => ?_⟩
    by_cases last : j = m + 1
    · subst last
      exact Cost.Ordered.lt_irrefl _ less
    · exact chosen.cheapest j positive (by omega) free (Cost.Ordered.lt_trans less lower)
  case isFalse higher =>
    refine ⟨chosen.none, fun some => ?_, fun j positive covered free less => ?_⟩
    · obtain ⟨covered, rest⟩ := chosen.some some
      exact ⟨by omega, rest⟩
    · by_cases last : j = m + 1
      · subst last
        exact higher less
      · exact chosen.cheapest j positive (by omega) free less

omit [Cost.Ordered κ] in
theorem Chosen.skip (chosen : Chosen s m found) (reached : s.isReached (m + 1) = true) :
    Chosen s (m + 1) found := by
  refine ⟨chosen.none, fun some => ?_, fun j positive covered free less => ?_⟩
  · obtain ⟨covered, rest⟩ := chosen.some some
    exact ⟨by omega, rest⟩
  · have apart : j ≠ m + 1 := by
      rintro rfl
      exact absurd free (by simp [reached])
    exact chosen.cheapest j positive (by omega) free less

omit [Cost.Ordered κ] in
theorem scan_succ (m : Nat) : scan cost (m + 1) s = look cost s (scan cost m s) (m + 1) :=
  foldl_range_succ ..

/-- A scan notes every column and chooses the cheapest unreached one. -/
theorem scan_spec (least : n < s.least.size) (way : n < s.way.size) :
    Noted cost s n (scan cost n s) ∧ Chosen s n (scan cost n s) := by
  induction n with
  | zero =>
    exact ⟨⟨rfl, rfl, fun j _ _ => by omega, fun j _ => ⟨rfl, rfl⟩⟩,
      ⟨fun _ => rfl, fun some => absurd rfl some, fun j _ _ => by omega⟩⟩
  | succ m ih =>
    obtain ⟨noted, chosen⟩ := ih (by omega) (by omega)
    rw [scan_succ]
    cases reached : s.isReached (m + 1) with
    | true =>
      rw [look_of_reached reached]
      exact ⟨noted.skip reached, chosen.skip reached⟩
    | false =>
      rw [look_of_unreached reached (noted.size_least ▸ least)]
      exact ⟨(noted.note reached least way).choose _, chosen.note.choose reached⟩

end Scanning

section Searching

variable (cost : Nat → Nat → κ) (n : Nat)

namespace Search

/-- The column reached last is reached for good. -/
def marked (s : Search κ) : Search κ :=
  { s with reached := s.reached.setIfInBounds s.column true }

/-- All columns have been looked at from the one reached last. -/
def looked (s : Search κ) : Search κ :=
  { s.marked with least := (scan cost n s.marked).least, way := (scan cost n s.marked).way }

/-- The potentials are moved and the cheapest column is reached. -/
def advanced (s : Search κ) : Search κ :=
  { shift n (scan cost n s.marked).cost (s.looked cost n) with
    column := (scan cost n s.marked).column }

end Search

theorem search_succ (turns : Nat) (s : Search κ) :
    search cost n (turns + 1) s =
      if (scan cost n s.marked).column = 0 then s.looked cost n
      else if (s.advanced cost n).ownerOf (s.advanced cost n).column = 0 then s.advanced cost n
      else search cost n turns (s.advanced cost n) := rfl

/-- A search that is about to go on from its column, where `trail` lists the columns that are
reached for good. -/
structure Search.Reaches (n : Nat) (s : Search κ) (trail : List Nat) : Prop where
  leads : Trail s.wayFrom (s.column :: trail)
  inside : ∀ j ∈ s.column :: trail, j ≤ n
  reached : ∀ j, s.isReached j = true ↔ j ∈ trail
  /-- Rows own all columns that are reached for good. -/
  owned : ∀ j ∈ trail, s.ownerOf j ≠ 0
  /-- A column with a cost has a way. -/
  noted : ∀ j, 0 < j → j ≤ n → j ∉ trail → s.leastTo j ≠ Cost.infinity → s.wayFrom j ∈ trail
  size_least : s.least.size = n + 1
  size_way : s.way.size = n + 1
  size_reached : s.reached.size = n + 1

/-- The search that a row is placed by, before its first turn. -/
def Search.begin (s : State κ) (row : Nat) : Search κ :=
  { s with
    owner := s.owner.setIfInBounds 0 row
    least := Array.replicate (n + 1) Cost.infinity
    reached := Array.replicate (n + 1) false
    column := 0 }

section Begin

variable {cost n} {s : State κ} {row : Nat}

theorem place_eq : place cost n s row =
    augment (n + 1) (search cost n (n + 1) (Search.begin n s row)).column
      (search cost n (n + 1) (Search.begin n s row)).toState := rfl

theorem Search.leastTo_begin (j : Nat) : (Search.begin n s row).leastTo j = Cost.infinity :=
  getD_replicate ..

theorem Search.isReached_begin (j : Nat) : (Search.begin n s row).isReached j = false :=
  getD_replicate ..

theorem Search.reaches_begin (size : s.way.size = n + 1) :
    (Search.begin n s row).Reaches n [] := by
  refine ⟨.start, ?_, ?_, ?_, ?_, Array.size_replicate, size, Array.size_replicate⟩
  · intro j member
    exact (List.mem_singleton.mp member).symm ▸ Nat.zero_le n
  · intro j
    rw [Search.isReached_begin]
    exact iff_of_false Bool.false_ne_true List.not_mem_nil
  · exact fun j member => absurd member List.not_mem_nil
  · exact fun j _ _ _ priced => absurd (Search.leastTo_begin j) priced

end Begin

namespace Search.Reaches

variable {cost n} {s : Search κ} {trail : List Nat} (reaches : s.Reaches n trail)

include reaches

theorem isReached_marked (j : Nat) : s.marked.isReached j = true ↔ j ∈ s.column :: trail := by
  have inside : s.column < s.reached.size := by
    rw [reaches.size_reached]
    exact Nat.lt_succ_of_le (reaches.inside _ List.mem_cons_self)
  by_cases same : s.column = j
  · subst same
    simp [isReached, marked, getD_set_self inside]
  · rw [isReached, marked, getD_set_of_ne same, List.mem_cons, or_iff_right (Ne.symm same)]
    exact reaches.reached j

theorem not_isReached_marked {j : Nat} (new : j ∉ s.column :: trail) :
    s.marked.isReached j = false := by
  rw [← reaches.isReached_marked] at new
  exact Bool.eq_false_iff.mpr new

variable [Cost.Ordered κ]

variable (cost) in
theorem scanned : Noted cost s.marked n (scan cost n s.marked) ∧
    Chosen s.marked n (scan cost n s.marked) := by
  refine scan_spec ?_ ?_
  · exact Nat.lt_of_lt_of_eq n.lt_succ_self reaches.size_least.symm
  · exact Nat.lt_of_lt_of_eq n.lt_succ_self reaches.size_way.symm

/-- The ways from columns that are reached for good stay as they are. -/
theorem wayFrom_looked {j : Nat} (member : j ∈ s.column :: trail) :
    (s.looked cost n).wayFrom j = s.wayFrom j := by
  have reached := (reaches.isReached_marked j).mpr member
  exact ((reaches.scanned cost).1.kept j fun _ _ nearer =>
    Bool.noConfusion (reached.symm.trans nearer.1)).2

/-- A column that has a cost after a look has a way to a column that is reached for good. -/
theorem wayFrom_looked_mem {j : Nat} (positive : 0 < j) (inside : j ≤ n)
    (new : j ∉ s.column :: trail) (priced : (s.looked cost n).leastTo j ≠ Cost.infinity) :
    (s.looked cost n).wayFrom j ∈ s.column :: trail := by
  have noted := (reaches.scanned cost).1
  by_cases nearer : s.marked.Nearer cost j
  · have leads : (s.looked cost n).wayFrom j = s.column :=
      (noted.nearer j positive inside nearer).2
    rw [leads]
    exact List.mem_cons_self
  · obtain ⟨same, leads⟩ := noted.kept j fun _ _ => nearer
    have before : s.leastTo j ≠ Cost.infinity := fun none => priced (same.trans none)
    have way := reaches.noted j positive inside (fun old => new (.tail _ old)) before
    have leads : (s.looked cost n).wayFrom j = s.wayFrom j := leads
    exact List.mem_cons_of_mem _ (leads ▸ way)

theorem chosen_new (found : (scan cost n s.marked).column ≠ 0) :
    (scan cost n s.marked).column ∉ s.column :: trail := by
  obtain ⟨-, unreached, -⟩ := (reaches.scanned cost).2.some found
  rw [← reaches.isReached_marked, unreached]
  exact Bool.false_ne_true

/-- What is left of the cost of a column that is not reached yet. -/
theorem leastTo_advanced {j : Nat} (inside : j ≤ n) (new : j ∉ s.column :: trail) :
    (s.advanced cost n).leastTo j =
      (s.looked cost n).leastTo j - (scan cost n s.marked).cost := by
  have size : j < (s.looked cost n).least.size := by
    have size := (reaches.scanned cost).1.size_least
    exact Nat.lt_of_le_of_lt inside (Nat.lt_of_lt_of_eq n.lt_succ_self
      (size.trans reaches.size_least).symm)
  have free : (s.looked cost n).isReached j = false := reaches.not_isReached_marked new
  rw [leastTo, Search.advanced, shift]
  dsimp only
  rw [getD_mapIdx size, if_neg (by simp [free])]
  rfl

/-- One turn of a search. -/
theorem advanced (owner : s.ownerOf s.column ≠ 0) (found : (scan cost n s.marked).column ≠ 0) :
    (s.advanced cost n).Reaches n (s.column :: trail) := by
  obtain ⟨noted, chosen⟩ := reaches.scanned cost
  obtain ⟨covered, unreached, price, dearer, below⟩ := chosen.some found
  have new := reaches.chosen_new found
  have priced : (s.looked cost n).leastTo (scan cost n s.marked).column ≠ Cost.infinity := by
    intro none
    rw [price, show (scan cost n s.marked).leastTo _ = Cost.infinity from none] at below
    exact Cost.Ordered.not_infinity_lt _ below
  constructor
  · exact (reaches.leads.congr fun j => reaches.wayFrom_looked).reach new
      (reaches.wayFrom_looked_mem (Nat.pos_of_ne_zero found) covered new priced)
  · exact List.forall_mem_cons.mpr ⟨covered, reaches.inside⟩
  · exact reaches.isReached_marked
  · exact List.forall_mem_cons.mpr ⟨owner, reaches.owned⟩
  · intro j positive inside unseen left
    rw [reaches.leastTo_advanced inside unseen] at left
    refine reaches.wayFrom_looked_mem positive inside unseen fun none => left ?_
    rw [none, Cost.Ordered.infinity_sub below]
  · exact Array.size_mapIdx.trans (noted.size_least.trans reaches.size_least)
  · exact noted.size_way.trans reaches.size_way
  · exact Array.size_setIfInBounds.trans reaches.size_reached

end Search.Reaches
end Searching

section Reversing

/-- The column takes over the row of the one before it. -/
def State.passed (s : State κ) (j : Nat) : State κ :=
  { s with owner := s.owner.setIfInBounds j (s.ownerOf (s.wayFrom j)) }

omit [Cost κ] in
/-- Going back along a path, each column takes over the row of the one before it, until column zero
is reached: what every step keeps holds in the end. -/
theorem augment_induction {I : Nat → List Nat → State κ → Prop}
    (step : ∀ {s : State κ} {j : Nat} {path rest : List Nat}, j ≠ 0 → Trail s.wayFrom (j :: path) →
      (s.wayFrom j :: rest) <:+ path → I j path s → I (s.wayFrom j) rest (s.passed j))
    {turns j : Nat} {path : List Nat} {s : State κ} (leads : Trail s.wayFrom (j :: path))
    (enough : path.length < turns) (start : I j path s) : I 0 [] (augment turns j s) := by
  induction turns generalizing j path s with
  | zero => exact absurd enough (Nat.not_lt_zero _)
  | succ turns ih =>
    rw [augment]
    by_cases last : j = 0
    · subst last
      obtain rfl := leads.eq_nil
      exact start
    · obtain ⟨rest, before, suffix⟩ := (leads.tail last).exists_suffix (leads.way_mem last)
      have shorter : rest.length < turns := by
        have := suffix.length_le
        rw [List.length_cons] at this
        omega
      rw [if_neg last]
      exact ih before shorter (step last leads suffix start)

end Reversing

section Reading

variable {α : Type} {s : State α} {n m : Nat}

/-- Notes a column for the row that owns it. -/
def State.read (s : State α) (found : Array Nat) (k : Nat) : Array Nat :=
  match s.ownerOf (k + 1) with
  | 0 => found
  | row + 1 => found.setIfInBounds row k

theorem columns_eq :
    columns n s = ((List.range n).foldl s.read (Array.replicate n 0)).toList := rfl

theorem State.size_read (found : Array Nat) (k : Nat) : (s.read found k).size = found.size := by
  rw [State.read]
  split
  · rfl
  · exact Array.size_setIfInBounds

theorem size_foldl_read : ((List.range m).foldl s.read (Array.replicate n 0)).size = n :=
  (size_foldl State.size_read _ _).trans Array.size_replicate

theorem length_columns (n : Nat) (s : State α) : (columns n s).length = n := by
  rw [columns_eq, Array.length_toList, size_foldl_read]

/-- What is read for a row that owns one of the columns looked at, and no other column. -/
theorem getD_foldl_read {i k d : Nat} (inside : i < n) (owned : s.ownerOf (k + 1) = i + 1)
    (only : ∀ l < m, s.ownerOf (l + 1) = i + 1 → l = k) (passed : k < m) :
    ((List.range m).foldl s.read (Array.replicate n 0)).getD i d = k := by
  induction m with
  | zero => exact absurd passed (Nat.not_lt_zero k)
  | succ m ih =>
    rw [foldl_range_succ, State.read]
    by_cases here : m = k
    · subst here
      rw [owned]
      exact getD_set_self (Nat.lt_of_lt_of_eq inside size_foldl_read.symm)
    · have before := ih (fun l below => only l (by omega)) (by omega)
      split
      case h_1 free => exact before
      case h_2 row other =>
        have apart : row ≠ i := by
          rintro rfl
          exact here (only m m.lt_succ_self other)
        rw [getD_set_of_ne apart, before]

theorem getElem?_columns {i k : Nat} (inside : i < n) (within : k < n)
    (owned : s.ownerOf (k + 1) = i + 1) (only : ∀ l < n, s.ownerOf (l + 1) = i + 1 → l = k) :
    (columns n s)[i]? = some k := by
  have bound := Nat.lt_of_lt_of_eq inside (size_foldl_read (s := s) (m := n)).symm
  have read := getD_foldl_read (d := 0) inside owned only within
  rw [Array.getD_eq_getD_getElem?, Array.getElem?_eq_getElem bound, Option.getD_some] at read
  rw [columns_eq, Array.getElem?_toList, Array.getElem?_eq_getElem bound, read]

end Reading
end Assignment
end SwarmEvolution
