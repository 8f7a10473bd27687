import Mathlib.Data.List.Induction
import Mathlib.Data.List.Nodup
import SwarmEvolution.Proofs.Settings.Validity
import SwarmEvolution.Settings.Sharing

/-! What becomes of updates whose steps are taken in any order. The last one to store has its edit
in the settings, on top of those that were there when it copied them. -/
namespace SwarmEvolution.Settings

theorem revise_ok {edit : Settings → Settings} {copy revised : Settings}
    (accepted : revise edit copy = .ok revised) :
    revised = edit copy ∧ revised.validate = .ok () := by
  obtain ⟨_, valid, same⟩ := Failure.bind_eq_ok_iff.mp accepted
  obtain rfl : edit copy = revised := Except.ok.inj same
  exact ⟨rfl, valid⟩

def Update.isReady : Update → Bool
  | .ready _ => true
  | _ => false

theorem Update.next_current {u : Update} (other : u.isReady = false) (current : Settings) :
    (u.next current).2 = current := by
  cases u with
  | waiting | returned => rfl
  | copied edit copy =>
    dsimp only [next]
    split <;> rfl
  | ready => contradiction

namespace Shared

section Steps

variable {s : Shared} {j k : Nat} {u : Update} {schedule : List Nat}

theorem step_of_some (here : s.updates[k]? = some u) : s.step k =
    { current := (u.next s.current).2, updates := s.updates.set k (u.next s.current).1 } := by
  unfold step
  rw [here]

theorem step_of_none (absent : s.updates[k]? = none) : s.step k = s := by
  unfold step
  rw [absent]

theorem updates_step (here : s.updates[k]? = some u) :
    (s.step k).updates[k]? = some (u.next s.current).1 := by
  rw [step_of_some here]
  exact List.getElem?_set_self (List.getElem?_eq_some_iff.mp here).1

theorem updates_step_of_ne (other : k ≠ j) : (s.step j).updates[k]? = s.updates[k]? := by
  cases here : s.updates[j]? with
  | none => rw [step_of_none here]
  | some u =>
    rw [step_of_some here]
    exact List.getElem?_set_ne other.symm

/-- Whether the next step of an update is its store. -/
def storesNext (s : Shared) (k : Nat) : Bool := s.updates[k]?.any Update.isReady

theorem current_step (other : s.storesNext k = false) : (s.step k).current = s.current := by
  cases here : s.updates[k]? with
  | none => rw [step_of_none here]
  | some u =>
    unfold storesNext at other
    rw [here] at other
    rw [step_of_some here]
    exact Update.next_current other s.current

theorem run_append (s : Shared) (earlier later : List Nat) :
    s.run (earlier ++ later) = (s.run earlier).run later := List.foldl_append

theorem run_concat (s : Shared) (schedule : List Nat) (k : Nat) :
    s.run (schedule ++ [k]) = (s.run schedule).step k := run_append s schedule [k]

/-- The updates that store, in the order of their stores. -/
def stored (s : Shared) : List Nat → List Nat
  | [] => []
  | k :: rest => (if s.storesNext k then [k] else []) ++ (s.step k).stored rest

theorem stored_append (s : Shared) (earlier later : List Nat) :
    s.stored (earlier ++ later) = s.stored earlier ++ (s.run earlier).stored later := by
  induction earlier generalizing s with
  | nil => rfl
  | cons k earlier ih =>
    rw [List.cons_append, stored, stored, ih, List.append_assoc]
    rfl

theorem stored_concat (s : Shared) (schedule : List Nat) (k : Nat) :
    s.stored (schedule ++ [k]) =
      s.stored schedule ++ if (s.run schedule).storesNext k then [k] else [] := by
  rw [stored_append, stored, stored, List.append_nil]

theorem stored_concat_store {revised : Settings}
    (ready : (s.run schedule).updates[k]? = some (.ready revised)) :
    s.stored (schedule ++ [k]) = s.stored schedule ++ [k] := by
  have stores : (s.run schedule).storesNext k = true := by
    unfold storesNext
    rw [ready]
    rfl
  rw [stored_concat, if_pos stores]

theorem stored_concat_other (other : (s.run schedule).storesNext k = false) :
    s.stored (schedule ++ [k]) = s.stored schedule := by
  rw [stored_concat, other]
  exact List.append_nil _

theorem mem_stored_concat_of_ne (other : k ≠ j) :
    k ∈ s.stored (schedule ++ [j]) ↔ k ∈ s.stored schedule := by
  rw [stored_concat]
  split
  · rw [List.mem_append, List.mem_singleton]
    exact or_iff_left other
  · rw [List.append_nil]

end Steps

section Runs

variable {s : Shared} {edits : List (Settings → Settings)} {schedule : List Nat} {k : Nat}

/-- An update made its copy at a step of a schedule. -/
def Copied (s : Shared) (schedule : List Nat) (k : Nat) (edit : Settings → Settings)
    (copy : Settings) : Prop :=
  ∃ earlier between, schedule = earlier ++ k :: between ∧
    (s.run earlier).updates[k]? = some (.waiting edit) ∧ (s.run earlier).current = copy

theorem Copied.later {edit : Settings → Settings} {copy : Settings}
    (copied : s.Copied schedule k edit copy) (j : Nat) :
    s.Copied (schedule ++ [j]) k edit copy := by
  obtain ⟨earlier, between, rfl, waiting, same⟩ := copied
  exact ⟨earlier, between ++ [j], by rw [List.append_assoc, List.cons_append], waiting, same⟩

/-- What is known of an update by how far it has come. -/
inductive Known (s : Shared) (edits : List (Settings → Settings)) (schedule : List Nat) (k : Nat) :
    Update → Prop
  | waiting {edit : Settings → Settings} (new : k ∉ s.stored schedule)
    (own : edits[k]? = some edit) : Known s edits schedule k (.waiting edit)
  | copied {edit : Settings → Settings} {copy : Settings} (new : k ∉ s.stored schedule)
    (own : edits[k]? = some edit) (copied : s.Copied schedule k edit copy) :
    Known s edits schedule k (.copied edit copy)
  | ready {edit : Settings → Settings} {copy revised : Settings} (new : k ∉ s.stored schedule)
    (own : edits[k]? = some edit) (copied : s.Copied schedule k edit copy)
    (valid : revise edit copy = .ok revised) : Known s edits schedule k (.ready revised)
  | accepted (old : k ∈ s.stored schedule) : Known s edits schedule k (.returned (.ok ()))
  | refused {fault : Failure} (new : k ∉ s.stored schedule) :
    Known s edits schedule k (.returned (.error fault))

/-- Steps of other updates do not matter. -/
theorem Known.later {u : Update} {j : Nat} (known : s.Known edits schedule k u) (other : k ≠ j) :
    s.Known edits (schedule ++ [j]) k u := by
  have same : k ∈ s.stored (schedule ++ [j]) ↔ k ∈ s.stored schedule :=
    mem_stored_concat_of_ne other
  cases known with
  | waiting new own => exact .waiting (mt same.mp new) own
  | copied new own copied => exact .copied (mt same.mp new) own (copied.later j)
  | ready new own copied valid => exact .ready (mt same.mp new) own (copied.later j) valid
  | accepted old => exact .accepted (same.mpr old)
  | refused new => exact .refused (mt same.mp new)

theorem Copied.now {edit : Settings → Settings}
    (waiting : (s.run schedule).updates[k]? = some (.waiting edit)) :
    s.Copied (schedule ++ [k]) k edit (s.run schedule).current :=
  ⟨schedule, [], rfl, waiting, rfl⟩

/-- The step of an update leads to what is known of it then. -/
theorem Known.next {u : Update} (known : s.Known edits schedule k u)
    (here : (s.run schedule).updates[k]? = some u) :
    s.Known edits (schedule ++ [k]) k (u.next (s.run schedule).current).1 := by
  have quiet (other : u.isReady = false) : s.stored (schedule ++ [k]) = s.stored schedule := by
    refine stored_concat_other ?_
    unfold storesNext
    rw [here]
    exact other
  cases known with
  | waiting new own =>
    rw [← quiet rfl] at new
    exact .copied new own (.now here)
  | @copied edit copy new own copied =>
    rw [← quiet rfl] at new
    cases valid : revise edit copy with
    | ok revised =>
      have next :
          (Update.next (s.run schedule).current (.copied edit copy)).1 = .ready revised := by
        simp only [Update.next, valid]
      exact next ▸ .ready new own (copied.later k) valid
    | error fault =>
      have next : (Update.next (s.run schedule).current (.copied edit copy)).1 =
          .returned (.error fault) := by
        simp only [Update.next, valid]
      exact next ▸ .refused new
  | ready new own copied valid =>
    refine .accepted ?_
    rw [stored_concat_store here]
    exact List.mem_append_right _ (List.mem_singleton_self k)
  | accepted old =>
    rw [← quiet rfl] at old
    exact .accepted old
  | refused new =>
    rw [← quiet rfl] at new
    exact .refused new

theorem known_run (fresh : s.updates = edits.map .waiting) (schedule : List Nat) :
    ∀ k u, (s.run schedule).updates[k]? = some u → s.Known edits schedule k u := by
  induction schedule using List.reverseRecOn with
  | nil =>
    intro k u here
    change s.updates[k]? = some u at here
    rw [fresh, List.getElem?_map] at here
    obtain ⟨edit, own, rfl⟩ := Option.map_eq_some_iff.mp here
    exact .waiting List.not_mem_nil own
  | append_singleton schedule j ih =>
    intro k u here
    rw [run_concat] at here
    by_cases own : k = j
    · subst own
      cases before : (s.run schedule).updates[k]? with
      | none =>
        rw [step_of_none before, before] at here
        contradiction
      | some v =>
        obtain rfl := Option.some.inj ((updates_step before).symm.trans here)
        exact (ih k v before).next before
    · rw [updates_step_of_ne own] at here
      exact (ih k u here).later own

/-- What is stored is the edit of an earlier copy. -/
theorem stores_edited (fresh : s.updates = edits.map .waiting)
    (stores : (s.run schedule).storesNext k) : ∃ edit, edits[k]? = some edit ∧
      k ∉ s.stored schedule ∧ s.stored (schedule ++ [k]) = s.stored schedule ++ [k] ∧
      ∃ copy, s.Copied schedule k edit copy ∧ (edit copy).validate = .ok () ∧
        (s.run (schedule ++ [k])).current = edit copy := by
  unfold storesNext at stores
  cases here : (s.run schedule).updates[k]? with
  | none =>
    rw [here] at stores
    contradiction
  | some u =>
    rw [here] at stores
    cases u with
    | waiting | copied | returned => contradiction
    | ready revised =>
      cases known_run fresh schedule k _ here with
      | @ready edit copy _ new own copied valid =>
        obtain ⟨rfl, valid⟩ := revise_ok valid
        refine ⟨edit, own, new, stored_concat_store here, copy, copied, valid, ?_⟩
        rw [run_concat, step_of_some here]
        rfl

end Runs

section Edits

/-- Some of the edits, one after another. -/
def applied (edits : List (Settings → Settings)) (order : List Nat) (initial : Settings) :
    Settings :=
  order.foldl (fun s k => (edits[k]?.getD id) s) initial

theorem applied_concat {edits : List (Settings → Settings)} {edit : Settings → Settings} {k : Nat}
    (own : edits[k]? = some edit) (order : List Nat) (initial : Settings) :
    applied edits (order ++ [k]) initial = edit (applied edits order initial) := by
  unfold applied
  rw [List.foldl_append, List.foldl_cons, List.foldl_nil, own]
  rfl

variable {s : Shared} {edits : List (Settings → Settings)} {schedule : List Nat}

/-- What every schedule has if all schedules do that it continues. -/
theorem schedule_induction {P : List Nat → Prop} (begun : P [])
    (continued : ∀ schedule k, (∀ earlier, earlier <+: schedule → P earlier) → P (schedule ++ [k]))
    (schedule : List Nat) : P schedule := by
  suffices all : ∀ earlier, earlier <+: schedule → P earlier from all schedule List.prefix_rfl
  induction schedule using List.reverseRecOn with
  | nil =>
    intro earlier front
    rw [List.prefix_nil.mp front]
    exact begun
  | append_singleton schedule k ih =>
    intro earlier front
    rcases List.prefix_concat_iff.mp front with rfl | front
    · exact continued schedule k ih
    · exact ih earlier front

/-- Some of the edits that are stored are in the settings, the last one among them. -/
theorem run_keeps_last (fresh : s.updates = edits.map .waiting) (schedule : List Nat) :
    ∃ kept, kept.Sublist (s.stored schedule) ∧ kept.getLast? = (s.stored schedule).getLast? ∧
      (s.run schedule).current = applied edits kept s.current := by
  induction schedule using schedule_induction with
  | begun => exact ⟨[], .slnil, rfl, rfl⟩
  | continued schedule k ih =>
    cases stores : (s.run schedule).storesNext k with
    | false =>
      rw [stored_concat_other stores, run_concat, current_step stores]
      exact ih schedule List.prefix_rfl
    | true =>
      obtain ⟨edit, own, -, stored, copy, copied, -, current⟩ := stores_edited fresh stores
      obtain ⟨earlier, between, rfl, -, rfl⟩ := copied
      obtain ⟨kept, among, -, before⟩ := ih earlier (List.prefix_append _ _)
      rw [stored, current, before]
      refine ⟨kept ++ [k], ?_, ?_, (applied_concat own ..).symm⟩
      · refine (among.trans ?_).append_right [k]
        rw [stored_append]
        exact List.sublist_append_left _ _
      · rw [List.getLast?_concat, List.getLast?_concat]

/-- From the copy of an update up to its store nothing else is stored. -/
def Undisturbed (s : Shared) (schedule : List Nat) : Prop :=
  ∀ earlier k between later, schedule = earlier ++ k :: (between ++ k :: later) →
    (∃ edit, (s.run earlier).updates[k]? = some (.waiting edit)) →
    (s.run (earlier ++ k :: between)).storesNext k →
    s.stored (earlier ++ k :: between) = s.stored earlier

theorem Undisturbed.front {earlier : List Nat} (undisturbed : s.Undisturbed schedule)
    (front : earlier <+: schedule) : s.Undisturbed earlier := by
  obtain ⟨rest, rfl⟩ := front
  intro first k between later same copies stores
  refine undisturbed first k between (later ++ rest) ?_ copies stores
  rw [same, List.append_assoc, List.cons_append, List.append_assoc, List.cons_append]

/-- Updates that are not disturbed come one after another. -/
theorem run_undisturbed (fresh : s.updates = edits.map .waiting) (schedule : List Nat) :
    s.Undisturbed schedule →
      (s.run schedule).current = applied edits (s.stored schedule) s.current := by
  induction schedule using schedule_induction with
  | begun => exact fun _ => rfl
  | continued schedule k ih =>
    intro undisturbed
    cases stores : (s.run schedule).storesNext k with
    | false =>
      rw [stored_concat_other stores, run_concat, current_step stores]
      exact ih schedule List.prefix_rfl (undisturbed.front (List.prefix_append _ _))
    | true =>
      obtain ⟨edit, own, -, stored, copy, copied, -, current⟩ := stores_edited fresh stores
      obtain ⟨earlier, between, rfl, waiting, rfl⟩ := copied
      have nothing := undisturbed earlier k between []
        (by rw [List.append_assoc, List.cons_append]) ⟨edit, waiting⟩ stores
      have before := ih earlier (List.prefix_append _ _) (undisturbed.front
        ((List.prefix_append _ _).trans (List.prefix_append _ _)))
      rw [stored, current, before, nothing, applied_concat own]

theorem mem_of_mem_stored {j : Nat} (mem : j ∈ s.stored schedule) : j ∈ schedule := by
  induction schedule generalizing s with
  | nil => exact mem
  | cons k rest ih =>
    unfold stored at mem
    rcases List.mem_append.mp mem with now | later
    · split at now
      · exact List.mem_singleton.mp now ▸ List.mem_cons_self
      · contradiction
    · exact List.mem_cons_of_mem k (ih later)

/-- Updates that take their steps one after another do not disturb each other. -/
theorem undisturbed_of_sorted (fresh : s.updates = edits.map .waiting)
    (sorted : schedule.Pairwise (· ≤ ·)) : s.Undisturbed schedule := by
  intro earlier k between later same _ stores
  obtain ⟨_, -, new, -⟩ := stores_edited fresh stores
  rw [stored_append] at new ⊢
  have own : ∀ j ∈ k :: between, j = k := by
    rw [same, ← List.cons_append] at sorted
    have after := (List.pairwise_append.mp (List.pairwise_append.mp sorted).2.1).2.2
    have before := (List.pairwise_cons.mp (List.pairwise_append.mp sorted).2.1).1
    intro j mem
    rcases List.mem_cons.mp mem with rfl | among
    · rfl
    · exact Nat.le_antisymm (after j mem k List.mem_cons_self)
        (before j (List.mem_append_left _ among))
  have nothing : (s.run earlier).stored (k :: between) = [] := by
    refine List.eq_nil_iff_forall_not_mem.mpr fun j mem => new (List.mem_append_right _ ?_)
    exact own j (mem_of_mem_stored mem) ▸ mem
  rw [nothing, List.append_nil]

theorem stored_nodup (fresh : s.updates = edits.map .waiting) (schedule : List Nat) :
    (s.stored schedule).Nodup := by
  induction schedule using List.reverseRecOn with
  | nil => exact List.nodup_nil
  | append_singleton schedule k ih =>
    cases stores : (s.run schedule).storesNext k with
    | false => rwa [stored_concat_other stores]
    | true =>
      obtain ⟨_, -, new, stored, -⟩ := stores_edited fresh stores
      rw [stored, ← List.concat_eq_append]
      exact (List.nodup_concat _ k).mpr ⟨new, ih⟩

theorem run_valid (fresh : s.updates = edits.map .waiting) (schedule : List Nat) :
    (s.run schedule).current = s.current ∨ (s.run schedule).current.validate = .ok () := by
  induction schedule using List.reverseRecOn with
  | nil => exact .inl rfl
  | append_singleton schedule k ih =>
    cases stores : (s.run schedule).storesNext k with
    | false => rwa [run_concat, current_step stores]
    | true =>
      obtain ⟨_, -, -, -, _, -, valid, same⟩ := stores_edited fresh stores
      exact .inr (same ▸ valid)

theorem length_step (s : Shared) (k : Nat) : (s.step k).updates.length = s.updates.length := by
  cases here : s.updates[k]? with
  | none => rw [step_of_none here]
  | some u => rw [step_of_some here, List.length_set]

theorem length_run (s : Shared) (schedule : List Nat) :
    (s.run schedule).updates.length = s.updates.length := by
  induction schedule using List.reverseRecOn with
  | nil => rfl
  | append_singleton schedule k ih => rw [run_concat, length_step, ih]

theorem lt_of_mem_stored (fresh : s.updates = edits.map .waiting) {k : Nat}
    (mem : k ∈ s.stored schedule) : k < s.updates.length := by
  induction schedule using List.reverseRecOn with
  | nil => exact absurd mem List.not_mem_nil
  | append_singleton schedule j ih =>
    cases stores : (s.run schedule).storesNext j with
    | false => exact ih (stored_concat_other stores ▸ mem)
    | true =>
      obtain ⟨_, own, -, stored, -⟩ := stores_edited fresh stores
      rw [stored] at mem
      rcases List.mem_append.mp mem with before | last
      · exact ih before
      · rw [List.mem_singleton.mp last, fresh, List.length_map]
        exact (List.getElem?_eq_some_iff.mp own).1

/-- The updates that are told of success are those that have stored. -/
theorem returned_ok_iff (fresh : s.updates = edits.map .waiting) (schedule : List Nat) (k : Nat) :
    (s.run schedule).updates[k]? = some (.returned (.ok ())) ↔ k ∈ s.stored schedule := by
  constructor
  · intro returned
    cases known_run fresh schedule k _ returned with
    | accepted old => exact old
  · intro old
    have inside := length_run s schedule ▸ lt_of_mem_stored fresh old
    have here := List.getElem?_eq_getElem inside
    generalize (s.run schedule).updates[k] = u at here
    cases known_run fresh schedule k u here with
    | accepted => exact here
    | waiting new | copied new | ready new | refused new => exact absurd old new

/-- Whatever the order of their steps, updates leave the settings with the edits of some that were
told of success, in the order of their stores and with the last one, or as they were. None of these
edits is missing if nothing is stored between the copy and the store of any of them. -/
theorem run_applies (initial : Settings) (edits : List (Settings → Settings))
    (schedule : List Nat) :
    let s := ofEdits initial edits
    (s.stored schedule).Nodup ∧
      (∀ k, (s.run schedule).updates[k]? = some (.returned (.ok ())) ↔ k ∈ s.stored schedule) ∧
      (∃ kept, kept.Sublist (s.stored schedule) ∧
        kept.getLast? = (s.stored schedule).getLast? ∧
        (s.run schedule).current = applied edits kept initial) ∧
      (s.Undisturbed schedule →
        (s.run schedule).current = applied edits (s.stored schedule) initial) ∧
      ((s.run schedule).current = initial ∨ (s.run schedule).current.validate = .ok ()) := by
  have fresh : (ofEdits initial edits).updates = edits.map .waiting := rfl
  exact ⟨stored_nodup fresh schedule, returned_ok_iff fresh schedule, run_keeps_last fresh schedule,
    run_undisturbed fresh schedule, run_valid fresh schedule⟩

end Edits

section TwoUpdates

def smallPopulation (s : Settings) : Settings :=
  { s with evolution := { s.evolution with populationSize := 20 } }

def fewGenerations (s : Settings) : Settings :=
  { s with evolution := { s.evolution with generations := 5 } }

theorem revise_smallPopulation : revise smallPopulation {} = .ok (smallPopulation {}) :=
  Failure.bind_eq_ok_iff.mpr ⟨(), by decide +kernel, rfl⟩

theorem revise_fewGenerations : revise fewGenerations {} = .ok (fewGenerations {}) :=
  Failure.bind_eq_ok_iff.mpr ⟨(), by decide +kernel, rfl⟩

/-- The first of two updates is lost when the second has copied the settings before it stores,
though both are told of success. -/
theorem interleaved_update_lost :
    let s := ofEdits {} [smallPopulation, fewGenerations]
    let final := s.run [0, 1, 0, 1, 0, 1]
    final.updates[0]? = some (.returned (.ok ())) ∧ final.updates[1]? = some (.returned (.ok ())) ∧
      ∀ order : List Nat, order.Perm [0, 1] →
        final.current ≠ applied [smallPopulation, fewGenerations] order {} := by
  intro s final
  have ends : final = ⟨fewGenerations {}, [.returned (.ok ()), .returned (.ok ())]⟩ := by
    simp [final, s, run, step, ofEdits, Update.next, revise_smallPopulation, revise_fewGenerations]
  rw [ends]
  refine ⟨rfl, rfl, fun order same equal => ?_⟩
  have sizes := congrArg (·.evolution.populationSize) equal
  obtain ⟨first, second, rfl⟩ := List.length_eq_two.mp same.length_eq
  have zero := List.mem_pair.mp (same.mem_iff.mpr List.mem_cons_self)
  have one := List.mem_pair.mp (same.mem_iff.mpr (List.mem_cons_of_mem 0 List.mem_cons_self))
  obtain ⟨rfl, rfl⟩ | ⟨rfl, rfl⟩ : first = 0 ∧ second = 1 ∨ first = 1 ∧ second = 0 := by omega
  · exact absurd sizes (by decide)
  · exact absurd sizes (by decide)

/-- Neither of the two updates is lost when the second one waits for the first. -/
theorem consecutive_updates_applied :
    let s := ofEdits {} [smallPopulation, fewGenerations]
    (s.run [0, 0, 0, 1, 1, 1]).current = fewGenerations (smallPopulation {}) := by
  intro s
  have undisturbed : s.Undisturbed [0, 0, 0, 1, 1, 1] := undisturbed_of_sorted rfl (by decide)
  have revision : revise fewGenerations (smallPopulation {}) =
      .ok (fewGenerations (smallPopulation {})) :=
    Failure.bind_eq_ok_iff.mpr ⟨(), by decide +kernel, rfl⟩
  have stored : s.stored [0, 0, 0, 1, 1, 1] = [0, 1] := by
    simp [s, stored, storesNext, step, ofEdits, Update.next, Update.isReady,
      revise_smallPopulation, revision]
  obtain ⟨-, -, -, applied, -⟩ :=
    run_applies {} [smallPopulation, fewGenerations] [0, 0, 0, 1, 1, 1]
  exact (applied undisturbed).trans (stored ▸ rfl)

end TwoUpdates

end Shared
end SwarmEvolution.Settings
