import Mathlib.Data.List.Forall2
import SwarmEvolution.Sampling.Draw

/-! What holds of the outcome of a draw whatever stream it is made from, with one rule for each way
of composing draws, and where a fold takes its steps. -/
namespace SwarmEvolution.Sampling.Draw

theorem bind_apply (d : Draw α) (f : α → Draw β) (random : Stream) :
    (d >>= f) random = f (d random).1 (d random).2 := rfl

theorem pure_apply (a : α) (random : Stream) : (pure a : Draw α) random = (a, random) := rfl

/-- Whatever stream the draw is made from, its outcome has the property. -/
def Always (d : Draw α) (P : α → Prop) : Prop := ∀ random, P (d random).1

theorem always_pure {P : α → Prop} {a : α} (holds : P a) : (pure a : Draw α).Always P :=
  fun _ => holds

theorem always_any (d : Draw α) : d.Always fun _ => True := fun _ => trivial

theorem Always.bind {d : Draw α} {f : α → Draw β} {P : α → Prop} {Q : β → Prop}
    (first : d.Always P) (rest : ∀ a, P a → (f a).Always Q) : (d >>= f).Always Q :=
  fun random => rest _ (first random) _

/-- The rest need not know anything about the first outcome. -/
theorem always_bind {d : Draw α} {f : α → Draw β} {Q : β → Prop} (rest : ∀ a, (f a).Always Q) :
    (d >>= f).Always Q := (always_any d).bind fun a _ => rest a

theorem Always.mono {d : Draw α} {P Q : α → Prop} (holds : d.Always P) (weaker : ∀ a, P a → Q a) :
    d.Always Q := fun random => weaker _ (holds random)

theorem Always.withSeed {d : Draw α} {P : α → Prop} (holds : d.Always P) (seed : UInt64) :
    P (d.withSeed seed) := holds _

theorem each_always {f : α → Draw β} {P : α → β → Prop} {as : List α}
    (one : ∀ a ∈ as, (f a).Always (P a)) : (each f as).Always (List.Forall₂ P as) := by
  induction as with
  | nil => exact always_pure .nil
  | cons a as ih =>
    have later := ih fun b member => one b (.tail _ member)
    exact (one a (.head _)).bind fun b holds => later.bind fun bs all =>
      always_pure (.cons holds all)

theorem always_each {f : α → Draw β} {P : β → Prop} {as : List α}
    (one : ∀ a ∈ as, (f a).Always P) : (each f as).Always fun bs => ∀ b ∈ bs, P b :=
  (each_always one).mono fun bs all b member => by
    obtain ⟨k, below, rfl⟩ := List.mem_iff_getElem.mp member
    exact (List.forall₂_iff_get.mp all).2 k (all.length_eq ▸ below) below

theorem each_map {f : α → Draw β} {g : β → γ} {h : α → γ} {as : List α}
    (one : ∀ a ∈ as, (f a).Always fun b => g b = h a) :
    (each f as).Always fun bs => bs.map g = as.map h :=
  (each_always one).mono fun bs all => by
    rw [← List.forall₂_eq_eq_eq, List.forall₂_map_left_iff, List.forall₂_map_right_iff]
    exact all.flip.imp fun _ _ same => same

theorem always_times {d : Draw α} {P : α → Prop} (n : Nat) (one : d.Always P) :
    (times n d).Always fun as => ∀ a ∈ as, P a := always_each fun _ _ => one

/-- Draws that leave the stream alone do so one after another. -/
theorem each_pure {f : α → Draw β} {g : α → β} {as : List α} (one : ∀ a ∈ as, f a = pure (g a)) :
    each f as = pure (as.map g) := by
  induction as with
  | nil => rfl
  | cons a as ih =>
    unfold each
    rw [one a List.mem_cons_self, ih fun b member => one b (List.mem_cons_of_mem _ member)]
    rfl

theorem each_length (f : α → Draw β) (as : List α) :
    (each f as).Always fun bs => bs.length = as.length :=
  (each_always fun _ _ => always_any _).mono fun _ all => all.length_eq.symm

theorem times_length (n : Nat) (d : Draw α) : (times n d).Always fun as => as.length = n :=
  (each_length _ _).mono fun _ length => length.trans List.length_range

theorem always_foldlM {step : σ → α → Draw σ} {P : σ → Prop} {as : List α} {s : σ}
    (kept : ∀ s, P s → ∀ a ∈ as, (step s a).Always P) (start : P s) :
    (as.foldlM step s).Always P := by
  induction as generalizing s with
  | nil => exact always_pure start
  | cons a as ih =>
    rw [List.foldlM_cons]
    exact (kept s start a (.head _)).bind fun t holds =>
      ih (fun u before b member => kept u before b (.tail _ member)) holds

section Images

variable {f : σ → τ} {step : σ → α → Draw σ} {image : τ → α → Draw τ}

/-- Steps that are taken alike on states and on their images lead to images of each other. -/
theorem foldlM_image (alike : ∀ s a, image (f s) a = f <$> step s a) (as : List α) (s : σ) :
    as.foldlM image (f s) = f <$> as.foldlM step s := by
  induction as generalizing s with
  | nil => rfl
  | cons a as ih =>
    calc
      (a :: as).foldlM image (f s) = step s a >>= fun t => as.foldlM image (f t) := by
        rw [List.foldlM_cons, alike, bind_map_left]
      _ = step s a >>= fun t => f <$> as.foldlM step t := by simp only [ih]
      _ = f <$> (a :: as).foldlM step s := by rw [List.foldlM_cons, map_bind]

theorem each_image {draw : α → Draw σ} {other : α → Draw τ} (alike : ∀ a, other a = f <$> draw a)
    (as : List α) : each other as = List.map f <$> each draw as := by
  induction as with
  | nil => rfl
  | cons a as ih =>
    unfold each
    rw [alike, ih]
    rfl

/-- Draws whose outcomes have the same image may go on into draws that only differ outside it. -/
theorem map_bind_congr {g : β → γ} {first other : Draw σ} {rest rest' : σ → Draw β}
    (same : f <$> first = f <$> other)
    (alike : ∀ s t, f s = f t → g <$> rest s = g <$> rest' t) :
    g <$> (first >>= rest) = g <$> (other >>= rest') := by
  funext random
  have met : (f (first random).1, (first random).2) = (f (other random).1, (other random).2) :=
    congrFun same random
  obtain ⟨image, left⟩ := Prod.mk.inj met
  calc
    (g <$> (first >>= rest)) random = (g <$> rest (first random).1) (first random).2 := rfl
    _ = (g <$> rest' (other random).1) (other random).2 := by rw [alike _ _ image, left]

/-- Steps that come to the same whatever streams they are taken with do so one after another. -/
theorem foldlM_outcome {other : σ → α → Draw σ}
    (same : ∀ s a random random', (step s a random).1 = (other s a random').1) (as : List α)
    (s : σ) (random random' : Stream) :
    (as.foldlM step s random).1 = (as.foldlM other s random').1 := by
  induction as generalizing s random random' with
  | nil => rfl
  | cons a as ih =>
    rw [List.foldlM_cons, List.foldlM_cons, bind_apply, bind_apply, same s a random random']
    exact ih _ _ _

end Images

/-- The elements of a fold, each with the state and the stream that its step is taken in. -/
def trace (step : σ → α → Draw σ) : List α → σ → Stream → List (α × σ × Stream)
  | [], _, _ => []
  | a :: as, s, random => (a, s, random) :: trace step as (step s a random).1 (step s a random).2

theorem map_fst_trace (step : σ → α → Draw σ) (as : List α) (s : σ) (random : Stream) :
    (trace step as s random).map (·.1) = as := by
  induction as generalizing s random with
  | nil => rfl
  | cons a as ih => simp [trace, ih]

theorem trace_invariant {step : σ → α → Draw σ} {P : σ → Prop} {as : List α} {s : σ}
    {random : Stream} (kept : ∀ s, P s → ∀ a ∈ as, (step s a).Always P) (start : P s) :
    ∀ met ∈ trace step as s random, met.1 ∈ as ∧ P met.2.1 := by
  induction as generalizing s random with
  | nil => simp [trace]
  | cons a as ih =>
    intro met member
    rcases List.mem_cons.mp member with rfl | later
    · exact ⟨.head _, start⟩
    · obtain ⟨among, holds⟩ := ih (fun t before b member => kept t before b (.tail _ member))
        (kept s start a (.head _) random) met later
      exact ⟨.tail _ among, holds⟩

end SwarmEvolution.Sampling.Draw
