import SwarmEvolution.Machine.Run

/-! Which computations on a machine come to their end. Taking off an operand changes the sizes of
the stacks in a way that does not depend on the operand, so a body comes to its end when the sizes
are large enough. -/
namespace SwarmEvolution.Machine

/-- The number of elements on a stack. -/
def size (m : Machine) (k : StackKind) : Nat := (m.stack k).size

/-- The machine without the top of a stack. -/
def below (m : Machine) (k : StackKind) : Machine := m.setStack k (m.stack k).drop

theorem size_below (m : Machine) (j k : StackKind) :
    (m.below k).size j = m.size j - if j = k then 1 else 0 := by
  by_cases same : j = k
  · subst same
    simp [size, below, Stack.drop, Stack.size]
  · simp [size, below, stack_setStack_of_ne _ _ same, same]

theorem pop?_of_items {m : Machine} {k : StackKind} {a : k.Element} {rest : List k.Element}
    (shape : (m.stack k).items = a :: rest) : m.pop? k = some (a, m.below k) := by
  simp [pop?, Stack.pop?, below, Stack.drop, shape]

theorem items_of_size_pos {m : Machine} {k : StackKind} (positive : 0 < m.size k) :
    ∃ a rest, (m.stack k).items = a :: rest := List.exists_cons_of_length_pos positive

theorem performWith_of_satisfies {view : SwarmView} {runBody : Machine → Code → Machine}
    {m : Machine} {i : Instruction} (present : m.frame.satisfies i.operands) :
    performWith view runBody m i = ((act view runBody i).on m).2 := if_pos present

namespace Act

/-- A computation comes to its end instead of stopping early. -/
def Completes (x : Act α) (m : Machine) : Prop := (x.on m).1.isSome

variable {m n : Machine} {j k : StackKind}

theorem completes_bind_of_on {x : Act α} {f : α → Act β} {a : α} (ended : x.on m = (some a, n)) :
    (x >>= f).Completes m ↔ (f a).Completes n := by
  simp [Completes, on_bind, ended]

@[simp] theorem completes_pure (a : α) : (pure a : Act α).Completes m := rfl
@[simp] theorem completes_put (a : k.Element) : (put k a).Completes m := rfl
@[simp] theorem completes_modify (f : Machine → Machine) : (modify f : Act Unit).Completes m := rfl

@[simp] theorem completes_get_bind {f : Machine → Act β} :
    (get >>= f).Completes m ↔ (f m).Completes m := completes_bind_of_on (on_get m)

@[simp] theorem completes_put_bind {a : k.Element} {f : Unit → Act β} :
    (put k a >>= f).Completes m ↔ (f ()).Completes (m.push k a) := completes_bind_of_on (on_put ..)

@[simp] theorem completes_sample_bind {d : Sampling.Draw α} {f : α → Act β} :
    (sample d >>= f).Completes m ↔ (f (m.draw d).1).Completes (m.draw d).2 :=
  completes_bind_of_on (on_sample ..)

theorem Completes.bind {x : Act α} {f : α → Act β} (first : x.Completes m)
    (rest : ∀ a n, (f a).Completes n) : (x >>= f).Completes m := by
  obtain ⟨a, ended⟩ := Option.isSome_iff_exists.mp first
  exact (completes_bind_of_on (n := (x.on m).2) (Prod.ext ended rfl)).mpr (rest a _)

theorem on_pop_of_items {a : k.Element} {rest : List k.Element}
    (shape : (m.stack k).items = a :: rest) : (pop k).on m = (some a, m.below k) := by
  rw [on_pop, pop?_of_items shape]

theorem on_peek_of_items {a : k.Element} {rest : List k.Element}
    (shape : (m.stack k).items = a :: rest) : (peek k).on m = (some a, m) := by
  simp [peek, on_bind, Stack.top?, shape]

theorem Completes.pop_bind {f : k.Element → Act β} (positive : 0 < m.size k)
    (rest : ∀ a, (f a).Completes (m.below k)) : (pop k >>= f).Completes m := by
  obtain ⟨a, _, shape⟩ := items_of_size_pos positive
  exact (completes_bind_of_on (on_pop_of_items shape)).mpr (rest a)

theorem Completes.peek_bind {f : k.Element → Act β} (positive : 0 < m.size k)
    (rest : ∀ a ∈ (m.stack k).items, (f a).Completes m) : (peek k >>= f).Completes m := by
  obtain ⟨a, _, shape⟩ := items_of_size_pos positive
  exact (completes_bind_of_on (on_peek_of_items shape)).mpr (rest a (by simp [shape]))

theorem pop_completes (positive : 0 < m.size k) : (pop k).Completes m := by
  obtain ⟨a, _, shape⟩ := items_of_size_pos positive
  simp [Completes, on_pop_of_items shape]

theorem popOrNone_completes : (popOrNone k).Completes m := by
  rw [popOrNone, completes_get_bind]
  cases m.pop? k <;> rfl

theorem popMany_completes {count : Nat} (enough : count ≤ m.size k) :
    (popMany k count).Completes m := by
  induction count generalizing m with
  | zero => simp [popMany]
  | succ count ih =>
    refine .pop_bind (by omega) fun a => .bind (ih ?_) fun rest n => completes_pure _
    simp only [size_below, if_true]
    omega

theorem unary_completes (f : j.Element → k.Element) (enough : 1 ≤ m.size j) :
    (unary j k f).Completes m := .pop_bind enough fun _ => completes_put _

theorem binary_completes (f : j.Element → j.Element → k.Element) (enough : 2 ≤ m.size j) :
    (binary j k f).Completes m := by
  refine .pop_bind (by omega) fun _ => .pop_bind ?_ fun _ => completes_put _
  simp only [size_below, if_true]
  omega

theorem rearrange_completes {least : Nat} (f : Stack k.Element → Stack k.Element)
    (enough : least ≤ m.size k) : (rearrange k least f).Completes m := by
  simp [rearrange, Stack.has_iff.mpr (show least ≤ (m.stack k).size from enough)]

end Act
end SwarmEvolution.Machine
