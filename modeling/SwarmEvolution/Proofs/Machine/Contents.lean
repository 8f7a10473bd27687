import SwarmEvolution.Proofs.Machine.Completion
import SwarmEvolution.Proofs.Machine.Rearrangements
import SwarmEvolution.Proofs.Machine.Surroundings
import SwarmEvolution.Proofs.Sampling.Outcomes

/-! What lies on the stacks. A law asks something of the numbers, of the lengths of vectors and of
the code that a machine holds. Where it has room for all that instructions can make of lawful
operands, every step keeps it, and so does every run and every body. -/
namespace SwarmEvolution

open Number Sampling

namespace Stack

variable {α : Type} (s : Stack α)

theorem yankDup_subset (depth : Int) : (s.yankDup depth).items ⊆ s.items := by
  unfold yankDup
  split
  · exact fun _ member => member
  case _ a found =>
    exact List.cons_subset.mpr ⟨List.mem_of_getElem? found, fun _ member => member⟩

theorem dup_subset : s.dup.items ⊆ s.items := by
  rw [dup_eq_yankDup]
  exact s.yankDup_subset 0

theorem mem_pushAll {as : List α} {a : α} (member : a ∈ (s.pushAll as).items) :
    a ∈ s.items ∨ a ∈ as := by
  rw [items_pushAll, List.mem_append, List.mem_reverse] at member
  exact member.symm

end Stack

theorem Code.mem_atomsOfAll {a : Atom} {cs : List Code} :
    a ∈ atomsOfAll cs ↔ ∃ c ∈ cs, a ∈ c.atoms := by
  induction cs with
  | nil => simp [atomsOfAll]
  | cons c cs ih => simp [atomsOfAll, ih]

namespace Machine

/-- What is asked of the contents of machines with certain settings. -/
structure Law where
  settings : Settings.Machine
  number : Float32 → Prop := fun _ => True
  length : Nat → Prop := fun _ => True
  code : Code → Prop := fun _ => True

namespace Law

variable (law : Law)

def point (p : Point) : Prop := law.length p.length ∧ ∀ x ∈ p, law.number x

/-- What is asked of the elements of a stack. -/
def on : (k : StackKind) → k.Element → Prop
  | .integer, _ | .boolean, _ => True
  | .float, x => law.number x
  | .vector, p => law.point p
  | .code, c | .exec, c => law.code c

def published : Published → Prop
  | .integer _ | .boolean _ => True
  | .float x => law.number x
  | .vector p => law.point p

/-- The law has room for whatever instructions make of lawful operands. Lists of code may be limited
to what the settings allow to be put together. -/
structure Closed (view : SwarmView) : Prop where
  zero : law.number 0
  one : law.number 1
  clamped : ∀ x {fallback}, law.number fallback → law.number (clampOr x fallback)
  whole : ∀ n, law.number (ofInt32 n)
  dimensions : law.length law.settings.vectorDimensions
  shorter : ∀ {m n}, law.length m → law.length n → law.length (min m n)
  seen : ∀ member best p, view.position? member best = some p → law.point p
  atom : ∀ a, (∀ x, a = .float x → law.number x) → law.code (.atom a)
  literal : ∀ {x}, law.code (.atom (.float x)) → law.number x
  item : ∀ {cs c}, law.code (.list cs) → c ∈ cs → law.code c
  empty : law.code (.list [])
  tail : ∀ {cs}, law.code (.list cs) → law.code (.list cs.tail)
  combined : ∀ {cs}, (∀ c ∈ cs, law.code c) →
    (Code.list cs).points ≤ law.settings.maxCodePoints → law.code (.list cs)

/-- The law has room for any list of lawful code, however long. -/
def Unlimited : Prop := ∀ cs, (∀ c ∈ cs, law.code c) → law.code (.list cs)

/-- The law that asks of code only that its literals are lawful numbers. -/
def ofValues (settings : Settings.Machine) (number : Float32 → Prop) (length : Nat → Prop) :
    Law where
  settings := settings
  number := number
  length := length
  code c := ∀ x, .float x ∈ c.atoms → number x

variable {settings : Settings.Machine} {number : Float32 → Prop} {length : Nat → Prop}
  {view : SwarmView}

theorem ofValues_unlimited : (ofValues settings number length).Unlimited := by
  intro cs lawful x member
  obtain ⟨c, inside, found⟩ := Code.mem_atomsOfAll.mp member
  exact lawful c inside x found

theorem ofValues_closed (zero : number 0) (one : number 1)
    (clamped : ∀ x {fallback}, number fallback → number (clampOr x fallback))
    (whole : ∀ n, number (ofInt32 n)) (dimensions : length settings.vectorDimensions)
    (shorter : ∀ {m n}, length m → length n → length (min m n))
    (seen : ∀ member best p, view.position? member best = some p →
      length p.length ∧ ∀ x ∈ p, number x) :
    (ofValues settings number length).Closed view where
  zero := zero
  one := one
  clamped := clamped
  whole := whole
  dimensions := dimensions
  shorter := shorter
  seen := seen
  atom a literal x member := literal x (List.mem_singleton.mp member).symm
  literal lawful := lawful _ (List.mem_singleton_self _)
  item lawful member x found := lawful x (Code.mem_atomsOfAll.mpr ⟨_, member, found⟩)
  empty _ member := absurd member List.not_mem_nil
  tail lawful x member := by
    obtain ⟨c, inside, found⟩ := Code.mem_atomsOfAll.mp member
    exact lawful x (Code.mem_atomsOfAll.mpr ⟨c, List.mem_of_mem_tail inside, found⟩)
  combined lawful _ := ofValues_unlimited _ lawful

end Law

/-- A machine with the settings of a law and nothing unlawful on its stacks. -/
structure Obeys (law : Law) (m : Machine) : Prop where
  settings : m.settings = law.settings
  stack : ∀ k, ∀ a ∈ (m.stack k).items, law.on k a
  input : ∀ v ∈ m.input.items, law.published v

variable {law : Law} {view : SwarmView} {m n : Machine} {k : StackKind}

namespace Obeys

theorem setStack (obeys : m.Obeys law) {s : Stack k.Element} (lawful : ∀ a ∈ s.items, law.on k a) :
    (m.setStack k s).Obeys law where
  settings := obeys.settings
  stack j a member := by
    by_cases same : j = k
    · subst same
      rw [stack_setStack] at member
      exact lawful a member
    · rw [stack_setStack_of_ne _ _ same] at member
      exact obeys.stack j a member
  input := obeys.input

theorem push (obeys : m.Obeys law) {a : k.Element} (lawful : law.on k a) :
    (m.push k a).Obeys law :=
  obeys.setStack (List.forall_mem_cons.mpr ⟨lawful, obeys.stack k⟩)

theorem pop? (obeys : m.Obeys law) {a : k.Element} (popped : m.pop? k = some (a, n)) :
    law.on k a ∧ n.Obeys law := by
  obtain ⟨⟨b, rest⟩, shape, same⟩ := Option.map_eq_some_iff.mp popped
  obtain ⟨rfl, rfl⟩ := Prod.mk.inj same
  have items : (m.stack k).items = b :: rest.items := by
    unfold Stack.pop? at shape
    split at shape
    · contradiction
    · obtain ⟨rfl, rfl⟩ := Prod.mk.inj (Option.some.inj shape)
      assumption
  have lawful := obeys.stack k
  rw [items, List.forall_mem_cons] at lawful
  exact ⟨lawful.1, obeys.setStack lawful.2⟩

theorem top (obeys : m.Obeys law) {a : k.Element} {rest : List k.Element}
    (shape : (m.stack k).items = a :: rest) : law.on k a :=
  (obeys.pop? (pop?_of_items shape)).1

theorem below (obeys : m.Obeys law) : (m.below k).Obeys law :=
  obeys.setStack fun a member => obeys.stack k a (List.mem_of_mem_tail member)

theorem pushPublished (obeys : m.Obeys law) {v : Published} (lawful : law.published v) :
    (m.pushPublished v).Obeys law := by
  cases v with
  | integer n => exact obeys.push (k := .integer) trivial
  | float x => exact obeys.push (k := .float) lawful
  | boolean b => exact obeys.push (k := .boolean) trivial
  | vector p => exact obeys.push (k := .vector) lawful

theorem withoutCode (obeys : m.Obeys law) : m.withoutCode.Obeys law where
  settings := obeys.settings
  stack k := by
    cases k with
    | code | exec => exact fun _ member => absurd member List.not_mem_nil
    | integer | float | boolean | vector => exact obeys.stack _
  input := obeys.input

end Obeys

namespace Act

/-- A computation leaves an obedient machine obedient, and its value, if there is one, is as
said. -/
def Keeps (law : Law) (x : Act α) (Q : α → Prop) : Prop :=
  ∀ m, m.Obeys law → (x.on m).2.Obeys law ∧ ∀ a, (x.on m).1 = some a → Q a

variable {j : StackKind} {Q : α → Prop}

theorem keeps_pure {a : α} (holds : Q a) : (pure a : Act α).Keeps law Q := by
  intro m obeys
  refine ⟨obeys, ?_⟩
  rintro _ ⟨rfl⟩
  exact holds

theorem keeps_stop : (stop : Act α).Keeps law Q := fun _ obeys => ⟨obeys, by simp⟩

theorem Keeps.bind {x : Act α} {f : α → Act β} {R : β → Prop} (first : x.Keeps law Q)
    (rest : ∀ a, Q a → (f a).Keeps law R) : (x >>= f).Keeps law R := by
  intro m obeys
  obtain ⟨after, value⟩ := first m obeys
  rw [on_bind]
  rcases ended : x.on m with ⟨_ | a, n⟩
  · rw [ended] at after
    exact ⟨after, by simp⟩
  · rw [ended] at after value
    exact rest a (value a rfl) n after

theorem keeps_modify {f : Machine → Machine} {R : Unit → Prop}
    (kept : ∀ m, m.Obeys law → (f m).Obeys law) (holds : R ()) :
    (modify f : Act Unit).Keeps law R :=
  fun m obeys => ⟨kept m obeys, fun _ _ => holds⟩

theorem keeps_get : (get : Act Machine).Keeps law (·.Obeys law) := by
  intro m obeys
  refine ⟨obeys, ?_⟩
  rintro _ ⟨rfl⟩
  exact obeys

theorem keeps_put {a : k.Element} (lawful : law.on k a) : (put k a).Keeps law fun _ => True :=
  keeps_modify (fun _ obeys => obeys.push lawful) trivial

theorem keeps_sample {d : Draw α} (always : d.Always Q) : (sample d).Keeps law Q := by
  intro m obeys
  refine ⟨⟨obeys.settings, obeys.stack, obeys.input⟩, ?_⟩
  rintro _ ⟨rfl⟩
  exact always m.random

theorem keeps_pop : (pop k).Keeps law (law.on k) := by
  intro m obeys
  rw [on_pop]
  cases popped : m.pop? k with
  | none => exact ⟨obeys, by simp⟩
  | some p =>
    obtain ⟨lawful, after⟩ := obeys.pop? popped
    refine ⟨after, ?_⟩
    rintro _ ⟨rfl⟩
    exact lawful

theorem keeps_popOrNone : (popOrNone k).Keeps law fun _ => True := by
  intro m obeys
  refine ⟨?_, fun _ _ => trivial⟩
  rw [popOrNone, on_bind, on_get]
  cases popped : m.pop? k with
  | none => simpa [popped] using obeys
  | some p =>
    simp only [popped]
    exact (obeys.pop? popped).2

theorem keeps_peek : (peek k).Keeps law (law.on k) := by
  refine keeps_get.bind fun m obeys => ?_
  split
  case _ a top => exact keeps_pure (obeys.stack k a (List.mem_of_head? top))
  case _ => exact keeps_stop

theorem keeps_popMany (count : Nat) :
    (popMany k count).Keeps law fun as => as.length = count ∧ ∀ a ∈ as, law.on k a := by
  induction count with
  | zero => exact keeps_pure ⟨rfl, by simp⟩
  | succ count ih =>
    refine keeps_pop.bind fun a lawful => ih.bind fun as others => keeps_pure ⟨?_, ?_⟩
    · rw [List.length_cons, others.1]
    · exact List.forall_mem_cons.mpr ⟨lawful, others.2⟩

theorem keeps_unary {f : j.Element → k.Element} (lawful : ∀ a, law.on j a → law.on k (f a)) :
    (unary j k f).Keeps law fun _ => True :=
  keeps_pop.bind fun a before => keeps_put (lawful a before)

theorem keeps_binary {f : j.Element → j.Element → k.Element}
    (lawful : ∀ a b, law.on j a → law.on j b → law.on k (f a b)) :
    (binary j k f).Keeps law fun _ => True :=
  keeps_pop.bind fun b right => keeps_pop.bind fun a left => keeps_put (lawful a b left right)

theorem keeps_rearrange {least : Nat} {f : Stack k.Element → Stack k.Element}
    (subset : ∀ s, (f s).items ⊆ s.items) : (rearrange k least f).Keeps law fun _ => True := by
  refine keeps_get.bind fun m obeys => ?_
  dsimp only
  split
  · -- The stack that is written back is the one that was read, so the machine need not be known.
    exact fun n other => ⟨other.setStack fun a member => obeys.stack k a (subset _ member),
      fun _ _ => trivial⟩
  · exact keeps_stop

end Act
end Machine
end SwarmEvolution
