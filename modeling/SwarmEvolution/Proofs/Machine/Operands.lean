import SwarmEvolution.Proofs.Machine.Completion

/-! No operand is lost. The operands that an instruction declares cover everything that its body
takes off the stacks, so a body stops early only where it does not apply to the operands, and there
it has put back what it took. -/
namespace SwarmEvolution.Machine

open Act

/-- What keeps an instruction from applying although its operands are there. -/
def Blocked (view : SwarmView) (m : Machine) : Instruction → Prop
  | .integer .div | .integer .mod => (m.stack .integer).top? = some 0
  | .float .div | .float .mod => ∃ x, (m.stack .float).top? = some x ∧ x == 0
  | .exec .times | .exec .count => ∃ n, (m.stack .integer).top? = some n ∧ n ≤ 0
  | .exec .s =>
    ∃ a b c rest, (m.stack .exec).items = a :: b :: c :: rest ∧
      m.settings.maxCodePoints < b.points + 2 * c.points + a.points + 1
  | .code .cons | .code .list | .code .append =>
    ∃ b a rest, (m.stack .code).items = b :: a :: rest ∧
      m.settings.maxCodePoints < a.points + b.points + 1
  | .vector .fromFloats => m.size .float < m.dimensions
  | .input .index => m.input.isEmpty
  | .vector .apply | .vector .zip => m.settings.maxNestingDepth ≤ m.nesting
  | .vector .best | .vector .current => view.size = 0
  | _ => False

section Restoring

variable {m : Machine} {k : StackKind}

theorem items_below {a : k.Element} {rest : List k.Element}
    (shape : (m.stack k).items = a :: rest) : ((m.below k).stack k).items = rest := by
  simp [below, Stack.drop, shape]

theorem push_below {a : k.Element} {rest : List k.Element}
    (shape : (m.stack k).items = a :: rest) : (m.below k).push k a = m := by
  have whole : (m.stack k).drop.push a = m.stack k :=
    Stack.ext (by simp [Stack.push, Stack.drop, shape])
  simp only [below, push, setStack, stack, Frame.stack_setStack, Frame.setStack_setStack]
  rw [show (m.frame.stack k).drop.push a = m.frame.stack k from whole, Frame.setStack_stack]

@[simp] theorem settings_below : (m.below k).settings = m.settings := rfl

theorem divideIntegers_blocked {f : Int32 → Int32 → Int32}
    (zero : (m.stack .integer).top? = some 0) : (divideIntegers f).on m = (none, m) := by
  simp [divideIntegers, on_bind, zero]

theorem divideFloats_blocked {f : Float32 → Float32 → Float32} {x : Float32}
    (top : (m.stack .float).top? = some x) (zero : x == 0) :
    (divideFloats f).on m = (none, m) := by
  simp [divideFloats, on_bind, top, zero]

theorem countedLoop_blocked {wrap : Code → Code} {n : Int32}
    (top : (m.stack .integer).top? = some n) (nonpositive : n ≤ 0) :
    (countedLoop wrap).on m = (none, m) := by
  simp [countedLoop, on_bind, top, Int32.not_lt.mpr nonpositive]

theorem inputIndex_blocked (unpublished : m.input.isEmpty) :
    (inputOp .index).on m = (none, m) := by
  simp [inputOp, on_bind, unpublished]

theorem vectorFromFloats_blocked (few : m.size .float < m.dimensions) :
    vectorFromFloats.on m = (none, m) := by
  have short : (m.stack .float).has m.dimensions = false := by
    rw [← Bool.not_eq_true, Stack.has_iff]
    exact Nat.not_le_of_lt few
  simp [vectorFromFloats, on_bind, short]

theorem higherOrder_blocked {runBody : Machine → Code → Machine} {paired : Bool}
    (deepest : m.settings.maxNestingDepth ≤ m.nesting) :
    (higherOrder runBody paired).on m = (none, m) := by
  simp [higherOrder, on_bind, deepest]

theorem swarmPosition_blocked {view : SwarmView} {best : Bool} (nobody : view.size = 0) :
    (swarmPosition view best).on m = (none, m) := by
  simp [swarmPosition, nobody]

/-- The parts go back in the opposite order, so each lies where it was. -/
theorem combineCode_blocked {f : Code → Code → List Code} {a b : Code} {rest : List Code}
    (shape : (m.stack .code).items = b :: a :: rest)
    (large : m.settings.maxCodePoints < a.points + b.points + 1) :
    (combineCode f).on m = (none, m) := by
  have second := items_below shape
  simp only [combineCode, on_bind, on_pop_of_items shape, on_pop_of_items second, on_get,
    settings_below, large, if_true, on_put, on_stop, push_below second, push_below shape]

theorem execS_blocked {a b c : Code} {rest : List Code}
    (shape : (m.stack .exec).items = a :: b :: c :: rest)
    (large : m.settings.maxCodePoints < b.points + 2 * c.points + a.points + 1) :
    (execOp .s).on m = (none, m) := by
  have second := items_below shape
  have third := items_below second
  simp only [execOp, on_bind, on_pop_of_items shape, on_pop_of_items second,
    on_pop_of_items third, on_get, settings_below, large, if_true, on_put, on_stop,
    push_below third, push_below second, push_below shape]

end Restoring

/-- A blocked instruction stops, and leaves the machine as it found it. -/
theorem act_blocked {view : SwarmView} {runBody : Machine → Code → Machine} {m : Machine}
    {i : Instruction} (blocked : m.Blocked view i) : (act view runBody i).on m = (none, m) := by
  unfold Blocked at blocked
  split at blocked
  · exact divideIntegers_blocked blocked
  · exact divideIntegers_blocked blocked
  · obtain ⟨x, top, zero⟩ := blocked
    exact divideFloats_blocked top zero
  · obtain ⟨x, top, zero⟩ := blocked
    exact divideFloats_blocked top zero
  · obtain ⟨n, top, nonpositive⟩ := blocked
    exact countedLoop_blocked top nonpositive
  · obtain ⟨n, top, nonpositive⟩ := blocked
    exact countedLoop_blocked top nonpositive
  · obtain ⟨a, b, c, rest, shape, large⟩ := blocked
    exact execS_blocked shape large
  · obtain ⟨b, a, rest, shape, large⟩ := blocked
    exact combineCode_blocked shape large
  · obtain ⟨b, a, rest, shape, large⟩ := blocked
    exact combineCode_blocked shape large
  · obtain ⟨b, a, rest, shape, large⟩ := blocked
    exact combineCode_blocked shape large
  · exact vectorFromFloats_blocked blocked
  · exact inputIndex_blocked blocked
  · exact higherOrder_blocked blocked
  · exact higherOrder_blocked blocked
  · exact swarmPosition_blocked blocked
  · exact swarmPosition_blocked blocked
  · exact blocked.elim

/-- The stacks hold as many elements as some operands ask for. -/
def Holds (m : Machine) (o : Operands) : Prop := ∀ k, o.on k ≤ m.size k

section Completing

variable {m : Machine}

theorem on_add (o : Operands) (j k : StackKind) (n : Nat) :
    (o.add k n).on j = o.on j + if j = k then n else 0 := by
  cases j <;> cases k <;> rfl

/-- The depth may come from the stack that is rearranged, which then holds one element more. -/
theorem atDepth_completes {k : StackKind} {f : Stack k.Element → Int → Stack k.Element}
    (holds : m.Holds (Operands.add { integer := 1 } k 1)) : (atDepth k f).Completes m := by
  have index := holds .integer
  have own := holds k
  simp only [on_add] at index own
  have positive : 0 < m.size .integer := by
    simp only [Operands.on] at index
    omega
  refine .pop_bind positive fun depth => rearrange_completes _ ?_
  rw [size_below]
  by_cases same : k = .integer
  · subst same
    simp only [Operands.on, if_true] at own ⊢
    omega
  · simp only [same, if_true, if_false] at own ⊢
    omega

theorem stackOp_completes {k : StackKind} {op : StackOp}
    (holds : m.Holds (Instruction.stack k op).operands) : (stackOp k op).Completes m := by
  cases op with
  | yank | yankDup | shove => exact atDepth_completes holds
  | flush => exact rearrange_completes _ (Nat.zero_le _)
  | depth => simp [stackOp]
  | pop =>
    have own := holds k
    simp only [Instruction.operands, on_add, if_true] at own
    exact .bind (pop_completes (by omega)) fun _ _ => completes_pure _
  | dup | swap | rot =>
    have own := holds k
    simp only [Instruction.operands, on_add, if_true] at own
    exact rearrange_completes _ (by omega)
  | equal =>
    have own := holds k
    simp only [Instruction.operands, on_add, if_true] at own
    exact binary_completes _ (by omega)

theorem integerOp_completes {view : SwarmView} {op : IntegerOp}
    (holds : m.Holds (Instruction.integer op).operands) (free : ¬ m.Blocked view (.integer op)) :
    (integerOp op).Completes m := by
  have integers := holds .integer
  have floats := holds .float
  have booleans := holds .boolean
  cases op with
  | random => simp [integerOp]
  | abs | neg => exact unary_completes _ integers
  | fromFloat => exact unary_completes _ floats
  | fromBoolean => exact unary_completes _ booleans
  | div | mod =>
    have nonzero : (m.stack .integer).top? ≠ some 0 := free
    simp only [integerOp, divideIntegers, completes_get_bind, nonzero, if_false]
    exact binary_completes _ integers
  | _ => exact binary_completes _ integers

theorem floatOp_completes {view : SwarmView} {op : FloatOp}
    (holds : m.Holds (Instruction.float op).operands) (free : ¬ m.Blocked view (.float op)) :
    (floatOp op).Completes m := by
  have integers := holds .integer
  have floats := holds .float
  have booleans := holds .boolean
  cases op with
  | random => simp [floatOp]
  | abs | neg | sin | cos | tan | exp | ln => exact unary_completes _ floats
  | fromInteger => exact unary_completes _ integers
  | fromBoolean => exact unary_completes _ booleans
  | div | mod =>
    have nonzero : (m.stack .float).top?.any (· == 0) = false := by
      cases top : (m.stack .float).top? with
      | none => rfl
      | some x => exact Bool.eq_false_iff.mpr fun zero => free ⟨x, top, zero⟩
    simp only [floatOp, divideFloats, completes_get_bind, nonzero, Bool.false_eq_true, if_false]
    exact binary_completes _ floats
  | _ => exact binary_completes _ floats

theorem booleanOp_completes {op : BooleanOp} (holds : m.Holds (Instruction.boolean op).operands) :
    (booleanOp op).Completes m := by
  have integers := holds .integer
  have floats := holds .float
  have booleans := holds .boolean
  cases op with
  | random => simp [booleanOp]
  | not => exact unary_completes _ booleans
  | fromInteger => exact unary_completes _ integers
  | fromFloat => exact unary_completes _ floats
  | and | or | xor => exact binary_completes _ booleans

theorem countedLoop_completes {wrap : Code → Code} {n : Int32}
    (top : (m.stack .integer).top? = some n) (positive : 0 < n)
    (body : 1 ≤ m.size .exec) : (countedLoop wrap).Completes m := by
  have integers : 0 < m.size .integer := by
    obtain ⟨rest, shape⟩ := List.head?_eq_some_iff.mp top
    simp [size, Stack.size, shape]
  simp only [countedLoop, completes_get_bind, top, Option.any_some, positive, decide_true, if_true]
  exact .pop_bind integers fun _ => .pop_bind (by simp [size_below]; omega) fun _ => completes_put _

theorem execS_completes {view : SwarmView} (three : 3 ≤ m.size .exec)
    (free : ¬ m.Blocked view (.exec .s)) : (execOp .s).Completes m := by
  obtain ⟨a, _, first⟩ := items_of_size_pos (m := m) (k := .exec) (by omega)
  obtain ⟨b, _, second⟩ := items_of_size_pos (m := m.below .exec) (k := .exec)
    (by simp [size_below]; omega)
  obtain ⟨c, rest, third⟩ := items_of_size_pos (m := (m.below .exec).below .exec) (k := .exec)
    (by simp [size_below]; omega)
  have shape : (m.stack .exec).items = a :: b :: c :: rest := by
    rw [first, ← items_below first, second, ← items_below second, third]
  have fits : ¬ m.settings.maxCodePoints < b.points + 2 * c.points + a.points + 1 :=
    fun large => free ⟨a, b, c, rest, shape, large⟩
  simp only [Completes, execOp, on_bind, on_pop_of_items first, on_pop_of_items second,
    on_pop_of_items third, on_get, settings_below, fits, if_false, on_put, Option.isSome_some]

theorem combineCode_completes {f : Code → Code → List Code} (two : 2 ≤ m.size .code)
    (free : ∀ b a rest, (m.stack .code).items = b :: a :: rest →
      ¬ m.settings.maxCodePoints < a.points + b.points + 1) : (combineCode f).Completes m := by
  obtain ⟨b, _, first⟩ := items_of_size_pos (m := m) (k := .code) (by omega)
  obtain ⟨a, rest, second⟩ := items_of_size_pos (m := m.below .code) (k := .code)
    (by simp [size_below]; omega)
  have fits := free b a rest (by rw [first, ← items_below first, second])
  simp only [Completes, combineCode, on_bind, on_pop_of_items first, on_pop_of_items second,
    on_get, settings_below, fits, if_false, on_put, Option.isSome_some]

theorem execOp_completes {view : SwarmView} {op : ExecOp}
    (holds : m.Holds (Instruction.exec op).operands) (free : ¬ m.Blocked view (.exec op)) :
    (execOp op).Completes m := by
  have integers := holds .integer
  have booleans := holds .boolean
  have bodies := holds .exec
  cases op with
  | noop => exact completes_pure _
  | k => exact binary_completes _ bodies
  | y => exact .pop_bind bodies fun _ => by simp only [completes_put_bind, completes_put]
  | s => exact execS_completes bodies free
  | choose =>
    simp only [Instruction.operands, Operands.on] at booleans bodies
    refine .pop_bind booleans fun _ => .pop_bind ?_ fun _ => .pop_bind ?_ fun _ => completes_put _
    all_goals simp [size_below]; omega
  | range =>
    simp only [Instruction.operands, Operands.on] at integers bodies
    refine .pop_bind (by omega) fun last => .pop_bind ?_ fun index => .pop_bind ?_ fun body => ?_
    · simp [size_below]; omega
    · simp [size_below]; omega
    · split <;> simp only [completes_put_bind, completes_put]
  | count | times =>
    obtain ⟨n, rest, shape⟩ := items_of_size_pos integers
    have top : (m.stack .integer).top? = some n := by simp [Stack.top?, shape]
    have positive : 0 < n := Int32.not_le.mp fun nonpositive => free ⟨n, top, nonpositive⟩
    exact countedLoop_completes top positive bodies

theorem codeOp_completes {view : SwarmView} {op : CodeOp}
    (holds : m.Holds (Instruction.code op).operands) (free : ¬ m.Blocked view (.code op)) :
    (codeOp op).Completes m := by
  have pieces := holds .code
  have bodies := holds .exec
  have integers := holds .integer
  have floats := holds .float
  have booleans := holds .boolean
  cases op with
  | quote => exact unary_completes _ bodies
  | run => exact .peek_bind pieces fun _ _ => by simp only [completes_put_bind, completes_put]
  | fromInteger => exact unary_completes _ integers
  | fromFloat => exact unary_completes _ floats
  | fromBoolean => exact unary_completes _ booleans
  | cons | list | append =>
    exact combineCode_completes pieces fun b a rest shape large => free ⟨b, a, rest, shape, large⟩
  | choose =>
    simp only [Instruction.operands, Operands.on] at booleans pieces
    refine .pop_bind booleans fun _ => .pop_bind ?_ fun _ => .pop_bind ?_ fun _ => completes_put _
    all_goals simp [size_below]; omega
  | _ => exact unary_completes _ pieces

/-- The position is moved into the range of the stack, so there is a value at it. -/
theorem get?_of_not_isEmpty {α : Type} {s : Stack α} (position : Nat)
    (occupied : s.isEmpty = false) : ∃ a, s.get? (min position (s.size - 1)) = some a := by
  have positive : 0 < s.items.length := by
    simpa [Stack.isEmpty, List.length_pos_iff] using occupied
  have inside : min position (s.size - 1) < s.toList.length := by
    simp only [Stack.toList, Stack.size, List.length_reverse]
    omega
  exact ⟨_, List.getElem?_eq_getElem inside⟩

theorem inputOp_completes {view : SwarmView} {op : InputOp}
    (holds : m.Holds (Instruction.input op).operands) (free : ¬ m.Blocked view (.input op)) :
    (inputOp op).Completes m := by
  cases op with
  | everything => exact completes_modify _
  | depth => simp [inputOp]
  | index =>
    have published : m.input.isEmpty = false := Bool.eq_false_iff.mpr free
    simp only [inputOp, completes_get_bind, published, Bool.false_eq_true, if_false]
    refine .pop_bind (holds .integer) fun n => ?_
    obtain ⟨value, found⟩ := get?_of_not_isEmpty n.toInt.toNat published
    simp only [found, completes_modify]

theorem wrapIndex_lt {p : Point} (index : Int32) (nonempty : p ≠ []) :
    wrapIndex index p < p.length := by
  have positive : 0 < p.length := List.length_pos_iff.mpr nonempty
  have low := Int.emod_nonneg index.toInt (b := p.length) (by omega)
  have high := Int.emod_lt_of_pos index.toInt (b := p.length) (by omega)
  have same : index.toInt.emod p.length = index.toInt % p.length := rfl
  simp only [wrapIndex, same]
  omega

theorem getComponent_completes (vectors : ∀ p ∈ (m.stack .vector).items, p ≠ [])
    (index : 1 ≤ m.size .integer) (one : 1 ≤ m.size .vector) : getComponent.Completes m := by
  refine .pop_bind index fun n => .peek_bind (by simp [size_below]; omega) fun p member => ?_
  have nonempty : p ≠ [] := by
    apply vectors p
    simpa [below, stack, setStack, Frame.stack_setStack_of_ne] using member
  simp [List.getElem?_eq_getElem (wrapIndex_lt n nonempty)]

theorem vectorFromFloats_completes (enough : m.dimensions ≤ m.size .float) :
    vectorFromFloats.Completes m := by
  have all : (m.stack .float).has m.dimensions := Stack.has_iff.mpr enough
  simp only [vectorFromFloats, completes_get_bind, all, if_true]
  exact .bind (popMany_completes enough) fun _ _ => completes_put _

theorem randomVector_completes (f : Float32 → Float32) : (randomVector f).Completes m := by
  simp only [randomVector, completes_get_bind, completes_sample_bind, completes_pure]

theorem higherOrder_completes {runBody : Machine → Code → Machine} {paired : Bool}
    (shallow : ¬ m.settings.maxNestingDepth ≤ m.nesting)
    (vectors : (if paired then 2 else 1) ≤ m.size .vector) (body : 1 ≤ m.size .exec) :
    (higherOrder runBody paired).Completes m := by
  simp only [higherOrder, completes_get_bind, shallow, if_false]
  cases paired with
  | true =>
    simp only [if_true] at vectors ⊢
    refine .pop_bind (by omega) fun _ => .pop_bind ?_ fun _ => .pop_bind ?_ fun _ =>
      completes_modify _
    all_goals simp [size_below]; omega
  | false =>
    simp only [Bool.false_eq_true, if_false, pure_bind] at vectors ⊢
    refine .pop_bind (by omega) fun _ => .pop_bind ?_ fun _ => completes_modify _
    simp [size_below]; omega

theorem swarmPosition_completes {view : SwarmView} {best : Bool} (somebody : view.size ≠ 0)
    (covered : ∀ member < view.size, ∀ best, (view.position? member best).isSome) :
    (swarmPosition view best).Completes m := by
  simp only [swarmPosition, somebody, if_false]
  refine .bind popOrNone_completes fun index n => ?_
  have found (member : Nat) : ∃ p, view.position? (member % view.size) best = some p :=
    Option.isSome_iff_exists.mp
      (covered _ (Nat.mod_lt _ (Nat.pos_of_ne_zero somebody)) best)
  rw [completes_get_bind]
  obtain ⟨p, point⟩ := found (if 0 ≤ (index.map Int32.toInt).getD (-1)
    then ((index.map Int32.toInt).getD (-1)).toNat else n.current)
  simp only [point, completes_put]

theorem vectorOp_completes {view : SwarmView} {runBody : Machine → Code → Machine} {op : VectorOp}
    (vectors : ∀ p ∈ (m.stack .vector).items, p ≠ [])
    (covered : ∀ member < view.size, ∀ best, (view.position? member best).isSome)
    (holds : m.Holds (Instruction.vector op).operands) (free : ¬ m.Blocked view (.vector op)) :
    (vectorOp view runBody op).Completes m := by
  have points := holds .vector
  have floats := holds .float
  have integers := holds .integer
  have bodies := holds .exec
  cases op with
  | get => exact getComponent_completes vectors integers points
  | fromFloats => exact vectorFromFloats_completes (Nat.le_of_not_lt free)
  | toFloats => exact .pop_bind points fun _ => completes_modify _
  | random | randomInLimits | randomUnit =>
    simp only [vectorOp, randomBetween, completes_get_bind]
    exact .bind (randomVector_completes _) fun _ _ => completes_put _
  | randomInWidth =>
    exact .pop_bind floats fun _ => .bind (randomVector_completes _) fun _ _ => completes_put _
  | add | sub | mul | div | dot => exact binary_completes _ points
  | magnitude => exact unary_completes _ points
  | addScalar | subScalar | mulScalar | divScalar =>
    simp only [Instruction.operands, Operands.on] at floats
    exact .pop_bind points fun _ => .pop_bind (by simp [size_below]; omega) fun _ => completes_put _
  | zip | apply => exact higherOrder_completes free points bodies
  | best | current => exact swarmPosition_completes free covered
  | set =>
    simp only [Instruction.operands, Operands.on] at integers floats
    refine .pop_bind points fun _ => .pop_bind ?_ fun _ => .pop_bind ?_ fun _ => completes_put _
    all_goals simp [size_below]; omega
  | addToComponent | scaleComponent =>
    simp only [Instruction.operands, Operands.on] at integers floats
    refine .peek_bind points fun _ _ => .pop_bind (by omega) fun _ => .pop_bind ?_ fun _ =>
      completes_put _
    simp [size_below]; omega
  | between =>
    simp only [Instruction.operands, Operands.on] at points floats
    refine .pop_bind (by omega) fun _ => .pop_bind ?_ fun _ => .pop_bind ?_ fun _ => completes_put _
    all_goals simp [size_below]; omega

end Completing

/-- The bodies run to their end whenever the operands are there and nothing blocks them. -/
theorem act_completes {view : SwarmView} {runBody : Machine → Code → Machine} {m : Machine}
    {i : Instruction} (vectors : ∀ p ∈ (m.stack .vector).items, p ≠ [])
    (covered : ∀ member < view.size, ∀ best, (view.position? member best).isSome)
    (holds : m.Holds i.operands) (free : ¬ m.Blocked view i) :
    (act view runBody i).Completes m := by
  cases i with
  | stack k op => exact stackOp_completes holds
  | integer op => exact integerOp_completes holds free
  | float op => exact floatOp_completes holds free
  | boolean op => exact booleanOp_completes holds
  | exec op => exact execOp_completes holds free
  | code op => exact codeOp_completes holds free
  | input op => exact inputOp_completes holds free
  | vector op => exact vectorOp_completes vectors covered holds free

/-- No instruction loses an operand. It changes nothing while its operands are missing or something
blocks it, and otherwise it takes all of them and runs to its end. -/
theorem perform_loses_nothing (view : SwarmView) (m : Machine) (i : Instruction)
    (vectors : ∀ p ∈ m.frame.vectors.items, p ≠ [])
    (covered : ∀ member < view.size, ∀ best, (view.position? member best).isSome) :
    (¬ m.frame.satisfies i.operands → m.perform view i = m) ∧
    (m.frame.satisfies i.operands → m.Blocked view i → m.perform view i = m) ∧
    (m.frame.satisfies i.operands → ¬ m.Blocked view i →
      (act view (runBody view m.levels) i).on m = (some (), m.perform view i)) := by
  refine ⟨fun missing => ?_, fun present blocked => ?_, fun present free => ?_⟩
  · simp [perform, performWith, missing]
  · simp [perform, performWith, present, act_blocked blocked]
  · have ended : (act view (runBody view m.levels) i).Completes m :=
      act_completes vectors covered (Frame.satisfies_iff.mp present) free
    obtain ⟨_, value⟩ := Option.isSome_iff_exists.mp ended
    simp only [perform, performWith, present, if_true]
    exact Prod.ext value rfl

/-- A machine with a zero on top of another integer, and one vector. -/
def zeroOnTop : Machine :=
  { Machine.ofSeed {} 0 with frame := { integers := ⟨[0, 7]⟩, vectors := ⟨[[1, 2]]⟩ } }

/-- A swarm of one member that has not left its best point. -/
def lookout : SwarmView := ⟨1, fun _ _ => some [1, 2]⟩

/-- A conjunction lacks its operands, a division has a zero on top, and the best point of a member
takes the zero for an index. -/
theorem zeroOnTop_loses_nothing :
    zeroOnTop.perform lookout (.boolean .and) = zeroOnTop ∧
    zeroOnTop.perform lookout (.integer .div) = zeroOnTop ∧
    (act lookout (runBody lookout zeroOnTop.levels) (.vector .best)).on zeroOnTop =
      (some (), zeroOnTop.perform lookout (.vector .best)) := by
  have loses_nothing := fun i => perform_loses_nothing lookout zeroOnTop i (by simp [zeroOnTop])
    (by simp [lookout])
  refine ⟨(loses_nothing _).1 (by decide), (loses_nothing _).2.1 (by decide) rfl,
    (loses_nothing _).2.2 (by decide) ?_⟩
  simp [Blocked, lookout]

end SwarmEvolution.Machine
