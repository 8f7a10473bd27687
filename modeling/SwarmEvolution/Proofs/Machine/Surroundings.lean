import SwarmEvolution.Machine.Run

/-! What running code leaves as it was. Instructions work on the stacks and draw from the stream;
the settings, the published values, the limits, the nesting and the current member stay the same in
every run, however deep its bodies nest and wherever it is cut off. -/
namespace SwarmEvolution.Machine

/-- All of a machine but its stacks and its stream. -/
structure Surroundings where
  settings : Settings.Machine
  input : Stack Published
  limits : Float32 × Float32
  nesting : Nat
  current : Nat

def surroundings (m : Machine) : Surroundings where
  settings := m.settings
  input := m.input
  limits := m.limits
  nesting := m.nesting
  current := m.current

@[simp] theorem surroundings_push (m : Machine) (k : StackKind) (a : k.Element) :
    (m.push k a).surroundings = m.surroundings := rfl

@[simp] theorem surroundings_pushPublished (m : Machine) (v : Published) :
    (m.pushPublished v).surroundings = m.surroundings := by cases v <;> rfl

theorem surroundings_pop? {m n : Machine} {k : StackKind} {a : k.Element}
    (popped : m.pop? k = some (a, n)) : n.surroundings = m.surroundings := by
  obtain ⟨⟨b, rest⟩, _, same⟩ := Option.map_eq_some_iff.mp popped
  obtain ⟨rfl, rfl⟩ := Prod.mk.inj same
  rfl

namespace Act

/-- A computation leaves the surroundings as they are, whether it comes to its end or stops. -/
def Steady (x : Act α) : Prop := ∀ m, (x.on m).2.surroundings = m.surroundings

variable {j k : StackKind}

theorem Steady.bind {x : Act α} {f : α → Act β} (first : x.Steady) (rest : ∀ a, (f a).Steady) :
    (x >>= f).Steady := by
  intro m
  have before := first m
  rw [on_bind]
  rcases ended : x.on m with ⟨_ | a, n⟩
  · simpa [ended] using before
  · exact (rest a n).trans (by simpa [ended] using before)

@[simp] theorem steady_pure (a : α) : (pure a : Act α).Steady := fun _ => rfl
@[simp] theorem steady_stop : (stop : Act α).Steady := fun _ => rfl
@[simp] theorem steady_get : (get : Act Machine).Steady := fun _ => rfl
@[simp] theorem steady_put (a : k.Element) : (put k a).Steady := fun _ => rfl
@[simp] theorem steady_sample (d : Sampling.Draw α) : (sample d).Steady := fun _ => rfl

theorem steady_modify {f : Machine → Machine} (same : ∀ m, (f m).surroundings = m.surroundings) :
    (modify f : Act Unit).Steady := same

theorem steady_setStack (f : Machine → Stack k.Element) :
    (modify fun m => m.setStack k (f m) : Act Unit).Steady := fun _ => rfl

@[simp] theorem steady_pop : (pop k).Steady := by
  intro m
  rw [on_pop]
  cases popped : m.pop? k with
  | none => rfl
  | some p => exact surroundings_pop? popped

@[simp] theorem steady_popOrNone : (popOrNone k).Steady := by
  intro m
  rw [popOrNone, on_bind, on_get]
  cases popped : m.pop? k with
  | none => simp [popped]
  | some p =>
    simp only [popped]
    exact surroundings_pop? popped

@[simp] theorem steady_peek : (peek k).Steady :=
  .bind steady_get fun m => by split <;> simp

@[simp] theorem steady_popMany (count : Nat) : (popMany k count).Steady := by
  induction count with
  | zero => exact steady_pure _
  | succ count ih => exact .bind steady_pop fun _ => .bind ih fun _ => steady_pure _

@[simp] theorem steady_unary (f : j.Element → k.Element) : (unary j k f).Steady :=
  .bind steady_pop fun _ => steady_put _

@[simp] theorem steady_binary (f : j.Element → j.Element → k.Element) : (binary j k f).Steady :=
  .bind steady_pop fun _ => .bind steady_pop fun _ => steady_put _

@[simp] theorem steady_rearrange (least : Nat) (f : Stack k.Element → Stack k.Element) :
    (rearrange k least f).Steady :=
  .bind steady_get fun m => by
    dsimp only
    split
    · exact steady_setStack _
    · exact steady_stop

end Act

open Act

theorem steady_stackOp (k : StackKind) (op : StackOp) : (stackOp k op).Steady := by
  cases op with
  | yank | yankDup | shove => exact .bind steady_pop fun _ => steady_rearrange _ _
  | depth => exact .bind steady_get fun _ => steady_put _
  | pop => exact .bind steady_pop fun _ => steady_pure _
  | equal => exact steady_binary _
  | _ => exact steady_rearrange _ _

theorem steady_integerOp (op : IntegerOp) : (integerOp op).Steady := by
  cases op with
  | div | mod => exact .bind steady_get fun m => by split <;> simp
  | random => exact .bind steady_get fun _ => .bind (steady_sample _) fun _ => steady_put _
  | abs | neg | fromFloat | fromBoolean => exact steady_unary _
  | _ => exact steady_binary _

theorem steady_floatOp (op : FloatOp) : (floatOp op).Steady := by
  cases op with
  | div | mod => exact .bind steady_get fun m => by split <;> simp [binaryFloat]
  | random => exact .bind steady_get fun _ => .bind (steady_sample _) fun _ => steady_put _
  | abs | neg | sin | cos | tan | exp | ln | fromInteger | fromBoolean => exact steady_unary _
  | _ => exact steady_binary _

theorem steady_booleanOp (op : BooleanOp) : (booleanOp op).Steady := by
  cases op with
  | random => exact .bind (steady_sample _) fun _ => steady_put _
  | not | fromInteger | fromFloat => exact steady_unary _
  | _ => exact steady_binary _

theorem steady_countedLoop (wrap : Code → Code) : (countedLoop wrap).Steady :=
  .bind steady_get fun m => by
    split
    · exact .bind steady_pop fun _ => .bind steady_pop fun _ => steady_put _
    · exact steady_stop

theorem steady_execOp (op : ExecOp) : (execOp op).Steady := by
  cases op with
  | noop => exact steady_pure _
  | k => exact steady_binary _
  | count | times => exact steady_countedLoop _
  | y => exact .bind steady_pop fun _ => .bind (steady_put _) fun _ => steady_put _
  | choose =>
    exact .bind steady_pop fun _ => .bind steady_pop fun _ => .bind steady_pop fun _ => steady_put _
  | s =>
    refine .bind steady_pop fun _ => .bind steady_pop fun _ => .bind steady_pop fun _ =>
      .bind steady_get fun _ => ?_
    split
    · exact .bind (steady_put _) fun _ => .bind (steady_put _) fun _ =>
        .bind (steady_put _) fun _ => steady_stop
    · exact .bind (steady_put _) fun _ => .bind (steady_put _) fun _ => steady_put _
  | range =>
    refine .bind steady_pop fun last => .bind steady_pop fun index =>
      .bind steady_pop fun body => ?_
    dsimp only
    split
    · exact .bind (steady_put _) fun _ => .bind (steady_put _) fun _ => steady_put _
    · exact .bind (steady_put _) fun _ => steady_put _

theorem steady_combineCode (f : Code → Code → List Code) : (combineCode f).Steady := by
  refine .bind steady_pop fun _ => .bind steady_pop fun _ => .bind steady_get fun _ => ?_
  split
  · exact .bind (steady_put _) fun _ => .bind (steady_put _) fun _ => steady_stop
  · exact steady_put _

theorem steady_codeOp (op : CodeOp) : (codeOp op).Steady := by
  cases op with
  | cons | list | append => exact steady_combineCode _
  | run => exact .bind steady_peek fun _ => .bind (steady_put _) fun _ => steady_put _
  | choose =>
    exact .bind steady_pop fun _ => .bind steady_pop fun _ => .bind steady_pop fun _ => steady_put _
  | _ => exact steady_unary _

theorem surroundings_pushAll (values : List Published) (m : Machine) :
    (values.foldl pushPublished m).surroundings = m.surroundings := by
  induction values generalizing m with
  | nil => rfl
  | cons value rest ih => exact (ih _).trans (surroundings_pushPublished m value)

theorem steady_inputOp (op : InputOp) : (inputOp op).Steady := by
  cases op with
  | everything => exact steady_modify fun m => surroundings_pushAll _ m
  | depth => exact .bind steady_get fun _ => steady_put _
  | index =>
    refine .bind steady_get fun m => ?_
    dsimp only
    split
    · exact steady_stop
    · refine .bind steady_pop fun n => ?_
      split
      · exact steady_modify fun _ => surroundings_pushPublished ..
      · exact steady_stop

theorem steady_randomVector (f : Float32 → Float32) : (randomVector f).Steady :=
  .bind steady_get fun _ => .bind (steady_sample _) fun _ => steady_pure _

theorem steady_swarmPosition (view : SwarmView) (best : Bool) :
    (swarmPosition view best).Steady := by
  unfold swarmPosition
  split
  · exact steady_stop
  · refine .bind steady_popOrNone fun _ => .bind steady_get fun _ => ?_
    dsimp only
    split
    · exact steady_put _
    · exact steady_stop

section Bodies

variable {runBody : Machine → Code → Machine}
  (steady : ∀ m body, (runBody m body).surroundings = m.surroundings)
include steady

theorem surroundings_onComponent (body : Code) (x : Float32) (other : Option Float32)
    (m : Machine) : (onComponent (runBody · body) x other m).2.surroundings = m.surroundings := by
  have ran : (runBody (other.elim (m.pushFloat x) (m.pushFloat x).pushFloat) body).surroundings =
      m.surroundings := by
    rw [steady]
    cases other <;> rfl
  simp only [onComponent]
  cases popped : Machine.pop? _ .float with
  | none => exact ran
  | some p => exact (surroundings_pop? popped).trans ran

theorem surroundings_eachComponent (body : Code) (firsts seconds : Point) (m : Machine) :
    (eachComponent (runBody · body) firsts seconds m).2.surroundings = m.surroundings := by
  induction firsts generalizing seconds m with
  | nil => rfl
  | cons x firsts ih => exact (ih _ _).trans (surroundings_onComponent steady ..)

/-- The nesting goes up for the bodies and comes down again after them. -/
theorem surroundings_mapComponents (firsts seconds : Point) (body : Code) (m : Machine) :
    (mapComponents runBody firsts seconds body m).surroundings = m.surroundings := by
  have inner := surroundings_eachComponent steady body firsts seconds
    { m.withoutCode with nesting := m.nesting + 1 }
  simp only [surroundings, Surroundings.mk.injEq] at inner
  obtain ⟨settings, input, limits, nesting, current⟩ := inner
  simp only [mapComponents, pushVector, surroundings_push]
  simp only [surroundings, settings, input, limits, nesting, current]
  rfl

theorem steady_higherOrder (paired : Bool) : (higherOrder runBody paired).Steady := by
  refine .bind steady_get fun m => ?_
  dsimp only
  split
  · exact steady_stop
  · refine .bind steady_pop fun _ => ?_
    split
    · exact .bind steady_pop fun _ => .bind steady_pop fun _ =>
        steady_modify fun _ => surroundings_mapComponents steady ..
    · exact .bind (steady_pure _) fun _ => .bind steady_pop fun _ =>
        steady_modify fun _ => surroundings_mapComponents steady ..

theorem steady_vectorOp (view : SwarmView) (op : VectorOp) : (vectorOp view runBody op).Steady := by
  cases op with
  | get =>
    refine .bind steady_pop fun _ => .bind steady_peek fun _ => ?_
    split <;> simp
  | set =>
    exact .bind steady_pop fun _ => .bind steady_pop fun _ => .bind steady_pop fun _ => steady_put _
  | fromFloats =>
    refine .bind steady_get fun m => ?_
    split
    · exact .bind (steady_popMany _) fun _ => steady_put _
    · exact steady_stop
  | toFloats => exact .bind steady_pop fun _ => steady_setStack _
  | random | randomInLimits | randomUnit =>
    exact .bind steady_get fun _ => .bind (steady_randomVector _) fun _ => steady_put _
  | randomInWidth =>
    exact .bind steady_pop fun _ => .bind (steady_randomVector _) fun _ => steady_put _
  | add | sub | mul | div | dot => exact steady_binary _
  | magnitude => exact steady_unary _
  | addScalar | subScalar | mulScalar | divScalar =>
    exact .bind steady_pop fun _ => .bind steady_pop fun _ => steady_put _
  | addToComponent | scaleComponent =>
    exact .bind steady_peek fun _ => .bind steady_pop fun _ => .bind steady_pop fun _ =>
      steady_put _
  | between =>
    exact .bind steady_pop fun _ => .bind steady_pop fun _ => .bind steady_pop fun _ => steady_put _
  | zip | apply => exact steady_higherOrder steady _
  | best | current => exact steady_swarmPosition _ _

theorem steady_act (view : SwarmView) (i : Instruction) : (act view runBody i).Steady := by
  cases i with
  | stack k op => exact steady_stackOp k op
  | integer op => exact steady_integerOp op
  | float op => exact steady_floatOp op
  | boolean op => exact steady_booleanOp op
  | exec op => exact steady_execOp op
  | code op => exact steady_codeOp op
  | input op => exact steady_inputOp op
  | vector op => exact steady_vectorOp steady view op

theorem surroundings_performWith (view : SwarmView) (m : Machine) (i : Instruction) :
    (performWith view runBody m i).surroundings = m.surroundings := by
  unfold performWith
  split
  · exact steady_act steady view i m
  · rfl

theorem surroundings_stepWith (view : SwarmView) (m : Machine) (c : Code) :
    (stepWith view runBody m c).surroundings = m.surroundings := by
  cases c with
  | list items => rfl
  | atom a =>
    cases a with
    | instruction i => exact surroundings_performWith steady view m i
    | integer _ | float _ | boolean _ => rfl

theorem surroundings_runWith (view : SwarmView) (limit : Nat) (m : Machine) :
    (runWith view runBody limit m).1.surroundings = m.surroundings := by
  induction limit generalizing m with
  | zero => rfl
  | succ limit ih =>
    rw [runWith]
    cases popped : m.pop? .exec with
    | none => rfl
    | some p =>
      calc (runWith view runBody limit (stepWith view runBody p.2 p.1)).1.surroundings
          = (stepWith view runBody p.2 p.1).surroundings := ih _
        _ = p.2.surroundings := surroundings_stepWith steady view p.2 p.1
        _ = m.surroundings := surroundings_pop? popped

end Bodies

theorem surroundings_runBody (view : SwarmView) (depth : Nat) (m : Machine) (body : Code) :
    (runBody view depth m body).surroundings = m.surroundings := by
  induction depth generalizing m body with
  | zero => rfl
  | succ depth ih =>
    cases body with
    | list items => exact surroundings_runWith ih view _ (m.pushExec _)
    | atom a =>
      cases a with
      | instruction i => exact surroundings_performWith ih view m i
      | integer _ | float _ | boolean _ => rfl

theorem surroundings_run (view : SwarmView) (limit : Nat) (m : Machine) :
    (m.run view limit).1.surroundings = m.surroundings :=
  surroundings_runWith (surroundings_runBody view _) view limit m

theorem surroundings_execute (view : SwarmView) (p : Program) (limit : Nat) (m : Machine) :
    (m.execute view p limit).1.surroundings = m.surroundings :=
  surroundings_run view limit (m.pushExec p.toCode)

end SwarmEvolution.Machine
