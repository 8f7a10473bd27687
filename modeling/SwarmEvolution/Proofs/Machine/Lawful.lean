import SwarmEvolution.Proofs.Code.Size
import SwarmEvolution.Proofs.Machine.Bodies
import SwarmEvolution.Proofs.Machine.Contents
import SwarmEvolution.Proofs.Machine.Loops

/-! Every instruction keeps a law that has room for what instructions make. Nothing limits the size
of a loop, so a law has to allow those that are put together; all other code is of a size that the
settings allow. -/
namespace SwarmEvolution.Machine

open Number Sampling Act

variable {law : Law} {view : SwarmView}

theorem stackOp_keeps (k : StackKind) (op : StackOp) :
    (stackOp k op).Keeps law fun _ => True := by
  cases op with
  | dup => exact keeps_rearrange Stack.dup_subset
  | swap => exact keeps_rearrange fun s => s.swap_rearranged.perm.subset
  | rot => exact keeps_rearrange fun s => s.rot_rearranged.perm.subset
  | flush => exact keeps_rearrange fun _ => List.nil_subset _
  | pop => exact keeps_pop.bind fun _ _ => keeps_pure trivial
  | depth => exact keeps_get.bind fun _ _ => keeps_put (k := .integer) trivial
  | yank =>
    exact keeps_pop.bind fun _ _ => keeps_rearrange fun s => (s.yank_rearranged _).perm.subset
  | yankDup => exact keeps_pop.bind fun _ _ => keeps_rearrange fun s => s.yankDup_subset _
  | shove =>
    exact keeps_pop.bind fun _ _ => keeps_rearrange fun s => (s.shove_rearranged _).perm.subset
  | equal => exact keeps_binary fun _ _ _ _ => trivial

theorem integerOp_keeps (op : IntegerOp) : (integerOp op).Keeps law fun _ => True := by
  cases op with
  | random =>
    exact keeps_get.bind fun _ _ => (keeps_sample (Draw.always_any _)).bind fun _ _ =>
      keeps_put (k := .integer) trivial
  | div | mod =>
    refine keeps_get.bind fun m _ => ?_
    split
    · exact keeps_stop
    · exact keeps_binary fun _ _ _ _ => trivial
  | abs | neg | fromFloat | fromBoolean => exact keeps_unary fun _ _ => trivial
  | _ => exact keeps_binary fun _ _ _ _ => trivial

theorem booleanOp_keeps (op : BooleanOp) : (booleanOp op).Keeps law fun _ => True := by
  cases op with
  | random =>
    exact (keeps_sample (Draw.always_any _)).bind fun _ _ => keeps_put (k := .boolean) trivial
  | not | fromInteger | fromFloat => exact keeps_unary fun _ _ => trivial
  | _ => exact keeps_binary fun _ _ _ _ => trivial

theorem inputOp_keeps (op : InputOp) : (inputOp op).Keeps law fun _ => True := by
  cases op with
  | depth => exact keeps_get.bind fun _ _ => keeps_put (k := .integer) trivial
  | everything =>
    refine keeps_modify (fun m obeys => ?_) trivial
    have all : ∀ v ∈ m.input.toList, law.published v := fun v member =>
      obeys.input v (List.mem_reverse.mp member)
    revert all
    generalize m.input.toList = values
    intro all
    induction values generalizing m with
    | nil => exact obeys
    | cons v rest ih =>
      obtain ⟨first, others⟩ := List.forall_mem_cons.mp all
      exact ih _ (obeys.pushPublished first) others
  | index =>
    refine keeps_get.bind fun m obeys => ?_
    dsimp only
    split
    · exact keeps_stop
    refine keeps_pop.bind fun n _ => ?_
    split
    case _ v found =>
      have member : v ∈ m.input.items := List.mem_reverse.mp (List.mem_of_getElem? found)
      exact keeps_modify (fun _ other => other.pushPublished (obeys.input v member)) trivial
    case _ => exact keeps_stop

section Closed

variable (closed : law.Closed view)
include closed

theorem lawful_clamp (x : Float32) : law.number (clamp x) := closed.clamped x closed.zero

theorem unaryFloat_keeps (f : Float32 → Float32) :
    (unaryFloat fun a => clamp (f a)).Keeps law fun _ => True :=
  keeps_unary fun a _ => lawful_clamp closed (f a)

theorem binaryFloat_keeps (f : Float32 → Float32 → Float32) :
    (binaryFloat fun a b => clamp (f a b)).Keeps law fun _ => True :=
  keeps_binary fun a b _ _ => lawful_clamp closed (f a b)

theorem divideFloats_keeps (f : Float32 → Float32 → Float32) :
    (divideFloats fun a b => clamp (f a b)).Keeps law fun _ => True := by
  refine keeps_get.bind fun m _ => ?_
  split
  · exact keeps_stop
  · exact binaryFloat_keeps closed f

theorem floatOp_keeps (op : FloatOp) : (floatOp op).Keeps law fun _ => True := by
  cases op with
  | add | sub | mul => exact binaryFloat_keeps closed _
  | div | mod => exact divideFloats_keeps closed _
  | abs | neg | sin | cos | tan | exp | ln => exact unaryFloat_keeps closed _
  | less | greater => exact keeps_binary fun _ _ _ _ => trivial
  | fromInteger => exact keeps_unary fun n _ => closed.whole n
  | fromBoolean =>
    refine keeps_unary fun b _ => ?_
    cases b with
    | false => exact closed.zero
    | true => exact closed.one
  | random =>
    exact keeps_get.bind fun _ _ => (keeps_sample (Draw.always_any _)).bind fun _ _ =>
      keeps_put (k := .float) (lawful_clamp closed _)
  | min =>
    -- One of the operands comes back, so nothing needs to be clamped.
    refine keeps_binary fun a b left right => ?_
    unfold minimum
    split
    · exact left
    · exact right
  | max =>
    refine keeps_binary fun a b left right => ?_
    unfold maximum
    split
    · exact left
    · exact right

end Closed

section Building

variable (closed : law.Closed view)
include closed

theorem lawful_instruction (i : Instruction) : law.code (.instruction i) :=
  closed.atom _ (by simp)

theorem lawful_integer (n : Int32) : law.code (.atom (.integer n)) := closed.atom _ (by simp)

theorem lawful_toItems {c d : Code} (lawful : law.code c) (member : d ∈ c.toItems) :
    law.code d := by
  unfold Code.toItems at member
  split at member
  · exact closed.item lawful member
  · rwa [List.mem_singleton.mp member]

theorem lawful_rangeLoop (unlimited : law.Unlimited) (first last : Int32) {body : Code}
    (lawful : law.code body) : law.code (rangeLoop first last body) := by
  refine unlimited _ fun c member => ?_
  simp only [List.mem_cons, List.not_mem_nil, or_false] at member
  rcases member with rfl | rfl | rfl | rfl
  · exact lawful_integer closed first
  · exact lawful_integer closed last
  · exact lawful_instruction closed _
  · exact lawful

theorem lawful_loop (unlimited : law.Unlimited) {m : Machine} (obeys : m.Obeys law)
    {i : Instruction} {loop : Code} (builds : m.Builds i loop) : law.code loop := by
  have pair : ∀ i body, law.code body → law.code (.list [.instruction i, body]) := by
    refine fun i body lawful => unlimited _ fun c member => ?_
    simp only [List.mem_cons, List.not_mem_nil, or_false] at member
    rcases member with rfl | rfl
    · exact lawful_instruction closed i
    · exact lawful
  cases builds with
  | y exec => exact pair _ _ (obeys.top exec)
  | range _ exec _ => exact lawful_rangeLoop closed unlimited _ _ (obeys.top exec)
  | count _ exec _ => exact lawful_rangeLoop closed unlimited _ _ (obeys.top exec)
  | times _ exec _ => exact lawful_rangeLoop closed unlimited _ _ (pair _ _ (obeys.top exec))

end Building

section Loops

variable {m : Machine} {n : Int32} {ns : List Int32} {body : Code} {rest : List Code}

theorem range_obeys (two : 2 ≤ m.size .integer) (exec : (m.stack .exec).items = body :: rest)
    (room : ∀ loop, m.Builds (.exec .range) loop → law.code loop) (obeys : m.Obeys law) :
    ((execOp .range).on m).2.Obeys law := by
  have taken : m.belowRange.Obeys law := obeys.below.below.below
  rcases integers : (m.stack .integer).items with _ | ⟨last, _ | ⟨index, ns⟩⟩
  · simp [size, Stack.size, integers] at two
  · simp [size, Stack.size, integers] at two
  by_cases further : index = last
  · subst further
    rw [on_range_last integers exec]
    exact (taken.push (k := .integer) trivial).push (k := .exec) (obeys.top exec)
  · rw [on_range integers exec further]
    have loop := taken.push (k := .exec) (room _ (.range integers exec further))
    exact (loop.push (k := .integer) trivial).push (k := .exec) (obeys.top exec)

theorem countedLoop_obeys {wrap : Code → Code} (integers : (m.stack .integer).items = n :: ns)
    (exec : (m.stack .exec).items = body :: rest)
    (room : 0 < n → law.code (rangeLoop 0 (n - 1) (wrap body))) (obeys : m.Obeys law) :
    ((countedLoop wrap).on m).2.Obeys law := by
  by_cases positive : 0 < n
  · rw [on_countedLoop integers exec positive]
    exact obeys.below.below.push (k := .exec) (room positive)
  · have top : (m.stack .integer).top? = some n := List.head?_eq_some_iff.mpr ⟨ns, integers⟩
    rw [countedLoop_blocked top (Int32.not_lt.mp positive)]
    exact obeys

/-- Of a loop itself it has to be known that it is lawful; all the rest are operands. -/
theorem loops_obey (runBody : Machine → Code → Machine) {i : Instruction} (looping : i.loops)
    (present : m.frame.satisfies i.operands)
    (room : ∀ loop, m.Builds i loop → law.code loop) (obeys : m.Obeys law) :
    ((act view runBody i).on m).2.Obeys law := by
  have sizes := Frame.satisfies_iff.mp present
  have upcoming : 0 < m.size .exec := by
    obtain rfl | rfl | rfl | rfl := i.eq_of_loops looping <;> exact sizes .exec
  obtain ⟨body, rest, exec⟩ := items_of_size_pos upcoming
  obtain rfl | rfl | rfl | rfl := i.eq_of_loops looping
  · rw [act, on_y exec]
    exact (obeys.below.push (k := .exec) (room _ (.y exec))).push (obeys.top exec)
  · exact range_obeys (sizes .integer) exec room obeys
  · obtain ⟨n, ns, integers⟩ := items_of_size_pos (m := m) (k := .integer) (sizes .integer)
    exact countedLoop_obeys integers exec (fun positive => room _ (.times integers exec positive))
      obeys
  · obtain ⟨n, ns, integers⟩ := items_of_size_pos (m := m) (k := .integer) (sizes .integer)
    exact countedLoop_obeys integers exec (fun positive => room _ (.count integers exec positive))
      obeys

end Loops

section Code

variable (closed : law.Closed view)
include closed

theorem execOp_keeps (op : ExecOp) (straight : ¬ (Instruction.exec op).loops) :
    (execOp op).Keeps law fun _ => True := by
  cases op with
  | y | range | count | times => exact absurd rfl straight
  | noop => exact keeps_pure trivial
  | k => exact keeps_binary fun _ _ lower _ => by assumption
  | choose =>
    refine keeps_pop.bind fun condition _ => keeps_pop.bind fun a first =>
      keeps_pop.bind fun b second => keeps_put (k := .exec) ?_
    split
    · exact first
    · exact second
  | s =>
    refine keeps_pop.bind fun a first => keeps_pop.bind fun b second =>
      keeps_pop.bind fun c third => keeps_get.bind fun m obeys => ?_
    split
    · exact (keeps_put third).bind fun _ _ => (keeps_put second).bind fun _ _ =>
        (keeps_put first).bind fun _ _ => keeps_stop
    case isFalse fits =>
      have pair : law.code (.list [b, c]) := by
        refine closed.combined (by simp_all [Law.on]) ?_
        rw [← obeys.settings]
        simp only [Code.points, Code.pointsOfAll]
        omega
      exact (keeps_put (k := .exec) pair).bind fun _ _ => (keeps_put third).bind fun _ _ =>
        keeps_put first

theorem combineCode_keeps {f : Code → Code → List Code}
    (parts : ∀ a b, law.code a → law.code b → ∀ c ∈ f a b, law.code c)
    (size : ∀ a b, Code.pointsOfAll (f a b) ≤ a.points + b.points) :
    (combineCode f).Keeps law fun _ => True := by
  refine keeps_pop.bind fun b right => keeps_pop.bind fun a left => keeps_get.bind fun m obeys => ?_
  split
  · exact (keeps_put left).bind fun _ _ => (keeps_put right).bind fun _ _ => keeps_stop
  case isFalse fits =>
    refine keeps_put (k := .code) (closed.combined (parts a b left right) ?_)
    have sum := size a b
    rw [← obeys.settings]
    simp only [Code.points]
    omega

theorem codeOp_keeps (op : CodeOp) : (codeOp op).Keeps law fun _ => True := by
  cases op with
  | quote | runTop => exact keeps_unary fun _ lawful => lawful
  | run =>
    exact keeps_peek.bind fun c lawful =>
      (keeps_put (k := .exec) (lawful_instruction closed _)).bind fun _ _ =>
        keeps_put (k := .exec) lawful
  | first =>
    refine keeps_unary fun c lawful => ?_
    match c, lawful with
    | .atom _, lawful => exact lawful
    | .list [], lawful => exact lawful
    | .list (d :: _), lawful => exact closed.item lawful (.head _)
  | rest =>
    refine keeps_unary fun c lawful => ?_
    match c, lawful with
    | .atom _, _ => exact closed.empty
    | .list _, lawful => exact closed.tail lawful
  | cons =>
    refine combineCode_keeps closed (fun a b left right c member => ?_) fun a b => ?_
    · rcases List.mem_cons.mp member with rfl | inside
      · exact left
      · exact lawful_toItems closed right inside
    · have items := Code.pointsOfAll_toItems_le b
      simp only [Code.pointsOfAll]
      omega
  | list =>
    refine combineCode_keeps closed (fun a b left right c member => ?_) fun a b => ?_
    · simp only [List.mem_cons, List.not_mem_nil, or_false] at member
      rcases member with rfl | rfl
      · exact left
      · exact right
    · simp [Code.pointsOfAll]
  | append =>
    refine combineCode_keeps closed (fun a b left right c member => ?_) fun a b => ?_
    · rcases List.mem_append.mp member with front | back
      · exact lawful_toItems closed left front
      · exact lawful_toItems closed right back
    · have front := Code.pointsOfAll_toItems_le a
      have back := Code.pointsOfAll_toItems_le b
      rw [Code.pointsOfAll_append]
      omega
  | isAtom | isEmpty | length | size => exact keeps_unary fun _ _ => trivial
  | fromInteger => exact keeps_unary fun n _ => lawful_integer closed n
  | fromFloat =>
    refine keeps_unary fun x lawful => closed.atom _ fun y same => ?_
    obtain rfl := Atom.float.inj same
    exact lawful
  | fromBoolean => exact keeps_unary fun b _ => closed.atom _ (by simp)
  | choose =>
    refine keeps_pop.bind fun condition _ => keeps_pop.bind fun otherwise lower =>
      keeps_pop.bind fun met upper => keeps_put (k := .exec) ?_
    split
    · exact upper
    · exact lower

end Code

section Vectors

variable (closed : law.Closed view)
include closed

omit closed in
theorem lawful_map {p : Point} (length : law.length p.length) {f : Float32 → Float32}
    (each : ∀ x ∈ p, law.number (f x)) : law.point (p.map f) :=
  ⟨by rwa [List.length_map], List.forall_mem_map.mpr each⟩

theorem lawful_zipWith {p q : Point} (left : law.point p) (right : law.point q)
    {f : Float32 → Float32 → Float32}
    (each : ∀ x y, law.number x → law.number y → law.number (f x y)) :
    law.point (List.zipWith f p q) := by
  refine ⟨?_, fun z member => ?_⟩
  · rw [List.length_zipWith]
    exact closed.shorter left.1 right.1
  · obtain ⟨i, inside, rfl⟩ := List.mem_iff_getElem.mp member
    rw [List.getElem_zipWith]
    exact each _ _ (left.2 _ (List.getElem_mem _)) (right.2 _ (List.getElem_mem _))

theorem randomVector_keeps (f : Float32 → Float32) :
    (randomVector f).Keeps law law.point := by
  refine keeps_get.bind fun m obeys =>
    (keeps_sample (Draw.times_length m.dimensions Draw.unit)).bind fun us length => keeps_pure ?_
  refine lawful_map ?_ fun u _ => lawful_clamp closed _
  rw [length, dimensions, obeys.settings]
  exact closed.dimensions

theorem lawful_direction {p : Point} (lawful : law.point p) : law.point (direction p) :=
  lawful_map lawful.1 fun _ _ => lawful_clamp closed _

theorem binaryVector_keeps (f : Float32 → Float32 → Float32) :
    (binaryVector f).Keeps law fun _ => True :=
  keeps_binary fun _ _ left right =>
    lawful_zipWith closed left right fun _ _ _ _ => lawful_clamp closed _

theorem scalarVector_keeps (f : Float32 → Float32 → Float32) :
    (scalarVector f).Keeps law fun _ => True :=
  keeps_pop.bind fun _ lawful => keeps_pop.bind fun _ _ =>
    keeps_put (k := .vector) (lawful_map lawful.1 fun _ _ => lawful_clamp closed _)

theorem componentVector_keeps (f : Float32 → Float32 → Float32) :
    (componentVector f).Keeps law fun _ => True := by
  refine keeps_peek.bind fun p lawful => keeps_pop.bind fun c _ => keeps_pop.bind fun index _ =>
    keeps_put (k := .vector) ⟨?_, fun x member => ?_⟩
  · rw [List.length_modify]
    exact lawful.1
  · obtain ⟨i, inside, rfl⟩ := List.mem_iff_getElem.mp member
    rw [List.getElem_modify]
    split
    · exact lawful_clamp closed _
    · exact lawful.2 _ (List.getElem_mem _)

theorem vectorFromFloats_keeps : vectorFromFloats.Keeps law fun _ => True := by
  refine keeps_get.bind fun m obeys => ?_
  split
  · refine (keeps_popMany _).bind fun xs drained =>
      keeps_put (k := .vector) ⟨?_, fun x member => ?_⟩
    · rw [List.length_reverse, drained.1, dimensions, obeys.settings]
      exact closed.dimensions
    · exact drained.2 x (List.mem_reverse.mp member)
  · exact keeps_stop

omit closed in
theorem vectorToFloats_keeps : vectorToFloats.Keeps law fun _ => True := by
  refine keeps_pop.bind fun p lawful => keeps_modify (fun m obeys => ?_) trivial
  refine obeys.setStack fun x member => ?_
  rcases Stack.mem_pushAll _ member with old | new
  · exact obeys.stack .float x old
  · exact lawful.2 x new

theorem swarmPosition_keeps (best : Bool) : (swarmPosition view best).Keeps law fun _ => True := by
  unfold swarmPosition
  split
  · exact keeps_stop
  · refine keeps_popOrNone.bind fun index _ => keeps_get.bind fun m _ => ?_
    dsimp only
    split
    case _ p found => exact keeps_put (k := .vector) (closed.seen _ best p found)
    case _ => exact keeps_stop

omit closed in
theorem getComponent_keeps : getComponent.Keeps law fun _ => True := by
  refine keeps_pop.bind fun index _ => keeps_peek.bind fun p lawful => ?_
  split
  case _ x found => exact keeps_put (k := .float) (lawful.2 x (List.mem_of_getElem? found))
  case _ => exact keeps_stop

omit closed in
theorem setComponent_keeps : setComponent.Keeps law fun _ => True := by
  refine keeps_pop.bind fun p lawful => keeps_pop.bind fun index _ => keeps_pop.bind fun x new =>
    keeps_put (k := .vector) ⟨?_, fun y member => ?_⟩
  · rw [List.length_set]
    exact lawful.1
  · rcases List.mem_or_eq_of_mem_set member with old | rfl
    · exact lawful.2 y old
    · exact new

theorem blend_keeps : blend.Keeps law fun _ => True :=
  keeps_pop.bind fun _ upper => keeps_pop.bind fun _ lower => keeps_pop.bind fun _ _ =>
    keeps_put (k := .vector)
      (lawful_zipWith closed lower upper fun _ _ fallback _ => closed.clamped _ fallback)

end Vectors

theorem Obeys.inner {m : Machine} (obeys : m.Obeys law) : m.inner.Obeys law :=
  ⟨obeys.settings, obeys.withoutCode.stack, obeys.input⟩

/-- Bodies leave nothing unlawful behind apart from code, which is thrown away after them. -/
def Law.Tolerates (law : Law) (runBody : Machine → Code → Machine) : Prop :=
  ∀ m body, m.Obeys law → law.code body → (runBody m body).withoutCode.Obeys law

theorem pop?_withoutCode {m n : Machine} {x : Float32} (popped : m.pop? .float = some (x, n)) :
    m.withoutCode.pop? .float = some (x, n.withoutCode) := by
  obtain ⟨⟨y, rest⟩, shape, same⟩ := Option.map_eq_some_iff.mp popped
  obtain ⟨rfl, rfl⟩ := Prod.mk.inj same
  exact Option.map_eq_some_iff.mpr ⟨(y, rest), shape, rfl⟩

section Bodies

variable (closed : law.Closed view) {runBody : Machine → Code → Machine}
  (tolerates : law.Tolerates runBody) {body : Code} (lawful : law.code body)
include closed tolerates lawful

omit closed tolerates lawful in
/-- The machine in which a body begins, with its component and perhaps another one on the floats. -/
theorem Obeys.component {m : Machine} (obeys : m.Obeys law) {x : Float32} (number : law.number x)
    {other : Option Float32} (others : ∀ y, other = some y → law.number y) :
    (other.elim (m.pushFloat x) (m.pushFloat x).pushFloat).Obeys law := by
  have first : (m.pushFloat x).Obeys law := obeys.push (k := .float) number
  cases other with
  | none => exact first
  | some y => exact first.push (k := .float) (others y rfl)

theorem onComponent_obeys {m : Machine} (obeys : m.Obeys law) {x : Float32}
    (number : law.number x) {other : Option Float32}
    (others : ∀ y, other = some y → law.number y) :
    law.number (onComponent (runBody · body) x other m).1 ∧
      (onComponent (runBody · body) x other m).2.Obeys law := by
  have after := tolerates _ body (obeys.component number others) lawful
  simp only [onComponent]
  cases popped : Machine.pop? _ .float with
  | none => exact ⟨closed.zero, after⟩
  | some p => exact after.pop? (pop?_withoutCode popped)

theorem eachComponent_obeys {firsts seconds : Point} (left : ∀ x ∈ firsts, law.number x)
    (right : ∀ y ∈ seconds, law.number y) {m : Machine} (obeys : m.Obeys law) :
    (∀ z ∈ (eachComponent (runBody · body) firsts seconds m).1, law.number z) ∧
      (eachComponent (runBody · body) firsts seconds m).2.Obeys law := by
  induction firsts generalizing seconds m with
  | nil => exact ⟨by simp [eachComponent], obeys⟩
  | cons x firsts ih =>
    obtain ⟨number, others⟩ := List.forall_mem_cons.mp left
    obtain ⟨value, after⟩ := onComponent_obeys closed tolerates lawful obeys number
      fun y head => right y (List.mem_of_head? head)
    obtain ⟨rest, last⟩ := ih others (fun y member => right y (List.mem_of_mem_tail member)) after
    exact ⟨List.forall_mem_cons.mpr ⟨value, rest⟩, last⟩

theorem mapComponents_obeys {firsts seconds : Point} (left : law.point firsts)
    (right : ∀ y ∈ seconds, law.number y) {m : Machine} (obeys : m.Obeys law) :
    (mapComponents runBody firsts seconds body m).Obeys law := by
  obtain ⟨numbers, after⟩ :=
    eachComponent_obeys closed tolerates lawful left.2 right obeys.inner
  let ran := (eachComponent (runBody · body) firsts seconds m.inner).2
  have restored :
      { ran.withStacks m.frame.exec m.frame.code with nesting := ran.nesting - 1 }.Obeys law := by
    refine ⟨after.settings, fun k => ?_, after.input⟩
    cases k with
    | code => exact obeys.stack .code
    | exec => exact obeys.stack .exec
    | integer | float | boolean | vector => exact after.stack _
  refine restored.push (k := .vector) ⟨?_, numbers⟩
  rw [length_eachComponent]
  exact left.1

end Bodies

section Running

variable (closed : law.Closed view) {runBody : Machine → Code → Machine}
include closed

omit closed in
theorem bodyOperands_keeps (paired : Bool) :
    (bodyOperands paired).Keeps law fun operands => law.point operands.1 ∧
      (∀ y ∈ operands.2.1, law.number y) ∧ law.code operands.2.2 := by
  cases paired with
  | false =>
    exact keeps_pop.bind fun firsts left => keeps_pop.bind fun body lawful =>
      keeps_pure ⟨left, by simp, lawful⟩
  | true =>
    exact keeps_pop.bind fun firsts left => keeps_pop.bind fun seconds right =>
      keeps_pop.bind fun body lawful => keeps_pure ⟨left, right.2, lawful⟩

theorem higherOrder_keeps (tolerates : law.Tolerates runBody) (paired : Bool) :
    (higherOrder runBody paired).Keeps law fun _ => True := by
  rw [higherOrder_eq]
  refine keeps_get.bind fun m _ => ?_
  split
  · exact keeps_stop
  refine (bodyOperands_keeps paired).bind fun operands taken => ?_
  obtain ⟨left, right, lawful⟩ := taken
  exact keeps_modify (fun n obeys => mapComponents_obeys closed tolerates lawful left right obeys)
    trivial

theorem vectorOp_keeps (tolerates : law.Tolerates runBody) (op : VectorOp) :
    (vectorOp view runBody op).Keeps law fun _ => True := by
  cases op with
  | get => exact getComponent_keeps
  | set => exact setComponent_keeps
  | fromFloats => exact vectorFromFloats_keeps closed
  | toFloats => exact vectorToFloats_keeps
  | random | randomInLimits =>
    exact keeps_get.bind fun _ _ => (randomVector_keeps closed _).bind fun _ lawful =>
      keeps_put (k := .vector) lawful
  | randomUnit =>
    exact keeps_get.bind fun _ _ => (randomVector_keeps closed _).bind fun _ lawful =>
      keeps_put (k := .vector) (lawful_direction closed lawful)
  | randomInWidth =>
    exact keeps_pop.bind fun _ _ => (randomVector_keeps closed _).bind fun _ lawful =>
      keeps_put (k := .vector) lawful
  | add | sub | mul | div => exact binaryVector_keeps closed _
  | addScalar | subScalar | mulScalar | divScalar => exact scalarVector_keeps closed _
  | addToComponent | scaleComponent => exact componentVector_keeps closed _
  | dot => exact keeps_binary fun _ _ _ _ => lawful_clamp closed _
  | magnitude => exact keeps_unary fun _ _ => lawful_clamp closed _
  | zip | apply => exact higherOrder_keeps closed tolerates _
  | between => exact blend_keeps closed
  | best | current => exact swarmPosition_keeps closed _

variable (tolerates : law.Tolerates runBody) {m : Machine}
include tolerates

theorem act_keeps {i : Instruction} (straight : ¬ i.loops) :
    (act view runBody i).Keeps law fun _ => True := by
  cases i with
  | stack k op => exact stackOp_keeps k op
  | integer op => exact integerOp_keeps op
  | float op => exact floatOp_keeps closed op
  | boolean op => exact booleanOp_keeps op
  | exec op => exact execOp_keeps closed op straight
  | code op => exact codeOp_keeps closed op
  | input op => exact inputOp_keeps op
  | vector op => exact vectorOp_keeps closed tolerates op

theorem performWith_obeys {i : Instruction} (room : ∀ loop, m.Builds i loop → law.code loop)
    (obeys : m.Obeys law) : (performWith view runBody m i).Obeys law := by
  unfold performWith
  split
  case isTrue present =>
    by_cases looping : i.loops
    · exact loops_obey runBody looping present room obeys
    · exact (act_keeps closed tolerates looping m obeys).1
  case isFalse => exact obeys

theorem stepWith_obeys {c : Code}
    (room : ∀ i loop, c = .instruction i → m.Builds i loop → law.code loop)
    (lawful : law.code c) (obeys : m.Obeys law) : (stepWith view runBody m c).Obeys law := by
  match c with
  | .list items =>
    refine ⟨obeys.settings, fun k => ?_, obeys.input⟩
    cases k with
    | exec =>
      intro c member
      rcases List.mem_append.mp member with new | old
      · exact closed.item lawful new
      · exact obeys.stack .exec c old
    | integer | float | boolean | vector | code => exact obeys.stack _
  | .atom (.instruction i) => exact performWith_obeys closed tolerates (room i · rfl) obeys
  | .atom (.integer n) => exact obeys.push (k := .integer) trivial
  | .atom (.float x) => exact obeys.push (k := .float) (closed.literal lawful)
  | .atom (.boolean b) => exact obeys.push (k := .boolean) trivial

variable (unlimited : law.Unlimited)
include unlimited

theorem runWith_obeys (limit : Nat) (obeys : m.Obeys law) :
    (runWith view runBody limit m).1.Obeys law := by
  induction limit generalizing m with
  | zero => exact obeys
  | succ limit ih =>
    rw [runWith]
    cases popped : m.pop? .exec with
    | none => exact obeys
    | some p =>
      obtain ⟨lawful, before⟩ := obeys.pop? popped
      have room : ∀ i loop, p.1 = .instruction i → p.2.Builds i loop → law.code loop :=
        fun _ _ _ => lawful_loop closed unlimited before
      exact ih (stepWith_obeys closed tolerates room lawful before)

omit tolerates in
theorem runBody_obeys (depth : Nat) {body : Code} (lawful : law.code body) (obeys : m.Obeys law) :
    (Machine.runBody view depth m body).Obeys law := by
  induction depth generalizing m body with
  | zero => exact obeys
  | succ depth ih =>
    have tolerates : law.Tolerates (Machine.runBody view depth) := fun _ _ obeys lawful =>
      (ih lawful obeys).withoutCode
    match body with
    | .list items =>
      exact runWith_obeys closed tolerates unlimited _ (obeys.push (k := .exec) lawful)
    | .atom (.instruction i) =>
      exact performWith_obeys closed tolerates (fun _ => lawful_loop closed unlimited obeys) obeys
    | .atom (.integer _) | .atom (.float _) | .atom (.boolean _) => exact obeys

omit tolerates in
theorem runBody_tolerated (depth : Nat) : law.Tolerates (Machine.runBody view depth) :=
  fun _ _ obeys lawful => (runBody_obeys closed unlimited depth lawful obeys).withoutCode

end Running

end Machine
end SwarmEvolution
