import SwarmEvolution.Proofs.Swarm.Rows
import SwarmEvolution.Proofs.Swarm.SavedStarts

/-! Which files of start points can be read. A file has one line for each problem, run and member,
blank lines apart; it is refused at the first of these lines that is missing or spells no point. -/
namespace SwarmEvolution

namespace StartTable

/-- The lines of a text that are not blank. -/
def contentLines (text : String) : List (List Char) :=
  (Text.lines text.toList).filter fun l => !l.all Text.isBlank

/-- The number that a word spells. -/
def number? (w : List Char) : Option Float32 := (Number.Numeral.read? w).map Number.ofNumeral

section Points

variable {dimensions : Nat} {line : List Char} {ws : List (List Char)} {point : Point} {f : Failure}

/-- The first words of a line are the coordinates of a point. -/
def Spells (dimensions : Nat) (line : List Char) (point : Point) : Prop :=
  dimensions ≤ (Text.words line).length ∧
    ((Text.words line).take dimensions).map number? = point.map some

/-- A line has enough words for a point, and those needed are numbers. -/
structure Legible (dimensions : Nat) (line : List Char) : Prop where
  enough : dimensions ≤ (Text.words line).length
  numbers : ∀ w ∈ (Text.words line).take dimensions, (number? w).isSome

/-- The first of some words that is no number. -/
def unreadable? (ws : List (List Char)) : Option (List Char) := ws.find? fun w => (number? w).isNone

/-- What is wrong with a line: a word that is no number, or else too few words. -/
inductive LineFault (dimensions : Nat) (line : List Char) : StartFault → Prop where
  | unreadable {w : List Char} :
      unreadable? ((Text.words line).take dimensions) = some w →
      LineFault dimensions line (.badCoordinate (String.ofList w))
  | short :
      unreadable? ((Text.words line).take dimensions) = none →
      (Text.words line).length < dimensions →
      LineFault dimensions line (.coordinateCount dimensions (Text.words line).length)

theorem unreadable?_eq_none : unreadable? ws = none ↔ ∀ w ∈ ws, (number? w).isSome := by
  unfold unreadable?
  simp only [List.find?_eq_none, Option.isNone_iff_eq_none, Option.isSome_iff_ne_none, ne_eq]

theorem unreadable?_cons_some {w : List Char} {x : Float32} (read : number? w = some x) :
    unreadable? (w :: ws) = unreadable? ws :=
  List.find?_cons_of_neg (by rw [read]; exact Bool.false_ne_true)

theorem unreadable?_cons_none {w : List Char} (unread : number? w = none) :
    unreadable? (w :: ws) = some w :=
  List.find?_cons_of_pos (by rw [unread]; rfl)

theorem map_number? (all : ∀ w ∈ ws, (number? w).isSome) :
    ws.map number? = (ws.filterMap number?).map some := by
  induction ws with
  | nil => rfl
  | cons w ws ih =>
    obtain ⟨here, others⟩ := List.forall_mem_cons.mp all
    obtain ⟨x, read⟩ := Option.isSome_iff_exists.mp here
    rw [List.map_cons, List.filterMap_cons_some read, List.map_cons, read, ih others]

theorem numbers_of_map (same : ws.map number? = point.map some) :
    ∀ w ∈ ws, (number? w).isSome := by
  intro w mem
  have among : number? w ∈ point.map some := same ▸ List.mem_map_of_mem mem
  obtain ⟨x, -, read⟩ := List.mem_map.mp among
  exact read ▸ rfl

theorem legible_iff : Legible dimensions line ↔ ∃ point, Spells dimensions line point := by
  constructor
  · rintro ⟨enough, numbers⟩
    exact ⟨_, enough, map_number? numbers⟩
  · rintro ⟨point, enough, spelt⟩
    exact ⟨enough, numbers_of_map spelt⟩

/-- Words are read up to the first one that is no number. -/
theorem coordinates_eq (ws : List (List Char)) : coordinates ws =
    (unreadable? ws).elim (.ok (ws.filterMap number?)) fun w =>
      .error (.startPoints (.badCoordinate (String.ofList w))) := by
  induction ws with
  | nil => rfl
  | cons w ws ih =>
    cases read : number? w with
    | none =>
      have unread : (Number.Numeral.read? w).map Number.ofNumeral = none := read
      rw [coordinates, unread, unreadable?_cons_none read]
      rfl
    | some x =>
      have spelt : (Number.Numeral.read? w).map Number.ofNumeral = some x := read
      rw [coordinates, spelt, ih, unreadable?_cons_some read, List.filterMap_cons_some read]
      cases unreadable? ws with
      | none => rfl
      | some w => rfl

theorem parsePoint_eq (dimensions : Nat) (line : List Char) : parsePoint dimensions line =
    (unreadable? ((Text.words line).take dimensions)).elim
      (if (Text.words line).length < dimensions then
        .error (.startPoints (.coordinateCount dimensions (Text.words line).length))
      else .ok (((Text.words line).take dimensions).filterMap number?))
      fun w => .error (.startPoints (.badCoordinate (String.ofList w))) := by
  unfold parsePoint
  rw [coordinates_eq]
  cases all : unreadable? ((Text.words line).take dimensions) with
  | some w => rfl
  | none =>
    have count := congrArg List.length (map_number? (unreadable?_eq_none.mp all))
    rw [List.length_map, List.length_map, List.length_take] at count
    change (if _ = _ then Except.ok _ else Except.error _) = if _ < _ then _ else _
    rw [← count]
    by_cases short : (Text.words line).length < dimensions
    · rw [Nat.min_eq_right (Nat.le_of_lt short), if_neg (Nat.ne_of_lt short), if_pos short]
    · rw [Nat.min_eq_left (Nat.le_of_not_lt short), if_pos rfl, if_neg short]

theorem parsePoint_ok_iff :
    parsePoint dimensions line = .ok point ↔ Spells dimensions line point := by
  rw [parsePoint_eq]
  unfold Spells
  generalize (Text.words line).take dimensions = ws
  cases all : unreadable? ws with
  | some w =>
    refine ⟨nofun, fun ⟨_, same⟩ => ?_⟩
    rw [unreadable?_eq_none.mpr (numbers_of_map same)] at all
    contradiction
  | none =>
    rw [map_number? (unreadable?_eq_none.mp all), List.map_inj_right fun _ _ => Option.some.inj]
    rw [Option.elim_none]
    split
    case isTrue short => exact ⟨nofun, fun ⟨enough, _⟩ => absurd short (Nat.not_lt.mpr enough)⟩
    case isFalse full =>
      constructor
      · exact fun read => ⟨Nat.le_of_not_lt full, Except.ok.inj read⟩
      · rintro ⟨-, rfl⟩
        rfl

theorem parsePoint_error_iff : parsePoint dimensions line = .error f ↔
    ∃ fault, LineFault dimensions line fault ∧ f = .startPoints fault := by
  rw [parsePoint_eq]
  constructor
  · intro refused
    cases all : unreadable? ((Text.words line).take dimensions) with
    | some w =>
      rw [all] at refused
      exact ⟨_, .unreadable all, (Except.error.inj refused).symm⟩
    | none =>
      rw [all, Option.elim_none] at refused
      split at refused
      case isTrue short => exact ⟨_, .short all short, (Except.error.inj refused).symm⟩
      case isFalse => contradiction
  · rintro ⟨fault, wrong, rfl⟩
    cases wrong with
    | unreadable unread =>
      rw [unread]
      rfl
    | short all short => rw [all, Option.elim_none, if_pos short]

end Points

section Loops

variable {α β γ δ : Type} {one : γ → List (List Char) → Except Failure (δ × List (List Char))}
  {read : γ → Option (List Char) → Except Failure δ} {lines rest : List (List Char)}
  {labels : List γ} {items : List δ} {f : Failure}

theorem parseEach_map (g : β → γ) (bs : List β) (lines : List (List Char)) :
    parseEach one (bs.map g) lines = parseEach (fun b => one (g b)) bs lines := by
  induction bs generalizing lines with
  | nil => rfl
  | cons b bs ih =>
    rw [List.map_cons, parseEach, parseEach]
    simp only [ih]

theorem parseEach_append (first second : List γ) (lines : List (List Char)) :
    parseEach one (first ++ second) lines = parseEach one first lines >>= fun (as, lines) =>
      (parseEach one second lines).map (Prod.map (as ++ ·) id) := by
  induction first generalizing lines with
  | nil =>
    change _ = (parseEach one second lines).map _
    rw [List.nil_append]
    cases parseEach one second lines with
    | error => rfl
    | ok read => rfl
  | cons c first ih =>
    rw [List.cons_append, parseEach, parseEach]
    cases one c lines with
    | error => rfl
    | ok head =>
      change parseEach one (first ++ second) head.2 >>= _ = (parseEach one first head.2 >>= _) >>= _
      rw [ih]
      cases parseEach one first head.2 with
      | error => rfl
      | ok read =>
        change (parseEach one second read.2).map _ >>= _ = (parseEach one second read.2).map _
        cases parseEach one second read.2 with
        | error => rfl
        | ok others => rfl

/-- Items that are read in groups are read one after another. -/
theorem parseEach_groups {group : β → List γ} {flat : α → List δ}
    {inner : β → List (List Char) → Except Failure (α × List (List Char))}
    (same : ∀ b lines, (inner b lines).map (Prod.map flat id) = parseEach one (group b) lines)
    (bs : List β) (lines : List (List Char)) :
    (parseEach inner bs lines).map (Prod.map (List.flatMap flat) id) =
      parseEach one (bs.flatMap group) lines := by
  induction bs generalizing lines with
  | nil => rfl
  | cons b bs ih =>
    rw [parseEach, List.flatMap_cons, parseEach_append, ← same]
    cases inner b lines with
    | error => rfl
    | ok head =>
      change (parseEach inner bs head.2 >>= _).map _ =
        (parseEach one (bs.flatMap group) head.2).map _
      rw [← ih]
      cases parseEach inner bs head.2 with
      | error => rfl
      | ok others => rfl

section Linewise

variable (linewise : ∀ c lines, one c lines = (read c lines.head?).map (·, lines.tail))

include linewise

/-- Each item is read from a line of its own. -/
theorem parseEach_ok_getElem? (done : parseEach one labels lines = .ok (items, rest)) {k : Nat}
    {c : γ} (here : labels[k]? = some c) :
    ∃ item, items[k]? = some item ∧ read c lines[k]? = .ok item := by
  induction labels generalizing lines items k with
  | nil => contradiction
  | cons first labels ih =>
    obtain ⟨item, between, others, head, tail, rfl⟩ := parseEach_cons_ok.mp done
    rw [linewise, List.head?_eq_getElem?] at head
    cases opening : read first lines[0]? with
    | error => rw [opening] at head; contradiction
    | ok point =>
      rw [opening] at head
      obtain ⟨rfl, rfl⟩ := Prod.mk.inj (Except.ok.inj head)
      cases k with
      | zero =>
        obtain rfl := Option.some.inj here
        exact ⟨_, rfl, opening⟩
      | succ k =>
        have later := ih tail here
        rwa [List.getElem?_tail] at later

/-- The reading of many lines fails where the reading of a line fails first. -/
theorem parseEach_error_iff : parseEach one labels lines = .error f ↔
    ∃ (k : Nat) (c : γ), labels[k]? = some c ∧ read c lines[k]? = .error f ∧
      ∀ j < k, ∀ b, labels[j]? = some b → ∃ item, read b lines[j]? = .ok item := by
  induction labels generalizing lines with
  | nil =>
    constructor
    · intro failed
      contradiction
    · rintro ⟨k, c, here, -⟩
      contradiction
  | cons first labels ih =>
    rw [parseEach, linewise, List.head?_eq_getElem?, ← Nat.or_exists_add_one]
    simp only [List.getElem?_cons_zero, List.getElem?_cons_succ, Nat.forall_lt_succ_left]
    cases head : read first lines[0]? with
    | error fault =>
      have stops : (Except.error fault : Except Failure (List δ × List (List Char))) = .error f ↔
          fault = f := ⟨Except.error.inj, congrArg _⟩
      refine stops.trans ?_
      simp [head]
    | ok point =>
      have others (rest : Except Failure (List δ × List (List Char))) :
          (rest >>= fun read => .ok (point :: read.1, read.2)) = .error f ↔ rest = .error f := by
        cases rest with
        | error => exact Iff.rfl
        | ok =>
          constructor
          · intro failed
            contradiction
          · intro failed
            contradiction
      refine (others _).trans (ih.trans ?_)
      simp [List.getElem?_tail, head]

end Linewise

end Loops

/-- Lines are counted by problem, then by run, then by member. -/
theorem index_of_place (k runs members : Nat) :
    (k / (runs * members) * runs + k / members % runs) * members + k % members = k := by
  rw [Nat.mul_comm runs, ← Nat.div_div_eq_div_mul, Nat.div_add_mod', Nat.div_add_mod']

theorem index_split (i runs members run member : Nat) : (i * runs + run) * members + member =
    i * (runs * members) + (run * members + member) := by ring

section Places

/-- A place in a table. -/
structure Place where
  problem : Problem
  run : Nat
  member : Nat

namespace Place

def read (file : String) (place : Place) : Option (List Char) → Except Failure Point
  | none => .error (.startPoints (.endOfFile file place.problem.name place.run place.member))
  | some line => parsePoint place.problem.dimensions line

def parse (file : String) (place : Place) :
    List (List Char) → Except Failure (Point × List (List Char)) :=
  parseMember file place.problem place.run place.member

theorem parse_eq (file : String) (place : Place) (lines : List (List Char)) :
    place.parse file lines = (place.read file lines.head?).map (·, lines.tail) := by
  cases lines with
  | nil => rfl
  | cons => rfl

end Place

/-- The places of a table, in the order of the lines of its file. -/
def places (problems : List Problem) (runs members : Nat) : List Place :=
  problems.flatMap fun p => (List.range runs).flatMap fun run =>
    (List.range members).map fun member => ⟨p, run, member⟩

/-- A file is read place by place. -/
theorem parse_places (file text : String) (problems : List Problem) (runs members : Nat) :
    (parse file text problems runs members).map (List.flatMap List.flatten) =
      (parseEach (Place.parse file) (places problems runs members) (contentLines text)).map
        Prod.fst := by
  -- From the inside out: the lines of one run, those of one problem, all of them.
  have run (p : Problem) (run : Nat) (lines : List (List Char)) :
      (parseEach (parseMember file p run) (List.range members) lines).map (Prod.map id id) =
      parseEach (Place.parse file) ((List.range members).map fun member => ⟨p, run, member⟩)
        lines := by
    rw [parseEach_map, Prod.map_id, Except.map_id]
    rfl
  have problem (p : Problem) := parseEach_groups (run p) (List.range runs)
  have all := parseEach_groups problem problems (contentLines text)
  have flatten : List.flatMap (id : List Point → _) = List.flatten :=
    funext fun _ => List.flatMap_id
  unfold places
  rw [← all, flatten]
  change (parseEach _ problems (contentLines text) >>= _).map _ = _
  cases parseEach _ problems (contentLines text) with
  | error => rfl
  | ok => rfl

variable {problems : List Problem} {runs members : Nat}

theorem getElem?_places (i : Nat) {run member : Nat} (within : run < runs)
    (below : member < members) :
    (places problems runs members)[(i * runs + run) * members + member]? =
      problems[i]?.map fun p => ⟨p, run, member⟩ := by
  have inRun (p : Problem) (run : Nat) :
      ((List.range members).map fun member => Place.mk p run member).length = members := by simp
  unfold places
  rw [index_split, Rows.getElem?_flatMap (n := runs * members) (fun p _ => by simp) i
    (Rows.index_lt within below)]
  simp only [Rows.getElem?_flatMap (fun run _ => inRun _ run) run below, List.getElem?_range within,
    List.getElem?_map, List.getElem?_range below, Option.bind_some, Option.map_some]
  cases problems[i]? with
  | none => rfl
  | some p => rfl

theorem places_length :
    (places problems runs members).length = problems.length * runs * members := by
  unfold places
  rw [Rows.length_flatMap (n := runs * members) fun p _ => by simp, Nat.mul_assoc]

theorem places_eq_some_iff {k : Nat} {place : Place} :
    (places problems runs members)[k]? = some place ↔
      k < problems.length * runs * members ∧ ∃ p, problems[k / (runs * members)]? = some p ∧
        ⟨p, k / members % runs, k % members⟩ = place := by
  by_cases within : k < problems.length * runs * members
  · have someRuns : 0 < runs := Nat.pos_of_ne_zero fun none => by simp [none] at within
    have someMembers : 0 < members := Nat.pos_of_ne_zero fun none => by simp [none] at within
    have runBelow := Nat.mod_lt (k / members) someRuns
    have memberBelow := Nat.mod_lt k someMembers
    rw [← index_of_place k runs members, getElem?_places _ runBelow memberBelow, index_of_place,
      Option.map_eq_some_iff]
    exact (and_iff_right within).symm
  · have beyond : (places problems runs members)[k]? = none :=
      List.getElem?_eq_none (places_length ▸ Nat.le_of_not_lt within)
    rw [beyond]
    exact ⟨nofun, fun ⟨inside, _⟩ => absurd inside within⟩

/-- The table has the points of the places in order. -/
theorem get?_fixed_of_full {t : StartTable} (full : Full problems runs members t) (i : Nat)
    {run member : Nat} (within : run < runs) (below : member < members) :
    (StartPoints.fixed t).get? i run member =
      (t.flatMap List.flatten)[(i * runs + run) * members + member]? := by
  have lengths : ∀ rows ∈ t, rows.length = runs ∧ ∀ row ∈ rows, row.length = members :=
    fun rows mem =>
      let ⟨_, _, length, covers⟩ := full.covers mem
      ⟨length, fun row mem => (covers row mem).1⟩
  have rowsLength : ∀ rows ∈ t, rows.flatten.length = runs * members := fun rows mem => by
    rw [← List.flatMap_id]
    exact (Rows.length_flatMap (lengths rows mem).2).trans (by rw [(lengths rows mem).1])
  rw [index_split, Rows.getElem?_flatMap rowsLength i (Rows.index_lt within below)]
  unfold StartPoints.get?
  change (t[i]?.bind fun rows => rows[run]?.bind fun row => row[member]?) = _
  cases here : t[i]? with
  | none => rfl
  | some rows =>
    have mem := List.mem_of_getElem? here
    change _ = rows.flatten[run * members + member]?
    rw [← List.flatMap_id]
    exact (Rows.getElem?_flatMap (lengths rows mem).2 run below).symm

end Places

section Files

/-- The `k`-th line is there and spells a point of the problem that it is for. -/
def Supplied (problems : List Problem) (runs members : Nat) (lines : List (List Char)) (k : Nat) :
    Prop :=
  ∃ p line, problems[k / (runs * members)]? = some p ∧ lines[k]? = some line ∧
    Legible p.dimensions line

/-- What is wrong at the `k`-th line. -/
inductive FaultAt (file : String) (problems : List Problem) (runs members : Nat)
    (lines : List (List Char)) (k : Nat) : StartFault → Prop where
  | missing {p : Problem} : problems[k / (runs * members)]? = some p → lines[k]? = none →
      FaultAt file problems runs members lines k
        (.endOfFile file p.name (k / members % runs) (k % members))
  | illegible {p : Problem} {line : List Char} {fault : StartFault} :
      problems[k / (runs * members)]? = some p → lines[k]? = some line →
      LineFault p.dimensions line fault → FaultAt file problems runs members lines k fault

variable {file text : String} {problems : List Problem} {runs members k : Nat}
  {lines : List (List Char)} {place : Place} {f : Failure} {t : StartTable}

theorem Place.read_ok_iff {point : Point} {line? : Option (List Char)} :
    place.read file line? = .ok point ↔
      ∃ line, line? = some line ∧ Spells place.problem.dimensions line point := by
  cases line? with
  | none => exact ⟨nofun, fun ⟨_, there, _⟩ => nomatch there⟩
  | some line =>
    refine parsePoint_ok_iff.trans ⟨fun spelt => ⟨line, rfl, spelt⟩, ?_⟩
    rintro ⟨_, ⟨⟩, spelt⟩
    exact spelt

theorem supplied_iff (here : (places problems runs members)[k]? = some place) :
    Supplied problems runs members lines k ↔ ∃ point, place.read file lines[k]? = .ok point := by
  obtain ⟨-, p, problem, rfl⟩ := places_eq_some_iff.mp here
  simp only [Place.read_ok_iff]
  constructor
  · rintro ⟨q, line, same, there, legible⟩
    obtain rfl := Option.some.inj (problem.symm.trans same)
    obtain ⟨point, spelt⟩ := legible_iff.mp legible
    exact ⟨point, line, there, spelt⟩
  · rintro ⟨point, line, there, spelt⟩
    exact ⟨p, line, problem, there, legible_iff.mpr ⟨point, spelt⟩⟩

theorem faultAt_iff (here : (places problems runs members)[k]? = some place) :
    place.read file lines[k]? = .error f ↔
      ∃ fault, FaultAt file problems runs members lines k fault ∧ f = .startPoints fault := by
  obtain ⟨-, p, problem, rfl⟩ := places_eq_some_iff.mp here
  constructor
  · intro failed
    cases there : lines[k]? with
    | none =>
      rw [there] at failed
      exact ⟨_, .missing problem there, (Except.error.inj failed).symm⟩
    | some line =>
      rw [there] at failed
      obtain ⟨fault, wrong, same⟩ := parsePoint_error_iff.mp failed
      exact ⟨fault, .illegible problem there wrong, same⟩
  · rintro ⟨fault, wrong, rfl⟩
    cases wrong with
    | missing same there =>
      obtain rfl := Option.some.inj (problem.symm.trans same)
      rw [there]
      rfl
    | illegible same there wrong =>
      obtain rfl := Option.some.inj (problem.symm.trans same)
      rw [there]
      exact parsePoint_error_iff.mpr ⟨fault, wrong, rfl⟩

theorem parse_error_iff_places : parse file text problems runs members = .error f ↔
    parseEach (Place.parse file) (places problems runs members) (contentLines text) = .error f := by
  have same := parse_places file text problems runs members
  cases all : parse file text problems runs members <;>
    cases each : parseEach (Place.parse file) (places problems runs members) (contentLines text) <;>
    rw [all, each] at same
  case error.error =>
    obtain rfl := Except.error.inj same
    exact ⟨fun failed => Except.error.inj failed ▸ rfl, fun failed => Except.error.inj failed ▸ rfl⟩
  case ok.ok => exact ⟨nofun, nofun⟩
  all_goals contradiction

theorem parse_ok_places (read : parse file text problems runs members = .ok t) : ∃ rest,
    parseEach (Place.parse file) (places problems runs members) (contentLines text) =
      .ok (t.flatMap List.flatten, rest) := by
  have same := parse_places file text problems runs members
  rw [read] at same
  cases each : parseEach (Place.parse file) (places problems runs members) (contentLines text) with
  | error => rw [each] at same; contradiction
  | ok points =>
    rw [each] at same
    refine ⟨points.2, ?_⟩
    rw [Except.ok.inj same]

/-- A file is refused at its first line at fault. -/
theorem parse_error_iff : parse file text problems runs members = .error f ↔
    ∃ k < problems.length * runs * members,
      (∀ j < k, Supplied problems runs members (contentLines text) j) ∧
      ∃ fault, FaultAt file problems runs members (contentLines text) k fault ∧
        f = .startPoints fault := by
  rw [parse_error_iff_places, parseEach_error_iff (Place.parse_eq file)]
  constructor
  · rintro ⟨k, place, here, failed, before⟩
    obtain ⟨within, -⟩ := places_eq_some_iff.mp here
    refine ⟨k, within, fun j below => ?_, (faultAt_iff here).mp failed⟩
    have inside : j < (places problems runs members).length :=
      places_length ▸ Nat.lt_trans below within
    have there := List.getElem?_eq_getElem inside
    exact (supplied_iff there).mpr (before j below _ there)
  · rintro ⟨k, within, before, fault, wrong, same⟩
    have inside : k < (places problems runs members).length := places_length ▸ within
    have here := List.getElem?_eq_getElem inside
    exact ⟨k, _, here, (faultAt_iff here).mpr ⟨fault, wrong, same⟩,
      fun j below place there => (supplied_iff there).mp (before j below)⟩

/-- The points of a table are spelt by the lines of its file, in order. -/
theorem parse_points (read : parse file text problems runs members = .ok t) {i run member : Nat}
    {p : Problem} (problem : problems[i]? = some p) (within : run < runs)
    (below : member < members) : ∃ line point,
      (contentLines text)[(i * runs + run) * members + member]? = some line ∧
      (StartPoints.fixed t).get? i run member = some point ∧ Spells p.dimensions line point := by
  obtain ⟨rest, each⟩ := parse_ok_places read
  have here : (places problems runs members)[_]? = _ := getElem?_places i within below
  rw [problem] at here
  obtain ⟨point, there, good⟩ := parseEach_ok_getElem? (Place.parse_eq file) each here
  obtain ⟨line, given, spelt⟩ := Place.read_ok_iff.mp good
  have got := get?_fixed_of_full (parse_full read) i within below
  exact ⟨line, point, given, got.trans there, spelt⟩

theorem parse_ok_iff : (∃ t, parse file text problems runs members = .ok t) ↔
    problems.length * runs * members ≤ (contentLines text).length ∧
      ∀ k < problems.length * runs * members,
        Supplied problems runs members (contentLines text) k := by
  constructor
  · rintro ⟨t, read⟩
    obtain ⟨rest, each⟩ := parse_ok_places read
    have all : ∀ k < problems.length * runs * members,
        Supplied problems runs members (contentLines text) k := by
      intro k within
      have inside : k < (places problems runs members).length := places_length ▸ within
      have here := List.getElem?_eq_getElem inside
      obtain ⟨point, -, good⟩ := parseEach_ok_getElem? (Place.parse_eq file) each here
      exact (supplied_iff here).mpr ⟨point, good⟩
    refine ⟨Nat.le_of_not_lt fun few => ?_, all⟩
    obtain ⟨_, line, -, beyond, -⟩ := all _ few
    rw [List.getElem?_eq_none (Nat.le_refl _)] at beyond
    contradiction
  · rintro ⟨-, all⟩
    cases read : parse file text problems runs members with
    | ok t => exact ⟨t, rfl⟩
    | error f =>
      obtain ⟨k, place, here, failed, -⟩ :=
        (parseEach_error_iff (Place.parse_eq file)).mp (parse_error_iff_places.mp read)
      obtain ⟨within, -⟩ := places_eq_some_iff.mp here
      obtain ⟨point, good⟩ := (supplied_iff here).mp (all k within)
      rw [failed] at good
      contradiction

/-- A file of start points can be read exactly if it has a line for every problem, run and member,
and each of them spells a point of its problem; these are then the points of the table, in order.
Otherwise the first line at fault is the one that is told of. -/
theorem load_accepts_supplied {d : Directory} (found : d.read? file = some text) :
    let needed := problems.length * runs * members
    let lines := contentLines text
    ((∃ t, load d file problems runs members = .ok t) ↔
      needed ≤ lines.length ∧ ∀ k < needed, Supplied problems runs members lines k) ∧
    (∀ t, load d file problems runs members = .ok t → Full problems runs members t ∧
      ∀ i run member p, problems[i]? = some p → run < runs → member < members → ∃ line point,
        lines[(i * runs + run) * members + member]? = some line ∧
        (StartPoints.fixed t).get? i run member = some point ∧ Spells p.dimensions line point) ∧
    ∀ f, load d file problems runs members = .error f ↔
      ∃ k < needed, (∀ j < k, Supplied problems runs members lines j) ∧
        ∃ fault, FaultAt file problems runs members lines k fault ∧ f = .startPoints fault := by
  have load_eq : load d file problems runs members = parse file text problems runs members := by
    unfold load
    rw [found]
  rw [load_eq]
  refine ⟨parse_ok_iff, fun t read => ⟨parse_full read, ?_⟩, fun f => parse_error_iff⟩
  intro i run member p problem within below
  exact parse_points read problem within below

/-- A file whose second point is no number. -/
def strayed : Directory := { files := [("starts.txt", "0.5 left over\n\n x 1\n")] }

theorem stray_word_refused : strayed.read? "starts.txt" = some "0.5 left over\n\n x 1\n" ∧
    load strayed "starts.txt" [.line] 1 2 = .error (.startPoints (.badCoordinate "x")) := by
  have found : strayed.read? "starts.txt" = some "0.5 left over\n\n x 1\n" := by decide
  obtain ⟨-, -, refused⟩ := load_accepts_supplied found
  refine ⟨found, (refused _).mpr ⟨1, by decide, ?_, .badCoordinate "x", ?_, rfl⟩⟩
  · intro j below
    obtain rfl := Nat.lt_one_iff.mp below
    exact ⟨.line, "0.5 left over".toList, rfl, by decide, ⟨by decide, by decide⟩⟩
  · have word : unreadable? ((Text.words " x 1".toList).take 1) = some ['x'] := by decide
    exact .illegible rfl (by decide) (.unreadable word)

end Files

end StartTable
end SwarmEvolution
