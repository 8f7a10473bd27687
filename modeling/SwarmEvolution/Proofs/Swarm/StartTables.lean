import SwarmEvolution.Proofs.Number.Numerals
import SwarmEvolution.Proofs.Swarm.History

/-! Tables of start points and their files. However a table comes about, it has a point for every
problem, run and member, and the lines of such a table are read back to it. -/
namespace SwarmEvolution

open Sampling

namespace StartTable

/-- The rows of one problem: a point of its dimensions for every run and member. -/
def Covers (runs members : Nat) (p : Problem) (rows : List (List Point)) : Prop :=
  rows.length = runs ∧
    ∀ row ∈ rows, row.length = members ∧ ∀ point ∈ row, point.length = p.dimensions

/-- A table that has a point for every problem, run and member. -/
def Full (problems : List Problem) (runs members : Nat) (t : StartTable) : Prop :=
  List.Forall₂ (Covers runs members) problems t

section Drawing

variable {problems : List Problem} {runs members : Nat}

theorem randomPoint_length (p : Problem) :
    p.randomPoint.Always fun point => point.length = p.dimensions := by
  refine (Draw.each_length _ _).mono fun point length => length.trans ?_
  rw [Box.bounds, List.length_map, List.length_range]

theorem draw_full : (draw problems runs members).Always (Full problems runs members) := by
  refine Draw.each_always fun p _ random => ⟨Draw.times_length _ _ random, ?_⟩
  refine Draw.always_times runs (fun random => ⟨Draw.times_length _ _ random, ?_⟩) random
  exact Draw.always_times members (randomPoint_length p) random

end Drawing

section Reading

variable {α β : Type} {parse : β → List (List Char) → Except Failure (α × List (List Char))}

theorem parseEach_cons_ok {b : β} {labels : List β} {lines rest : List (List Char)}
    {items : List α} : parseEach parse (b :: labels) lines = .ok (items, rest) ↔
      ∃ a between as, parse b lines = .ok (a, between) ∧
        parseEach parse labels between = .ok (as, rest) ∧ a :: as = items := by
  rw [parseEach]
  constructor
  · intro read
    obtain ⟨⟨a, between⟩, first, read⟩ := Failure.bind_eq_ok_iff.mp read
    obtain ⟨⟨as, left⟩, others, read⟩ := Failure.bind_eq_ok_iff.mp read
    obtain ⟨same, rfl⟩ := Prod.mk.inj (Except.ok.inj read)
    exact ⟨a, between, as, first, others, same⟩
  · rintro ⟨a, between, as, first, others, rfl⟩
    exact Failure.bind_eq_ok_iff.mpr ⟨_, first, Failure.bind_eq_ok_iff.mpr ⟨_, others, rfl⟩⟩

/-- Items that are read one by one are read one after another. -/
theorem parseEach_flatMap {labels : List β} {items : List α} {text : α → List (List Char)}
    (one : List.Forall₂ (fun b a => ∀ rest, parse b (text a ++ rest) = .ok (a, rest)) labels items)
    (rest : List (List Char)) :
    parseEach parse labels (items.flatMap text ++ rest) = .ok (items, rest) := by
  induction one with
  | nil => rfl
  | cons first _ ih =>
    rw [List.flatMap_cons, List.append_assoc]
    exact parseEach_cons_ok.mpr ⟨_, _, _, first _, ih, rfl⟩

/-- What is read under each label has a property of it if that is so of all that can be read. -/
theorem parseEach_forall₂ {P : β → α → Prop} {labels : List β} {lines rest : List (List Char)}
    {items : List α}
    (one : ∀ b ∈ labels, ∀ lines a rest, parse b lines = .ok (a, rest) → P b a)
    (read : parseEach parse labels lines = .ok (items, rest)) : List.Forall₂ P labels items := by
  induction labels generalizing lines items with
  | nil =>
    obtain ⟨rfl, -⟩ := Prod.mk.inj (Except.ok.inj read)
    exact .nil
  | cons b labels ih =>
    obtain ⟨a, between, as, first, others, rfl⟩ := parseEach_cons_ok.mp read
    exact .cons (one b List.mem_cons_self _ _ _ first)
      (ih (fun c mem => one c (List.mem_cons_of_mem _ mem)) others)

theorem parseEach_forall {P : α → Prop} {labels : List β} {lines rest : List (List Char)}
    {items : List α} (one : ∀ b lines a rest, parse b lines = .ok (a, rest) → P a)
    (read : parseEach parse labels lines = .ok (items, rest)) :
    items.length = labels.length ∧ ∀ a ∈ items, P a := by
  have all : List.Forall₂ (fun _ a => P a) labels items :=
    parseEach_forall₂ (fun b _ => one b) read
  refine ⟨all.length_eq.symm, ?_⟩
  clear read
  induction all with
  | nil => exact fun _ none => nomatch none
  | cons holds _ ih => exact List.forall_mem_cons.mpr ⟨holds, ih⟩

end Reading

section Files

theorem parsePoint_length {dimensions : Nat} {line : List Char} {point : Point}
    (read : parsePoint dimensions line = .ok point) : point.length = dimensions := by
  unfold parsePoint at read
  obtain ⟨p, -, read⟩ := Failure.bind_eq_ok_iff.mp read
  split at read
  case isTrue length =>
    obtain rfl := Except.ok.inj read
    exact length
  case isFalse => contradiction

theorem parseMember_length {file : String} {p : Problem} {run member : Nat}
    {lines rest : List (List Char)} {point : Point}
    (read : parseMember file p run member lines = .ok (point, rest)) :
    point.length = p.dimensions := by
  cases lines with
  | nil => contradiction
  | cons line lines =>
    change (parsePoint p.dimensions line).map (·, lines) = _ at read
    cases parsed : parsePoint p.dimensions line with
    | error => rw [parsed] at read; contradiction
    | ok met =>
      rw [parsed] at read
      obtain ⟨rfl, -⟩ := Prod.mk.inj (Except.ok.inj read)
      exact parsePoint_length parsed

/-- What is read from a file is full. -/
theorem parse_full {file text : String} {problems : List Problem} {runs members : Nat}
    {t : StartTable} (read : parse file text problems runs members = .ok t) :
    Full problems runs members t := by
  obtain ⟨⟨table, rest⟩, all, same⟩ := Failure.bind_eq_ok_iff.mp read
  obtain rfl : table = t := Except.ok.inj same
  refine parseEach_forall₂ (fun p _ lines rows rest read => ?_) all
  have counted := parseEach_forall (fun run lines row rest read =>
    parseEach_forall (fun member lines point rest read => parseMember_length read) read) read
  rw [List.length_range, List.length_range] at counted
  exact counted

/-- The line of a point, without the feed at its end. -/
def line (p : Point) : List Char := (renderPoint p).toList

def pointWords (p : Point) : List (List Char) := p.map fun x => (Number.render .plain x).toList

theorem pointWords_word (p : Point) : ∀ w ∈ pointWords p, Text.Word w := by
  intro w mem
  obtain ⟨x, -, rfl⟩ := List.mem_map.mp mem
  exact Number.plain_word x

theorem line_eq (p : Point) : line p = List.intercalate [' '] (pointWords p) := by
  unfold line renderPoint pointWords
  rw [String.toList_intercalate, List.map_map]
  rfl

theorem words_line (p : Point) : Text.words (line p) = pointWords p := by
  rw [line_eq, Text.words_intercalate (pointWords_word p)]

theorem coordinates_words (p : Point) : coordinates (pointWords p) = .ok p := by
  induction p with
  | nil => rfl
  | cons x p ih =>
    have read : (Number.Numeral.read? (Number.render .plain x).toList).map Number.ofNumeral =
        some x := Number.read?_render rfl x
    change coordinates ((Number.render .plain x).toList :: pointWords p) = _
    rw [coordinates, read, ih]
    rfl

theorem parsePoint_line (p : Point) : parsePoint p.length (line p) = .ok p := by
  have all : (pointWords p).take p.length = pointWords p :=
    List.take_of_length_le (Nat.le_of_eq (List.length_map _))
  unfold parsePoint
  rw [words_line, all, coordinates_words]
  exact if_pos rfl

/-- Reading what is written for the rows of one problem. -/
theorem parse_rows {runs members : Nat} {p : Problem} {rows : List (List Point)} (file : String)
    (covers : Covers runs members p rows) (rest : List (List Char)) :
    parseEach (fun run => parseEach (parseMember file p run) (List.range members)) (List.range runs)
      (rows.flatMap (·.map line) ++ rest) = .ok (rows, rest) := by
  obtain ⟨length, rowsCover⟩ := covers
  refine parseEach_flatMap (List.forall₂_iff_zip.mpr ⟨?_, fun {run row} mem rest => ?_⟩) rest
  · rw [List.length_range, length]
  obtain ⟨count, points⟩ := rowsCover row (List.of_mem_zip mem).2
  rw [List.map_eq_flatMap]
  refine parseEach_flatMap (List.forall₂_iff_zip.mpr ⟨?_, fun {member point} mem rest => ?_⟩) rest
  · rw [List.length_range, count]
  · have dimensions := points point (List.of_mem_zip mem).2
    change (parsePoint p.dimensions (line point)).map (·, rest) = _
    rw [← dimensions, parsePoint_line]
    rfl

theorem lines_render (t : StartTable) :
    Text.lines t.render.toList = t.flatten.flatten.map line := by
  have feeds : t.render.toList = (t.flatten.flatten.map line).flatMap (· ++ ['\n']) := by
    unfold render
    rw [String.toList_join, List.flatMap_map, List.flatMap_map]
    exact List.flatMap_congr fun p _ => String.toList_append
  rw [feeds, Text.lines_flatMap]
  intro l mem
  obtain ⟨p, -, rfl⟩ := List.mem_map.mp mem
  rw [line_eq]
  exact Text.feed_not_mem_intercalate (pointWords_word p)

theorem line_not_blank {p : Point} (nonempty : p ≠ []) : ¬ (line p).all Text.isBlank := by
  intro blank
  have none := words_line p ▸ Text.words_eq_nil (List.all_eq_true.mp blank)
  exact nonempty (List.map_eq_nil_iff.mp none)

section Full

variable {problems : List Problem} {runs members : Nat} {t : StartTable}

theorem Full.covers (full : Full problems runs members t) {rows : List (List Point)}
    (mem : rows ∈ t) : ∃ p ∈ problems, Covers runs members p rows := by
  obtain ⟨k, below, rfl⟩ := List.mem_iff_getElem.mp mem
  have inside : k < problems.length := full.length_eq ▸ below
  exact ⟨problems[k], List.getElem_mem inside, (List.forall₂_iff_get.mp full).2 k inside below⟩

theorem Full.nonempty (full : Full problems runs members t)
    (positive : ∀ p ∈ problems, 1 ≤ p.dimensions) : ∀ point ∈ t.flatten.flatten, point ≠ [] := by
  intro point mem
  obtain ⟨row, rowMem, mem⟩ := List.mem_flatten.mp mem
  obtain ⟨rows, rowsMem, rowMem⟩ := List.mem_flatten.mp rowMem
  obtain ⟨p, among, -, covers⟩ := full.covers rowsMem
  have dimensions := (covers row rowMem).2 point mem
  exact List.ne_nil_of_length_pos (dimensions ▸ positive p among)

/-- The text of a full table is read back to it. -/
theorem parse_render (positive : ∀ p ∈ problems, 1 ≤ p.dimensions)
    (full : Full problems runs members t) (file : String) :
    parse file t.render problems runs members = .ok t := by
  have kept : (Text.lines t.render.toList).filter (fun l => !l.all Text.isBlank) =
      t.flatMap (·.flatMap (·.map line)) := by
    have order : t.flatten.flatten.map line = t.flatMap (·.flatMap (·.map line)) := by
      rw [List.flatten_flatten, List.map_flatten, List.map_map, List.flatMap_def]
      exact congrArg List.flatten (List.map_congr_left fun rows _ => List.map_flatten)
    rw [lines_render, order.symm]
    refine List.filter_eq_self.mpr fun l mem => ?_
    obtain ⟨point, among, rfl⟩ := List.mem_map.mp mem
    rw [Bool.not_eq_true', ← Bool.not_eq_true]
    exact line_not_blank (full.nonempty positive point among)
  have read := parseEach_flatMap (full.imp fun p rows covers => parse_rows file covers) []
  rw [List.append_nil] at read
  unfold parse
  rw [kept]
  exact Failure.bind_eq_ok_iff.mpr ⟨_, read, rfl⟩

end Full

end Files

end StartTable

section Directories

variable {d written : Directory} {path text : String}

/-- What has been written under a path is read there. -/
theorem Directory.read?_write? (done : d.write? path text = some written) :
    written.read? path = some text := by
  obtain ⟨name, named, made⟩ := Option.bind_eq_some_iff.mp done
  obtain rfl : _ = written := Option.some.inj made
  unfold read?
  rw [named]
  exact List.lookup_cons_self

theorem Directory.contains_of_read? (found : d.read? path = some text) : d.contains path := by
  unfold contains
  rw [found]
  rfl

end Directories

namespace StartTable

variable {problems : List Problem} {runs members : Nat} {t : StartTable} {d written : Directory}
  {file : String}

/-- The file has the text of the table. -/
theorem read?_save (saved : t.save d file = .ok written) : written.read? file = some t.render := by
  unfold save at saved
  cases done : d.write? file t.render with
  | none => rw [done] at saved; contradiction
  | some made =>
    rw [done] at saved
    obtain rfl : made = written := Except.ok.inj saved
    exact Directory.read?_write? done

theorem load_full (read : load d file problems runs members = .ok t) :
    Full problems runs members t := by
  unfold load at read
  split at read
  case h_1 text _ => exact parse_full read
  case h_2 => contradiction

theorem load_save (positive : ∀ p ∈ problems, 1 ≤ p.dimensions)
    (full : Full problems runs members t) (saved : t.save d file = .ok written) :
    load written file problems runs members = .ok t := by
  unfold load
  rw [read?_save saved]
  exact parse_render positive full file

end StartTable

namespace StartPoints

variable {s : Settings.Optimisation} {problems : List Problem} {d : Directory}

theorem prepare_saves (problems : List Problem) (share : s.startMode = .share)
    (missing : d.contains s.startsFile = false) (random : Stream) :
    (prepare s problems d random).1 =
      let t := (StartTable.draw problems s.runs s.swarmSize random).1
      match t.save d s.startsFile with
      | .ok written => (.ok (.fixed t), written)
      | .error fault => (.error fault, d) := by
  unfold prepare
  rw [share]
  dsimp only
  rw [missing, if_neg Bool.false_ne_true, Draw.bind_apply]
  split
  case h_1 written saved => rw [saved]; rfl
  case h_2 fault saved => rw [saved]; rfl

theorem prepare_loads (share : s.startMode = .share) (there : d.contains s.startsFile)
    (random : Stream) : prepare s problems d random =
      (((StartTable.load d s.startsFile problems s.runs s.swarmSize).map .fixed, d), random) := by
  unfold prepare
  rw [share]
  dsimp only
  rw [if_pos there]
  rfl

theorem prepare_unnamed (share : s.startMode = .share) (missing : d.contains s.startsFile = false)
    (unnamed : Directory.fileName? s.startsFile = none) (random : Stream) :
    (prepare s problems d random).1 = (.error .file, d) := by
  rw [prepare_saves problems share missing]
  unfold StartTable.save Directory.write?
  rw [unnamed]
  rfl

/-- The text of every full table is read back to it, the files of such tables too. Start points
that are shared through a file that is not there yet are the same when they are asked for again,
and are not drawn again; only a path that names no file cannot be shared through. -/
theorem shared_round_trip (problems : List Problem) (positive : ∀ p ∈ problems, 1 ≤ p.dimensions) :
    (∀ runs members t file, StartTable.Full problems runs members t →
      StartTable.parse file t.render problems runs members = .ok t ∧
      ∀ d written, t.save d file = .ok written →
        StartTable.load written file problems runs members = .ok t) ∧
    ∀ s d random, s.startMode = .share → d.contains s.startsFile = false →
      ((Directory.fileName? s.startsFile).isSome → ∃ t written,
        StartTable.Full problems s.runs s.swarmSize t ∧
        (prepare s problems d random).1 = (.ok (.fixed t), written) ∧
        ∀ again, prepare s problems written again = ((.ok (.fixed t), written), again)) ∧
      (Directory.fileName? s.startsFile = none →
        (prepare s problems d random).1 = (.error .file, d)) := by
  refine ⟨fun runs members t file full => ⟨?_, ?_⟩, fun s d random share missing => ⟨?_, ?_⟩⟩
  · exact StartTable.parse_render positive full file
  · intro d written saved
    exact StartTable.load_save positive full saved
  · intro named
    obtain ⟨name, named⟩ := Option.isSome_iff_exists.mp named
    have full : StartTable.Full problems s.runs s.swarmSize _ := StartTable.draw_full random
    have first := prepare_saves problems share missing random
    generalize (StartTable.draw problems s.runs s.swarmSize random).1 = t at full first
    obtain ⟨written, saved⟩ : ∃ written, t.save d s.startsFile = .ok written := by
      unfold StartTable.save Directory.write?
      rw [named]
      exact ⟨_, rfl⟩
    dsimp only at first
    rw [saved] at first
    refine ⟨t, written, full, first, fun again => ?_⟩
    have there := Directory.contains_of_read? (StartTable.read?_save saved)
    rw [prepare_loads share there, StartTable.load_save positive full saved]
    rfl
  · intro unnamed
    exact prepare_unnamed share missing unnamed random

/-- Two runs of two members, which start where a file says. -/
def sharing : Settings.Optimisation := { startMode := .share, swarmSize := 2, runs := 2 }

/-- Coordinates that are not whole, or not even finite, are kept in the file too. -/
theorem line_shared_round_trip :
    StartTable.parse "starts.txt" (StartTable.render [[[[0.1], [-0.0]], [[1 / 0], [-1 / 0]]]])
      [.line] 2 2 = .ok [[[[0.1], [-0.0]], [[1 / 0], [-1 / 0]]]] ∧
    ∃ t written, StartTable.Full [.line] 2 2 t ∧
      (prepare sharing [.line] {} (Stream.ofSeed 1)).1 = (.ok (.fixed t), written) ∧
      ∀ again, prepare sharing [.line] written again = ((.ok (.fixed t), written), again) := by
  have full : StartTable.Full [.line] 2 2 [[[[0.1], [-0.0]], [[1 / 0], [-1 / 0]]]] :=
    .cons ⟨rfl, by simp [Problem.line]⟩ .nil
  obtain ⟨texts, shares⟩ := shared_round_trip [.line] (by simp [Problem.line])
  exact ⟨(texts 2 2 _ "starts.txt" full).1, (shares sharing {} (Stream.ofSeed 1) rfl rfl).1 rfl⟩

end StartPoints
end SwarmEvolution
