import SwarmEvolution.Code.Text
import SwarmEvolution.Proofs.Number.Numerals
import SwarmEvolution.Vocabulary

/-! The text of code can be understood in one way only. The text of an atom tells its kind, and a
text that begins with a tree begins with no other. -/
namespace SwarmEvolution

namespace Instruction

theorem mem_all (i : Instruction) : i ∈ all := by
  simp only [all, List.mem_append, List.mem_flatMap, List.mem_map]
  cases i with
  | stack kind op =>
    have kindMem : kind ∈ StackKind.all := by cases kind <;> decide
    have mem : op ∈ StackOp.all := by cases op <;> decide
    simp [kindMem, mem]
  | integer op =>
    have mem : op ∈ IntegerOp.all := by cases op <;> decide
    simp [mem]
  | float op =>
    have mem : op ∈ FloatOp.all := by cases op <;> decide
    simp [mem]
  | boolean op =>
    have mem : op ∈ BooleanOp.all := by cases op <;> decide
    simp [mem]
  | exec op =>
    have mem : op ∈ ExecOp.all := by cases op <;> decide
    simp [mem]
  | code op =>
    have mem : op ∈ CodeOp.all := by cases op <;> decide
    simp [mem]
  | input op =>
    have mem : op ∈ InputOp.all := by cases op <;> decide
    simp [mem]
  | vector op =>
    have mem : op ∈ VectorOp.all := by cases op <;> decide
    simp [mem]

end Instruction

section Characters

/-- Whether a character can be in the text of an atom. -/
def isBare (c : Char) : Bool := c != ' ' && c != '(' && c != ')'

/-- Whether a character can be in the text of an integer. -/
def isIntegral (c : Char) : Bool := c.isDigit || c == '-'

/-- A text without spaces and parentheses. -/
structure Bare (cs : List Char) : Prop where
  nonempty : cs ≠ []
  all : ∀ c ∈ cs, isBare c

theorem bare_of_text {text : String}
    (plain : text.toList.isEmpty = false ∧ text.toList.all isBare) : Bare text.toList :=
  ⟨List.isEmpty_eq_false_iff.mp plain.1, List.all_eq_true.mp plain.2⟩

theorem isBare_of_isDigit {c : Char} (digit : c.isDigit) : isBare c := by
  have other {d : Char} (noDigit : ¬ d.isDigit) : (c != d) = true :=
    bne_iff_ne.mpr fun same => noDigit (same ▸ digit)
  unfold isBare
  rw [other (by decide), other (by decide), other (by decide)]
  rfl

theorem isIntegral_iff {c : Char} : isIntegral c ↔ c.isDigit ∨ c = '-' := by
  unfold isIntegral
  rw [Bool.or_eq_true, beq_iff_eq]

theorem takeWhile_run {p : Char → Bool} {run rest : List Char} (all : ∀ c ∈ run, p c)
    (ends : ∀ c ∈ rest.head?, ¬ p c) : (run ++ rest).takeWhile p = run := by
  rw [List.takeWhile_append_of_pos all]
  cases rest with
  | nil => exact List.append_nil run
  | cons c rest => rw [List.takeWhile_cons_of_neg (ends c rfl), List.append_nil]

/-- Where a run of characters of one kind ends can be seen. -/
theorem run_append_inj {p : Char → Bool} {first second rest rest' : List Char}
    (all : ∀ c ∈ first, p c) (all' : ∀ c ∈ second, p c) (ends : ∀ c ∈ rest.head?, ¬ p c)
    (ends' : ∀ c ∈ rest'.head?, ¬ p c) (same : first ++ rest = second ++ rest') :
    first = second ∧ rest = rest' := by
  have runs : first = second := by rw [← takeWhile_run all ends, same, takeWhile_run all' ends']
  subst runs
  exact ⟨rfl, List.append_cancel_left same⟩

end Characters

namespace Instruction

theorem family_mem (i : Instruction) : i.family ∈ Slot.families := by
  unfold Slot.families family
  cases i with
  | stack kind => cases kind <;> simp [StackKind.name]
  | _ => simp

theorem name_toList (i : Instruction) :
    i.name.toList = i.family.toList ++ '.' :: i.word.toList := by
  unfold name
  rw [String.toList_append, String.toList_append, List.append_assoc]
  rfl

theorem family_spec (i : Instruction) : '.' ∉ i.family.toList ∧ Bare i.family.toList ∧
    ¬ i.family.toList.head?.any isIntegral := by
  have all : ∀ family ∈ Slot.families, '.' ∉ family.toList ∧
      (family.toList.isEmpty = false ∧ family.toList.all isBare) ∧
      ¬ family.toList.head?.any isIntegral := by decide +kernel
  exact (all i.family i.family_mem).imp_right (And.imp_left bare_of_text)

theorem name_bare (i : Instruction) : Bare i.name.toList := by
  have words : ∀ i ∈ all, i.word.toList.all isBare := by decide +kernel
  obtain ⟨-, family, -⟩ := i.family_spec
  rw [name_toList]
  refine ⟨List.append_ne_nil_of_left_ne_nil family.nonempty _, fun c mem => ?_⟩
  rcases List.mem_append.mp mem with before | mem
  · exact family.all c before
  · rcases List.mem_cons.mp mem with rfl | after
    · rfl
    · exact List.all_eq_true.mp (words i i.mem_all) c after

/-- The family of a name ends at its first point. -/
theorem name_split {i : Instruction} {first second : List Char} (unpointed : '.' ∉ first)
    (same : i.name.toList = first ++ '.' :: second) :
    i.family.toList = first ∧ i.word.toList = second := by
  have all {cs : List Char} (none : '.' ∉ cs) : ∀ c ∈ cs, (c != '.') = true := fun c mem =>
    bne_iff_ne.mpr fun point => none (point ▸ mem)
  have ends (cs : List Char) : ∀ c ∈ ('.' :: cs).head?, ¬ (c != '.') = true := fun c mem =>
    Option.some.inj mem ▸ by decide
  rw [name_toList] at same
  obtain ⟨family, rest⟩ :=
    run_append_inj (all i.family_spec.1) (all unpointed) (ends _) (ends _) same
  exact ⟨family, (List.cons.inj rest).2⟩

theorem name_injective {i j : Instruction} (same : i.name = j.name) : i = j := by
  -- Words are compared within a family only: stacks of two kinds share them.
  have words : ∀ family ∈ Slot.families,
      ((all.filter fun i => i.family = family).map word).Nodup := by decide +kernel
  have texts := congrArg String.toList same
  rw [j.name_toList] at texts
  obtain ⟨family, word⟩ := name_split j.family_spec.1 texts
  have mem : i ∈ all.filter fun k => k.family = i.family :=
    List.mem_filter.mpr ⟨i.mem_all, by simp⟩
  have mem' : j ∈ all.filter fun k => k.family = i.family :=
    List.mem_filter.mpr ⟨j.mem_all, by simp [String.toList_inj.mp family]⟩
  exact List.inj_on_of_nodup_map (words i.family i.family_mem) mem mem'
    (String.toList_inj.mp word)

end Instruction

namespace Atom

inductive Kind where
  | instruction
  | integer
  | float
  | boolean
  deriving DecidableEq

def kind : Atom → Kind
  | .instruction _ => .instruction
  | .integer _ => .integer
  | .float _ => .float
  | .boolean _ => .boolean

/-- The kind of the atoms that can have a text. -/
def Kind.ofText (cs : List Char) : Kind :=
  if cs = "true".toList ∨ cs = "false".toList then .boolean
  else if cs.all isIntegral then .integer
  else if cs.head?.any isIntegral ∨ cs = "NaN".toList ∨ cs = "inf".toList then .float
  else .instruction

theorem ofText_name (i : Instruction) : Kind.ofText i.name.toList = .instruction := by
  obtain ⟨-, family, letter⟩ := i.family_spec
  obtain ⟨c, cs, same⟩ := List.exists_cons_of_ne_nil family.nonempty
  have point : '.' ∈ i.name.toList :=
    i.name_toList ▸ List.mem_append_right _ List.mem_cons_self
  have head : i.name.toList.head? = some c := by rw [i.name_toList, same]; rfl
  rw [same] at letter
  generalize i.name.toList = text at point head
  have all : ¬ text.all isIntegral := fun all =>
    letter (List.all_eq_true.mp all c (List.mem_of_mem_head? head))
  have other {word : List Char} (none : '.' ∉ word) : text ≠ word := fun same => none (same ▸ point)
  unfold Kind.ofText
  rw [if_neg, if_neg all, if_neg]
  · rintro (first | word | word)
    · rw [head] at first
      exact letter first
    · exact other (by decide) word
    · exact other (by decide) word
  · rintro (word | word)
    · exact other (by decide) word
    · exact other (by decide) word

section Integers

theorem integer_text (n : Int32) : (Atom.integer n).text.toList =
    (if n.toInt < 0 then ['-'] else []) ++ Nat.toDigits 10 n.toInt.natAbs :=
  Number.toList_toString n.toInt

theorem integer_text_all (n : Int32) : ∀ c ∈ (Atom.integer n).text.toList, isIntegral c := by
  intro c mem
  rw [integer_text, List.mem_append] at mem
  rcases mem with sign | digit
  · split at sign
    case isTrue => exact isIntegral_iff.mpr (.inr (List.mem_singleton.mp sign))
    case isFalse => contradiction
  · exact isIntegral_iff.mpr (.inl (Number.isDigit_toDigits _ c digit))

theorem integer_text_ne_nil (n : Int32) : (Atom.integer n).text.toList ≠ [] := by
  rw [integer_text]
  exact List.append_ne_nil_of_right_ne_nil _ Nat.toDigits_ne_nil

theorem ofText_integer (n : Int32) : Kind.ofText (Atom.integer n).text.toList = .integer := by
  have all := List.all_eq_true.mpr (integer_text_all n)
  unfold Kind.ofText
  generalize (Atom.integer n).text.toList = cs at all
  rw [if_neg, if_pos all]
  rintro (rfl | rfl)
  · exact absurd all (by decide)
  · exact absurd all (by decide)

end Integers

section Floats

open Number

theorem finite_text_head (negative : Bool) (d : Decimal) :
    ∃ c cs, (Layout.literal.render (.finite negative d)).toList = c :: cs ∧ isIntegral c := by
  obtain ⟨c, cs, same, digit⟩ := (spelt_size .literal d).exists_cons
  rw [toList_render_finite, same]
  cases negative with
  | false => exact ⟨c, cs, rfl, isIntegral_iff.mpr (.inl digit)⟩
  | true => exact ⟨'-', c :: cs, rfl, rfl⟩

theorem finite_text_not_all (negative : Bool) (d : Decimal) :
    ¬ (Layout.literal.render (.finite negative d)).toList.all isIntegral := by
  rw [toList_render_finite, List.all_eq_true]
  intro all
  rcases marked_size (l := .literal) rfl d with point | power
  · exact absurd (all _ (List.mem_append_right _ point)) (by decide)
  · exact absurd (all _ (List.mem_append_right _ power)) (by decide)

theorem ofText_float (x : Float32) : Kind.ofText (Atom.float x).text.toList = .float := by
  change Kind.ofText (Layout.literal.render (Format.single.numeral x.toBits.toNat)).toList = _
  cases Format.single.numeral x.toBits.toNat with
  | finite negative d =>
    have marked := finite_text_not_all negative d
    obtain ⟨c, cs, same, integral⟩ := finite_text_head negative d
    rw [same] at marked ⊢
    unfold Kind.ofText
    rw [if_neg, if_neg marked, if_pos (.inl integral)]
    rintro (word | word)
    · exact absurd (List.head_eq_of_cons_eq word ▸ integral) (by decide)
    · exact absurd (List.head_eq_of_cons_eq word ▸ integral) (by decide)
  | infinite negative =>
    cases negative with
    | false => rfl
    | true => rfl
  | undefined =>
    change Kind.ofText "NaN".toList = _
    rfl

theorem float_text_bare (x : Float32) : Bare (Atom.float x).text.toList := by
  change Bare (Layout.literal.render (Format.single.numeral x.toBits.toNat)).toList
  cases Format.single.numeral x.toBits.toNat with
  | finite negative d =>
    obtain ⟨c, cs, same, -⟩ := finite_text_head negative d
    refine ⟨same ▸ List.cons_ne_nil c cs, fun c mem => ?_⟩
    rcases mem_render_finite mem with digit | rfl | rfl | rfl
    · exact isBare_of_isDigit digit
    · decide
    · decide
    · decide
  | infinite negative =>
    cases negative with
    | false => exact bare_of_text ⟨rfl, rfl⟩
    | true => exact bare_of_text ⟨rfl, rfl⟩
  | undefined =>
    change Bare "NaN".toList
    exact bare_of_text ⟨rfl, rfl⟩

end Floats

/-- The text of an atom tells its kind. -/
theorem ofText_text (a : Atom) : Kind.ofText a.text.toList = a.kind := by
  cases a with
  | instruction i => exact ofText_name i
  | integer n => exact ofText_integer n
  | float x => exact ofText_float x
  | boolean b =>
    cases b with
    | false => rfl
    | true => rfl

theorem text_bare (a : Atom) : Bare a.text.toList := by
  cases a with
  | instruction i => exact i.name_bare
  | integer n =>
    refine ⟨integer_text_ne_nil n, fun c mem => ?_⟩
    rcases isIntegral_iff.mp (integer_text_all n c mem) with digit | rfl
    · exact isBare_of_isDigit digit
    · decide
  | float x => exact float_text_bare x
  | boolean b =>
    cases b with
    | false => exact bare_of_text ⟨rfl, rfl⟩
    | true => exact bare_of_text ⟨rfl, rfl⟩

theorem text_injective {a b : Atom} (same : a.text = b.text) : a = b := by
  have kinds : a.kind = b.kind := by rw [← ofText_text a, ← ofText_text b, same]
  cases a with
  | instruction i =>
    cases b with
    | instruction j => rw [Instruction.name_injective same]
    | _ => contradiction
  | integer n =>
    cases b with
    | integer m =>
      change n.toInt.repr = m.toInt.repr at same
      rw [Int32.toInt_inj.mp (Int.repr_inj.mp same)]
    | _ => contradiction
  | float x =>
    cases b with
    | float y =>
      have read : Number.read? (Number.render .literal x) = some x := Number.read?_render rfl x
      change Number.render .literal x = Number.render .literal y at same
      rw [same, Number.read?_render rfl y] at read
      rw [Option.some.inj read]
    | _ => contradiction
  | boolean first =>
    cases b with
    | boolean second =>
      have words : ∀ x y : Bool, (boolean x).text = (boolean y).text → x = y := by decide
      rw [words first second same]
    | _ => contradiction

end Atom

namespace Code

section Trees

variable {rest : List Char}

/-- The text of the items after the first one. -/
def following (cs : List Code) : List Char := cs.flatMap fun c => ' ' :: c.text.toList

theorem intercalate_texts (c : Code) (cs : List Code) :
    List.intercalate [' '] ((texts (c :: cs)).map String.toList) =
      c.text.toList ++ following cs := by
  induction cs generalizing c with
  | nil =>
    rw [texts, List.map_cons]
    exact List.intercalate_singleton.trans (List.append_nil _).symm
  | cons d cs ih =>
    have first : (texts (c :: d :: cs)).map String.toList =
        c.text.toList :: d.text.toList :: (texts cs).map String.toList := rfl
    have others : List.intercalate [' '] (d.text.toList :: (texts cs).map String.toList) =
        d.text.toList ++ following cs := ih d
    rw [first, List.intercalate_cons_cons, others, List.append_assoc]
    rfl

theorem toList_text_cons (c : Code) (cs : List Code) :
    (list (c :: cs)).text.toList = '(' :: (c.text.toList ++ (following cs ++ [')'])) := by
  rw [text, String.toList_append, String.toList_append, String.toList_intercalate]
  change '(' :: (List.intercalate [' '] _ ++ [')']) = _
  rw [intercalate_texts, List.append_assoc]

/-- What comes after a tree: nothing, another item or the end of the list. -/
def Ends (rest : List Char) : Prop := ∀ c ∈ rest.head?, c = ' ' ∨ c = ')'

theorem ends_following (cs : List Code) (rest : List Char) :
    Ends (following cs ++ ')' :: rest) := by
  intro c mem
  cases cs with
  | nil => exact .inr (Option.some.inj mem).symm
  | cons d cs => exact .inl (Option.some.inj mem).symm

theorem exists_text_cons (c : Code) : ∃ first cs, c.text.toList = first :: cs ∧ first ≠ ')' := by
  cases c with
  | atom a =>
    obtain ⟨nonempty, all⟩ := a.text_bare
    obtain ⟨first, cs, same⟩ := List.exists_cons_of_ne_nil nonempty
    refine ⟨first, cs, same, ?_⟩
    rintro rfl
    exact absurd (all ')' (same ▸ List.mem_cons_self)) (by decide)
  | list cs =>
    cases cs with
    | nil => exact ⟨'(', [')'], rfl, by decide⟩
    | cons c cs => exact ⟨'(', _, toList_text_cons c cs, by decide⟩

theorem Ends.not_bare (ends : Ends rest) : ∀ c ∈ rest.head?, ¬ isBare c := by
  intro c mem
  rcases ends c mem with rfl | rfl
  · decide
  · decide

theorem atom_text_ne_paren (a : Atom) (rest rest' : List Char) :
    a.text.toList ++ rest ≠ '(' :: rest' := by
  obtain ⟨nonempty, all⟩ := a.text_bare
  obtain ⟨first, cs, same⟩ := List.exists_cons_of_ne_nil nonempty
  rw [same]
  intro begins
  have paren : first = '(' := List.head_eq_of_cons_eq begins
  exact absurd (all first (same ▸ List.mem_cons_self)) (by rw [paren]; decide)

mutual

/-- A text that begins with a tree begins with no other. -/
theorem text_append_inj : ∀ (c d : Code) {rest rest' : List Char}, Ends rest → Ends rest' →
    c.text.toList ++ rest = d.text.toList ++ rest' → c = d ∧ rest = rest'
  | .atom a, .atom b, _, _, ends, ends', same => by
    -- Both atoms end at the first character that is not bare.
    obtain ⟨texts, rests⟩ := run_append_inj a.text_bare.all b.text_bare.all ends.not_bare
      ends'.not_bare same
    exact ⟨congrArg atom (Atom.text_injective (String.toList_inj.mp texts)), rests⟩
  | .atom a, .list [], _, _, _, _, same => absurd same (atom_text_ne_paren a _ _)
  | .atom a, .list (d :: ds), _, _, _, _, same => by
    rw [toList_text_cons] at same
    exact absurd same (atom_text_ne_paren a _ _)
  | .list [], .atom b, _, _, _, _, same => absurd same.symm (atom_text_ne_paren b _ _)
  | .list (c :: cs), .atom b, _, _, _, _, same => by
    rw [toList_text_cons] at same
    exact absurd same.symm (atom_text_ne_paren b _ _)
  | .list [], .list [], _, _, _, _, same => ⟨rfl, (List.cons.inj (List.cons.inj same).2).2⟩
  | .list [], .list (d :: ds), _, _, _, _, same => by
    obtain ⟨first, cs, text, other⟩ := exists_text_cons d
    rw [toList_text_cons, text] at same
    exact absurd (List.cons.inj (List.cons.inj same).2).1.symm other
  | .list (c :: cs), .list [], _, _, _, _, same => by
    obtain ⟨first, cs', text, other⟩ := exists_text_cons c
    rw [toList_text_cons, text] at same
    exact absurd (List.cons.inj (List.cons.inj same).2).1 other
  | .list (c :: cs), .list (d :: ds), rest, rest', _, _, same => by
    simp only [toList_text_cons, List.cons_append, List.append_assoc, List.nil_append] at same
    obtain ⟨rfl, others⟩ := text_append_inj c d (ends_following cs rest) (ends_following ds rest')
      (List.cons.inj same).2
    obtain ⟨rfl, rests⟩ := following_append_inj cs ds others
    exact ⟨rfl, rests⟩

theorem following_append_inj : ∀ (cs ds : List Code) {rest rest' : List Char},
    following cs ++ ')' :: rest = following ds ++ ')' :: rest' → cs = ds ∧ rest = rest'
  | [], [], _, _, same => ⟨rfl, (List.cons.inj same).2⟩
  | [], d :: ds, _, _, same => absurd (List.cons.inj same).1 (by decide)
  | c :: cs, [], _, _, same => absurd (List.cons.inj same).1 (by decide)
  | c :: cs, d :: ds, rest, rest', same => by
    simp only [following, List.flatMap_cons, List.cons_append, List.append_assoc] at same
    obtain ⟨rfl, others⟩ := text_append_inj c d (ends_following cs rest) (ends_following ds rest')
      (List.cons.inj same).2
    obtain ⟨rfl, rests⟩ := following_append_inj cs ds others
    exact ⟨rfl, rests⟩

end

/-- Code can be told from its text. All floats that are no numbers are one and the same here, as
they are in the text. -/
theorem text_inj (c d : Code) : c.text = d.text ↔ c = d := by
  have nothing : Ends [] := fun _ none => nomatch none
  refine ⟨fun same => ?_, congrArg text⟩
  exact (text_append_inj c d nothing nothing (congrArg (·.toList ++ []) same)).1

end Trees

end Code

end SwarmEvolution
