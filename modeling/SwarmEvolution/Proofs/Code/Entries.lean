import SwarmEvolution.Proofs.Code.Texts

/-! What the settings say of the vocabulary. An entry is a name that one instruction has, stands for
a family or for a constant, and no entry can be understood in two ways. A list of entries is read up
to the first one that stands for nothing, and what it stands for is taken over in order, each choice
where it comes first. -/
namespace SwarmEvolution

section Occurrences

variable {α : Type} [BEq α] [LawfulBEq α]

/-- A list without its repetitions has the order of first occurrences: an element at the end is new
or left out. -/
theorem pairwise_eraseDups (as : List α) :
    as.eraseDups.Pairwise fun a b => as.idxOf a < as.idxOf b := by
  induction as using List.reverseRecOn with
  | nil => exact .nil
  | append_singleton as last ih =>
    have before {a : α} (member : a ∈ as) : (as ++ [last]).idxOf a = as.idxOf a := by
      rw [List.idxOf_append, if_pos member]
    have earlier : as.eraseDups.Pairwise fun a b =>
        (as ++ [last]).idxOf a < (as ++ [last]).idxOf b := by
      refine ih.imp_of_mem fun {a b} first second order => ?_
      rwa [before (List.mem_eraseDups.mp first), before (List.mem_eraseDups.mp second)]
    rw [List.eraseDups_append]
    by_cases known : last ∈ as
    · have none : [last].removeAll as = [] := by simp [List.removeAll, known]
      rw [none]
      simpa using earlier
    · have one : [last].removeAll as = [last] := by simp [List.removeAll, known]
      rw [one, List.eraseDups_cons]
      refine List.pairwise_append.mpr ⟨earlier, by simp, fun a member b new => ?_⟩
      have old := List.mem_eraseDups.mp member
      obtain rfl : b = last := by simpa using new
      rw [before old, List.idxOf_append, if_neg known]
      exact Nat.lt_of_lt_of_le (List.idxOf_lt_length_of_mem old) (Nat.le_add_left ..)

theorem nodup_eraseDups (as : List α) : as.eraseDups.Nodup :=
  (pairwise_eraseDups as).imp fun before same => by
    subst same
    exact Nat.lt_irrefl _ before

end Occurrences

namespace Slot

/-- An entry without the blanks around it. -/
def trimmed (entry : String) : String := String.ofList (Text.trim entry.toList)

/-- What an entry without blanks around it stands for: an instruction for its name, a family with
its constant, or a constant alone. -/
inductive Stands : String → List Slot → Prop where
  | instruction (i : Instruction) : Stands i.name [.instruction i]
  | family (i : Instruction) : Stands ("registered." ++ i.family) (ofFamily i.family)
  | constant {family : String} {slot : Slot} (has : (family, slot) ∈ constants) :
    Stands (family ++ ".erc") [slot]

variable {entry family : String} {slots : List Slot} {entries : List String} {f : Failure}

theorem lookup_constants {slot : Slot} :
    constants.lookup family = some slot ↔ (family, slot) ∈ constants := by
  have distinct : (constants.map Prod.fst).Nodup := by decide
  rw [List.lookup_eq_some_iff]
  constructor
  · rintro ⟨before, after, same, -⟩
    rw [same]
    exact List.mem_append_right _ (.head _)
  · intro member
    obtain ⟨before, after, same⟩ := List.append_of_mem member
    refine ⟨before, after, same, fun p earlier => bne_iff_ne.mpr fun twice => ?_⟩
    rw [same, List.map_append, List.map_cons, List.nodup_append] at distinct
    exact distinct.2.2 _ (List.mem_map_of_mem earlier) _ (.head _) twice.symm

theorem mem_ofFamily {slot : Slot} : slot ∈ ofFamily family ↔
    (∃ i : Instruction, i.family = family ∧ slot = .instruction i) ∨
      (family, slot) ∈ constants := by
  rw [ofFamily, List.mem_append, Option.mem_toList, lookup_constants, List.mem_map]
  refine or_congr_left (exists_congr fun i => ?_)
  rw [List.mem_filter, beq_iff_eq, and_iff_right i.mem_all, eq_comm (a := slot)]

section Entries

/-- A name is no entry for a family, since no family is called as those begin. -/
theorem name_ne_registered (i : Instruction) (family : String) :
    i.name ≠ "registered." ++ family := by
  intro same
  have texts : i.name.toList = "registered".toList ++ '.' :: family.toList := by
    rw [same, String.toList_append]
    rfl
  have own := String.toList_inj.mp (Instruction.name_split (by decide) texts).1
  have other : "registered" ∉ families := by decide
  exact other (own ▸ i.family_mem)

/-- A name is no entry for a constant, since no instruction is called as those end. -/
theorem name_ne_constant (i : Instruction) {family : String} (unpointed : '.' ∉ family.toList) :
    i.name ≠ family ++ ".erc" := by
  intro same
  have texts : i.name.toList = family.toList ++ '.' :: "erc".toList := by
    rw [same, String.toList_append]
    rfl
  have own := String.toList_inj.mp (Instruction.name_split unpointed texts).2
  have others : ∀ i ∈ Instruction.all, i.word ≠ "erc" := by decide +kernel
  exact others i i.mem_all own

theorem ofName?_name (i : Instruction) : Instruction.ofName? i.name = some i := by
  cases found : Instruction.ofName? i.name with
  | none => exact absurd (beq_self_eq_true i.name) (List.find?_eq_none.mp found i i.mem_all)
  | some j =>
    have same := List.find?_some found
    rw [Instruction.name_injective (beq_iff_eq.mp same)]

theorem ofEntry?_name (i : Instruction) : ofEntry? i.name = some [.instruction i] := by
  have family : families.find? (fun family => i.name == "registered." ++ family) = none :=
    List.find?_eq_none.mpr fun family _ same => name_ne_registered i family (beq_iff_eq.mp same)
  have unpointed : ∀ entry ∈ constants, '.' ∉ entry.1.toList := by decide
  unfold ofEntry?
  rw [family]
  dsimp only
  split
  case h_1 family slot found =>
    have same := List.find?_some found
    exact absurd (beq_iff_eq.mp same)
      (name_ne_constant i (unpointed _ (List.mem_of_find?_eq_some found)))
  case h_2 =>
    rw [ofName?_name]
    rfl

theorem ofEntry?_family (i : Instruction) :
    ofEntry? ("registered." ++ i.family) = some (ofFamily i.family) := by
  have found : ∀ family ∈ families,
      families.find? (fun other => "registered." ++ family == "registered." ++ other) =
        some family := by decide +kernel
  unfold ofEntry?
  rw [found i.family i.family_mem]

theorem ofEntry?_constant {slot : Slot} (has : (family, slot) ∈ constants) :
    ofEntry? (family ++ ".erc") = some [slot] := by
  have read : ∀ constant ∈ constants, ofEntry? (constant.1 ++ ".erc") = some [constant.2] := by
    decide +kernel
  exact read _ has

/-- The ways to read an entry are tried one after another, but no two of them apply. -/
theorem ofEntry?_eq_some_iff : ofEntry? entry = some slots ↔ Stands entry slots := by
  constructor
  · intro read
    unfold ofEntry? at read
    split at read
    case h_1 family found =>
      have known : ∀ family ∈ families, ∃ i ∈ Instruction.all, i.family = family := by
        decide +kernel
      obtain ⟨i, -, rfl⟩ := known family (List.mem_of_find?_eq_some found)
      have same := List.find?_some found
      rw [beq_iff_eq.mp same, ← Option.some.inj read]
      exact .family i
    case h_2 =>
      split at read
      case h_1 family slot found =>
        have same := List.find?_some found
        rw [beq_iff_eq.mp same, ← Option.some.inj read]
        exact .constant (List.mem_of_find?_eq_some found)
      case h_2 =>
        obtain ⟨i, found, rfl⟩ := Option.map_eq_some_iff.mp read
        have same := List.find?_some found
        rw [← beq_iff_eq.mp same]
        exact .instruction i
  · intro stands
    cases stands with
    | instruction i => exact ofEntry?_name i
    | family i => exact ofEntry?_family i
    | constant has => exact ofEntry?_constant has

theorem Stands.nonempty (stands : Stands entry slots) : slots ≠ [] := by
  cases stands with
  | instruction i => exact List.cons_ne_nil _ _
  | constant has => exact List.cons_ne_nil _ _
  | family i =>
    have member : Slot.instruction i ∈ ofFamily i.family := mem_ofFamily.mpr (.inl ⟨i, rfl, rfl⟩)
    exact List.ne_nil_of_mem member

end Entries

section Lists

/-- An entry stands for something once the blanks around it are gone. -/
def Known (entry : String) : Prop := ∃ slots, Stands (trimmed entry) slots

/-- All entries before this one stand for something, and it does not. -/
def FirstUnknown (entries : List String) (entry : String) : Prop :=
  ∃ before after, entries = before ++ entry :: after ∧ (∀ other ∈ before, Known other) ∧
    ¬ Known entry

theorem known_iff : Known entry ↔ ∃ slots, ofEntry? (trimmed entry) = some slots :=
  exists_congr fun _ => ofEntry?_eq_some_iff.symm

theorem ofEntries_cons (first : String) (entries : List String) : ofEntries (first :: entries) =
    match ofEntry? (trimmed first) with
    | none => .error (.unknownInstruction (trimmed first))
    | some slots => (ofEntries entries).map (slots ++ ·) := rfl

theorem ofEntries_ok (read : ofEntries entries = .ok slots) : ∃ expansions,
    List.Forall₂ (fun entry slots => Stands (trimmed entry) slots) entries expansions ∧
      slots = expansions.flatten := by
  induction entries generalizing slots with
  | nil => exact ⟨[], .nil, (Except.ok.inj read).symm⟩
  | cons first entries ih =>
    rw [ofEntries_cons] at read
    cases own : ofEntry? (trimmed first) with
    | none =>
      rw [own] at read
      contradiction
    | some expansion =>
      rw [own] at read
      cases others : ofEntries entries with
      | error f =>
        rw [others] at read
        contradiction
      | ok rest =>
        rw [others] at read
        obtain ⟨expansions, each, rfl⟩ := ih others
        have stands := ofEntry?_eq_some_iff.mp own
        exact ⟨expansion :: expansions, .cons stands each, (Except.ok.inj read).symm⟩

/-- The reading stops at the first entry that stands for nothing. -/
theorem ofEntries_error (failed : ofEntries entries = .error f) :
    ∃ entry, FirstUnknown entries entry ∧ f = .unknownInstruction (trimmed entry) := by
  induction entries with
  | nil => contradiction
  | cons first entries ih =>
    rw [ofEntries_cons] at failed
    cases own : ofEntry? (trimmed first) with
    | none =>
      rw [own] at failed
      have unknown : ¬ Known first := by simp [known_iff, own]
      exact ⟨first, ⟨[], entries, rfl, by simp, unknown⟩, (Except.error.inj failed).symm⟩
    | some expansion =>
      rw [own] at failed
      cases others : ofEntries entries with
      | ok rest =>
        rw [others] at failed
        contradiction
      | error fault =>
        rw [others] at failed
        obtain rfl := Except.error.inj failed
        obtain ⟨entry, ⟨before, after, rfl, known, unknown⟩, same⟩ := ih others
        have allKnown := List.forall_mem_cons.mpr ⟨known_iff.mpr ⟨expansion, own⟩, known⟩
        exact ⟨entry, ⟨first :: before, after, rfl, allKnown, unknown⟩, same⟩

theorem forall_known {expansions : List (List Slot)}
    (each : List.Forall₂ (fun entry slots => Stands (trimmed entry) slots) entries expansions) :
    ∀ entry ∈ entries, Known entry := by
  induction each with
  | nil => simp
  | cons stands _ ih => exact List.forall_mem_cons.mpr ⟨⟨_, stands⟩, ih⟩

theorem FirstUnknown.not_forall (first : FirstUnknown entries entry) :
    ¬ ∀ other ∈ entries, Known other := by
  obtain ⟨before, after, rfl, -, unknown⟩ := first
  exact fun known => unknown (known entry (by simp))

end Lists

end Slot

namespace Vocabulary

open Slot

/-- The choices are those of all expansions, each once and in the order in which they come first. -/
structure Gathers (expansions : List (List Slot)) (slots : List Slot) : Prop where
  nodup : slots.Nodup
  mem_iff : ∀ slot, slot ∈ slots ↔ ∃ expansion ∈ expansions, slot ∈ expansion
  ordered : slots.Pairwise fun a b => expansions.flatten.idxOf a < expansions.flatten.idxOf b

theorem gathers_eraseDups (expansions : List (List Slot)) :
    Gathers expansions expansions.flatten.eraseDups where
  nodup := nodup_eraseDups _
  mem_iff _ := List.mem_eraseDups.trans List.mem_flatten
  ordered := pairwise_eraseDups _

theorem ofSettings_outcome (settings : Settings.Machine) :
    settings.instructions = [] ∧
        ofSettings settings = .error (.settings .emptyInstructionSet) ∨
      (∃ entry, FirstUnknown settings.instructions entry ∧
        ofSettings settings = .error (.unknownInstruction (trimmed entry))) ∨
      ∃ expansions v, settings.instructions ≠ [] ∧
        List.Forall₂ (fun entry slots => Stands (trimmed entry) slots) settings.instructions
          expansions ∧
        ofSettings settings = .ok v ∧ Gathers expansions v.slots := by
  unfold ofSettings
  cases read : ofEntries settings.instructions with
  | error f =>
    obtain ⟨entry, first, rfl⟩ := ofEntries_error read
    exact .inr (.inl ⟨entry, first, rfl⟩)
  | ok slots =>
    obtain ⟨expansions, each, rfl⟩ := ofEntries_ok read
    dsimp only
    clear read
    generalize settings.instructions = entries at each ⊢
    cases each with
    | nil => exact .inl ⟨rfl, rfl⟩
    | @cons entry expansion entries others stands each =>
      obtain ⟨slot, own⟩ := List.exists_mem_of_ne_nil _ stands.nonempty
      have nonempty : (expansion :: others).flatten.eraseDups ≠ [] :=
        List.ne_nil_of_mem (List.mem_eraseDups.mpr (List.mem_append_left _ own))
      rw [dif_pos nonempty]
      exact .inr (.inr ⟨_, _, List.cons_ne_nil _ _, .cons stands each, rfl, gathers_eraseDups _⟩)

/-- A vocabulary comes of a list of entries exactly if there are some and each stands for something
once the blanks around it are gone. It then has what they stand for, each choice once and in the
order in which they come first; a family stands for all its instructions, and for its constant if
it has one. Otherwise the first entry that stands for nothing is the one that is told of. -/
theorem ofSettings_gathers (settings : Settings.Machine) :
    ((∃ v, ofSettings settings = .ok v) ↔
      settings.instructions ≠ [] ∧ ∀ entry ∈ settings.instructions, Known entry) ∧
    (∀ v, ofSettings settings = .ok v → ∃ expansions,
      List.Forall₂ (fun entry slots => Stands (trimmed entry) slots) settings.instructions
        expansions ∧ Gathers expansions v.slots) ∧
    (∀ f, ofSettings settings = .error f →
      settings.instructions = [] ∧ f = .settings .emptyInstructionSet ∨
        ∃ entry, FirstUnknown settings.instructions entry ∧
          f = .unknownInstruction (trimmed entry)) ∧
    ∀ family slot, slot ∈ ofFamily family ↔
      (∃ i : Instruction, i.family = family ∧ slot = .instruction i) ∨
        (family, slot) ∈ constants := by
  rcases ofSettings_outcome settings with
    ⟨none, failed⟩ | ⟨entry, first, failed⟩ | ⟨expansions, v, present, each, made, gathers⟩
  · rw [failed]
    refine ⟨⟨nofun, fun ⟨present, _⟩ => absurd none present⟩, nofun, fun f same => ?_,
      fun _ _ => mem_ofFamily⟩
    exact .inl ⟨none, (Except.error.inj same).symm⟩
  · rw [failed]
    refine ⟨⟨nofun, fun ⟨_, known⟩ => absurd known first.not_forall⟩, nofun, fun f same => ?_,
      fun _ _ => mem_ofFamily⟩
    exact .inr ⟨entry, first, (Except.error.inj same).symm⟩
  · rw [made]
    refine ⟨⟨fun _ => ⟨present, forall_known each⟩, fun _ => ⟨v, rfl⟩⟩, fun w same => ?_, nofun,
      fun _ _ => mem_ofFamily⟩
    rw [← Except.ok.inj same]
    exact ⟨expansions, each, gathers⟩

/-- An instruction before its family, and the constant of the family after it. -/
def repeating : Settings.Machine :=
  { instructions := ["boolean.xor", " registered.boolean", "boolean.erc\n"] }

/-- Vectors have no constant. -/
def unknowing : Settings.Machine :=
  { instructions := ["float.sin", " vector.erc ", "registered."] }

theorem repeating_gathers :
    (∃ v expansions, ofSettings repeating = .ok v ∧
      List.Forall₂ (fun entry slots => Stands (trimmed entry) slots) repeating.instructions
        expansions ∧ Gathers expansions v.slots ∧
      v.slots = .instruction (.boolean .xor) ::
        (ofFamily "boolean").erase (.instruction (.boolean .xor))) ∧
    ofSettings unknowing = .error (.unknownInstruction "vector.erc") ∧
      ∃ entry, FirstUnknown unknowing.instructions entry ∧ trimmed entry = "vector.erc" := by
  have gathered : ∃ v, ofSettings repeating = .ok v ∧ v.slots = .instruction (.boolean .xor) ::
      (ofFamily "boolean").erase (.instruction (.boolean .xor)) := ⟨_, rfl, by rfl⟩
  have failed : ofSettings unknowing = .error (.unknownInstruction "vector.erc") := rfl
  obtain ⟨v, made, slots⟩ := gathered
  obtain ⟨expansions, each, gathers⟩ := (ofSettings_gathers repeating).2.1 v made
  refine ⟨⟨v, expansions, made, each, gathers, slots⟩, failed, ?_⟩
  rcases (ofSettings_gathers unknowing).2.2.1 _ failed with ⟨none, -⟩ | ⟨entry, first, same⟩
  · contradiction
  · exact ⟨entry, first, (Failure.unknownInstruction.inj same).symm⟩

end Vocabulary
end SwarmEvolution
