import SwarmEvolution.Text.Blank

/-! Words put together with blanks and lines put together with line feeds come apart again. -/
namespace SwarmEvolution.Text

/-- What can stand between blanks. -/
structure Word (cs : List Char) : Prop where
  nonempty : cs ≠ []
  unblank : ∀ c ∈ cs, ¬ isBlank c

section Words

variable {cs rest : List Char}

theorem words_cons_blank {c : Char} (blank : isBlank c) : words (c :: rest) = words rest := by
  rw [words.eq_def]
  exact if_pos blank

/-- A word ends where the text does and before a blank. -/
theorem Word.words_append (word : Word cs) (ends : ∀ c ∈ rest.head?, isBlank c) :
    words (cs ++ rest) = cs :: words rest := by
  obtain ⟨nonempty, unblank⟩ := word
  induction cs with
  | nil => contradiction
  | cons first cs ih =>
    have full := unblank first List.mem_cons_self
    rw [List.cons_append, words.eq_def]
    dsimp only
    rw [if_neg full]
    cases cs with
    | nil =>
      cases rest with
      | nil => rfl
      | cons c rest =>
        have blank := ends c rfl
        rw [List.nil_append, words_cons_blank blank]
        cases words rest with
        | nil => rfl
        | cons w ws => exact if_pos blank
    | cons second cs =>
      have next := unblank second (List.mem_cons_of_mem _ List.mem_cons_self)
      rw [ih (List.cons_ne_nil _ _) fun c mem => unblank c (List.mem_cons_of_mem _ mem),
        List.cons_append]
      exact if_neg next

theorem words_intercalate {ws : List (List Char)} (all : ∀ w ∈ ws, Word w) :
    words (List.intercalate [' '] ws) = ws := by
  induction ws with
  | nil => rfl
  | cons w ws ih =>
    have word := all w List.mem_cons_self
    cases ws with
    | nil =>
      have alone : words (w ++ []) = w :: words [] := word.words_append fun _ mem => nomatch mem
      rw [List.append_nil] at alone
      rw [List.intercalate_singleton, alone]
      rfl
    | cons next ws =>
      have others := ih fun v mem => all v (List.mem_cons_of_mem _ mem)
      rw [List.intercalate_cons_cons, List.append_assoc, word.words_append,
        List.singleton_append, words_cons_blank (by decide), others]
      intro c mem
      cases mem
      decide

theorem words_eq_nil (blank : ∀ c ∈ cs, isBlank c) : words cs = [] := by
  induction cs with
  | nil => rfl
  | cons c cs ih =>
    rw [words_cons_blank (blank c List.mem_cons_self)]
    exact ih fun d mem => blank d (List.mem_cons_of_mem _ mem)

theorem Word.feed_not_mem (word : Word cs) : '\n' ∉ cs := fun mem =>
  word.unblank _ mem (by decide)

theorem feed_not_mem_intercalate {ws : List (List Char)} (all : ∀ w ∈ ws, Word w) :
    '\n' ∉ List.intercalate [' '] ws := by
  induction ws with
  | nil => exact List.not_mem_nil
  | cons w ws ih =>
    have word := (all w List.mem_cons_self).feed_not_mem
    have others := ih fun v mem => all v (List.mem_cons_of_mem _ mem)
    cases ws with
    | nil => rwa [List.intercalate_singleton]
    | cons next ws =>
      rw [List.intercalate_cons_cons]
      intro mem
      rcases List.mem_append.mp mem with before | after
      · rcases List.mem_append.mp before with within | between
        · exact word within
        · exact absurd (List.mem_singleton.mp between) (by decide)
      · exact others after

end Words

section Lines

theorem lines_append {line : List Char} (within : '\n' ∉ line) (rest : List Char) :
    lines (line ++ '\n' :: rest) = line :: lines rest := by
  induction line with
  | nil => rfl
  | cons c line ih =>
    rw [List.mem_cons, not_or] at within
    rw [List.cons_append, lines.eq_def]
    dsimp only
    rw [if_neg (Ne.symm within.1), ih within.2]

theorem lines_flatMap {ls : List (List Char)} (within : ∀ l ∈ ls, '\n' ∉ l) :
    lines (ls.flatMap (· ++ ['\n'])) = ls := by
  induction ls with
  | nil => rfl
  | cons l ls ih =>
    rw [List.flatMap_cons, List.append_assoc, List.singleton_append,
      lines_append (within l List.mem_cons_self),
      ih fun k mem => within k (List.mem_cons_of_mem _ mem)]

end Lines

end SwarmEvolution.Text
