import SwarmEvolution.Proofs.Number.Shortest
import SwarmEvolution.Proofs.Text.Lines

/-! Numbers are read back to themselves whatever layout they are written in, and so is whatever is
no number. Their text has no blanks. -/
namespace SwarmEvolution.Number

section Digits

variable {cs : List Char}

theorem isDigit_of_mem_zeros {n : Nat} {c : Char} (mem : c ∈ List.replicate n '0') :
    c.isDigit := by
  rw [List.eq_of_mem_replicate mem]
  decide

theorem isDigit_toDigits (n : Nat) : ∀ c ∈ Nat.toDigits 10 n, c.isDigit := fun _ mem =>
  Nat.isDigit_of_mem_toDigits (by decide) (by decide) mem

theorem length_toDigits (n : Nat) : (Nat.toDigits 10 n).length = digitCount n := rfl

theorem isDigit_append_zeros (digits : ∀ c ∈ cs, c.isDigit) (n : Nat) :
    ∀ c ∈ cs ++ List.replicate n '0', c.isDigit := by
  intro c mem
  rcases List.mem_append.mp mem with digit | zero
  · exact digits c digit
  · exact isDigit_of_mem_zeros zero

theorem isDigit_zeros_append (n : Nat) (digits : ∀ c ∈ cs, c.isDigit) :
    ∀ c ∈ List.replicate n '0' ++ cs, c.isDigit := by
  intro c mem
  rcases List.mem_append.mp mem with zero | digit
  · exact isDigit_of_mem_zeros zero
  · exact digits c digit

theorem digitsValue_eq (cs : List Char) : Numeral.digitsValue cs = Nat.ofDigitChars 10 cs 0 := by
  have turned : (fun (n : Nat) (c : Char) => n * 10 + (c.toNat - '0'.toNat)) =
      fun n c => 10 * n + (c.toNat - '0'.toNat) := by
    funext n c
    rw [Nat.mul_comm]
  unfold Numeral.digitsValue Nat.ofDigitChars
  rw [turned]

theorem digitsValue_toDigits (n : Nat) : Numeral.digitsValue (Nat.toDigits 10 n) = n := by
  rw [digitsValue_eq, Nat.ofDigitChars_ten_toDigits]

theorem digitsValue_append_zeros (cs : List Char) (n : Nat) :
    Numeral.digitsValue (cs ++ List.replicate n '0') = Numeral.digitsValue cs * 10 ^ n := by
  rw [digitsValue_eq, digitsValue_eq, Nat.ofDigitChars_append, Nat.ofDigitChars_replicate_zero,
    Nat.mul_comm]

theorem digitsValue_zeros_append (n : Nat) (cs : List Char) :
    Numeral.digitsValue (List.replicate n '0' ++ cs) = Numeral.digitsValue cs := by
  rw [digitsValue_eq, digitsValue_eq, Nat.ofDigitChars_append, Nat.ofDigitChars_replicate_zero,
    Nat.mul_zero]

theorem digitsValue_zero_cons (cs : List Char) :
    Numeral.digitsValue ('0' :: cs) = Numeral.digitsValue cs := digitsValue_zeros_append 1 cs

end Digits

section Powers

/-- The power of ten after the digits of a numeral, which can be left out for the zeroth. -/
inductive Power : Int → List Char → Prop
  | zeroth : Power 0 []
  | given (e : Int) : Power e ('e' :: (toString e).toList)

theorem toList_toString (e : Int) :
    (toString e).toList = (if e < 0 then ['-'] else []) ++ Nat.toDigits 10 e.natAbs := by
  rw [Int.toString_eq_repr, Int.repr_eq_if]
  by_cases negative : e < 0
  · have size : (-e).toNat = e.natAbs := by omega
    rw [if_neg (Int.not_le.mpr negative), if_pos negative, String.toList_append, Nat.toList_repr,
      size]
    rfl
  · have size : e.toNat = e.natAbs := by omega
    rw [if_pos (Int.not_lt.mp negative), if_neg negative, Nat.toList_repr, size]
    rfl

theorem splitSign_of_isDigit {c : Char} (digit : c.isDigit) (cs : List Char) :
    Numeral.splitSign (c :: cs) = (false, c :: cs) := by
  unfold Numeral.splitSign
  split
  case h_1 same => exact absurd (List.head_eq_of_cons_eq same ▸ digit) (by decide)
  case h_2 same => exact absurd (List.head_eq_of_cons_eq same ▸ digit) (by decide)
  case h_3 => rfl

theorem splitSign_toString (e : Int) :
    Numeral.splitSign (toString e).toList = (decide (e < 0), Nat.toDigits 10 e.natAbs) := by
  rw [toList_toString]
  by_cases negative : e < 0
  · rw [if_pos negative, decide_eq_true negative]
    rfl
  · rw [if_neg negative, decide_eq_false negative, List.nil_append]
    have some := Nat.toDigits_ne_nil (n := e.natAbs) (b := 10)
    obtain ⟨c, cs, same⟩ := List.exists_cons_of_ne_nil some
    have digit : c.isDigit := isDigit_toDigits e.natAbs c (same ▸ List.mem_cons_self)
    rw [same, splitSign_of_isDigit digit]

variable {e : Int} {rest : List Char}

theorem Power.exponent? (power : Power e rest) : Numeral.exponent? rest = some e := by
  cases power with
  | zeroth => rfl
  | given =>
    have digits := List.all_eq_true.mpr (isDigit_toDigits e.natAbs)
    have some := List.isEmpty_eq_false_iff.mpr (Nat.toDigits_ne_nil (n := e.natAbs) (b := 10))
    have read : (if decide (e < 0) = true then -(e.natAbs : Int) else e.natAbs) = e := by
      by_cases negative : e < 0
      · rw [if_pos (decide_eq_true negative)]
        omega
      · rw [if_neg (by rw [decide_eq_false negative]; exact Bool.false_ne_true)]
        omega
    unfold Numeral.exponent?
    dsimp only
    rw [splitSign_toString]
    dsimp only
    rw [some, digits, digitsValue_toDigits, read]
    rfl

/-- Digits end where a power of ten begins. -/
theorem Power.span (power : Power e rest) {digits : List Char} (all : ∀ c ∈ digits, c.isDigit) :
    (digits ++ rest).takeWhile Char.isDigit = digits ∧
      (digits ++ rest).dropWhile Char.isDigit = rest := by
  rw [List.takeWhile_append_of_pos all, List.dropWhile_append_of_pos all]
  cases power with
  | zeroth => exact ⟨List.append_nil digits, rfl⟩
  | given =>
    have letter : ¬ Char.isDigit 'e' := by decide
    rw [List.takeWhile_cons_of_neg letter, List.dropWhile_cons_of_neg letter, List.append_nil]
    exact ⟨rfl, rfl⟩

theorem Power.mem (power : Power e rest) {c : Char} (mem : c ∈ rest) :
    c.isDigit ∨ c = 'e' ∨ c = '-' := by
  cases power with
  | zeroth => contradiction
  | given =>
    rw [List.mem_cons, toList_toString, List.mem_append] at mem
    rcases mem with letter | sign | digit
    · exact .inr (.inl letter)
    · split at sign
      case isTrue => exact .inr (.inr (List.mem_singleton.mp sign))
      case isFalse => contradiction
    · exact .inl (isDigit_toDigits _ c digit)

end Powers

section Reading

variable {whole places rest : List Char} {e : Int} (digits : ∀ c ∈ whole, c.isDigit)
  (some : whole ≠ []) (power : Power e rest)

include digits some power

theorem decimal?_whole :
    Numeral.decimal? (whole ++ rest) = .some ⟨Numeral.digitsValue whole, e⟩ := by
  obtain ⟨taken, dropped⟩ := power.span digits
  have read := power.exponent?
  unfold Numeral.decimal?
  rw [taken, dropped]
  cases power with
  | zeroth => simp [some, read]
  | given =>
    generalize (toString e).toList = text at read
    simp [some, read]

theorem decimal?_places (after : ∀ c ∈ places, c.isDigit) :
    Numeral.decimal? (whole ++ '.' :: (places ++ rest)) =
      .some ⟨Numeral.digitsValue (whole ++ places), e - places.length⟩ := by
  have pointed : ¬ Char.isDigit '.' := by decide
  obtain ⟨taken, dropped⟩ := power.span after
  unfold Numeral.decimal?
  rw [List.takeWhile_append_of_pos digits, List.dropWhile_append_of_pos digits,
    List.takeWhile_cons_of_neg pointed, List.dropWhile_cons_of_neg pointed, List.append_nil]
  simp [some, taken, dropped, power.exponent?]

end Reading

section Layouts

/-- The digits of a decimal, maybe with zeros before and after them, with a point where places
follow and with a power of ten. -/
inductive Spelt (d : Decimal) : List Char → Prop
  | whole {whole rest : List Char} {e : Int} (zeros : Nat) (digits : ∀ c ∈ whole, c.isDigit)
    (some : whole ≠ []) (power : Power e rest)
    (value : ⟨Numeral.digitsValue whole, e⟩ = d.padded zeros) : Spelt d (whole ++ rest)
  | places {whole places rest : List Char} {e : Int} (zeros : Nat)
    (digits : ∀ c ∈ whole, c.isDigit) (some : whole ≠ []) (after : ∀ c ∈ places, c.isDigit)
    (power : Power e rest)
    (value : ⟨Numeral.digitsValue (whole ++ places), e - places.length⟩ = d.padded zeros) :
    Spelt d (whole ++ '.' :: (places ++ rest))

variable {d : Decimal} {text : List Char}

theorem Spelt.decimal? (spelt : Spelt d text) :
    ∃ zeros, Numeral.decimal? text = some (d.padded zeros) := by
  cases spelt with
  | whole zeros digits some power value => exact ⟨zeros, value ▸ decimal?_whole digits some power⟩
  | places zeros digits some after power value =>
    exact ⟨zeros, value ▸ decimal?_places digits some power after⟩

theorem Spelt.exists_cons (spelt : Spelt d text) : ∃ c cs, text = c :: cs ∧ c.isDigit := by
  cases spelt with
  | whole _ digits some =>
    obtain ⟨c, cs, rfl⟩ := List.exists_cons_of_ne_nil some
    exact ⟨c, _, rfl, digits c List.mem_cons_self⟩
  | places _ digits some =>
    obtain ⟨c, cs, rfl⟩ := List.exists_cons_of_ne_nil some
    exact ⟨c, _, rfl, digits c List.mem_cons_self⟩

theorem Spelt.mem (spelt : Spelt d text) {c : Char} (mem : c ∈ text) :
    c.isDigit ∨ c = '.' ∨ c = 'e' ∨ c = '-' := by
  have ends {e : Int} {rest : List Char} (power : Power e rest) (mem : c ∈ rest) :
      c.isDigit ∨ c = '.' ∨ c = 'e' ∨ c = '-' := (power.mem mem).imp_right .inr
  cases spelt with
  | whole _ digits _ power =>
    rcases List.mem_append.mp mem with before | mem
    · exact .inl (digits c before)
    · exact ends power mem
  | places _ digits _ after power =>
    rcases List.mem_append.mp mem with before | mem
    · exact .inl (digits c before)
    · rcases List.mem_cons.mp mem with point | mem
      · exact .inr (.inl point)
      · rcases List.mem_append.mp mem with place | mem
        · exact .inl (after c place)
        · exact ends power mem

variable {pointed : Bool}

theorem spelt_fixed_below (below : d.point ≤ 0) :
    Spelt d (Layout.fixed pointed (Nat.toDigits 10 d.digits) d.point) := by
  have zero : ∀ c ∈ ['0'], c.isDigit := fun _ => isDigit_of_mem_zeros (n := 1)
  have digits := isDigit_zeros_append (-d.point).toNat (isDigit_toDigits d.digits)
  have exponent : 0 - ((((-d.point).toNat + digitCount d.digits : Nat)) : Int) = d.exponent := by
    unfold Decimal.point at below ⊢
    omega
  unfold Layout.fixed
  rw [if_pos below, ← List.append_nil (_ :: _ :: _ ++ _)]
  change Spelt d (['0'] ++ '.' :: (List.replicate _ '0' ++ _ ++ []))
  refine .places 0 zero (List.cons_ne_nil _ _) digits .zeroth ?_
  rw [List.singleton_append, digitsValue_zero_cons, digitsValue_zeros_append, digitsValue_toDigits,
    List.length_append, List.length_replicate, length_toDigits, exponent, Decimal.padded_zero]

theorem spelt_fixed_beyond (beyond : digitCount d.digits ≤ d.point.toNat) :
    Spelt d (Layout.fixed pointed (Nat.toDigits 10 d.digits) d.point) := by
  have first : 0 < digitCount d.digits := Nat.length_toDigits_pos
  have whole : (d.exponent.toNat : Int) = d.exponent ∧
      d.point.toNat - digitCount d.digits = d.exponent.toNat := by
    unfold Decimal.point at beyond ⊢
    omega
  have digits := isDigit_append_zeros (isDigit_toDigits d.digits) d.exponent.toNat
  have some := List.append_ne_nil_of_left_ne_nil (Nat.toDigits_ne_nil (n := d.digits) (b := 10))
    (List.replicate d.exponent.toNat '0')
  unfold Layout.fixed
  rw [if_neg (by omega), length_toDigits, if_pos beyond, whole.2]
  cases pointed with
  | false =>
    change Spelt d (_ ++ List.replicate _ '0' ++ [])
    refine .whole d.exponent.toNat digits some .zeroth ?_
    rw [digitsValue_append_zeros, digitsValue_toDigits, Decimal.padded, whole.1, Int.sub_self]
  | true =>
    have pushed : d.exponent - ((d.exponent.toNat + 1 : Nat) : Int) = 0 - ((1 : Nat) : Int) := by
      omega
    change Spelt d (_ ++ List.replicate _ '0' ++ '.' :: (List.replicate 1 '0' ++ []))
    refine .places (d.exponent.toNat + 1) digits some (fun _ => isDigit_of_mem_zeros) .zeroth ?_
    rw [digitsValue_append_zeros, digitsValue_append_zeros, digitsValue_toDigits, Nat.mul_assoc,
      ← Nat.pow_add, List.length_replicate, Decimal.padded, pushed]

theorem spelt_fixed_among (above : 0 < d.point) (among : d.point.toNat < digitCount d.digits) :
    Spelt d (Layout.fixed pointed (Nat.toDigits 10 d.digits) d.point) := by
  have digits := isDigit_toDigits d.digits
  have some : (Nat.toDigits 10 d.digits).take d.point.toNat ≠ [] := by
    intro empty
    rcases List.take_eq_nil_iff.mp empty with zero | none
    · omega
    · exact Nat.toDigits_ne_nil none
  have exponent : 0 - ((digitCount d.digits - d.point.toNat : Nat) : Int) = d.exponent := by
    unfold Decimal.point at above among ⊢
    omega
  unfold Layout.fixed
  rw [if_neg (Int.not_le.mpr above), length_toDigits, if_neg (Nat.not_le.mpr among),
    ← List.append_nil (List.drop _ _)]
  refine .places 0 (fun c mem => digits c (List.mem_of_mem_take mem)) some
    (fun c mem => digits c (List.mem_of_mem_drop mem)) .zeroth ?_
  rw [List.take_append_drop, digitsValue_toDigits, List.length_drop, length_toDigits, exponent,
    Decimal.padded_zero]

theorem spelt_fixed (pointed : Bool) (d : Decimal) :
    Spelt d (Layout.fixed pointed (Nat.toDigits 10 d.digits) d.point) := by
  by_cases below : d.point ≤ 0
  · exact spelt_fixed_below below
  · by_cases beyond : digitCount d.digits ≤ d.point.toNat
    · exact spelt_fixed_beyond beyond
    · exact spelt_fixed_among (Int.not_le.mp below) (Nat.not_le.mp beyond)

theorem spelt_scientific (d : Decimal) :
    Spelt d (Layout.scientific (Nat.toDigits 10 d.digits) d.point) := by
  have digits := isDigit_toDigits d.digits
  have value := digitsValue_toDigits d.digits
  have length := length_toDigits d.digits
  obtain ⟨first, places, same⟩ :=
    List.exists_cons_of_ne_nil (Nat.toDigits_ne_nil (n := d.digits) (b := 10))
  have point : d.point = places.length + 1 + d.exponent := by
    unfold Decimal.point
    rw [← length, same, List.length_cons]
    omega
  rw [same] at digits value ⊢
  obtain ⟨leading, after⟩ := List.forall_mem_cons.mp digits
  have lead : ∀ c ∈ [first], c.isDigit := List.forall_mem_singleton.mpr leading
  cases places with
  | nil =>
    have exponent : d.point - 1 = d.exponent := by rw [point]; simp
    change Spelt d ([first] ++ 'e' :: (toString (d.point - 1)).toList)
    refine .whole 0 lead (List.cons_ne_nil _ _) (.given (d.point - 1)) ?_
    rw [value, exponent, Decimal.padded_zero]
  | cons second places =>
    have exponent : d.point - 1 - ((second :: places).length : Int) = d.exponent := by
      rw [point]
      omega
    change Spelt d ([first] ++ '.' :: (second :: places ++ 'e' :: (toString (d.point - 1)).toList))
    refine .places 0 lead (List.cons_ne_nil _ _) after (.given (d.point - 1)) ?_
    rw [exponent, List.singleton_append, value, Decimal.padded_zero]

theorem spelt_size (l : Layout) (d : Decimal) : Spelt d (l.size d) := by
  unfold Layout.size
  dsimp only
  split
  case isTrue => exact spelt_fixed l.pointed d
  case isFalse => exact spelt_scientific d

/-- A number that keeps a place after the point cannot be taken for an integer. -/
theorem marked_size {l : Layout} (pointed : l.pointed = true) (d : Decimal) :
    '.' ∈ l.size d ∨ 'e' ∈ l.size d := by
  unfold Layout.size
  dsimp only
  split
  case isTrue =>
    refine .inl ?_
    unfold Layout.fixed
    rw [pointed]
    split
    · simp
    · split
      · simp
      · simp
  case isFalse =>
    refine .inr ?_
    unfold Layout.scientific
    simp

theorem toList_render_finite (l : Layout) (negative : Bool) (d : Decimal) :
    (l.render (.finite negative d)).toList = (if negative then ['-'] else []) ++ l.size d :=
  String.toList_ofList

end Layouts

section Texts

theorem toNat_of_isDigit {c : Char} (digit : c.isDigit) : 48 ≤ c.toNat ∧ c.toNat ≤ 57 := by
  simp only [Char.isDigit, Bool.and_eq_true, decide_eq_true_eq, UInt32.le_iff_toNat_le] at digit
  exact digit

theorem toLower_of_isDigit {c : Char} (digit : c.isDigit) : c.toLower = c := by
  unfold Char.toLower
  rw [dif_neg]
  rintro ⟨upper, -⟩
  exact absurd (Nat.le_trans upper (toNat_of_isDigit digit).2) (by decide)

theorem not_isBlank_of_isDigit {c : Char} (digit : c.isDigit) : ¬ Text.isBlank c := by
  obtain ⟨low, high⟩ := toNat_of_isDigit digit
  unfold Text.isBlank
  simp only [Bool.or_eq_true, Bool.and_eq_true, decide_eq_true_eq, beq_iff_eq]
  omega

theorem read?_of_splitSign {text cs : List Char} {c : Char} {negative : Bool} (digit : c.isDigit)
    (split : Numeral.splitSign text = (negative, c :: cs)) :
    Numeral.read? text = (Numeral.decimal? (c :: cs)).map (.finite negative) := by
  have other (letter : Char) (rest : List Char) (noDigit : ¬ letter.isDigit) :
      String.ofList ((c :: cs).map Char.toLower) ≠ String.ofList (letter :: rest) := by
    intro same
    have first := List.head_eq_of_cons_eq (String.ofList_injective same)
    rw [toLower_of_isDigit digit] at first
    exact noDigit (first ▸ digit)
  unfold Numeral.read?
  rw [split]
  dsimp only
  split
  case h_1 same => exact absurd same (other 'i' "nf".toList (by decide))
  case h_2 same => exact absurd same (other 'i' "nfinity".toList (by decide))
  case h_3 same => exact absurd same (other 'n' "an".toList (by decide))
  case h_4 => rfl

variable {l : Layout}

/-- A value is read back, up to zeros at the end of its digits. -/
theorem read?_render_finite (l : Layout) (negative : Bool) (d : Decimal) :
    ∃ zeros, Numeral.read? (l.render (.finite negative d)).toList =
      some (.finite negative (d.padded zeros)) := by
  have spelt := spelt_size l d
  obtain ⟨zeros, read⟩ := spelt.decimal?
  obtain ⟨c, cs, same, digit⟩ := spelt.exists_cons
  refine ⟨zeros, ?_⟩
  rw [toList_render_finite, same]
  rw [same] at read
  cases negative with
  | false =>
    change Numeral.read? (c :: cs) = _
    rw [read?_of_splitSign digit (splitSign_of_isDigit digit cs), read]
    rfl
  | true =>
    change Numeral.read? ('-' :: c :: cs) = _
    rw [read?_of_splitSign digit rfl, read]
    rfl

/-- What a numeral is written as stands for the same pattern. Whatever is no number is written as
one without a sign. -/
theorem ofNumeral_read?_render
    (undefined : Numeral.read? l.undefined.toList = some (.undefined false)) {n : Numeral}
    (unsigned : n ≠ .undefined true) :
    (Numeral.read? (l.render n).toList).map Format.single.ofNumeral =
      some (Format.single.ofNumeral n) := by
  cases n with
  | finite negative d =>
    obtain ⟨zeros, read⟩ := read?_render_finite l negative d
    rw [read, Option.map_some, Format.ofNumeral, Format.ofNumeral, Decimal.ofDecimal_padded]
  | infinite negative =>
    have read : Numeral.read? (l.render (.infinite negative)).toList =
        some (.infinite negative) := by
      cases negative with
      | false =>
        change Numeral.read? "inf".toList = _
        rfl
      | true =>
        change Numeral.read? "-inf".toList = _
        rfl
    rw [read, Option.map_some]
  | undefined negative =>
    cases negative with
    | false =>
      change (Numeral.read? l.undefined.toList).map _ = _
      rw [undefined, Option.map_some]
    | true => contradiction

end Texts

section Numbers

variable {x : Float32}

theorem numeral_of_lt {bits : Nat} (finite : magnitudeOf bits < Format.single.infinity) :
    Format.single.numeral bits = .finite (Format.single.signBit ≤ bits)
      (Format.single.shortest (magnitudeOf bits)) :=
  if_pos finite

theorem numeral_of_eq {bits : Nat} (infinite : magnitudeOf bits = Format.single.infinity) :
    Format.single.numeral bits = .infinite (Format.single.signBit ≤ bits) :=
  (if_neg (Nat.not_lt.mpr (Nat.le_of_eq infinite.symm))).trans (if_pos infinite)

theorem sign_add_magnitudeOf {bits : Nat} (range : bits < 2 ^ 32) :
    (if decide (Format.single.signBit ≤ bits) then Format.single.signBit else 0) +
      magnitudeOf bits = bits := by
  have value : Format.single.signBit = 2 ^ 31 := rfl
  unfold magnitudeOf
  rw [value]
  by_cases negative : 2 ^ 31 ≤ bits
  · rw [if_pos (decide_eq_true negative)]
    omega
  · rw [if_neg (by rw [decide_eq_true_eq]; exact negative)]
    omega

theorem ofNumeral_numeral {bits : Nat} (range : bits < 2 ^ 32)
    (number : magnitudeOf bits ≤ Format.single.infinity) :
    Format.single.ofNumeral (Format.single.numeral bits) = bits := by
  rcases Nat.lt_or_eq_of_le number with finite | last
  · rw [numeral_of_lt finite, Format.ofNumeral, ofDecimal_shortest finite,
      sign_add_magnitudeOf range]
  · rw [numeral_of_eq last, Format.ofNumeral, ← last, sign_add_magnitudeOf range]

theorem numeral_ne_undefined {bits : Nat} (number : magnitudeOf bits ≤ Format.single.infinity)
    (negative : Bool) : Format.single.numeral bits ≠ .undefined negative := by
  intro same
  rcases Nat.lt_or_eq_of_le number with finite | last
  · rw [numeral_of_lt finite] at same
    contradiction
  · rw [numeral_of_eq last] at same
    contradiction

/-- The text of a number is read back to it. -/
theorem read?_render {l : Layout}
    (undefined : Numeral.read? l.undefined.toList = some (.undefined false)) (x : Float32) :
    read? (render l x) = some x := by
  by_cases nan : x.isNaN
  · rw [Float32.isNaN_eq_decide_eq_nan] at nan
    obtain rfl := of_decide_eq_true nan
    change (Numeral.read? l.undefined.toList).map ofNumeral = _
    rw [undefined]
    rfl
  · have number := isNaN_eq_false_iff.mp (Bool.eq_false_iff.mpr nan)
    have read := ofNumeral_read?_render undefined (numeral_ne_undefined number true)
    rw [ofNumeral_numeral x.toBits.toNat_lt number] at read
    obtain ⟨n, spelt, value⟩ := Option.map_eq_some_iff.mp read
    unfold read? render
    rw [spelt, Option.map_some, ofNumeral, value, UInt32.ofNat_toNat, Float32.ofBits_toBits]

theorem mem_render_finite {l : Layout} {negative : Bool} {d : Decimal} {c : Char}
    (mem : c ∈ (l.render (.finite negative d)).toList) :
    c.isDigit ∨ c = '.' ∨ c = 'e' ∨ c = '-' := by
  rw [toList_render_finite, List.mem_append] at mem
  rcases mem with sign | rest
  · cases negative with
    | false => contradiction
    | true => exact .inr (.inr (.inr (List.mem_singleton.mp sign)))
  · exact (spelt_size l d).mem rest

/-- The text of a number is one word. -/
theorem plain_word (x : Float32) : Text.Word (render .plain x).toList := by
  constructor
  · intro empty
    have read : read? (render .plain x) = some x := read?_render rfl x
    unfold read? at read
    rw [empty] at read
    contradiction
  · have letters (text : String) (name : text.toList.all fun c => !Text.isBlank c) :
        ∀ c ∈ text.toList, ¬ Text.isBlank c := by
      intro c mem
      rw [Bool.not_eq_true, ← Bool.not_eq_true']
      exact List.all_eq_true.mp name c mem
    unfold render
    cases Format.single.numeral x.toBits.toNat with
    | finite negative d =>
      intro c mem
      rcases mem_render_finite mem with digit | rfl | rfl | rfl
      · exact not_isBlank_of_isDigit digit
      · decide
      · decide
      · decide
    | infinite negative =>
      cases negative with
      | false => exact letters "inf" rfl
      | true => exact letters "-inf" rfl
    | undefined => exact letters "NaN" rfl

end Numbers

end SwarmEvolution.Number
