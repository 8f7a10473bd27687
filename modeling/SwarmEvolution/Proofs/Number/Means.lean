import SwarmEvolution.Proofs.Number.Double

/-! Means of single-precision numbers that are summed in double precision. A mean of numbers is a
number however many there are, but it may be beyond the range: sums of the largest number are exact
up to `2 ^ 29 + 2 ^ 5` terms, and from then on every term counts as the next power of two. Opposite
infinities have no mean. -/
namespace SwarmEvolution.Number.Double

section Means

variable {side negative : Bool} {magnitude count : Nat} {xs : List Float32}

theorem Bounded.number {bound : Nat} {y : Double} (own : y.Bounded side bound) :
    y ≠ .notANumber := by
  cases own with
  | finite => simp
  | infinite => simp

theorem dividedBy_number {y : Double} (number : y ≠ .notANumber) :
    y.dividedBy count ≠ .notANumber := by
  cases y with
  | notANumber => contradiction
  | infinite => exact number
  | finite s m =>
    change ofSize s _ ≠ .notANumber
    unfold ofSize
    split
    · simp
    · simp

theorem map_ofSingle_bounded (small : magnitude < Format.single.infinity)
    (each : ∀ x ∈ xs, UpTo side magnitude x) :
    ∀ y ∈ xs.map ofSingle, y.Bounded side (extent magnitude * 2 ^ 925) := by
  intro y member
  obtain ⟨x, among, rfl⟩ := List.mem_map.mp member
  exact ofSingle_bounded small (each x among)

/-- The mean of numbers that are bounded on one side is a number, however many there are. -/
theorem mean_number (small : magnitude < Format.single.infinity)
    (each : ∀ x ∈ xs, UpTo side magnitude x) :
    ((sum (.finite negative 0) (xs.map ofSingle)).dividedBy count).toSingle.isNaN = false := by
  have first : (Double.finite negative 0).Bounded side (2 ^ (52 + (279 + 925))) :=
    .finite fun _ => Nat.zero_le _
  have summed :=
    sum_absorbed (by decide) (extent_lt small 925) first (map_ofSingle_bounded small each)
  exact toSingle_number (dividedBy_number summed.number)

theorem nearest_zero {den : Nat} (positive : 0 < den) : nearest 0 den = 0 := by
  have zero : nearest 0 den ≤ 0 * 2 ^ 0 := nearest_le positive (by decide) (Nat.zero_le _)
  omega

/-- Numbers that are all on one side of zero have their mean on that side. -/
theorem mean_upTo_zero (positive : 0 < count) (each : ∀ x ∈ xs, UpTo side 0 x) :
    UpTo side 0 ((sum (.finite negative 0) (xs.map ofSingle)).dividedBy count).toSingle := by
  have nothing : extent 0 = 0 := by simp [extent, Format.parts]
  have one : 2 ^ 0 < limit := two_pow_lt_limit (by decide)
  have inside : 0 < limit := Nat.lt_trans Nat.one_pos one
  have terms := map_ofSingle_bounded (by decide) each
  rw [nothing, Nat.zero_mul] at terms
  have rounds : ∀ den, 0 < den → ∀ num ≤ 0, nearest num den ≤ 0 := by
    intro den some num none
    rw [Nat.le_zero.mp none, nearest_zero some]
  have first : (Double.finite negative 0).Bounded side 0 := .finite fun _ => Nat.le_refl _
  have summed := sum_bounded (fun _ => 0) (fun _ _ => ⟨inside, rounds 1 Nat.one_pos⟩) first terms
  have near : ∀ finer, 2 * 0 < midpoint 0 * 2 ^ finer := by
    intro finer
    simp [midpoint, Format.parts]
  exact toSingle_upTo (near 925)
    (dividedBy_bounded inside (rounds _ (nearest_pos positive)) summed)

end Means

section Infinities

variable {side : Bool} {xs : List Double}

theorem add_infinite (x : Double) (side : Bool) :
    x.add (.infinite side) = .infinite side ∨ x.add (.infinite side) = .notANumber := by
  cases x with
  | finite => exact .inl rfl
  | notANumber => exact .inr rfl
  | infinite other =>
    by_cases same : other = side
    · exact .inl (by rw [add, if_pos same, same])
    · exact .inr (by rw [add, if_neg same])

theorem sum_notANumber (xs : List Double) : sum .notANumber xs = .notANumber := by
  induction xs with
  | nil => rfl
  | cons x xs ih =>
    cases x with
    | finite => exact ih
    | infinite => exact ih
    | notANumber => exact ih

/-- An infinite sum stays infinite until it meets what is no number or the opposite infinity. -/
theorem sum_opposite (met : .infinite (!side) ∈ xs) :
    sum (.infinite side) xs = .notANumber := by
  induction xs with
  | nil => contradiction
  | cons x xs ih =>
    change sum ((Double.infinite side).add x) xs = _
    cases x with
    | finite => exact ih (List.mem_of_ne_of_mem (by simp) met)
    | notANumber => exact sum_notANumber xs
    | infinite other =>
      by_cases same : side = other
      · rw [add, if_pos same]
        exact ih (List.mem_of_ne_of_mem (by simp [← same]) met)
      · rw [add, if_neg same]
        exact sum_notANumber xs

theorem sum_infinities (start : Double) (positive : .infinite false ∈ xs)
    (negative : .infinite true ∈ xs) : sum start xs = .notANumber := by
  induction xs generalizing start with
  | nil => contradiction
  | cons x xs ih =>
    have first : ∀ side, x = .infinite side → .infinite (!side) ∈ xs →
        sum start (x :: xs) = .notANumber := by
      rintro side rfl later
      change sum (start.add (.infinite side)) xs = _
      rcases add_infinite start side with infinite | lost
      · rw [infinite, sum_opposite later]
      · rw [lost, sum_notANumber]
    rcases List.mem_cons.mp positive with same | positive
    · exact first false same.symm (List.mem_of_ne_of_mem (by simp [← same]) negative)
    rcases List.mem_cons.mp negative with same | negative
    · exact first true same.symm positive
    · exact ih _ positive negative

end Infinities

section Largest

/-- What so many largest numbers come to, in units of the last digit of the largest number. -/
def largestSum (count : Nat) : Nat := count * 2 ^ 24 - min count (2 ^ 29 + 2 ^ 5)

variable {side : Bool} {count power : Nat} {start : Double} {xs : List Double}

theorem largestSum_mono {few many : Nat} (order : few ≤ many) :
    largestSum few ≤ largestSum many := by
  unfold largestSum
  omega

/-- Sums of so many terms have few digits, or they end in zeros. -/
theorem largestSum_digits (few : count ≤ 2 ^ 33) :
    ∃ digits zeros, largestSum count = digits * 2 ^ zeros ∧ digits < 2 ^ 53 := by
  unfold largestSum
  by_cases exact : count ≤ 2 ^ 29 + 2 ^ 5
  · exact ⟨count * (2 ^ 24 - 1), 0, by omega, by omega⟩
  · exact ⟨count * 2 ^ 19 - (2 ^ 24 + 1), 5, by omega, by omega⟩

theorem nearest_largestSum {num : Nat} (few : count < 2 ^ 33)
    (bound : num ≤ largestSum count * 2 ^ power + (2 ^ 24 - 1) * 2 ^ power) :
    nearest num 1 ≤ largestSum (count + 1) * 2 ^ power := by
  have next : largestSum count + (2 ^ 24 - 1) ≤ largestSum (count + 1) := by
    unfold largestSum
    omega
  have reached := Nat.mul_le_mul_right (2 ^ power) next
  rw [Nat.add_mul] at reached
  have low := Nat.le_trans bound reached
  obtain ⟨digits, zeros, whole, short⟩ := largestSum_digits (show count + 1 ≤ 2 ^ 33 from few)
  rw [whole, Nat.mul_assoc, ← Nat.pow_add] at low ⊢
  refine nearest_le Nat.one_pos short ?_
  rwa [Nat.mul_one]

theorem largestSum_lt_limit (range : power < 2000) (few : count ≤ 2 ^ 33) :
    largestSum count * 2 ^ power < limit := by
  have small : largestSum count < 2 ^ 58 := by
    unfold largestSum
    omega
  refine Nat.lt_trans ?_ (two_pow_lt_limit (show 58 + power < 2098 by omega))
  rw [Nat.pow_add]
  exact Nat.mul_lt_mul_of_pos_right small (Nat.two_pow_pos power)

/-- The mean of numbers up to the largest one is below the middle between it and the next power of
two, if there are not too many of them. -/
theorem mean_bounded_largest (range : power < 1900) (positive : 0 < count)
    (few : count < 2 ^ 30 + 62) (length : xs.length ≤ count) (first : start.Bounded side 0)
    (each : ∀ x ∈ xs, x.Bounded side ((2 ^ 24 - 1) * 2 ^ (29 + power))) :
    ((sum start xs).dividedBy count).Bounded side (((2 ^ 25 - 1) * 2 ^ 28 - 1) * 2 ^ power) := by
  have summed : (sum start xs).Bounded side (largestSum xs.length * 2 ^ (29 + power)) := by
    refine sum_bounded (fun k => largestSum k * 2 ^ (29 + power)) (fun k below => ?_) ?_ each
    · exact ⟨largestSum_lt_limit (by omega) (by omega), fun num => nearest_largestSum (by omega)⟩
    · simpa [largestSum] using first
  have inside : ((2 ^ 25 - 1) * 2 ^ 28 - 1) * 2 ^ power < limit := by
    refine Nat.lt_trans ?_ (two_pow_lt_limit (show 53 + power < 2098 by omega))
    rw [Nat.pow_add]
    exact Nat.mul_lt_mul_of_pos_right (by decide) (Nat.two_pow_pos power)
  refine dividedBy_bounded inside (fun num within => ?_) summed
  rw [nearest_count (by omega)]
  refine nearest_le_of_lt positive (by decide) (by decide) ?_
  have most : 2 * (largestSum xs.length * 2 ^ 29) <
      (2 * ((2 ^ 25 - 1) * 2 ^ 28 - 1) + 1) * count := by
    have mono := largestSum_mono length
    unfold largestSum at mono ⊢
    omega
  calc 2 * num ≤ 2 * (largestSum xs.length * 2 ^ (29 + power)) := Nat.mul_le_mul_left 2 within
    _ = 2 * (largestSum xs.length * 2 ^ 29) * 2 ^ power := by
        rw [Nat.pow_add, Nat.mul_assoc 2, Nat.mul_assoc (largestSum xs.length)]
    _ < (2 * ((2 ^ 25 - 1) * 2 ^ 28 - 1) + 1) * count * 2 ^ power :=
        Nat.mul_lt_mul_of_pos_right most (Nat.two_pow_pos power)
    _ = (2 * ((2 ^ 25 - 1) * 2 ^ 28 - 1) + 1) * 2 ^ power * count := Nat.mul_right_comm ..

theorem extent_largest (finer : Nat) : extent (Format.single.infinity - 1) * 2 ^ finer =
    (2 ^ 24 - 1) * 2 ^ (29 + (224 + finer)) := by
  have parts : Format.single.parts (Format.single.infinity - 1) = (2 ^ 24 - 1, 253) := rfl
  have powers : 29 + (224 + finer) = 253 + finer := by omega
  rw [extent, parts, powers, Nat.pow_add, Nat.mul_assoc]

theorem lt_midpoint_largest (finer : Nat) : 2 * (((2 ^ 25 - 1) * 2 ^ 28 - 1) * 2 ^ (224 + finer)) <
    midpoint (Format.single.infinity - 1) * 2 ^ finer := by
  have parts : Format.single.parts (Format.single.infinity - 1) = (2 ^ 24 - 1, 253) := rfl
  have wide : (2 * (2 ^ 24 - 1) + 1) * 2 ^ 253 * 2 ^ finer =
      (2 ^ 25 - 1) * 2 ^ 29 * 2 ^ (224 + finer) := by
    rw [Nat.mul_assoc, Nat.mul_assoc, ← Nat.pow_add, ← Nat.pow_add]
    congr 2
    omega
  rw [midpoint, parts, wide, ← Nat.mul_assoc]
  exact Nat.mul_lt_mul_of_pos_right (by decide) (Nat.two_pow_pos _)

/-- The mean of up to `2 ^ 30 + 61` numbers that are no larger than the largest one is no larger
either. -/
theorem mean_upTo_largest {negative : Bool} {xs : List Float32} (positive : 0 < count)
    (few : count < 2 ^ 30 + 62) (length : xs.length ≤ count)
    (each : ∀ x ∈ xs, UpTo side (Format.single.infinity - 1) x) :
    UpTo side (Format.single.infinity - 1)
      ((sum (.finite negative 0) (xs.map ofSingle)).dividedBy count).toSingle := by
  have terms := map_ofSingle_bounded (by decide) each
  rw [extent_largest] at terms
  have first : (Double.finite negative 0).Bounded side 0 := .finite fun _ => Nat.le_refl _
  have mean := mean_bounded_largest (by decide) positive few (by simpa using length) first terms
  exact toSingle_upTo (lt_midpoint_largest 925) mean

/-- What lies right below a multiple of the spacing is rounded up to it, from the middle too if the
multiple is an even one. -/
theorem halfEven_up {quotient places : Nat} (some : 0 < quotient) (fine : 0 < places)
    (even : places = 1 → quotient % 2 = 0) :
    Format.halfEven ((quotient * 2 ^ places - 1) * 2 ^ power) (2 ^ (places + power)) =
      quotient := by
  obtain ⟨q, rfl⟩ := Nat.exists_eq_succ_of_ne_zero (Nat.ne_of_gt some)
  have one : 0 < 2 ^ power := Nat.two_pow_pos power
  have spacing : (places = 1 ∧ 2 ^ (places + power) = 2 * 2 ^ power) ∨
      4 * 2 ^ power ≤ 2 ^ (places + power) := by
    rcases Nat.lt_or_eq_of_le (Nat.succ_le_of_lt fine) with more | rfl
    · have powers : 2 ^ (2 + power) ≤ 2 ^ (places + power) :=
        Nat.pow_le_pow_right (by decide) (by omega)
      rw [Nat.pow_add] at powers
      exact .inr powers
    · exact .inl ⟨rfl, by rw [Nat.pow_add]⟩
  have split : (q.succ * 2 ^ places - 1) * 2 ^ power =
      2 ^ (places + power) * q + (2 ^ (places + power) - 2 ^ power) := by
    rw [Nat.sub_mul, Nat.one_mul, Nat.mul_assoc, ← Nat.pow_add, Nat.mul_comm, Nat.mul_succ]
    omega
  rw [split]
  generalize 2 ^ (places + power) = d at spacing ⊢
  generalize 2 ^ power = e at one spacing ⊢
  have rest : d - e < d := by omega
  unfold Format.halfEven
  dsimp only
  rw [Nat.mul_add_div (by omega), Nat.mul_add_mod, Nat.div_eq_of_lt rest, Nat.mod_eq_of_lt rest]
  rcases spacing with ⟨last, double⟩ | wide
  · have odd := even last
    rw [if_neg (by omega), if_neg (by omega)]
    omega
  · rw [if_neg (by omega), if_pos (by omega)]

theorem nearest_up {quotient places : Nat} (large : 2 ^ 52 < quotient) (short : quotient ≤ 2 ^ 53)
    (fine : 0 < places) (even : places = 1 → quotient % 2 = 0) :
    nearest ((quotient * 2 ^ places - 1) * 2 ^ power) 1 = quotient * 2 ^ places * 2 ^ power := by
  have least : 0 < 2 ^ places := Nat.two_pow_pos places
  have low : 2 ^ (52 + places) ≤ quotient * 2 ^ places - 1 := by
    have next := Nat.mul_le_mul_right (2 ^ places) large
    rw [Nat.succ_mul] at next
    rw [Nat.pow_add]
    omega
  have high : quotient * 2 ^ places - 1 < 2 ^ (52 + places + 1) := by
    have most := Nat.mul_le_mul_right (2 ^ places) short
    have some := Nat.mul_pos (Nat.lt_trans (Nat.two_pow_pos 52) large) least
    rw [Nat.add_right_comm, Nat.pow_add]
    omega
  have positive : 0 < quotient * 2 ^ places - 1 := Nat.lt_of_lt_of_le (Nat.two_pow_pos _) low
  have exponent : ((quotient * 2 ^ places - 1) * 2 ^ power).log2 = 52 + places + power := by
    have some := Nat.mul_pos positive (Nat.two_pow_pos power)
    refine (Nat.log2_eq_iff (Nat.ne_of_gt some)).mpr ⟨?_, ?_⟩
    · rw [Nat.pow_add]
      exact Nat.mul_le_mul_right _ low
    · rw [Nat.add_right_comm, Nat.pow_add]
      exact Nat.mul_lt_mul_of_pos_right high (Nat.two_pow_pos power)
  have unit : ((quotient * 2 ^ places - 1) * 2 ^ power).log2 + 1 - 53 = places + power := by omega
  rw [nearest_whole, unit, halfEven_up (by omega) fine even, Nat.pow_add, Nat.mul_assoc]

/-- Beyond the exact sums, the next sum is a multiple of a spacing at which it fills all places; the
multiple is even where the spacing is no more than two. -/
theorem largestSum_spacing (many : 2 ^ 29 + 2 ^ 5 < count) (few : count ≤ 2 ^ 33) :
    ∃ quotient places, largestSum count = quotient * 2 ^ places ∧ 2 ^ 52 < quotient ∧
      quotient ≤ 2 ^ 53 ∧ 0 < places ∧ (places = 1 → quotient % 2 = 0) := by
  unfold largestSum
  rw [Nat.min_eq_right (Nat.le_of_lt many)]
  by_cases one : count ≤ 2 ^ 30 + 2 ^ 5
  · exact ⟨count * 2 ^ 23 - (2 ^ 28 + 2 ^ 4), 1, by omega, by omega, by omega, by omega, by omega⟩
  by_cases two : count ≤ 2 ^ 31 + 2 ^ 5
  · exact ⟨count * 2 ^ 22 - (2 ^ 27 + 2 ^ 3), 2, by omega, by omega, by omega, by omega, by omega⟩
  by_cases three : count ≤ 2 ^ 32 + 2 ^ 5
  · exact ⟨count * 2 ^ 21 - (2 ^ 26 + 2 ^ 2), 3, by omega, by omega, by omega, by omega, by omega⟩
  · exact ⟨count * 2 ^ 20 - (2 ^ 25 + 2), 4, by omega, by omega, by omega, by omega, by omega⟩

/-- One more of the largest numbers leads from one sum to the next. -/
theorem nearest_next (few : count < 2 ^ 33) :
    nearest (largestSum count * 2 ^ power + (2 ^ 24 - 1) * 2 ^ power) 1 =
      largestSum (count + 1) * 2 ^ power := by
  rw [← Nat.add_mul]
  by_cases exact : count < 2 ^ 29 + 2 ^ 5
  · have next : largestSum count + (2 ^ 24 - 1) = largestSum (count + 1) := by
      unfold largestSum
      omega
    have short : largestSum (count + 1) < 2 ^ 53 := by
      unfold largestSum
      omega
    rw [next, nearest_exact short]
  · -- The last digit of the term is lost, and the sum is rounded up by it.
    have next : largestSum count + (2 ^ 24 - 1) = largestSum (count + 1) - 1 := by
      unfold largestSum
      omega
    obtain ⟨quotient, places, whole, large, short, fine, even⟩ :=
      largestSum_spacing (show 2 ^ 29 + 2 ^ 5 < count + 1 by omega) few
    rw [next, whole, nearest_up large short fine even]

theorem sum_replicate_largest (range : power < 2000) (few : count ≤ 2 ^ 33) :
    sum (.finite false 0) (List.replicate count (.finite false ((2 ^ 24 - 1) * 2 ^ power))) =
      .finite false (largestSum count * 2 ^ power) := by
  induction count with
  | zero => simp [sum, largestSum]
  | succ count ih =>
    have whole : sum (.finite false 0)
        (List.replicate (count + 1) (.finite false ((2 ^ 24 - 1) * 2 ^ power))) =
        add (sum (.finite false 0)
          (List.replicate count (.finite false ((2 ^ 24 - 1) * 2 ^ power))))
          (.finite false ((2 ^ 24 - 1) * 2 ^ power)) := by
      rw [List.replicate_succ', sum, List.foldl_append]
      rfl
    rw [whole, ih (by omega), add, if_pos rfl, nearest_next (by omega), ofSize,
      if_pos (largestSum_lt_limit range few)]

theorem ofSingle_largest : ofSingle largest = .finite false ((2 ^ 24 - 1) * 2 ^ 1178) := by
  decide +kernel

/-- The bound on how many largest numbers have a mean is exact. -/
theorem mean_largest_infinite : ((sum (.finite false 0)
    (List.replicate (2 ^ 30 + 62) (ofSingle largest))).dividedBy (2 ^ 30 + 62)).toSingle =
      1 / 0 := by
  rw [ofSingle_largest, sum_replicate_largest (by decide) (by decide)]
  decide +kernel

/-- An infinity stays, whatever number of times it is added. -/
theorem sum_replicate_infinite {negative other : Bool} (some : 0 < count) :
    sum (.finite other 0) (List.replicate count (.infinite negative)) = .infinite negative := by
  have stays : ∀ n, sum (.infinite negative) (List.replicate n (.infinite negative)) =
      .infinite negative := by
    intro n
    induction n with
    | zero => rfl
    | succ n ih => simpa [List.replicate_succ, sum, add] using ih
  obtain ⟨n, rfl⟩ := Nat.exists_eq_succ_of_ne_zero (Nat.ne_of_gt some)
  rw [List.replicate_succ]
  exact stays n

end Largest

end SwarmEvolution.Number.Double
