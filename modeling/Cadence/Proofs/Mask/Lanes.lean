import Cadence.Mask.Portable
import Cadence.Proofs.Mask.Members
import Mathlib

/-! The parallel count of members. Numbers fall into lanes, which are their digits to some
base. Adding the lanes of each pair keeps the sum of all lanes, and no lane overflows; so
after three such steps the bytes of the word count the members of eight places each, and one
multiplication gathers them in the highest byte.
-/

namespace Cadence.Mask.Portable

-----------------------------------------------------------------------------------------
-- Lanes
-----------------------------------------------------------------------------------------

/-- The sum of the lowest lanes of a number. -/
def laneSum (base : Nat) : Nat → Nat → Nat
  | 0, _ => 0
  | n + 1, number => number % base + laneSum base n (number / base)

/-- None of the lowest lanes of a number exceeds a bound. -/
def LanesWithin (base bound : Nat) : Nat → Nat → Prop
  | 0, _ => True
  | n + 1, number => number % base ≤ bound ∧ LanesWithin base bound n (number / base)

/-- The number in whose lanes the pairs of lanes of another one are added up. -/
def pairSums (base : Nat) : Nat → Nat → Nat
  | 0, _ => 0
  | n + 1, number =>
    number % base + number / base % base
      + base * base * pairSums base n (number / base / base)

/-- The number that has the lower lane of every pair filled, and the upper one empty. -/
def lowerLanes (base : Nat) : Nat → Nat
  | 0 => 0
  | n + 1 => base - 1 + base * base * lowerLanes base n

/-- The number that has a one in every lane. -/
def ones (base : Nat) : Nat → Nat
  | 0 => 0
  | n + 1 => 1 + base * ones base n

variable {base bound : Nat}

/-- Both lanes of a pair together fit into the place of the pair. -/
theorem pairSum_lt (positive : 2 ≤ base) (number : Nat)
    : number % base + number / base % base < base * base := by
  have lower := Nat.mod_lt number (by omega : 0 < base)
  have upper := Nat.mod_lt (number / base) (by omega : 0 < base)
  have room := Nat.mul_le_mul_right base positive
  omega

/-- The lowest lane of the pair sums is that of the lowest pair, and the others follow. -/
theorem pairSums_succ (positive : 2 ≤ base) (n number : Nat)
    : pairSums base (n + 1) number % (base * base)
        = number % base + number / base % base
      ∧ pairSums base (n + 1) number / (base * base)
        = pairSums base n (number / base / base) := by
  have fits := pairSum_lt positive number
  constructor
  · rw [pairSums, Nat.add_mul_mod_self_left, Nat.mod_eq_of_lt fits]
  · rw [pairSums, Nat.add_mul_div_left _ _ (by omega), Nat.div_eq_of_lt fits, Nat.zero_add]

/-- Adding up pairs keeps the sum of all lanes, by induction on the number of pairs. -/
theorem laneSum_pairSums (positive : 2 ≤ base) (n number : Nat)
    : laneSum (base * base) n (pairSums base n number) = laneSum base (2 * n) number := by
  induction n generalizing number with
  | zero => rfl
  | succ n ih =>
      obtain ⟨lowest, others⟩ := pairSums_succ positive n number
      rw [laneSum, lowest, others, ih, Nat.mul_succ, laneSum, laneSum, Nat.add_assoc]

/-- Sums of pairs are at most twice as large as the lanes, by induction on the number of
pairs.
-/
theorem lanesWithin_pairSums (positive : 2 ≤ base) (n number : Nat)
    (within : LanesWithin base bound (2 * n) number)
    : LanesWithin (base * base) (2 * bound) n (pairSums base n number) := by
  induction n generalizing number with
  | zero => trivial
  | succ n ih =>
      obtain ⟨lowest, others⟩ := pairSums_succ positive n number
      obtain ⟨lower, upper, rest⟩ := within
      rw [LanesWithin, lowest, others]
      exact ⟨by omega, ih _ rest⟩

/-- Sums of pairs take no more places than the pairs, by induction on their number. -/
theorem pairSums_lt (positive : 2 ≤ base) (n number : Nat)
    : pairSums base n number < (base * base) ^ n := by
  induction n generalizing number with
  | zero => simp [pairSums]
  | succ n ih =>
      have fits := pairSum_lt positive number
      have others := Nat.mul_le_mul_left (base * base)
        (Nat.succ_le_of_lt (ih (number / base / base)))
      rw [pairSums, pow_succ, Nat.mul_comm _ (base * base)]
      rw [Nat.succ_eq_add_one, Nat.mul_add, Nat.mul_one] at others
      omega

-----------------------------------------------------------------------------------------
-- Lanes under a filter
-----------------------------------------------------------------------------------------

/-- Filtering the lower lanes keeps the lowest one, drops the next, and goes on with the
other pairs.
-/
theorem and_lowerLanes_succ (width n number : Nat)
    : number &&& lowerLanes (2 ^ width) (n + 1)
      = number % 2 ^ width
        + 2 ^ width * 2 ^ width
          * (number / 2 ^ width / 2 ^ width &&& lowerLanes (2 ^ width) n) := by
  have positive := Nat.two_pow_pos width
  have small : 2 ^ width - 1 < 2 ^ width * 2 ^ width :=
    Nat.lt_of_lt_of_le (Nat.sub_lt positive Nat.one_pos) (Nat.le_mul_of_pos_left _ positive)
  have lowest : lowerLanes (2 ^ width) (n + 1) % (2 ^ width * 2 ^ width) = 2 ^ width - 1 := by
    rw [lowerLanes, Nat.add_mul_mod_self_left, Nat.mod_eq_of_lt small]
  have others : lowerLanes (2 ^ width) (n + 1) / (2 ^ width * 2 ^ width)
      = lowerLanes (2 ^ width) n := by
    rw [lowerLanes, Nat.add_mul_div_left _ _ (Nat.mul_pos positive positive),
      Nat.div_eq_of_lt small, Nat.zero_add]
  rw [← Nat.mod_add_div (number &&& _) (2 ^ width * 2 ^ width), Nat.div_div_eq_div_mul]
  rw [← pow_add] at lowest others ⊢
  rw [Nat.and_mod_two_pow, Nat.and_div_two_pow, lowest, others,
    Nat.and_two_pow_sub_one_eq_mod, pow_add, Nat.mod_mul_left_mod]

/-- The filtered lanes and the filtered upper lanes, shifted down, add up to the sums of
pairs, by induction on the number of pairs.
-/
theorem and_add_and_eq_pairSums (width n number : Nat)
    : (number &&& lowerLanes (2 ^ width) n) + (number >>> width &&& lowerLanes (2 ^ width) n)
      = pairSums (2 ^ width) n number := by
  induction n generalizing number with
  | zero => simp [lowerLanes, pairSums]
  | succ n ih =>
      rw [Nat.shiftRight_eq_div_pow, and_lowerLanes_succ, and_lowerLanes_succ, pairSums, ← ih,
        Nat.shiftRight_eq_div_pow, Nat.mul_add]
      omega

/-- A pair of bits less its upper bit is the sum of the two, by induction on the number of
pairs.
-/
theorem pairSums_add_and (n number : Nat) (small : number < 4 ^ n)
    : pairSums 2 n number + (number >>> 1 &&& lowerLanes 2 n) = number := by
  induction n generalizing number with
  | zero =>
      obtain rfl : number = 0 := by simpa using small
      rfl
  | succ n ih =>
      have others := ih (number / 2 / 2) (by rw [pow_succ] at small; omega)
      have step := and_lowerLanes_succ 1 n (number / 2)
      rw [Nat.shiftRight_eq_div_pow, pow_one] at others ⊢
      rw [pow_one] at step
      rw [step, pairSums]
      omega

/-- A number that has no more lanes than are bounded has a bounded lowest lane. -/
theorem mod_le_of_lanesWithin {n number : Nat} (within : LanesWithin base bound n number)
    (small : number < base ^ n)
    : number % base ≤ bound := by
  cases n with
  | zero =>
      obtain rfl : number = 0 := by simpa using small
      simp
  | succ n => exact within.1

/-- When a number is added to itself shifted by a lane, the lowest lane takes in the next
one if there is room, and the others follow.
-/
theorem add_div_step (base number : Nat)
    (room : number % base + number / base % base < base)
    : (number + number / base) % base = number % base + number / base % base
      ∧ (number + number / base) / base = number / base + number / base / base := by
  have sum : number + number / base
      = number % base + number / base % base
        + base * (number / base + number / base / base) := by
    have whole := Nat.mod_add_div number base
    have upper := Nat.mod_add_div (number / base) base
    rw [Nat.mul_add]
    omega
  constructor
  · rw [sum, Nat.add_mul_mod_self_left, Nat.mod_eq_of_lt room]
  · rw [sum, Nat.add_mul_div_left _ _ (by omega), Nat.div_eq_of_lt room, Nat.zero_add]

/-- A number with room in its lanes takes no more places when it is added to itself shifted
by a lane, by induction on the number of lanes.
-/
theorem add_div_lt (room : 2 * bound < base) {n number : Nat}
    (within : LanesWithin base bound n number) (small : number < base ^ n)
    : number + number / base < base ^ n := by
  induction n generalizing number with
  | zero =>
      obtain rfl : number = 0 := by simpa using small
      simp
  | succ n ih =>
      obtain ⟨lowest, others⟩ := within
      have fewer : number / base < base ^ n :=
        Nat.div_lt_of_lt_mul (by rwa [pow_succ, Nat.mul_comm] at small)
      have next := mod_le_of_lanesWithin others fewer
      have step := (add_div_step base number (by omega)).2
      have higher := ih others fewer
      rw [← step] at higher
      rw [pow_succ]
      exact (Nat.div_lt_iff_lt_mul (by omega)).mp higher

/-- If lanes have room for the sum of two, filtering can wait until after the addition, by
induction on the number of pairs.
-/
theorem add_and_eq_pairSums (width n : Nat) {number : Nat} (room : 2 * bound < 2 ^ width)
    (within : LanesWithin (2 ^ width) bound (2 * n) number)
    (small : number < (2 ^ width) ^ (2 * n))
    : (number + number >>> width) &&& lowerLanes (2 ^ width) n
      = pairSums (2 ^ width) n number := by
  induction n generalizing number with
  | zero => simp [lowerLanes, pairSums]
  | succ n ih =>
      obtain ⟨lower, upper, others⟩ := within
      have fewer : number / 2 ^ width / 2 ^ width < (2 ^ width) ^ (2 * n) := by
        rw [Nat.div_div_eq_div_mul]
        rw [Nat.mul_succ, pow_add, pow_two, Nat.mul_comm] at small
        exact Nat.div_lt_of_lt_mul small
      have next := mod_le_of_lanesWithin others fewer
      have first := add_div_step (2 ^ width) number (by omega)
      have second := add_div_step (2 ^ width) (number / 2 ^ width) (by omega)
      have rest := ih others fewer
      rw [Nat.shiftRight_eq_div_pow] at rest ⊢
      rw [and_lowerLanes_succ, first.1, first.2, second.2, rest, pairSums]

-----------------------------------------------------------------------------------------
-- Gathering lanes
-----------------------------------------------------------------------------------------

/-- A one in every lane is a one in front of the lanes, as well as behind them. -/
theorem ones_succ (n : Nat) : ones base (n + 1) = ones base n + base ^ n := by
  induction n with
  | zero => rfl
  | succ n ih =>
      rw [ones, ih, Nat.mul_add, ← Nat.add_assoc, ← ones, ih, pow_succ, Nat.mul_comm base]

/-- What is added to the lowest lane is added to the sum, if there is room. -/
theorem laneSum_add {carry number : Nat} (room : carry + number % base < base) (n : Nat)
    : laneSum base (n + 1) (carry + number) = carry + laneSum base (n + 1) number := by
  have sum : carry + number = carry + number % base + base * (number / base) := by
    rw [Nat.add_assoc, Nat.mod_add_div]
  rw [laneSum, laneSum, sum, Nat.add_mul_mod_self_left, Nat.add_mul_div_left _ _ (by omega),
    Nat.mod_eq_of_lt room, Nat.div_eq_of_lt room, Nat.zero_add, Nat.add_assoc]

/-- A product with ones keeps the lowest lane, which is added to the next one in the product
of the others; what goes beyond the highest lane is left aside.
-/
theorem mul_ones_succ (positive : 0 < base) (n number : Nat)
    : number * ones base (n + 1) / base
      = (number % base + number / base) * ones base n + number / base * base ^ n := by
  have whole := Nat.mod_add_div number base
  have product : number * ones base (n + 1)
      = number % base
        + base
          * ((number % base + number / base) * ones base n + number / base * base ^ n) := by
    calc
      number * ones base (n + 1) = number + base * (number * ones base n) := by
        rw [ones]
        ring
      _ = number % base
          + base
            * (number % base * ones base n + number / base * (1 + base * ones base n)) := by
        nth_rewrite 1 2 [← whole]
        ring
      _ = _ := by
        rw [← ones, ones_succ]
        ring
  rw [product, Nat.add_mul_div_left _ _ positive, Nat.div_eq_of_lt (Nat.mod_lt _ positive),
    Nat.zero_add]

/-- A product with ones has the sum of all lanes in its highest lane, if that is less than
the base. By induction on the lanes: the lowest lane is added to the next one.
-/
theorem gather (n : Nat) {number : Nat} (small : laneSum base (n + 1) number < base)
    : number * ones base (n + 1) % base ^ (n + 1) / base ^ n = laneSum base (n + 1) number := by
  induction n generalizing number with
  | zero => simp [ones, laneSum]
  | succ n ih =>
      have room : number % base + number / base % base < base := by
        simp only [laneSum] at small
        omega
      have carried : laneSum base (n + 1) (number % base + number / base)
          = laneSum base (n + 2) number := by
        rw [laneSum_add room, ← laneSum]
      rw [← carried] at small ⊢
      rw [← ih small, pow_succ, pow_succ, Nat.mul_comm _ base, Nat.mul_comm _ base,
        ← Nat.div_div_eq_div_mul, Nat.mod_mul_right_div_self, mul_ones_succ (by omega),
        ← pow_succ', Nat.add_mul_mod_self_right]

-----------------------------------------------------------------------------------------
-- The count
-----------------------------------------------------------------------------------------

/-- The difference of words, unless it is negative. -/
def minus? (left right : UInt64) : Option UInt64 :=
  if right ≤ left then some (left - right) else none

/-- The sum of words, unless it takes more than a word. -/
def plus? (left right : UInt64) : Option UInt64 :=
  if left.toNat + right.toNat < UInt64.size then some (left + right) else none

/-- The number of members, by parallel sums, unless a sum or difference leaves the word. -/
def count? (mask : Mask) : Option Nat := do
  let pairs ← minus? mask ((mask >>> 1) &&& lowBits)
  let nibbles ← plus? (pairs &&& lowPairs) ((pairs >>> 2) &&& lowPairs)
  let sums ← plus? nibbles (nibbles >>> 4)
  return (((sums &&& lowNibbles) * bytes) >>> 56).toNat

theorem minus?_eq (left right : UInt64) (ordered : right.toNat ≤ left.toNat)
    : minus? left right = some (left - right)
      ∧ (left - right).toNat = left.toNat - right.toNat := by
  have within : right ≤ left := UInt64.le_iff_toNat_le.mpr ordered
  exact ⟨if_pos within, UInt64.toNat_sub_of_le _ _ within⟩

theorem plus?_eq (left right : UInt64) (fits : left.toNat + right.toNat < UInt64.size)
    : plus? left right = some (left + right)
      ∧ (left + right).toNat = left.toNat + right.toNat := by
  refine ⟨if_pos fits, ?_⟩
  rw [UInt64.toNat_add, Nat.mod_eq_of_lt fits]

/-- The lowest bits of a number are its lanes to base two, by induction on their number. -/
theorem laneSum_two (n number : Nat)
    : laneSum 2 n number = (List.range n).countP number.testBit := by
  induction n generalizing number with
  | zero => rfl
  | succ n ih =>
      have others : (List.map Nat.succ (List.range n)).countP number.testBit
          = (List.range n).countP (number / 2).testBit := by
        rw [List.countP_map]
        exact List.countP_congr fun i _ => by rw [Function.comp_apply, Nat.testBit_succ]
      rw [laneSum, ih, List.range_succ_eq_map, List.countP_cons, others, Nat.testBit_zero]
      rcases Nat.mod_two_eq_zero_or_one number with even | odd
      · simp [even]
      · simp [odd, Nat.add_comm]

/-- The members of a mask are counted by its bits. -/
theorem count_eq_laneSum (mask : Mask) : mask.count = laneSum 2 64 mask.toNat := by
  rw [laneSum_two, Mask.count]
  exact List.countP_congr fun i _ => by rw [has_eq_testBit]

/-- Bits are at most one. -/
theorem lanesWithin_two (n number : Nat) : LanesWithin 2 1 n number := by
  induction n generalizing number with
  | zero => trivial
  | succ n ih => exact ⟨by omega, ih _⟩

/-- In each pair of bits, the sum of the two. -/
def pairs (mask : Mask) : UInt64 :=
  mask - ((mask >>> 1) &&& lowBits)

/-- In each nibble, the sum of its two pairs. -/
def nibbles (pairs : UInt64) : UInt64 :=
  (pairs &&& lowPairs) + ((pairs >>> 2) &&& lowPairs)

/-- The first step is a difference that is not negative. -/
theorem pairs_step (mask : Mask)
    : minus? mask ((mask >>> 1) &&& lowBits) = some (pairs mask)
      ∧ (pairs mask).toNat = pairSums 2 32 mask.toNat := by
  have filtered : ((mask >>> 1) &&& lowBits).toNat = mask.toNat >>> 1 &&& lowerLanes 2 32 := by
    rw [UInt64.toNat_and, UInt64.toNat_shiftRight]
    rfl
  have whole := pairSums_add_and 32 mask.toNat mask.toNat_lt
  obtain ⟨taken, difference⟩ := minus?_eq mask ((mask >>> 1) &&& lowBits) (by omega)
  rw [pairs]
  exact ⟨taken, by omega⟩

/-- The second step adds the two pairs of each nibble, which has room for the sum. -/
theorem nibbles_step (pairs : UInt64)
    : plus? (pairs &&& lowPairs) ((pairs >>> 2) &&& lowPairs) = some (nibbles pairs)
      ∧ (nibbles pairs).toNat = pairSums 4 16 pairs.toNat := by
  have sum := and_add_and_eq_pairSums 2 16 pairs.toNat
  have fits : pairSums 4 16 pairs.toNat < 16 ^ 16 := pairSums_lt (by decide) 16 pairs.toNat
  have filtered : (pairs &&& lowPairs).toNat = pairs.toNat &&& lowerLanes 4 16 := by
    rw [UInt64.toNat_and]
    rfl
  have shifted : ((pairs >>> 2) &&& lowPairs).toNat = pairs.toNat >>> 2 &&& lowerLanes 4 16 := by
    rw [UInt64.toNat_and, UInt64.toNat_shiftRight]
    rfl
  rw [show 2 ^ 2 = 4 from rfl, ← filtered, ← shifted] at sum
  obtain ⟨taken, whole⟩ := plus?_eq (pairs &&& lowPairs) ((pairs >>> 2) &&& lowPairs)
    (sum ▸ fits)
  rw [nibbles]
  exact ⟨taken, by omega⟩

/-- The third step adds the two nibbles of each byte, of which the lower one has room for
the sum.
-/
theorem sums_step {nibbles : UInt64} (within : LanesWithin 16 4 16 nibbles.toNat)
    : plus? nibbles (nibbles >>> 4) = some (nibbles + nibbles >>> 4)
      ∧ ((nibbles + nibbles >>> 4) &&& lowNibbles).toNat = pairSums 16 8 nibbles.toNat := by
  have small : nibbles.toNat < 16 ^ 16 := nibbles.toNat_lt
  have fits := add_div_lt (by decide) within small
  have sum := add_and_eq_pairSums 4 8 (by decide) within small
  have shifted : (nibbles >>> 4).toNat = nibbles.toNat >>> 4 := by
    rw [UInt64.toNat_shiftRight]
    rfl
  rw [← shifted] at sum
  obtain ⟨taken, whole⟩ := plus?_eq nibbles (nibbles >>> 4)
    (by rw [shifted, Nat.shiftRight_eq_div_pow]; exact fits)
  refine ⟨taken, ?_⟩
  rw [UInt64.toNat_and, whole]
  exact sum

/-- The last step gathers the sums of all bytes in the highest byte. -/
theorem gather_step {sums : UInt64} (small : laneSum 256 8 sums.toNat < 256)
    : ((sums * bytes) >>> 56).toNat = laneSum 256 8 sums.toNat := by
  rw [← gather 7 small, UInt64.toNat_shiftRight, UInt64.toNat_mul, Nat.shiftRight_eq_div_pow]
  rfl

/-- No step leaves the word, and the last one gathers the number of members, since the lanes
keep their sum throughout.
-/
theorem count_spec (mask : Mask)
    : count? mask = some (count mask) ∧ count mask = mask.count := by
  obtain ⟨pairsFound, pairsAre⟩ := pairs_step mask
  obtain ⟨nibblesFound, nibblesAre⟩ := nibbles_step (pairs mask)
  have pairsWithin : LanesWithin 4 2 32 (pairs mask).toNat := by
    rw [pairsAre]
    exact lanesWithin_pairSums (Nat.le_refl 2) 32 _ (lanesWithin_two 64 mask.toNat)
  have nibblesWithin : LanesWithin 16 4 16 (nibbles (pairs mask)).toNat := by
    rw [nibblesAre]
    exact lanesWithin_pairSums (by decide) 16 _ pairsWithin
  obtain ⟨sumsFound, sumsAre⟩ := sums_step nibblesWithin
  have total : laneSum 256 8 (pairSums 16 8 (nibbles (pairs mask)).toNat) = mask.count := by
    calc
      laneSum 256 8 (pairSums 16 8 (nibbles (pairs mask)).toNat)
        = laneSum 16 16 (nibbles (pairs mask)).toNat := laneSum_pairSums (by decide) 8 _
      _ = laneSum 4 32 (pairs mask).toNat := by
        rw [nibblesAre]
        exact laneSum_pairSums (by decide) 16 _
      _ = laneSum 2 64 mask.toNat := by
        rw [pairsAre]
        exact laneSum_pairSums (by decide) 32 _
      _ = mask.count := (count_eq_laneSum mask).symm
  have few : mask.count ≤ 64 := by
    rw [Mask.count]
    exact List.countP_le_length
  rw [← sumsAre] at total
  have gathered := gather_step (total ▸ Nat.lt_of_le_of_lt few (by decide))
  constructor
  · simp only [count?, pairsFound, nibblesFound, sumsFound, Option.bind_eq_bind,
      Option.bind_some]
    rfl
  · rw [← total, ← gathered]
    rfl

end Cadence.Mask.Portable
