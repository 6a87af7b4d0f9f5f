/-
# Moments of pooled batches

Moments are merged batch by batch.  Here they are taken in exact arithmetic, in any
ordered field.  An update then adds to the number of the values, to their sum and to the
sum of their squares (`totals_update`), and moments are known from these totals.  So it
does not matter how the values are cut into batches, and from nothing the moments come
out as the mean and the variance of all values seen: `moments_of_batches`.
-/
import Mathlib.Algebra.BigOperators.Ring.List
import Mathlib.Algebra.Order.Field.Basic
import Mathlib.Tactic.FieldSimp
import Mathlib.Tactic.LinearCombination
import Mathlib.Tactic.NormNum
import Mathlib.Tactic.Positivity
import Mathlib.Tactic.Ring
import Rollout.Scaler

namespace Rollout.Moments

/-! ## Batches -/

section Field

variable {K : Type} [Field K] {m m' : Moments K}

theorem sum_eq (xs : List K) : sum xs = xs.sum := by
  rw [sum, Nat.cast_zero, List.sum_eq_foldl]

/-- The mean of a list of values. -/
def average (xs : List K) : K := xs.sum / xs.length

/-- The mean squared distance of the values of a list from their mean. -/
def dispersion (xs : List K) : K := (xs.map fun x => (x - average xs) ^ 2).sum / xs.length

theorem batchMean_eq (xs : List K) : batchMean xs = average xs := by
  rw [batchMean, sum_eq, average]

/-- The spread of a batch around its average is its dispersion. -/
theorem batchSpread_eq (xs : List K) : batchSpread (average xs) xs = dispersion xs := by
  simp only [batchSpread, sum_eq, dispersion, sq]

/-- Moments after a batch that is not empty. -/
theorem update_eq_merge {xs : List K} (h : xs ≠ []) :
    m.update xs = m.merge xs.length (average xs) (dispersion xs) := by
  cases xs with
  | nil => exact absurd rfl h
  | cons x xs =>
    show m.merge _ (batchMean (x :: xs)) (batchSpread (batchMean (x :: xs)) (x :: xs)) = _
    rw [batchMean_eq, batchSpread_eq]

/-- An update counts the numbers of the batch. -/
@[simp] theorem count_update (xs : List K) : (m.update xs).count = m.count + xs.length := by
  by_cases h : xs = []
  · rw [h, List.length_nil, Nat.cast_zero, add_zero]
    rfl
  · rw [update_eq_merge h]
    rfl

/-- The squared distances of values from a center, by their sum and the sum of their squares. -/
theorem sum_sq_sub (center : K) (xs : List K) :
    (xs.map fun x => (x - center) ^ 2).sum
      = (xs.map (· ^ 2)).sum - 2 * center * xs.sum + xs.length * center ^ 2 := by
  induction xs with
  | nil => simp
  | cons x xs ih =>
    rw [List.map_cons, List.map_cons, List.sum_cons, List.sum_cons, List.sum_cons, ih,
      List.length_cons]
    push_cast
    ring

/-! ## Totals -/

/-- The number of values, their sum and the sum of their squares. -/
structure Totals (K : Type) where
  count : K
  sum : K
  squares : K

/-- The totals with the values of a list added. -/
def Totals.add (t : Totals K) (xs : List K) : Totals K :=
  ⟨t.count + xs.length, t.sum + xs.sum, t.squares + (xs.map (· ^ 2)).sum⟩

/-- Adding one batch after another adds them together. -/
theorem Totals.add_add (t : Totals K) (xs ys : List K) :
    (t.add xs).add ys = t.add (xs ++ ys) := by
  simp only [add, List.length_append, List.sum_append, List.map_append, Nat.cast_add, add_assoc]

/-- The totals of the values that moments are of. -/
def totals (m : Moments K) : Totals K :=
  ⟨m.count, m.mean * m.count, (m.variance + m.mean ^ 2) * m.count⟩

/-- Moments of some values are known from their totals. -/
theorem eq_of_totals_eq (hcount : m.count ≠ 0) (h : m.totals = m'.totals) : m = m' := by
  obtain ⟨mean, variance, count⟩ := m
  obtain ⟨mean', variance', count'⟩ := m'
  obtain ⟨rfl, hsum, hsquares⟩ := Totals.mk.inj h
  have hmean : mean = mean' := mul_right_cancel₀ hcount hsum
  subst hmean
  have hvariance : variance = variance' := add_right_cancel (mul_right_cancel₀ hcount hsquares)
  rw [hvariance]

end Field

/-! ## Divisions -/

/-- A number, or none if it comes from a division by zero. -/
def Checked (K : Type) : Type := Option K

namespace Checked

variable {K : Type}

/-- A number of its own. -/
def of (x : K) : Checked K := some x

instance add [Add K] : Add (Checked K) := ⟨fun x y => x.bind fun a => y.map fun b => a + b⟩

instance sub [Sub K] : Sub (Checked K) := ⟨fun x y => x.bind fun a => y.map fun b => a - b⟩

instance mul [Mul K] : Mul (Checked K) := ⟨fun x y => x.bind fun a => y.map fun b => a * b⟩

instance div [Div K] [Zero K] [DecidableEq K] : Div (Checked K) :=
  ⟨fun x y => x.bind fun a => y.bind fun b => if b = 0 then none else some (a / b)⟩

instance natCast [NatCast K] : NatCast (Checked K) := ⟨fun n => some (n : K)⟩

theorem of_add [Add K] (a b : K) : of a + of b = of (a + b) := rfl

theorem of_sub [Sub K] (a b : K) : of a - of b = of (a - b) := rfl

theorem of_mul [Mul K] (a b : K) : of a * of b = of (a * b) := rfl

theorem of_div [Div K] [Zero K] [DecidableEq K] {a b : K} (h : b ≠ 0) : of a / of b = of (a / b) :=
  if_neg h

theorem natCast_eq [NatCast K] (n : Nat) : (n : Checked K) = of (n : K) := rfl

end Checked

section CheckedMoments

open Checked

variable {K : Type} [Field K] [DecidableEq K] {m : Moments K}

/-- The moments with checked numbers. -/
def checked (m : Moments K) : Moments (Checked K) := ⟨of m.mean, of m.variance, of m.count⟩

omit [DecidableEq K] in
theorem sum_map_of (xs : List K) : sum (xs.map of) = of (sum xs) := by
  have hfold : ∀ start : K, (xs.map of).foldl (· + ·) (of start) = of (xs.foldl (· + ·) start) := by
    induction xs with
    | nil => exact fun _ => rfl
    | cons x xs ih => exact fun start => ih (start + x)
  exact hfold ((0 : Nat) : K)

/-- The mean of a batch does not fail if its length is not zero. -/
theorem batchMean_map_of {xs : List K} (h : (xs.length : K) ≠ 0) :
    batchMean (xs.map of) = of (batchMean xs) := by
  rw [batchMean, sum_map_of, List.length_map, natCast_eq, of_div h, batchMean]

theorem batchSpread_map_of {xs : List K} (h : (xs.length : K) ≠ 0) (center : K) :
    batchSpread (of center) (xs.map of) = of (batchSpread center xs) := by
  have hsquares : (xs.map of).map (fun x => (x - of center) * (x - of center))
      = (xs.map fun x => (x - center) * (x - center)).map of := by
    rw [List.map_map, List.map_map]
    rfl
  rw [batchSpread, hsquares, sum_map_of, List.length_map, natCast_eq, of_div h, batchSpread]

/-- A merge divides by the new number of values, and by nothing else. -/
theorem merge_checked {n : K} (h : m.count + n ≠ 0) (mean variance : K) :
    m.checked.merge (of n) (of mean) (of variance) = (m.merge n mean variance).checked := by
  simp only [merge, checked, of_add, of_sub, of_mul, of_div h]

end CheckedMoments

section Ordered

variable {K : Type} [Field K] [LinearOrder K] [IsStrictOrderedRing K] {m : Moments K}

theorem length_pos {xs : List K} (h : xs ≠ []) : (0 : K) < xs.length :=
  Nat.cast_pos.mpr (List.length_pos_iff.mpr h)

/-- An update adds to the totals. -/
theorem totals_update (hcount : 0 ≤ m.count) (xs : List K) :
    (m.update xs).totals = m.totals.add xs := by
  by_cases h : xs = []
  · subst h
    simp [Totals.add, update]
  · have hn := length_pos h
    have htotal : m.count + xs.length ≠ 0 := by positivity
    -- the batch is merged by its mean and its dispersion, so its own totals are said in these
    have hsum : xs.sum = average xs * xs.length := by
      rw [average, div_mul_cancel₀ _ hn.ne']
    have hsquares : (xs.map (· ^ 2)).sum = (dispersion xs + average xs ^ 2) * xs.length := by
      rw [dispersion, sum_sq_sub, hsum]
      field_simp
      ring
    rw [update_eq_merge h, Totals.add, hsquares, hsum]
    simp only [totals, merge, Totals.mk.injEq, true_and]
    constructor
    · field_simp
      ring
    · field_simp
      ring

/-! ## Runs of batches -/

theorem count_nonneg_update (hcount : 0 ≤ m.count) (xs : List K) : 0 ≤ (m.update xs).count := by
  rw [count_update]
  positivity

/-- **Two batches are as good as one** with the values of both. -/
theorem update_update (hcount : 0 ≤ m.count) (xs ys : List K) :
    (m.update xs).update ys = m.update (xs ++ ys) := by
  by_cases h : xs ++ ys = []
  · obtain ⟨rfl, rfl⟩ := List.append_eq_nil_iff.mp h
    rfl
  · have htotals : (m.update (xs ++ ys)).totals = ((m.update xs).update ys).totals := by
      rw [totals_update hcount, totals_update (count_nonneg_update hcount xs), totals_update hcount,
        Totals.add_add]
    have hpos : (m.update (xs ++ ys)).count ≠ 0 := by
      have hn := length_pos h
      rw [count_update]
      positivity
    exact (eq_of_totals_eq hpos htotals).symm

/-- Batches are as good as one with all their values. -/
theorem foldl_update (hcount : 0 ≤ m.count) (batches : List (List K)) :
    batches.foldl update m = m.update batches.flatten := by
  induction batches generalizing m with
  | nil => rfl
  | cons xs batches ih =>
    rw [List.foldl_cons, ih (count_nonneg_update hcount xs), update_update hcount,
      List.flatten_cons]

/-- From nothing, the moments are those of the values. -/
theorem update_of_count_eq_zero (hcount : m.count = 0) {xs : List K} (h : xs ≠ []) :
    m.update xs = ⟨average xs, dispersion xs, xs.length⟩ := by
  -- the mean and the variance from before have no weight, so it does not matter what they are
  have hn := (length_pos h).ne'
  rw [update_eq_merge h]
  simp only [merge, hcount, zero_add, mul_zero, zero_mul, zero_div, add_zero, Moments.mk.injEq,
    and_true]
  constructor
  · rw [mul_div_cancel_right₀ _ hn]
    ring
  · exact mul_div_cancel_right₀ _ hn

/-- No dispersion is negative. -/
theorem dispersion_nonneg (xs : List K) : 0 ≤ dispersion xs := by
  refine div_nonneg (List.sum_nonneg ?_) (Nat.cast_nonneg _)
  intro y hy
  obtain ⟨x, -, rfl⟩ := List.mem_map.mp hy
  exact sq_nonneg _

/-- An update keeps a variance from becoming negative. -/
theorem variance_nonneg_update (hcount : 0 ≤ m.count) (hvariance : 0 ≤ m.variance) (xs : List K) :
    0 ≤ (m.update xs).variance := by
  by_cases h : xs = []
  · subst h
    exact hvariance
  · have hspread := dispersion_nonneg xs
    have hsquare := mul_self_nonneg (average xs - m.mean)
    rw [update_eq_merge h]
    simp only [merge]
    positivity

/-- No update divides by zero: it divides by the number of values in the batch and by the new number
of all values. -/
theorem update_checked (hcount : 0 ≤ m.count) (xs : List K) :
    m.checked.update (xs.map Checked.of) = (m.update xs).checked := by
  cases xs with
  | nil => rfl
  | cons x xs =>
    have hn : (0 : K) < (x :: xs).length := length_pos (List.cons_ne_nil _ _)
    have htotal : m.count + (x :: xs).length ≠ 0 := by positivity
    -- the update is the same definition in both kinds of arithmetic
    show m.checked.merge ((x :: xs).map Checked.of).length (batchMean ((x :: xs).map Checked.of))
      (batchSpread (batchMean ((x :: xs).map Checked.of)) ((x :: xs).map Checked.of)) = _
    rw [List.length_map, Checked.natCast_eq, batchMean_map_of hn.ne', batchSpread_map_of hn.ne',
      merge_checked htotal]
    rfl

/-- A run of updates never divides by zero, whatever batches there are. -/
theorem foldl_update_checked (hcount : 0 ≤ m.count) (batches : List (List K)) :
    (batches.map (List.map Checked.of)).foldl update m.checked = (batches.foldl update m).checked := by
  induction batches generalizing m with
  | nil => rfl
  | cons xs batches ih =>
    rw [List.map_cons, List.foldl_cons, update_checked hcount, List.foldl_cons]
    exact ih (count_nonneg_update hcount xs)

/-- **Moments do not depend on the batches.**  Take moments with a number of values and a variance
that are not negative, in exact arithmetic.  Updates with one batch after another are one update with
all their values.  If there were no values before, the mean and the variance are those of all values
seen.  The variance never becomes negative, the number of values never decreases, and in arithmetic
that loses a number with every division by zero none is lost. -/
theorem moments_of_batches (m : Moments K) (hcount : 0 ≤ m.count) (hvariance : 0 ≤ m.variance) :
    (∀ xs ys, (m.update xs).update ys = m.update (xs ++ ys)) ∧
    (∀ batches : List (List K), batches.foldl update m = m.update batches.flatten) ∧
    (m.count = 0 → ∀ batches : List (List K), batches.flatten ≠ [] →
      batches.foldl update m
        = ⟨average batches.flatten, dispersion batches.flatten, batches.flatten.length⟩) ∧
    ∀ batches : List (List K),
      0 ≤ (batches.foldl update m).variance ∧
      (∀ xs, (batches.foldl update m).count ≤ ((batches.foldl update m).update xs).count) ∧
      (batches.map (List.map Checked.of)).foldl update m.checked
        = (batches.foldl update m).checked := by
  refine ⟨update_update hcount, foldl_update hcount, ?_, ?_⟩
  · intro hzero batches h
    rw [foldl_update hcount, update_of_count_eq_zero hzero h]
  · intro batches
    refine ⟨?_, ?_, ?_⟩
    · rw [foldl_update hcount]
      exact variance_nonneg_update hcount hvariance _
    · intro xs
      rw [count_update]
      exact le_add_of_nonneg_right (Nat.cast_nonneg _)
    · exact foldl_update_checked hcount batches

/-- Batches of one, three and two values are six values. -/
theorem moments_of_batches_uneven :
    [[1], [2, 4, 5], [-3, 0]].foldl update (⟨7, 0, 0⟩ : Moments ℚ) = ⟨3 / 2, 83 / 12, 6⟩ := by
  have hpooled := (moments_of_batches (⟨7, 0, 0⟩ : Moments ℚ) (by norm_num) (by norm_num)).2.2.1 rfl
    [[1], [2, 4, 5], [-3, 0]] (by simp)
  rw [hpooled]
  norm_num [average, dispersion]

end Ordered

end Rollout.Moments
