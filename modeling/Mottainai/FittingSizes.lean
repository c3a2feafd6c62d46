import Mathlib.Algebra.Order.Group.Int
import Mathlib.Algebra.Ring.Nat
import Mathlib.Order.Iterate
import Mathlib.Tactic.Common

/-!
# Sizes that fit

A search for the largest candidate that fits halves an interval of their numbers. It ends with the
largest that fits if a candidate fits as soon as one with a larger number does. A text that reports
its own size is printed again until the size that it reports is its size: what the report adds is a
number of digits, so that the size settles after few prints.
-/

namespace LargestFit

variable {α : Type} (candidate : ℤ → α) (fits : α → Bool)

/-- The search between `low` and `high`. The fuel is the size of the interval. -/
def searchFit : ℕ → ℤ → ℤ → Option α → Option α
  | 0, _, _, best => best
  | fuel + 1, low, high, best =>
    if low ≤ high then
      if fits (candidate ((low + high) / 2)) then
        searchFit fuel ((low + high) / 2 + 1) high (some (candidate ((low + high) / 2)))
      else searchFit fuel low ((low + high) / 2 - 1) best
    else best

/-- The largest candidate up to a number, if any fits. -/
structure IsLargest (top : ℤ) (best : Option α) : Prop where
  none_fits : best = none → ∀ i, 0 ≤ i → i ≤ top → fits (candidate i) = false
  largest : ∀ a, best = some a → ∃ i, 0 ≤ i ∧ i ≤ top ∧ a = candidate i ∧ fits a = true ∧
    ∀ j, i < j → j ≤ top → fits (candidate j) = false

variable {candidate fits} {top low high : ℤ} {best : Option α} {fuel : ℕ}

/-- The search keeps the largest candidate below `low`, if nothing above `high` fits. -/
theorem isLargest_searchFit
    (hmono : ∀ i j, 0 ≤ i → i ≤ j → j ≤ top → fits (candidate j) = true →
      fits (candidate i) = true)
    (hlow : 0 ≤ low) (hhigh : high ≤ top) (hfuel : high + 1 - low ≤ fuel)
    (habove : ∀ j, high < j → j ≤ top → fits (candidate j) = false)
    (hnone : best = none → low = 0)
    (hbest : ∀ a, best = some a → 0 ≤ low - 1 ∧ low - 1 ≤ high ∧ a = candidate (low - 1) ∧
      fits a = true) :
    IsLargest candidate fits top (searchFit candidate fits fuel low high best) := by
  induction fuel generalizing low high best with
  | zero =>
    have hempty : high < low := by omega
    refine ⟨fun h i hi hle => ?_, fun a h => ?_⟩
    · have hlow0 := hnone h
      exact habove i (by omega) hle
    · obtain ⟨hpos, hle, ha, hfits⟩ := hbest a h
      exact ⟨low - 1, hpos, by omega, ha, hfits, fun j hj hjle => habove j (by omega) hjle⟩
  | succ fuel ih =>
    unfold searchFit
    by_cases hle : low ≤ high
    · rw [if_pos hle]
      have hmiddle : low ≤ (low + high) / 2 ∧ (low + high) / 2 ≤ high := by omega
      by_cases hfits : fits (candidate ((low + high) / 2)) = true
      · rw [if_pos hfits]
        refine ih (by omega) hhigh (by push_cast at hfuel; omega) habove (fun h => by cases h) ?_
        rintro a ⟨⟩
        exact ⟨by omega, by omega, by congr 1; omega, hfits⟩
      · rw [if_neg hfits]
        refine ih hlow (by omega) (by push_cast at hfuel; omega) (fun j hj hjle => ?_) hnone ?_
        · by_contra hj'
          exact hfits (hmono _ j (by omega) (by omega) hjle (by simpa using hj'))
        · intro a ha
          obtain ⟨hpos, -, heq, hfit⟩ := hbest a ha
          refine ⟨hpos, ?_, heq, hfit⟩
          by_contra hlt
          refine hfits (hmono _ (low - 1) (by omega) (by omega) (by omega) ?_)
          rw [← heq, hfit]
    · rw [if_neg hle]
      refine ⟨fun h i hi hile => ?_, fun a h => ?_⟩
      · have hlow0 := hnone h
        exact habove i (by omega) hile
      · obtain ⟨hpos, hle', ha, hfits⟩ := hbest a h
        exact ⟨low - 1, hpos, by omega, ha, hfits, fun j hj hjle => habove j (by omega) hjle⟩

theorem isLargest_search (htop : 0 ≤ top)
    (hmono : ∀ i j, 0 ≤ i → i ≤ j → j ≤ top → fits (candidate j) = true →
      fits (candidate i) = true) :
    IsLargest candidate fits top (searchFit candidate fits (top.toNat + 1) 0 top none) :=
  isLargest_searchFit hmono le_rfl le_rfl (by push_cast; omega) (fun j hj hle => by omega)
    (fun _ => rfl) fun _ h => by cases h

theorem searchFit_fits (hbest : ∀ a, best = some a → fits a = true) {a : α}
    (h : searchFit candidate fits fuel low high best = some a) : fits a = true := by
  induction fuel generalizing low high best with
  | zero => exact hbest a h
  | succ fuel ih =>
    unfold searchFit at h
    split at h
    · split at h
      · rename_i hfits
        refine ih (fun b hb => ?_) h
        cases hb
        exact hfits
      · exact ih hbest h
    · exact hbest a h

end LargestFit

namespace Mottainai.SelfReportedSizes

section Digits

def digits (n : ℕ) : ℕ := (Nat.toDigits 10 n).length

theorem digits_pos (n : ℕ) : 0 < digits n := Nat.length_toDigits_pos

theorem digits_le_iff {n k : ℕ} (hk : 0 < k) : digits n ≤ k ↔ n < 10 ^ k :=
  Nat.length_toDigits_le_iff (by decide) hk

theorem lt_pow_digits (n : ℕ) : n < 10 ^ digits n := (digits_le_iff (digits_pos n)).1 le_rfl

theorem digits_mono {m n : ℕ} (h : m ≤ n) : digits m ≤ digits n :=
  (digits_le_iff (digits_pos n)).2 (h.trans_lt (lt_pow_digits n))

/-- A number that is at most ten times as large has at most one digit more. -/
theorem digits_le_succ {m n : ℕ} (h : m ≤ 10 * n) : digits m ≤ digits n + 1 := by
  rw [digits_le_iff (Nat.succ_pos _), Nat.pow_succ]
  have hlt := lt_pow_digits n
  omega

theorem digits_le {n : ℕ} (hn : 0 < n) : digits n ≤ n :=
  (digits_le_iff hn).2 (Nat.lt_pow_self (by decide))

end Digits

section Settling

variable {f : ℕ → ℕ} {n : ℕ}

/-- A growing sequence that grows by no more than `k` in all stands still within `k` steps. -/
theorem exists_fixed_iterate {k : ℕ} (hmono : Monotone f) (hn : n ≤ f n)
    (hbound : ∀ m, f^[m] n ≤ n + k) : ∃ m ≤ k, f (f^[m] n) = f^[m] n := by
  by_contra hnone
  push Not at hnone
  have hgrows : ∀ m ≤ k + 1, n + m ≤ f^[m] n := by
    intro m
    induction m with
    | zero => exact fun _ => le_rfl
    | succ m ih =>
      intro hm
      have hle : f^[m] n ≤ f^[m + 1] n := hmono.monotone_iterate_of_le_map hn (Nat.le_succ m)
      have hne : f^[m + 1] n ≠ f^[m] n := by
        rw [Function.iterate_succ_apply']
        exact hnone m (by omega)
      have hprevious := ih (by omega)
      omega
  have htop := hgrows (k + 1) le_rfl
  have hle := hbound (k + 1)
  omega

/-- The size of a text that reports its size and a quarter of it, with `rest` bytes besides. -/
def reportedSize (rest n : ℕ) : ℕ := rest + digits n + digits ((n + 3) / 4)

theorem reportedSize_mono (rest : ℕ) : Monotone (reportedSize rest) := by
  intro m n h
  have hdigits := digits_mono h
  have hquarter : digits ((m + 3) / 4) ≤ digits ((n + 3) / 4) := digits_mono (by omega)
  simp only [reportedSize]
  omega

/-- Nothing that is at most ten times as large makes the size grow by more than two. -/
theorem reportedSize_le {rest m n : ℕ} (hm : m ≤ 10 * n) :
    reportedSize rest m ≤ reportedSize rest n + 2 := by
  have hdigits : digits m ≤ digits n + 1 := digits_le_succ hm
  have hquarter : digits ((m + 3) / 4) ≤ digits ((n + 3) / 4) + 1 := digits_le_succ (by omega)
  simp only [reportedSize]
  omega

/-- From the first print on, all sizes are at most ten times as large. -/
theorem reportedSize_iterate_le {rest n : ℕ} (hn : 2 ≤ n) (hrest : rest ≤ n) (m : ℕ) :
    (reportedSize rest)^[m] n ≤ 10 * n := by
  induction m with
  | zero => rw [Function.iterate_zero_apply]; omega
  | succ m ih =>
    rw [Function.iterate_succ_apply']
    have hle := @reportedSize_le rest _ _ ih
    have hdigits : digits n ≤ n := digits_le (by omega)
    have hquarter : digits ((n + 3) / 4) ≤ digits n := digits_mono (by omega)
    simp only [reportedSize] at hle ⊢
    omega

/-- The size that starts from a report of zero settles in the fourth print, or before. -/
theorem exists_fixed_reportedSize (rest : ℕ) :
    ∃ m ≤ 4, reportedSize rest ((reportedSize rest)^[m] 0) = (reportedSize rest)^[m] 0 := by
  have hmono := reportedSize_mono rest
  have hfirst : reportedSize rest 0 = rest + 2 := rfl
  have hsecond : rest + 2 ≤ reportedSize rest (rest + 2) := by
    rw [← hfirst]
    exact hmono (Nat.zero_le _)
  have hbound : ∀ m, (reportedSize rest)^[m] (reportedSize rest (rest + 2)) ≤
      reportedSize rest (rest + 2) + 2 := by
    intro m
    rw [← Function.iterate_succ_apply, Function.iterate_succ_apply']
    exact reportedSize_le (reportedSize_iterate_le (by omega) (by omega) m)
  obtain ⟨m, hm, hfixed⟩ := exists_fixed_iterate hmono (hmono hsecond) hbound
  refine ⟨m + 2, by omega, ?_⟩
  rw [Function.iterate_add_apply]
  exact hfixed

end Settling

end Mottainai.SelfReportedSizes
