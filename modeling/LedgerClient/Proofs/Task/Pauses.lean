import LedgerClient.Proofs.Task.Attempts
import LedgerClient.Settings.Client
import Mathlib.Data.Nat.Fib.Basic

/-!
# The pauses of a growing backoff

A growing backoff goes through the Fibonacci multiples of its base up to the first one that has
reached the maximum, and stays there.  That one is added up before anything is compared with the
maximum, so it can be above it, and then all the pauses from there on are.
`Retries.receipt_pauses_capped_iff` says in which runs of the receipt policy this happens, and how
long the pauses can get.
-/

namespace LedgerClient

open Time Settings

namespace Backoff

variable {base cap k : Nat}

/-! ## Fibonacci multiples -/

/-- As long as no multiple before has reached the maximum, a pause is the multiple of its number. -/
theorem growing_eq_fib (h : ∀ j < k, base * Nat.fib (j + 1) < cap) :
    growing base cap k = base * Nat.fib (k + 1) := by
  induction k using Nat.twoStepInduction with
  | zero => simp [growing]
  | one => simp [growing]
  | more k ih₀ ih₁ =>
    have hprevious := ih₀ fun j hj => h j (by omega)
    have hcurrent := ih₁ fun j hj => h j (by omega)
    have hlt : growing base cap (k + 1) < cap := hcurrent ▸ h (k + 1) (by omega)
    calc growing base cap (k + 2)
        = base * Nat.fib (k + 1) + base * Nat.fib (k + 2) := by
          rw [growing_of_lt hlt, hprevious, hcurrent]
      _ = base * Nat.fib (k + 3) := by rw [← Nat.mul_add, Nat.fib_add_two (n := k + 1)]

/-- From a pause that has reached the maximum on, all are the same. -/
theorem growing_eq_of_le {j : Nat} (hmax : cap ≤ growing base cap j) (hle : j ≤ k) :
    growing base cap k = growing base cap j := by
  induction k, hle using Nat.le_induction with
  | base => rfl
  | succ k _ ih =>
    have hstays := growing_of_le (k := k) (by rwa [ih])
    exact hstays.trans ih

/-- Every pause is one of the multiples up to the first that has reached the maximum. -/
theorem exists_growing_eq_fib (base cap k : Nat) :
    ∃ j ≤ k, (∀ i < j, base * Nat.fib (i + 1) < cap) ∧
      growing base cap k = base * Nat.fib (j + 1) := by
  by_cases hall : ∀ i < k, base * Nat.fib (i + 1) < cap
  · exact ⟨k, Nat.le_refl _, hall, growing_eq_fib hall⟩
  · have hreached : ∃ j, j < k ∧ cap ≤ base * Nat.fib (j + 1) := by simpa using hall
    let j := Nat.find hreached
    obtain ⟨hlt, hmax⟩ := Nat.find_spec hreached
    have hbefore : ∀ i < j, base * Nat.fib (i + 1) < cap := fun i hi =>
      Nat.lt_of_not_le fun hle => Nat.find_min hreached hi ⟨Nat.lt_trans hi hlt, hle⟩
    have hfirst := growing_eq_fib hbefore
    refine ⟨j, Nat.le_of_lt hlt, hbefore, ?_⟩
    rw [growing_eq_of_le (hfirst.symm ▸ hmax) (Nat.le_of_lt hlt), hfirst]

/-- A pause that is not the base is the sum of two that are below the maximum. -/
theorem growing_le_max (base cap k : Nat) : growing base cap k ≤ max base (2 * cap) := by
  obtain ⟨j, -, hbefore, heq⟩ := exists_growing_eq_fib base cap k
  suffices hmultiple : base * Nat.fib (j + 1) ≤ max base (2 * cap) from heq ▸ hmultiple
  match j with
  | 0 | 1 =>
    have hbase : base * Nat.fib 1 = base := by rw [Nat.fib_one, Nat.mul_one]
    exact hbase.trans_le (Nat.le_max_left _ _)
  | j + 2 =>
    have h₀ := hbefore j (by omega)
    have h₁ := hbefore (j + 1) (by omega)
    rw [Nat.fib_add_two (n := j + 1), Nat.mul_add]
    omega

/-- The first pauses are capped just if the first multiple that has reached the maximum, if there is
one among them, is the maximum itself. -/
theorem growing_le_iff (base cap n : Nat) :
    (∀ k < n, growing base cap k ≤ cap) ↔
      ∀ k < n, (∀ j < k, base * Nat.fib (j + 1) < cap) → base * Nat.fib (k + 1) ≤ cap := by
  constructor
  · intro hcapped k hk hbefore
    exact growing_eq_fib hbefore ▸ hcapped k hk
  · intro hmultiples k hk
    obtain ⟨j, hle, hbefore, heq⟩ := exists_growing_eq_fib base cap k
    exact heq ▸ hmultiples j (Nat.lt_of_le_of_lt hle hk) hbefore

end Backoff

/-! ## Pauses of a run -/

namespace RetryPolicy

variable {α : Type} (p : RetryPolicy) (attempts : Nat → Attempt α)

/-- The attempts of a run are the first ones, each at its start. -/
theorem starts_timeline :
    ∃ last, (p.timeline attempts).2.starts = p.startsOf attempts (last + 1) := by
  obtain ⟨last, -, -, -, hrun⟩ := p.timeline_attemptUpTo attempts (p.maxAttempts - 1) 0
  exact ⟨0 + last, congrArg (·.2.starts) hrun⟩

theorem getElem?_reverse_startsOf {n k : Nat} {t : Millis} :
    (p.startsOf attempts n).reverse[k]? = some t ↔ k < n ∧ p.startOf attempts k = t := by
  simp [startsOf, List.getElem?_eq_some_iff]

/-- Between an attempt of a run and the next one there is at most this time. -/
def PausesWithin (d : Millis) : Prop :=
  let starts := (p.timeline attempts).2.starts.reverse
  ∀ k t t', starts[k]? = some t → starts[k + 1]? = some t' → t' ≤ t + (attempts k).span + d

theorem pausesWithin_iff (d : Millis) :
    p.PausesWithin attempts d ↔
      ∀ k < (p.timeline attempts).2.starts.length - 1, p.backoff.pause k ≤ d := by
  obtain ⟨last, hstarts⟩ := p.starts_timeline attempts
  have hlength : (p.startsOf attempts (last + 1)).length - 1 = last := by simp [startsOf]
  rw [PausesWithin, hstarts, hlength]
  constructor
  · intro h k hk
    have hgap := h k _ _ ((p.getElem?_reverse_startsOf attempts).2 ⟨by omega, rfl⟩)
      ((p.getElem?_reverse_startsOf attempts).2 ⟨by omega, rfl⟩)
    exact Nat.le_of_add_le_add_left hgap
  · intro h k t t' ht ht'
    obtain ⟨-, rfl⟩ := (p.getElem?_reverse_startsOf attempts).1 ht
    obtain ⟨hk, rfl⟩ := (p.getElem?_reverse_startsOf attempts).1 ht'
    exact Nat.add_le_add_left (h k (by omega)) _

end RetryPolicy

namespace Settings.Retries

variable {α : Type}

/-- The configured maximum caps the pauses of a run of the receipt policy just if the first
Fibonacci multiple of the base that has reached it, if the run goes that far, is the maximum itself.
In any case the base or twice the maximum caps them. -/
theorem receipt_pauses_capped_iff (retries : Retries) (attempts : Nat → Attempt α) :
    let base := retries.receiptBackoffMs.toNat
    let cap := retries.receiptMaxBackoffMs.toNat
    let pauses := (retries.receiptPolicy.timeline attempts).2.starts.length - 1
    (retries.receiptPolicy.PausesWithin attempts cap ↔
      ∀ k < pauses, (∀ j < k, base * Nat.fib (j + 1) < cap) → base * Nat.fib (k + 1) ≤ cap) ∧
    retries.receiptPolicy.PausesWithin attempts (max base (2 * cap)) := by
  intro base cap pauses
  simp only [RetryPolicy.pausesWithin_iff]
  exact ⟨Backoff.growing_le_iff base cap pauses, fun k _ => Backoff.growing_le_max base cap k⟩

/-- With the base and the maximum set by default, nine attempts are enough: of the pauses 500, 500,
1000, 1500, 2500, 4000, 6500 and 10500, the last is above the maximum of 8000. -/
theorem receipt_pause_above_maximum :
    let retries : Retries := { receiptAttempts := 9 }
    retries.receiptBackoffMs ≤ retries.receiptMaxBackoffMs ∧
      ¬ retries.receiptPolicy.PausesWithin
        (fun _ => ⟨0, (.error (.brokenNetwork "refused") : Except ClientError Unit)⟩)
        retries.receiptMaxBackoffMs.toNat := by
  refine ⟨by decide, fun h => ?_⟩
  have hlast : 27000 ≤ 16500 + 0 + 8000 := h 7 16500 27000 rfl rfl
  omega

end Settings.Retries
end LedgerClient
