import Mathlib.Tactic
import Mathlib.Algebra.BigOperators.Intervals

/-!
# Synchronous machines

A synchronous machine is a next-state function that is applied once a clock, to the current
state and to the inputs of that clock.  This file has the run of such a machine under an
infinite sequence of inputs, the rule that carries an invariant along a run, and the number of
clocks of a window in which an event happens.
-/

namespace Neorv32Boot.Clocked

variable {σ ι : Type*}

/-- The state after `n` clocks. -/
def run (next : σ → ι → σ) (s₀ : σ) (inp : ℕ → ι) : ℕ → σ
  | 0 => s₀
  | n + 1 => next (run next s₀ inp n) (inp n)

variable {next : σ → ι → σ} {s₀ : σ} {inp : ℕ → ι}

@[simp] lemma run_zero : run next s₀ inp 0 = s₀ := rfl

lemma run_succ (n : ℕ) : run next s₀ inp (n + 1) = next (run next s₀ inp n) (inp n) := rfl

/-- The state after `n` clocks depends on the inputs of these clocks only. -/
lemma run_congr {inp' : ℕ → ι} {n : ℕ} (h : ∀ i < n, inp i = inp' i) :
    run next s₀ inp n = run next s₀ inp' n := by
  induction n with
  | zero => rfl
  | succ n ih =>
    rw [run_succ, run_succ, ih fun i hi => h i (Nat.lt_succ_of_lt hi), h n n.lt_succ_self]

/-- A property of the initial state that every clock preserves holds after every number of
clocks. -/
lemma run_inv {I : σ → Prop} (h₀ : I s₀) (hstep : ∀ s i, I s → I (next s i)) (n : ℕ) :
    I (run next s₀ inp n) := by
  induction n with
  | zero => exact h₀
  | succ n ih => exact hstep _ _ ih

/-- A property of the initial state that every clock preserves in a state of kind `C` holds as long
as the states before are of this kind. -/
lemma run_inv_of {I C : σ → Prop} (h₀ : I s₀) (hstep : ∀ s i, C s → I s → I (next s i)) {n : ℕ}
    (hC : ∀ k < n, C (run next s₀ inp k)) : I (run next s₀ inp n) := by
  induction n with
  | zero => exact h₀
  | succ n ih =>
    have hI := ih fun k hk => hC k (Nat.lt_succ_of_lt hk)
    exact hstep _ _ (hC n n.lt_succ_self) hI

/-- If every state of rank `m + 1` steps to a state of rank `m`, for whatever input, then the
rank counts the clocks down. -/
lemma run_rank {R : ℕ → σ → Prop} (hstep : ∀ m s i, R (m + 1) s → R m (next s i)) {n : ℕ}
    (h₀ : R n s₀) : ∀ k ≤ n, R (n - k) (run next s₀ inp k) := by
  intro k
  induction k with
  | zero => intro _; exact h₀
  | succ k ih =>
    intro hk
    have h := ih (by omega)
    rw [show n - k = n - (k + 1) + 1 by omega] at h
    exact hstep _ _ _ h

/-- A property that holds after `a` clocks and that every clock preserves holds from then on. -/
lemma run_inv_from {I : σ → Prop} {a : ℕ} (ha : I (run next s₀ inp a))
    (hstep : ∀ s i, I s → I (next s i)) {n : ℕ} (hn : a ≤ n) : I (run next s₀ inp n) := by
  induction n, hn using Nat.le_induction with
  | base => exact ha
  | succ n _ ih => exact hstep _ _ ih

/-! ### Counting events -/

/-- The number of clocks `m` with `a ≤ m < b` at which `p` holds. -/
def countIn (p : ℕ → Prop) [DecidablePred p] (a b : ℕ) : ℕ :=
  ((Finset.Ico a b).filter p).card

variable {p : ℕ → Prop} [DecidablePred p]

@[simp] lemma countIn_self (a : ℕ) : countIn p a a = 0 := by
  simp [countIn]

lemma countIn_succ {a b : ℕ} (h : a ≤ b) :
    countIn p a (b + 1) = countIn p a b + if p b then 1 else 0 := by
  unfold countIn
  rw [Finset.card_filter, Finset.sum_Ico_succ_top h, ← Finset.card_filter]

lemma countIn_add {a b c : ℕ} (hab : a ≤ b) (hbc : b ≤ c) :
    countIn p a c = countIn p a b + countIn p b c := by
  unfold countIn
  rw [Finset.card_filter, Finset.card_filter, Finset.card_filter,
    Finset.sum_Ico_consecutive _ hab hbc]

end Neorv32Boot.Clocked
