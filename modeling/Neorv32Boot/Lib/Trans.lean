import Mathlib.Tactic

/-!
# Transition systems

A system is a partial step function on states and actions: an action that is not enabled has no
successor.  The actions are chosen by the environment, so that a run is any sequence of enabled
ones.  This file has the invariant rule for reachable states, and the rule that shows, by a
ranking, that every run comes to a state of a given kind.
-/

namespace Neorv32Boot.Trans

variable {σ α : Type*} (step : σ → α → Option σ)

/-- The states of all runs from `s₀`. -/
inductive Reachable (s₀ : σ) : σ → Prop
  | refl : Reachable s₀ s₀
  | tail {s s' : σ} {a : α} (h : Reachable s₀ s) (hs : step s a = some s') : Reachable s₀ s'

/-- Every run comes to a state of kind `P`: it is there, or it can go on, and every way to go on
comes there. -/
inductive Inevitable (P : σ → Prop) : σ → Prop
  | now {s : σ} (h : P s) : Inevitable P s
  | later {s : σ} (hgo : ∃ a s', step s a = some s')
      (hall : ∀ a s', step s a = some s' → Inevitable P s') : Inevitable P s

/-- The system with those steps only that meet a condition. -/
def restrict (ok : σ → α → Bool) (s : σ) (a : α) : Option σ := if ok s a then step s a else none

/-- The run of a list of actions. -/
def run (s : σ) : List α → Option σ
  | [] => some s
  | a :: as => (step s a).bind fun s' => run s' as

/-- The system with a record of what has happened. -/
def withHistory {η : Type*} (note : σ → α → η → η) (x : σ × η) (a : α) : Option (σ × η) :=
  (step x.1 a).map fun s => (s, note x.1 a x.2)

/-- Every step of the run of a list of actions is of kind `Q`, as far as the run goes. -/
def Along (Q : σ → α → σ → Prop) (s : σ) : List α → Prop
  | [] => True
  | a :: as => ∀ s', step s a = some s' → Q s a s' ∧ Along Q s' as

variable {step}

lemma restrict_eq_some {ok : σ → α → Bool} {s s' : σ} {a : α} :
    restrict step ok s a = some s' ↔ ok s a = true ∧ step s a = some s' := by
  rw [restrict]
  split_ifs with h <;> simp [h]

/-- What holds initially and is kept by every step holds in every reachable state. -/
theorem Reachable.inv {I : σ → Prop} {s₀ s : σ} (h : Reachable step s₀ s) (h₀ : I s₀)
    (hstep : ∀ s a s', I s → step s a = some s' → I s') : I s := by
  induction h with
  | refl => exact h₀
  | tail _ hs ih => exact hstep _ _ _ ih hs

lemma Reachable.trans {s t u : σ} (h : Reachable step s t) (h' : Reachable step t u) :
    Reachable step s u := by
  induction h' with
  | refl => exact h
  | tail _ hs ih => exact .tail ih hs

/-- A record is no restriction. -/
lemma Reachable.withHistory {η : Type*} (note : σ → α → η → η) (l₀ : η) {s₀ s : σ}
    (h : Reachable step s₀ s) : ∃ l, Reachable (withHistory step note) (s₀, l₀) (s, l) := by
  induction h with
  | refl => exact ⟨l₀, .refl⟩
  | @tail s s' a _ hs ih =>
    obtain ⟨l, hl⟩ := ih
    have hl' : Trans.withHistory step note (s, l) a = some (s', note s a l) := by
      rw [Trans.withHistory, hs]
      rfl
    exact ⟨_, hl.tail hl'⟩

/-- A run with a record is a run. -/
lemma Reachable.forget {η : Type*} {note : σ → α → η → η} {x y : σ × η}
    (h : Reachable (Trans.withHistory step note) x y) : Reachable step x.1 y.1 := by
  induction h with
  | refl => exact .refl
  | tail _ hs ih =>
    obtain ⟨s, hstep, rfl⟩ := Option.map_eq_some_iff.1 hs
    exact ih.tail hstep

/-- A run leads to a reachable state. -/
lemma reachable_of_run {s s' : σ} {as : List α} (h : run step s as = some s') :
    Reachable step s s' := by
  induction as generalizing s with
  | nil =>
    cases h
    exact .refl
  | cons a as ih =>
    obtain ⟨t, hs, ht⟩ := Option.bind_eq_some_iff.1 h
    exact Reachable.trans (.tail .refl hs) (ih ht)

/-- Two kinds of steps hold along the same runs, when they agree at the states of an invariant that
the steps of the second kind keep. -/
theorem along_iff {Q R : σ → α → σ → Prop} {I : σ → Prop} {as : List α}
    (hQR : ∀ a ∈ as, ∀ s s', I s → step s a = some s' → (Q s a s' ↔ R s a s'))
    (hI : ∀ a ∈ as, ∀ s s', I s → step s a = some s' → R s a s' → I s') {s : σ} (hs : I s) :
    Along step Q s as ↔ Along step R s as := by
  induction as generalizing s with
  | nil => exact Iff.rfl
  | cons a as ih =>
    obtain ⟨hQR₁, hQR⟩ := List.forall_mem_cons.1 hQR
    obtain ⟨hI₁, hI⟩ := List.forall_mem_cons.1 hI
    rw [Along, Along]
    refine forall₂_congr fun s' hstep => ?_
    rw [hQR₁ s s' hs hstep]
    exact and_congr_right fun hR => ih hQR hI (hI₁ s s' hs hstep hR)

/-- Every run from a ranked state comes to a state of kind `P`, when a ranked state that is not of
this kind can go on, and goes on to states of smaller rank only. -/
theorem Inevitable.of_rank {ρ : Type*} {r : ρ → ρ → Prop} (wf : WellFounded r)
    {P : σ → Prop} {I : ρ → σ → Prop}
    (hgo : ∀ x s, I x s → P s ∨ ∃ a s', step s a = some s')
    (hdec : ∀ x s a s', I x s → step s a = some s' → P s ∨ ∃ y, r y x ∧ I y s')
    {x : ρ} {s : σ} (h : I x s) : Inevitable step P s := by
  induction x using wf.induction generalizing s with
  | _ x ih =>
    by_cases hP : P s
    · exact .now hP
    · refine .later ((hgo x s h).resolve_left hP) fun a s' hs => ?_
      obtain ⟨y, hy, hI⟩ := (hdec x s a s' h hs).resolve_left hP
      exact ih y hy hI

/-- What is inevitable is reached by some run. -/
lemma Inevitable.exists_reachable {P : σ → Prop} {s : σ} (h : Inevitable step P s) :
    ∃ s', Reachable step s s' ∧ P s' := by
  induction h with
  | now h => exact ⟨_, .refl, h⟩
  | later hgo _ ih =>
    obtain ⟨a, s', hs⟩ := hgo
    obtain ⟨t, ht, hP⟩ := ih a s' hs
    exact ⟨t, Reachable.trans (.tail .refl hs) ht, hP⟩

end Neorv32Boot.Trans
