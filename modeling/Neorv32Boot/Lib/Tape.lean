import Neorv32Boot.Lib.Duplex

/-!
# A bus on record

A device that may answer anything: the words that come in are those of a fixed row, one for each
word that goes out.  What the driver does is recorded, with the select line, so that the loops of a
driver are known by what they put on the record.
-/

namespace Neorv32Boot

/-- The select line, and the words that went out so far, each with the select line at that time. -/
structure Tape (β : Type*) where
  selected : Bool
  sent : List (β × Bool)

namespace Tape

variable {β : Type*}

/-- The number of words on the record. -/
def count (s : Tape β) : ℕ := s.sent.length

/-- Words go out. -/
def clock (s : Tape β) (bs : List β) : Tape β :=
  { s with sent := s.sent ++ bs.map fun b => (b, s.selected) }

@[simp] lemma count_clock (s : Tape β) (bs : List β) :
    (s.clock bs).count = s.count + bs.length := by
  simp [clock, count]

@[simp] lemma clock_nil (s : Tape β) : s.clock [] = s := by
  simp [clock]

@[simp] lemma clock_clock (s : Tape β) (xs ys : List β) :
    (s.clock xs).clock ys = s.clock (xs ++ ys) := by
  simp [clock]

/-- A device that answers with the words of a row, and what the driver does to it. -/
def bus (row : ℕ → β) : Bus β (Tape β) where
  xchg b s := (row s.count, s.clock [b])
  select on s := { s with selected := on }

/-- The word `k` from `start` on is the first that is wanted, or the last of `n + 1`. -/
structure Stops (row : ℕ → β) (wanted : β → Bool) (start n k : ℕ) : Prop where
  le : k ≤ n
  before : ∀ j < k, wanted (row (start + j)) = false
  stop : wanted (row (start + k)) = true ∨ k = n

/-- The word is wanted exactly when one of the `n + 1` is. -/
lemma Stops.wanted_iff {row : ℕ → β} {wanted : β → Bool} {start n k : ℕ}
    (h : Stops row wanted start n k) :
    wanted (row (start + k)) = true ↔ ∃ j < n + 1, wanted (row (start + j)) = true := by
  constructor
  · intro hk
    exact ⟨k, Nat.lt_succ_of_le h.le, hk⟩
  · rintro ⟨j, hj, hwant⟩
    rcases h.stop with hk | rfl
    · exact hk
    · rcases Nat.lt_succ_iff_lt_or_eq.1 hj with hlt | rfl
      · rw [h.before j hlt] at hwant
        exact absurd hwant Bool.false_ne_true
      · exact hwant

variable (row : ℕ → β)

lemma xchg_bus (b : β) (s : Tape β) : (bus row).xchg b s = (row s.count, s.clock [b]) := rfl

lemma sends_bus (bs : List β) (s : Tape β) : (bus row).sends bs s = s.clock bs := by
  induction bs generalizing s with
  | nil => rw [Bus.sends, clock_nil]
  | cons b bs ih =>
    rw [Bus.sends, ih]
    exact clock_clock s [b] bs

lemma recvs_bus (fill : β) (n : ℕ) (s : Tape β) :
    (bus row).recvs fill n s =
      ((List.range n).map fun i => row (s.count + i), s.clock (List.replicate n fill)) := by
  induction n generalizing s with
  | zero => simp [Bus.recvs]
  | succ n ih =>
    rw [Bus.recvs, xchg_bus, ih, clock_clock, List.range_succ_eq_map, List.map_cons, List.map_map]
    simp [Function.comp_def, List.replicate_succ, Nat.add_assoc, Nat.add_comm 1]

/-- A loop that polls stops at the first word that is wanted, or at the last. -/
lemma poll_bus (fill : β) (wanted : β → Bool) (n : ℕ) (last : β) (s : Tape β) :
    ∃ k, Stops row wanted s.count n k ∧ (bus row).poll fill wanted (n + 1) last s =
      (row (s.count + k), s.clock (List.replicate (k + 1) fill)) := by
  induction n generalizing last s with
  | zero =>
    refine ⟨0, ⟨le_rfl, nofun, Or.inr rfl⟩, ?_⟩
    rw [Bus.poll, xchg_bus]
    split_ifs <;> rfl
  | succ n ih =>
    by_cases hw : wanted (row s.count) = true
    · refine ⟨0, ⟨Nat.zero_le _, nofun, Or.inl hw⟩, ?_⟩
      rw [Bus.poll, xchg_bus]
      exact if_pos hw
    · obtain ⟨k, hk, hpoll⟩ := ih (row s.count) (s.clock [fill])
      have hcount : (s.clock [fill]).count = s.count + 1 := count_clock s [fill]
      refine ⟨k + 1, ⟨Nat.succ_le_succ hk.le, ?_, ?_⟩, ?_⟩
      · rintro (_ | j) hj
        · exact Bool.eq_false_iff.2 hw
        · have := hk.before j (Nat.lt_of_succ_lt_succ hj)
          rwa [hcount, Nat.add_assoc, Nat.add_comm 1] at this
      · rcases hk.stop with hs | rfl
        · rw [hcount, Nat.add_assoc, Nat.add_comm 1] at hs
          exact Or.inl hs
        · exact Or.inr rfl
      · rw [Bus.poll, xchg_bus]
        simp only [hw, Bool.false_eq_true, if_false]
        rw [hpoll, clock_clock, hcount, Nat.add_assoc, Nat.add_comm 1]
        rfl

end Tape

end Neorv32Boot
