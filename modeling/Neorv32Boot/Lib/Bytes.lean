import Mathlib.Tactic

/-!
# Bytes

Byte strings, their little-endian numbers of a fixed width, and their hexadecimal digits.
-/

namespace Neorv32Boot

/-- A byte. -/
abbrev Byte : Type := BitVec 8

/-- The bytes of an ASCII text. -/
def ascii (s : String) : List Byte := s.toList.map fun c => BitVec.ofNat 8 c.toNat

namespace Bytes

/-! ### Little-endian numbers -/

/-- The `w` low bytes of `n`, the least significant one first. -/
def toLE : ℕ → ℕ → List Byte
  | 0, _ => []
  | w + 1, n => BitVec.ofNat 8 n :: toLE w (n / 256)

/-- The number that bytes encode, the least significant one first. -/
def ofLE : List Byte → ℕ
  | [] => 0
  | b :: bs => b.toNat + 256 * ofLE bs

@[simp] lemma length_toLE (w n : ℕ) : (toLE w n).length = w := by
  induction w generalizing n with
  | zero => rfl
  | succ w ih => simp [toLE, ih]

lemma ofLE_toLE (w n : ℕ) : ofLE (toLE w n) = n % 256 ^ w := by
  induction w generalizing n with
  | zero => simp [toLE, ofLE, Nat.mod_one]
  | succ w ih => rw [toLE, ofLE, ih, BitVec.toNat_ofNat, pow_succ' 256, Nat.mod_mul]

lemma ofLE_toLE_of_lt {w n : ℕ} (h : n < 256 ^ w) : ofLE (toLE w n) = n := by
  rw [ofLE_toLE, Nat.mod_eq_of_lt h]

/-- The number at offset `o` of a byte string, `w` bytes wide. -/
def leAt (w : ℕ) (bs : List Byte) (o : ℕ) : ℕ := ofLE ((bs.drop o).take w)

/-- The field `k` of a row of fields of one width. -/
lemma leAt_flatMap_toLE (w : ℕ) (xs : List ℕ) (k : ℕ) (hk : k < xs.length) (rest : List Byte)
    (hx : ∀ x ∈ xs, x < 256 ^ w) : leAt w (xs.flatMap (toLE w) ++ rest) (w * k) = xs[k] := by
  induction xs generalizing k with
  | nil => simp at hk
  | cons x xs ih =>
    cases k with
    | zero =>
      have htake : ((toLE w x ++ (xs.flatMap (toLE w) ++ rest)).take w) = toLE w x :=
        List.take_left' (length_toLE w x)
      simp only [leAt, List.flatMap_cons, List.append_assoc, Nat.mul_zero, List.drop_zero, htake,
        List.getElem_cons_zero]
      exact ofLE_toLE_of_lt (hx x (by simp))
    | succ k =>
      have hdrop : (toLE w x ++ (xs.flatMap (toLE w) ++ rest)).drop (w * (k + 1)) =
          (xs.flatMap (toLE w) ++ rest).drop (w * k) := by
        rw [Nat.mul_succ, Nat.add_comm, ← List.drop_drop, List.drop_left' (length_toLE w x)]
      simp only [leAt, List.flatMap_cons, List.append_assoc, hdrop, List.getElem_cons_succ]
      exact ih k (by simpa using hk) fun y hy => hx y (by simp [hy])

lemma length_flatMap_toLE (w : ℕ) (xs : List ℕ) :
    (xs.flatMap (toLE w)).length = w * xs.length := by
  induction xs with
  | nil => simp
  | cons x xs ih => simp [ih, Nat.mul_succ, Nat.add_comm]

/-- A byte string is encoded back from its number. -/
lemma toLE_ofLE (bs : List Byte) : toLE bs.length (ofLE bs) = bs := by
  induction bs with
  | nil => rfl
  | cons b bs ih =>
    have hlow : BitVec.ofNat 8 (b.toNat + 256 * ofLE bs) = b := by
      rw [← BitVec.toNat_inj, BitVec.toNat_ofNat]
      omega
    have hhigh : (b.toNat + 256 * ofLE bs) / 256 = ofLE bs := by omega
    rw [List.length_cons, ofLE, toLE, hlow, hhigh, ih]

lemma ofLE_lt (bs : List Byte) : ofLE bs < 256 ^ bs.length := by
  induction bs with
  | nil => exact Nat.one_pos
  | cons b bs ih =>
    rw [ofLE, List.length_cons, pow_succ]
    omega

lemma leAt_lt {w o : ℕ} {bs : List Byte} (h : o + w ≤ bs.length) : leAt w bs o < 256 ^ w := by
  have hlen : ((bs.drop o).take w).length = w := by
    rw [List.length_take, List.length_drop]
    omega
  exact (ofLE_lt _).trans_eq (by rw [hlen])

/-- The fields of a row are encoded back to its bytes. -/
lemma flatMap_toLE_leAt (w n : ℕ) (bs : List Byte) (h : w * n ≤ bs.length) :
    ((List.range n).map fun k => leAt w bs (w * k)).flatMap (toLE w) = bs.take (w * n) := by
  induction n with
  | zero => simp
  | succ n ih =>
    have hlen : ((bs.drop (w * n)).take w).length = w := by
      rw [List.length_take, List.length_drop]
      rw [Nat.mul_succ] at h
      omega
    have hlast : toLE w (leAt w bs (w * n)) = (bs.drop (w * n)).take w := by
      have := toLE_ofLE ((bs.drop (w * n)).take w)
      rwa [hlen] at this
    rw [List.range_succ, List.map_append, List.flatMap_append,
      ih ((Nat.mul_le_mul_left w n.le_succ).trans h), List.map_singleton, List.flatMap_singleton,
      hlast, Nat.mul_succ, List.take_add]

end Bytes

end Neorv32Boot
