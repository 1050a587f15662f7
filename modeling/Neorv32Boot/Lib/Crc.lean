import Mathlib.Data.List.GetD
import Mathlib.RingTheory.AdjoinRoot
import Mathlib.Tactic

/-!
# Cyclic redundancy codes

Bit strings as polynomials over the field of two elements, and the cyclic redundancy code of a bit
string as a remainder.  A shift register computes it: it holds the leading coefficient in bit 0, so
that a step shifts to the right.  The code tells two strings of one length apart when they differ
inside a window that is not longer than the code.
-/

namespace Neorv32Boot.Crc

open Polynomial

/-! ### Bit strings -/

/-- A bit as a coefficient. -/
def bit (b : Bool) : ZMod 2 := if b then 1 else 0

@[simp] lemma bit_false : bit false = 0 := rfl

lemma bit_xor (a b : Bool) : bit (a ^^ b) = bit a + bit b := by
  cases a <;> cases b <;> rfl

lemma bit_injective : Function.Injective bit := by
  intro a b h
  cases a <;> cases b <;> first | rfl | exact absurd h (by decide)

/-- A bit string as a polynomial: the first bit is the coefficient of the highest power. -/
noncomputable def poly : List Bool → (ZMod 2)[X]
  | [] => 0
  | b :: bs => C (bit b) * X ^ bs.length + poly bs

lemma coeff_poly (bs : List Bool) (k : ℕ) :
    (poly bs).coeff k = bit (bs.reverse.getD k false) := by
  induction bs with
  | nil => simp [poly]
  | cons b bs ih =>
    rw [poly, coeff_add, coeff_C_mul, coeff_X_pow, ih, List.reverse_cons]
    rcases lt_trichotomy k bs.length with hk | hk | hk
    · rw [if_neg hk.ne, mul_zero, zero_add, List.getD_append _ _ _ _ (by simpa using hk)]
    · simp [hk]
    · rw [if_neg hk.ne', mul_zero, zero_add, List.getD_eq_default _ _ (by simpa using hk.le),
        List.getD_eq_default _ _ (by simpa using hk)]

/-- A coefficient is a bit of the string. -/
lemma coeff_poly_of_lt {bs : List Bool} {k : ℕ} (h : k < bs.length) :
    (poly bs).coeff k = bit (bs[bs.length - 1 - k]?.getD false) := by
  rw [coeff_poly, List.getD_eq_getElem?_getD, List.getElem?_reverse h]

lemma coeff_poly_of_le {bs : List Bool} {k : ℕ} (h : bs.length ≤ k) : (poly bs).coeff k = 0 := by
  rw [coeff_poly, List.getD_eq_default _ _ (by simpa using h), bit_false]

lemma degree_poly_lt (bs : List Bool) : (poly bs).degree < bs.length :=
  (degree_lt_iff_coeff_zero _ _).2 fun _ => coeff_poly_of_le

lemma poly_append (xs ys : List Bool) :
    poly (xs ++ ys) = poly xs * X ^ ys.length + poly ys := by
  induction xs with
  | nil => simp [poly]
  | cons x xs ih =>
    rw [List.cons_append, poly, poly, ih, List.length_append, pow_add]
    ring

lemma eq_of_poly_eq {xs ys : List Bool} (hlen : xs.length = ys.length) (h : poly xs = poly ys) :
    xs = ys := by
  refine List.ext_getElem hlen fun i hx hy => bit_injective ?_
  have hi : xs.length - 1 - i < xs.length := by omega
  have hk := coeff_poly_of_lt hi
  rw [h, coeff_poly_of_lt (by omega), hlen, show ys.length - 1 - (ys.length - 1 - i) = i by omega,
    List.getElem?_eq_getElem hx, List.getElem?_eq_getElem hy] at hk
  exact hk.symm

/-! ### Registers -/

section Register

variable {w : ℕ}

/-- The bits of a register, from bit 0 on. -/
def bits (c : BitVec w) : List Bool := (List.range w).map c.getLsbD

@[simp] lemma length_bits (c : BitVec w) : (bits c).length = w := by
  rw [bits, List.length_map, List.length_range]

/-- The polynomial of a register: bit 0 is the coefficient of the highest power. -/
noncomputable def reg (c : BitVec w) : (ZMod 2)[X] := poly (bits c)

lemma coeff_reg (c : BitVec w) (k : ℕ) :
    (reg c).coeff k = if k < w then bit (c.getLsbD (w - 1 - k)) else 0 := by
  split_ifs with h
  · rw [reg, coeff_poly_of_lt (by rwa [length_bits]), length_bits, bits, List.getElem?_map,
      List.getElem?_range (by omega)]
    rfl
  · exact coeff_poly_of_le (by rw [length_bits]; omega)

lemma degree_reg_lt (c : BitVec w) : (reg c).degree < w := by
  have h := degree_poly_lt (bits c)
  rwa [length_bits] at h

lemma reg_injective : Function.Injective (reg (w := w)) := by
  intro c d h
  refine BitVec.eq_of_getLsbD_eq fun i hi => bit_injective ?_
  have hk := congrArg (fun p => p.coeff (w - 1 - i)) h
  simp only [coeff_reg, show w - 1 - i < w by omega, if_true,
    show w - 1 - (w - 1 - i) = i by omega] at hk
  exact hk

lemma reg_xor (c d : BitVec w) : reg (c ^^^ d) = reg c + reg d := by
  ext k
  rw [coeff_add, coeff_reg, coeff_reg, coeff_reg]
  split_ifs
  · rw [BitVec.getLsbD_xor, bit_xor]
  · rw [add_zero]

/-- A word that is stored in a wider register. -/
lemma reg_setWidth {v : ℕ} (h : v ≤ w) (b : BitVec v) :
    reg (b.setWidth w) = reg b * X ^ (w - v) := by
  ext k
  rw [coeff_mul_X_pow', coeff_reg, coeff_reg, BitVec.getLsbD_setWidth]
  by_cases hk : w - v ≤ k
  · rw [if_pos hk]
    by_cases hkw : k < w
    · rw [if_pos hkw, if_pos (by omega), show v - 1 - (k - (w - v)) = w - 1 - k by omega]
      simp [show w - 1 - k < w by omega]
    · rw [if_neg hkw, if_neg (by omega)]
  · rw [if_neg hk]
    split_ifs
    · rw [BitVec.getLsbD_of_ge b _ (by omega), Bool.and_false, bit_false]
    · rfl

/-- A shift to the right multiplies by `X`, but for bit 0. -/
lemma X_mul_reg (c : BitVec w) :
    X * reg c = C (bit (c.getLsbD 0)) * X ^ w + reg (c >>> 1) := by
  ext k
  rw [coeff_add, coeff_C_mul, coeff_X_pow, coeff_reg, BitVec.getLsbD_ushiftRight]
  rcases k with _ | k
  · rw [coeff_X_mul_zero]
    rcases Nat.eq_zero_or_pos w with rfl | hw
    · simp
    · rw [if_neg hw.ne, if_pos hw, mul_zero, zero_add, BitVec.getLsbD_of_ge c _ (by omega),
        bit_false]
  · rw [coeff_X_mul, coeff_reg]
    rcases lt_trichotomy (k + 1) w with hk | hk | hk
    · rw [if_pos (by omega), if_neg hk.ne, if_pos hk, mul_zero, zero_add,
        show 1 + (w - 1 - (k + 1)) = w - 1 - k by omega]
    · rw [if_pos (by omega), if_pos hk, if_neg (by omega), mul_one, add_zero,
        show w - 1 - k = 0 by omega]
    · rw [if_neg (by omega), if_neg hk.ne', if_neg (by omega), mul_zero, add_zero]

/-! ### The code -/

variable (g : BitVec w)

/-- The generator, without its leading coefficient in a register. -/
noncomputable def generator : (ZMod 2)[X] := X ^ w + reg g

lemma generator_monic : (generator g).Monic := monic_X_pow_add (degree_reg_lt g)

lemma degree_generator : (generator g).degree = w := by
  rw [generator, degree_add_eq_left_of_degree_lt, degree_X_pow]
  rw [degree_X_pow]
  exact degree_reg_lt g

/-- The remainder of a message behind a preset register. -/
noncomputable def remainder (preset : BitVec w) (msg : List Bool) : (ZMod 2)[X] :=
  (reg preset * X ^ msg.length + poly msg * X ^ w) %ₘ generator g

/-- The register of a polynomial. -/
noncomputable def toReg (w : ℕ) (p : (ZMod 2)[X]) : BitVec w :=
  (BitVec.ofBoolListLE ((List.range w).map fun i => decide (p.coeff (w - 1 - i) = 1))).setWidth w

lemma toReg_reg (c : BitVec w) : toReg w (reg c) = c := by
  refine BitVec.eq_of_getLsbD_eq fun i hi => ?_
  have hbit : decide ((reg c).coeff (w - 1 - i) = 1) = c.getLsbD i := by
    rw [coeff_reg, if_pos (by omega), show w - 1 - (w - 1 - i) = i by omega]
    cases c.getLsbD i <;> rfl
  rw [toReg, BitVec.getLsbD_setWidth, BitVec.getLsbD_ofBoolListLE,
    List.getD_eq_getElem _ _ (by simpa using hi)]
  simp [hi, hbit]

lemma reg_toReg {p : (ZMod 2)[X]} (h : p.degree < w) : reg (toReg w p) = p := by
  have hbit : ∀ x : ZMod 2, bit (decide (x = 1)) = x := by decide
  ext k
  rw [coeff_reg]
  split_ifs with hk
  · rw [toReg, BitVec.getLsbD_setWidth, BitVec.getLsbD_ofBoolListLE,
      List.getD_eq_getElem _ _ (by simp; omega)]
    simp [show w - 1 - k < w by omega, show w - 1 - (w - 1 - k) = k by omega, hbit]
  · exact ((degree_lt_iff_coeff_zero _ _).1 h k (not_lt.1 hk)).symm

/-- The code of a message: the register of its remainder, complemented. -/
noncomputable def code (preset : BitVec w) (msg : List Bool) : BitVec w :=
  ~~~(toReg w (remainder g preset msg))

/-! ### The shift register -/

/-- One shift: bit 0 goes out, and takes the generator away when it was set. -/
def shift (c : BitVec w) : BitVec w := (c >>> 1) ^^^ (if c.getLsbD 0 then g else 0)

/-- A word is added to the register, and goes out bit by bit. -/
def update {v : ℕ} (c : BitVec w) (b : BitVec v) : BitVec w := (shift g)^[v] (c ^^^ b.setWidth w)

open AdjoinRoot (mk root)

/-- The register as a residue of the generator. -/
noncomputable def residue (c : BitVec w) : AdjoinRoot (generator g) := mk (generator g) (reg c)

/-- A shift multiplies by `X`. -/
lemma residue_shift (c : BitVec w) : residue g (shift g c) = root (generator g) * residue g c := by
  have hreg : reg (shift g c) - X * reg c = C (bit (c.getLsbD 0)) * generator g := by
    have hmask : reg (if c.getLsbD 0 then g else 0) = C (bit (c.getLsbD 0)) * reg g := by
      cases c.getLsbD 0
      · ext k
        simp [coeff_reg]
      · simp [bit]
    rw [shift, reg_xor, hmask, X_mul_reg, generator, CharTwo.sub_eq_add, mul_add]
    have htwo : reg (c >>> 1) + reg (c >>> 1) = 0 := CharTwo.add_self_eq_zero _
    linear_combination htwo
  rw [residue, residue, ← AdjoinRoot.mk_X, ← map_mul, AdjoinRoot.mk_eq_mk, hreg]
  exact dvd_mul_left _ _

lemma residue_iterate (n : ℕ) (c : BitVec w) :
    residue g ((shift g)^[n] c) = root (generator g) ^ n * residue g c := by
  induction n with
  | zero => rw [Function.iterate_zero_apply, pow_zero, one_mul]
  | succ n ih => rw [Function.iterate_succ_apply', residue_shift, ih, pow_succ', mul_assoc]

/-- A word comes in at the lowest powers, and is multiplied by `X ^ w` as it goes through. -/
lemma residue_update {v : ℕ} (hv : v ≤ w) (c : BitVec w) (b : BitVec v) :
    residue g (update g c b) =
      root (generator g) ^ v * residue g c + root (generator g) ^ w * mk (generator g) (reg b) := by
  have hpow : root (generator g) ^ w = root (generator g) ^ v * root (generator g) ^ (w - v) := by
    rw [← pow_add, Nat.add_sub_cancel' hv]
  rw [update, residue_iterate, residue, reg_xor, reg_setWidth hv, map_add, map_mul, map_pow,
    AdjoinRoot.mk_X, hpow, residue]
  ring

/-- What a row of words leaves in the register. -/
lemma residue_foldl {v : ℕ} (hv : v ≤ w) (data : List (BitVec v)) (c : BitVec w) :
    residue g (data.foldl (update g) c) =
      root (generator g) ^ (data.flatMap bits).length * residue g c +
        root (generator g) ^ w * mk (generator g) (poly (data.flatMap bits)) := by
  induction data generalizing c with
  | nil => simp [poly]
  | cons b data ih =>
    rw [List.foldl_cons, ih, residue_update g hv, List.flatMap_cons, List.length_append,
      length_bits, poly_append, map_add, map_mul, map_pow, AdjoinRoot.mk_X, pow_add, reg]
    ring

/-- **The shift register computes the remainder.** -/
theorem reg_foldl_update {v : ℕ} (hv : v ≤ w) (data : List (BitVec v)) (preset : BitVec w) :
    reg (data.foldl (update g) preset) = remainder g preset (data.flatMap bits) := by
  have hself : reg (data.foldl (update g) preset) %ₘ generator g =
      reg (data.foldl (update g) preset) := by
    rw [modByMonic_eq_self_iff (generator_monic g), degree_generator]
    exact degree_reg_lt _
  rw [← hself, remainder]
  refine modByMonic_eq_of_dvd_sub (generator_monic g) (AdjoinRoot.mk_eq_mk.1 ?_)
  have hfold := residue_foldl g hv data preset
  rw [residue] at hfold
  rw [hfold, map_add, map_mul, map_mul, map_pow, map_pow, AdjoinRoot.mk_X, residue]
  ring

/-- The code that the shift register computes. -/
theorem foldl_update_eq_code {v : ℕ} (hv : v ≤ w) (data : List (BitVec v)) (preset : BitVec w) :
    ~~~(data.foldl (update g) preset) = code g preset (data.flatMap bits) := by
  rw [code, ← reg_foldl_update g hv, toReg_reg]

/-! ### Bursts -/

/-- Two strings of one length that differ inside a window of `n` bits: their difference is a power
of `X` times a polynomial of degree below `n`. -/
lemma burst_factor {xs ys : List Bool} (hlen : xs.length = ys.length) {p n : ℕ}
    (hsame : ∀ i, i < p ∨ p + n ≤ i → xs[i]? = ys[i]?) :
    ∃ e : (ZMod 2)[X], poly xs - poly ys = X ^ (xs.length - (p + n)) * e ∧ e.degree < n := by
  -- the coefficients of the difference that are not zero are those of the window
  have hzero : ∀ k, k < xs.length - (p + n) ∨ xs.length - p ≤ k →
      (poly xs - poly ys).coeff k = 0 := by
    intro k hk
    rw [coeff_sub]
    by_cases hkl : k < xs.length
    · rw [coeff_poly_of_lt hkl, coeff_poly_of_lt (hlen ▸ hkl), ← hlen,
        hsame (xs.length - 1 - k) (by omega), sub_self]
    · rw [coeff_poly_of_le (not_lt.1 hkl), coeff_poly_of_le (hlen ▸ not_lt.1 hkl), sub_zero]
  obtain ⟨e, he⟩ := X_pow_dvd_iff.2 fun k hk => hzero k (Or.inl hk)
  refine ⟨e, he, (degree_lt_iff_coeff_zero _ _).2 fun k hk => ?_⟩
  rw [← coeff_X_pow_mul e (xs.length - (p + n)) k, ← he]
  exact hzero _ (Or.inr (by omega))

/-- The generator has a constant coefficient when the last bit of its register is set, and then no
power of `X` has a factor in common with it. -/
lemma isCoprime_generator (hw : 0 < w) (hg : g.getLsbD (w - 1) = true) (n : ℕ) :
    IsCoprime (generator g) (X ^ n) := by
  refine IsCoprime.pow_right (IsCoprime.symm (irreducible_X.coprime_iff_not_dvd.2 ?_))
  rw [X_dvd_iff, generator, coeff_add, coeff_X_pow, if_neg hw.ne, zero_add, coeff_reg, if_pos hw,
    Nat.sub_zero, hg]
  decide

/-- **Bursts are detected**: two strings of one length that differ, but only inside a window of `w`
bits, leave different remainders. -/
theorem remainder_ne_of_burst (hw : 0 < w) (hg : g.getLsbD (w - 1) = true) (preset : BitVec w)
    {xs ys : List Bool} (hlen : xs.length = ys.length) (hne : xs ≠ ys) {p : ℕ}
    (hsame : ∀ i, i < p ∨ p + w ≤ i → xs[i]? = ys[i]?) :
    remainder g preset xs ≠ remainder g preset ys := by
  intro heq
  obtain ⟨e, he, hdeg⟩ := burst_factor hlen hsame
  have hdiff : (reg preset * X ^ xs.length + poly xs * X ^ w) -
      (reg preset * X ^ ys.length + poly ys * X ^ w) = X ^ (xs.length - (p + w)) * X ^ w * e := by
    rw [hlen] at he ⊢
    linear_combination X ^ w * he
  have hdvd : generator g ∣ X ^ (xs.length - (p + w)) * X ^ w * e := by
    rw [← hdiff, ← modByMonic_eq_zero_iff_dvd (generator_monic g), sub_modByMonic]
    exact sub_eq_zero.2 heq
  have he0 : e ≠ 0 := by
    rintro rfl
    rw [mul_zero, sub_eq_zero] at he
    exact hne (eq_of_poly_eq hlen he)
  rw [← pow_add] at hdvd
  refine (generator_monic g).not_dvd_of_degree_lt he0 ?_
    ((isCoprime_generator g hw hg _).dvd_of_dvd_mul_left hdvd)
  rwa [degree_generator]

lemma degree_remainder_lt (preset : BitVec w) (msg : List Bool) :
    (remainder g preset msg).degree < w := by
  rw [← degree_generator g]
  exact degree_modByMonic_lt _ (generator_monic g)

/-- The codes of such strings are different, too. -/
theorem code_ne_of_burst (hw : 0 < w) (hg : g.getLsbD (w - 1) = true) (preset : BitVec w)
    {xs ys : List Bool} (hlen : xs.length = ys.length) (hne : xs ≠ ys) {p : ℕ}
    (hsame : ∀ i, i < p ∨ p + w ≤ i → xs[i]? = ys[i]?) :
    code g preset xs ≠ code g preset ys := by
  intro heq
  refine remainder_ne_of_burst g hw hg preset hlen hne hsame ?_
  rw [← reg_toReg (degree_remainder_lt g preset xs), ← reg_toReg (degree_remainder_lt g preset ys),
    BitVec.not_inj.1 heq]

end Register

end Neorv32Boot.Crc
