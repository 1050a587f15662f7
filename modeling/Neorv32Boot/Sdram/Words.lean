import Neorv32Boot.Sdram.Bridge

/-!
# The chip as a memory of 32-bit words

A 32-bit word of the memory port is two neighbouring columns of the chip.  `Cells.view` reads the
chip as words of four bytes.  The two WRITE commands of a transaction are one masked write there,
and no two words share a column.
-/

namespace Neorv32Boot.Sdram

/-! ### Addresses -/

/-- Two addresses have the same word when bank, row and column pair agree. -/
lemma word_eq_iff (a b : BitVec 25) :
    a.extractLsb' 2 23 = b.extractLsb' 2 23 ↔
      addrBa a = addrBa b ∧ addrRow a = addrRow b ∧ a.extractLsb' 2 8 = b.extractLsb' 2 8 := by
  simp only [addrBa, addrRow, ← BitVec.toNat_inj, BitVec.extractLsb'_toNat,
    Nat.shiftRight_eq_div_pow]
  have := a.isLt
  have := b.isLt
  omega

lemma addrColLo_inj {a b : BitVec 25} :
    addrColLo a = addrColLo b ↔ a.extractLsb' 2 8 = b.extractLsb' 2 8 := by
  constructor
  · intro h
    simpa only [addrColLo, BitVec.extractLsb'_append_eq_left] using
      congrArg (BitVec.extractLsb' 1 8) h
  · intro h
    simp only [addrColLo, h]

lemma addrColHi_inj {a b : BitVec 25} :
    addrColHi a = addrColHi b ↔ a.extractLsb' 2 8 = b.extractLsb' 2 8 := by
  constructor
  · intro h
    simpa only [addrColHi, BitVec.extractLsb'_append_eq_left] using
      congrArg (BitVec.extractLsb' 1 8) h
  · intro h
    simp only [addrColHi, h]

lemma addrColLo_ne_addrColHi (a b : BitVec 25) : addrColLo a ≠ addrColHi b := by
  intro h
  have h0 := congrArg (BitVec.extractLsb' 0 1) h
  simp only [addrColLo, addrColHi, BitVec.extractLsb'_append_eq_right] at h0
  exact absurd h0 (by decide)

/-! ### Halves of a word -/

/-- One column changed. -/
lemma set_cell (m : Cells) (ba ba' : BitVec 2) (row row' : BitVec 13) (col col' : BitVec 9)
    (v : BitVec 16) :
    set m ba (set (m ba) row (set (m ba row) col v)) ba' row' col' =
      if ba' = ba ∧ row' = row ∧ col' = col then v else m ba' row' col' := by
  unfold set
  by_cases hb : ba' = ba
  · by_cases hr : row' = row
    · simp [hb, hr]
    · simp [hb, hr]
  · simp [hb]

variable (m : Cells) (a b : BitVec 25) (d : BitVec 32) (s : BitVec 4)

lemma lo_storeLo : (m.storeLo a d s).lo b =
    if b.extractLsb' 2 23 = a.extractLsb' 2 23 then
      maskWrite (m.lo b) (d.extractLsb' 0 16) (~~~ s.extractLsb' 0 2)
    else m.lo b := by
  simp only [Cells.storeLo, Cells.lo, set_cell, addrColLo_inj, ← word_eq_iff]
  split_ifs with h
  · obtain ⟨hb, hr, hc⟩ := (word_eq_iff b a).1 h
    rw [hb, hr, addrColLo_inj.2 hc]
  · rfl

lemma hi_storeLo : (m.storeLo a d s).hi b = m.hi b := by
  simp only [Cells.storeLo, Cells.hi, set_cell]
  rw [if_neg fun h => addrColLo_ne_addrColHi a b h.2.2.symm]

lemma lo_storeHi : (m.storeHi a d s).lo b = m.lo b := by
  simp only [Cells.storeHi, Cells.lo, set_cell]
  rw [if_neg fun h => addrColLo_ne_addrColHi b a h.2.2]

lemma hi_storeHi : (m.storeHi a d s).hi b =
    if b.extractLsb' 2 23 = a.extractLsb' 2 23 then
      maskWrite (m.hi b) (d.extractLsb' 16 16) (~~~ s.extractLsb' 2 2)
    else m.hi b := by
  simp only [Cells.storeHi, Cells.hi, set_cell, addrColHi_inj, ← word_eq_iff]
  split_ifs with h
  · obtain ⟨hb, hr, hc⟩ := (word_eq_iff b a).1 h
    rw [hb, hr, addrColHi_inj.2 hc]
  · rfl

/-! ### Bytes -/

/-- A byte of a masked 16-bit write. -/
lemma maskWrite_byte (old new : BitVec 16) (dqm : BitVec 2) (k : Fin 2) :
    (maskWrite old new dqm).extractLsb' (8 * k) 8 =
      if dqm.getLsbD k then old.extractLsb' (8 * k) 8 else new.extractLsb' (8 * k) 8 := by
  fin_cases k
  · exact BitVec.extractLsb'_append_eq_right
  · exact BitVec.extractLsb'_append_eq_left

/-- A byte of the half `h` of a word, written under its strobes. -/
lemma maskWrite_half (old : BitVec 16) (d : BitVec 32) (s : BitVec 4) (h k : Fin 2) :
    (maskWrite old (d.extractLsb' (16 * h) 16)
        (~~~ s.extractLsb' (2 * h) 2)).extractLsb' (8 * k) 8 =
      if s.getLsbD (2 * h + k) then d.extractLsb' (8 * (2 * h + k)) 8
      else old.extractLsb' (8 * k) 8 := by
  have hdata : (d.extractLsb' (16 * h) 16).extractLsb' (8 * k) 8 =
      d.extractLsb' (8 * (2 * h + k)) 8 := by
    ext i hi
    have hi' : 8 * (k : ℕ) + i < 16 := by omega
    simp only [BitVec.getElem_extractLsb', BitVec.getLsbD_extractLsb', hi', decide_true,
      Bool.true_and]
    congr 1
    omega
  have hstrb : (~~~ s.extractLsb' (2 * h) 2).getLsbD k = !s.getLsbD (2 * h + k) := by
    have hk : (k : ℕ) < 2 := k.isLt
    simp only [BitVec.getLsbD_not, BitVec.getLsbD_extractLsb', hk, decide_true, Bool.true_and]
  rw [maskWrite_byte, hdata, hstrb]
  cases s.getLsbD (2 * h + k) <;> rfl

/-- Both halves of a word written, under the strobes. -/
def Cells.storeWord (m : Cells) (a : BitVec 25) (d : BitVec 32) (s : BitVec 4) : Cells :=
  (m.storeLo a d s).storeHi a d s

lemma view_lo (w : BitVec 23) (k : Fin 2) :
    m.view w (k.castAdd 2) = (m.lo (w ++ 0#2)).extractLsb' (8 * k) 8 := by
  rw [Cells.view, BitVec.extractLsb'_append_eq_of_add_le (by rw [Fin.val_castAdd]; omega),
    Fin.val_castAdd]

lemma view_hi (w : BitVec 23) (k : Fin 2) :
    m.view w (k.natAdd 2) = (m.hi (w ++ 0#2)).extractLsb' (8 * k) 8 := by
  rw [Cells.view, BitVec.extractLsb'_append_eq_of_le (by rw [Fin.val_natAdd]; omega),
    Fin.val_natAdd]
  congr 1
  omega

lemma byte_cases (k : Fin 4) : (∃ j : Fin 2, k = j.castAdd 2) ∨ ∃ j : Fin 2, k = j.natAdd 2 := by
  revert k
  decide

/-- A write replaces the selected bytes of its word. -/
lemma view_storeWord (w : BitVec 23) (k : Fin 4) :
    (m.storeWord a d s).view w k =
      if a.extractLsb' 2 23 = w ∧ s.getLsbD k then d.extractLsb' (8 * k) 8 else m.view w k := by
  have hw : (w ++ 0#2).extractLsb' 2 23 = w := BitVec.extractLsb'_append_eq_left
  by_cases h : a.extractLsb' 2 23 = w
  · rcases byte_cases k with ⟨j, rfl⟩ | ⟨j, rfl⟩
    · have := maskWrite_half (m.lo (w ++ 0#2)) d s 0 j
      simp only [view_lo, Cells.storeWord, lo_storeHi, lo_storeLo, hw, h, if_true, true_and]
      simpa using this
    · have := maskWrite_half (m.hi (w ++ 0#2)) d s 1 j
      simp only [view_hi, Cells.storeWord, hi_storeLo, hi_storeHi, hw, h, if_true, true_and]
      simpa [Nat.add_comm] using this
  · rcases byte_cases k with ⟨j, rfl⟩ | ⟨j, rfl⟩
    · simp only [view_lo, Cells.storeWord, lo_storeHi, lo_storeLo, hw, h, Ne.symm h, if_false,
        false_and]
    · simp only [view_hi, Cells.storeWord, hi_storeLo, hi_storeHi, hw, h, Ne.symm h, if_false,
        false_and]

/-- Between the two WRITE commands every byte is that of before, or that of after. -/
lemma view_storeLo (w : BitVec 23) (k : Fin 4) :
    (m.storeLo a d s).view w k = m.view w k ∨
      (m.storeLo a d s).view w k = (m.storeWord a d s).view w k := by
  rcases byte_cases k with ⟨j, rfl⟩ | ⟨j, rfl⟩
  · right
    simp only [view_lo, Cells.storeWord, lo_storeHi]
  · left
    simp only [view_hi, hi_storeLo]

/-- A request to the SDRAM is one masked write of the memory of words, as long as its write is
done. -/
lemma view_store (r : Request) (hr : r.inSdram = true) :
    (m.storeWord r.addr r.datW r.wstrb).view = Lanes.store m.view r.toWrite := by
  funext w k
  have ha : r.addr.extractLsb' 2 23 = r.adr.extractLsb' 2 23 := by
    rw [Request.addr, BitVec.extractLsb'_extractLsb'_of_le (by omega)]
  rw [view_storeWord, ha]
  cases hw : r.we <;> simp [Lanes.store, Request.toWrite, Request.wstrb, hr, hw]

/-- A request that writes nothing. -/
lemma store_of_wstrb {f : BitVec 23 → Fin 4 → BitVec 8} {r : Request}
    (h : r.inSdram = false ∨ r.wstrb = 0) : Lanes.store f r.toWrite = f := by
  refine Lanes.store_of_sel_false fun k => ?_
  rcases h with h | h
  · simp [Request.toWrite, h]
  · cases hw : r.we <;> simp [Request.toWrite, hw, Request.wstrb] at h ⊢
    simp [h]

/-- A word is determined by its bytes. -/
lemma eq_of_bytes {x y : BitVec 32}
    (h : ∀ k : Fin 4, x.extractLsb' (8 * k) 8 = y.extractLsb' (8 * k) 8) : x = y := by
  ext i hi
  have hk := congrArg (BitVec.getLsbD · (i % 8)) (h ⟨i / 8, by omega⟩)
  have hmod : i % 8 < 8 := Nat.mod_lt _ (by omega)
  simp only [BitVec.getLsbD_extractLsb', hmod, decide_true, Bool.true_and, Nat.div_add_mod] at hk
  simpa only [BitVec.getLsbD_eq_getElem hi] using hk

/-- Every column of the chip belongs to a word. -/
lemma exists_word (ba : BitVec 2) (row : BitVec 13) (col : BitVec 9) :
    ∃ w : BitVec 23, addrBa (w ++ 0#2) = ba ∧ addrRow (w ++ 0#2) = row ∧
      (addrColLo (w ++ 0#2) = col ∨ addrColHi (w ++ 0#2) = col) := by
  refine ⟨ba ++ row ++ col.extractLsb' 1 8, ?_, ?_, ?_⟩
  · rw [addrBa, BitVec.extractLsb'_append_eq_of_le (by omega),
      BitVec.extractLsb'_append_eq_of_le (by omega)]
    exact BitVec.extractLsb'_append_eq_left
  · rw [addrRow, BitVec.extractLsb'_append_eq_of_le (by omega),
      BitVec.extractLsb'_append_eq_of_le (by omega)]
    exact BitVec.extractLsb'_append_eq_right
  · have hc : (ba ++ row ++ col.extractLsb' 1 8 ++ 0#2).extractLsb' 2 8 = col.extractLsb' 1 8 := by
      rw [BitVec.extractLsb'_append_eq_of_le (by omega)]
      exact BitVec.extractLsb'_append_eq_right
    have hcol : col.extractLsb' 1 8 ++ col.extractLsb' 0 1 = col :=
      BitVec.extractLsb'_append_extractLsb'
    have hbit : ∀ b : BitVec 1, b = 0#1 ∨ b = 1#1 := by decide
    simp only [addrColLo, addrColHi, hc]
    rcases hbit (col.extractLsb' 0 1) with h | h
    · exact Or.inl (h ▸ hcol)
    · exact Or.inr (h ▸ hcol)

/-- The chip is determined by its words. -/
lemma view_inj {m m' : Cells} (h : m.view = m'.view) : m = m' := by
  have hword : ∀ w : BitVec 23, m.hi (w ++ 0#2) = m'.hi (w ++ 0#2) ∧
      m.lo (w ++ 0#2) = m'.lo (w ++ 0#2) := by
    intro w
    have hw := eq_of_bytes fun k => congrFun (congrFun h w) k
    constructor
    · simpa only [BitVec.extractLsb'_append_eq_left] using congrArg (BitVec.extractLsb' 16 16) hw
    · simpa only [BitVec.extractLsb'_append_eq_right] using congrArg (BitVec.extractLsb' 0 16) hw
  funext ba row col
  obtain ⟨w, rfl, rfl, rfl | rfl⟩ := exists_word ba row col
  · exact (hword w).2
  · exact (hword w).1

end Neorv32Boot.Sdram
