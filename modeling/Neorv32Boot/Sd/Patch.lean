import Neorv32Boot.Lib.Replace
import Neorv32Boot.Sd.Fidelity

/-!
# Patching the sentinel of a DTB

`patch_dtb_initrd_end` of `sw/stage2_loader/main.c` on a byte array of any length, with its loop
counter as a `uint32_t`, as an instance of replacing a pattern in place.  On the SDRAM the loader's
version does the same as on the array of the bytes that are there.
-/

namespace Neorv32Boot.Sd

open Replace (OccursAt Replaced occurrences)

/-! ### The loop over an array -/

/-- One round: the array, and the number of cells that were patched. -/
def patchRound (realEnd : BitVec 32) (s : List Byte × ℕ) (i : BitVec 32) : List Byte × ℕ :=
  let dtb := s.1
  let byte (i : BitVec 32) : Byte := dtb.getD i.toNat 0
  if byte i = 0xC0 ∧ byte (i + 1) = 0xDE ∧ byte (i + 2) = 0xDE ∧ byte (i + 3) = 0xAD then
    let dtb := dtb.set (i + 0).toNat (realEnd.extractLsb' 24 8)
    let dtb := dtb.set (i + 1).toNat (realEnd.extractLsb' 16 8)
    let dtb := dtb.set (i + 2).toNat (realEnd.extractLsb' 8 8)
    let dtb := dtb.set (i + 3).toNat (realEnd.extractLsb' 0 8)
    (dtb, s.2 + 1)
  else s

/-- The loop, for so many rounds at most. -/
def patchLoop (realEnd dtbLen : BitVec 32) : ℕ → BitVec 32 → List Byte × ℕ →
    Option (List Byte × ℕ)
  | 0, _, _ => none
  | fuel + 1, i, s =>
    if i + 4 ≤ dtbLen then patchLoop realEnd dtbLen fuel (i + 1) (patchRound realEnd s i)
    else some s

/-- `patch_dtb_initrd_end` returns, with this array and this number. -/
def PatchReturns (dtb : List Byte) (initrdSize : BitVec 32) (r : List Byte × ℕ) : Prop :=
  ∃ fuel, patchLoop (initrdLoadAddr + initrdSize) (BitVec.ofNat 32 dtb.length) fuel 0 (dtb, 0) =
    some r

/-- The occurrences of the sentinel are counted and replaced by the end address, and nothing else
is changed. -/
def PatchRight (dtb : List Byte) (initrdSize : BitVec 32) : Prop :=
  ∃ r, PatchReturns dtb initrdSize r ∧ r.2 = occurrences sentinel dtb ∧
    Replaced sentinel (endCell (initrdLoadAddr + initrdSize)) dtb dtb.length r.1 ∧
    (r.2 = 1 ↔ ∃! p, OccursAt sentinel dtb p)

/-! ### As a replacement -/

lemma borderFree_sentinel : Replace.BorderFree sentinel := by
  intro d hd hlt
  have h4 : sentinel.length = 4 := rfl
  obtain rfl | rfl | rfl : d = 1 ∨ d = 2 ∨ d = 3 := by omega
  all_goals decide

lemma sentinel_ne_nil : sentinel ≠ [] := List.cons_ne_nil _ _

lemma length_endCell_eq (e : BitVec 32) : (endCell e).length = sentinel.length := rfl

lemma occursAt_sentinel_iff {xs : List Byte} {i : ℕ} :
    OccursAt sentinel xs i ↔ xs[i]? = some 0xC0 ∧ xs[i + 1]? = some 0xDE ∧
      xs[i + 2]? = some 0xDE ∧ xs[i + 3]? = some 0xAD := by
  rw [Replace.occursAt_iff]
  constructor
  · intro h
    exact ⟨h 0 (by decide), h 1 (by decide), h 2 (by decide), h 3 (by decide)⟩
  · rintro ⟨h0, h1, h2, h3⟩ k hk
    have h4 : sentinel.length = 4 := rfl
    obtain rfl | rfl | rfl | rfl : k = 0 ∨ k = 1 ∨ k = 2 ∨ k = 3 := by omega
    exacts [h0, h1, h2, h3]

/-- The bytes past the end are not those of the sentinel. -/
lemma occursAt_sentinel {xs : List Byte} {i : ℕ} : OccursAt sentinel xs i ↔ SentinelAt xs i := by
  have hget : ∀ (j : ℕ) (b : Byte), b ≠ 0 → (xs[j]? = some b ↔ xs.getD j 0 = b) := by
    intro j b hb
    rw [List.getD_eq_getElem?_getD]
    cases xs[j]? with
    | none => exact iff_of_false (by simp) (by simpa using hb.symm)
    | some c => simp
  rw [occursAt_sentinel_iff, hget _ _ (by decide), hget _ _ (by decide), hget _ _ (by decide),
    hget _ _ (by decide)]
  rfl

/-- A round inside the array. -/
lemma patchRound_eq (e : BitVec 32) (s : List Byte × ℕ) {i : BitVec 32}
    (hi : i.toNat + 4 < 2 ^ 32) :
    patchRound e s i = Replace.round sentinel (endCell e) s i.toNat := by
  have h1 : (i + 1).toNat = i.toNat + 1 := by bv_omega
  have h2 : (i + 2).toNat = i.toNat + 2 := by bv_omega
  have h3 : (i + 3).toNat = i.toNat + 3 := by bv_omega
  have h0 : (i + 0).toNat = i.toNat := by bv_omega
  simp only [patchRound, Replace.round, occursAt_sentinel, SentinelAt, IsSentinel, h0, h1, h2, h3]
  rfl

/-- The counter reaches the end of an array of fewer than `2 ^ 32 - 1` bytes. -/
lemma patchLoop_eq (e : BitVec 32) (xs : List Byte) (hlen : xs.length + 1 < 2 ^ 32) (k : ℕ)
    (i : BitVec 32) (hk : i.toNat + k = xs.length + 1 - sentinel.length) :
    patchLoop e (BitVec.ofNat 32 xs.length) (k + 1) i
        (Replace.rounds sentinel (endCell e) xs i.toNat) =
      some (Replace.scan sentinel (endCell e) xs) := by
  have h4 : sentinel.length = 4 := rfl
  have hle : i + 4 ≤ BitVec.ofNat 32 xs.length ↔ i.toNat + 4 ≤ xs.length := by
    rw [BitVec.le_def, BitVec.toNat_add, BitVec.toNat_ofNat]
    have : (4 : BitVec 32).toNat = 4 := rfl
    omega
  induction k generalizing i with
  | zero =>
    rw [patchLoop, if_neg (by rw [hle]; omega), Replace.scan, ← hk, Nat.add_zero]
  | succ k ih =>
    have hi : (i + 1).toNat = i.toNat + 1 := by bv_omega
    rw [patchLoop, if_pos (by rw [hle]; omega), patchRound_eq e _ (by omega),
      ← Replace.rounds_succ, ← hi]
    refine ih (i + 1) (by omega) ?_
    rw [BitVec.le_def, BitVec.toNat_add, BitVec.toNat_ofNat, hi]
    have : (4 : BitVec 32).toNat = 4 := rfl
    omega

/-- The counter never passes the end of an array of `2 ^ 32 - 1` bytes. -/
lemma patchLoop_forever (e : BitVec 32) (fuel : ℕ) (i : BitVec 32) (s : List Byte × ℕ) :
    patchLoop e (BitVec.ofNat 32 (2 ^ 32 - 1)) fuel i s = none := by
  induction fuel generalizing i s with
  | zero => rfl
  | succ fuel ih =>
    rw [patchLoop, if_pos]
    · exact ih (i + 1) _
    · bv_omega

lemma patchLoop_mono {e n i : BitVec 32} {s r : List Byte × ℕ} {fuel k : ℕ}
    (h : patchLoop e n fuel i s = some r) : patchLoop e n (fuel + k) i s = some r := by
  induction fuel generalizing i s with
  | zero => cases h
  | succ fuel ih =>
    rw [Nat.succ_add, patchLoop]
    rw [patchLoop] at h
    split_ifs at h ⊢ with hle
    · exact ih h
    · exact h

/-- The loop returns the result of the replacement, when it returns. -/
lemma patchReturns_iff {dtb : List Byte} (hlen : dtb.length < 2 ^ 32) (sz : BitVec 32)
    (r : List Byte × ℕ) : PatchReturns dtb sz r ↔ dtb.length ≠ 2 ^ 32 - 1 ∧
      r = Replace.scan sentinel (endCell (initrdLoadAddr + sz)) dtb := by
  constructor
  · rintro ⟨fuel, h⟩
    have hne : dtb.length ≠ 2 ^ 32 - 1 := by
      intro he
      rw [he, patchLoop_forever] at h
      cases h
    refine ⟨hne, ?_⟩
    have heq := patchLoop_eq (initrdLoadAddr + sz) dtb (by omega) _ 0 (Nat.zero_add _)
    have h1 := patchLoop_mono (k := fuel) heq
    have h2 := patchLoop_mono (k := dtb.length + 1 - sentinel.length + 1) h
    rw [Nat.add_comm] at h2
    exact Option.some.inj (h2.symm.trans h1)
  · rintro ⟨hne, rfl⟩
    exact ⟨_, patchLoop_eq (initrdLoadAddr + sz) dtb (by omega) _ 0 (Nat.zero_add _)⟩

/-- **When the patch is right.**  `patch_dtb_initrd_end` replaces and counts exactly the sentinels
of the DTB when its loop ends, and no written end address forms the sentinel again with the bytes
behind it. -/
theorem patchRight_iff (dtb : List Byte) (hlen : dtb.length < 2 ^ 32) (sz : BitVec 32) :
    PatchRight dtb sz ↔ dtb.length ≠ 2 ^ 32 - 1 ∧
      ¬ Replace.Reforms sentinel (endCell (initrdLoadAddr + sz)) dtb := by
  have hscan := Replace.scan_iff borderFree_sentinel sentinel_ne_nil
    (length_endCell_eq (initrdLoadAddr + sz)) dtb
  constructor
  · rintro ⟨r, hret, hcount, hrepl, -⟩
    obtain ⟨hne, rfl⟩ := (patchReturns_iff hlen sz r).1 hret
    exact ⟨hne, hscan.1 ⟨hcount, hrepl⟩⟩
  · rintro ⟨hne, hno⟩
    obtain ⟨hcount, hrepl⟩ := hscan.2 hno
    refine ⟨_, (patchReturns_iff hlen sz _).2 ⟨hne, rfl⟩, hcount, hrepl, ?_⟩
    rw [hcount, Replace.occurrences_eq_one_iff sentinel_ne_nil]

/-- The rule at a DTB that is the sentinel. -/
theorem patchRight_sentinel : PatchRight sentinel 1 ↔ sentinel.length ≠ 2 ^ 32 - 1 ∧
    ¬ Replace.Reforms sentinel (endCell (initrdLoadAddr + 1)) sentinel :=
  patchRight_iff sentinel (by decide) 1

/-- One sentinel before `DE AD`, and an end address `0x41F8C0DE`: two cells are patched. -/
theorem patched_twice :
    let dtb : List Byte := sentinel ++ [0xDE, 0xAD]
    occurrences sentinel dtb = 1 ∧ (∃ r, PatchReturns dtb 0xC0DE r ∧ r.2 = 2) ∧
      ¬ PatchRight dtb 0xC0DE := by
  intro dtb
  have hret : PatchReturns dtb 0xC0DE ([0x41, 0xF8, 0x41, 0xF8, 0xC0, 0xDE], 2) := ⟨4, by decide⟩
  refine ⟨by decide, ⟨_, hret, rfl⟩, ?_⟩
  rintro ⟨r, hr, hcount, -, -⟩
  have hlen : dtb.length < 2 ^ 32 := by decide
  rw [((patchReturns_iff hlen _ _).1 hr).2, ← ((patchReturns_iff hlen _ _).1 hret).2] at hcount
  exact absurd hcount (by decide)

/-! ### In the SDRAM -/

/-- The SDRAM and the count mirror the array and its count: the array is at `dtb`, and the rest is
as in `m₀`. -/
structure Mirrors (m₀ : Ram) (dtb : BitVec 32) (s : Ram × ℕ) (r : List Byte × ℕ) : Prop where
  count : s.2 = r.2
  view : ∀ i < r.1.length, s.1.view dtb i = r.1.getD i 0
  rest : ∀ a, (∀ i < r.1.length, dtb + BitVec.ofNat 32 i ≠ a) → s.1.load a = m₀.load a

section Mirrors

variable {m₀ : Ram} {dtb : BitVec 32} {s : Ram × ℕ} {r : List Byte × ℕ}

/-- The sentinel in the SDRAM is the one in the array. -/
lemma Mirrors.isSentinel_iff (h : Mirrors m₀ dtb s r) {i : ℕ} (hi : i + 4 ≤ r.1.length) :
    IsSentinel (s.1.view dtb) i ↔ OccursAt sentinel r.1 i := by
  rw [occursAt_sentinel, SentinelAt, IsSentinel, IsSentinel, h.view i (by omega),
    h.view (i + 1) (by omega), h.view (i + 2) (by omega), h.view (i + 3) (by omega)]

/-- Both sides do the same round. -/
lemma Mirrors.step (h : Mirrors m₀ dtb s r) (ha : 0x40000000 ≤ dtb.toNat)
    (hn : dtb.toNat + r.1.length ≤ 2 ^ 32) (e : BitVec 32) {i : ℕ} (hi : i + 4 ≤ r.1.length) :
    Mirrors m₀ dtb (patchStep dtb e s i) (Replace.round sentinel (endCell e) r i) := by
  obtain ⟨m, k⟩ := s
  rw [Replace.round]
  by_cases hs : OccursAt sentinel r.1 i
  · rw [if_pos hs, patchStep_of ((h.isSentinel_iff hi).2 hs)]
    have hbase : (dtb + BitVec.ofNat 32 i).toNat = dtb.toNat + i := by bv_omega
    have h4 : (endCell e).length = 4 := rfl
    -- no byte of the sentinel is behind the SDRAM, where there are zeros
    have hlast : dtb.toNat + i + 4 ≤ 0x42000000 := by
      have hget := ((h.isSentinel_iff hi).2 hs).2.2.2
      have haddr : (dtb + BitVec.ofNat 32 (i + 3)).toNat = dtb.toNat + i + 3 := by bv_omega
      by_contra hgt
      rw [Ram.view, Ram.load, if_neg] at hget
      · exact absurd hget (by decide)
      · rw [Sdram.inSdram_iff, haddr]
        omega
    refine ⟨by simp only [← h.count], fun j hj => ?_, fun a hout => ?_⟩
    · rw [Replace.length_put] at hj
      rw [List.getD_eq_getElem?_getD, Replace.getElem?_put _ _ _ _ hj]
      by_cases hcell : i ≤ j ∧ j < i + (endCell e).length
      · have hsplit : dtb + BitVec.ofNat 32 j =
            dtb + BitVec.ofNat 32 i + BitVec.ofNat 32 (j - i) := by
          rw [BitVec.add_assoc, ← BitVec.ofNat_add, Nat.add_sub_cancel' hcell.1]
        have hv := @view_storeBytes m (dtb + BitVec.ofNat 32 i) (endCell e) (j - i)
          (by omega) (by omega) (by omega)
        rw [if_pos hcell, ← List.getD_eq_getElem?_getD, ← hv, Ram.view, Ram.view, hsplit]
      · rw [if_neg hcell, ← List.getD_eq_getElem?_getD, ← h.view j hj, Ram.view, Ram.view]
        refine Ram.load_storeBytes_outside _ _ _ _ fun l hl he => hcell ?_
        have := congrArg BitVec.toNat he
        rw [BitVec.toNat_add, hbase, BitVec.toNat_add, BitVec.toNat_ofNat,
          BitVec.toNat_ofNat] at this
        omega
    · rw [Replace.length_put] at hout
      rw [← h.rest a hout]
      refine Ram.load_storeBytes_outside _ _ _ _ fun l hl he => hout (i + l) (by omega) ?_
      rw [← he, BitVec.add_assoc, ← BitVec.ofNat_add]
  · rw [if_neg hs, patchStep_of_not fun hv => hs ((h.isSentinel_iff hi).1 hv)]
    exact h

/-- **The patch of the SDRAM is the patch of the array that is there.** -/
theorem mirrors_patch {xs : List Byte} (ha : 0x40000000 ≤ dtb.toNat)
    (hn : dtb.toNat + xs.length ≤ 2 ^ 32) (hx : ∀ i < xs.length, m₀.view dtb i = xs.getD i 0)
    (sz : BitVec 32) : Mirrors m₀ dtb (patchDtbInitrdEnd m₀ dtb xs.length sz)
      (Replace.scan sentinel (endCell (initrdLoadAddr + sz)) xs) := by
  have hall : ∀ n, n ≤ xs.length - 3 → Mirrors m₀ dtb
      ((List.range n).foldl (patchStep dtb (initrdLoadAddr + sz)) (m₀, 0))
      (Replace.rounds sentinel (endCell (initrdLoadAddr + sz)) xs n) := by
    intro n
    induction n with
    | zero => exact fun _ => ⟨rfl, hx, fun _ _ => rfl⟩
    | succ n ih =>
      intro hle
      have hlen : (Replace.rounds sentinel (endCell (initrdLoadAddr + sz)) xs n).1.length =
          xs.length := (Replace.progress_rounds borderFree_sentinel sentinel_ne_nil
        (length_endCell_eq _) xs n).length
      rw [List.range_succ, List.foldl_append, Replace.rounds_succ]
      exact (ih (by omega)).step ha (by omega) _ (by omega)
  have h3 : xs.length + 1 - sentinel.length = xs.length - 3 := rfl
  rw [Replace.scan, h3]
  exact hall _ le_rfl

end Mirrors

end Neorv32Boot.Sd
