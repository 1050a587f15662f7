import Neorv32Boot.Sd.Boot

/-!
# What is booted is what was packed

After `sd_pack`, the loader copies the three files to the SDRAM and patches the one sentinel, as
long as the initrd ends inside the SDRAM, and the end address does not complete another sentinel
with the bytes around it.
-/

namespace Neorv32Boot.Sd

/-! ### Loads and stores -/

namespace Ram

variable {m : Ram} {a x : BitVec 32} {b : Byte} {bs : List Byte}

/-- Two addresses of the SDRAM with the same low bits are equal. -/
lemma eq_of_extract (ha : Sdram.inSdram a = true) (hx : Sdram.inSdram x = true)
    (h : a.extractLsb' 0 25 = x.extractLsb' 0 25) : a = x := by
  rw [Sdram.inSdram_iff] at ha hx
  have := congrArg BitVec.toNat h
  simp only [BitVec.extractLsb'_toNat, Nat.shiftRight_zero] at this
  exact BitVec.eq_of_toNat_eq (by omega)

lemma load_store_self (h : Sdram.inSdram a = true) : (m.store a b).load a = b := by
  simp [store, load, h]

lemma load_store_of_ne (h : a ≠ x) : (m.store a b).load x = m.load x := by
  unfold store load
  by_cases hx : Sdram.inSdram x = true
  · by_cases ha : Sdram.inSdram a = true
    · rw [if_pos hx, if_pos hx, if_pos ha, Sdram.set_of_ne]
      exact fun he => h (eq_of_extract ha hx he.symm)
    · rw [if_neg ha]
  · rw [if_neg hx, if_neg hx]

lemma storeBytes_append (m : Ram) (a : BitVec 32) (xs ys : List Byte) :
    m.storeBytes a (xs ++ ys) =
      (m.storeBytes a xs).storeBytes (a + BitVec.ofNat 32 xs.length) ys := by
  induction xs generalizing m a with
  | nil => simp [storeBytes]
  | cons x xs ih =>
    rw [List.cons_append, storeBytes, ih, storeBytes, List.length_cons]
    congr 1
    bv_omega

/-- An address that no store hits. -/
lemma load_storeBytes_outside (m : Ram) (a x : BitVec 32) (bs : List Byte)
    (h : ∀ i < bs.length, a + BitVec.ofNat 32 i ≠ x) : (m.storeBytes a bs).load x = m.load x := by
  induction bs generalizing m a with
  | nil => rfl
  | cons b bs ih =>
    rw [storeBytes, ih, load_store_of_ne]
    · simpa using h 0 (by simp)
    · intro i hi
      have := h (i + 1) (by simpa using hi)
      rwa [show a + 1 + BitVec.ofNat 32 i = a + BitVec.ofNat 32 (i + 1) by bv_omega]

/-- Byte `i` of a block that was stored in the SDRAM. -/
lemma load_storeBytes (m : Ram) (a : BitVec 32) (bs : List Byte) {i : ℕ} (hi : i < bs.length)
    (hlt : bs.length ≤ 2 ^ 32) (ha : Sdram.inSdram (a + BitVec.ofNat 32 i) = true) :
    (m.storeBytes a bs).load (a + BitVec.ofNat 32 i) = bs[i] := by
  induction bs generalizing m a i with
  | nil => simp at hi
  | cons b bs ih =>
    simp only [List.length_cons] at hlt hi
    cases i with
    | zero =>
      rw [storeBytes, load_storeBytes_outside]
      · simpa using load_store_self (b := b) (m := m) ha
      · intro j hj
        bv_omega
    | succ i =>
      have hai : a + BitVec.ofNat 32 (i + 1) = a + 1 + BitVec.ofNat 32 i := by bv_omega
      rw [hai] at ha ⊢
      rw [storeBytes, ih _ _ (by omega) (by omega) ha]
      rfl

end Ram

/-! ### Reading a slot -/

lemma bytes_sectorAt {data : List Byte} {i : ℕ} (h : sector * (i + 1) ≤ data.length) :
    (sectorAt data i).bytes = (data.drop (sector * i)).take sector := by
  unfold sector at h
  refine List.ext_getElem ?_ fun j hj hj' => ?_
  · rw [length_bytes, List.length_take, List.length_drop]
    unfold sector
    omega
  · have hj₂ : j < 512 := by simpa [sector] using hj
    have hlt : sector * i + j < data.length := by unfold sector; omega
    simp only [Sector.bytes, List.getElem_ofFn, sectorAt, List.getD_eq_getElem?_getD,
      List.getElem?_eq_getElem hlt, Option.getD_some, List.getElem_take, List.getElem_drop]

/-- The sectors of a byte string, one after the other. -/
lemma flatMap_sectorAt {data : List Byte} {n : ℕ} (h : sector * n ≤ data.length) :
    ((List.range n).flatMap fun i => (sectorAt data i).bytes) = data.take (sector * n) := by
  induction n with
  | zero => simp
  | succ n ih =>
    rw [List.range_succ, List.flatMap_append, ih (by unfold sector at *; omega),
      List.flatMap_singleton, bytes_sectorAt h, Nat.mul_succ, List.take_add]

lemma length_flatMap_bytes (c : ℕ → Sector) (n : ℕ) :
    ((List.range n).flatMap fun i => (c i).bytes).length = sector * n := by
  induction n with
  | zero => simp
  | succ n ih => simp [List.range_succ, ih, Nat.mul_succ]

/-- One more sector on the XBUS. -/
lemma onXbus_succ {dst : BitVec 32} (hdst : OnXbus dst 0) (n : ℕ) : OnXbus dst (sector * (n + 1)) ↔
    OnXbus dst (sector * n) ∧ OnXbus (dst + BitVec.ofNat 32 n * 512) sector := by
  obtain ⟨hlow, hhigh⟩ := hdst
  simp only [OnXbus, sector]
  constructor
  · rintro ⟨-, h⟩
    have hadd : (dst + BitVec.ofNat 32 n * 512).toNat = dst.toNat + 512 * n := by bv_omega
    omega
  · rintro ⟨⟨-, h⟩, h'⟩
    have hadd : (dst + BitVec.ofNat 32 n * 512).toNat = dst.toNat + 512 * n := by bv_omega
    omega

/-- When every read succeeds, the sectors are stored one after the other, as far as they are on the
XBUS. -/
lemma sdReadManyStores_card (c : Card) (lba : BitVec 32) (n : ℕ) {dst : BitVec 32}
    (hdst : OnXbus dst 0) : sdReadManyStores (fun l => some (c l)) lba n dst =
      if OnXbus dst (sector * n) then .ok (storesOf dst
        ((List.range n).flatMap fun i => (c (lba + BitVec.ofNat 32 i)).bytes))
      else .error .astray := by
  induction n with
  | zero => exact (if_pos hdst).symm
  | succ n ih =>
    have hadd : dst + BitVec.ofNat 32 (sector * n) = dst + BitVec.ofNat 32 n * 512 := by
      unfold sector
      bv_omega
    rw [sdReadManyStores_succ, ih]
    by_cases hn : OnXbus dst (sector * n)
    · by_cases hlast : OnXbus (dst + BitVec.ofNat 32 n * 512) sector
      · rw [if_pos hn, if_pos ((onXbus_succ hdst n).2 ⟨hn, hlast⟩), sdReadTo]
        simp only [Except.bind, length_bytes, if_pos hlast, Except.map, List.range_succ,
          List.flatMap_append, List.flatMap_singleton, storesOf_append,
          length_flatMap_bytes fun i => c (lba + BitVec.ofNat 32 i), hadd]
      · rw [if_pos hn, if_neg fun h => hlast ((onXbus_succ hdst n).1 h).2, sdReadTo]
        simp only [Except.bind, length_bytes, if_neg hlast, Except.map]
    · rw [if_neg hn, if_neg fun h => hn ((onXbus_succ hdst n).1 h).1]
      rfl

lemma sdReadMany_card (c : Card) (lba : BitVec 32) (n : ℕ) {dst : BitVec 32} (hdst : OnXbus dst 0)
    (m : Ram) : sdReadMany (fun l => some (c l)) lba n dst m =
      if OnXbus dst (sector * n) then .ok (m.storeBytes dst
        ((List.range n).flatMap fun i => (c (lba + BitVec.ofNat 32 i)).bytes))
      else .error .astray := by
  rw [sdReadMany_eq, sdReadManyStores_card c lba n hdst]
  split_ifs
  · simp only [Except.map, Ram.stores_storesOf]
  · rfl

/-- A slot is read as the padded file that it holds. -/
lemma sdReadMany_slot {c : Card} {s : Slot} {b : List Byte} (h : Holds c s b) {dst : BitVec 32}
    (hdst : OnXbus dst (padSector b).length) (m : Ram) :
    sdReadMany (fun l => some (c l)) (BitVec.ofNat 32 s.lba) (usedSec b) dst m =
      .ok (m.storeBytes dst (padSector b)) := by
  have hlen : (padSector b).length = sector * usedSec b := length_padSector b
  have hsec : ∀ i ∈ List.range (usedSec b),
      (c (BitVec.ofNat 32 s.lba + BitVec.ofNat 32 i)).bytes = (sectorAt (padSector b) i).bytes := by
    intro i hi
    rw [← BitVec.ofNat_add, h i (List.mem_range.1 hi)]
  have hzero : OnXbus dst 0 := ⟨hdst.1, by have := hdst.2; omega⟩
  rw [sdReadMany_card c _ _ hzero, ← hlen, if_pos hdst, List.flatMap_congr hsec,
    flatMap_sectorAt hlen.ge, ← hlen, List.take_length]

/-! ### The header -/

/-- The C struct and the Python parser read the same fields. -/
lemma ofSector_of_parseHeader {s : Sector} {h : Header} (hp : parseHeader s.bytes = .ok h) :
    s.bytes.take 8 = magic ∧ SdBootHdr.ofSector s =
      ⟨BitVec.ofNat 32 h.imageSz, BitVec.ofNat 32 h.dtbSz, BitVec.ofNat 32 h.initrdSz,
        BitVec.ofNat 32 h.imageLba, BitVec.ofNat 32 h.dtbLba, BitVec.ofNat 32 h.initrdLba⟩ := by
  have hfield : ∀ k < 10, Bytes.leAt 4 ((s.bytes.drop 8).take 40) (4 * k) =
      Bytes.leAt 4 s.bytes (8 + 4 * k) := by
    intro k hk
    rw [Bytes.leAt, Bytes.leAt, List.drop_take, List.take_take, List.drop_drop,
      Nat.min_eq_left (by omega)]
  unfold parseHeader at hp
  split_ifs at hp with hlen hmagic
  simp only [Except.ok.injEq] at hp
  refine ⟨by simpa using hmagic, ?_⟩
  rw [← hp]
  simp only [hfield 0 (by omega), hfield 1 (by omega), hfield 2 (by omega), hfield 3 (by omega),
    hfield 4 (by omega), hfield 5 (by omega)]
  rfl

/-- The sector count of the loader, for a size that is not close to `2 ^ 32`. -/
lemma blks_toNat {b : List Byte} (h : b.length < 2 ^ 31) :
    ((BitVec.ofNat 32 b.length + 511) / 512 : BitVec 32).toNat = usedSec b := by
  have h511 : (BitVec.ofNat 32 b.length + 511 : BitVec 32).toNat = b.length + 511 := by bv_omega
  rw [BitVec.toNat_udiv, h511]
  rfl

/-- The SDRAM after the three copies. -/
def loaded (m : Ram) (f : Files) : Ram :=
  ((m.storeBytes kernelLoadAddr (padSector f.image)).storeBytes dtbLoadAddr
    (padSector f.dtb)).storeBytes initrdLoadAddr (padSector f.initrd)

/-- With the files in the slots and their sizes in the header, the loader copies the padded files
and patches the DTB. -/
lemma modeSdBoot_of_stored {f : Files} {c' : Card} (hheader : parseHeader (readHeader c') =
    .ok (layoutHeader f.image.length f.dtb.length f.initrd.length)) (hst : Stored c' f) (m : Ram) :
    modeSdBoot true (fun l => some (c' l)) m =
      let r := patchDtbInitrdEnd (loaded m f) dtbLoadAddr (padSector f.dtb).length
        (BitVec.ofNat 32 f.initrd.length)
      if r.2 ≠ 1 then .halt "[!] DTB sentinel not found — halting\r\n" else .jump r.1 := by
  obtain ⟨hmagic, hhdr⟩ := ofSector_of_parseHeader hheader
  have hlen : ∀ s, (f.file s).length < 2 ^ 31 := by
    intro s
    have h1 := (hst s).1
    have h2 : s.maxSec ≤ 4000 := by cases s <;> decide
    simp only [usedSec, sector] at h1
    omega
  have hblk : ((BitVec.ofNat 32 f.dtb.length + 511) / 512 * 512 : BitVec 32).toNat =
      (padSector f.dtb).length := by
    have hb := blks_toNat (hlen .dtb)
    have hf : usedSec f.dtb ≤ 8 := (hst .dtb).1
    have hp : (padSector f.dtb).length = 512 * usedSec f.dtb := length_padSector f.dtb
    simp only [Files.file] at hb
    rw [BitVec.toNat_mul, hb, hp, show (512 : BitVec 32).toNat = 512 from rfl]
    omega
  have hread : ∀ s m dst, 0x40000000 ≤ dst.toNat → dst.toNat ≤ 0x42000000 →
      sdReadMany (fun l => some (c' l)) (BitVec.ofNat 32 s.lba)
        ((BitVec.ofNat 32 (f.file s).length + 511) / 512 : BitVec 32).toNat dst m =
          .ok (m.storeBytes dst (padSector (f.file s))) := by
    intro s m dst hlow hhigh
    -- no slot is long enough to reach the end of the XBUS
    have hsec : usedSec (f.file s) ≤ s.maxSec := (hst s).1
    have hmax : s.maxSec ≤ 4000 := by cases s <;> decide
    have hpad : (padSector (f.file s)).length = 512 * usedSec (f.file s) := length_padSector _
    rw [blks_toNat (hlen s)]
    exact sdReadMany_slot (hst s).2 ⟨hlow, by omega⟩ m
  have himg := fun m => hread .image m kernelLoadAddr (by decide) (by decide)
  have hdtb := fun m => hread .dtb m dtbLoadAddr (by decide) (by decide)
  have hird := fun m => hread .initrd m initrdLoadAddr (by decide) (by decide)
  simp only [Files.file, Slot.lba] at himg hdtb hird
  have hmagic' : (c' 0).bytes.take 8 = magic := hmagic
  have hhdr' : SdBootHdr.ofSector (c' 0) = _ := hhdr
  simp only [modeSdBoot, Bool.not_true, Bool.false_eq_true, if_false, hmagic', ne_eq,
    not_true_eq_false, hhdr', layoutHeader, himg, hdtb, hird, hblk]
  rfl

/-- After `sd_pack`, the loader copies the padded files and patches the DTB. -/
lemma modeSdBoot_of_pack {f : Files} {c c' : Card} (h : Sd.pack f c = .ok c') (m : Ram) :
    modeSdBoot true (fun l => some (c' l)) m =
      let r := patchDtbInitrdEnd (loaded m f) dtbLoadAddr (padSector f.dtb).length
        (BitVec.ofNat 32 f.initrd.length)
      if r.2 ≠ 1 then .halt "[!] DTB sentinel not found — halting\r\n" else .jump r.1 := by
  have hspec : RunSpec (.pack f) c c' := Run.exec_spec h
  exact modeSdBoot_of_stored hspec.header (fun s => ⟨hspec.fits s, hspec.selected s rfl⟩) m

/-! ### The sentinel -/

/-- The four bytes of the sentinel at offset `i`. -/
def IsSentinel (v : ℕ → Byte) (i : ℕ) : Prop :=
  v i = 0xC0 ∧ v (i + 1) = 0xDE ∧ v (i + 2) = 0xDE ∧ v (i + 3) = 0xAD

/-- The sentinel is in a byte string at offset `p`; bytes past the end count as zero, which is
none of its bytes. -/
def SentinelAt (b : List Byte) (p : ℕ) : Prop := IsSentinel (fun i => b.getD i 0) p

/-- The SDRAM from an address on. -/
def Ram.view (m : Ram) (a : BitVec 32) (i : ℕ) : Byte := m.load (a + BitVec.ofNat 32 i)

section Patch

variable {m : Ram} {dtb e : BitVec 32} {k i : ℕ} {l : List ℕ}

lemma patchStep_eq (m : Ram) (dtb e : BitVec 32) (k i : ℕ) [Decidable (IsSentinel (m.view dtb) i)] :
    patchStep dtb e (m, k) i =
      if IsSentinel (m.view dtb) i then
        (m.storeBytes (dtb + BitVec.ofNat 32 i) (endCell e), k + 1)
      else (m, k) := by
  have h1 : dtb + BitVec.ofNat 32 (i + 1) = dtb + BitVec.ofNat 32 i + 1 := by bv_omega
  have h2 : dtb + BitVec.ofNat 32 (i + 2) = dtb + BitVec.ofNat 32 i + 2 := by bv_omega
  have h3 : dtb + BitVec.ofNat 32 (i + 3) = dtb + BitVec.ofNat 32 i + 3 := by bv_omega
  simp only [patchStep, IsSentinel, Ram.view, h1, h2, h3]

lemma patchStep_of_not (h : ¬ IsSentinel (m.view dtb) i) : patchStep dtb e (m, k) i = (m, k) := by
  classical rw [patchStep_eq, if_neg h]

lemma patchStep_of (h : IsSentinel (m.view dtb) i) : patchStep dtb e (m, k) i =
    (m.storeBytes (dtb + BitVec.ofNat 32 i) (endCell e), k + 1) := by
  classical rw [patchStep_eq, if_pos h]

/-- Without a sentinel the loop changes nothing. -/
lemma foldl_patchStep_of_forall_not (h : ∀ i ∈ l, ¬ IsSentinel (m.view dtb) i) :
    l.foldl (patchStep dtb e) (m, k) = (m, k) := by
  induction l with
  | nil => rfl
  | cons i l ih =>
    rw [List.foldl_cons, patchStep_of_not (h i (by simp)), ih fun j hj => h j (by simp [hj])]

lemma le_foldl_patchStep (m : Ram) (k : ℕ) (l : List ℕ) :
    k ≤ (l.foldl (patchStep dtb e) (m, k)).2 := by
  induction l generalizing m k with
  | nil => rfl
  | cons i l ih =>
    rw [List.foldl_cons]
    by_cases h : IsSentinel (m.view dtb) i
    · rw [patchStep_of h]
      exact le_trans (by omega) (ih _ (k + 1))
    · rw [patchStep_of_not h]
      exact ih m k

/-- With a sentinel the count rises: the first one is patched. -/
lemma lt_foldl_patchStep (h : ∃ i ∈ l, IsSentinel (m.view dtb) i) :
    k < (l.foldl (patchStep dtb e) (m, k)).2 := by
  induction l with
  | nil => simp at h
  | cons i l ih =>
    rw [List.foldl_cons]
    by_cases hi : IsSentinel (m.view dtb) i
    · rw [patchStep_of hi]
      exact le_foldl_patchStep _ (k + 1) l
    · rw [patchStep_of_not hi]
      refine ih ?_
      obtain ⟨j, hj, hs⟩ := h
      rcases List.mem_cons.1 hj with rfl | hj
      · exact absurd hs hi
      · exact ⟨j, hj, hs⟩

/-- With one sentinel, exactly one cell is patched when the patched bytes make no other one. -/
lemma patch_eq_one_iff (m : Ram) (dtb sz : BitVec 32) {n p : ℕ} (hp : p + 4 ≤ n)
    (hs : IsSentinel (m.view dtb) p) (hbefore : ∀ i < p, ¬ IsSentinel (m.view dtb) i) :
    let m' := m.storeBytes (dtb + BitVec.ofNat 32 p) (endCell (initrdLoadAddr + sz))
    ((patchDtbInitrdEnd m dtb n sz).2 = 1 ↔
        ∀ i, p < i → i + 4 ≤ n → ¬ IsSentinel (m'.view dtb) i) ∧
      ((patchDtbInitrdEnd m dtb n sz).2 = 1 → (patchDtbInitrdEnd m dtb n sz).1 = m') := by
  intro m'
  have hrange : List.range (n - 3) =
      List.range p ++ p :: List.range' (p + 1) (n - 3 - (p + 1)) := by
    have hsplit : n - 3 = p + (n - 3 - (p + 1) + 1) := by omega
    have happ := List.range'_append_1 (s := 0) (m := p) (n := n - 3 - (p + 1) + 1)
    rw [Nat.zero_add, List.range'_succ, ← hsplit, ← List.range_eq_range',
      ← List.range_eq_range'] at happ
    exact happ.symm
  have hfold : patchDtbInitrdEnd m dtb n sz =
      (List.range' (p + 1) (n - 3 - (p + 1))).foldl (patchStep dtb (initrdLoadAddr + sz))
        (m', 1) := by
    rw [patchDtbInitrdEnd, hrange, List.foldl_append,
      foldl_patchStep_of_forall_not fun i hi => hbefore i (List.mem_range.1 hi), List.foldl_cons,
      patchStep_of hs]
  have hmem : ∀ i, i ∈ List.range' (p + 1) (n - 3 - (p + 1)) ↔ p < i ∧ i + 4 ≤ n := by
    intro i
    rw [List.mem_range'_1]
    omega
  rw [hfold]
  by_cases hno : ∀ i, p < i → i + 4 ≤ n → ¬ IsSentinel (m'.view dtb) i
  · rw [foldl_patchStep_of_forall_not fun i hi => hno i ((hmem i).1 hi).1 ((hmem i).1 hi).2]
    simpa using hno
  · have hgt : 1 < ((List.range' (p + 1) (n - 3 - (p + 1))).foldl
        (patchStep dtb (initrdLoadAddr + sz)) (m', 1)).2 := by
      refine lt_foldl_patchStep ?_
      push Not at hno
      obtain ⟨i, h1, h2, h3⟩ := hno
      exact ⟨i, (hmem i).2 ⟨h1, h2⟩, h3⟩
    exact ⟨iff_of_false (by omega) hno, fun h => absurd h (by omega)⟩

end Patch

/-! ### What is in the SDRAM at the jump -/

/-- The end address of the initrd forms the sentinel again, with the DTB bytes behind the patched
cell. -/
def Reforms (dtb : List Byte) (p n : ℕ) : Prop :=
  (n % 65536 = 0xC0DE ∧ dtb.getD (p + 4) 0 = 0xDE ∧ dtb.getD (p + 5) 0 = 0xAD) ∨
    (n % 256 = 0xC0 ∧ dtb.getD (p + 4) 0 = 0xDE ∧ dtb.getD (p + 5) 0 = 0xDE ∧
      dtb.getD (p + 6) 0 = 0xAD)

/-- The three files are in the SDRAM at their places, with the cell at `p` of the DTB patched. -/
structure Booted (m : Ram) (f : Files) (p : ℕ) : Prop where
  image : ∀ i (h : i < f.image.length), m.view kernelLoadAddr i = f.image[i]
  dtb : ∀ i (h : i < f.dtb.length), m.view dtbLoadAddr i =
    if p ≤ i ∧ i < p + 4 then
      (endCell (initrdLoadAddr + BitVec.ofNat 32 f.initrd.length)).getD (i - p) 0
    else f.dtb[i]
  initrd : ∀ i (h : i < f.initrd.length), m.view initrdLoadAddr i = f.initrd[i]
  /-- No section overlaps the next one, and the last one ends inside the SDRAM. -/
  apart : kernelLoadAddr.toNat + f.image.length ≤ dtbLoadAddr.toNat ∧
    dtbLoadAddr.toNat + f.dtb.length ≤ initrdLoadAddr.toNat ∧
    initrdLoadAddr.toNat + f.initrd.length ≤ 0x42000000

/-- The loader jumps to the kernel with the right content of the SDRAM. -/
def BootsRight (r : Boot) (f : Files) (p : ℕ) : Prop :=
  ∃ m, r = .jump m ∧ Booted m f p

/-- The addresses of a section are inside the SDRAM. -/
lemma inSdram_add {a : BitVec 32} {i n : ℕ} (ha : 0x40000000 ≤ a.toNat)
    (hn : a.toNat + n ≤ 0x42000000) (hi : i < n) :
    Sdram.inSdram (a + BitVec.ofNat 32 i) = true := by
  rw [Sdram.inSdram_iff, BitVec.toNat_add, BitVec.toNat_ofNat]
  omega

/-- Padding does not change the bytes that are read past the end. -/
lemma getD_padSector (b : List Byte) (i : ℕ) : (padSector b).getD i 0 = b.getD i 0 := by
  rw [padSector, List.getD_eq_getElem?_getD, List.getD_eq_getElem?_getD]
  rcases Nat.lt_or_ge i b.length with h | h
  · rw [List.getElem?_append_left h]
  · rw [List.getElem?_append_right h, List.getElem?_eq_none h, List.getElem?_replicate]
    generalize (if b.length % sector = 0 then 0 else sector - b.length % sector) = k
    split_ifs <;> rfl

/-- A section that was stored, and not overwritten. -/
lemma view_storeBytes {m : Ram} {a : BitVec 32} {bs : List Byte} {i : ℕ}
    (ha : 0x40000000 ≤ a.toNat) (hn : a.toNat + bs.length ≤ 0x42000000) (hi : i < bs.length) :
    (m.storeBytes a bs).view a i = bs.getD i 0 := by
  rw [Ram.view, Ram.load_storeBytes m a bs hi (by omega) (inSdram_add ha hn hi),
    List.getD_eq_getElem?_getD, List.getElem?_eq_getElem hi, Option.getD_some]

/-- A section is not changed by stores above or below it. -/
lemma view_storeBytes_of_apart {m : Ram} {a b : BitVec 32} {bs : List Byte} {i n : ℕ}
    (hi : i < n) (hb : b.toNat + bs.length ≤ 2 ^ 32) (ha : a.toNat + n ≤ 2 ^ 32)
    (h : a.toNat + n ≤ b.toNat ∨ b.toNat + bs.length ≤ a.toNat) :
    (m.storeBytes b bs).view a i = m.view a i := by
  refine Ram.load_storeBytes_outside m b _ bs fun j hj he => ?_
  have := congrArg BitVec.toNat he
  simp only [BitVec.toNat_add, BitVec.toNat_ofNat] at this
  omega

section Boot

variable {f : Files} {c c' : Card} {p : ℕ} (m : Ram)

/-- The sizes that `sd_pack` lets through. -/
lemma pack_lengths (h : Sd.pack f c = .ok c') :
    (padSector f.image).length ≤ 2048000 ∧ (padSector f.dtb).length ≤ 4096 ∧
      (padSector f.initrd).length ≤ 2048000 ∧ f.image.length ≤ (padSector f.image).length ∧
      f.dtb.length ≤ (padSector f.dtb).length ∧ f.initrd.length ≤ (padSector f.initrd).length := by
  have hspec : RunSpec (.pack f) c c' := Run.exec_spec h
  have hi : usedSec f.image ≤ 4000 := hspec.fits .image
  have hd : usedSec f.dtb ≤ 8 := hspec.fits .dtb
  have hr : usedSec f.initrd ≤ 4000 := hspec.fits .initrd
  simp only [length_padSector, usedSec, sector] at *
  omega

lemma kernelLoadAddr_toNat : kernelLoadAddr.toNat = 0x40000000 := rfl
lemma dtbLoadAddr_toNat : dtbLoadAddr.toNat = 0x41F00000 := rfl
lemma initrdLoadAddr_toNat : initrdLoadAddr.toNat = 0x41F80000 := rfl

/-- The copied DTB: the whole slot, read as the file. -/
lemma view_loaded_dtb (h : Sd.pack f c = .ok c') {i : ℕ} (hi : i < (padSector f.dtb).length) :
    (loaded m f).view dtbLoadAddr i = f.dtb.getD i 0 := by
  obtain ⟨h1, h2, h3, h4, h5, h6⟩ := pack_lengths h
  have hd := dtbLoadAddr_toNat
  have hr := initrdLoadAddr_toNat
  rw [loaded, view_storeBytes_of_apart hi (by omega) (by omega) (by omega),
    view_storeBytes (by omega) (by omega) hi, getD_padSector]

/-- The sentinel in the copied DTB is the one in the file. -/
lemma isSentinel_loaded (h : Sd.pack f c = .ok c') {i : ℕ} (hi : i + 4 ≤ (padSector f.dtb).length) :
    IsSentinel ((loaded m f).view dtbLoadAddr) i ↔ SentinelAt f.dtb i := by
  unfold SentinelAt IsSentinel
  rw [view_loaded_dtb m h (by omega), view_loaded_dtb m h (by omega),
    view_loaded_dtb m h (by omega), view_loaded_dtb m h (by omega)]

/-- The sentinel is inside the file: none of its bytes is zero. -/
lemma SentinelAt.le {b : List Byte} (hs : SentinelAt b p) : p + 4 ≤ b.length := by
  by_contra hlt
  have hlast : b.getD (p + 3) 0 = 0xAD := hs.2.2.2
  rw [List.getD_eq_getElem?_getD, List.getElem?_eq_none (by omega)] at hlast
  exact absurd hlast (by decide)

/-- The SDRAM with the cell patched. -/
def patchedRam (m : Ram) (f : Files) (p : ℕ) : Ram :=
  (loaded m f).storeBytes (dtbLoadAddr + BitVec.ofNat 32 p)
    (endCell (initrdLoadAddr + BitVec.ofNat 32 f.initrd.length))

lemma length_endCell (e : BitVec 32) : (endCell e).length = 4 := rfl

/-- The patched DTB. -/
lemma view_patched_dtb (h : Sd.pack f c = .ok c') (hs : SentinelAt f.dtb p) {i : ℕ}
    (hi : i < (padSector f.dtb).length) :
    (patchedRam m f p).view dtbLoadAddr i =
      if p ≤ i ∧ i < p + 4 then
        (endCell (initrdLoadAddr + BitVec.ofNat 32 f.initrd.length)).getD (i - p) 0
      else f.dtb.getD i 0 := by
  obtain ⟨h1, h2, h3, h4, h5, h6⟩ := pack_lengths h
  have hd := dtbLoadAddr_toNat
  have hp := hs.le
  split_ifs with hcell
  · have hsplit : dtbLoadAddr + BitVec.ofNat 32 i =
        dtbLoadAddr + BitVec.ofNat 32 p + BitVec.ofNat 32 (i - p) := by
      rw [BitVec.add_assoc, ← BitVec.ofNat_add, Nat.add_sub_cancel' hcell.1]
    have hlt : i - p < (endCell (initrdLoadAddr + BitVec.ofNat 32 f.initrd.length)).length := by
      rw [length_endCell]
      omega
    have hin := inSdram_add (a := dtbLoadAddr) (i := i) (n := (padSector f.dtb).length)
      (by omega) (by omega) hi
    rw [hsplit] at hin
    rw [Ram.view, hsplit, patchedRam, Ram.load_storeBytes _ _ _ hlt (by rw [length_endCell]; omega)
      hin, List.getD_eq_getElem?_getD, List.getElem?_eq_getElem hlt, Option.getD_some]
  · rw [← view_loaded_dtb m h hi, Ram.view, patchedRam, Ram.load_storeBytes_outside]
    · rfl
    · intro j hj he
      rw [length_endCell] at hj
      have := congrArg BitVec.toNat he
      simp only [BitVec.toNat_add, BitVec.toNat_ofNat] at this
      omega

/-- Which bytes of the end address are bytes of the sentinel, for an initrd inside the SDRAM. -/
lemma endCell_bytes {n : ℕ} (hn : n ≤ 0x80000) :
    (endCell (initrdLoadAddr + BitVec.ofNat 32 n)).getD 1 0 ≠ 0xC0 ∧
      ((endCell (initrdLoadAddr + BitVec.ofNat 32 n)).getD 2 0 = 0xC0 ∧
        (endCell (initrdLoadAddr + BitVec.ofNat 32 n)).getD 3 0 = 0xDE ↔ n % 65536 = 0xC0DE) ∧
      ((endCell (initrdLoadAddr + BitVec.ofNat 32 n)).getD 3 0 = 0xC0 ↔ n % 256 = 0xC0) := by
  have hend : (initrdLoadAddr + BitVec.ofNat 32 n).toNat = 0x41F80000 + n := by
    have := initrdLoadAddr_toNat
    rw [BitVec.toNat_add, BitVec.toNat_ofNat]
    omega
  have hC0 : (0xC0 : Byte).toNat = 0xC0 := rfl
  have hDE : (0xDE : Byte).toNat = 0xDE := rfl
  simp only [endCell, List.getD_cons_succ, List.getD_cons_zero, ne_eq, ← BitVec.toNat_inj,
    BitVec.extractLsb'_toNat, hend, Nat.shiftRight_eq_div_pow, hC0, hDE]
  omega

/-- After the patch there is another sentinel in the slot exactly when the end address and the
bytes behind it form one. -/
lemma patched_clean_iff (h : Sd.pack f c = .ok c') (hs : SentinelAt f.dtb p)
    (hu : ∀ q, SentinelAt f.dtb q → q = p) (hn : f.initrd.length ≤ 0x80000) :
    (∀ i, p < i → i + 4 ≤ (padSector f.dtb).length →
        ¬ IsSentinel ((patchedRam m f p).view dtbLoadAddr) i) ↔
      ¬ Reforms f.dtb p f.initrd.length := by
  obtain ⟨h1, h2, h3, h4, h5, h6⟩ := pack_lengths h
  have hp := hs.le
  obtain ⟨he1, he23, he3⟩ := endCell_bytes hn
  have hin : ∀ {j}, f.dtb.getD j 0 = 0xAD → j < (padSector f.dtb).length := by
    intro j hj
    by_contra hlt
    rw [List.getD_eq_getElem?_getD, List.getElem?_eq_none (by omega)] at hj
    exact absurd hj (by decide)
  -- the bytes around the patched cell
  have hcell : ∀ k < 4, (patchedRam m f p).view dtbLoadAddr (p + k) =
      (endCell (initrdLoadAddr + BitVec.ofNat 32 f.initrd.length)).getD k 0 := by
    intro k hk
    rw [view_patched_dtb m h hs (by omega), if_pos (by omega), Nat.add_sub_cancel_left]
  have hbehind : ∀ j, p + 4 ≤ j → j < (padSector f.dtb).length →
      (patchedRam m f p).view dtbLoadAddr j = f.dtb.getD j 0 := by
    intro j hj hlt
    rw [view_patched_dtb m h hs hlt, if_neg (by omega)]
  constructor
  · rintro hclean (⟨hlow, h4', h5'⟩ | ⟨hlow, h4', h5', h6'⟩)
    · have hlt := hin h5'
      refine hclean (p + 2) (by omega) (by omega) ⟨?_, ?_, ?_, ?_⟩
      · rw [hcell 2 (by omega)]
        exact (he23.2 hlow).1
      · rw [Nat.add_assoc, hcell 3 (by omega)]
        exact (he23.2 hlow).2
      · rwa [Nat.add_assoc, hbehind _ (by omega) (by omega)]
      · rwa [Nat.add_assoc, hbehind _ (by omega) (by omega)]
    · have hlt := hin h6'
      refine hclean (p + 3) (by omega) (by omega) ⟨?_, ?_, ?_, ?_⟩
      · rw [hcell 3 (by omega)]
        exact he3.2 hlow
      · rwa [Nat.add_assoc, hbehind _ (by omega) (by omega)]
      · rwa [Nat.add_assoc, hbehind _ (by omega) (by omega)]
      · rwa [Nat.add_assoc, hbehind _ (by omega) (by omega)]
  · rintro hno i hi hle ⟨s0, s1, s2, s3⟩
    rcases Nat.lt_or_ge i (p + 4) with hlt | hge
    · obtain rfl | rfl | rfl : i = p + 1 ∨ i = p + 2 ∨ i = p + 3 := by omega
      · rw [hcell 1 (by omega)] at s0
        exact he1 s0
      · rw [hcell 2 (by omega)] at s0
        rw [Nat.add_assoc, hcell 3 (by omega)] at s1
        rw [Nat.add_assoc, hbehind _ (by omega) (by omega)] at s2 s3
        exact hno (Or.inl ⟨he23.1 ⟨s0, s1⟩, s2, s3⟩)
      · rw [hcell 3 (by omega)] at s0
        rw [Nat.add_assoc, hbehind _ (by omega) (by omega)] at s1 s2 s3
        exact hno (Or.inr ⟨he3.1 s0, s1, s2, s3⟩)
    · rw [hbehind _ (by omega) (by omega)] at s0 s1 s2 s3
      have := hu i ⟨s0, s1, s2, s3⟩
      omega

/-- The patch is inside the DTB. -/
lemma view_patched_of_apart (h : Sd.pack f c = .ok c') (hs : SentinelAt f.dtb p) {a : BitVec 32}
    {i n : ℕ} (hi : i < n) (ha : a.toNat + n ≤ dtbLoadAddr.toNat ∨
      (initrdLoadAddr.toNat ≤ a.toNat ∧ a.toNat + n ≤ 2 ^ 32)) :
    (patchedRam m f p).view a i = (loaded m f).view a i := by
  obtain ⟨h1, h2, h3, h4, h5, h6⟩ := pack_lengths h
  have hd := dtbLoadAddr_toNat
  have hr := initrdLoadAddr_toNat
  have hp := hs.le
  have haddr : (dtbLoadAddr + BitVec.ofNat 32 p).toNat = dtbLoadAddr.toNat + p := by
    rw [BitVec.toNat_add, BitVec.toNat_ofNat]
    omega
  have hlen := length_endCell (initrdLoadAddr + BitVec.ofNat 32 f.initrd.length)
  exact view_storeBytes_of_apart hi (by omega) (by omega) (by omega)

lemma view_patched_image (h : Sd.pack f c = .ok c') (hs : SentinelAt f.dtb p) {i : ℕ}
    (hi : i < f.image.length) : (patchedRam m f p).view kernelLoadAddr i = f.image.getD i 0 := by
  obtain ⟨h1, h2, h3, h4, h5, h6⟩ := pack_lengths h
  have hk := kernelLoadAddr_toNat
  have hd := dtbLoadAddr_toNat
  have hr := initrdLoadAddr_toNat
  rw [view_patched_of_apart m h hs hi (by omega), loaded,
    view_storeBytes_of_apart hi (by omega) (by omega) (by omega),
    view_storeBytes_of_apart hi (by omega) (by omega) (by omega),
    view_storeBytes (by omega) (by omega) (by omega), getD_padSector]

lemma view_patched_initrd (h : Sd.pack f c = .ok c') (hs : SentinelAt f.dtb p)
    (hn : f.initrd.length ≤ 0x80000) {i : ℕ} (hi : i < f.initrd.length) :
    (patchedRam m f p).view initrdLoadAddr i = f.initrd.getD i 0 := by
  obtain ⟨h1, h2, h3, h4, h5, h6⟩ := pack_lengths h
  have hr := initrdLoadAddr_toNat
  have hpad : (padSector f.initrd).length ≤ 0x80000 := by
    rw [length_padSector]
    unfold sector
    omega
  rw [view_patched_of_apart m h hs hi (by omega), loaded,
    view_storeBytes (by omega) (by omega) (by omega), getD_padSector]

/-- The patched SDRAM holds the three files. -/
lemma booted_patched (h : Sd.pack f c = .ok c') (hs : SentinelAt f.dtb p)
    (hn : f.initrd.length ≤ 0x80000) : Booted (patchedRam m f p) f p := by
  obtain ⟨h1, h2, h3, h4, h5, h6⟩ := pack_lengths h
  have hk := kernelLoadAddr_toNat
  have hd := dtbLoadAddr_toNat
  have hr := initrdLoadAddr_toNat
  have hget : ∀ (b : List Byte) i (hi : i < b.length), b.getD i 0 = b[i] := by
    intro b i hi
    rw [List.getD_eq_getElem?_getD, List.getElem?_eq_getElem hi, Option.getD_some]
  refine ⟨?_, ?_, ?_, by omega⟩
  · intro i hi
    rw [view_patched_image m h hs hi, hget]
  · intro i hi
    rw [view_patched_dtb m h hs (by omega), hget f.dtb i hi]
  · intro i hi
    rw [view_patched_initrd m h hs hn hi, hget]

/-- **When an SD boot is right.**  For files that `sd_pack` has written, with the sentinel once in
the DTB, the loader jumps to the kernel with exactly these files in the SDRAM when and only when
the initrd ends inside the SDRAM and its end address does not form the sentinel again. -/
theorem bootsRight_iff (h : Sd.pack f c = .ok c') (hs : SentinelAt f.dtb p)
    (hu : ∀ q, SentinelAt f.dtb q → q = p) :
    BootsRight (modeSdBoot true (fun l => some (c' l)) m) f p ↔
      f.initrd.length ≤ 0x80000 ∧ ¬ Reforms f.dtb p f.initrd.length := by
  obtain ⟨h1, h2, h3, h4, h5, h6⟩ := pack_lengths h
  have hr := initrdLoadAddr_toNat
  have hp := hs.le
  obtain ⟨hone, hram⟩ := patch_eq_one_iff (loaded m f) dtbLoadAddr
    (BitVec.ofNat 32 f.initrd.length) (n := (padSector f.dtb).length) (p := p) (by omega)
    ((isSentinel_loaded m h (by omega)).2 hs)
    fun i hi hsi => absurd (hu i ((isSentinel_loaded m h (by omega)).1 hsi)) (by omega)
  rw [modeSdBoot_of_pack h m]
  by_cases hn : f.initrd.length ≤ 0x80000
  · have hclean := hone.trans (patched_clean_iff m h hs hu hn)
    simp only
    constructor
    · rintro ⟨m', hj, -⟩
      refine ⟨hn, hclean.1 ?_⟩
      by_contra hne
      rw [if_pos hne] at hj
      exact nomatch hj
    · rintro ⟨-, hno⟩
      have h2 := hclean.2 hno
      refine ⟨patchedRam m f p, ?_, booted_patched m h hs hn⟩
      rw [if_neg (not_not.2 h2), hram h2]
      rfl
  · refine iff_of_false ?_ fun hc => hn hc.1
    rintro ⟨m', -, hb⟩
    have := hb.apart
    omega

/-- The sentinel alone has itself once. -/
lemma sentinelAt_sentinel : SentinelAt sentinel 0 ∧ ∀ q, SentinelAt sentinel q → q = 0 := by
  refine ⟨⟨rfl, rfl, rfl, rfl⟩, fun q hq => ?_⟩
  have : q + 4 ≤ 4 := hq.le
  omega

/-- A DTB that is the sentinel, booted with one sector of everything. -/
theorem bootsRight_small :
    ∃ c', Sd.pack ⟨[1], sentinel, [3]⟩ (fun _ _ => 0) = .ok c' ∧
      (BootsRight (modeSdBoot true (fun l => some (c' l)) fun _ => 0) ⟨[1], sentinel, [3]⟩ 0 ↔
        1 ≤ 0x80000 ∧ ¬ Reforms sentinel 0 1) := by
  obtain ⟨c', hc'⟩ := exists_pack (f := ⟨[1], sentinel, [3]⟩) (fun _ _ => 0)
    (by rintro (_ | _ | _) <;> decide) (by rintro (_ | _ | _) <;> exact List.cons_ne_nil _ _)
  exact ⟨c', hc', bootsRight_iff _ hc' sentinelAt_sentinel.1 sentinelAt_sentinel.2⟩

/-- An initrd one byte longer than its window: its last byte is not in the SDRAM. -/
theorem not_bootsRight_long_initrd :
    let f : Files := ⟨[1], sentinel, List.replicate 0x80001 1⟩
    ∃ c', Sd.pack f (fun _ _ => 0) = .ok c' ∧ SentinelAt f.dtb 0 ∧
      (∀ q, SentinelAt f.dtb q → q = 0) ∧
      ¬ BootsRight (modeSdBoot true (fun l => some (c' l)) fun _ => 0) f 0 := by
  intro f
  have hlen : f.initrd.length = 0x80001 := List.length_replicate
  have hfit : ∀ s, usedSec (f.file s) ≤ s.maxSec := by
    rintro (_ | _ | _)
    · decide
    · decide
    · simp only [Files.file, usedSec, hlen]
      decide
  have hne : ∀ s, f.file s ≠ [] := by
    rintro (_ | _ | _)
    · exact List.cons_ne_nil _ _
    · exact List.cons_ne_nil _ _
    · exact List.ne_nil_of_length_pos (by simp only [Files.file, hlen]; decide)
  obtain ⟨c', hc'⟩ := exists_pack (fun _ _ => 0) hfit hne
  refine ⟨c', hc', sentinelAt_sentinel.1, sentinelAt_sentinel.2, ?_⟩
  rintro ⟨m, -, hb⟩
  have hend := hb.apart.2.2
  rw [hlen, initrdLoadAddr_toNat] at hend
  omega

end Boot

end Neorv32Boot.Sd
