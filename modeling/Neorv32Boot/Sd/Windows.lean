import Neorv32Boot.Sd.Patch

/-!
# The windows of the sections

What `mode_sd_boot` stores for a header with any sizes and LBAs.  The sizes come from the card, and
nothing checks them: the rounding up to sectors is a 32-bit sum, and a section is as long as its
size says, whatever lies behind its window.
-/

namespace Neorv32Boot.Sd

open Replace (OccursAt occurrences)

/-! ### The header and the sections -/

/-- The size of a section in the header. -/
def SdBootHdr.size (h : SdBootHdr) : Slot → BitVec 32
  | .image => h.imageSz
  | .dtb => h.dtbSz
  | .initrd => h.initrdSz

/-- The LBA of a section in the header. -/
def SdBootHdr.lba (h : SdBootHdr) : Slot → BitVec 32
  | .image => h.imageLba
  | .dtb => h.dtbLba
  | .initrd => h.initrdLba

/-- The number of sectors that the loader reads for a section. -/
def SdBootHdr.blks (h : SdBootHdr) (s : Slot) : BitVec 32 := (h.size s + 511) / 512

/-- Where the loader puts a section. -/
def Slot.loadAddr : Slot → BitVec 32
  | image => kernelLoadAddr
  | dtb => dtbLoadAddr
  | initrd => initrdLoadAddr

/-- Where the window of a section ends. -/
def Slot.loadEnd : Slot → ℕ
  | image => 0x41F00000
  | dtb => 0x41F80000
  | initrd => 0x42000000

/-- `mode_sd_boot` behind the check of the magic. -/
def SdBootHdr.boot (h : SdBootHdr) (read : BitVec 32 → Option Sector) (m : Ram) : Boot :=
  match sdReadMany read (h.lba .image) (h.blks .image).toNat Slot.image.loadAddr m with
  | .error e => e.boot "[sd] img read FAIL\r\n"
  | .ok m =>
  match sdReadMany read (h.lba .dtb) (h.blks .dtb).toNat Slot.dtb.loadAddr m with
  | .error e => e.boot "[sd] dtb read FAIL\r\n"
  | .ok m =>
  match sdReadMany read (h.lba .initrd) (h.blks .initrd).toNat Slot.initrd.loadAddr m with
  | .error e => e.boot "[sd] initrd read FAIL\r\n"
  | .ok m =>
    let r := patchDtbInitrdEnd m dtbLoadAddr (h.blks .dtb * 512).toNat h.initrdSz
    if r.2 ≠ 1 then .halt "[!] DTB sentinel not found — halting\r\n" else .jump r.1

lemma modeSdBoot_eq_boot {s : Sector} {read : BitVec 32 → Option Sector} (hread : read 0 = some s)
    (hmagic : s.bytes.take 8 = magic) (m : Ram) :
    modeSdBoot true read m = (SdBootHdr.ofSector s).boot read m := by
  have hok : ¬ s.bytes.take 8 ≠ magic := not_not.2 hmagic
  simp only [modeSdBoot, Bool.not_true, Bool.false_eq_true, if_false, hread, if_neg hok]
  rfl

/-- Byte `i` of the sectors from an LBA on.  No sector has a number of more than 32 bits. -/
def Card.byteFrom (c : Card) (lba i : ℕ) : Option Byte :=
  if lba + i / 512 < 2 ^ 32 then
    some ((c (BitVec.ofNat 32 (lba + i / 512))).bytes.getD (i % 512) 0)
  else none

/-- The sectors of a section are stored inside its window, and in the full size. -/
def SectionRight (c : Card) (h : SdBootHdr) (s : Slot) : Prop :=
  ∃ ws, sdReadManyStores (fun l => some (c l)) (h.lba s) (h.blks s).toNat s.loadAddr = .ok ws ∧
    (h.size s).toNat ≤ ws.length ∧
    ∀ w ∈ ws, s.loadAddr.toNat ≤ w.1.toNat ∧ w.1.toNat < s.loadEnd

/-- What the header asks for is in the SDRAM, with the cell at `p` of the DTB patched. -/
structure LoadedRight (c : Card) (h : SdBootHdr) (m : Ram) (p : ℕ) : Prop where
  stored : ∀ s, SectionRight c h s
  loaded : ∀ s, ∀ i < (h.size s).toNat, (s = .dtb → i < p ∨ p + 4 ≤ i) →
    c.byteFrom (h.lba s).toNat i = some (m.view s.loadAddr i)
  cell : p + 4 ≤ 512 * (h.blks .dtb).toNat ∧
    ∀ k < 4, c.byteFrom h.dtbLba.toNat (p + k) = some (sentinel.getD k 0)
  patched : ∀ k < 4, m.view dtbLoadAddr (p + k) = (endCell (initrdLoadAddr + h.initrdSz)).getD k 0
  /-- The end of the initrd does not wrap. -/
  noWrap : (initrdLoadAddr + h.initrdSz).toNat = initrdLoadAddr.toNat + h.initrdSz.toNat

/-- `mode_sd_boot` halts, or jumps to the kernel with what the header asks for. -/
def LoaderRight (initOk : Bool) (c : Card) (m : Ram) : Prop :=
  (∃ text, modeSdBoot initOk (fun l => some (c l)) m = .halt text) ∨
    ∃ m' p, modeSdBoot initOk (fun l => some (c l)) m = .jump m' ∧
      LoadedRight c (SdBootHdr.ofSector (c 0)) m' p

/-! ### What a header has to say -/

/-- The size of each section is at most that of its window. -/
def SdBootHdr.Fits (h : SdBootHdr) : Prop :=
  h.imageSz ≤ 0x1F00000 ∧ h.dtbSz ≤ 0x80000 ∧ h.initrdSz ≤ 0x80000

/-- The sectors of each section have LBAs of 32 bits. -/
def SdBootHdr.OnCard (h : SdBootHdr) : Prop :=
  ∀ s : Slot, (h.lba s).toNat + (h.blks s).toNat ≤ 2 ^ 32

/-- No section reaches the data memory of the CPU. -/
def SdBootHdr.Clear (h : SdBootHdr) : Prop :=
  ∀ s : Slot, OnXbus s.loadAddr (sector * (h.blks s).toNat)

/-- What is at `DTB_LOAD_ADDR` when a DTB and then an initrd have been stored: the initrd covers a
DTB that is longer than its window, and behind the SDRAM there are zeros. -/
def seenDtb (dtb initrd : List Byte) : List Byte :=
  (List.range dtb.length).map fun i =>
    if 0x100000 ≤ i then 0
    else if 0x80000 ≤ i ∧ i - 0x80000 < initrd.length then initrd.getD (i - 0x80000) 0
    else dtb.getD i 0

/-- The sentinel is in these bytes once, and no end of the initrd forms it again. -/
def PatchesOnce (xs : List Byte) (initrdSize : BitVec 32) : Prop :=
  (∃! p, OccursAt sentinel xs p) ∧
    ¬ Replace.Reforms sentinel (endCell (initrdLoadAddr + initrdSize)) xs

/-- The sectors that are read for a section. -/
def SdBootHdr.data (h : SdBootHdr) (c : Card) (s : Slot) : List Byte :=
  (List.range (h.blks s).toNat).flatMap fun i => (c (h.lba s + BitVec.ofNat 32 i)).bytes

/-! ### The patch of what is there -/

section Seen

variable {d i : List Byte}

@[simp] lemma length_seenDtb (d i : List Byte) : (seenDtb d i).length = d.length := by
  rw [seenDtb, List.length_map, List.length_range]

/-- A DTB in its window is what is there. -/
lemma seenDtb_of_le (hd : d.length ≤ 0x80000) (i : List Byte) : seenDtb d i = d := by
  refine List.ext_getElem (length_seenDtb d i) fun j hj hj' => ?_
  simp only [seenDtb, List.getElem_map, List.getElem_range]
  rw [if_neg (by omega), if_neg (by omega), List.getD_eq_getElem?_getD,
    List.getElem?_eq_getElem hj', Option.getD_some]

/-- A DTB and an initrd, stored one after the other. -/
lemma view_seenDtb (m : Ram) (hd : OnXbus dtbLoadAddr d.length)
    (hi : OnXbus initrdLoadAddr i.length) {j : ℕ} (hj : j < d.length) :
    ((m.storeBytes dtbLoadAddr d).storeBytes initrdLoadAddr i).view dtbLoadAddr j =
      (seenDtb d i).getD j 0 := by
  have k2 : dtbLoadAddr.toNat = 0x41F00000 := rfl
  have k3 : initrdLoadAddr.toNat = 0x41F80000 := rfl
  have h2 := hd.2
  have h3 := hi.2
  have haddr : (dtbLoadAddr + BitVec.ofNat 32 j).toNat = dtbLoadAddr.toNat + j := by bv_omega
  have hget : (seenDtb d i).getD j 0 = if 0x100000 ≤ j then 0
      else if 0x80000 ≤ j ∧ j - 0x80000 < i.length then i.getD (j - 0x80000) 0
      else d.getD j 0 := by
    rw [List.getD_eq_getElem?_getD, List.getElem?_eq_getElem (by rwa [length_seenDtb]),
      Option.getD_some]
    simp only [seenDtb, List.getElem_map, List.getElem_range]
  rw [hget, Ram.view]
  by_cases hout : 0x100000 ≤ j
  · rw [if_pos hout, Ram.load, if_neg]
    rw [Sdram.inSdram_iff, haddr]
    omega
  have hin : Sdram.inSdram (dtbLoadAddr + BitVec.ofNat 32 j) = true := by
    rw [Sdram.inSdram_iff, haddr]
    omega
  rw [if_neg hout]
  by_cases hcov : 0x80000 ≤ j ∧ j - 0x80000 < i.length
  · have hsplit : dtbLoadAddr + BitVec.ofNat 32 j =
        initrdLoadAddr + BitVec.ofNat 32 (j - 0x80000) := by bv_omega
    rw [hsplit] at hin ⊢
    rw [if_pos hcov, Ram.load_storeBytes _ _ _ hcov.2 (by omega) hin, List.getD_eq_getElem?_getD,
      List.getElem?_eq_getElem hcov.2, Option.getD_some]
  · rw [if_neg hcov, Ram.load_storeBytes_outside, Ram.load_storeBytes _ _ _ hj (by omega) hin,
      List.getD_eq_getElem?_getD, List.getElem?_eq_getElem hj, Option.getD_some]
    intro l hl he
    have he := congrArg BitVec.toNat he
    rw [haddr, BitVec.toNat_add, BitVec.toNat_ofNat] at he
    omega

/-- **When one cell is patched.**  It depends on the bytes of the DTB and of the initrd only. -/
lemma patch_eq_one_iff_patchesOnce (m : Ram) (hd : OnXbus dtbLoadAddr d.length)
    (hi : OnXbus initrdLoadAddr i.length) (sz : BitVec 32) :
    (patchDtbInitrdEnd ((m.storeBytes dtbLoadAddr d).storeBytes initrdLoadAddr i) dtbLoadAddr
      d.length sz).2 = 1 ↔ PatchesOnce (seenDtb d i) sz := by
  have h2 := hd.2
  have hcopy : ∀ j < (seenDtb d i).length, ((m.storeBytes dtbLoadAddr d).storeBytes initrdLoadAddr
      i).view dtbLoadAddr j = (seenDtb d i).getD j 0 :=
    fun j hj => view_seenDtb m hd hi (by rwa [length_seenDtb] at hj)
  have hmirrors := mirrors_patch hd.1 (by rw [length_seenDtb]; omega) hcopy sz
  rw [length_seenDtb] at hmirrors
  rw [hmirrors.count, Replace.scan_eq_one_iff borderFree_sentinel sentinel_ne_nil
    (length_endCell_eq _)]
  rfl

/-- The cell that is patched. -/
lemma patch_eq_storeBytes (m : Ram) (hd : OnXbus dtbLoadAddr d.length)
    (hi : OnXbus initrdLoadAddr i.length) {sz : BitVec 32} (h : PatchesOnce (seenDtb d i) sz)
    {p : ℕ} (hp : OccursAt sentinel (seenDtb d i) p) :
    let m' := (m.storeBytes dtbLoadAddr d).storeBytes initrdLoadAddr i
    (patchDtbInitrdEnd m' dtbLoadAddr d.length sz).1 =
      m'.storeBytes (dtbLoadAddr + BitVec.ofNat 32 p) (endCell (initrdLoadAddr + sz)) := by
  intro m'
  have h4 : sentinel.length = 4 := rfl
  have hle := hp.le sentinel_ne_nil
  rw [length_seenDtb] at hle
  have hview : ∀ q, q + 4 ≤ d.length →
      (IsSentinel (m'.view dtbLoadAddr) q ↔ OccursAt sentinel (seenDtb d i) q) := by
    intro q hq
    rw [occursAt_sentinel, SentinelAt, IsSentinel, IsSentinel]
    simp only [m', view_seenDtb m hd hi (show q < d.length by omega),
      view_seenDtb m hd hi (show q + 1 < d.length by omega),
      view_seenDtb m hd hi (show q + 2 < d.length by omega),
      view_seenDtb m hd hi (show q + 3 < d.length by omega)]
  refine (patch_eq_one_iff m' dtbLoadAddr sz (by omega) ((hview p (by omega)).2 hp) ?_).2
    ((patch_eq_one_iff_patchesOnce m hd hi sz).2 h)
  intro q hq hs
  have heq := h.1.unique ((hview q (by omega)).1 hs) hp
  omega

end Seen

/-! ### One section -/

section Sections

variable {c : Card} {h : SdBootHdr} {s : Slot}

lemma length_data (c : Card) (h : SdBootHdr) (s : Slot) :
    (h.data c s).length = 512 * (h.blks s).toNat :=
  length_flatMap_bytes (fun i => c (h.lba s + BitVec.ofNat 32 i)) _

lemma loadAddr_lt_loadEnd (s : Slot) : 0x40000000 ≤ s.loadAddr.toNat ∧
    s.loadAddr.toNat < s.loadEnd ∧ s.loadEnd ≤ 0x42000000 ∧
    (s.loadEnd - s.loadAddr.toNat) % 512 = 0 := by
  revert s
  rintro (_ | _ | _) <;> decide

lemma getD_flatMap_bytes (f : ℕ → Sector) {n i : ℕ} (hi : i < 512 * n) :
    ((List.range n).flatMap fun i => (f i).bytes).getD i 0 =
      (f (i / 512)).bytes.getD (i % 512) 0 := by
  induction n with
  | zero => omega
  | succ n ih =>
    have hlen := length_flatMap_bytes f n
    unfold sector at hlen
    rw [List.range_succ, List.flatMap_append, List.flatMap_singleton, List.getD_eq_getElem?_getD]
    rcases Nat.lt_or_ge i (512 * n) with hlt | hge
    · rw [List.getElem?_append_left (by omega), ← List.getD_eq_getElem?_getD, ih hlt]
    · have hdiv : i / 512 = n := by omega
      have hmod : i - 512 * n = i % 512 := by omega
      rw [List.getElem?_append_right (by omega), hlen, hdiv, hmod, List.getD_eq_getElem?_getD]

/-- What is read are the bytes from the LBA on. -/
lemma byteFrom_eq (hcard : h.OnCard) (c : Card) (s : Slot) {i : ℕ}
    (hi : i < 512 * (h.blks s).toNat) :
    c.byteFrom (h.lba s).toNat i = some ((h.data c s).getD i 0) := by
  have hle := hcard s
  have hadd : BitVec.ofNat 32 ((h.lba s).toNat + i / 512) =
      h.lba s + BitVec.ofNat 32 (i / 512) := by
    rw [BitVec.ofNat_add, BitVec.ofNat_toNat, BitVec.setWidth_eq]
  rw [Card.byteFrom, if_pos (by omega), hadd, SdBootHdr.data,
    getD_flatMap_bytes (fun i => c (h.lba s + BitVec.ofNat 32 i)) hi]

lemma onXbus_loadAddr (s : Slot) : OnXbus s.loadAddr 0 := by
  revert s
  rintro (_ | _ | _) <;> decide

lemma sdReadManyStores_data (c : Card) (h : SdBootHdr) (s : Slot) :
    sdReadManyStores (fun l => some (c l)) (h.lba s) (h.blks s).toNat s.loadAddr =
      if OnXbus s.loadAddr (sector * (h.blks s).toNat) then
        .ok (storesOf s.loadAddr (h.data c s))
      else .error .astray :=
  sdReadManyStores_card c (h.lba s) _ (onXbus_loadAddr s)

lemma sdReadMany_data (c : Card) (h : SdBootHdr) (s : Slot) (m : Ram) :
    sdReadMany (fun l => some (c l)) (h.lba s) (h.blks s).toNat s.loadAddr m =
      if OnXbus s.loadAddr (sector * (h.blks s).toNat) then
        .ok (m.storeBytes s.loadAddr (h.data c s))
      else .error .astray :=
  sdReadMany_card c (h.lba s) _ (onXbus_loadAddr s) m

/-- The number of sectors: the sum wraps for a size close to `2 ^ 32`. -/
lemma blks_eq (h : SdBootHdr) (s : Slot) :
    (h.blks s).toNat = ((h.size s).toNat + 511) % 2 ^ 32 / 512 := by
  rw [SdBootHdr.blks, BitVec.toNat_udiv, BitVec.toNat_add]
  rfl

/-- **A section is right exactly when its size fits its window.** -/
theorem sectionRight_iff (c : Card) (h : SdBootHdr) (s : Slot) :
    SectionRight c h s ↔ s.loadAddr.toNat + (h.size s).toNat ≤ s.loadEnd := by
  obtain ⟨hlow, hlt, hend, hmod⟩ := loadAddr_lt_loadEnd s
  have hlen := length_data c h s
  have hblks := blks_eq h s
  have hsz := (h.size s).isLt
  rw [SectionRight, sdReadManyStores_data]
  constructor
  · rintro ⟨ws, hws, hsize, hin⟩
    split_ifs at hws
    obtain rfl := Except.ok.inj hws
    rw [length_storesOf] at hsize
    by_contra hgt
    -- the first address behind the window is stored to
    obtain ⟨w, hw, haddr⟩ := (@mem_storesOf_fst s.loadAddr (h.data c s) _).2
      ⟨s.loadEnd - s.loadAddr.toNat, by omega, rfl⟩
    have h2 := (hin w hw).2
    rw [haddr, BitVec.toNat_add, BitVec.toNat_ofNat] at h2
    omega
  · intro hfit
    refine ⟨_, if_pos ⟨hlow, by unfold sector; omega⟩, ?_, fun w hw => ?_⟩
    · rw [length_storesOf]
      omega
    · obtain ⟨i, hi, haddr⟩ := mem_storesOf_fst.1 ⟨w, hw, rfl⟩
      rw [← haddr, BitVec.toNat_add, BitVec.toNat_ofNat]
      omega

lemma fits_iff (h : SdBootHdr) :
    h.Fits ↔ ∀ s : Slot, s.loadAddr.toNat + (h.size s).toNat ≤ s.loadEnd := by
  have hi : (0x1F00000 : BitVec 32).toNat = 0x1F00000 := rfl
  have hd : (0x80000 : BitVec 32).toNat = 0x80000 := rfl
  have h1 := kernelLoadAddr_toNat
  have h2 := dtbLoadAddr_toNat
  have h3 := initrdLoadAddr_toNat
  simp only [SdBootHdr.Fits, BitVec.le_def, hi, hd]
  constructor
  · rintro ⟨ha, hb, hc⟩ (_ | _ | _)
    all_goals
      simp only [Slot.loadAddr, Slot.loadEnd, SdBootHdr.size]
      omega
  · intro hall
    have ha := hall .image
    have hb := hall .dtb
    have hc := hall .initrd
    simp only [Slot.loadAddr, Slot.loadEnd, SdBootHdr.size] at ha hb hc
    omega

/-! ### What is in the SDRAM at the jump -/

/-- The SDRAM after the three copies. -/
def SdBootHdr.copied (h : SdBootHdr) (c : Card) (m : Ram) : Ram :=
  ((m.storeBytes kernelLoadAddr (h.data c .image)).storeBytes dtbLoadAddr
    (h.data c .dtb)).storeBytes initrdLoadAddr (h.data c .initrd)

/-- The patch of what was copied. -/
def SdBootHdr.patch (h : SdBootHdr) (c : Card) (m : Ram) : Ram × ℕ :=
  patchDtbInitrdEnd (h.copied c m) dtbLoadAddr (h.data c .dtb).length h.initrdSz

/-- With a card that answers every read, the loader copies and patches. -/
lemma boot_of_clear (hclear : h.Clear) (m : Ram) : h.boot (fun l => some (c l)) m =
    if (h.patch c m).2 ≠ 1 then .halt "[!] DTB sentinel not found — halting\r\n"
    else .jump (h.patch c m).1 := by
  have hlen : (h.blks .dtb * 512).toNat = (h.data c .dtb).length := by
    have h512 : (512 : BitVec 32).toNat = 512 := rfl
    have hblks := blks_eq h .dtb
    rw [length_data, BitVec.toNat_mul, h512]
    omega
  simp only [SdBootHdr.boot, sdReadMany_data, if_pos (hclear _), hlen]
  rfl

/-- A section that reaches the data memory of the CPU. -/
lemma boot_of_not_clear (hclear : ¬ h.Clear) (m : Ram) :
    h.boot (fun l => some (c l)) m = .astray := by
  simp only [SdBootHdr.boot, sdReadMany_data]
  by_cases h1 : OnXbus Slot.image.loadAddr (sector * (h.blks .image).toNat)
  · by_cases h2 : OnXbus Slot.dtb.loadAddr (sector * (h.blks .dtb).toNat)
    · have h3 : ¬ OnXbus Slot.initrd.loadAddr (sector * (h.blks .initrd).toNat) :=
        fun h3 => hclear (by rintro (_ | _ | _) <;> assumption)
      simp only [if_pos h1, if_pos h2, if_neg h3, CopyError.boot]
    · simp only [if_pos h1, if_neg h2, CopyError.boot]
  · simp only [if_neg h1, CopyError.boot]

lemma data_le_loadEnd (hfit : h.Fits) (s : Slot) :
    s.loadAddr.toNat + (h.data c s).length ≤ s.loadEnd ∧
      (h.size s).toNat ≤ (h.data c s).length := by
  obtain ⟨hlow, hlt, hend, hmod⟩ := loadAddr_lt_loadEnd s
  have := (fits_iff h).1 hfit s
  rw [length_data, blks_eq]
  omega

/-- Sections that are copied into their windows are there afterwards. -/
lemma view_copied (hlen : ∀ s, s.loadAddr.toNat + (h.data c s).length ≤ s.loadEnd) (m : Ram)
    (s : Slot) {i : ℕ} (hi : i < (h.data c s).length) :
    (h.copied c m).view s.loadAddr i = (h.data c s).getD i 0 := by
  have h1 := hlen .image
  have h2 := hlen .dtb
  have h3 := hlen .initrd
  have k1 := kernelLoadAddr_toNat
  have k2 := dtbLoadAddr_toNat
  have k3 := initrdLoadAddr_toNat
  simp only [Slot.loadAddr, Slot.loadEnd] at h1 h2 h3
  cases s with
  | image =>
    rw [Slot.loadAddr, SdBootHdr.copied,
      view_storeBytes_of_apart hi (by omega) (by omega) (by omega),
      view_storeBytes_of_apart hi (by omega) (by omega) (by omega),
      view_storeBytes (by omega) (by omega) hi]
  | dtb =>
    rw [Slot.loadAddr, SdBootHdr.copied,
      view_storeBytes_of_apart hi (by omega) (by omega) (by omega),
      view_storeBytes (by omega) (by omega) hi]
  | initrd =>
    rw [Slot.loadAddr, SdBootHdr.copied, view_storeBytes (by omega) (by omega) hi]

/-- A patch of one cell in sections that fit. -/
lemma loadedRight_of_fits (hfit : h.Fits) (hcard : h.OnCard) (m : Ram)
    (hone : (h.patch c m).2 = 1) : ∃ p, LoadedRight c h (h.patch c m).1 p := by
  have hlen : ∀ s, s.loadAddr.toNat + (h.data c s).length ≤ s.loadEnd :=
    fun s => (data_le_loadEnd hfit s).1
  have hsize : ∀ s, (h.size s).toNat ≤ (h.data c s).length := fun s => (data_le_loadEnd hfit s).2
  have k1 := kernelLoadAddr_toNat
  have k2 := dtbLoadAddr_toNat
  have k3 := initrdLoadAddr_toNat
  have h1 := hlen .image
  have h2 := hlen .dtb
  have h3 := hlen .initrd
  have s3 := hsize .initrd
  simp only [Slot.loadAddr, Slot.loadEnd] at h1 h2 h3
  -- the patch is that of the DTB sectors
  have hcopy : ∀ i < (h.data c .dtb).length,
      (h.copied c m).view dtbLoadAddr i = (h.data c .dtb).getD i 0 :=
    fun i hi => view_copied hlen m .dtb hi
  have hmirrors : Mirrors (h.copied c m) dtbLoadAddr (h.patch c m)
      (Replace.scan sentinel (endCell (initrdLoadAddr + h.initrdSz)) (h.data c .dtb)) :=
    mirrors_patch (by omega) (by omega) hcopy h.initrdSz
  obtain ⟨hcount, hview, hrest⟩ := hmirrors
  obtain ⟨⟨p, hp, huniq⟩, hrepl⟩ := Replace.scan_eq_one borderFree_sentinel sentinel_ne_nil
    (length_endCell_eq (initrdLoadAddr + h.initrdSz)) (h.data c .dtb) (hcount.symm.trans hone)
  have hple : p + 4 ≤ (h.data c .dtb).length := hp.le sentinel_ne_nil
  have hlenr := hrepl.length
  have h4 : sentinel.length = 4 := rfl
  -- the other sections are apart from it
  have hkeep : ∀ s, s ≠ .dtb → ∀ i < (h.data c s).length,
      (h.patch c m).1.view s.loadAddr i = (h.data c s).getD i 0 := by
    intro s hs i hi
    rw [← view_copied hlen m s hi]
    refine hrest _ fun j hj he => ?_
    have he := congrArg BitVec.toNat he
    rw [BitVec.toNat_add, BitVec.toNat_add, BitVec.toNat_ofNat, BitVec.toNat_ofNat] at he
    cases s with
    | image =>
      rw [Slot.loadAddr] at he
      omega
    | dtb => exact hs rfl
    | initrd =>
      rw [Slot.loadAddr] at he
      omega
  refine ⟨p, fun s => (sectionRight_iff c h s).2 ((fits_iff h).1 hfit s), fun s i hi hout => ?_,
    ⟨by rwa [length_data] at hple, fun k hk => ?_⟩, fun k hk => ?_, ?_⟩
  · have hi' : i < (h.data c s).length := hi.trans_le (hsize s)
    rw [byteFrom_eq hcard c s (by rwa [length_data] at hi')]
    refine congrArg some (Eq.symm ?_)
    cases s with
    | image => exact hkeep .image (by decide) i hi'
    | dtb =>
      rw [Slot.loadAddr]
      refine (hview i (by omega)).trans ?_
      rw [List.getD_eq_getElem?_getD, List.getD_eq_getElem?_getD, hrepl.outside]
      intro q _ hq
      rw [huniq q hq, h4]
      exact hout rfl
    | initrd => exact hkeep .initrd (by decide) i hi'
  · have hget := Replace.occursAt_iff.1 hp k (by omega)
    have hdata := byteFrom_eq hcard c .dtb (i := p + k) (by rw [length_data] at hple; omega)
    rw [SdBootHdr.lba] at hdata
    rw [hdata, List.getD_eq_getElem?_getD, hget, List.getD_eq_getElem?_getD]
  · refine (hview (p + k) (by omega)).trans ?_
    rw [List.getD_eq_getElem?_getD, List.getD_eq_getElem?_getD,
      hrepl.inside p (by omega) hp k (by omega)]
  · rw [BitVec.toNat_add, k3]
    simp only [SdBootHdr.size] at s3
    omega

/-- A jump with what the header asks for has read it from sectors that there are. -/
lemma LoadedRight.onCard {m : Ram} {p : ℕ} (hl : LoadedRight c h m p) : h.OnCard := by
  intro s
  have hfit := (sectionRight_iff c h s).1 (hl.stored s)
  obtain ⟨hlow, hlt, hend, -⟩ := loadAddr_lt_loadEnd s
  have hblks := blks_eq h s
  by_cases hzero : (h.size s).toNat = 0
  · have := (h.lba s).isLt
    omega
  -- the last byte of the section is there, or the cell covers it
  have hlast : ∃ b, c.byteFrom (h.lba s).toNat ((h.size s).toNat - 1) = some b := by
    by_cases hcell : s = .dtb ∧ ¬ ((h.size s).toNat - 1 < p ∨ p + 4 ≤ (h.size s).toNat - 1)
    · obtain ⟨rfl, hin⟩ := hcell
      have hget := hl.cell.2 ((h.size .dtb).toNat - 1 - p) (by omega)
      rw [show p + ((h.size .dtb).toNat - 1 - p) = (h.size .dtb).toNat - 1 by omega] at hget
      exact ⟨_, hget⟩
    · exact ⟨_, hl.loaded s _ (by omega) fun hs => not_not.1 fun hout => hcell ⟨hs, hout⟩⟩
  obtain ⟨b, hb⟩ := hlast
  rw [Card.byteFrom] at hb
  split_ifs at hb with hlt
  omega

/-- **When the loader is right about a header.**  It goes astray exactly when the card starts and a
section of the header reaches the data memory of the CPU.  For every other header it halts, or jumps
to the kernel with the three sections in full and inside their windows, exactly when each size is at
most that of its window and there are all the sectors, or when it does not get to the jump: the card
does not start, or the bytes at `DTB_LOAD_ADDR` do not have the sentinel once, or they form it
again. -/
theorem loaderRight_iff (hmagic : (c 0).bytes.take 8 = magic) (initOk : Bool) (m : Ram) :
    let h := SdBootHdr.ofSector (c 0)
    (modeSdBoot initOk (fun l => some (c l)) m = .astray ↔ initOk = true ∧ ¬ h.Clear) ∧
      ((initOk = true → h.Clear) → (LoaderRight initOk c m ↔
        initOk = false ∨ (h.Fits ∧ h.OnCard) ∨
          ¬ PatchesOnce (seenDtb (h.data c .dtb) (h.data c .initrd)) h.initrdSz)) := by
  intro h
  cases initOk with
  | false =>
    constructor
    · exact iff_of_false nofun fun hi => Bool.noConfusion hi.1
    · exact fun _ => iff_of_true (Or.inl ⟨_, rfl⟩) (Or.inl rfl)
  | true =>
    have hboot : modeSdBoot true (fun l => some (c l)) m = h.boot (fun l => some (c l)) m :=
      modeSdBoot_eq_boot rfl hmagic m
    by_cases hclear : h.Clear
    swap
    · exact ⟨iff_of_true (hboot.trans (boot_of_not_clear hclear m)) ⟨rfl, hclear⟩,
        fun hc => absurd (hc rfl) hclear⟩
    rw [boot_of_clear hclear] at hboot
    have hcount : (h.patch c m).2 = 1 ↔
        PatchesOnce (seenDtb (h.data c .dtb) (h.data c .initrd)) h.initrdSz :=
      patch_eq_one_iff_patchesOnce _ (by rw [length_data]; exact hclear .dtb)
        (by rw [length_data]; exact hclear .initrd) _
    rw [LoaderRight, hboot, ← hcount]
    by_cases hone : (h.patch c m).2 = 1
    · rw [if_neg (not_not.2 hone)]
      refine ⟨iff_of_false nofun fun hc => hc.2 hclear, fun _ => ?_⟩
      constructor
      · rintro (⟨text, ht⟩ | ⟨m', p, -, hl⟩)
        · cases ht
        · exact Or.inr (Or.inl ⟨(fits_iff h).2 fun s => (sectionRight_iff c h s).1 (hl.stored s),
            hl.onCard⟩)
      · rintro (hi | ⟨hfit, hcard⟩ | hne)
        · cases hi
        · obtain ⟨p, hl⟩ := loadedRight_of_fits hfit hcard m hone
          exact Or.inr ⟨_, p, rfl, hl⟩
        · exact absurd hone hne
    · rw [if_pos hone]
      exact ⟨iff_of_false nofun fun hc => hc.2 hclear,
        fun _ => iff_of_true (Or.inl ⟨_, rfl⟩) (Or.inr (Or.inr hone))⟩

end Sections

/-! ### A damaged header -/

/-- The header of `sd_pack`, but for an Image size of all ones. -/
def damagedHeader : List Byte :=
  padSector (magic ++ (layoutFields 0xFFFFFFFF 4 0).flatMap (Bytes.toLE 4))

/-- The damaged header, and a sentinel in every other sector. -/
def damagedCard : Card := fun l => if l = 0 then sectorAt damagedHeader 0 else sectorAt sentinel 0

lemma damagedCard_header : (damagedCard 0).bytes.take 8 = magic ∧
    SdBootHdr.ofSector (damagedCard 0) = ⟨0xFFFFFFFF, 4, 0, 1, 4001, 4009⟩ := by
  have hbuild : buildHeader 0xFFFFFFFF 4 0 = .ok damagedHeader :=
    (buildHeader_eq_ok_iff _ _ _ _).2 ⟨by decide, rfl⟩
  obtain ⟨hlen, hparse⟩ := parseHeader_buildHeader hbuild
  have hbytes : (damagedCard 0).bytes = damagedHeader := bytes_sectorAt_zero hlen
  rw [← hbytes] at hparse
  exact ofSector_of_parseHeader hparse

/-- One sentinel in a sector of zeros is patched once. -/
lemma scan_padSector_sentinel (e : BitVec 32) :
    (Replace.scan sentinel (endCell e) (padSector sentinel)).2 = 1 := by
  have hocc : ∀ q, OccursAt sentinel (padSector sentinel) q ↔ q = 0 := by
    intro q
    simp only [occursAt_sentinel, SentinelAt, getD_padSector]
    refine ⟨sentinelAt_sentinel.2 q, ?_⟩
    rintro rfl
    exact sentinelAt_sentinel.1
  have hone : occurrences sentinel (padSector sentinel) = 1 :=
    (Replace.occurrences_eq_one_iff sentinel_ne_nil).2 ⟨0, (hocc 0).2 rfl, fun q => (hocc q).1⟩
  rw [← hone, Replace.scan_count_iff borderFree_sentinel sentinel_ne_nil (length_endCell_eq e)]
  rintro ⟨p, hp, j, hj, hjw, ho⟩
  obtain rfl := (hocc p).1 hp
  -- the last byte of the pattern would be one of the zeros
  have hlast := (occursAt_sentinel_iff.1 ho).2.2.2
  have h4 : (endCell e).length = 4 := rfl
  rw [List.getElem?_append_right (by omega), List.getElem?_drop, h4] at hlast
  obtain rfl | rfl | rfl : j = 1 ∨ j = 2 ∨ j = 3 := by
    have : sentinel.length = 4 := rfl
    omega
  all_goals exact absurd hlast (by decide)

lemma damagedCard_data (s : Slot) : (SdBootHdr.ofSector (damagedCard 0)).data damagedCard s =
    if s = .dtb then padSector sentinel else [] := by
  have hlen : (padSector sentinel).length = 512 := length_padSector sentinel
  have hdtb : (sectorAt sentinel 0).bytes = padSector sentinel := by
    refine List.ext_getElem (by rw [length_bytes, hlen]; rfl) fun j hj hj' => ?_
    have hget := getD_padSector sentinel j
    rw [List.getD_eq_getElem?_getD, List.getElem?_eq_getElem hj', Option.getD_some] at hget
    simp only [Sector.bytes, List.getElem_ofFn, sectorAt, Nat.mul_zero, Nat.zero_add, hget]
  rw [SdBootHdr.data, damagedCard_header.2]
  cases s with
  | image => rfl
  | dtb => simpa [SdBootHdr.blks, SdBootHdr.size, SdBootHdr.lba, damagedCard] using hdtb
  | initrd => rfl

lemma damagedCard_patch (m : Ram) :
    ((SdBootHdr.ofSector (damagedCard 0)).patch damagedCard m).2 = 1 := by
  generalize hh : SdBootHdr.ofSector (damagedCard 0) = h
  have hdata : ∀ s, h.data damagedCard s = if s = .dtb then padSector sentinel else [] := by
    intro s
    rw [← hh, damagedCard_data]
  have hpad : (padSector sentinel).length = 512 := length_padSector sentinel
  have hlen : ∀ s : Slot, s.loadAddr.toNat + (h.data damagedCard s).length ≤ s.loadEnd := by
    intro s
    rw [hdata]
    cases s with
    | image => decide
    | dtb =>
      rw [if_pos rfl, hpad]
      decide
    | initrd => decide
  have hcopy : ∀ i < (h.data damagedCard .dtb).length,
      (h.copied damagedCard m).view dtbLoadAddr i = (h.data damagedCard .dtb).getD i 0 :=
    fun i hi => view_copied hlen m .dtb hi
  have hend := hlen .dtb
  have k2 := dtbLoadAddr_toNat
  simp only [Slot.loadAddr, Slot.loadEnd] at hend
  have hmirrors := mirrors_patch (by omega) (by omega) hcopy h.initrdSz
  rw [SdBootHdr.patch, hmirrors.count, hdata, if_pos rfl]
  exact scan_padSector_sentinel _

lemma damagedCard_clear : (SdBootHdr.ofSector (damagedCard 0)).Clear := by
  rw [damagedCard_header.2]
  rintro (_ | _ | _) <;> decide

/-- With an Image size of all ones the loader jumps to a kernel that it has not read. -/
theorem not_loaderRight_damaged : (damagedCard 0).bytes.take 8 = magic ∧
    ∃ m, ¬ LoaderRight true damagedCard m := by
  obtain ⟨hmagic, hhdr⟩ := damagedCard_header
  refine ⟨hmagic, fun _ => 0, ?_⟩
  have hboot : modeSdBoot true (fun l => some (damagedCard l)) (fun _ => 0) =
      (SdBootHdr.ofSector (damagedCard 0)).boot (fun l => some (damagedCard l)) fun _ => 0 :=
    modeSdBoot_eq_boot rfl hmagic _
  rw [boot_of_clear damagedCard_clear, if_neg (not_not.2 (damagedCard_patch _))] at hboot
  rintro (⟨text, ht⟩ | ⟨m', p, -, hl⟩)
  · rw [hboot] at ht
    cases ht
  · have himage := (sectionRight_iff _ _ _).1 (hl.stored .image)
    rw [hhdr] at himage
    exact absurd himage (by decide)

/-- The rule at the damaged header. -/
theorem loaderRight_damaged : LoaderRight true damagedCard (fun _ => 0) ↔
    true = false ∨ ((SdBootHdr.ofSector (damagedCard 0)).Fits ∧
      (SdBootHdr.ofSector (damagedCard 0)).OnCard) ∨
      ¬ PatchesOnce (seenDtb ((SdBootHdr.ofSector (damagedCard 0)).data damagedCard .dtb)
        ((SdBootHdr.ofSector (damagedCard 0)).data damagedCard .initrd))
        (SdBootHdr.ofSector (damagedCard 0)).initrdSz :=
  (loaderRight_iff damagedCard_header.1 true _).2 fun _ => damagedCard_clear

end Neorv32Boot.Sd
