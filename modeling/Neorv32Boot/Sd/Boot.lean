import Neorv32Boot.Sdram.Bridge
import Neorv32Boot.Sd.Store

/-!
# Booting from the card

`mode_sd_boot` of `sw/stage2_loader/main.c`: read the header, copy the three sections from the
card to fixed addresses of the SDRAM, patch the end address of the initrd into the DTB, and jump
to the kernel.  The messages on the way are left out, but for those that it halts with.

The CPU has its instruction memory at `0x00000000`, its data memory at `0x80000000` and its
peripherals at the top.  The addresses from `0x40000000` up to the data memory go to the XBUS, and
so to the bridge of the SDRAM.  A loader that stores elsewhere stores over itself: what then comes
of it is not said here, and the model ends with a case of its own.
-/

namespace Neorv32Boot.Sd

/-! ### The SDRAM as the CPU sees it -/

/-- The `n` addresses from `a` on go to the XBUS: they are not below `0x40000000`, and they end
before the data memory of the CPU. -/
def OnXbus (a : BitVec 32) (n : ℕ) : Prop := 0x40000000 ≤ a.toNat ∧ a.toNat + n ≤ 0x80000000

instance (a : BitVec 32) (n : ℕ) : Decidable (OnXbus a n) :=
  inferInstanceAs (Decidable (_ ∧ _))

/-- The bytes of the SDRAM. -/
abbrev Ram : Type := BitVec 25 → Byte

namespace Ram

/-- A byte store on the XBUS: outside the SDRAM the bridge acknowledges and discards it. -/
def store (m : Ram) (a : BitVec 32) (b : Byte) : Ram :=
  if Sdram.inSdram a then Sdram.set m (a.extractLsb' 0 25) b else m

/-- A byte load on the XBUS: outside the SDRAM the bridge answers with zero. -/
def load (m : Ram) (a : BitVec 32) : Byte :=
  if Sdram.inSdram a then m (a.extractLsb' 0 25) else 0

/-- Bytes stored at rising addresses. -/
def storeBytes (m : Ram) (a : BitVec 32) : List Byte → Ram
  | [] => m
  | b :: bs => storeBytes (m.store a b) (a + 1) bs

end Ram

/-! ### The loader -/

def kernelLoadAddr : BitVec 32 := 0x40000000
def dtbLoadAddr : BitVec 32 := 0x41F00000
def initrdLoadAddr : BitVec 32 := 0x41F80000

/-- The fields of `struct sd_boot_hdr` that the loader uses, as little-endian words of the
sector. -/
structure SdBootHdr where
  imageSz : BitVec 32
  dtbSz : BitVec 32
  initrdSz : BitVec 32
  imageLba : BitVec 32
  dtbLba : BitVec 32
  initrdLba : BitVec 32

/-- The header in a sector. -/
def SdBootHdr.ofSector (s : Sector) : SdBootHdr :=
  let word (o : ℕ) : BitVec 32 := BitVec.ofNat 32 (Bytes.leAt 4 s.bytes o)
  { imageSz := word 8
    dtbSz := word 12
    initrdSz := word 16
    imageLba := word 20
    dtbLba := word 24
    initrdLba := word 28 }

/-- Why a copy from the card does not come to its end. -/
inductive CopyError
  /-- A sector cannot be read. -/
  | failed
  /-- A sector would be stored where the XBUS is not. -/
  | astray

/-- `sd_read_block` into the memory at `dst`.  `read` has no sector where it fails. -/
def sdReadTo (read : BitVec 32 → Option Sector) (lba dst : BitVec 32) :
    Except CopyError (List Byte) :=
  match read lba with
  | none => .error .failed
  | some s => if OnXbus dst s.bytes.length then .ok s.bytes else .error .astray

/-- `sd_read_many`: `n` sectors from `lba` on to rising addresses. -/
def sdReadMany (read : BitVec 32 → Option Sector) (lba : BitVec 32) (n : ℕ) (dst : BitVec 32)
    (m : Ram) : Except CopyError Ram :=
  (List.range n).foldlM (fun m i => do
    let dst := dst + BitVec.ofNat 32 i * 512
    let bs ← sdReadTo read (lba + BitVec.ofNat 32 i) dst
    pure (m.storeBytes dst bs)) m

/-- The end of the initrd as a big-endian cell. -/
def endCell (realEnd : BitVec 32) : List Byte :=
  [realEnd.extractLsb' 24 8, realEnd.extractLsb' 16 8, realEnd.extractLsb' 8 8,
    realEnd.extractLsb' 0 8]

/-- The bytes of the sentinel `0xC0DEDEAD`. -/
def sentinel : List Byte := [0xC0, 0xDE, 0xDE, 0xAD]

/-- One round of the loop of `patch_dtb_initrd_end`. -/
def patchStep (dtb realEnd : BitVec 32) (s : Ram × ℕ) (i : ℕ) : Ram × ℕ :=
  let a := dtb + BitVec.ofNat 32 i
  if s.1.load a = 0xC0 ∧ s.1.load (a + 1) = 0xDE ∧ s.1.load (a + 2) = 0xDE ∧
      s.1.load (a + 3) = 0xAD then
    (s.1.storeBytes a (endCell realEnd), s.2 + 1)
  else s

/-- `patch_dtb_initrd_end`: the SDRAM and the number of cells that were patched.  The loop looks
at every offset `i` with `i + 4 <= dtb_len`, also at those inside a cell that it has patched. -/
def patchDtbInitrdEnd (m : Ram) (dtb : BitVec 32) (dtbLen : ℕ) (initrdSize : BitVec 32) : Ram × ℕ :=
  (List.range (dtbLen - 3)).foldl (patchStep dtb (initrdLoadAddr + initrdSize)) (m, 0)

/-- How `mode_sd_boot` ends. -/
inductive Boot
  /-- It halts, with this message. -/
  | halt (text : String)
  /-- It jumps to the kernel, with this SDRAM. -/
  | jump (m : Ram)
  /-- It stores over its own memory. -/
  | astray

/-- A copy that does not come to its end: when a sector cannot be read, the boot halts with this
message. -/
def CopyError.boot (text : String) : CopyError → Boot
  | failed => .halt text
  | astray => .astray

/-- `mode_sd_boot`, with the results of `sd_init` and of the block reads. -/
def modeSdBoot (initOk : Bool) (read : BitVec 32 → Option Sector) (m : Ram) : Boot :=
  if !initOk then .halt "[sd] init FAIL\r\n" else
  match read 0 with
  | none => .halt "[sd] read hdr FAIL\r\n"
  | some hdrBuf =>
    if hdrBuf.bytes.take 8 ≠ magic then .halt "[sd] bad magic\r\n" else
    let h := SdBootHdr.ofSector hdrBuf
    let imgBlks := (h.imageSz + 511) / 512
    let dtbBlks := (h.dtbSz + 511) / 512
    let irdBlks := (h.initrdSz + 511) / 512
    match sdReadMany read h.imageLba imgBlks.toNat kernelLoadAddr m with
    | .error e => e.boot "[sd] img read FAIL\r\n"
    | .ok m =>
    match sdReadMany read h.dtbLba dtbBlks.toNat dtbLoadAddr m with
    | .error e => e.boot "[sd] dtb read FAIL\r\n"
    | .ok m =>
    match sdReadMany read h.initrdLba irdBlks.toNat initrdLoadAddr m with
    | .error e => e.boot "[sd] initrd read FAIL\r\n"
    | .ok m =>
      let (m, patched) := patchDtbInitrdEnd m dtbLoadAddr (dtbBlks * 512).toNat h.initrdSz
      if patched ≠ 1 then .halt "[!] DTB sentinel not found — halting\r\n" else .jump m

/-! ### The stores of the loader -/

/-- The stores of a block at rising addresses, in order. -/
def storesOf (a : BitVec 32) : List Byte → List (BitVec 32 × Byte)
  | [] => []
  | b :: bs => (a, b) :: storesOf (a + 1) bs

/-- The stores of `sd_read_many`, when it succeeds. -/
def sdReadManyStores (read : BitVec 32 → Option Sector) (lba : BitVec 32) (n : ℕ)
    (dst : BitVec 32) : Except CopyError (List (BitVec 32 × Byte)) :=
  (List.range n).foldlM (fun ws i => do
    let dst := dst + BitVec.ofNat 32 i * 512
    let bs ← sdReadTo read (lba + BitVec.ofNat 32 i) dst
    pure (ws ++ storesOf dst bs)) []

/-- The SDRAM after some stores. -/
def Ram.stores (m : Ram) (ws : List (BitVec 32 × Byte)) : Ram :=
  ws.foldl (fun m w => m.store w.1 w.2) m

section Stores

variable {a : BitVec 32} {bs : List Byte}

lemma length_storesOf (a : BitVec 32) (bs : List Byte) : (storesOf a bs).length = bs.length := by
  induction bs generalizing a with
  | nil => rfl
  | cons b bs ih => rw [storesOf, List.length_cons, ih, List.length_cons]

lemma storesOf_append (a : BitVec 32) (xs ys : List Byte) : storesOf a (xs ++ ys) =
    storesOf a xs ++ storesOf (a + BitVec.ofNat 32 xs.length) ys := by
  induction xs generalizing a with
  | nil => simp [storesOf]
  | cons x xs ih =>
    have hadd : a + 1 + BitVec.ofNat 32 xs.length = a + BitVec.ofNat 32 (xs.length + 1) := by
      bv_omega
    rw [List.cons_append, storesOf, ih, storesOf, List.cons_append, hadd, List.length_cons]

/-- The addresses of the stores. -/
lemma mem_storesOf_fst {x : BitVec 32} :
    (∃ w ∈ storesOf a bs, w.1 = x) ↔ ∃ i < bs.length, a + BitVec.ofNat 32 i = x := by
  induction bs generalizing a with
  | nil => simp [storesOf]
  | cons b bs ih =>
    have hadd : ∀ i : ℕ, a + 1 + BitVec.ofNat 32 i = a + BitVec.ofNat 32 (i + 1) := by
      intro i
      bv_omega
    simp only [storesOf, List.mem_cons, exists_eq_or_imp, ih, hadd, List.length_cons]
    constructor
    · rintro (rfl | ⟨i, hi, rfl⟩)
      · exact ⟨0, by omega, by simp⟩
      · exact ⟨i + 1, by omega, rfl⟩
    · rintro ⟨_ | i, hi, rfl⟩
      · exact Or.inl (by simp)
      · exact Or.inr ⟨i, by omega, rfl⟩

lemma Ram.stores_storesOf (m : Ram) (a : BitVec 32) (bs : List Byte) :
    m.stores (storesOf a bs) = m.storeBytes a bs := by
  induction bs generalizing m a with
  | nil => rfl
  | cons b bs ih => exact ih (m.store a b) (a + 1)

lemma Ram.stores_append (m : Ram) (ws vs : List (BitVec 32 × Byte)) :
    m.stores (ws ++ vs) = (m.stores ws).stores vs := List.foldl_append

lemma sdReadMany_succ (read : BitVec 32 → Option Sector) (lba : BitVec 32) (n : ℕ)
    (dst : BitVec 32) (m : Ram) : sdReadMany read lba (n + 1) dst m =
      (sdReadMany read lba n dst m).bind fun m =>
        (sdReadTo read (lba + BitVec.ofNat 32 n) (dst + BitVec.ofNat 32 n * 512)).map
          (m.storeBytes (dst + BitVec.ofNat 32 n * 512)) := by
  rw [sdReadMany, List.range_succ, List.foldlM_append, ← sdReadMany]
  cases sdReadMany read lba n dst m with
  | error e => rfl
  | ok m =>
    simp only [bind, pure, Except.bind, Except.pure, List.foldlM_cons, List.foldlM_nil]
    cases sdReadTo read (lba + BitVec.ofNat 32 n) (dst + BitVec.ofNat 32 n * 512) <;> rfl

lemma sdReadManyStores_succ (read : BitVec 32 → Option Sector) (lba : BitVec 32) (n : ℕ)
    (dst : BitVec 32) : sdReadManyStores read lba (n + 1) dst =
      (sdReadManyStores read lba n dst).bind fun ws =>
        (sdReadTo read (lba + BitVec.ofNat 32 n) (dst + BitVec.ofNat 32 n * 512)).map
          fun bs => ws ++ storesOf (dst + BitVec.ofNat 32 n * 512) bs := by
  rw [sdReadManyStores, List.range_succ, List.foldlM_append, ← sdReadManyStores]
  cases sdReadManyStores read lba n dst with
  | error e => rfl
  | ok ws =>
    simp only [bind, pure, Except.bind, Except.pure, List.foldlM_cons, List.foldlM_nil]
    cases sdReadTo read (lba + BitVec.ofNat 32 n) (dst + BitVec.ofNat 32 n * 512) <;> rfl

/-- `sd_read_many` does these stores. -/
lemma sdReadMany_eq (read : BitVec 32 → Option Sector) (lba : BitVec 32) (n : ℕ) (dst : BitVec 32)
    (m : Ram) : sdReadMany read lba n dst m = (sdReadManyStores read lba n dst).map m.stores := by
  induction n with
  | zero => rfl
  | succ n ih =>
    rw [sdReadMany_succ, sdReadManyStores_succ, ih]
    cases sdReadManyStores read lba n dst with
    | error e => rfl
    | ok ws =>
      simp only [Except.map, Except.bind]
      cases sdReadTo read (lba + BitVec.ofNat 32 n) (dst + BitVec.ofNat 32 n * 512) with
      | error e => rfl
      | ok bs => simp only [Ram.stores_append, Ram.stores_storesOf]

end Stores

end Neorv32Boot.Sd
