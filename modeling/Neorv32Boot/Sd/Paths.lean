import Neorv32Boot.Sd.Windows
import Neorv32Boot.Xmodem.Session

/-!
# The two boot paths

`mode_linux` of `sw/stage2_loader/main.c` receives by XMODEM what `mode_sd_boot` reads from the
card.  The host pads each file to whole blocks, and the loader takes the number of bytes that it
has received as the size of the initramfs, so that the end that it writes into the DTB is the one
of the padded file.
-/

namespace Neorv32Boot.Sd

open Replace (OccursAt)
open Neorv32Boot.Trans (Reachable)
open Xmodem (Pair pad numBlocks nak)

/-! ### Booting by XMODEM -/

/-- What `xmodem_receive_verified` returns, and the blocks that it has written, with their offsets
from `dest`. -/
structure Receipt where
  size : BitVec 32
  stores : List (BitVec 32 × List Byte)

/-- The blocks are in the SDRAM. -/
def Receipt.store (r : Receipt) (m : Ram) (dest : BitVec 32) : Ram :=
  r.stores.foldl (fun m w => m.storeBytes (dest + w.1) w.2) m

/-- These blocks, with their offsets from `dest`, are for the XBUS. -/
def BlocksOnXbus (dest : BitVec 32) (stores : List (BitVec 32 × List Byte)) : Prop :=
  ∀ w ∈ stores, OnXbus (dest + w.1) w.2.length

instance (dest : BitVec 32) (stores : List (BitVec 32 × List Byte)) :
    Decidable (BlocksOnXbus dest stores) :=
  inferInstanceAs (Decidable (∀ w ∈ stores, OnXbus (dest + w.1) w.2.length))

/-- The blocks are for the XBUS, and so is what is counted as received. -/
def Receipt.Lands (r : Receipt) (dest : BitVec 32) : Prop :=
  BlocksOnXbus dest r.stores ∧ OnXbus dest r.size.toNat

instance (r : Receipt) (dest : BitVec 32) : Decidable (r.Lands dest) :=
  inferInstanceAs (Decidable (_ ∧ _))

/-- The routine that prints a letter and returns. -/
def execTest : List Byte :=
  [0xFFF50337, 0x04B00393, 0x00732223, 0x00008067].flatMap (Bytes.toLE 4)

/-- Where that routine is put, behind the kernel. -/
def testAddr (kernelSize : BitVec 32) : BitVec 32 := (kernelLoadAddr + kernelSize + 3) &&& ~~~3

/-- `mode_linux`, with the results of the three calls of `xmodem_receive_verified`.  It halts
without a message of its own when one of them fails. -/
def modeLinux (kernel dtb initramfs : Receipt) (m : Ram) : Boot :=
  if ¬ kernel.Lands kernelLoadAddr then .astray else
  let m := kernel.store m kernelLoadAddr
  if kernel.size = 0 then .halt "" else
  if ¬ dtb.Lands dtbLoadAddr then .astray else
  let m := dtb.store m dtbLoadAddr
  if dtb.size = 0 then .halt "" else
  if ¬ initramfs.Lands initrdLoadAddr then .astray else
  let m := initramfs.store m initrdLoadAddr
  if initramfs.size = 0 then .halt "" else
  let (m, patched) := patchDtbInitrdEnd m dtbLoadAddr dtb.size.toNat initramfs.size
  if patched ≠ 1 then .halt "[!] DTB sentinel not found — halting\r\n" else
  if ¬ OnXbus (testAddr kernel.size) execTest.length then .astray else
  .jump (m.storeBytes (testAddr kernel.size) execTest)

/-- Both sides go on after a transfer over a line without faults, and stage2 has this receipt.
Stage2 has printed `toHost` before the host begins, and up to nine waits run out too early. -/
def Receives (payload name : List Byte) (dest : BitVec 32) (m : Ram) (r : Receipt) : Prop :=
  ∃ timeouts budget toHost y crcBuf, Xmodem.ack ∉ toHost ∧
    toHost.count nak + timeouts + budget ≤ 9 ∧
    Reachable (Xmodem.Timed.pairStep (pad payload) name)
      (Pair.startAfter (pad payload) (fun o => m.load (dest + o)) timeouts toHost, budget) y ∧
    y.1.sender = .returned true crcBuf ∧ y.1.receiver = .returned r.size ∧
    y.1.link.rx.stores = r.stores

/-- `boot_linux.py` sends the three files to `mode_linux`, which ends like this. -/
def LinuxBoots (f : Files) (m : Ram) (r : Boot) : Prop :=
  ∃ kernel dtb initramfs,
    Receives f.image (ascii "kernel") kernelLoadAddr m kernel ∧
    Receives f.dtb (ascii "DTB") dtbLoadAddr (kernel.store m kernelLoadAddr) dtb ∧
    Receives f.initrd (ascii "initramfs") initrdLoadAddr
      (dtb.store (kernel.store m kernelLoadAddr) dtbLoadAddr) initramfs ∧
    r = modeLinux kernel dtb initramfs m

/-! ### What the kernel is handed -/

/-- The cell at `p` of the DTB. -/
def cellAt (m : Ram) (p : ℕ) : List Byte := (List.range 4).map fun k => m.view dtbLoadAddr (p + k)

/-- The address in a big-endian cell. -/
def cellValue (cell : List Byte) : ℕ := Bytes.ofLE cell.reverse

/-- The initramfs that the kernel unpacks: up to the address in the cell at `p`. -/
def initramfs (m : Ram) (p : ℕ) : List Byte :=
  (List.range (cellValue (cellAt m p) - initrdLoadAddr.toNat)).map (m.view initrdLoadAddr)

/-- Both paths jump to the kernel, with the same cell, and the file as its initramfs. -/
def HandsSame (f : Files) (p : ℕ) (r r' : Boot) : Prop :=
  ∃ m m', r = .jump m ∧ r' = .jump m' ∧ cellAt m p = cellAt m' p ∧
    initramfs m p = f.initrd ∧ initramfs m' p = f.initrd

/-- The boot by XMODEM comes to an end, and whatever its end, the boot from the card hands the
kernel the same initramfs. -/
def PathsAgree (f : Files) (c : Card) (p : ℕ) (m m' : Ram) : Prop :=
  (∃ r, LinuxBoots f m r) ∧
    ∀ r, LinuxBoots f m r → HandsSame f p r (modeSdBoot true (fun l => some (c l)) m')

/-! ### The sections of `mode_linux` -/

/-- The receipt for a padded payload. -/
def Receipt.ofData (data : List Byte) : Receipt where
  size := BitVec.ofNat 32 data.length
  stores := (List.range (numBlocks data)).map fun k =>
    (BitVec.ofNat 32 (128 * k), Xmodem.block data k)

@[simp] lemma ofData_size (data : List Byte) :
    (Receipt.ofData data).size = BitVec.ofNat 32 data.length := rfl

/-- The bytes of the blocks of a receipt, one block behind the other. -/
def Receipt.bytes (r : Receipt) : List Byte := (r.stores.map Prod.snd).flatten

/-- Blocks of XMODEM, from offset 0 on. -/
structure Numbered (stores : List (BitVec 32 × List Byte)) : Prop where
  offsets : stores.map Prod.fst = (List.range stores.length).map fun k => BitVec.ofNat 32 (128 * k)
  length_buf : ∀ s ∈ stores, s.2.length = 128

section Numbered

variable {stores : List (BitVec 32 × List Byte)} {o dest : BitVec 32} {buf : List Byte}

/-- The last block. -/
lemma Numbered.concat (h : Numbered (stores ++ [(o, buf)])) :
    Numbered stores ∧ o = BitVec.ofNat 32 (128 * stores.length) ∧ buf.length = 128 := by
  have hoff := h.offsets
  rw [List.length_append, List.length_singleton, List.range_succ, List.map_append,
    List.map_append] at hoff
  obtain ⟨hoff, hlast⟩ := List.append_inj' hoff rfl
  exact ⟨⟨hoff, fun s hs => h.length_buf s (List.mem_append_left _ hs)⟩, (List.cons.inj hlast).1,
    h.length_buf _ (List.mem_append_right _ (List.mem_singleton_self _))⟩

lemma Numbered.length_flatten (h : Numbered stores) :
    (stores.map Prod.snd).flatten.length = 128 * stores.length := by
  induction stores using List.reverseRecOn with
  | nil => rfl
  | append_singleton stores x ih =>
    obtain ⟨h, -, hbuf⟩ := h.concat
    rw [List.map_append, List.flatten_append, List.length_append, ih h, List.length_append,
      List.map_singleton, List.flatten_singleton, hbuf, List.length_singleton]
    omega

/-- They are stored one behind the other. -/
lemma Numbered.foldl_eq (h : Numbered stores) (m : Ram) (dest : BitVec 32) :
    stores.foldl (fun m w => m.storeBytes (dest + w.1) w.2) m =
      m.storeBytes dest (stores.map Prod.snd).flatten := by
  induction stores using List.reverseRecOn with
  | nil => rfl
  | append_singleton stores x ih =>
    obtain ⟨h, ho, -⟩ := h.concat
    rw [List.foldl_append, ih h, List.map_append, List.flatten_append, Ram.storeBytes_append,
      h.length_flatten, List.map_singleton, List.flatten_singleton, List.foldl_cons, List.foldl_nil,
      ho]

/-- They are for the XBUS when the last one is. -/
lemma Numbered.onXbus_iff (h : Numbered stores) (hdest : OnXbus dest 0) :
    BlocksOnXbus dest stores ↔ OnXbus dest (128 * stores.length) := by
  induction stores using List.reverseRecOn with
  | nil => exact iff_of_true nofun hdest
  | append_singleton stores x ih =>
    obtain ⟨o, buf⟩ := x
    obtain ⟨h, ho, hbuf⟩ := h.concat
    have hblocks : BlocksOnXbus dest (stores ++ [(o, buf)]) ↔
        BlocksOnXbus dest stores ∧ OnXbus (dest + o) buf.length := by
      simp only [BlocksOnXbus, List.forall_mem_append, List.forall_mem_singleton]
    have hlow := hdest.1
    rw [hblocks, ih h, ho, hbuf, List.length_append, List.length_singleton]
    constructor
    · rintro ⟨⟨-, hle⟩, -, hlast⟩
      have hadd : (dest + BitVec.ofNat 32 (128 * stores.length)).toNat =
          dest.toNat + 128 * stores.length := by bv_omega
      exact ⟨hlow, by omega⟩
    · rintro ⟨-, hle⟩
      have hadd : (dest + BitVec.ofNat 32 (128 * stores.length)).toNat =
          dest.toNat + 128 * stores.length := by bv_omega
      exact ⟨⟨hlow, by omega⟩, by omega, by omega⟩

end Numbered

/-- The blocks of a payload. -/
lemma numbered_ofData (data : List Byte) : Numbered (Receipt.ofData data).stores := by
  constructor
  · simp only [Receipt.ofData, List.map_map, List.length_map, List.length_range]
    rfl
  · intro s hs
    obtain ⟨k, hk, rfl⟩ := List.mem_map.1 hs
    exact Xmodem.length_block (List.mem_range.1 hk)

lemma bytes_ofData {data : List Byte} (hdata : data.length % 128 = 0) :
    (Receipt.ofData data).bytes = data := by
  have hlen := Xmodem.length_eq hdata
  have htake : ∀ n ≤ numBlocks data,
      ((List.range n).map (Xmodem.block data)).flatten = data.take (128 * n) := by
    intro n hn
    induction n with
    | zero => rfl
    | succ n ih =>
      rw [List.range_succ, List.map_append, List.flatten_append, ih (by omega), List.map_singleton,
        List.flatten_singleton]
      exact List.take_add.symm
  have hblocks : (Receipt.ofData data).stores.map Prod.snd =
      (List.range (numBlocks data)).map (Xmodem.block data) := by
    simp only [Receipt.ofData, List.map_map]
    rfl
  rw [Receipt.bytes, hblocks, htake _ le_rfl, hlen, List.take_length]

/-- The blocks of a payload, stored one after the other. -/
lemma store_ofData {data : List Byte} (hdata : data.length % 128 = 0) (m : Ram)
    (dest : BitVec 32) : (Receipt.ofData data).store m dest = m.storeBytes dest data := by
  have hstore := (numbered_ofData data).foldl_eq m dest
  rw [← Receipt.bytes, bytes_ofData hdata] at hstore
  exact hstore

/-- The blocks of a payload are on the XBUS when the payload is. -/
lemma lands_ofData {data : List Byte} (hdata : data.length % 128 = 0) {dest : BitVec 32}
    (h : OnXbus dest data.length) : (Receipt.ofData data).Lands dest := by
  obtain ⟨hlow, hhigh⟩ := h
  have hnum := numbered_ofData data
  have hlen := hnum.length_flatten
  rw [← Receipt.bytes, bytes_ofData hdata] at hlen
  refine ⟨(hnum.onXbus_iff ⟨hlow, by omega⟩).2 ⟨hlow, by omega⟩, hlow, ?_⟩
  rw [ofData_size, BitVec.toNat_ofNat, Nat.mod_eq_of_lt (by omega)]
  exact hhigh

/-- The receipt of a transfer without faults. -/
lemma Receives.eq {payload name : List Byte} {dest : BitVec 32} {m : Ram} {r : Receipt}
    (h : Receives payload name dest m r) (hne : payload ≠ [])
    (hlen : (pad payload).length < 2 ^ 32) (hname : (0x3A : Byte) ∉ name) :
    r = Receipt.ofData (pad payload) := by
  obtain ⟨timeouts, budget, toHost, y, crcBuf, hack, hsum, hreach, -, hret, hstores⟩ := h
  have hdel := Xmodem.session_returns hne hlen hname hack hsum hreach hret
  obtain ⟨size, stores⟩ := r
  have hsize : size = BitVec.ofNat 32 (pad payload).length := by
    have := hret.symm.trans hdel.receiver
    exact (Xmodem.Receiver.returned.inj this)
  rw [Receipt.ofData, hsize, ← hdel.holds.stores_eq, hstores]

/-- There is such a transfer. -/
lemma Receives.exists {payload name : List Byte} (hne : payload ≠ [])
    (hlen : (pad payload).length < 2 ^ 32) (hname : (0x3A : Byte) ∉ name) (dest : BitVec 32)
    (m : Ram) : Receives payload name dest m (Receipt.ofData (pad payload)) := by
  have hends := @Xmodem.session_delivers payload name [] (fun o => m.load (dest + o)) 0 0 hne hlen
    hname (by simp) (by simp)
  obtain ⟨y, hreach, hdel⟩ := hends.exists_reachable
  obtain ⟨crcBuf, hsender⟩ := hdel.sender
  exact ⟨0, 0, [], y, crcBuf, by simp, by simp, hreach, hsender, hdel.receiver,
    hdel.holds.stores_eq⟩

/-! ### The patch of sections at their places -/

/-- The DTB and the initrd of these bytes are in their windows. -/
structure Placed (m : Ram) (d i : List Byte) : Prop where
  dtb : ∀ j < d.length, m.view dtbLoadAddr j = d.getD j 0
  initrd : ∀ j < i.length, m.view initrdLoadAddr j = i.getD j 0
  dtb_le : d.length ≤ 0x80000
  initrd_le : i.length ≤ 0x80000

/-- Sections that are stored one after the other, each inside its window. -/
lemma placed_stored (m : Ram) (k : List Byte) {d i : List Byte} (hd : d.length ≤ 0x80000)
    (hi : i.length ≤ 0x80000) :
    Placed (((m.storeBytes kernelLoadAddr k).storeBytes dtbLoadAddr d).storeBytes initrdLoadAddr i)
      d i := by
  have k2 := dtbLoadAddr_toNat
  have k3 := initrdLoadAddr_toNat
  refine ⟨?_, ?_, hd, hi⟩
  · intro j hj
    rw [view_storeBytes_of_apart hj (by omega) (by omega) (by omega),
      view_storeBytes (by omega) (by omega) hj]
  · intro j hj
    rw [view_storeBytes (by omega) (by omega) hj]

/-- An end that is a multiple of a block does not form the sentinel again, whatever is behind the
cell. -/
lemma not_reforms_of_block {d : List Byte} {n : ℕ} (hn : n ≤ 0x80000) (hmod : n % 128 = 0) :
    ¬ Replace.Reforms sentinel (endCell (initrdLoadAddr + BitVec.ofNat 32 n)) d := by
  obtain ⟨he1, he23, he3⟩ := endCell_bytes hn
  rintro ⟨q, -, j, hj, hjw, ho⟩
  obtain ⟨h0, h1, -, -⟩ := occursAt_sentinel.1 ho
  have h4 : sentinel.length = 4 := rfl
  have hcell : ∀ k < 4, (endCell (initrdLoadAddr + BitVec.ofNat 32 n) ++
      d.drop (q + sentinel.length)).getD k 0 =
        (endCell (initrdLoadAddr + BitVec.ofNat 32 n)).getD k 0 := by
    intro k hk
    rw [List.getD_eq_getElem?_getD, List.getElem?_append_left (by rwa [length_endCell]),
      List.getD_eq_getElem?_getD]
  obtain rfl | rfl | rfl : j = 1 ∨ j = 2 ∨ j = 3 := by omega
  · exact he1 ((hcell 1 (by omega)).symm.trans h0)
  · have := he23.1 ⟨(hcell 2 (by omega)).symm.trans h0, (hcell 3 (by omega)).symm.trans h1⟩
    omega
  · have := he3.1 ((hcell 3 (by omega)).symm.trans h0)
    omega

lemma cellValue_endCell (e : BitVec 32) : cellValue (endCell e) = e.toNat := by
  simp only [cellValue, endCell, List.reverse_cons, List.reverse_nil, List.nil_append,
    List.cons_append, Bytes.ofLE, BitVec.extractLsb'_toNat, Nat.shiftRight_eq_div_pow]
  omega

/-- What the kernel unpacks, with the end of so many bytes in the cell. -/
lemma initramfs_eq {m : Ram} {p n : ℕ} (hn : n ≤ 0x80000)
    (hcell : cellAt m p = endCell (initrdLoadAddr + BitVec.ofNat 32 n)) :
    initramfs m p = (List.range n).map (m.view initrdLoadAddr) := by
  have hend : (initrdLoadAddr + BitVec.ofNat 32 n).toNat = initrdLoadAddr.toNat + n := by
    have := initrdLoadAddr_toNat
    rw [BitVec.toNat_add, BitVec.toNat_ofNat]
    omega
  rw [initramfs, hcell, cellValue_endCell, hend, Nat.add_sub_cancel_left]

section Placed

variable {m : Ram} {d i : List Byte} {p : ℕ} (h : Placed m d i)
include h

lemma Placed.mirrors (sz : BitVec 32) :
    Mirrors m dtbLoadAddr (patchDtbInitrdEnd m dtbLoadAddr d.length sz)
      (Replace.scan sentinel (endCell (initrdLoadAddr + sz)) d) := by
  have hle := h.dtb_le
  have k2 := dtbLoadAddr_toNat
  exact mirrors_patch (by omega) (by omega) h.dtb sz

/-- One cell is patched, for an end that is a multiple of a block. -/
lemma Placed.patch_count (hp : ∃! q, OccursAt sentinel d q) {n : ℕ} (hn : n ≤ 0x80000)
    (hmod : n % 128 = 0) :
    (patchDtbInitrdEnd m dtbLoadAddr d.length (BitVec.ofNat 32 n)).2 = 1 := by
  rw [(h.mirrors _).count, (Replace.scan_count_iff borderFree_sentinel sentinel_ne_nil
    (length_endCell_eq _) d).2 (not_reforms_of_block hn hmod)]
  exact (Replace.occurrences_eq_one_iff sentinel_ne_nil).2 hp

/-- A patch of one cell writes the end there, and leaves the initrd. -/
lemma Placed.patched (hp : OccursAt sentinel d p) {sz : BitVec 32}
    (hone : (patchDtbInitrdEnd m dtbLoadAddr d.length sz).2 = 1) :
    cellAt (patchDtbInitrdEnd m dtbLoadAddr d.length sz).1 p = endCell (initrdLoadAddr + sz) ∧
      ∀ j < i.length,
        (patchDtbInitrdEnd m dtbLoadAddr d.length sz).1.view initrdLoadAddr j = i.getD j 0 := by
  obtain ⟨hcount, hview, hrest⟩ := h.mirrors sz
  obtain ⟨-, hrepl⟩ := Replace.scan_eq_one borderFree_sentinel sentinel_ne_nil
    (length_endCell_eq (initrdLoadAddr + sz)) d (hcount.symm.trans hone)
  have hple := hp.le sentinel_ne_nil
  have h4 : sentinel.length = 4 := rfl
  have hlen := hrepl.length
  have hd := h.dtb_le
  have hi := h.initrd_le
  have k2 := dtbLoadAddr_toNat
  have k3 := initrdLoadAddr_toNat
  constructor
  · refine List.ext_getElem rfl fun k hk hk' => ?_
    have hk4 : k < 4 := hk'
    have hin := hrepl.inside p (by omega) hp k (by omega)
    simp only [cellAt, List.getElem_map, List.getElem_range]
    refine (hview (p + k) (by omega)).trans ?_
    rw [List.getD_eq_getElem?_getD, hin, List.getElem?_eq_getElem hk', Option.getD_some]
  · intro j hj
    rw [← h.initrd j hj]
    refine hrest _ fun l hl he => ?_
    have := congrArg BitVec.toNat he
    rw [BitVec.toNat_add, BitVec.toNat_add, BitVec.toNat_ofNat, BitVec.toNat_ofNat] at this
    omega

end Placed

/-! ### Both paths -/

section Paths

variable {f : Files} {c c' : Card} {p : ℕ}

/-- The SDRAM after the three transfers. -/
def received (m : Ram) (f : Files) : Ram :=
  ((m.storeBytes kernelLoadAddr (pad f.image)).storeBytes dtbLoadAddr
    (pad f.dtb)).storeBytes initrdLoadAddr (pad f.initrd)

lemma length_file_le (h : Sd.pack f c = .ok c') (s : Slot) : (f.file s).length ≤ 2048000 := by
  obtain ⟨h1, h2, h3, h4, h5, h6⟩ := pack_lengths h
  cases s <;> simp only [Files.file] <;> omega

lemma length_pad_bounds (b : List Byte) :
    b.length ≤ (pad b).length ∧ (pad b).length < b.length + 128 := by
  simp only [pad, Xmodem.blockSize, List.length_append, List.length_replicate]
  omega

lemma getD_pad {b : List Byte} {j : ℕ} (hj : j < b.length) : (pad b).getD j 0 = b.getD j 0 := by
  rw [pad, List.getD_eq_getElem?_getD, List.getElem?_append_left hj, List.getD_eq_getElem?_getD]

lemma not_mem_sentinel : (0 : Byte) ∉ sentinel ∧ (0x1A : Byte) ∉ sentinel := by decide

lemma occursAt_pad (b : List Byte) (q : ℕ) :
    OccursAt sentinel (pad b) q ↔ SentinelAt b q := by
  rw [pad, Replace.occursAt_append_replicate not_mem_sentinel.2, occursAt_sentinel]

lemma occursAt_padSector (b : List Byte) (q : ℕ) :
    OccursAt sentinel (padSector b) q ↔ SentinelAt b q := by
  rw [padSector, Replace.occursAt_append_replicate not_mem_sentinel.1, occursAt_sentinel]

/-- Aligning takes off what is in the two lowest bits. -/
lemma testAddr_ge {n : ℕ} (hn : n ≤ 0x40000000) :
    kernelLoadAddr.toNat ≤ (testAddr (BitVec.ofNat 32 n)).toNat := by
  generalize hx : kernelLoadAddr + BitVec.ofNat 32 n + 3 = x
  have hsum : x.toNat = kernelLoadAddr.toNat + n + 3 := by
    have k1 := kernelLoadAddr_toNat
    have h3 : (3 : BitVec 32).toNat = 3 := rfl
    rw [← hx, BitVec.toNat_add, BitVec.toNat_add, BitVec.toNat_ofNat, h3]
    omega
  have hsplit : x = (x &&& 3) + (x &&& ~~~3) := by
    rw [BitVec.add_eq_or_of_and_eq_zero, ← BitVec.and_or_distrib_left]
    · exact (BitVec.and_allOnes).symm
    · rw [BitVec.and_comm x (~~~3), ← BitVec.and_assoc, BitVec.and_assoc x]
      simp
  have hlow : (x &&& 3).toNat ≤ 3 := by
    rw [BitVec.toNat_and]
    exact Nat.and_le_right
  have hle : (x &&& ~~~3).toNat ≤ x.toNat := by
    rw [BitVec.toNat_and]
    exact Nat.and_le_left
  have hadd := congrArg BitVec.toNat hsplit
  rw [BitVec.toNat_add] at hadd
  rw [testAddr, hx]
  omega

lemma testAddr_le {n : ℕ} (hn : n ≤ 0x40000000) :
    (testAddr (BitVec.ofNat 32 n)).toNat ≤ kernelLoadAddr.toNat + n + 3 := by
  have k1 := kernelLoadAddr_toNat
  have hadd : (kernelLoadAddr + BitVec.ofNat 32 n + 3).toNat = kernelLoadAddr.toNat + n + 3 := by
    have h3 : (3 : BitVec 32).toNat = 3 := rfl
    rw [BitVec.toNat_add, BitVec.toNat_add, BitVec.toNat_ofNat, h3]
    omega
  rw [← hadd, testAddr, BitVec.toNat_and]
  exact Nat.and_le_left

/-- How `mode_linux` ends with the padded files in the SDRAM. -/
def linuxEnd (m : Ram) (f : Files) : Boot :=
  let (m, patched) := patchDtbInitrdEnd (received m f) dtbLoadAddr (pad f.dtb).length
    (BitVec.ofNat 32 (pad f.initrd).length)
  if patched ≠ 1 then .halt "[!] DTB sentinel not found — halting\r\n" else
  .jump (m.storeBytes (testAddr (BitVec.ofNat 32 (pad f.image).length)) execTest)

lemma linuxEnd_of_one {m : Ram} (h : (patchDtbInitrdEnd (received m f) dtbLoadAddr
      (pad f.dtb).length (BitVec.ofNat 32 (pad f.initrd).length)).2 = 1) :
    linuxEnd m f = .jump ((patchDtbInitrdEnd (received m f) dtbLoadAddr (pad f.dtb).length
      (BitVec.ofNat 32 (pad f.initrd).length)).1.storeBytes
        (testAddr (BitVec.ofNat 32 (pad f.image).length)) execTest) := by
  simp only [linuxEnd, h, ne_eq, not_true_eq_false, if_false]

/-- Over lines without faults the boot by XMODEM ends, and in one way. -/
theorem linuxBoots_iff (hne : ∀ s, f.file s ≠ []) (hlen : ∀ s, (f.file s).length ≤ 2048000)
    (m : Ram) (r : Boot) : LinuxBoots f m r ↔ r = linuxEnd m f := by
  have hbound : ∀ s, 0 < (pad (f.file s)).length ∧ (pad (f.file s)).length < 2 ^ 32 := by
    intro s
    have h1 := length_pad_bounds (f.file s)
    have h2 := List.length_pos_iff.2 (hne s)
    have h3 := hlen s
    omega
  -- the three receipts are those of the padded files
  have hmode : modeLinux (.ofData (pad f.image)) (.ofData (pad f.dtb)) (.ofData (pad f.initrd)) m =
      linuxEnd m f := by
    have hsize : ∀ s, BitVec.ofNat 32 (pad (f.file s)).length ≠ 0 := by
      intro s
      obtain ⟨h1, h2⟩ := hbound s
      bv_omega
    have htoNat : (BitVec.ofNat 32 (pad f.dtb).length).toNat = (pad f.dtb).length := by
      rw [BitVec.toNat_ofNat]
      exact Nat.mod_eq_of_lt (hbound .dtb).2
    have hstore := fun (b : List Byte) => store_ofData (Xmodem.length_pad b)
    have hlands : ∀ s dest, 0x40000000 ≤ dest.toNat → dest.toNat ≤ 0x42000000 →
        (Receipt.ofData (pad (f.file s))).Lands dest := by
      intro s dest hlow hhigh
      have hle := hlen s
      have hpad := length_pad_bounds (f.file s)
      exact lands_ofData (Xmodem.length_pad _) ⟨hlow, by omega⟩
    have himg := hsize .image
    have hdtb := hsize .dtb
    have hird := hsize .initrd
    have limg := hlands .image kernelLoadAddr (by decide) (by decide)
    have ldtb := hlands .dtb dtbLoadAddr (by decide) (by decide)
    have lird := hlands .initrd initrdLoadAddr (by decide) (by decide)
    have ltest : OnXbus (testAddr (BitVec.ofNat 32 (pad f.image).length)) execTest.length := by
      have himage : f.image.length ≤ 2048000 := hlen .image
      have hpad := length_pad_bounds f.image
      have hge := testAddr_ge (show (pad f.image).length ≤ 0x40000000 by omega)
      have hle := testAddr_le (show (pad f.image).length ≤ 0x40000000 by omega)
      have k1 := kernelLoadAddr_toNat
      have hexec : execTest.length = 16 := rfl
      exact ⟨by omega, by omega⟩
    simp only [Files.file] at himg hdtb hird limg ldtb lird
    simp only [modeLinux, hstore, ofData_size, himg, hdtb, hird, limg, ldtb, lird, ltest, htoNat,
      not_true_eq_false, if_false]
    rfl
  rw [← hmode]
  constructor
  · rintro ⟨kernel, dtb, initramfs, hk, hd, hi, rfl⟩
    rw [hk.eq (hne .image) (hbound .image).2 (by decide),
      hd.eq (hne .dtb) (hbound .dtb).2 (by decide),
      hi.eq (hne .initrd) (hbound .initrd).2 (by decide)]
  · rintro rfl
    exact ⟨_, _, _, Receives.exists (hne .image) (hbound .image).2 (by decide) _ _,
      Receives.exists (hne .dtb) (hbound .dtb).2 (by decide) _ _,
      Receives.exists (hne .initrd) (hbound .initrd).2 (by decide) _ _, rfl⟩

/-- A boot by XMODEM that jumps has the end of the padded initrd in the cell. -/
lemma linuxEnd_jump {m m₁ : Ram} (hlen : ∀ s, (f.file s).length ≤ 2048000)
    (hd : (pad f.dtb).length ≤ 0x80000) (hi : (pad f.initrd).length ≤ 0x80000)
    (hs : SentinelAt f.dtb p) (h : linuxEnd m f = .jump m₁) :
    cellAt m₁ p = endCell (initrdLoadAddr + BitVec.ofNat 32 (pad f.initrd).length) ∧
      ∀ j < f.initrd.length, m₁.view initrdLoadAddr j = f.initrd.getD j 0 := by
  have hplaced : Placed (received m f) (pad f.dtb) (pad f.initrd) := placed_stored m _ hd hi
  have hple := hs.le
  have hbd := length_pad_bounds f.dtb
  have hbi := length_pad_bounds f.initrd
  have hbk := length_pad_bounds f.image
  have himg : f.image.length ≤ 2048000 := hlen .image
  have htest := testAddr_le (show (pad f.image).length ≤ 0x40000000 by omega)
  have hexec : execTest.length = 16 := rfl
  have k1 := kernelLoadAddr_toNat
  have k2 := dtbLoadAddr_toNat
  have k3 := initrdLoadAddr_toNat
  simp only [linuxEnd] at h
  split_ifs at h with hone
  cases h
  obtain ⟨hcell, hview⟩ := hplaced.patched ((occursAt_pad _ _).2 hs) (not_not.1 hone)
  refine ⟨?_, fun j hj => ?_⟩
  · rw [← hcell]
    refine List.map_congr_left fun k hk => ?_
    rw [List.mem_range] at hk
    exact view_storeBytes_of_apart (n := p + 4) (by omega) (by omega) (by omega) (by omega)
  · rw [view_storeBytes_of_apart hj (by omega) (by omega) (by omega), hview j (by omega),
      getD_pad hj]

/-- A boot from the card that jumps has the end of the initrd in the cell. -/
lemma sdBoot_jump (h : Sd.pack f c = .ok c') (hn : f.initrd.length ≤ 0x80000)
    (hs : SentinelAt f.dtb p) {m m₁ : Ram}
    (hj : modeSdBoot true (fun l => some (c' l)) m = .jump m₁) :
    cellAt m₁ p = endCell (initrdLoadAddr + BitVec.ofNat 32 f.initrd.length) ∧
      ∀ j < f.initrd.length, m₁.view initrdLoadAddr j = f.initrd.getD j 0 := by
  obtain ⟨h1, h2, h3, h4, h5, h6⟩ := pack_lengths h
  have hlen : (padSector f.initrd).length ≤ 0x80000 := by
    rw [length_padSector]
    unfold sector
    omega
  have hplaced : Placed (loaded m f) (padSector f.dtb) (padSector f.initrd) :=
    placed_stored m _ (by omega) hlen
  rw [modeSdBoot_of_pack h m] at hj
  simp only at hj
  split_ifs at hj with hone
  cases hj
  obtain ⟨hcell, hview⟩ := hplaced.patched ((occursAt_padSector _ _).2 hs) (not_not.1 hone)
  exact ⟨hcell, fun j hj => by rw [hview j (by omega), getD_padSector]⟩

/-- The initramfs of a jump with the end of the file in the cell is the file. -/
lemma initramfs_file {m : Ram} (hn : f.initrd.length ≤ 0x80000)
    (hcell : cellAt m p = endCell (initrdLoadAddr + BitVec.ofNat 32 f.initrd.length))
    (hview : ∀ j < f.initrd.length, m.view initrdLoadAddr j = f.initrd.getD j 0) :
    initramfs m p = f.initrd := by
  rw [initramfs_eq hn hcell]
  refine List.ext_getElem (by simp) fun j hj hj' => ?_
  rw [List.getElem_map, List.getElem_range, hview j hj', List.getD_eq_getElem?_getD,
    List.getElem?_eq_getElem hj', Option.getD_some]

/-- Two paths that agree: the padded initrd is as long as the file. -/
lemma length_of_agree (h : Sd.pack f c = .ok c') (hne : ∀ s, f.file s ≠ [])
    (hs : SentinelAt f.dtb p) (hn : f.initrd.length ≤ 0x80000) {m m' : Ram}
    (ha : PathsAgree f c' p m m') : f.initrd.length % 128 = 0 := by
  obtain ⟨h1, h2, h3, h4, h5, h6⟩ := pack_lengths h
  have hlen := length_file_le h
  have hbd := length_pad_bounds f.dtb
  have hbi := length_pad_bounds f.initrd
  have hmod := Xmodem.length_pad f.initrd
  obtain ⟨m₁, m₂, hj, -, -, hfile, -⟩ := ha.2 _ ((linuxBoots_iff hne hlen m _).2 rfl)
  obtain ⟨hcell, -⟩ := linuxEnd_jump hlen (by omega) (by omega) hs hj
  have hlength := congrArg List.length hfile
  rw [initramfs_eq (by omega) hcell, List.length_map, List.length_range] at hlength
  omega

/-- **When the two boot paths agree.**  For files that `sd_pack` lets through, with the sentinel
once in the DTB and the initrd in its window, both paths hand the kernel the same initramfs, the
file, exactly when the length of the initrd is a multiple of the XMODEM block. -/
theorem pathsAgree_iff (h : Sd.pack f c = .ok c') (hne : ∀ s, f.file s ≠ [])
    (hs : SentinelAt f.dtb p) (hu : ∀ q, SentinelAt f.dtb q → q = p)
    (hn : f.initrd.length ≤ 0x80000) (m m' : Ram) :
    PathsAgree f c' p m m' ↔ f.initrd.length % 128 = 0 := by
  refine ⟨length_of_agree h hne hs hn, fun hzero => ?_⟩
  obtain ⟨h1, h2, h3, h4, h5, h6⟩ := pack_lengths h
  have hlen := length_file_le h
  have hbd := length_pad_bounds f.dtb
  have hbi := length_pad_bounds f.initrd
  have hmod := Xmodem.length_pad f.initrd
  have hd : (pad f.dtb).length ≤ 0x80000 := by omega
  have hi : (pad f.initrd).length ≤ 0x80000 := by omega
  have hsame : (pad f.initrd).length = f.initrd.length := by omega
  have huniq : ∃! q, SentinelAt f.dtb q := ⟨p, hs, hu⟩
  have hplaced : Placed (received m f) (pad f.dtb) (pad f.initrd) := placed_stored m _ hd hi
  have hplaced' : Placed (loaded m' f) (padSector f.dtb) (padSector f.initrd) := by
    refine placed_stored m' _ (by omega) ?_
    rw [length_padSector]
    unfold sector
    omega
  have hone := hplaced.patch_count (by simpa only [occursAt_pad] using huniq) hi hmod
  have hone' := hplaced'.patch_count (by simpa only [occursAt_padSector] using huniq) hn hzero
  -- both jump
  obtain ⟨m₁, hj₁⟩ : ∃ m₁, linuxEnd m f = .jump m₁ := ⟨_, linuxEnd_of_one hone⟩
  obtain ⟨m₂, hj₂⟩ : ∃ m₂, modeSdBoot true (fun l => some (c' l)) m' = .jump m₂ := by
    rw [modeSdBoot_of_pack h m']
    simp only [hone', ne_eq, not_true_eq_false, if_false]
    exact ⟨_, rfl⟩
  obtain ⟨hcell₁, hview₁⟩ := linuxEnd_jump hlen hd hi hs hj₁
  obtain ⟨hcell₂, hview₂⟩ := sdBoot_jump h hn hs hj₂
  rw [hsame] at hcell₁
  refine ⟨⟨_, (linuxBoots_iff hne hlen m _).2 rfl⟩, fun r hr => ?_⟩
  rw [linuxBoots_iff hne hlen] at hr
  exact ⟨m₁, m₂, hr.trans hj₁, hj₂, hcell₁.trans hcell₂.symm, initramfs_file hn hcell₁ hview₁,
    initramfs_file hn hcell₂ hview₂⟩

/-- The sentinel as the DTB, and an initrd of one block. -/
theorem pathsAgree_block :
    let f : Files := ⟨[1], sentinel, List.replicate 128 3⟩
    ∃ c', Sd.pack f (fun _ _ => 0) = .ok c' ∧
      (PathsAgree f c' 0 (fun _ => 0) (fun _ => 0) ↔ f.initrd.length % 128 = 0) := by
  intro f
  have hlen : f.initrd.length = 128 := List.length_replicate
  have hfit : ∀ s, usedSec (f.file s) ≤ s.maxSec := by
    rintro (_ | _ | _)
    · decide
    · decide
    · simp only [Files.file, usedSec, hlen]
      decide
  have hne : ∀ s, f.file s ≠ [] := by
    rintro (_ | _ | _)
    · exact List.cons_ne_nil _ _
    · exact List.cons_ne_nil _ _
    · exact List.ne_nil_of_length_pos (by simp only [Files.file, hlen]; decide)
  obtain ⟨c', hc'⟩ := exists_pack (fun _ _ => 0) hfit hne
  exact ⟨c', hc', pathsAgree_iff hc' hne sentinelAt_sentinel.1 sentinelAt_sentinel.2
    (by rw [hlen]; decide) _ _⟩

/-- An initrd of one byte: the end that `mode_linux` writes is 127 bytes behind it. -/
theorem not_pathsAgree_byte :
    let f : Files := ⟨[1], sentinel, [3]⟩
    ∃ c', Sd.pack f (fun _ _ => 0) = .ok c' ∧ (∀ s, f.file s ≠ []) ∧ SentinelAt f.dtb 0 ∧
      (∀ q, SentinelAt f.dtb q → q = 0) ∧ ¬ PathsAgree f c' 0 (fun _ => 0) (fun _ => 0) := by
  intro f
  have hne : ∀ s, f.file s ≠ [] := by rintro (_ | _ | _) <;> exact List.cons_ne_nil _ _
  obtain ⟨c', hc'⟩ := exists_pack (f := f) (fun _ _ => 0) (by rintro (_ | _ | _) <;> decide) hne
  refine ⟨c', hc', hne, sentinelAt_sentinel.1, sentinelAt_sentinel.2, fun ha => ?_⟩
  have hlen := length_of_agree hc' hne sentinelAt_sentinel.1 (by decide) ha
  exact absurd hlen (by decide)

end Paths

end Neorv32Boot.Sd
