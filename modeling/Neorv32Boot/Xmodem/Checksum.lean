import Neorv32Boot.Lib.Crc
import Neorv32Boot.Xmodem.Verified

/-!
# What the checksum tells apart

Stage2 sends the CRC-32 of what it has received, bit by bit as `crc32` of
`sw/stage2_loader/main.c` computes it, and the host compares it with `binascii.crc32`.  The two are
the same remainder, and it differs for any two strings of one length that differ in a burst.
-/

namespace Neorv32Boot.Xmodem

open Stage2 (crc32 crcBit crcByte)

/-- The polynomial of CRC-32, reflected and without its leading coefficient. -/
def crcPoly : BitVec 32 := 0xEDB88320

/-- `binascii.crc32`: the CRC-32 of IEEE 802.3, of the bits of each byte from bit 0 on. -/
noncomputable def binasciiCrc32 (data : List Byte) : BitVec 32 :=
  Crc.code crcPoly 0xFFFFFFFF (data.flatMap Crc.bits)

/-! ### The loops of stage2 -/

/-- `-(crc & 1)` is a mask. -/
lemma neg_and_one (c : BitVec 32) : -(c &&& 1) = if c.getLsbD 0 then 0xFFFFFFFF else 0 := by
  have hone : c &&& 1 = (BitVec.ofBool (c.getLsbD 0)).setWidth 32 :=
    BitVec.and_one_eq_setWidth_ofBool_getLsbD
  rw [hone]
  cases c.getLsbD 0 <;> rfl

lemma crcBit_eq (c : BitVec 32) : crcBit c = Crc.shift crcPoly c := by
  rw [crcBit, neg_and_one, Crc.shift]
  cases c.getLsbD 0 <;> rfl

lemma crcByte_eq (c : BitVec 32) (b : Byte) : crcByte c b = Crc.update crcPoly c b := by
  rw [crcByte, Crc.update, funext crcBit_eq]

/-- `crc32` is the standard code. -/
lemma crc32_eq (data : List Byte) : crc32 data = binasciiCrc32 data := by
  have hbyte : crcByte = Crc.update crcPoly := funext fun c => funext fun b => crcByte_eq c b
  rw [crc32, hbyte, Crc.foldl_update_eq_code crcPoly (by decide), binasciiCrc32]

/-! ### Bursts -/

/-- Byte strings of one length are told apart by their bits. -/
lemma eq_of_flatMap_bits_eq {a b : List Byte} (hlen : a.length = b.length)
    (h : a.flatMap Crc.bits = b.flatMap Crc.bits) : a = b := by
  induction a generalizing b with
  | nil => exact (List.length_eq_zero_iff.1 hlen.symm).symm
  | cons x a ih =>
    obtain ⟨y, b, rfl⟩ := List.exists_cons_of_length_eq_add_one hlen.symm
    rw [List.flatMap_cons, List.flatMap_cons] at h
    obtain ⟨hxy, hab⟩ := List.append_inj h (by rw [Crc.length_bits, Crc.length_bits])
    rw [ih (Nat.succ.inj hlen) hab, Crc.reg_injective (congrArg Crc.poly hxy)]

/-- **CRC-32 is the standard remainder, and it detects bursts.**  What stage2 computes is what the
host computes with `binascii.crc32`; and two byte strings of one length that differ, but only inside
a window of 32 bits, have different checksums. -/
theorem crc32_detects_bursts :
    (∀ data : List Byte,
      crc32 data = binasciiCrc32 data ∧ expectedCrc data = (binasciiCrc32 data).toNat) ∧
    ∀ (a b : List Byte) (p : ℕ), a.length = b.length → a ≠ b →
      (∀ i, i < p ∨ p + 32 ≤ i → (a.flatMap Crc.bits)[i]? = (b.flatMap Crc.bits)[i]?) →
      crc32 a ≠ crc32 b := by
  refine ⟨fun data => ⟨crc32_eq data, by rw [expectedCrc, crc32_eq]⟩, ?_⟩
  intro a b p hlen hne hsame
  have hbits : (a.flatMap Crc.bits).length = (b.flatMap Crc.bits).length := by
    simp [List.length_flatMap, hlen]
  rw [crc32_eq, crc32_eq]
  exact Crc.code_ne_of_burst crcPoly (by decide) (by decide) 0xFFFFFFFF hbits
    (fun h => hne (eq_of_flatMap_bits_eq hlen h)) hsame

theorem crc32_detects_bursts_two_bits : crc32 [0x00, 0x2A] ≠ crc32 [0x80, 0x2B] := by
  refine crc32_detects_bursts.2 [0x00, 0x2A] [0x80, 0x2B] 7 rfl (by decide) fun i hi => ?_
  rcases hi with hi | hi
  · interval_cases i <;> rfl
  · rw [List.getElem?_eq_none (by simp; omega), List.getElem?_eq_none (by simp; omega)]

end Neorv32Boot.Xmodem
