import Neorv32Boot.Host.Python

/-!
# The console of stage2

The numbers and texts that `sw/stage2_loader` prints, as bytes of the serial line, and the CRC-32 of
IEEE 802.3 that it prints of what it has received.  The host reads the numbers back.
-/

namespace Neorv32Boot.Stage2

/-- `hex[d]`: a hexadecimal digit. -/
def hexDigit (d : ℕ) : Byte := BitVec.ofNat 8 (if d < 10 then 0x30 + d else 0x57 + d)

/-- `uart_puthex32` -/
def puthex32 (v : BitVec 32) : List Byte :=
  ascii "0x" ++ [28, 24, 20, 16, 12, 8, 4, 0].map fun i => hexDigit ((v >>> i).toNat % 16)

/-- What the dispatcher prints before it waits for the next command. -/
def readyText : List Byte := ascii "[stage2] ready for next cmd\r\n"

/-! ### CRC-32 -/

/-- The body of the inner loop. -/
def crcBit (crc : BitVec 32) : BitVec 32 := (crc >>> 1) ^^^ (0xEDB88320 &&& -(crc &&& 1))

/-- The body of the outer loop. -/
def crcByte (crc : BitVec 32) (b : Byte) : BitVec 32 := crcBit^[8] (crc ^^^ b.setWidth 32)

/-- `crc32` -/
def crc32 (data : List Byte) : BitVec 32 := ~~~data.foldl crcByte 0xFFFFFFFF

example : crc32 (ascii "123456789") = 0xCBF43926 := by decide +kernel

end Neorv32Boot.Stage2

namespace Neorv32Boot.Host

open Stage2 (hexDigit puthex32)

/-! ### What stage2 prints is read back -/

lemma hexVal_hexDigit : ∀ d < 16, hexVal (hexDigit d) = some d := by decide

lemma isSpace_hexDigit : ∀ d < 16, isSpace (hexDigit d) = false := by decide

lemma digits16_hexDigit (ns : List ℕ) (h : ∀ n ∈ ns, n < 16) (acc : ℕ) :
    digits16 acc (ns.map hexDigit) = some (ns.foldl (fun a d => 16 * a + d) acc) := by
  induction ns generalizing acc with
  | nil => rfl
  | cons n ns ih =>
    rw [List.map_cons, digits16, hexVal_hexDigit n (h n List.mem_cons_self)]
    exact ih (fun m hm => h m (List.mem_cons_of_mem n hm)) _

/-- The digits of a word, the most significant one first. -/
def nibbles (v : BitVec 32) : List ℕ :=
  [28, 24, 20, 16, 12, 8, 4, 0].map fun i => (v >>> i).toNat % 16

lemma puthex32_eq (v : BitVec 32) : puthex32 v = 0x30 :: 0x78 :: (nibbles v).map hexDigit := by
  rw [puthex32, nibbles, List.map_map]
  rfl

lemma nibbles_lt (v : BitVec 32) : ∀ n ∈ nibbles v, n < 16 := by
  intro n hn
  obtain ⟨i, -, rfl⟩ := List.mem_map.1 hn
  exact Nat.mod_lt _ (by decide)

lemma nibbles_foldl (v : BitVec 32) : (nibbles v).foldl (fun a d => 16 * a + d) 0 = v.toNat := by
  have hfirst : 16 * 0 + v.toNat / 2 ^ 28 % 16 = v.toNat / 2 ^ 28 := by
    have := v.isLt
    omega
  -- a digit goes behind those before it
  have hnext : ∀ k, 16 * (v.toNat / 2 ^ (k + 4)) + v.toNat / 2 ^ k % 16 = v.toNat / 2 ^ k := by
    intro k
    rw [pow_add, ← Nat.div_div_eq_div_mul]
    exact Nat.div_add_mod _ 16
  simp only [nibbles, List.map_cons, List.map_nil, List.foldl_cons, List.foldl_nil,
    BitVec.toNat_ushiftRight, Nat.shiftRight_eq_div_pow]
  rw [hfirst, hnext 24, hnext 20, hnext 16, hnext 12, hnext 8, hnext 4, hnext 0, pow_zero,
    Nat.div_one]

lemma mem_puthex32 {v : BitVec 32} {b : Byte} (h : b ∈ puthex32 v) :
    b = 0x78 ∨ ∃ n < 16, b = hexDigit n := by
  rw [puthex32_eq] at h
  rcases List.mem_cons.1 h with rfl | h
  · exact Or.inr ⟨0, by decide, by decide⟩
  rcases List.mem_cons.1 h with rfl | h
  · exact Or.inl rfl
  obtain ⟨n, hn, rfl⟩ := List.mem_map.1 h
  exact Or.inr ⟨n, nibbles_lt v n hn, rfl⟩

lemma isSpace_puthex32 (v : BitVec 32) : ∀ b ∈ puthex32 v, isSpace b = false := by
  intro b hb
  rcases mem_puthex32 hb with rfl | ⟨n, hn, rfl⟩
  · rfl
  · exact isSpace_hexDigit n hn

lemma length_puthex32 (v : BitVec 32) : (puthex32 v).length = 10 := rfl

/-- A number that stage2 prints is read back. -/
theorem int16_puthex32 (v : BitVec 32) : int16 (puthex32 v) = some (v.toNat : ℤ) := by
  have hd : digits16 0 ((nibbles v).map hexDigit) = some v.toNat := by
    rw [digits16_hexDigit _ (nibbles_lt v), nibbles_foldl]
  obtain ⟨n, ns, hns⟩ : ∃ n ns, nibbles v = n :: ns := ⟨_, _, rfl⟩
  have hn : hexVal (hexDigit n) = some n :=
    hexVal_hexDigit n (nibbles_lt v n (hns ▸ List.mem_cons_self))
  rw [hns, List.map_cons] at hd
  simp only [int16, strip_eq_self (isSpace_puthex32 v)]
  rw [puthex32_eq, hns, List.map_cons]
  have hne : hexDigit n ≠ 95#8 := by
    intro h
    rw [h] at hn
    cases hn
  simp [ascii, hd, hn, hne]

end Neorv32Boot.Host
