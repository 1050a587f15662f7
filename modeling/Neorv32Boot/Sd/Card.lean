import Neorv32Boot.Lib.Lanes
import Neorv32Boot.Sd.Layout

/-!
# The card

The SD card as sectors by LBA, and what a list of segments writes to it.  A segment is a start
LBA and a number of whole sectors; `sw/stage2_loader/sd.c` counts its sectors up in a `uint32_t`.
-/

namespace Neorv32Boot.Sd

/-- The bytes of a sector. -/
abbrev Sector : Type := Fin 512 → Byte

/-- The card, by LBA. -/
abbrev Card : Type := BitVec 32 → Sector

/-- The bytes of a sector as a byte string. -/
def Sector.bytes (s : Sector) : List Byte := List.ofFn s

/-- The sector `i` of a byte string. -/
def sectorAt (data : List Byte) (i : ℕ) : Sector := fun j => data.getD (sector * i + j) 0

/-- A segment of a multi-segment write. -/
structure Segment where
  startLba : ℕ
  data : List Byte
deriving DecidableEq

/-- `sec_count` of a segment. -/
def Segment.secCount (s : Segment) : ℕ := s.data.length / sector

/-- The sector writes of a segment, in order. -/
def Segment.writes (s : Segment) : List (BitVec 32 × Sector) :=
  (List.range s.secCount).map fun i => (BitVec.ofNat 32 (s.startLba + i), sectorAt s.data i)

/-- The card after some sector writes. -/
def Card.write (c : Card) (ws : List (BitVec 32 × Sector)) : Card :=
  Lanes.storeAll c (ws.map fun w => .whole w.1 w.2)

/-- A segment can be written by stage2: at most 8192 whole sectors, below LBA `2 ^ 32`. -/
structure Segment.Ok (s : Segment) : Prop where
  aligned : s.data.length % sector = 0
  pos : 0 < s.secCount
  le : s.secCount ≤ 8192
  lba : s.startLba + s.secCount ≤ 2 ^ 32

instance (s : Segment) : Decidable s.Ok :=
  decidable_of_iff (s.data.length % sector = 0 ∧ 0 < s.secCount ∧ s.secCount ≤ 8192 ∧
      s.startLba + s.secCount ≤ 2 ^ 32)
    ⟨fun ⟨h₁, h₂, h₃, h₄⟩ => ⟨h₁, h₂, h₃, h₄⟩, fun ⟨h₁, h₂, h₃, h₄⟩ => ⟨h₁, h₂, h₃, h₄⟩⟩

/-! ### Bytes of a sector -/

@[simp] lemma length_bytes (s : Sector) : s.bytes.length = sector :=
  List.length_ofFn

/-- A byte string of one sector is read back. -/
lemma bytes_sectorAt_zero {data : List Byte} (h : data.length = sector) :
    (sectorAt data 0).bytes = data := by
  refine List.ext_getElem (by rw [length_bytes, h]) fun j hj hj' => ?_
  simp only [Sector.bytes, List.getElem_ofFn, sectorAt, Nat.mul_zero, Nat.zero_add,
    List.getD_eq_getElem?_getD, List.getElem?_eq_getElem hj', Option.getD_some]

/-! ### Writing segments -/

lemma Card.write_append (c : Card) (ws vs : List (BitVec 32 × Sector)) :
    c.write (ws ++ vs) = (c.write ws).write vs := by
  simp [Card.write, Lanes.storeAll_append]

/-- The sector that was written last. -/
lemma Card.write_one (c : Card) (l : BitVec 32) (x : Sector) : c.write [(l, x)] l = x := by
  funext j
  simp [Card.write, Lanes.storeAll, Lanes.store, Lanes.Write.whole]

/-- The sectors outside a segment keep their content. -/
lemma Segment.write_outside (s : Segment) (c : Card) {n : ℕ} (hn : n < 2 ^ 32)
    (hs : s.startLba + s.secCount ≤ 2 ^ 32)
    (h : n < s.startLba ∨ s.startLba + s.secCount ≤ n) :
    c.write s.writes (BitVec.ofNat 32 n) = c (BitVec.ofNat 32 n) := by
  refine Lanes.storeAll_of_forall_ne fun w hw => ?_
  simp only [Segment.writes, List.map_map, List.mem_map, List.mem_range, Function.comp] at hw
  obtain ⟨i, hi, rfl⟩ := hw
  simp only [Lanes.Write.whole, ne_eq, ← BitVec.toNat_inj, BitVec.toNat_ofNat]
  omega

/-- A segment is stored sector by sector. -/
lemma Segment.write_inside (s : Segment) (c : Card) {i : ℕ} (hi : i < s.secCount)
    (hs : s.startLba + s.secCount ≤ 2 ^ 32) :
    c.write s.writes (BitVec.ofNat 32 (s.startLba + i)) = sectorAt s.data i := by
  have hnodup : ((List.range s.secCount).map fun i => BitVec.ofNat 32 (s.startLba + i)).Nodup := by
    refine List.Nodup.map_on (fun x hx y hy hxy => ?_) List.nodup_range
    simp only [List.mem_range] at hx hy
    have := congrArg BitVec.toNat hxy
    simp only [BitVec.toNat_ofNat] at this
    omega
  rw [Card.write, Segment.writes, List.map_map]
  exact Lanes.storeAll_whole c (List.range s.secCount)
    (fun i => BitVec.ofNat 32 (s.startLba + i)) (sectorAt s.data) hnodup (List.mem_range.2 hi)

end Neorv32Boot.Sd
