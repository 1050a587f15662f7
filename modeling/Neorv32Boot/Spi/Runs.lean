import Neorv32Boot.Lib.Trans
import Neorv32Boot.Spi.Rest

/-!
# Which sector is touched

Runs of `sd_init`, `sd_read_block` and `sd_write_block` on a card that may answer any command with
an error.  When a block-addressed card answers `CMD58`, when every LBA has an address, and when no
read or write finds the card busy with a block, a call that succeeds is about the sector that was
asked for.
-/

namespace Neorv32Boot.Spi

open Sd (Sector)
open Neorv32Boot.Trans (Reachable restrict restrict_eq_some)

/-! ### Runs of the driver -/

/-- The card and the driver.  `inited` says that the last `sd_init` has returned 0. -/
structure Sys where
  card : State
  isHc : Bool
  inited : Bool

/-- A call of the driver. -/
inductive Call
  | init
  | read (lba : BitVec 32) (dst : List Byte)
  | write (lba : BitVec 32) (src : Sector)

namespace Sys

variable (c : SdCard)

/-- One call.  Sectors are read and written after an `sd_init` that has returned 0. -/
def step (x : Sys) : Call → Option Sys
  | .init =>
    let r := sdInit c.bus x.card
    some ⟨r.2, r.1.2, r.1.1 == 0⟩
  | .read lba dst =>
    if x.inited then some { x with card := (sdReadBlock c.bus x.isHc lba dst x.card).2 } else none
  | .write lba src =>
    if x.inited then some { x with card := (sdWriteBlock c.bus x.isHc lba src.bytes x.card).2 }
    else none

/-- No call has been made yet. -/
def start (k : Core) : Sys := ⟨⟨false, .ready [], k⟩, false, false⟩

/-- What a call should do: a write that returns 0 has changed this sector and no other, a read
that returns 0 has delivered it, and a sector beyond the card is refused and changes nothing. -/
def Right (x : Sys) : Call → Prop
  | .init => (sdInit c.bus x.card).2.core.store = x.card.core.store
  | .read lba dst =>
    let r := sdReadBlock c.bus x.isHc lba dst x.card
    r.2.core.store = x.card.core.store ∧ (c.capacity ≤ lba.toNat → r.1.1 ≠ 0) ∧
      (r.1.1 = 0 → r.1.2 = (x.card.core.store lba).bytes ++ dst.drop 512)
  | .write lba src =>
    let r := sdWriteBlock c.bus x.isHc lba src.bytes x.card
    (c.capacity ≤ lba.toNat → r.1 ≠ 0 ∧ r.2.core.store = x.card.core.store) ∧
      (r.1 = 0 → r.2.core.store = x.card.core.store.write [(lba, src)])

/-- A block-addressed card answers the `CMD58` of this initialisation; a card that is asked for a
sector is not busy with a block that the driver has given up on, and the sector has an address. -/
def meets (x : Sys) : Call → Bool
  | .init => !c.hc || !(c.plan (x.card.core.resets + 1) 58 0).refuse
  | .read lba _ | .write lba _ => !x.card.phase.isBusy && c.reaches lba

/-- The card is released, ready or busy with a block, and after an `sd_init` that has returned 0
the driver has the right addressing. -/
structure Inv (x : Sys) : Prop where
  rests : ∃ n k, x.card = ⟨false, .wait n, k⟩
  isHc : x.inited = true → x.isHc = c.hc
  blockLen : x.inited = true → c.hc = false → x.card.core.blockLen = 512

variable {c} {x x' : Sys} {call : Call}

/-- An initialisation is right and keeps the invariant: a card that is busy takes no command. -/
lemma init_inv {n : ℕ} {k : Core} {isHc inited : Bool}
    (hm : (!c.hc || !(c.plan (k.resets + 1) 58 0).refuse) = true)
    (hs : (⟨⟨false, .wait n, k⟩, isHc, inited⟩ : Sys).step c .init = some x') :
    Right c ⟨⟨false, .wait n, k⟩, isHc, inited⟩ .init ∧ Inv c x' := by
  cases hs
  by_cases hn : n < 18
  · obtain ⟨k', hk', hstore, hok⟩ := SdCard.sdInit_spec c k
    have hcond : c.hc = true → (c.plan (k.resets + 1) 58 0).refuse = false := by
      intro hc
      simpa [hc] using hm
    rw [Right, SdCard.sdInit_soon c k hn]
    refine ⟨?_, ⟨0, k', hk'⟩, fun hin => (hok hcond (beq_iff_eq.1 hin)).1, fun hin hc => ?_⟩
    · rw [hk']
      exact hstore
    · simp only [hk']
      exact (hok hcond (beq_iff_eq.1 hin)).2 hc
  · obtain ⟨m, rfl⟩ := Nat.exists_eq_add_of_le' (not_lt.1 hn)
    obtain ⟨m', hm'⟩ := SdCard.sdInit_busy c k m
    have hfail : ¬ ((-1 : ℤ) == 0) = true := by decide
    rw [Right, hm']
    exact ⟨rfl, ⟨m', k, rfl⟩, fun hin => absurd hin hfail, fun hin => absurd hin hfail⟩

/-- A read with the right addressing is right. -/
lemma read_inv {k : Core} {lba : BitVec 32} {dst : List Byte}
    (hlen : c.hc = false → k.blockLen = 512) (hm : c.reaches lba = true) :
    let x : Sys := ⟨⟨false, .ready [], k⟩, c.hc, true⟩
    Right c x (.read lba dst) ∧
      Inv c { x with card := (sdReadBlock c.bus c.hc lba dst x.card).2 } := by
  obtain ⟨k', hk', hstore, hblk, hread⟩ := SdCard.sdReadBlock_spec c k c.hc lba dst
  have hloc := SdCard.locate_sdAddr hlen hm
  refine ⟨?_, ⟨0, k', hk'⟩, fun _ => rfl, fun _ hc => ?_⟩
  · simp only [Right, hk', hstore, true_and]
    constructor
    · intro hcap hzero
      obtain ⟨l, hl, -⟩ := hread hzero
      rw [hloc, if_neg (by omega)] at hl
      cases hl
    · intro hzero
      obtain ⟨l, hl, hdata⟩ := hread hzero
      rw [hloc] at hl
      split_ifs at hl
      cases hl
      exact hdata
  · simp only [hk', hblk]
    exact hlen hc

/-- A write with the right addressing is right. -/
lemma write_inv {k : Core} {lba : BitVec 32} {src : Sector}
    (hlen : c.hc = false → k.blockLen = 512) (hm : c.reaches lba = true) :
    let x : Sys := ⟨⟨false, .ready [], k⟩, c.hc, true⟩
    Right c x (.write lba src) ∧
      Inv c { x with card := (sdWriteBlock c.bus c.hc lba src.bytes x.card).2 } := by
  obtain ⟨n, k', hk', hblk, hwrite, hnone, -⟩ := SdCard.sdWriteBlock_spec c k c.hc lba src
  have hloc := SdCard.locate_sdAddr hlen hm
  refine ⟨?_, ⟨n, k', hk'⟩, fun _ => rfl, fun _ hc => ?_⟩
  · simp only [Right, hk']
    constructor
    · intro hcap
      refine hnone ?_
      rw [hloc, if_neg (by omega)]
    · intro hzero
      obtain ⟨l, hl, hstore⟩ := hwrite hzero
      rw [hloc] at hl
      split_ifs at hl
      cases hl
      exact hstore
  · simp only [hk', hblk]
    exact hlen hc

/-- A card that is not busy is ready. -/
lemma Inv.ready (h : Inv c x) (hm : (!x.card.phase.isBusy) = true) :
    ∃ k, x.card = ⟨false, .ready [], k⟩ := by
  obtain ⟨n, k, hk⟩ := h.rests
  cases n with
  | zero => exact ⟨k, hk⟩
  | succ n =>
    rw [hk] at hm
    cases hm

/-- A call is right and keeps the invariant. -/
lemma Inv.step (h : Inv c x) (hm : meets c x call = true) (hs : x.step c call = some x') :
    Right c x call ∧ Inv c x' := by
  cases call with
  | init =>
    obtain ⟨n, k, hk⟩ := h.rests
    obtain ⟨card, isHc, inited⟩ := x
    obtain rfl : card = ⟨false, .wait n, k⟩ := hk
    exact init_inv hm hs
  | read lba dst =>
    obtain ⟨hready, hm⟩ := Bool.and_eq_true_iff.1 hm
    obtain ⟨k, hk⟩ := h.ready hready
    obtain ⟨-, hhc, hlen⟩ := h
    obtain ⟨card, isHc, inited⟩ := x
    obtain rfl : card = ⟨false, .ready [], k⟩ := hk
    simp only [step] at hs
    split_ifs at hs with hin
    cases hs
    obtain rfl : inited = true := hin
    obtain rfl : isHc = c.hc := hhc rfl
    exact read_inv (hlen rfl) hm
  | write lba src =>
    obtain ⟨hready, hm⟩ := Bool.and_eq_true_iff.1 hm
    obtain ⟨k, hk⟩ := h.ready hready
    obtain ⟨-, hhc, hlen⟩ := h
    obtain ⟨card, isHc, inited⟩ := x
    obtain rfl : card = ⟨false, .ready [], k⟩ := hk
    simp only [step] at hs
    split_ifs at hs with hin
    cases hs
    obtain rfl : inited = true := hin
    obtain rfl : isHc = c.hc := hhc rfl
    exact write_inv (hlen rfl) hm

lemma inv_reachable {k : Core} (h : Reachable (restrict (step c) (meets c)) (start k) x) :
    Inv c x := by
  have hno : ¬ (start k).inited = true := Bool.false_ne_true
  refine h.inv ⟨⟨0, k, rfl⟩, fun h => absurd h hno, fun h => absurd h hno⟩ fun x call x' hI hs => ?_
  obtain ⟨hm, hs⟩ := restrict_eq_some.1 hs
  exact (hI.step hm hs).2

/-- **The right sector is touched**, in every run in which a block-addressed card answers `CMD58`,
every LBA has an address, and no read or write finds the card busy. -/
theorem touches_right (c : SdCard) (k : Core) {x x' : Sys} {call : Call}
    (h : Reachable (restrict (step c) (meets c)) (start k) x)
    (hs : restrict (step c) (meets c) x call = some x') : Right c x call := by
  obtain ⟨hm, hs⟩ := restrict_eq_some.1 hs
  exact ((inv_reachable h).step hm hs).1

end Sys

/-! ### Two cards -/

/-- The driver after its first `sd_init`. -/
def Sys.afterInit (c : SdCard) : Sys :=
  let r := sdInit c.bus ⟨false, .ready [], blank⟩
  ⟨r.2, r.1.2, r.1.1 == 0⟩

lemma step_afterInit (c : SdCard) :
    (Sys.start blank).step c .init = some (.afterInit c) := rfl

lemma afterInit_card (c : SdCard) : ∃ k, (Sys.afterInit c).card = ⟨false, .ready [], k⟩ := by
  obtain ⟨k, hk, -⟩ := SdCard.sdInit_spec c blank
  exact ⟨k, hk⟩

lemma step_write {c : SdCard} {x : Sys} (h : x.inited = true) (lba : BitVec 32) (src : Sector) :
    x.step c (.write lba src) =
      some { x with card := (sdWriteBlock c.bus x.isHc lba src.bytes x.card).2 } :=
  if_pos h

/-- A block-addressed card that obeys. -/
theorem touches_right_plain :
    Sys.Right (plainCard true []) (.afterInit (plainCard true [])) (.write 1 fun _ => 7) := by
  have hin : (Sys.afterInit (plainCard true [])).inited = true := by decide +kernel
  refine Sys.touches_right (plainCard true []) blank
    (.tail .refl (restrict_eq_some.2 ⟨rfl, step_afterInit _⟩))
    (restrict_eq_some.2 ⟨?_, step_write hin _ _⟩)
  decide +kernel

/-- A block-addressed card that answers `CMD58` with an error: a write to LBA 1 returns 0 and
changes sector 512. -/
theorem wrong_sector :
    ∃ x, Reachable (Sys.step (plainCard true [58])) (.start blank) x ∧ x.inited = true ∧
      (sdWriteBlock (plainCard true [58]).bus x.isHc 1 (Sd.Sector.bytes fun _ => 7) x.card).1 = 0 ∧
      ¬ Sys.Right (plainCard true [58]) x (.write 1 fun _ => 7) := by
  have hin : (Sys.afterInit (plainCard true [58])).inited = true ∧
      (Sys.afterInit (plainCard true [58])).isHc = false := by decide +kernel
  have hcmd : ((plainCard true [58]).command 24 512
      (Sys.afterInit (plainCard true [58])).card.core).1 = 0x00 := by decide +kernel
  have hold : (Sys.afterInit (plainCard true [58])).card.core.store = fun _ _ => 0 := by
    obtain ⟨k, hk, hstore, -⟩ := SdCard.sdInit_spec (plainCard true [58]) blank
    rw [Sys.afterInit, hk]
    exact hstore
  refine ⟨.afterInit (plainCard true [58]), .tail .refl (step_afterInit _), hin.1, ?_⟩
  obtain ⟨k, hk⟩ := afterInit_card (plainCard true [58])
  rw [hk] at hcmd hold
  simp only [Sys.Right, hin.2, hk]
  have hans : (plainCard true [58]).answer 24 k =
      (plainCard true [58]).plan k.resets 24 (k.counts 24) := if_neg (by decide)
  obtain ⟨n, k', hk', -, hwrite, -, hacc⟩ := SdCard.sdWriteBlock_spec (plainCard true [58]) k
    false 1 fun _ => 7
  have hresp : ((plainCard true [58]).answer 24 k).resp.byte &&& 0x1F = 0x05 := by
    rw [hans]
    exact show (0x05 : Byte) &&& 0x1F = 0x05 by decide
  have hzero := hacc hcmd hresp (by rw [hans]; exact Nat.zero_lt_succ _)
  refine ⟨hzero, fun hright => ?_⟩
  obtain ⟨l, hl, hstore⟩ := hwrite hzero
  obtain rfl : l = 512 := Option.some.inj (hl.symm.trans rfl)
  have hwrong := hright.2 hzero
  rw [hk'] at hwrong
  -- sector 1 is still blank
  have hget := congrFun (congrFun (hstore.symm.trans hwrong) 1) 0
  rw [hold] at hget
  exact absurd hget (by decide)

end Neorv32Boot.Spi
