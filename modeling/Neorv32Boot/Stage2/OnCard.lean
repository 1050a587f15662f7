import Neorv32Boot.Spi.Rest
import Neorv32Boot.Stage2.Inert

/-!
# Stage2 with a card on the bus

What the calls that stage2 makes come to, when the device on its bus is a card: the calls of the
driver, and the calls that read the line.
-/

namespace Neorv32Boot.Stage2

open Prog
open Sd (Sector)
open Spi (SdCard State)

variable {c : SdCard} {w : World State}

/-! ### The driver -/

/-- The sectors of the card. -/
def World.store (w : World State) : Sd.Card := w.card.core.store

/-- The card after a call of the driver. -/
@[simps]
def World.withCard {σ : Type} (w : World σ) (s : σ) (isHc : Bool) : World σ :=
  { w with card := s, isHc := isHc }

/-- The card is ready, and the driver addresses it rightly. -/
structure Ready (c : SdCard) (s : State) (isHc : Bool) : Prop where
  card : ∃ k, s = ⟨false, .ready [], k⟩ ∧ (c.hc = false → k.blockLen = 512)
  isHc : isHc = c.hc

lemma Ready.rests {s : State} {isHc : Bool} (h : Ready c s isHc) : s.Rests := by
  obtain ⟨k, hk, -⟩ := h.card
  exact ⟨0, k, hk⟩

section Driver

variable {Q : ℤ → World State → Prop} {E : Stop → World State → Prop}

/-- `sd_init` -/
lemma wp_sdInit (htells : c.TellsHc) (h : w.card.Rests)
    (hQ : ∀ rc s isHc, s.Rests → s.core.store = w.store → (rc = 0 → Ready c s isHc) →
      Q rc (w.withCard s isHc)) :
    wp (sdInit c.bus) Q E w := by
  obtain ⟨hrests, hstore, hok⟩ := SdCard.sdInit_rest htells h
  refine hQ _ _ _ hrests hstore fun h0 => ?_
  obtain ⟨hhc, hready⟩ := hok h0
  exact ⟨hready, hhc⟩

/-- `sd_read_block` of a card that is ready. -/
lemma wp_sdReadBlock {Q : ℤ × List Byte → World State → Prop} (lba : BitVec 32)
    (h : Ready c w.card w.isHc)
    (hQ : ∀ rc buf s, Ready c s w.isHc → s.core.store = w.store →
      (rc = 0 → buf = (w.store (c.home lba)).bytes) → Q (rc, buf) (w.withCard s w.isHc)) :
    wp (sdReadBlock c.bus lba) Q E w := by
  obtain ⟨⟨k, hk, hlen⟩, hhc⟩ := h
  obtain ⟨k', hk', hstore, hblk, hread⟩ := SdCard.sdReadBlock_spec c k c.hc lba []
  have hr : Spi.sdReadBlock c.bus w.isHc lba [] w.card =
      Spi.sdReadBlock c.bus c.hc lba [] ⟨false, .ready [], k⟩ := by rw [hhc, hk]
  have hw : w.store = k.store := by rw [World.store, hk]
  simp only [sdReadBlock, wp_bind, wp_get, wp_set, wp_pure, hr]
  refine hQ _ _ _ ⟨⟨k', hk', fun hc => hblk.trans (hlen hc)⟩, hhc⟩ ?_ ?_
  · rw [hk', hw]
    exact hstore
  · intro h0
    obtain ⟨l, hl, hbuf⟩ := hread h0
    rw [hbuf, SdCard.home_of_locate hl, List.drop_nil, List.append_nil, hw]

/-- `sd_write_block` to a card that is ready. -/
lemma wp_sdWriteBlock (lba : BitVec 32) {src : List Byte} (hsrc : src.length = Sd.sector)
    (h : Ready c w.card w.isHc)
    (hQ : ∀ rc s, s.Rests → (s.core.store = w.store ∨
        s.core.store = w.store.write [(c.home lba, Sd.sectorAt src 0)]) →
      (rc = 0 → Ready c s w.isHc ∧
        s.core.store = w.store.write [(c.home lba, Sd.sectorAt src 0)]) →
      Q rc (w.withCard s w.isHc)) :
    wp (sdWriteBlock c.bus lba src) Q E w := by
  obtain ⟨⟨k, hk, hlen⟩, hhc⟩ := h
  obtain ⟨n, k', hk', hblk, hstore, hok⟩ := SdCard.sdWriteBlock_rest c k lba (Sd.sectorAt src 0)
  rw [Sd.bytes_sectorAt_zero hsrc] at hk' hok
  have hr : Spi.sdWriteBlock c.bus w.isHc lba src w.card =
      Spi.sdWriteBlock c.bus c.hc lba src ⟨false, .ready [], k⟩ := by rw [hhc, hk]
  have hw : w.store = k.store := by rw [World.store, hk]
  simp only [sdWriteBlock, wp_bind, wp_get, wp_set, wp_pure, hr]
  refine hQ _ _ ⟨n, k', hk'⟩ ?_ ?_
  · rw [hk', hw]
    exact hstore
  · intro h0
    obtain ⟨rfl, hwritten⟩ := hok h0
    refine ⟨⟨⟨k', hk', fun hc => hblk.trans (hlen hc)⟩, hhc⟩, ?_⟩
    rw [hk', hw]
    exact hwritten

end Driver

/-! ### The line -/

section Line

variable {σ α : Type} {w : World σ} {E : Stop → World σ → Prop}

@[simp] lemma wp_emit (bs : List Byte) {Q : Unit → World σ → Prop} :
    wp (emit bs) Q E = fun w => Q () { w with output := w.output ++ bs } := rfl

@[simp] lemma wp_puts (s : String) {Q : Unit → World σ → Prop} :
    wp (puts s) Q E = fun w => Q () { w with output := w.output ++ ascii s } := rfl

@[simp] lemma wp_halt {Q : α → World σ → Prop} : wp halt Q E = E .halted := rfl

/-- Bytes that are stored, or not. -/
lemma wp_storeBytes {a : BitVec 32} {bs : List Byte} {Q : Unit → World σ → Prop}
    (hin : Sd.OnXbus a bs.length → Q () { w with ram := w.ram.storeBytes a bs })
    (hout : ¬ Sd.OnXbus a bs.length → E .astray w) : wp (storeBytes a bs) Q E w :=
  wp_ite (fun h => hin h) fun h => hout h

lemma wp_getc {Q : Option Byte → World σ → Prop} (hnil : w.input = [] → E .waiting w)
    (hcons : ∀ b rest, w.input = b :: rest → Q b { w with input := rest }) : wp getc Q E w := by
  simp only [getc, wp_bind, wp_get]
  cases h : w.input with
  | nil => exact hnil h
  | cons b rest => exact hcons b rest h

lemma wp_rawRecv {Q : Byte → World σ → Prop}
    (hnil : bytes w.input = [] → E .waiting { w with input := [] })
    (hcons : ∀ b used rest, w.input = used ++ rest → bytes used = [b] →
      Q b { w with input := rest }) : wp rawRecv Q E w := by
  simp only [rawRecv, wp_bind, wp_get]
  cases h : nextByte w.input with
  | none => exact hnil (nextByte_eq_none.1 h)
  | some r =>
    have hr : nextByte w.input = some (r.1, r.2) := h
    obtain ⟨silence, hs, hempty⟩ := nextByte_eq_some hr
    refine hcons r.1 (silence ++ [some r.1]) r.2 (by rw [hs, List.append_assoc]; rfl) ?_
    rw [bytes_append, hempty]
    rfl

/-- Bytes that are read, without a timer. -/
lemma wp_times_rawRecv {Q : List Byte → World σ → Prop} (n : ℕ)
    (hnil : (bytes w.input).length < n → E .waiting { w with input := [] })
    (hcons : ∀ bs used rest, w.input = used ++ rest → bytes used = bs → bs.length = n →
      Q bs { w with input := rest }) : wp (times rawRecv n) Q E w := by
  induction n generalizing w Q with
  | zero => exact hcons [] [] w.input rfl rfl rfl
  | succ n ih =>
    simp only [times, wp_bind, wp_pure]
    refine wp_rawRecv ?_ ?_
    · intro hempty
      exact hnil (by rw [hempty]; exact n.succ_pos)
    · intro b used rest hw hb
      refine ih ?_ ?_
      · intro hlt
        refine hnil ?_
        rw [hw, bytes_append, hb, List.length_append, List.length_singleton]
        have : (bytes rest).length < n := hlt
        omega
      · intro bs used' rest' hw' hbs hlen
        refine hcons (b :: bs) (used ++ used') rest' ?_ ?_ (by rw [List.length_cons, hlen])
        · rw [hw, show rest = used' ++ rest' from hw', List.append_assoc]
        · rw [bytes_append, hb, hbs]
          rfl

lemma wp_recvU32 {Q : BitVec 32 → World σ → Prop}
    (hnil : (bytes w.input).length < 4 → E .waiting { w with input := [] })
    (hcons : ∀ bs used rest, w.input = used ++ rest → bytes used = bs → bs.length = 4 →
      Q (Sd.recvU32 bs) { w with input := rest }) : wp recvU32 Q E w := by
  simp only [recvU32, wp_bind, wp_pure]
  exact wp_times_rawRecv 4 hnil hcons

end Line

end Neorv32Boot.Stage2
