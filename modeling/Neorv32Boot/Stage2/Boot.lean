import Neorv32Boot.Stage2.Session

/-!
# Booting from the card

The program of `mode_sd_boot` against what it is meant to do with the sectors of the card.  What the
driver gives for a card is stated once: a call that returns 0 has done what it should.  For a card
of which nothing is known it may also fail, and then the boot halts; for a card without faults it
does not fail.
-/

namespace Neorv32Boot.Stage2

open Prog
open Sd (Boot Card CopyError OnXbus Ram Sector SdBootHdr Slot dtbLoadAddr kernelLoadAddr)
open Spi (SdCard State)

variable {σ : Type}

/-! ### What the driver gives -/

/-- The driver reads these sectors of a device.  It is called about the sectors of `within`, and it
fails only with a `fault`. -/
structure Reads (bus : Bus Byte σ) (card : Card) (within : BitVec 32 → Prop) (fault : Prop)
    (rest up : σ → Bool → Prop) : Prop where
  init : ∀ s isHc, rest s isHc → let r := Spi.sdInit bus s
    (r.1.1 = 0 → up r.2 r.1.2) ∧ (r.1.1 ≠ 0 → fault)
  read : ∀ s isHc lba, up s isHc → within lba → let r := Spi.sdReadBlock bus isHc lba [] s
    up r.2 isHc ∧ (r.1.1 = 0 → r.1.2 = (card lba).bytes) ∧ (r.1.1 ≠ 0 → fault)

/-- A card of which nothing is known but that its `CMD58` tells how it is addressed. -/
lemma reads_any {c : SdCard} (htells : c.TellsHc) (store : Card) :
    Reads c.bus (fun l => store (c.home l)) (fun _ => True) True
      (fun s _ => s.Rests ∧ s.core.store = store)
      (fun s isHc => Ready c s isHc ∧ s.core.store = store) where
  init := by
    rintro s isHc ⟨hs, rfl⟩
    obtain ⟨-, hstore, hok⟩ := SdCard.sdInit_rest htells hs
    refine ⟨fun h0 => ?_, fun _ => trivial⟩
    obtain ⟨hhc, hready⟩ := hok h0
    exact ⟨⟨hready, hhc⟩, hstore⟩
  read := by
    rintro s isHc lba ⟨⟨⟨k, rfl, hlen⟩, rfl⟩, rfl⟩ -
    obtain ⟨k', hk', hstore, hblk, hread⟩ := SdCard.sdReadBlock_spec c k c.hc lba []
    refine ⟨⟨⟨⟨k', hk', fun hc => hblk.trans (hlen hc)⟩, rfl⟩, ?_⟩, fun h0 => ?_, fun _ => trivial⟩
    · rw [hk']
      exact hstore
    · obtain ⟨l, hl, hbuf⟩ := hread h0
      rw [hbuf, SdCard.home_of_locate hl, List.drop_nil, List.append_nil]

/-- A card without faults. -/
lemma reads_sound {c : SdCard} (hs : c.Sound) (store : Card) :
    Reads c.bus store (fun l => l.toNat < c.capacity) False
      (fun s isHc => Rested s isHc ∧ s.core.store = store)
      (fun s isHc => UpFor c s isHc ∧ s.core.store = store) where
  init := by
    rintro s isHc ⟨⟨k, rfl⟩, rfl⟩
    obtain ⟨k', hk', hstore, hup⟩ := hs.sdInit k
    simp only [hk']
    exact ⟨fun _ => ⟨⟨⟨k', rfl, hup⟩, rfl⟩, hstore⟩, fun h => h rfl⟩
  read := by
    rintro s isHc lba ⟨⟨⟨k, rfl, hup⟩, rfl⟩, rfl⟩ hlba
    obtain ⟨k', hk', hstore, hup'⟩ := hs.sdReadBlock hup hlba
    simp only [hk']
    exact ⟨⟨⟨⟨k', rfl, hup'⟩, rfl⟩, hstore⟩, fun _ => trivial, fun h => h rfl⟩

section Reads

variable {bus : Bus Byte σ} {card : Card} {within : BitVec 32 → Prop} {fault : Prop}
  {rest up : σ → Bool → Prop} {w : World σ} {E : Stop → World σ → Prop}

lemma Reads.sdInit (h : Reads bus card within fault rest up) (hw : rest w.card w.isHc) :
    wp (sdInit bus) (fun rc w' => w'.ram = w.ram ∧ (rc = 0 → up w'.card w'.isHc) ∧
      (rc ≠ 0 → fault)) E w :=
  ⟨rfl, h.init _ _ hw⟩

lemma Reads.sdReadBlock (h : Reads bus card within fault rest up) (hw : up w.card w.isHc)
    {lba : BitVec 32} (hlba : within lba) :
    wp (sdReadBlock bus lba) (fun r w' => w'.ram = w.ram ∧ up w'.card w'.isHc ∧
      (r.1 = 0 → r.2 = (card lba).bytes) ∧ (r.1 ≠ 0 → fault)) E w :=
  ⟨rfl, h.read _ _ _ hw hlba⟩

/-- `sd_read_many` from sector `i` on, with `n` to go. -/
def copyFrom (card : Card) (lba dst : BitVec 32) (i n : ℕ) (m : Ram) : Except CopyError Ram :=
  (List.range' i n).foldlM (fun m i => do
    let dst := dst + BitVec.ofNat 32 i * 512
    let bs ← Sd.sdReadTo (fun l => some (card l)) (lba + BitVec.ofNat 32 i) dst
    pure (m.storeBytes dst bs)) m

lemma sdReadMany_eq_copyFrom (card : Card) (lba dst : BitVec 32) (n : ℕ) (m : Ram) :
    Sd.sdReadMany (fun l => some (card l)) lba n dst m = copyFrom card lba dst 0 n m := by
  rw [Sd.sdReadMany, List.range_eq_range']
  rfl

/-- One sector, and the others. -/
lemma copyFrom_succ (card : Card) (lba dst : BitVec 32) (i n : ℕ) (m : Ram) :
    copyFrom card lba dst i (n + 1) m =
      if OnXbus (dst + BitVec.ofNat 32 i * 512) Sd.sector then
        copyFrom card lba dst (i + 1) n
          (m.storeBytes (dst + BitVec.ofNat 32 i * 512) (card (lba + BitVec.ofNat 32 i)).bytes)
      else .error .astray := by
  rw [copyFrom, List.range'_succ, List.foldlM_cons,
    ← Sd.length_bytes (card (lba + BitVec.ofNat 32 i))]
  dsimp only
  rw [Sd.sdReadTo]
  dsimp only
  split_ifs with h
  · rfl
  · rfl

/-- `sd_read_many` from sector `i` on. -/
lemma Reads.sdReadMany (h : Reads bus card within fault rest up) (hw : up w.card w.isHc)
    {lba : BitVec 32} (dst : BitVec 32) (i n : ℕ)
    (hin : ∀ j, i ≤ j → j < i + n → within (lba + BitVec.ofNat 32 j)) {m : Ram} (hm : w.ram = m)
    (hE : copyFrom card lba dst i n m = .error .astray → ∀ w', E .astray w') :
    wp (sdReadMany bus lba dst i n) (fun rc w' => up w'.card w'.isHc ∧
      (rc = 0 → copyFrom card lba dst i n m = .ok w'.ram) ∧ (rc ≠ 0 → fault)) E w := by
  induction n generalizing i w m with
  | zero =>
    subst hm
    exact ⟨hw, fun _ => rfl, fun h => absurd rfl h⟩
  | succ n ih =>
    subst hm
    refine wp_seq (h.sdReadBlock hw (hin i le_rfl (by omega))) ?_
    rintro ⟨rc, buf⟩ w' ⟨hram, hw', hok, hfail⟩
    dsimp only
    by_cases h0 : rc = 0
    · have hbuf : buf = (card (lba + BitVec.ofNat 32 i)).bytes := hok h0
      have hlen : buf.length = Sd.sector := by rw [hbuf, Sd.length_bytes]
      rw [copyFrom_succ, ← hbuf, ← hlen, ← hram] at hE ⊢
      rw [if_neg (not_not.2 h0), wp_bind]
      refine wp_storeBytes (fun hxbus => ?_) fun hout => hE (if_neg hout) _
      rw [if_pos hxbus] at hE ⊢
      exact ih (w := { w' with ram := w'.ram.storeBytes (dst + BitVec.ofNat 32 i * 512) buf }) hw'
        (i + 1) (fun j hj hj' => hin j (by omega) (by omega)) rfl hE
    · rw [if_pos h0]
      exact ⟨hw', fun h => absurd h h0, hfail⟩

/-! ### `mode_sd_boot` -/

/-- The program ends as it is meant to, or it halts on a fault. -/
structure Ends (fault : Prop) (r : Boot) (e : Stop) (m : Ram) : Prop where
  jump : ∀ m', r = .jump m' →
    (e = .jumped kernelLoadAddr [0, dtbLoadAddr] ∧ m = m') ∨ (e = .halted ∧ fault)
  halt : ∀ text, r = .halt text → e = .halted
  astray : r = .astray → e = .astray ∨ (e = .halted ∧ fault)

lemma ends_of_fault {r : Boot} {m : Ram} (h : fault) : Ends fault r .halted m :=
  ⟨fun _ _ => Or.inr ⟨rfl, h⟩, fun _ _ => rfl, fun _ => Or.inr ⟨rfl, h⟩⟩

lemma ends_halt (text : String) (m : Ram) : Ends fault (.halt text) .halted m where
  jump := by rintro _ ⟨⟩
  halt _ _ := rfl
  astray := nofun

lemma ends_jump {m m' : Ram} (h : m = m') :
    Ends fault (.jump m') (.jumped kernelLoadAddr [0, dtbLoadAddr]) m where
  jump := by
    rintro _ ⟨⟩
    exact Or.inl ⟨rfl, h⟩
  halt := by rintro _ ⟨⟩
  astray := nofun

lemma ends_astray (m : Ram) : Ends fault .astray .astray m where
  jump := by rintro _ ⟨⟩
  halt := by rintro _ ⟨⟩
  astray _ := Or.inl rfl

/-- The driver is called about these sections. -/
def Inside (h : SdBootHdr) (within : BitVec 32 → Prop) : Prop :=
  ∀ s : Slot, ∀ i < (h.blks s).toNat, within (h.lba s + BitVec.ofNat 32 i)

/-- The program prints something and halts. -/
lemma wp_halts {α : Type} {Q : α → World σ → Prop} (s : String) (h : E .halted (w.say (ascii s))) :
    wp (puts s >>= fun _ => halt) Q E w := h

lemma wp_puts_then {α : Type} {f : Unit → Loader σ α} {Q : α → World σ → Prop} {s : String}
    (h : wp (f ()) Q E (w.say (ascii s))) : wp (puts s >>= f) Q E w := h

lemma wp_emit_then {α : Type} {f : Unit → Loader σ α} {Q : α → World σ → Prop} {bs : List Byte}
    (h : wp (f ()) Q E (w.say bs)) : wp (emit bs >>= f) Q E w := h

/-- `dump_words` only prints. -/
lemma wp_dumpWords (addr : BitVec 32) (n : ℕ) :
    wp (dumpWords addr n) (fun _ w' => ∃ out, w' = w.say out) E w := by
  unfold dumpWords
  refine wp_seq (R := fun _ (w' : World σ) => ∃ out, w' = w.say out) ?_ ?_
  · refine wp_upFrom (fun _ (w' : World σ) => ∃ out, w' = w.say out) 0 n ⟨[], ?_⟩ ?_
    · rw [World.say, List.append_nil]
    · rintro i _ - - ⟨out, rfl⟩
      refine wp_seq (R := fun _ (w' : World σ) => ∃ out, w' = w.say out) ?_ ?_
      · refine wp_ite (fun _ => ?_) fun _ => ⟨out, rfl⟩
        exact ⟨_, by simp only [World.say, List.append_assoc]; rfl⟩
      · rintro _ _ ⟨out', rfl⟩
        exact ⟨_, by simp only [World.say, List.append_assoc]; rfl⟩
  · rintro _ _ ⟨out, rfl⟩
    exact ⟨_, by simp only [World.say, List.append_assoc]; rfl⟩

/-- The patch, and what it says. -/
lemma wp_patchDtb (dtb : BitVec 32) (n : ℕ) (size : BitVec 32) :
    wp (patchDtb dtb n size) (fun k w' => k = (Sd.patchDtbInitrdEnd w.ram dtb n size).2 ∧
      w'.ram = (Sd.patchDtbInitrdEnd w.ram dtb n size).1 ∧ w'.input = w.input) E w :=
  ⟨rfl, rfl, rfl⟩

/-- `mode_sd_boot` behind the check of the magic. -/
lemma Reads.bootSections (h : Reads bus card within fault rest up) (hw : up w.card w.isHc)
    {hdr : SdBootHdr} (hin : Inside hdr within) :
    wp (bootSections bus hdr) (fun _ _ => False)
      (fun e w' => Ends fault (hdr.boot (fun l => some (card l)) w.ram) e w'.ram) w := by
  obtain ⟨r, hr⟩ : ∃ r, r = hdr.boot (fun l => some (card l)) w.ram := ⟨_, rfl⟩
  rw [← hr, Stage2.bootSections]
  simp only [SdBootHdr.boot, sdReadMany_eq_copyFrom] at hr
  refine wp_puts_then (wp_emit_then (wp_puts_then (wp_emit_then (wp_puts_then (wp_emit_then
    (wp_puts_then (wp_puts_then ?_)))))))
  -- each copy stores what it is meant to, fails, or goes astray where it is meant to
  change wp (Stage2.sdReadMany bus (hdr.lba .image) Slot.image.loadAddr 0
    (hdr.blks .image).toNat >>= _) _ _ _
  refine wp_seq (h.sdReadMany ?_ _ 0 _ (fun j _ hj => hin .image j (by rwa [Nat.zero_add] at hj))
    (show _ = w.ram from rfl) fun hastray w' => ?_) ?_
  · exact hw
  · rw [hr, hastray]
    exact ends_astray _
  rintro rc w₁ ⟨hw₁, hread, hfail⟩
  refine wp_ite (fun h0 => wp_halts _ (ends_of_fault (hfail h0))) fun h0 => ?_
  rw [hread (not_not.1 h0)] at hr
  dsimp only at hr
  refine wp_puts_then ?_
  change wp (Stage2.sdReadMany bus (hdr.lba .dtb) Slot.dtb.loadAddr 0 (hdr.blks .dtb).toNat >>=
    _) _ _ _
  refine wp_seq (h.sdReadMany ?_ _ 0 _ (fun j _ hj => hin .dtb j (by rwa [Nat.zero_add] at hj))
    (show _ = w₁.ram from rfl) fun hastray w' => ?_) ?_
  · exact hw₁
  · rw [hr, hastray]
    exact ends_astray _
  rintro rc w₂ ⟨hw₂, hread, hfail⟩
  refine wp_ite (fun h0 => wp_halts _ (ends_of_fault (hfail h0))) fun h0 => ?_
  rw [hread (not_not.1 h0)] at hr
  dsimp only at hr
  refine wp_puts_then ?_
  change wp (Stage2.sdReadMany bus (hdr.lba .initrd) Slot.initrd.loadAddr 0
    (hdr.blks .initrd).toNat >>= _) _ _ _
  refine wp_seq (h.sdReadMany ?_ _ 0 _ (fun j _ hj => hin .initrd j (by rwa [Nat.zero_add] at hj))
    (show _ = w₂.ram from rfl) fun hastray w' => ?_) ?_
  · exact hw₂
  · rw [hr, hastray]
    exact ends_astray _
  rintro rc w₃ ⟨hw₃, hread, hfail⟩
  refine wp_ite (fun h0 => wp_halts _ (ends_of_fault (hfail h0))) fun h0 => ?_
  rw [hread (not_not.1 h0)] at hr
  dsimp only at hr
  change wp (patchDtb _ (hdr.blks .dtb * 512).toNat _ >>= _) _ _ _
  refine wp_seq (wp_patchDtb _ _ _) ?_
  rintro k w₄ ⟨hk, hram₄, -⟩
  refine wp_ite (fun hne => ?_) fun heq => ?_
  · rw [hk] at hne
    rw [hr, if_pos hne]
    exact wp_puts_then (wp_emit_then (wp_halts _ (ends_halt _ _)))
  · rw [hk] at heq
    rw [hr, if_neg heq]
    refine wp_puts_then (wp_seq (wp_dumpWords _ 4) ?_)
    rintro _ _ ⟨out, rfl⟩
    exact wp_puts_then (ends_jump hram₄)

/-- `mode_sd_boot` does what it is meant to. -/
lemma Reads.modeSdBoot (h : Reads bus card within fault rest up) (hw : rest w.card w.isHc)
    (hzero : within 0)
    (hin : Inside (.ofSector (card 0)) within) :
    wp (modeSdBoot bus) (fun _ _ => False) (fun e w' =>
      Ends fault (Sd.modeSdBoot true (fun l => some (card l)) w.ram) e w'.ram) w := by
  obtain ⟨r, hr⟩ : ∃ r, r = Sd.modeSdBoot true (fun l => some (card l)) w.ram := ⟨_, rfl⟩
  rw [← hr, Stage2.modeSdBoot, wp_bind, wp_puts]
  refine wp_seq (h.sdInit hw) ?_
  rintro rc w₁ ⟨hram₁, hup, hfail⟩
  refine wp_ite (fun h0 => wp_halts _ (ends_of_fault (hfail h0))) fun h0 => ?_
  refine wp_seq (h.sdReadBlock (hup (not_not.1 h0)) hzero) ?_
  rintro ⟨rc, buf⟩ w₂ ⟨hram₂, hup, hok, hfail⟩
  refine wp_ite (fun h0 => wp_halts _ (ends_of_fault (hfail h0))) fun h0 => ?_
  have hbuf : buf = (card 0).bytes := hok (not_not.1 h0)
  have hram : w₂.ram = w.ram := hram₂.trans hram₁
  refine wp_ite (fun hmagic => wp_halts _ ?_) fun hmagic => ?_
  · rw [hbuf] at hmagic
    rw [hr, Sd.modeSdBoot]
    simp only [Bool.not_true, Bool.false_eq_true, if_false, if_pos hmagic]
    exact ends_halt _ _
  · rw [hbuf] at hmagic ⊢
    have hboot : Sd.modeSdBoot true (fun l => some (card l)) w.ram =
        (SdBootHdr.ofSector (card 0)).boot (fun l => some (card l)) w.ram :=
      Sd.modeSdBoot_eq_boot rfl (not_not.1 hmagic) _
    rw [hr, hboot, ← hram,
      ← List.append_nil (card 0).bytes, SdCard.sectorAt_bytes]
    exact h.bootSections hup hin

/-- A run of `mode_sd_boot`. -/
lemma Reads.exec_modeSdBoot (h : Reads bus card within fault rest up) (hw : rest w.card w.isHc)
    (hzero : within 0) (hin : Inside (.ofSector (card 0)) within) :
    ∃ e w', exec (Stage2.modeSdBoot bus) w = (.error e, w') ∧
      Ends fault (Sd.modeSdBoot true (fun l => some (card l)) w.ram) e w'.ram := by
  rcases wp_cases (h.modeSdBoot hw hzero hin) with ⟨_, _, -, hfalse⟩ | hstop
  · exact hfalse.elim
  · exact hstop

end Reads

end Neorv32Boot.Stage2
