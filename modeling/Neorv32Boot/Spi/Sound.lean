import Neorv32Boot.Spi.Rest

/-!
# A card without faults

A card that obeys every command it can obey, ends its initialisation after some tries, and is never
late: the driver then returns 0 from every call about a sector of the card, and does what it should.
-/

namespace Neorv32Boot.Spi

open Sd (Sector)

namespace SdCard

/-- The card has no faults, and each of its sectors has an address. -/
structure Sound (c : SdCard) : Prop where
  obeys : ∀ i cmd n, (c.plan i cmd n).refuse = false
  /-- it is ready before the driver gives up -/
  starts : ∀ i, ∃ n < 2000, (c.plan i 41 n).ready = true
  sends : ∀ i n, (c.plan i 17 n).tokenDelay < 65536
  accepts : ∀ i n, (c.plan i 24 n).resp.byte &&& 0x1F = 0x05
  ends : ∀ i n, (c.plan i 24 n).busy < 65536
  addressable : c.hc = false → c.capacity ≤ 2 ^ 23

lemma Sound.tellsHc {c : SdCard} (h : c.Sound) : c.TellsHc := fun _ _ => h.obeys _ _ _

/-- The card is ready for the commands about sectors. -/
structure Up (c : SdCard) (k : Core) : Prop where
  idle : k.idle = false
  blockLen : c.hc = false → k.blockLen = 512

variable {c : SdCard} {k : Core} (hs : c.Sound)
include hs

/-- A command that the card can obey. -/
lemma Sound.command {cmd : Byte} {arg : BitVec 32} {tail : List Byte} {next : Phase} {k' : Core}
    (h : c.perform (c.answer cmd k) cmd arg (count cmd k) = some (tail, next, k')) :
    c.command cmd arg k = (if k'.idle then 0x01 else 0x00, tail, next, k') := by
  refine command_of_obey ?_
  have hno : (c.answer cmd k).refuse = false := by
    rw [answer]
    split_ifs <;> exact hs.obeys _ _ _
  rw [obey, hno]
  exact h

/-! ### Initialisation -/

/-- The loop of `ACMD41` ends when the card is ready. -/
lemma Sound.acmd41 (tries : ℕ) (hidle : k.idle = true)
    (hready : ∃ n, k.counts 41 ≤ n ∧ n < k.counts 41 + tries ∧
      (c.plan k.resets 41 n).ready = true) :
    ∃ k', Spi.acmd41 c.bus 0x40000000 tries ⟨false, .ready [], k⟩ = (0, ⟨false, .ready [], k'⟩) ∧
      k'.idle = false ∧ k'.store = k.store := by
  induction tries generalizing k with
  | zero =>
    obtain ⟨n, hle, hlt, -⟩ := hready
    omega
  | succ tries ih =>
    have hsel : c.bus.select true ⟨false, .ready [], k⟩ = ⟨true, .ready [], k⟩ := rfl
    have hend : ∀ k', c.bus.select false (c.bus.xchg 0xFF ⟨true, .ready [], k'⟩).2 =
        ⟨false, .ready [], k'⟩ := fun _ => rfl
    -- the card after `CMD55`
    obtain ⟨k₁, hk₁⟩ : ∃ k₁, k₁ = { count 55 k with app := true } := ⟨_, rfl⟩
    have hidle₁ : k₁.idle = true := by rw [hk₁]; exact hidle
    have ho₁ : c.perform (c.answer 55 k) 55 0 (count 55 k) = some ([], .ready [], k₁) := by
      rw [hk₁]
      rfl
    have h₁ := hs.command ho₁
    rw [hidle₁, if_pos rfl] at h₁
    have hans : c.answer 41 k₁ = c.plan k.resets 41 (k.counts 41) := by rw [hk₁]; rfl
    -- the card after `CMD41`
    obtain ⟨k₂, hk₂⟩ : ∃ k₂, k₂ = { count 41 k₁ with
      idle := !(c.plan k.resets 41 (k.counts 41)).ready, app := false } := ⟨_, rfl⟩
    have ho₂ : c.perform (c.answer 41 k₁) 41 0x40000000 (count 41 k₁) =
        some ([], .ready [], k₂) := by
      have happ : (count 41 k₁).app = true := by rw [hk₁]; rfl
      have hi : (count 41 k₁).idle = true := hidle₁
      have hhcs : (0x40000000 : BitVec 32).getLsbD 30 = true := by decide
      rw [perform_acmd41, if_pos happ, hi, hhcs, Bool.or_true, Bool.and_true, Bool.true_and, hk₂,
        hans]
    have h₂ := hs.command ho₂
    have hstore : k₂.store = k.store := by rw [hk₂, hk₁]; rfl
    have hsel : c.bus.select true ⟨false, .ready [], k⟩ = ⟨true, .ready [], k⟩ := rfl
    have hend : ∀ k', c.bus.select false (c.bus.xchg 0xFF ⟨true, .ready [], k'⟩).2 =
        ⟨false, .ready [], k'⟩ := fun _ => rfl
    simp only [Spi.acmd41, hsel, sdCmd_r1 c _ (Or.inl rfl), sdCmd_r1 c _ (Or.inr rfl), hend, h₁, h₂]
    cases hup : (c.plan k.resets 41 (k.counts 41)).ready with
    | true =>
      have hi : k₂.idle = false := by rw [hk₂, hup]; rfl
      rw [hi]
      exact ⟨k₂, rfl, hi, hstore⟩
    | false =>
      have hi : k₂.idle = true := by rw [hk₂, hup]; rfl
      rw [hi, if_pos rfl, if_neg (by decide), if_neg (by decide)]
      have hcount : k₂.counts 41 = k.counts 41 + 1 := by rw [hk₂, hk₁]; rfl
      have hresets : k₂.resets = k.resets := by rw [hk₂, hk₁]; rfl
      obtain ⟨n, hle, hlt, hn⟩ := hready
      have hne : n ≠ k.counts 41 := by
        rintro rfl
        exact Bool.false_ne_true (hup.symm.trans hn)
      obtain ⟨k', hk', hi', hst'⟩ := ih hi ⟨n, by omega, by omega, by rw [hresets]; exact hn⟩
      exact ⟨k', hk', hi', hst'.trans hstore⟩

/-- `CMD16` sets the block length of a byte-addressed card. -/
lemma Sound.setBlockLen (hidle : k.idle = false) :
    ∃ k', Spi.setBlockLen c.bus c.hc ⟨false, .ready [], k⟩ = (0, ⟨false, .ready [], k'⟩) ∧
      k'.store = k.store ∧ c.Up k' := by
  cases hc : c.hc with
  | true => exact ⟨k, rfl, rfl, hidle, fun h => absurd (hc.symm.trans h) Bool.noConfusion⟩
  | false =>
    obtain ⟨b16, h16, -⟩ := transact_eq c k (show (16 : Byte) < 64 by decide) (by decide) 512 0x15 0
    have hi : (count 16 k).idle = false := hidle
    have ho : c.perform (c.answer 16 k) 16 512 (count 16 k) =
        some ([], .ready [], { count 16 k with blockLen := 512, app := false }) := by
      rw [perform_blockLen]
      exact if_neg (by rw [hi]; decide)
    have h := hs.command ho
    have hcmd : (c.command 16 512 k).1 = 0x00 := by
      rw [h]
      exact if_neg (by rw [hi]; decide)
    have hok : ¬ (0x00 : Byte) ≠ 0x00 := not_not.2 rfl
    simp only [Spi.setBlockLen, Bool.false_eq_true, if_false, h16, hcmd, if_neg hok]
    refine ⟨_, rfl, (command_kept c k (by decide) 512).store, ?_, fun _ => ?_⟩
    · rw [h]
      exact hi
    · rw [h]

/-- `sd_init` from the loop of `ACMD41` on. -/
lemma Sound.startUp (hidle : k.idle = true) (hcount : k.counts 41 = 0) :
    ∃ k', Spi.startUp c.bus true ⟨false, .ready [], k⟩ = ((0, c.hc), ⟨false, .ready [], k'⟩) ∧
      k'.store = k.store ∧ c.Up k' := by
  obtain ⟨n, hn, hready⟩ := hs.starts k.resets
  obtain ⟨k₁, hk₁, hidle₁, hstore₁⟩ := hs.acmd41 2000 hidle ⟨n, by omega, by omega, hready⟩
  obtain ⟨k₂, hk₂, hstore₂, hhc, hocr⟩ := readOcr_spec c true hidle₁
  have hisHc : (readOcr c.bus true ⟨false, .ready [], k₁⟩).1 = c.hc := by
    cases hc : c.hc with
    | true => exact hocr rfl hc (hs.obeys _ _ _)
    | false =>
      rw [← Bool.not_eq_true]
      intro h
      exact Bool.false_ne_true (hc.symm.trans (hhc h))
  have hidle₂ : k₂.idle = false := by
    obtain ⟨b58, h58, -⟩ := transact_eq c k₁ (show (58 : Byte) < 64 by decide) (by decide) 0 0xFD 4
    have hk : k₂ = (c.command 58 0 k₁).2.2.2 := by
      simp only [readOcr, if_true, h58] at hk₂
      exact (congrArg State.core hk₂).symm
    rw [hk, (command_kept c k₁ (by decide) 0).idle (by decide), hidle₁]
  obtain ⟨k₃, hk₃, hstore₃, hup⟩ := hs.setBlockLen hidle₂
  have hzero : ¬ (0 : ℤ) ≠ 0 := not_not.2 rfl
  simp only [Spi.startUp, if_true, hk₁, if_neg hzero, hk₂, hisHc, hk₃]
  exact ⟨k₃, rfl, hstore₃.trans (hstore₂.trans hstore₁), hup⟩

/-- `sd_init` succeeds, and the driver has the right addressing. -/
lemma Sound.sdInit (k : Core) :
    ∃ k', Spi.sdInit c.bus ⟨false, .ready [], k⟩ = ((0, c.hc), ⟨false, .ready [], k'⟩) ∧
      k'.store = k.store ∧ c.Up k' := by
  have hsel : c.bus.select false ⟨false, .ready [], k⟩ = ⟨false, .ready [], k⟩ := rfl
  obtain ⟨b0, h0, -⟩ := transact_eq c k (show (0 : Byte) < 64 by decide) (by decide) 0 0x95 0
  -- the card after the reset
  obtain ⟨k₁, hk₁⟩ : ∃ k₁, k₁ = { count 0 k with idle := true, app := false } := ⟨_, rfl⟩
  have ho₁ : c.perform (c.answer 0 k) 0 0 (count 0 k) = some ([], .ready [], k₁) := by
    rw [hk₁]
    rfl
  have h₁ := hs.command ho₁
  have hidle₁ : k₁.idle = true := by rw [hk₁]
  rw [hidle₁, if_pos rfl] at h₁
  obtain ⟨b8, h8, htail⟩ := transact_eq c k₁ (show (8 : Byte) < 64 by decide) (by decide) 0x1AA
    0x87 4
  -- the card after `CMD8`
  obtain ⟨k₂, hk₂⟩ : ∃ k₂, k₂ = { count 8 k₁ with app := false } := ⟨_, rfl⟩
  have hidle₂ : k₂.idle = true := by rw [hk₂]; exact hidle₁
  have ho₂ : c.perform (c.answer 8 k₁) 8 0x1AA (count 8 k₁) =
      some ([0, 0, 0x01, 0xAA], .ready [], k₂) := by
    have hi : (count 8 k₁).idle = true := hidle₁
    have h : c.perform (c.answer 8 k₁) 8 0x1AA (count 8 k₁) =
        if (count 8 k₁).idle then some ([0, 0, 0x01, 0xAA], .ready [],
          { count 8 k₁ with app := false }) else none := rfl
    rw [h, hi, if_pos rfl, hk₂]
  have h₂ := hs.command ho₂
  rw [hidle₂, if_pos rfl] at h₂
  have hb8 : b8 = [0, 0, 0x01, 0xAA] := by
    rw [htail (by rw [h₂]; rfl), h₂]
  have hv2 : isV2 0x01 [0, 0, 0x01, 0xAA] = true := by decide
  have hcount : k₂.counts 41 = 0 := by
    rw [hk₂, hk₁]
    rfl
  obtain ⟨k', hk', hstore, hup⟩ := hs.startUp hidle₂ hcount
  refine ⟨k', ?_, ?_, hup⟩
  · have hok : ¬ (0x01 : Byte) ≠ 0x01 := not_not.2 rfl
    simp only [Spi.sdInit, hsel, sends_released, h0, h₁, if_neg hok, h8, h₂, hb8, hv2, hk']
  · rw [hstore, hk₂, hk₁]
    rfl

/-! ### Sectors -/

/-- A sector of the card is found where it is. -/
lemma Sound.locate (hup : c.Up k) {lba : BitVec 32} (hlba : lba.toNat < c.capacity) :
    c.locate k (sdAddr c.hc lba) = some lba := by
  have hreach : c.reaches lba = true := by
    cases hc : c.hc with
    | true => rw [reaches, hc]; rfl
    | false =>
      have := hs.addressable hc
      simp only [reaches, Bool.or_eq_true, decide_eq_true_eq]
      exact Or.inl (Or.inr (by omega))
  rw [locate_sdAddr hup.blockLen hreach, if_pos hlba]

omit hs in
/-- The data of a read, when the token comes in time. -/
lemma readData_eq (c : SdCard) (k : Core) {d : ℕ} (hd : d < 65536) {data : List Byte}
    (hdata : data.length = 512) (crc dst : List Byte) :
    readData c.bus dst ⟨true, (Phase.ready []).say
      (List.replicate d 0xFF ++ 0xFE :: (data ++ crc)), k⟩ =
        ((0, data ++ dst.drop 512), ⟨false, .ready [], k⟩) := by
  obtain ⟨hend, hread⟩ := readData_spec c k d hdata crc dst
  have htoken : (readData c.bus dst ⟨true, (Phase.ready []).say
      (List.replicate d 0xFF ++ 0xFE :: (data ++ crc)), k⟩).1.1 = 0 := by
    have hFF : ∀ x ∈ List.replicate d (0xFF : Byte), (x == 0xFE) = false := by
      intro x hx
      rw [List.eq_of_mem_replicate hx]
      decide
    have htok : c.bus.poll 0xFF (· == 0xFE) 65536 0xFF ⟨true, (Phase.ready []).say
        (List.replicate d 0xFF ++ 0xFE :: (data ++ crc)), k⟩ =
          (0xFE, ⟨true, (Phase.ready []).say (data ++ crc), k⟩) :=
      (tells c k (.ready [])).poll hFF (by decide) (by rwa [List.length_replicate]) _ _
    simp only [readData, htok]
    rfl
  exact Prod.ext (Prod.ext htoken (hread htoken)) hend

/-- `sd_read_block` of a sector of the card. -/
lemma Sound.sdReadBlock (hup : c.Up k) {lba : BitVec 32} (hlba : lba.toNat < c.capacity) :
    ∃ k', Spi.sdReadBlock c.bus c.hc lba [] ⟨false, .ready [], k⟩ =
        ((0, (k.store lba).bytes), ⟨false, .ready [], k'⟩) ∧
      k'.store = k.store ∧ c.Up k' := by
  have hi : (count 17 k).idle = false := hup.idle
  have ho : c.perform (c.answer 17 k) 17 (sdAddr c.hc lba) (count 17 k) =
      some (List.replicate (c.answer 17 k).tokenDelay 0xFF ++ 0xFE :: ((k.store lba).bytes ++
        [(c.answer 17 k).crc.1, (c.answer 17 k).crc.2]), .ready [],
        { count 17 k with app := false }) := by
    rw [perform_read, locate_count, hs.locate hup hlba]
    exact if_neg (by rw [hi]; decide)
  have h := hs.command ho
  have hr1 : (if ({ count 17 k with app := false } : Core).idle then (0x01 : Byte) else 0x00) =
      0x00 := if_neg (by rw [hi]; decide)
  have hsel : c.bus.select true ⟨false, .ready [], k⟩ = ⟨true, .ready [], k⟩ := rfl
  have hok : ¬ (0x00 : Byte) ≠ 0x00 := not_not.2 rfl
  have hdelay : (c.answer 17 k).tokenDelay < 65536 := by
    rw [show c.answer 17 k = c.plan k.resets 17 (k.counts 17) from rfl]
    exact hs.sends _ _
  simp only [Spi.sdReadBlock, hsel, sdCmd_eq c k (show (17 : Byte) < 64 by decide), h, hr1,
    if_neg hok, readData_eq c _ hdelay (Sd.length_bytes (k.store lba)), List.drop_nil,
    List.append_nil]
  exact ⟨_, rfl, rfl, hi, hup.blockLen⟩

/-- `sd_write_block` to a sector of the card. -/
lemma Sound.sdWriteBlock (hup : c.Up k) {lba : BitVec 32} (hlba : lba.toNat < c.capacity)
    (src : Sector) :
    ∃ k', Spi.sdWriteBlock c.bus c.hc lba src.bytes ⟨false, .ready [], k⟩ =
        (0, ⟨false, .ready [], k'⟩) ∧
      k'.store = k.store.write [(lba, src)] ∧ c.Up k' := by
  have hi : (count 24 k).idle = false := hup.idle
  have ho : c.perform (c.answer 24 k) 24 (sdAddr c.hc lba) (count 24 k) =
      some ([], .token lba (c.answer 24 k), { count 24 k with app := false }) := by
    rw [perform_write, locate_count, hs.locate hup hlba]
    exact if_neg (by rw [hi]; decide)
  have h := hs.command ho
  have hr1 : (if ({ count 24 k with app := false } : Core).idle then (0x01 : Byte) else 0x00) =
      0x00 := if_neg (by rw [hi]; decide)
  have hsel : c.bus.select true ⟨false, .ready [], k⟩ = ⟨true, .ready [], k⟩ := rfl
  have hok : ¬ (0x00 : Byte) ≠ 0x00 := not_not.2 rfl
  have hans : c.answer 24 k = c.plan k.resets 24 (k.counts 24) := rfl
  have haccept : (c.answer 24 k).resp.byte &&& 0x1F = 0x05 := by rw [hans]; exact hs.accepts _ _
  have hbusy : (c.answer 24 k).busy < 65536 := by rw [hans]; exact hs.ends _ _
  simp only [Spi.sdWriteBlock, hsel, sdCmd_eq c k (show (24 : Byte) < 64 by decide), h, hr1,
    if_neg hok, Phase.say, writeData_eq, if_pos haccept, if_pos hbusy,
    Nat.sub_eq_zero_of_le hbusy.le]
  exact ⟨_, rfl, rfl, hi, hup.blockLen⟩

end SdCard

/-- A plain card that obeys everything. -/
lemma sound_plain (hc : Bool) {n : ℕ} (hn : n ≤ 2 ^ 23) :
    SdCard.Sound { plainCard hc [] with capacity := n } where
  obeys _ _ _ := rfl
  starts _ := ⟨0, by decide, rfl⟩
  sends _ _ := show 0 < 65536 by decide
  accepts _ _ := show (0x05 : Byte) &&& 0x1F = 0x05 by decide
  ends _ _ := show 0 < 65536 by decide
  addressable _ := hn

lemma sound_plainCard (hc : Bool) : (plainCard hc []).Sound :=
  sound_plain hc (show 1024 ≤ 2 ^ 23 by decide)

end Neorv32Boot.Spi
