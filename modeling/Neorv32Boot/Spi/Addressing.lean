import Neorv32Boot.Spi.Protocol

/-!
# How the card is addressed

The driver infers from `CMD8`, `ACMD41` and `CMD58` how the card is addressed.  A block-addressed
card whose `CMD58` fails is addressed in bytes all the same, and a byte address is a 32-bit product.
Otherwise the address of a sector is the one that the card expects.
-/

namespace Neorv32Boot.Spi

open Sd (Sector)

variable {c : SdCard} {k : Core}

namespace SdCard

/-! ### What a command leaves -/

/-- What a command other than a reset keeps. -/
structure Kept (cmd : Byte) (k k' : Core) : Prop where
  store : k'.store = k.store
  resets : k'.resets = k.resets
  counts : k'.counts = Function.update k.counts cmd (k.counts cmd + 1)
  blockLen : cmd ≠ 16 → k'.blockLen = k.blockLen
  idle : cmd ≠ 41 → k'.idle = k.idle

lemma command_kept (c : SdCard) (k : Core) {cmd : Byte} (hcmd : cmd ≠ 0) (arg : BitVec 32) :
    Kept cmd k (c.command cmd arg k).2.2.2 := by
  have hcount : count cmd k =
      { k with counts := Function.update k.counts cmd (k.counts cmd + 1) } := if_neg hcmd
  have h0 : cmd.toNat ≠ 0 := fun he => hcmd (BitVec.eq_of_toNat_eq he)
  have hcode : ∀ n : ℕ, n < 64 → cmd.toNat = n → cmd ≠ BitVec.ofNat 8 n → False := by
    intro n hn he hne
    refine hne (BitVec.eq_of_toNat_eq ?_)
    rw [he, BitVec.toNat_ofNat]
    omega
  rcases command_cases c cmd arg k with ⟨tail, next, k', ho, h⟩ | ⟨-, h⟩
  · rw [h]
    rw [obey, hcount] at ho
    split_ifs at ho
    rw [perform] at ho
    split at ho <;> (try split_ifs at ho) <;> (try split at ho) <;> cases ho
    all_goals
      refine ⟨rfl, rfl, rfl, fun hne => ?_, fun hne => ?_⟩ <;>
        first | rfl | exact absurd ‹_› h0 | exact (hcode _ (by decide) ‹_› hne).elim
  · rw [h, hcount]
    exact ⟨rfl, rfl, rfl, fun _ => rfl, fun _ => rfl⟩

/-- A reset that succeeds. -/
lemma command_reset (h : (c.command 0 0 k).1 = 0x01) :
    (c.command 0 0 k).2.2.2 = { k with
      idle := true
      app := false
      resets := k.resets + 1
      counts := Function.update (fun _ => 0) 0 1 } := by
  obtain ⟨tail, next, k', ho, hr⟩ := @obeyed c k 0 0 (by rw [h]; decide)
  rw [obey] at ho
  split_ifs at ho
  rw [hr]
  cases ho
  rfl

/-! ### Single commands -/

section Perform

variable (c : SdCard) (ans : Answer) (arg : BitVec 32) (k : Core)

lemma perform_acmd41 : c.perform ans 41 arg k =
    if k.app then
      some ([], .ready [], { k with
        idle := k.idle && !(ans.ready && (!c.hc || arg.getLsbD 30))
        app := false })
    else none := rfl

lemma perform_ocr : c.perform ans 58 arg k =
    some ([c.ocrStatus k, c.ocr.extractLsb' 16 8, c.ocr.extractLsb' 8 8, c.ocr.extractLsb' 0 8],
      .ready [], { k with app := false }) := rfl

lemma perform_blockLen : c.perform ans 16 arg k =
    if k.idle then none else some ([], .ready [], { k with blockLen := arg, app := false }) := rfl

lemma perform_read : c.perform ans 17 arg k =
    if k.idle then none else (c.locate k arg).map fun lba =>
      (List.replicate ans.tokenDelay 0xFF ++ 0xFE :: ((k.store lba).bytes ++
        [ans.crc.1, ans.crc.2]), .ready [], { k with app := false }) := by
  show (if k.idle then none else _) = _
  cases c.locate k arg <;> rfl

lemma perform_write : c.perform ans 24 arg k =
    if k.idle then none else (c.locate k arg).map fun lba =>
      ([], .token lba ans, { k with app := false }) := by
  show (if k.idle then none else _) = _
  cases c.locate k arg <;> rfl

end Perform

/-- What `ACMD41` does to a card that has seen `CMD55`: it ends the initialisation of a
block-addressed card for a host with `HCS` only. -/
lemma command_acmd41 {arg : BitVec 32} (hidle : k.idle = true)
    (h : (c.command 41 arg k).1 &&& 0x7E = 0) :
    ((c.command 41 arg k).1 = 0x00 →
      (c.command 41 arg k).2.2.2.idle = false ∧ (c.hc = true → arg.getLsbD 30 = true)) ∧
    ((c.command 41 arg k).1 ≠ 0x00 → (c.command 41 arg k).2.2.2.idle = true) := by
  obtain ⟨tail, next, k', ho, hr⟩ := obeyed h
  rw [hr]
  rw [obey] at ho
  split_ifs at ho
  rw [perform_acmd41] at ho
  split_ifs at ho
  have hcount : (count 41 k).idle = true := hidle
  rw [hcount, Bool.true_and] at ho
  cases hup : (c.answer 41 k).ready && (!c.hc || arg.getLsbD 30) with
  | false =>
    rw [hup] at ho
    cases ho
    have hne : (0x01 : Byte) ≠ 0x00 := by decide
    exact ⟨fun hzero => absurd hzero hne, fun _ => rfl⟩
  | true =>
    rw [hup] at ho
    cases ho
    rw [Bool.and_eq_true, Bool.or_eq_true, Bool.not_eq_true'] at hup
    refine ⟨fun _ => ⟨rfl, fun hc => hup.2.resolve_left ?_⟩, fun hne => absurd rfl hne⟩
    simp [hc]

/-- The answer to these commands is an `R1` alone. -/
lemma tail_nil {cmd : Byte} (hcmd : cmd = 55 ∨ cmd = 41 ∨ cmd = 24) (arg : BitVec 32) :
    (c.command cmd arg k).2.1 = [] := by
  rcases command_cases c cmd arg k with ⟨tail, next, k', ho, h⟩ | ⟨-, h⟩
  · rw [h]
    rw [obey] at ho
    split_ifs at ho
    rcases hcmd with rfl | rfl | rfl
    · cases ho
      rfl
    · rw [perform_acmd41] at ho
      split_ifs at ho
      cases ho
      rfl
    · rw [perform_write] at ho
      split_ifs at ho
      obtain ⟨lba, -, hlba⟩ := Option.map_eq_some_iff.1 ho
      cases hlba
      rfl
  · rw [h]

/-- A command whose answer is an `R1` alone, on a card that is ready. -/
lemma sdCmd_r1 (c : SdCard) (k : Core) {cmd : Byte} (hcmd : cmd = 55 ∨ cmd = 41)
    (arg : BitVec 32) (crc : Byte) : sdCmd c.bus cmd arg crc ⟨true, .ready [], k⟩ =
      ((c.command cmd arg k).1, ⟨true, .ready [], (c.command cmd arg k).2.2.2⟩) := by
  have hlt : cmd < 64 := by rcases hcmd with rfl | rfl <;> decide
  have hne : cmd ≠ 24 := by rcases hcmd with rfl | rfl <;> decide
  rw [sdCmd_eq c k hlt, next_ready hne, tail_nil (hcmd.imp id Or.inl)]
  rfl

/-! ### Initialisation -/

/-- What the commands of the initialisation after the reset keep. -/
structure Inits (k k' : Core) : Prop where
  store : k'.store = k.store
  resets : k'.resets = k.resets
  ocrCount : k'.counts 58 = k.counts 58

lemma Inits.trans {k₁ k₂ k₃ : Core} (h : Inits k₁ k₂) (h' : Inits k₂ k₃) : Inits k₁ k₃ :=
  ⟨h'.store.trans h.store, h'.resets.trans h.resets, h'.ocrCount.trans h.ocrCount⟩

lemma Kept.inits {cmd : Byte} {k' : Core} (h : Kept cmd k k') (hcmd : cmd ≠ 58) : Inits k k' := by
  refine ⟨h.store, h.resets, ?_⟩
  rw [h.counts, Function.update_of_ne (Ne.symm hcmd)]

lemma no_error (b : Byte) (h : b &&& 0xFE = 0) : b &&& 0x7E = 0 := by
  revert b
  decide

/-- The loop of `ACMD41`. -/
lemma acmd41_spec (c : SdCard) (arg : BitVec 32) (tries : ℕ) (hidle : k.idle = true) :
    ∃ k', (acmd41 c.bus arg tries ⟨false, .ready [], k⟩).2 = ⟨false, .ready [], k'⟩ ∧ Inits k k' ∧
      ((acmd41 c.bus arg tries ⟨false, .ready [], k⟩).1 = 0 →
        k'.idle = false ∧ (c.hc = true → arg.getLsbD 30 = true)) := by
  induction tries generalizing k with
  | zero =>
    have hne : (-3 : ℤ) ≠ 0 := by decide
    exact ⟨k, rfl, ⟨rfl, rfl, rfl⟩, fun h => absurd h hne⟩
  | succ tries ih =>
    have hsel : c.bus.select true ⟨false, .ready [], k⟩ = ⟨true, .ready [], k⟩ := rfl
    have h55 := command_kept c k (show (55 : Byte) ≠ 0 by decide) 0
    have h41 := command_kept c (c.command 55 0 k).2.2.2 (show (41 : Byte) ≠ 0 by decide) arg
    have hidle₁ : (c.command 55 0 k).2.2.2.idle = true := (h55.idle (by decide)).trans hidle
    have hinits := (h55.inits (by decide)).trans (h41.inits (by decide))
    have hend : ∀ k', c.bus.select false (c.bus.xchg 0xFF ⟨true, .ready [], k'⟩).2 =
        ⟨false, .ready [], k'⟩ := fun _ => rfl
    simp only [acmd41, hsel, sdCmd_r1 c _ (Or.inl rfl), sdCmd_r1 c _ (Or.inr rfl), hend]
    split_ifs with hzero herr
    · have h := (command_acmd41 hidle₁ (by rw [hzero]; decide)).1 hzero
      exact ⟨_, rfl, hinits, fun _ => h⟩
    · have hne : (-2 : ℤ) ≠ 0 := by decide
      exact ⟨_, rfl, hinits, fun h => absurd h hne⟩
    · have hidle₂ := (command_acmd41 hidle₁ (by
        rw [not_not] at herr
        exact no_error _ herr)).2 hzero
      obtain ⟨k', hk', hin, hend⟩ := ih hidle₂
      exact ⟨k', hk', hinits.trans hin, hend⟩

/-- The status bit of the `OCR` that tells how the card is addressed. -/
lemma ocrStatus_bit (c : SdCard) (k : Core) :
    (c.ocrStatus k &&& 0x40 != 0) = (c.hc && !k.idle) := by
  have hbit : ∀ (x : Byte) (idle hc : Bool), (((x &&& 0x3F) ||| (if idle then 0x00 else 0x80) |||
      (if hc && !idle then 0x40 else 0x00)) &&& 0x40 != 0) = (hc && !idle) := by decide
  exact hbit _ _ _

/-- After `CMD58` the driver takes the card for a high-capacity one only when it is one, and it
does so when `CMD58` is sent and not refused. -/
lemma readOcr_spec (c : SdCard) (v2Card : Bool) (hidle : k.idle = false) :
    ∃ k', (readOcr c.bus v2Card ⟨false, .ready [], k⟩).2 = ⟨false, .ready [], k'⟩ ∧
      k'.store = k.store ∧
      ((readOcr c.bus v2Card ⟨false, .ready [], k⟩).1 = true → c.hc = true) ∧
      (v2Card = true → c.hc = true → (c.plan k.resets 58 (k.counts 58)).refuse = false →
        (readOcr c.bus v2Card ⟨false, .ready [], k⟩).1 = true) := by
  cases v2Card with
  | false =>
    have hno : ¬ (false = true) := Bool.false_ne_true
    exact ⟨k, rfl, rfl, fun h => absurd h hno, fun h => absurd h hno⟩
  | true =>
    obtain ⟨bytes, hr, htail⟩ := transact_eq c k (show (58 : Byte) < 64 by decide) (by decide) 0
      0xFD 4
    have hcount : (count 58 k).idle = false := hidle
    have hans : c.answer 58 k = c.plan k.resets 58 (k.counts 58) := rfl
    simp only [readOcr, if_true, hr]
    refine ⟨_, rfl, (command_kept c k (by decide) 0).store, ?_, fun _ hc href => ?_⟩
    · rw [Bool.and_eq_true, beq_iff_eq]
      rintro ⟨hzero, hbit⟩
      obtain ⟨tail, next, k', ho, h⟩ := @obeyed c k 58 0 (by rw [hzero]; decide)
      rw [obey] at ho
      split_ifs at ho
      rw [perform_ocr] at ho
      cases ho
      rw [htail (by rw [h]; rfl), h, List.getD_cons_zero, ocrStatus_bit] at hbit
      exact (Bool.and_eq_true_iff.1 hbit).1
    · have ho : c.obey (c.answer 58 k) 58 0 (count 58 k) =
          c.perform (c.answer 58 k) 58 0 (count 58 k) := by
        rw [obey, hans, href]
        rfl
      rw [perform_ocr] at ho
      have h := command_of_obey ho
      rw [htail (by rw [h]; rfl), h, List.getD_cons_zero, ocrStatus_bit, hc, hcount]
      rfl

/-- `CMD16` sets the block length. -/
lemma setBlockLen_spec (c : SdCard) (k : Core) (isHc : Bool) :
    ∃ k', (setBlockLen c.bus isHc ⟨false, .ready [], k⟩).2 = ⟨false, .ready [], k'⟩ ∧
      k'.store = k.store ∧
      ((setBlockLen c.bus isHc ⟨false, .ready [], k⟩).1 = 0 → isHc = false →
        k'.blockLen = 512) := by
  cases isHc with
  | true => exact ⟨k, rfl, rfl, fun _ h => absurd h Bool.noConfusion⟩
  | false =>
    obtain ⟨bytes, hr, -⟩ := transact_eq c k (show (16 : Byte) < 64 by decide) (by decide) 512
      0x15 0
    simp only [setBlockLen, Bool.false_eq_true, if_false, hr]
    refine ⟨_, rfl, (command_kept c k (by decide) 512).store, fun hrc _ => ?_⟩
    split_ifs at hrc with hne
    rw [not_not] at hne
    obtain ⟨tail, next, k', ho, h⟩ := @obeyed c k 16 512 (by rw [hne]; decide)
    rw [obey] at ho
    split_ifs at ho
    rw [perform_blockLen] at ho
    split_ifs at ho
    cases ho
    rw [h]

lemma store_reset (c : SdCard) (k : Core) : (c.command 0 0 k).2.2.2.store = k.store := by
  rcases command_cases c 0 0 k with ⟨tail, next, k', ho, h⟩ | ⟨-, h⟩
  · rw [obey] at ho
    split_ifs at ho
    cases ho
    rw [h]
    rfl
  · rw [h]
    rfl

/-- From `ACMD41` on, a driver that returns 0 and whose `CMD58` was answered has the right
addressing, and a byte-addressed card the right block length. -/
lemma startUp_spec (c : SdCard) (v2Card : Bool) (hidle : k.idle = true) :
    ∃ k', (startUp c.bus v2Card ⟨false, .ready [], k⟩).2 = ⟨false, .ready [], k'⟩ ∧
      k'.store = k.store ∧
      ((c.hc = true → (c.plan k.resets 58 (k.counts 58)).refuse = false) →
        (startUp c.bus v2Card ⟨false, .ready [], k⟩).1.1 = 0 →
          (startUp c.bus v2Card ⟨false, .ready [], k⟩).1.2 = c.hc ∧
            (c.hc = false → k'.blockLen = 512)) := by
  obtain ⟨k₁, hk₁, hinits, hup⟩ := acmd41_spec c (if v2Card then 0x40000000 else 0) 2000 hidle
  rw [startUp]
  by_cases hrc : (acmd41 c.bus (if v2Card then 0x40000000 else 0) 2000 ⟨false, .ready [], k⟩).1 ≠ 0
  · simp only [if_pos hrc, hk₁]
    exact ⟨k₁, rfl, hinits.store, fun _ h => absurd h hrc⟩
  simp only [if_neg hrc, hk₁]
  obtain ⟨hidle₁, hhcs⟩ := hup (not_not.1 hrc)
  obtain ⟨k₂, hk₂, hstore₂, hhc, hocr⟩ := readOcr_spec c v2Card hidle₁
  obtain ⟨k₃, hk₃, hstore₃, hlen⟩ := setBlockLen_spec c k₂
    (readOcr c.bus v2Card ⟨false, .ready [], k₁⟩).1
  simp only [hk₂, hk₃]
  refine ⟨k₃, rfl, (hstore₃.trans hstore₂).trans hinits.store, fun hok hzero => ?_⟩
  have hisHc : (readOcr c.bus v2Card ⟨false, .ready [], k₁⟩).1 = c.hc := by
    cases hc : c.hc with
    | false =>
      rw [← Bool.not_eq_true]
      intro h
      exact Bool.false_ne_true (hc.symm.trans (hhc h))
    | true =>
      -- the card has been told that the host knows such cards
      have hv2 : v2Card = true := by
        cases v2Card with
        | true => rfl
        | false => exact absurd (hhcs hc) (by decide)
      refine hocr hv2 hc ?_
      rw [hinits.resets, hinits.ocrCount]
      exact hok hc
  exact ⟨hisHc, fun hc => hlen hzero (hisHc.trans hc)⟩

/-- What `sd_init` comes to: it changes no sector, and when it returns 0 and the card has answered
`CMD58`, the driver has the right addressing. -/
lemma sdInit_spec (c : SdCard) (k : Core) :
    ∃ k', (sdInit c.bus ⟨false, .ready [], k⟩).2 = ⟨false, .ready [], k'⟩ ∧ k'.store = k.store ∧
      ((c.hc = true → (c.plan (k.resets + 1) 58 0).refuse = false) →
        (sdInit c.bus ⟨false, .ready [], k⟩).1.1 = 0 →
          (sdInit c.bus ⟨false, .ready [], k⟩).1.2 = c.hc ∧
            (c.hc = false → k'.blockLen = 512)) := by
  have hsel : c.bus.select false ⟨false, .ready [], k⟩ = ⟨false, .ready [], k⟩ := rfl
  obtain ⟨b0, h0, -⟩ := transact_eq c k (show (0 : Byte) < 64 by decide) (by decide) 0 0x95 0
  simp only [sdInit, hsel, sends_released, h0]
  split_ifs with hr0
  · have hne : (-1 : ℤ) ≠ 0 := by decide
    exact ⟨_, rfl, store_reset c k, fun _ h => absurd h hne⟩
  rw [not_not] at hr0
  have hreset := command_reset hr0
  have h8k := command_kept c (c.command 0 0 k).2.2.2 (show (8 : Byte) ≠ 0 by decide) 0x1AA
  obtain ⟨b8, h8, -⟩ := transact_eq c (c.command 0 0 k).2.2.2 (show (8 : Byte) < 64 by decide)
    (by decide) 0x1AA 0x87 4
  simp only [h8]
  -- the card is not initialised yet
  have hidle : (c.command 8 0x1AA (c.command 0 0 k).2.2.2).2.2.2.idle = true := by
    rw [h8k.idle (by decide), hreset]
  have hresets : (c.command 8 0x1AA (c.command 0 0 k).2.2.2).2.2.2.resets = k.resets + 1 := by
    rw [h8k.resets, hreset]
  have hcount : (c.command 8 0x1AA (c.command 0 0 k).2.2.2).2.2.2.counts 58 = 0 := by
    rw [h8k.counts, hreset]
    rfl
  obtain ⟨k', hk', hstore, hok⟩ := startUp_spec c
    (isV2 (c.command 8 0x1AA (c.command 0 0 k).2.2.2).1 b8) hidle
  rw [hresets, hcount] at hok
  exact ⟨k', hk', hstore.trans (h8k.store.trans (store_reset c k)), hok⟩

/-! ### Sectors -/

lemma locate_count (cmd : Byte) (arg : BitVec 32) :
    c.locate (count cmd k) arg = c.locate k arg := by
  rw [count]
  split_ifs <;> rfl

/-- The token and the data of a read, as the card sends them. -/
lemma readData_spec (c : SdCard) (k : Core) (d : ℕ) {data : List Byte} (hdata : data.length = 512)
    (crc : List Byte) (dst : List Byte) :
    let s : State := ⟨true, (Phase.ready []).say
      (List.replicate d 0xFF ++ 0xFE :: (data ++ crc)), k⟩
    (readData c.bus dst s).2 = ⟨false, .ready [], k⟩ ∧
      ((readData c.bus dst s).1.1 = 0 → (readData c.bus dst s).1.2 = data ++ dst.drop 512) := by
  intro s
  have htells := tells c k (.ready [])
  have hFF : ∀ n, ∀ x ∈ List.replicate n (0xFF : Byte), (x == 0xFE) = false := by
    intro n x hx
    rw [List.eq_of_mem_replicate hx]
    decide
  rcases Nat.lt_or_ge d 65536 with hlt | hge
  · have htok : c.bus.poll 0xFF (· == 0xFE) 65536 0xFF s =
        (0xFE, ⟨true, (Phase.ready []).say (data ++ crc), k⟩) :=
      htells.poll (hFF d) (by decide) (by rwa [List.length_replicate]) _ _
    have hrecvs := htells.recvs data crc
    rw [hdata] at hrecvs
    have hend : Talks k (c.bus.sends [0xFF, 0xFF, 0xFF] ⟨true, (Phase.ready []).say crc, k⟩) :=
      Talks.xchg c (Talks.xchg c (Talks.xchg c ⟨crc, rfl⟩))
    simp only [readData, htok, hrecvs]
    exact ⟨hend.release c, fun _ => rfl⟩
  · -- no token comes in time
    have hsplit : List.replicate d (0xFF : Byte) = List.replicate 65536 0xFF ++
        List.replicate (d - 65536) 0xFF := by
      rw [List.replicate_append_replicate, Nat.add_sub_cancel' hge]
    have hnone := htells.poll_none (hFF 65536)
      (List.replicate (d - 65536) 0xFF ++ 0xFE :: (data ++ crc))
      (show ((0xFF : Byte) == 0xFE) = false by decide)
    rw [List.length_replicate, ← List.append_assoc, ← hsplit] at hnone
    have hne : (c.bus.poll 0xFF (· == 0xFE) 65536 0xFF s).1 ≠ 0xFE := by
      intro he
      have := hnone.1
      rw [show (c.bus.poll 0xFF (· == 0xFE) 65536 0xFF s).1 = _ from he] at this
      exact absurd this (by decide)
    have h2 : (-2 : ℤ) ≠ 0 := by decide
    simp only [readData, if_pos hne]
    have hs : Talks k s := ⟨_, rfl⟩
    have hkept : ∀ s, Talks k s → Talks k (c.bus.xchg 0xFF s).2 := fun _ => Talks.xchg c
    exact ⟨(Bus.poll_kept hkept _ _ hs).release c, fun h => absurd h h2⟩

/-- What `sd_read_block` comes to: it changes no sector, and when it returns 0, it has read the one
that the address means. -/
lemma sdReadBlock_spec (c : SdCard) (k : Core) (isHc : Bool) (lba : BitVec 32) (dst : List Byte) :
    ∃ k', (sdReadBlock c.bus isHc lba dst ⟨false, .ready [], k⟩).2 = ⟨false, .ready [], k'⟩ ∧
      k'.store = k.store ∧ k'.blockLen = k.blockLen ∧
      ((sdReadBlock c.bus isHc lba dst ⟨false, .ready [], k⟩).1.1 = 0 →
        ∃ l, c.locate k (sdAddr isHc lba) = some l ∧
          (sdReadBlock c.bus isHc lba dst ⟨false, .ready [], k⟩).1.2 =
            (k.store l).bytes ++ dst.drop 512) := by
  have hsel : c.bus.select true ⟨false, .ready [], k⟩ = ⟨true, .ready [], k⟩ := rfl
  have hkept := command_kept c k (show (17 : Byte) ≠ 0 by decide) (sdAddr isHc lba)
  have hlen := hkept.blockLen (by decide)
  simp only [sdReadBlock, hsel, sdCmd_eq c k (show (17 : Byte) < 64 by decide),
    next_ready (show (17 : Byte) ≠ 24 by decide)]
  by_cases hr1 : (c.command 17 (sdAddr isHc lba) k).1 ≠ 0x00
  · have htalks : Talks (c.command 17 (sdAddr isHc lba) k).2.2.2 ⟨true,
        (Phase.ready []).say (c.command 17 (sdAddr isHc lba) k).2.1,
        (c.command 17 (sdAddr isHc lba) k).2.2.2⟩ := ⟨_, rfl⟩
    have h1 : (-1 : ℤ) ≠ 0 := by decide
    simp only [if_pos hr1]
    exact ⟨_, htalks.release c, hkept.store, hlen, fun h => absurd h h1⟩
  rw [if_neg hr1]
  rw [not_not] at hr1
  obtain ⟨tail, next, k', ho, hr⟩ := @obeyed c k 17 (sdAddr isHc lba) (by rw [hr1]; decide)
  rw [obey] at ho
  split_ifs at ho
  rw [perform_read, locate_count] at ho
  split_ifs at ho
  obtain ⟨l, hl, hcmd⟩ := Option.map_eq_some_iff.1 ho
  cases hcmd
  rw [hr] at hkept hlen ⊢
  have hdata : ((count 17 k).store l).bytes.length = 512 := Sd.length_bytes _
  obtain ⟨hend, hread⟩ := readData_spec c { count 17 k with app := false }
    (c.answer 17 k).tokenDelay hdata [(c.answer 17 k).crc.1, (c.answer 17 k).crc.2] dst
  exact ⟨_, hend, hkept.store, hlen, fun h => ⟨l, hl, hread h⟩⟩

/-! ### Writing -/

section Block

variable {lba : BitVec 32} {ans : Answer}

/-- The card takes the bytes of a block. -/
lemma sends_block (c : SdCard) (k : Core) {buf bs : List Byte} (h : buf.length + bs.length < 514) :
    c.bus.sends bs ⟨true, .block lba ans buf, k⟩ = ⟨true, .block lba ans (buf ++ bs), k⟩ := by
  induction bs generalizing buf with
  | nil => rw [List.append_nil, Bus.sends]
  | cons b bs ih =>
    rw [List.length_cons] at h
    have hx : (c.bus.xchg b ⟨true, .block lba ans buf, k⟩).2 =
        if buf.length + 1 < 514 then ⟨true, .block lba ans (buf ++ [b]), k⟩
        else takeBlock lba ans (buf ++ [b]) ⟨true, .block lba ans buf, k⟩ := rfl
    rw [Bus.sends, hx, if_pos (by omega), ih, List.append_assoc, List.singleton_append]
    rw [List.length_append, List.length_singleton]
    omega

/-- A data block after its token. -/
lemma sends_data (c : SdCard) (k : Core) {src : List Byte} (h : src.length = 512) :
    c.bus.sends ([0xFF, 0xFE] ++ src ++ [0xFF, 0xFF]) ⟨true, .token lba ans, k⟩ =
      takeBlock lba ans (src ++ [0xFF, 0xFF]) ⟨true, .block lba ans (src ++ [0xFF]), k⟩ := by
  have htoken : c.bus.sends [0xFF, 0xFE] ⟨true, .token lba ans, k⟩ =
      ⟨true, .block lba ans [], k⟩ := rfl
  have hlast : (c.bus.xchg 0xFF ⟨true, .block lba ans (src ++ [0xFF]), k⟩).2 =
      if (src ++ [0xFF]).length + 1 < 514 then ⟨true, .block lba ans (src ++ [0xFF] ++ [0xFF]), k⟩
      else takeBlock lba ans (src ++ [0xFF] ++ [0xFF]) ⟨true, .block lba ans (src ++ [0xFF]), k⟩ :=
    rfl
  have hlen : (src ++ [(0xFF : Byte)]).length = 513 := by
    rw [List.length_append, h, List.length_singleton]
  have hsplit : ([0xFF, 0xFE] ++ src ++ [0xFF, 0xFF] : List Byte) =
      [0xFF, 0xFE] ++ ((src ++ [0xFF]) ++ [0xFF]) := by simp
  rw [hsplit, Bus.sends_append, htoken, Bus.sends_append,
    sends_block c k (by rw [hlen]; decide), List.nil_append, Bus.sends, hlast, if_neg (by omega),
    Bus.sends, List.append_assoc]
  rfl

/-- The driver sees that the card is ready, or gives up on one that is still busy. -/
lemma poll_wait (c : SdCard) (k : Core) (n m : ℕ) :
    c.bus.poll 0xFF (· != 0x00) m 0x00 ⟨true, .wait n, k⟩ =
      (if n < m then 0xFF else 0x00, ⟨true, .wait (n - m), k⟩) := by
  induction m generalizing n with
  | zero => rfl
  | succ m ih =>
    cases n with
    | zero =>
      rw [Nat.zero_sub, if_pos m.succ_pos]
      rfl
    | succ n =>
      simp only [Nat.succ_lt_succ_iff, Nat.succ_sub_succ]
      exact ih n

lemma release_wait (c : SdCard) (k : Core) (n : ℕ) :
    c.bus.select false ⟨true, .wait n, k⟩ = ⟨false, .wait n, k⟩ := by
  cases n <;> rfl

lemma sectorAt_bytes (src : Sector) (rest : List Byte) :
    Sd.sectorAt (src.bytes ++ rest) 0 = src := by
  funext j
  have hj : j.val < src.bytes.length := by
    rw [Sd.length_bytes]
    exact j.isLt
  rw [Sd.sectorAt, Nat.mul_zero, Nat.zero_add, List.getD_eq_getElem?_getD,
    List.getElem?_append_left hj, List.getElem?_eq_getElem hj, Option.getD_some]
  simp only [Sd.Sector.bytes, List.getElem_ofFn]

/-- The data of a write: when the driver returns 0, the sector is written.  It does so when the
card accepts the data and is not busy for too long. -/
lemma writeData_spec (c : SdCard) (k : Core) (src : Sector) :
    ∃ n k', (writeData c.bus src.bytes ⟨true, .token lba ans, k⟩).2 = ⟨false, .wait n, k'⟩ ∧
      k'.blockLen = k.blockLen ∧
      (ans.resp.byte &&& 0x1F = 0x05 → ans.busy < 65536 →
        (writeData c.bus src.bytes ⟨true, .token lba ans, k⟩).1 = 0) ∧
      ((writeData c.bus src.bytes ⟨true, .token lba ans, k⟩).1 = 0 →
        k'.store = k.store.write [(lba, src)]) := by
  have h2 : (-2 : ℤ) ≠ 0 := by decide
  simp only [writeData, sends_data c k (Sd.length_bytes src), takeBlock]
  by_cases hresp : ans.resp.byte &&& 0x1F = 0x05
  · have hx : ∀ k', c.bus.xchg 0xFF ⟨true, (Phase.wait ans.busy).say [ans.resp.byte], k'⟩ =
        (ans.resp.byte, ⟨true, .wait ans.busy, k'⟩) := fun _ => rfl
    have hne : ¬ ans.resp.byte &&& 0x1F ≠ 0x05 := not_not.2 hresp
    have hFF : ¬ (0xFF : Byte) = 0x00 := by decide
    have h3 : (-3 : ℤ) ≠ 0 := by decide
    simp only [if_pos hresp, hx, if_neg hne, poll_wait, sectorAt_bytes]
    by_cases hbusy : ans.busy < 65536
    · simp only [if_pos hbusy, if_neg hFF, Nat.sub_eq_zero_of_le hbusy.le]
      exact ⟨0, _, rfl, rfl, fun _ _ => trivial, fun _ => rfl⟩
    · simp only [if_neg hbusy, if_true, release_wait]
      exact ⟨_, _, rfl, rfl, fun _ h => absurd h hbusy, fun h => absurd h h3⟩
  · have hx : c.bus.xchg 0xFF ⟨true, (Phase.ready []).say [ans.resp.byte], k⟩ =
        (ans.resp.byte, ⟨true, .ready [], k⟩) := rfl
    have hne : ans.resp.byte &&& 0x1F ≠ 0x05 := hresp
    simp only [if_neg hresp, hx, if_pos hne]
    exact ⟨0, k, rfl, rfl, fun h => absurd h hresp, fun h => absurd h h2⟩

end Block

/-- What `sd_write_block` comes to: a success has written the sector that the address means, and an
address that means none changes nothing.  It is a success when the card accepts the command and the
data and is not busy for too long. -/
lemma sdWriteBlock_spec (c : SdCard) (k : Core) (isHc : Bool) (lba : BitVec 32) (src : Sector) :
    ∃ n k', (sdWriteBlock c.bus isHc lba src.bytes ⟨false, .ready [], k⟩).2 =
        ⟨false, .wait n, k'⟩ ∧
      k'.blockLen = k.blockLen ∧
      ((sdWriteBlock c.bus isHc lba src.bytes ⟨false, .ready [], k⟩).1 = 0 →
        ∃ l, c.locate k (sdAddr isHc lba) = some l ∧ k'.store = k.store.write [(l, src)]) ∧
      (c.locate k (sdAddr isHc lba) = none →
        (sdWriteBlock c.bus isHc lba src.bytes ⟨false, .ready [], k⟩).1 ≠ 0 ∧
          k'.store = k.store) ∧
      ((c.command 24 (sdAddr isHc lba) k).1 = 0x00 → (c.answer 24 k).resp.byte &&& 0x1F = 0x05 →
        (c.answer 24 k).busy < 65536 →
        (sdWriteBlock c.bus isHc lba src.bytes ⟨false, .ready [], k⟩).1 = 0) := by
  have hsel : c.bus.select true ⟨false, .ready [], k⟩ = ⟨true, .ready [], k⟩ := rfl
  have hkept := command_kept c k (show (24 : Byte) ≠ 0 by decide) (sdAddr isHc lba)
  have hlen := hkept.blockLen (by decide)
  have htail := @tail_nil c k 24 (Or.inr (Or.inr rfl)) (sdAddr isHc lba)
  have h1 : (-1 : ℤ) ≠ 0 := by decide
  simp only [sdWriteBlock, hsel, sdCmd_eq c k (show (24 : Byte) < 64 by decide), htail]
  by_cases hr1 : (c.command 24 (sdAddr isHc lba) k).1 ≠ 0x00
  · have hnext : ((c.command 24 (sdAddr isHc lba) k).2.2.1).drop = .ready [] := by
      rcases command_cases c 24 (sdAddr isHc lba) k with ⟨tail, next, k', ho, h⟩ | ⟨-, h⟩
      · rw [obey] at ho
        split_ifs at ho
        rw [perform_write] at ho
        split_ifs at ho
        obtain ⟨l, -, hl⟩ := Option.map_eq_some_iff.1 ho
        cases hl
        rw [h]
        rfl
      · rw [h]
        rfl
    simp only [if_pos hr1]
    refine ⟨0, _, ?_, hlen, fun h => absurd h h1, fun _ => ⟨h1, hkept.store⟩, fun h => absurd h hr1⟩
    exact congrArg (State.mk false · _) hnext
  rw [if_neg hr1]
  rw [not_not] at hr1
  obtain ⟨tail, next, k', ho, hr⟩ := @obeyed c k 24 (sdAddr isHc lba) (by rw [hr1]; decide)
  rw [obey] at ho
  split_ifs at ho
  rw [perform_write, locate_count] at ho
  split_ifs at ho
  obtain ⟨l, hl, hcmd⟩ := Option.map_eq_some_iff.1 ho
  cases hcmd
  rw [hr] at hlen ⊢
  obtain ⟨n, k', hend, hlen', hacc, hstore⟩ := @writeData_spec l (c.answer 24 k) c
    { count 24 k with app := false } src
  refine ⟨n, k', hend, hlen'.trans hlen, fun h => ⟨l, hl, hstore h⟩, fun hnone => ?_, fun _ => hacc⟩
  cases hl.symm.trans hnone

/-! ### Addresses -/

/-- The sector of this LBA has an address: a byte address is a 32-bit product, and from LBA
`2 ^ 23` on it is that of another sector, unless that one is beyond the card too. -/
def reaches (c : SdCard) (lba : BitVec 32) : Bool :=
  c.hc || decide (lba.toNat < 2 ^ 23) || decide (c.capacity ≤ lba.toNat % 2 ^ 23)

/-- With the right addressing, the address is that of the sector. -/
lemma locate_sdAddr {lba : BitVec 32} (hlen : c.hc = false → k.blockLen = 512)
    (hreach : c.reaches lba = true) :
    c.locate k (sdAddr c.hc lba) = if lba.toNat < c.capacity then some lba else none := by
  rw [locate, sdAddr]
  cases hc : c.hc with
  | true => rfl
  | false =>
    simp only [reaches, hc, Bool.false_or, Bool.or_eq_true, decide_eq_true_eq] at hreach
    have hlt := lba.isLt
    have h512 : (512 : BitVec 32).toNat = 512 := rfl
    have haddr : (lba * 512).toNat = lba.toNat % 2 ^ 23 * 512 := by
      rw [BitVec.toNat_mul, h512]
      omega
    simp only [Bool.false_eq_true, if_false, hlen hc, haddr, Nat.mul_mod_left, true_and]
    rw [Nat.mul_div_cancel _ (by decide)]
    by_cases hcap : lba.toNat % 2 ^ 23 < c.capacity
    · have hmod : lba.toNat % 2 ^ 23 = lba.toNat := by omega
      have hdiv : lba * 512 / 512 = lba := by
        refine BitVec.eq_of_toNat_eq ?_
        rw [BitVec.toNat_udiv, haddr, h512, hmod, Nat.mul_div_cancel _ (by decide)]
      rw [if_pos hcap, hdiv, if_pos (by omega)]
    · have := Nat.mod_le lba.toNat (2 ^ 23)
      rw [if_neg hcap, if_neg (by omega)]

end SdCard

/-! ### A plain card -/

/-- A card of 1024 sectors that obeys every command at once, but for those of these codes. -/
def plainCard (hc : Bool) (refused : List Byte) : SdCard where
  hc := hc
  capacity := 1024
  ocr := 0
  plan _ cmd _ :=
    { delay := 0
      refuse := refused.contains cmd
      error := ⟨0x04, by decide, by decide⟩
      ready := true
      tokenDelay := 0
      crc := (0, 0)
      resp := ⟨0x05, by decide⟩
      busy := 0 }

/-- A blank card before its first reset. -/
def blank : Core where
  idle := true
  app := false
  blockLen := 512
  store := fun _ _ => 0
  resets := 0
  counts := fun _ => 0

end Neorv32Boot.Spi
