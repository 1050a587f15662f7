import Neorv32Boot.Spi.Addressing

/-!
# What the driver leaves of a card

A call of the driver leaves the card released, and ready or still busy with a block.  A card that is
still busy answers the next `sd_init` with an error, and a sector changes only when it is written.
-/

namespace Neorv32Boot.Spi

open Sd (Sector)

/-- The card is released, and ready or busy. -/
def State.Rests (s : State) : Prop := ∃ n k, s = ⟨false, .wait n, k⟩

namespace SdCard

variable {c : SdCard} {k : Core}

/-! ### A card that is still busy -/

lemma sends_wait_released (c : SdCard) (k : Core) (bs : List Byte) (n : ℕ) :
    c.bus.sends bs ⟨false, .wait n, k⟩ = ⟨false, .wait (n - bs.length), k⟩ := by
  induction bs generalizing n with
  | nil => rfl
  | cons b bs ih =>
    cases n with
    | zero =>
      rw [Nat.zero_sub]
      exact sends_released _
    | succ n => rw [List.length_cons, Nat.succ_sub_succ]; exact ih n

lemma sends_wait (c : SdCard) (k : Core) (bs : List Byte) (n : ℕ) :
    c.bus.sends bs ⟨true, .wait (n + bs.length), k⟩ = ⟨true, .wait n, k⟩ := by
  induction bs with
  | nil => rfl
  | cons b bs ih => exact ih

/-- Bytes that begin no frame leave a card that is ready. -/
lemma sends_none (c : SdCard) (k : Core) {bs : List Byte} (h : ∀ b ∈ bs, b &&& 0xC0 ≠ 0x40) :
    c.bus.sends bs ⟨true, .ready [], k⟩ = ⟨true, .ready [], k⟩ := by
  induction bs with
  | nil => rfl
  | cons b bs ih =>
    obtain ⟨hb, h⟩ := List.forall_mem_cons.1 h
    have hx : (c.bus.xchg b ⟨true, .ready [], k⟩).2 =
        ⟨true, .ready (if b &&& 0xC0 = 0x40 then [b] else []), k⟩ := rfl
    rw [Bus.sends, hx, if_neg hb]
    exact ih h

/-- A card that is ready has nothing to say. -/
lemma poll_none (c : SdCard) (k : Core) (n : ℕ) :
    c.bus.poll 0xFF isR1 n 0xFF ⟨true, .ready [], k⟩ = (0xFF, ⟨true, .ready [], k⟩) := by
  have hx : c.bus.xchg 0xFF ⟨true, .ready [], k⟩ = (0xFF, ⟨true, .ready [], k⟩) := rfl
  have hff : ¬ isR1 0xFF = true := by decide
  induction n with
  | zero => rfl
  | succ n ih => rw [Bus.poll, hx, if_neg hff, ih]

/-- A card that is busy when the frame of `CMD0` begins does not take it. -/
lemma sdCmd_busy (c : SdCard) (k : Core) (n : ℕ) :
    ∃ r m, sdCmd c.bus 0 0 0x95 ⟨true, .wait (n + 2), k⟩ = (r, ⟨true, .wait m, k⟩) ∧ r ≠ 0x01 := by
  by_cases hn : n < 6
  · have hlen : ((cmdFrame 0 0 0x95).take (n + 2)).length = n + 2 :=
      List.length_take_of_le (show n + 2 ≤ 7 by omega)
    have heat := sends_wait c k ((cmdFrame 0 0 0x95).take (n + 2)) 0
    have hrest : ∀ b ∈ (cmdFrame 0 0 0x95).drop (n + 2), b &&& 0xC0 ≠ 0x40 := by
      have hall : ∀ b ∈ (cmdFrame 0 0 0x95).drop 2, b &&& 0xC0 ≠ 0x40 := by decide
      intro b hb
      rw [Nat.add_comm n 2, ← List.drop_drop] at hb
      exact hall b (List.mem_of_mem_drop hb)
    rw [hlen, Nat.zero_add] at heat
    have hframe : c.bus.sends (cmdFrame 0 0 0x95) ⟨true, .wait (n + 2), k⟩ =
        ⟨true, .ready [], k⟩ := by
      rw [← List.take_append_drop (n + 2) (cmdFrame 0 0 0x95), Bus.sends_append, heat]
      exact sends_none c k hrest
    refine ⟨0xFF, 0, ?_, by decide⟩
    rw [sdCmd, hframe]
    exact poll_none c k 16
  · obtain ⟨m, rfl⟩ := Nat.exists_eq_add_of_le (not_lt.1 hn)
    have hframe : c.bus.sends (cmdFrame 0 0 0x95) ⟨true, .wait (6 + m + 2), k⟩ =
        ⟨true, .wait (m + 1), k⟩ := by
      have hlen : 6 + m + 2 = m + 1 + (cmdFrame 0 0 0x95).length := by
        rw [show (cmdFrame 0 0 0x95).length = 7 from rfl]
        omega
      rw [hlen]
      exact sends_wait c k _ (m + 1)
    have hx : c.bus.xchg 0xFF ⟨true, .wait (m + 1), k⟩ = (0x00, ⟨true, .wait m, k⟩) := rfl
    have hzero : isR1 0x00 = true := by decide
    refine ⟨0x00, m, ?_, by decide⟩
    rw [sdCmd, hframe, Bus.poll, hx, if_pos hzero]

lemma xchg_wait (c : SdCard) (k : Core) (m : ℕ) :
    (c.bus.xchg 0xFF ⟨true, .wait m, k⟩).2 = ⟨true, .wait (m - 1), k⟩ := by
  cases m <;> rfl

/-- `sd_init` with a card that is still busy. -/
lemma sdInit_busy (c : SdCard) (k : Core) (n : ℕ) :
    ∃ m, sdInit c.bus ⟨false, .wait (n + 18), k⟩ = ((-1, false), ⟨false, .wait m, k⟩) := by
  obtain ⟨r, m, hcmd, hr⟩ := sdCmd_busy c k n
  have hsel : c.bus.select false ⟨false, .wait (n + 18), k⟩ = ⟨false, .wait (n + 18), k⟩ := rfl
  have hwait : c.bus.sends (List.replicate 16 0xFF) ⟨false, .wait (n + 18), k⟩ =
      ⟨false, .wait (n + 2), k⟩ := sends_wait_released c k _ _
  have hon : c.bus.select true ⟨false, .wait (n + 2), k⟩ = ⟨true, .wait (n + 2), k⟩ := rfl
  have hcmd0 : transact c.bus 0 0 0x95 0 ⟨false, .wait (n + 2), k⟩ =
      ((r, []), ⟨false, .wait (m - 1), k⟩) := by
    simp only [transact, hon, hcmd, Bus.recvs, xchg_wait, release_wait]
  refine ⟨m - 1, ?_⟩
  rw [sdInit, hsel, hwait, hcmd0]
  exact if_pos hr

/-- A card that is ready before the frame of `CMD0` begins. -/
lemma sdInit_soon (c : SdCard) (k : Core) {n : ℕ} (hn : n < 18) :
    sdInit c.bus ⟨false, .wait n, k⟩ = sdInit c.bus ⟨false, .ready [], k⟩ := by
  have hsel : ∀ m, c.bus.select false ⟨false, .wait m, k⟩ = ⟨false, .wait m, k⟩ := by
    intro m
    cases m <;> rfl
  have hready : c.bus.select false ⟨false, .ready [], k⟩ = ⟨false, .ready [], k⟩ := rfl
  have hlen : (List.replicate 16 (0xFF : Byte)).length = 16 := List.length_replicate
  rw [sdInit, sdInit, hsel, hready, sends_wait_released, sends_released, hlen]
  obtain hm | hm : n - 16 = 0 ∨ n - 16 = 1 := by omega
  · rw [hm]
    rfl
  · -- the byte before the frame ends the programming
    have hcmd0 : transact c.bus 0 0 0x95 0 ⟨false, .wait 1, k⟩ =
        transact c.bus 0 0 0x95 0 ⟨false, .ready [], k⟩ := rfl
    rw [hm, hcmd0]

/-- The card tells a driver that asks for it that it is addressed in blocks. -/
def TellsHc (c : SdCard) : Prop := c.hc = true → ∀ i, (c.plan i 58 0).refuse = false

/-- What `sd_init` leaves: no sector has changed, and where it returns 0 the card is ready and the
driver has the right addressing. -/
lemma sdInit_rest (htells : c.TellsHc) {s : State} (h : s.Rests) :
    (sdInit c.bus s).2.Rests ∧ (sdInit c.bus s).2.core.store = s.core.store ∧
      ((sdInit c.bus s).1.1 = 0 → (sdInit c.bus s).1.2 = c.hc ∧
        ∃ k, (sdInit c.bus s).2 = ⟨false, .ready [], k⟩ ∧ (c.hc = false → k.blockLen = 512)) := by
  obtain ⟨n, k, rfl⟩ := h
  by_cases hn : n < 18
  · rw [sdInit_soon c k hn]
    obtain ⟨k', hk', hstore, hok⟩ := sdInit_spec c k
    refine ⟨⟨0, k', hk'⟩, ?_, ?_⟩
    · rw [hk']
      exact hstore
    · intro h0
      obtain ⟨hhc, hlen⟩ := hok (fun hc => htells hc _) h0
      exact ⟨hhc, k', hk', hlen⟩
  · obtain ⟨m, rfl⟩ := Nat.exists_eq_add_of_le' (not_lt.1 hn)
    obtain ⟨m', hm'⟩ := sdInit_busy c k m
    have hne : (-1 : ℤ) ≠ 0 := by decide
    rw [hm']
    exact ⟨⟨m', k, rfl⟩, rfl, fun h0 => absurd h0 hne⟩

/-! ### Sectors -/

/-- The sector that the address of an LBA means: a byte address is a 32-bit product. -/
def home (c : SdCard) (lba : BitVec 32) : BitVec 32 := if c.hc then lba else lba * 512 / 512

lemma home_of_locate {lba l : BitVec 32} (h : c.locate k (sdAddr c.hc lba) = some l) :
    l = c.home lba := by
  rw [locate, sdAddr] at h
  rw [home]
  cases hc : c.hc with
  | true =>
    rw [hc] at h
    simp only [if_true] at h ⊢
    split_ifs at h
    exact (Option.some.inj h).symm
  | false =>
    rw [hc] at h
    simp only [Bool.false_eq_true, if_false] at h ⊢
    split_ifs at h
    exact (Option.some.inj h).symm

/-- The data of a write, with what the card makes of it. -/
lemma writeData_eq (c : SdCard) (k : Core) (lba : BitVec 32) (ans : Answer) (src : Sector) :
    writeData c.bus src.bytes ⟨true, .token lba ans, k⟩ =
      if ans.resp.byte &&& 0x1F = 0x05 then
        (if ans.busy < 65536 then 0 else -3,
          ⟨false, .wait (ans.busy - 65536), { k with store := k.store.write [(lba, src)] }⟩)
      else (-2, ⟨false, .ready [], k⟩) := by
  simp only [writeData, sends_data c k (Sd.length_bytes src), takeBlock]
  by_cases hresp : ans.resp.byte &&& 0x1F = 0x05
  · have hx : ∀ k', c.bus.xchg 0xFF ⟨true, (Phase.wait ans.busy).say [ans.resp.byte], k'⟩ =
        (ans.resp.byte, ⟨true, .wait ans.busy, k'⟩) := fun _ => rfl
    have hne : ¬ ans.resp.byte &&& 0x1F ≠ 0x05 := not_not.2 hresp
    have hFF : ¬ (0xFF : Byte) = 0x00 := by decide
    simp only [if_pos hresp, hx, if_neg hne, poll_wait, sectorAt_bytes]
    by_cases hbusy : ans.busy < 65536
    · simp only [if_pos hbusy, if_neg hFF, Nat.sub_eq_zero_of_le hbusy.le]
      rfl
    · simp only [if_neg hbusy, if_true, release_wait]
  · have hx : c.bus.xchg 0xFF ⟨true, (Phase.ready []).say [ans.resp.byte], k⟩ =
        (ans.resp.byte, ⟨true, .ready [], k⟩) := rfl
    have hne : ans.resp.byte &&& 0x1F ≠ 0x05 := hresp
    simp only [if_neg hresp, hx, if_pos hne]
    rfl

/-- What `CMD24` comes to: the card waits for the block, or it is ready again. -/
lemma command_write_cases (c : SdCard) (k : Core) (arg : BitVec 32) :
    (∃ l, c.locate k arg = some l ∧ c.command 24 arg k =
        (0x00, [], .token l (c.answer 24 k), { count 24 k with app := false })) ∨
      ((c.command 24 arg k).1 ≠ 0x00 ∧ (c.command 24 arg k).2.2.1 = .ready []) := by
  rcases command_cases c 24 arg k with ⟨tail, next, k', ho, h⟩ | ⟨-, h⟩
  · rw [obey] at ho
    split_ifs at ho
    rw [perform_write, locate_count] at ho
    split_ifs at ho with hidle
    obtain ⟨l, hl, hcmd⟩ := Option.map_eq_some_iff.1 ho
    cases hcmd
    refine Or.inl ⟨l, hl, ?_⟩
    rw [h]
    exact congrArg (fun b => (b, _)) (if_neg hidle)
  · refine Or.inr ⟨?_, by rw [h]⟩
    intro h0
    have herr := (c.answer 24 k).error.isError
    rw [h] at h0
    dsimp only at h0
    rw [h0] at herr
    exact herr (by decide)

/-- What `sd_write_block` leaves: no sector has changed but the one that the address means, and
where it returns 0 that one has, and the card is ready. -/
lemma sdWriteBlock_rest (c : SdCard) (k : Core) (lba : BitVec 32) (src : Sector) :
    ∃ n k', (sdWriteBlock c.bus c.hc lba src.bytes ⟨false, .ready [], k⟩).2 = ⟨false, .wait n, k'⟩ ∧
      k'.blockLen = k.blockLen ∧
      (k'.store = k.store ∨ k'.store = k.store.write [(c.home lba, src)]) ∧
      ((sdWriteBlock c.bus c.hc lba src.bytes ⟨false, .ready [], k⟩).1 = 0 →
        n = 0 ∧ k'.store = k.store.write [(c.home lba, src)]) := by
  have hsel : c.bus.select true ⟨false, .ready [], k⟩ = ⟨true, .ready [], k⟩ := rfl
  have hkept := command_kept c k (show (24 : Byte) ≠ 0 by decide) (sdAddr c.hc lba)
  have hlen := hkept.blockLen (by decide)
  have hstore := hkept.store
  have htail := @tail_nil c k 24 (Or.inr (Or.inr rfl)) (sdAddr c.hc lba)
  have h1 : (-1 : ℤ) ≠ 0 := by decide
  have h2 : (-2 : ℤ) ≠ 0 := by decide
  have h3 : (-3 : ℤ) ≠ 0 := by decide
  simp only [sdWriteBlock, hsel, sdCmd_eq c k (show (24 : Byte) < 64 by decide), htail]
  rcases command_write_cases c k (sdAddr c.hc lba) with ⟨l, hl, hr⟩ | ⟨hne, hnext⟩
  · obtain rfl := home_of_locate hl
    rw [hr] at hlen hstore ⊢
    have hok : ¬ (0x00 : Byte) ≠ 0x00 := fun h => h rfl
    simp only [if_neg hok, Phase.say, writeData_eq]
    split_ifs with hresp hbusy
    · refine ⟨_, _, rfl, hlen, Or.inr ?_, fun _ => ⟨Nat.sub_eq_zero_of_le hbusy.le, ?_⟩⟩ <;>
      · dsimp only at hstore ⊢
        rw [hstore]
    · refine ⟨_, _, rfl, hlen, Or.inr ?_, fun h => absurd h h3⟩
      dsimp only at hstore ⊢
      rw [hstore]
    · exact ⟨0, _, rfl, hlen, Or.inl hstore, fun h => absurd h h2⟩
  · simp only [if_pos hne, hnext]
    exact ⟨0, _, rfl, hlen, Or.inl hstore, fun h => absurd h h1⟩

end SdCard

end Neorv32Boot.Spi
