import Neorv32Boot.Lib.Tape
import Neorv32Boot.Sd.Card
import Neorv32Boot.Spi.Driver

/-!
# The driver on any card

The SD driver of `sw/stage2_loader/sd.c` on a bus where anything may come in: any card, no card, or
one that does not keep to the protocol.  Every call returns after a bounded number of bytes with the
card released, and nothing but fill bytes goes out while it is released.
-/

namespace Neorv32Boot.Spi

open Sd (Sector)
open Tape (Stops)

variable (miso : ℕ → Byte)

/-- A call leaves the card released, and puts at most `n` bytes on the record, all of them while the
card was selected. -/
structure Held (n : ℕ) (s s' : Tape Byte) : Prop where
  released : s'.selected = false
  sent : ∃ out : List Byte, s'.sent = s.sent ++ out.map (·, true) ∧ out.length ≤ n

namespace Held

variable {n m : ℕ} {s s' s'' : Tape Byte}

lemma refl (h : s.selected = false) : Held 0 s s :=
  ⟨h, [], by simp, le_rfl⟩

lemma mono (h : Held n s s') (hnm : n ≤ m) : Held m s s' := by
  obtain ⟨hrel, out, hsent, hlen⟩ := h
  exact ⟨hrel, out, hsent, hlen.trans hnm⟩

lemma trans (h : Held n s s') (h' : Held m s' s'') : Held (n + m) s s'' := by
  obtain ⟨-, out, hsent, hlen⟩ := h
  obtain ⟨hrel, out', hsent', hlen'⟩ := h'
  refine ⟨hrel, out ++ out', ?_, ?_⟩
  · rw [hsent', hsent, List.map_append, List.append_assoc]
  · rw [List.length_append]
    exact Nat.add_le_add hlen hlen'

/-- The card is selected, bytes go out, and it is released. -/
lemma session (s : Tape Byte) (out : List Byte) :
    Held out.length s
      ((Tape.bus miso).select false (((Tape.bus miso).select true s).clock out)) :=
  ⟨rfl, out, rfl, le_rfl⟩

end Held

/-! ### Commands -/

/-- `sd_cmd` sends the frame, and polls for the `R1` 16 times at most. -/
lemma sdCmd_tape (cmd : Byte) (arg : BitVec 32) (crc : Byte) (s : Tape Byte) :
    ∃ k, Stops miso isR1 (s.count + 7) 15 k ∧ sdCmd (Tape.bus miso) cmd arg crc s =
      (miso (s.count + 7 + k), s.clock (cmdFrame cmd arg crc ++ List.replicate (k + 1) 0xFF)) := by
  obtain ⟨k, hk, hpoll⟩ := Tape.poll_bus miso 0xFF isR1 15 0xFF (s.clock (cmdFrame cmd arg crc))
  have hcount : (s.clock (cmdFrame cmd arg crc)).count = s.count + 7 := Tape.count_clock s _
  rw [hcount] at hk hpoll
  refine ⟨k, hk, ?_⟩
  rw [sdCmd, Tape.sends_bus, hpoll, Tape.clock_clock]

lemma length_cmdFrame (cmd : Byte) (arg : BitVec 32) (crc : Byte) :
    (cmdFrame cmd arg crc).length = 7 := rfl

/-- The card is selected for one command, and more bytes after its `R1`. -/
lemma Held.command {k n : ℕ} (hk : k ≤ 15) (cmd : Byte) (arg : BitVec 32) (crc : Byte)
    (more : List Byte) (hn : 23 + more.length ≤ n) (s : Tape Byte) :
    Held n s ((Tape.bus miso).select false (((Tape.bus miso).select true s).clock
      (cmdFrame cmd arg crc ++ List.replicate (k + 1) 0xFF ++ more))) := by
  refine (Held.session miso s _).mono ?_
  simp only [List.length_append, length_cmdFrame, List.length_replicate]
  omega

/-- A command of `sd_init` with the rest of its answer. -/
lemma transact_held (cmd : Byte) (arg : BitVec 32) (crc : Byte) (n : ℕ) (s : Tape Byte) :
    Held (24 + n) s (transact (Tape.bus miso) cmd arg crc n s).2 := by
  obtain ⟨k, hk, hcmd⟩ := sdCmd_tape miso cmd arg crc ((Tape.bus miso).select true s)
  have hout : (transact (Tape.bus miso) cmd arg crc n s).2 = (Tape.bus miso).select false
      (((Tape.bus miso).select true s).clock (cmdFrame cmd arg crc ++
        List.replicate (k + 1) 0xFF ++ (List.replicate n 0xFF ++ [0xFF]))) := by
    rw [transact, hcmd]
    simp only [Tape.recvs_bus, Tape.xchg_bus, Tape.clock_clock, List.append_assoc]
  rw [hout]
  refine Held.command miso hk.le cmd arg crc _ ?_ s
  simp only [List.length_append, List.length_replicate, List.length_singleton]
  omega

/-! ### Initialisation -/

/-- The loop of `ACMD41`. -/
lemma acmd41_held (arg : BitVec 32) (tries : ℕ) {s : Tape Byte} (hs : s.selected = false) :
    Held (47 * tries) s (acmd41 (Tape.bus miso) arg tries s).2 := by
  induction tries generalizing s with
  | zero => exact Held.refl hs
  | succ tries ih =>
    obtain ⟨j, hj, happ⟩ := sdCmd_tape miso 55 0 0x65 ((Tape.bus miso).select true s)
    obtain ⟨k, hk, hcmd⟩ := sdCmd_tape miso 41 arg 0x77 (((Tape.bus miso).select true s).clock
      (cmdFrame 55 0 0x65 ++ List.replicate (j + 1) 0xFF))
    -- one round of the loop
    have hround : Held 47 s ((Tape.bus miso).select false ((Tape.bus miso).xchg 0xFF
        (((Tape.bus miso).select true s).clock (cmdFrame 55 0 0x65 ++ List.replicate (j + 1) 0xFF ++
          (cmdFrame 41 arg 0x77 ++ List.replicate (k + 1) 0xFF)))).2) := by
      rw [Tape.xchg_bus, Tape.clock_clock]
      refine (Held.session miso s _).mono ?_
      simp only [List.length_append, length_cmdFrame, List.length_replicate, List.length_singleton]
      have := hj.le
      have := hk.le
      omega
    rw [acmd41, happ]
    simp only [hcmd, Tape.clock_clock]
    split_ifs
    · exact hround.mono (by omega)
    · exact hround.mono (by omega)
    · exact (hround.trans (ih hround.released)).mono (by omega)

lemma readOcr_held (v2Card : Bool) {s : Tape Byte} (hs : s.selected = false) :
    Held 28 s (readOcr (Tape.bus miso) v2Card s).2 := by
  rw [readOcr]
  split_ifs
  · exact transact_held miso 58 0 0xFD 4 s
  · exact (Held.refl hs).mono (by omega)

lemma setBlockLen_held (isHc : Bool) {s : Tape Byte} (hs : s.selected = false) :
    Held 24 s (setBlockLen (Tape.bus miso) isHc s).2 := by
  rw [setBlockLen]
  split_ifs
  · exact (Held.refl hs).mono (by omega)
  · exact transact_held miso 16 512 0x15 0 s

lemma startUp_held (v2Card : Bool) {s : Tape Byte} (hs : s.selected = false) :
    Held 94052 s (startUp (Tape.bus miso) v2Card s).2 := by
  have hup := acmd41_held miso (if v2Card then 0x40000000 else 0) 2000 hs
  have hocr := readOcr_held miso v2Card hup.released
  have hlen := fun isHc => setBlockLen_held miso isHc hocr.released
  rw [startUp]
  dsimp only
  by_cases hzero : (acmd41 (Tape.bus miso) (if v2Card then 0x40000000 else 0) 2000 s).1 ≠ 0
  · rw [if_pos hzero]
    exact hup.mono (by omega)
  · rw [if_neg hzero]
    exact ((hup.trans hocr).trans (hlen _)).mono (by omega)

/-- `sd_init` after the power-up clocks. -/
lemma sdInit_held (s : Tape Byte) :
    Held 94104 (((Tape.bus miso).select false s).clock (List.replicate 16 0xFF))
      (sdInit (Tape.bus miso) s).2 := by
  rw [sdInit, Tape.sends_bus]
  have hcmd0 := transact_held miso 0 0 0x95 0
    (((Tape.bus miso).select false s).clock (List.replicate 16 0xFF))
  have hcmd8 := transact_held miso 8 0x1AA 0x87 4 (transact (Tape.bus miso) 0 0 0x95 0
    (((Tape.bus miso).select false s).clock (List.replicate 16 0xFF))).2
  dsimp only
  split_ifs
  · exact hcmd0.mono (by omega)
  · exact ((hcmd0.trans hcmd8).trans (startUp_held miso _ hcmd8.released)).mono (by omega)

/-! ### Reading -/

/-- So many bytes that come in, from byte `n` on. -/
def bytesFrom (n len : ℕ) : List Byte := (List.range len).map fun i => miso (n + i)

/-- After the command: the loop for the data token, and the data. -/
lemma readData_tape (dst : List Byte) (s : Tape Byte) :
    ∃ t, Stops miso (· == 0xFE) s.count 65535 t ∧
      ((miso (s.count + t) ≠ 0xFE ∧ readData (Tape.bus miso) dst s =
          ((-2, dst), (Tape.bus miso).select false (s.clock (List.replicate (t + 1) 0xFF)))) ∨
        (miso (s.count + t) = 0xFE ∧ readData (Tape.bus miso) dst s =
          ((0, bytesFrom miso (s.count + (t + 1)) 512 ++ dst.drop 512),
            (Tape.bus miso).select false (s.clock (List.replicate (t + 1) 0xFF ++
              List.replicate 512 0xFF ++ [0xFF, 0xFF, 0xFF]))))) := by
  obtain ⟨t, ht, hpoll⟩ := Tape.poll_bus miso 0xFF (· == 0xFE) 65535 0xFF s
  refine ⟨t, ht, ?_⟩
  rw [readData, hpoll]
  by_cases htok : miso (s.count + t) = 0xFE
  · refine Or.inr ⟨htok, ?_⟩
    rw [if_neg (not_not_intro htok)]
    simp only [Tape.recvs_bus, Tape.sends_bus, Tape.clock_clock, Tape.count_clock,
      List.length_replicate, List.append_assoc]
    rfl
  · refine Or.inl ⟨htok, ?_⟩
    rw [if_pos htok]

/-- The state when `sd_cmd` has returned. -/
lemma count_command (cmd : Byte) (arg : BitVec 32) (crc : Byte) (s : Tape Byte) (k : ℕ) :
    (((Tape.bus miso).select true s).clock
      (cmdFrame cmd arg crc ++ List.replicate (k + 1) 0xFF)).count = s.count + 7 + (k + 1) := by
  rw [Tape.count_clock, List.length_append, length_cmdFrame, List.length_replicate, ← Nat.add_assoc]
  rfl

/-- `sd_read_block`: the `R1` of its command decides, and then the first byte of the data. -/
lemma sdReadBlock_tape (isHc : Bool) (lba : BitVec 32) (dst : List Byte) (s : Tape Byte) :
    ∃ k, Stops miso isR1 (s.count + 7) 15 k ∧
      Held 66074 s (sdReadBlock (Tape.bus miso) isHc lba dst s).2 ∧
      ((miso (s.count + 7 + k) ≠ 0x00 ∧
          (sdReadBlock (Tape.bus miso) isHc lba dst s).1 = (-1, dst)) ∨
        (miso (s.count + 7 + k) = 0x00 ∧ ∃ t,
          Stops miso (· == 0xFE) (s.count + 7 + (k + 1)) 65535 t ∧
          ((miso (s.count + 7 + (k + 1) + t) ≠ 0xFE ∧
              (sdReadBlock (Tape.bus miso) isHc lba dst s).1 = (-2, dst)) ∨
            (miso (s.count + 7 + (k + 1) + t) = 0xFE ∧
              (sdReadBlock (Tape.bus miso) isHc lba dst s).1 =
                (0, bytesFrom miso (s.count + 7 + (k + 1) + (t + 1)) 512 ++ dst.drop 512))))) := by
  obtain ⟨k, hk, hcmd⟩ := sdCmd_tape miso 17 (sdAddr isHc lba) 0xFF ((Tape.bus miso).select true s)
  have hkle := hk.le
  -- what is on the record when the command was answered
  obtain ⟨front, hfront⟩ : ∃ front, front = ((Tape.bus miso).select true s).clock
    (cmdFrame 17 (sdAddr isHc lba) 0xFF ++ List.replicate (k + 1) 0xFF) := ⟨_, rfl⟩
  have hblock : sdReadBlock (Tape.bus miso) isHc lba dst s =
      if miso (s.count + 7 + k) ≠ 0x00 then ((-1, dst), (Tape.bus miso).select false front)
      else readData (Tape.bus miso) dst front := by
    rw [sdReadBlock, hcmd, ← hfront]
    rfl
  refine ⟨k, hk, ?_⟩
  rw [hblock]
  by_cases hr1 : miso (s.count + 7 + k) = 0x00
  · obtain ⟨t, ht, hread⟩ := readData_tape miso dst front
    have htle := ht.le
    rw [hfront, count_command] at ht hread
    rw [if_neg (not_not_intro hr1), hfront]
    rcases hread with ⟨htok, hread⟩ | ⟨htok, hread⟩
    · rw [hread, Tape.clock_clock]
      refine ⟨Held.command miso hkle _ _ _ _ ?_ s, Or.inr ⟨hr1, t, ht, Or.inl ⟨htok, rfl⟩⟩⟩
      rw [List.length_replicate]
      omega
    · rw [hread, Tape.clock_clock]
      refine ⟨Held.command miso hkle _ _ _ _ ?_ s, Or.inr ⟨hr1, t, ht, Or.inr ⟨htok, rfl⟩⟩⟩
      simp only [List.length_append, List.length_replicate, List.length_cons, List.length_nil]
      omega
  · rw [if_pos hr1, hfront]
    refine ⟨?_, Or.inl ⟨hr1, rfl⟩⟩
    simpa only [List.append_nil] using
      Held.command miso hkle 17 (sdAddr isHc lba) 0xFF [] (Nat.le_add_left 23 66051) s

/-- What `sd_read_block` returns, and what it leaves at `dst`, when byte `k` of the 16 behind the
command is its `R1`. -/
structure Reads (s : Tape Byte) (dst : List Byte) (r : (ℤ × List Byte) × Tape Byte) (k : ℕ) :
    Prop where
  r1 : Stops miso isR1 (s.count + 7) 15 k
  held : Held 66074 s r.2
  zero_iff : r.1.1 = 0 ↔ miso (s.count + 7 + k) = 0x00 ∧
    ∃ t < 65536, miso (s.count + 7 + (k + 1) + t) = 0xFE
  data : r.1.1 = 0 → ∃ t < 65536, miso (s.count + 7 + (k + 1) + t) = 0xFE ∧
    (∀ j < t, miso (s.count + 7 + (k + 1) + j) ≠ 0xFE) ∧
    r.1.2 = bytesFrom miso (s.count + 7 + (k + 1) + (t + 1)) 512 ++ dst.drop 512
  unchanged : r.1.1 ≠ 0 → r.1.2 = dst

lemma sdReadBlock_reads (isHc : Bool) (lba : BitVec 32) (dst : List Byte) (s : Tape Byte) :
    ∃ k, Reads miso s dst (sdReadBlock (Tape.bus miso) isHc lba dst s) k := by
  obtain ⟨k, hk, hheld, hr⟩ := sdReadBlock_tape miso isHc lba dst s
  refine ⟨k, ?_⟩
  rcases hr with ⟨hr1, hr⟩ | ⟨hr1, t, ht, hr⟩
  · refine ⟨hk, hheld, ?_, fun h => ?_, fun _ => by rw [hr]⟩
    · rw [hr]
      exact iff_of_false (by norm_num) fun h => hr1 h.1
    · rw [hr] at h
      norm_num at h
  · have htok := ht.wanted_iff
    simp only [beq_iff_eq] at htok
    rcases hr with ⟨hne, hr⟩ | ⟨heq, hr⟩
    · refine ⟨hk, hheld, ?_, fun h => ?_, fun _ => by rw [hr]⟩
      · rw [hr]
        exact iff_of_false (by norm_num) fun h => hne (htok.2 h.2)
      · rw [hr] at h
        norm_num at h
    · refine ⟨hk, hheld, ?_, fun _ => ⟨t, Nat.lt_succ_of_le ht.le, heq, ?_, by rw [hr]⟩, ?_⟩
      · rw [hr]
        exact iff_of_true rfl ⟨hr1, htok.1 heq⟩
      · intro j hj
        simpa using ht.before j hj
      · rw [hr]
        exact fun h => absurd rfl h

/-! ### Writing -/

/-- The start token, the data and the bytes for its CRC. -/
def dataFrame (src : List Byte) : List Byte := [0xFF, 0xFE] ++ src ++ [0xFF, 0xFF]

/-- After the command: the data goes out, its response comes in, and the loop while the card is
busy. -/
lemma writeData_tape (src : List Byte) (s : Tape Byte) :
    ∃ m ≤ 65537, (writeData (Tape.bus miso) src s).2 =
        (if (writeData (Tape.bus miso) src s).1 = 0 then
          ((Tape.bus miso).select false
            (s.clock (dataFrame src ++ List.replicate m 0xFF))).clock [0xFF]
        else (Tape.bus miso).select false (s.clock (dataFrame src ++ List.replicate m 0xFF))) ∧
      ((writeData (Tape.bus miso) src s).1 = 0 ↔
        miso (s.count + (dataFrame src).length) &&& 0x1F = 0x05 ∧
          ∃ t < 65536, miso (s.count + (dataFrame src).length + 1 + t) ≠ 0x00) := by
  have hframe : (Tape.bus miso).sends ([0xFF, 0xFE] ++ src ++ [0xFF, 0xFF]) s =
      s.clock (dataFrame src) := Tape.sends_bus miso _ s
  rw [writeData, hframe]
  simp only [Tape.xchg_bus, Tape.clock_clock, Tape.count_clock]
  by_cases hresp : miso (s.count + (dataFrame src).length) &&& 0x1F = 0x05
  · obtain ⟨t, ht, hpoll⟩ := Tape.poll_bus miso 0xFF (· != 0x00) 65535 0x00
      (s.clock (dataFrame src ++ [0xFF]))
    have hcount : (s.clock (dataFrame src ++ [0xFF])).count =
        s.count + (dataFrame src).length + 1 := by
      rw [Tape.count_clock, List.length_append, List.length_singleton, Nat.add_assoc]
    rw [hcount] at ht hpoll
    have hbusy := ht.wanted_iff
    simp only [bne_iff_ne, ne_eq] at hbusy
    have hfill : dataFrame src ++ List.replicate (t + 2) 0xFF =
        dataFrame src ++ [0xFF] ++ List.replicate (t + 1) 0xFF := by
      rw [List.append_assoc]
      rfl
    have hle := ht.le
    refine ⟨t + 2, by omega, ?_⟩
    rw [if_neg (not_not_intro hresp), hpoll, hfill, Tape.clock_clock]
    by_cases hzero : miso (s.count + (dataFrame src).length + 1 + t) = 0x00
    · rw [if_pos hzero]
      exact ⟨rfl, iff_of_false (by norm_num) fun h => hbusy.2 h.2 hzero⟩
    · rw [if_neg hzero]
      exact ⟨rfl, iff_of_true rfl ⟨hresp, hbusy.1 hzero⟩⟩
  · refine ⟨1, by omega, ?_⟩
    rw [if_pos hresp]
    exact ⟨rfl, iff_of_false (by norm_num) fun h => hresp h.1⟩

/-- What `sd_write_block` returns, and which bytes it puts on the record, when byte `k` of the 16
behind the command is its `R1`. -/
structure Writes (addr : BitVec 32) (src : List Byte) (s : Tape Byte) (r : ℤ × Tape Byte) (k : ℕ) :
    Prop where
  r1 : Stops miso isR1 (s.count + 7) 15 k
  released : r.2.selected = false
  refused : miso (s.count + 7 + k) ≠ 0x00 → r.1 = -1 ∧ r.2.sent =
    s.sent ++ (cmdFrame 24 addr 0xFF ++ List.replicate (k + 1) 0xFF).map (·, true)
  sent : miso (s.count + 7 + k) = 0x00 → ∃ m ≤ 65537, r.2.sent =
    s.sent ++ (cmdFrame 24 addr 0xFF ++ List.replicate (k + 1) 0xFF ++
      (dataFrame src ++ List.replicate m 0xFF)).map (·, true) ++
        (if r.1 = 0 then [(0xFF, false)] else [])
  zero_iff : r.1 = 0 ↔ miso (s.count + 7 + k) = 0x00 ∧
    miso (s.count + 7 + (k + 1) + (dataFrame src).length) &&& 0x1F = 0x05 ∧
    ∃ t < 65536, miso (s.count + 7 + (k + 1) + (dataFrame src).length + 1 + t) ≠ 0x00

lemma sdWriteBlock_writes (isHc : Bool) (lba : BitVec 32) (src : List Byte) (s : Tape Byte) :
    ∃ k, Writes miso (sdAddr isHc lba) src s (sdWriteBlock (Tape.bus miso) isHc lba src s) k := by
  obtain ⟨k, hk, hcmd⟩ := sdCmd_tape miso 24 (sdAddr isHc lba) 0xFF ((Tape.bus miso).select true s)
  obtain ⟨front, hfront⟩ : ∃ front, front = ((Tape.bus miso).select true s).clock
    (cmdFrame 24 (sdAddr isHc lba) 0xFF ++ List.replicate (k + 1) 0xFF) := ⟨_, rfl⟩
  have hblock : sdWriteBlock (Tape.bus miso) isHc lba src s =
      if miso (s.count + 7 + k) ≠ 0x00 then (-1, (Tape.bus miso).select false front)
      else writeData (Tape.bus miso) src front := by
    rw [sdWriteBlock, hcmd, ← hfront]
    rfl
  have hcount : front.count = s.count + 7 + (k + 1) := by rw [hfront, count_command]
  refine ⟨k, ?_⟩
  rw [hblock]
  by_cases hr1 : miso (s.count + 7 + k) = 0x00
  · obtain ⟨m, hm, hsent, hzero⟩ := writeData_tape miso src front
    rw [if_neg (not_not_intro hr1)]
    rw [hcount] at hzero
    refine ⟨hk, ?_, fun h => absurd hr1 h, fun _ => ⟨m, hm, ?_⟩, ?_⟩
    · rw [hsent]
      split_ifs <;> rfl
    · rw [hsent, hfront]
      split_ifs
      · simp [Tape.clock, Tape.bus]
      · simp [Tape.clock, Tape.bus]
    · rw [hzero]
      exact ⟨fun h => ⟨hr1, h⟩, fun h => h.2⟩
  · rw [if_pos hr1, hfront]
    exact ⟨hk, rfl, fun _ => ⟨rfl, rfl⟩, fun h => absurd h hr1,
      iff_of_false (by norm_num) fun h => hr1 h.1⟩

/-! ### Any card -/

/-- **The driver on any card.**  Whatever comes in, `sd_init`, `sd_read_block` and `sd_write_block`
return after a bounded number of bytes with the card released, and but for the power-up clocks and
the byte after a successful write, all that goes out does so while it is selected.  A sector is read
exactly when the `R1` is zero and a data token comes within 65536 bytes, and is then what follows
the first one; otherwise the buffer is left alone.  A sector goes out only after an `R1` of zero,
and is written exactly when the card accepts it and is busy for less than 65536 bytes. -/
theorem any_card (s : Tape Byte) :
    (∃ out : List Byte, (sdInit (Tape.bus miso) s).2.sent =
        s.sent ++ List.replicate 16 (0xFF, false) ++ out.map (·, true) ∧
      out.length ≤ 94104 ∧ (sdInit (Tape.bus miso) s).2.selected = false) ∧
    (∀ (isHc : Bool) (lba : BitVec 32) (dst : List Byte),
      ∃ k, Reads miso s dst (sdReadBlock (Tape.bus miso) isHc lba dst s) k) ∧
    ∀ (isHc : Bool) (lba : BitVec 32) (src : Sector), ∃ k,
      Writes miso (sdAddr isHc lba) src.bytes s
        (sdWriteBlock (Tape.bus miso) isHc lba src.bytes s) k := by
  refine ⟨?_, fun isHc lba dst => sdReadBlock_reads miso isHc lba dst s,
    fun isHc lba src => sdWriteBlock_writes miso isHc lba src.bytes s⟩
  obtain ⟨hrel, out, hsent, hlen⟩ := sdInit_held miso s
  exact ⟨out, hsent, hlen, hrel⟩

end Neorv32Boot.Spi
