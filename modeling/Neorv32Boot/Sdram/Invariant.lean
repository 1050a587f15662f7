import Neorv32Boot.Sdram.Chip

/-!
# What holds in every reachable state of the controller and the chip

The controller keeps its idea of the open row in `row_open`, `open_ba` and `open_row`; the chip
has the rows that are really open.  `RowsInv` ties the two in each state of the FSM, `PipeInv`
says which words are in the read pipeline, and `Inv` collects these with the facts they need.
All of them hold under every sequence of inputs.
-/

namespace Neorv32Boot.Sdram

/-! ### Rows -/

/-- What a state of the FSM tells about the open rows. -/
inductive RowPhase
  /-- No row is open. -/
  | closed
  /-- The ACT of the latched row has been given, `row_open` is not yet set. -/
  | opening
  /-- The latched row is open. -/
  | latched
  /-- `row_open` says whether a row is open. -/
  | tracked
  /-- A row is open, and is about to be closed. -/
  | closing
deriving DecidableEq

/-- The row phase of a state. -/
def State.rowPhase : State → RowPhase
  | .initWait | .initPre | .initPreW | .initAr1 | .initAr1W | .initAr2 | .initAr2W
  | .initLmr | .initLmrW | .refPreW | .refAr | .refArW | .act | .preOldW => .closed
  | .actW => .opening
  | .idle | .refPre => .tracked
  | .preOld => .closing
  | .rdCmd0 | .rdNop1 | .rdCmd1 | .rdWait | .rdCap0 | .rdGap | .rdCap1 | .rdPreW
  | .wrCmd0 | .wrCmd1 | .wrRec | .done | .doneW => .latched

/-- The states before `initialized` is set. -/
def State.isInit : State → Bool
  | .initWait | .initPre | .initPreW | .initAr1 | .initAr1W | .initAr2 | .initAr2W
  | .initLmr | .initLmrW => true
  | _ => false

namespace Chip

/-- All banks are precharged. -/
def AllClosed (c : Chip) : Prop := ∀ b, c.bankActive b = false

/-- `ba` is the one active bank, and `row` is its row. -/
structure OnlyOpen (c : Chip) (ba : BitVec 2) (row : BitVec 13) : Prop where
  active : ∀ b, c.bankActive b = true ↔ b = ba
  row_eq : c.bankRow ba = row

variable {c c' : Chip} {ba : BitVec 2} {row : BitVec 13}

lemma OnlyOpen.congr (h : c.OnlyOpen ba row) (ha : c'.bankActive = c.bankActive)
    (hr : c'.bankRow = c.bankRow) : c'.OnlyOpen ba row := by
  constructor
  · intro b
    rw [ha]
    exact h.active b
  · rw [hr]
    exact h.row_eq

lemma OnlyOpen.bankActive_self (h : c.OnlyOpen ba row) : c.bankActive ba = true :=
  (h.active ba).2 rfl

/-- Activating a bank when all are precharged. -/
lemma AllClosed.onlyOpen_act (h : c.AllClosed) (ha : c'.bankActive = set c.bankActive ba true)
    (hr : c'.bankRow = set c.bankRow ba row) : c'.OnlyOpen ba row := by
  constructor
  · intro b
    rw [ha]
    by_cases hb : b = ba
    · simp [hb]
    · simp [set_of_ne _ _ hb, h b, hb]
  · simp [hr]

/-- Precharging the one active bank. -/
lemma OnlyOpen.allClosed_precharge (h : c.OnlyOpen ba row)
    (ha : c'.bankActive = set c.bankActive ba false) : c'.AllClosed := by
  intro b
  rw [ha]
  by_cases hb : b = ba
  · simp [hb]
  · rw [set_of_ne _ _ hb, Bool.eq_false_iff]
    exact fun hc => hb ((h.active b).1 hc)

end Chip

/-- `row_open`, `open_ba` and `open_row` against the banks of the chip. -/
def RowsInv (d : Dut) : Prop :=
  match d.ctrl.state.rowPhase with
  | .closed => d.ctrl.rowOpen = false ∧ d.chip.AllClosed
  | .opening => d.ctrl.rowOpen = false ∧
      d.chip.OnlyOpen (addrBa d.ctrl.addrLat) (addrRow d.ctrl.addrLat)
  | .latched => d.ctrl.rowOpen = true ∧ d.ctrl.openBa = addrBa d.ctrl.addrLat ∧
      d.ctrl.openRow = addrRow d.ctrl.addrLat ∧ d.chip.OnlyOpen d.ctrl.openBa d.ctrl.openRow
  | .tracked => (d.ctrl.rowOpen = true → d.chip.OnlyOpen d.ctrl.openBa d.ctrl.openRow) ∧
      (d.ctrl.rowOpen = false → d.chip.AllClosed)
  | .closing => d.ctrl.rowOpen = true ∧ d.chip.OnlyOpen d.ctrl.openBa d.ctrl.openRow

/-! ### The read pipeline -/

/-- The 16-bit word at the low column of an address. -/
def Cells.lo (m : Cells) (a : BitVec 25) : BitVec 16 := m (addrBa a) (addrRow a) (addrColLo a)

/-- The 16-bit word at the high column of an address. -/
def Cells.hi (m : Cells) (a : BitVec 25) : BitVec 16 := m (addrBa a) (addrRow a) (addrColHi a)

/-- The five stages of the read pipeline, the driving one first. -/
def Chip.pipe (c : Chip) : List (Option (BitVec 16)) := [c.rd0, c.rd1, c.rd2, c.rd3, c.rd4]

/-- The content of the pipeline in each state: READ loads stage 3, and every clock shifts. -/
def State.pipe (s : State) (lo hi : BitVec 16) : List (Option (BitVec 16)) :=
  match s with
  | .rdNop1 => [none, none, none, some lo, none]
  | .rdCmd1 => [none, none, some lo, none, none]
  | .rdWait => [none, some lo, none, some hi, none]
  | .rdCap0 => [some lo, none, some hi, none, none]
  | .rdGap => [none, some hi, none, none, none]
  | .rdCap1 => [some hi, none, none, none, none]
  | _ => [none, none, none, none, none]

/-- The words of the latched address are in the pipeline, and nothing else is. -/
def PipeInv (d : Dut) : Prop :=
  d.chip.pipe = d.ctrl.state.pipe (d.chip.mem.lo d.ctrl.addrLat) (d.chip.mem.hi d.ctrl.addrLat)

/-- The words that have been captured. -/
def CaptureInv (d : Dut) : Prop :=
  match d.ctrl.state with
  | .rdGap | .rdCap1 => d.ctrl.dataLo = d.chip.mem.lo d.ctrl.addrLat
  | .rdPreW | .done | .doneW => d.ctrl.isWrite = false →
      d.ctrl.rdata = d.chip.mem.hi d.ctrl.addrLat ++ d.chip.mem.lo d.ctrl.addrLat
  | _ => True

/-- `is_write` in the states that it leads to. -/
def WriteInv (c : Ctrl) : Prop :=
  match c.state with
  | .rdCmd0 | .rdNop1 | .rdCmd1 | .rdWait | .rdCap0 | .rdGap | .rdCap1 | .rdPreW =>
      c.isWrite = false
  | .wrCmd0 | .wrCmd1 | .wrRec => c.isWrite = true
  | _ => True

/-- The controller drives `sdram_dq` only from the first WRITE to the first recovery clock. -/
def DriveInv (c : Ctrl) : Prop :=
  (c.dqOe = true → c.state = .wrCmd1 ∨ c.state = .wrRec) ∧ (c.state = .wrCmd1 → c.dqOe = true)

/-- The invariant of the controller with the chip. -/
structure Inv (d : Dut) : Prop where
  init : d.ctrl.initialized = !d.ctrl.state.isInit
  rows : RowsInv d
  write : WriteInv d.ctrl
  drive : DriveInv d.ctrl
  pipe : PipeInv d
  capture : CaptureInv d
  running : d.chip.finished = false

/-! ### One clock -/

/-- The low half of a word is written, under the low strobes. -/
def Cells.storeLo (m : Cells) (a : BitVec 25) (w : BitVec 32) (s : BitVec 4) : Cells :=
  set m (addrBa a) (set (m (addrBa a)) (addrRow a)
    (set (m (addrBa a) (addrRow a)) (addrColLo a)
      (maskWrite (m.lo a) (w.extractLsb' 0 16) (~~~ s.extractLsb' 0 2))))

/-- The high half of a word is written, under the high strobes. -/
def Cells.storeHi (m : Cells) (a : BitVec 25) (w : BitVec 32) (s : BitVec 4) : Cells :=
  set m (addrBa a) (set (m (addrBa a)) (addrRow a)
    (set (m (addrBa a) (addrRow a)) (addrColHi a)
      (maskWrite (m.hi a) (w.extractLsb' 16 16) (~~~ s.extractLsb' 2 2))))

/-- What one clock does to the chip, by the state of the controller. -/
def Dut.chipNext (d : Dut) : Chip :=
  match d.ctrl.state with
  | .initPre | .refPre => { d.chip.shift with bankActive := fun _ => false }
  | .preOld => { d.chip.shift with bankActive := set d.chip.bankActive d.ctrl.openBa false }
  | .act => { d.chip.shift with
      bankActive := set d.chip.bankActive (addrBa d.ctrl.addrLat) true
      bankRow := set d.chip.bankRow (addrBa d.ctrl.addrLat) (addrRow d.ctrl.addrLat) }
  | .rdCmd0 => { d.chip.shift with rd3 := some (d.chip.mem.lo d.ctrl.addrLat) }
  | .rdCmd1 => { d.chip.shift with rd3 := some (d.chip.mem.hi d.ctrl.addrLat) }
  | .wrCmd0 => { d.chip.shift with
      mem := d.chip.mem.storeLo d.ctrl.addrLat d.ctrl.wdataLat d.ctrl.wstrbLat }
  | .wrCmd1 => { d.chip.shift with
      mem := d.chip.mem.storeHi d.ctrl.addrLat d.ctrl.wdataLat d.ctrl.wstrbLat }
  | _ => d.chip.shift

lemma Inv.latched_bank {d : Dut} (h : Inv d) (hs : d.ctrl.state.rowPhase = .latched) :
    d.chip.bankActive (addrBa d.ctrl.addrLat) = true ∧
      d.chip.bankRow (addrBa d.ctrl.addrLat) = addrRow d.ctrl.addrLat := by
  have hr := h.rows
  simp only [RowsInv, hs] at hr
  obtain ⟨-, hba, hrow, ho⟩ := hr
  rw [hba, hrow] at ho
  exact ⟨ho.bankActive_self, ho.row_eq⟩

/-- No READ is under way when a WRITE is given. -/
lemma Inv.rd0_none {d : Dut} (h : Inv d) (hs : d.ctrl.state = .wrCmd0 ∨ d.ctrl.state = .wrCmd1) :
    d.chip.rd0 = none := by
  have hp := h.pipe
  rcases hs with hs | hs <;>
    simp only [PipeInv, hs, State.pipe, Chip.pipe, List.cons.injEq] at hp <;>
    exact hp.1

open Ctrl Chip in
/-- In every reachable state, a clock does to the chip what `chipNext` says: the command is
legal, and the words written are those that the controller drives. -/
theorem Inv.next_chip {d : Dut} (h : Inv d) (i : DutIn) : (d.next i).chip = d.chipNext := by
  have hr := h.rows
  have hl := h.latched_bank
  have hz := h.rd0_none
  have hd := h.drive
  rw [Dut.next_chip, Dut.next_ctrl, Dut.chipNext]
  cases hst : d.ctrl.state <;>
    simp only [RowsInv, hst, State.rowPhase, forall_const] at hr hl hz <;>
    simp only [Ctrl.next, mainFsm, hst, waitCnt, accept, Ctrl.pins] <;> (try split_ifs)
  case initPre | refPre => exact sample_prechargeAll (a10_setA10 _ _)
  case preOld => exact sample_precharge (a10_setA10 _ _)
  case act => exact sample_act
  case initAr1 | initAr2 | refAr => exact sample_refresh hr.2
  case rdCmd0 | rdCmd1 =>
    obtain ⟨hb, hrow⟩ := hl
    rw [sample_read (a10_col _) hb, hrow, extract_col]
    rfl
  case wrCmd0 | wrCmd1 =>
    obtain ⟨hb, hrow⟩ := hl
    rw [sample_write (a10_col _) hb, hrow, extract_col, Dut.sdramDq_ctrl]
    · simp [Dut.rise, next, mainFsm, hst]
      rfl
    · exact hz (by simp)
    · simp [Dut.rise, next, mainFsm, hst]
      try exact hd.2 hst
  -- in the other states the command is NOP, INHIBIT or LMR
  all_goals rfl

/-! ### The invariant is inductive -/

open Ctrl in
lemma init_next {d : Dut} (i : DutIn) (h : d.ctrl.initialized = !d.ctrl.state.isInit) :
    (d.next i).ctrl.initialized = !(d.next i).ctrl.state.isInit := by
  rw [Dut.next_ctrl]
  cases hst : d.ctrl.state <;> simp only [hst, State.isInit] at h <;>
    simp only [next, mainFsm, hst, waitCnt, accept] <;> (try split_ifs) <;> simp [State.isInit, h]

open Ctrl in
lemma write_next (c : Ctrl) (p : Ports) (h : WriteInv c) : WriteInv (c.next p) := by
  cases hst : c.state <;> simp only [WriteInv, hst] at h <;>
    simp only [next, mainFsm, hst, waitCnt, accept, WriteInv] <;> (try split_ifs) <;> simp_all

open Ctrl in
lemma drive_next (c : Ctrl) (p : Ports) (h : DriveInv c) : DriveInv (c.next p) := by
  cases hst : c.state <;> simp only [DriveInv, hst] at h <;>
    simp only [next, mainFsm, hst, waitCnt, accept, DriveInv] <;> (try split_ifs) <;> simp_all

open Ctrl Chip in
lemma Inv.rows_next {d : Dut} (h : Inv d) (i : DutIn) : RowsInv (d.next i) := by
  have hr := h.rows
  unfold RowsInv at hr ⊢
  rw [h.next_chip, Dut.next_ctrl, Dut.chipNext]
  cases hst : d.ctrl.state <;> simp only [hst, State.rowPhase] at hr <;>
    simp only [next, mainFsm, hst, waitCnt, accept]
  -- no row is open before and after
  case initWait | initPreW | initAr1 | initAr1W | initAr2 | initAr2W | initLmr | refPreW | refAr |
      preOldW =>
    (try split_ifs) <;> exact hr
  case initPre => exact ⟨hr.1, fun _ => rfl⟩
  case refPre => exact ⟨trivial, fun _ => rfl⟩
  -- the two ways into `S_IDLE` with no row open
  case initLmrW | refArW =>
    split_ifs
    · exact ⟨fun ho => absurd (hr.1.symm.trans ho) (by simp), fun _ => hr.2⟩
    · exact hr
  case act => exact ⟨hr.1, hr.2.onlyOpen_act rfl rfl⟩
  case actW =>
    split_ifs
    · exact ⟨rfl, rfl, rfl, hr.2.congr rfl rfl⟩
    · exact ⟨rfl, rfl, rfl, hr.2.congr rfl rfl⟩
    · exact ⟨hr.1, hr.2.congr rfl rfl⟩
  case preOld => exact ⟨trivial, hr.2.allClosed_precharge rfl⟩
  case doneW =>
    exact ⟨fun _ => hr.2.2.2.congr rfl rfl, fun ho => absurd (hr.1.symm.trans ho) (by simp)⟩
  case idle =>
    obtain ⟨ho, hc⟩ := hr
    split_ifs with hreq hsel hhit hw hopen
    · exact ⟨fun h => (ho h).congr rfl rfl, hc⟩
    · exact ⟨hhit.1, hhit.2.1.symm, hhit.2.2.symm, (ho hhit.1).congr rfl rfl⟩
    · exact ⟨hhit.1, hhit.2.1.symm, hhit.2.2.symm, (ho hhit.1).congr rfl rfl⟩
    · exact ⟨hopen, (ho hopen).congr rfl rfl⟩
    · exact ⟨by simpa using hopen, hc (by simpa using hopen)⟩
    · exact ⟨fun h => (ho h).congr rfl rfl, hc⟩
  -- the latched row stays open during a transaction
  all_goals
    (try split_ifs) <;> exact ⟨hr.1, hr.2.1, hr.2.2.1, hr.2.2.2.congr rfl rfl⟩

lemma Inv.pipe_next {d : Dut} (h : Inv d) (i : DutIn) : PipeInv (d.next i) := by
  have hp := h.pipe
  unfold PipeInv at hp ⊢
  rw [h.next_chip, Dut.next_ctrl, Dut.chipNext]
  cases hst : d.ctrl.state <;> simp only [hst, State.pipe, Chip.pipe, List.cons.injEq] at hp <;>
    simp only [Ctrl.next, Ctrl.mainFsm, hst, Ctrl.waitCnt, Ctrl.accept] <;> (try split_ifs) <;>
    simp [State.pipe, Chip.pipe, Chip.shift, hp]

/-- A capture reads the word that the chip drives. -/
lemma Inv.capture_next {d : Dut} (h : Inv d) (i : DutIn) : CaptureInv (d.next i) := by
  have hc := h.capture
  have hp := h.pipe
  have hd := h.drive.1
  have hw := h.write
  unfold CaptureInv at hc ⊢
  rw [h.next_chip, Dut.next_ctrl, Dut.chipNext]
  cases hst : d.ctrl.state <;>
    simp only [PipeInv, WriteInv, hst, State.pipe, Chip.pipe, List.cons.injEq] at hp hw hc <;>
    simp only [Ctrl.next, Ctrl.mainFsm, hst, Ctrl.waitCnt, Ctrl.accept]
  case rdCap0 =>
    exact Dut.sdramDq_chip hp.1 (by simpa [hst] using hd)
  case rdCap1 =>
    intro _
    rw [Dut.sdramDq_chip hp.1 (by simpa [hst] using hd), hc]
    rfl
  case rdGap => exact hc
  case wrRec => split_ifs <;> simp [hw]
  case rdPreW | done => (try split_ifs) <;> exact hc
  all_goals (try split_ifs) <;> trivial

lemma Inv.running_next {d : Dut} (h : Inv d) (i : DutIn) : (d.next i).chip.finished = false := by
  rw [h.next_chip, Dut.chipNext]
  split <;> exact h.running

/-- The invariant holds under reset. -/
lemma inv_reset (mem : Cells) : Inv (Dut.reset mem) where
  init := rfl
  rows := ⟨rfl, fun _ => rfl⟩
  write := trivial
  drive := by simp [DriveInv, Dut.reset, Ctrl.reset]
  pipe := rfl
  capture := trivial
  running := rfl

/-- Every clock keeps the invariant, whatever the inputs are. -/
theorem Inv.next {d : Dut} (h : Inv d) (i : DutIn) : Inv (d.next i) where
  init := init_next i h.init
  rows := h.rows_next i
  write := write_next _ _ h.write
  drive := drive_next _ _ h.drive
  pipe := h.pipe_next i
  capture := h.capture_next i
  running := h.running_next i

/-- The invariant holds in every reachable state. -/
theorem inv_run (mem : Cells) (inp : ℕ → DutIn) (n : ℕ) :
    Inv (Clocked.run Dut.next (Dut.reset mem) inp n) :=
  Clocked.run_inv (inv_reset mem) (fun _ i h => h.next i) n

end Neorv32Boot.Sdram
