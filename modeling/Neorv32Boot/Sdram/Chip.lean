import Neorv32Boot.Lib.Clocked
import Neorv32Boot.Sdram.Ctrl

/-!
# The SDRAM chip, and the controller wired to it

`sim/sdram_model.v` with the storage of the real part: 4 banks of 8192 rows of 512 columns, with
no truncation of the index.  The chip samples its pins on the rising edge of `sdram_clk`, which is
the falling edge of `clk`, and drives `sdram_dq` from stage 0 of a read pipeline that is shifted
on the same edge.

`Dut` is the controller and the chip on one set of pins, as `sim/tb_sdram_ctrl.v` wires them.
-/

namespace Neorv32Boot.Sdram

/-- Change a function at one point. -/
def set {α β : Type} [DecidableEq α] (f : α → β) (a : α) (b : β) : α → β :=
  fun x => if x = a then b else f x

@[simp] lemma set_self {α β : Type} [DecidableEq α] (f : α → β) (a : α) (b : β) :
    set f a b a = b := by
  simp [set]

lemma set_of_ne {α β : Type} [DecidableEq α] (f : α → β) {a x : α} (b : β) (h : x ≠ a) :
    set f a b x = f x := by
  simp [set, h]

/-- The pins that the controller drives, besides `sdram_dq`. -/
structure Pins where
  cmd : Cmd
  ba : BitVec 2
  addr : BitVec 13
  dqm : BitVec 2

/-- The pins are the output registers. -/
def Ctrl.pins (c : Ctrl) : Pins := ⟨c.sdramCmd, c.sdramBa, c.sdramAddr, c.sdramDqm⟩

/-- The storage of the chip, by bank, row and column. -/
abbrev Cells : Type := BitVec 2 → BitVec 13 → BitVec 9 → BitVec 16

/-- The state of the chip.  A stage of the read pipeline is `rd_data` where `rd_valid` is set. -/
structure Chip where
  mem : Cells
  bankActive : BitVec 2 → Bool
  bankRow : BitVec 2 → BitVec 13
  rd0 : Option (BitVec 16)
  rd1 : Option (BitVec 16)
  rd2 : Option (BitVec 16)
  rd3 : Option (BitVec 16)
  rd4 : Option (BitVec 16)
  /-- `$finish` was called: a READ or WRITE to an inactive bank, or a REFRESH with an active one. -/
  finished : Bool

/-- A 16-bit word with the bytes that `dqm` does not mask replaced. -/
def maskWrite (old new : BitVec 16) (dqm : BitVec 2) : BitVec 16 :=
  (if dqm.getLsbD 1 then old.extractLsb' 8 8 else new.extractLsb' 8 8) ++
    (if dqm.getLsbD 0 then old.extractLsb' 0 8 else new.extractLsb' 0 8)

namespace Chip

/-- The chip at power-up, with arbitrary content. -/
def powerUp (mem : Cells) : Chip where
  mem := mem
  bankActive := fun _ => false
  bankRow := fun _ => 0
  rd0 := none
  rd1 := none
  rd2 := none
  rd3 := none
  rd4 := none
  finished := false

/-- The shift of the read pipeline. -/
def shift (c : Chip) : Chip :=
  { c with rd0 := c.rd1, rd1 := c.rd2, rd2 := c.rd3, rd3 := c.rd4, rd4 := none }

/-- READ: the word at the open row goes into stage `CL` = 3. -/
def read (c : Chip) (p : Pins) : Chip :=
  { c with
    rd3 := some (c.mem p.ba (c.bankRow p.ba) (p.addr.extractLsb' 0 9))
    bankActive := if a10 p.addr then set c.bankActive p.ba false else c.bankActive
    finished := c.finished || !c.bankActive p.ba }

/-- WRITE: the unmasked bytes of `dq` go into the word at the open row. -/
def write (c : Chip) (p : Pins) (dq : BitVec 16) : Chip :=
  let row := c.bankRow p.ba
  let col := p.addr.extractLsb' 0 9
  { c with
    mem := set c.mem p.ba (set (c.mem p.ba) row
      (set (c.mem p.ba row) col (maskWrite (c.mem p.ba row col) dq p.dqm)))
    bankActive := if a10 p.addr then set c.bankActive p.ba false else c.bankActive
    finished := c.finished || !c.bankActive p.ba }

/-- One rising edge of `sdram_clk`: shift the pipeline, then do the command. -/
def sample (c : Chip) (p : Pins) (dq : BitVec 16) : Chip :=
  let c := c.shift
  match p.cmd with
  | .act =>
    { c with
      bankActive := set c.bankActive p.ba true
      bankRow := set c.bankRow p.ba p.addr }
  | .read => c.read p
  | .write => c.write p dq
  | .precharge =>
    { c with
      bankActive := if a10 p.addr then fun _ => false else set c.bankActive p.ba false }
  | .refresh =>
    { c with
      finished := c.finished || c.bankActive 0 || c.bankActive 1 || c.bankActive 2 ||
        c.bankActive 3 }
  | .lmr | .nop | .inhibit => c

/-! ### What one sample does, command by command -/

variable {c : Chip} {dq : BitVec 16}

@[simp] lemma shift_mem : c.shift.mem = c.mem := rfl
@[simp] lemma shift_bankActive : c.shift.bankActive = c.bankActive := rfl
@[simp] lemma shift_bankRow : c.shift.bankRow = c.bankRow := rfl
@[simp] lemma shift_finished : c.shift.finished = c.finished := rfl

variable {ba : BitVec 2} {a : BitVec 13} {m : BitVec 2}

lemma sample_act : c.sample ⟨.act, ba, a, m⟩ dq = { c.shift with
    bankActive := set c.bankActive ba true
    bankRow := set c.bankRow ba a } := rfl

lemma sample_prechargeAll (ha : a10 a = true) :
    c.sample ⟨.precharge, ba, a, m⟩ dq = { c.shift with bankActive := fun _ => false } := by
  simp [sample, ha]

lemma sample_precharge (ha : a10 a = false) :
    c.sample ⟨.precharge, ba, a, m⟩ dq =
      { c.shift with bankActive := set c.bankActive ba false } := by
  simp [sample, ha]

/-- A REFRESH with all banks precharged only shifts the pipeline. -/
lemma sample_refresh (hb : ∀ b, c.bankActive b = false) :
    c.sample ⟨.refresh, ba, a, m⟩ dq = c.shift := by
  simp [sample, hb]
  rfl

/-- A READ of an active bank without auto-precharge loads stage 3. -/
lemma sample_read (ha : a10 a = false) (hb : c.bankActive ba = true) :
    c.sample ⟨.read, ba, a, m⟩ dq =
      { c.shift with rd3 := some (c.mem ba (c.bankRow ba) (a.extractLsb' 0 9)) } := by
  simp [sample, read, ha, hb]

/-- A WRITE to an active bank without auto-precharge changes one word. -/
lemma sample_write (ha : a10 a = false) (hb : c.bankActive ba = true) :
    c.sample ⟨.write, ba, a, m⟩ dq = { c.shift with
      mem := set c.mem ba (set (c.mem ba) (c.bankRow ba)
        (set (c.mem ba (c.bankRow ba)) (a.extractLsb' 0 9)
          (maskWrite (c.mem ba (c.bankRow ba) (a.extractLsb' 0 9)) dq m))) } := by
  simp [sample, write, ha, hb]

end Chip

/-! ### The controller and the chip -/

/-- `sdram_ctrl` with the chip on its pins. -/
structure Dut where
  ctrl : Ctrl
  chip : Chip

/-- The inputs of one clock: the CPU side of the controller, and what is read on `sdram_dq` at
the rising and at the falling edge when not exactly one side drives it. -/
structure DutIn where
  sel : Bool
  addr : BitVec 25
  wdata : BitVec 32
  wstrb : BitVec 4
  floatRise : BitVec 16
  floatFall : BitVec 16

namespace Dut

/-- The value on `sdram_dq`. -/
def sdramDq (d : Dut) (float : BitVec 16) : BitVec 16 :=
  match d.chip.rd0, d.ctrl.dqOe with
  | some v, false => v
  | none, true => d.ctrl.dqOut
  | _, _ => float

/-- The rising edge of `clk`: the registers of the controller. -/
def rise (d : Dut) (i : DutIn) : Dut :=
  { d with ctrl := d.ctrl.next ⟨i.sel, i.addr, i.wdata, i.wstrb, d.sdramDq i.floatRise⟩ }

/-- The falling edge of `clk`: the chip samples the pins. -/
def fall (d : Dut) (i : DutIn) : Dut :=
  { d with chip := d.chip.sample d.ctrl.pins (d.sdramDq i.floatFall) }

/-- One clock. -/
def next (d : Dut) (i : DutIn) : Dut := (d.rise i).fall i

/-- The state under reset, with the chip powered up. -/
def reset (mem : Cells) : Dut :=
  ⟨Ctrl.reset, Chip.powerUp mem⟩

lemma next_ctrl (d : Dut) (i : DutIn) :
    (d.next i).ctrl =
      d.ctrl.next ⟨i.sel, i.addr, i.wdata, i.wstrb, d.sdramDq i.floatRise⟩ := rfl

lemma next_chip (d : Dut) (i : DutIn) :
    (d.next i).chip =
      d.chip.sample (d.next i).ctrl.pins ((d.rise i).sdramDq i.floatFall) := rfl

/-- The chip alone drives `sdram_dq`. -/
lemma sdramDq_chip {d : Dut} {f v : BitVec 16} (h : d.chip.rd0 = some v)
    (ho : d.ctrl.dqOe = false) : d.sdramDq f = v := by
  simp [sdramDq, h, ho]

/-- The controller alone drives `sdram_dq`. -/
lemma sdramDq_ctrl {d : Dut} {f : BitVec 16} (h : d.chip.rd0 = none)
    (ho : d.ctrl.dqOe = true) : d.sdramDq f = d.ctrl.dqOut := by
  simp [sdramDq, h, ho]

end Dut

end Neorv32Boot.Sdram
