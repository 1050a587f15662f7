import Mathlib.Tactic

/-!
# The SDRAM controller

`rtl/sdram_ctrl.v`: a 32-bit memory port in front of a 16-bit SDRAM, with page-mode row
tracking, a free-running refresh counter and a CL=3 read pipeline.  `Ctrl` has the registers of
the module, `Ctrl.next` is one rising edge of `clk` (with `rst_n` high), and `Ctrl.reset` is the
state that the asynchronous reset leaves.  The inputs of an edge are the values on the ports just
before it.  `sdram_clk` is the inverted `clk`, so that the SDRAM samples the pins half a clock
after the edge that drives them; this is `Sdram/Chip.lean`.
-/

namespace Neorv32Boot.Sdram

/-- The SDRAM commands, the codes of `{cs_n, ras_n, cas_n, we_n}`. -/
inductive Cmd
  | nop | act | read | write | precharge | refresh | lmr | inhibit
deriving DecidableEq, Repr

/-- The states of the main FSM.  The one code of the 5-bit register that names no state,
`5'd31`, is not represented: no branch assigns it. -/
inductive State
  | initWait | initPre | initPreW | initAr1 | initAr1W | initAr2 | initAr2W
  | initLmr | initLmrW | idle
  | refPre | refPreW | refAr | refArW
  | act | actW
  | rdCmd0 | rdNop1 | rdCmd1 | rdWait | rdCap0 | rdGap | rdCap1 | rdPreW
  | wrCmd0 | wrCmd1 | wrRec
  | done | doneW
  | preOld | preOldW
deriving DecidableEq, Repr

/-! ### Timing parameters -/

/-- 200 µs of stable clock before the first command. -/
def initCycles : BitVec 14 := 10000
/-- Precharge to ready. -/
def tRP : BitVec 3 := 1
/-- Refresh cycle. -/
def tRC : BitVec 3 := 4
/-- Activate to read or write. -/
def tRCD : BitVec 3 := 1
/-- Write recovery. -/
def tWR : BitVec 3 := 2
/-- Mode register set delay. -/
def tMRD : BitVec 3 := 2
/-- Refresh every 7.6 µs. -/
def refInterval : BitVec 10 := 380

/-- The registers of `sdram_ctrl`, the output registers included. -/
structure Ctrl where
  state : State
  initCnt : BitVec 14
  cnt : BitVec 3
  refCnt : BitVec 10
  refReq : Bool
  initialized : Bool
  dataLo : BitVec 16
  isWrite : Bool
  addrLat : BitVec 25
  wdataLat : BitVec 32
  wstrbLat : BitVec 4
  rowOpen : Bool
  openBa : BitVec 2
  openRow : BitVec 13
  dqOe : Bool
  dqOut : BitVec 16
  rdata : BitVec 32
  ready : Bool
  /-- `{sdram_cs_n, sdram_ras_n, sdram_cas_n, sdram_we_n}` -/
  sdramCmd : Cmd
  sdramBa : BitVec 2
  sdramAddr : BitVec 13
  sdramDqm : BitVec 2

/-- The ports that an edge reads: the CPU side, and the value on the bidirectional `sdram_dq`. -/
structure Ports where
  sel : Bool
  addr : BitVec 25
  wdata : BitVec 32
  wstrb : BitVec 4
  sdramDq : BitVec 16

/-! ### Address decomposition -/

/-- `addr[24:23]` -/
def addrBa (a : BitVec 25) : BitVec 2 := a.extractLsb' 23 2
/-- `addr[22:10]` -/
def addrRow (a : BitVec 25) : BitVec 13 := a.extractLsb' 10 13
/-- `{addr[9:2], 1'b0}` -/
def addrColLo (a : BitVec 25) : BitVec 9 := a.extractLsb' 2 8 ++ 0#1
/-- `{addr[9:2], 1'b1}` -/
def addrColHi (a : BitVec 25) : BitVec 9 := a.extractLsb' 2 8 ++ 1#1

/-- Bit 10 of `sdram_addr`, which selects all banks in a PRECHARGE. -/
def a10 (a : BitVec 13) : Bool := a.getLsbD 10

/-- `sdram_addr[10] <= b` -/
def setA10 (a : BitVec 13) (b : Bool) : BitVec 13 :=
  if b then a ||| 0x400#13 else a &&& 0x1BFF#13

@[simp] lemma a10_setA10 (a : BitVec 13) (b : Bool) : a10 (setA10 a b) = b := by
  cases b <;> simp [a10, setA10]

@[simp] lemma a10_col (c : BitVec 9) : a10 (0#4 ++ c) = false := by
  rw [a10, BitVec.getLsbD_append]
  simp

@[simp] lemma extract_col (c : BitVec 9) : (0#4 ++ c).extractLsb' 0 9 = c :=
  BitVec.extractLsb'_append_eq_right

namespace Ctrl

/-- The state under reset. -/
def reset : Ctrl where
  state := .initWait
  initCnt := 0
  cnt := 0
  refCnt := 0
  refReq := false
  initialized := false
  dataLo := 0
  isWrite := false
  addrLat := 0
  wdataLat := 0
  wstrbLat := 0
  rowOpen := false
  openBa := 0
  openRow := 0
  dqOe := false
  dqOut := 0
  rdata := 0
  ready := false
  sdramCmd := .inhibit
  sdramBa := 0
  sdramAddr := 0
  sdramDqm := 0

/-- The body that the wait states share: count up to `lim`, then do `leave`. -/
def waitCnt (t : Ctrl) (lim : BitVec 3) (leave : Ctrl → Ctrl) : Ctrl :=
  if lim ≤ t.cnt then leave t else { t with cnt := t.cnt + 1 }

/-- The branch of `S_IDLE` that accepts a request: open-row hit, miss on an open row, or no open
row. -/
def accept (t : Ctrl) (p : Ports) : Ctrl :=
  { t with
    addrLat := p.addr
    wdataLat := p.wdata
    wstrbLat := p.wstrb
    isWrite := p.wstrb ≠ 0
    state :=
      if t.rowOpen ∧ addrBa p.addr = t.openBa ∧ addrRow p.addr = t.openRow then
        if p.wstrb ≠ 0 then .wrCmd0 else .rdCmd0
      else if t.rowOpen then .preOld
      else .act }

/-- The main FSM.  Every branch starts from the default `ready <= 0`. -/
def mainFsm (s : Ctrl) (p : Ports) : Ctrl :=
  let t := { s with ready := false }
  match s.state with
  -- initialisation
  | .initWait =>
    let t := { t with sdramCmd := .inhibit, dqOe := false }
    if initCycles ≤ s.initCnt then { t with cnt := 0, state := .initPre }
    else { t with initCnt := s.initCnt + 1 }
  | .initPre =>
    { t with
      sdramCmd := .precharge
      sdramAddr := setA10 s.sdramAddr true
      cnt := 0
      state := .initPreW }
  | .initPreW =>
    waitCnt { t with sdramCmd := .nop } tRP fun t => { t with cnt := 0, state := .initAr1 }
  | .initAr1 => { t with sdramCmd := .refresh, cnt := 0, state := .initAr1W }
  | .initAr1W =>
    waitCnt { t with sdramCmd := .nop } tRC fun t => { t with cnt := 0, state := .initAr2 }
  | .initAr2 => { t with sdramCmd := .refresh, cnt := 0, state := .initAr2W }
  | .initAr2W =>
    waitCnt { t with sdramCmd := .nop } tRC fun t => { t with cnt := 0, state := .initLmr }
  | .initLmr =>
    { t with
      sdramCmd := .lmr
      sdramBa := 0
      -- BL=1, sequential, CL=3, single write
      sdramAddr := 0b0000000110000#13
      cnt := 0
      state := .initLmrW }
  | .initLmrW =>
    waitCnt { t with sdramCmd := .nop } tMRD fun t => { t with initialized := true, state := .idle }
  -- idle: a refresh request goes before a transaction
  | .idle =>
    let t := { t with sdramCmd := .nop, dqOe := false }
    if s.refReq then { t with state := .refPre }
    else if p.sel then accept t p
    else t
  -- refresh
  | .refPre =>
    { t with
      sdramCmd := .precharge
      sdramAddr := setA10 s.sdramAddr true
      cnt := 0
      rowOpen := false
      state := .refPreW }
  | .refPreW =>
    waitCnt { t with sdramCmd := .nop } tRP fun t => { t with cnt := 0, state := .refAr }
  | .refAr => { t with sdramCmd := .refresh, cnt := 0, state := .refArW }
  | .refArW => waitCnt { t with sdramCmd := .nop } tRC fun t => { t with state := .idle }
  -- activate
  | .act =>
    { t with
      sdramCmd := .act
      sdramBa := addrBa s.addrLat
      sdramAddr := addrRow s.addrLat
      cnt := 0
      state := .actW }
  | .actW =>
    waitCnt { t with sdramCmd := .nop } tRCD fun t =>
      { t with
        cnt := 0
        rowOpen := true
        openBa := addrBa s.addrLat
        openRow := addrRow s.addrLat
        state := if s.isWrite then .wrCmd0 else .rdCmd0 }
  -- read: two READ commands with one NOP between them, captures four clocks after each
  | .rdCmd0 =>
    { t with
      sdramCmd := .read
      sdramBa := addrBa s.addrLat
      sdramAddr := 0#4 ++ addrColLo s.addrLat
      sdramDqm := 0
      state := .rdNop1 }
  | .rdNop1 => { t with sdramCmd := .nop, state := .rdCmd1 }
  | .rdCmd1 =>
    { t with
      sdramCmd := .read
      sdramBa := addrBa s.addrLat
      sdramAddr := 0#4 ++ addrColHi s.addrLat
      sdramDqm := 0
      state := .rdWait }
  | .rdWait => { t with sdramCmd := .nop, state := .rdCap0 }
  | .rdCap0 => { t with dataLo := p.sdramDq, sdramCmd := .nop, state := .rdGap }
  | .rdGap => { t with sdramCmd := .nop, state := .rdCap1 }
  | .rdCap1 =>
    { t with rdata := p.sdramDq ++ s.dataLo, sdramCmd := .nop, cnt := 0, state := .rdPreW }
  | .rdPreW => waitCnt { t with sdramCmd := .nop } tRP fun t => { t with state := .done }
  -- write: two 16-bit writes
  | .wrCmd0 =>
    { t with
      sdramCmd := .write
      sdramBa := addrBa s.addrLat
      sdramAddr := 0#4 ++ addrColLo s.addrLat
      sdramDqm := ~~~ s.wstrbLat.extractLsb' 0 2
      dqOe := true
      dqOut := s.wdataLat.extractLsb' 0 16
      state := .wrCmd1 }
  | .wrCmd1 =>
    { t with
      sdramCmd := .write
      sdramBa := addrBa s.addrLat
      sdramAddr := 0#4 ++ addrColHi s.addrLat
      sdramDqm := ~~~ s.wstrbLat.extractLsb' 2 2
      dqOut := s.wdataLat.extractLsb' 16 16
      cnt := 0
      state := .wrRec }
  | .wrRec =>
    waitCnt { t with sdramCmd := .nop, dqOe := false } (tWR + tRP) fun t =>
      { t with state := .done }
  -- done: `ready` for one clock, then a gap in which the bridge drops `sel`
  | .done => { t with sdramCmd := .nop, ready := true, state := .doneW }
  | .doneW => { t with sdramCmd := .nop, state := .idle }
  -- close the row that is open before opening another one
  | .preOld =>
    { t with
      sdramCmd := .precharge
      sdramBa := s.openBa
      sdramAddr := setA10 s.sdramAddr false
      cnt := 0
      rowOpen := false
      state := .preOldW }
  | .preOldW =>
    waitCnt { t with sdramCmd := .nop } tRP fun t => { t with cnt := 0, state := .act }

/-- `ref_req` after an edge: the interval sets it, and the clear in `S_REF_AR`, which comes last
in the block, wins over the set. -/
def nextRefReq (s : Ctrl) : Bool :=
  if s.initialized then
    if s.state = .refAr then false
    else if refInterval ≤ s.refCnt then true
    else s.refReq
  else s.refReq

/-- `ref_cnt` after an edge. -/
def nextRefCnt (s : Ctrl) : BitVec 10 :=
  if s.initialized then
    if refInterval ≤ s.refCnt then 0 else s.refCnt + 1
  else s.refCnt

/-- One rising edge of `clk`.  The two `always` blocks read the registers as they were before
the edge. -/
def next (s : Ctrl) (p : Ports) : Ctrl :=
  { mainFsm s p with refReq := nextRefReq s, refCnt := nextRefCnt s }

section Next

variable (s : Ctrl) (p : Ports)

@[simp] lemma next_state : (s.next p).state = (mainFsm s p).state := rfl
@[simp] lemma next_initCnt : (s.next p).initCnt = (mainFsm s p).initCnt := rfl
@[simp] lemma next_cnt : (s.next p).cnt = (mainFsm s p).cnt := rfl
@[simp] lemma next_refCnt : (s.next p).refCnt = nextRefCnt s := rfl
@[simp] lemma next_refReq : (s.next p).refReq = nextRefReq s := rfl
@[simp] lemma next_initialized : (s.next p).initialized = (mainFsm s p).initialized := rfl
@[simp] lemma next_sdramCmd : (s.next p).sdramCmd = (mainFsm s p).sdramCmd := rfl

end Next

end Ctrl

end Neorv32Boot.Sdram
