import Neorv32Boot.Lib.Lanes
import Neorv32Boot.Sdram.Invariant

/-!
# The Wishbone bridge

`rtl/wb_sdram_ctrl.v`: the XBUS of the CPU on one side, the memory port of `sdram_ctrl` on the
other.  The bridge holds `sel` while a transaction is `pending`, and acknowledges a request
outside the SDRAM itself.  `Wb` is the bridge with the controller and the chip behind it, from
the reset of all of them.
-/

namespace Neorv32Boot.Sdram

/-- The fields of an XBUS request. -/
structure Request where
  adr : BitVec 32
  datW : BitVec 32
  sel : BitVec 4
  we : Bool

/-- The inputs of the bridge in one clock, and the values read on an undriven `sdram_dq`. -/
structure Xbus where
  req : Request
  stb : Bool
  cyc : Bool
  floatRise : BitVec 16
  floatFall : BitVec 16

/-- `in_sdram`: the SDRAM is at `0x40000000` to `0x41FFFFFF`. -/
def inSdram (adr : BitVec 32) : Bool := adr.extractLsb' 25 7 == 0b0100000#7

lemma inSdram_iff (a : BitVec 32) :
    inSdram a = true ↔ 0x40000000 ≤ a.toNat ∧ a.toNat < 0x42000000 := by
  simp only [inSdram, beq_iff_eq, ← BitVec.toNat_inj, BitVec.extractLsb'_toNat,
    Nat.shiftRight_eq_div_pow, BitVec.toNat_ofNat]
  have := a.isLt
  omega

/-- The decode of a request. -/
def Request.inSdram (r : Request) : Bool := Sdram.inSdram r.adr

/-- The address on the memory port, `xbus_adr[24:0]`. -/
def Request.addr (r : Request) : BitVec 25 := r.adr.extractLsb' 0 25

/-- The strobes on the memory port, `xbus_we ? xbus_sel : 4'b0000`. -/
def Request.wstrb (r : Request) : BitVec 4 := if r.we then r.sel else 0

/-- The registers of `wb_sdram_ctrl`, the debug latches included. -/
structure Bridge where
  pending : Bool
  xbusAck : Bool
  xbusDatR : BitVec 32
  dbgAnyReq : Bool
  dbgSdramReq : Bool
  dbgSdramAck : Bool

/-- The state under reset. -/
def Bridge.reset : Bridge where
  pending := false
  xbusAck := false
  xbusDatR := 0
  dbgAnyReq := false
  dbgSdramReq := false
  dbgSdramAck := false

/-- One rising edge of `clk`, with the `ready` and `rdata` of the controller before the edge.  An
assignment of the second `if` wins over one of the first. -/
def Bridge.next (b : Bridge) (x : Xbus) (ready : Bool) (rdata : BitVec 32) : Bridge :=
  let req := x.cyc && x.stb
  let start := req && !b.pending
  let finish := b.pending && ready
  { pending :=
      if finish then false
      else if start && x.req.inSdram then true
      else b.pending
    xbusAck := finish || (start && !x.req.inSdram)
    xbusDatR :=
      if finish then rdata
      else if start && !x.req.inSdram then 0
      else b.xbusDatR
    dbgAnyReq := req || b.dbgAnyReq
    dbgSdramReq := (req && x.req.inSdram) || b.dbgSdramReq
    dbgSdramAck := finish || b.dbgSdramAck }

/-- The bridge with the controller and the chip. -/
structure Wb where
  bridge : Bridge
  dut : Dut

namespace Wb

/-- What the controller and the chip see in one clock. -/
def dutIn (s : Wb) (x : Xbus) : DutIn where
  sel := s.bridge.pending
  addr := x.req.addr
  wdata := x.req.datW
  wstrb := x.req.wstrb
  floatRise := x.floatRise
  floatFall := x.floatFall

/-- One clock. -/
def next (s : Wb) (x : Xbus) : Wb where
  bridge := s.bridge.next x s.dut.ctrl.ready s.dut.ctrl.rdata
  dut := s.dut.next (s.dutIn x)

/-- The state under reset, with the chip powered up. -/
def reset (mem : Cells) : Wb := ⟨Bridge.reset, Dut.reset mem⟩

/-- The run from reset. -/
def run (mem : Cells) (bus : ℕ → Xbus) : ℕ → Wb := Clocked.run next (reset mem) bus

end Wb

/-! ### The master -/

/-- What the bridge is promised by the XBUS master: a strobe comes with `cyc`, the fields of a
request are stable until its acknowledge, and there is no other strobe before that. -/
structure Protocol (bus : ℕ → Xbus) (ack : ℕ → Bool) : Prop where
  cyc : ∀ n, (bus n).stb = true → (bus n).cyc = true
  hold : ∀ m n, m < n → (bus m).stb = true → (∀ k, m < k → k ≤ n → ack k = false) →
    (bus n).stb = false ∧ (bus n).req = (bus m).req

/-- The requests of the clocks before clock `n`, in order. -/
def reqs (bus : ℕ → Xbus) : ℕ → List Request
  | 0 => []
  | n + 1 => reqs bus n ++ if (bus n).stb then [(bus n).req] else []

/-- The data of the acknowledges up to clock `n`, in order. -/
def acks (r : ℕ → Wb) : ℕ → List (BitVec 32)
  | 0 => if (r 0).bridge.xbusAck then [(r 0).bridge.xbusDatR] else []
  | n + 1 => acks r n ++ if (r (n + 1)).bridge.xbusAck then [(r (n + 1)).bridge.xbusDatR] else []

/-! ### The memory that the bridge presents -/

/-- A byte of a word: the low column has bytes 0 and 1, the high column bytes 2 and 3. -/
def Cells.view (m : Cells) (w : BitVec 23) (k : Fin 4) : BitVec 8 :=
  (m.hi (w ++ 0#2) ++ m.lo (w ++ 0#2)).extractLsb' (8 * k) 8

/-- A request as a masked write: the byte lanes that it selects, if it is a write to the SDRAM. -/
def Request.toWrite (r : Request) : Lanes.Write (BitVec 23) (Fin 4) (BitVec 8) where
  addr := r.adr.extractLsb' 2 23
  sel := fun k => r.inSdram && r.we && r.sel.getLsbD k
  data := fun k => r.datW.extractLsb' (8 * k) 8

end Neorv32Boot.Sdram
