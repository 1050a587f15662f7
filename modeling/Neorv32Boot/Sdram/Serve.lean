import Neorv32Boot.Sdram.Words

/-!
# One transaction

What a request does between the strobe and the acknowledge.  `PortInv` says, for each state of
the FSM, which part of the request is already in the chip, and `WbInv` adds the handshake of the
bridge.  The step lemmas are the three things that a clock can do for the master: nothing, take a
request, or acknowledge one.
-/

namespace Neorv32Boot.Sdram

/-- The states of a transaction. -/
def State.busy : State → Bool
  | .act | .actW | .rdCmd0 | .rdNop1 | .rdCmd1 | .rdWait | .rdCap0 | .rdGap | .rdCap1 | .rdPreW
  | .wrCmd0 | .wrCmd1 | .wrRec | .done | .doneW | .preOld | .preOldW => true
  | _ => false

/-- What a request to the SDRAM makes of the chip. -/
def Cells.serve (m : Cells) (r : Request) : Cells :=
  if r.wstrb = 0 then m else m.storeWord r.addr r.datW r.wstrb

/-- The latches hold the request. -/
structure Latched (c : Ctrl) (r : Request) : Prop where
  addr : c.addrLat = r.addr
  wdata : c.wdataLat = r.datW
  wstrb : c.wstrbLat = r.wstrb
  write : c.isWrite = decide (r.wstrb ≠ 0)

/-- The content of the chip in a state, when it was `m` before the request. -/
def State.cells (s : State) (m : Cells) (r : Request) : Cells :=
  match s with
  | .wrCmd1 => m.storeLo r.addr r.datW r.wstrb
  | .wrRec => m.storeWord r.addr r.datW r.wstrb
  | .done | .doneW => m.serve r
  | _ => m

/-- In every state, each byte of the chip is that of before the request, or that of after. -/
lemma view_cells (s : State) (m : Cells) (r : Request) (hr : r.inSdram = true) (w : BitVec 23)
    (k : Fin 4) : (s.cells m r).view w k = m.view w k ∨
      (s.cells m r).view w k = Lanes.store m.view r.toWrite w k := by
  have hstore := view_store m r hr
  have hserve : (m.serve r).view = m.view ∨ (m.serve r).view = Lanes.store m.view r.toWrite := by
    unfold Cells.serve
    split_ifs
    · exact Or.inl rfl
    · exact Or.inr hstore
  unfold State.cells
  split
  · rw [← hstore]
    exact view_storeLo m r.addr r.datW r.wstrb w k
  · rw [hstore]
    exact Or.inr rfl
  · exact hserve.imp (fun h => by rw [h]) (fun h => by rw [h])
  · exact hserve.imp (fun h => by rw [h]) (fun h => by rw [h])
  · exact Or.inl rfl

/-- The controller and the chip while `cur` is at the memory port, when the chip held `m` before. -/
def PortInv (d : Dut) (m : Cells) (cur : Option Request) : Prop :=
  match cur with
  | none => d.ctrl.state.busy = false ∧ d.chip.mem = m
  | some r => (d.ctrl.state.busy = true → Latched d.ctrl r) ∧ d.chip.mem = d.ctrl.state.cells m r

/-- The bridge, the controller and the chip while `cur` waits for its acknowledge. -/
structure WbInv (s : Wb) (m : Cells) (cur : Option Request) : Prop where
  dut : Inv s.dut
  ready : s.dut.ctrl.ready = true ↔ s.dut.ctrl.state = .doneW
  pending : s.bridge.pending = cur.isSome
  inSdram : ∀ r, cur = some r → r.inSdram = true
  port : PortInv s.dut m cur

/-! ### The memory port -/

open Ctrl in
lemma ready_next (c : Ctrl) (p : Ports) :
    (c.next p).ready = true ↔ (c.next p).state = .doneW := by
  cases hst : c.state <;> simp only [Ctrl.next, mainFsm, hst, waitCnt, accept] <;>
    (try split_ifs) <;> simp

lemma ready_eq_false {c : Ctrl} (h : c.ready = true ↔ c.state = .doneW) (hst : c.state ≠ .doneW) :
    c.ready = false := by
  rw [Bool.eq_false_iff]
  exact fun hr => hst (h.1 hr)

open Ctrl in
/-- Without `sel` the controller stays out of a transaction. -/
lemma PortInv.next_none {d : Dut} {m : Cells} (hd : Inv d) (h : PortInv d m none) (i : DutIn)
    (hsel : i.sel = false) : PortInv (d.next i) m none := by
  obtain ⟨hb, hm⟩ := h
  unfold PortInv
  simp only
  rw [hd.next_chip, Dut.next_ctrl, Dut.chipNext]
  cases hst : d.ctrl.state <;> simp only [hst, State.busy] at hb <;> try contradiction
  all_goals
    simp only [Ctrl.next, mainFsm, hst, waitCnt, accept, hsel]
    (try split_ifs) <;> simp_all [State.busy, Chip.shift_mem]

open Ctrl in
/-- The latches are loaded in `S_IDLE`, and kept during a transaction. -/
lemma Latched.next {c : Ctrl} {r : Request} (h : c.state.busy = true → Latched c r) (p : Ports)
    (ha : p.addr = r.addr) (hw : p.wdata = r.datW) (hs : p.wstrb = r.wstrb)
    (hb : (c.next p).state.busy = true) : Latched (c.next p) r := by
  cases hst : c.state <;> simp only [hst, State.busy, forall_const] at h <;>
    simp only [Ctrl.next, mainFsm, hst, waitCnt, accept] at hb ⊢
  case idle =>
    split_ifs at hb ⊢ <;>
      first
      | exact ⟨ha, hw, hs, by rw [hs]⟩
      | simp [State.busy] at hb
  case initWait | initPre | initPreW | initAr1 | initAr1W | initAr2 | initAr2W | initLmr |
      initLmrW | refPre | refPreW | refAr | refArW =>
    (try split_ifs at hb) <;> simp [State.busy] at hb
  all_goals (try split_ifs) <;> exact ⟨h.addr, h.wdata, h.wstrb, h.write⟩

open Ctrl in
/-- While a request is held at the port, a clock brings its transaction on. -/
lemma PortInv.next_some {d : Dut} {m : Cells} {r : Request} (hd : Inv d)
    (h : PortInv d m (some r)) (hst : d.ctrl.state ≠ .doneW) (i : DutIn) (ha : i.addr = r.addr)
    (hw : i.wdata = r.datW) (hs : i.wstrb = r.wstrb) : PortInv (d.next i) m (some r) := by
  obtain ⟨hl, hm⟩ := h
  refine ⟨Latched.next hl _ ha hw hs, ?_⟩
  have hwr := hd.write
  rw [hd.next_chip, Dut.next_ctrl, Dut.chipNext]
  cases hst' : d.ctrl.state <;>
    simp only [WriteInv, hst', State.cells, State.busy, forall_const] at hm hl hwr <;>
    simp only [Ctrl.next, mainFsm, hst', waitCnt, accept]
  case doneW => exact absurd hst' hst
  case wrCmd0 => rw [hm, hl.addr, hl.wdata, hl.wstrb]; rfl
  case wrCmd1 => rw [hm, hl.addr, hl.wdata, hl.wstrb]; rfl
  case wrRec =>
    have hne : r.wstrb ≠ 0 := by simpa [hl.write] using hwr
    have hserve : m.serve r = m.storeWord r.addr r.datW r.wstrb := if_neg hne
    split_ifs
    · exact hm.trans hserve.symm
    · exact hm
  case rdPreW =>
    have hz : r.wstrb = 0 := by simpa [hl.write] using hwr
    have hserve : m.serve r = m := if_pos hz
    split_ifs
    · exact hm.trans hserve.symm
    · exact hm
  all_goals (try split_ifs) <;> exact hm

open Ctrl in
/-- The clock after `ready` the controller is idle, and the request has been served. -/
lemma PortInv.next_done {d : Dut} {m : Cells} {r : Request} (hd : Inv d)
    (h : PortInv d m (some r)) (hst : d.ctrl.state = .doneW) (i : DutIn) :
    PortInv (d.next i) (m.serve r) none := by
  obtain ⟨-, hm⟩ := h
  rw [hst] at hm
  unfold PortInv
  simp only
  rw [hd.next_chip, Dut.next_ctrl, Dut.chipNext, hst]
  simp only [Ctrl.next, mainFsm, hst]
  exact ⟨rfl, hm⟩

/-- With `ready`, `rdata` is the word that a read asked for. -/
lemma PortInv.rdata {d : Dut} {m : Cells} {r : Request} (hd : Inv d) (h : PortInv d m (some r))
    (hst : d.ctrl.state = .doneW) (hz : r.wstrb = 0) :
    d.ctrl.rdata = m.hi r.addr ++ m.lo r.addr := by
  obtain ⟨hl, hm⟩ := h
  have hl := hl (by simp [hst, State.busy])
  have hc := hd.capture
  simp only [CaptureInv, hst, hl.write, hl.addr] at hc
  rw [hc (by simp [hz]), hm, hst]
  simp [State.cells, Cells.serve, hz]

/-! ### The handshake -/

lemma wbInv_reset (mem : Cells) : WbInv (Wb.reset mem) mem none where
  dut := inv_reset mem
  ready := by simp [Wb.reset, Dut.reset, Ctrl.reset]
  pending := rfl
  inSdram := by simp
  port := ⟨rfl, rfl⟩

namespace WbInv

variable {s : Wb} {m : Cells} {r : Request} {x : Xbus}

/-- Nothing is requested. -/
lemma next_none (h : WbInv s m none) (hx : x.stb = false) :
    WbInv (s.next x) m none ∧ (s.next x).bridge.xbusAck = false := by
  have hp : s.bridge.pending = false := h.pending
  refine ⟨⟨h.dut.next _, ready_next _ _, ?_, by simp, h.port.next_none h.dut _ hp⟩, ?_⟩ <;>
    simp [Wb.next, Bridge.next, hp, hx]

/-- A request to the SDRAM is taken. -/
lemma next_take (h : WbInv s m none) (hs : x.stb = true) (hc : x.cyc = true)
    (hr : x.req.inSdram = true) :
    WbInv (s.next x) m (some x.req) ∧ (s.next x).bridge.xbusAck = false := by
  have hp : s.bridge.pending = false := h.pending
  have hport : PortInv (s.next x).dut m none := h.port.next_none h.dut _ hp
  have hport' : PortInv (s.next x).dut m (some x.req) := by
    obtain ⟨hb, hm⟩ := hport
    refine ⟨fun hb' => absurd (hb.symm.trans hb') (by simp), hm.trans ?_⟩
    revert hb
    cases (s.next x).dut.ctrl.state <;> simp [State.busy, State.cells]
  refine ⟨⟨h.dut.next _, ready_next _ _, ?_, by simp [hr], hport'⟩, ?_⟩ <;>
    simp [Wb.next, Bridge.next, hp, hs, hc, hr]

/-- A request outside the SDRAM is acknowledged at once, with zero data. -/
lemma next_outside (h : WbInv s m none) (hs : x.stb = true) (hc : x.cyc = true)
    (hr : x.req.inSdram = false) :
    WbInv (s.next x) m none ∧ (s.next x).bridge.xbusAck = true ∧
      (s.next x).bridge.xbusDatR = 0 := by
  have hp : s.bridge.pending = false := h.pending
  refine ⟨⟨h.dut.next _, ready_next _ _, ?_, by simp, h.port.next_none h.dut _ hp⟩, ?_, ?_⟩ <;>
    simp [Wb.next, Bridge.next, hp, hs, hc, hr]

/-- The pending request is not ready. -/
lemma next_wait (h : WbInv s m (some r)) (hx : x.stb = false) (hreq : x.req = r)
    (hst : s.dut.ctrl.state ≠ .doneW) :
    WbInv (s.next x) m (some r) ∧ (s.next x).bridge.xbusAck = false := by
  have hp : s.bridge.pending = true := h.pending
  have hrdy := ready_eq_false h.ready hst
  subst hreq
  refine ⟨⟨h.dut.next _, ready_next _ _, ?_, h.inSdram,
    h.port.next_some h.dut hst _ rfl rfl rfl⟩, ?_⟩ <;>
    simp [Wb.next, Bridge.next, hp, hx, hrdy]

/-- The pending request is ready, and is acknowledged. -/
lemma next_ack (h : WbInv s m (some r)) (hst : s.dut.ctrl.state = .doneW) :
    WbInv (s.next x) (m.serve r) none ∧ (s.next x).bridge.xbusAck = true ∧
      (r.wstrb = 0 → (s.next x).bridge.xbusDatR = m.hi r.addr ++ m.lo r.addr) := by
  have hp : s.bridge.pending = true := h.pending
  have hrdy : s.dut.ctrl.ready = true := h.ready.2 hst
  refine ⟨⟨h.dut.next _, ready_next _ _, ?_, by simp, h.port.next_done h.dut hst _⟩, ?_,
    fun hz => ?_⟩
  · simp [Wb.next, Bridge.next, hp, hrdy]
  · simp [Wb.next, Bridge.next, hp, hrdy]
  · simp [Wb.next, Bridge.next, hp, hrdy, h.port.rdata h.dut hst hz]

end WbInv

end Neorv32Boot.Sdram
