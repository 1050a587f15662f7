import Neorv32Boot.Sdram.Memory

/-!
# A master that gives requests up

`rtl/ax301_top.vhd` sets `XBUS_TIMEOUT` to 4096: after so many clocks without an acknowledge the
master drops `cyc`, and it may issue another request later.  The bridge does not see this.  It
stays `pending`, and the controller, which is in its initialisation for 10020 clocks, takes what
the bus carries when it comes to `S_IDLE`.  No harm is done as long as this is a request that the
master still waits for.
-/

namespace Neorv32Boot.Sdram

/-! ### The master -/

/-- `XBUS_TIMEOUT` -/
def xbusTimeout : ℕ := 4096

/-- What the CPU does in one clock: the request that it issues, if the master is free, and what the
bus carries without one.  The last two are the values read on an undriven `sdram_dq`. -/
structure Cpu where
  issue : Option Request
  idle : Request
  floatRise : BitVec 16
  floatFall : BitVec 16

/-- The master with the bridge, the controller and the chip.  `wait` is the request that the master
waits for, and the number of clocks since its strobe. -/
structure Soc where
  wb : Wb
  wait : Option (Request × ℕ)

namespace Soc

/-- What the master goes on waiting for when an acknowledge has come, or none. -/
def waiting (s : Soc) : Option (Request × ℕ) := if s.wb.bridge.xbusAck then none else s.wait

/-- The bus in one clock: a request that waits is held, with `cyc` but without `stb`. -/
def bus (s : Soc) (i : Cpu) : Xbus :=
  match s.waiting with
  | some (q, _) => ⟨q, false, true, i.floatRise, i.floatFall⟩
  | none =>
    match i.issue with
    | some q => ⟨q, true, true, i.floatRise, i.floatFall⟩
    | none => ⟨i.idle, false, false, i.floatRise, i.floatFall⟩

/-- One clock. -/
def next (s : Soc) (i : Cpu) : Soc where
  wb := s.wb.next (s.bus i)
  wait :=
    match s.waiting with
    | some (q, age) => if age < xbusTimeout then some (q, age + 1) else none
    | none => i.issue.map fun q => (q, 1)

/-- The run from reset. -/
def run (mem : Cells) (cpu : ℕ → Cpu) : ℕ → Soc := Clocked.run next ⟨Wb.reset mem, none⟩ cpu

/-- The bus in clock `n` of the run. -/
def busAt (mem : Cells) (cpu : ℕ → Cpu) (n : ℕ) : Xbus := (run mem cpu n).bus (cpu n)

/-- The memory in the chip. -/
def view (s : Soc) : BitVec 23 → Fin 4 → BitVec 8 := s.wb.dut.chip.mem.view

end Soc

/-! ### No harm -/

/-- The data `d` is the response to `q` when the chip holds `m`: zero outside the SDRAM, for a read
the bytes of the word, and a write has been done. -/
structure Response (m : Cells) (q : Request) (d : BitVec 32) : Prop where
  outside : q.inSdram = false → d = 0
  read : q.inSdram = true → q.we = false →
    ∀ k : Fin 4, d.extractLsb' (8 * k) 8 = m.view (q.adr.extractLsb' 2 23) k
  write : q.inSdram = true → q.we = true → ∀ k : Fin 4, q.sel.getLsbD k = true →
    m.view (q.adr.extractLsb' 2 23) k = q.datW.extractLsb' (8 * k) 8

/-- An acknowledge comes while the master waits for a request, and is the response to it. -/
def Soc.Answered (s : Soc) : Prop :=
  s.wb.bridge.xbusAck = true → ∃ q age, s.wait = some (q, age) ∧
    Response s.wb.dut.chip.mem q s.wb.bridge.xbusDatR

/-- Clock `n` does no harm: an acknowledge is the answer to the request that the master waits for,
and each byte that changes is one that an issued write to the SDRAM selects, and becomes what this
request says. -/
structure Harmless (mem : Cells) (cpu : ℕ → Cpu) (n : ℕ) : Prop where
  answered : (Soc.run mem cpu n).Answered
  written : ∀ w k, (Soc.run mem cpu (n + 1)).view w k ≠ (Soc.run mem cpu n).view w k →
    ∃ q ∈ reqs (Soc.busAt mem cpu) n, q.toWrite.addr = w ∧ q.toWrite.sel k = true ∧
      (Soc.run mem cpu (n + 1)).view w k = q.toWrite.data k

/-! ### When a request is taken -/

/-- The controller takes a request from the port. -/
def Wb.takes (s : Wb) : Bool :=
  decide (s.dut.ctrl.state = .idle) && !s.dut.ctrl.refReq && s.bridge.pending

lemma Wb.takes_iff {s : Wb} : s.takes = true ↔
    s.dut.ctrl.state = .idle ∧ s.dut.ctrl.refReq = false ∧ s.bridge.pending = true := by
  simp [Wb.takes, and_assoc]

/-- The clocks from then to the acknowledge: a row may have to be closed and another one opened. -/
def latency (c : Ctrl) (q : Request) : ℕ :=
  (if c.rowOpen ∧ addrBa q.addr = c.openBa ∧ addrRow q.addr = c.openRow then 0
    else if c.rowOpen then 6 else 3) + if q.wstrb = 0 then 12 else 9

/-- What the controller takes is a request to the SDRAM that the master waits for, and will still
wait for when the acknowledge comes. -/
def Soc.inTime (s : Soc) : Bool :=
  !s.wb.takes || match s.wait with
    | some (q, age) => q.inSdram && decide (age + latency s.wb.dut.ctrl q ≤ xbusTimeout)
    | none => false

/-- The clocks from a state of a transaction to its acknowledge. -/
def rest (c : Ctrl) : ℕ :=
  match c.state with
  | .doneW => 1
  | .done => 2
  | .rdPreW => 4 - c.cnt.toNat
  | .rdCap1 => 5
  | .rdGap => 6
  | .rdCap0 => 7
  | .rdWait => 8
  | .rdCmd1 => 9
  | .rdNop1 => 10
  | .rdCmd0 => 11
  | .wrRec => 6 - c.cnt.toNat
  | .wrCmd1 => 7
  | .wrCmd0 => 8
  | .actW => (if c.isWrite then 10 else 13) - c.cnt.toNat
  | .act => if c.isWrite then 11 else 14
  | .preOldW => (if c.isWrite then 13 else 16) - c.cnt.toNat
  | .preOld => if c.isWrite then 14 else 17
  | _ => 0

open Ctrl in
lemma rest_next {c : Ctrl} (h : RefPhase c) (hb : c.state.busy = true) (p : Ports) :
    rest (c.next p) + 1 = rest c := by
  unfold RefPhase at h
  unfold rest
  cases hs : c.state <;> simp only [hs, State.busy, Bool.false_eq_true] at h hb <;>
    simp only [Ctrl.next, mainFsm, hs, waitCnt, tRP, tRCD, tWR]
  all_goals (try split_ifs) <;> simp_all
  all_goals bv_omega

open Ctrl in
/-- What taking a request does. -/
lemma next_accept {c : Ctrl} {p : Ports} {q : Request} (hst : c.state = .idle)
    (hreq : c.refReq = false) (hsel : p.sel = true) (ha : p.addr = q.addr)
    (hs : p.wstrb = q.wstrb) : (c.next p).isWrite = decide (q.wstrb ≠ 0) ∧
      (c.next p).state =
        if c.rowOpen ∧ addrBa q.addr = c.openBa ∧ addrRow q.addr = c.openRow then
          if q.wstrb ≠ 0 then .wrCmd0 else .rdCmd0
        else if c.rowOpen then .preOld
        else .act := by
  simp only [Ctrl.next, mainFsm, hst, hreq, hsel, accept, ha, hs, Bool.false_eq_true, if_false,
    if_true]
  exact ⟨trivial, trivial⟩

/-- The latency is what is left after the clock in which the request is taken. -/
lemma rest_accept {c : Ctrl} {p : Ports} {q : Request} (hst : c.state = .idle)
    (hreq : c.refReq = false) (hsel : p.sel = true) (ha : p.addr = q.addr)
    (hs : p.wstrb = q.wstrb) :
    rest (c.next p) + 1 = latency c q ∧ (c.next p).state.busy = true := by
  obtain ⟨hw, hstate⟩ := next_accept hst hreq hsel ha hs
  rw [rest, latency, hstate, hw]
  by_cases hz : q.wstrb = 0
  · simp only [hz, ne_eq, not_true_eq_false, if_false, decide_false, if_true, Bool.false_eq_true]
    split_ifs <;> exact ⟨rfl, rfl⟩
  · simp only [hz, ne_eq, not_false_eq_true, if_false, decide_true, if_true]
    split_ifs <;> exact ⟨rfl, rfl⟩

/-! ### What a clock writes -/

lemma view_storeHi (m : Cells) (a : BitVec 25) (d : BitVec 32) (s : BitVec 4) (w : BitVec 23)
    (k : Fin 4) : (m.storeHi a d s).view w k = m.view w k ∨
      (m.storeHi a d s).view w k = (m.storeWord a d s).view w k := by
  rcases byte_cases k with ⟨j, rfl⟩ | ⟨j, rfl⟩
  · left
    simp only [view_lo, lo_storeHi]
  · right
    simp only [view_hi, Cells.storeWord, hi_storeHi, hi_storeLo]

/-- A byte that a clock changes is one of the latched word, under the latched strobes. -/
lemma Inv.changed {d : Dut} (h : Inv d) (i : DutIn) {w : BitVec 23} {k : Fin 4}
    (hne : (d.next i).chip.mem.view w k ≠ d.chip.mem.view w k) :
    d.ctrl.state.busy = true ∧ d.ctrl.addrLat.extractLsb' 2 23 = w ∧
      d.ctrl.wstrbLat.getLsbD k = true ∧
      (d.next i).chip.mem.view w k = d.ctrl.wdataLat.extractLsb' (8 * k) 8 := by
  rw [h.next_chip] at hne ⊢
  have hword : d.ctrl.state.busy = true ∧ d.chipNext.mem.view w k =
      (d.chip.mem.storeWord d.ctrl.addrLat d.ctrl.wdataLat d.ctrl.wstrbLat).view w k := by
    unfold Dut.chipNext at hne ⊢
    cases hst : d.ctrl.state <;> simp only [hst] at hne ⊢
    case wrCmd0 => exact ⟨rfl, (view_storeLo _ _ _ _ w k).resolve_left hne⟩
    case wrCmd1 => exact ⟨rfl, (view_storeHi _ _ _ _ w k).resolve_left hne⟩
    all_goals exact absurd rfl hne
  obtain ⟨hb, hword⟩ := hword
  rw [hword, view_storeWord] at hne
  rw [hword, view_storeWord]
  split_ifs at hne ⊢ with hhit
  · exact ⟨hb, hhit.1, hhit.2, rfl⟩
  · exact absurd rfl hne

/-- With the latches of a request these are bytes that it selects. -/
lemma Latched.toWrite {c : Ctrl} {q : Request} (h : Latched c q) (hq : q.inSdram = true)
    {k : Fin 4} (hs : c.wstrbLat.getLsbD k = true) :
    q.toWrite.addr = c.addrLat.extractLsb' 2 23 ∧ q.toWrite.sel k = true ∧
      q.toWrite.data k = c.wdataLat.extractLsb' (8 * k) 8 := by
  rw [h.wstrb, Request.wstrb] at hs
  rw [h.addr, h.wdata, Request.addr, BitVec.extractLsb'_extractLsb'_of_le (by omega)]
  cases hw : q.we <;> simp [hw] at hs
  simp [Request.toWrite, hq, hw, hs]

/-! ### The invariant -/

open Ctrl in
lemma busy_next {c : Ctrl} (hb : c.state.busy = true) (hst : c.state ≠ .doneW) (p : Ports) :
    (c.next p).state.busy = true := by
  cases hs : c.state <;> simp only [hs, State.busy, Bool.false_eq_true] at hb <;>
    simp only [Ctrl.next, mainFsm, hs, waitCnt]
  case doneW => exact absurd hs hst
  all_goals (try split_ifs) <;> rfl

open Ctrl in
/-- A transaction begins when a request is taken. -/
lemma free_next {c : Ctrl} (hb : c.state.busy = false) {p : Ports}
    (hno : ¬ (c.state = .idle ∧ c.refReq = false ∧ p.sel = true)) :
    (c.next p).state.busy = false := by
  cases hs : c.state <;> simp only [hs, State.busy, Bool.true_eq_false] at hb <;>
    simp only [Ctrl.next, mainFsm, hs, waitCnt]
  case idle =>
    split_ifs with hreq hsel
    · rfl
    · exact absurd ⟨hs, by simpa using hreq, hsel⟩ hno
    · rfl
  all_goals (try split_ifs) <;> rfl

/-- Outside a transaction nothing is written. -/
lemma Inv.mem_next {d : Dut} (h : Inv d) (hb : d.ctrl.state.busy = false) (i : DutIn) :
    (d.next i).chip.mem = d.chip.mem := by
  refine view_inj (funext fun w => funext fun k => ?_)
  by_contra hne
  exact Bool.false_ne_true (hb.symm.trans (h.changed i hne).1)

/-- The invariant.  Outside a transaction the bridge may be pending, whatever the master waits for.
In a transaction the latches have the request that the master waits for, and it will wait for
the acknowledge.  The chip held `m` before. -/
structure SocInv (s : Soc) (m : Cells) : Prop where
  dut : Inv s.wb.dut
  ready : s.wb.dut.ctrl.ready = true ↔ s.wb.dut.ctrl.state = .doneW
  ack : s.wb.bridge.xbusAck = true → s.wb.bridge.pending = false
  answered : s.Answered
  free : s.wb.dut.ctrl.state.busy = false → s.wb.dut.chip.mem = m
  busy : s.wb.dut.ctrl.state.busy = true → s.wb.bridge.pending = true ∧
    ∃ q age, s.wait = some (q, age) ∧ q.inSdram = true ∧ PortInv s.wb.dut m (some q) ∧
      age + rest s.wb.dut.ctrl ≤ xbusTimeout

namespace Soc

variable {s : Soc} {i : Cpu} {q : Request} {age : ℕ}

lemma waiting_of_ack (h : s.wb.bridge.xbusAck = false) : s.waiting = s.wait := by
  rw [waiting, h]
  rfl

/-- While the bridge is pending there is no acknowledge. -/
lemma waiting_of_pending (hack : s.wb.bridge.xbusAck = true → s.wb.bridge.pending = false)
    (hp : s.wb.bridge.pending = true) : s.waiting = s.wait := by
  refine waiting_of_ack ?_
  rw [Bool.eq_false_iff]
  intro ha
  exact Bool.false_ne_true ((hack ha).symm.trans hp)

lemma bus_of_waiting (h : s.waiting = some (q, age)) :
    s.bus i = ⟨q, false, true, i.floatRise, i.floatFall⟩ := by
  simp only [bus, h]

lemma wait_of_waiting (h : s.waiting = some (q, age)) (hlt : age < xbusTimeout) :
    (s.next i).wait = some (q, age + 1) := by
  simp only [next, h, if_pos hlt]

/-- A strobe is for the request that the CPU issues. -/
lemma wait_of_stb (h : (s.bus i).stb = true) : (s.next i).wait = some ((s.bus i).req, 1) := by
  unfold bus next at *
  cases hw : s.waiting with
  | some r => simp [hw] at h
  | none =>
    cases hi : i.issue with
    | none => simp [hw, hi] at h
    | some q => simp

/-- The bridge stays pending until the controller is ready. -/
lemma pending_next (hready : s.wb.dut.ctrl.ready = true ↔ s.wb.dut.ctrl.state = .doneW)
    (hp : s.wb.bridge.pending = true) (hst : s.wb.dut.ctrl.state ≠ .doneW) :
    (s.next i).wb.bridge.xbusAck = false ∧ (s.next i).wb.bridge.pending = true := by
  have hrdy := ready_eq_false hready hst
  simp [next, Wb.next, Bridge.next, hp, hrdy]

/-- The controller goes on with the request that the bus carries, whatever it is for. -/
lemma port_next {m : Cells} (hd : Inv s.wb.dut) (hw : s.waiting = some (q, age))
    (hport : PortInv s.wb.dut m (some q)) (hst : s.wb.dut.ctrl.state ≠ .doneW) :
    PortInv (s.next i).wb.dut m (some q) := by
  have hbus := bus_of_waiting (i := i) hw
  refine hport.next_some hd hst _ ?_ ?_ ?_ <;> simp only [Wb.dutIn, hbus]

/-- A strobe comes with `cyc`. -/
lemma cyc_of_stb (h : (s.bus i).stb = true) : (s.bus i).cyc = true := by
  unfold bus at *
  cases hw : s.waiting with
  | some r => rfl
  | none =>
    cases hi : i.issue with
    | none => simp [hw, hi] at h
    | some q => rfl

end Soc

namespace SocInv

variable {s : Soc} {m : Cells} {i : Cpu} {q : Request} {age : ℕ}

/-- A clock of a transaction before `ready`, or the clock in which its request is taken. -/
lemma next_held (h : SocInv s m) (hp : s.wb.bridge.pending = true) (hw : s.wait = some (q, age))
    (hq : q.inSdram = true) (hport : PortInv s.wb.dut m (some q))
    (hst : s.wb.dut.ctrl.state ≠ .doneW) (hb : (s.next i).wb.dut.ctrl.state.busy = true)
    (hle : age + (rest (s.next i).wb.dut.ctrl + 1) ≤ xbusTimeout) : SocInv (s.next i) m := by
  have hwaiting := (Soc.waiting_of_pending h.ack hp).trans hw
  obtain ⟨hack, hpend⟩ := Soc.pending_next (i := i) h.ready hp hst
  have hport' := Soc.port_next (i := i) h.dut hwaiting hport hst
  refine ⟨h.dut.next _, ready_next _ _, fun ha => ?_, fun ha => ?_, fun hb' => ?_, fun _ => ?_⟩
  · exact absurd (hack.symm.trans ha) Bool.false_ne_true
  · exact absurd (hack.symm.trans ha) Bool.false_ne_true
  · exact absurd (hb'.symm.trans hb) Bool.false_ne_true
  · exact ⟨hpend, q, age + 1, Soc.wait_of_waiting hwaiting (by omega), hq, hport', by omega⟩

/-- A served request has its response. -/
lemma response_serve {d : BitVec 32} (hq : q.inSdram = true)
    (hd : q.wstrb = 0 → d = m.hi q.addr ++ m.lo q.addr) : Response (m.serve q) q d := by
  have hword : q.addr.extractLsb' 2 23 = q.adr.extractLsb' 2 23 := by
    rw [Request.addr, BitVec.extractLsb'_extractLsb'_of_le (by omega)]
  refine ⟨fun ho => absurd (ho.symm.trans hq) Bool.false_ne_true, fun _ hwe k => ?_,
    fun _ hwe k hk => ?_⟩
  · have hz : q.wstrb = 0 := by simp [Request.wstrb, hwe]
    rw [hd hz, Track.lo_hi_view, hword, Cells.serve, if_pos hz]
  · have hs : q.wstrb = q.sel := by simp [Request.wstrb, hwe]
    have hne : q.wstrb ≠ 0 := by
      intro h
      rw [← hs, h] at hk
      simp at hk
    rw [Cells.serve, if_neg hne, view_storeWord, hs, if_pos ⟨hword, hk⟩]

/-- The clock with `ready`. -/
lemma next_done (h : SocInv s m) (hst : s.wb.dut.ctrl.state = .doneW) :
    ∃ m', SocInv (s.next i) m' := by
  have hb : s.wb.dut.ctrl.state.busy = true := by rw [hst]; rfl
  obtain ⟨hp, q, age, hw, hq, hport, hle⟩ := h.busy hb
  have hrdy := h.ready.2 hst
  have hrest : rest s.wb.dut.ctrl = 1 := by simp only [rest, hst]
  obtain ⟨hfree, hmem⟩ := hport.next_done h.dut hst (s.wb.dutIn (s.bus i))
  refine ⟨m.serve q, h.dut.next _, ready_next _ _, fun _ => ?_, fun _ => ?_, fun _ => hmem,
    fun hb' => ?_⟩
  · simp [Soc.next, Wb.next, Bridge.next, hp, hrdy]
  · have hwait := (Soc.waiting_of_pending h.ack hp).trans hw
    refine ⟨q, age + 1, Soc.wait_of_waiting hwait (by omega), ?_⟩
    rw [show (s.next i).wb.dut.chip.mem = m.serve q from hmem]
    refine response_serve hq fun hz => ?_
    simpa [Soc.next, Wb.next, Bridge.next, hp, hrdy] using hport.rdata h.dut hst hz
  · exact absurd (hfree.symm.trans hb') Bool.false_ne_true

/-- A clock outside a transaction in which no request is taken. -/
lemma next_free (h : SocInv s m) (hb : s.wb.dut.ctrl.state.busy = false)
    (hno : s.wb.takes = false) : SocInv (s.next i) m := by
  have hst : s.wb.dut.ctrl.state ≠ .doneW := by
    intro hst
    rw [hst] at hb
    exact absurd hb (by decide)
  have hrdy := ready_eq_false h.ready hst
  have hfree : (s.next i).wb.dut.ctrl.state.busy = false := by
    refine free_next hb fun hall => ?_
    exact Bool.false_ne_true (hno.symm.trans (Wb.takes_iff.2 hall))
  have hack : (s.next i).wb.bridge.xbusAck = true →
      (s.bus i).stb = true ∧ s.wb.bridge.pending = false ∧ (s.bus i).req.inSdram = false := by
    simp only [Soc.next, Wb.next, Bridge.next, hrdy, Bool.and_false, Bool.false_or,
      Bool.and_eq_true, Bool.not_eq_true']
    rintro ⟨⟨⟨-, hs⟩, hp⟩, ho⟩
    exact ⟨hs, hp, ho⟩
  refine ⟨h.dut.next _, ready_next _ _, fun ha => ?_, fun ha => ?_, fun _ => ?_, fun hb' => ?_⟩
  · obtain ⟨-, hp, ho⟩ := hack ha
    simp [Soc.next, Wb.next, Bridge.next, hp, ho]
  · -- a request outside the SDRAM
    obtain ⟨hs, hp, ho⟩ := hack ha
    refine ⟨_, 1, Soc.wait_of_stb hs, fun _ => ?_, fun hq => ?_, fun hq => ?_⟩
    · have hc := Soc.cyc_of_stb hs
      simp [Soc.next, Wb.next, Bridge.next, hp, hs, hc, ho]
    · exact absurd (ho.symm.trans hq) Bool.false_ne_true
    · exact absurd (ho.symm.trans hq) Bool.false_ne_true
  · exact (h.dut.mem_next hb _).trans (h.free hb)
  · exact absurd (hfree.symm.trans hb') Bool.false_ne_true

/-- A clock in which a request is taken in time. -/
lemma next_take (h : SocInv s m) (ht : s.wb.takes = true) (hin : s.inTime = true) :
    SocInv (s.next i) m := by
  obtain ⟨hst, hreq, hp⟩ := Wb.takes_iff.1 ht
  rw [Soc.inTime, ht, Bool.not_true, Bool.false_or] at hin
  cases hw : s.wait with
  | none => simp [hw] at hin
  | some r =>
    obtain ⟨q, age⟩ := r
    obtain ⟨hq, hle⟩ : q.inSdram = true ∧ age + latency s.wb.dut.ctrl q ≤ xbusTimeout := by
      simpa [hw] using hin
    have hidle : s.wb.dut.ctrl.state.busy = false := by rw [hst]; rfl
    have hport : PortInv s.wb.dut m (some q) := by
      refine ⟨fun hb => absurd (hidle.symm.trans hb) Bool.false_ne_true, ?_⟩
      rw [h.free hidle, hst]
      rfl
    have hbus := Soc.bus_of_waiting (i := i) ((Soc.waiting_of_pending h.ack hp).trans hw)
    obtain ⟨hrest, hb⟩ := rest_accept (q := q) (p := ⟨s.wb.bridge.pending, (s.bus i).req.addr,
      (s.bus i).req.datW, (s.bus i).req.wstrb, s.wb.dut.sdramDq (s.bus i).floatRise⟩) hst hreq hp
      (by rw [hbus]) (by rw [hbus])
    refine h.next_held hp hw hq hport (by rw [hst]; decide) hb ?_
    rw [← hrest] at hle
    exact hle

/-- Every clock that takes nothing but requests in time keeps the invariant. -/
lemma next (h : SocInv s m) (hin : s.inTime = true)
    (hph : s.wb.dut.ctrl.state.busy = true → RefPhase s.wb.dut.ctrl) :
    ∃ m', SocInv (s.next i) m' := by
  cases hb : s.wb.dut.ctrl.state.busy with
  | true =>
    by_cases hst : s.wb.dut.ctrl.state = .doneW
    · exact h.next_done hst
    · obtain ⟨hp, q, age, hw, hq, hport, hle⟩ := h.busy hb
      refine ⟨m, h.next_held hp hw hq hport hst (busy_next hb hst _) ?_⟩
      rw [show rest (s.next i).wb.dut.ctrl + 1 = rest s.wb.dut.ctrl from
        rest_next (hph hb) hb _]
      exact hle
  | false =>
    cases ht : s.wb.takes with
    | true => exact ⟨m, h.next_take ht hin⟩
    | false => exact ⟨m, h.next_free hb ht⟩

end SocInv

/-! ### Runs -/

section Run

variable (mem : Cells) (cpu : ℕ → Cpu) (n : ℕ)

lemma Soc.run_succ : Soc.run mem cpu (n + 1) = (Soc.run mem cpu n).next (cpu n) := rfl

lemma Soc.wb_run : (Soc.run mem cpu n).wb = Wb.run mem (Soc.busAt mem cpu) n := by
  induction n with
  | zero => rfl
  | succ n ih =>
    rw [Soc.run_succ, Wb.run_succ, ← ih]
    rfl

lemma socInv_reset : SocInv ⟨Wb.reset mem, none⟩ mem where
  dut := inv_reset mem
  ready := by simp [Wb.reset, Dut.reset, Ctrl.reset]
  ack := fun _ => rfl
  answered := fun h => absurd h Bool.false_ne_true
  free := fun _ => rfl
  busy := fun h => absurd h Bool.false_ne_true

lemma Soc.dut_run : Inv (Soc.run mem cpu n).wb.dut :=
  Clocked.run_inv (I := fun s : Soc => Inv s.wb.dut) (inv_reset mem) (fun _ _ h => h.next _) n

lemma Soc.ready_run : (Soc.run mem cpu n).wb.dut.ctrl.ready = true ↔
    (Soc.run mem cpu n).wb.dut.ctrl.state = .doneW :=
  Clocked.run_inv (I := fun s : Soc => s.wb.dut.ctrl.ready = true ↔ s.wb.dut.ctrl.state = .doneW)
    (by simp [Wb.reset, Dut.reset, Ctrl.reset]) (fun _ _ _ => ready_next _ _) n

/-- The initialisation is over when a transaction is under way. -/
lemma Soc.refInv_run {mem : Cells} {cpu : ℕ → Cpu} {n : ℕ}
    (h : (Soc.run mem cpu n).wb.dut.ctrl.state.isInit = false) :
    initDone ≤ n ∧ RefInv (Soc.run mem cpu n).wb.dut.ctrl := by
  have hinit := (Soc.dut_run mem cpu n).init
  rw [h, Soc.wb_run, Wb.ctrl_run, Bool.not_false, initialized_iff] at hinit
  rw [Soc.wb_run]
  exact ⟨hinit, refInv_ctrl mem _ hinit⟩

/-- The master waits for a request that it has issued. -/
lemma Soc.wait_mem_reqs {mem : Cells} {cpu : ℕ → Cpu} {n : ℕ} {q : Request} {age : ℕ}
    (h : (Soc.run mem cpu n).wait = some (q, age)) : q ∈ reqs (Soc.busAt mem cpu) n := by
  induction n generalizing q age with
  | zero => cases h
  | succ n ih =>
    rw [reqs, List.mem_append]
    rw [Soc.run_succ, Soc.next] at h
    cases hw : (Soc.run mem cpu n).waiting with
    | some r =>
      obtain ⟨q', age'⟩ := r
      rw [hw] at h
      simp only at h
      split_ifs at h
      cases h
      refine Or.inl (@ih q age' ?_)
      rw [Soc.waiting] at hw
      split_ifs at hw
      exact hw
    | none =>
      rw [hw] at h
      obtain ⟨q', hi, hq⟩ := Option.map_eq_some_iff.1 h
      cases hq
      right
      simp [Soc.busAt, Soc.bus, hw, hi]

lemma issue_of_mem_reqs {mem : Cells} {cpu : ℕ → Cpu} {n : ℕ} {q : Request}
    (h : q ∈ reqs (Soc.busAt mem cpu) n) : ∃ k, (cpu k).issue = some q := by
  induction n with
  | zero => cases h
  | succ n ih =>
    rw [reqs, List.mem_append] at h
    rcases h with h | h
    · exact ih h
    · unfold Soc.busAt Soc.bus at h
      cases hw : (Soc.run mem cpu n).waiting with
      | some r => simp [hw] at h
      | none =>
        cases hi : (cpu n).issue with
        | none => simp [hw, hi] at h
        | some q' =>
          simp only [hw, hi, if_true, List.mem_singleton] at h
          exact ⟨n, hi.trans (congrArg some h.symm)⟩

/-- A transaction is not part of the initialisation. -/
lemma State.isInit_of_busy {st : State} (h : st.busy = true) : st.isInit = false := by
  cases st <;> first | rfl | cases h

lemma socInv_run {mem : Cells} {cpu : ℕ → Cpu} {n : ℕ}
    (h : ∀ k < n, (Soc.run mem cpu k).inTime = true) : ∃ m, SocInv (Soc.run mem cpu n) m := by
  refine Clocked.run_inv_of (I := fun s => ∃ m, SocInv s m) (C := fun s => s.inTime = true ∧
    (s.wb.dut.ctrl.state.busy = true → RefPhase s.wb.dut.ctrl)) ⟨mem, socInv_reset mem⟩ ?_ ?_
  · rintro s i ⟨hin, hph⟩ ⟨m, hm⟩
    exact hm.next hin hph
  · exact fun k hk => ⟨h k hk, fun hb => (Soc.refInv_run (State.isInit_of_busy hb)).2.phase⟩

/-- **Abandoned requests do no harm** in a run in which the controller takes only requests that the
master waits for, and will wait for until the acknowledge. -/
theorem harmless (mem : Cells) (cpu : ℕ → Cpu) (n : ℕ)
    (h : ∀ k < n, (Soc.run mem cpu k).inTime = true) : Harmless mem cpu n := by
  obtain ⟨m, hm⟩ := socInv_run h
  refine ⟨hm.answered, fun w k hne => ?_⟩
  obtain ⟨hb, haddr, hsel, hdata⟩ := hm.dut.changed _ hne
  obtain ⟨-, q, age, hw, hq, hport, -⟩ := hm.busy hb
  obtain ⟨ha, hs, hd⟩ := (hport.1 hb).toWrite hq hsel
  exact ⟨q, Soc.wait_mem_reqs hw, ha.trans haddr, hs, hdata.trans hd.symm⟩

end Run

/-! ### A master that leaves the SDRAM alone at first -/

/-- No request to the SDRAM is issued so early that it could be given up. -/
def Late (cpu : ℕ → Cpu) : Prop :=
  ∀ n q, (cpu n).issue = some q → q.inSdram = true → initDone + 18 ≤ n + xbusTimeout

/-- An upper bound on the clocks before the acknowledge of a pending request. -/
def ahead (n : ℕ) (c : Ctrl) : ℕ := if n < initDone then initDone - n + 18 else left c

/-- The bridge is pending for what the master waits for, and the master will wait long enough. -/
structure LateInv (n : ℕ) (s : Soc) : Prop where
  ack : s.wb.bridge.xbusAck = true → s.wb.bridge.pending = false
  free : s.wb.bridge.pending = false → s.waiting = none
  held : s.wb.bridge.pending = true → ∃ q age, s.wait = some (q, age) ∧ q.inSdram = true ∧
    age + ahead n s.wb.dut.ctrl ≤ xbusTimeout

lemma latency_le (c : Ctrl) (q : Request) : latency c q ≤ 18 := by
  unfold latency
  split_ifs <;> decide

variable {mem : Cells} {cpu : ℕ → Cpu} {n : ℕ}

/-- A clock brings a pending request closer to its acknowledge. -/
lemma ahead_next (hp : (Soc.run mem cpu n).wb.bridge.pending = true)
    (hst : (Soc.run mem cpu n).wb.dut.ctrl.state ≠ .doneW) :
    ahead (n + 1) (Soc.run mem cpu (n + 1)).wb.dut.ctrl + 1 ≤
      ahead n (Soc.run mem cpu n).wb.dut.ctrl := by
  unfold ahead
  rcases Nat.lt_trichotomy (n + 1) initDone with hn | hn | hn
  · rw [if_pos hn, if_pos (by omega)]
    omega
  · -- the end of the initialisation
    have hdone := (initIn_done (Wb.ports mem (Soc.busAt mem cpu))).done
    rw [← hn, ← Wb.ctrl_run, ← Soc.wb_run] at hdone
    rw [if_neg (by omega), if_pos (by omega), left, hdone.2.2.2.1, hdone.2.2.1]
    simp only [Bool.false_eq_true, if_false]
    omega
  · rw [if_neg (by omega), if_neg (by omega)]
    have hinv := refInv_ctrl mem (Soc.busAt mem cpu) (show initDone ≤ n by omega)
    rw [← Soc.wb_run] at hinv
    exact left_next hinv hst _ hp

/-- A request that is issued late enough is acknowledged in time. -/
lemma ahead_le (hl : initDone + 18 ≤ n + xbusTimeout) (c : Ctrl) :
    1 + ahead (n + 1) c ≤ xbusTimeout := by
  have hleft := left_le c
  have h29 : 29 ≤ xbusTimeout := by decide
  unfold ahead
  split_ifs <;> omega

lemma LateInv.next (hl : Late cpu) (h : LateInv n (Soc.run mem cpu n)) :
    LateInv (n + 1) (Soc.run mem cpu (n + 1)) := by
  have hready := Soc.ready_run mem cpu n
  have hahead := @ahead_next mem cpu n
  rw [Soc.run_succ] at *
  set s := Soc.run mem cpu n
  cases hp : s.wb.bridge.pending with
  | true =>
    obtain ⟨q, age, hw, hq, hle⟩ := h.held hp
    have hwaiting := (Soc.waiting_of_pending h.ack hp).trans hw
    by_cases hst : s.wb.dut.ctrl.state = .doneW
    · have hrdy := hready.2 hst
      refine ⟨fun _ => ?_, fun _ => ?_, fun hp' => ?_⟩ <;>
        simp_all [Soc.next, Soc.waiting, Wb.next, Bridge.next]
    · obtain ⟨hack', hpend⟩ := Soc.pending_next (i := cpu n) hready hp hst
      have hstep := hahead hp hst
      refine ⟨fun ha => ?_, fun hp' => ?_, fun _ => ?_⟩
      · exact absurd (hack'.symm.trans ha) Bool.false_ne_true
      · exact absurd (hp'.symm.trans hpend) Bool.false_ne_true
      · exact ⟨q, age + 1, Soc.wait_of_waiting hwaiting (by omega), hq, by omega⟩
  | false =>
    have hwaiting := h.free hp
    cases hi : (cpu n).issue with
    | none =>
      refine ⟨fun ha => ?_, fun _ => ?_, fun hp' => ?_⟩ <;>
        simp_all [Soc.next, Soc.waiting, Soc.bus, Wb.next, Bridge.next]
    | some q =>
      cases hq : q.inSdram with
      | false =>
        refine ⟨fun ha => ?_, fun _ => ?_, fun hp' => ?_⟩ <;>
          simp_all [Soc.next, Soc.waiting, Soc.bus, Wb.next, Bridge.next]
      | true =>
        have hle := ahead_le (hl n q hi hq) (s.next (cpu n)).wb.dut.ctrl
        refine ⟨fun ha => ?_, fun hp' => ?_, fun _ => ⟨q, 1, ?_, hq, hle⟩⟩ <;>
          simp_all [Soc.next, Soc.bus, Wb.next, Bridge.next]

lemma lateInv_run (hl : Late cpu) (n : ℕ) : LateInv n (Soc.run mem cpu n) := by
  induction n with
  | zero =>
    have hno : ¬ false = true := Bool.false_ne_true
    exact ⟨fun _ => rfl, fun _ => rfl, fun h => absurd h hno⟩
  | succ n ih => exact ih.next hl

/-- When no request to the SDRAM is issued in the first 5942 clocks, every request is taken in
time. -/
theorem inTime_of_late (mem : Cells) (hl : Late cpu) (n : ℕ) :
    (Soc.run mem cpu n).inTime = true := by
  cases ht : (Soc.run mem cpu n).wb.takes with
  | false => simp [Soc.inTime, ht]
  | true =>
    obtain ⟨hst, hreq, hp⟩ := Wb.takes_iff.1 ht
    obtain ⟨q, age, hw, hq, hle⟩ := (lateInv_run hl n).held hp
    have hn := (@Soc.refInv_run mem cpu n (by rw [hst]; rfl)).1
    have h18 := latency_le (Soc.run mem cpu n).wb.dut.ctrl q
    rw [ahead, if_neg (by omega), left, hst, hreq] at hle
    simp only [Bool.false_eq_true, if_false] at hle
    simp only [Soc.inTime, ht, hw, hq, Bool.not_true, Bool.false_or, Bool.true_and,
      decide_eq_true_eq]
    omega

/-- A write to the SDRAM in clock 6000. -/
theorem harmless_write : Harmless (fun _ _ _ => 0)
    (fun n => ⟨if n = 6000 then some ⟨0x40000000, 0xDEADBEEF, 0b1111, true⟩ else none,
      ⟨0, 0, 0, false⟩, 0, 0⟩) 10030 := by
  refine harmless _ _ _ fun k _ => inTime_of_late _ (fun n q hi _ => ?_) k
  simp only [Option.ite_none_right_eq_some] at hi
  rw [hi.1]
  decide

/-! ### A request that is given up -/

/-- A pending request of any kind is served in the end. -/
lemma Soc.served {m : Cells} {q : Request} {age k : ℕ} (hn : initDone ≤ n)
    (hp : (Soc.run mem cpu n).wb.bridge.pending = true)
    (hw : (Soc.run mem cpu n).waiting = some (q, age))
    (hport : PortInv (Soc.run mem cpu n).wb.dut m (some q))
    (hk : left (Soc.run mem cpu n).wb.dut.ctrl ≤ k) (hle : age + k ≤ xbusTimeout) :
    ∃ j, (Soc.run mem cpu j).wb.dut.chip.mem = m.serve q := by
  induction k using Nat.strong_induction_on generalizing n age with
  | _ k ih =>
    by_cases hst : (Soc.run mem cpu n).wb.dut.ctrl.state = .doneW
    · refine ⟨n, hport.2.trans ?_⟩
      rw [hst]
      rfl
    · have hinv := refInv_ctrl mem (Soc.busAt mem cpu) hn
      rw [← Soc.wb_run] at hinv
      have hleft : left (Soc.run mem cpu (n + 1)).wb.dut.ctrl + 1 ≤
          left (Soc.run mem cpu n).wb.dut.ctrl := left_next hinv hst _ hp
      obtain ⟨hack, hp'⟩ := Soc.pending_next (i := cpu n) (Soc.ready_run mem cpu n) hp hst
      have hw' : (Soc.run mem cpu (n + 1)).waiting = some (q, age + 1) :=
        (Soc.waiting_of_ack hack).trans (Soc.wait_of_waiting hw (by omega))
      have hport' := Soc.port_next (i := cpu n) (Soc.dut_run mem cpu n) hw hport hst
      exact ih (k - 1) (by omega) (show initDone ≤ n + 1 by omega) hp' hw' hport' (by omega)
        (by omega)

/-- Without an issued write to the SDRAM a harmless run changes nothing. -/
lemma view_of_harmless (h : ∀ n, Harmless mem cpu n)
    (hno : ∀ n q, (cpu n).issue = some q → ∀ k, q.toWrite.sel k = false) (n : ℕ) :
    (Soc.run mem cpu n).view = mem.view := by
  induction n with
  | zero => rfl
  | succ n ih =>
    rw [← ih]
    funext w k
    by_contra hne
    obtain ⟨q, hq, -, hsel, -⟩ := (h n).written w k hne
    obtain ⟨j, hj⟩ := issue_of_mem_reqs hq
    exact Bool.false_ne_true ((hno j q hj k).symm.trans hsel)

/-- A clock of the initialisation: the bridge stays pending, and there is no acknowledge. -/
lemma Soc.init_next (hn : n < initDone) (hp : (Soc.run mem cpu n).wb.bridge.pending = true) :
    (Soc.run mem cpu (n + 1)).wb.bridge.pending = true ∧
      (Soc.run mem cpu (n + 1)).waiting = ((Soc.run mem cpu n).next (cpu n)).wait := by
  have hst : (Soc.run mem cpu n).wb.dut.ctrl.state ≠ .doneW := by
    intro hst
    have hle := (@Soc.refInv_run mem cpu n (by rw [hst]; rfl)).1
    omega
  obtain ⟨hack, hp'⟩ := Soc.pending_next (i := cpu n) (Soc.ready_run mem cpu n) hp hst
  exact ⟨hp', Soc.waiting_of_ack hack⟩

/-- The master goes on waiting. -/
lemma Soc.init_waits {q : Request} {age : ℕ} (hp : (Soc.run mem cpu n).wb.bridge.pending = true)
    (hw : (Soc.run mem cpu n).waiting = some (q, age)) (j : ℕ) (hj : age + j ≤ xbusTimeout)
    (hn : n + j ≤ initDone) : (Soc.run mem cpu (n + j)).wb.bridge.pending = true ∧
      (Soc.run mem cpu (n + j)).waiting = some (q, age + j) := by
  induction j with
  | zero => exact ⟨hp, hw⟩
  | succ j ih =>
    obtain ⟨hp', hw'⟩ := ih (by omega) (by omega)
    obtain ⟨hp', hnext⟩ := Soc.init_next (show n + j < initDone by omega) hp'
    have hlt : age + j < xbusTimeout := by omega
    exact ⟨hp', hnext.trans (Soc.wait_of_waiting hw' hlt)⟩

/-- The master issues nothing. -/
lemma Soc.init_rests (hp : (Soc.run mem cpu n).wb.bridge.pending = true)
    (hw : (Soc.run mem cpu n).waiting = none) (j : ℕ)
    (hno : ∀ k, n ≤ k → k < n + j → (cpu k).issue = none) (hn : n + j ≤ initDone) :
    (Soc.run mem cpu (n + j)).wb.bridge.pending = true ∧
      (Soc.run mem cpu (n + j)).waiting = none := by
  induction j with
  | zero => exact ⟨hp, hw⟩
  | succ j ih =>
    obtain ⟨hp', hw'⟩ := ih (fun k hk hk' => hno k hk (by omega)) (by omega)
    obtain ⟨hp', hnext⟩ := Soc.init_next (show n + j < initDone by omega) hp'
    refine ⟨hp', hnext.trans ?_⟩
    simp only [Soc.next, hw', hno (n + j) (by omega) (by omega), Option.map_none]

/-- A read of the SDRAM in the first clock, and in clock 6000 a write to another device. -/
def early (n : ℕ) : Cpu where
  issue :=
    if n = 0 then some ⟨0x40000000, 0, 0b1111, false⟩
    else if n = 6000 then some ⟨0xF0000000, 0x07070707, 0b1111, true⟩
    else none
  idle := ⟨0, 0, 0, false⟩
  floatRise := 0
  floatFall := 0

/-- At the end of the initialisation the bridge is pending for the read, and the master waits for
the write. -/
lemma early_run (mem : Cells) : (Soc.run mem early initDone).wb.bridge.pending = true ∧
    (Soc.run mem early initDone).waiting =
      some (⟨0xF0000000, 0x07070707, 0b1111, true⟩, 4020) := by
  have hin : (⟨0x40000000#32, 0#32, 15#4, false⟩ : Request).inSdram = true := by decide
  have h1 : (Soc.run mem early 1).wb.bridge.pending = true ∧
      (Soc.run mem early 1).waiting = some (⟨0x40000000, 0, 0b1111, false⟩, 1) := by
    simp [Soc.run, Soc.next, Soc.waiting, Soc.bus, Wb.next, Bridge.next, Wb.reset, Bridge.reset,
      early, hin, Clocked.run]
  obtain ⟨hp, hw⟩ := Soc.init_waits h1.1 h1.2 4095 (by decide) (by decide)
  -- the read is given up
  obtain ⟨hp, hgone⟩ := Soc.init_next (show 1 + 4095 < initDone by decide) hp
  rw [Soc.next, hw] at hgone
  obtain ⟨hp, hw⟩ := Soc.init_rests hp hgone 1903 (fun k hk hk' => by
    simp only [early]
    rw [if_neg (by omega), if_neg (by omega)]) (by decide)
  -- the write is issued
  obtain ⟨hp, hissue⟩ := Soc.init_next (show 1 + 4095 + 1 + 1903 < initDone by decide) hp
  rw [Soc.next, hw] at hissue
  have hend : 1 + 4095 + 1 + 1903 + 1 + 4019 = initDone := by decide
  rw [← hend]
  exact Soc.init_waits hp hissue 4019 (by decide) (by decide)

/-- What the master waits for at the end of the initialisation is served, if the bridge is pending
for whatever it may be. -/
lemma Soc.served_first {m : Cells} {q : Request} {age : ℕ} (hn : n = initDone)
    (hp : (Soc.run mem cpu n).wb.bridge.pending = true)
    (hw : (Soc.run mem cpu n).waiting = some (q, age))
    (hm : (Soc.run mem cpu n).wb.dut.chip.mem = m) (hle : age + 18 ≤ xbusTimeout) :
    ∃ j, (Soc.run mem cpu j).wb.dut.chip.mem = m.serve q := by
  have hdone := (initIn_done (Wb.ports mem (Soc.busAt mem cpu))).done
  rw [← hn, ← Wb.ctrl_run, ← Soc.wb_run] at hdone
  obtain ⟨-, -, hreq, hst, -⟩ := hdone
  have hport : PortInv (Soc.run mem cpu n).wb.dut m (some q) := by
    constructor
    · intro hb
      rw [hst] at hb
      cases hb
    · rw [hm, hst]
      rfl
  have hleft : left (Soc.run mem cpu n).wb.dut.ctrl = 18 := by
    simp only [left, hst, hreq, Bool.false_eq_true, if_false]
  exact Soc.served hn.ge hp hw hport hleft.le hle

/-- The controller does the write in the SDRAM, although it is to another device. -/
theorem not_harmless : ¬ ∀ n, Harmless (fun _ _ _ => 0) early n := by
  intro h
  have hview := view_of_harmless h fun n q hi k => by
    simp only [early] at hi
    split_ifs at hi
    · cases hi
      rfl
    · cases hi
      rfl
  obtain ⟨hp, hw⟩ := early_run fun _ _ _ => 0
  obtain ⟨j, hj⟩ := Soc.served_first rfl hp hw (view_inj (hview initDone)) (by decide)
  have hbyte := congrFun (congrFun (hview j) 0) 0
  rw [Soc.view, hj] at hbyte
  exact absurd hbyte (by decide)

end Neorv32Boot.Sdram
