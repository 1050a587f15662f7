import Neorv32Boot.Sdram.Invariant

/-!
# Command legality

The command stream of the controller is legal for the chip: each command finds the banks in a
state that allows it, the delays between commands are kept, and the two sides never drive
`sdram_dq` together.
-/

namespace Neorv32Boot.Sdram

/-- The run of the controller and the chip from reset. -/
def Dut.run (mem : Cells) (inp : ℕ → DutIn) : ℕ → Dut :=
  Clocked.run Dut.next (Dut.reset mem) inp

/-- The command on the pins in clock `n`. -/
def cmdAt (r : ℕ → Dut) (n : ℕ) : Cmd := (r n).ctrl.sdramCmd

/-! ### Quiet clocks after a command -/

/-- The FSM gives no command in the next `k` clocks. -/
def QuietFor (k : ℕ) (c : Ctrl) : Prop :=
  match c.state with
  | .initAr1W | .initAr2W | .refArW => c.cnt.toNat + k ≤ 5
  | .initLmrW => c.cnt.toNat + k ≤ 3
  | .wrRec => c.cnt.toNat + k ≤ 4
  | _ => k = 0

open Ctrl in
/-- While it is quiet, the command is NOP, and one clock passes. -/
lemma QuietFor.next {k : ℕ} {c : Ctrl} (h : QuietFor (k + 1) c) (p : Ports) :
    (c.next p).sdramCmd = .nop ∧ QuietFor k (c.next p) := by
  unfold QuietFor at h ⊢
  simp only [next_sdramCmd, next_state, next_cnt]
  generalize hn : mainFsm c p = n
  cases hst : c.state <;> simp only [hst] at h <;> (try omega) <;>
    simp only [mainFsm, hst, waitCnt, tRC, tMRD, tWR, tRP] at hn <;> split_ifs at hn with hw <;>
    subst hn <;> refine ⟨rfl, ?_⟩
  all_goals
    dsimp only
    bv_omega

open Ctrl in
/-- Every command but the first WRITE of a pair is followed by quiet clocks. -/
lemma quietFor_of_cmd (c : Ctrl) (p : Ports) :
    ((c.next p).sdramCmd = .refresh → QuietFor 5 (c.next p)) ∧
      ((c.next p).sdramCmd = .lmr → QuietFor 3 (c.next p)) ∧
      ((c.next p).sdramCmd = .write →
        (c.next p).state = .wrCmd1 ∨ QuietFor 4 (c.next p)) := by
  unfold QuietFor
  simp only [next_sdramCmd, next_state, next_cnt]
  generalize hn : mainFsm c p = n
  cases hst : c.state <;> simp only [mainFsm, hst, waitCnt, accept] at hn <;>
    (try split_ifs at hn) <;> subst hn <;> simp

open Ctrl in
lemma cmd_of_wrCmd1 {c : Ctrl} (h : c.state = .wrCmd1) (p : Ports) :
    (c.next p).sdramCmd = .write := by
  simp [Ctrl.next, mainFsm, h]

section Run

variable {mem : Cells} {inp : ℕ → DutIn}

/-- A quiet state makes the next `k` commands of the run NOPs. -/
lemma nop_of_quietFor {k n : ℕ} (h : QuietFor k (Dut.run mem inp n).ctrl) :
    ∀ j, n < j → j ≤ n + k → cmdAt (Dut.run mem inp) j = .nop := by
  induction k generalizing n with
  | zero => intro j hj hk; omega
  | succ k ih =>
    intro j hj hk
    obtain ⟨hnop, hq⟩ := h.next _
    by_cases hj' : j = n + 1
    · subst hj'
      exact hnop
    · exact ih (n := n + 1) hq j (by omega) (by omega)

/-- A command in the run was put on the pins by a clock: the command under reset is INHIBIT. -/
lemma pos_of_cmdAt {n : ℕ} {c : Cmd} (h : cmdAt (Dut.run mem inp) n = c) (hc : c ≠ .inhibit) :
    ∃ m, n = m + 1 := by
  cases n with
  | zero => exact absurd h.symm hc
  | succ m => exact ⟨m, rfl⟩

/-- After a REFRESH five clocks are quiet. -/
lemma nop_after_refresh {i j : ℕ} (hi : cmdAt (Dut.run mem inp) i = .refresh) (hij : i < j)
    (hj : j ≤ i + 5) : cmdAt (Dut.run mem inp) j = .nop := by
  obtain ⟨m, rfl⟩ := pos_of_cmdAt hi (by simp)
  exact nop_of_quietFor ((quietFor_of_cmd _ _).1 hi) j hij hj

/-- After a LOAD MODE REGISTER three clocks are quiet. -/
lemma nop_after_lmr {i j : ℕ} (hi : cmdAt (Dut.run mem inp) i = .lmr) (hij : i < j)
    (hj : j ≤ i + 3) : cmdAt (Dut.run mem inp) j = .nop := by
  obtain ⟨m, rfl⟩ := pos_of_cmdAt hi (by simp)
  exact nop_of_quietFor ((quietFor_of_cmd _ _).2.1 hi) j hij hj

/-- A WRITE is followed by another WRITE or by a NOP. -/
lemma cmd_after_write {i : ℕ} (hi : cmdAt (Dut.run mem inp) i = .write) :
    cmdAt (Dut.run mem inp) (i + 1) = .write ∨ cmdAt (Dut.run mem inp) (i + 1) = .nop := by
  obtain ⟨m, rfl⟩ := pos_of_cmdAt hi (by simp)
  rcases (quietFor_of_cmd _ _).2.2 hi with h | h
  · exact Or.inl (cmd_of_wrCmd1 h _)
  · exact Or.inr (nop_of_quietFor (n := m + 1) h _ (by omega) (by omega))

end Run

/-! ### The banks -/

open Ctrl in
/-- ACT finds its bank precharged. -/
lemma Inv.act_legal {d : Dut} (h : Inv d) (i : DutIn) (hc : (d.next i).ctrl.sdramCmd = .act) :
    d.chip.bankActive (d.next i).ctrl.sdramBa = false := by
  have hr := h.rows
  rw [Dut.next_ctrl] at hc ⊢
  cases hst : d.ctrl.state <;> simp only [RowsInv, hst, State.rowPhase] at hr <;>
    simp only [Ctrl.next, mainFsm, hst, waitCnt, accept] at hc ⊢ <;> (try split_ifs at hc) <;>
    first | exact hr.2 _ | simp at hc

open Ctrl in
/-- READ and WRITE find their bank active with the latched row. -/
lemma Inv.access_legal {d : Dut} (h : Inv d) (i : DutIn)
    (hc : (d.next i).ctrl.sdramCmd = .read ∨ (d.next i).ctrl.sdramCmd = .write) :
    (d.next i).ctrl.sdramBa = addrBa d.ctrl.addrLat ∧
      d.chip.bankActive (addrBa d.ctrl.addrLat) = true ∧
      d.chip.bankRow (addrBa d.ctrl.addrLat) = addrRow d.ctrl.addrLat := by
  have hl := h.latched_bank
  rw [Dut.next_ctrl] at hc ⊢
  cases hst : d.ctrl.state <;> simp only [hst, State.rowPhase, forall_const] at hl <;>
    simp only [Ctrl.next, mainFsm, hst, waitCnt, accept] at hc ⊢ <;> (try split_ifs at hc) <;>
    first | exact ⟨trivial, hl⟩ | simp at hc

open Ctrl in
/-- REFRESH and LOAD MODE REGISTER find all banks precharged. -/
lemma Inv.refresh_legal {d : Dut} (h : Inv d) (i : DutIn)
    (hc : (d.next i).ctrl.sdramCmd = .refresh ∨ (d.next i).ctrl.sdramCmd = .lmr) :
    d.chip.AllClosed := by
  have hr := h.rows
  rw [Dut.next_ctrl] at hc
  cases hst : d.ctrl.state <;> simp only [RowsInv, hst, State.rowPhase] at hr <;>
    simp only [Ctrl.next, mainFsm, hst, waitCnt, accept] at hc <;> (try split_ifs at hc) <;>
    first | exact hr.2 | simp at hc

/-- At most one bank is active. -/
lemma Inv.one_bank {d : Dut} (h : Inv d) {b b' : BitVec 2} (hb : d.chip.bankActive b = true)
    (hb' : d.chip.bankActive b' = true) : b = b' := by
  have hclosed : ¬d.chip.AllClosed := fun hc => by simp [hc b] at hb
  have hopen : ∀ {ba row}, d.chip.OnlyOpen ba row → b = b' := fun ho =>
    ((ho.active b).1 hb).trans ((ho.active b').1 hb').symm
  have hr := h.rows
  unfold RowsInv at hr
  split at hr
  · exact absurd hr.2 hclosed
  · exact hopen hr.2
  · exact hopen hr.2.2.2
  · cases ho : d.ctrl.rowOpen
    · exact absurd (hr.2 ho) hclosed
    · exact hopen (hr.1 ho)
  · exact hopen hr.2

/-- In `S_IDLE`, `row_open` tells whether a bank is active, and `open_ba` and `open_row` which
bank and row. -/
lemma Inv.idle_rows {d : Dut} (h : Inv d) (hs : d.ctrl.state = .idle) :
    (d.ctrl.rowOpen = true ↔ ∃ b, d.chip.bankActive b = true) ∧
      (d.ctrl.rowOpen = true → d.chip.bankActive d.ctrl.openBa = true ∧
        d.chip.bankRow d.ctrl.openBa = d.ctrl.openRow) := by
  have hr := h.rows
  simp only [RowsInv, hs, State.rowPhase] at hr
  refine ⟨⟨fun ho => ⟨_, (hr.1 ho).bankActive_self⟩, ?_⟩,
    fun ho => ⟨(hr.1 ho).bankActive_self, (hr.1 ho).row_eq⟩⟩
  rintro ⟨b, hb⟩
  by_contra ho
  have hclosed := hr.2 (by simpa using ho) b
  simp [hclosed] at hb

/-! ### The data bus -/

open Ctrl in
/-- When the controller drives the bus after a clock, the chip drives it neither in the half of
the clock before its sample nor in the half after. -/
lemma Inv.no_contention {d : Dut} (h : Inv d) (i : DutIn) (ho : (d.next i).ctrl.dqOe = true) :
    d.chip.rd0 = none ∧ (d.next i).chip.rd0 = none := by
  have hs : d.ctrl.state = .wrCmd0 ∨ d.ctrl.state = .wrCmd1 := by
    have hd := h.drive.1
    rw [Dut.next_ctrl] at ho
    cases hst : d.ctrl.state <;> simp only [hst] at hd <;>
      simp only [Ctrl.next, mainFsm, hst, waitCnt, accept] at ho <;> (try split_ifs at ho) <;>
      simp_all
  refine ⟨h.rd0_none hs, ?_⟩
  have hp := h.pipe
  rw [h.next_chip, Dut.chipNext]
  rcases hs with hs | hs <;>
    simp only [PipeInv, hs, State.pipe, Chip.pipe, List.cons.injEq] at hp ⊢ <;>
    exact hp.2.1

/-! ### Legal runs -/

/-- What it means for the commands of a run to be legal for the chip.  The banks that the command
of clock `n + 1` finds are those of the chip at clock `n`. -/
structure LegalRun (r : ℕ → Dut) : Prop where
  act : ∀ n, cmdAt r (n + 1) = .act →
    (r n).chip.bankActive (r (n + 1)).ctrl.sdramBa = false
  access : ∀ n, cmdAt r (n + 1) = .read ∨ cmdAt r (n + 1) = .write →
    (r (n + 1)).ctrl.sdramBa = addrBa (r n).ctrl.addrLat ∧
      (r n).chip.bankActive (addrBa (r n).ctrl.addrLat) = true ∧
      (r n).chip.bankRow (addrBa (r n).ctrl.addrLat) = addrRow (r n).ctrl.addrLat
  refresh : ∀ n, cmdAt r (n + 1) = .refresh ∨ cmdAt r (n + 1) = .lmr →
    ∀ b, (r n).chip.bankActive b = false
  oneBank : ∀ n, (r n).ctrl.initialized = true → ∀ b b', (r n).chip.bankActive b = true →
    (r n).chip.bankActive b' = true → b = b'
  idle : ∀ n, (r n).ctrl.state = .idle →
    ((r n).ctrl.rowOpen = true ↔ ∃ b, (r n).chip.bankActive b = true) ∧
      ((r n).ctrl.rowOpen = true → (r n).chip.bankActive (r n).ctrl.openBa = true ∧
        (r n).chip.bankRow (r n).ctrl.openBa = (r n).ctrl.openRow)
  tRP : ∀ i j, i < j → cmdAt r i = .precharge →
    cmdAt r j = .act ∨ cmdAt r j = .refresh ∨ cmdAt r j = .lmr → tRP.toNat ≤ j - i
  tRC : ∀ i j, i < j → cmdAt r i = .refresh →
    cmdAt r j = .act ∨ cmdAt r j = .refresh ∨ cmdAt r j = .lmr → tRC.toNat ≤ j - i
  tMRD : ∀ i j, i < j → cmdAt r i = .lmr →
    cmdAt r j ≠ .nop ∧ cmdAt r j ≠ .inhibit → tMRD.toNat ≤ j - i
  tRCD : ∀ i j, i < j → cmdAt r i = .act →
    cmdAt r j = .read ∨ cmdAt r j = .write → tRCD.toNat ≤ j - i
  tWR : ∀ i j, i < j → cmdAt r i = .write → cmdAt r j = .precharge → tWR.toNat ≤ j - i
  dq : ∀ n, (r (n + 1)).ctrl.dqOe = true →
    (r n).chip.rd0 = none ∧ (r (n + 1)).chip.rd0 = none

/-- **The command stream is legal**, from reset and under every sequence of inputs. -/
theorem legalRun (mem : Cells) (inp : ℕ → DutIn) : LegalRun (Dut.run mem inp) where
  act n := (inv_run mem inp n).act_legal (inp n)
  access n := (inv_run mem inp n).access_legal (inp n)
  refresh n := (inv_run mem inp n).refresh_legal (inp n)
  oneBank n _ _ _ := (inv_run mem inp n).one_bank
  idle n := (inv_run mem inp n).idle_rows
  tRP i j hij _ _ := by
    have : tRP.toNat = 1 := rfl
    omega
  tRC i j hij hi hj := by
    have htRC : tRC.toNat = 4 := rfl
    by_contra hlt
    have hnop := nop_after_refresh hi hij (by omega)
    simp [hnop] at hj
  tMRD i j hij hi hj := by
    have htMRD : tMRD.toNat = 2 := rfl
    by_contra hlt
    exact hj.1 (nop_after_lmr hi hij (by omega))
  tRCD i j hij _ _ := by
    have : tRCD.toNat = 1 := rfl
    omega
  tWR i j hij hi hj := by
    have htWR : tWR.toNat = 2 := rfl
    by_contra hlt
    obtain rfl : j = i + 1 := by omega
    rcases cmd_after_write hi with h | h <;> simp [h] at hj
  dq n := (inv_run mem inp n).no_contention (inp n)

end Neorv32Boot.Sdram
