import Neorv32Boot.Lib.Clocked
import Neorv32Boot.Sdram.Ctrl

/-!
# No refresh is lost or postponed without bound

The refresh block and the main FSM meet in `ref_req`: the counter sets it, `S_REF_AR` clears it,
and the clear wins over a set in the same clock.  That the two never meet follows from a bound on
how long the FSM can stay away from `S_REF_AR` once `ref_req` is set (`due`), which is far below
the refresh interval.  The number of REFRESH commands is then read off the counter: an interval
that has expired has been served, or is the one in `ref_req`.
-/

namespace Neorv32Boot.Sdram

open Clocked (countIn)

/-- The run of the controller from reset. -/
def Ctrl.run (inp : ℕ → Ports) : ℕ → Ctrl := Clocked.run Ctrl.next Ctrl.reset inp

/-! ### The end of the initialisation -/

/-- The clock from which `initialized` is set: 10001 clocks in `S_INIT_WAIT`, and 19 in the other
initialisation states. -/
def initDone : ℕ := 10020

/-- `m` clocks of the initialisation are left. -/
def InitIn (m : ℕ) (c : Ctrl) : Prop :=
  c.refCnt = 0 ∧ c.refReq = false ∧ (c.initialized = true ↔ m = 0) ∧
    match c.state with
    | .initWait => c.initCnt.toNat ≤ 10000 ∧ c.initCnt.toNat + m = initDone
    | .initPre => m = 19
    | .initPreW => c.cnt.toNat ≤ 1 ∧ c.cnt.toNat + m = 18
    | .initAr1 => m = 16
    | .initAr1W => c.cnt.toNat ≤ 4 ∧ c.cnt.toNat + m = 15
    | .initAr2 => m = 10
    | .initAr2W => c.cnt.toNat ≤ 4 ∧ c.cnt.toNat + m = 9
    | .initLmr => m = 4
    | .initLmrW => c.cnt.toNat ≤ 2 ∧ c.cnt.toNat + m = 3
    | .idle => m = 0 ∧ c.sdramCmd = .nop
    | _ => False

open Ctrl in
lemma InitIn.next {m : ℕ} {c : Ctrl} (h : InitIn (m + 1) c) (p : Ports) : InitIn m (c.next p) := by
  obtain ⟨hcnt, hreq, hinit, hst⟩ := h
  have hi : c.initialized = false := by simpa using hinit
  refine ⟨by simp [nextRefCnt, hi, hcnt], by simp [nextRefReq, hi, hreq], ?_⟩
  simp only [next_state, next_initCnt, next_cnt, next_initialized, next_sdramCmd]
  -- which branch the FSM takes is known before anything is said about its result
  generalize hn : mainFsm c p = n
  cases hs : c.state <;> simp only [hs, initDone] at hst <;>
    simp only [mainFsm, hs, waitCnt, initCycles, tRP, tRC, tMRD] at hn <;>
    (try split_ifs at hn) <;> subst hn <;> simp [hi, initDone] <;> bv_omega

/-- The initialisation takes `initDone` clocks. -/
lemma initIn_run (inp : ℕ → Ports) {k : ℕ} (hk : k ≤ initDone) :
    InitIn (initDone - k) (Ctrl.run inp k) := by
  have h₀ : InitIn initDone Ctrl.reset := by simp [InitIn, Ctrl.reset, initDone]
  exact Clocked.run_rank (fun _ _ p h => InitIn.next h p) h₀ k hk

/-! ### After the initialisation -/

/-- How many clocks after this one the FSM is in `S_REF_AR`, when `ref_req` is set. -/
def due (c : Ctrl) : ℕ :=
  match c.state with
  | .refAr => 0
  | .refPreW => 2 - c.cnt.toNat
  | .refPre => 3
  | .idle => 4
  | .doneW => 5
  | .done => 6
  | .rdPreW => 8 - c.cnt.toNat
  | .refArW => 9 - c.cnt.toNat
  | .rdCap1 => 9
  | .rdGap => 10
  | .rdCap0 => 11
  | .rdWait => 12
  | .rdCmd1 => 13
  | .rdNop1 => 14
  | .rdCmd0 => 15
  | .wrRec => 10 - c.cnt.toNat
  | .wrCmd1 => 11
  | .wrCmd0 => 12
  | .actW => 17 - c.cnt.toNat
  | .act => 18
  | .preOldW => 20 - c.cnt.toNat
  | .preOld => 21
  | _ => 0

lemma due_le (c : Ctrl) : due c ≤ 21 := by
  unfold due
  split <;> omega

/-- What the state says about the wait counter, and about `ref_req` on the way to `S_REF_AR` and
back to `S_IDLE`. -/
def RefPhase (c : Ctrl) : Prop :=
  match c.state with
  | .refPre | .refAr => c.refReq = true
  | .refPreW => c.refReq = true ∧ c.cnt.toNat ≤ 1
  | .refArW => c.cnt.toNat ≤ 4 ∧ c.refReq = false ∧ c.refCnt.toNat ≤ 22 + c.cnt.toNat
  | .rdPreW | .actW | .preOldW => c.cnt.toNat ≤ 1
  | .wrRec => c.cnt.toNat ≤ 3
  | .initWait | .initPre | .initPreW | .initAr1 | .initAr1W | .initAr2 | .initAr2W
  | .initLmr | .initLmrW => False
  | _ => True

/-- The invariant of the refresh handshake: a pending request is served within 21 clocks of the
expiry that made it. -/
structure RefInv (c : Ctrl) : Prop where
  initialized : c.initialized = true
  cnt_le : c.refCnt.toNat ≤ 380
  phase : RefPhase c
  req : c.refReq = true → c.refCnt.toNat + due c ≤ 21

lemma RefInv.next_of_lt {c : Ctrl} (h : RefInv c) (hlt : c.refCnt.toNat < 380) :
    ¬ refInterval ≤ c.refCnt ∧ (Ctrl.nextRefCnt c).toNat = c.refCnt.toNat + 1 := by
  have hx : ¬ refInterval ≤ c.refCnt := by simpa [refInterval, BitVec.lt_def] using hlt
  refine ⟨hx, ?_⟩
  simp only [Ctrl.nextRefCnt, h.initialized, hx, if_true, if_false]
  bv_omega

open Ctrl in
/-- One clock: the FSM comes at least one clock closer to `S_REF_AR`, or it was there, or no
request is pending. -/
lemma RefInv.phase_next {c : Ctrl} (h : RefInv c) (p : Ports) :
    (c.next p).initialized = true ∧ RefPhase (c.next p) ∧
      (c.refReq = true → c.state ≠ .refAr → due (c.next p) + 1 ≤ due c) := by
  have hlt := h.next_of_lt
  obtain ⟨hi, -, hph, hreq⟩ := h
  unfold RefPhase due at *
  simp only [next_state, next_cnt, next_initialized, next_refReq, next_refCnt]
  generalize hn : mainFsm c p = n
  cases hs : c.state <;> simp only [hs] at hph hreq <;>
    simp only [mainFsm, hs, waitCnt, accept, tRP, tRC, tRCD, tWR] at hn
  -- after `S_REF_AR` the counter is too low to set `ref_req` again before `S_IDLE`
  case refAr =>
    obtain ⟨-, hc⟩ := hlt (by have := hreq hph; omega)
    have := hreq hph
    simp [← hn, hi, nextRefReq, hs, hc]
    omega
  case refArW =>
    obtain ⟨hle, hr, hcnt⟩ := hph
    obtain ⟨hx, hc⟩ := hlt (by omega)
    split_ifs at hn
    · simp [← hn, hi, hr]
    · simp [← hn, hi, hr, nextRefReq, hx, hc]
      bv_omega
  all_goals
    clear hlt hreq
    (try split_ifs at hn) <;> subst hn <;> simp_all [nextRefReq]
  all_goals bv_omega

/-- The clear in `S_REF_AR` never meets a set. -/
lemma RefInv.no_clash {c : Ctrl} (h : RefInv c) (hx : refInterval ≤ c.refCnt) :
    c.refReq = false ∧ c.state ≠ .refAr := by
  have h380 : 380 ≤ c.refCnt.toNat := by simpa [refInterval, BitVec.le_def] using hx
  have hr : c.refReq = false := by
    by_contra hr
    have := h.req (by simpa using hr)
    omega
  refine ⟨hr, fun hs => ?_⟩
  have := h.phase
  simp [RefPhase, hs, hr] at this

lemma RefInv.next {c : Ctrl} (h : RefInv c) (p : Ports) : RefInv (c.next p) := by
  obtain ⟨hinit, hphase, hdue⟩ := h.phase_next p
  have hcnt := h.cnt_le
  by_cases hx : refInterval ≤ c.refCnt
  · have h0 : (c.next p).refCnt = 0 := by simp [Ctrl.next, Ctrl.nextRefCnt, h.initialized, hx]
    constructor
    · exact hinit
    · rw [h0]
      exact Nat.zero_le _
    · exact hphase
    · intro _
      rw [h0]
      simpa using due_le (c.next p)
  · have hlt : c.refCnt.toNat < 380 := by
      simpa [refInterval, BitVec.lt_def] using hx
    have h1 : (c.next p).refCnt.toNat = c.refCnt.toNat + 1 := (h.next_of_lt hlt).2
    refine ⟨hinit, by omega, hphase, fun hr => ?_⟩
    have hold : c.refReq = true ∧ c.state ≠ .refAr := by
      have hr' : Ctrl.nextRefReq c = true := hr
      simp only [Ctrl.nextRefReq, h.initialized, hx, if_true, if_false] at hr'
      split_ifs at hr' with hs
      exact ⟨hr', hs⟩
    have := hdue hold.1 hold.2
    have := h.req hold.1
    omega

/-- The initialisation ends idle. -/
lemma InitIn.done {c : Ctrl} (h : InitIn 0 c) :
    c.initialized = true ∧ c.refCnt = 0 ∧ c.refReq = false ∧ c.state = .idle ∧
      c.sdramCmd = .nop := by
  obtain ⟨hcnt, hreq, hinit, hst⟩ := h
  have hs : c.state = .idle := by
    revert hst
    cases c.state <;> simp [initDone] <;> omega
  rw [hs] at hst
  exact ⟨hinit.mpr rfl, hcnt, hreq, hs, hst.2⟩

lemma InitIn.refInv {c : Ctrl} (h : InitIn 0 c) : RefInv c := by
  obtain ⟨hinit, hcnt, hreq, hs, -⟩ := h.done
  exact ⟨hinit, by simp [hcnt], by simp [RefPhase, hs], by simp [hreq]⟩

lemma initIn_done (inp : ℕ → Ports) : InitIn 0 (Ctrl.run inp initDone) := by
  simpa only [Nat.sub_self] using initIn_run inp (le_refl initDone)

lemma refInv_run (inp : ℕ → Ports) {t : ℕ} (ht : initDone ≤ t) : RefInv (Ctrl.run inp t) :=
  Clocked.run_inv_from (initIn_done inp).refInv (fun _ p h => RefInv.next h p) ht

lemma initialized_iff (inp : ℕ → Ports) (t : ℕ) :
    (Ctrl.run inp t).initialized = true ↔ initDone ≤ t := by
  rcases le_total initDone t with h | h
  · exact iff_of_true (refInv_run inp h).initialized h
  · rw [(initIn_run inp h).2.2.1]
    omega

/-! ### Counting the REFRESH commands -/

/-- The command on the pins after `t` clocks is REFRESH. -/
def IsRefresh (inp : ℕ → Ports) (t : ℕ) : Prop := (Ctrl.run inp t).sdramCmd = .refresh

instance (inp : ℕ → Ports) : DecidablePred (IsRefresh inp) :=
  fun _ => inferInstanceAs (Decidable (_ = _))

open Ctrl in
/-- The command of a clock is REFRESH exactly when the FSM was in `S_REF_AR`. -/
lemma sdramCmd_next_refresh {c : Ctrl} (h : RefPhase c) (p : Ports) :
    (c.next p).sdramCmd = .refresh ↔ c.state = .refAr := by
  unfold RefPhase at h
  cases hs : c.state <;> simp only [hs] at h <;>
    simp only [Ctrl.next, mainFsm, hs, waitCnt, accept] <;> (try split_ifs) <;> simp

/-- What a clock does to the count: a REFRESH takes the place of the pending request, and an
expiry becomes the pending request. -/
lemma RefInv.count_next {c : Ctrl} (h : RefInv c) (p : Ports) :
    381 * ((if (c.next p).sdramCmd = .refresh then 1 else 0) + (c.next p).refReq.toNat) +
      (c.next p).refCnt.toNat = 381 * c.refReq.toNat + c.refCnt.toNat + 1 := by
  have hcnt := h.cnt_le
  simp only [sdramCmd_next_refresh h.phase]
  have hreq : (c.next p).refReq = Ctrl.nextRefReq c := rfl
  have href : (c.next p).refCnt = Ctrl.nextRefCnt c := rfl
  simp only [hreq, href, Ctrl.nextRefReq, Ctrl.nextRefCnt, h.initialized, if_true]
  by_cases hx : refInterval ≤ c.refCnt
  · have h380 : 380 ≤ c.refCnt.toNat := by simpa [refInterval, BitVec.le_def] using hx
    obtain ⟨hr, hs⟩ := h.no_clash hx
    simp [hx, hr, hs]
    omega
  · by_cases hs : c.state = .refAr
    · have hr : c.refReq = true := by simpa [RefPhase, hs] using h.phase
      simp [hx, hs, hr]
      omega
    · simp [hx, hs]
      omega

/-- The clocks since the initialisation are the intervals that expired, served (`REFRESH`) or
pending (`ref_req`), and the current value of the counter. -/
lemma refresh_count (inp : ℕ → Ports) {t : ℕ} (ht : initDone ≤ t) :
    initDone + 381 * (countIn (IsRefresh inp) initDone (t + 1) +
      (Ctrl.run inp t).refReq.toNat) + (Ctrl.run inp t).refCnt.toNat = t := by
  induction t, ht using Nat.le_induction with
  | base =>
    obtain ⟨-, hcnt, hreq, -, hcmd⟩ := (initIn_done inp).done
    have hno : ¬ IsRefresh inp initDone := by simp [IsRefresh, hcmd]
    simp [Clocked.countIn_succ, hno, hcnt, hreq]
  | succ t ht ih =>
    have hstep := (refInv_run inp ht).count_next (inp t)
    rw [Clocked.countIn_succ (by omega)]
    have hcmd : IsRefresh inp (t + 1) ↔ ((Ctrl.run inp t).next (inp t)).sdramCmd = .refresh :=
      Iff.rfl
    rw [show Ctrl.run inp (t + 1) = (Ctrl.run inp t).next (inp t) from rfl]
    by_cases h : IsRefresh inp (t + 1)
    · simp only [hcmd.mp h, h, if_true] at hstep ⊢
      omega
    · simp only [mt hcmd.mpr h, h, if_false] at hstep ⊢
      omega

/-- At most the last interval is not served yet. -/
lemma refresh_served (inp : ℕ → Ports) {t : ℕ} (ht : initDone ≤ t) :
    381 * countIn (IsRefresh inp) initDone (t + 1) ≤ t - initDone ∧
      t - initDone ≤ 381 * countIn (IsRefresh inp) initDone (t + 1) + 402 ∧
      (t - initDone - 40) / 381 ≤ countIn (IsRefresh inp) initDone (t + 1) := by
  have hcount := refresh_count inp ht
  have hinv := refInv_run inp ht
  have hle := hinv.cnt_le
  cases hr : (Ctrl.run inp t).refReq with
  | false => simp only [hr, Bool.toNat_false] at hcount; omega
  | true =>
    have := hinv.req hr
    simp only [hr, Bool.toNat_true] at hcount
    omega

/-- **No refresh is lost or postponed without bound.**  Under every sequence of inputs there is a
clock `t₀` from which `initialized` is set, and from then on: the number of REFRESH commands is
at least `(t - t₀ - 40) / 381`; the set and the clear of `ref_req` never meet; no interval
expires while a request is pending; and every window of 3 200 000 clocks has 8192 REFRESH
commands. -/
theorem refresh_kept (inp : ℕ → Ports) :
    ∃ t₀, (∀ t, (Ctrl.run inp t).initialized = true ↔ t₀ ≤ t) ∧
      ∀ t, t₀ ≤ t →
        (t - t₀ - 40) / 381 ≤ countIn (IsRefresh inp) t₀ (t + 1) ∧
        ¬ (refInterval ≤ (Ctrl.run inp t).refCnt ∧ (Ctrl.run inp t).state = .refAr) ∧
        (refInterval ≤ (Ctrl.run inp t).refCnt → (Ctrl.run inp t).refReq = false) ∧
        8192 ≤ countIn (IsRefresh inp) t (t + 3200000) := by
  refine ⟨initDone, initialized_iff inp, fun t ht => ?_⟩
  have hinv := refInv_run inp ht
  refine ⟨(refresh_served inp ht).2.2, fun h => (hinv.no_clash h.1).2 h.2,
    fun h => (hinv.no_clash h).1, ?_⟩
  -- the commands up to the end of the window, less those up to its start
  have hend := refresh_served inp (t := t + 3199999) (by omega)
  have hstart := (refresh_served inp ht).1
  have hsplit := Clocked.countIn_add (p := IsRefresh inp) (a := initDone) (b := t)
    (c := t + 3200000) ht (by omega)
  have hlast := Clocked.countIn_succ (p := IsRefresh inp) (a := initDone) (b := t) ht
  rw [show t + 3199999 + 1 = t + 3200000 by omega] at hend
  omega

end Neorv32Boot.Sdram
