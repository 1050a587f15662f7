import Neorv32Boot.Sdram.Serve
import Neorv32Boot.Sdram.Refresh

/-!
# The bridge refines a byte-masked memory

For a master that keeps the XBUS protocol, the run of the bridge, the controller and the chip
answers the requests as an atomic memory of bytes does: acknowledges and requests alternate, every
request is acknowledged in bounded time, a read returns the bytes that were written last, and the
chip holds the bytes that were written last.
-/

namespace Neorv32Boot.Sdram

open Lanes (lastWritten storeAll)

/-- The data `d` answers the request `q` after the requests `before`: zero outside the SDRAM, and
for a read the newest value of each byte of the word, or the power-up content. -/
structure Answers (mem : Cells) (before : List Request) (q : Request) (d : BitVec 32) : Prop where
  outside : q.inSdram = false → d = 0
  read : q.inSdram = true → q.we = false → ∀ k : Fin 4, d.extractLsb' (8 * k) 8 =
    lastWritten mem.view (before.map Request.toWrite) (q.adr.extractLsb' 2 23) k

/-- The requests `done` of the run have been acknowledged, and `cur` has not. -/
structure Track (mem : Cells) (bus : ℕ → Xbus) (n : ℕ) (done : List Request)
    (cur : Option Request) (m : Cells) : Prop where
  inv : WbInv (Wb.run mem bus n) m cur
  reqs_eq : reqs bus n = done ++ cur.toList
  acks_len : (acks (Wb.run mem bus) n).length = done.length
  cells : m.view = storeAll mem.view (done.map Request.toWrite)
  answers : ∀ k q d, done[k]? = some q → (acks (Wb.run mem bus) n)[k]? = some d →
    Answers mem (done.take k) q d
  held : ∀ q, cur = some q → ∃ j < n, (bus j).stb = true ∧ (bus j).req = q ∧
    ∀ k, j < k → k ≤ n → (Wb.run mem bus k).bridge.xbusAck = false

variable {mem : Cells} {bus : ℕ → Xbus} {n : ℕ} {done : List Request} {m : Cells}

/-- The acknowledges of the bridge. -/
def ackAt (mem : Cells) (bus : ℕ → Xbus) (n : ℕ) : Bool := (Wb.run mem bus n).bridge.xbusAck

lemma Wb.run_succ (mem : Cells) (bus : ℕ → Xbus) (n : ℕ) :
    Wb.run mem bus (n + 1) = (Wb.run mem bus n).next (bus n) := rfl

/-- A clock without an acknowledge. -/
lemma acks_succ_of_false (h : (Wb.run mem bus (n + 1)).bridge.xbusAck = false) :
    acks (Wb.run mem bus) (n + 1) = acks (Wb.run mem bus) n := by
  simp [acks, h]

/-- A clock with an acknowledge. -/
lemma acks_succ_of_true (h : (Wb.run mem bus (n + 1)).bridge.xbusAck = true) :
    acks (Wb.run mem bus) (n + 1) =
      acks (Wb.run mem bus) n ++ [(Wb.run mem bus (n + 1)).bridge.xbusDatR] := by
  simp [acks, h]

/-- The answers so far, and one more. -/
lemma answers_concat {as : List (BitVec 32)} {q : Request} {d : BitVec 32}
    (hlen : as.length = done.length)
    (h : ∀ k q d, done[k]? = some q → as[k]? = some d → Answers mem (done.take k) q d)
    (hd : Answers mem done q d) (k : ℕ) (q' : Request) (d' : BitVec 32)
    (hq' : (done ++ [q])[k]? = some q') (hd' : (as ++ [d])[k]? = some d') :
    Answers mem ((done ++ [q]).take k) q' d' := by
  rcases lt_trichotomy k done.length with hk | rfl | hk
  · rw [List.getElem?_append_left hk] at hq'
    rw [List.getElem?_append_left (by omega)] at hd'
    rw [List.take_append_of_le_length hk.le]
    exact h k q' d' hq' hd'
  · rw [List.getElem?_concat_length, Option.some.injEq] at hq'
    rw [← hlen, List.getElem?_concat_length, Option.some.injEq] at hd'
    subst hq' hd'
    rwa [List.take_left']
    rfl
  · rw [List.getElem?_eq_none (by simp; omega)] at hq'
    exact absurd hq' (by simp)

namespace Track

/-- A request outside the SDRAM has been answered. -/
lemma answers_outside {q : Request} (h : q.inSdram = false) : Answers mem done q 0 :=
  ⟨fun _ => rfl, fun h' => absurd (h.symm.trans h') (by simp)⟩

lemma lo_hi_view (m : Cells) (a : BitVec 25) (k : Fin 4) :
    (m.hi a ++ m.lo a).extractLsb' (8 * k) 8 = m.view (a.extractLsb' 2 23) k := by
  have ha : (a.extractLsb' 2 23 ++ 0#2).extractLsb' 2 23 = a.extractLsb' 2 23 :=
    BitVec.extractLsb'_append_eq_left
  obtain ⟨hb, hr, hc⟩ := (word_eq_iff _ _).1 ha
  rw [Cells.view, Cells.hi, Cells.lo, Cells.hi, Cells.lo, hb, hr, addrColLo_inj.2 hc,
    addrColHi_inj.2 hc]

/-- The waiting request is still held by the master. -/
lemma held_now {q : Request} (hp : Protocol bus (ackAt mem bus))
    (h : Track mem bus n done (some q) m) : (bus n).stb = false ∧ (bus n).req = q := by
  obtain ⟨j, hj, hjs, rfl, hno⟩ := h.held q rfl
  exact hp.hold j n hj hjs hno

/-- The request stays at the port. -/
lemma next_wait {q : Request} (hp : Protocol bus (ackAt mem bus))
    (h : Track mem bus n done (some q) m) (hst : (Wb.run mem bus n).dut.ctrl.state ≠ .doneW) :
    Track mem bus (n + 1) done (some q) m := by
  obtain ⟨hs, hreq⟩ := h.held_now hp
  obtain ⟨hinv, hack⟩ := h.inv.next_wait hs hreq hst
  rw [← Wb.run_succ] at hinv hack
  refine ⟨hinv, ?_, ?_, h.cells, ?_, ?_⟩
  · simpa [reqs, hs] using h.reqs_eq
  · rw [acks_succ_of_false hack]; exact h.acks_len
  · rw [acks_succ_of_false hack]; exact h.answers
  · rintro q' ⟨rfl⟩
    obtain ⟨j, hj, hjs, hjq, hno⟩ := h.held q rfl
    refine ⟨j, by omega, hjs, hjq, fun k hk hk' => ?_⟩
    rcases Nat.lt_or_ge n k with hnk | hnk
    · rwa [show k = n + 1 by omega]
    · exact hno k hk hnk

/-- The request is acknowledged. -/
lemma next_ack {q : Request} (hp : Protocol bus (ackAt mem bus))
    (h : Track mem bus n done (some q) m) (hst : (Wb.run mem bus n).dut.ctrl.state = .doneW) :
    Track mem bus (n + 1) (done ++ [q]) none (m.serve q) := by
  obtain ⟨hs, -⟩ := h.held_now hp
  obtain ⟨hinv, hack, hdat⟩ := h.inv.next_ack (x := bus n) hst
  rw [← Wb.run_succ] at hinv hack hdat
  have hin := h.inv.inSdram q rfl
  refine ⟨hinv, ?_, ?_, ?_, ?_, by simp⟩
  · simpa [reqs, hs] using h.reqs_eq
  · simp [acks_succ_of_true hack, h.acks_len]
  · rw [List.map_append, List.map_singleton, Lanes.storeAll_concat, ← h.cells, Cells.serve]
    split_ifs with hz
    · rw [store_of_wstrb (Or.inr hz)]
    · exact view_store m q hin
  · rw [acks_succ_of_true hack]
    refine answers_concat h.acks_len h.answers ⟨fun h' => ?_, fun _ hwe k => ?_⟩
    · exact absurd (hin.symm.trans h') (by simp)
    · rw [hdat (by simp [Request.wstrb, hwe]), lo_hi_view, h.cells, Lanes.storeAll_apply,
        Request.addr, BitVec.extractLsb'_extractLsb'_of_le (by omega)]

/-- Nothing waits: the master is quiet, or has a request outside the SDRAM answered, or puts one
to the port. -/
lemma next_none (hp : Protocol bus (ackAt mem bus)) (h : Track mem bus n done none m) :
    ∃ done' cur', Track mem bus (n + 1) done' cur' m := by
  cases hs : (bus n).stb with
  | false =>
    obtain ⟨hinv, hack⟩ := h.inv.next_none hs
    rw [← Wb.run_succ] at hinv hack
    refine ⟨done, none, hinv, ?_, ?_, h.cells, ?_, by simp⟩
    · simpa [reqs, hs] using h.reqs_eq
    · rw [acks_succ_of_false hack]; exact h.acks_len
    · rw [acks_succ_of_false hack]; exact h.answers
  | true =>
    have hc := hp.cyc n hs
    cases hr : (bus n).req.inSdram with
    | false =>
      obtain ⟨hinv, hack, hdat⟩ := h.inv.next_outside hs hc hr
      rw [← Wb.run_succ] at hinv hack hdat
      refine ⟨done ++ [(bus n).req], none, hinv, ?_, ?_, ?_, ?_, by simp⟩
      · simpa [reqs, hs] using h.reqs_eq
      · simp [acks_succ_of_true hack, h.acks_len]
      · rw [List.map_append, List.map_singleton, Lanes.storeAll_concat,
          store_of_wstrb (Or.inl hr)]
        exact h.cells
      · rw [acks_succ_of_true hack, hdat]
        exact answers_concat h.acks_len h.answers (answers_outside hr)
    | true =>
      obtain ⟨hinv, hack⟩ := h.inv.next_take hs hc hr
      rw [← Wb.run_succ] at hinv hack
      refine ⟨done, some (bus n).req, hinv, ?_, ?_, h.cells, ?_, ?_⟩
      · simpa [reqs, hs] using h.reqs_eq
      · rw [acks_succ_of_false hack]; exact h.acks_len
      · rw [acks_succ_of_false hack]; exact h.answers
      · rintro q ⟨rfl⟩
        refine ⟨n, by omega, hs, rfl, fun k hk hk' => ?_⟩
        rwa [show k = n + 1 by omega]

end Track

/-- After every number of clocks, some requests have been acknowledged, and at most one has not. -/
lemma track_run (hp : Protocol bus (ackAt mem bus)) (n : ℕ) :
    ∃ done cur m, Track mem bus n done cur m := by
  induction n with
  | zero =>
    exact ⟨[], none, mem, wbInv_reset mem, rfl, rfl, rfl, by simp, by simp⟩
  | succ n ih =>
    obtain ⟨done, _ | q, m, h⟩ := ih
    · obtain ⟨done', cur', h'⟩ := h.next_none hp
      exact ⟨done', cur', m, h'⟩
    · by_cases hst : (Wb.run mem bus n).dut.ctrl.state = .doneW
      · exact ⟨_, _, _, h.next_ack hp hst⟩
      · exact ⟨_, _, _, h.next_wait hp hst⟩

/-! ### Every request is acknowledged -/

/-- An upper bound on the clocks that a held request is away from `S_DONE_W`.  From `S_IDLE` a
pending refresh comes first, and after it no other one is pending. -/
def left (c : Ctrl) : ℕ :=
  match c.state with
  | .idle => if c.refReq then 28 else 18
  | .refPre => 27
  | .refPreW => 26 - c.cnt.toNat
  | .refAr => 24
  | .refArW => 23 - c.cnt.toNat
  | _ => due c - 4

lemma left_le (c : Ctrl) : left c ≤ 28 := by
  have := due_le c
  unfold left
  split <;> (try split) <;> omega

open Ctrl in
lemma left_next {c : Ctrl} (h : RefInv c) (hst : c.state ≠ .doneW) (p : Ports)
    (hsel : p.sel = true) : left (c.next p) + 1 ≤ left c := by
  have hlt := h.next_of_lt
  obtain ⟨hi, -, hph, -⟩ := h
  unfold left due
  simp only [next_state, next_cnt, next_refReq]
  generalize hn : mainFsm c p = n
  cases hs : c.state <;> simp only [RefPhase, hs] at hph <;>
    simp only [mainFsm, hs, waitCnt, accept, hsel, tRP, tRC, tRCD, tWR] at hn
  case doneW => exact absurd hs hst
  case refArW =>
    obtain ⟨hle, hr, hcnt⟩ := hph
    obtain ⟨hx, -⟩ := hlt (by omega)
    have hq : nextRefReq c = false := by simp [nextRefReq, hx, hr]
    split_ifs at hn <;> subst hn
    · simp [hq]
      omega
    · dsimp only
      bv_omega
  all_goals (try split_ifs at hn) <;> subst hn <;> simp_all
  all_goals bv_omega

/-- What the controller sees in clock `n`. -/
def Wb.ports (mem : Cells) (bus : ℕ → Xbus) (n : ℕ) : Ports :=
  let s := Wb.run mem bus n
  ⟨s.bridge.pending, (bus n).req.addr, (bus n).req.datW, (bus n).req.wstrb,
    s.dut.sdramDq (bus n).floatRise⟩

lemma Wb.ctrl_run (mem : Cells) (bus : ℕ → Xbus) (n : ℕ) :
    (Wb.run mem bus n).dut.ctrl = Ctrl.run (Wb.ports mem bus) n := by
  induction n with
  | zero => rfl
  | succ n ih =>
    rw [Wb.run_succ, Ctrl.run, Clocked.run_succ, ← Ctrl.run, ← ih]
    rfl

lemma refInv_ctrl (mem : Cells) (bus : ℕ → Xbus) (hn : initDone ≤ n) :
    RefInv (Wb.run mem bus n).dut.ctrl := by
  rw [Wb.ctrl_run]
  exact refInv_run _ hn

lemma acks_mono (r : ℕ → Wb) {i j : ℕ} (h : i ≤ j) : (acks r i).length ≤ (acks r j).length := by
  induction j, h using Nat.le_induction with
  | base => exact le_rfl
  | succ j _ ih =>
    simp only [acks, List.length_append]
    omega

/-- A request at the port of the initialised controller is acknowledged when its transaction is
through. -/
lemma Track.acked_of_left (hp : Protocol bus (ackAt mem bus)) {q : Request} {k : ℕ}
    (hn : initDone ≤ n) (h : Track mem bus n done (some q) m)
    (hk : left (Wb.run mem bus n).dut.ctrl ≤ k) :
    done.length + 1 ≤ (acks (Wb.run mem bus) (n + k + 1)).length := by
  induction k generalizing n with
  | zero =>
    by_cases hst : (Wb.run mem bus n).dut.ctrl.state = .doneW
    · exact (by simpa using (h.next_ack hp hst).acks_len.ge)
    · have hsel : (Wb.ports mem bus n).sel = true := h.inv.pending
      have := left_next (refInv_ctrl mem bus hn) hst _ hsel
      omega
  | succ k ih =>
    by_cases hst : (Wb.run mem bus n).dut.ctrl.state = .doneW
    · have hack := (h.next_ack hp hst).acks_len
      have hmono := acks_mono (Wb.run mem bus) (show n + 1 ≤ n + (k + 1) + 1 by omega)
      simp only [List.length_append, List.length_singleton] at hack
      omega
    · have hsel : (Wb.ports mem bus n).sel = true := h.inv.pending
      have hdec := left_next (refInv_ctrl mem bus hn) hst _ hsel
      rw [Wb.ctrl_run] at hk hdec
      have hwait := ih (n := n + 1) (by omega) (h.next_wait hp hst)
        (by rw [Wb.ctrl_run, Ctrl.run, Clocked.run_succ, ← Ctrl.run]; omega)
      rwa [show n + 1 + k + 1 = n + (k + 1) + 1 by omega] at hwait

/-- A request that comes during the initialisation waits for its end. -/
lemma Track.acked (hp : Protocol bus (ackAt mem bus)) {q : Request} {k : ℕ}
    (hn : initDone ≤ n + k) (h : Track mem bus n done (some q) m) :
    done.length + 1 ≤ (acks (Wb.run mem bus) (n + k + 29)).length := by
  induction k generalizing n with
  | zero => exact h.acked_of_left hp hn (left_le _)
  | succ k ih =>
    by_cases hst : (Wb.run mem bus n).dut.ctrl.state = .doneW
    · have hack := (h.next_ack hp hst).acks_len
      have hmono := acks_mono (Wb.run mem bus) (show n + 1 ≤ n + (k + 1) + 29 by omega)
      simp only [List.length_append, List.length_singleton] at hack
      omega
    · have hwait := ih (n := n + 1) (by omega) (h.next_wait hp hst)
      rwa [show n + 1 + k + 29 = n + (k + 1) + 29 by omega] at hwait

/-- No more acknowledges than requests, and at most one request that waits. -/
lemma acks_reqs (hp : Protocol bus (ackAt mem bus)) (n : ℕ) :
    (acks (Wb.run mem bus) n).length ≤ (reqs bus n).length ∧
      (reqs bus n).length ≤ (acks (Wb.run mem bus) n).length + 1 := by
  obtain ⟨done, cur, m, h⟩ := track_run hp n
  have hcur : cur.toList.length ≤ 1 := by cases cur <;> simp
  rw [h.reqs_eq, h.acks_len, List.length_append]
  omega

/-- Every request is acknowledged: the initialisation is the longest wait. -/
lemma reqs_acked (hp : Protocol bus (ackAt mem bus)) (n : ℕ) :
    (reqs bus n).length ≤ (acks (Wb.run mem bus) (n + initDone + 29)).length := by
  obtain ⟨done, _ | q, m, h⟩ := track_run hp n
  · have hmono := acks_mono (Wb.run mem bus) (show n ≤ n + initDone + 29 by omega)
    rw [h.acks_len] at hmono
    simpa [h.reqs_eq] using hmono
  · rw [h.reqs_eq]
    simpa using h.acked hp (k := initDone) (by omega)

/-! ### A master that takes its time -/

/-- No request waits as long as this. -/
def gap : ℕ := initDone + 30

/-- The requests `req 0` to `req k`, one of them every `gap` clocks. -/
def spaced (req : ℕ → Request) (k n : ℕ) : Xbus :=
  ⟨req (min (n / gap) k), n % gap == 0 && decide (n / gap ≤ k), true, 0, 0⟩

lemma spaced_stb (req : ℕ → Request) (k n : ℕ) :
    (spaced req k n).stb = true ↔ n % gap = 0 ∧ n / gap ≤ k := by
  simp [spaced]

lemma div_gap_le {k n : ℕ} (h : n < (k + 1) * gap) : n / gap ≤ k :=
  Nat.lt_succ_iff.1 ((Nat.div_lt_iff_lt_mul (by decide)).2 h)

lemma spaced_succ (req : ℕ → Request) {k n : ℕ} (h : n < (k + 1) * gap) :
    spaced req (k + 1) n = spaced req k n := by
  have hdiv := div_gap_le h
  rw [spaced, spaced, min_eq_left hdiv, min_eq_left (by omega), decide_eq_true hdiv,
    decide_eq_true (by omega)]

lemma reqs_spaced (req : ℕ → Request) {k n : ℕ} (h : n ≤ (k + 1) * gap) :
    reqs (spaced req k) n = (List.range ((n + gap - 1) / gap)).map req := by
  induction n with
  | zero => rfl
  | succ n ih =>
    rw [reqs, ih (by omega)]
    have hdiv := div_gap_le h
    by_cases hn : n % gap = 0
    · have hs := (spaced_stb req k n).2 ⟨hn, hdiv⟩
      have hlen : (n + gap - 1) / gap = n / gap ∧ (n + 1 + gap - 1) / gap = n / gap + 1 := by
        simp only [gap, initDone] at hn ⊢
        omega
      rw [if_pos hs, hlen.1, hlen.2, List.range_succ, List.map_append, List.map_singleton, spaced,
        min_eq_left hdiv]
    · have hs : ¬ (spaced req k n).stb = true := fun hs => hn ((spaced_stb req k n).1 hs).1
      have hlen : (n + 1 + gap - 1) / gap = (n + gap - 1) / gap := by
        simp only [gap, initDone] at hn ⊢
        omega
      rw [if_neg hs, hlen, List.append_nil]

/-- Clocks without an acknowledge. -/
lemma acks_of_forall_false {a b : ℕ} (hab : a ≤ b)
    (h : ∀ i, a < i → i ≤ b → ackAt mem bus i = false) :
    acks (Wb.run mem bus) b = acks (Wb.run mem bus) a := by
  induction b, hab using Nat.le_induction with
  | base => rfl
  | succ b hab ih =>
    rw [acks_succ_of_false (h (b + 1) (by omega) le_rfl)]
    exact ih fun i hi hib => h i hi (by omega)

/-- Each of the requests is acknowledged before the next one. -/
lemma ack_of_spaced {req : ℕ → Request} {j k : ℕ} (hj : j ≤ k)
    (hp : Protocol (spaced req k) (ackAt mem (spaced req k))) :
    ∃ i, j * gap < i ∧ i ≤ (j + 1) * gap ∧ ackAt mem (spaced req k) i = true := by
  by_contra hno
  push Not at hno
  have hmul : (j + 1) * gap ≤ (k + 1) * gap := Nat.mul_le_mul_right _ (by omega)
  have hsucc : (j + 1) * gap = j * gap + 1 + initDone + 29 := by
    rw [Nat.succ_mul, gap]
    omega
  have hquiet : acks (Wb.run mem (spaced req k)) ((j + 1) * gap) =
      acks (Wb.run mem (spaced req k)) (j * gap) :=
    acks_of_forall_false (by omega) fun i hi hle => eq_false_of_ne_true (hno i hi hle)
  have hbefore := (acks_reqs hp (j * gap)).1
  have hafter := reqs_acked hp (j * gap + 1)
  rw [← hsucc, hquiet, reqs_spaced req (by omega), List.length_map, List.length_range] at hafter
  rw [reqs_spaced req (by omega), List.length_map, List.length_range] at hbefore
  simp only [gap, initDone] at hbefore hafter
  omega

/-- The fields of a request are there until the next one. -/
lemma spaced_hold {req : ℕ → Request} {k m n : ℕ} (hmn : m < n)
    (hm : (spaced req k m).stb = true) (h : min (n / gap) k = m / gap) :
    (spaced req k n).stb = false ∧ (spaced req k n).req = (spaced req k m).req := by
  obtain ⟨hmod, hdiv⟩ := (spaced_stb req k m).1 hm
  constructor
  · refine eq_false_of_ne_true fun hn => ?_
    obtain ⟨hmod', hdiv'⟩ := (spaced_stb req k n).1 hn
    rw [min_eq_left hdiv'] at h
    rw [← Nat.div_add_mod m gap, ← Nat.div_add_mod n gap, hmod, hmod', h] at hmn
    exact absurd hmn (lt_irrefl _)
  · rw [spaced, spaced, h, min_eq_left hdiv]

/-- Every sequence of requests is one that a master can make. -/
lemma protocol_spaced (req : ℕ → Request) (k : ℕ) :
    Protocol (spaced req k) (ackAt mem (spaced req k)) := by
  refine ⟨fun _ _ => rfl, ?_⟩
  induction k with
  | zero =>
    intro m n hmn hm _
    obtain ⟨-, hdiv⟩ := (spaced_stb req 0 m).1 hm
    exact spaced_hold hmn hm (by rw [Nat.min_zero, Nat.le_zero.1 hdiv])
  | succ k ih =>
    intro m n hmn hm hno
    obtain ⟨hmod, hdiv⟩ := (spaced_stb req (k + 1) m).1 hm
    by_cases hlast : min (n / gap) (k + 1) = m / gap
    · exact spaced_hold hmn hm hlast
    -- the next request has come, so the request of clock `m` has been acknowledged
    have hle := Nat.div_le_div_right (c := gap) hmn.le
    have hnext : (m / gap + 1) * gap ≤ n :=
      (Nat.le_div_iff_mul_le (by decide)).1 (by omega)
    have hk : m / gap ≤ k := by omega
    obtain ⟨i, hlt, hi, hack⟩ := ack_of_spaced hk ⟨fun _ _ => rfl, ih⟩
    have hmul : (m / gap + 1) * gap ≤ (k + 1) * gap := Nat.mul_le_mul_right _ (by omega)
    have hrun : Wb.run mem (spaced req (k + 1)) i = Wb.run mem (spaced req k) i :=
      Clocked.run_congr fun j hj => spaced_succ req (by omega)
    have hm' : m / gap * gap = m := Nat.div_mul_cancel (Nat.dvd_of_mod_eq_zero hmod)
    have hfalse := hno i (by omega) (by omega)
    rw [ackAt, hrun] at hfalse
    cases hfalse.symm.trans hack

/-! ### Refinement -/

/-- The run of the bridge is a run of a byte-masked memory. -/
structure Refines (mem : Cells) (bus : ℕ → Xbus) : Prop where
  /-- Every acknowledge follows the request that it answers, and the next request follows it. -/
  alternate : ∀ n, (acks (Wb.run mem bus) n).length ≤ (reqs bus n).length ∧
    (reqs bus n).length ≤ (acks (Wb.run mem bus) n).length + 1
  /-- Every request is acknowledged: the initialisation is the longest wait. -/
  served : ∀ n, (reqs bus n).length ≤ (acks (Wb.run mem bus) (n + initDone + 29)).length
  /-- Every acknowledge has the right data. -/
  answers : ∀ n k q d, (reqs bus n)[k]? = some q → (acks (Wb.run mem bus) n)[k]? = some d →
    Answers mem ((reqs bus n).take k) q d
  /-- Each byte of the chip is the newest one of the acknowledged requests, or that of all
  requests, the waiting one included. -/
  cells : ∀ n w k,
    (Wb.run mem bus n).dut.chip.mem.view w k = lastWritten mem.view
        (((reqs bus n).take (acks (Wb.run mem bus) n).length).map Request.toWrite) w k ∨
      (Wb.run mem bus n).dut.chip.mem.view w k =
        lastWritten mem.view ((reqs bus n).map Request.toWrite) w k

lemma Track.cells_view {cur : Option Request} (h : Track mem bus n done cur m) (w : BitVec 23)
    (k : Fin 4) :
    (Wb.run mem bus n).dut.chip.mem.view w k =
        lastWritten mem.view (done.map Request.toWrite) w k ∨
      (Wb.run mem bus n).dut.chip.mem.view w k =
        lastWritten mem.view ((reqs bus n).map Request.toWrite) w k := by
  rw [h.reqs_eq, ← Lanes.storeAll_apply, ← Lanes.storeAll_apply, ← h.cells]
  cases cur with
  | none =>
    left
    rw [h.inv.port.2]
  | some q =>
    rw [h.inv.port.2, Option.toList_some, List.map_append, List.map_singleton,
      Lanes.storeAll_concat, ← h.cells]
    exact view_cells _ m q (h.inv.inSdram q rfl) w k

/-- **Memory refinement.**  From reset, with any content of the chip, any values on the undriven
data bus and any requests of a master that keeps the protocol, the bridge with the controller and
the chip refines a byte-masked memory. -/
theorem wb_refines (mem : Cells) (bus : ℕ → Xbus) (hp : Protocol bus (ackAt mem bus)) :
    Refines mem bus where
  alternate := acks_reqs hp
  served := reqs_acked hp
  answers n k q d hq hd := by
    obtain ⟨done, cur, m, h⟩ := track_run hp n
    have hk : k < done.length := by
      rw [← h.acks_len]
      exact (List.getElem?_eq_some_iff.1 hd).1
    rw [h.reqs_eq, List.getElem?_append_left hk] at hq
    rw [h.reqs_eq, List.take_append_of_le_length hk.le]
    exact h.answers k q d hq hd
  cells n w k := by
    obtain ⟨done, cur, m, h⟩ := track_run hp n
    have hdone : (reqs bus n).take (acks (Wb.run mem bus) n).length = done := by
      rw [h.reqs_eq, h.acks_len, List.take_left]
    rw [hdone]
    exact h.cells_view w k

/-- A write of a word, a write of two of its bytes, and reads. -/
def threeRequests : ℕ → Request
  | 0 => ⟨0x40000004, 0x11223344, 0b1111, true⟩
  | 1 => ⟨0x40000004, 0xDEADBEEF, 0b0101, true⟩
  | _ => ⟨0x40000004, 0, 0b1111, false⟩

/-- The read has the two bytes of the second write between two of the first. -/
theorem wb_refines_write : Refines (fun _ _ _ => 0) (spaced threeRequests 2) ∧
    ∃ n, (acks (Wb.run (fun _ _ _ => 0) (spaced threeRequests 2)) n)[2]? = some 0x11AD33EF := by
  have href := wb_refines (fun _ _ _ => 0) (spaced threeRequests 2) (protocol_spaced _ 2)
  refine ⟨href, 3 * gap, ?_⟩
  have hgap : 2 * gap + 1 + initDone + 29 = 3 * gap := by
    rw [gap]
    omega
  have hserved := href.served (2 * gap + 1)
  rw [reqs_spaced _ (by omega), hgap, List.length_map, List.length_range,
    show (2 * gap + 1 + gap - 1) / gap = 3 by norm_num [gap, initDone]] at hserved
  obtain ⟨d, hd⟩ : ∃ d, (acks (Wb.run (fun _ _ _ => 0) (spaced threeRequests 2)) (3 * gap))[2]? =
      some d := ⟨_, List.getElem?_eq_getElem hserved⟩
  have hreqs := reqs_spaced threeRequests (k := 2) (n := 3 * gap) le_rfl
  rw [show (3 * gap + gap - 1) / gap = 3 by norm_num [gap, initDone]] at hreqs
  obtain ⟨-, hread⟩ := href.answers (3 * gap) 2 (threeRequests 2) d (by rw [hreqs]; rfl) hd
  rw [hreqs] at hread
  rw [hd, Option.some_inj]
  refine eq_of_bytes fun k => ?_
  rw [hread rfl rfl k]
  revert k
  decide

end Neorv32Boot.Sdram
