import Neorv32Boot.Xmodem.Surplus
import Neorv32Boot.Xmodem.Verified

/-!
# A verified transfer over a line without faults

`xmodem_send_verified` and `xmodem_receive_verified`, when every byte comes unchanged and in order
and no timer of the CRC exchange runs out.  In every interleaving both sides go on, and stage2 has
stored the padded payload.
-/

namespace Neorv32Boot.Xmodem

open Neorv32Boot.Trans (Reachable Inevitable)
open Host (after)
open Stage2 (crc32 puthex32)

/-- The steps of both sides over a line without faults, with the number of times that a wait of the
transfer may still run out. -/
def Timed.pairStep (data name : List Byte) (x : Pair × ℕ) : PairAct → Option (Pair × ℕ)
  | .link a => (Timed.step data (x.1.link, x.2) a).map fun y => ({ x.1 with link := y.1 }, y.2)
  | .sent => (x.1.step data name .sent).map (·, x.2)
  | .crcRead n [] => (x.1.step data name (.crcRead n [])).map (·, x.2)
  | .received [] => (x.1.step data name (.received [])).map (·, x.2)
  | .verdict [] => (x.1.step data name (.verdict [])).map (·, x.2)
  | _ => none

/-! ### The end of the transfer -/

/-- The receiver has returned with the payload. -/
structure Taken (data : List Byte) (s : Sys) : Prop where
  holds : s.rx.Holds data (numBlocks data)
  wait_eq : s.rx.wait = .ret (BitVec.ofNat 32 data.length)
  toDev_eq : s.toDev = []

/-- The `ACK` of `EOT` is the last byte on the way to the sender. -/
def AckLast (s : Sys) : Prop := s.tx = .eotReply ∧ ∃ xs, s.toHost = xs ++ [ack] ∧ ack ∉ xs

/-- The sender has returned, and nothing is on the way to it. -/
def AllRead (s : Sys) : Prop := s.tx = .complete ∧ s.toHost = []

/-- A receiver that has returned has the payload, and nothing comes behind its last `ACK`. -/
def Ends (data : List Byte) (s : Sys) : Prop :=
  s.rx.wait.returned = true → Taken data s ∧ (AckLast s ∨ AllRead s)

section Link

variable {data : List Byte} {s s' : Sys} {budget budget' : ℕ} {a : Act}

/-- The receiver returns a size for `EOT` only, and its `ACK` is all that it sends then. -/
lemma Rx.recv_ret {rx rx' : Rx} {c : Option Byte} {out : List Byte} {size : BitVec 32}
    (h : rx.recv c = some (out, rx')) (hw : rx'.wait = .ret size) (hsize : size ≠ 0) :
    out = [ack] := by
  unfold Rx.recv at h
  split at h <;> (try split_ifs at h) <;> cases h <;> simp_all

/-- A line without faults keeps the end of the transfer. -/
lemma Ends.step_returned (h : Taken data s) (ha : AckLast s ∨ AllRead s)
    (hs : Timed.step data (s, budget) a = some (s', budget')) :
    Taken data s' ∧ (AckLast s' ∨ AllRead s') ∧ s'.toHost.length < s.toHost.length := by
  have hret := Rx.recv_returned h.wait_eq
  rcases Timed.step_cases hs with ⟨rfl | rfl | rfl, hs, -⟩ | ⟨rfl, hne, hs, -⟩ | ⟨rfl, hs, -⟩
  · obtain ⟨out, tx, htx, -⟩ := step_send hs
    rcases ha with ⟨ht, -⟩ | ⟨ht, -⟩ <;> cases ht ▸ htx
  · obtain ⟨c, rest, tx, hto, htx, rfl⟩ := step_read hs
    have hto' : s.toHost = c :: rest := hto
    have htx' : s.tx.read data c = some tx := htx
    rcases ha with ⟨ht, xs, hxs, hno⟩ | ⟨ht, -⟩
    · rw [hto'] at hxs
      rw [ht, Tx.read] at htx'
      refine ⟨⟨h.holds, h.wait_eq, h.toDev_eq⟩, ?_, by simp [hto']⟩
      rcases xs with _ | ⟨x, xs⟩
      · obtain ⟨rfl, rfl⟩ := List.cons.inj hxs
        rw [if_pos rfl] at htx'
        cases htx'
        exact Or.inr ⟨rfl, rfl⟩
      · obtain ⟨rfl, rfl⟩ := List.cons.inj hxs
        rw [List.mem_cons, not_or] at hno
        rw [if_neg (Ne.symm hno.1)] at htx'
        cases htx'
        exact Or.inl ⟨rfl, xs, rfl, hno.2⟩
    · rw [ht] at htx'
      cases htx'
  · obtain ⟨c, rest, out, rx, hto, -⟩ := step_recv hs
    cases h.toDev_eq.symm.trans hto
  · obtain ⟨tx, htx, -⟩ := step_hostTimeout hs
    rcases ha with ⟨ht, -⟩ | ⟨ht, -⟩
    · exact absurd ht hne
    · cases ht ▸ htx
  · obtain ⟨out, rx, hrx, -⟩ := step_devTimeout hs
    cases (hret none).symm.trans hrx

lemma Going.not_returned_or (h : Going data s budget) :
    s.rx.wait.returned = false ∨ (∃ m, Closed data m s) ∨ Complete data s := by
  have hline : ∀ {p msgs}, Line p msgs s → s.rx.wait.returned = false := fun hp =>
    hp.wait_eq ▸ returned_place _
  cases h with
  | fresh h =>
    obtain ⟨p, hp⟩ := h.line
    exact Or.inl (hline hp)
  | stale h =>
    obtain ⟨p, hp⟩ := h.line
    exact Or.inl (hline hp)
  | closing h =>
    obtain ⟨p, hp⟩ := h.line
    exact Or.inl (hline hp)
  | closed h => exact Or.inr (Or.inl ⟨_, h⟩)
  | complete h => exact Or.inr (Or.inr h)

/-- The sender returns when the transfer is complete only. -/
lemma Going.complete_of_ended (h : Going data s budget) (he : s.tx.ended = true) :
    Complete data s := by
  cases h with
  | fresh h | stale h | closing h =>
    rcases h.tx with ⟨ht, -⟩ | ⟨ht, -⟩ <;> rw [ht] at he <;> cases he
  | closed h =>
    rw [h.tx_eq] at he
    cases he
  | complete h => exact h

/-- The transfer goes on, and its end is kept. -/
lemma Going.ends_step (hdata : data.length % 128 = 0) (hpos : 0 < data.length)
    (hlen : data.length < 2 ^ 32) (h : Going data s budget) (he : Ends data s)
    (hs : Timed.step data (s, budget) a = some (s', budget')) :
    Going data s' budget' ∧ Ends data s' := by
  by_cases hcomp : Complete data s
  · have hw : s.rx.wait.returned = true := by rw [hcomp.wait_eq]; rfl
    obtain ⟨ht, ha⟩ := he hw
    have hread : s.toHost = [] := by
      rcases ha with ⟨htx, -⟩ | ⟨-, hto⟩
      · cases hcomp.tx_eq.symm.trans htx
      · exact hto
    have := (Ends.step_returned ht ha hs).2.2
    rw [hread] at this
    exact absurd this (by simp)
  have hgo := h.step hdata hlen hcomp hs
  refine ⟨hgo, fun hw' => ?_⟩
  by_cases hw : s.rx.wait.returned = true
  · obtain ⟨ht, ha⟩ := he hw
    obtain ⟨ht', ha', -⟩ := Ends.step_returned ht ha hs
    exact ⟨ht', ha'⟩
  -- the receiver returns in this step
  have hret : ∀ (out : List Byte) (c : Option Byte), s.rx.recv c = some (out, s'.rx) →
      s'.toHost = s.toHost ++ out → s'.tx = s.tx → Taken data s' ∧ (AckLast s' ∨ AllRead s') := by
    intro out c hrx hto htx
    rcases hgo.not_returned_or with hno | ⟨m, hc⟩ | hc
    · exact absurd hw' (by simp [hno])
    · have hsize : s'.rx.total = BitVec.ofNat 32 data.length := by
        rw [hc.holds.total_eq, length_eq hdata]
      have hwait : s'.rx.wait = .ret (BitVec.ofNat 32 data.length) := by
        rw [hc.wait_eq, hsize]
      have hout := Rx.recv_ret hrx hwait (by bv_omega)
      refine ⟨⟨hc.holds, hwait, hc.toDev_eq⟩, Or.inl ⟨hc.tx_eq, s.toHost, by rw [hto, hout], ?_⟩⟩
      have hrep := hc.replies_eq
      rw [hto, hout, replies_append, replies_ack] at hrep
      have hnak := List.append_inj_left' hrep rfl
      intro hmem
      have hin : ack ∈ replies s.toHost := by simpa [replies] using hmem
      rw [hnak] at hin
      exact nak_ne_ack (List.eq_of_mem_replicate hin).symm
    · refine absurd (h.complete_of_ended ?_) hcomp
      rw [← htx, hc.tx_eq]
      rfl
  rcases Timed.step_cases hs with ⟨rfl | rfl | rfl, hs, -⟩ | ⟨rfl, hne, hs, -⟩ | ⟨rfl, hs, -⟩
  · obtain ⟨out, tx, -, hs'⟩ := step_send hs
    exact absurd hw' (by rwa [show s' = _ from hs'])
  · obtain ⟨c, rest, tx, -, -, hs'⟩ := step_read hs
    exact absurd hw' (by rwa [show s' = _ from hs'])
  · obtain ⟨c, rest, out, rx, -, hrx, hs'⟩ := step_recv hs
    have hs' : s' = _ := hs'
    exact hret out (some c) (by rw [hs']; exact hrx) (by rw [hs', deliver_nil]) (by rw [hs'])
  · obtain ⟨tx, -, hs'⟩ := step_hostTimeout hs
    exact absurd hw' (by rwa [show s' = _ from hs'])
  · obtain ⟨out, rx, hrx, hs'⟩ := step_devTimeout hs
    have hs' : s' = _ := hs'
    exact hret out none (by rw [hs']; exact hrx) (by rw [hs', deliver_nil]) (by rw [hs'])

end Link

/-! ### The CRC line -/

/-- A pattern that is found is in the string. -/
lemma exists_of_after {pat bs rest : List Byte} (h : after pat bs = some rest) :
    ∃ front, bs = front ++ pat ++ rest := by
  induction bs with
  | nil =>
    rw [after] at h
    split_ifs at h with hp
    cases h
    exact ⟨[], by simp [hp]⟩
  | cons b bs ih =>
    rw [after] at h
    split_ifs at h with hp
    · cases h
      exact ⟨[], (List.prefix_append_drop hp).trans (by rw [List.nil_append])⟩
    · obtain ⟨front, hf⟩ := ih h
      exact ⟨b :: front, by rw [List.cons_append, List.cons_append, ← hf]⟩

/-- What follows a pattern is found again in a longer string. -/
lemma after_append_right {pat bs rest : List Byte} (h : after pat bs = some rest)
    (more : List Byte) : after pat (bs ++ more) = some (rest ++ more) := by
  induction bs with
  | nil =>
    rw [after] at h
    split_ifs at h with hp
    cases h
    subst hp
    cases more <;> simp [after]
  | cons b bs ih =>
    rw [after] at h
    rw [List.cons_append, after]
    split_ifs at h with hp
    · cases h
      have hp' : pat <+: b :: (bs ++ more) := hp.trans ⟨more, rfl⟩
      rw [if_pos hp', ← List.cons_append, List.drop_append_of_le_length hp.length_le]
    · have hp' : ¬ pat <+: b :: (bs ++ more) := by
        intro hlong
        obtain ⟨front, hf⟩ := exists_of_after h
        refine hp (List.prefix_of_prefix_length_le hlong ⟨more, rfl⟩ ?_)
        rw [hf, List.length_cons, List.length_append, List.length_append]
        omega
      rw [if_neg hp']
      exact ih h

/-- The line of the CRC is seen when all of the report has been read. -/
lemma lineSeen_iff {name crcBuf more : List Byte} {size crc : BitVec 32}
    (hname : (0x3A : Byte) ∉ name) (h : crcBuf ++ more = reportText name size crc) :
    lineSeen crcBuf = true ↔ more = [] := by
  have hreport := after_reportText hname size crc
  rw [lineSeen]
  constructor
  · intro hseen
    cases hafter : after crcTag crcBuf with
    | none => simp [hafter] at hseen
    | some rest =>
      simp only [hafter, List.contains_iff_mem] at hseen
      have hlong := after_append_right hafter more
      rw [h, hreport, Option.some.injEq] at hlong
      -- the line end is the last byte of the report
      by_contra hne
      obtain ⟨init, x, rfl⟩ := (List.eq_nil_or_concat more).resolve_left hne
      have hsplit : rest ++ init ++ [x] = puthex32 crc ++ [0x0D] ++ [0x0A] := by
        rw [List.append_assoc, ← List.concat_eq_append, ← hlong, List.append_assoc]
        rfl
      have hinit := (List.append_inj' hsplit rfl).1
      have hmem : (0x0A : Byte) ∈ puthex32 crc ++ [0x0D] := by
        rw [← hinit]
        exact List.mem_append_left _ hseen
      rcases List.mem_append.1 hmem with hmem | hmem
      · cases Host.isSpace_puthex32 crc _ hmem
      · cases List.mem_singleton.1 hmem
  · rintro rfl
    rw [List.append_nil] at h
    rw [h, hreport]
    simp [ascii]

/-- The host answers the report of its payload with `ACK`. -/
lemma conclude_report {data name : List Byte} {size : BitVec 32} (hname : (0x3A : Byte) ∉ name) :
    conclude data (reportText name size (crc32 data)) = ([ack], true) := by
  have hline := after_reportText hname size (crc32 data)
  have hcarried : Carried (reportText name size (crc32 data)) (reportText name size (crc32 data)) :=
    ⟨_, [], hline, by rw [hline, List.append_nil]⟩
  rw [conclude, fpgaCrc_of_carried hname hcarried]
  exact if_pos rfl

/-! ### The places of the session -/

/-- What stage2 prints about the payload. -/
def sizeReport (data name : List Byte) : List Byte :=
  reportText name (BitVec.ofNat 32 data.length) (crc32 data)

/-- Both sides go on: stage2 has stored the payload, and nothing is on the way. -/
structure Delivered (data : List Byte) (s : Pair) : Prop where
  sender : ∃ crcBuf, s.sender = .returned true crcBuf
  receiver : s.receiver = .returned (BitVec.ofNat 32 data.length)
  holds : s.link.rx.Holds data (numBlocks data)
  quiet : s.link.toDev = [] ∧ s.link.toHost = []

/-- Where a session is, with a rank that falls from step to step. -/
inductive Stage (data name : List Byte) : ℕ × ℕ × ℕ × ℕ → Pair × ℕ → Prop
  /-- in the transfer -/
  | transfer {s : Pair} {budget : ℕ} (hsender : s.sender = .sending)
      (hreceiver : s.receiver = .receiving) (hgo : Going data s.link budget)
      (hends : Ends data s.link) :
    Stage data name (6, s.link.tx.rank data, budget, s.link.size) (s, budget)
  /-- the host has gone on before stage2 -/
  | sentFirst {s : Pair} {budget : ℕ} (hsender : s.sender = .waiting [])
      (hreceiver : s.receiver = .receiving) (ht : Taken data s.link) (hall : AllRead s.link) :
    Stage data name (5, 0, 0, 0) (s, budget)
  /-- stage2 has printed the report behind its last `ACK` -/
  | reported {s : Pair} {budget : ℕ} {xs : List Byte} (hsender : s.sender = .sending)
      (hreceiver : s.receiver = .verdict (BitVec.ofNat 32 data.length)) (ht : Taken data s.link)
      (htx : s.link.tx = .eotReply) (hto : s.link.toHost = xs ++ ack :: sizeReport data name)
      (hno : ack ∉ xs) :
    Stage data name (4, 0, 0, s.link.toHost.length) (s, budget)
  /-- the host has read that `ACK` -/
  | acked {s : Pair} {budget : ℕ} (hsender : s.sender = .sending)
      (hreceiver : s.receiver = .verdict (BitVec.ofNat 32 data.length)) (ht : Taken data s.link)
      (htx : s.link.tx = .complete) (hto : s.link.toHost = sizeReport data name) :
    Stage data name (3, 0, 0, 0) (s, budget)
  /-- the host reads the report -/
  | reading {s : Pair} {budget : ℕ} {crcBuf : List Byte} (hsender : s.sender = .waiting crcBuf)
      (hreceiver : s.receiver = .verdict (BitVec.ofNat 32 data.length)) (ht : Taken data s.link)
      (htx : s.link.tx = .complete) (hto : crcBuf ++ s.link.toHost = sizeReport data name)
      (hne : s.link.toHost ≠ []) :
    Stage data name (2, 0, 0, s.link.toHost.length) (s, budget)
  /-- the verdict is on the way -/
  | answered {s : Pair} {budget : ℕ} {crcBuf : List Byte}
      (hsender : s.sender = .returned true crcBuf)
      (hreceiver : s.receiver = .verdict (BitVec.ofNat 32 data.length))
      (hholds : s.link.rx.Holds data (numBlocks data)) (hw : s.link.rx.wait.returned = true)
      (htx : s.link.tx = .complete) (htd : s.link.toDev = [ack]) (hto : s.link.toHost = []) :
    Stage data name (1, 0, 0, 0) (s, budget)
  /-- both sides have returned -/
  | delivered {s : Pair} {budget : ℕ} (h : Delivered data s)
      (hw : s.link.rx.wait.returned = true) (htx : s.link.tx = .complete) :
    Stage data name (0, 0, 0, 0) (s, budget)

section Session

variable {data name : List Byte} {s s' : Pair} {budget budget' : ℕ}

/-- What a step of a session is. -/
lemma Timed.pairStep_cases {x x' : Pair × ℕ} {a : PairAct}
    (h : Timed.pairStep data name x a = some x') :
    (∃ b y, Timed.step data (x.1.link, x.2) b = some y ∧ x' = ({ x.1 with link := y.1 }, y.2)) ∨
      ((a = .sent ∨ (∃ n, a = .crcRead n []) ∨ a = .received [] ∨ a = .verdict []) ∧
        x.1.step data name a = some x'.1 ∧ x'.2 = x.2) := by
  obtain ⟨s, budget⟩ := x
  cases a with
  | link b =>
    obtain ⟨y, hy, rfl⟩ := Option.map_eq_some_iff.1 h
    exact Or.inl ⟨b, y, hy, rfl⟩
  | sent =>
    obtain ⟨s', hs, rfl⟩ := Option.map_eq_some_iff.1 h
    exact Or.inr ⟨Or.inl rfl, hs, rfl⟩
  | crcRead n fs =>
    cases fs with
    | nil =>
      obtain ⟨s', hs, rfl⟩ := Option.map_eq_some_iff.1 h
      exact Or.inr ⟨Or.inr (Or.inl ⟨n, rfl⟩), hs, rfl⟩
    | cons f fs => cases h
  | received fs =>
    cases fs with
    | nil =>
      obtain ⟨s', hs, rfl⟩ := Option.map_eq_some_iff.1 h
      exact Or.inr ⟨Or.inr (Or.inr (Or.inl rfl)), hs, rfl⟩
    | cons f fs => cases h
  | verdict fs =>
    cases fs with
    | nil =>
      obtain ⟨s', hs, rfl⟩ := Option.map_eq_some_iff.1 h
      exact Or.inr ⟨Or.inr (Or.inr (Or.inr rfl)), hs, rfl⟩
    | cons f fs => cases h
  | crcTimeout fs => cases h
  | verdictTimeout => cases h

/-- When the sender has returned and the receiver has too, the transfer is over. -/
lemma not_timed_step {s : Sys} {a : Act} {y : Sys × ℕ} (hw : s.rx.wait.returned = true)
    (htx : s.tx = .complete) : Timed.step data (s, budget) a ≠ some y := by
  intro hs
  have hret := Rx.recv_of_returned hw
  rcases Timed.step_cases hs with ⟨rfl | rfl | rfl, hs, -⟩ | ⟨rfl, -, hs, -⟩ | ⟨rfl, hs, -⟩
  · obtain ⟨out, tx, h, -⟩ := step_send hs
    cases htx ▸ h
  · obtain ⟨c, rest, tx, -, h, -⟩ := step_read hs
    cases htx ▸ h
  · obtain ⟨c, rest, out, rx, -, h, -⟩ := step_recv hs
    cases (hret _).symm.trans h
  · obtain ⟨tx, h, -⟩ := step_hostTimeout hs
    cases htx ▸ h
  · obtain ⟨out, rx, h, -⟩ := step_devTimeout hs
    cases (hret _).symm.trans h

lemma Taken.returned {s : Sys} (h : Taken data s) : s.rx.wait.returned = true := by
  rw [h.wait_eq]
  rfl

/-- A step leads from a place of this rank to one of a smaller rank. -/
def Falls (data name : List Byte) (x : ℕ × ℕ × ℕ × ℕ) (y : Pair × ℕ) : Prop :=
  ∃ x', Prod.Lex (· < ·) (Prod.Lex (· < ·) (Prod.Lex (· < ·) (· < ·))) x' x ∧ Stage data name x' y

/-- A step inside the transfer. -/
lemma transfer_link (hdata : data.length % 128 = 0) (hpos : 0 < data.length)
    (hlen : data.length < 2 ^ 32) (hsender : s.sender = .sending)
    (hreceiver : s.receiver = .receiving) (hgo : Going data s.link budget)
    (hends : Ends data s.link) {b : Act} {y : Sys × ℕ}
    (hs : Timed.step data (s.link, budget) b = some y) :
    Falls data name (6, s.link.tx.rank data, budget, s.link.size)
      ({ s with link := y.1 }, y.2) := by
  have hcomp : ¬ Complete data s.link := by
    intro hcomp
    exact not_timed_step (by rw [hcomp.wait_eq]; rfl) hcomp.tx_eq hs
  obtain ⟨hgo', hends'⟩ := hgo.ends_step hdata hpos hlen hends hs
  exact ⟨_, .right _ (hgo.rank_lt hs hcomp),
    .transfer (s := { s with link := y.1 }) hsender hreceiver hgo' hends'⟩

/-- The host goes on after the transfer. -/
lemma transfer_sent (hsender : s.sender = .sending) (hreceiver : s.receiver = .receiving)
    (hgo : Going data s.link budget) (hends : Ends data s.link) {x : ℕ × ℕ × ℕ}
    (hs : s.step data name .sent = some s') : Falls data name (6, x) (s', budget) := by
  have hcomp : ∀ tx, s.link.tx = tx → tx.ended = true → Complete data s.link := by
    rintro tx rfl he
    exact hgo.complete_of_ended he
  rw [Pair.step, hsender] at hs
  split at hs
  · next htx =>
    cases hs
    have hcomp := hcomp _ htx rfl
    obtain ⟨ht, ha⟩ := hends (by rw [hcomp.wait_eq]; rfl)
    rcases ha with ⟨hno, -⟩ | hall
    · cases hno.symm.trans htx
    · exact ⟨_, .left _ _ (by decide), .sentFirst rfl hreceiver ht hall⟩
  · next htx => cases (hcomp _ htx rfl).tx_eq.symm.trans htx
  · next htx => cases (hcomp _ htx rfl).tx_eq.symm.trans htx
  · cases hs

/-- Stage2 prints the report, behind what is on the way. -/
lemma received_report (hdata : data.length % 128 = 0) (hpos : 0 < data.length)
    (hlen : data.length < 2 ^ 32) (ht : Taken data s.link)
    (hs : s.step data name (.received []) = some s') :
    s'.sender = s.sender ∧ s'.receiver = .verdict (BitVec.ofNat 32 data.length) ∧
      Taken data s'.link ∧ s'.link.tx = s.link.tx ∧
      s'.link.toHost = s.link.toHost ++ sizeReport data name := by
  have hne : BitVec.ofNat 32 data.length ≠ 0 := by bv_omega
  have hsize : (BitVec.ofNat 32 data.length).toNat = data.length := by
    rw [BitVec.toNat_ofNat, Nat.mod_eq_of_lt hlen]
  rw [Pair.step] at hs
  split at hs
  · next size hr hw =>
    cases ht.wait_eq.symm.trans hw
    rw [if_neg hne, hsize, ht.holds.dest_eq hdata] at hs
    cases hs
    exact ⟨rfl, rfl, ⟨ht.holds, ht.wait_eq, ht.toDev_eq⟩, rfl, by rw [deliver_nil, sizeReport]⟩
  · cases hs

/-- The host reads a byte of what comes before the report, or the `ACK`. -/
lemma reported_link {xs : List Byte} (hsender : s.sender = .sending)
    (hreceiver : s.receiver = .verdict (BitVec.ofNat 32 data.length)) (ht : Taken data s.link)
    (htx : s.link.tx = .eotReply) (hto : s.link.toHost = xs ++ ack :: sizeReport data name)
    (hno : ack ∉ xs) {b : Act} {y : Sys × ℕ}
    (hs : Timed.step data (s.link, budget) b = some y) :
    Falls data name (4, 0, 0, s.link.toHost.length) ({ s with link := y.1 }, y.2) := by
  obtain ⟨link, budget'⟩ := y
  rcases Timed.step_cases hs with ⟨rfl | rfl | rfl, hs, -⟩ | ⟨rfl, hne, hs, -⟩ | ⟨rfl, hs, -⟩
  · obtain ⟨out, tx, h, -⟩ := step_send hs
    cases htx ▸ h
  · obtain ⟨c, rest, tx, hcons, hread, rfl⟩ := step_read hs
    rw [show s.link.tx = _ from htx, Tx.read] at hread
    rw [show s.link.toHost = _ from hcons] at hto ⊢
    rcases xs with _ | ⟨x, xs⟩
    · obtain ⟨rfl, rfl⟩ := List.cons.inj hto
      rw [if_pos rfl] at hread
      cases hread
      exact ⟨_, .left _ _ (by decide), .acked hsender hreceiver
        ⟨ht.holds, ht.wait_eq, ht.toDev_eq⟩ rfl rfl⟩
    · obtain ⟨rfl, rfl⟩ := List.cons.inj hto
      rw [List.mem_cons, not_or] at hno
      rw [if_neg (Ne.symm hno.1)] at hread
      cases hread
      refine ⟨_, .right _ (.right _ (.right _ (Nat.lt_succ_self _))), .reported
        (s := { s with link := { s.link with
          tx := .eotReply
          toHost := xs ++ ack :: sizeReport data name } })
        hsender hreceiver ⟨ht.holds, ht.wait_eq, ht.toDev_eq⟩ rfl rfl hno.2⟩
  · obtain ⟨c, rest, out, rx, hcons, -⟩ := step_recv hs
    cases ht.toDev_eq.symm.trans hcons
  · exact absurd htx hne
  · obtain ⟨out, rx, h, -⟩ := step_devTimeout hs
    cases (Rx.recv_returned ht.wait_eq none).symm.trans h

/-- The host reads some bytes of the report, and answers when it has all. -/
lemma reading_crcRead (hname : (0x3A : Byte) ∉ name) {crcBuf : List Byte} {n : ℕ}
    (hsender : s.sender = .waiting crcBuf)
    (hreceiver : s.receiver = .verdict (BitVec.ofNat 32 data.length)) (ht : Taken data s.link)
    (htx : s.link.tx = .complete) (hto : crcBuf ++ s.link.toHost = sizeReport data name)
    (hs : s.step data name (.crcRead n []) = some s') :
    Falls data name (2, 0, 0, s.link.toHost.length) (s', budget) := by
  rw [Pair.step, hsender] at hs
  dsimp only at hs
  split_ifs at hs with hn hseen
  · cases hs
    have hall : (crcBuf ++ s.link.toHost.take n) ++ s.link.toHost.drop n =
        reportText name (BitVec.ofNat 32 data.length) (crc32 data) := by
      rw [List.append_assoc, List.take_append_drop, hto, sizeReport]
    have hnil := (lineSeen_iff hname hall).1 hseen
    rw [hnil, List.append_nil] at hall
    have hconc : conclude data (crcBuf ++ s.link.toHost.take n) = ([ack], true) := by
      rw [hall, conclude_report hname]
    have hret : (s.concluded data (crcBuf ++ s.link.toHost.take n) []).sender =
        .returned true (crcBuf ++ s.link.toHost.take n) := by
      rw [Pair.concluded, hconc]
    refine ⟨_, .left _ _ (by decide), .answered hret hreceiver ht.holds ht.returned htx ?_ hnil⟩
    · rw [Pair.concluded, hconc, deliver_nil]
      exact congrArg (· ++ [ack]) ht.toDev_eq
  · cases hs
    have hall : (crcBuf ++ s.link.toHost.take n) ++ s.link.toHost.drop n =
        sizeReport data name := by
      rw [List.append_assoc, List.take_append_drop, hto]
    have hne : s.link.toHost.drop n ≠ [] := fun hnil => hseen ((lineSeen_iff hname hall).2 hnil)
    refine ⟨_, .right _ (.right _ (.right _ ?_)), .reading rfl hreceiver
      ⟨ht.holds, ht.wait_eq, ht.toDev_eq⟩ htx hall hne⟩
    rw [List.length_drop]
    omega

/-- Stage2 takes the verdict. -/
lemma answered_verdict {crcBuf : List Byte} (hsender : s.sender = .returned true crcBuf)
    (hreceiver : s.receiver = .verdict (BitVec.ofNat 32 data.length))
    (hholds : s.link.rx.Holds data (numBlocks data)) (hw : s.link.rx.wait.returned = true)
    (htx : s.link.tx = .complete) (htd : s.link.toDev = [ack]) (hto : s.link.toHost = [])
    (hs : s.step data name (.verdict []) = some s') :
    Falls data name (1, 0, 0, 0) (s', budget) := by
  rw [Pair.step, hreceiver, htd] at hs
  dsimp only at hs
  rw [if_neg (Ne.symm nak_ne_ack)] at hs
  cases hs
  exact ⟨_, .left _ _ (by decide), .delivered ⟨⟨crcBuf, hsender⟩, rfl, hholds, rfl, hto⟩ hw htx⟩

/-- Stage2 goes on after the transfer. -/
lemma transfer_received (hdata : data.length % 128 = 0) (hpos : 0 < data.length)
    (hlen : data.length < 2 ^ 32) (hsender : s.sender = .sending) (hends : Ends data s.link)
    {x : ℕ × ℕ × ℕ} {y : Pair × ℕ} (hs : s.step data name (.received []) = some y.1) :
    Falls data name (6, x) y := by
  obtain ⟨s', budget'⟩ := y
  have hw : s.link.rx.wait.returned = true := by
    rw [Pair.step] at hs
    split at hs
    · next size hr hw => rw [hw, Wait.returned]
    · cases hs
  obtain ⟨ht, ha⟩ := hends hw
  obtain ⟨hs', hr', ht', htx', hto'⟩ := received_report hdata hpos hlen ht hs
  rcases ha with ⟨htx, xs, hxs, hnack⟩ | ⟨htx, hnil⟩
  · refine ⟨_, .left _ _ (by decide), .reported (hs'.trans hsender) hr' ht' (htx'.trans htx) ?_
      hnack⟩
    rw [hto', hxs, List.append_assoc, List.singleton_append]
  · refine ⟨_, .left _ _ (by decide), .acked (hs'.trans hsender) hr' ht' (htx'.trans htx) ?_⟩
    rw [hto', hnil, List.nil_append]

lemma sizeReport_ne_nil : sizeReport data name ≠ [] := by
  rw [sizeReport, reportText]
  simp [ascii]

/-- Stage2 goes on when the host waits for the report. -/
lemma sentFirst_received (hdata : data.length % 128 = 0) (hpos : 0 < data.length)
    (hlen : data.length < 2 ^ 32) (hsender : s.sender = .waiting []) (ht : Taken data s.link)
    (hall : AllRead s.link) {x : ℕ × ℕ × ℕ} {y : Pair × ℕ}
    (hs : s.step data name (.received []) = some y.1) : Falls data name (5, x) y := by
  obtain ⟨s', budget'⟩ := y
  obtain ⟨hs', hr', ht', htx', hto'⟩ := received_report hdata hpos hlen ht hs
  have hreport : s'.link.toHost = sizeReport data name := by rw [hto', hall.2, List.nil_append]
  refine ⟨_, .left _ _ (by decide), .reading (hs'.trans hsender) hr' ht' (htx'.trans hall.1)
    ((List.nil_append _).trans hreport) ?_⟩
  rw [hreport]
  exact sizeReport_ne_nil

/-! ### Runs -/

/-- Every step falls. -/
lemma Stage.step (hdata : data.length % 128 = 0) (hpos : 0 < data.length)
    (hlen : data.length < 2 ^ 32) (hname : (0x3A : Byte) ∉ name) {x : ℕ × ℕ × ℕ × ℕ} {a : PairAct}
    {y : Pair × ℕ} (h : Stage data name x (s, budget))
    (hs : Timed.pairStep data name (s, budget) a = some y) : Falls data name x y := by
  have hcases := Timed.pairStep_cases hs
  -- what is not enabled at a place
  have hno : ∀ {a}, s.step data name a = some y.1 → s.step data name a = none → False := by
    intro a hs hn
    cases hn.symm.trans hs
  cases h with
  | transfer hsender hreceiver hgo hends =>
    rcases hcases with ⟨b, z, hb, rfl⟩ | ⟨rfl | ⟨n, rfl⟩ | rfl | rfl, hs, hb⟩
    · exact transfer_link hdata hpos hlen hsender hreceiver hgo hends hb
    · obtain ⟨s', b⟩ := y
      cases hb
      exact transfer_sent hsender hreceiver hgo hends hs
    · exact (hno hs (by rw [Pair.step, hsender])).elim
    · exact transfer_received hdata hpos hlen hsender hends hs
    · exact (hno hs (by rw [Pair.step, hreceiver])).elim
  | sentFirst hsender hreceiver ht hall =>
    rcases hcases with ⟨b, z, hb, -⟩ | ⟨rfl | ⟨n, rfl⟩ | rfl | rfl, hs, hb⟩
    · exact absurd hb (not_timed_step ht.returned hall.1)
    · exact (hno hs (by rw [Pair.step, hsender])).elim
    · refine (hno hs ?_).elim
      rw [Pair.step, hsender]
      dsimp only
      rw [if_neg]
      rw [hall.2, List.length_nil]
      omega
    · exact sentFirst_received hdata hpos hlen hsender ht hall hs
    · exact (hno hs (by rw [Pair.step, hreceiver])).elim
  | reported hsender hreceiver ht htx hto hnack =>
    rcases hcases with ⟨b, z, hb, rfl⟩ | ⟨rfl | ⟨n, rfl⟩ | rfl | rfl, hs, hb⟩
    · exact reported_link hsender hreceiver ht htx hto hnack hb
    · exact (hno hs (by rw [Pair.step, hsender, htx])).elim
    · exact (hno hs (by rw [Pair.step, hsender])).elim
    · exact (hno hs (by rw [Pair.step, hreceiver])).elim
    · exact (hno hs (by rw [Pair.step, hreceiver, ht.toDev_eq])).elim
  | acked hsender hreceiver ht htx hto =>
    rcases hcases with ⟨b, z, hb, -⟩ | ⟨rfl | ⟨n, rfl⟩ | rfl | rfl, hs, hb⟩
    · exact absurd hb (not_timed_step ht.returned htx)
    · obtain ⟨s', b⟩ := y
      rw [Pair.step, hsender, htx] at hs
      cases hs
      refine ⟨_, .left _ _ (by decide), .reading rfl hreceiver ht htx
        ((List.nil_append _).trans hto) ?_⟩
      rw [hto]
      exact sizeReport_ne_nil
    · exact (hno hs (by rw [Pair.step, hsender])).elim
    · exact (hno hs (by rw [Pair.step, hreceiver])).elim
    · exact (hno hs (by rw [Pair.step, hreceiver, ht.toDev_eq])).elim
  | reading hsender hreceiver ht htx hto hne =>
    rcases hcases with ⟨b, z, hb, -⟩ | ⟨rfl | ⟨n, rfl⟩ | rfl | rfl, hs, hb⟩
    · exact absurd hb (not_timed_step ht.returned htx)
    · exact (hno hs (by rw [Pair.step, hsender])).elim
    · exact reading_crcRead hname hsender hreceiver ht htx hto hs
    · exact (hno hs (by rw [Pair.step, hreceiver])).elim
    · exact (hno hs (by rw [Pair.step, hreceiver, ht.toDev_eq])).elim
  | answered hsender hreceiver hholds hw htx htd hto =>
    rcases hcases with ⟨b, z, hb, -⟩ | ⟨rfl | ⟨n, rfl⟩ | rfl | rfl, hs, hb⟩
    · exact absurd hb (not_timed_step hw htx)
    · exact (hno hs (by rw [Pair.step, hsender])).elim
    · exact (hno hs (by rw [Pair.step, hsender])).elim
    · exact (hno hs (by rw [Pair.step, hreceiver])).elim
    · exact answered_verdict hsender hreceiver hholds hw htx htd hto hs
  | delivered hdel hw htx =>
    obtain ⟨crcBuf, hsender⟩ := hdel.sender
    rcases hcases with ⟨b, z, hb, -⟩ | ⟨rfl | ⟨n, rfl⟩ | rfl | rfl, hs, hb⟩
    · exact absurd hb (not_timed_step hw htx)
    · exact (hno hs (by rw [Pair.step, hsender])).elim
    · exact (hno hs (by rw [Pair.step, hsender])).elim
    · exact (hno hs (by rw [Pair.step, hdel.receiver])).elim
    · exact (hno hs (by rw [Pair.step, hdel.receiver])).elim

lemma can_link {b : Act} {y : Sys × ℕ} (h : Timed.step data (s.link, budget) b = some y) :
    ∃ a y, Timed.pairStep data name (s, budget) a = some y :=
  ⟨.link b, ({ s with link := y.1 }, y.2), by simp only [Timed.pairStep, h, Option.map_some]⟩

lemma can_pair {a : PairAct} (ha : a = .sent ∨ a = .crcRead 1 [] ∨ a = .received [] ∨
    a = .verdict []) (h : ∃ s', s.step data name a = some s') :
    ∃ a y, Timed.pairStep data name (s, budget) a = some y := by
  obtain ⟨s', hs⟩ := h
  refine ⟨a, (s', budget), ?_⟩
  rcases ha with rfl | rfl | rfl | rfl <;> simp only [Timed.pairStep, hs, Option.map_some]

/-- Stage2 can print the report. -/
lemma can_received (hreceiver : s.receiver = .receiving) (ht : Taken data s.link) :
    ∃ s', s.step data name (.received []) = some s' := by
  rw [Pair.step, hreceiver, ht.wait_eq]
  dsimp only
  split_ifs <;> exact ⟨_, rfl⟩

/-- Something can happen, as long as not both sides have returned. -/
lemma Stage.can_step {x : ℕ × ℕ × ℕ × ℕ} (h : Stage data name x (s, budget)) :
    Delivered data s ∨ ∃ a y, Timed.pairStep data name (s, budget) a = some y := by
  cases h with
  | transfer hsender hreceiver hgo hends =>
    refine Or.inr ?_
    rcases hgo.can_step with hcomp | ⟨b, y, hb⟩
    · refine can_pair (Or.inl rfl) ⟨{ s with sender := .waiting [] }, ?_⟩
      rw [Pair.step, hsender, hcomp.tx_eq]
    · exact can_link hb
  | sentFirst hsender hreceiver ht hall =>
    exact Or.inr (can_pair (Or.inr (Or.inr (Or.inl rfl))) (can_received hreceiver ht))
  | reported hsender hreceiver ht htx hto hnack =>
    refine Or.inr ?_
    have hne : s.link.toHost ≠ [] := by
      rw [hto]
      simp
    have hcan : ∃ a y, Timed.step data (s.link, budget) a = some y :=
      Timed.can (Or.inr (Or.inl rfl)) (read_enabled hne (htx ▸ eotReply_read))
    obtain ⟨a, y, hs⟩ := hcan
    exact can_link hs
  | acked hsender hreceiver ht htx hto =>
    refine Or.inr (can_pair (Or.inl rfl) ⟨{ s with sender := .waiting [] }, ?_⟩)
    rw [Pair.step, hsender, htx]
  | reading hsender hreceiver ht htx hto hne =>
    refine Or.inr (can_pair (Or.inr (Or.inl rfl)) ?_)
    have hpos := List.length_pos_iff.2 hne
    rw [Pair.step, hsender]
    dsimp only
    rw [if_pos ⟨le_rfl, hpos⟩]
    exact ⟨_, rfl⟩
  | answered hsender hreceiver hholds hw htx htd hto =>
    refine Or.inr (can_pair (Or.inr (Or.inr (Or.inr rfl))) ?_)
    rw [Pair.step, hreceiver, htd]
    dsimp only
    rw [if_neg (Ne.symm nak_ne_ack)]
    exact ⟨_, rfl⟩
  | delivered h => exact Or.inl h

end Session

/-! ### Sessions from their start -/

/-- Both sides begin, after some of the waits of stage2 have run out. -/
def Pair.startAfter (data : List Byte) (mem : BitVec 32 → Byte) (timeouts : ℕ)
    (toHost : List Byte) : Pair :=
  { Pair.start data mem toHost with
    link := .start data { Rx.start mem with retries := timeouts } toHost }

section Start

variable {payload name toHost : List Byte} {mem : BitVec 32 → Byte} {timeouts budget : ℕ}

lemma length_pad_pos (hne : payload ≠ []) : 0 < (pad payload).length := by
  have hpos := List.length_pos_iff.2 hne
  rw [pad, List.length_append]
  omega

lemma Stage.start (hne : payload ≠ []) (hack : ack ∉ toHost)
    (hsum : toHost.count nak + timeouts + budget ≤ 9) :
    ∃ x, Stage (pad payload) name x
      (Pair.startAfter (pad payload) mem timeouts toHost, budget) := by
  have hpos := numBlocks_pad_pos hne
  refine ⟨_, .transfer rfl rfl (.fresh (k := 0) (r := 0) (i := 0) (m := toHost.count nak) (n := 0)
    ⟨hpos, fun _ => rfl, ?_, Or.inl ⟨?_, rfl⟩, ⟨[], .start rfl rfl⟩, replies_stale hack, ?_, ?_⟩)
    fun hw => ?_⟩
  · exact (Rx.Holds.start _ mem).congr rfl rfl rfl rfl
  · exact if_pos hpos
  · simp only [Pair.startAfter, Sys.start]
    omega
  · omega
  · cases hw

/-- **A session over a line without faults ends**, with both sides going on and the payload
stored, whatever has come before the host begins. -/
theorem session_delivers (hne : payload ≠ []) (hlen : (pad payload).length < 2 ^ 32)
    (hname : (0x3A : Byte) ∉ name) (hack : ack ∉ toHost)
    (hsum : toHost.count nak + timeouts + budget ≤ 9) :
    Inevitable (Timed.pairStep (pad payload) name) (fun y => Delivered (pad payload) y.1)
      (Pair.startAfter (pad payload) mem timeouts toHost, budget) := by
  have wf : WellFounded (Prod.Lex (· < ·) (Prod.Lex (· < ·) (Prod.Lex (· < ·) (· < ·))) :
      ℕ × ℕ × ℕ × ℕ → _ → Prop) :=
    WellFounded.prod_lex Nat.lt_wfRel.wf (WellFounded.prod_lex Nat.lt_wfRel.wf
      (WellFounded.prod_lex Nat.lt_wfRel.wf Nat.lt_wfRel.wf))
  obtain ⟨x, hx⟩ := @Stage.start payload name toHost mem timeouts budget hne hack hsum
  refine Inevitable.of_rank wf (I := Stage (pad payload) name) (fun x y h => ?_)
    (fun x y a y' h hs => Or.inr ?_) hx
  · exact h.can_step
  · exact h.step (length_pad payload) (length_pad_pos hne) hlen hname hs

/-- When stage2 has returned in such a session, it has the payload. -/
theorem session_returns (hne : payload ≠ []) (hlen : (pad payload).length < 2 ^ 32)
    (hname : (0x3A : Byte) ∉ name) (hack : ack ∉ toHost)
    (hsum : toHost.count nak + timeouts + budget ≤ 9) {y : Pair × ℕ} {size : BitVec 32}
    (h : Reachable (Timed.pairStep (pad payload) name)
      (Pair.startAfter (pad payload) mem timeouts toHost, budget) y)
    (hret : y.1.receiver = .returned size) : Delivered (pad payload) y.1 := by
  have hstage : ∃ x, Stage (pad payload) name x y := by
    refine h.inv (I := fun y => ∃ x, Stage (pad payload) name x y) (Stage.start hne hack hsum) ?_
    rintro y a y' ⟨x, hx⟩ hs
    obtain ⟨x', -, hx'⟩ := hx.step (length_pad payload) (length_pad_pos hne) hlen hname hs
    exact ⟨x', hx'⟩
  obtain ⟨x, hx⟩ := hstage
  cases hx with
  | delivered hdel => exact hdel
  | transfer _ hr | sentFirst _ hr | reported _ hr | acked _ hr | reading _ hr | answered _ hr =>
    cases hr.symm.trans hret

end Start

end Neorv32Boot.Xmodem
