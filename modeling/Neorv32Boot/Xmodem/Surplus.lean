import Neorv32Boot.Xmodem.Flow

/-!
# Surplus replies

A `NAK` that is on the way before the sender begins, or a timer that runs out too early, makes the
sender transmit a frame that the receiver has stored already.  It rejects that frame, and so the
surplus goes round for the rest of the transfer.  With a surplus of nine at most, no retry counter
runs over, and every block is stored once.
-/

namespace Neorv32Boot.Xmodem

open Neorv32Boot.Trans (Reachable Inevitable)

/-- A transfer over a line without faults, with the number of times that the sender's wait for a
reply and the receiver's wait for a frame may still run out.  The wait for the reply to `EOT` does
not run out, and a wait inside a frame does only when nothing more of it is on the way. -/
def Timed.step (data : List Byte) (x : Sys × ℕ) : Act → Option (Sys × ℕ)
  | .send [] => (x.1.step data (.send [])).map (·, x.2)
  | .read => (x.1.step data .read).map (·, x.2)
  | .recv [] => (x.1.step data (.recv [])).map (·, x.2)
  | .hostTimeout =>
    match x with
    | (_, 0) => none
    | (s, budget + 1) =>
      if s.tx = .eotReply then none else (s.step data .hostTimeout).map (·, budget)
  | .devTimeout [] =>
    match x with
    | (s, budget) =>
      if s.rx.wait = .cmd then
        match budget with
        | 0 => none
        | budget + 1 => (s.step data (.devTimeout [])).map (·, budget)
      else if s.toDev = [] then (s.step data (.devTimeout [])).map (·, budget) else none
  | _ => none

/-! ### The places of the transfer -/

section Places

variable (data : List Byte)

/-- The receiver waits for the block `k` that the sender is at.  On the way are `i` frames of the
block before, then all `sent` frames of this one, and `m` replies. -/
structure Fresh (k r i m sent : ℕ) (s : Sys) (budget : ℕ) : Prop where
  lt : k < numBlocks data
  first : k = 0 → i = 0
  holds : s.rx.Holds data k
  tx : (s.tx = .write k r ∧ sent = r) ∨ (s.tx = .reply k r ∧ sent = r + 1)
  line : ∃ p, Line p (List.replicate i (packet data (k - 1)) ++
    List.replicate sent (packet data k)).flatten s
  replies_eq : replies s.toHost = List.replicate m nak
  retries_le : s.rx.retries + i + budget ≤ 9
  surplus_le : i + m + r + budget ≤ 9

/-- The receiver has stored the block `k` that the sender is at.  On the way are `i` frames of it,
and its `ACK` between `m` and `m'` other replies.  `pend` is one when the sender is about to write
one more frame. -/
structure Stale (k r i m m' pend : ℕ) (s : Sys) (budget : ℕ) : Prop where
  lt : k < numBlocks data
  holds : s.rx.Holds data (k + 1)
  tx : (s.tx = .write k r ∧ pend = 1) ∨ (s.tx = .reply k r ∧ pend = 0)
  line : ∃ p, Line p (List.replicate i (packet data k)).flatten s
  replies_eq : replies s.toHost = List.replicate m nak ++ ack :: List.replicate m' nak
  sent_le : r ≤ i + m' + pend
  retries_le : s.rx.retries + i + pend + m + budget ≤ 9
  surplus_le : i + pend + m + m' + budget ≤ 9

/-- The sender has the `ACK` of the last block `k`.  On the way are `i` frames of it, then `EOT`
once it is written, and `m` replies. -/
structure Closing (k i m : ℕ) (tail : List Byte) (s : Sys) (budget : ℕ) : Prop where
  last : k + 1 = numBlocks data
  holds : s.rx.Holds data (k + 1)
  tx : (s.tx = .writeEot ∧ tail = []) ∨ (s.tx = .eotReply ∧ tail = [eot])
  line : ∃ p, Line p ((List.replicate i (packet data k)).flatten ++ tail) s
  replies_eq : replies s.toHost = List.replicate m nak
  retries_le : s.rx.retries + i + budget ≤ 9

/-- The receiver has returned, and its `ACK` of `EOT` is on the way behind `m` other replies. -/
structure Closed (m : ℕ) (s : Sys) : Prop where
  holds : s.rx.Holds data (numBlocks data)
  wait_eq : s.rx.wait = .ret s.rx.total
  tx_eq : s.tx = .eotReply
  toDev_eq : s.toDev = []
  replies_eq : replies s.toHost = List.replicate m nak ++ [ack]

/-- The transfer is at one of its places. -/
inductive Going : Sys → ℕ → Prop
  | fresh {k r i m n budget : ℕ} {s : Sys} (h : Fresh data k r i m n s budget) : Going s budget
  | stale {k r i m n d budget : ℕ} {s : Sys} (h : Stale data k r i m n d s budget) :
      Going s budget
  | closing {k i m budget : ℕ} {t : List Byte} {s : Sys}
      (h : Closing data k i m t s budget) : Going s budget
  | closed {m budget : ℕ} {s : Sys} (h : Closed data m s) : Going s budget
  | complete {budget : ℕ} {s : Sys} (h : Complete data s) : Going s budget

end Places

section Steps

variable {data : List Byte} {s s' : Sys} {budget : ℕ}

/-! ### The sender writes -/

lemma Fresh.send {k r i m sent : ℕ} (h : Fresh data k r i m sent s budget)
    (hs : s.step data (.send []) = some s') : Going data s' budget := by
  obtain ⟨out, tx, htx, rfl⟩ := step_send hs
  rcases h.tx with ⟨ht, rfl⟩ | ⟨ht, -⟩
  · rw [ht, Tx.send] at htx
    cases htx
    obtain ⟨p, hp⟩ := h.line
    refine .fresh (k := k) (r := sent) (i := i) (m := m) (n := sent + 1)
      ⟨h.lt, h.first, h.holds, Or.inr ⟨rfl, rfl⟩, ⟨p, ?_⟩, h.replies_eq, h.retries_le,
        h.surplus_le⟩
    rw [deliver_nil, List.replicate_succ', ← List.append_assoc, List.flatten_append,
      List.flatten_singleton]
    exact hp.send
  · rw [ht] at htx
    cases htx

lemma Stale.send {k r i m m' pend : ℕ} (h : Stale data k r i m m' pend s budget)
    (hs : s.step data (.send []) = some s') : Going data s' budget := by
  obtain ⟨out, tx, htx, rfl⟩ := step_send hs
  rcases h.tx with ⟨ht, rfl⟩ | ⟨ht, -⟩
  · rw [ht, Tx.send] at htx
    cases htx
    obtain ⟨p, hp⟩ := h.line
    have hsent := h.sent_le
    have hretries := h.retries_le
    have hsurplus := h.surplus_le
    refine .stale (k := k) (r := r) (i := i + 1) (m := m) (n := m') (d := 0)
      ⟨h.lt, h.holds, Or.inr ⟨rfl, rfl⟩, ⟨p, ?_⟩, h.replies_eq, by omega, by omega, by omega⟩
    rw [deliver_nil, List.replicate_succ', List.flatten_append, List.flatten_singleton]
    exact hp.send
  · rw [ht] at htx
    cases htx

lemma Closing.send {k i m : ℕ} {tail : List Byte} (h : Closing data k i m tail s budget)
    (hs : s.step data (.send []) = some s') : Going data s' budget := by
  obtain ⟨out, tx, htx, rfl⟩ := step_send hs
  rcases h.tx with ⟨ht, rfl⟩ | ⟨ht, -⟩
  · rw [ht, Tx.send] at htx
    cases htx
    obtain ⟨p, hp⟩ := h.line
    refine .closing (k := k) (i := i) (m := m) (t := [eot])
      ⟨h.last, h.holds, Or.inr ⟨rfl, rfl⟩, ⟨p, ?_⟩, h.replies_eq, h.retries_le⟩
    rw [List.append_nil] at hp
    rw [deliver_nil]
    exact hp.send
  · rw [ht] at htx
    cases htx

/-! ### The sender reads -/

/-- What the sender does not look at. -/
lemma read_other {k r : ℕ} {c : Byte} (hc : ¬ (c = ack ∨ c = nak)) :
    (Tx.reply k r).read data c = some (.reply k r) := by
  rw [Tx.read, if_neg (not_or.1 hc).1, if_neg (not_or.1 hc).2]

lemma Line.congr {p msgs : List Byte} (h : Line p msgs s) (hw : s'.rx.wait = s.rx.wait)
    (hd : s'.toDev = s.toDev) : Line p msgs s' :=
  ⟨hw.trans h.wait_eq, h.short, h.head, by rw [hd, h.flow]⟩

/-- A `NAK`, or the end of the wait, makes the sender go on to one more retry. -/
lemma Fresh.retry {k r i m sent budget' : ℕ} {toHost : List Byte}
    (h : Fresh data k r i m sent s budget) (ht : s.tx = .reply k r) (m' : ℕ)
    (hrep : replies toHost = List.replicate m' nak) (hb : budget' ≤ budget)
    (hlt : i + m' + (r + 1) + budget' ≤ 9) :
    Going data { s with tx := .retry k r, toHost := toHost } budget' := by
  obtain ⟨p, hp⟩ := h.line
  obtain rfl : sent = r + 1 := by
    rcases h.tx with ⟨ht', -⟩ | ⟨-, hs⟩
    · cases ht.symm.trans ht'
    · exact hs
  have hretries := h.retries_le
  refine .fresh (k := k) (r := r + 1) (i := i) (m := m') (n := r + 1)
    ⟨h.lt, h.first, h.holds, Or.inl ⟨?_, rfl⟩, ⟨p, hp.congr rfl rfl⟩, hrep,
      by simp only; omega, hlt⟩
  exact if_pos (by omega)

lemma Stale.retry {k r i m m' budget' : ℕ} {toHost : List Byte}
    (h : Stale data k r i m m' 0 s budget) (m₁ : ℕ)
    (hrep : replies toHost = List.replicate m₁ nak ++ ack :: List.replicate m' nak)
    (hle : m₁ + 1 + budget' ≤ m + budget) :
    Going data { s with tx := .retry k r, toHost := toHost } budget' := by
  obtain ⟨p, hp⟩ := h.line
  have hsent := h.sent_le
  have hretries := h.retries_le
  have hsurplus := h.surplus_le
  refine .stale (k := k) (r := r + 1) (i := i) (m := m₁) (n := m') (d := 1)
    ⟨h.lt, h.holds, Or.inl ⟨?_, rfl⟩, ⟨p, hp.congr rfl rfl⟩, hrep, by omega, by simp only; omega,
      by omega⟩
  exact if_pos (by omega)

/-- The sender goes on to the next block, or to the end. -/
lemma Stale.acked {k r i m' : ℕ} {toHost : List Byte}
    (h : Stale data k r i 0 m' 0 s budget) (hrep : replies toHost = List.replicate m' nak) :
    Going data { s with tx := .block data (k + 1), toHost := toHost } budget := by
  obtain ⟨p, hp⟩ := h.line
  have hlt := h.lt
  have hretries := h.retries_le
  have hsurplus := h.surplus_le
  by_cases hnext : k + 1 < numBlocks data
  · refine .fresh (k := k + 1) (r := 0) (i := i) (m := m') (n := 0)
      ⟨hnext, nofun, h.holds, Or.inl ⟨if_pos hnext, rfl⟩, ⟨p, ?_⟩, hrep, by simp only; omega,
        by omega⟩
    rw [List.replicate_zero, List.append_nil, Nat.add_sub_cancel]
    exact hp.congr rfl rfl
  · refine .closing (k := k) (i := i) (m := m') (t := [])
      ⟨by omega, h.holds, Or.inl ⟨if_neg hnext, rfl⟩, ⟨p, ?_⟩, hrep, by simp only; omega⟩
    rw [List.append_nil]
    exact hp.congr rfl rfl

lemma Fresh.read {k r i m sent : ℕ} (h : Fresh data k r i m sent s budget)
    (hs : s.step data .read = some s') : Going data s' budget := by
  obtain ⟨c, rest, tx, hto, htx, rfl⟩ := step_read hs
  have hrep := h.replies_eq
  rw [hto, replies_cons] at hrep
  have ht : s.tx = .reply k r := by
    rcases h.tx with ⟨ht, -⟩ | ⟨ht, -⟩
    · rw [ht] at htx
      cases htx
    · exact ht
  rw [ht] at htx
  split_ifs at hrep with hc
  · obtain ⟨m', rfl⟩ : ∃ m', m = m' + 1 := ⟨m - 1, by cases m <;> simp_all⟩
    rw [List.replicate_succ] at hrep
    obtain ⟨rfl, hrest⟩ := List.cons.inj hrep
    rw [Tx.read, if_neg nak_ne_ack, if_pos rfl] at htx
    cases htx
    have hsurplus := h.surplus_le
    exact h.retry ht m' hrest le_rfl (by omega)
  · rw [read_other hc] at htx
    cases htx
    obtain ⟨p, hp⟩ := h.line
    exact .fresh ⟨h.lt, h.first, h.holds, by simpa [ht] using h.tx, ⟨p, hp.congr rfl rfl⟩, hrep,
      h.retries_le, h.surplus_le⟩

lemma Stale.read {k r i m m' pend : ℕ} (h : Stale data k r i m m' pend s budget)
    (hs : s.step data .read = some s') : Going data s' budget := by
  obtain ⟨c, rest, tx, hto, htx, rfl⟩ := step_read hs
  have hrep := h.replies_eq
  rw [hto, replies_cons] at hrep
  obtain ⟨ht, rfl⟩ : s.tx = .reply k r ∧ pend = 0 := by
    rcases h.tx with ⟨ht, -⟩ | ht
    · rw [ht] at htx
      cases htx
    · exact ht
  rw [ht] at htx
  split_ifs at hrep with hc
  · cases m with
    | zero =>
      obtain ⟨rfl, hrest⟩ := List.cons.inj hrep
      rw [Tx.read, if_pos rfl] at htx
      cases htx
      exact h.acked hrest
    | succ m =>
      rw [List.replicate_succ] at hrep
      obtain ⟨rfl, hrest⟩ := List.cons.inj hrep
      rw [Tx.read, if_neg nak_ne_ack, if_pos rfl] at htx
      cases htx
      exact h.retry m hrest (by omega)
  · rw [read_other hc] at htx
    cases htx
    obtain ⟨p, hp⟩ := h.line
    exact .stale ⟨h.lt, h.holds, Or.inr ⟨rfl, rfl⟩, ⟨p, hp.congr rfl rfl⟩, hrep, h.sent_le,
      h.retries_le, h.surplus_le⟩

lemma Closing.read {k i m : ℕ} {tail : List Byte} (h : Closing data k i m tail s budget)
    (hs : s.step data .read = some s') : Going data s' budget := by
  obtain ⟨c, rest, tx, hto, htx, rfl⟩ := step_read hs
  have hrep := h.replies_eq
  rw [hto, replies_cons] at hrep
  obtain ⟨ht, rfl⟩ : s.tx = .eotReply ∧ tail = [eot] := by
    rcases h.tx with ⟨ht, -⟩ | ht
    · rw [ht] at htx
      cases htx
    · exact ht
  have hne : c ≠ ack := by
    rintro rfl
    rw [if_pos (Or.inl rfl)] at hrep
    exact nak_ne_ack (List.eq_of_mem_replicate (hrep ▸ List.mem_cons_self)).symm
  rw [ht, Tx.read, if_neg hne] at htx
  cases htx
  obtain ⟨p, hp⟩ := h.line
  have hrest : ∃ m', replies rest = List.replicate m' nak := by
    split_ifs at hrep with hc
    · exact ⟨m - 1, by rw [← List.tail_replicate, ← hrep, List.tail_cons]⟩
    · exact ⟨m, hrep⟩
  obtain ⟨m', hm'⟩ := hrest
  exact .closing ⟨h.last, h.holds, Or.inr ⟨rfl, rfl⟩, ⟨p, hp.congr rfl rfl⟩, hm', h.retries_le⟩

lemma Closed.read {m : ℕ} (hdata : data.length % 128 = 0) (h : Closed data m s)
    (hs : s.step data .read = some s') : Going data s' budget := by
  obtain ⟨c, rest, tx, hto, htx, rfl⟩ := step_read hs
  have hrep := h.replies_eq
  rw [hto, replies_cons] at hrep
  rw [h.tx_eq, Tx.read] at htx
  split_ifs at htx with hc
  · cases htx
    refine .complete ⟨rfl, ?_, h.holds.stores_eq, h.holds.dest_eq hdata⟩
    rw [← length_eq hdata, ← h.holds.total_eq]
    exact h.wait_eq
  · cases htx
    have hrest : ∃ m', replies rest = List.replicate m' nak ++ [ack] := by
      split_ifs at hrep with hc'
      · cases m with
        | zero => exact absurd (List.cons.inj hrep).1 hc
        | succ m =>
          rw [List.replicate_succ, List.cons_append] at hrep
          exact ⟨m, (List.cons.inj hrep).2⟩
      · exact ⟨m, hrep⟩
    obtain ⟨m', hm'⟩ := hrest
    exact .closed ⟨h.holds, h.wait_eq, rfl, h.toDev_eq, hm'⟩

/-! ### The sender's wait runs out -/

lemma Fresh.hostTimeout {k r i m sent : ℕ} (h : Fresh data k r i m sent s (budget + 1))
    (hs : s.step data .hostTimeout = some s') : Going data s' budget := by
  obtain ⟨tx, htx, rfl⟩ := step_hostTimeout hs
  have hsurplus := h.surplus_le
  rcases h.tx with ⟨ht, -⟩ | ⟨ht, -⟩
  · rw [ht] at htx
    cases htx
  · rw [ht, Tx.timeout] at htx
    cases htx
    exact h.retry ht m h.replies_eq (Nat.le_succ _) (by omega)

lemma Stale.hostTimeout {k r i m m' pend : ℕ} (h : Stale data k r i m m' pend s (budget + 1))
    (hs : s.step data .hostTimeout = some s') : Going data s' budget := by
  obtain ⟨tx, htx, rfl⟩ := step_hostTimeout hs
  rcases h.tx with ⟨ht, -⟩ | ⟨ht, rfl⟩
  · rw [ht] at htx
    cases htx
  · rw [ht, Tx.timeout] at htx
    cases htx
    exact h.retry m h.replies_eq (by omega)

/-! ### The receiver takes a byte -/

/-- A frame that the receiver has stored already is rejected. -/
lemma Line.recv_old {p tail rest out : List Byte} {j : ℕ} {c : Byte} {rx : Rx}
    (hj : j < numBlocks data) (h : Line p (packet data j ++ tail) s) (hrx : s.rx.Holds data (j + 1))
    (hto : s.toDev = c :: rest) (hr : s.rx.recv (some c) = some (out, rx)) :
    rx.Holds data (j + 1) ∧ ((out = [] ∧ rx.retries = s.rx.retries ∧ ∃ p', ∀ toHost,
        Line p' (packet data j ++ tail) { s with rx := rx, toDev := rest, toHost := toHost }) ∨
      (out = [nak] ∧ rx.retries = s.rx.retries + 1 ∧ ∀ toHost,
        Line [] tail { s with rx := rx, toDev := rest, toHost := toHost })) := by
  rw [packet_eq] at h ⊢
  rcases h.recv (length_block hj) hto with ⟨hr', hline⟩ | ⟨rfl, hr'⟩
  · rw [hr] at hr'
    cases hr'
    exact ⟨hrx.congr rfl rfl rfl rfl, Or.inl ⟨rfl, rfl, _, hline⟩⟩
  · rw [if_neg (by rw [hrx.blkNum_eq]; exact blkNum_ne j), hr] at hr'
    cases hr'
    exact ⟨hrx.congr rfl rfl rfl rfl, Or.inr ⟨rfl, rfl, fun _ => .start rfl rfl⟩⟩

/-- A frame of the block that the receiver waits for is stored. -/
lemma Line.recv_new {p tail rest out : List Byte} {j : ℕ} {c : Byte} {rx : Rx}
    (hj : j < numBlocks data) (hlen : data.length < 2 ^ 32) (h : Line p (packet data j ++ tail) s)
    (hrx : s.rx.Holds data j)
    (hto : s.toDev = c :: rest) (hr : s.rx.recv (some c) = some (out, rx)) :
    (rx.Holds data j ∧ out = [] ∧ rx.retries = s.rx.retries ∧ ∃ p', ∀ toHost,
        Line p' (packet data j ++ tail) { s with rx := rx, toDev := rest, toHost := toHost }) ∨
      (rx.Holds data (j + 1) ∧ out = [ack] ∧ rx.retries = 0 ∧ ∀ toHost,
        Line [] tail { s with rx := rx, toDev := rest, toHost := toHost }) := by
  rw [packet_eq] at h ⊢
  rcases h.recv (length_block hj) hto with ⟨hr', hline⟩ | ⟨rfl, hr'⟩
  · rw [hr] at hr'
    cases hr'
    exact Or.inl ⟨hrx.congr rfl rfl rfl rfl, rfl, rfl, _, hline⟩
  · rw [if_pos hrx.blkNum_eq.symm, hr] at hr'
    cases hr'
    exact Or.inr ⟨hrx.accept hj hlen, rfl, rfl, fun _ => .start rfl rfl⟩

lemma replies_snoc_nak {bs : List Byte} {m : ℕ} (h : replies bs = List.replicate m nak) :
    replies (bs ++ [nak]) = List.replicate (m + 1) nak := by
  rw [replies_append, h, replies_nak, List.replicate_succ']

lemma Fresh.recv {k r i m sent : ℕ} (hlen : data.length < 2 ^ 32)
    (h : Fresh data k r i m sent s budget) (hs : s.step data (.recv []) = some s') :
    Going data s' budget := by
  obtain ⟨c, rest, out, rx, hto, hrx, rfl⟩ := step_recv hs
  rw [deliver_nil]
  obtain ⟨p, hp⟩ := h.line
  have hlt := h.lt
  have hretries := h.retries_le
  have hsurplus := h.surplus_le
  cases i with
  | succ i =>
    -- a frame of the block before
    have hk : k - 1 + 1 = k := by
      have := mt h.first (by omega)
      omega
    rw [List.replicate_succ, List.cons_append, List.flatten_cons] at hp
    obtain ⟨hholds, ⟨rfl, hret, p', hline⟩ | ⟨rfl, hret, hline⟩⟩ :=
      hp.recv_old (by omega) (hk.symm ▸ h.holds) hto hrx
    · refine .fresh (k := k) (r := r) (i := i + 1) (m := m) (n := sent)
        ⟨hlt, h.first, hk ▸ hholds, h.tx, ⟨p', ?_⟩, ?_, ?_, hsurplus⟩
      · rw [List.replicate_succ, List.cons_append, List.flatten_cons]
        exact hline _
      · rw [List.append_nil]
        exact h.replies_eq
      · rw [hret]
        exact hretries
    · refine .fresh (k := k) (r := r) (i := i) (m := m + 1) (n := sent)
        ⟨hlt, fun h0 => absurd (h.first h0) (by omega), hk ▸ hholds, h.tx, ⟨[], hline _⟩,
          replies_snoc_nak h.replies_eq, ?_, by omega⟩
      rw [hret]
      omega
  | zero =>
    -- the first frame of the block
    rw [List.replicate_zero, List.nil_append] at hp
    cases sent with
    | zero =>
      have hflow := hp.flow
      rw [hto] at hflow
      exact absurd hflow (by simp)
    | succ sent =>
      rw [List.replicate_succ, List.flatten_cons] at hp
      rcases hp.recv_new hlt hlen h.holds hto hrx with
        ⟨hholds, rfl, hret, p', hline⟩ | ⟨hholds, rfl, hret, hline⟩
      · refine .fresh (k := k) (r := r) (i := 0) (m := m) (n := sent + 1)
          ⟨hlt, h.first, hholds, h.tx, ⟨p', ?_⟩, ?_, ?_, hsurplus⟩
        · rw [List.replicate_zero, List.nil_append, List.replicate_succ, List.flatten_cons]
          exact hline _
        · rw [List.append_nil]
          exact h.replies_eq
        · rw [hret]
          exact hretries
      · have hrep : replies (s.toHost ++ [ack]) =
            List.replicate m nak ++ ack :: List.replicate 0 nak := by
          rw [replies_append, h.replies_eq, replies_ack, List.replicate_zero]
        rcases h.tx with ⟨ht, rfl⟩ | ⟨ht, hsent⟩
        · refine .stale (k := k) (i := sent) (m := m) (n := 0) (d := 1)
            ⟨hlt, hholds, Or.inl ⟨ht, rfl⟩, ⟨[], hline _⟩, hrep, by omega, ?_, by omega⟩
          rw [hret]
          omega
        · obtain rfl : sent = r := by omega
          refine .stale (k := k) (i := sent) (m := m) (n := 0) (d := 0)
            ⟨hlt, hholds, Or.inr ⟨ht, rfl⟩, ⟨[], hline _⟩, hrep, by omega, ?_, by omega⟩
          rw [hret]
          omega

lemma Stale.recv {k r i m m' pend : ℕ} (h : Stale data k r i m m' pend s budget)
    (hs : s.step data (.recv []) = some s') : Going data s' budget := by
  obtain ⟨c, rest, out, rx, hto, hrx, rfl⟩ := step_recv hs
  rw [deliver_nil]
  obtain ⟨p, hp⟩ := h.line
  have hsent := h.sent_le
  have hretries := h.retries_le
  have hsurplus := h.surplus_le
  cases i with
  | zero =>
    have hflow := hp.flow
    rw [hto] at hflow
    exact absurd hflow (by simp)
  | succ i =>
    rw [List.replicate_succ, List.flatten_cons] at hp
    obtain ⟨hholds, ⟨rfl, hret, p', hline⟩ | ⟨rfl, hret, hline⟩⟩ :=
      hp.recv_old h.lt h.holds hto hrx
    · refine .stale (k := k) (r := r) (i := i + 1) (m := m) (n := m') (d := pend)
        ⟨h.lt, hholds, h.tx, ⟨p', ?_⟩, ?_, hsent, ?_, hsurplus⟩
      · rw [List.replicate_succ, List.flatten_cons]
        exact hline _
      · rw [List.append_nil]
        exact h.replies_eq
      · rw [hret]
        exact hretries
    · refine .stale (k := k) (r := r) (i := i) (m := m) (n := m' + 1) (d := pend)
        ⟨h.lt, hholds, h.tx, ⟨[], hline _⟩, ?_, by omega, ?_, by omega⟩
      · rw [replies_append, h.replies_eq, replies_nak, List.replicate_succ', List.append_assoc,
          List.cons_append]
      · rw [hret]
        omega

lemma Closing.recv {k i m : ℕ} {tail : List Byte} (h : Closing data k i m tail s budget)
    (hs : s.step data (.recv []) = some s') : Going data s' budget := by
  obtain ⟨c, rest, out, rx, hto, hrx, rfl⟩ := step_recv hs
  rw [deliver_nil]
  obtain ⟨p, hp⟩ := h.line
  have hlast := h.last
  have hretries := h.retries_le
  cases i with
  | succ i =>
    rw [List.replicate_succ, List.flatten_cons, List.append_assoc] at hp
    obtain ⟨hholds, ⟨rfl, hret, p', hline⟩ | ⟨rfl, hret, hline⟩⟩ :=
      hp.recv_old (by omega) h.holds hto hrx
    · refine .closing (k := k) (i := i + 1) (m := m) (t := tail)
        ⟨hlast, hholds, h.tx, ⟨p', ?_⟩, ?_, ?_⟩
      · rw [List.replicate_succ, List.flatten_cons, List.append_assoc]
        exact hline _
      · rw [List.append_nil]
        exact h.replies_eq
      · rw [hret]
        exact hretries
    · refine .closing (k := k) (i := i) (m := m + 1) (t := tail)
        ⟨hlast, hholds, h.tx, ⟨[], hline _⟩, replies_snoc_nak h.replies_eq, ?_⟩
      rw [hret]
      omega
  | zero =>
    -- the `EOT`
    have hflow := hp.flow
    rw [hto, List.replicate_zero, List.flatten_nil, List.nil_append] at hflow
    rcases h.tx with ⟨-, rfl⟩ | ⟨ht, rfl⟩
    · exact absurd hflow (by simp)
    · have hp0 : p = [] := by
        refine hp.head.resolve_right fun hhead => ?_
        have := congrArg List.head? hflow
        rw [List.head?_append, hhead] at this
        exact soh_ne_eot (Option.some.inj this)
      subst hp0
      obtain ⟨rfl, rfl⟩ := List.cons.inj hflow
      rw [Rx.recv_eot (hp.wait_cmd.2 rfl)] at hrx
      cases hrx
      refine .closed (m := m) ⟨?_, rfl, ht, rfl, ?_⟩
      · rw [← hlast]
        exact h.holds.congr rfl rfl rfl rfl
      · rw [replies_append, h.replies_eq, replies_ack]

lemma Closed.recv {m : ℕ} (h : Closed data m s) (hs : s.step data (.recv []) = some s') :
    False := by
  obtain ⟨c, rest, out, rx, hto, -⟩ := step_recv hs
  cases h.toDev_eq.symm.trans hto

/-! ### The timer of the receiver runs out -/

lemma Fresh.devTimeout {k r i m sent : ℕ} (h : Fresh data k r i m sent s (budget + 1))
    (hw : s.rx.wait = .cmd) (hs : s.step data (.devTimeout []) = some s') :
    Going data s' budget := by
  obtain ⟨out, rx, hrx, rfl⟩ := step_devTimeout hs
  obtain ⟨p, hp⟩ := h.line
  have hretries := h.retries_le
  have hsurplus := h.surplus_le
  rw [Rx.timeout_cmd hw (show s.rx.retries < 20 by omega)] at hrx
  cases hrx
  refine .fresh (k := k) (r := r) (i := i) (m := m + 1) (n := sent)
    ⟨h.lt, h.first, h.holds.congr rfl rfl rfl rfl, h.tx, ⟨p, hp.congr rfl rfl⟩, ?_,
      by simp only; omega, by omega⟩
  rw [deliver_nil, replies_append, h.replies_eq, replies_waiting, List.replicate_succ']

lemma Stale.devTimeout {k r i m m' pend : ℕ} (h : Stale data k r i m m' pend s (budget + 1))
    (hw : s.rx.wait = .cmd) (hs : s.step data (.devTimeout []) = some s') :
    Going data s' budget := by
  obtain ⟨out, rx, hrx, rfl⟩ := step_devTimeout hs
  obtain ⟨p, hp⟩ := h.line
  have hsent := h.sent_le
  have hretries := h.retries_le
  have hsurplus := h.surplus_le
  rw [Rx.timeout_cmd hw (show s.rx.retries < 20 by omega)] at hrx
  cases hrx
  refine .stale (k := k) (r := r) (i := i) (m := m) (n := m' + 1) (d := pend)
    ⟨h.lt, h.holds.congr rfl rfl rfl rfl, h.tx, ⟨p, hp.congr rfl rfl⟩, ?_, by omega,
      by simp only; omega, by omega⟩
  rw [deliver_nil, replies_append, h.replies_eq, replies_waiting, List.replicate_succ',
    List.append_assoc, List.cons_append]

lemma Closing.devTimeout {k i m : ℕ} {tail : List Byte} (h : Closing data k i m tail s (budget + 1))
    (hw : s.rx.wait = .cmd) (hs : s.step data (.devTimeout []) = some s') :
    Going data s' budget := by
  obtain ⟨out, rx, hrx, rfl⟩ := step_devTimeout hs
  obtain ⟨p, hp⟩ := h.line
  have hretries := h.retries_le
  rw [Rx.timeout_cmd hw (show s.rx.retries < 20 by omega)] at hrx
  cases hrx
  refine .closing (k := k) (i := i) (m := m + 1) (t := tail)
    ⟨h.last, h.holds.congr rfl rfl rfl rfl, h.tx, ⟨p, hp.congr rfl rfl⟩, ?_, by simp only; omega⟩
  rw [deliver_nil, replies_append, h.replies_eq, replies_waiting, List.replicate_succ']

/-! ### No timer runs out inside a frame -/

lemma length_replicate_packet {i k : ℕ} (hk : k < numBlocks data) {f : List Byte}
    (hf : f ∈ List.replicate i (packet data k)) : f.length = 132 := by
  rw [List.eq_of_mem_replicate hf]
  exact length_packet hk

/-- Nothing is on the way to the receiver, so that it has taken all frames. -/
lemma Fresh.starved {k r i m sent : ℕ} (h : Fresh data k r i m sent s budget)
    (hnil : s.toDev = []) : s.rx.wait = .cmd ∧ sent = 0 := by
  obtain ⟨p, hp⟩ := h.line
  have hlt := h.lt
  have hlen : ∀ f ∈ List.replicate i (packet data (k - 1)) ++ List.replicate sent (packet data k),
      f.length = 132 := by
    intro f hf
    rcases List.mem_append.1 hf with hf | hf
    · exact length_replicate_packet (by omega) hf
    · exact length_replicate_packet hlt hf
  have hp' := hp
  rw [← List.append_nil (List.flatten _)] at hp'
  obtain ⟨rfl, hfs, -⟩ := hp'.starved hlen (Or.inl rfl) hnil
  refine ⟨hp.wait_cmd.2 rfl, ?_⟩
  simpa using (List.append_eq_nil_iff.1 hfs).2

lemma Stale.starved {k r i m m' pend : ℕ} (h : Stale data k r i m m' pend s budget)
    (hnil : s.toDev = []) : s.rx.wait = .cmd := by
  obtain ⟨p, hp⟩ := h.line
  have hp' := hp
  rw [← List.append_nil (List.flatten _)] at hp'
  obtain ⟨rfl, -⟩ := hp'.starved (fun f hf => length_replicate_packet h.lt hf) (Or.inl rfl) hnil
  exact hp.wait_cmd.2 rfl

lemma Closing.starved {k i m : ℕ} {tail : List Byte} (h : Closing data k i m tail s budget)
    (hnil : s.toDev = []) : s.rx.wait = .cmd ∧ tail = [] := by
  obtain ⟨p, hp⟩ := h.line
  have hlast := h.last
  have htail : tail = [] ∨ tail = [eot] := h.tx.imp And.right And.right
  obtain ⟨rfl, -, ht⟩ := hp.starved (fun f hf => length_replicate_packet (by omega) hf) htail hnil
  exact ⟨hp.wait_cmd.2 rfl, ht⟩

/-! ### All steps -/

/-- What a step of the schedule is. -/
lemma Timed.step_cases {x x' : Sys × ℕ} {a : Act} (h : Timed.step data x a = some x') :
    ((a = .send [] ∨ a = .read ∨ a = .recv []) ∧ x.1.step data a = some x'.1 ∧ x'.2 = x.2) ∨
      (a = .hostTimeout ∧ x.1.tx ≠ .eotReply ∧ x.1.step data a = some x'.1 ∧ x.2 = x'.2 + 1) ∨
      (a = .devTimeout [] ∧ x.1.step data a = some x'.1 ∧
        ((x.1.rx.wait = .cmd ∧ x.2 = x'.2 + 1) ∨
          (x.1.rx.wait ≠ .cmd ∧ x.1.toDev = [] ∧ x'.2 = x.2))) := by
  obtain ⟨s, budget⟩ := x
  cases a with
  | send fs =>
    cases fs with
    | nil =>
      obtain ⟨s', hs, rfl⟩ := Option.map_eq_some_iff.1 h
      exact Or.inl ⟨Or.inl rfl, hs, rfl⟩
    | cons f fs => cases h
  | read =>
    obtain ⟨s', hs, rfl⟩ := Option.map_eq_some_iff.1 h
    exact Or.inl ⟨Or.inr (Or.inl rfl), hs, rfl⟩
  | recv fs =>
    cases fs with
    | nil =>
      obtain ⟨s', hs, rfl⟩ := Option.map_eq_some_iff.1 h
      exact Or.inl ⟨Or.inr (Or.inr rfl), hs, rfl⟩
    | cons f fs => cases h
  | hostTimeout =>
    cases budget with
    | zero => cases h
    | succ budget =>
      simp only [Timed.step] at h
      split_ifs at h with ht
      obtain ⟨s', hs, rfl⟩ := Option.map_eq_some_iff.1 h
      exact Or.inr (Or.inl ⟨rfl, ht, hs, rfl⟩)
  | devTimeout fs =>
    cases fs with
    | nil =>
      simp only [Timed.step] at h
      split_ifs at h with hw hd
      · cases budget with
        | zero => cases h
        | succ budget =>
          obtain ⟨s', hs, rfl⟩ := Option.map_eq_some_iff.1 h
          exact Or.inr (Or.inr ⟨rfl, hs, Or.inl ⟨hw, rfl⟩⟩)
      · obtain ⟨s', hs, rfl⟩ := Option.map_eq_some_iff.1 h
        exact Or.inr (Or.inr ⟨rfl, hs, Or.inr ⟨hw, hd, rfl⟩⟩)
    | cons f fs => cases h

/-- A step of the schedule leads from place to place. -/
lemma Going.step (hdata : data.length % 128 = 0) (hlen : data.length < 2 ^ 32)
    {x x' : Sys × ℕ} {a : Act} (h : Going data x.1 x.2) (hcomp : ¬ Complete data x.1)
    (hs : Timed.step data x a = some x') : Going data x'.1 x'.2 := by
  obtain ⟨s, budget⟩ := x
  obtain ⟨s', budget'⟩ := x'
  rcases Timed.step_cases hs with ⟨ha, hs, rfl⟩ | ⟨rfl, hne, hs, hb⟩ | ⟨rfl, hs, hb⟩
  · cases h with
    | fresh h =>
      rcases ha with rfl | rfl | rfl
      · exact h.send hs
      · exact h.read hs
      · exact h.recv hlen hs
    | stale h =>
      rcases ha with rfl | rfl | rfl
      · exact h.send hs
      · exact h.read hs
      · exact h.recv hs
    | closing h =>
      rcases ha with rfl | rfl | rfl
      · exact h.send hs
      · exact h.read hs
      · exact h.recv hs
    | closed h =>
      rcases ha with rfl | rfl | rfl
      · obtain ⟨out, tx, htx, -⟩ := step_send hs
        exact nomatch (h.tx_eq ▸ htx)
      · exact h.read hdata hs
      · exact (h.recv hs).elim
    | complete h => exact absurd h hcomp
  · obtain rfl : budget = budget' + 1 := hb
    cases h with
    | fresh h => exact h.hostTimeout hs
    | stale h => exact h.hostTimeout hs
    | closing h =>
      obtain ⟨tx, htx, -⟩ := step_hostTimeout hs
      rcases h.tx with ⟨ht, -⟩ | ⟨ht, -⟩
      · rw [ht] at htx
        cases htx
      · exact absurd ht hne
    | closed h => exact absurd h.tx_eq hne
    | complete h => exact absurd h hcomp
  · rcases hb with ⟨hw, hb⟩ | ⟨hw, hd, -⟩
    · obtain rfl : budget = budget' + 1 := hb
      cases h with
      | fresh h => exact h.devTimeout hw hs
      | stale h => exact h.devTimeout hw hs
      | closing h => exact h.devTimeout hw hs
      | closed h => cases h.wait_eq.symm.trans hw
      | complete h => exact absurd h hcomp
    · cases h with
      | fresh h => exact absurd (h.starved hd).1 hw
      | stale h => exact absurd (h.starved hd) hw
      | closing h => exact absurd (h.starved hd).1 hw
      | closed h =>
        obtain ⟨out, rx, hrx, -⟩ := step_devTimeout hs
        cases (Rx.recv_returned h.wait_eq none).symm.trans hrx
      | complete h => exact absurd h hcomp

/-! ### Progress -/

lemma Timed.can {a : Act} (ha : a = .send [] ∨ a = .read ∨ a = .recv [])
    (h : ∃ s', s.step data a = some s') : ∃ a x', Timed.step data (s, budget) a = some x' := by
  obtain ⟨s', hs⟩ := h
  refine ⟨a, (s', budget), ?_⟩
  rcases ha with rfl | rfl | rfl <;> simp only [Timed.step, hs, Option.map_some]

/-- Something can happen, as long as the transfer is not complete. -/
lemma Going.can_step (h : Going data s budget) :
    Complete data s ∨ ∃ a x', Timed.step data (s, budget) a = some x' := by
  cases h with
  | fresh h =>
    refine Or.inr ?_
    rcases h.tx with ⟨ht, -⟩ | ⟨-, hsent⟩
    · exact Timed.can (Or.inl rfl) (send_enabled (by rw [ht]; rfl) [])
    · obtain ⟨p, hp⟩ := h.line
      refine Timed.can (Or.inr (Or.inr rfl)) (recv_enabled (fun hnil => ?_) hp.not_returned [])
      have := (h.starved hnil).2
      omega
  | stale h =>
    refine Or.inr ?_
    rcases h.tx with ⟨ht, -⟩ | ⟨ht, -⟩
    · exact Timed.can (Or.inl rfl) (send_enabled (by rw [ht]; rfl) [])
    · refine Timed.can (Or.inr (Or.inl rfl)) (read_enabled (fun hnil => ?_) (ht ▸ reply_read _ _))
      have hrep := h.replies_eq
      rw [hnil, replies_nil] at hrep
      simp at hrep
  | closing h =>
    refine Or.inr ?_
    rcases h.tx with ⟨ht, -⟩ | ⟨-, htail⟩
    · exact Timed.can (Or.inl rfl) (send_enabled (by rw [ht]; rfl) [])
    · obtain ⟨p, hp⟩ := h.line
      refine Timed.can (Or.inr (Or.inr rfl)) (recv_enabled (fun hnil => ?_) hp.not_returned [])
      cases htail.symm.trans (h.starved hnil).2
  | closed h =>
    refine Or.inr (Timed.can (Or.inr (Or.inl rfl)) (read_enabled (fun hnil => ?_)
      (h.tx_eq ▸ eotReply_read)))
    have hrep := h.replies_eq
    rw [hnil, replies_nil] at hrep
    simp at hrep
  | complete h => exact Or.inl h

/-! ### The transfer ends -/

/-- A number that falls with every step of the sender. -/
def Tx.rank (data : List Byte) : Tx → ℕ
  | .write k r => 32 * (numBlocks data - k) + 2 * (10 - r) + 1
  | .reply k r => 32 * (numBlocks data - k) + 2 * (10 - r)
  | .writeEot => 2
  | .eotReply => 1
  | .complete | .noAck | .failed _ => 0

/-- A number that falls with every byte that is taken. -/
def Sys.size (s : Sys) : ℕ := 64 * s.toDev.length + s.toHost.length

lemma rank_send {out : List Byte} {tx tx' : Tx} (h : tx.send data = some (out, tx')) :
    tx'.rank data < tx.rank data := by
  cases tx with
  | write | writeEot =>
    cases h
    simp [Tx.rank]
  | reply | eotReply | complete | noAck | failed => cases h

lemma rank_retry {k r : ℕ} (hk : k < numBlocks data) :
    (Tx.retry k r).rank data < (Tx.reply k r).rank data := by
  rw [Tx.retry]
  split_ifs <;> simp only [Tx.rank] <;> omega

lemma rank_block {k r : ℕ} (hk : k < numBlocks data) :
    (Tx.block data (k + 1)).rank data < (Tx.reply k r).rank data := by
  rw [Tx.block]
  split_ifs <;> simp only [Tx.rank] <;> omega

lemma rank_read {c : Byte} {tx tx' : Tx} (h : tx.read data c = some tx')
    (hk : ∀ k r, tx = .reply k r → k < numBlocks data) :
    tx' = tx ∨ tx'.rank data < tx.rank data := by
  cases tx with
  | reply k r =>
    rw [Tx.read] at h
    split_ifs at h <;> cases h
    · exact Or.inr (rank_block (hk k r rfl))
    · exact Or.inr (rank_retry (hk k r rfl))
    · exact Or.inl rfl
  | eotReply =>
    rw [Tx.read] at h
    split_ifs at h <;> cases h
    · exact Or.inr (by simp [Tx.rank])
    · exact Or.inl rfl
  | write | writeEot | complete | noAck | failed => cases h

lemma rank_timeout {tx tx' : Tx} (h : tx.timeout = some tx')
    (hk : ∀ k r, tx = .reply k r → k < numBlocks data) : tx'.rank data < tx.rank data := by
  cases tx with
  | reply k r =>
    cases h
    exact rank_retry (hk k r rfl)
  | eotReply =>
    cases h
    simp [Tx.rank]
  | write | writeEot | complete | noAck | failed => cases h

/-- What the receiver prints at once is short. -/
lemma Rx.length_recv {rx rx' : Rx} {c : Option Byte} {out : List Byte}
    (h : rx.recv c = some (out, rx')) : out.length < 64 := by
  unfold Rx.recv at h
  split at h <;> (try split_ifs at h) <;> cases h <;> decide

/-- The block that the sender is at is one of the payload. -/
lemma Going.lt (h : Going data s budget) {k r : ℕ} (ht : s.tx = .reply k r) :
    k < numBlocks data := by
  cases h with
  | fresh h | stale h =>
    rcases h.tx with ⟨ht', -⟩ | ⟨ht', -⟩
    · cases ht.symm.trans ht'
    · cases ht.symm.trans ht'
      exact h.lt
  | closing h => rcases h.tx with ⟨ht', -⟩ | ⟨ht', -⟩ <;> cases ht.symm.trans ht'
  | closed h => cases ht.symm.trans h.tx_eq
  | complete h => cases ht.symm.trans h.tx_eq

/-- Every step lowers the rank of the sender, or the number of times that a wait may still run
out, or it takes a byte off the way. -/
lemma Going.rank_lt {s' : Sys} {budget' : ℕ} {a : Act} (h : Going data s budget)
    (hs : Timed.step data (s, budget) a = some (s', budget')) (hcomp : ¬ Complete data s) :
    Prod.Lex (· < ·) (Prod.Lex (· < ·) (· < ·)) (s'.tx.rank data, budget', s'.size)
      (s.tx.rank data, budget, s.size) := by
  rcases Timed.step_cases hs with ⟨rfl | rfl | rfl, hs, hb⟩ | ⟨rfl, -, hs, -⟩ | ⟨rfl, hs, hb⟩
  · obtain ⟨out, tx, htx, rfl⟩ := step_send hs
    exact .left _ _ (rank_send htx)
  · obtain ⟨c, rest, tx, hto, htx, rfl⟩ := step_read hs
    obtain rfl : budget' = budget := hb
    rcases rank_read htx (fun k r ht => h.lt ht) with htx | htx
    · subst htx
      refine .right _ (.right _ ?_)
      have hto' : s.toHost = c :: rest := hto
      simp only [Sys.size, hto', List.length_cons]
      omega
    · exact .left _ _ htx
  · obtain ⟨c, rest, out, rx, hto, hrx, rfl⟩ := step_recv hs
    obtain rfl : budget' = budget := hb
    have hout := Rx.length_recv hrx
    have hto' : s.toDev = c :: rest := hto
    refine .right _ (.right _ ?_)
    simp only [Sys.size, hto', deliver_nil, List.length_append, List.length_cons]
    omega
  · obtain ⟨tx, htx, rfl⟩ := step_hostTimeout hs
    exact .left _ _ (rank_timeout htx fun k r ht => h.lt ht)
  · obtain ⟨out, rx, hrx, rfl⟩ := step_devTimeout hs
    rcases hb with ⟨-, hb⟩ | ⟨hw, hd, -⟩
    · obtain rfl : budget = budget' + 1 := hb
      exact .right _ (.left _ _ (Nat.lt_succ_self _))
    · cases h with
      | fresh h => exact absurd (h.starved hd).1 hw
      | stale h => exact absurd (h.starved hd) hw
      | closing h => exact absurd (h.starved hd).1 hw
      | closed h => cases (Rx.recv_returned h.wait_eq none).symm.trans hrx
      | complete h => exact absurd h hcomp

/-- From every place, the transfer completes. -/
lemma Going.inevitable (hdata : data.length % 128 = 0) (hlen : data.length < 2 ^ 32)
    (h : Going data s budget) :
    Inevitable (Timed.step data) (fun x => Complete data x.1) (s, budget) := by
  have wf : WellFounded (Prod.Lex (· < ·) (Prod.Lex (· < ·) (· < ·)) : ℕ × ℕ × ℕ → _ → Prop) :=
    WellFounded.prod_lex Nat.lt_wfRel.wf (WellFounded.prod_lex Nat.lt_wfRel.wf Nat.lt_wfRel.wf)
  refine Inevitable.of_rank wf (I := fun y x => Going data x.1 x.2 ∧
    y = (x.1.tx.rank data, x.2, x.1.size)) (fun y x hI => hI.1.can_step) ?_ ⟨h, rfl⟩
  rintro y x a x' ⟨hgo, rfl⟩ hs
  refine or_iff_not_imp_left.2 fun hcomp => ?_
  exact ⟨_, hgo.rank_lt hs hcomp, hgo.step hdata hlen hcomp hs, rfl⟩

end Steps

lemma numBlocks_pad_pos {payload : List Byte} (h : payload ≠ []) : 0 < numBlocks (pad payload) := by
  have hpos := List.length_pos_iff.2 h
  simp only [numBlocks, pad, blockSize, List.length_append, List.length_replicate]
  omega

/-- **Every block is stored once, in order**, over a line without faults, when the `NAK`s that have
come before the sender begins, the waits of the receiver for a frame that have run out before and
that run out later, and the waits of the sender that run out are nine at most.  `toHost` is what
has come before the sender begins. -/
theorem transfer_completes (payload toHost : List Byte) (mem : BitVec 32 → Byte)
    (timeouts budget : ℕ) (hne : payload ≠ []) (hlen : (pad payload).length < 2 ^ 32)
    (hack : ack ∉ toHost) (hsum : toHost.count nak + timeouts + budget ≤ 9) :
    Inevitable (Timed.step (pad payload)) (fun x => Complete (pad payload) x.1)
      (Sys.start (pad payload) { Rx.start mem with retries := timeouts } toHost, budget) := by
  have hpos := numBlocks_pad_pos hne
  refine Going.inevitable (length_pad payload) hlen (.fresh (k := 0) (r := 0) (i := 0)
    (m := toHost.count nak) (n := 0) ⟨hpos, fun _ => rfl, ?_, Or.inl ⟨?_, rfl⟩, ⟨[], ?_⟩,
      replies_stale hack, by simp only [Sys.start]; omega, by omega⟩)
  · exact (Rx.Holds.start _ mem).congr rfl rfl rfl rfl
  · exact if_pos hpos
  · exact .start rfl rfl

/-- A payload of one byte, and three `NAK`s too many. -/
theorem transfer_completes_one : Inevitable (Timed.step (pad [0x2A]))
    (fun x => Complete (pad [0x2A]) x.1)
    (Sys.start (pad [0x2A]) { Rx.start (fun _ => 0) with retries := 1 } [nak, 0x0D, nak, nak], 5) :=
  transfer_completes [0x2A] [nak, 0x0D, nak, nak] (fun _ => 0) 1 5 (by decide)
    (by decide +kernel) (by decide) (by decide)

end Neorv32Boot.Xmodem
