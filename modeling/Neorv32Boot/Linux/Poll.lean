import Neorv32Boot.Lib.Bytes
import Neorv32Boot.Lib.Trans

/-!
# The polling thread of the UART driver

`neorv32_poll_thread` of `board/neorv32_uart.c`: it reads the RX FIFO into a buffer on its stack
and hands that to the line discipline.  What is popped from the UART, and what the discipline
consumes, is recorded with the number of each byte in the order of popping, so that equal bytes are
told apart.  The transmit side of the thread is left out.
-/

namespace Neorv32Boot.Linux

/-! ### The thread -/

/-- `neorv32_rx_direct`, with room for `max` bytes: the bytes it reads, and what stays in the
FIFO. -/
def rxDirect : ℕ → List Byte → List Byte × List Byte
  | max + 1, b :: fifo =>
    let (buf, fifo) := rxDirect max fifo
    (b :: buf, fifo)
  | _, fifo => ([], fifo)

/-- `sizeof(rxbuf)` -/
abbrev rxbufSize : ℕ := 64

/-- A byte with its number in the order of popping. -/
abbrev Popped : Type := Byte × ℕ

/-- The UART and the line discipline, between two iterations of the thread. -/
structure Poll where
  fifo : List Byte
  /-- `port->icount.rx` -/
  rx : BitVec 32
  popped : List Popped
  consumed : List Popped

/-- The start of the thread, with what is in the FIFO then. -/
def Poll.start (fifo : List Byte) : Poll where
  fifo := fifo
  rx := 0
  popped := []
  consumed := []

/-- What an iteration of the thread meets. -/
structure Turn where
  /-- what comes into the FIFO before the poll -/
  arrived : List Byte
  /-- `port->state` is there -/
  state : Bool
  /-- `port->state->port.tty` is there -/
  tty : Bool
  /-- what `tty_ldisc_receive_buf` returns, when `tty_ldisc_ref` does not return `NULL` -/
  ldisc : Option ℕ

/-- A tty is attached to the port. -/
def Turn.attached (t : Turn) : Bool := t.state && t.tty

/-- What the poll of an iteration reads. -/
def Poll.got (s : Poll) (t : Turn) : List Popped :=
  (rxDirect rxbufSize (s.fifo ++ t.arrived)).1.zipIdx s.popped.length

/-- The buffer of the call of `tty_ldisc_receive_buf`, in an iteration that makes it. -/
def Poll.offered (s : Poll) (t : Turn) : Option (List Popped) :=
  if s.got t ≠ [] ∧ t.attached ∧ t.ldisc.isSome then some (s.got t) else none

/-- One iteration.  The discipline does not consume more than it is offered. -/
def Poll.step (s : Poll) (t : Turn) : Option Poll :=
  let s' : Poll :=
    { s with
      fifo := (rxDirect rxbufSize (s.fifo ++ t.arrived)).2
      rx := s.rx + BitVec.ofNat 32 (s.got t).length
      popped := s.popped ++ s.got t }
  match s.offered t, t.ldisc with
  | some buf, some k =>
    if k ≤ buf.length then some { s' with consumed := s.consumed ++ buf.take k } else none
  | _, _ => some s'

/-! ### Input that is neither lost nor reordered -/

/-- What was popped and not consumed, when the bytes are consumed in order. -/
def Poll.unconsumed (s : Poll) : List Popped := s.popped.drop s.consumed.length

/-- The bytes are consumed in the order of popping, and those that are not yet consumed are kept:
whatever the next iteration meets, it offers them again, the oldest first, when there is a
discipline. -/
structure Poll.Kept (s : Poll) : Prop where
  inOrder : s.consumed <+: s.popped
  again : ∀ t : Turn, t.attached → t.ldisc.isSome → s.unconsumed ≠ [] →
    ∃ buf, s.offered t = some buf ∧ buf ≠ [] ∧ buf <+: s.unconsumed ++ s.got t

/-- The iteration pops nothing, or there is a discipline that consumes all of it. -/
def Poll.Delivers (s : Poll) (t : Turn) : Prop :=
  s.got t = [] ∨ t.ldisc = some (s.got t).length

/-- Everything popped has been consumed. -/
structure Poll.Settled (s : Poll) : Prop where
  all : s.consumed = s.popped
  numbers : ∀ x ∈ s.popped, x.2 < s.popped.length

lemma Poll.le_of_mem_got {s : Poll} {t : Turn} {x : Popped} (h : x ∈ s.got t) :
    s.popped.length ≤ x.2 ∧ x.2 < s.popped.length + (s.got t).length := by
  obtain ⟨b, n⟩ := x
  obtain ⟨h1, h2, -⟩ := List.mem_zipIdx h
  exact ⟨h1, by rwa [Poll.got, List.length_zipIdx]⟩

section Step

variable {s s' : Poll} {t : Turn}

/-- What an iteration with a tty does: everything it reads is popped, and what the discipline
takes of it is consumed. -/
lemma Poll.step_eq (h : s.step t = some s') (ht : t.attached) :
    s'.popped = s.popped ++ s.got t ∧ ∃ k ≤ (s.got t).length,
      s'.consumed = s.consumed ++ (s.got t).take k ∧ (s.got t ≠ [] → t.ldisc = some k ∨
        t.ldisc = none ∧ k = 0) := by
  rw [Poll.step] at h
  by_cases hoff : s.got t ≠ [] ∧ t.attached ∧ t.ldisc.isSome
  · obtain ⟨k, hk⟩ := Option.isSome_iff_exists.1 hoff.2.2
    rw [Poll.offered, if_pos hoff, hk] at h
    simp only at h
    split_ifs at h with hle
    obtain rfl := Option.some.inj h
    exact ⟨rfl, k, hle, rfl, fun _ => Or.inl hk⟩
  · rw [Poll.offered, if_neg hoff] at h
    obtain rfl := Option.some.inj h
    refine ⟨rfl, 0, Nat.zero_le _, by simp, fun hne => Or.inr ⟨?_, rfl⟩⟩
    rw [← Option.not_isSome_iff_eq_none]
    exact fun hl => hoff ⟨hne, ht, hl⟩

lemma Poll.Settled.kept (h : s.Settled) : s.Kept := by
  refine ⟨h.all ▸ List.prefix_rfl, fun t _ _ hne => absurd ?_ hne⟩
  rw [Poll.unconsumed, h.all, List.drop_length]

/-- The numbers of the bytes stay below their count. -/
lemma Poll.Settled.numbers_step (hs : s.Settled) (hpop : s'.popped = s.popped ++ s.got t) :
    ∀ x ∈ s'.popped, x.2 < s'.popped.length := by
  intro x hx
  rw [hpop] at hx ⊢
  rw [List.length_append]
  rcases List.mem_append.1 hx with hx | hx
  · have := hs.numbers x hx
    omega
  · exact (Poll.le_of_mem_got hx).2

lemma Poll.Settled.step (hs : s.Settled) (h : s.step t = some s') (ht : t.attached)
    (hd : s.Delivers t) : s'.Settled := by
  obtain ⟨hpop, k, -, hcons, hk⟩ := Poll.step_eq h ht
  refine ⟨?_, hs.numbers_step hpop⟩
  rw [hpop, hcons, hs.all]
  by_cases hne : s.got t = []
  · rw [hne, List.take_nil]
  · have hall := hd.resolve_left hne
    rcases hk hne with hl | ⟨hl, -⟩
    · obtain rfl : k = (s.got t).length := Option.some.inj (hl.symm.trans hall)
      rw [List.take_length]
    · rw [hl] at hall
      cases hall

/-- What an iteration does not deliver is not offered again: the next one offers what it pops
itself. -/
lemma Poll.Settled.not_kept (hs : s.Settled) (h : s.step t = some s') (ht : t.attached)
    (hd : ¬ s.Delivers t) : ¬ s'.Kept := by
  obtain ⟨hpop, k, hle, hcons, hk⟩ := Poll.step_eq h ht
  obtain ⟨hne, hall⟩ := not_or.1 hd
  have hlt : k < (s.got t).length := by
    rcases hk hne with hl | ⟨-, rfl⟩
    · exact lt_of_le_of_ne hle fun he => hall (he ▸ hl)
    · exact List.length_pos_iff.2 hne
  have hun : s'.unconsumed = (s.got t).drop k := by
    rw [Poll.unconsumed, hpop, hcons, hs.all, List.length_append, List.length_take,
      Nat.min_eq_left hle, List.drop_append, List.drop_eq_nil_of_le (by omega), List.nil_append,
      Nat.add_sub_cancel_left]
  obtain ⟨x, rest, hx⟩ := List.exists_cons_of_ne_nil
    (show s'.unconsumed ≠ [] by simpa [hun, List.drop_eq_nil_iff] using hlt)
  intro hkept
  obtain ⟨buf, hbuf, hbne, hpre⟩ := hkept.again ⟨[], true, true, some 0⟩ rfl rfl (by simp [hx])
  obtain ⟨y, ys, rfl⟩ := List.exists_cons_of_ne_nil hbne
  have hxy : y = x := by
    rw [hx, List.cons_append, List.cons_prefix_cons] at hpre
    exact hpre.1
  -- the offered byte is a new one, the oldest unconsumed byte is an old one
  have hnew : y ∈ s'.got ⟨[], true, true, some 0⟩ := by
    rw [Poll.offered] at hbuf
    split_ifs at hbuf
    rw [Option.some.inj hbuf]
    exact List.mem_cons_self
  have hold : x ∈ s'.popped := List.mem_of_mem_drop (hx ▸ List.mem_cons_self)
  have := hs.numbers_step hpop x hold
  have := (Poll.le_of_mem_got hnew).1
  rw [hxy] at this
  omega

end Step

/-- **When input is kept.**  In a run of the thread with a tty, no byte is lost or reordered, at
any time, exactly when every iteration that pops bytes finds a line discipline that consumes all
of them. -/
theorem kept_iff_delivers (fifo : List Byte) (ts : List Turn) (h : ∀ t ∈ ts, t.attached) :
    Trans.Along Poll.step (fun _ _ s' => s'.Kept) (Poll.start fifo) ts ↔
      Trans.Along Poll.step (fun s t _ => s.Delivers t) (Poll.start fifo) ts := by
  refine Trans.along_iff (I := Poll.Settled) (fun t ht s s' hs hstep => ?_)
    (fun t ht s s' hs hstep hd => hs.step hstep (h t ht) hd) ⟨rfl, by simp [Poll.start]⟩
  constructor
  · intro hkept
    by_contra hd
    exact hs.not_kept hstep (h t ht) hd hkept
  · intro hd
    exact (hs.step hstep (h t ht) hd).kept

/-- The rule at two iterations that deliver what they pop. -/
theorem kept_iff_delivers_two :
    let ts : List Turn := [⟨[1, 2], true, true, some 2⟩, ⟨[3], true, true, some 1⟩]
    Trans.Along Poll.step (fun _ _ s' => s'.Kept) (Poll.start []) ts ↔
      Trans.Along Poll.step (fun s t _ => s.Delivers t) (Poll.start []) ts :=
  kept_iff_delivers [] _ (by decide)

/-- Two bytes are popped and the discipline takes one of them: the second one is gone. -/
theorem partial_receive_loses :
    let ts : List Turn := [⟨[1, 2], true, true, some 1⟩, ⟨[3], true, true, some 1⟩]
    (∀ t ∈ ts, t.attached) ∧ (∃ s, Trans.run Poll.step (Poll.start []) ts = some s ∧
      ¬ s.consumed.map Prod.fst <+: s.popped.map Prod.fst) ∧
      ¬ Trans.Along Poll.step (fun _ _ s' => s'.Kept) (Poll.start []) ts := by
  refine ⟨by decide, ⟨_, rfl, by decide⟩, fun hall => ?_⟩
  have hkept : Poll.Kept _ := ((hall _ rfl).2 _ rfl).1
  exact absurd hkept.inOrder (by decide)

end Neorv32Boot.Linux
