import Neorv32Boot.Lib.Bytes

/-!
# The XMODEM receiver

`xmodem_receive` of `sw/stage2_loader/main.c`, as a machine that takes one result of
`uart_getc_timeout` after the other: a byte, or `none` when the timer has run out.  The memory is
addressed from `dest`.
-/

namespace Neorv32Boot.Xmodem

def soh : Byte := 0x01
def eot : Byte := 0x04
def ack : Byte := 0x06
def nak : Byte := 0x15
def can : Byte := 0x18

@[simp] lemma soh_ne_eot : soh ≠ eot := by decide
@[simp] lemma soh_ne_can : soh ≠ can := by decide
@[simp] lemma nak_ne_ack : nak ≠ ack := by decide

/-- `XMODEM_BLOCK_SIZE` -/
abbrev blockSize : ℕ := 128

/-- `XMODEM_RETRY_MAX` -/
abbrev retryMax : ℕ := 20

/-- The 8-bit sum of a block. -/
def checksum (buf : List Byte) : Byte := buf.foldl (· + ·) 0

/-- Where the receiver waits for a byte. -/
inductive Wait
  /-- at the head of its loop, for the first byte of a frame -/
  | cmd
  /-- for the block number -/
  | bn
  /-- for its complement; a number that did not come is `none` -/
  | bnc (bn : Option Byte)
  /-- for a byte of the block, with the ones it has -/
  | data (bn bnc : Byte) (buf : List Byte)
  | csum (bn bnc : Byte) (buf : List Byte)
  /-- it has returned -/
  | ret (size : BitVec 32)
  deriving DecidableEq

/-- The receiver has returned. -/
def Wait.returned : Wait → Bool
  | .ret _ => true
  | _ => false

/-- The receiver.  `stores` is the record of its writes to `dest`, the offset and the block. -/
structure Rx where
  wait : Wait
  blkNum : Byte
  total : BitVec 32
  retries : ℕ
  mem : BitVec 32 → Byte
  stores : List (BitVec 32 × List Byte)

/-- The receiver after it has sent its first `NAK`. -/
def Rx.start (mem : BitVec 32 → Byte) : Rx where
  wait := .cmd
  blkNum := 1
  total := 0
  retries := 0
  mem := mem
  stores := []

/-- The loop `dest[total + i] = buf[i]`. -/
def store (mem : BitVec 32 → Byte) (total : BitVec 32) (buf : List Byte) : BitVec 32 → Byte :=
  fun a => buf.getD (a - total).toNat (mem a)

/-- A block was accepted. -/
@[simps]
def Rx.accept (s : Rx) (buf : List Byte) : Rx where
  wait := .cmd
  blkNum := s.blkNum + 1
  total := s.total + 128
  retries := 0
  mem := store s.mem s.total buf
  stores := s.stores ++ [(s.total, buf)]

/-- A frame came whole and was rejected. -/
@[simps]
def Rx.reject (s : Rx) : Rx := { s with wait := .cmd, retries := s.retries + 1 }

def waitingText : List Byte := ascii "\r\n[stage2] waiting for sender (NAK)...\r\n"
def timeoutText : List Byte := ascii "\r\n[!] xmodem timeout\r\n"
def cancelledText : List Byte := ascii "\r\n[!] xmodem cancelled\r\n"

/-- A result of `uart_getc_timeout`: what the receiver prints, and where it waits next. -/
def Rx.recv (c : Option Byte) (s : Rx) : Option (List Byte × Rx) :=
  match s.wait, c with
  | .cmd, none =>
    if retryMax < s.retries + 1 then
      some ([can, can] ++ timeoutText, { s with wait := .ret 0, retries := s.retries + 1 })
    else some (waitingText ++ [nak], { s with retries := s.retries + 1 })
  | .cmd, some c =>
    if c = eot then some ([ack], { s with wait := .ret s.total })
    else if c = can then some (cancelledText, { s with wait := .ret 0 })
    else if c ≠ soh then some ([], s)
    else some ([], { s with wait := .bn })
  -- a number that does not come is found out only after the wait for the complement
  | .bn, bn => some ([], { s with wait := .bnc bn })
  | .bnc (some bn), some bnc => some ([], { s with wait := .data bn bnc [] })
  | .bnc _, _ => some ([nak], { s with wait := .cmd })
  | .data bn bnc buf, some b =>
    if buf.length + 1 < blockSize then some ([], { s with wait := .data bn bnc (buf ++ [b]) })
    else some ([], { s with wait := .csum bn bnc (buf ++ [b]) })
  | .data .., none => some ([nak], { s with wait := .cmd })
  | .csum bn bnc buf, some recvCsum =>
    if bn ≠ s.blkNum ∨ bnc ≠ ~~~s.blkNum ∨ recvCsum ≠ checksum buf then some ([nak], s.reject)
    else some ([ack], s.accept buf)
  | .csum .., none => some ([nak], { s with wait := .cmd })
  | .ret _, _ => none

/-- A receiver that has returned takes nothing. -/
lemma Rx.recv_returned {s : Rx} {size : BitVec 32} (hw : s.wait = .ret size) (c : Option Byte) :
    s.recv c = none := by
  simp [Rx.recv, hw]

lemma Rx.recv_of_returned {s : Rx} (hw : s.wait.returned = true) (c : Option Byte) :
    s.recv c = none := by
  cases hwait : s.wait with
  | ret size => exact Rx.recv_returned hwait c
  | cmd | bn | bnc | data | csum =>
    rw [hwait] at hw
    cases hw

/-- A receiver that has not returned takes what comes. -/
lemma Rx.recv_total {s : Rx} (hw : ∀ size, s.wait ≠ .ret size) (c : Option Byte) :
    ∃ r, s.recv c = some r := by
  rw [← Option.isSome_iff_exists]
  unfold Rx.recv
  split <;> (try split_ifs) <;> first | rfl | exact absurd ‹_› (hw _)

lemma Rx.recv_eot {s : Rx} (hw : s.wait = .cmd) :
    s.recv (some eot) = some ([ack], { s with wait := .ret s.total }) := by
  simp [Rx.recv, hw]

/-- A receiver that has not waited too often asks for a frame once more. -/
lemma Rx.timeout_cmd {s : Rx} (hw : s.wait = .cmd) (hr : s.retries < retryMax) :
    s.recv none = some (waitingText ++ [nak], { s with retries := s.retries + 1 }) := by
  simp only [Rx.recv, hw]
  exact if_neg (not_lt.2 hr)

/-! ### Frames -/

/-- The frame of a block. -/
def frame (blkNum : Byte) (buf : List Byte) : List Byte :=
  [soh, blkNum, ~~~blkNum] ++ buf ++ [checksum buf]

lemma length_frame {blkNum : Byte} {buf : List Byte} (h : buf.length = 128) :
    (frame blkNum buf).length = 132 := by
  simp [frame, h]

/-- A frame has its number and its block. -/
lemma frame_inj {m n : Byte} {buf buf' : List Byte} (h : frame m buf = frame n buf') :
    m = n ∧ buf = buf' := by
  simp only [frame, List.cons_append, List.nil_append, List.cons.injEq] at h
  exact ⟨h.2.1, (List.append_inj' h.2.2.2 rfl).1⟩

/-- Where the receiver waits inside a frame, after the bytes `p` of it. -/
def place : List Byte → Wait
  | [] => .cmd
  | [_] => .bn
  | [_, bn] => .bnc (some bn)
  | _ :: bn :: bnc :: buf =>
    if buf.length < blockSize then .data bn bnc buf else .csum bn bnc buf

lemma place_ne_ret (p : List Byte) (size : BitVec 32) : place p ≠ .ret size := by
  match p with
  | [] | [_] | [_, _] => simp [place]
  | _ :: _ :: _ :: buf =>
    rw [place]
    split_ifs <;> simp

lemma returned_place (p : List Byte) : (place p).returned = false := by
  cases h : place p with
  | ret size => exact absurd h (place_ne_ret p size)
  | cmd | bn | bnc | data | csum => rfl

/-- The receiver goes on inside a frame. -/
lemma Rx.recv_place {s : Rx} {p : List Byte} {b : Byte} (hw : s.wait = place p)
    (hlen : p.length < 131) (hhead : (p ++ [b]).head? = some soh) :
    s.recv (some b) = some ([], { s with wait := place (p ++ [b]) }) := by
  match p with
  | [] =>
    obtain rfl : b = soh := by simpa using hhead
    simp [Rx.recv, hw, place]
  | [x] => simp [Rx.recv, hw, place]
  | [x, bn] => simp [Rx.recv, hw, place, blockSize]
  | x :: bn :: bnc :: buf =>
    have hbuf : buf.length < 128 := by
      simp only [List.length_cons] at hlen
      omega
    rw [place, if_pos hbuf] at hw
    simp only [Rx.recv, hw, List.cons_append, place, List.length_append, List.length_singleton]
    split_ifs <;> rfl

/-- The receiver at the last byte of a frame. -/
lemma Rx.recv_last {s : Rx} {p : List Byte} {c : Byte} (hw : s.wait = place p)
    (hlen : p.length = 131) (hhead : p.head? = some soh) :
    (∃ buf, buf.length = 128 ∧ p ++ [c] = frame s.blkNum buf ∧
        s.recv (some c) = some ([ack], s.accept buf)) ∨
      ((∀ buf, p ++ [c] ≠ frame s.blkNum buf) ∧ s.recv (some c) = some ([nak], s.reject)) := by
  match p with
  | x :: bn :: bnc :: buf =>
    have hbuf : buf.length = 128 := by simpa using hlen
    obtain rfl : x = soh := by simpa using hhead
    rw [place, if_neg (by rw [hbuf]; decide)] at hw
    simp only [Rx.recv, hw]
    split_ifs with hbad
    · refine Or.inr ⟨fun buf' h => ?_, rfl⟩
      simp only [frame, List.cons_append, List.nil_append, List.cons.injEq, true_and] at h
      obtain ⟨rfl, rfl, h⟩ := h
      obtain ⟨rfl, hc⟩ := List.append_inj' h rfl
      simp at hbad hc
      exact hbad hc
    · simp only [not_or, not_not] at hbad
      obtain ⟨rfl, rfl, rfl⟩ := hbad
      exact Or.inl ⟨buf, hbuf, by simp [frame], rfl⟩

/-- A timer that runs out inside a frame ends it with a `NAK`, but for the one of the number. -/
lemma Rx.timeout_place {s : Rx} {p : List Byte} (hw : s.wait = place p) (hp : 2 ≤ p.length) :
    s.recv none = some ([nak], { s with wait := .cmd }) := by
  match p with
  | [x, bn] => simp [Rx.recv, hw, place]
  | x :: bn :: bnc :: buf =>
    rw [place] at hw
    split_ifs at hw <;> simp [Rx.recv, hw]

end Neorv32Boot.Xmodem
