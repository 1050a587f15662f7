import Neorv32Boot.Lib.Trans
import Neorv32Boot.Xmodem.Send

/-!
# The two ends of an XMODEM transfer

The sender and the receiver with the bytes on the way between them.  What a side writes is on the
way at once, with the faults that the line does to it, and the other side takes it byte by byte
at any later time.
-/

namespace Neorv32Boot.Xmodem

/-- What the line does to a byte. -/
inductive Fault
  | keep
  | drop
  | alter (b : Byte)
  deriving DecidableEq

/-- What comes of a byte. -/
def Fault.apply : Fault → Byte → List Byte
  | .keep, b => [b]
  | .drop, _ => []
  | .alter b, _ => [b]

/-- What comes of the bytes `msg`.  Bytes beyond the faults are kept. -/
def deliver : List Fault → List Byte → List Byte
  | [], msg => msg
  | _, [] => []
  | f :: fs, b :: msg => f.apply b ++ deliver fs msg

/-- Both ends, and the bytes on the way to the receiver and to the sender. -/
structure Sys where
  tx : Tx
  toDev : List Byte
  rx : Rx
  toHost : List Byte

/-- What happens next.  The faults are those of the bytes that are written. -/
inductive Act
  /-- the sender writes -/
  | send (fs : List Fault)
  /-- the sender reads a byte -/
  | read
  /-- the time of the sender is over -/
  | hostTimeout
  /-- the receiver takes a byte -/
  | recv (fs : List Fault)
  /-- the timer of the receiver runs out -/
  | devTimeout (fs : List Fault)

/-- One step, where it is enabled. -/
def Sys.step (data : List Byte) (s : Sys) : Act → Option Sys
  | .send fs =>
    match s.tx.send data with
    | none => none
    | some (out, tx) => some { s with tx := tx, toDev := s.toDev ++ deliver fs out }
  | .read =>
    match s.toHost with
    | [] => none
    | c :: rest =>
      match s.tx.read data c with
      | none => none
      | some tx => some { s with tx := tx, toHost := rest }
  | .hostTimeout =>
    match s.tx.timeout with
    | none => none
    | some tx => some { s with tx := tx }
  | .recv fs =>
    match s.toDev with
    | [] => none
    | c :: rest =>
      match s.rx.recv (some c) with
      | none => none
      | some (out, rx) =>
        some { s with rx := rx, toDev := rest, toHost := s.toHost ++ deliver fs out }
  | .devTimeout fs =>
    match s.rx.recv none with
    | none => none
    | some (out, rx) => some { s with rx := rx, toHost := s.toHost ++ deliver fs out }

/-- The sender is about to begin, and `toHost` holds what the receiver has sent it and it has not
read. -/
def Sys.start (data : List Byte) (rx : Rx) (toHost : List Byte) : Sys where
  tx := .block data 0
  toDev := []
  rx := rx
  toHost := toHost

/-- The receiver has stored the first `n` blocks, one after the other. -/
structure Rx.Holds (data : List Byte) (n : ℕ) (rx : Rx) : Prop where
  blkNum_eq : rx.blkNum = Xmodem.blkNum n
  total_eq : rx.total = BitVec.ofNat 32 (128 * n)
  stores_eq : rx.stores =
    (List.range n).map fun k => (BitVec.ofNat 32 (128 * k), block data k)
  mem_eq : ∀ j < 128 * n, rx.mem (BitVec.ofNat 32 j) = data.getD j 0

/-- `size` bytes at `dest`. -/
def destBytes (mem : BitVec 32 → Byte) (size : ℕ) : List Byte :=
  (List.range size).map fun j => mem (BitVec.ofNat 32 j)

/-- The transfer is complete: both ends have returned, the sender with `True` and the receiver
with the length of the payload, every block was stored once and in order, and `dest` holds the
payload. -/
structure Complete (data : List Byte) (s : Sys) : Prop where
  tx_eq : s.tx = .complete
  wait_eq : s.rx.wait = .ret (BitVec.ofNat 32 data.length)
  stores_eq : s.rx.stores =
    (List.range (numBlocks data)).map fun k => (BitVec.ofNat 32 (128 * k), block data k)
  dest_eq : destBytes s.rx.mem data.length = data

/-! ### What a step does -/

@[simp] lemma deliver_nil (msg : List Byte) : deliver [] msg = msg := by
  cases msg <;> rfl

@[simp] lemma deliver_nil_right (fs : List Fault) : deliver fs [] = [] := by
  cases fs <;> rfl

lemma length_deliver_le (fs : List Fault) (msg : List Byte) :
    (deliver fs msg).length ≤ msg.length := by
  fun_induction deliver fs msg with
  | case1 msg => exact le_rfl
  | case2 fs h => simp
  | case3 f fs b msg ih =>
    have hf : (f.apply b).length ≤ 1 := by cases f <;> simp [Fault.apply]
    rw [List.length_append, List.length_cons]
    omega

section Steps

variable {data : List Byte} {s s' : Sys} {fs : List Fault}

lemma step_send (h : s.step data (.send fs) = some s') :
    ∃ out tx, s.tx.send data = some (out, tx) ∧
      s' = { s with tx := tx, toDev := s.toDev ++ deliver fs out } := by
  rw [Sys.step] at h
  split at h
  · cases h
  · next out tx htx => exact ⟨out, tx, htx, (Option.some.inj h).symm⟩

lemma step_read (h : s.step data .read = some s') :
    ∃ c rest tx, s.toHost = c :: rest ∧ s.tx.read data c = some tx ∧
      s' = { s with tx := tx, toHost := rest } := by
  rw [Sys.step] at h
  split at h
  · cases h
  · next c rest hto =>
    split at h
    · cases h
    · next tx htx => exact ⟨c, rest, tx, hto, htx, (Option.some.inj h).symm⟩

lemma step_hostTimeout (h : s.step data .hostTimeout = some s') :
    ∃ tx, s.tx.timeout = some tx ∧ s' = { s with tx := tx } := by
  rw [Sys.step] at h
  split at h
  · cases h
  · next tx htx => exact ⟨tx, htx, (Option.some.inj h).symm⟩

lemma step_recv (h : s.step data (.recv fs) = some s') :
    ∃ c rest out rx, s.toDev = c :: rest ∧ s.rx.recv (some c) = some (out, rx) ∧
      s' = { s with rx := rx, toDev := rest, toHost := s.toHost ++ deliver fs out } := by
  rw [Sys.step] at h
  split at h
  · cases h
  · next c rest hto =>
    split at h
    · cases h
    · next out rx hrx => exact ⟨c, rest, out, rx, hto, hrx, (Option.some.inj h).symm⟩

lemma step_devTimeout (h : s.step data (.devTimeout fs) = some s') :
    ∃ out rx, s.rx.recv none = some (out, rx) ∧
      s' = { s with rx := rx, toHost := s.toHost ++ deliver fs out } := by
  rw [Sys.step] at h
  split at h
  · cases h
  · next out rx hrx => exact ⟨out, rx, hrx, (Option.some.inj h).symm⟩

/-! ### What is enabled -/

lemma send_enabled {out : List Byte} {tx : Tx} (h : s.tx.send data = some (out, tx))
    (fs : List Fault) : ∃ s', s.step data (.send fs) = some s' := by
  rw [Sys.step, h]
  exact ⟨_, rfl⟩

lemma read_enabled (hh : s.toHost ≠ []) (h : ∀ c, ∃ tx, s.tx.read data c = some tx) :
    ∃ s', s.step data .read = some s' := by
  obtain ⟨c, rest, hto⟩ := List.exists_cons_of_ne_nil hh
  obtain ⟨tx, ht⟩ := h c
  simp only [Sys.step, hto, ht]
  exact ⟨_, rfl⟩

lemma recv_enabled (hd : s.toDev ≠ []) (hw : ∀ size, s.rx.wait ≠ .ret size) (fs : List Fault) :
    ∃ s', s.step data (.recv fs) = some s' := by
  obtain ⟨c, rest, hto⟩ := List.exists_cons_of_ne_nil hd
  obtain ⟨r, hr⟩ := Rx.recv_total hw (some c)
  simp only [Sys.step, hto, hr]
  exact ⟨_, rfl⟩

lemma devTimeout_enabled (hw : ∀ size, s.rx.wait ≠ .ret size) (fs : List Fault) :
    ∃ s', s.step data (.devTimeout fs) = some s' := by
  obtain ⟨r, hr⟩ := Rx.recv_total hw none
  simp only [Sys.step, hr]
  exact ⟨_, rfl⟩

lemma reply_read (k r : ℕ) (c : Byte) : ∃ tx, (Tx.reply k r).read data c = some tx := by
  rw [Tx.read]
  split_ifs <;> exact ⟨_, rfl⟩

lemma eotReply_read (c : Byte) : ∃ tx, Tx.eotReply.read data c = some tx := by
  rw [Tx.read]
  split_ifs <;> exact ⟨_, rfl⟩

end Steps

/-! ### Storing blocks -/

section Holds

variable {data : List Byte} {n : ℕ} {rx : Rx}

lemma Rx.Holds.start (data : List Byte) (mem : BitVec 32 → Byte) : (Rx.start mem).Holds data 0 :=
  ⟨rfl, rfl, rfl, nofun⟩

/-- What does not change the store does not change what is stored. -/
lemma Rx.Holds.congr {rx' : Rx} (h : rx.Holds data n) (hb : rx'.blkNum = rx.blkNum)
    (ht : rx'.total = rx.total) (hs : rx'.stores = rx.stores) (hm : rx'.mem = rx.mem) :
    rx'.Holds data n :=
  ⟨hb.trans h.blkNum_eq, ht.trans h.total_eq, hs.trans h.stores_eq, fun j hj => by
    rw [hm, h.mem_eq j hj]⟩

/-- A block goes behind the ones before it. -/
lemma store_ofNat {mem : BitVec 32 → Byte} {buf : List Byte} {t j : ℕ} (hbuf : buf.length = 128)
    (ht : t + 128 ≤ 2 ^ 32) (hj : j < t + 128) :
    store mem (BitVec.ofNat 32 t) buf (BitVec.ofNat 32 j) =
      if j < t then mem (BitVec.ofNat 32 j) else buf.getD (j - t) 0 := by
  have hsub : (BitVec.ofNat 32 j - BitVec.ofNat 32 t).toNat =
      if j < t then 2 ^ 32 - (t - j) else j - t := by
    simp only [BitVec.toNat_sub, BitVec.toNat_ofNat]
    split_ifs <;> omega
  rw [store, hsub]
  split_ifs with hlt
  · have hout : buf.length ≤ 2 ^ 32 - (t - j) := by omega
    rw [List.getD_eq_getElem?_getD, List.getElem?_eq_none hout, Option.getD_none]
  · have hin : j - t < buf.length := by omega
    simp [List.getD_eq_getElem?_getD, hin]

lemma Rx.Holds.accept (h : rx.Holds data n) (hn : n < numBlocks data)
    (hlen : data.length < 2 ^ 32) : (rx.accept (block data n)).Holds data (n + 1) := by
  have hfit : 128 * n + 128 ≤ 2 ^ 32 := by
    unfold numBlocks blockSize at hn
    omega
  refine ⟨?_, ?_, ?_, fun j hj => ?_⟩
  · rw [Rx.accept_blkNum, h.blkNum_eq, Xmodem.blkNum, Xmodem.blkNum]
    bv_omega
  · rw [Rx.accept_total, h.total_eq]
    bv_omega
  · simp only [Rx.accept_stores, h.total_eq, h.stores_eq, List.range_succ, List.map_append,
      List.map_cons, List.map_nil]
  · rw [Rx.accept_mem, h.total_eq, store_ofNat (length_block hn) hfit (by omega)]
    split_ifs with hlt
    · exact h.mem_eq j hlt
    · rw [getElem_block (by omega)]
      congr 1
      omega

lemma length_eq (hdata : data.length % 128 = 0) : 128 * numBlocks data = data.length := by
  unfold numBlocks blockSize
  omega

/-- What was stored is the payload. -/
lemma Rx.Holds.dest_eq (h : rx.Holds data (numBlocks data)) (hdata : data.length % 128 = 0) :
    destBytes rx.mem data.length = data := by
  refine List.ext_getElem (by simp [destBytes]) fun j hj hj' => ?_
  have := h.mem_eq j (by rw [length_eq hdata]; exact hj')
  simpa [destBytes, List.getD_eq_getElem?_getD, hj'] using this

end Holds

end Neorv32Boot.Xmodem
