import Neorv32Boot.Host.Python
import Neorv32Boot.Stage2.Console
import Neorv32Boot.Xmodem.Link

/-!
# The transfer with a CRC

`xmodem_receive_verified` of `sw/stage2_loader/main.c` and `xmodem_send_verified` of
`host/boot_linux.py`: after the transfer stage2 prints the CRC-32 of what it has stored, and the
host compares it with the one of the payload and answers with a verdict.  Either side goes on when
it hears nothing from the other one.
-/

namespace Neorv32Boot.Xmodem

open Neorv32Boot.Trans (Reachable run reachable_of_run)
open Host (after int16 strip splitHead int16_puthex32 splitHead_eq_self strip_eq_self
  isSpace_puthex32 length_puthex32 mem_puthex32 after_append)
open Stage2 (crc32 hexDigit puthex32)

/-! ### The host -/

/-- Where `xmodem_send_verified` is. -/
inductive Sender
  /-- in `xmodem_send` -/
  | sending
  /-- in the loop that waits for the CRC -/
  | waiting (crcBuf : List Byte)
  /-- it has returned -/
  | returned (ok : Bool) (crcBuf : List Byte)
  deriving DecidableEq

def crcTag : List Byte := ascii "CRC:"

/-- The condition to leave the loop: a line end follows the first `CRC:`. -/
def lineSeen (crcBuf : List Byte) : Bool :=
  match after crcTag crcBuf with
  | none => false
  | some rest => rest.contains 0x0A

/-- `fpga_crc` -/
def fpgaCrc (crcBuf : List Byte) : Option ℤ :=
  match after crcTag crcBuf with
  | none => none
  | some rest => int16 (strip (splitHead 0x0A (splitHead 0x0D (rest.take 10))))

/-- `binascii.crc32(padded) & 0xFFFFFFFF`, the same CRC-32. -/
def expectedCrc (data : List Byte) : ℤ := (crc32 data).toNat

/-- The end of `xmodem_send_verified`: what the host writes, and what it returns. -/
def conclude (data crcBuf : List Byte) : List Byte × Bool :=
  match fpgaCrc crcBuf with
  | none => ([], true)
  | some c => if c = expectedCrc data then ([ack], true) else ([nak], false)

/-! ### Stage2 -/

/-- Where `xmodem_receive_verified` is. -/
inductive Receiver
  /-- in `xmodem_receive` -/
  | receiving
  /-- it waits for the verdict -/
  | verdict (size : BitVec 32)
  /-- it has returned -/
  | returned (size : BitVec 32)
  deriving DecidableEq

def failedText (name : List Byte) : List Byte := ascii "[!] " ++ name ++ ascii " xmodem FAILED\r\n"

def reportText (name : List Byte) (size crc : BitVec 32) : List Byte :=
  ascii "[stage2] " ++ name ++ ascii " size=" ++ puthex32 size ++ ascii " CRC:" ++ puthex32 crc ++
    ascii "\r\n"

def mismatchText (name : List Byte) : List Byte :=
  ascii "[!] CRC mismatch for " ++ name ++ ascii " " ++ [0xE2, 0x80, 0x94] ++ ascii " halting\r\n"

/-! ### Both -/

/-- Both sides.  `report` is what stage2 has printed about the CRC. -/
structure Pair where
  link : Sys
  sender : Sender
  receiver : Receiver
  report : List Byte

/-- What happens next. -/
inductive PairAct
  /-- a step of the transfer -/
  | link (a : Act)
  /-- the host goes on after `xmodem_send` -/
  | sent
  /-- the host reads this many bytes -/
  | crcRead (n : ℕ) (fs : List Fault)
  /-- the time of the host for the CRC is over -/
  | crcTimeout (fs : List Fault)
  /-- stage2 goes on after `xmodem_receive` -/
  | received (fs : List Fault)
  /-- stage2 takes the verdict -/
  | verdict (fs : List Fault)
  /-- the timer of stage2 for the verdict runs out -/
  | verdictTimeout

/-- The host has all that it will read of the CRC. -/
def Pair.concluded (data : List Byte) (s : Pair) (crcBuf : List Byte) (fs : List Fault) : Pair :=
  { s with
    link := { s.link with
      toDev := s.link.toDev ++ deliver fs (conclude data crcBuf).1 }
    sender := .returned (conclude data crcBuf).2 crcBuf }

/-- One step, where it is enabled. -/
def Pair.step (data name : List Byte) (s : Pair) : PairAct → Option Pair
  | .link a => (s.link.step data a).map fun link => { s with link := link }
  | .sent =>
    match s.sender, s.link.tx with
    | .sending, .complete => some { s with sender := .waiting [] }
    | .sending, .noAck | .sending, .failed _ => some { s with sender := .returned false [] }
    | _, _ => none
  | .crcRead n fs =>
    match s.sender with
    | .waiting crcBuf =>
      if 1 ≤ n ∧ n ≤ s.link.toHost.length then
        let crcBuf := crcBuf ++ s.link.toHost.take n
        let s := { s with link := { s.link with toHost := s.link.toHost.drop n } }
        some (if lineSeen crcBuf then s.concluded data crcBuf fs
          else { s with sender := .waiting crcBuf })
      else none
    | _ => none
  | .crcTimeout fs =>
    match s.sender with
    | .waiting crcBuf => some (s.concluded data crcBuf fs)
    | _ => none
  | .received fs =>
    match s.receiver, s.link.rx.wait with
    | .receiving, .ret size =>
      if size = 0 then
        some { s with
          receiver := .returned 0
          link := { s.link with toHost := s.link.toHost ++ deliver fs (failedText name) } }
      else
        let report := reportText name size (crc32 (destBytes s.link.rx.mem size.toNat))
        some { s with
          receiver := .verdict size
          report := report
          link := { s.link with toHost := s.link.toHost ++ deliver fs report } }
    | _, _ => none
  | .verdict fs =>
    match s.receiver, s.link.toDev with
    | .verdict size, resp :: rest =>
      let link := { s.link with toDev := rest }
      if resp = nak then
        some { s with
          receiver := .returned 0
          link := { link with toHost := link.toHost ++ deliver fs (mismatchText name) } }
      else some { s with receiver := .returned size, link := link }
    | _, _ => none
  | .verdictTimeout =>
    match s.receiver with
    | .verdict size => some { s with receiver := .returned size }
    | _ => none

/-- Both sides begin. -/
def Pair.start (data : List Byte) (mem : BitVec 32 → Byte) (toHost : List Byte) : Pair where
  link := .start data (Rx.start mem) toHost
  sender := .sending
  receiver := .receiving
  report := []

/-! ### The CRC line -/

/-- What follows the first `CRC:` in the bytes that the host has read starts with what follows it
in what stage2 has printed. -/
def Carried (report crcBuf : List Byte) : Prop :=
  ∃ line rest, after crcTag report = some line ∧ after crcTag crcBuf = some (line ++ rest)

lemma colon_not_mem_puthex32 (v : BitVec 32) : (0x3A : Byte) ∉ puthex32 v := by
  intro h
  have hdigit : ∀ n < 16, (0x3A : Byte) ≠ hexDigit n := by decide
  rcases mem_puthex32 h with h | ⟨n, hn, h⟩
  · cases h
  · exact hdigit n hn h

lemma after_reportText {name : List Byte} (hname : (0x3A : Byte) ∉ name) (size crc : BitVec 32) :
    after crcTag (reportText name size crc) = some (puthex32 crc ++ ascii "\r\n") := by
  have hfront : (0x3A : Byte) ∉
      ascii "[stage2] " ++ name ++ ascii " size=" ++ puthex32 size ++ ascii " " := by
    simp only [List.mem_append, not_or]
    exact ⟨⟨⟨⟨by decide, hname⟩, by decide⟩, colon_not_mem_puthex32 size⟩, by decide⟩
  have htag : ascii " CRC:" = ascii " " ++ (ascii "CRC" ++ [0x3A]) := rfl
  rw [reportText, htag, ← List.append_assoc, List.append_assoc _ (puthex32 crc)]
  exact after_append (show (0x3A : Byte) ∉ ascii "CRC" by decide) hfront

/-- The host reads the CRC that stage2 has printed. -/
lemma fpgaCrc_of_carried {name crcBuf : List Byte} {size crc : BitVec 32}
    (hname : (0x3A : Byte) ∉ name) (h : Carried (reportText name size crc) crcBuf) :
    fpgaCrc crcBuf = some (crc.toNat : ℤ) := by
  obtain ⟨line, rest, hline, hbuf⟩ := h
  rw [after_reportText hname, Option.some.injEq] at hline
  subst hline
  have htake : (puthex32 crc ++ ascii "\r\n" ++ rest).take 10 = puthex32 crc := by
    rw [List.append_assoc]
    exact List.take_left' (length_puthex32 crc)
  have hcr : (0x0D : Byte) ∉ puthex32 crc := fun h => nomatch isSpace_puthex32 crc _ h
  have hlf : (0x0A : Byte) ∉ puthex32 crc := fun h => nomatch isSpace_puthex32 crc _ h
  simp only [fpgaCrc, hbuf, htake, splitHead_eq_self hcr, splitHead_eq_self hlf,
    strip_eq_self (isSpace_puthex32 crc), int16_puthex32]

/-! ### Runs -/

/-- What the two sides know when they have come to an end. -/
structure Settled (data name : List Byte) (s : Pair) : Prop where
  /-- a host that goes on has read no CRC, or the one of the payload -/
  sender : ∀ crcBuf, s.sender = .returned true crcBuf →
    fpgaCrc crcBuf = none ∨ fpgaCrc crcBuf = some (expectedCrc data)
  /-- stage2 has printed the CRC of what it has at `dest` -/
  receiver : ∀ size, s.receiver = .verdict size ∨ (s.receiver = .returned size ∧ size ≠ 0) →
    s.link.rx.wait = .ret size ∧
      s.report = reportText name size (crc32 (destBytes s.link.rx.mem size.toNat))

lemma conclude_true {data crcBuf : List Byte} (h : (conclude data crcBuf).2 = true) :
    fpgaCrc crcBuf = none ∨ fpgaCrc crcBuf = some (expectedCrc data) := by
  rw [conclude] at h
  cases hc : fpgaCrc crcBuf with
  | none => exact Or.inl rfl
  | some c =>
    rw [hc] at h
    simp only at h
    split_ifs at h with heq
    rw [heq]
    exact Or.inr rfl

/-- A receiver that has returned does not change any more. -/
lemma Sys.step_returned {data : List Byte} {s s' : Sys} {a : Act} {size : BitVec 32}
    (hw : s.rx.wait = .ret size) (hs : s.step data a = some s') : s'.rx = s.rx := by
  cases a with
  | send fs =>
    obtain ⟨out, tx, -, rfl⟩ := step_send hs
    rfl
  | read =>
    obtain ⟨c, rest, tx, -, -, rfl⟩ := step_read hs
    rfl
  | hostTimeout =>
    obtain ⟨tx, -, rfl⟩ := step_hostTimeout hs
    rfl
  | recv fs =>
    obtain ⟨c, rest, out, rx, -, hr, -⟩ := step_recv hs
    cases (Rx.recv_returned hw _).symm.trans hr
  | devTimeout fs =>
    obtain ⟨out, rx, hr, -⟩ := step_devTimeout hs
    cases (Rx.recv_returned hw _).symm.trans hr

section Steps

variable {data name : List Byte} {s s' : Pair}

lemma Settled.concluded (h : Settled data name s) (crcBuf : List Byte) (fs : List Fault)
    (toHost : List Byte) :
    Settled data name
      (({ s with link := { s.link with toHost := toHost } } : Pair).concluded data crcBuf fs) := by
  refine ⟨fun buf hbuf => ?_, h.receiver⟩
  obtain ⟨hok, rfl⟩ := Sender.returned.inj hbuf
  exact conclude_true hok

lemma Settled.step {a : PairAct} (h : Settled data name s) (hs : s.step data name a = some s') :
    Settled data name s' := by
  cases a with
  | link a =>
    obtain ⟨link, hlink, rfl⟩ := Option.map_eq_some_iff.1 hs
    refine ⟨h.sender, fun size hsize => ?_⟩
    obtain ⟨hw, hrep⟩ := h.receiver size hsize
    have hrx := Sys.step_returned hw hlink
    simp only [hrx]
    exact ⟨hw, hrep⟩
  | sent =>
    rw [Pair.step] at hs
    split at hs <;> cases hs <;> exact ⟨nofun, h.receiver⟩
  | crcRead n fs =>
    rw [Pair.step] at hs
    split at hs
    · next crcBuf hw =>
      simp only at hs
      split_ifs at hs with hn hseen <;> cases hs
      · exact h.concluded _ fs _
      · exact ⟨nofun, h.receiver⟩
    · cases hs
  | crcTimeout fs =>
    rw [Pair.step] at hs
    split at hs <;> cases hs
    exact h.concluded _ fs _
  | received fs =>
    rw [Pair.step] at hs
    split at hs
    · next size hrecv hw =>
      simp only at hs
      split_ifs at hs with hz <;> cases hs
      · refine ⟨h.sender, fun size' hsize' => ?_⟩
        rcases hsize' with hv | ⟨hr, hne⟩
        · cases hv
        · exact absurd (Receiver.returned.inj hr).symm hne
      · refine ⟨h.sender, fun size' hsize' => ?_⟩
        rcases hsize' with hv | ⟨hr, -⟩
        · obtain rfl := Receiver.verdict.inj hv
          exact ⟨hw, rfl⟩
        · cases hr
    · cases hs
  | verdict fs =>
    rw [Pair.step] at hs
    split at hs
    · next size resp rest hv hto =>
      simp only at hs
      split_ifs at hs with hnak <;> cases hs
      · refine ⟨h.sender, fun size' hsize' => ?_⟩
        rcases hsize' with hv' | ⟨hr, hne⟩
        · cases hv'
        · exact absurd (Receiver.returned.inj hr).symm hne
      · refine ⟨h.sender, fun size' hsize' => ?_⟩
        rcases hsize' with hv' | ⟨hr, -⟩
        · cases hv'
        · obtain rfl := Receiver.returned.inj hr
          exact h.receiver _ (Or.inl hv)
    · cases hs
  | verdictTimeout =>
    rw [Pair.step] at hs
    split at hs <;> cases hs
    next size hv =>
    refine ⟨h.sender, fun size' hsize' => ?_⟩
    rcases hsize' with hv' | ⟨hr, -⟩
    · cases hv'
    · obtain rfl := Receiver.returned.inj hr
      exact h.receiver _ (Or.inl hv)

end Steps

lemma Settled.start (data name : List Byte) (mem : BitVec 32 → Byte) (toHost : List Byte) :
    Settled data name (Pair.start data mem toHost) :=
  ⟨nofun, fun _ h => h.elim nofun fun h => nomatch h.1⟩

/-- **What stage2 goes on with has the CRC-32 of the payload**, whatever the line does to the
transfer and to the verdict, when the host goes on and has read the CRC line as stage2 has printed
it. -/
theorem verified_crc (payload name : List Byte) (mem : BitVec 32 → Byte) (toHost : List Byte)
    {s : Pair}
    (hs : Reachable (Pair.step (pad payload) name) (Pair.start (pad payload) mem toHost) s)
    {crcBuf : List Byte} {size : BitVec 32} (hname : (0x3A : Byte) ∉ name)
    (hsender : s.sender = .returned true crcBuf) (hreceiver : s.receiver = .returned size)
    (hsize : size ≠ 0) (hcarried : Carried s.report crcBuf) :
    crc32 (destBytes s.link.rx.mem size.toNat) = crc32 (pad payload) := by
  have hsettled := hs.inv (Settled.start (pad payload) name mem toHost)
    fun _ _ _ hI hs => hI.step hs
  obtain ⟨-, hrep⟩ := hsettled.receiver size (Or.inr ⟨hreceiver, hsize⟩)
  rw [hrep] at hcarried
  have hcrc := fpgaCrc_of_carried hname hcarried
  rcases hsettled.sender crcBuf hsender with hnone | hsome
  · cases hnone.symm.trans hcrc
  · have heq := Option.some.inj (hsome.symm.trans hcrc)
    rw [expectedCrc] at heq
    exact (BitVec.eq_of_toNat_eq (by exact_mod_cast heq)).symm

/-- A run without faults. -/
def verifiedRun : List PairAct :=
  .link (.send []) :: List.replicate 132 (.link (.recv [])) ++
    [.link .read, .link (.send []), .link (.recv []), .received [], .link .read, .sent,
      .crcRead 45 [], .verdict []]

/-- A payload of one byte. -/
theorem verified_crc_one : ∃ s : Pair, s.sender = .returned true s.report ∧
    s.receiver = .returned 128 ∧
    crc32 (destBytes s.link.rx.mem (128 : BitVec 32).toNat) = crc32 (pad [0x2A]) := by
  have hrun : ((run (Pair.step (pad [0x2A]) (ascii "DTB")) (Pair.start (pad [0x2A]) (fun _ => 0) [])
      verifiedRun).map fun s => decide (s.sender = .returned true s.report) &&
        decide (s.receiver = .returned 128) && (after crcTag s.report).isSome) = some true := by
    decide +kernel
  obtain ⟨s, hs, heq⟩ := Option.map_eq_some_iff.1 hrun
  simp only [Bool.and_eq_true, decide_eq_true_eq] at heq
  obtain ⟨⟨hsender, hreceiver⟩, hline⟩ := heq
  obtain ⟨line, hline⟩ := Option.isSome_iff_exists.1 hline
  exact ⟨s, hsender, hreceiver, verified_crc [0x2A] (ascii "DTB") (fun _ => 0) []
    (reachable_of_run hs) (by decide) hsender hreceiver (by decide)
    ⟨line, [], hline, by rw [List.append_nil]; exact hline⟩⟩

/-- Two bytes of the block are altered and its sum is not, the report is lost, and no verdict
comes. -/
def silentRun : List PairAct :=
  .link (.send [.keep, .keep, .keep, .alter 0x01, .alter 0xFF]) ::
    List.replicate 132 (.link (.recv [])) ++
    [.link .read, .link (.send []), .link (.recv []), .link .read, .sent,
      .received (List.replicate 64 .drop), .verdictTimeout, .crcTimeout []]

/-- Both sides go on with a wrong payload. -/
theorem unverified : ¬ ∀ (payload name : List Byte) (mem : BitVec 32 → Byte) (toHost : List Byte)
    (s : Pair), Reachable (Pair.step (pad payload) name) (Pair.start (pad payload) mem toHost) s →
    ∀ crcBuf size, s.sender = .returned true crcBuf → s.receiver = .returned size → size ≠ 0 →
      (destBytes s.link.rx.mem size.toNat = pad payload ∧ size.toNat = (pad payload).length) ∨
        crc32 (destBytes s.link.rx.mem size.toNat) = crc32 (pad payload) := by
  intro h
  let payload : List Byte := List.replicate 128 0x00
  have hrun : ((run (Pair.step (pad payload) (ascii "DTB"))
      (Pair.start (pad payload) (fun _ => 0) []) silentRun).map fun s =>
        decide (s.sender = .returned true []) &&
        decide (s.receiver = .returned 128) &&
        decide (crc32 (destBytes s.link.rx.mem (128 : BitVec 32).toNat) ≠ crc32 (pad payload))) =
      some true := by
    decide +kernel
  obtain ⟨s, hs, heq⟩ := Option.map_eq_some_iff.1 hrun
  simp only [Bool.and_eq_true, decide_eq_true_eq] at heq
  obtain ⟨⟨hsender, hreceiver⟩, hcrc⟩ := heq
  rcases h payload (ascii "DTB") (fun _ => 0) [] s (reachable_of_run hs) [] 128 hsender hreceiver
    (by decide) with ⟨hdest, -⟩ | hsame
  · exact hcrc (congrArg crc32 hdest)
  · exact hcrc hsame

end Neorv32Boot.Xmodem
