import Neorv32Boot.Lib.Trans
import Neorv32Boot.Sd.Card
import Neorv32Boot.Stage2.Console

/-!
# The multi-segment write over the serial line

`multi_seg_write` of `host/sd_proto.py` and `sd_write_multi` of `sw/stage2_loader/sd.c`, joined by
two byte streams that lose nothing.  Each side does what it does byte by byte: a side that prints
puts its bytes into the stream one after the other, and reads only when it has put all of them.
The timers of the host do not run out, but for the last read before it raises.
-/

namespace Neorv32Boot.Sd

open Stage2 (puthex32 readyText)

/-! ### The host -/

/-- Where `multi_seg_write` waits. -/
inductive Host
  /-- `wait_for(ser, b"MW_READY\n", ...)`, with the bytes read so far -/
  | waitReady (buf : List Byte)
  /-- `wait_for(ser, b"MW_GO\n", ...)` -/
  | waitGo (buf : List Byte)
  /-- `ack = ser.read(1)` after sector `i` of `seg`, with `rest` still to come -/
  | ack (segIdx : ℕ) (seg : Segment) (rest : List Segment) (i : ℕ)
  /-- `extra = ser.read(256)` after a wrong ack -/
  | extra (segIdx : ℕ) (seg : Segment) (i : ℕ) (ack : Byte)
  /-- the loop that waits for `MW_DONE` or `MW_FAIL` -/
  | waitDone (buf : List Byte)
  | returned
  | raised (e : PyError)

def mwReady : List Byte := ascii "MW_READY\n"
def mwGo : List Byte := ascii "MW_GO\n"
def mwDone : List Byte := ascii "MW_DONE"
def mwFail : List Byte := ascii "MW_FAIL"

/-- The bytes of sector `i` of a segment, `data[i * SECTOR:(i + 1) * SECTOR]`. -/
def Segment.block (s : Segment) (i : ℕ) : List Byte := (s.data.drop (sector * i)).take sector

/-- The head of the loop over the segments: the header and the first sector of the next one, and
where the host waits then.  A segment without sectors is its header only. -/
def Host.nextSegment (segIdx : ℕ) : List Segment → List Byte × Host
  | [] => ([], .waitDone [])
  | seg :: rest =>
    if seg.data.length % sector ≠ 0 then
      ([], .raised (.assertionError "segment not sector-aligned"))
    else
      match packU32s [seg.startLba, seg.secCount] with
      | .error e => ([], .raised e)
      | .ok hdr =>
        if seg.secCount = 0 then
          let (out, h) := nextSegment (segIdx + 1) rest
          (hdr ++ out, h)
        else (hdr ++ seg.block 0, .ack segIdx seg rest 0)

/-- The text of the exception for a wrong ack. -/
def noAck (segIdx : ℕ) (seg : Segment) (i : ℕ) (ack : Byte) (extra : List Byte) : PyError :=
  .runtimeError ("no ACK seg=" ++ toString segIdx ++ " sec=" ++ toString i ++ " lba=" ++
    toString (seg.startLba + i) ++ " got " ++ reprBytes [ack] ++ reprBytes extra)

/-- What a read gives the host: the bytes it writes next, and where it waits then.  A read returns
some of the bytes that have come, as many as were asked for at most. -/
def Host.read (segments : List Segment) : Host → List Byte → Option (List Byte × Host)
  | .waitReady buf, chunk =>
    if chunk.length < 1 ∨ 256 < chunk.length then none
    else if mwReady <:+: buf ++ chunk then
      match packU32s [segments.length] with
      | .error e => some ([], .raised e)
      | .ok n => some (n, .waitGo [])
    else some ([], .waitReady (buf ++ chunk))
  | .waitGo buf, chunk =>
    if chunk.length < 1 ∨ 256 < chunk.length then none
    else if mwGo <:+: buf ++ chunk then some (nextSegment 0 segments)
    else some ([], .waitGo (buf ++ chunk))
  | .ack segIdx seg rest i, chunk =>
    match chunk with
    | [b] =>
      if b ≠ 0x4B then some ([], .extra segIdx seg i b)
      else if i + 1 < seg.secCount then some (seg.block (i + 1), .ack segIdx seg rest (i + 1))
      else some (nextSegment (segIdx + 1) rest)
    | _ => none
  | .extra segIdx seg i b, chunk =>
    if 256 < chunk.length then none else some ([], .raised (noAck segIdx seg i b chunk))
  | .waitDone buf, chunk =>
    if chunk.length < 1 ∨ 256 < chunk.length then none
    else if mwDone <:+: buf ++ chunk then some ([], .returned)
    else if mwFail <:+: buf ++ chunk then
      some ([], .raised (.runtimeError "MW did not complete"))
    else some ([], .waitDone (buf ++ chunk))
  | .returned, _ => none
  | .raised _, _ => none

/-! ### Stage2 -/

/-- Where stage2 is. -/
inductive Dev
  /-- the dispatcher, waiting for a mode byte -/
  | dispatch
  /-- inside `sd_init`, called by `sd_write_multi` -/
  | sdInit
  /-- `recv_u32` of `seg_count`, with the bytes received so far -/
  | recvCount (got : List Byte)
  /-- `recv_u32` of `start_lba` and `sec_count` of segment `s` -/
  | recvHdr (segCount s : BitVec 32) (got : List Byte)
  /-- the 512 bytes of sector `i` of segment `s` -/
  | recvSector (segCount s startLba secCount i : BitVec 32) (got : List Byte)
  /-- inside `sd_write_block` of that sector -/
  | sdWrite (segCount s startLba secCount i : BitVec 32) (rx : Sector)
  /-- in another mode, after this byte was taken as a mode command -/
  | command (mode : Byte)

/-- `recv_u32` of four bytes. -/
def recvU32 (bs : List Byte) : BitVec 32 := BitVec.ofNat 32 (Bytes.ofLE bs)

/-- A byte for stage2: what it prints next, and where it is then. -/
def Dev.recv (b : Byte) : Dev → Option (List Byte × Dev)
  | .dispatch => if b = 0x57 then some ([], .sdInit) else some ([], .command b)
  | .recvCount got =>
    let got := got ++ [b]
    if got.length < 4 then some ([], .recvCount got)
    else
      let segCount := recvU32 got
      if segCount = 0 ∨ 16 < segCount then some (ascii "MW_FAIL bad_segs\n" ++ readyText, .dispatch)
      else some (mwGo, .recvHdr segCount 0 [])
  | .recvHdr segCount s got =>
    let got := got ++ [b]
    if got.length < 8 then some ([], .recvHdr segCount s got)
    else
      let startLba := recvU32 (got.take 4)
      let secCount := recvU32 (got.drop 4)
      if secCount = 0 ∨ 8192 < secCount then
        some (ascii "\nMW_FAIL bad_count seg=" ++ puthex32 s ++ ascii "\n" ++ readyText, .dispatch)
      else some ([], .recvSector segCount s startLba secCount 0 [])
  | .recvSector segCount s startLba secCount i got =>
    let got := got ++ [b]
    if got.length < 512 then some ([], .recvSector segCount s startLba secCount i got)
    else some ([], .sdWrite segCount s startLba secCount i (sectorAt got 0))
  | .sdInit | .sdWrite .. | .command _ => none

/-- What the card does: whether `sd_init` succeeds, and for each call of `sd_write_block`, in
order, whether it fails, with its `rc` and what it leaves in the sector. -/
structure Env where
  initOk : Bool
  fault : ℕ → Option (BitVec 32 × Sector)

/-- After a sector was written: what stage2 prints, and where it is then. -/
def Dev.written (segCount s startLba secCount i : BitVec 32) : List Byte × Dev :=
  if i + 1 < secCount then ([0x4B], .recvSector segCount s startLba secCount (i + 1) [])
  else if s + 1 < segCount then ([0x4B], .recvHdr segCount (s + 1) [])
  else ([0x4B] ++ ascii "\nMW_DONE\n" ++ readyText, .dispatch)

/-- The report of a failed sector. -/
def failText (lba rc : BitVec 32) : List Byte :=
  [0x58] ++ ascii "\nMW_FAIL lba=" ++ puthex32 lba ++ ascii " rc=" ++ puthex32 rc ++ ascii "\n" ++
    readyText

/-! ### The two together -/

/-- Both sides, what they still have to put into the streams, the streams, the card, and the
number of calls of `sd_write_block`. -/
structure Sys where
  host : Host
  hostTx : List Byte
  h2s : List Byte
  dev : Dev
  devTx : List Byte
  s2h : List Byte
  card : Card
  writes : ℕ

/-- What happens next. -/
inductive Act
  /-- the host puts a byte into its stream -/
  | hostSend
  /-- the host reads this many bytes -/
  | hostRead (n : ℕ)
  | devSend
  | devRecv
  /-- `sd_init` or `sd_write_block` returns -/
  | devWork

/-- One step, where it is enabled. -/
def Sys.step (env : Env) (segments : List Segment) (s : Sys) : Act → Option Sys
  | .hostSend =>
    match s.hostTx with
    | [] => none
    | b :: tx => some { s with hostTx := tx, h2s := s.h2s ++ [b] }
  | .hostRead n =>
    if s.hostTx = [] ∧ n ≤ s.s2h.length then
      match s.host.read segments (s.s2h.take n) with
      | none => none
      | some (out, host) => some { s with host := host, hostTx := out, s2h := s.s2h.drop n }
    else none
  | .devSend =>
    match s.devTx with
    | [] => none
    | b :: tx => some { s with devTx := tx, s2h := s.s2h ++ [b] }
  | .devRecv =>
    match s.devTx, s.h2s with
    | [], b :: h2s =>
      match s.dev.recv b with
      | none => none
      | some (out, dev) => some { s with dev := dev, devTx := out, h2s := h2s }
    | _, _ => none
  | .devWork =>
    match s.devTx, s.dev with
    | [], .sdInit =>
      if env.initOk then some { s with dev := .recvCount [], devTx := mwReady }
      else some { s with dev := .dispatch, devTx := ascii "[sd] mw: init FAIL\r\n" ++ readyText }
    | [], .sdWrite segCount k startLba secCount i rx =>
      let lba := startLba + i
      match env.fault s.writes with
      | none =>
        let (out, dev) := Dev.written segCount k startLba secCount i
        some { s with
          dev := dev, devTx := out, card := s.card.write [(lba, rx)], writes := s.writes + 1 }
      | some (rc, junk) =>
        some { s with
          dev := .dispatch, devTx := failText lba rc, card := s.card.write [(lba, junk)]
          writes := s.writes + 1 }
    | _, _ => none

/-- The host has begun with `ser.write(b"W")`; stage2 is in its dispatcher.  `s2h` is what it has
printed and the host has not read, and `devTx` what it still has to print. -/
def Sys.start (card : Card) (s2h devTx : List Byte) : Sys where
  host := .waitReady []
  hostTx := [0x57]
  h2s := []
  dev := .dispatch
  devTx := devTx
  s2h := s2h
  card := card
  writes := 0

end Neorv32Boot.Sd
