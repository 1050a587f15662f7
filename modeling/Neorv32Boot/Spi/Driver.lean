import Neorv32Boot.Lib.Bytes
import Neorv32Boot.Lib.Duplex

/-!
# The SD driver

`sw/stage2_loader/sd.c` over any device on the SPI bus: the command frame, the initialisation, and
the reading and writing of one sector.  A driver function takes the state of the device and returns
its result with the state after it.  The clock rate, which `sd_init` sets twice, is left out.
-/

namespace Neorv32Boot.Spi

variable {σ : Type} (bus : Bus Byte σ)

/-! ### Commands -/

/-- The frame of a command, with the byte that is sent before it. -/
def cmdFrame (cmd : Byte) (arg : BitVec 32) (crc : Byte) : List Byte :=
  [0xFF, 0x40 ||| cmd, arg.extractLsb' 24 8, arg.extractLsb' 16 8, arg.extractLsb' 8 8,
    arg.extractLsb' 0 8, crc]

/-- Bit 7 of an `R1` is zero. -/
def isR1 (b : Byte) : Bool := b &&& 0x80 == 0

/-- `sd_cmd`: the `R1`, or the last of 16 bytes that are none. -/
def sdCmd (cmd : Byte) (arg : BitVec 32) (crc : Byte) (s : σ) : Byte × σ :=
  bus.poll 0xFF isR1 16 0xFF (bus.sends (cmdFrame cmd arg crc) s)

/-- What `sd_init` does for each of its commands: select the card, send the command, read `n` more
bytes of its answer and one more, and release the card. -/
def transact (cmd : Byte) (arg : BitVec 32) (crc : Byte) (n : ℕ) (s : σ) : (Byte × List Byte) × σ :=
  let r1 := sdCmd bus cmd arg crc (bus.select true s)
  let rest := bus.recvs 0xFF n r1.2
  ((r1.1, rest.1), bus.select false (bus.xchg 0xFF rest.2).2)

/-! ### Initialisation -/

/-- The loop of `ACMD41`, for so many tries: zero, or the result that `sd_init` returns. -/
def acmd41 (arg : BitVec 32) : ℕ → σ → ℤ × σ
  | 0, s => (-3, s)
  | tries + 1, s =>
    let app := sdCmd bus 55 0 0x65 (bus.select true s)
    let r1 := sdCmd bus 41 arg 0x77 app.2
    let s := bus.select false (bus.xchg 0xFF r1.2).2
    if r1.1 = 0x00 then (0, s)
    else if r1.1 &&& 0xFE ≠ 0 then (-2, s)
    else acmd41 arg tries s

/-- `CMD58`, which is sent to a card that knows `CMD8` only: the new `sd_is_hc`. -/
def readOcr (v2Card : Bool) (s : σ) : Bool × σ :=
  if v2Card then
    let r := transact bus 58 0 0xFD 4 s
    (r.1.1 == 0x00 && r.1.2.getD 0 0 &&& 0x40 != 0, r.2)
  else (false, s)

/-- `CMD16`, which is sent when the card is not taken for a high-capacity one. -/
def setBlockLen (isHc : Bool) (s : σ) : ℤ × σ :=
  if isHc then (0, s)
  else
    let r := transact bus 16 512 0x15 0 s
    (if r.1.1 ≠ 0x00 then -4 else 0, r.2)

/-- `sd_init` from the loop of `ACMD41` on: its result, and `sd_is_hc`. -/
def startUp (v2Card : Bool) (s : σ) : (ℤ × Bool) × σ :=
  let up := acmd41 bus (if v2Card then 0x40000000 else 0) 2000 s
  if up.1 ≠ 0 then ((up.1, false), up.2) else
  let ocr := readOcr bus v2Card up.2
  let len := setBlockLen bus ocr.1 ocr.2
  ((len.1, ocr.1), len.2)

/-- The answer to `CMD8` of a card that knows it. -/
def isV2 (r1 : Byte) (r7 : List Byte) : Bool :=
  r1 == 0x01 && r7.getD 2 0 == 0x01 && r7.getD 3 0 == 0xAA

/-- `sd_init`: its result, and `sd_is_hc`. -/
def sdInit (s : σ) : (ℤ × Bool) × σ :=
  let s := bus.sends (List.replicate 16 0xFF) (bus.select false s)
  let cmd0 := transact bus 0 0 0x95 0 s
  if cmd0.1.1 ≠ 0x01 then ((-1, false), cmd0.2) else
  let cmd8 := transact bus 8 0x1AA 0x87 4 cmd0.2
  startUp bus (isV2 cmd8.1.1 cmd8.1.2) cmd8.2

/-! ### Sectors -/

/-- The address of a sector: high-capacity cards count in blocks, the others in bytes. -/
def sdAddr (isHc : Bool) (lba : BitVec 32) : BitVec 32 := if isHc then lba else lba * 512

/-- `sd_read_block` after its command: wait for the data token, and read the data and the CRC. -/
def readData (dst : List Byte) (s : σ) : (ℤ × List Byte) × σ :=
  let tok := bus.poll 0xFF (· == 0xFE) 65536 0xFF s
  if tok.1 ≠ 0xFE then ((-2, dst), bus.select false tok.2) else
  let data := bus.recvs 0xFF 512 tok.2
  let s := bus.sends [0xFF, 0xFF, 0xFF] data.2
  ((0, data.1 ++ dst.drop 512), bus.select false s)

/-- `sd_read_block`: its result, and the bytes at `dst`. -/
def sdReadBlock (isHc : Bool) (lba : BitVec 32) (dst : List Byte) (s : σ) :
    (ℤ × List Byte) × σ :=
  let r1 := sdCmd bus 17 (sdAddr isHc lba) 0xFF (bus.select true s)
  if r1.1 ≠ 0x00 then ((-1, dst), bus.select false r1.2) else
  readData bus dst r1.2

/-- `sd_write_block` after its command: send the token and the data, and wait for the card. -/
def writeData (src : List Byte) (s : σ) : ℤ × σ :=
  let s := bus.sends ([0xFF, 0xFE] ++ src ++ [0xFF, 0xFF]) s
  let resp := bus.xchg 0xFF s
  if resp.1 &&& 0x1F ≠ 0x05 then (-2, bus.select false resp.2) else
  let busy := bus.poll 0xFF (· != 0x00) 65536 0x00 resp.2
  if busy.1 = 0x00 then (-3, bus.select false busy.2)
  else (0, (bus.xchg 0xFF (bus.select false busy.2)).2)

/-- `sd_write_block` -/
def sdWriteBlock (isHc : Bool) (lba : BitVec 32) (src : List Byte) (s : σ) : ℤ × σ :=
  let r1 := sdCmd bus 24 (sdAddr isHc lba) 0xFF (bus.select true s)
  if r1.1 ≠ 0x00 then (-1, bus.select false r1.2) else
  writeData bus src r1.2

end Neorv32Boot.Spi
