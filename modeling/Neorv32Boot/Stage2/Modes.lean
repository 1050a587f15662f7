import Neorv32Boot.Stage2.World

/-!
# The modes that serve the card

`sd_smoke`, `sd_dump`, `sd_write_test`, `sd_write_multi` and `sd_read_header` of
`sw/stage2_loader/sd.c`, over any device on the bus.  They return to the dispatcher.
-/

namespace Neorv32Boot.Stage2

open Prog (upFrom times)

variable {σ : Type} (bus : Bus Byte σ)

/-! ### `sd_smoke` -/

/-- The first 32 bytes of a sector, in hexadecimal. -/
def hexBytes (buf : List Byte) : List Byte :=
  (buf.take 32).flatMap fun b => [hexDigit (b.toNat / 16), hexDigit (b.toNat % 16), 0x20]

/-- What `sd_smoke` says about the first word of the sector. -/
def magicText (buf : List Byte) : String :=
  let m := BitVec.ofNat 32 (Bytes.leAt 4 buf 0)
  if m = 0x54505531 then " (1UPT/MLP) OK\r\n"
  else if m = 0x434e4e31 then " (1NNC/CNN) OK\r\n"
  else if m = 0xAA550000 ∨ buf.getD 510 0 = 0x55 then " (MBR)\r\n"
  else " (unknown)\r\n"

/-- `sd_smoke` -/
def sdSmoke : Loader σ Unit := do
  puts "[sd] init...\r\n"
  let rc ← sdInit bus
  if rc ≠ 0 then
    puts "[sd] init FAIL rc="
    emit (hexRc rc)
    puts "\r\n"
  else
    puts "[sd] init OK, SDHC="
    puts (if (← get).isHc then "1" else "0")
    puts "\r\n"
    let (rc, buf) ← sdReadBlock bus 0
    if rc ≠ 0 then
      puts "[sd] read LBA0 FAIL rc="
      emit (hexRc rc)
      puts "\r\n"
    else
      puts "[sd] LBA0 first 32 bytes:\r\n  "
      emit (hexBytes buf)
      puts "\r\n[sd] magic="
      emit (puthex32 (BitVec.ofNat 32 (Bytes.leAt 4 buf 0)))
      puts (magicText buf)

/-! ### `sd_dump` -/

/-- The loop of `sd_dump`, from sector `i` on with `n` sectors to go, and what follows it. -/
def dumpLoop (start : BitVec 32) : ℕ → ℕ → Loader σ Unit
  | _, 0 => puts "\nDUMP_END\n"
  | i, n + 1 => do
    let (rc, buf) ← sdReadBlock bus (start + BitVec.ofNat 32 i)
    if rc ≠ 0 then puts "\nDUMP_ERR\n"
    else
      emit buf
      dumpLoop start (i + 1) n

/-- `sd_dump` -/
def sdDump : Loader σ Unit := do
  let start ← recvU32
  let count ← recvU32
  if count = 0 ∨ 4096 < count then puts "DUMP_BAD\n"
  else
    let rc ← sdInit bus
    if rc ≠ 0 then puts "[sd] dump: init FAIL\r\n"
    else
      puts "DUMP_READY\n"
      dumpLoop bus start 0 count.toNat

/-! ### `sd_write_test` -/

/-- `TEST_LBA` -/
def testLba : BitVec 32 := 2048

/-- Where two buffers differ first. -/
def firstDiff : List Byte → List Byte → ℕ → Option ℕ
  | x :: xs, y :: ys, i => if x ≠ y then some i else firstDiff xs ys (i + 1)
  | _, _, _ => none

/-- `sd_write_test` -/
def sdWriteTest : Loader σ Unit := do
  let rc ← sdInit bus
  if rc ≠ 0 then puts "[sd] wr: init FAIL\r\n"
  else
    puts "SEND_512\n"
    let rx ← times rawRecv 512
    let rc ← sdWriteBlock bus testLba rx
    if rc ≠ 0 then
      puts "WRITE_FAIL rc="
      emit (hexRc rc)
      puts "\n"
    else
      -- what has been written is read back and compared
      let (rc, vf) ← sdReadBlock bus testLba
      if rc ≠ 0 then
        puts "READBACK_FAIL rc="
        emit (hexRc rc)
        puts "\n"
      else
        match firstDiff rx vf 0 with
        | some i =>
          puts "COMPARE_FAIL @"
          emit (puthex32 (BitVec.ofNat 32 i))
          puts "\n"
        | none => puts "WRITE_OK\n"

/-! ### `sd_write_multi` -/

/-- The sectors of a segment, from sector `i` on with `n` to go: whether all of them were written.
-/
def multiSectors (startLba : BitVec 32) : ℕ → ℕ → Loader σ Bool
  | _, 0 => pure true
  | i, n + 1 => do
    let rx ← times rawRecv 512
    let lba := startLba + BitVec.ofNat 32 i
    let rc ← sdWriteBlock bus lba rx
    if rc ≠ 0 then
      -- the sectors that the host still sends are left to the dispatcher
      puts "X"
      puts "\nMW_FAIL lba="
      emit (puthex32 lba)
      puts " rc="
      emit (hexRc rc)
      puts "\n"
      pure false
    else
      puts "K"
      multiSectors startLba (i + 1) n

/-- The segments, from segment `s` on with `n` to go, and what follows them. -/
def multiSegments : ℕ → ℕ → Loader σ Unit
  | _, 0 => puts "\nMW_DONE\n"
  | s, n + 1 => do
    let startLba ← recvU32
    let secCount ← recvU32
    if secCount = 0 ∨ 8192 < secCount then
      puts "\nMW_FAIL bad_count seg="
      emit (puthex32 (BitVec.ofNat 32 s))
      puts "\n"
    else
      let ok ← multiSectors bus startLba 0 secCount.toNat
      -- a sector that fails has said so already
      if ok then multiSegments (s + 1) n else pure ()

/-- `sd_write_multi` -/
def sdWriteMulti : Loader σ Unit := do
  let rc ← sdInit bus
  if rc ≠ 0 then puts "[sd] mw: init FAIL\r\n"
  else
    puts "MW_READY\n"
    let segCount ← recvU32
    if segCount = 0 ∨ 16 < segCount then puts "MW_FAIL bad_segs\n"
    else
      puts "MW_GO\n"
      multiSegments bus 0 segCount.toNat

/-! ### `sd_read_header` -/

/-- `sd_read_header` -/
def sdReadHeader : Loader σ Unit := do
  let rc ← sdInit bus
  if rc ≠ 0 then puts "[sd] rd: init FAIL\r\n"
  else
    let (rc, buf) ← sdReadBlock bus 0
    if rc ≠ 0 then puts "RD_FAIL\n"
    else
      puts "RD_READY\n"
      emit buf
      puts "\nRD_DONE\n"

/-! ### `sd_read_many` -/

/-- `sd_read_many` into the SDRAM, from sector `i` on with `n` to go. -/
def sdReadMany (lba dst : BitVec 32) : ℕ → ℕ → Loader σ ℤ
  | _, 0 => pure 0
  | i, n + 1 => do
    let (rc, buf) ← sdReadBlock bus (lba + BitVec.ofNat 32 i)
    -- what has been stored of the section stays
    if rc ≠ 0 then pure rc
    else
      storeBytes (dst + BitVec.ofNat 32 i * 512) buf
      sdReadMany lba dst (i + 1) n

end Neorv32Boot.Stage2
