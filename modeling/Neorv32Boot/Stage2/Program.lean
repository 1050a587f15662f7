import Neorv32Boot.Sd.Paths
import Neorv32Boot.Stage2.Console
import Neorv32Boot.Stage2.Modes

/-!
# The program of stage2

`sw/stage2_loader/main.c` over any device on the bus: the XMODEM receiver, the modes that boot, the
change of the baud rate, and the dispatcher.  A call of `uboot` does not return.  The test of
`fence.i`, which is compiled in on request only, and the trap handler are left out.
-/

namespace Neorv32Boot.Stage2

open Prog (loop times)
open Sd (kernelLoadAddr dtbLoadAddr initrdLoadAddr patchDtbInitrdEnd testAddr execTest)
open Xmodem (can checksum eot nak retryMax soh)

variable {σ : Type} (bus : Bus Byte σ)

/-! ### `sdram_test` -/

/-- The second loop of `sdram_test`: the number of wrong words, up to the fifth. -/
def checkWords (base : BitVec 32) : ℕ → ℕ → ℕ → Loader σ ℕ
  | _, 0, errors => pure errors
  | i, n + 1, errors => do
    let got := loadWord (← get).ram (base + BitVec.ofNat 32 (4 * i))
    let exp := 0xDEAD0000 ||| BitVec.ofNat 32 i
    if got ≠ exp then
      puts "  FAIL["
      emit (puthex32 (BitVec.ofNat 32 i))
      puts "]: exp="
      emit (puthex32 exp)
      puts " got="
      emit (puthex32 got)
      puts "\r\n"
      -- `break` behind the fifth line
      if 4 < errors + 1 then pure (errors + 1) else checkWords base (i + 1) n (errors + 1)
    else checkWords base (i + 1) n errors

/-- `sdram_test` -/
@[irreducible]
def sdramTest : Loader σ Bool := do
  let base : BitVec 32 := 0x41F00000
  puts "[stage2] SDRAM word-write test...\r\n"
  Prog.upFrom (fun i => storeBytes (base + BitVec.ofNat 32 (4 * i))
    (Bytes.toLE 4 (0xDEAD0000 ||| BitVec.ofNat 32 i : BitVec 32).toNat)) 0 64
  let errors ← checkWords base 0 64 0
  if errors = 0 then
    puts "[stage2] SDRAM test PASS\r\n"
    pure true
  else pure false

/-! ### `xmodem_receive` -/

/-- The variables of the loop of `xmodem_receive`. -/
structure Xfer where
  blkNum : Byte
  total : BitVec 32
  retries : ℕ

/-- The loop that receives a block: it gives up when a byte does not come in time. -/
def recvBlock : ℕ → Loader σ (Option (List Byte))
  | 0 => pure (some [])
  | n + 1 => do
    match ← getc with
    | none => pure none
    | some b =>
      let rest ← recvBlock n
      pure (rest.map (b :: ·))

/-- A `NAK`, and the loop goes on. -/
def nakRound (x : Xfer) : Loader σ (Xfer ⊕ BitVec 32) := do
  emit [nak]
  pure (.inl x)

/-- `xmodem_receive` behind a `SOH`. -/
def xmodemFrame (dest : BitVec 32) (x : Xfer) : Loader σ (Xfer ⊕ BitVec 32) := do
  let bn ← getc
  let bnc ← getc
  match bn, bnc with
  | some bn, some bnc =>
    match ← recvBlock 128 with
    | none => nakRound x
    | some buf =>
      match ← getc with
      | none => nakRound x
      | some recvCsum =>
        -- a byte that is late costs no retry, a wrong frame does
        if bn ≠ x.blkNum ∨ bnc ≠ ~~~x.blkNum ∨ recvCsum ≠ checksum buf then
          nakRound { x with retries := x.retries + 1 }
        else
          storeBytes (dest + x.total) buf
          emit [Xmodem.ack]
          pure (.inl ⟨x.blkNum + 1, x.total + 128, 0⟩)
  | _, _ => nakRound x

/-- A round of the loop of `xmodem_receive`. -/
def xmodemRound (dest : BitVec 32) (x : Xfer) : Loader σ (Xfer ⊕ BitVec 32) := do
  match ← getc with
  | none =>
    if retryMax < x.retries + 1 then
      emit [can]
      emit [can]
      puts "\r\n[!] xmodem timeout\r\n"
      pure (.inr 0)
    else
      puts "\r\n[stage2] waiting for sender (NAK)...\r\n"
      nakRound { x with retries := x.retries + 1 }
  | some c =>
    if c = eot then
      emit [Xmodem.ack]
      pure (.inr x.total)
    else if c = can then
      puts "\r\n[!] xmodem cancelled\r\n"
      pure (.inr 0)
    -- noise before a frame is skipped without an answer
    else if c ≠ soh then pure (.inl x)
    else xmodemFrame dest x

/-- How much input there is. -/
def World.size (w : World σ) : ℕ := w.input.length

/-- `xmodem_receive` -/
def xmodemReceive (dest : BitVec 32) : Loader σ (BitVec 32) := do
  emit [nak]
  loop World.size .waiting (xmodemRound dest) ⟨1, 0, 0⟩

/-- `crc32` of the SDRAM from `dest` on. -/
def crcAt (dest size : BitVec 32) : Loader σ (BitVec 32) := do
  pure (crc32 (loadBytes (← get).ram dest size.toNat))

/-- `xmodem_receive_verified` -/
def xmodemReceiveVerified (dest : BitVec 32) (name : String) : Loader σ (BitVec 32) := do
  puts "[stage2] send "
  puts name
  puts " via xmodem\r\n"
  let size ← xmodemReceive dest
  if size = 0 then
    puts "[!] "
    puts name
    puts " xmodem FAILED\r\n"
    pure 0
  else
    let crc ← crcAt dest size
    puts "[stage2] "
    puts name
    puts " size="
    emit (puthex32 size)
    puts " CRC:"
    emit (puthex32 crc)
    puts "\r\n"
    let resp ← getc
    -- a host that does not answer is taken to agree
    if resp = some nak then
      puts "[!] CRC mismatch for "
      puts name
      puts " "
      emit dash
      puts " halting\r\n"
      pure 0
    else pure size

/-! ### `mode_uboot` -/

/-- The address at the start of a line of `dump_words`. -/
def dumpHead (a : BitVec 32) (i : ℕ) : Loader σ Unit := do
  if i % 4 = 0 then
    puts "\r\n  "
    emit (puthex32 a)
    puts ": "
  else pure ()

/-- A round of the loop of `dump_words`. -/
def dumpWord (addr : BitVec 32) (i : ℕ) : Loader σ Unit := do
  let a := addr + BitVec.ofNat 32 (4 * i)
  dumpHead a i
  emit (puthex32 (loadWord (← get).ram a))
  puts " "

/-- `dump_words` -/
def dumpWords (addr : BitVec 32) (n : ℕ) : Loader σ Unit := do
  Prog.upFrom (dumpWord addr) 0 n
  puts "\r\n"

/-- `UBOOT_LOAD_ADDR` -/
def ubootLoadAddr : BitVec 32 := 0x40000000

/-- The report of a transfer. -/
def reportSize (head : String) (size crc : BitVec 32) : Loader σ Unit := do
  puts head
  emit (puthex32 size)
  puts " CRC:"
  emit (puthex32 crc)
  puts "\r\n"

/-- The second transfer of `mode_uboot`. -/
def retryUboot : Loader σ Unit := do
  puts "[stage2] CRC MISMATCH "
  emit dash
  puts " retrying xmodem...\r\n"
  let size ← xmodemReceive ubootLoadAddr
  if size = 0 then
    puts "[stage2] xmodem retry FAILED\r\n"
    halt
  else
    let crc ← crcAt ubootLoadAddr size
    reportSize "[stage2] retry size=" size crc
    let resp ← getc
    if resp ≠ some Xmodem.ack then
      puts "[stage2] CRC still bad "
      emit dash
      puts " halting\r\n"
      halt
    else pure ()

/-- What `mode_uboot` makes of the answer to its CRC. -/
def settleCrc (resp : Option Byte) : Loader σ Unit := do
  if resp = some nak then retryUboot
  else if resp ≠ some Xmodem.ack then puts "[stage2] no CRC response, proceeding anyway\r\n"
  else pure ()

/-- `mode_uboot` -/
def modeUboot : Loader σ Unit := do
  puts "[stage2] Mode: U-Boot loader\r\n"
  puts "[stage2] send U-Boot via xmodem at 115200 baud\r\n"
  let size ← xmodemReceive ubootLoadAddr
  if size = 0 then
    puts "[stage2] xmodem FAILED\r\n"
    halt
  else
    let crc ← crcAt ubootLoadAddr size
    reportSize "[stage2] size=" size crc
    let resp ← getc
    settleCrc resp
    dumpWords ubootLoadAddr 16
    puts "[stage2] jumping to SDRAM 0x40000000...\r\n"
    throw (.jumped ubootLoadAddr [])

/-! ### `mode_set_baud` -/

/-- `mode_set_baud` -/
def modeSetBaud : Loader σ Unit := do
  let baud ← recvU32
  if baud < 9600 ∨ 2000000 < baud then puts "BAUD_BAD\n"
  else
    puts "BAUD_SWITCH\n"
    -- the probe comes at the new rate
    modify fun w => { w with baud := baud }
    let _ ← rawRecv
    puts "BAUD_OK\n"

/-! ### `mode_sd_boot` -/

/-- `patch_dtb_initrd_end`: how many cells it has patched. -/
def patchDtb (dtb : BitVec 32) (dtbLen : ℕ) (initrdSize : BitVec 32) : Loader σ ℕ := do
  let r := patchDtbInitrdEnd (← get).ram dtb dtbLen initrdSize
  modify fun w => { w with ram := r.1 }
  puts "[dtb] initrd-end="
  emit (puthex32 (initrdLoadAddr + initrdSize))
  puts " patched="
  emit (puthex32 (BitVec.ofNat 32 r.2))
  puts "\r\n"
  pure r.2

/-- `jump_to_kernel` -/
def jumpToKernel : Loader σ Unit := throw (.jumped kernelLoadAddr [0, dtbLoadAddr])

/-- A halt without a sentinel. -/
def noSentinel : Loader σ Unit := do
  puts "[!] DTB sentinel not found "
  emit dash
  puts " halting\r\n"
  halt

/-- `mode_sd_boot` behind the check of the magic. -/
def bootSections (h : Sd.SdBootHdr) : Loader σ Unit := do
  puts "[sd] image_sz="
  emit (puthex32 h.imageSz)
  puts " dtb_sz="
  emit (puthex32 h.dtbSz)
  puts " initrd_sz="
  emit (puthex32 h.initrdSz)
  puts "\r\n"
  let imgBlks := (h.imageSz + 511) / 512
  let dtbBlks := (h.dtbSz + 511) / 512
  let irdBlks := (h.initrdSz + 511) / 512
  puts "[sd] reading Image\r\n"
  let rc ← sdReadMany bus h.imageLba kernelLoadAddr 0 imgBlks.toNat
  if rc ≠ 0 then
    puts "[sd] img read FAIL\r\n"
    halt
  else
  puts "[sd] reading DTB\r\n"
  let rc ← sdReadMany bus h.dtbLba dtbLoadAddr 0 dtbBlks.toNat
  if rc ≠ 0 then
    puts "[sd] dtb read FAIL\r\n"
    halt
  else
  puts "[sd] reading initrd\r\n"
  let rc ← sdReadMany bus h.initrdLba initrdLoadAddr 0 irdBlks.toNat
  if rc ≠ 0 then
    puts "[sd] initrd read FAIL\r\n"
    halt
  else
  -- the patch runs over whole sectors, padding included
  let patched ← patchDtb dtbLoadAddr (dtbBlks * 512).toNat h.initrdSz
  if patched ≠ 1 then noSentinel
  else
  puts "[stage2] Kernel header:\r\n"
  dumpWords kernelLoadAddr 4
  puts "[stage2] Booting Linux from SD...\r\n"
  jumpToKernel

/-- `mode_sd_boot` -/
def modeSdBoot : Loader σ Unit := do
  puts "[stage2] Mode: SD blob boot\r\n"
  let rc ← sdInit bus
  if rc ≠ 0 then
    puts "[sd] init FAIL\r\n"
    halt
  else
  let (rc, hdrBuf) ← sdReadBlock bus 0
  if rc ≠ 0 then
    puts "[sd] read hdr FAIL\r\n"
    halt
  else if hdrBuf.take 8 ≠ Sd.magic then
    puts "[sd] bad magic\r\n"
    halt
  else bootSections bus (.ofSector (Sd.sectorAt hdrBuf 0))

/-! ### `mode_linux` -/

/-- A name, a number and what follows it. -/
def putsHex (head : String) (v : BitVec 32) (tail : String) : Loader σ Unit := do
  puts head
  emit (puthex32 v)
  puts tail

/-- The call of the routine that prints a letter.  Where it is not in the SDRAM, the CPU goes on
with what is there. -/
def callTest (a : BitVec 32) : Loader σ Unit := do
  if loadBytes (← get).ram a execTest.length = execTest then puts "K"
  else throw (.jumped a [])

/-- `mode_linux` behind the patch. -/
def launch (kernelSize dtbSize initrdSize : BitVec 32) : Loader σ Unit := do
  puts "\r\n[stage2] All payloads loaded:\r\n"
  putsHex "  Kernel:  " kernelSize " bytes\r\n"
  putsHex "  DTB:     " dtbSize " bytes\r\n"
  putsHex "  Initrd:  " initrdSize " bytes\r\n"
  puts "\r\n[stage2] Kernel header:\r\n"
  dumpWords kernelLoadAddr 8
  puts "[stage2] DTB header:\r\n"
  dumpWords dtbLoadAddr 4
  puts "[stage2] Booting Linux...\r\n"
  puts "  a0 = 0 (hartid)\r\n"
  putsHex "  a1 = " dtbLoadAddr " (DTB)\r\n"
  putsHex "  PC = " kernelLoadAddr " (kernel)\r\n"
  putsHex "[stage2] SDRAM exec test @" (testAddr kernelSize) "\r\n"
  storeBytes (testAddr kernelSize) execTest
  callTest (testAddr kernelSize)
  puts " "
  emit [0xE2, 0x86, 0x90]
  puts " SDRAM exec OK\r\n"
  jumpToKernel

/-- `mode_linux` -/
def modeLinux : Loader σ Unit := do
  puts "[stage2] Mode: Linux direct boot\r\n"
  puts "[stage2] Memory layout:\r\n"
  putsHex "  Kernel:    " kernelLoadAddr "\r\n"
  putsHex "  DTB:       " dtbLoadAddr "\r\n"
  putsHex "  Initramfs: " initrdLoadAddr "\r\n"
  let kernelSize ← xmodemReceiveVerified kernelLoadAddr "kernel"
  if kernelSize = 0 then halt
  else
  let dtbSize ← xmodemReceiveVerified dtbLoadAddr "DTB"
  if dtbSize = 0 then halt
  else
  let initrdSize ← xmodemReceiveVerified initrdLoadAddr "initramfs"
  if initrdSize = 0 then halt
  else
  let patched ← patchDtb dtbLoadAddr dtbSize.toNat initrdSize
  if patched ≠ 1 then noSentinel
  else launch kernelSize dtbSize initrdSize

/-! ### The dispatcher -/

/-- The mode of a command. -/
def mode : Option Byte → Loader σ Unit
  | some 0x6C => modeLinux
  | some 0x62 => modeSdBoot bus
  | some 0x64 => sdDump bus
  | some 0x73 => sdSmoke bus
  | some 0x77 => sdWriteTest bus
  | some 0x57 => sdWriteMulti bus
  | some 0x52 => sdReadHeader bus
  | some 0x42 => modeSetBaud
  | _ => modeUboot

/-- A round of the dispatcher: it waits for the next command without an end. -/
def command (c : Option Byte) : Loader σ (Option Byte ⊕ Empty) := do
  -- only the modes that return come behind this
  mode bus c
  emit readyText
  let b ← rawRecv
  pure (.inl (some b))

/-- The dispatcher with a command. -/
def dispatch (c : Option Byte) : Loader σ Empty := loop World.size .waiting (command bus) c

/-- `main` up to its prompt. -/
def startUp (clk : BitVec 32) : Loader σ Unit := do
  modify fun w => { w with baud := 115200 }
  puts "\r\n[stage2] ready - RV32IMAC NEORV32 loader\r\n"
  putsHex "[stage2] CLK=" clk "\r\n"
  let pass ← sdramTest
  if !pass then
    puts "[stage2] SDRAM FAIL - halting\r\n"
    halt
  else
    puts "[stage2] l=xmodem s=smoke d=dump w=wtest W=wmulti R=rdhdr B=baud b=bootSD else=U-Boot\r\n"

/-- `main`.  The first command does not come at all when it does not come in time. -/
def main (clk : BitVec 32) : Loader σ Empty := do
  startUp clk
  let c ← getc
  dispatch bus c

end Neorv32Boot.Stage2
