import Neorv32Boot.Lib.Duplex
import Neorv32Boot.Sd.Card

/-!
# A card on the SPI bus

A card that follows the command protocol, byte by byte: it takes a frame of six bytes, answers with
an `R1` and what belongs to it, and sends or takes a sector.  The protocol leaves a lot to the card,
and it may answer any command with an error: what it chooses is a plan, for each command since each
reset.
-/

namespace Neorv32Boot.Spi

open Sd (Sector)

/-! ### What a card may choose -/

/-- An `R1` with an error. -/
structure ErrorR1 where
  byte : Byte
  isR1 : byte &&& 0x80 = 0
  isError : byte &&& 0x7E ≠ 0

/-- The byte that answers a data block: accepted, a CRC error or a write error. -/
structure DataResponse where
  byte : Byte
  known : byte &&& 0x1F = 0x05 ∨ byte &&& 0x1F = 0x0B ∨ byte &&& 0x1F = 0x0D

/-- How the card answers a command. -/
structure Answer where
  /-- the bytes before the `R1` -/
  delay : Fin 9
  /-- it answers with an error, although it could obey -/
  refuse : Bool
  /-- the `R1` when it does not obey -/
  error : ErrorR1
  /-- for `ACMD41`: the initialisation is over -/
  ready : Bool
  /-- for a read: the bytes before the data token, and the CRC of the data -/
  tokenDelay : ℕ
  crc : Byte × Byte
  /-- for a write: the data response, and for how many bytes the card is busy afterwards -/
  resp : DataResponse
  busy : ℕ

/-- A card.  The plan is for the command of a code that comes after so many of this code since the
reset of this number. -/
structure SdCard where
  /-- it is addressed in blocks -/
  hc : Bool
  /-- the number of sectors -/
  capacity : ℕ
  /-- the `OCR`, but for its two status bits -/
  ocr : BitVec 32
  plan : ℕ → Byte → ℕ → Answer

/-! ### The state of a card -/

/-- What the card does with the next bytes. -/
inductive Phase
  /-- it takes a frame, and has these bytes of it -/
  | ready (frame : List Byte)
  /-- it sends bytes, and goes on with `next` -/
  | send (b : Byte) (out : List Byte) (next : Phase)
  /-- it waits for the token of a data block -/
  | token (lba : BitVec 32) (ans : Answer)
  /-- it takes a data block, and has these bytes of it -/
  | block (lba : BitVec 32) (ans : Answer) (buf : List Byte)
  /-- it is busy for one more byte than this -/
  | busy (n : ℕ)

/-- The card sends these bytes first. -/
def Phase.say (next : Phase) : List Byte → Phase
  | [] => next
  | b :: out => .send b out next

/-- The card is busy for so many bytes. -/
def Phase.wait : ℕ → Phase
  | 0 => .ready []
  | n + 1 => .busy n

/-- The card is busy, whether it is selected or not. -/
def Phase.isBusy : Phase → Bool
  | .busy _ => true
  | _ => false

/-- A card that is released forgets what it was about, but it goes on with the programming. -/
def Phase.drop : Phase → Phase
  | .send _ _ next => next.drop
  | .busy n => .busy n
  | .ready _ | .token .. | .block .. => .ready []

/-- What the card keeps from command to command. -/
structure Core where
  /-- it is not initialised -/
  idle : Bool
  /-- the next command is an application command -/
  app : Bool
  blockLen : BitVec 32
  store : Sd.Card
  resets : ℕ
  counts : Byte → ℕ

structure State where
  selected : Bool
  phase : Phase
  core : Core

/-! ### Commands -/

namespace SdCard

variable (c : SdCard)

/-- The sector that an address means.  A byte-addressed card takes whole sectors only, and only
with this block length. -/
def locate (s : Core) (arg : BitVec 32) : Option (BitVec 32) :=
  if c.hc then
    if arg.toNat < c.capacity then some arg else none
  else if s.blockLen = 512 ∧ arg.toNat % 512 = 0 ∧ arg.toNat / 512 < c.capacity then
    some (arg / 512)
  else none

/-- The first byte of the `OCR`, with the bits that tell whether the card is initialised and how it
is addressed. -/
def ocrStatus (s : Core) : Byte :=
  (c.ocr.extractLsb' 24 8 &&& 0x3F) ||| (if s.idle then 0x00 else 0x80) |||
    (if c.hc && !s.idle then 0x40 else 0x00)

/-- The card obeys a command: what it sends after the `R1`, how it goes on, and what it keeps.
There is no result for a command that it cannot obey. -/
def perform (ans : Answer) (cmd : Byte) (arg : BitVec 32) (s : Core) :
    Option (List Byte × Phase × Core) :=
  match cmd.toNat with
  | 0 => some ([], .ready [], { s with idle := true, app := false })
  | 8 =>
    if s.idle then
      some ([0, 0, arg.extractLsb' 8 8 &&& 0x0F, arg.extractLsb' 0 8], .ready [],
        { s with app := false })
    else none
  | 55 => some ([], .ready [], { s with app := true })
  | 41 =>
    if s.app then
      -- a block-addressed card waits for a host that knows such cards
      let up := ans.ready && (!c.hc || arg.getLsbD 30)
      some ([], .ready [], { s with idle := s.idle && !up, app := false })
    else none
  | 58 =>
    some ([c.ocrStatus s, c.ocr.extractLsb' 16 8, c.ocr.extractLsb' 8 8, c.ocr.extractLsb' 0 8],
      .ready [], { s with app := false })
  | 16 => if s.idle then none else some ([], .ready [], { s with blockLen := arg, app := false })
  | 17 =>
    if s.idle then none else
    match c.locate s arg with
    | none => none
    | some lba =>
      some (List.replicate ans.tokenDelay 0xFF ++ 0xFE :: ((s.store lba).bytes ++
        [ans.crc.1, ans.crc.2]), .ready [], { s with app := false })
  | 24 =>
    if s.idle then none else
    match c.locate s arg with
    | none => none
    | some lba => some ([], .token lba ans, { s with app := false })
  | _ => none

/-- The card obeys a command, if it chooses to. -/
def obey (ans : Answer) (cmd : Byte) (arg : BitVec 32) (s : Core) :
    Option (List Byte × Phase × Core) :=
  if ans.refuse then none else c.perform ans cmd arg s

/-- One more command of this code.  A reset begins the counts anew. -/
def count (cmd : Byte) (s : Core) : Core :=
  if cmd = 0 then { s with resets := s.resets + 1, counts := Function.update (fun _ => 0) 0 1 }
  else { s with counts := Function.update s.counts cmd (s.counts cmd + 1) }

/-- The plan for the next command of this code. -/
def answer (cmd : Byte) (s : Core) : Answer :=
  if cmd = 0 then c.plan (s.resets + 1) 0 0 else c.plan s.resets cmd (s.counts cmd)

/-- A command: its `R1`, what follows it, how the card goes on, and the new state. -/
def command (cmd : Byte) (arg : BitVec 32) (s : Core) : Byte × List Byte × Phase × Core :=
  match c.obey (c.answer cmd s) cmd arg (count cmd s) with
  | some (tail, next, s') => (if s'.idle then 0x01 else 0x00, tail, next, s')
  | none => ((c.answer cmd s).error.byte, [], .ready [], { count cmd s with app := false })

/-- The argument in a frame. -/
def frameArg (frame : List Byte) : BitVec 32 :=
  BitVec.ofNat 32 (Bytes.ofLE ((frame.drop 1).take 4).reverse)

/-- A frame of six bytes is complete. -/
def takeFrame (frame : List Byte) (s : State) : State :=
  let cmd := frame.getD 0 0 &&& 0x3F
  let r := c.command cmd (frameArg frame) s.core
  { s with
    phase := r.2.2.1.say
      (List.replicate (c.answer cmd s.core).delay.val 0xFF ++ r.1 :: r.2.1)
    core := r.2.2.2 }

/-- A data block and its CRC are complete. -/
def takeBlock (lba : BitVec 32) (ans : Answer) (buf : List Byte) (s : State) : State :=
  if ans.resp.byte &&& 0x1F = 0x05 then
    { s with
      phase := (Phase.wait ans.busy).say [ans.resp.byte]
      core := { s.core with store := s.core.store.write [(lba, Sd.sectorAt buf 0)] } }
  else { s with phase := (Phase.ready []).say [ans.resp.byte] }

/-- One byte in each direction. -/
def xchg (tx : Byte) (s : State) : Byte × State :=
  if s.selected then
    match s.phase with
    | .ready [] => (0xFF, { s with phase := .ready (if tx &&& 0xC0 = 0x40 then [tx] else []) })
    | .ready frame =>
      (0xFF, if frame.length + 1 < 6 then { s with phase := .ready (frame ++ [tx]) }
        else c.takeFrame (frame ++ [tx]) s)
    | .send b out next => (b, { s with phase := next.say out })
    | .token lba ans => (0xFF, if tx = 0xFE then { s with phase := .block lba ans [] } else s)
    | .block lba ans buf =>
      (0xFF, if buf.length + 1 < 514 then { s with phase := .block lba ans (buf ++ [tx]) }
        else takeBlock lba ans (buf ++ [tx]) s)
    | .busy n => (0x00, { s with phase := .wait n })
  else
    match s.phase with
    -- the programming goes on
    | .busy n => (0xFF, { s with phase := .wait n })
    | _ => (0xFF, s)

def select (on : Bool) (s : State) : State :=
  { s with selected := on, phase := if on then s.phase else s.phase.drop }

/-- The card on the bus. -/
def bus : Bus Byte State where
  xchg := c.xchg
  select := select

end SdCard

end Neorv32Boot.Spi
