import Neorv32Boot.Lib.Prog
import Neorv32Boot.Sd.Boot
import Neorv32Boot.Sd.MultiWrite
import Neorv32Boot.Spi.Driver

/-!
# The world of stage2

What the program in `sw/stage2_loader` works on: the serial line in both directions, a device on the
SPI bus with the driver's one variable, and the SDRAM.  The input is what the calls that read the
line come to, in order: a byte, or `none` when it stays silent until the timer of the call has run
out.  At the end of the input the program waits for what has not come yet.
-/

namespace Neorv32Boot.Stage2

open Sd (OnXbus Ram)

/-- The world.  `σ` is the state of the device on the bus. -/
structure World (σ : Type) where
  input : List (Option Byte)
  output : List Byte
  card : σ
  /-- `sd_is_hc` -/
  isHc : Bool
  ram : Ram
  /-- what the divider of the UART was last set up for -/
  baud : BitVec 32

/-- Why stage2 does not go on. -/
inductive Stop
  /-- it waits for input -/
  | waiting
  /-- `while (1) {}` -/
  | halted
  /-- it has gone to the code at `pc`, with these in `a0` and `a1` -/
  | jumped (pc : BitVec 32) (args : List (BitVec 32))
  /-- it stores where the XBUS is not, and so over its own memory: what comes of it is not said -/
  | astray

/-- The functions of stage2. -/
abbrev Loader (σ α : Type) : Type := Prog (World σ) Stop α

variable {σ : Type}

/-! ### The serial line -/

/-- What comes of the serial line, without the silences. -/
def bytes (input : List (Option Byte)) : List Byte := input.filterMap id

/-- `uart_getc_timeout`: `none` when the timer runs out. -/
def getc : Loader σ (Option Byte) := do
  let w ← get
  match w.input with
  | [] => throw .waiting
  | c :: input =>
    set { w with input := input }
    pure c

/-- The first byte of an input, and what is left behind it. -/
def nextByte : List (Option Byte) → Option (Byte × List (Option Byte))
  | [] => none
  | none :: input => nextByte input
  | some b :: input => some (b, input)

/-- `uart_raw_recv`, which waits without a timer. -/
def rawRecv : Loader σ Byte := do
  let w ← get
  match nextByte w.input with
  | none =>
    set { w with input := [] }
    throw .waiting
  | some (b, input) =>
    set { w with input := input }
    pure b

/-- `recv_u32` -/
def recvU32 : Loader σ (BitVec 32) := do
  let bs ← Prog.times rawRecv 4
  pure (Sd.recvU32 bs)

/-- Bytes go out. -/
def emit (bs : List Byte) : Loader σ Unit := modify fun w => { w with output := w.output ++ bs }

/-- `uart_puts` of an ASCII text. -/
def puts (s : String) : Loader σ Unit := emit (ascii s)

/-- The result of a driver function as `uart_puthex32` prints it. -/
def hexRc (rc : ℤ) : List Byte := puthex32 (BitVec.ofInt 32 rc)

/-- A dash, in UTF-8. -/
def dash : List Byte := [0xE2, 0x80, 0x94]

/-- `while (1) {}` -/
def halt {α : Type} : Loader σ α := throw .halted

/-! ### The driver

A buffer is looked at only after a read into it that has returned 0, and such a read fills it; what
it holds before is left out. -/

section Driver

variable (bus : Bus Byte σ)

/-- `sd_init` -/
def sdInit : Loader σ ℤ := do
  let w ← get
  let r := Spi.sdInit bus w.card
  set { w with card := r.2, isHc := r.1.2 }
  pure r.1.1

/-- `sd_read_block`: its result, and the bytes that it has read. -/
def sdReadBlock (lba : BitVec 32) : Loader σ (ℤ × List Byte) := do
  let w ← get
  let r := Spi.sdReadBlock bus w.isHc lba [] w.card
  set { w with card := r.2 }
  pure r.1

/-- `sd_write_block` -/
def sdWriteBlock (lba : BitVec 32) (src : List Byte) : Loader σ ℤ := do
  let w ← get
  let r := Spi.sdWriteBlock bus w.isHc lba src w.card
  set { w with card := r.2 }
  pure r.1

end Driver

/-! ### The SDRAM -/

/-- Bytes are stored at rising addresses.  The loads need no such check: the program loads what it
has stored, or from fixed addresses of the SDRAM. -/
def storeBytes (a : BitVec 32) (bs : List Byte) : Loader σ Unit :=
  if OnXbus a bs.length then modify fun w => { w with ram := w.ram.storeBytes a bs }
  else throw .astray

/-- So many bytes of the SDRAM. -/
def loadBytes (m : Ram) (a : BitVec 32) (n : ℕ) : List Byte :=
  (List.range n).map fun i => m.load (a + BitVec.ofNat 32 i)

/-- A word of the SDRAM. -/
def loadWord (m : Ram) (a : BitVec 32) : BitVec 32 := BitVec.ofNat 32 (Bytes.ofLE (loadBytes m a 4))

/-! ### Input -/

@[simp] lemma bytes_cons_none (input : List (Option Byte)) : bytes (none :: input) = bytes input :=
  rfl

@[simp] lemma bytes_cons_some (b : Byte) (input : List (Option Byte)) :
    bytes (some b :: input) = b :: bytes input := rfl

lemma bytes_append (input more : List (Option Byte)) :
    bytes (input ++ more) = bytes input ++ bytes more :=
  List.filterMap_append

lemma bytes_map_some (bs : List Byte) : bytes (bs.map some) = bs := by
  induction bs with
  | nil => rfl
  | cons b bs ih => rw [List.map_cons, bytes_cons_some, ih]

/-- The first byte, where there is one. -/
lemma nextByte_eq_none {input : List (Option Byte)} : nextByte input = none ↔ bytes input = [] := by
  induction input with
  | nil => exact ⟨fun _ => rfl, fun _ => rfl⟩
  | cons c input ih =>
    cases c with
    | none => exact ih
    | some b => simp [nextByte]

lemma nextByte_eq_some {input rest : List (Option Byte)} {b : Byte}
    (h : nextByte input = some (b, rest)) :
    ∃ silence, input = silence ++ some b :: rest ∧ bytes silence = [] := by
  induction input with
  | nil => cases h
  | cons c input ih =>
    cases c with
    | none =>
      obtain ⟨silence, rfl, hs⟩ := ih h
      exact ⟨none :: silence, rfl, hs⟩
    | some b' =>
      obtain ⟨rfl, rfl⟩ : b' = b ∧ input = rest := by simpa [nextByte] using h
      exact ⟨[], rfl, rfl⟩

end Neorv32Boot.Stage2
