import Neorv32Boot.Sd.Dump
import Neorv32Boot.Sd.Fidelity
import Neorv32Boot.Sd.ReadBack
import Neorv32Boot.Spi.Sound
import Neorv32Boot.Stage2.OnCard
import Neorv32Boot.Stage2.Program

/-!
# Requests

What the host can ask of stage2 without leaving its dispatcher, as the bytes of the requests and as
what they come to: an answer, and what is on the card.  On a card without faults, every mode does
this to what can be seen of the world.
-/

namespace Neorv32Boot.Stage2

open Prog
open Sd (Card Sector Segment Ram)
open Spi (SdCard State)

/-! ### What can be seen -/

/-- The world without the inside of the card. -/
structure View where
  input : List Byte
  output : List Byte
  card : Card
  ram : Ram
  baud : BitVec 32

/-- What can be seen of the world. -/
def World.view (w : World State) : View := ⟨bytes w.input, w.output, w.store, w.ram, w.baud⟩

/-- The program prints something. -/
def View.say (v : View) (bs : List Byte) : View := { v with output := v.output ++ bs }

/-- This is what is still to be read. -/
def View.pending (v : View) (bs : List Byte) : View := { v with input := bs }

/-- This is on the card. -/
def View.stored (v : View) (c : Card) : View := { v with card := c }

@[simp] lemma View.say_say (v : View) (bs cs : List Byte) :
    (v.say bs).say cs = v.say (bs ++ cs) := by
  simp [View.say]

@[simp] lemma View.say_card (v : View) (bs : List Byte) : (v.say bs).card = v.card := rfl

@[simp] lemma View.pending_card (v : View) (bs : List Byte) : (v.pending bs).card = v.card := rfl

@[simp] lemma View.stored_card (v : View) (c : Card) : (v.stored c).card = c := rfl

/-- What has been said is moved out of the way of what is read. -/
@[simp] lemma View.pending_say (v : View) (bs cs : List Byte) :
    (v.pending bs).say cs = (v.say cs).pending bs := rfl

@[simp] lemma View.pending_stored (v : View) (bs : List Byte) (c : Card) :
    (v.pending bs).stored c = (v.stored c).pending bs := rfl

@[simp] lemma View.stored_say (v : View) (c : Card) (bs : List Byte) :
    (v.say bs).stored c = (v.stored c).say bs := rfl

@[simp] lemma View.stored_stored (v : View) (c c' : Card) : (v.stored c).stored c' = v.stored c' :=
  rfl

/-! ### Requests -/

/-- A request to the dispatcher. -/
inductive Request
  | dump (start count : BitVec 32)
  | smoke
  | writeTest (data : Sector)
  | writeMulti (segments : List Segment)
  | readHeader
  | setBaud (baud : BitVec 32) (probe : Byte)

/-- The bytes of a segment: its header, and its sectors. -/
def segmentBytes (s : Segment) : List Byte :=
  Bytes.toLE 4 s.startLba ++ Bytes.toLE 4 s.secCount ++ s.data

/-- The baud rates that stage2 takes. -/
def baudOk (baud : BitVec 32) : Bool := !(baud < 9600 || 2000000 < baud)

namespace Request

/-- The mode byte. -/
def code : Request → Byte
  | dump .. => 0x64
  | smoke => 0x73
  | writeTest _ => 0x77
  | writeMulti _ => 0x57
  | readHeader => 0x52
  | setBaud .. => 0x42

/-- What the host sends behind the mode byte. -/
def payload : Request → List Byte
  | dump start count => Bytes.toLE 4 start.toNat ++ Bytes.toLE 4 count.toNat
  | smoke | readHeader => []
  | writeTest data => data.bytes
  | writeMulti segments => Bytes.toLE 4 segments.length ++ segments.flatMap segmentBytes
  | setBaud baud probe => Bytes.toLE 4 baud.toNat ++ if baudOk baud then [probe] else []

/-- The bytes of a request. -/
def wire (r : Request) : List Byte := r.code :: r.payload

/-- The answer of `sd_smoke` for this sector. -/
def smokeText (hc : Bool) (s : Sector) : List Byte :=
  ascii "[sd] init...\r\n" ++ ascii "[sd] init OK, SDHC=" ++ ascii (if hc then "1" else "0") ++
    ascii "\r\n" ++ ascii "[sd] LBA0 first 32 bytes:\r\n  " ++ hexBytes s.bytes ++
    ascii "\r\n[sd] magic=" ++ puthex32 (BitVec.ofNat 32 (Bytes.leAt 4 s.bytes 0)) ++
    ascii (magicText s.bytes)

/-- The answer to a request, with this on the card.  `hc` is how the card is addressed. -/
def answer (hc : Bool) (c : Card) : Request → List Byte
  | dump start count => Sd.Serial.sdDump true (fun l => some (c l)) (payload (dump start count))
  | smoke => smokeText hc (c 0)
  | writeTest _ => ascii "SEND_512\n" ++ ascii "WRITE_OK\n"
  | writeMulti segments => Sd.mwReady ++ Sd.mwGo ++
      List.replicate (segments.map Segment.secCount).sum 0x4B ++ ascii "\nMW_DONE\n"
  | readHeader => Sd.Serial.sdReadHeader true fun l => some (c l)
  | setBaud baud _ => if baudOk baud then ascii "BAUD_SWITCH\n" ++ ascii "BAUD_OK\n"
      else ascii "BAUD_BAD\n"

/-- What is on the card after a request. -/
def effect (c : Card) : Request → Card
  | writeTest data => c.write [(testLba, data)]
  | writeMulti segments => c.write (segments.flatMap Segment.writes)
  | dump .. | smoke | readHeader | setBaud .. => c

/-- What a request does to what can be seen. -/
def serve (hc : Bool) (r : Request) (v : View) : View where
  input := v.input
  output := v.output ++ r.answer hc v.card
  card := r.effect v.card
  ram := v.ram
  baud := match r with
    | setBaud baud _ => if baudOk baud then baud else v.baud
    | _ => v.baud

/-- The request is about sectors of a card of this size. -/
def Valid (capacity : ℕ) : Request → Prop
  | dump start count => count ≤ 4096 → start.toNat + count.toNat ≤ capacity
  | smoke | readHeader => 0 < capacity
  | writeTest _ => testLba.toNat < capacity
  | writeMulti segments => (1 ≤ segments.length ∧ segments.length ≤ 16) ∧
      ∀ s ∈ segments, s.Ok ∧ s.startLba + s.secCount ≤ capacity
  | setBaud .. => True

end Request

/-! ### A card without faults -/

/-- The card and the driver are as `K` says, and this can be seen. -/
structure Shows (K : State → Bool → Prop) (v : View) (w : World State) : Prop where
  card : K w.card w.isHc
  view : w.view = v

/-- The card is at rest. -/
def Rested (s : State) (_ : Bool) : Prop := ∃ k, s = ⟨false, .ready [], k⟩

/-- The driver has initialised the card. -/
def UpFor (c : SdCard) (s : State) (isHc : Bool) : Prop :=
  (∃ k, s = ⟨false, .ready [], k⟩ ∧ c.Up k) ∧ isHc = c.hc

lemma UpFor.rested {c : SdCard} {s : State} {isHc : Bool} (h : UpFor c s isHc) : Rested s isHc := by
  obtain ⟨⟨k, hk, -⟩, -⟩ := h
  exact ⟨k, hk⟩

section Line

variable {K : State → Bool → Prop} {w : World State} {v : View} {E : Stop → World State → Prop}

/-- Something is printed. -/
lemma Shows.say (h : Shows K v w) (bs : List Byte) :
    Shows K (v.say bs) { w with output := w.output ++ bs } := by
  obtain ⟨hcard, rfl⟩ := h
  exact ⟨hcard, rfl⟩

lemma Shows.emit (h : Shows K v w) (bs : List Byte) :
    wp (emit bs) (fun _ => Shows K (v.say bs)) E w := h.say bs

lemma Shows.puts (h : Shows K v w) (s : String) :
    wp (puts s) (fun _ => Shows K (v.say (ascii s))) E w := h.say _

/-- Bytes of a request are read. -/
lemma Shows.recv {bs rest : List Byte} (h : Shows K (v.pending (bs ++ rest)) w) {n : ℕ}
    (hlen : bs.length = n) :
    wp (times rawRecv n)
      (fun got w' => got = bs ∧ Shows K (v.pending rest) w') E w := by
  have hin : bytes w.input = bs ++ rest := congrArg View.input h.view
  refine wp_times_rawRecv _ ?_ ?_
  · intro hlt
    rw [hin, List.length_append] at hlt
    omega
  · intro got used left hw hgot hgot'
    rw [hw, bytes_append, hgot] at hin
    obtain ⟨rfl, hleft⟩ := List.append_inj hin (hgot'.trans hlen.symm)
    refine ⟨rfl, h.card, ?_⟩
    rw [← hleft]
    exact congrArg (fun u : View => u.pending (bytes left)) h.view

lemma Shows.recvByte {b : Byte} {rest : List Byte} (h : Shows K (v.pending (b :: rest)) w) :
    wp rawRecv (fun b' w' => b' = b ∧ Shows K (v.pending rest) w') E w := by
  have hin : bytes w.input = b :: rest := congrArg View.input h.view
  refine wp_rawRecv ?_ ?_
  · intro hnil
    rw [hnil] at hin
    cases hin
  · intro got used left hw hgot
    rw [hw, bytes_append, hgot] at hin
    obtain ⟨rfl, hleft⟩ : got = b ∧ bytes left = rest := by simpa using hin
    refine ⟨rfl, h.card, ?_⟩
    rw [← hleft]
    exact congrArg (fun u : View => u.pending (bytes left)) h.view

lemma Shows.recvU32 {n : ℕ} (hn : n < 2 ^ 32) {rest : List Byte}
    (h : Shows K (v.pending (Bytes.toLE 4 n ++ rest)) w) :
    wp recvU32 (fun u w' => u = BitVec.ofNat 32 n ∧ Shows K (v.pending rest) w') E w := by
  refine wp_seq (h.recv (Bytes.length_toLE 4 n)) ?_
  rintro got w' ⟨rfl, h'⟩
  exact ⟨Sd.recvU32_toLE hn, h'⟩

/-- A number comes out as it was sent. -/
lemma recvU32_toNat (x : BitVec 32) : Sd.recvU32 (Bytes.toLE 4 x.toNat) = x := by
  rw [Sd.recvU32_toLE x.isLt, BitVec.ofNat_toNat, BitVec.setWidth_eq]

/-- The two words of a request. -/
lemma recvU32_words (x y : BitVec 32) :
    Sd.recvU32 ((Bytes.toLE 4 x.toNat ++ Bytes.toLE 4 y.toNat).take 4) = x ∧
      Sd.recvU32 (((Bytes.toLE 4 x.toNat ++ Bytes.toLE 4 y.toNat).drop 4).take 4) = y := by
  constructor
  · rw [List.take_left' (Bytes.length_toLE 4 _), recvU32_toNat]
  · rw [List.drop_left' (Bytes.length_toLE 4 _), List.take_of_length_le (Bytes.length_toLE 4 _).le,
      recvU32_toNat]

lemma Shows.recvWord {x : BitVec 32} {rest : List Byte}
    (h : Shows K (v.pending (Bytes.toLE 4 x.toNat ++ rest)) w) :
    wp Stage2.recvU32 (fun u w' => u = x ∧ Shows K (v.pending rest) w') E w := by
  have hrecv := h.recvU32 (E := E) x.isLt
  rwa [BitVec.ofNat_toNat, BitVec.setWidth_eq] at hrecv

end Line

variable {c : SdCard} {w : World State} {v : View} {E : Stop → World State → Prop}

/-- `sd_init` -/
lemma Shows.sdInit (hs : c.Sound) (h : Shows Rested v w) :
    wp (sdInit c.bus) (fun rc w' => rc = 0 ∧ Shows (UpFor c) v w') E w := by
  obtain ⟨⟨k, hk⟩, rfl⟩ := h
  obtain ⟨k', hk', hstore, hup⟩ := hs.sdInit k
  have hst : w.store = k.store := by rw [World.store, hk]
  simp only [Stage2.sdInit, wp_bind, wp_get, wp_set, wp_pure, hk, hk']
  refine ⟨trivial, ⟨⟨k', rfl, hup⟩, rfl⟩, ?_⟩
  simp only [World.view, World.store, hstore]
  rw [← hst]
  rfl

/-- `sd_read_block` -/
lemma Shows.sdReadBlock (hs : c.Sound) (h : Shows (UpFor c) v w) {lba : BitVec 32}
    (hlba : lba.toNat < c.capacity) :
    wp (sdReadBlock c.bus lba)
      (fun r w' => r = (0, (v.card lba).bytes) ∧ Shows (UpFor c) v w') E w := by
  obtain ⟨⟨⟨k, hk, hup⟩, hhc⟩, rfl⟩ := h
  obtain ⟨k', hk', hstore, hup'⟩ := hs.sdReadBlock hup hlba
  have hst : w.store = k.store := by rw [World.store, hk]
  simp only [Stage2.sdReadBlock, wp_bind, wp_get, wp_set, wp_pure, hk, hhc, hk']
  refine ⟨?_, ⟨⟨k', rfl, hup'⟩, rfl⟩, ?_⟩
  · rw [← hst]
    rfl
  · simp only [World.view, World.store, hstore]
    rw [← hst]
    rfl

/-- `sd_write_block` -/
lemma Shows.sdWriteBlock (hs : c.Sound) (h : Shows (UpFor c) v w) {lba : BitVec 32}
    (hlba : lba.toNat < c.capacity) (src : Sector) :
    wp (sdWriteBlock c.bus lba src.bytes)
      (fun rc w' => rc = 0 ∧ Shows (UpFor c) (v.stored (v.card.write [(lba, src)])) w') E w := by
  obtain ⟨⟨⟨k, hk, hup⟩, hhc⟩, rfl⟩ := h
  obtain ⟨k', hk', hstore, hup'⟩ := hs.sdWriteBlock hup hlba src
  have hst : w.store = k.store := by rw [World.store, hk]
  simp only [Stage2.sdWriteBlock, wp_bind, wp_get, wp_set, wp_pure, hk, hhc, hk']
  refine ⟨trivial, ⟨⟨k', rfl, hup'⟩, rfl⟩, ?_⟩
  simp only [World.view, World.store, hstore]
  rw [← hst]
  rfl

/-! ### The modes -/

/-- `sd_dump` from sector `i` on. -/
lemma Shows.dumpLoop (hs : c.Sound) (start : BitVec 32) (i n : ℕ) (h : Shows (UpFor c) v w)
    (hcap : start.toNat + (i + n) ≤ c.capacity) :
    wp (dumpLoop c.bus start i n) (fun _ => Shows (UpFor c)
      (v.say (Sd.Serial.dumpSectors (fun l => some (v.card l)) start i n))) E w := by
  induction n generalizing i v w with
  | zero => exact h.puts _
  | succ n ih =>
    have hlba : (start + BitVec.ofNat 32 i).toNat < c.capacity := by
      rw [BitVec.toNat_add, BitVec.toNat_ofNat]
      have := Nat.mod_le (start.toNat + i % 2 ^ 32) (2 ^ 32)
      have := Nat.mod_le i (2 ^ 32)
      omega
    refine wp_seq (h.sdReadBlock hs hlba) ?_
    rintro r w ⟨rfl, h⟩
    dsimp only
    rw [if_neg (not_not.2 rfl)]
    refine wp_seq (h.emit _) ?_
    intro _ w h
    have hnext := ih (i + 1) h (by omega)
    rwa [View.say_say] at hnext

lemma Shows.sdDump (hs : c.Sound) (start count : BitVec 32) {rest : List Byte}
    (hcap : count ≤ 4096 → start.toNat + count.toNat ≤ c.capacity)
    (h : Shows Rested
      (v.pending (Bytes.toLE 4 start.toNat ++ (Bytes.toLE 4 count.toNat ++ rest))) w) :
    wp (sdDump c.bus) (fun _ => Shows Rested ((v.say
      (Sd.Serial.sdDump true (fun l => some (v.card l))
        (Bytes.toLE 4 start.toNat ++ Bytes.toLE 4 count.toNat))).pending rest)) E w := by
  obtain ⟨hstart, hcount⟩ := recvU32_words start count
  rw [Sd.Serial.sdDump, hstart, hcount]
  refine wp_seq h.recvWord ?_
  rintro u w ⟨hu, h⟩
  rw [hu]
  refine wp_seq h.recvWord ?_
  rintro n w ⟨hn, h⟩
  rw [hn]
  by_cases hbad : count = 0 ∨ 4096 < count
  · rw [if_pos hbad, if_pos hbad]
    exact h.puts _
  · have hle := hcap (BitVec.not_lt.1 fun hlt => hbad (Or.inr hlt))
    rw [if_neg hbad, if_neg hbad]
    refine wp_seq (h.sdInit hs) ?_
    rintro _ w ⟨rfl, h⟩
    rw [if_neg (not_not.2 rfl)]
    refine wp_seq (h.puts _) ?_
    intro _ w h
    refine wp_mono ?_ (fun _ _ h => h) (h.dumpLoop hs _ 0 _ (by rwa [Nat.zero_add]))
    intro _ w h
    rw [View.say_say] at h
    exact ⟨h.card.rested, h.view⟩

lemma Shows.sdSmoke (hs : c.Sound) (hcap : 0 < c.capacity) (h : Shows Rested v w) :
    wp (sdSmoke c.bus)
      (fun _ => Shows Rested (v.say (Request.smokeText c.hc (v.card 0)))) E w := by
  refine wp_seq (h.puts _) ?_
  intro _ w h
  refine wp_seq (h.sdInit hs) ?_
  rintro _ w ⟨rfl, h⟩
  rw [if_neg (not_not.2 rfl)]
  refine wp_seq (h.puts _) ?_
  intro _ w h
  have hhc : w.isHc = c.hc := h.card.2
  rw [wp_bind, wp_get]
  beta_reduce
  rw [hhc]
  refine wp_seq (h.puts _) ?_
  intro _ w h
  refine wp_seq (h.puts _) ?_
  intro _ w h
  refine wp_seq (h.sdReadBlock hs hcap) ?_
  rintro _ w ⟨rfl, h⟩
  dsimp only
  rw [if_neg (not_not.2 rfl)]
  refine wp_seq (h.puts _) ?_
  intro _ w h
  refine wp_seq (h.emit _) ?_
  intro _ w h
  refine wp_seq (h.puts _) ?_
  intro _ w h
  refine wp_seq (h.emit _) ?_
  intro _ w h
  refine wp_mono ?_ (fun _ _ h => h) (h.puts _)
  intro _ w h
  simp only [View.say_say, View.say_card] at h
  refine ⟨h.card.rested, h.view.trans ?_⟩
  simp only [Request.smokeText, List.append_assoc]

lemma Shows.sdReadHeader (hs : c.Sound) (hcap : 0 < c.capacity) (h : Shows Rested v w) :
    wp (sdReadHeader c.bus) (fun _ => Shows Rested
      (v.say (Sd.Serial.sdReadHeader true fun l => some (v.card l)))) E w := by
  have hanswer : Sd.Serial.sdReadHeader true (fun l => some (v.card l)) =
      ascii "RD_READY\n" ++ (v.card 0).bytes ++ ascii "\nRD_DONE\n" := rfl
  rw [hanswer]
  refine wp_seq (h.sdInit hs) ?_
  rintro _ w ⟨rfl, h⟩
  rw [if_neg (not_not.2 rfl)]
  refine wp_seq (h.sdReadBlock hs hcap) ?_
  rintro _ w ⟨rfl, h⟩
  dsimp only
  rw [if_neg (not_not.2 rfl)]
  refine wp_seq (h.puts _) ?_
  intro _ w h
  refine wp_seq (h.emit _) ?_
  intro _ w h
  refine wp_mono ?_ (fun _ _ h => h) (h.puts _)
  intro _ w h
  simp only [View.say_say] at h
  exact ⟨h.card.rested, h.view⟩

/-! ### The modes that write -/

/-- A buffer is equal to itself. -/
lemma firstDiff_self (bs : List Byte) (i : ℕ) : firstDiff bs bs i = none := by
  induction bs generalizing i with
  | nil => rfl
  | cons b bs ih => rw [firstDiff, if_neg (not_not.2 rfl), ih]

lemma Shows.sdWriteTest (hs : c.Sound) (hcap : testLba.toNat < c.capacity) (data : Sector)
    {rest : List Byte} (h : Shows Rested (v.pending (data.bytes ++ rest)) w) :
    wp (sdWriteTest c.bus) (fun _ => Shows Rested (((v.stored (v.card.write [(testLba, data)])).say
      (ascii "SEND_512\n" ++ ascii "WRITE_OK\n")).pending rest)) E w := by
  refine wp_seq (h.sdInit hs) ?_
  rintro _ w ⟨rfl, h⟩
  rw [if_neg (not_not.2 rfl)]
  refine wp_seq (h.puts _) ?_
  intro _ w h
  rw [View.pending_say] at h
  refine wp_seq (h.recv (Sd.length_bytes data)) ?_
  rintro rx w ⟨hrx, h⟩
  rw [hrx]
  refine wp_seq (h.sdWriteBlock hs hcap data) ?_
  rintro _ w ⟨rfl, h⟩
  rw [if_neg (not_not.2 rfl)]
  refine wp_seq (h.sdReadBlock hs hcap) ?_
  rintro _ w ⟨rfl, h⟩
  dsimp only
  rw [if_neg (not_not.2 rfl)]
  simp only [View.stored_card, View.pending_card, View.say_card, Sd.Card.write_one,
    firstDiff_self]
  refine wp_mono ?_ (fun _ _ h => h) (h.puts _)
  intro _ w h
  simp only [View.pending_card, View.say_card, View.pending_stored, View.pending_say,
    View.stored_say, View.say_say] at h
  exact ⟨h.card.rested, h.view⟩

/-- The sectors of a segment from sector `i` on. -/
lemma Shows.multiSectors (hs : c.Sound) {s : Segment} (hok : s.Ok)
    (hcap : s.startLba + s.secCount ≤ c.capacity) (i n : ℕ) (hn : i + n = s.secCount)
    {rest : List Byte}
    (h : Shows (UpFor c) (v.pending (s.data.drop (Sd.sector * i) ++ rest)) w) :
    wp (multiSectors c.bus (BitVec.ofNat 32 s.startLba) i n) (fun ok w' => ok = true ∧
      Shows (UpFor c) (((v.stored (v.card.write ((List.range' i n).map fun j =>
        (BitVec.ofNat 32 (s.startLba + j), Sd.sectorAt s.data j)))).say
          (List.replicate n 0x4B)).pending rest) w') E w := by
  have hlen : s.data.length = Sd.sector * s.secCount := by
    have hdiv := Nat.div_add_mod s.data.length Sd.sector
    rw [hok.aligned] at hdiv
    exact hdiv.symm
  induction n generalizing i v w with
  | zero =>
    have hdrop : s.data.drop (Sd.sector * i) = [] := by
      rw [show i = s.secCount from hn, ← hlen, List.drop_length]
    rw [hdrop] at h
    refine ⟨rfl, h.card, h.view.trans ?_⟩
    simp [View.stored, View.say, View.pending, Sd.Card.write]
  | succ n ih =>
    have hi : Sd.sector * (i + 1) ≤ s.data.length := by
      rw [hlen]
      exact Nat.mul_le_mul_left _ (by omega)
    have hblock : s.data.drop (Sd.sector * i) =
        (Sd.sectorAt s.data i).bytes ++ s.data.drop (Sd.sector * (i + 1)) := by
      rw [Sd.bytes_sectorAt hi, Nat.mul_succ, ← List.drop_drop, List.take_append_drop]
    have hlba : BitVec.ofNat 32 s.startLba + BitVec.ofNat 32 i =
        BitVec.ofNat 32 (s.startLba + i) := (BitVec.ofNat_add _ _).symm
    have hin : (BitVec.ofNat 32 (s.startLba + i)).toNat < c.capacity := by
      rw [BitVec.toNat_ofNat]
      have := Nat.mod_le (s.startLba + i) (2 ^ 32)
      omega
    rw [hblock, List.append_assoc] at h
    refine wp_seq (h.recv (Sd.length_bytes _)) ?_
    rintro rx w ⟨hrx, h⟩
    rw [hrx]
    dsimp only
    rw [hlba]
    refine wp_seq (h.sdWriteBlock hs hin _) ?_
    rintro _ w ⟨rfl, h⟩
    rw [if_neg (not_not.2 rfl)]
    refine wp_seq (h.puts _) ?_
    intro _ w h
    simp only [View.pending_stored, View.pending_say, View.pending_card] at h
    refine wp_mono ?_ (fun _ _ h => h) (ih (i + 1) (by omega) h)
    rintro ok w ⟨rfl, h⟩
    refine ⟨rfl, h.card, h.view.trans ?_⟩
    simp only [View.say_card, View.stored_card, View.stored_say, View.stored_stored, View.say_say,
      ← Sd.Card.write_append]
    rfl

/-- The segments, and what follows them. -/
lemma Shows.multiSegments (hs : c.Sound) (segments : List Segment)
    (hok : ∀ s ∈ segments, s.Ok ∧ s.startLba + s.secCount ≤ c.capacity) (i : ℕ) {rest : List Byte}
    (h : Shows (UpFor c) (v.pending (segments.flatMap segmentBytes ++ rest)) w) :
    wp (multiSegments c.bus i segments.length) (fun _ => Shows (UpFor c)
      (((v.stored (v.card.write (segments.flatMap Segment.writes))).say
        (List.replicate (segments.map Segment.secCount).sum 0x4B ++
          ascii "\nMW_DONE\n")).pending rest)) E w := by
  induction segments generalizing i v w with
  | nil => exact h.puts _
  | cons s segments ih =>
    obtain ⟨hs', hcap⟩ := hok s List.mem_cons_self
    have hlba := hs'.lba
    have hle := hs'.le
    have hpos := hs'.pos
    simp only [List.flatMap_cons, segmentBytes, List.append_assoc] at h
    refine wp_seq (h.recvU32 (by omega)) ?_
    rintro start w ⟨hstart, h⟩
    rw [hstart]
    refine wp_seq (h.recvU32 (by omega)) ?_
    rintro count w ⟨hcount, h⟩
    have hn : count.toNat = s.secCount := by
      rw [hcount, BitVec.toNat_ofNat]
      exact Nat.mod_eq_of_lt (by omega)
    have hbad : ¬ (count = 0 ∨ 8192 < count) := by
      rw [← BitVec.toNat_inj, BitVec.lt_def, hn]
      show ¬ (s.secCount = 0 ∨ 8192 < s.secCount)
      omega
    rw [if_neg hbad, hn]
    refine wp_seq (h.multiSectors hs hs' hcap 0 _ (Nat.zero_add _)) ?_
    rintro _ w ⟨rfl, h⟩
    rw [if_pos rfl]
    refine wp_mono ?_ (fun _ _ h => h) (ih (fun s hmem => hok s (List.mem_cons_of_mem _ hmem)) _ h)
    intro _ w h
    refine ⟨h.card, h.view.trans ?_⟩
    simp only [View.say_card, View.stored_card, View.stored_say, View.stored_stored, View.say_say,
      ← Sd.Card.write_append, List.flatMap_cons, List.map_cons, List.sum_cons,
      List.replicate_add, List.append_assoc, Segment.writes, List.range_eq_range']

lemma Shows.sdWriteMulti (hs : c.Sound) {segments : List Segment}
    (hlen : 1 ≤ segments.length ∧ segments.length ≤ 16)
    (hok : ∀ s ∈ segments, s.Ok ∧ s.startLba + s.secCount ≤ c.capacity) {rest : List Byte}
    (h : Shows Rested (v.pending
      (Bytes.toLE 4 segments.length ++ (segments.flatMap segmentBytes ++ rest))) w) :
    wp (sdWriteMulti c.bus) (fun _ => Shows Rested
      (((v.stored (v.card.write (segments.flatMap Segment.writes))).say
        (Sd.mwReady ++ Sd.mwGo ++ List.replicate (segments.map Segment.secCount).sum 0x4B ++
          ascii "\nMW_DONE\n")).pending rest)) E w := by
  refine wp_seq (h.sdInit hs) ?_
  rintro _ w ⟨rfl, h⟩
  rw [if_neg (not_not.2 rfl)]
  refine wp_seq (h.puts _) ?_
  intro _ w h
  rw [View.pending_say] at h
  refine wp_seq (h.recvU32 (by omega)) ?_
  rintro count w ⟨hcount, h⟩
  have hn : count.toNat = segments.length := by
    rw [hcount, BitVec.toNat_ofNat]
    exact Nat.mod_eq_of_lt (by omega)
  have hbad : ¬ (count = 0 ∨ 16 < count) := by
    rw [← BitVec.toNat_inj, BitVec.lt_def, hn]
    show ¬ (segments.length = 0 ∨ 16 < segments.length)
    omega
  rw [if_neg hbad, hn]
  refine wp_seq (h.puts _) ?_
  intro _ w h
  rw [View.pending_say] at h
  refine wp_mono ?_ (fun _ _ h => h) (h.multiSegments hs segments hok 0)
  intro _ w h
  refine ⟨h.card.rested, h.view.trans ?_⟩
  simp only [View.say_card, View.stored_say, View.say_say, List.append_assoc]
  rfl

/-! ### Any request -/

/-- The divider of the UART is set up. -/
def View.atBaud (v : View) (baud : BitVec 32) : View := { v with baud := baud }

lemma Shows.modeSetBaud (baud : BitVec 32) (probe : Byte) {rest : List Byte}
    (h : Shows Rested (v.pending (Bytes.toLE 4 baud.toNat ++
      ((if baudOk baud then [probe] else []) ++ rest))) w) :
    wp modeSetBaud
      (fun _ => Shows Rested ((Request.setBaud baud probe).serve c.hc (v.pending rest))) E w := by
  refine wp_seq h.recvWord ?_
  rintro b w ⟨hb, h⟩
  rw [hb]
  by_cases hok : baudOk baud = true
  · have hin : ¬ (baud < 9600 ∨ 2000000 < baud) := by
      simpa [baudOk] using hok
    rw [if_pos hok] at h
    rw [if_neg hin]
    refine wp_seq (h.puts _) ?_
    intro _ w h
    rw [wp_bind, wp_modify]
    have hset : Shows Rested (((v.say (ascii "BAUD_SWITCH\n")).atBaud baud).pending (probe :: rest))
        { w with baud := baud } := by
      obtain ⟨hcard, hview⟩ := h
      exact ⟨hcard, congrArg (fun u : View => u.atBaud baud) hview⟩
    refine wp_seq hset.recvByte ?_
    rintro b w ⟨-, h⟩
    refine wp_mono ?_ (fun _ _ h => h) (h.puts _)
    intro _ w h
    refine ⟨h.card, h.view.trans ?_⟩
    rw [Request.serve, Request.answer, if_pos hok, if_pos hok]
    simp only [View.say, View.atBaud, View.pending, Request.effect, List.append_assoc]
  · have hout : baud < 9600 ∨ 2000000 < baud := by
      by_contra hno
      exact hok (by simpa [baudOk] using hno)
    rw [if_neg hok] at h
    rw [if_pos hout]
    refine wp_mono ?_ (fun _ _ h => h) (h.puts _)
    intro _ w h
    refine ⟨h.card, h.view.trans ?_⟩
    rw [Request.serve, Request.answer, if_neg hok, if_neg hok]
    rfl

/-- A mode serves its request. -/
lemma Shows.serve (hs : c.Sound) (r : Request) (hr : r.Valid c.capacity) {rest : List Byte}
    (h : Shows Rested (v.pending (r.payload ++ rest)) w) :
    wp (mode c.bus (some r.code)) (fun _ => Shows Rested (r.serve c.hc (v.pending rest))) E w := by
  cases r with
  | dump start count =>
    rw [Request.payload, List.append_assoc] at h
    exact h.sdDump hs start count hr
  | smoke => exact h.sdSmoke hs hr
  | writeTest data => exact h.sdWriteTest hs hr data
  | writeMulti segments =>
    rw [Request.payload, List.append_assoc] at h
    exact h.sdWriteMulti hs hr.1 hr.2
  | readHeader => exact h.sdReadHeader hs hr
  | setBaud baud probe =>
    rw [Request.payload, List.append_assoc] at h
    exact h.modeSetBaud baud probe

end Neorv32Boot.Stage2
