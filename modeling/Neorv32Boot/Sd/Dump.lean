import Neorv32Boot.Sd.Serial

/-!
# Dumping sectors

`main` of `host/sd_dump.py` and `sd_dump` of `sw/stage2_loader/sd.c`, over a stream that loses
nothing.  The host looks for a marker, counts off the bytes of the sectors, and then looks for the
second marker.  It also looks for `DUMP_BAD` in what has come with the first marker, where stage2
only ever sends bytes of the card.
-/

namespace Neorv32Boot.Sd.Serial

open Gather (gather reach)
open Stage2 (readyText)

/-! ### Stage2 -/

def dumpReady : List Byte := ascii "DUMP_READY\n"
def dumpBad : List Byte := ascii "DUMP_BAD"
def dumpErr : List Byte := ascii "DUMP_ERR"
def dumpEnd : List Byte := ascii "DUMP_END\n"

/-- What stage2 prints behind the last sector. -/
def dumpTrailer : List Byte := ascii "\nDUMP_END\n" ++ readyText

/-- The loop of `sd_dump` from sector `i` on, with `n` sectors to go. -/
def dumpSectors (read : BitVec 32 → Option Sector) (start : BitVec 32) : ℕ → ℕ → List Byte
  | _, 0 => ascii "\nDUMP_END\n"
  | i, n + 1 =>
    match read (start + BitVec.ofNat 32 i) with
    | none => ascii "\nDUMP_ERR\n"
    | some s => s.bytes ++ dumpSectors read start (i + 1) n

/-- `sd_dump`, with the results of `sd_init` and of `sd_read_block`: what it prints for these
parameters. -/
def sdDump (initOk : Bool) (read : BitVec 32 → Option Sector) (params : List Byte) : List Byte :=
  let start := recvU32 (params.take 4)
  let count := recvU32 ((params.drop 4).take 4)
  if count = 0 ∨ 4096 < count then ascii "DUMP_BAD\n"
  else if !initOk then ascii "[sd] dump: init FAIL\r\n"
  else dumpReady ++ dumpSectors read start 0 count.toNat

/-- The stream to the host after the mode command, behind what it has not read yet. -/
def answerDump (pre : List Byte) (initOk : Bool) (read : BitVec 32 → Option Sector)
    (request : List Byte) : List Byte :=
  if ascii "d" <+: request then pre ++ (sdDump initOk read (request.drop 1) ++ readyText) else pre

/-! ### The host -/

/-- The reads that the host makes before each of its timers runs out. -/
structure DumpTimes where
  ready : List ℕ
  data : List ℕ
  trailer : List ℕ

/-- `main` of `sd_dump.py` behind the first marker, with what has come after it and what is left of
the stream.  The warning about a missing trailer and the hex dump are left out. -/
def dumpPayload (t : DumpTimes) (payloadLen : ℕ) (leftover rest : List Byte) :
    Except PyError (List Byte) :=
  if dumpBad <:+: leftover then .error (.systemExit 2 "[!] stage2 reported DUMP_BAD") else
  let r := gather (fun n => min 4096 (payloadLen - n)) (fun p => decide (payloadLen ≤ p.length))
    t.data leftover rest
  if r.1.length < payloadLen then
    .error (.systemExit 3
      ("\n[!] timeout: " ++ toString r.1.length ++ "/" ++ toString payloadLen))
  else
    let trailer := gather (fun _ => 64) (fun tr => decide (dumpEnd <:+: tr ∨ dumpErr <:+: tr))
      t.trailer [] r.2
    if dumpErr <:+: trailer.1 then .error (.systemExit 4 "[!] stage2 reported DUMP_ERR")
    else .ok (r.1.take payloadLen)

/-- `main` of `sd_dump.py`: the bytes that it writes to its output. -/
def dumpMain (answer : List Byte → List Byte) (t : DumpTimes) (lba count : ℕ) :
    Except PyError (List Byte) :=
  if count < 1 ∨ 4096 < count then .error (.systemExit 1 "[!] --count must be 1..4096") else
  match packU32s [lba, count] with
  | .error e => .error e
  | .ok params =>
    match waitFor dumpReady "DUMP_READY" t.ready (answer (ascii "d" ++ params)) with
    | (.error e, _) => .error e
    | (.ok leftover, rest) => dumpPayload t (count * sector) leftover rest

/-! ### What is to hold -/

/-- The sectors of a dump, in order.  No sector has a number of more than 32 bits. -/
def dumped (c : Card) (start count : ℕ) : Option (List Byte) :=
  if start + count ≤ 2 ^ 32 then
    some ((List.range count).flatMap fun i => (c (BitVec.ofNat 32 (start + i))).bytes)
  else none

/-- The sectors that stage2 reads for a dump: it counts them up in a `uint32_t`. -/
def readOut (c : Card) (start : BitVec 32) (count : ℕ) : List Byte :=
  (List.range count).flatMap fun i => (c (start + BitVec.ofNat 32 i)).bytes

/-- How many bytes of the sectors come in the read that completes the first marker. -/
def DumpTimes.early (t : DumpTimes) (pre data : List Byte) : ℕ :=
  found (pre ++ dumpReady).length (pre ++ dumpReady ++ (data ++ dumpTrailer)) t.ready -
    (pre ++ dumpReady).length

/-- No timer of the host runs out before the marker and the sectors have come. -/
structure DumpTimes.Suffice (t : DumpTimes) (pre data : List Byte) : Prop where
  ready : (pre ++ dumpReady).length ≤
    found (pre ++ dumpReady).length (pre ++ dumpReady ++ (data ++ dumpTrailer)) t.ready
  data : data.length ≤ reach (fun n => min 4096 (data.length - n)) data.length
    (data ++ dumpTrailer).length t.data (t.early pre data)

/-- The dump is framed: when all reads succeed and come in time, the host writes the sectors that
were asked for, and when one fails, it writes nothing. -/
structure Framed (pre : List Byte) (initOk : Bool) (read : BitVec 32 → Option Sector)
    (t : DumpTimes) (start : BitVec 32) (count : ℕ) : Prop where
  copies : ∀ c : Card, initOk = true →
    (∀ i < count, read (start + BitVec.ofNat 32 i) = some (c (start + BitVec.ofNat 32 i))) →
    t.Suffice pre (readOut c start count) → ∃ data, dumped c start.toNat count = some data ∧
      dumpMain (answerDump pre initOk read) t start.toNat count = .ok data
  silent : (initOk = false ∨ ∃ i < count, read (start + BitVec.ofNat 32 i) = none) →
    ∀ data, dumpMain (answerDump pre initOk read) t start.toNat count ≠ .ok data

/-! ### What stage2 sends -/

section Dump

variable {pre : List Byte} {initOk : Bool} {read : BitVec 32 → Option Sector} {t : DumpTimes}
  {start : BitVec 32} {count : ℕ}

lemma length_readOut (c : Card) (start : BitVec 32) (count : ℕ) :
    (readOut c start count).length = count * sector := by
  simp [readOut, List.length_flatMap]

/-- Stage2 reads the sectors that were asked for, as far as they have numbers. -/
lemma dumped_eq (c : Card) (start : BitVec 32) (count : ℕ) : dumped c start.toNat count =
    if start.toNat + count ≤ 2 ^ 32 then some (readOut c start count) else none := by
  simp only [dumped, readOut, BitVec.ofNat_add, BitVec.ofNat_toNat, BitVec.setWidth_eq]

/-- All sectors are read. -/
lemma dumpSectors_of_some {c : Card} (i n : ℕ)
    (h : ∀ j, i ≤ j → j < i + n → read (start + BitVec.ofNat 32 j) =
      some (c (start + BitVec.ofNat 32 j))) :
    dumpSectors read start i n =
      ((List.range' i n).flatMap fun j => (c (start + BitVec.ofNat 32 j)).bytes) ++
        ascii "\nDUMP_END\n" := by
  induction n generalizing i with
  | zero => rfl
  | succ n ih =>
    rw [dumpSectors, h i le_rfl (by omega), List.range'_succ, List.flatMap_cons, List.append_assoc]
    dsimp only
    rw [ih (i + 1) fun j hj hj' => h j (by omega) (by omega)]

/-- The sectors of a dump are read. -/
lemma dumpSectors_readOut {c : Card}
    (h : ∀ i < count, read (start + BitVec.ofNat 32 i) = some (c (start + BitVec.ofNat 32 i))) :
    dumpSectors read start 0 count = readOut c start count ++ ascii "\nDUMP_END\n" := by
  rw [dumpSectors_of_some 0 count fun j _ hj => h j (by omega), ← List.range_eq_range']
  rfl

/-- A sector is not read: less is sent than the sectors would be. -/
lemma length_dumpSectors_of_none {j : ℕ} (i n : ℕ) (hi : i ≤ j) (hn : j < i + n)
    (h : read (start + BitVec.ofNat 32 j) = none) :
    (dumpSectors read start i n).length + 502 ≤ n * sector := by
  induction n generalizing i with
  | zero => omega
  | succ n ih =>
    rw [dumpSectors]
    have hsec : (n + 1) * sector = n * sector + 512 := Nat.succ_mul n sector
    cases hr : read (start + BitVec.ofNat 32 i) with
    | none =>
      have herr : (ascii "\nDUMP_ERR\n").length = 10 := rfl
      dsimp only
      omega
    | some s =>
      have hne : i ≠ j := by
        rintro rfl
        rw [h] at hr
        cases hr
      have := ih (i + 1) (by omega) (by omega)
      have hlen : (s.bytes ++ dumpSectors read start (i + 1) n).length =
          512 + (dumpSectors read start (i + 1) n).length := by
        rw [List.length_append, length_bytes]
        rfl
      dsimp only
      omega

/-- The parameters are received as they were sent. -/
lemma answerDump_eq (pre : List Byte) (initOk : Bool) (read : BitVec 32 → Option Sector)
    (start : BitVec 32) {count : ℕ} (hcount : 1 ≤ count ∧ count ≤ 4096) :
    answerDump pre initOk read
        (ascii "d" ++ (Bytes.toLE 4 start.toNat ++ Bytes.toLE 4 count)) =
      pre ++ ((if initOk then dumpReady ++ dumpSectors read start 0 count
        else ascii "[sd] dump: init FAIL\r\n") ++ readyText) := by
  obtain ⟨hpos, hle⟩ := hcount
  have hdrop : (ascii "d" ++ (Bytes.toLE 4 start.toNat ++ Bytes.toLE 4 count)).drop 1 =
      Bytes.toLE 4 start.toNat ++ Bytes.toLE 4 count := List.drop_left' rfl
  have hstart : recvU32 ((Bytes.toLE 4 start.toNat ++ Bytes.toLE 4 count).take 4) = start := by
    rw [List.take_left' (Bytes.length_toLE 4 _), recvU32_toLE start.isLt, BitVec.ofNat_toNat,
      BitVec.setWidth_eq]
  have hcnt : recvU32 (((Bytes.toLE 4 start.toNat ++ Bytes.toLE 4 count).drop 4).take 4) =
      BitVec.ofNat 32 count := by
    rw [List.drop_left' (Bytes.length_toLE 4 _),
      List.take_of_length_le (Bytes.length_toLE 4 _).le, recvU32_toLE (by omega)]
  have htoNat : (BitVec.ofNat 32 count).toNat = count := by
    rw [BitVec.toNat_ofNat]
    omega
  have hgood : ¬ (BitVec.ofNat 32 count = 0 ∨ 4096 < BitVec.ofNat 32 count) := by
    rw [BitVec.lt_def, htoNat, ← BitVec.toNat_inj, htoNat]
    simp
    omega
  rw [answerDump, if_pos (List.prefix_append _ _), hdrop, sdDump]
  simp only [hstart, hcnt, htoNat, if_neg hgood]
  cases initOk <;> rfl

/-! ### What the host does -/

lemma dumpReady_first (hpre : ¬ dumpReady <:+: pre) :
    ¬ dumpReady <:+: pre ++ dumpReady.dropLast :=
  first_of_absent (by decide) (by decide) hpre

/-- The parameters are sent, and the first marker is waited for. -/
lemma dumpMain_of_wait {answer : List Byte → List Byte} {stream rest : List Byte}
    {w : Except PyError (List Byte)} (hcount : 1 ≤ count ∧ count ≤ 4096)
    (hanswer : answer (ascii "d" ++ (Bytes.toLE 4 start.toNat ++ Bytes.toLE 4 count)) = stream)
    (hwait : waitFor dumpReady "DUMP_READY" t.ready stream = (w, rest)) :
    dumpMain answer t start.toNat count =
      w.bind fun leftover => dumpPayload t (count * sector) leftover rest := by
  rw [dumpMain, if_neg (by omega), packU32s_two start.isLt (by omega)]
  dsimp only
  rw [hanswer, hwait]
  cases w <;> rfl

/-- When less has come than the sectors are, nothing is written. -/
lemma dumpPayload_short (t : DumpTimes) {payloadLen : ℕ} {leftover rest : List Byte}
    (h : (leftover ++ rest).length < payloadLen) (data : List Byte) :
    dumpPayload t payloadLen leftover rest ≠ .ok data := by
  rw [dumpPayload]
  split_ifs with hbad
  · exact nofun
  · have happ := @Gather.gather_append Byte (fun n => min 4096 (payloadLen - n))
      (fun p => decide (payloadLen ≤ p.length)) t.data leftover rest
    have hlen := congrArg List.length happ
    rw [List.length_append] at hlen
    dsimp only
    rw [if_pos (by omega)]
    exact nofun

/-- When all sectors come, they are written, but for a `DUMP_BAD` among those of their bytes that
have come with the first marker. -/
lemma dumpPayload_full {data : List Byte} {n : ℕ} (hn : n ≤ data.length)
    (htime : data.length ≤ reach (fun n => min 4096 (data.length - n)) data.length
      (data ++ dumpTrailer).length t.data n) :
    dumpPayload t data.length ((data ++ dumpTrailer).take n) ((data ++ dumpTrailer).drop n) =
      if dumpBad <:+: data.take n then .error (.systemExit 2 "[!] stage2 reported DUMP_BAD")
      else .ok data := by
  have hgather := @Gather.gather_eq Byte (fun n => min 4096 (data.length - n))
    (fun p => decide (data.length ≤ p.length)) data.length (data ++ dumpTrailer)
    (fun m hm => by rw [decide_eq_true_iff, List.length_take_of_le hm]) t.data n
    (by rw [List.length_append]; omega)
  have hreach : reach (fun n => min 4096 (data.length - n)) data.length
      (data ++ dumpTrailer).length t.data n = data.length :=
    le_antisymm (Gather.reach_le_of_ask (fun m hm => by omega) hn) htime
  rw [hreach, List.take_left, List.drop_left] at hgather
  have hearly : (data ++ dumpTrailer).take n = data.take n := List.take_append_of_le_length hn
  rw [dumpPayload, hgather, hearly]
  split_ifs with hbad
  · rfl
  · dsimp only
    have happ := @Gather.gather_append Byte (fun _ => 64)
      (fun tr => decide (dumpEnd <:+: tr ∨ dumpErr <:+: tr)) t.trailer [] dumpTrailer
    have hnone : ¬ dumpErr <:+: dumpTrailer := by decide +kernel
    rw [if_neg (lt_irrefl _), if_neg fun hin => hnone (hin.trans ⟨[], _, happ⟩), List.take_length]

/-! ### The dump -/

/-- All sectors are read: the dump depends on what comes with the first marker. -/
lemma dumpMain_of_some (hpre : ¬ dumpReady <:+: pre) (hcount : 1 ≤ count ∧ count ≤ 4096)
    {c : Card} (hinit : initOk = true)
    (hread : ∀ i < count, read (start + BitVec.ofNat 32 i) = some (c (start + BitVec.ofNat 32 i)))
    (ht : t.Suffice pre (readOut c start count)) :
    dumpMain (answerDump pre initOk read) t start.toNat count =
      if dumpBad <:+: (readOut c start count).take (t.early pre (readOut c start count)) then
        .error (.systemExit 2 "[!] stage2 reported DUMP_BAD")
      else .ok (readOut c start count) := by
  have hsectors := dumpSectors_readOut hread
  have hstream : pre ++ ((if initOk then dumpReady ++ dumpSectors read start 0 count
      else ascii "[sd] dump: init FAIL\r\n") ++ readyText) =
      pre ++ dumpReady ++ (readOut c start count ++ dumpTrailer) := by
    rw [if_pos hinit, hsectors, dumpTrailer]
    simp only [List.append_assoc]
  have hlen := length_readOut c start count
  generalize readOut c start count = data at hstream hlen ht ⊢
  have hanswer := (answerDump_eq pre initOk read start hcount).trans hstream
  rcases waitFor_cases (by decide) (dumpReady_first hpre) (data ++ dumpTrailer) "DUMP_READY"
    t.ready with ⟨n, hn256, hn, hwait⟩ | ⟨hlt, -⟩
  · have hearly : t.early pre data = n := by
      rw [DumpTimes.early, hn, Nat.add_sub_cancel_left]
    have hle : n ≤ data.length := by
      have hsec : sector ≤ count * sector := Nat.le_mul_of_pos_left sector hcount.1
      have : sector = 512 := rfl
      omega
    have htime := ht.data
    rw [hearly] at htime ⊢
    rw [dumpMain_of_wait hcount hanswer hwait, ← hlen]
    exact dumpPayload_full hle htime
  · exact absurd ht.ready (not_le.2 hlt)

/-- A sector is not read: nothing is written. -/
lemma dumpMain_of_none (hpre : ¬ dumpReady <:+: pre) (hcount : 1 ≤ count ∧ count ≤ 4096)
    (hfail : initOk = false ∨ ∃ i < count, read (start + BitVec.ofNat 32 i) = none)
    (data : List Byte) :
    dumpMain (answerDump pre initOk read) t start.toNat count ≠ .ok data := by
  have hanswer := answerDump_eq pre initOk read start hcount
  cases hinit : initOk with
  | false =>
    rw [hinit] at hanswer
    have hnone : ¬ dumpReady <:+: pre ++ (ascii "[sd] dump: init FAIL\r\n" ++ readyText) :=
      mt (infix_append_of_tails (by decide +kernel) (by decide +kernel)) hpre
    obtain ⟨buf, rest, hwait⟩ := waitFor_of_none hnone "DUMP_READY" t.ready
    rw [dumpMain_of_wait hcount hanswer hwait]
    exact nofun
  | true =>
    obtain ⟨j, hj, hnone⟩ : ∃ j < count, read (start + BitVec.ofNat 32 j) = none :=
      hfail.resolve_left (by rw [hinit]; exact Bool.noConfusion)
    have hshort := length_dumpSectors_of_none 0 count (Nat.zero_le j) (by omega) hnone
    have hstream : pre ++ ((if initOk then dumpReady ++ dumpSectors read start 0 count
        else ascii "[sd] dump: init FAIL\r\n") ++ readyText) =
        pre ++ dumpReady ++ (dumpSectors read start 0 count ++ readyText) := by
      rw [if_pos hinit]
      simp only [List.append_assoc]
    rw [hstream, hinit] at hanswer
    rcases waitFor_cases (by decide) (dumpReady_first hpre)
      (dumpSectors read start 0 count ++ readyText) "DUMP_READY" t.ready with
      ⟨n, -, -, hwait⟩ | ⟨-, buf, left, hwait⟩
    · rw [dumpMain_of_wait hcount hanswer hwait]
      refine dumpPayload_short t ?_ data
      have htext : readyText.length = 29 := by decide
      rw [List.take_append_drop, List.length_append]
      omega
    · rw [dumpMain_of_wait hcount hanswer hwait]
      exact nofun

/-- **What a dump needs to be framed.**  For every start, every number of sectors, every content and
every way the stream is cut: a dump whose sectors are all read writes the sectors asked for exactly
when they end at LBA `2 ^ 32` at the latest, and none of the bytes that come with the first marker
spell `DUMP_BAD`; and when a sector is not read, nothing is written. -/
theorem dump_framed_iff (pre : List Byte) (hpre : ¬ dumpReady <:+: pre) (initOk : Bool)
    (read : BitVec 32 → Option Sector) (t : DumpTimes) (start : BitVec 32) (count : ℕ)
    (hcount : 1 ≤ count ∧ count ≤ 4096) :
    Framed pre initOk read t start count ↔
      ∀ c : Card, initOk = true →
        (∀ i < count, read (start + BitVec.ofNat 32 i) =
          some (c (start + BitVec.ofNat 32 i))) →
        t.Suffice pre (readOut c start count) →
        start.toNat + count ≤ 2 ^ 32 ∧
          ¬ dumpBad <:+: (readOut c start count).take (t.early pre (readOut c start count)) := by
  constructor
  · intro h c hinit hread ht
    obtain ⟨data, hdata, hok⟩ := h.copies c hinit hread ht
    rw [dumped_eq] at hdata
    split_ifs at hdata with hlba
    refine ⟨hlba, fun hbad => ?_⟩
    rw [dumpMain_of_some hpre hcount hinit hread ht, if_pos hbad] at hok
    exact nomatch hok
  · intro h
    constructor
    · intro c hinit hread ht
      obtain ⟨hlba, hbad⟩ := h c hinit hread ht
      refine ⟨readOut c start count, by rw [dumped_eq, if_pos hlba], ?_⟩
      rw [dumpMain_of_some hpre hcount hinit hread ht, if_neg hbad]
    · intro hfail data
      exact dumpMain_of_none hpre hcount hfail data

end Dump

/-- A card whose sectors start with the text that the host looks for. -/
def markerCard : Card := fun _ => sectorAt dumpBad 0

theorem dump_framed_iff_split :
    Framed [] true (fun a => some (markerCard a)) ⟨[11], [512], []⟩ 0 1 := by
  refine (dump_framed_iff [] (by decide) true _ _ 0 1 (by decide)).2 fun c _ _ _ =>
    ⟨by decide, ?_⟩
  have hearly : DumpTimes.early ⟨[11], [512], []⟩ [] (readOut c 0 1) = 0 := by
    have hready : dumpReady.length = 11 := rfl
    simp [DumpTimes.early, found, reach, hready]
  rw [hearly, List.take_zero]
  exact mt List.infix_nil.1 (by decide)

/-- **A dump of such a sector is refused** when its first bytes come with the marker. -/
theorem dump_not_framed :
    dumpMain (answerDump [] true fun a => some (markerCard a)) ⟨[256], [512], [64]⟩ 0 1 =
        .error (.systemExit 2 "[!] stage2 reported DUMP_BAD") ∧
      ¬ Framed [] true (fun a => some (markerCard a)) ⟨[256], [512], [64]⟩ 0 1 := by
  have hexit : dumpMain (answerDump [] true fun a => some (markerCard a)) ⟨[256], [512], [64]⟩ 0 1 =
      .error (.systemExit 2 "[!] stage2 reported DUMP_BAD") := by decide +kernel
  refine ⟨hexit, fun h => ?_⟩
  obtain ⟨data, -, hok⟩ := h.copies markerCard rfl (fun _ _ => rfl)
    (by constructor <;> decide +kernel)
  have hzero : (0 : BitVec 32).toNat = 0 := rfl
  rw [hzero, hexit] at hok
  exact nomatch hok

end Neorv32Boot.Sd.Serial
