import Neorv32Boot.Sd.Serial
import Neorv32Boot.Sd.Store

/-!
# Reading the header back

`read_header` of `host/sd_proto.py` and `sd_read_header` of `sw/stage2_loader/sd.c`, over a stream
that loses nothing.  The host looks for a marker, takes the rest of what it has read for the start
of the sector, reads the sector to its end, and then looks for the second marker.
-/

namespace Neorv32Boot.Sd.Serial

open Gather (gather reach)
open Stage2 (readyText)

/-! ### The two sides -/

def rdReady : List Byte := ascii "RD_READY\n"
def rdDone : List Byte := ascii "RD_DONE"

/-- What stage2 prints behind the sector. -/
def rdTrailer : List Byte := ascii "\nRD_DONE\n" ++ readyText

/-- `sd_read_header`, with the results of `sd_init` and of `sd_read_block`: what it prints. -/
def sdReadHeader (initOk : Bool) (read : BitVec 32 → Option Sector) : List Byte :=
  if !initOk then ascii "[sd] rd: init FAIL\r\n" else
  match read 0 with
  | none => ascii "RD_FAIL\n"
  | some s => rdReady ++ s.bytes ++ ascii "\nRD_DONE\n"

/-- The stream to the host after the mode command, behind what it has not read yet. -/
def answerRead (pre : List Byte) (initOk : Bool) (read : BitVec 32 → Option Sector)
    (request : List Byte) : List Byte :=
  if request = ascii "R" then pre ++ (sdReadHeader initOk read ++ readyText) else pre

/-- The reads that the host makes before each of its timers runs out. -/
structure ReadTimes where
  ready : List ℕ
  data : List ℕ
  done : List ℕ

/-- `read_header`: its result, and what is left of the stream. -/
def readHeader (answer : List Byte → List Byte) (t : ReadTimes) :
    Except PyError (List Byte) × List Byte :=
  match waitFor rdReady "RD_READY" t.ready (answer (ascii "R")) with
  | (.error e, rest) => (.error e, rest)
  | (.ok leftover, rest) =>
    let r := gather (fun n => sector - n) (fun hdr => decide (sector ≤ hdr.length)) t.data
      leftover rest
    if r.1.length < sector then
      (.error (.runtimeError ("header short: " ++ toString r.1.length ++ "B")), r.2)
    else if rdDone <:+: r.1.drop sector then (.ok (r.1.take sector), r.2)
    else
      match waitFor rdDone "RD_DONE" t.done r.2 with
      | (.error e, rest) => (.error e, rest)
      | (.ok _, rest) => (.ok (r.1.take sector), rest)

/-- No timer of the host runs out before the bytes have come that it waits for. -/
structure ReadTimes.Suffice (t : ReadTimes) (pre : List Byte) (s : Sector) : Prop where
  ready : (pre ++ rdReady).length ≤
    found (pre ++ rdReady).length (pre ++ rdReady ++ (s.bytes ++ rdTrailer)) t.ready
  data : sector ≤ reach (fun n => sector - n) sector (s.bytes ++ rdTrailer).length t.data
    (found (pre ++ rdReady).length (pre ++ rdReady ++ (s.bytes ++ rdTrailer)) t.ready -
      (pre ++ rdReady).length)
  done : (ascii "\nRD_DONE").length ≤ found (ascii "\nRD_DONE").length rdTrailer t.done

section ReadBack

variable {pre : List Byte} (hpre : ¬ rdReady <:+: pre)

/-! ### Markers -/

include hpre in
lemma rdReady_first : ¬ rdReady <:+: pre ++ rdReady.dropLast :=
  first_of_absent (by decide) (by decide) hpre

/-- The end of the read-back, with the sector in the buffer. -/
lemma wait_done (offers : List ℕ) :
    ((ascii "\nRD_DONE").length ≤ found (ascii "\nRD_DONE").length rdTrailer offers ∧
      ∃ w rest, rest <:+ ascii "\n" ++ readyText ∧
        waitFor rdDone "RD_DONE" offers rdTrailer = (.ok w, rest)) ∨
    (found (ascii "\nRD_DONE").length rdTrailer offers < (ascii "\nRD_DONE").length ∧
      ∃ buf rest, waitFor rdDone "RD_DONE" offers rdTrailer =
        (.error (noMarker "RD_DONE" buf), rest)) := by
  have hfirst : ¬ rdDone <:+: ascii "\n" ++ rdDone.dropLast := by decide +kernel
  rcases waitFor_cases (by decide) hfirst (ascii "\n" ++ readyText) "RD_DONE" offers with
    ⟨n, -, hn, hwait⟩ | h
  · exact Or.inl ⟨(Nat.le_add_right _ n).trans_eq hn.symm, _, _, List.drop_suffix n _, hwait⟩
  · exact Or.inr h

/-! ### A sector that is read -/

variable {initOk : Bool} {read : BitVec 32 → Option Sector} {s : Sector}

lemma answerRead_of_some (pre : List Byte) (hinit : initOk = true) (hread : read 0 = some s) :
    answerRead pre initOk read (ascii "R") = pre ++ rdReady ++ (s.bytes ++ rdTrailer) := by
  simp only [answerRead, sdReadHeader, hinit, hread, rdTrailer, if_true, Bool.not_true,
    Bool.false_eq_true, if_false, List.append_assoc]

/-- The loop that reads the sector to its end does not read past it. -/
lemma data_loop {data : List Byte} (hlen : data.length = sector) (offers : List ℕ) {n : ℕ}
    (hn : n ≤ sector) :
    gather (fun n => sector - n) (fun hdr => decide (sector ≤ hdr.length)) offers
        ((data ++ rdTrailer).take n) ((data ++ rdTrailer).drop n) =
      ((data ++ rdTrailer).take
          (reach (fun n => sector - n) sector (data ++ rdTrailer).length offers n),
        (data ++ rdTrailer).drop
          (reach (fun n => sector - n) sector (data ++ rdTrailer).length offers n)) ∧
      reach (fun n => sector - n) sector (data ++ rdTrailer).length offers n ≤ sector := by
  have hall : (data ++ rdTrailer).length = sector + rdTrailer.length := by
    rw [List.length_append, hlen]
  refine ⟨Gather.gather_eq (fun m hm => ?_) offers (by omega),
    Gather.reach_le_of_ask (fun m hm => by omega) hn⟩
  rw [decide_eq_true_iff, List.length_take_of_le hm]

/-- `read_header` behind its first marker, with `n` bytes of the sector in hand. -/
lemma readHeader_of_ready {answer : List Byte → List Byte} {t : ReadTimes} {data : List Byte}
    (hlen : data.length = sector) {n : ℕ} (hn : n ≤ sector)
    (hwait : waitFor rdReady "RD_READY" t.ready (answer (ascii "R")) =
      (.ok ((data ++ rdTrailer).take n), (data ++ rdTrailer).drop n)) :
    (sector ≤ reach (fun n => sector - n) sector (data ++ rdTrailer).length t.data n ∧
        (ascii "\nRD_DONE").length ≤ found (ascii "\nRD_DONE").length rdTrailer t.done →
      ∃ rest, rest <:+ ascii "\n" ++ readyText ∧ readHeader answer t = (.ok data, rest)) ∧
    (¬ (sector ≤ reach (fun n => sector - n) sector (data ++ rdTrailer).length t.data n ∧
        (ascii "\nRD_DONE").length ≤ found (ascii "\nRD_DONE").length rdTrailer t.done) →
      ∃ text rest, readHeader answer t = (.error (.runtimeError text), rest)) := by
  obtain ⟨hgather, hle⟩ := data_loop hlen t.data hn
  have hall : (data ++ rdTrailer).length = sector + rdTrailer.length := by
    rw [List.length_append, hlen]
  obtain ⟨pos, hpos⟩ : ∃ pos,
      pos = reach (fun n => sector - n) sector (data ++ rdTrailer).length t.data n := ⟨_, rfl⟩
  rw [← hpos] at hgather hle ⊢
  have htaken : ((data ++ rdTrailer).take pos).length = pos :=
    List.length_take_of_le (by omega)
  rw [readHeader, hwait]
  dsimp only
  rw [hgather]
  dsimp only
  rw [htaken]
  by_cases hdata : sector ≤ pos
  · obtain rfl : pos = sector := le_antisymm hle hdata
    have htake : (data ++ rdTrailer).take sector = data := List.take_left' hlen
    have hdrop : (data ++ rdTrailer).drop sector = rdTrailer := List.drop_left' hlen
    have hover : data.drop sector = [] := List.drop_of_length_le hlen.le
    have hself : data.take sector = data := List.take_of_length_le hlen.le
    have hnone : ¬ rdDone <:+: [] := mt List.infix_nil.1 (by decide)
    rw [if_neg (lt_irrefl _), htake, hdrop, hover, if_neg hnone, hself]
    rcases wait_done t.done with ⟨hdone, w, rest, hrest, hwait⟩ | ⟨hdone, buf, rest, hwait⟩
    · rw [hwait]
      exact ⟨fun _ => ⟨rest, hrest, rfl⟩, fun h => absurd ⟨le_rfl, hdone⟩ h⟩
    · rw [hwait]
      exact ⟨fun h => absurd h.2 (not_le.2 hdone), fun _ => ⟨_, _, rfl⟩⟩
  · rw [if_pos (not_le.1 hdata)]
    exact ⟨fun h => absurd h.1 hdata, fun _ => ⟨_, _, rfl⟩⟩

/-- `read_header` returns the sector and has read past the second marker, or a timer has run
out. -/
lemma readHeader_of_some (hpre : ¬ rdReady <:+: pre) (hinit : initOk = true)
    (hread : read 0 = some s) (t : ReadTimes) :
    (t.Suffice pre s → ∃ rest, rest <:+ ascii "\n" ++ readyText ∧
      readHeader (answerRead pre initOk read) t = (.ok s.bytes, rest)) ∧
    (¬ t.Suffice pre s → ∃ text rest,
      readHeader (answerRead pre initOk read) t = (.error (.runtimeError text), rest)) := by
  have hans := answerRead_of_some pre hinit hread
  rcases waitFor_cases (by decide) (rdReady_first hpre) (s.bytes ++ rdTrailer) "RD_READY"
    t.ready with ⟨n, hn256, hn, hwait⟩ | ⟨hlt, buf, left, hwait⟩
  · have hn512 : n ≤ sector := hn256.le.trans (by decide)
    rw [← hans] at hwait
    obtain ⟨hok, herr⟩ := readHeader_of_ready (length_bytes s) hn512 hwait
    have hsuff : t.Suffice pre s ↔
        sector ≤ reach (fun n => sector - n) sector (s.bytes ++ rdTrailer).length t.data n ∧
          (ascii "\nRD_DONE").length ≤ found (ascii "\nRD_DONE").length rdTrailer t.done := by
      constructor
      · rintro ⟨-, hdata, hdone⟩
        rw [hn, Nat.add_sub_cancel_left] at hdata
        exact ⟨hdata, hdone⟩
      · rintro ⟨hdata, hdone⟩
        refine ⟨hn ▸ Nat.le_add_right _ n, ?_, hdone⟩
        rwa [hn, Nat.add_sub_cancel_left]
    exact ⟨fun h => hok (hsuff.1 h), fun h => herr (mt hsuff.2 h)⟩
  · refine ⟨fun h => absurd h.ready (not_le.2 hlt), fun _ => ?_⟩
    rw [readHeader, hans, hwait]
    exact ⟨_, _, rfl⟩

/-! ### A sector that is not read -/

/-- Without the sector there is no marker to find. -/
lemma rdReady_absent (hpre : ¬ rdReady <:+: pre) (hfail : initOk = false ∨ read 0 = none) :
    ¬ rdReady <:+: answerRead pre initOk read (ascii "R") := by
  have htext : sdReadHeader initOk read = ascii "[sd] rd: init FAIL\r\n" ∨
      sdReadHeader initOk read = ascii "RD_FAIL\n" := by
    rw [sdReadHeader]
    rcases hfail with rfl | hnone
    · exact Or.inl rfl
    · rw [hnone]
      cases initOk
      · exact Or.inl rfl
      · exact Or.inr rfl
  rw [answerRead, if_pos rfl]
  rcases htext with h | h
  · rw [h]
    exact mt (infix_append_of_tails (by decide +kernel) (by decide +kernel)) hpre
  · rw [h]
    exact mt (infix_append_of_tails (by decide +kernel) (by decide +kernel)) hpre

/-- **The header is read back as it is on the card.**  Whatever the sector holds, whatever text is
still unread before the marker, and however the stream is cut into chunks, `read_header` returns
nothing but the sector at LBA 0, and then has read past the marker behind it; it does return it
unless a timer runs out.  When the sector cannot be read, it raises. -/
theorem header_read_back (pre : List Byte) (hpre : ¬ rdReady <:+: pre) (initOk : Bool)
    (read : BitVec 32 → Option Sector) (t : ReadTimes) :
    (∀ c : Card, initOk = true → read 0 = some (c 0) →
      (∀ hdr rest, readHeader (answerRead pre initOk read) t = (.ok hdr, rest) →
        hdr = Sd.readHeader c ∧ rest <:+ ascii "\n" ++ readyText) ∧
      (t.Suffice pre (c 0) →
        ∃ rest, readHeader (answerRead pre initOk read) t = (.ok (Sd.readHeader c), rest))) ∧
    (initOk = false ∨ read 0 = none →
      ∃ text rest,
        readHeader (answerRead pre initOk read) t = (.error (.runtimeError text), rest)) := by
  constructor
  · intro c hinit hread
    obtain ⟨hok, herr⟩ := readHeader_of_some hpre hinit hread t
    constructor
    · intro hdr rest hr
      by_cases hsuff : t.Suffice pre (c 0)
      · obtain ⟨rest', hrest, heq⟩ := hok hsuff
        rw [heq] at hr
        obtain ⟨hhdr, rfl⟩ := Prod.mk.inj hr
        exact ⟨(Except.ok.inj hhdr).symm, hrest⟩
      · obtain ⟨text, rest', heq⟩ := herr hsuff
        rw [heq] at hr
        exact nomatch (Prod.mk.inj hr).1
    · intro h
      obtain ⟨rest, -, heq⟩ := hok h
      exact ⟨rest, heq⟩
  · intro hfail
    obtain ⟨buf, rest, hwait⟩ := waitFor_of_none (rdReady_absent hpre hfail) "RD_READY" t.ready
    rw [readHeader, hwait]
    exact ⟨_, _, rfl⟩

end ReadBack

/-- A card whose header sector looks like the trailer. -/
def trickyCard : Card := fun _ => sectorAt (ascii "\nRD_DONE\nRD_READY\n") 0

theorem header_read_back_tricky :
    (∃ rest, readHeader (answerRead (ascii "RD_REA\n") true fun a => some (trickyCard a))
      ⟨[12, 256], [100, 0, 400], [3, 256]⟩ = (.ok (Sd.readHeader trickyCard), rest)) ∧
    ∃ text rest, readHeader (answerRead (ascii "RD_REA\n") true fun _ => none)
      ⟨[12, 256], [], []⟩ = (.error (.runtimeError text), rest) := by
  have hpre : ¬ rdReady <:+: ascii "RD_REA\n" := by decide
  refine ⟨((header_read_back _ hpre true _ _).1 trickyCard rfl rfl).2 ?_,
    (header_read_back _ hpre true (fun _ => none) _).2 (Or.inr rfl)⟩
  constructor <;> decide +kernel

end Neorv32Boot.Sd.Serial
