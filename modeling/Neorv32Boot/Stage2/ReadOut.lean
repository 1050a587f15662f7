import Neorv32Boot.Stage2.Boot
import Neorv32Boot.Stage2.Upload

/-!
# The reading tools of the host and the program

`sd_dump.py` and `read_header` against stage2's `main`, from its reset on: the stream that they read
is what the program prints for their request.  The program is run once for any card, with what its
driver gives (`Reads`).  What comes of it is the stream that the tools were judged on, for some
results of the driver that fit the card (`Gives`).
-/

namespace Neorv32Boot.Sd.Serial

open Gather (gather)
open Stage2 (readyText)

/-! ### What the host makes of any stream -/

section Host

variable {pre : List Byte} {initOk : Bool} {read : BitVec 32 → Option Sector} {t : DumpTimes}
  {start : BitVec 32} {count : ℕ} {answer answer' : List Byte → List Byte}

/-- What `sd_dump.py` writes are the first bytes behind the first marker. -/
lemma dumpPayload_ok {payloadLen : ℕ} {leftover rest data : List Byte}
    (h : dumpPayload t payloadLen leftover rest = .ok data) :
    data = (leftover ++ rest).take payloadLen := by
  rw [dumpPayload] at h
  split_ifs at h with hbad
  have happ := @Gather.gather_append Byte (fun n => min 4096 (payloadLen - n))
    (fun p => decide (payloadLen ≤ p.length)) t.data leftover rest
  dsimp only at h
  split_ifs at h with hlt herr
  obtain rfl := Except.ok.inj h
  rw [← happ, List.take_append_of_le_length (not_lt.1 hlt)]

/-- Nothing else than this request is sent. -/
lemma dumpMain_congr (hcount : count < 2 ^ 32)
    (h : answer (ascii "d" ++ (Bytes.toLE 4 start.toNat ++ Bytes.toLE 4 count)) =
      answer' (ascii "d" ++ (Bytes.toLE 4 start.toNat ++ Bytes.toLE 4 count))) :
    dumpMain answer t start.toNat count = dumpMain answer' t start.toNat count := by
  rw [dumpMain, dumpMain, packU32s_two start.isLt hcount]
  dsimp only
  rw [h]

/-- The parameters that `sd_dump.py` takes. -/
lemma params_of_dumpMain {lba : ℕ} {data : List Byte} (h : dumpMain answer t lba count = .ok data) :
    (1 ≤ count ∧ count ≤ 4096) ∧ lba < 2 ^ 32 := by
  rw [dumpMain] at h
  split_ifs at h with hcount
  refine ⟨by omega, ?_⟩
  by_contra hlba
  rw [packU32s, if_neg fun hall => hlba (hall lba List.mem_cons_self)] at h
  cases h

/-- All sectors are read: nothing else than these is written, whatever the timers do. -/
lemma dumpMain_ok (hpre : ¬ dumpReady <:+: pre) (hcount : 1 ≤ count ∧ count ≤ 4096) {c : Card}
    (hinit : initOk = true)
    (hread : ∀ i < count, read (start + BitVec.ofNat 32 i) = some (c (start + BitVec.ofNat 32 i)))
    {data : List Byte} (h : dumpMain (answerDump pre initOk read) t start.toNat count = .ok data) :
    data = readOut c start count := by
  have hanswer := answerDump_eq pre initOk read start hcount
  rw [if_pos hinit, List.append_assoc, ← List.append_assoc pre] at hanswer
  rcases waitFor_cases (by decide) (dumpReady_first hpre)
    (dumpSectors read start 0 count ++ readyText) "DUMP_READY" t.ready with
    ⟨n, -, -, hwait⟩ | ⟨-, buf, left, hwait⟩
  · rw [dumpMain_of_wait hcount hanswer hwait] at h
    rw [dumpPayload_ok h, List.take_append_drop, dumpSectors_readOut hread, List.append_assoc,
      List.take_append_of_le_length (length_readOut c start count).ge,
      List.take_of_length_le (length_readOut c start count).le]
  · rw [dumpMain_of_wait hcount hanswer hwait] at h
    cases h

/-- `read_header` returns nothing but a sector that was read. -/
lemma readHeader_ok (hpre : ¬ rdReady <:+: pre) {t : ReadTimes} {hdr rest : List Byte}
    (h : readHeader (answerRead pre initOk read) t = (.ok hdr, rest)) :
    ∃ s, read 0 = some s ∧ hdr = s.bytes := by
  by_cases hfail : initOk = false ∨ read 0 = none
  · obtain ⟨buf, left, hwait⟩ := waitFor_of_none (rdReady_absent hpre hfail) "RD_READY" t.ready
    rw [readHeader, hwait] at h
    cases h
  · obtain ⟨hinit, hsome⟩ := not_or.1 hfail
    obtain ⟨s, hs⟩ := Option.ne_none_iff_exists'.1 hsome
    obtain ⟨hok, herr⟩ := readHeader_of_some hpre (Bool.eq_true_of_not_eq_false hinit) hs t
    by_cases hsuff : t.Suffice pre s
    · obtain ⟨_, -, heq⟩ := hok hsuff
      rw [heq] at h
      exact ⟨s, hs, (Except.ok.inj (Prod.mk.inj h).1).symm⟩
    · obtain ⟨_, _, heq⟩ := herr hsuff
      rw [heq] at h
      cases (Prod.mk.inj h).1

end Host

end Neorv32Boot.Sd.Serial

namespace Neorv32Boot.Stage2

open Prog
open Sd (Card Sector)
open Sd.Serial
open Spi (SdCard State)

variable {c : SdCard} {card : Card} {within : BitVec 32 → Prop} {fault : Prop}
  {rest up : State → Bool → Prop} {w : World State} {v : View} {E : Stop → World State → Prop}

/-! ### Results of the driver -/

/-- Results of `sd_init` and `sd_read_block` that fit the card: a read that succeeds gives the
sector, and nothing fails without a fault. -/
structure Gives (card : Card) (fault : Prop) (initOk : Bool) (read : BitVec 32 → Option Sector) :
    Prop where
  init : initOk = false → fault
  sector : ∀ l s, read l = some s → s = card l
  read : ∀ l, read l = none → fault

/-- A call of `sd_read_block`. -/
lemma wp_sdReadBlock_then {α : Type} {Q : α → World State → Prop}
    {f : ℤ × List Byte → Loader State α} {lba : BitVec 32} {r : (ℤ × List Byte) × State}
    (hr : Spi.sdReadBlock c.bus w.isHc lba [] w.card = r)
    (h : wp (f r.1) Q E (w.withCard r.2 w.isHc)) :
    wp (sdReadBlock c.bus lba >>= f) Q E w := by
  rw [sdReadBlock, bind_assoc, wp_bind, wp_get]
  dsimp only
  rw [hr, bind_assoc, wp_bind, wp_set, pure_bind]
  exact h

/-- The loop of a dump goes by the sectors from `start + i` on. -/
lemma dumpSectors_congr {read : BitVec 32 → Option Sector} (read' : BitVec 32 → Option Sector)
    {start : BitVec 32} (i n : ℕ)
    (h : ∀ j, i ≤ j → j < i + n → read (start + BitVec.ofNat 32 j) =
      read' (start + BitVec.ofNat 32 j)) :
    dumpSectors read start i n = dumpSectors read' start i n := by
  induction n generalizing i with
  | zero => rfl
  | succ n ih =>
    rw [dumpSectors, dumpSectors, h i le_rfl (by omega),
      ih (i + 1) fun j hj hj' => h j (by omega) (by omega)]

/-- The loop of `sd_dump`, for whatever the driver gives. -/
lemma Reads.dumpLoop (h : Reads c.bus card within fault rest up) (hw : up w.card w.isHc)
    {start : BitVec 32} (i n : ℕ) (hle : i + n ≤ 2 ^ 32)
    (hin : ∀ j, i ≤ j → j < i + n → within (start + BitVec.ofNat 32 j)) :
    wp (dumpLoop c.bus start i n) (fun _ w' => w'.input = w.input ∧
      ∃ read, Gives card fault true read ∧
        w'.output = w.output ++ dumpSectors read start i n) E w := by
  induction n generalizing i w with
  | zero => exact ⟨rfl, fun l => some (card l), ⟨nofun, by simp, by simp⟩, rfl⟩
  | succ n ih =>
    obtain ⟨hup, hok, hfail⟩ := h.read _ _ _ hw (hin i le_rfl (by omega))
    refine wp_sdReadBlock_then rfl (wp_ite (fun h0 => ?_) fun h0 => ?_)
    · -- a read fails: the loop ends, and what the others would have given does not matter
      refine ⟨rfl, fun _ => none, ⟨nofun, nofun, fun _ _ => hfail h0⟩, ?_⟩
      rw [dumpSectors]
      rfl
    · rw [not_not] at h0
      refine wp_emit_then (wp_mono ?_ (fun _ _ h => h) (ih ?_ (i + 1) (by omega) ?_))
      · rintro _ w' ⟨hinput, read, hgives, hout⟩
        refine ⟨hinput, Function.update read (start + BitVec.ofNat 32 i)
          (some (card (start + BitVec.ofNat 32 i))), ⟨nofun, ?_, ?_⟩, ?_⟩
        · intro l s hl
          by_cases heq : l = start + BitVec.ofNat 32 i
          · rw [heq, Function.update_self] at hl
            rw [heq, ← Option.some.inj hl]
          · rw [Function.update_of_ne heq] at hl
            exact hgives.sector l s hl
        · intro l hl
          by_cases heq : l = start + BitVec.ofNat 32 i
          · rw [heq, Function.update_self] at hl
            cases hl
          · rw [Function.update_of_ne heq] at hl
            exact hgives.read l hl
        · rw [dumpSectors, Function.update_self]
          dsimp only
          -- the sectors behind it have other addresses, as there are fewer than `2 ^ 32`
          rw [dumpSectors_congr read, hout, ← List.append_assoc, ← hok h0]
          · rfl
          · intro j hj hj'
            refine Function.update_of_ne (fun heq => ?_) _ _
            have := congrArg BitVec.toNat ((BitVec.add_right_inj _).1 heq)
            rw [BitVec.toNat_ofNat, BitVec.toNat_ofNat] at this
            omega
      · exact hup
      · exact fun j hj hj' => hin j (by omega) (by omega)

/-- `sd_dump` on its parameters. -/
lemma Reads.sdDump (h : Reads c.bus card within fault rest up) {start count : BitVec 32}
    (hs : Shows rest (v.pending (Bytes.toLE 4 start.toNat ++ Bytes.toLE 4 count.toNat)) w)
    (hin : ∀ j < count.toNat, within (start + BitVec.ofNat 32 j)) :
    wp (sdDump c.bus) (fun _ w' => bytes w'.input = [] ∧ ∃ initOk read,
      Gives card fault initOk read ∧ w'.output = v.output ++
        Sd.Serial.sdDump initOk read (Bytes.toLE 4 start.toNat ++ Bytes.toLE 4 count.toNat))
      E w := by
  obtain ⟨hstart, hcount⟩ := recvU32_words start count
  have hgood : Gives card fault true fun l => some (card l) := ⟨nofun, by simp, by simp⟩
  refine wp_seq hs.recvWord ?_
  rintro _ w₁ ⟨rfl, hs₁⟩
  rw [← List.append_nil (Bytes.toLE 4 count.toNat)] at hs₁
  refine wp_seq hs₁.recvWord ?_
  rintro _ w₂ ⟨rfl, hrest, hview⟩
  have hinput : bytes w₂.input = [] := congrArg View.input hview
  have hout : w₂.output = v.output := congrArg View.output hview
  simp only [Sd.Serial.sdDump, hstart, hcount]
  refine wp_ite (fun hbad => ?_) fun hbad => ?_
  · rw [wp_puts]
    refine ⟨hinput, true, _, hgood, ?_⟩
    rw [if_pos hbad, hout]
  · simp only [if_neg hbad]
    obtain ⟨hup, hfail⟩ := h.init _ _ hrest
    refine wp_sdInit_then rfl (wp_ite (fun h0 => ?_) fun h0 => ?_)
    · rw [wp_puts]
      exact ⟨hinput, false, _, ⟨fun _ => hfail h0, hgood.sector, hgood.read⟩, by rw [← hout]; rfl⟩
    · rw [not_not] at h0
      refine wp_puts_then (wp_mono ?_ (fun _ _ h => h) (h.dumpLoop (hup h0) 0 _ ?_ ?_))
      · rintro _ w' ⟨hinput', read, hgives, hout'⟩
        refine ⟨(congrArg bytes hinput').trans hinput, true, read, hgives, ?_⟩
        rw [hout', ← hout]
        exact List.append_assoc _ _ _
      · rw [Nat.zero_add]
        exact (BitVec.isLt _).le
      · exact fun j _ hj => hin j (by omega)

/-- `sd_read_header` -/
lemma Reads.sdReadHeader (h : Reads c.bus card within fault rest up)
    (hs : Shows rest (v.pending []) w) (hin : within 0) :
    wp (sdReadHeader c.bus) (fun _ w' => bytes w'.input = [] ∧ ∃ initOk read,
      Gives card fault initOk read ∧
        w'.output = v.output ++ Sd.Serial.sdReadHeader initOk read) E w := by
  have hgood : Gives card fault true fun l => some (card l) := ⟨nofun, by simp, by simp⟩
  have hinput : bytes w.input = [] := congrArg View.input hs.view
  have hout : w.output = v.output := congrArg View.output hs.view
  obtain ⟨hup, hfail⟩ := h.init _ _ hs.card
  refine wp_sdInit_then rfl (wp_ite (fun h0 => ?_) fun h0 => ?_)
  · rw [wp_puts]
    exact ⟨hinput, false, _, ⟨fun _ => hfail h0, hgood.sector, hgood.read⟩, by rw [← hout]; rfl⟩
  · rw [not_not] at h0
    obtain ⟨-, hok, hrc⟩ := h.read _ _ _ (hup h0) hin
    refine wp_sdReadBlock_then rfl (wp_ite (fun h1 => ?_) fun h1 => ?_)
    · rw [wp_puts]
      exact ⟨hinput, true, fun _ => none, ⟨nofun, nofun, fun _ _ => hrc h1⟩, by rw [← hout]; rfl⟩
    · rw [not_not] at h1
      refine wp_puts_then (wp_emit_then ?_)
      rw [wp_puts]
      refine ⟨hinput, true, _, hgood, ?_⟩
      simp only [World.say, ← hout]
      show ((w.output ++ rdReady) ++ _) ++ _ = w.output ++ (rdReady ++ (card 0).bytes ++ _)
      rw [← hok h1]
      simp only [List.append_assoc]
      rfl

/-! ### The program and the tools -/

/-- A run with one request that is served: behind the answer the program prints that it is ready,
and it waits. -/
lemma printed_request (clk : BitVec 32) {b : Byte} (payload : List Byte) {P : List Byte → Prop}
    (h : ∀ w₁ : World State, w₁.card = w.card → w₁.isHc = w.isHc →
      w₁.view = ((w.view.started clk).pending payload) →
      wp (mode c.bus (some b)) (fun _ w' => bytes w'.input = [] ∧ P w'.output)
        (fun _ _ => False) w₁) :
    ∃ out, P out ∧ printed c clk w (b :: payload) = out ++ readyText := by
  have hrun : wp (main c.bus clk) (fun _ _ => False)
      (fun _ (w' : World State) => ∃ out, P out ∧ w'.output = out ++ readyText)
      { w with input := (b :: payload).map some } := by
    refine wp_main clk (List.map_cons ..) ?_
    have hview := World.view_started { w with input := (b :: payload).map some } clk
      (payload.map some)
    rw [bytes_map_some] at hview
    have hmode := h { w.started clk with input := payload.map some } rfl rfl hview
    rw [dispatch, wp, exec_loop]
    change wp (Prog.rounds _ _ (_ + 1) _) _ _ _
    rw [Prog.rounds, command, wp_bind, wp_bind]
    refine wp_mono ?_ (fun _ _ => False.elim) hmode
    rintro _ w₂ ⟨hinput, hP⟩
    refine wp_emit_then ?_
    rw [wp_bind]
    refine wp_rawRecv (fun _ => ⟨_, hP, rfl⟩) fun b used rest hw hb => ?_
    have hin : bytes (w₂.say readyText).input = [] := hinput
    rw [hw, bytes_append, hb] at hin
    cases hin
  rcases wp_cases hrun with ⟨_, _, -, hfalse⟩ | ⟨e, w', hexec, hout⟩
  · exact hfalse.elim
  · have hrunOn : runOn c clk w (b :: payload) = (.error e, w') := hexec
    rw [printed_def]
    beta_reduce
    rwa [hrunOn]

variable (clk : BitVec 32)

/-- The stream that `sd_dump.py` reads. -/
lemma Reads.printed_dump (h : Reads c.bus card within fault rest up) (hw : rest w.card w.isHc)
    (start : BitVec 32) {count : ℕ} (hcount : count ≤ 4096)
    (hin : ∀ j < count, within (start + BitVec.ofNat 32 j)) :
    ∃ initOk read, Gives card fault initOk read ∧
      ∀ t, dumpMain (printed c clk w) t start.toNat count =
        dumpMain (answerDump (w.output ++ banner clk) initOk read) t start.toNat count := by
  have hcnt : (BitVec.ofNat 32 count).toNat = count := by
    rw [BitVec.toNat_ofNat]
    omega
  obtain ⟨_, ⟨initOk, read, hgives, rfl⟩, hout⟩ := printed_request (c := c) (w := w) (b := 0x64) clk
    (Bytes.toLE 4 start.toNat ++ Bytes.toLE 4 (BitVec.ofNat 32 count).toNat)
    (P := fun out => ∃ initOk read, Gives card fault initOk read ∧ out = w.output ++ banner clk ++
      Sd.Serial.sdDump initOk read
        (Bytes.toLE 4 start.toNat ++ Bytes.toLE 4 (BitVec.ofNat 32 count).toNat))
    fun w₁ hc hhc hview => h.sdDump ⟨by rwa [hc, hhc], hview⟩ (by rwa [hcnt])
  refine ⟨initOk, read, hgives, fun t => dumpMain_congr (by omega) ?_⟩
  rw [hcnt] at hout
  rw [answerDump, if_pos (List.prefix_append _ _), List.drop_left' (by rfl : _ = 1),
    ← List.append_assoc (w.output ++ banner clk), ← hout]
  rfl

/-- The stream that `read_header` reads. -/
lemma Reads.printed_header (h : Reads c.bus card within fault rest up) (hw : rest w.card w.isHc)
    (hin : within 0) :
    ∃ initOk read, Gives card fault initOk read ∧
      ∀ t, readHeader (printed c clk w) t =
        readHeader (answerRead (w.output ++ banner clk) initOk read) t := by
  obtain ⟨_, ⟨initOk, read, hgives, rfl⟩, hout⟩ := printed_request (c := c) (w := w) (b := 0x52)
    clk [] (P := fun out => ∃ initOk read, Gives card fault initOk read ∧
      out = w.output ++ banner clk ++ Sd.Serial.sdReadHeader initOk read)
    fun w₁ hc hhc hview => h.sdReadHeader ⟨by rwa [hc, hhc], hview⟩ hin
  refine ⟨initOk, read, hgives, fun t => ?_⟩
  have hanswer : printed c clk w (ascii "R") =
      answerRead (w.output ++ banner clk) initOk read (ascii "R") := by
    rw [answerRead, if_pos rfl, ← List.append_assoc (w.output ++ banner clk), ← hout]
    rfl
  rw [readHeader, readHeader, hanswer]

lemma readHeader_eq (card : Card) : Sd.readHeader card = (card 0).bytes := rfl

/-- **The host reads what is on the card.**  Let `sd_dump.py` or `read_header` speak to stage2's
`main` after its reset, with a card at rest that answers CMD58 if it is addressed in blocks, and
with neither marker in what the host has not read yet.  Whatever else the card answers and however
the stream is cut, a dump of sectors with numbers of 32 bits writes what is on the card, where it
looks for these sectors, and a header is what is there for sector 0; or the host gets nothing.  On a
card without faults that is not busy it does get the sectors of its capacity, if no timer runs out
and no `DUMP_BAD` in the sectors comes with the first marker. -/
theorem main_reads_back (c : SdCard) (htells : c.TellsHc) (clk : BitVec 32) (w : World State)
    (hw : w.card.Rests) (hdump : ¬ dumpReady <:+: w.output ++ banner clk)
    (hread : ¬ rdReady <:+: w.output ++ banner clk) :
    (∀ t lba count data, lba + count ≤ 2 ^ 32 →
      dumpMain (printed c clk w) t lba count = .ok data →
      dumped (fun l => w.store (c.home l)) lba count = some data) ∧
    (∀ t hdr rest, readHeader (printed c clk w) t = (.ok hdr, rest) →
      hdr = Sd.readHeader fun l => w.store (c.home l)) ∧
    (c.Sound → Rested w.card w.isHc →
      (∀ t (start : BitVec 32) count data, 1 ≤ count ∧ count ≤ 4096 →
        start.toNat + count ≤ c.capacity → dumped w.store start.toNat count = some data →
        t.Suffice (w.output ++ banner clk) data →
        ¬ dumpBad <:+: data.take (t.early (w.output ++ banner clk) data) →
        dumpMain (printed c clk w) t start.toNat count = .ok data) ∧
      (∀ t, 0 < c.capacity → t.Suffice (w.output ++ banner clk) (w.store 0) →
        ∃ rest, readHeader (printed c clk w) t = (.ok (Sd.readHeader w.store), rest))) := by
  have hany := reads_any htells w.store
  refine ⟨?_, ?_, fun hs hrest => ⟨?_, ?_⟩⟩
  · intro t lba count data hnum hok
    obtain ⟨hcount, hlba⟩ := params_of_dumpMain hok
    obtain ⟨start, rfl⟩ : ∃ start : BitVec 32, lba = start.toNat :=
      ⟨BitVec.ofNat 32 lba, by rw [BitVec.toNat_ofNat, Nat.mod_eq_of_lt hlba]⟩
    obtain ⟨initOk, read, hgives, hstream⟩ := hany.printed_dump clk ⟨hw, rfl⟩ start
      hcount.2 fun _ _ => trivial
    rw [hstream] at hok
    rw [dumped_eq, if_pos hnum, Option.some_inj, eq_comm]
    by_cases hfail : initOk = false ∨ ∃ i < count, read (start + BitVec.ofNat 32 i) = none
    · exact absurd hok (dumpMain_of_none hdump hcount hfail data)
    · obtain ⟨hinit, hsome⟩ := not_or.1 hfail
      refine dumpMain_ok hdump hcount (Bool.eq_true_of_not_eq_false hinit) ?_ hok
      intro i hi
      obtain ⟨s, hs⟩ := Option.ne_none_iff_exists'.1 fun hnone => hsome ⟨i, hi, hnone⟩
      rw [hs, hgives.sector _ _ hs]
  · intro t hdr rest hok
    obtain ⟨initOk, read, hgives, hstream⟩ := hany.printed_header clk ⟨hw, rfl⟩ trivial
    rw [hstream] at hok
    obtain ⟨s, hs, hhdr⟩ := readHeader_ok hread hok
    rw [hhdr, readHeader_eq, hgives.sector 0 s hs]
  · intro t start count data hcount hcap hdata ht hbad
    rw [dumped_eq] at hdata
    split_ifs at hdata
    obtain rfl := Option.some.inj hdata
    obtain ⟨initOk, read, hgives, hstream⟩ := (reads_sound hs w.store).printed_dump clk
      ⟨hrest, rfl⟩ start hcount.2 fun j hj => by
        rw [BitVec.toNat_add, BitVec.toNat_ofNat]
        have := Nat.mod_le (start.toNat + j % 2 ^ 32) (2 ^ 32)
        have := Nat.mod_le j (2 ^ 32)
        omega
    rw [hstream, dumpMain_of_some hdump hcount (Bool.eq_true_of_not_eq_false hgives.init) ?_ ht,
      if_neg hbad]
    intro i hi
    obtain ⟨s, hs⟩ := Option.ne_none_iff_exists'.1 (hgives.read (start + BitVec.ofNat 32 i))
    rw [hs, hgives.sector _ _ hs]
  · intro t hcap ht
    obtain ⟨initOk, read, hgives, hstream⟩ := (reads_sound hs w.store).printed_header clk
      ⟨hrest, rfl⟩ hcap
    obtain ⟨s, hs⟩ := Option.ne_none_iff_exists'.1 (hgives.read 0)
    obtain rfl := hgives.sector _ _ hs
    obtain ⟨rest, -, hok⟩ :=
      (readHeader_of_some hread (Bool.eq_true_of_not_eq_false hgives.init) hs t).1 ht
    exact ⟨rest, (hstream t).trans hok⟩

/-- A card with a header of some bytes, and something else in every other sector. -/
theorem main_reads_back_two :
    let card : Card := fun l => if l = 0 then Sd.sectorAt (Sd.magic ++ [1, 2, 3]) 0
      else Sd.sectorAt (ascii "DUMP_BAD") 0
    let w : World State :=
      ⟨[], [], ⟨false, .ready [], { Spi.blank with store := card }⟩, false, fun _ => 0, 0⟩
    dumpMain (printed (Spi.plainCard true []) 50000000 w) ⟨[256, 256, 256], [700, 700], [100]⟩ 0 2 =
        .ok ((card 0).bytes ++ (card 1).bytes) ∧
      ∃ rest, readHeader (printed (Spi.plainCard true []) 50000000 w)
        ⟨[256, 256], [300, 512], [100]⟩ = (.ok (card 0).bytes, rest) := by
  intro card w
  have hmain := main_reads_back (Spi.plainCard true []) (fun _ _ => rfl) 50000000 w
    ⟨0, { Spi.blank with store := card }, rfl⟩ (by decide +kernel) (by decide +kernel)
  obtain ⟨-, -, hsound⟩ := hmain
  obtain ⟨hdump, hheader⟩ :=
    hsound (Spi.sound_plainCard true) ⟨{ Spi.blank with store := card }, rfl⟩
  have hdata : dumped w.store 0 2 = some ((card 0).bytes ++ (card 1).bytes) := by
    simp [dumped, List.range_succ]
    rfl
  refine ⟨hdump _ 0 2 _ (by decide) (by decide) hdata ?_ ?_, hheader _ (by decide) ?_⟩
  · constructor <;> decide +kernel
  · decide +kernel
  · constructor <;> decide +kernel

end Neorv32Boot.Stage2
