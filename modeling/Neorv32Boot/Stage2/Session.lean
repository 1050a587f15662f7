import Neorv32Boot.Stage2.Served

/-!
# A session

A run of stage2 on a card without faults.  The test of the SDRAM passes, and whatever requests come
behind it are served one after the other, each as if it were the only one, wherever the line is
silent in between.
-/

namespace Neorv32Boot.Stage2

open Prog
open Sd (Ram Segment)
open Spi (SdCard State)

variable {c : SdCard} {w : World State} {v : View} {E : Stop → World State → Prop}

/-! ### The test of the SDRAM -/

/-- `base` of `sdram_test` -/
def testBase : BitVec 32 := 0x41F00000

/-- A word of the test. -/
def testWord (i : ℕ) : BitVec 32 := 0xDEAD0000 ||| BitVec.ofNat 32 i

/-- The first words of the test, as bytes. -/
def testBytes (n : ℕ) : List Byte :=
  ((List.range n).map fun i => (testWord i).toNat).flatMap (Bytes.toLE 4)

lemma length_testBytes (n : ℕ) : (testBytes n).length = 4 * n := by
  rw [testBytes, Bytes.length_flatMap_toLE, List.length_map, List.length_range]

/-- One more word. -/
lemma storeBytes_testBytes (m : Ram) (i : ℕ) :
    (m.storeBytes testBase (testBytes i)).storeBytes (testBase + BitVec.ofNat 32 (4 * i))
      (Bytes.toLE 4 (testWord i).toNat) = m.storeBytes testBase (testBytes (i + 1)) := by
  have hsucc : testBytes (i + 1) = testBytes i ++ Bytes.toLE 4 (testWord i).toNat := by
    simp [testBytes, List.range_succ]
  rw [hsucc, Sd.Ram.storeBytes_append, length_testBytes]

/-- A word of the test is read as it was written. -/
lemma loadWord_testBytes (m : Ram) {n i : ℕ} (hn : n ≤ 64) (hi : i < n) :
    loadWord (m.storeBytes testBase (testBytes n)) (testBase + BitVec.ofNat 32 (4 * i)) =
      testWord i := by
  have hlen := length_testBytes n
  have hbytes : loadBytes (m.storeBytes testBase (testBytes n))
      (testBase + BitVec.ofNat 32 (4 * i)) 4 = ((testBytes n).drop (4 * i)).take 4 := by
    refine List.ext_getElem ?_ fun j hj hj' => ?_
    · simp only [loadBytes, List.length_map, List.length_range, List.length_take,
        List.length_drop, hlen]
      omega
    · have hj4 : j < 4 := by simpa [loadBytes] using hj
      have hlt : 4 * i + j < (testBytes n).length := by omega
      have haddr : testBase + BitVec.ofNat 32 (4 * i) + BitVec.ofNat 32 j =
          testBase + BitVec.ofNat 32 (4 * i + j) := by
        rw [BitVec.add_assoc, ← BitVec.ofNat_add]
      have hin : Sdram.inSdram (testBase + BitVec.ofNat 32 (4 * i + j)) = true :=
        Sd.inSdram_add (n := 256) (by decide) (by decide) (by omega)
      simp only [loadBytes, List.getElem_map, List.getElem_range, List.getElem_take,
        List.getElem_drop, haddr]
      exact Sd.Ram.load_storeBytes m testBase (testBytes n) hlt (by omega) hin
  have hword := Bytes.leAt_flatMap_toLE 4 ((List.range n).map fun i => (testWord i).toNat) i
    (by simpa using hi) [] ?_
  · rw [List.append_nil, Bytes.leAt, ← testBytes] at hword
    rw [loadWord, hbytes, hword]
    simp
  · intro x hx
    obtain ⟨j, -, rfl⟩ := List.mem_map.1 hx
    exact (testWord j).isLt

section Start

variable {σ : Type} {w : World σ} {E : Stop → World σ → Prop}

/-- The loop that checks finds no error. -/
lemma wp_checkWords (i n errors : ℕ)
    (h : ∀ j < i + n, loadWord w.ram (testBase + BitVec.ofNat 32 (4 * j)) = testWord j) :
    wp (checkWords testBase i n errors) (fun r w' => r = errors ∧ w' = w) E w := by
  induction n generalizing i with
  | zero => exact ⟨rfl, rfl⟩
  | succ n ih =>
    rw [checkWords, wp_bind, wp_get]
    dsimp only
    have hexp : 0xDEAD0000 ||| BitVec.ofNat 32 i = testWord i := rfl
    rw [h i (by omega), hexp, if_neg (not_not.2 rfl)]
    exact ih (i + 1) fun j hj => h j (by omega)

/-- The loop that writes. -/
lemma wp_testWrites {n : ℕ} (hn : n ≤ 64) :
    wp (upFrom (fun i => storeBytes (testBase + BitVec.ofNat 32 (4 * i))
      (Bytes.toLE 4 (testWord i).toNat)) 0 n)
      (fun _ w' => w' = { w with ram := w.ram.storeBytes testBase (testBytes n) }) E w := by
  refine wp_mono (fun _ w' h => ?_) (fun _ _ h => h) (wp_upFrom (fun i w' =>
    w' = { w with ram := w.ram.storeBytes testBase (testBytes i) }) 0 n rfl ?_)
  · rwa [Nat.zero_add] at h
  · rintro i w' - hi rfl
    have hlen := Bytes.length_toLE 4 (testWord i).toNat
    have hbase : testBase.toNat = 0x41F00000 := rfl
    have hxbus : Sd.OnXbus (testBase + BitVec.ofNat 32 (4 * i))
        (Bytes.toLE 4 (testWord i).toNat).length := by
      have hadd : (testBase + BitVec.ofNat 32 (4 * i)).toNat = testBase.toNat + 4 * i := by bv_omega
      exact ⟨by omega, by omega⟩
    refine wp_storeBytes (fun _ => ?_) fun hout => absurd hxbus hout
    rw [← storeBytes_testBytes]

/-- `sdram_test` with `n` words. -/
def sdramTestOf (n : ℕ) : Loader σ Bool := do
  puts "[stage2] SDRAM word-write test...\r\n"
  upFrom (fun i => storeBytes (testBase + BitVec.ofNat 32 (4 * i))
    (Bytes.toLE 4 (testWord i).toNat)) 0 n
  let errors ← checkWords testBase 0 n 0
  if errors = 0 then
    puts "[stage2] SDRAM test PASS\r\n"
    pure true
  else pure false

lemma sdramTest_eq : (sdramTest : Loader σ Bool) = sdramTestOf 64 := by
  with_unfolding_all rfl

/-- The world when the program has printed something. -/
def World.say (w : World σ) (bs : List Byte) : World σ := { w with output := w.output ++ bs }

/-- The test passes. -/
lemma wp_sdramTest {n : ℕ} (hn : n ≤ 64) {p : Loader σ Bool} (hp : p = sdramTestOf n) :
    wp p (fun pass w' => pass = true ∧
      w' = { w.say (ascii "[stage2] SDRAM word-write test...\r\n" ++
        ascii "[stage2] SDRAM test PASS\r\n") with
          ram := w.ram.storeBytes testBase (testBytes n) }) E w := by
  rw [hp, sdramTestOf, wp_bind, wp_puts]
  refine wp_seq (wp_testWrites hn) ?_
  rintro _ _ rfl
  refine wp_seq (wp_checkWords 0 n 0 fun j hj => loadWord_testBytes _ hn (by omega)) ?_
  rintro _ _ ⟨rfl, rfl⟩
  rw [if_pos rfl]
  refine ⟨rfl, ?_⟩
  simp only [World.say, List.append_assoc]

/-- The prompt of stage2. -/
def prompt : String :=
  "[stage2] l=xmodem s=smoke d=dump w=wtest W=wmulti R=rdhdr B=baud b=bootSD else=U-Boot\r\n"

/-- What stage2 prints before its first command. -/
def banner (clk : BitVec 32) : List Byte :=
  ascii "\r\n[stage2] ready - RV32IMAC NEORV32 loader\r\n" ++ (ascii "[stage2] CLK=" ++
    (puthex32 clk ++ (ascii "\r\n" ++ (ascii "[stage2] SDRAM word-write test...\r\n" ++
      (ascii "[stage2] SDRAM test PASS\r\n" ++ ascii prompt)))))

/-- The SDRAM after the test. -/
def testedRam (m : Ram) : Ram := m.storeBytes testBase (testBytes 64)

/-- The world after the start. -/
def World.started (w : World σ) (clk : BitVec 32) : World σ :=
  { w with output := w.output ++ banner clk, ram := testedRam w.ram, baud := 115200 }

/-- The start leads to the prompt. -/
lemma wp_startUp (clk : BitVec 32) :
    wp (startUp clk) (fun _ w' => w' = w.started clk) E w := by
  rw [startUp, wp_bind, wp_modify]
  simp only [putsHex, bind_assoc]
  rw [wp_bind, wp_puts, wp_bind, wp_puts, wp_bind, wp_emit, wp_bind, wp_puts]
  refine wp_seq (wp_sdramTest le_rfl sdramTest_eq) ?_
  rintro _ _ ⟨rfl, rfl⟩
  rw [if_neg (by decide), wp_puts]
  simp only [World.say, World.started, banner, prompt, testedRam, List.append_assoc]

/-- A command that does not come back. -/
lemma wp_last_round {bus : Bus Byte σ} {cmd : Option Byte} {Q : Empty → World σ → Prop} {n : ℕ}
    (h : wp (mode bus cmd) (fun _ _ => False) E w) :
    wp (Prog.rounds .waiting (command bus) (n + 1) cmd) Q E w := by
  rw [Prog.rounds, command, wp_bind, wp_bind]
  exact wp_mono (fun _ _ h => h.elim) (fun _ _ h => h) h

/-- A run with a command. -/
lemma wp_main (clk : BitVec 32) {cmd : Option Byte} {rest : List (Option Byte)}
    (hin : w.input = cmd :: rest) {bus : Bus Byte σ} {Q : Empty → World σ → Prop}
    (hrun : wp (dispatch bus cmd) Q E { w.started clk with input := rest }) :
    wp (main bus clk) Q E w := by
  rw [main]
  refine wp_seq (wp_startUp clk) ?_
  rintro _ _ rfl
  rw [wp_bind]
  refine wp_getc ?_ ?_
  · intro hnil
    rw [World.started, hin] at hnil
    cases hnil
  · intro b rest' hrest
    rw [World.started, hin] at hrest
    obtain ⟨rfl, rfl⟩ := List.cons.inj hrest
    exact hrun

end Start

/-! ### Requests, one after the other -/

/-- What can be seen after the start. -/
def View.started (v : View) (clk : BitVec 32) : View :=
  { v with output := v.output ++ banner clk, ram := testedRam v.ram, baud := 115200 }

lemma World.view_started_ram (w : World State) (clk : BitVec 32) :
    (w.view.started clk).ram = testedRam w.ram := by
  simp only [World.view, View.started]

lemma World.view_started (w : World State) (clk : BitVec 32) (rest : List (Option Byte)) :
    ({ w.started clk with input := rest } : World State).view =
      (w.view.started clk).pending (bytes rest) := by
  simp only [World.view, World.started, World.store, View.started, View.pending]

/-- What requests do, one after the other.  Behind each of them stage2 says that it is ready. -/
def serveAll (hc : Bool) (rs : List Request) (v : View) : View :=
  rs.foldl (fun v r => (r.serve hc v).say readyText) v

@[simp] lemma serve_pending (hc : Bool) (r : Request) (v : View) (bs : List Byte) :
    r.serve hc (v.pending bs) = (r.serve hc v).pending bs := by
  cases r <;> rfl

/-- The bytes of requests. -/
def wires (rs : List Request) : List Byte := rs.flatMap Request.wire

lemma length_le_wires (rs : List Request) : rs.length ≤ (wires rs).length := by
  induction rs with
  | nil => exact le_rfl
  | cons r rs ih =>
    simp only [wires, List.flatMap_cons, Request.wire, List.length_cons, List.length_append] at ih ⊢
    omega

/-- The rounds of the dispatcher for some requests, and what it does with what comes behind
them. -/
lemma Shows.rounds (hs : c.Sound) {Q : Empty → World State → Prop} (r : Request)
    (rs : List Request) (hvalid : ∀ q ∈ r :: rs, q.Valid c.capacity) {bs : List Byte} {n : ℕ}
    (h : Shows Rested (v.pending (r.payload ++ (wires rs ++ bs))) w)
    (hrest : ∀ w, Shows Rested ((serveAll c.hc (r :: rs) v).pending bs) w →
      wp (Stage2.rawRecv >>= fun b => Prog.rounds .waiting (command c.bus) n (some b)) Q E w) :
    wp (Prog.rounds .waiting (command c.bus) (n + (rs.length + 1)) (some r.code)) Q E w := by
  induction rs generalizing r v w with
  | nil =>
    rw [List.length_nil, Prog.rounds, command, wp_bind, wp_bind]
    refine wp_mono ?_ (fun _ _ h => h) (h.serve hs r (hvalid r List.mem_cons_self))
    intro _ w h
    rw [wp_bind]
    refine wp_mono ?_ (fun _ _ h => h) (h.emit _)
    intro _ w h
    rw [serve_pending, View.pending_say] at h
    have hend := hrest w h
    rw [wp_bind] at hend ⊢
    exact hend
  | cons q rs ih =>
    rw [List.length_cons, ← Nat.add_assoc, Prog.rounds, command, wp_bind, wp_bind]
    refine wp_mono ?_ (fun _ _ h => h) (h.serve hs r (hvalid r List.mem_cons_self))
    intro _ w h
    rw [wp_bind]
    refine wp_mono ?_ (fun _ _ h => h) (h.emit _)
    intro _ w h
    rw [serve_pending, View.pending_say, wires, List.flatMap_cons, List.append_assoc,
      Request.wire, List.cons_append] at h
    rw [wp_bind]
    refine wp_mono ?_ (fun _ _ h => h) h.recvByte
    rintro b w ⟨rfl, h⟩
    exact ih q (fun q' hq' => hvalid q' (List.mem_cons_of_mem _ hq')) h hrest

/-- Nothing is left to be read. -/
lemma Shows.waits {K : State → Bool → Prop} {α : Type} {f : Byte → Loader State α}
    {Q : α → World State → Prop} (h : Shows K (v.pending []) w) :
    wp (rawRecv >>= f) Q (fun e w' => e = .waiting ∧ Shows K (v.pending []) w') w := by
  have hin : bytes w.input = [] := congrArg View.input h.view
  rw [wp_bind]
  refine wp_rawRecv ?_ ?_
  · intro _
    refine ⟨rfl, h.card, ?_⟩
    have hview := h.view
    rw [World.view, hin] at hview
    exact hview
  · intro b used rest hw hb
    rw [hw, bytes_append, hb] at hin
    cases hin

end Neorv32Boot.Stage2
