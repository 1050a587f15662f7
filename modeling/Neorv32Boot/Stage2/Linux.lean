import Neorv32Boot.Stage2.Party

/-!
# Booting with `boot_linux.py`

The three transfers of `boot_linux.py`, over a line without faults and in any order of the steps of
both sides, against the program of stage2 from its reset on.
-/

namespace Neorv32Boot.Stage2

open Prog
open Neorv32Boot.Trans (Reachable withHistory)
open Replace (OccursAt)
open Sd (Boot Files PatchesOnce Ram Receipt Receives dtbLoadAddr endCell execTest initrdLoadAddr
  kernelLoadAddr seenDtb sentinel testAddr)
open Xmodem (Pair PairAct Rx Timed.pairStep pad retryMax waitingText nak)

variable {σ : Type} {dest : BitVec 32} {m : Ram} {r k d i : Receipt} {f : Files}
  {payload name : List Byte} {heard input : List (Option Byte)}

/-! ### Sessions -/

/-- A transfer over a line without faults that both sides end well, and what the calls of
`uart_getc_timeout` come to in it.  Stage2 has printed `toHost` before the host begins.  Its waits
for the host that run out, and those of the transfer that run out too early, are nine at most, with
the `NAK`s that it has printed. -/
def Session (payload name : List Byte) (dest : BitVec 32) (m : Ram) (r : Receipt)
    (heard : List (Option Byte)) : Prop :=
  ∃ timeouts budget toHost y l crcBuf, Xmodem.ack ∉ toHost ∧
    toHost.count nak + timeouts + budget ≤ 9 ∧
    Reachable (withHistory (Timed.pairStep (pad payload) name) fun x => note name x.1)
      ((Pair.startAfter (pad payload) (fun o => m.load (dest + o)) timeouts toHost, budget),
        ⟨List.replicate timeouts none, []⟩) (y, l) ∧
    y.1.sender = .returned true crcBuf ∧ y.1.receiver = .returned r.size ∧
    y.1.link.rx.stores = r.stores ∧ l.heard = heard

/-- The three sessions of `boot_linux.py`, one after the other. -/
def Sessions (f : Files) (m : Ram) (input : List (Option Byte)) : Prop :=
  ∃ k d i uk ud ui, input = uk ++ (ud ++ ui) ∧
    Session f.image (ascii "kernel") kernelLoadAddr m k uk ∧
    Session f.dtb (ascii "DTB") dtbLoadAddr (k.store m kernelLoadAddr) d ud ∧
    Session f.initrd (ascii "initramfs") initrdLoadAddr
      (d.store (k.store m kernelLoadAddr) dtbLoadAddr) i ui

lemma Session.receives (h : Session payload name dest m r heard) :
    Receives payload name dest m r := by
  obtain ⟨timeouts, budget, toHost, y, l, crcBuf, hack, hsum, hreach, hsender, hret, hstores, -⟩ :=
    h
  exact ⟨timeouts, budget, toHost, y, crcBuf, hack, hsum, hreach.forget, hsender, hret, hstores⟩

/-- Every such transfer is a session. -/
lemma session_of_receives (h : Receives payload name dest m r) :
    ∃ heard, Session payload name dest m r heard := by
  obtain ⟨timeouts, budget, toHost, y, crcBuf, hack, hsum, hreach, hsender, hret, hstores⟩ := h
  obtain ⟨l, hl⟩ := hreach.withHistory (fun x => note name x.1) ⟨List.replicate timeouts none, []⟩
  exact ⟨l.heard, timeouts, budget, toHost, y, l, crcBuf, hack, hsum, hl, hsender, hret, hstores,
    rfl⟩

/-- There are three such sessions. -/
lemma exists_sessions (hne : ∀ s, f.file s ≠ []) (hlen : ∀ s, (f.file s).length ≤ 2048000)
    (m : Ram) : ∃ input, Sessions f m input := by
  have hpad : ∀ s, (pad (f.file s)).length < 2 ^ 32 := fun s => by
    have hle := hlen s
    have hbounds := Sd.length_pad_bounds (f.file s)
    omega
  obtain ⟨uk, huk⟩ := session_of_receives (Receives.exists (hne .image) (hpad .image)
    (show (0x3A : Byte) ∉ ascii "kernel" by decide) kernelLoadAddr m)
  obtain ⟨ud, hud⟩ := session_of_receives (Receives.exists (hne .dtb) (hpad .dtb)
    (show (0x3A : Byte) ∉ ascii "DTB" by decide) dtbLoadAddr _)
  obtain ⟨ui, hui⟩ := session_of_receives (Receives.exists (hne .initrd) (hpad .initrd)
    (show (0x3A : Byte) ∉ ascii "initramfs" by decide) initrdLoadAddr _)
  exact ⟨_, _, _, _, uk, ud, ui, rfl, huk, hud, hui⟩

/-! ### A session is a transfer -/

/-- Waits for a frame that run out. -/
lemma feed_silences (rx : Rx) (hw : rx.wait = .cmd) (n : ℕ) (hn : rx.retries + n ≤ retryMax) :
    ∃ out, rx.feed (List.replicate n none) = some (out, { rx with retries := rx.retries + n }) := by
  induction n generalizing rx with
  | zero => exact ⟨[], rfl⟩
  | succ n ih =>
    obtain ⟨out, hfeed⟩ := ih { rx with retries := rx.retries + 1 } hw
      (by rw [Nat.add_assoc, Nat.add_comm 1]; exact hn)
    refine ⟨waitingText ++ [nak] ++ out, ?_⟩
    rw [List.replicate_succ, Rx.feed, Rx.timeout_cmd hw (by omega)]
    simp only [hfeed, Option.map_some]
    rw [Nat.add_assoc, Nat.add_comm 1]

/-- A step over a line without faults is one of both parties. -/
lemma step_of_pairStep {data name : List Byte} {x y : Pair × ℕ} {a : PairAct}
    (h : Timed.pairStep data name x a = some y) : x.1.step data name a = some y.1 := by
  cases a with
  | link a =>
    obtain ⟨l, hl, rfl⟩ := Option.map_eq_some_iff.1 h
    have hs : x.1.link.step data a = some l.1 := by
      rcases Xmodem.Timed.step_cases hl with ⟨-, hs, -⟩ | ⟨-, -, hs, -⟩ | ⟨-, hs, -⟩ <;> exact hs
    rw [Pair.step, hs]
    rfl
  | sent =>
    obtain ⟨s, hs, rfl⟩ := Option.map_eq_some_iff.1 h
    exact hs
  | crcRead n fs =>
    cases fs with
    | nil =>
      obtain ⟨s, hs, rfl⟩ := Option.map_eq_some_iff.1 h
      exact hs
    | cons => cases h
  | received fs | verdict fs =>
    cases fs with
    | nil =>
      obtain ⟨s, hs, rfl⟩ := Option.map_eq_some_iff.1 h
      exact hs
    | cons => cases h
  | crcTimeout | verdictTimeout => cases h

/-- What stage2 takes in a session is a transfer for the program. -/
lemma Session.transfer (h : Session payload name dest m r heard) (hne : payload ≠ [])
    (hlen : payload.length ≤ 2048000) (hname : (0x3A : Byte) ∉ name)
    (hdest : Sdram.inSdram dest = true) :
    r = .ofData (pad payload) ∧ Transfer dest m heard r := by
  have hbounds := Sd.length_pad_bounds payload
  have hpos := List.length_pos_iff.2 hne
  have hr := h.receives.eq hne (by omega) hname
  obtain ⟨timeouts, budget, toHost, y, l, crcBuf, -, hsum, hreach, -, hret, hstores, rfl⟩ := h
  have hmax : retryMax = 20 := rfl
  obtain ⟨out, hfeed⟩ := feed_silences (rxAt dest m) rfl timeouts
    (show (rxAt dest m).retries + timeouts ≤ retryMax by
      rw [show (rxAt dest m).retries = 0 from rfl]
      omega)
  -- the log of the session, from the silences before it on
  have htold : ∃ said, Told name (rxAt dest m) y.1.link.rx y.1.receiver ⟨l.heard, said⟩ := by
    refine hreach.inv (I := fun y : (Pair × ℕ) × Log => ∃ said,
      Told name (rxAt dest m) y.1.1.link.rx y.1.1.receiver ⟨y.2.heard, said⟩)
      ⟨out, .receiving ?_⟩ ?_
    · rw [hfeed, show (rxAt dest m).retries = 0 from rfl, Nat.zero_add]
      rfl
    · rintro ⟨x, l⟩ a ⟨x', l'⟩ ⟨said, hl⟩ hs
      obtain ⟨z, hz, heq⟩ := Option.map_eq_some_iff.1 hs
      obtain ⟨rfl, rfl⟩ := Prod.mk.inj heq
      exact ⟨_, hl.step (step_of_pairStep hz)⟩
  obtain ⟨said, hl⟩ := htold
  have hsize : r.size ≠ 0 := by
    rw [hr, Sd.ofData_size]
    bv_omega
  refine ⟨hr, ?_⟩
  rw [hret] at hl
  generalize hlog : (⟨l.heard, said⟩ : Log) = log at hl
  generalize hp : Xmodem.Receiver.returned r.size = p at hl
  cases hl with
  | receiving | verdict => cases hp
  | failed | refused => exact absurd (Xmodem.Receiver.returned.inj hp) hsize
  | accepted hfeed hw _ hans =>
    obtain rfl := Xmodem.Receiver.returned.inj hp
    obtain ⟨hheard, -⟩ := Log.mk.inj hlog
    rw [Sdram.inSdram_iff] at hdest
    have hlands : (Receipt.ofData (pad payload)).Lands dest :=
      Sd.lands_ofData (Xmodem.length_pad _) ⟨hdest.1, by omega⟩
    refine ⟨⟨_, _, hheard, ⟨⟨_, _, hfeed, hw, hstores⟩, ?_⟩, hans⟩, hsize⟩
    rw [hr]
    exact hlands.1

/-! ### From the reset to the kernel -/

/-- The routine behind a kernel that is not too long is in the SDRAM. -/
lemma routineFits {n : ℕ} (hn : n ≤ 2048128) : RoutineFits (BitVec.ofNat 32 n) := by
  intro q hq
  have k1 := Sd.kernelLoadAddr_toNat
  have k2 := Sd.dtbLoadAddr_toNat
  have hge := Sd.testAddr_ge (n := n) (by omega)
  have hle := Sd.testAddr_le (n := n) (by omega)
  have hlen : execTest.length = 16 := rfl
  exact Sd.inSdram_add (n := 16) (by omega) (by omega) (by omega)

/-- The bytes that the patch looks at, after the three sessions. -/
def sentDtb (f : Files) : List Byte := seenDtb (pad f.dtb) (pad f.initrd)

/-- **From `boot_linux.py` to the kernel.** Take three files that are not empty and have 2048000
bytes at most, and three sessions over lines without faults in which `boot_linux.py` sends them and
stage2 takes them, in any order of the steps of both sides and with nine early waits and `NAK`s at
most in each.  Whatever device is on the bus, the program does the same from its reset on, when it
is given what the calls of `uart_getc_timeout` have come to in these sessions: it jumps to the
kernel exactly when the sentinel is once in the padded DTB and the end of the padded initramfs forms
no other one, and else it halts.  At the jump the SDRAM holds the three padded files, with that end
in the cell of the sentinel and with the test routine behind the kernel, as `mode_linux` alone
leaves it, and the rest of the input is left. -/
theorem main_boots_linux (bus : Bus Byte σ) (clk : BitVec 32) {f : Files}
    (hne : ∀ s, f.file s ≠ []) (hlen : ∀ s, (f.file s).length ≤ 2048000) {w : World σ}
    (h : Sessions f (testedRam w.ram) input) (rest : List (Option Byte))
    (hin : w.input = some 0x6C :: (input ++ rest)) :
    ∃ e w', exec (main bus clk) w = (.error e, w') ∧
      (e = .jumped kernelLoadAddr [0, dtbLoadAddr] ↔
        PatchesOnce (sentDtb f) (BitVec.ofNat 32 (pad f.initrd).length)) ∧
      (e ≠ .jumped kernelLoadAddr [0, dtbLoadAddr] → e = .halted) ∧
      (e = .jumped kernelLoadAddr [0, dtbLoadAddr] → w'.input = rest ∧
        Sd.linuxEnd (testedRam w.ram) f = .jump w'.ram ∧
        ∃ p, OccursAt sentinel (sentDtb f) p ∧
          w'.ram = ((Sd.received (testedRam w.ram) f).storeBytes (dtbLoadAddr + BitVec.ofNat 32 p)
            (endCell (initrdLoadAddr + BitVec.ofNat 32 (pad f.initrd).length))).storeBytes
              (testAddr (BitVec.ofNat 32 (pad f.image).length)) execTest) := by
  obtain ⟨k, d, i, uk, ud, ui, rfl, hk, hd, hi⟩ := h
  obtain ⟨rfl, huk⟩ := hk.transfer (hne .image) (hlen .image) (by decide) (by decide)
  obtain ⟨rfl, hud⟩ := hd.transfer (hne .dtb) (hlen .dtb) (by decide) (by decide)
  obtain ⟨rfl, hui⟩ := hi.transfer (hne .initrd) (hlen .initrd) (by decide) (by decide)
  have hfits : RoutineFits (Receipt.ofData (pad f.image)).size := by
    have hle : f.image.length ≤ 2048000 := hlen .image
    have hbounds := Sd.length_pad_bounds f.image
    exact routineFits (by omega)
  obtain ⟨w₁, hw₁⟩ : ∃ w₁ : World σ,
      w₁ = { w.started clk with input := uk ++ (ud ++ ui) ++ rest } := ⟨_, rfl⟩
  have hram₁ : w₁.ram = testedRam w.ram := by rw [hw₁, World.started]
  have hin₁ : w₁.input = uk ++ (ud ++ ui) ++ rest := by rw [hw₁]
  -- the inputs of the three sessions, one after the other
  have htrans : Transfers [kernelLoadAddr, dtbLoadAddr, initrdLoadAddr] w₁.ram w₁.input
      [.ofData (pad f.image), .ofData (pad f.dtb), .ofData (pad f.initrd)]
      (Sd.received (testedRam w.ram) f) rest := by
    have hstore := fun b => Sd.store_ofData (Xmodem.length_pad b)
    rw [hin₁, hram₁, List.append_assoc, List.append_assoc, Sd.received, ← hstore, ← hstore,
      ← hstore]
    exact .cons huk (.cons hud (.cons hui (.nil _ _)))
  have hrun : wp (main bus clk) (fun _ _ => False) (fun e w' => LinuxEnds w₁ e w') w := by
    refine wp_main clk hin ?_
    have hmode : mode bus (some 0x6C) = modeLinux := rfl
    have hround := wp_modeLinux w₁
    rw [← hmode] at hround
    rw [← hw₁, dispatch, loop, wp_bind, wp_get]
    exact wp_last_round hround
  have hdtb : (pad f.dtb).length < 2 ^ 32 := by
    have hle : f.dtb.length ≤ 2048000 := hlen .dtb
    have hbounds := Sd.length_pad_bounds f.dtb
    omega
  have hbytes : seenDtb (Receipt.ofData (pad f.dtb)).bytes (Receipt.ofData (pad f.initrd)).bytes =
      sentDtb f := by
    rw [sentDtb, Sd.bytes_ofData (Xmodem.length_pad _), Sd.bytes_ofData (Xmodem.length_pad _)]
  rcases wp_cases hrun with ⟨_, _, -, hfalse⟩ | ⟨e, w', hexec, hends⟩
  · exact hfalse.elim
  -- a jump is behind these three transfers
  have hjump : e = .jumped kernelLoadAddr [0, dtbLoadAddr] →
      PatchesOnce (sentDtb f) (BitVec.ofNat 32 (pad f.initrd).length) ∧ w'.input = rest ∧
      ∃ p, OccursAt sentinel (sentDtb f) p ∧
        w'.ram = ((Sd.received (testedRam w.ram) f).storeBytes (dtbLoadAddr + BitVec.ofNat 32 p)
          (endCell (initrdLoadAddr + BitVec.ofNat 32 (pad f.initrd).length))).storeBytes
            (testAddr (BitVec.ofNat 32 (pad f.image).length)) execTest := by
    intro he
    obtain ⟨k, d, i, honce, -, m₀, p, hs, hp, hram⟩ := hends.jump he
    obtain ⟨heq, rfl, hrest⟩ := htrans.unique hs
    obtain ⟨rfl, rfl, rfl⟩ : Receipt.ofData (pad f.image) = k ∧ Receipt.ofData (pad f.dtb) = d ∧
        Receipt.ofData (pad f.initrd) = i := by simpa using heq
    rw [hbytes] at honce hp
    exact ⟨honce, hrest.symm, p, hp, hram⟩
  refine ⟨e, w', hexec, ⟨fun he => (hjump he).1, fun honce => ?_⟩, fun he => ?_, fun he => ?_⟩
  · by_contra he
    obtain ⟨p, hp⟩ := honce.1.exists
    rw [← hbytes] at honce hp
    have hloads : ∃ m, Loads w₁ (.ofData (pad f.image)) (.ofData (pad f.dtb))
        (.ofData (pad f.initrd)) m rest := ⟨_, ⟨honce, hfits, _, p, htrans, hp, rfl⟩⟩
    obtain ⟨m, hloads⟩ := hloads
    exact hends.none he _ _ _ _ _ hloads
  · exact hends.halts he _ _ _ _ _ htrans hfits
  · obtain ⟨honce, hrest, p, hp, hram⟩ := hjump he
    refine ⟨hrest, ?_, p, hp, hram⟩
    obtain ⟨hone, hcell⟩ := htrans.patch
    rw [hbytes, Sd.ofData_size, Sd.ofData_size, BitVec.toNat_ofNat,
      Nat.mod_eq_of_lt hdtb] at hone hcell
    rw [Sd.linuxEnd_of_one (hone.2 honce), hcell honce p hp, ← hram]

/-- Three small files. -/
theorem main_boots_linux_small : ∃ input, ∀ rest : List (Option Byte),
    ∃ e w', exec (main (Spi.plainCard true []).bus 50000000)
        ⟨some 0x6C :: (input ++ rest), [], ⟨false, .ready [], Spi.blank⟩, false, fun _ => 0, 0⟩ =
        (.error e, w') ∧
      e = .jumped kernelLoadAddr [0, dtbLoadAddr] ∧ w'.input = rest := by
  let f : Files := ⟨[1], sentinel, [3]⟩
  have hne : ∀ s, f.file s ≠ [] := by rintro (_ | _ | _) <;> exact List.cons_ne_nil _ _
  have hlen : ∀ s, (f.file s).length ≤ 2048000 := by rintro (_ | _ | _) <;> decide
  obtain ⟨input, hinput⟩ := exists_sessions hne hlen (testedRam fun _ => 0)
  refine ⟨input, fun rest => ?_⟩
  obtain ⟨e, w', hexec, hjump, -, hat⟩ := main_boots_linux (Spi.plainCard true []).bus 50000000
    hne hlen (w := ⟨some 0x6C :: (input ++ rest), [], ⟨false, .ready [], Spi.blank⟩, false,
      fun _ => 0, 0⟩) hinput rest rfl
  have honce : PatchesOnce (sentDtb f) (BitVec.ofNat 32 (pad f.initrd).length) := by
    have hdtb := Sd.length_pad_bounds f.dtb
    have hinitrd := Sd.length_pad_bounds f.initrd
    have hd : f.dtb.length = 4 := rfl
    have hi : f.initrd.length = 1 := rfl
    rw [sentDtb, Sd.seenDtb_of_le (by omega)]
    refine ⟨⟨0, (Sd.occursAt_pad _ _).2 Sd.sentinelAt_sentinel.1, fun q hq => ?_⟩,
      Sd.not_reforms_of_block (by omega) (Xmodem.length_pad _)⟩
    exact Sd.sentinelAt_sentinel.2 q ((Sd.occursAt_pad _ _).1 hq)
  exact ⟨e, w', hexec, hjump.2 honce, (hat (hjump.2 honce)).1⟩

end Neorv32Boot.Stage2
