import Neorv32Boot.Stage2.Serial
import Neorv32Boot.Xmodem.Verified

/-!
# The program is a party of the protocol

`xmodem_receive_verified` on the results of `uart_getc_timeout` that stage2 takes in a run of both
parties, whatever the line and the timers do in it: the program returns what stage2 returns there,
it has printed what stage2 has printed, and it has stored what stage2 has stored.
-/

namespace Neorv32Boot.Stage2

open Prog
open Neorv32Boot.Trans (Reachable withHistory)
open Sd (BlocksOnXbus Ram Receipt)
open Xmodem (Pair PairAct Receiver Rx Wait destBytes failedText mismatchText nak reportText)

variable {σ : Type} {dest : BitVec 32} {w : World σ} {m : Ram}

/-! ### What stage2 takes and writes in a run -/

/-- The results of `uart_getc_timeout` so far, and the bytes that stage2 has written. -/
structure Log where
  heard : List (Option Byte)
  said : List Byte

/-- What a step of both parties lets stage2 take. -/
def takes (s : Pair) : PairAct → List (Option Byte)
  | .link (.recv _) | .verdict _ => [s.link.toDev.head?]
  | .link (.devTimeout _) | .verdictTimeout => [none]
  | _ => []

/-- What the receiver writes for a result of `uart_getc_timeout`. -/
def rxWrites (s : Rx) (c : Option Byte) : List Byte := ((s.recv c).map Prod.fst).getD []

/-- What stage2 prints of the result of `xmodem_receive`. -/
def resultText (name : List Byte) (rx : Rx) : List Byte :=
  match rx.wait with
  | .ret size =>
    if size = 0 then failedText name
    else reportText name size (crc32 (destBytes rx.mem size.toNat))
  | _ => []

/-- What stage2 writes in a step of both parties. -/
def writes (name : List Byte) (s : Pair) : PairAct → List Byte
  | .link (.recv _) => rxWrites s.link.rx s.link.toDev.head?
  | .link (.devTimeout _) => rxWrites s.link.rx none
  | .received _ => resultText name s.link.rx
  | .verdict _ => if s.link.toDev.head? = some nak then mismatchText name else []
  | _ => []

/-- One step in the log. -/
def note (name : List Byte) (s : Pair) (a : PairAct) (l : Log) : Log :=
  ⟨l.heard ++ takes s a, l.said ++ writes name s a⟩

/-- Both parties from their start, with the log. -/
def Plays (data name : List Byte) (mem : BitVec 32 → Byte) (toHost : List Byte) (s : Pair)
    (l : Log) : Prop :=
  Reachable (withHistory (Pair.step data name) (note name)) (Pair.start data mem toHost, ⟨[], []⟩)
    (s, l)

/-- No run of the two parties is left out. -/
lemma plays_of_reachable {data name : List Byte} {mem : BitVec 32 → Byte} {toHost : List Byte}
    {s : Pair} (h : Reachable (Pair.step data name) (Pair.start data mem toHost) s) :
    ∃ l, Plays data name mem toHost s l :=
  h.withHistory (note name) ⟨[], []⟩

/-! ### The log of a run -/

/-- What stage2 has taken and written, by where it is. -/
inductive Told (name : List Byte) (rx₀ rx : Rx) : Receiver → Log → Prop
  | receiving {l : Log} (h : rx₀.feed l.heard = some (l.said, rx)) : Told name rx₀ rx .receiving l
  | failed {l : Log} (h : rx₀.feed l.heard = some (l.said, rx)) (hw : rx.wait = .ret 0) :
      Told name rx₀ rx (.returned 0) ⟨l.heard, l.said ++ failedText name⟩
  | verdict {l : Log} {size : BitVec 32} (h : rx₀.feed l.heard = some (l.said, rx))
      (hw : rx.wait = .ret size) (hne : size ≠ 0) :
      Told name rx₀ rx (.verdict size) ⟨l.heard, l.said ++ resultText name rx⟩
  | refused {l : Log} {size : BitVec 32} (h : rx₀.feed l.heard = some (l.said, rx))
      (hw : rx.wait = .ret size) (hne : size ≠ 0) :
      Told name rx₀ rx (.returned 0)
        ⟨l.heard ++ [some nak], l.said ++ resultText name rx ++ mismatchText name⟩
  | accepted {l : Log} {size : BitVec 32} {answer : Option Byte}
      (h : rx₀.feed l.heard = some (l.said, rx)) (hw : rx.wait = .ret size) (hne : size ≠ 0)
      (hans : answer ≠ some nak) :
      Told name rx₀ rx (.returned size) ⟨l.heard ++ [answer], l.said ++ resultText name rx⟩

/-- A receiver that goes on is in `xmodem_receive`. -/
lemma Told.receiving_of_going {name : List Byte} {rx₀ rx : Rx} {p : Receiver} {l : Log}
    (h : Told name rx₀ rx p l) (hw : rx.wait.returned = false) :
    p = .receiving ∧ rx₀.feed l.heard = some (l.said, rx) := by
  cases h with
  | receiving h => exact ⟨rfl, h⟩
  | failed _ hr | verdict _ hr _ | refused _ hr _ | accepted _ hr _ _ =>
    rw [hr] at hw
    cases hw

/-- One more result of `uart_getc_timeout`. -/
lemma Told.recv {name : List Byte} {rx₀ rx rx' : Rx} {p : Receiver} {l : Log} {c : Option Byte}
    {out : List Byte} (h : Told name rx₀ rx p l) (hs : rx.recv c = some (out, rx')) :
    Told name rx₀ rx' p ⟨l.heard ++ [c], l.said ++ rxWrites rx c⟩ := by
  have hw : rx.wait.returned = false := by
    rw [Bool.eq_false_iff]
    intro hret
    cases (Rx.recv_of_returned hret c).symm.trans hs
  obtain ⟨rfl, hfeed⟩ := h.receiving_of_going hw
  refine .receiving ?_
  rw [Rx.feed_concat, hfeed, Option.bind_some, hs, rxWrites, hs]
  rfl

/-- The answer to the CRC. -/
lemma Told.answer {name : List Byte} {rx₀ rx : Rx} {size : BitVec 32} {l : Log}
    (h : Told name rx₀ rx (.verdict size) l) (c : Option Byte) :
    (c = some nak → Told name rx₀ rx (.returned 0) ⟨l.heard ++ [c], l.said ++ mismatchText name⟩) ∧
    (c ≠ some nak → Told name rx₀ rx (.returned size) ⟨l.heard ++ [c], l.said ++ []⟩) := by
  cases h with
  | verdict h hw hne =>
    constructor
    · rintro rfl
      exact .refused h hw hne
    · intro hc
      rw [List.append_nil]
      exact .accepted h hw hne hc

/-- One step of both parties. -/
lemma Told.step {data name : List Byte} {rx₀ : Rx} {s s' : Pair} {a : PairAct} {l : Log}
    (h : Told name rx₀ s.link.rx s.receiver l) (hs : s.step data name a = some s') :
    Told name rx₀ s'.link.rx s'.receiver (note name s a l) := by
  have hnil : l = ⟨l.heard ++ [], l.said ++ []⟩ := by rw [List.append_nil, List.append_nil]
  cases a with
  | link a =>
    obtain ⟨link, hlink, rfl⟩ := Option.map_eq_some_iff.1 hs
    -- what the host does, the receiver does not see
    cases a with
    | send fs =>
      obtain ⟨out, tx, -, rfl⟩ := Xmodem.step_send hlink
      rw [hnil] at h
      exact h
    | read =>
      obtain ⟨c, rest, tx, -, -, rfl⟩ := Xmodem.step_read hlink
      rw [hnil] at h
      exact h
    | hostTimeout =>
      obtain ⟨tx, -, rfl⟩ := Xmodem.step_hostTimeout hlink
      rw [hnil] at h
      exact h
    | recv fs =>
      -- the receiver takes a byte, or a silence: it writes what `Rx.recv` writes
      obtain ⟨c, rest, out, rx, hto, hr, rfl⟩ := Xmodem.step_recv hlink
      have hlog : note name s (.link (.recv fs)) l =
          ⟨l.heard ++ [some c], l.said ++ rxWrites s.link.rx (some c)⟩ := by
        simp only [note, takes, writes, hto, List.head?_cons]
      rw [hlog]
      exact h.recv hr
    | devTimeout fs =>
      obtain ⟨out, rx, hr, rfl⟩ := Xmodem.step_devTimeout hlink
      exact h.recv hr
  | sent =>
    rw [Pair.step] at hs
    rw [hnil] at h
    split at hs <;> cases hs <;> exact h
  | crcRead n fs =>
    rw [Pair.step] at hs
    rw [hnil] at h
    split at hs
    · simp only at hs
      split_ifs at hs <;> cases hs <;> exact h
    · cases hs
  | crcTimeout fs =>
    rw [Pair.step] at hs
    rw [hnil] at h
    split at hs <;> cases hs
    exact h
  | received fs =>
    rw [Pair.step] at hs
    split at hs
    · next size hrecv hw =>
      rw [hrecv] at h
      have hfeed : rx₀.feed l.heard = some (l.said, s.link.rx) := by
        cases h with
        | receiving h => exact h
      have hlog : note name s (.received fs) l =
          ⟨l.heard, l.said ++ resultText name s.link.rx⟩ := by
        simp only [note, takes, writes, List.append_nil]
      rw [hlog]
      -- an empty transfer has failed, and no CRC is printed
      split_ifs at hs with hz <;> cases hs
      · have htext : resultText name s.link.rx = failedText name := by
          simp only [resultText, hw, if_pos hz]
        rw [htext]
        rw [hz] at hw
        exact .failed hfeed hw
      · exact .verdict hfeed hw hz
    · cases hs
  | verdict fs =>
    rw [Pair.step] at hs
    split at hs
    · next size resp rest hv hto =>
      rw [hv] at h
      simp only at hs
      have hlog : note name s (.verdict fs) l = ⟨l.heard ++ [some resp],
          l.said ++ if some resp = some nak then mismatchText name else []⟩ := by
        simp only [note, takes, writes, hto, List.head?_cons]
      rw [hlog]
      split_ifs at hs with hnak <;> cases hs
      · rw [if_pos (congrArg some hnak)]
        exact (h.answer (some resp)).1 (congrArg some hnak)
      · have hne : some resp ≠ some nak := fun h => hnak (Option.some.inj h)
        rw [if_neg hne]
        exact (h.answer (some resp)).2 hne
    · cases hs
  | verdictTimeout =>
    rw [Pair.step] at hs
    split at hs <;> cases hs
    next size hv =>
    rw [hv] at h
    exact (h.answer none).2 (by rintro ⟨⟩)

/-- The log of a run. -/
lemma Plays.told {data name toHost : List Byte} {mem : BitVec 32 → Byte} {s : Pair} {l : Log}
    (h : Plays data name mem toHost s l) : Told name (Rx.start mem) s.link.rx s.receiver l := by
  refine Reachable.inv (I := fun x : Pair × Log =>
    Told name (Rx.start mem) x.1.link.rx x.1.receiver x.2) h (.receiving rfl) ?_
  rintro ⟨s, l⟩ a ⟨s', l'⟩ hI hs
  obtain ⟨t, ht, heq⟩ := Option.map_eq_some_iff.1 hs
  obtain ⟨rfl, rfl⟩ := Prod.mk.inj heq
  exact hI.step ht

/-! ### The program -/

/-- The world when `xmodem_receive` has come so far: it has read `heard`, and the receiver has
written `said`. -/
def World.after (w : World σ) (dest : BitVec 32) (rest : List (Option Byte)) (said : List Byte)
    (rx : Rx) : World σ :=
  { w with input := rest, output := w.output ++ said,
           ram := (⟨0, rx.stores⟩ : Receipt).store w.ram dest }

/-- The program returns with the receiver. -/
lemma exec_xmodemReceive {used rest : List (Option Byte)} {out : List Byte} {rx : Rx}
    {size : BitVec 32} (hin : w.input = used ++ rest)
    (hfeed : (rxAt dest w.ram).feed used = some (out, rx)) (hret : rx.wait = .ret size)
    (hlands : BlocksOnXbus dest rx.stores) :
    exec (xmodemReceive dest) w = (.ok size, w.after dest rest ([nak] ++ out) rx) := by
  refine exec_of_wp (wp_mono ?_ ?_ (wp_xmodemReceive dest w))
  · rintro size' w' ⟨s, h, hw⟩
    obtain ⟨used', out', hused, hfeed', hw'⟩ := h.came
    obtain ⟨-, hrest, rfl, rfl⟩ :=
      feed_unique hfeed hret hfeed' (hin.symm.trans hused) (Or.inl ⟨_, hw⟩)
    rw [hw', Wait.ret.inj (hret.symm.trans hw), hrest, World.after, ← List.append_assoc]
    rfl
  · rintro e w' (⟨rfl, hnil, s, h, hgoing⟩ | ⟨-, used', rest', out', s, hin', hfeed', -, hout⟩)
    · obtain ⟨used', out', hused, hfeed', hw'⟩ := h.came
      obtain ⟨-, -, -, rfl⟩ := feed_unique hfeed hret hfeed' (hin.symm.trans hused) (Or.inr hnil)
      rw [hret] at hgoing
      cases hgoing
    · have hpre := stores_prefix_of_ret hfeed' hfeed hret (hin'.symm.trans hin)
      exact absurd (fun x hx => hlands x (hpre.subset hx)) hout

/-- The program waits with the receiver. -/
lemma exec_xmodemReceive_waiting {out : List Byte} {rx : Rx}
    (hfeed : (rxAt dest w.ram).feed w.input = some (out, rx)) (hgo : rx.wait.returned = false)
    (hlands : BlocksOnXbus dest rx.stores) :
    exec (xmodemReceive dest) w = (.error .waiting, w.after dest [] ([nak] ++ out) rx) := by
  refine exec_of_wp (wp_mono ?_ ?_ (wp_xmodemReceive dest w))
  · rintro size' w' ⟨s, h, hw⟩
    obtain ⟨used', out', hused, hfeed', hw'⟩ := h.came
    have heq : used' ++ w'.input = w.input ++ [] := by rw [List.append_nil, ← hused]; rfl
    obtain ⟨-, -, -, rfl⟩ := feed_unique hfeed' hw hfeed heq (Or.inr rfl)
    rw [hw] at hgo
    cases hgo
  · rintro e w' (⟨rfl, hnil, s, h, hgoing⟩ | ⟨-, used', rest', out', s, hin', hfeed', -, hout⟩)
    · obtain ⟨used', out', hused, hfeed', hw'⟩ := h.came
      rw [hnil, List.append_nil] at hused
      rw [← hused] at hfeed'
      obtain ⟨rfl, rfl⟩ := Prod.mk.inj (Option.some.inj (hfeed.symm.trans hfeed'))
      rw [hw', hnil, World.after, ← List.append_assoc]
      rfl
    -- what has been stored stays stored
    · have hwhole : w.input = used' ++ rest' := hin'
      rw [hwhole, Rx.feed_append, show (rxAt dest w.ram).feed used' = some (out', s) from hfeed',
        Option.bind_some] at hfeed
      obtain ⟨⟨o, s'⟩, hmore, heq⟩ := Option.map_eq_some_iff.1 hfeed
      obtain ⟨-, rfl⟩ := Prod.mk.inj heq
      exact absurd (fun x hx => hlands x ((Rx.stores_prefix hmore).subset hx)) hout

/-! ### What is stored -/

/-- What the receiver has stored is in the SDRAM. -/
structure Fits (dest : BitVec 32) (rx : Rx) : Prop where
  le : 0x40000000 ≤ dest.toNat
  lt : dest.toNat + 128 * rx.stores.length ≤ 0x42000000

/-- It is for the XBUS, too. -/
lemma Fits.lands {used : List (Option Byte)} {out : List Byte} {rx : Rx} (h : Fits dest rx)
    (hfeed : (rxAt dest m).feed used = some (out, rx)) : BlocksOnXbus dest rx.stores := by
  obtain ⟨hle, hlt⟩ := h
  exact ((numbered_of_feed hfeed).onXbus_iff ⟨hle, by omega⟩).2 ⟨hle, by omega⟩

/-- The CRC of the program is the one of the receiver. -/
lemma loadBytes_after {used : List (Option Byte)} {out : List Byte} {rx : Rx} {size : BitVec 32}
    (hfeed : (rxAt dest m).feed used = some (out, rx)) (hret : rx.wait = .ret size)
    (hne : size ≠ 0) (hfit : Fits dest rx) :
    loadBytes ((⟨0, rx.stores⟩ : Receipt).store m dest) dest size.toNat =
      destBytes rx.mem size.toNat := by
  have hrec := Rx.received hfeed
  obtain ⟨-, hsize, -⟩ := (hrec.ended _ hret).resolve_left hne
  have hk : rx.stores.length ≤ 2 ^ 25 := by
    have := hfit.lt
    omega
  have hnum := numbered_of_feed hfeed
  have hlen := hnum.length_flatten
  have hstore : (⟨0, rx.stores⟩ : Receipt).store m dest =
      m.storeBytes dest (rx.stores.map Prod.snd).flatten := hnum.foldl_eq m dest
  have hn : size.toNat = (rx.stores.map Prod.snd).flatten.length := by
    have := hfit.lt
    rw [hsize, hrec.total_eq, hlen, BitVec.toNat_ofNat]
    omega
  rw [hstore, hn, loadBytes_storeBytes]
  · refine List.ext_getElem (by rw [destBytes, List.length_map, List.length_range])
      fun j hj hj' => ?_
    have hj₂ : (BitVec.ofNat 32 j).toNat = j := by
      have := hfit.lt
      rw [BitVec.toNat_ofNat]
      omega
    simp only [destBytes, List.getElem_map, List.getElem_range]
    rw [hrec.mem_eq hk, hj₂, List.getD_eq_getElem?_getD]
    change _ = (((rx.stores.map Prod.snd).flatten)[j]?).getD _
    rw [List.getElem?_eq_getElem hj, Option.getD_some]
  · have := hfit.lt
    omega
  · intro i hi
    have hle := hfit.le
    have hlt := hfit.lt
    exact Sd.inSdram_add (n := 128 * rx.stores.length) hle hlt (by omega)

/-! ### `xmodem_receive_verified` -/

/-- What the program prints before it begins, with its first `NAK`. -/
def openingText (name : String) : List Byte :=
  ascii "[stage2] send " ++ ascii name ++ ascii " via xmodem\r\n" ++ [nak]

/-- The world when it begins. -/
abbrev opened (w : World σ) (name : String) : World σ :=
  ((w.say (ascii "[stage2] send ")).say (ascii name)).say (ascii " via xmodem\r\n")

section Verified

variable {name : String} {heard rest : List (Option Byte)} {out : List Byte} {rx : Rx}
  {size : BitVec 32}

seal Prog.wp

/-- A transfer that fails. -/
lemma exec_verified_failed (hin : w.input = heard ++ rest)
    (hfeed : (rxAt dest w.ram).feed heard = some (out, rx)) (hw : rx.wait = .ret 0)
    (hfit : Fits dest rx) :
    exec (xmodemReceiveVerified dest name) w =
      (.ok 0, w.after dest rest (openingText name ++ (out ++ failedText (ascii name))) rx) := by
  refine exec_of_wp ?_
  rw [xmodemReceiveVerified]
  refine wp_puts_then (wp_puts_then (wp_puts_then ?_))
  rw [wp_bind, wp_of_ok (exec_xmodemReceive (w := opened w name) hin hfeed hw (hfit.lands hfeed)),
    if_pos rfl]
  refine wp_puts_then (wp_puts_then (wp_puts_then ?_))
  rw [wp_pure]
  simp only [World.after, World.say, openingText, failedText, List.append_assoc]

/-- A transfer and the answer to its CRC. -/
lemma exec_verified {answer : Option Byte} (hin : w.input = heard ++ answer :: rest)
    (hfeed : (rxAt dest w.ram).feed heard = some (out, rx)) (hw : rx.wait = .ret size)
    (hne : size ≠ 0) (hfit : Fits dest rx) :
    exec (xmodemReceiveVerified dest name) w =
      if answer = some nak then
        (.ok 0, w.after dest rest (openingText name ++
          (out ++ resultText (ascii name) rx ++ mismatchText (ascii name))) rx)
      else (.ok size,
        w.after dest rest (openingText name ++ (out ++ resultText (ascii name) rx)) rx) := by
  have hcrc := loadBytes_after hfeed hw hne hfit
  have hresult : resultText (ascii name) rx =
      reportText (ascii name) size (crc32 (destBytes rx.mem size.toNat)) := by
    simp only [resultText, hw, if_neg hne]
  rw [hresult]
  refine exec_of_wp ?_
  rw [xmodemReceiveVerified]
  refine wp_puts_then (wp_puts_then (wp_puts_then ?_))
  rw [wp_bind, wp_of_ok (exec_xmodemReceive (w := opened w name) hin hfeed hw (hfit.lands hfeed)),
    if_neg hne, crcAt, bind_assoc, wp_bind, wp_get]
  dsimp only
  rw [pure_bind]
  refine wp_puts_then (wp_puts_then (wp_puts_then (wp_emit_then (wp_puts_then (wp_emit_then
    (wp_puts_then ?_))))))
  rw [wp_bind]
  refine wp_getc (fun hnil => ?_) fun c rest' hrest => ?_
  · cases hnil
  · obtain ⟨rfl, rfl⟩ := List.cons.inj (show answer :: rest = c :: rest' from hrest)
    refine wp_ite (fun hnak => ?_) fun hnak => ?_
    · refine wp_puts_then (wp_puts_then (wp_puts_then (wp_emit_then (wp_puts_then ?_))))
      rw [wp_pure, if_pos hnak]
      simp only [World.after, World.say, opened, openingText, reportText, mismatchText, dash,
        List.append_assoc, hcrc]
    · rw [wp_pure, if_neg hnak]
      simp only [World.after, World.say, opened, openingText, reportText, List.append_assoc, hcrc]

/-- A transfer that goes on. -/
lemma exec_verified_waiting
    (hfeed : (rxAt dest w.ram).feed w.input = some (out, rx)) (hgo : rx.wait.returned = false)
    (hfit : Fits dest rx) :
    exec (xmodemReceiveVerified dest name) w =
      (.error .waiting, w.after dest [] (openingText name ++ out) rx) := by
  refine exec_of_wp ?_
  rw [xmodemReceiveVerified]
  refine wp_puts_then (wp_puts_then (wp_puts_then ?_))
  rw [wp_bind, wp_of_error (exec_xmodemReceive_waiting (w := opened w name) hfeed hgo
    (hfit.lands hfeed))]
  simp only [World.after, World.say, opened, openingText, List.append_assoc]

end Verified

/-- **The program is a party of the protocol.** Take any run of both parties in which the blocks
that stage2 has stored are in the SDRAM, with any faults of the line and any timers, and give the
program what `uart_getc_timeout` has come to in that run.  When stage2 has returned in the run, the
program returns the same size, it has written the same bytes behind its opening, it has stored the
same blocks and taken the same input.  While stage2 is in its transfer, the program waits, with the
same bytes written and the same blocks stored. -/
theorem xmodemReceiveVerified_plays {data toHost : List Byte} {name : String} {s : Pair} {l : Log}
    (h : Plays data (ascii name) (fun o => w.ram.load (dest + o)) toHost s l)
    (hfit : Fits dest s.link.rx) :
    (∀ size rest, s.receiver = .returned size → w.input = l.heard ++ rest →
      exec (xmodemReceiveVerified dest name) w =
        (.ok size, w.after dest rest (openingText name ++ l.said) s.link.rx)) ∧
    (s.link.rx.wait.returned = false → w.input = l.heard →
      exec (xmodemReceiveVerified dest name) w =
        (.error .waiting, w.after dest [] (openingText name ++ l.said) s.link.rx)) := by
  have htold := h.told
  constructor
  · intro size rest hret hin
    rw [hret] at htold
    generalize hp : Receiver.returned size = p at htold
    cases htold with
    | receiving | verdict => cases hp
    | failed hfeed hw =>
      obtain rfl := Receiver.returned.inj hp
      exact exec_verified_failed hin hfeed hw hfit
    | refused hfeed hw hne =>
      obtain rfl := Receiver.returned.inj hp
      rw [List.append_assoc] at hin
      exact (exec_verified hin hfeed hw hne hfit).trans (if_pos rfl)
    | accepted hfeed hw hne hans =>
      obtain rfl := Receiver.returned.inj hp
      rw [List.append_assoc] at hin
      exact (exec_verified hin hfeed hw hne hfit).trans (if_neg hans)
  · intro hgo hin
    obtain ⟨-, hfeed⟩ := htold.receiving_of_going hgo
    rw [← hin] at hfeed
    exact exec_verified_waiting hfeed hgo hfit

/-- A payload of one byte, over a line without faults. -/
theorem xmodemReceiveVerified_plays_one : ∃ (s : Pair) (l : Log),
    let w : World Unit := ⟨l.heard, [], (), false, fun _ => 0, 115200⟩
    s.receiver = .returned 128 ∧ exec (xmodemReceiveVerified Sd.kernelLoadAddr "DTB") w =
      (.ok 128, w.after Sd.kernelLoadAddr [] (openingText "DTB" ++ l.said) s.link.rx) := by
  have hrun : ((Trans.run (withHistory (Pair.step (Xmodem.pad [0x2A]) (ascii "DTB"))
      (note (ascii "DTB"))) (Pair.start (Xmodem.pad [0x2A]) (fun o => Sd.Ram.load (fun _ => 0)
        (Sd.kernelLoadAddr + o)) [], ⟨[], []⟩) Xmodem.verifiedRun).map fun x =>
        decide (x.1.receiver = .returned 128) && decide (x.1.link.rx.stores.length = 1)) =
      some true := by
    decide +kernel
  obtain ⟨⟨s, l⟩, hs, heq⟩ := Option.map_eq_some_iff.1 hrun
  simp only [Bool.and_eq_true, decide_eq_true_eq] at heq
  obtain ⟨hret, hlen⟩ := heq
  refine ⟨s, l, ?_⟩
  intro w
  have hplays : Plays (Xmodem.pad [0x2A]) (ascii "DTB")
      (fun o => w.ram.load (Sd.kernelLoadAddr + o)) [] s l := Trans.reachable_of_run hs
  have hfit : Fits Sd.kernelLoadAddr s.link.rx := ⟨le_rfl, by rw [hlen]; decide⟩
  exact ⟨hret, (xmodemReceiveVerified_plays hplays hfit).1 128 [] hret (List.append_nil _).symm⟩

end Neorv32Boot.Stage2
