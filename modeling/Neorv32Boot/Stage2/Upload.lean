import Neorv32Boot.Sd.Agreement
import Neorv32Boot.Stage2.Desk
import Neorv32Boot.Stage2.Endless

/-!
# The host and the program

`multi_seg_write` of the host against stage2's `main`, from its reset on, with a card on the bus
that may fail in any way.  The host is the one of the dialogue, and what it reads is what the
program has printed when it has taken what the host has sent.  The program is the party of the
dialogue with the card on its bus, so that every step of the host is a step of the dialogue, or two
of them, and what is known of the places of the dialogue reaches the program.
-/

namespace Neorv32Boot.Sd

/-! ### Places of the dialogue -/

section Places

variable {env : Env} {segments : List Segment} {card : Card} {pre : List Byte} {ph ph' : Phase}
  {v v' : View}

/-- Only the mode command is on the way to a dispatcher. -/
lemma At.hello_of (h : At env segments card pre ph v) (hd : v.dev = .dispatch)
    (hne : v.toDev ≠ []) : ph = .hello := by
  cases ph with
  | hello => rfl
  | init | nacked | raised | finish | done => exact absurd h.2.1 hne
  | ready | go => exact absurd h.2.2.1 hne
  | write => exact absurd h.2.2.2.2.1 hne
  | acked | failed => exact absurd h.2.2.2.1 hne
  | count =>
    obtain ⟨-, -, ⟨got, hdev, -⟩, -⟩ := h
    cases hd.symm.trans hdev
  | header =>
    obtain ⟨-, -, -, ⟨got, hdev, -⟩, -⟩ := h
    cases hd.symm.trans hdev
  | sector =>
    obtain ⟨-, -, -, -, ⟨got, hdev, -⟩, -⟩ := h
    cases hd.symm.trans hdev

/-- The sector that stage2 writes. -/
lemma At.writing (h : At env segments card pre ph v) {n k lba cnt i : BitVec 32} {rx : Sector}
    (hd : v.dev = .sdWrite n k lba cnt i rx) :
    ∃ ws more, segments.flatMap Segment.writes = ws ++ (lba + i, rx) :: more ∧
      Wrote env card v ws := by
  have hno : ∀ {dev : Dev}, v.dev = dev → dev ≠ .sdWrite n k lba cnt i rx → False :=
    fun hv hne => hne (hv.symm.trans hd)
  cases ph with
  | write front seg rest i' =>
    obtain ⟨hsplit, hi, -, -, -, hdev, hw⟩ := h
    cases hdev.symm.trans hd
    obtain ⟨more, hmore⟩ := flatMap_writes_split (i' + 1) hsplit
    rw [writesTo_succ front hi, List.append_assoc] at hmore
    exact ⟨_, more, hmore, hw⟩
  | acked =>
    obtain ⟨-, -, -, -, hw, -⟩ := h
    refine (hno (congrArg Prod.snd hw) ?_).elim
    rw [Dev.written]
    split_ifs <;> rintro ⟨⟩
  | count =>
    obtain ⟨-, -, ⟨got, hdev, -⟩, -⟩ := h
    exact (hno hdev (by rintro ⟨⟩)).elim
  | header =>
    obtain ⟨-, -, -, ⟨got, hdev, -⟩, -⟩ := h
    exact (hno hdev (by rintro ⟨⟩)).elim
  | sector =>
    obtain ⟨-, -, -, -, ⟨got, hdev, -⟩, -⟩ := h
    exact (hno hdev (by rintro ⟨⟩)).elim
  | failed =>
    obtain ⟨-, -, -, -, hdev, -⟩ := h
    exact (hno hdev (by rintro ⟨⟩)).elim
  | ready | go => exact (hno h.2.2.2.1 (by rintro ⟨⟩)).elim
  | hello | init | nacked | raised | finish | done => exact (hno h.2.2.1 (by rintro ⟨⟩)).elim

/-- Every other place is behind the first one. -/
lemma At.rank_lt (h : At env segments card pre ph v) (hne : ph ≠ .hello) :
    ph.rank segments < Phase.hello.rank segments := by
  have hahead : ∀ front (seg : Segment) rest, segments = front ++ seg :: rest →
      ahead rest + 5 * seg.secCount + 5 ≤ ahead segments := by
    rintro front seg rest rfl
    simp only [ahead, List.map_append, List.sum_append, List.map_cons, List.sum_cons]
    omega
  cases ph with
  | hello => exact absurd rfl hne
  | header front seg rest | sector front seg rest i | write front seg rest i
  | acked front seg rest i | failed front seg rest i =>
    have := hahead front seg rest h.1
    simp only [Phase.rank]
    omega
  | _ =>
    simp only [Phase.rank]
    omega

/-- A later place. -/
def Later (segments : List Segment) (ph : Phase) (v : View) (ph' : Phase) (v' : View) : Prop :=
  ph'.rank segments < ph.rank segments ∨
    (ph'.rank segments = ph.rank segments ∧ v'.size < v.size)

lemma Later.trans {ph'' : Phase} {v'' : View} (h : Later segments ph v ph' v')
    (h' : Later segments ph' v' ph'' v'') : Later segments ph v ph'' v'' := by
  rcases h with h | ⟨h, hv⟩ <;> rcases h' with h' | ⟨h', hv'⟩
  · exact Or.inl (h'.trans h)
  · exact Or.inl (h'.trans_lt h)
  · exact Or.inl (h'.trans_eq h)
  · exact Or.inr ⟨h'.trans h, hv'.trans hv⟩

/-- The first place is not come to again. -/
lemma Later.ne_hello (h : At env segments card pre ph v) (hl : Later segments ph v ph' v')
    (hne : ph ≠ .hello) : ph' ≠ .hello := by
  rintro rfl
  have := h.rank_lt hne
  rcases hl with hl | ⟨hl, -⟩ <;> omega

/-- Stage2 takes a byte when it listens. -/
lemma Dev.Listens.recv {d : Dev} (h : d.Listens) (b : Byte) : ∃ r, d.recv b = some r := by
  cases d with
  | sdInit | sdWrite | command => exact h.elim
  | dispatch | recvCount | recvHdr | recvSector =>
    simp only [Dev.recv]
    split_ifs <;> exact ⟨_, rfl⟩

end Places

end Neorv32Boot.Sd

namespace Neorv32Boot.Stage2

open Feed (Talk TalkAct feed)
open Prog
open Sd (At Dev Env Host Later Phase Sector Segment Sys mwReady twoSegments)
open Spi (SdCard State)
open Neorv32Boot.Trans (Inevitable Reachable withHistory)

/-! ### The host with the program -/

section System

variable (c : SdCard) (clk : BitVec 32) (w : World State)

/-- Stage2 on what the host has sent. -/
def runOn (sent : List Byte) : Except Stop Empty × World State :=
  exec (main c.bus clk) { w with input := sent.map some }

/-- What it has printed. -/
def printed (sent : List Byte) : List Byte := (runOn c clk w sent).2.output

-- Between the functions, since on an argument the kernel would run `main` to find the output.
lemma printed_def : printed = fun c clk w sent => (runOn c clk w sent).2.output := rfl

/-- One step of the host. -/
def hostStep (segments : List Segment) : Talk Host Byte → TalkAct → Option (Talk Host Byte) :=
  Talk.step (Host.read segments) (printed c clk w)

/-- The host has begun with its command. -/
def hostStart : Talk Host Byte := ⟨.waitReady [], [0x57], [], 0⟩

/-- What an upload needs: the card tells its kind, `sd_init` succeeds, stage2 accepts the segments,
every LBA in them has an address on the card, and the host is not fooled by what stage2 prints
before. -/
structure Uploads (segments : List Segment) : Prop where
  tells : c.TellsHc
  rests : w.card.Rests
  init : (Spi.sdInit c.bus w.card).1.1 = 0
  pos : 1 ≤ segments.length
  le : segments.length ≤ 16
  ok : ∀ s ∈ segments, s.Ok
  home : ∀ x ∈ segments.flatMap Segment.writes, c.home x.1 = x.1
  quiet : ¬ mwReady <:+: w.output ++ banner clk

end System

/-! ### The faults of a card -/

variable {c : SdCard} {clk : BitVec 32} {w : World State} {segments : List Segment}

/-- The card after some calls of `sd_write_block`. -/
def afterWrites (c : SdCard) (isHc : Bool) (s : State) (ws : List (BitVec 32 × Sector)) : State :=
  ws.foldl (fun s x => (Spi.sdWriteBlock c.bus isHc x.1 x.2.bytes s).2) s

lemma afterWrites_concat (isHc : Bool) (s : State) (ws : List (BitVec 32 × Sector))
    (x : BitVec 32 × Sector) : afterWrites c isHc s (ws ++ [x]) =
      (Spi.sdWriteBlock c.bus isHc x.1 x.2.bytes (afterWrites c isHc s ws)).2 := by
  rw [afterWrites, List.foldl_append]
  rfl

/-- What the card makes of the writes of a dialogue, which begins with `sd_init` in `s`. -/
def faults (c : SdCard) (s : State) (ws : List (BitVec 32 × Sector)) : Env where
  initOk := true
  fault k := ws[k]?.bind fun x =>
    let r := Spi.sdInit c.bus s
    let r' := Spi.sdWriteBlock c.bus r.1.2 x.1 x.2.bytes (afterWrites c r.1.2 r.2 (ws.take k))
    if r'.1 = 0 then none else some (BitVec.ofInt 32 r'.1, r'.2.core.store x.1)

/-- A write of what is there then. -/
lemma write_back {k k' : Sd.Card} {l : BitVec 32} {x : Sector}
    (h : k' = k ∨ k' = k.write [(l, x)]) : k.write [(l, k' l)] = k' := by
  funext j
  by_cases hj : j = l
  · rw [hj, Sd.Card.write_one]
  · have hout : ∀ y, k.write [(l, y)] j = k j := fun y => by
      refine Lanes.storeAll_of_forall_ne fun z hz => ?_
      obtain rfl := List.mem_singleton.1 hz
      exact Ne.symm hj
    rw [hout]
    rcases h with rfl | rfl
    · rfl
    · exact (hout x).symm

/-- A write to a card that is ready. -/
lemma Ready.write {s : State} {isHc : Bool} (h : Ready c s isHc) {l : BitVec 32}
    (hl : c.home l = l) (x : Sector) {r : ℤ × State}
    (hr : Spi.sdWriteBlock c.bus isHc l x.bytes s = r) :
    (r.2.core.store = s.core.store ∨ r.2.core.store = s.core.store.write [(l, x)]) ∧
      (r.1 = 0 → Ready c r.2 isHc ∧ r.2.core.store = s.core.store.write [(l, x)]) := by
  obtain ⟨⟨k, rfl, hlen⟩, rfl⟩ := h
  obtain ⟨n, k', hk', hblk, hstore, hok⟩ := SdCard.sdWriteBlock_rest c k l x
  rw [hr] at hk' hok
  rw [hl] at hstore hok
  rw [hk']
  refine ⟨hstore, fun h0 => ?_⟩
  obtain ⟨rfl, hwritten⟩ := hok h0
  exact ⟨⟨⟨k', rfl, fun hc => hblk.trans (hlen hc)⟩, rfl⟩, hwritten⟩

section Party

variable {b : Byte} {rest : List Byte} {pre : List Byte} {ph : Phase} {d : Desk State} {v : Sd.View}

/-- The writes of the segments. -/
abbrev writesOf (segments : List Segment) : List (BitVec 32 × Sector) :=
  segments.flatMap Segment.writes

/-- The party with the card is at this place of the dialogue: stage2 is outside the driver, and the
card has made of the writes what the dialogue has made of them. -/
structure Tracks (c : SdCard) (w : World State) (segments : List Segment) (pre : List Byte)
    (ph : Phase) (d : Desk State) (v : Sd.View) : Prop where
  place : At (faults c w.card (writesOf segments)) segments w.store pre ph v
  dev : v.dev = d.dev
  store : v.card = d.card.core.store
  listens : d.dev.Listens
  start : ph = .hello → d = ⟨.dispatch, w.card, w.isHc⟩
  serves : d.dev ≠ .dispatch → Ready c d.card d.isHc ∧ d.isHc = (Spi.sdInit c.bus w.card).1.2 ∧
    d.card = afterWrites c d.isHc (Spi.sdInit c.bus w.card).2 ((writesOf segments).take v.writes)
  upto : ∃ n, v.card = w.store.write ((writesOf segments).take n)

lemma Uploads.accepted (hup : Uploads c clk w segments) :
    Sd.Accepted (faults c w.card (writesOf segments)) segments (w.output ++ banner clk) :=
  ⟨rfl, hup.pos, hup.le, hup.ok, hup.quiet⟩

/-- What the party does with a byte. -/
lemma Desk.recv_eq (bus : Bus Byte State) {out : List Byte} {dev : Dev}
    (h : d.dev.recv b = some (out, dev)) (hno : ∀ m, dev ≠ .command m) :
    d.recv bus b = some (out ++ (Desk.work bus { d with dev := dev }).1,
      (Desk.work bus { d with dev := dev }).2) := by
  rw [Desk.recv, h, Option.bind_some]
  split
  · next m hm => exact absurd hm (hno m)
  · next hm => rfl

lemma Desk.work_of_listens {bus : Bus Byte State} {dev : Dev} (h : dev.Listens) :
    Desk.work bus { d with dev := dev } = ([], { d with dev := dev }) := by
  cases dev with
  | sdInit | sdWrite => exact h.elim
  | _ => rfl

/-- The host has begun. -/
lemma Tracks.begun (c : SdCard) (w : World State) (segments : List Segment) (pre : List Byte) :
    Tracks c w segments pre .hello ⟨.dispatch, w.card, w.isHc⟩
      ⟨.waitReady [], [0x57], .dispatch, pre, w.store, 0⟩ where
  place := ⟨⟨[], rfl, rfl⟩, rfl, rfl, ⟨rfl, rfl, fun j hj => absurd hj (Nat.not_lt_zero j)⟩⟩
  dev := rfl
  store := rfl
  listens := trivial
  start _ := rfl
  serves hno := absurd rfl hno
  upto := ⟨0, rfl⟩

/-- The step of the dialogue that a call of `sd_init` is. -/
lemma Tracks.init (hup : Uploads c clk w segments)
    (hat : At (faults c w.card (writesOf segments)) segments w.store pre ph v)
    (hdev : v.dev = .sdInit) (hcard : v.card = w.store) (hwrites : v.writes = 0) (hne : ph ≠ .hello)
    (ha : Sd.Accepted (faults c w.card (writesOf segments)) segments pre) :
    ∃ ph' v', Tracks c w segments pre ph' (Desk.work c.bus ⟨.sdInit, w.card, w.isHc⟩).2 v' ∧
      Later segments ph v ph' v' ∧ v'.host = v.host ∧ v'.toDev = v.toDev ∧
      v'.toHost = v.toHost ++ (Desk.work c.bus ⟨.sdInit, w.card, w.isHc⟩).1 := by
  obtain ⟨hrests, hstore, hok⟩ := SdCard.sdInit_rest hup.tells hup.rests
  obtain ⟨hhc, hready⟩ := hok hup.init
  obtain ⟨ph', hat', hlater⟩ := hat.step ha (.init hdev rfl)
  have hwork : Desk.work c.bus ⟨.sdInit, w.card, w.isHc⟩ =
      (mwReady, ⟨.recvCount [], (Spi.sdInit c.bus w.card).2, (Spi.sdInit c.bus w.card).1.2⟩) :=
    if_neg (not_not.2 hup.init)
  rw [hwork]
  refine ⟨ph', _, ⟨hat', rfl, hcard.trans hstore.symm, trivial, ?_, ?_, 0, ?_⟩, hlater, rfl, rfl,
    rfl⟩
  · intro hhello
    exact absurd hhello (Later.ne_hello hat hlater hne)
  · intro _
    refine ⟨⟨hready, hhc⟩, rfl, ?_⟩
    rw [show (_ : Sd.View).writes = 0 from hwrites]
    rfl
  · exact hcard

lemma listens_written (n k lba cnt i : BitVec 32) : (Dev.written n k lba cnt i).2.Listens := by
  rw [Dev.written]
  split_ifs <;> trivial

/-- The step of the dialogue that a call of `sd_write_block` is. -/
lemma Tracks.write (hup : Uploads c clk w segments) {n k lba cnt i : BitVec 32} {rx : Sector}
    (hat : At (faults c w.card (writesOf segments)) segments w.store pre ph v)
    (hdev : v.dev = .sdWrite n k lba cnt i rx) (hstore : v.card = d.card.core.store)
    (hready : Ready c d.card d.isHc) (hhc : d.isHc = (Spi.sdInit c.bus w.card).1.2)
    (hcard : d.card = afterWrites c d.isHc (Spi.sdInit c.bus w.card).2
      ((writesOf segments).take v.writes)) (hne : ph ≠ .hello)
    (ha : Sd.Accepted (faults c w.card (writesOf segments)) segments pre) :
    ∃ ph' v', Tracks c w segments pre ph'
        (Desk.work c.bus { d with dev := .sdWrite n k lba cnt i rx }).2 v' ∧
      Later segments ph v ph' v' ∧ v'.host = v.host ∧ v'.toDev = v.toDev ∧
      v'.toHost = v.toHost ++ (Desk.work c.bus { d with dev := .sdWrite n k lba cnt i rx }).1 := by
  obtain ⟨ws, more, hws, hw⟩ := Sd.At.writing hat hdev
  obtain ⟨r, hr⟩ : ∃ r, Spi.sdWriteBlock c.bus d.isHc (lba + i) rx.bytes d.card = r := ⟨_, rfl⟩
  have hhome := hup.home (lba + i, rx) (by rw [hws]; simp)
  obtain ⟨hold, hok⟩ := hready.write hhome rx hr
  have hget : (writesOf segments)[v.writes]? = some (lba + i, rx) := by
    rw [writesOf, hws, hw.writes_eq, List.getElem?_append_right le_rfl, Nat.sub_self]
    rfl
  have htake : (writesOf segments).take v.writes = ws := by
    rw [writesOf, hws, hw.writes_eq, List.take_left' rfl]
  have htake' : (writesOf segments).take (v.writes + 1) = ws ++ [(lba + i, rx)] := by
    rw [List.take_add_one, htake, hget]
    rfl
  have hfault : (faults c w.card (writesOf segments)).fault v.writes =
      if r.1 = 0 then none else some (BitVec.ofInt 32 r.1, r.2.core.store (lba + i)) := by
    simp only [faults]
    rw [hget, Option.bind_some, ← hhc, ← hcard, hr]
  have hwork : Desk.work c.bus { d with dev := .sdWrite n k lba cnt i rx } =
      if r.1 ≠ 0 then (Sd.failText (lba + i) (BitVec.ofInt 32 r.1), ⟨.dispatch, r.2, d.isHc⟩)
      else ((Dev.written n k lba cnt i).1, ⟨(Dev.written n k lba cnt i).2, r.2, d.isHc⟩) := by
    rw [← hr]
    rfl
  rw [hwork]
  rw [← hstore] at hold hok
  by_cases h0 : r.1 = 0
  · obtain ⟨hready', hwritten⟩ := hok h0
    rw [if_pos h0] at hfault
    rw [if_neg (not_not.2 h0)]
    obtain ⟨ph', hat', hlater⟩ := hat.step ha (.written hdev hfault)
    refine ⟨ph', _, ⟨hat', rfl, hwritten.symm, listens_written .., ?_, ?_, v.writes + 1, ?_⟩,
      hlater, rfl, rfl, rfl⟩
    · intro hhello
      exact absurd hhello (Later.ne_hello hat hlater hne)
    · intro _
      refine ⟨hready', hhc, ?_⟩
      show r.2 = afterWrites c d.isHc _ ((writesOf segments).take (v.writes + 1))
      rw [htake', afterWrites_concat, ← htake, ← hcard, hr]
    · rw [htake']
      show v.card.write _ = _
      rw [hw.card_eq, Sd.Card.write_append]
  · rw [if_neg h0] at hfault
    rw [if_pos h0]
    obtain ⟨ph', hat', hlater⟩ := hat.step ha (.failed hdev hfault)
    have hback := write_back hold
    refine ⟨ph', _, ⟨hat', rfl, hback, trivial, ?_, fun hno => absurd rfl hno, ?_⟩, hlater,
      rfl, rfl, rfl⟩
    · intro hhello
      exact absurd hhello (Later.ne_hello hat hlater hne)
    · rw [show (_ : Sd.View).card = _ from hback]
      rcases hold with hold | hold
      · exact ⟨v.writes, by rw [hold, htake, hw.card_eq]⟩
      · exact ⟨v.writes + 1, by rw [hold, htake', hw.card_eq, Sd.Card.write_append]⟩

/-- The dispatcher goes to a mode. -/
lemma recv_dispatch {out : List Byte} {dev : Dev} (h : Dev.recv b .dispatch = some (out, dev)) :
    out = [] ∧ (dev = .sdInit ∨ ∃ m, dev = .command m) := by
  rw [Dev.recv] at h
  split_ifs at h <;> cases h
  · exact ⟨rfl, Or.inl rfl⟩
  · exact ⟨rfl, Or.inr ⟨b, rfl⟩⟩

/-- Only the dispatcher goes to `sd_init`. -/
lemma dispatch_of_recv {out : List Byte} {dev : Dev} (h : dev.recv b = some (out, .sdInit)) :
    dev = .dispatch ∧ out = [] := by
  cases dev with
  | dispatch => exact ⟨rfl, (recv_dispatch h).1⟩
  | recvCount | recvHdr | recvSector =>
    simp only [Dev.recv] at h
    split_ifs at h <;> cases h
  | sdInit | sdWrite | command => cases h

/-- The party takes a byte of the host. -/
lemma Tracks.recv (hup : Uploads c clk w segments) (h : Tracks c w segments pre ph d v)
    (hin : v.toDev = b :: rest)
    (ha : Sd.Accepted (faults c w.card (writesOf segments)) segments pre) :
    ∃ out d' ph' v', d.recv c.bus b = some (out, d') ∧ Tracks c w segments pre ph' d' v' ∧
      Later segments ph v ph' v' ∧ v'.host = v.host ∧ v'.toDev = rest ∧
      v'.toHost = v.toHost ++ out := by
  obtain ⟨⟨out, dev⟩, hrecv⟩ := h.listens.recv b
  obtain ⟨ph₁, hat₁, hlater₁⟩ := h.place.step ha (.recv (h.dev.symm ▸ hrecv) hin)
  have hlater₁ : Later segments ph v ph₁ _ := hlater₁
  have hno : ∀ m, dev ≠ .command m := by
    rintro m rfl
    rcases hat₁.dev with hl | ⟨hb, -⟩
    · exact hl
    · simp [Dev.Busy] at hb
  have hd := Desk.recv_eq c.bus hrecv hno
  have hfrom : d.dev = .dispatch → out = [] ∧ dev = .sdInit := fun hd₀ => by
    rw [hd₀] at hrecv
    obtain ⟨hout, hdev | ⟨m, hm⟩⟩ := recv_dispatch hrecv
    · exact ⟨hout, hdev⟩
    · exact absurd hm (hno m)
  -- only a byte that the dispatcher takes leads on from the greeting
  have hne : ph₁ ≠ .hello := by
    by_cases hph : ph = .hello
    · rintro rfl
      have hdisp : dev = .dispatch := hat₁.2.2.1
      have hd₀ : d.dev = .dispatch := congrArg Desk.dev (h.start hph)
      rw [(hfrom hd₀).2] at hdisp
      cases hdisp
    · exact Later.ne_hello h.place hlater₁ hph
  -- behind the byte the party waits again, or it has the card to initialise or a sector to write
  rcases hat₁.dev with hl | ⟨hdev | ⟨n, k, lba, cnt, i, rx, hdev⟩, -, -⟩
  · have hl : dev.Listens := hl
    rw [Desk.work_of_listens hl, List.append_nil] at hd
    refine ⟨_, _, ph₁, _, hd, ⟨hat₁, rfl, h.store, hl, fun hhello => absurd hhello hne, ?_, h.upto⟩,
      hlater₁, rfl, rfl, rfl⟩
    intro _
    refine h.serves fun hd₀ => ?_
    rw [(hfrom hd₀).2] at hl
    exact hl
  · obtain rfl : dev = .sdInit := hdev
    obtain ⟨hd₀, rfl⟩ := dispatch_of_recv hrecv
    obtain rfl := Sd.At.hello_of h.place (h.dev.trans hd₀) (by rw [hin]; exact List.cons_ne_nil _ _)
    obtain ⟨-, -, -, hw⟩ := h.place
    obtain rfl := h.start rfl
    obtain ⟨ph', v', htracks, hlater, hhost, hto, hfrom'⟩ :=
      Tracks.init hup hat₁ rfl hw.card_eq hw.writes_eq hne ha
    exact ⟨_, _, ph', v', hd, htracks, hlater₁.trans hlater, hhost, hto,
      hfrom'.trans (List.append_assoc ..)⟩
  · obtain rfl : dev = .sdWrite n k lba cnt i rx := hdev
    have hd₀ : d.dev ≠ .dispatch := fun hd₀ => by cases (hfrom hd₀).2
    obtain ⟨hready, hhc, hcard⟩ := h.serves hd₀
    obtain ⟨ph', v', htracks, hlater, hhost, hto, hfrom'⟩ :=
      Tracks.write hup hat₁ rfl h.store hready hhc hcard hne ha
    exact ⟨_, _, ph', v', hd, htracks, hlater₁.trans hlater, hhost, hto,
      hfrom'.trans (List.append_assoc ..)⟩

end Party

/-! ### The host and the program in step -/

section InStep

variable {t t' : Talk Host Byte} {ph : Phase} {v : Sd.View}

/-- The host and the program are at this place of the dialogue. -/
structure InStep (c : SdCard) (clk : BitVec 32) (w : World State) (segments : List Segment)
    (ph : Phase) (v : Sd.View) (t : Talk Host Byte) : Prop where
  party : ∃ d out, feed (Desk.recv c.bus) ⟨.dispatch, w.card, w.isHc⟩ t.sent = some (out, d) ∧
    Tracks c w segments (w.output ++ banner clk) ph d v ∧
    v.toHost = (w.output ++ banner clk ++ out).drop t.read ∧
    t.read ≤ (w.output ++ banner clk ++ out).length
  host : v.host = t.client
  toDev : v.toDev = t.tx

/-- What the program has come to. -/
lemma runOn_of_feed (clk : BitVec 32) {sent out : List Byte} {d : Desk State}
    (h : feed (Desk.recv c.bus) ⟨.dispatch, w.card, w.isHc⟩ sent = some (out, d)) :
    (runOn c clk w sent).1 = .error .waiting ∧
      printed c clk w sent = w.output ++ banner clk ++ out ∧
      (runOn c clk w sent).2.card = d.card := by
  have hin : ∀ rest, sent.map some ≠ none :: rest := by
    intro rest heq
    have hmem : none ∈ sent.map some := heq ▸ List.mem_cons_self
    simp at hmem
  obtain ⟨w', hexec, hout, hcard, -⟩ := exec_main_desk (w := { w with input := sent.map some })
    clk hin (by rw [bytes_map_some]; exact h)
  have hrun : runOn c clk w sent = (.error .waiting, w') := hexec
  rw [printed_def]
  beta_reduce
  rw [hrun]
  exact ⟨rfl, hout, hcard⟩

lemma InStep.start (c : SdCard) (clk : BitVec 32) (w : World State) (segments : List Segment) :
    ∃ ph v, InStep c clk w segments ph v hostStart := by
  refine ⟨.hello, _, ⟨⟨_, [], rfl, Tracks.begun c w segments _, ?_, Nat.zero_le _⟩, rfl, rfl⟩⟩
  rw [List.append_nil]
  exact List.drop_zero.symm

/-- A step of the host leads to a later place. -/
lemma InStep.step (hup : Uploads c clk w segments) (h : InStep c clk w segments ph v t)
    {a : TalkAct} (hs : hostStep c clk w segments t a = some t') :
    ∃ ph' v', InStep c clk w segments ph' v' t' ∧ Later segments ph v ph' v' := by
  obtain ⟨d, out, hfeed, htracks, hto, hle⟩ := h.party
  obtain ⟨-, hprinted, -⟩ := runOn_of_feed clk hfeed
  cases a with
  | send =>
    obtain ⟨b, tx, htx, rfl⟩ := Talk.step_send hs
    obtain ⟨out', d', ph', v', hrecv, htracks', hlater, hhost, hdev, hto'⟩ :=
      htracks.recv hup (h.toDev.trans htx) hup.accepted
    refine ⟨ph', v', ⟨⟨d', _, Feed.feed_concat hfeed hrecv, htracks', ?_, ?_⟩,
      hhost.trans h.host, hdev⟩, hlater⟩
    · rw [hto', hto, ← List.append_assoc (w.output ++ banner clk),
        List.drop_append_of_le_length hle]
    · rw [← List.append_assoc, List.length_append]
      exact hle.trans (Nat.le_add_right _ _)
  | read n =>
    obtain ⟨htx, hn, tx, k, hread, rfl⟩ := Talk.step_read hs
    rw [hprinted, ← hto] at hn hread
    rw [← h.host] at hread
    obtain ⟨ph', hat', hlater⟩ := htracks.place.step hup.accepted
      (.read hread (List.take_append_drop n v.toHost).symm)
    have hlater : Later segments ph v ph' _ := hlater
    refine ⟨ph', _, ⟨⟨d, out, hfeed, ⟨hat', htracks.dev, htracks.store, htracks.listens, ?_,
      htracks.serves, htracks.upto⟩, ?_, ?_⟩, rfl, ?_⟩, hlater⟩
    · intro hhello
      by_cases hph : ph = .hello
      · exact htracks.start hph
      · exact absurd hhello (Later.ne_hello htracks.place hlater hph)
    · show v.toHost.drop n = _
      rw [hto, List.drop_drop]
    · rw [hto, List.length_drop] at hn
      show t.read + n ≤ _
      omega
    · show v.toDev ++ tx = tx
      rw [h.toDev, htx, List.nil_append]

/-- The host can go on until it has returned or raised. -/
lemma InStep.goes (h : InStep c clk w segments ph v t) :
    t.client.Ended ∨ ∃ a t', hostStep c clk w segments t a = some t' := by
  obtain ⟨d, out, hfeed, htracks, hto, -⟩ := h.party
  obtain ⟨-, hprinted, -⟩ := runOn_of_feed clk hfeed
  obtain ⟨s, hs⟩ : ∃ s : Sys, s = ⟨t.client, t.tx, [], d.dev, [], v.toHost, v.card, v.writes⟩ :=
    ⟨_, rfl⟩
  have hview : s.view = v := by
    rw [hs, Sys.view, List.nil_append, List.append_nil, ← h.host, ← h.toDev, ← htracks.dev]
  have hat := htracks.place
  rw [← hview] at hat
  rcases Sd.At.can_step hat with ⟨hended, -⟩ | ⟨a, s', hstep⟩
  · rw [hs] at hended
    exact Or.inl hended
  refine Or.inr ?_
  subst hs
  cases a with
  | hostSend =>
    rw [Sys.step] at hstep
    split at hstep
    · cases hstep
    · next b tx htx =>
      refine ⟨.send, { t with tx := tx, sent := t.sent ++ [b] }, ?_⟩
      rw [hostStep, Talk.step, show t.tx = b :: tx from htx]
  | hostRead n =>
    rw [Sys.step] at hstep
    split_ifs at hstep with hn
    split at hstep
    · cases hstep
    · next tx k hread =>
      refine ⟨.read n, { t with client := k, tx := tx, read := t.read + n }, ?_⟩
      have hn' : t.tx = [] ∧ n ≤ v.toHost.length := hn
      have hread' : Host.read segments t.client (v.toHost.take n) = some (tx, k) := hread
      rw [hto, ← hprinted] at hn' hread'
      rw [hostStep, Talk.step, if_pos hn', hread']
      rfl
  | devSend => cases hstep
  | devRecv => cases hstep
  | devWork =>
    have hl := htracks.listens
    rw [Sys.step] at hstep
    split at hstep
    · next hdev =>
      rw [show d.dev = _ from hdev] at hl
      exact hl.elim
    · next hdev =>
      rw [show d.dev = _ from hdev] at hl
      exact hl.elim
    · cases hstep

/-- The card is somewhere on the way through the writes, and at their end when the host has
returned. -/
lemma InStep.card (h : InStep c clk w segments ph v t) :
    (runOn c clk w t.sent).1 = .error .waiting ∧
    (∃ n, (runOn c clk w t.sent).2.store = w.store.write ((writesOf segments).take n)) ∧
    (t.client.Ended → t.tx = [] ∧ (t.client = .returned ↔
      ∀ j < (writesOf segments).length, (faults c w.card (writesOf segments)).fault j = none)) ∧
    (t.client = .returned →
      (runOn c clk w t.sent).2.store = w.store.write (writesOf segments)) := by
  obtain ⟨d, out, hfeed, htracks, -, -⟩ := h.party
  obtain ⟨hwaits, -, hcard⟩ := runOn_of_feed clk hfeed
  have hstore : (runOn c clk w t.sent).2.store = v.card := by
    rw [World.store, hcard, htracks.store]
  refine ⟨hwaits, ?_, ?_, ?_⟩
  · rw [hstore]
    exact htracks.upto
  · intro hended
    rw [← h.host] at hended
    obtain ⟨hnil, -, hend⟩ := htracks.place.ended hended
    rw [← h.toDev, ← h.host]
    refine ⟨hnil, ?_⟩
    rcases hend with ⟨hret, hw⟩ | ⟨⟨e, he⟩, ws, x, rest, rc, junk, hws, -, hf, -⟩
    · exact iff_of_true hret hw.ok
    · refine iff_of_false (fun hret => ?_) fun hok => ?_
      · cases hret.symm.trans he
      · have hlt : ws.length < (writesOf segments).length := by
          rw [writesOf, hws, List.length_append, List.length_cons]
          omega
        cases (hok _ hlt).symm.trans hf
  · intro hret
    rw [← h.host] at hret
    obtain ⟨-, -, ⟨-, hw⟩ | ⟨⟨e, he⟩, -⟩⟩ := htracks.place.ended (Or.inl hret)
    · rw [hstore]
      exact hw.card_eq
    · cases hret.symm.trans he

end InStep

end Neorv32Boot.Stage2
