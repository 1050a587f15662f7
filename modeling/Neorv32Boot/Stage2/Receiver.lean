import Neorv32Boot.Stage2.Boot
import Neorv32Boot.Xmodem.Accepted

/-!
# The receiver in the program

`xmodem_receive` as stage2 runs it is the receiver that takes one result of `uart_getc_timeout`
after the other: it prints what that one sends, stores what that one accepts, and returns when it
does.
-/

namespace Neorv32Boot.Stage2

open Prog
open Sd (BlocksOnXbus Numbered OnXbus Ram Receipt)
open Xmodem (Rx Wait can checksum eot frame nak retryMax soh)

variable {σ : Type} {dest : BitVec 32} {w₀ w : World σ} {s s' : Rx}

/-- The receiver in front of a block of the SDRAM. -/
def rxAt (dest : BitVec 32) (m : Ram) : Rx := Rx.start fun o => m.load (dest + o)

/-- Since `w₀` the program has come as far as the receiver, which has stored on the XBUS only. -/
structure Follows (dest : BitVec 32) (w₀ : World σ) (s : Rx) (w : World σ) : Prop where
  lands : BlocksOnXbus dest s.stores
  came : ∃ used out, w₀.input = used ++ w.input ∧
    (rxAt dest w₀.ram).feed used = some (out, s) ∧
    w = { w₀ with input := w.input, output := w₀.output ++ out,
                  ram := (⟨0, s.stores⟩ : Receipt).store w₀.ram dest }

lemma Follows.start : Follows dest w (rxAt dest w.ram) w := by
  refine ⟨nofun, [], [], rfl, rfl, ?_⟩
  rw [List.append_nil]
  rfl

lemma store_concat (dest : BitVec 32) (stores : List (BitVec 32 × List Byte)) (o : BitVec 32)
    (buf : List Byte) (m : Ram) :
    (⟨0, stores ++ [(o, buf)]⟩ : Receipt).store m dest =
      ((⟨0, stores⟩ : Receipt).store m dest).storeBytes (dest + o) buf := by
  simp [Receipt.store]

/-- One more result of `uart_getc_timeout`. -/
lemma Follows.step (h : Follows dest w₀ s w) {c : Option Byte} {rest : List (Option Byte)}
    (hin : w.input = c :: rest) {out : List Byte} (hs : s.recv c = some (out, s'))
    (hlands : BlocksOnXbus dest s'.stores) :
    Follows dest w₀ s' { w with
      input := rest, output := w.output ++ out,
      ram := (⟨0, s'.stores⟩ : Receipt).store w₀.ram dest } := by
  obtain ⟨used, sent, hused, hfeed, hw⟩ := h.came
  refine ⟨hlands, used ++ [c], sent ++ out, ?_, ?_, ?_⟩
  · rw [hused, hin, List.append_assoc]
    rfl
  · rw [Rx.feed_concat, hfeed, Option.bind_some, hs]
    rfl
  · rw [hw]
    simp only [List.append_assoc]

/-- A result that stores nothing. -/
lemma Follows.say (h : Follows dest w₀ s w) {c : Option Byte} {rest : List (Option Byte)}
    (hin : w.input = c :: rest) {out : List Byte} (hs : s.recv c = some (out, s'))
    (hstores : s'.stores = s.stores) :
    Follows dest w₀ s' (World.say { w with input := rest } out) := by
  have hstep := h.step hin hs (by rw [hstores]; exact h.lands)
  obtain ⟨used, sent, -, -, hw⟩ := h.came
  have hram : w.ram = (⟨0, s.stores⟩ : Receipt).store w₀.ram dest := by rw [hw]
  rw [hstores, ← hram] at hstep
  exact hstep

/-- The input is at its end, and the receiver has not returned. -/
def Starved (dest : BitVec 32) (w₀ : World σ) (e : Stop) (w : World σ) : Prop :=
  e = .waiting ∧ w.input = [] ∧ ∃ s, Follows dest w₀ s w ∧ s.wait.returned = false

/-- The receiver has accepted a block that is not for the XBUS. -/
def Strayed (dest : BitVec 32) (w₀ : World σ) (e : Stop) : Prop :=
  e = .astray ∧ ∃ used rest out s, w₀.input = used ++ rest ∧
    (rxAt dest w₀.ram).feed used = some (out, s) ∧ s.wait.returned = false ∧
    ¬ BlocksOnXbus dest s.stores

/-- One more result of `uart_getc_timeout`, with which the receiver goes astray. -/
lemma Follows.stray (h : Follows dest w₀ s w) {c : Option Byte} {rest : List (Option Byte)}
    (hin : w.input = c :: rest) {out : List Byte} (hs : s.recv c = some (out, s'))
    (hgo : s'.wait.returned = false) (hout : ¬ BlocksOnXbus dest s'.stores) :
    Strayed dest w₀ .astray := by
  obtain ⟨used, sent, hused, hfeed, -⟩ := h.came
  refine ⟨rfl, used ++ [c], rest, sent ++ out, s', ?_, ?_, hgo, hout⟩
  · rw [hused, hin, List.append_assoc]
    rfl
  · rw [Rx.feed_concat, hfeed, Option.bind_some, hs]
    rfl

/-- What a receiver has stored. -/
lemma numbered_of_feed {m : Ram} {used : List (Option Byte)} {out : List Byte}
    (h : (rxAt dest m).feed used = some (out, s)) : Numbered s.stores :=
  have hrec := Rx.received h
  ⟨hrec.offsets, fun x hx => hrec.length_buf x.2 (List.mem_map_of_mem hx)⟩

/-- Only a long input takes a receiver off the XBUS. -/
lemma Strayed.long {e : Stop} (h : Strayed dest w₀ e) (hdest : Sdram.inSdram dest = true) :
    2 ^ 29 ≤ w₀.input.length := by
  obtain ⟨-, used, rest, out, s, hin, hfeed, hgo, hout⟩ := h
  rw [Sdram.inSdram_iff] at hdest
  obtain ⟨hlow, hhigh⟩ := hdest
  obtain ⟨-, -, pre, hused, hcar⟩ := (Rx.received hfeed).going hgo
  have hframes := hcar.length_le
  have hblocks : s.blocks.length = s.stores.length := List.length_map ..
  rw [(numbered_of_feed hfeed).onXbus_iff ⟨hlow, by omega⟩, OnXbus, not_and] at hout
  have hfar := hout hlow
  rw [hin, hused, List.length_append, List.length_append]
  omega

/-- Why the receiver does not return. -/
def Stops (dest : BitVec 32) (w₀ : World σ) (e : Stop) (w : World σ) : Prop :=
  Starved dest w₀ e w ∨ Strayed dest w₀ e

lemma Follows.getc (h : Follows dest w₀ s w) (hs : s.wait.returned = false)
    {Q : Option Byte → World σ → Prop}
    (hQ : ∀ c rest, w.input = c :: rest → Q c { w with input := rest }) :
    wp getc Q (Stops dest w₀) w :=
  wp_getc (fun hnil => Or.inl ⟨rfl, hnil, s, h, hs⟩) hQ

/-- The variables of the loop. -/
def xferOf (s : Rx) : Xfer := ⟨s.blkNum, s.total, s.retries⟩

/-- Between two rounds of the loop. -/
def AtHead (dest : BitVec 32) (w₀ : World σ) (x : Xfer) (w : World σ) : Prop :=
  ∃ s, Follows dest w₀ s w ∧ s.wait = .cmd ∧ x = xferOf s

/-- The bytes of a block. -/
lemma Follows.recvBlock {bn bnc : Byte} {buf : List Byte} (n : ℕ) (hn : 0 < n)
    (hlen : buf.length + n = 128) (h : Follows dest w₀ s w) (hw : s.wait = .data bn bnc buf) :
    wp (recvBlock n) (fun r w' => w'.size ≤ w.size ∧ match r with
      | none => AtHead dest w₀ (xferOf s) (w'.say [nak])
      | some rest => rest.length = n ∧
          Follows dest w₀ { s with wait := .csum bn bnc (buf ++ rest) } w') (Stops dest w₀) w := by
  induction n generalizing buf s w with
  | zero => exact absurd hn (lt_irrefl 0)
  | succ n ih =>
    rw [Stage2.recvBlock, wp_bind]
    refine h.getc (by rw [hw]; rfl) ?_
    rintro (_ | b) rest hin
    · have hs : s.recv none = some ([nak], { s with wait := .cmd }) := by
        simp only [Rx.recv, hw]
      have hle : rest.length ≤ w.input.length := by
        rw [hin]
        exact Nat.le_succ _
      exact ⟨hle, _, h.say hin hs rfl, rfl, rfl⟩
    · have hle : rest.length ≤ w.input.length := by
        rw [hin]
        exact Nat.le_succ _
      by_cases hlast : n = 0
      · have hs : s.recv (some b) = some ([], { s with wait := .csum bn bnc (buf ++ [b]) }) := by
          simp only [Rx.recv, hw]
          exact if_neg (by unfold Xmodem.blockSize; omega)
        have hstep := h.say hin hs rfl
        rw [hlast]
        refine ⟨hle, rfl, ?_⟩
        simpa [World.say] using hstep
      · have hs : s.recv (some b) = some ([], { s with wait := .data bn bnc (buf ++ [b]) }) := by
          simp only [Rx.recv, hw]
          exact if_pos (by unfold Xmodem.blockSize; omega)
        have hstep := h.say hin hs rfl
        simp only [World.say, List.append_nil] at hstep
        refine wp_seq (ih (by omega) (by rw [List.length_append, List.length_singleton]; omega)
          hstep rfl) ?_
        rintro (_ | more) w' ⟨hle', hmore⟩
        · exact ⟨hle'.trans hle, hmore⟩
        · obtain ⟨hlen', hf⟩ := hmore
          refine ⟨hle'.trans hle, ?_, ?_⟩
          · rw [List.length_cons, hlen']
          · rw [List.append_assoc] at hf
            exact hf

/-- What a round of the loop comes to: the next round, with less input, or the result. -/
def Rounded (dest : BitVec 32) (w₀ : World σ) (n : ℕ) (r : Xfer ⊕ BitVec 32) (w : World σ) : Prop :=
  match r with
  | .inl x => AtHead dest w₀ x w ∧ w.size ≤ n
  | .inr size => ∃ s, Follows dest w₀ s w ∧ s.wait = .ret size

/-- A `NAK` that the receiver has sent already. -/
lemma AtHead.nakRound {x : Xfer} {n : ℕ} (h : AtHead dest w₀ x (w.say [nak])) (hn : w.size ≤ n) :
    wp (nakRound x) (Rounded dest w₀ n) (Stops dest w₀) w := ⟨h, hn⟩

/-- The rest of a frame. -/
lemma Follows.xmodemFrame (h : Follows dest w₀ s w) (hw : s.wait = .bn) :
    wp (xmodemFrame dest (xferOf s)) (Rounded dest w₀ w.size) (Stops dest w₀) w := by
  rw [Stage2.xmodemFrame, wp_bind]
  refine h.getc (by rw [hw]; rfl) ?_
  intro bn rest hin
  have hs : s.recv bn = some ([], { s with wait := .bnc bn }) := by
    simp only [Rx.recv, hw]
  have h₁ := h.say hin hs rfl
  simp only [World.say, List.append_nil] at h₁
  rw [wp_bind]
  refine h₁.getc rfl ?_
  intro bnc rest₁ hin₁
  have hle : rest₁.length ≤ w.input.length := by
    rw [hin, show rest = bnc :: rest₁ from hin₁, List.length_cons, List.length_cons]
    omega
  -- both numbers are read before the first of them is looked at
  cases bn with
  | none =>
    have hs₁ : Rx.recv bnc { s with wait := .bnc none } =
        some ([nak], { s with wait := .cmd }) := by
      simp only [Rx.recv]
    exact AtHead.nakRound ⟨_, h₁.say hin₁ hs₁ rfl, rfl, rfl⟩ hle
  | some bn =>
    cases bnc with
    | none =>
      have hs₁ : Rx.recv none { s with wait := .bnc (some bn) } =
          some ([nak], { s with wait := .cmd }) := by
        simp only [Rx.recv]
      exact AtHead.nakRound ⟨_, h₁.say hin₁ hs₁ rfl, rfl, rfl⟩ hle
    | some bnc =>
      have hs₁ : Rx.recv (some bnc) { s with wait := .bnc (some bn) } =
          some ([], { s with wait := .data bn bnc [] }) := by
        simp only [Rx.recv]
      have h₂ := h₁.say hin₁ hs₁ rfl
      simp only [World.say, List.append_nil] at h₂
      refine wp_seq (h₂.recvBlock 128 (by decide) rfl rfl) ?_
      rintro (_ | buf) w₃ ⟨hle₃, h₃⟩
      · exact AtHead.nakRound h₃ (hle₃.trans hle)
      · obtain ⟨hlen, h₃⟩ := h₃
        rw [List.nil_append] at h₃
        dsimp only
        rw [wp_bind]
        refine h₃.getc rfl ?_
        intro csum rest₄ hin₄
        have hle₄ : rest₄.length ≤ w.input.length := by
          have : w₃.input.length ≤ w.input.length := hle₃.trans hle
          rw [hin₄, List.length_cons] at this
          omega
        cases csum with
        | none =>
          have hs₄ : Rx.recv none { s with wait := .csum bn bnc buf } =
              some ([nak], { s with wait := .cmd }) := by
            simp only [Rx.recv]
          exact AtHead.nakRound ⟨_, h₃.say hin₄ hs₄ rfl, rfl, rfl⟩ hle₄
        | some recvCsum =>
          -- the frame is whole: it is stored, or it costs a retry
          refine wp_ite (fun hbad => ?_) fun hgood => ?_
          · have hs₄ : Rx.recv (some recvCsum) { s with wait := .csum bn bnc buf } =
                some ([nak], { s with wait := .cmd, retries := s.retries + 1 }) := by
              simp only [Rx.recv]
              exact if_pos hbad
            exact AtHead.nakRound ⟨_, h₃.say hin₄ hs₄ rfl, rfl, rfl⟩ hle₄
          · have hs₄ : Rx.recv (some recvCsum) { s with wait := .csum bn bnc buf } =
                some ([Xmodem.ack], { s with wait := .csum bn bnc buf }.accept buf) := by
              simp only [Rx.recv]
              exact if_neg hgood
            obtain ⟨_, _, -, -, hw₃⟩ := h₃.came
            have hram : w₃.ram = (⟨0, s.stores⟩ : Receipt).store w₀.ram dest := by rw [hw₃]
            rw [wp_bind]
            refine wp_storeBytes (fun hxbus => ?_) fun hout => Or.inr (h₃.stray hin₄ hs₄ rfl ?_)
            · have hlands : BlocksOnXbus dest (s.stores ++ [(s.total, buf)]) := by
                intro x hx
                rcases List.mem_append.1 hx with hx | hx
                · exact h₃.lands x hx
                · rw [List.mem_singleton.1 hx]
                  exact hxbus
              have hstep := h₃.step hin₄ hs₄ hlands
              rw [Rx.accept_stores, store_concat, ← hram] at hstep
              exact ⟨⟨_, hstep, rfl, rfl⟩, hle₄⟩
            -- the block is the last one that the receiver has stored
            · exact fun hlands =>
                hout (hlands _ (List.mem_append_right _ (List.mem_singleton_self _)))

/-- A round of the loop.  It takes at least one result. -/
lemma AtHead.xmodemRound {x : Xfer} (h : AtHead dest w₀ x w) :
    wp (xmodemRound dest x) (fun r w' => match r with
      | .inl x' => AtHead dest w₀ x' w' ∧ w'.size < w.size
      | .inr size => ∃ s, Follows dest w₀ s w' ∧ s.wait = .ret size) (Stops dest w₀) w := by
  obtain ⟨s, h, hw, rfl⟩ := h
  rw [Stage2.xmodemRound, wp_bind]
  refine h.getc (by rw [hw]; rfl) ?_
  intro c rest hin
  have hlt : rest.length < w.input.length := by
    rw [hin]
    exact Nat.lt_succ_self _
  cases c with
  | none =>
    -- a silence before a frame: the last retry, or one more `NAK`
    refine wp_ite (fun hover => ?_) fun hagain => ?_
    · have hs : s.recv none = some ([can, can] ++ Xmodem.timeoutText,
          { s with wait := .ret 0, retries := s.retries + 1 }) := by
        simp only [Rx.recv, hw]
        exact if_pos hover
      have hstep := h.say hin hs rfl
      have hcans : [can, can] ++ Xmodem.timeoutText = [can] ++ ([can] ++ Xmodem.timeoutText) := rfl
      rw [hcans] at hstep
      simp only [wp_bind, wp_emit, wp_puts, wp_pure]
      refine ⟨{ s with wait := .ret 0, retries := s.retries + 1 }, ?_, rfl⟩
      simpa only [World.say, Xmodem.timeoutText, List.append_assoc] using hstep
    · have hs : s.recv none = some (Xmodem.waitingText ++ [nak],
          { s with retries := s.retries + 1 }) := by
        simp only [Rx.recv, hw]
        exact if_neg hagain
      have hstep := h.say hin hs rfl
      simp only [Stage2.nakRound, wp_bind, wp_emit, wp_puts, wp_pure]
      refine ⟨⟨{ s with retries := s.retries + 1 }, ?_, hw, rfl⟩, hlt⟩
      simpa only [World.say, Xmodem.waitingText, List.append_assoc] using hstep
  | some c =>
    refine wp_ite (fun heot => ?_) fun heot => ?_
    · have hs : s.recv (some c) = some ([Xmodem.ack], { s with wait := .ret s.total }) := by
        rw [heot]
        exact Rx.recv_eot hw
      exact ⟨_, h.say hin hs rfl, rfl⟩
    · refine wp_ite (fun hcan => ?_) fun hcan => ?_
      · have hs : s.recv (some c) = some (Xmodem.cancelledText, { s with wait := .ret 0 }) := by
          simp only [Rx.recv, hw, if_neg heot, if_pos hcan]
        exact ⟨_, h.say hin hs rfl, rfl⟩
      · refine wp_ite (fun hsoh => ?_) fun hsoh => ?_
        · have hs : s.recv (some c) = some ([], s) := by
            simp only [Rx.recv, hw, if_neg heot, if_neg hcan, if_pos hsoh]
          have hstep := h.say hin hs rfl
          simp only [World.say, List.append_nil] at hstep
          exact ⟨⟨_, hstep, hw, rfl⟩, hlt⟩
        · have hs : s.recv (some c) = some ([], { s with wait := .bn }) := by
            simp only [Rx.recv, hw, if_neg heot, if_neg hcan, if_neg hsoh]
          have hstep := h.say hin hs rfl
          simp only [World.say, List.append_nil] at hstep
          refine wp_mono ?_ (fun _ _ h => h) (hstep.xmodemFrame rfl)
          rintro (x | size) w' hr
          · exact ⟨hr.1, lt_of_le_of_lt hr.2 hlt⟩
          · exact hr

/-- The program is the receiver. -/
lemma wp_xmodemReceive (dest : BitVec 32) (w : World σ) :
    wp (xmodemReceive dest) (fun size w' => ∃ s, Follows dest (w.say [nak]) s w' ∧
      s.wait = .ret size) (Stops dest (w.say [nak])) w := by
  have hhead : AtHead dest (w.say [nak]) ⟨1, 0, 0⟩ (w.say [nak]) := ⟨_, Follows.start, rfl, rfl⟩
  rw [xmodemReceive, wp_bind, wp_emit]
  refine wp_loop (fun x w' => AtHead dest (w.say [nak]) x w') hhead fun x w' h => ?_
  refine wp_mono ?_ (fun _ _ h => h) h.xmodemRound
  rintro (x | size) w' hr <;> exact hr

end Neorv32Boot.Stage2
