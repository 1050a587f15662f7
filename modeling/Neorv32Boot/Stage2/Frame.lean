import Neorv32Boot.Stage2.OnCard

/-!
# What a run of stage2 does to the card

Whatever comes over the serial line, and whatever a card makes of the commands that it is sent: a
sector of the card holds what it held, or it is one that the bytes on the line ask to be written,
where the dispatcher looks for such a request, and it holds the bytes that have come for it.
-/

namespace Neorv32Boot.Stage2

open Prog
open Sd (Sector sectorAt)
open Spi (SdCard State)

variable {c : SdCard}

/-! ### The dialogue -/

/-- The LBA in the header of a segment. -/
def hdrLba (hdr : List Byte) : ℕ := (Sd.recvU32 (hdr.take 4)).toNat

/-- The number of sectors in the header of a segment. -/
def hdrCount (hdr : List Byte) : ℕ := (Sd.recvU32 (hdr.drop 4)).toNat

/-- So many whole segments, one after the other: each is a header, and the sectors that it
announces. -/
inductive Segments : ℕ → List Byte → Prop
  | nil : Segments 0 []
  | concat {n : ℕ} {bs hdr data : List Byte} (h : Segments n bs) (hhdr : hdr.length = 8)
      (hdata : data.length = 512 * hdrCount hdr) : Segments (n + 1) (bs ++ (hdr ++ data))

/-- Behind a `W` the number of segments has come, and `i` of them, with `n` to go. -/
def Whole (i n : ℕ) (sent : List Byte) : Prop :=
  ∃ cnt segs, sent = cnt ++ segs ∧ cnt.length = 4 ∧ (Sd.recvU32 cnt).toNat = i + n ∧ i + n ≤ 16 ∧
    Segments i segs

/-- Behind a `W` the header of a segment has come, and `data` as its first sectors. -/
def Sending (hdr data sent : List Byte) : Prop :=
  ∃ i n front, sent = front ++ (hdr ++ data) ∧ Whole i (n + 1) front ∧ hdr.length = 8 ∧
    hdrCount hdr ≤ 8192 ∧ data.length ≤ 512 * hdrCount hdr

/-- What a command takes of the line when it comes back to the dispatcher.  The others never do. -/
inductive Consumes : Byte → List Byte → Prop
  | dump {bs : List Byte} (h : bs.length = 8) : Consumes 0x64 bs
  | smoke : Consumes 0x73 []
  | readHeader : Consumes 0x52 []
  | baudBad {bs : List Byte} (h : bs.length = 4)
      (hbad : Sd.recvU32 bs < 9600 ∨ 2000000 < Sd.recvU32 bs) : Consumes 0x42 bs
  | setBaud {bs : List Byte} {probe : Byte} (h : bs.length = 4)
      (hok : ¬ (Sd.recvU32 bs < 9600 ∨ 2000000 < Sd.recvU32 bs)) : Consumes 0x42 (bs ++ [probe])
  /-- `sd_init` has failed. -/
  | testInit : Consumes 0x77 []
  | writeTest {bs : List Byte} (h : bs.length = 512) : Consumes 0x77 bs
  /-- `sd_init` has failed. -/
  | multiInit : Consumes 0x57 []
  | badSegs {cnt : List Byte} (h : cnt.length = 4)
      (hbad : Sd.recvU32 cnt = 0 ∨ 16 < Sd.recvU32 cnt) : Consumes 0x57 cnt
  | badCount {i n : ℕ} {front hdr : List Byte} (h : Whole i (n + 1) front) (hhdr : hdr.length = 8)
      (hbad : hdrCount hdr = 0 ∨ 8192 < hdrCount hdr) : Consumes 0x57 (front ++ hdr)
  /-- A sector has failed, and what the host still sends of it is left to the dispatcher. -/
  | failed {hdr data sent : List Byte} {k : ℕ} (h : Sending hdr data sent)
      (hdata : data.length = 512 * (k + 1)) : Consumes 0x57 sent
  | multi {i : ℕ} {sent : List Byte} (h : Whole i 0 sent) : Consumes 0x57 sent

/-- Commands that have come back, with what they have taken. -/
inductive Dialogue : List Byte → Prop
  | nil : Dialogue []
  | concat {bs payload : List Byte} {cmd : Byte} (h : Dialogue bs) (hp : Consumes cmd payload) :
      Dialogue (bs ++ cmd :: payload)

/-- The bytes that have come ask for this content of a sector: a `w` at its place and 512 bytes, or
a `W` at its place and this as a sector of a segment.  A sector of a segment that has no number of
32 bits may be put anywhere. -/
inductive Asks (c : SdCard) : List Byte → BitVec 32 → Sector → Prop
  | test {pre src post : List Byte} (h : Dialogue pre) (hsrc : src.length = 512) :
      Asks c (pre ++ 0x77 :: (src ++ post)) (c.home testLba) (sectorAt src 0)
  | segment {pre hdr data sent post : List Byte} {i : ℕ} (h : Dialogue pre)
      (hs : Sending hdr data sent) (hdata : data.length = 512 * (i + 1))
      (hnum : hdrLba hdr + i < 2 ^ 32) :
      Asks c (pre ++ 0x57 :: (sent ++ post)) (c.home (BitVec.ofNat 32 (hdrLba hdr + i)))
        (sectorAt data i)
  | wraps {pre hdr data sent post : List Byte} {i : ℕ} (h : Dialogue pre)
      (hs : Sending hdr data sent) (hdata : data.length = 512 * (i + 1))
      (hnum : 2 ^ 32 ≤ hdrLba hdr + i) (l : BitVec 32) :
      Asks c (pre ++ 0x57 :: (sent ++ post)) l (sectorAt data i)

lemma Asks.append {bs : List Byte} {l : BitVec 32} {x : Sector} (h : Asks c bs l x)
    (more : List Byte) : Asks c (bs ++ more) l x := by
  cases h with
  | test h hsrc =>
    rw [List.append_assoc, List.cons_append, List.append_assoc]
    exact .test h hsrc
  | segment h hs hdata hnum =>
    rw [List.append_assoc, List.cons_append, List.append_assoc]
    exact .segment h hs hdata hnum
  | wraps h hs hdata hnum =>
    rw [List.append_assoc, List.cons_append, List.append_assoc]
    exact .wraps h hs hdata hnum l

/-! ### The invariant -/

/-- Since `w₀` the bytes `bs` have come, and a sector holds what it held or what they ask for. -/
structure Since (c : SdCard) (w₀ : World State) (bs : List Byte) (w : World State) : Prop where
  came : ∃ used, w₀.input = used ++ w.input ∧ bytes used = bs
  rests : w.card.Rests
  store : ∀ l, w.store l = w₀.store l ∨ Asks c bs l (w.store l)

/-- The bytes `bs` have come, and the card is ready. -/
def Going (c : SdCard) (w₀ : World State) (bs : List Byte) (w : World State) : Prop :=
  Since c w₀ bs w ∧ Ready c w.card w.isHc

/-- What has come since `w₀` is of no account. -/
def Kept (c : SdCard) (w₀ w : World State) : Prop := ∃ bs, Since c w₀ bs w

variable {w₀ w : World State} {bs : List Byte}

/-- More input is read. -/
lemma Since.read (h : Since c w₀ bs w) {used rest : List (Option Byte)}
    (hw : w.input = used ++ rest) {more : List Byte} (hmore : bytes used = more) :
    Since c w₀ (bs ++ more) { w with input := rest } := by
  obtain ⟨used₀, h₀, rfl⟩ := h.came
  refine ⟨⟨used₀ ++ used, ?_, ?_⟩, h.rests, fun l => (h.store l).imp id fun hl => hl.append more⟩
  · rw [h₀, hw, List.append_assoc]
  · rw [bytes_append, hmore]

/-- All that is left is silence. -/
lemma Since.silence (h : Since c w₀ bs w) :
    Since c w₀ (bs ++ bytes w.input) { w with input := [] } :=
  h.read (List.append_nil _).symm rfl

/-- The card is called, and the sectors are what they were. -/
lemma Since.called (h : Since c w₀ bs w) {s : State} (hs : s.Rests)
    (hstore : s.core.store = w.store) (isHc : Bool) : Since c w₀ bs (w.withCard s isHc) := by
  refine ⟨h.came, hs, fun l => ?_⟩
  rw [World.store, World.withCard_card, hstore]
  exact h.store l

/-- A sector is written, or not. -/
lemma Since.written (h : Since c w₀ bs w) {s : State} (hs : s.Rests) {l : BitVec 32} {x : Sector}
    (hstore : s.core.store = w.store ∨ s.core.store = w.store.write [(l, x)])
    (hl : Asks c bs l x) (isHc : Bool) : Since c w₀ bs (w.withCard s isHc) := by
  refine ⟨h.came, hs, fun l' => ?_⟩
  rw [World.store, World.withCard_card]
  rcases hstore with heq | heq
  · rw [heq]
    exact h.store l'
  · rw [heq]
    by_cases hll : l' = l
    · rw [hll, Sd.Card.write_one]
      exact Or.inr hl
    · have hother : w.store.write [(l, x)] l' = w.store l' :=
        Lanes.storeAll_of_forall_ne fun w' hw' => by
          obtain rfl := List.mem_singleton.1 hw'
          exact Ne.symm hll
      rw [hother]
      exact h.store l'

lemma Since.kept (h : Since c w₀ bs w) : Kept c w₀ w := ⟨bs, h⟩

lemma coarse_since : Coarse false (Since c w₀ bs) where
  input := nofun
  output := fun _ _ h => ⟨h.came, h.rests, h.store⟩
  ram := fun _ _ h => ⟨h.came, h.rests, h.store⟩
  baud := fun _ _ h => ⟨h.came, h.rests, h.store⟩

lemma coarse_going : Coarse false (Going c w₀ bs) where
  input := nofun
  output := fun w o ⟨h, hready⟩ => ⟨coarse_since.output w o h, hready⟩
  ram := fun w m ⟨h, hready⟩ => ⟨coarse_since.ram w m h, hready⟩
  baud := fun w b ⟨h, hready⟩ => ⟨coarse_since.baud w b h, hready⟩

lemma coarse_kept : Coarse true (Kept c w₀) where
  input := by
    rintro - w b rest hw ⟨bs, h⟩
    have hw' : w.input = [b] ++ rest := hw
    exact ⟨_, h.read hw' rfl⟩
  output := fun w o ⟨bs, h⟩ => ⟨bs, coarse_since.output w o h⟩
  ram := fun w m ⟨bs, h⟩ => ⟨bs, coarse_since.ram w m h⟩
  baud := fun w b ⟨bs, h⟩ => ⟨bs, coarse_since.baud w b h⟩

/-! ### Calls -/

section Calls

variable {α : Type}

lemma keeps_since (p : Loader State α) [hp : Inert false p] : Keeps (Since c w₀ bs) p :=
  hp.keeps _ coarse_since

lemma keeps_going (p : Loader State α) [hp : Inert false p] : Keeps (Going c w₀ bs) p :=
  hp.keeps _ coarse_going

lemma keeps_kept (p : Loader State α) [hp : Inert true p] : Keeps (Kept c w₀) p :=
  hp.keeps _ coarse_kept

variable {Q : α → World State → Prop}

/-- A program that begins with `sd_init` and goes on only after a success. -/
lemma wp_sdInit_going (htells : c.TellsHc) (h : Since c w₀ bs w) {f : ℤ → Loader State α}
    (hfail : ∀ rc w', rc ≠ 0 → Since c w₀ bs w' → wp (f rc) Q (fun _ => Kept c w₀) w')
    (hok : ∀ w', Going c w₀ bs w' → wp (f 0) Q (fun _ => Kept c w₀) w') :
    wp (sdInit c.bus >>= f) Q (fun _ => Kept c w₀) w := by
  rw [wp_bind]
  refine wp_sdInit htells h.rests fun rc s isHc hs hstore hready => ?_
  have hcalled := h.called hs hstore isHc
  by_cases h0 : rc = 0
  · subst h0
    exact hok _ ⟨hcalled, hready rfl⟩
  · exact hfail rc _ h0 hcalled

lemma keeps_sdReadBlock (lba : BitVec 32) : Keeps (Going c w₀ bs) (sdReadBlock c.bus lba) := by
  rintro w ⟨h, hready⟩
  refine wp_sdReadBlock lba hready fun rc buf s hs hstore _ => ?_
  exact ⟨h.called hs.rests hstore w.isHc, hs⟩

/-- A program that leaves the line alone. -/
lemma Since.inert (h : Since c w₀ bs w) (p : Loader State α) [Inert false p]
    (hQ : ∀ a w', Since c w₀ bs w' → Q a w') : wp p Q (fun _ => Kept c w₀) w :=
  wp_mono hQ (fun _ _ h => h.kept) (keeps_since p w h)

/-- A part that the card is ready for. -/
lemma Going.part (h : Going c w₀ bs w) {p : Loader State α} (hp : Keeps (Going c w₀ bs) p)
    (hQ : ∀ a w', Going c w₀ bs w' → Q a w') : wp p Q (fun _ => Kept c w₀) w :=
  wp_mono hQ (fun _ _ h => h.1.kept) (hp w h)

lemma Going.puts (h : Going c w₀ bs w) (s : String) {Q : Unit → World State → Prop}
    (hQ : ∀ w', Going c w₀ bs w' → Q () w') : wp (puts s) Q (fun _ => Kept c w₀) w :=
  h.part (keeps_going _) fun _ => hQ

/-- Bytes of a request. -/
lemma Since.recv (h : Since c w₀ bs w) (n : ℕ) {Q : List Byte → World State → Prop}
    (hQ : ∀ more w', more.length = n → Since c w₀ (bs ++ more) w' → w'.card = w.card →
      w'.isHc = w.isHc → Q more w') : wp (times rawRecv n) Q (fun _ => Kept c w₀) w :=
  wp_times_rawRecv n (fun _ => h.silence.kept) fun more _ _ hw hmore hlen =>
    hQ more _ hlen (h.read hw hmore) rfl rfl

lemma Since.recvU32 (h : Since c w₀ bs w) {Q : BitVec 32 → World State → Prop}
    (hQ : ∀ more w', more.length = 4 → Since c w₀ (bs ++ more) w' → w'.card = w.card →
      w'.isHc = w.isHc → Q (Sd.recvU32 more) w') : wp recvU32 Q (fun _ => Kept c w₀) w :=
  wp_recvU32 (fun _ => h.silence.kept) fun more _ _ hw hmore hlen =>
    hQ more _ hlen (h.read hw hmore) rfl rfl

lemma Going.recv (h : Going c w₀ bs w) (n : ℕ) {Q : List Byte → World State → Prop}
    (hQ : ∀ more w', more.length = n → Going c w₀ (bs ++ more) w' → Q more w') :
    wp (times rawRecv n) Q (fun _ => Kept c w₀) w :=
  h.1.recv n fun more w' hlen hs hc hhc => hQ more w' hlen ⟨hs, by rw [hc, hhc]; exact h.2⟩

lemma Going.recvU32 (h : Going c w₀ bs w) {Q : BitVec 32 → World State → Prop}
    (hQ : ∀ more w', more.length = 4 → Going c w₀ (bs ++ more) w' → Q (Sd.recvU32 more) w') :
    wp recvU32 Q (fun _ => Kept c w₀) w :=
  h.1.recvU32 fun more w' hlen hs hc hhc => hQ more w' hlen ⟨hs, by rw [hc, hhc]; exact h.2⟩

/-- A sector that the bytes ask for is written, or the call fails. -/
lemma Going.write (h : Going c w₀ bs w) {lba : BitVec 32} {src : List Byte}
    (hsrc : src.length = Sd.sector) (hl : Asks c bs (c.home lba) (sectorAt src 0))
    {Q : ℤ → World State → Prop}
    (hQ : ∀ rc w', Since c w₀ bs w' → (rc = 0 → Going c w₀ bs w') → Q rc w') {E} :
    wp (sdWriteBlock c.bus lba src) Q E w :=
  wp_sdWriteBlock lba hsrc h.2 fun _ _ hs hstore hok =>
    hQ _ _ (h.1.written hs hstore hl w.isHc) fun h0 =>
      ⟨h.1.written hs hstore hl w.isHc, (hok h0).1⟩

end Calls

/-! ### Modes that read the card -/

/-- The mode has come back, and this is what it has taken. -/
def Back (c : SdCard) (w₀ : World State) (pre : List Byte) (cmd : Byte) (w : World State) : Prop :=
  ∃ payload, Consumes cmd payload ∧ Since c w₀ (pre ++ cmd :: payload) w

variable {pre : List Byte}

lemma wp_sdSmoke (htells : c.TellsHc) (h : Since c w₀ (pre ++ [0x73]) w) :
    wp (sdSmoke c.bus) (fun _ => Back c w₀ pre 0x73) (fun _ => Kept c w₀) w := by
  have hback : ∀ w', Since c w₀ (pre ++ [0x73]) w' → Back c w₀ pre 0x73 w' :=
    fun w' h => ⟨[], .smoke, h⟩
  rw [sdSmoke, wp_bind]
  refine h.inert _ fun _ w h => wp_sdInit_going htells h (fun rc w' hrc h => ?_) fun w' h => ?_
  · rw [if_pos hrc]
    exact h.inert _ fun _ => hback
  · rw [if_neg (not_not.2 rfl)]
    refine h.part ?_ fun _ w' h => hback w' h.1
    refine keeps_bind (keeps_going _) fun _ => keeps_bind keeps_get fun w =>
      keeps_bind (keeps_going _) fun _ => keeps_bind (keeps_going _) fun _ =>
      keeps_bind (keeps_sdReadBlock 0) ?_
    rintro ⟨rc, buf⟩
    exact keeps_going _

lemma wp_sdDump (htells : c.TellsHc) (h : Since c w₀ (pre ++ [0x64]) w) :
    wp (sdDump c.bus) (fun _ => Back c w₀ pre 0x64) (fun _ => Kept c w₀) w := by
  have hloop : ∀ bs start i n, Keeps (Going c w₀ bs) (dumpLoop c.bus start i n) := by
    intro bs start i n
    induction n generalizing i with
    | zero => exact keeps_going (puts _)
    | succ n ih =>
      refine keeps_bind (keeps_sdReadBlock _) ?_
      rintro ⟨rc, buf⟩
      exact keeps_ite (fun _ => keeps_going _) fun _ =>
        keeps_bind (keeps_going _) fun _ => ih (i + 1)
  rw [sdDump, wp_bind]
  refine h.recvU32 fun lo w hlo h _ _ => ?_
  rw [wp_bind]
  refine h.recvU32 fun hi w hhi h _ _ => ?_
  have hback : ∀ w', Since c w₀ (pre ++ [0x64] ++ lo ++ hi) w' → Back c w₀ pre 0x64 w' := by
    intro w' h
    refine ⟨lo ++ hi, .dump (by rw [List.length_append, hlo, hhi]), ?_⟩
    simpa using h
  refine wp_ite (fun _ => h.inert _ fun _ => hback) fun _ => ?_
  refine wp_sdInit_going htells h (fun rc w' hrc h => ?_) fun w' h => ?_
  · rw [if_pos hrc]
    exact h.inert _ fun _ => hback
  · rw [if_neg (not_not.2 rfl)]
    exact h.part (keeps_bind (keeps_going _) fun _ => hloop _ _ 0 _) fun _ w' h => hback w' h.1

lemma wp_sdReadHeader (htells : c.TellsHc) (h : Since c w₀ (pre ++ [0x52]) w) :
    wp (sdReadHeader c.bus) (fun _ => Back c w₀ pre 0x52) (fun _ => Kept c w₀) w := by
  have hback : ∀ w', Since c w₀ (pre ++ [0x52]) w' → Back c w₀ pre 0x52 w' :=
    fun w' h => ⟨[], .readHeader, h⟩
  refine wp_sdInit_going htells h (fun rc w' hrc h => ?_) fun w' h => ?_
  · rw [if_pos hrc]
    exact h.inert _ fun _ => hback
  · rw [if_neg (not_not.2 rfl)]
    refine h.part (keeps_bind (keeps_sdReadBlock 0) ?_) fun _ w' h => hback w' h.1
    rintro ⟨rc, buf⟩
    exact keeps_going _

lemma wp_modeSetBaud (h : Since c w₀ (pre ++ [0x42]) w) :
    wp modeSetBaud (fun _ => Back c w₀ pre 0x42) (fun _ => Kept c w₀) w := by
  rw [modeSetBaud, wp_bind]
  refine h.recvU32 fun rate w hrate h _ _ => ?_
  refine wp_ite (fun hbad => h.inert _ fun _ w' h => ⟨rate, .baudBad hrate hbad, by simpa using h⟩)
    fun hok => ?_
  rw [wp_bind]
  refine h.inert _ fun _ w h => ?_
  rw [wp_bind]
  refine h.inert _ fun _ w h => ?_
  rw [wp_bind]
  refine wp_rawRecv (fun _ => h.silence.kept) fun probe used rest hw hprobe => ?_
  refine (h.read hw hprobe).inert _ fun _ w' h => ⟨rate ++ [probe], .setBaud hrate hok, ?_⟩
  simpa using h

lemma keeps_sdReadMany (lba dst : BitVec 32) (i n : ℕ) :
    Keeps (Going c w₀ bs) (sdReadMany c.bus lba dst i n) := by
  induction n generalizing i with
  | zero => exact keeps_pure _
  | succ n ih =>
    refine keeps_bind (keeps_sdReadBlock _) ?_
    rintro ⟨rc, buf⟩
    exact keeps_ite (fun _ => keeps_pure _) fun _ => keeps_bind (keeps_going _) fun _ => ih (i + 1)

lemma wp_modeSdBoot (htells : c.TellsHc) (h : Since c w₀ bs w) {Q : Unit → World State → Prop} :
    wp (modeSdBoot c.bus) Q (fun _ => Kept c w₀) w := by
  have hmode : wp (modeSdBoot c.bus) (fun _ => Kept c w₀) (fun _ => Kept c w₀) w := by
    rw [modeSdBoot, wp_bind]
    refine h.inert _ fun _ w h => wp_sdInit_going htells h (fun rc w' hrc h => ?_) fun w' h => ?_
    · rw [if_pos hrc]
      exact h.inert _ fun _ _ => Since.kept
    · rw [if_neg (not_not.2 rfl)]
      refine h.part (keeps_bind (keeps_sdReadBlock 0) ?_) fun _ _ h => h.1.kept
      rintro ⟨rc, buf⟩
      refine keeps_ite (fun _ => keeps_going _) fun _ =>
        keeps_ite (fun _ => keeps_going _) fun _ => ?_
      unfold bootSections
      dsimp only
      repeat' first
        | with_reducible refine keeps_bind ?_ fun _ => ?_
        | with_reducible refine keeps_ite (fun _ => keeps_going _) fun _ => ?_
        | with_reducible exact keeps_sdReadMany _ _ _ _
        | exact keeps_going _
  have hfinal : Final (modeSdBoot c.bus) := inferInstance
  exact hfinal.wp hmode

/-! ### Modes that write -/

/-- The write test. -/
lemma wp_sdWriteTest (htells : c.TellsHc) (hpre : Dialogue pre) (h : Since c w₀ (pre ++ [0x77]) w) :
    wp (sdWriteTest c.bus) (fun _ => Back c w₀ pre 0x77) (fun _ => Kept c w₀) w := by
  refine wp_sdInit_going htells h (fun rc w' hrc h => ?_) fun w' h => ?_
  · rw [if_pos hrc]
    exact h.inert _ fun _ w' h => ⟨[], .testInit, h⟩
  rw [if_neg (not_not.2 rfl), wp_bind]
  refine h.puts _ fun w h => ?_
  rw [wp_bind]
  refine h.recv 512 fun rx w hlen h => ?_
  rw [List.append_assoc] at h
  have hasks : Asks c (pre ++ ([0x77] ++ rx)) (c.home testLba) (sectorAt rx 0) := by
    have hasks : Asks c (pre ++ 0x77 :: (rx ++ [])) (c.home testLba) (sectorAt rx 0) :=
      .test hpre hlen
    rwa [List.append_nil] at hasks
  have hback : ∀ w', Since c w₀ (pre ++ ([0x77] ++ rx)) w' → Back c w₀ pre 0x77 w' :=
    fun w' h => ⟨rx, .writeTest hlen, h⟩
  rw [wp_bind]
  refine h.write hlen hasks fun rc w h hgo => ?_
  refine wp_ite (fun _ => h.inert _ fun _ => hback) fun hrc => ?_
  refine (hgo (not_not.1 hrc)).part (keeps_bind (keeps_sdReadBlock testLba) ?_)
    fun _ w' h => hback w' h.1
  rintro ⟨rc, vf⟩
  refine keeps_ite (fun _ => keeps_going _) fun _ => ?_
  cases firstDiff rx vf 0 <;> exact keeps_going _

/-- The next sector of a segment. -/
lemma asks_sector {sent hdr data rx : List Byte} {i : ℕ} (hpre : Dialogue pre)
    (hs : Sending hdr (data ++ rx) sent) (hdata : data.length = 512 * i) (hrx : rx.length = 512) :
    Asks c (pre ++ 0x57 :: sent) (c.home (Sd.recvU32 (hdr.take 4) + BitVec.ofNat 32 i))
      (sectorAt rx 0) := by
  have hlen : (data ++ rx).length = 512 * (i + 1) := by
    rw [List.length_append, hdata, hrx]
    omega
  have hlba : Sd.recvU32 (hdr.take 4) + BitVec.ofNat 32 i = BitVec.ofNat 32 (hdrLba hdr + i) := by
    rw [hdrLba, BitVec.ofNat_add, BitVec.ofNat_toNat, BitVec.setWidth_eq]
  have hsec : sectorAt rx 0 = sectorAt (data ++ rx) i := by
    funext j
    have hsector : Sd.sector = 512 := rfl
    simp only [sectorAt, List.getD_eq_getElem?_getD, hsector]
    rw [List.getElem?_append_right (by omega)]
    congr 2
    omega
  rw [← List.append_nil sent]
  by_cases hnum : hdrLba hdr + i < 2 ^ 32
  · rw [hlba, hsec]
    exact .segment hpre hs hlen hnum
  · rw [hsec]
    exact .wraps hpre hs hlen (not_lt.1 hnum) _

/-- The sectors of a segment. -/
lemma wp_multiSectors {i n : ℕ} {front hdr data : List Byte} (k m : ℕ) (hpre : Dialogue pre)
    (h : Going c w₀ (pre ++ 0x57 :: (front ++ (hdr ++ data))) w) (hfront : Whole i (n + 1) front)
    (hhdr : hdr.length = 8) (hcount : hdrCount hdr ≤ 8192) (hdata : data.length = 512 * k)
    (hm : k + m = hdrCount hdr) :
    wp (multiSectors c.bus (Sd.recvU32 (hdr.take 4)) k m) (fun ok w' => match ok with
      | true => ∃ data, data.length = 512 * hdrCount hdr ∧
          Going c w₀ (pre ++ 0x57 :: (front ++ (hdr ++ data))) w'
      | false => Back c w₀ pre 0x57 w') (fun _ => Kept c w₀) w := by
  induction m generalizing k data w with
  | zero => exact ⟨data, by rw [hdata, ← hm, Nat.add_zero], h⟩
  | succ m ih =>
    rw [multiSectors, wp_bind]
    refine h.recv 512 fun rx w hlen h => ?_
    have hbs : pre ++ 0x57 :: (front ++ (hdr ++ data)) ++ rx =
        pre ++ 0x57 :: (front ++ (hdr ++ (data ++ rx))) := by simp
    rw [hbs] at h
    have hdata' : (data ++ rx).length = 512 * (k + 1) := by
      rw [List.length_append, hdata, hlen]
      omega
    have hs : Sending hdr (data ++ rx) (front ++ (hdr ++ (data ++ rx))) :=
      ⟨i, n, front, rfl, hfront, hhdr, hcount, by omega⟩
    dsimp only
    rw [wp_bind]
    refine h.write hlen (asks_sector hpre hs hdata hlen) fun rc w h hgo => ?_
    refine wp_ite (fun _ => ?_) fun hrc => ?_
    · simp only [wp_bind, wp_puts, wp_emit, wp_pure]
      exact ⟨_, .failed hs hdata', coarse_since.output w _ h⟩
    · rw [wp_bind]
      exact (hgo (not_not.1 hrc)).puts _ fun w h => ih (k + 1) h hdata' (by omega)

/-- The segments. -/
lemma wp_multiSegments {sent : List Byte} (i n : ℕ) (hpre : Dialogue pre)
    (h : Going c w₀ (pre ++ 0x57 :: sent) w) (hsent : Whole i n sent) :
    wp (multiSegments c.bus i n) (fun _ => Back c w₀ pre 0x57) (fun _ => Kept c w₀) w := by
  induction n generalizing i sent w with
  | zero => exact h.puts _ fun w' h => ⟨sent, .multi hsent, h.1⟩
  | succ n ih =>
    rw [multiSegments, wp_bind]
    refine h.recvU32 fun lo w hlo h => ?_
    rw [wp_bind]
    refine h.recvU32 fun hi w hhi h => ?_
    have hhdr : (lo ++ hi).length = 8 := by rw [List.length_append, hlo, hhi]
    have hbs : pre ++ 0x57 :: sent ++ lo ++ hi = pre ++ 0x57 :: (sent ++ (lo ++ hi)) := by simp
    rw [hbs] at h
    have hstart : Sd.recvU32 lo = Sd.recvU32 ((lo ++ hi).take 4) := by rw [List.take_left' hlo]
    have hcount : (Sd.recvU32 hi).toNat = hdrCount (lo ++ hi) := by
      rw [hdrCount, List.drop_left' hlo]
    have hzero : Sd.recvU32 hi = 0 ↔ hdrCount (lo ++ hi) = 0 := by
      rw [← hcount, ← BitVec.toNat_inj]
      rfl
    have hmore : 8192 < Sd.recvU32 hi ↔ 8192 < hdrCount (lo ++ hi) := by
      rw [← hcount, BitVec.lt_def]
      rfl
    refine wp_ite (fun hbad => h.1.inert _ fun _ w' h =>
      ⟨_, .badCount hsent hhdr (hbad.imp hzero.1 hmore.1), h⟩) fun hok => ?_
    have hle : hdrCount (lo ++ hi) ≤ 8192 := not_lt.1 fun hlt => hok (Or.inr (hmore.2 hlt))
    rw [wp_bind, hstart, hcount]
    rw [← List.append_nil (lo ++ hi)] at h
    refine wp_mono ?_ (fun _ _ h => h)
      (wp_multiSectors 0 _ hpre h hsent hhdr hle rfl (Nat.zero_add _))
    rintro (_ | _) w h
    · exact h
    · -- the segment is whole
      obtain ⟨data, hdata, h⟩ := h
      obtain ⟨cnt, segs, rfl, hcnt, hnum, h16, hsegs⟩ := hsent
      refine ih (i + 1) h ⟨cnt, segs ++ ((lo ++ hi) ++ data), by rw [List.append_assoc], hcnt, ?_,
        by omega, .concat hsegs hhdr hdata⟩
      rw [hnum]
      omega

/-- The multi-segment write. -/
lemma wp_sdWriteMulti (htells : c.TellsHc) (hpre : Dialogue pre)
    (h : Since c w₀ (pre ++ [0x57]) w) :
    wp (sdWriteMulti c.bus) (fun _ => Back c w₀ pre 0x57) (fun _ => Kept c w₀) w := by
  refine wp_sdInit_going htells h (fun rc w' hrc h => ?_) fun w' h => ?_
  · rw [if_pos hrc]
    exact h.inert _ fun _ w' h => ⟨[], .multiInit, h⟩
  rw [if_neg (not_not.2 rfl), wp_bind]
  refine h.puts _ fun w h => ?_
  rw [wp_bind]
  refine h.recvU32 fun cnt w hcnt h => ?_
  rw [List.append_assoc] at h
  refine wp_ite (fun hbad => h.1.inert _ fun _ w' h => ⟨cnt, .badSegs hcnt hbad, h⟩) fun hok => ?_
  have h16 : (Sd.recvU32 cnt).toNat ≤ 16 := not_lt.1 fun hlt => hok (Or.inr hlt)
  rw [wp_bind]
  refine h.puts _ fun w h => wp_multiSegments 0 _ hpre h ⟨cnt, [], ?_, hcnt, ?_, ?_, .nil⟩
  · exact (List.append_nil cnt).symm
  · rw [Nat.zero_add]
  · rwa [Nat.zero_add]

/-! ### The dispatcher -/

/-- The bytes that have come end with the command, and what is before it is done. -/
def LastCame (c : SdCard) (w₀ : World State) (cmd : Option Byte) (w : World State) : Prop :=
  ∃ bs, Since c w₀ bs w ∧ ∀ b, cmd = some b → ∃ pre, Dialogue pre ∧ bs = pre ++ [b]

/-- The mode of a command.  Where it comes back, the dialogue goes on behind what it has taken. -/
lemma wp_mode (htells : c.TellsHc) {cmd : Option Byte} (h : LastCame c w₀ cmd w) :
    wp (mode c.bus cmd) (fun _ w' => ∃ bs, Dialogue bs ∧ Since c w₀ bs w') (fun _ => Kept c w₀)
      w := by
  obtain ⟨bs, h, hcmd⟩ := h
  have hback : ∀ pre b w', Dialogue pre → Back c w₀ pre b w' →
      ∃ bs, Dialogue bs ∧ Since c w₀ bs w' := fun pre b w' hpre ⟨payload, hp, h⟩ =>
    ⟨_, hpre.concat hp, h⟩
  rw [mode.eq_def]
  split
  · exact Final.wp inferInstance (keeps_kept modeLinux w h.kept)
  · exact wp_modeSdBoot htells h
  · obtain ⟨pre, hpre, rfl⟩ := hcmd _ rfl
    exact wp_mono (fun _ _ => hback _ _ _ hpre) (fun _ _ h => h) (wp_sdDump htells h)
  · obtain ⟨pre, hpre, rfl⟩ := hcmd _ rfl
    exact wp_mono (fun _ _ => hback _ _ _ hpre) (fun _ _ h => h) (wp_sdSmoke htells h)
  · obtain ⟨pre, hpre, rfl⟩ := hcmd _ rfl
    exact wp_mono (fun _ _ => hback _ _ _ hpre) (fun _ _ h => h) (wp_sdWriteTest htells hpre h)
  · obtain ⟨pre, hpre, rfl⟩ := hcmd _ rfl
    exact wp_mono (fun _ _ => hback _ _ _ hpre) (fun _ _ h => h) (wp_sdWriteMulti htells hpre h)
  · obtain ⟨pre, hpre, rfl⟩ := hcmd _ rfl
    exact wp_mono (fun _ _ => hback _ _ _ hpre) (fun _ _ h => h) (wp_sdReadHeader htells h)
  · obtain ⟨pre, hpre, rfl⟩ := hcmd _ rfl
    exact wp_mono (fun _ _ => hback _ _ _ hpre) (fun _ _ h => h) (wp_modeSetBaud h)
  · exact Final.wp inferInstance (keeps_kept modeUboot w h.kept)

/-- A round of the dispatcher. -/
lemma wp_command (htells : c.TellsHc) {cmd : Option Byte} (h : LastCame c w₀ cmd w) :
    wp (command c.bus cmd) (fun r w' => match r with
      | .inl cmd' => LastCame c w₀ cmd' w'
      | .inr _ => True) (fun _ => Kept c w₀) w := by
  rw [command, wp_bind]
  refine wp_mono ?_ (fun _ _ h => h) (wp_mode htells h)
  rintro _ w ⟨bs, hbs, h⟩
  simp only [wp_bind, wp_emit, wp_pure]
  have hout := coarse_since.output w (w.output ++ readyText) h
  refine wp_rawRecv (fun _ => hout.silence.kept) ?_
  intro b used rest hw hb
  refine ⟨bs ++ [b], hout.read hw hb, ?_⟩
  rintro b' ⟨⟩
  exact ⟨bs, hbs, rfl⟩

/-- The dispatcher with a command. -/
lemma wp_dispatch (htells : c.TellsHc) {cmd : Option Byte} (h : LastCame c w₀ cmd w) :
    wp (dispatch c.bus cmd) (fun _ => Kept c w₀) (fun _ => Kept c w₀) w := by
  refine wp_loop_of_dry (LastCame c w₀) (fun _ _ ⟨bs, h, _⟩ => h.kept) (fun cmd w h => ?_) h
  refine wp_mono ?_ (fun _ _ h => h) (wp_command htells h)
  rintro (cmd' | x) w' h'
  · exact h'
  · exact x.elim

/-- The whole program. -/
lemma kept_main (htells : c.TellsHc) (clk : BitVec 32) {w : World State} (hw : w.card.Rests) :
    Kept c w (exec (main c.bus clk) w).2 := by
  have hstart : Since c w [] w := ⟨⟨[], rfl, rfl⟩, hw, fun _ => Or.inl rfl⟩
  have hmain : wp (main c.bus clk) (fun _ => Kept c w) (fun _ => Kept c w) w := by
    rw [main, wp_bind]
    refine hstart.inert _ fun _ w' h => ?_
    rw [wp_bind]
    refine wp_getc (fun _ => h.kept) fun cmd rest hw => ?_
    have hw' : w'.input = [cmd] ++ rest := hw
    refine wp_dispatch htells ⟨_, h.read hw' rfl, ?_⟩
    rintro b rfl
    exact ⟨[], .nil, rfl⟩
  exact exec_of_wp_both hmain

/-- **The frame of a run of stage2.**  Let a card be on the bus that is at rest, and that answers
CMD58 if it is addressed in blocks.  Whatever comes over the line, with whatever
silences, and whatever else the card answers: when stage2 waits, halts, jumps or stores past the
XBUS, every sector of the card holds what it held at the reset, or what the bytes on the line have
asked for.  These are counted from the reset on as the dispatcher takes them, each command with what
belongs to it: 512 bytes behind a `w` are asked for at the LBA of the write test, and the sectors of
a segment behind a `W` at the LBAs of its header, where the card looks for them. -/
theorem main_frame (c : SdCard) (htells : c.TellsHc) (clk : BitVec 32) (w : World State)
    (hrests : w.card.Rests) (l : BitVec 32) :
    (exec (main c.bus clk) w).2.store l = w.store l ∨
      Asks c (bytes w.input) l ((exec (main c.bus clk) w).2.store l) := by
  obtain ⟨bs, ⟨used, hin, rfl⟩, -, hstore⟩ := kept_main htells clk hrests
  rw [hin, bytes_append]
  exact (hstore l).imp id fun h => h.append _

/-- A segment of the one sector 9 is all that these bytes ask for. -/
lemma segment_nine {sent post hdr data : List Byte} {i : ℕ}
    (heq : Bytes.toLE 4 1 ++ (Bytes.toLE 4 9 ++ Bytes.toLE 4 1 ++
      (List.replicate 512 6 ++ ascii "R")) = sent ++ post)
    (hs : Sending hdr data sent) (hdata : data.length = 512 * (i + 1)) :
    hdrLba hdr + i = 9 := by
  obtain ⟨j, n, front, rfl, ⟨cnt, segs, rfl, hcnt, hnum, -, hsegs⟩, hhdr, -, hle⟩ := hs
  simp only [List.append_assoc] at heq
  obtain ⟨rfl, hbehind⟩ := List.append_inj heq (by rw [hcnt]; rfl)
  have hone : (Sd.recvU32 (Bytes.toLE 4 1)).toNat = 1 := by decide
  obtain rfl : j = 0 := by omega
  cases hsegs
  rw [List.nil_append, ← List.append_assoc] at hbehind
  obtain ⟨rfl, -⟩ := List.append_inj hbehind (by rw [hhdr]; rfl)
  have hlba : hdrLba (Bytes.toLE 4 9 ++ Bytes.toLE 4 1) = 9 := by decide
  have hcount : hdrCount (Bytes.toLE 4 9 ++ Bytes.toLE 4 1) = 1 := by decide
  rw [hcount] at hle
  omega

/-- A write test, a silence, a segment of one sector, and a read of the header. -/
theorem main_frame_writes :
    (exec (main (Spi.plainCard true []).bus 50000000)
      ⟨(0x77 :: List.replicate 512 5).map some ++ none :: (0x57 :: (Bytes.toLE 4 1 ++
        (Bytes.toLE 4 9 ++ Bytes.toLE 4 1 ++ (List.replicate 512 6 ++ ascii "R")))).map some, [],
        ⟨false, .ready [], Spi.blank⟩, false, fun _ => 0, 0⟩).2.store 7 = fun _ => 0 := by
  generalize hinput : (0x77 :: List.replicate 512 (5 : Byte)).map some ++ none ::
    (0x57 :: (Bytes.toLE 4 1 ++ (Bytes.toLE 4 9 ++ Bytes.toLE 4 1 ++
      (List.replicate 512 6 ++ ascii "R")))).map some = input
  let w : World State := ⟨input, [], ⟨false, .ready [], Spi.blank⟩, false, fun _ => 0, 0⟩
  rcases main_frame (Spi.plainCard true []) (fun _ _ => rfl) 50000000 w ⟨0, Spi.blank, rfl⟩ 7 with
    hkept | hasks
  · exact hkept
  -- what is asked for has LBA 2048 or 9
  exfalso
  have hbytes : bytes w.input = 0x77 :: List.replicate 512 5 ++ 0x57 :: (Bytes.toLE 4 1 ++
      (Bytes.toLE 4 9 ++ Bytes.toLE 4 1 ++ (List.replicate 512 6 ++ ascii "R"))) := by
    rw [show w.input = input from rfl, ← hinput, bytes_append, bytes_cons_none, bytes_map_some,
      bytes_map_some]
  have hhome : ∀ l, (Spi.plainCard true []).home l = l := fun _ => rfl
  have hfirst : (0x57 : Byte) ∉ 0x77 :: List.replicate 512 (5 : Byte) := by
    simp only [List.mem_cons, List.mem_replicate]
    decide
  have hrest : (0x57 : Byte) ∉ Bytes.toLE 4 1 ++ (Bytes.toLE 4 9 ++ Bytes.toLE 4 1 ++
      (List.replicate 512 6 ++ ascii "R")) := by
    simp only [List.mem_append, List.mem_replicate]
    decide
  generalize (exec (main (Spi.plainCard true []).bus 50000000) w).2.store 7 = x at hasks
  generalize hall : bytes w.input = all at hasks
  generalize hl : (7 : BitVec 32) = l at hasks
  rw [hbytes] at hall
  cases hasks with
  | test =>
    rw [hhome] at hl
    revert hl
    decide
  | segment hpre hs hdata hnum =>
    obtain ⟨-, -, heq⟩ := (List.append_cons_inj_of_notMem hfirst hrest).1 hall
    rw [hhome, segment_nine heq hs hdata] at hl
    revert hl
    decide
  | wraps hpre hs hdata hnum =>
    obtain ⟨-, -, heq⟩ := (List.append_cons_inj_of_notMem hfirst hrest).1 hall
    rw [segment_nine heq hs hdata] at hnum
    omega

end Neorv32Boot.Stage2
