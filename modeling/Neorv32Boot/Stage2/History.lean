import Neorv32Boot.Stage2.Boot

/-!
# From the tools to the kernel

A session in which the host runs its tools, each of them as the requests that it sends, and then
asks for the boot: the SDRAM at the jump holds the files that the tools have stored.
-/

namespace Neorv32Boot.Stage2

open Prog
open Sd (Boot Booted Card Consistent Files Ram Reforms Run Segment SentinelAt Slot dtbLoadAddr
  kernelLoadAddr storedBy)
open Spi (SdCard State)

/-! ### The requests of a run -/

/-- The segments that a run writes. -/
def segmentsOf (r : Run) : List Segment :=
  match Sd.buildHeader r.files.image.length r.files.dtb.length r.files.initrd.length with
  | .ok hdr => ⟨Sd.hdrLba, hdr⟩ :: Sd.slotSegments r.selects r.files
  | .error _ => []

/-- The requests of a run: `sd_update` reads the header first, and again when it verifies. -/
def requestsOf (r : Run) : List Request :=
  match r with
  | .pack _ => [.writeMulti (segmentsOf r)]
  | .update fl _ => .readHeader :: .writeMulti (segmentsOf r) ::
      if fl.verify then [.readHeader] else []

/-- A request that writes nothing. -/
def Request.Looks : Request → Prop
  | .writeTest _ | .writeMulti _ => False
  | .dump .. | .smoke | .readHeader | .setBaud .. => True

/-- A run of a tool, and what the host has asked for before it. -/
structure Job where
  before : List Request
  run : Run

/-- The requests of a job. -/
def Job.requests (j : Job) : List Request := j.before ++ requestsOf j.run

/-- The requests of some jobs. -/
def requests (js : List Job) : List Request := js.flatMap Job.requests

/-- The requests before the run write nothing, and ask for sectors of the card. -/
def Job.Ok (capacity : ℕ) (j : Job) : Prop := ∀ q ∈ j.before, q.Looks ∧ q.Valid capacity

/-- What requests leave on the card. -/
lemma serveAll_card (hc : Bool) (rs : List Request) (v : View) :
    (serveAll hc rs v).card = rs.foldl Request.effect v.card := by
  induction rs generalizing v with
  | nil => rfl
  | cons r rs ih => exact ih _

/-- Requests leave the SDRAM. -/
lemma serveAll_ram (hc : Bool) (rs : List Request) (v : View) : (serveAll hc rs v).ram = v.ram := by
  induction rs generalizing v with
  | nil => rfl
  | cons r rs ih => exact ih _

lemma Request.Looks.effect {q : Request} (h : q.Looks) (k : Card) : Request.effect k q = k := by
  cases q with
  | writeTest | writeMulti => exact h.elim
  | dump | smoke | readHeader | setBaud => rfl

lemma effect_looks {qs : List Request} (h : ∀ q ∈ qs, q.Looks) (k : Card) :
    qs.foldl Request.effect k = k := by
  induction qs generalizing k with
  | nil => rfl
  | cons q qs ih =>
    rw [List.foldl_cons, (h q List.mem_cons_self).effect]
    exact ih (fun q' hq' => h q' (List.mem_cons_of_mem _ hq')) k

variable {capacity : ℕ} {k k' : Card}

/-- What a run that succeeds sends is valid, and does what the run does. -/
lemma requestsOf_spec (hcap : Sd.endLba ≤ capacity) {r : Run} (h : r.exec k = .ok k') :
    (∀ q ∈ requestsOf r, q.Valid capacity) ∧ (requestsOf r).foldl Request.effect k = k' := by
  obtain ⟨hfit, hdr, hhdr, hw⟩ := Run.exec_segments h
  have hsegs : segmentsOf r = ⟨Sd.hdrLba, hdr⟩ :: Sd.slotSegments r.selects r.files := by
    rw [segmentsOf, hhdr]
  rw [← hsegs] at hw
  obtain ⟨⟨hlen, hok⟩, hk'⟩ := Sd.multiSegWrite_eq_ok hw
  have hend : ∀ s ∈ segmentsOf r, s.startLba + s.secCount ≤ capacity := by
    intro s hs
    rw [hsegs] at hs
    refine le_trans ?_ hcap
    rcases List.mem_cons.1 hs with rfl | hs
    · have hone : hdr.length = 512 := (Sd.parseHeader_buildHeader hhdr).1
      simp only [Segment.secCount, hone]
      decide
    · obtain ⟨t, -, rfl⟩ := List.mem_map.1 hs
      have h1 := t.bounds.2
      have h2 := hfit t
      rw [Sd.segment_secCount]
      show t.lba + Sd.usedSec (r.files.file t) ≤ Sd.endLba
      omega
  -- the write is the same for both tools
  have hmulti : (Request.writeMulti (segmentsOf r)).Valid capacity :=
    ⟨hlen, fun s hs => ⟨hok s hs, hend s hs⟩⟩
  have hzero : 0 < capacity := lt_of_lt_of_le (by decide) hcap
  cases r with
  | pack f =>
    refine ⟨?_, hk'.symm⟩
    rintro q hq
    obtain rfl := List.mem_singleton.1 hq
    exact hmulti
  | update fl f =>
    constructor
    · intro q hq
      rw [requestsOf] at hq
      rcases List.mem_cons.1 hq with rfl | hq
      · exact hzero
      · rcases List.mem_cons.1 hq with rfl | hq
        · exact hmulti
        · split_ifs at hq
          · obtain rfl := List.mem_singleton.1 hq
            exact hzero
          · cases hq
    · rw [requestsOf, List.foldl_cons, List.foldl_cons, effect_looks, hk']
      · rfl
      · intro q hq
        split_ifs at hq
        · obtain rfl := List.mem_singleton.1 hq
          exact trivial
        · cases hq

/-- The same for jobs. -/
lemma requests_spec (hcap : Sd.endLba ≤ capacity) {js : List Job} (hjs : ∀ j ∈ js, j.Ok capacity)
    (h : Sd.runs (js.map Job.run) k = .ok k') :
    (∀ q ∈ requests js, q.Valid capacity) ∧ (requests js).foldl Request.effect k = k' := by
  induction js generalizing k with
  | nil => exact ⟨nofun, Except.ok.inj h⟩
  | cons j js ih =>
    rw [List.map_cons, Sd.runs, List.foldlM_cons] at h
    obtain ⟨k₁, h₁, hrest⟩ := Sd.bind_eq_ok.1 h
    obtain ⟨hvalid, heffect⟩ := requestsOf_spec hcap h₁
    obtain ⟨hvalid', heffect'⟩ := ih (fun j' hj' => hjs j' (List.mem_cons_of_mem _ hj')) hrest
    have hbefore := hjs j List.mem_cons_self
    rw [requests, List.flatMap_cons, ← requests, Job.requests]
    constructor
    · intro q hq
      rcases List.mem_append.1 hq with hq | hq
      · rcases List.mem_append.1 hq with hq | hq
        · exact (hbefore q hq).2
        · exact hvalid q hq
      · exact hvalid' q hq
    · rw [List.foldl_append, List.foldl_append, effect_looks fun q hq => (hbefore q hq).1, heffect,
        heffect']

/-! ### What a boot makes of the card -/

/-- These files are in the slots, with their sizes in the header. -/
structure Packed (k : Card) (g : Files) : Prop where
  header : Sd.parseHeader (Sd.readHeader k) =
    .ok (Sd.layoutHeader g.image.length g.dtb.length g.initrd.length)
  stored : Sd.Stored k g
  nonempty : ∀ s, g.file s ≠ []

/-- No file that is stored is empty. -/
lemma storedBy_ne_nil {f : Files} {rs : List Run} (h : Sd.runs (.pack f :: rs) k = .ok k')
    (s : Slot) : (storedBy rs f).file s ≠ [] := by
  have hne : ∀ {r : Run} {k k' : Card}, r.exec k = .ok k' → ∀ s, r.selects s = true →
      r.files.file s ≠ [] := by
    rintro r k k' hr s hs hnil
    obtain ⟨-, hdr, -, hw⟩ := Run.exec_segments hr
    have hpos := ((Sd.multiSegWrite_eq_ok hw).1.2 ⟨s.lba, Sd.padSector (r.files.file s)⟩
      (List.mem_cons_of_mem _ (List.mem_map.2 ⟨s, List.mem_filter.2 ⟨s.mem_all, hs⟩, rfl⟩))).pos
    rw [Sd.segment_secCount, hnil] at hpos
    exact absurd hpos (by decide)
  induction rs using List.reverseRecOn generalizing k' with
  | nil =>
    obtain ⟨k₁, -, hr⟩ := (Sd.runs_concat []).1 h
    exact hne hr s rfl
  | append_singleton rs r ih =>
    rw [← List.cons_append] at h
    obtain ⟨k₁, h₁, hr⟩ := (Sd.runs_concat _).1 h
    rw [Sd.storedBy_concat, Sd.file_store]
    split_ifs with hs
    · exact hne hr s hs
    · exact ih h₁

/-- After runs that leave the card consistent. -/
lemma packed_of_runs {f : Files} {rs : List Run} (h : Sd.runs (.pack f :: rs) k = .ok k')
    (hcons : Consistent k' (storedBy rs f)) : Packed k' (storedBy rs f) := by
  refine ⟨?_, Sd.stored_runs h, storedBy_ne_nil h⟩
  obtain ⟨pre, r, hrs⟩ : ∃ pre r, Run.pack f :: rs = pre ++ [r] :=
    ⟨_, _, (List.dropLast_append_getLast (List.cons_ne_nil _ _)).symm⟩
  rw [hrs] at h
  obtain ⟨k₁, -, hr⟩ := (Sd.runs_concat pre).1 h
  have hheader := (Run.exec_spec hr).header
  obtain ⟨hdr, hp, hsize⟩ := hcons
  have hdreq := Except.ok.inj (hp.symm.trans hheader)
  have himage := (hsize .image).1
  have hdtb := (hsize .dtb).1
  have hinitrd := (hsize .initrd).1
  rw [hdreq, Sd.size_layoutHeader] at himage hdtb hinitrd
  simp only [Files.file] at himage hdtb hinitrd
  rw [hheader, himage, hdtb, hinitrd]

section Packed

variable {g : Files} {p : ℕ}

/-- The card as `sd_pack` leaves it is booted in the same way. -/
lemma Packed.same (h : Packed k g) : ∃ k₁, Sd.pack g k = .ok k₁ ∧
    ∀ m, Sd.modeSdBoot true (fun l => some (k l)) m =
      Sd.modeSdBoot true (fun l => some (k₁ l)) m := by
  obtain ⟨k₁, hk₁⟩ := Sd.exists_pack k (fun s => (h.stored s).1) h.nonempty
  refine ⟨k₁, hk₁, fun m => ?_⟩
  rw [Sd.modeSdBoot_of_stored h.header h.stored, Sd.modeSdBoot_of_pack hk₁]

/-- When the boot ends in a jump, and the SDRAM then. -/
lemma Packed.jumps_iff (h : Packed k g) (hs : SentinelAt g.dtb p)
    (hu : ∀ q, SentinelAt g.dtb q → q = p) {m m' : Ram} :
    Sd.modeSdBoot true (fun l => some (k l)) m = .jump m' ↔
      (∀ i, p < i → i + 4 ≤ (Sd.padSector g.dtb).length →
        ¬ Sd.IsSentinel ((Sd.patchedRam m g p).view dtbLoadAddr) i) ∧
        m' = Sd.patchedRam m g p := by
  obtain ⟨k₁, hk₁, hsame⟩ := h.same
  obtain ⟨h1, h2, h3, h4, h5, h6⟩ := Sd.pack_lengths hk₁
  have hp := hs.le
  have hinside : p + 4 ≤ (Sd.padSector g.dtb).length := by omega
  obtain ⟨hone, hram⟩ := Sd.patch_eq_one_iff (Sd.loaded m g) dtbLoadAddr
    (BitVec.ofNat 32 g.initrd.length) hinside ((Sd.isSentinel_loaded m hk₁ hinside).2 hs)
    fun i hi hsi => absurd (hu i ((Sd.isSentinel_loaded m hk₁ (by omega)).1 hsi)) (by omega)
  rw [hsame, Sd.modeSdBoot_of_pack hk₁, Sd.patchedRam, ← hone]
  dsimp only
  split_ifs with hne
  · exact iff_of_false (by rintro ⟨⟩) fun hc => hne hc.1
  · rw [hram (not_not.1 hne)]
    constructor
    · intro hj
      exact ⟨not_not.1 hne, (Boot.jump.inj hj).symm⟩
    · rintro ⟨-, rfl⟩
      rfl

/-- No slot is so long that it reaches the data memory of the CPU. -/
lemma Packed.not_astray (h : Packed k g) (m : Ram) :
    Sd.modeSdBoot true (fun l => some (k l)) m ≠ .astray := by
  obtain ⟨k₁, hk₁, hsame⟩ := h.same
  rw [hsame, Sd.modeSdBoot_of_pack hk₁]
  dsimp only
  split_ifs
  · exact nofun
  · exact nofun

/-- A boot that ends in a jump is right. -/
lemma Packed.booted (h : Packed k g) (hs : SentinelAt g.dtb p)
    (hu : ∀ q, SentinelAt g.dtb q → q = p) (hn : g.initrd.length ≤ 0x80000) {m m' : Ram}
    (hjump : Sd.modeSdBoot true (fun l => some (k l)) m = .jump m') : Booted m' g p := by
  obtain ⟨k₁, hk₁, -⟩ := h.same
  obtain ⟨-, rfl⟩ := (h.jumps_iff hs hu).1 hjump
  exact Sd.booted_patched m hk₁ hs hn

/-- When the boot is right. -/
lemma Packed.right_iff (h : Packed k g) (hs : SentinelAt g.dtb p)
    (hu : ∀ q, SentinelAt g.dtb q → q = p) (m : Ram) :
    Sd.BootsRight (Sd.modeSdBoot true (fun l => some (k l)) m) g p ↔
      g.initrd.length ≤ 0x80000 ∧ ¬ Reforms g.dtb p g.initrd.length := by
  obtain ⟨k₁, hk₁, -⟩ := h.same
  constructor
  · rintro ⟨m', hjump, hb⟩
    have hn : g.initrd.length ≤ 0x80000 := by
      have hr := Sd.initrdLoadAddr_toNat
      have := hb.apart
      omega
    exact ⟨hn, (Sd.patched_clean_iff m hk₁ hs hu hn).1 ((h.jumps_iff hs hu).1 hjump).1⟩
  · rintro ⟨hn, hno⟩
    have hjump := (h.jumps_iff hs hu).2 ⟨(Sd.patched_clean_iff m hk₁ hs hu hn).2 hno, rfl⟩
    exact ⟨_, hjump, h.booted hs hu hn hjump⟩

end Packed

/-! ### The boot of a card that may fail -/

/-- Where a sector is that every card can address. -/
lemma home_of_lt (c : SdCard) {l : BitVec 32} (hl : l.toNat < 2 ^ 23) : c.home l = l := by
  rw [SdCard.home]
  split_ifs
  · rfl
  · rw [← BitVec.toNat_inj, BitVec.toNat_udiv, BitVec.toNat_mul]
    show l.toNat * 512 % 2 ^ 32 / 512 = l.toNat
    omega

lemma Packed.home (c : SdCard) {g : Files} (h : Packed k g) :
    Packed (fun l => k (c.home l)) g where
  header := by
    have hzero : c.home (BitVec.ofNat 32 Sd.hdrLba) = BitVec.ofNat 32 Sd.hdrLba :=
      home_of_lt c (by decide)
    rw [Sd.readHeader, hzero]
    exact h.header
  stored := by
    intro s
    refine ⟨(h.stored s).1, fun i hi => ?_⟩
    have hend : s.lba + s.maxSec ≤ 8009 := s.bounds.2
    have hfit := (h.stored s).1
    have hlt : (BitVec.ofNat 32 (s.lba + i)).toNat < 2 ^ 23 := by
      rw [BitVec.toNat_ofNat]
      omega
    show k (c.home (BitVec.ofNat 32 (s.lba + i))) = _
    rw [home_of_lt c hlt]
    exact (h.stored s).2 i hi
  nonempty := h.nonempty

/-- The sectors of the image are inside the card. -/
lemma Packed.inside {g : Files} (h : Packed k g) (hcap : Sd.endLba ≤ capacity) :
    Inside (.ofSector (k 0)) fun l => l.toNat < capacity := by
  have hhdr : Sd.SdBootHdr.ofSector (k 0) = _ := (Sd.ofSector_of_parseHeader h.header).2
  rw [hhdr]
  intro s i hi
  have hfit := (h.stored s).1
  have hend := s.bounds.2
  have hmax : s.maxSec ≤ 4000 := by cases s <;> decide
  have hlen : (g.file s).length < 2 ^ 31 := by
    simp only [Sd.usedSec, Sd.sector] at hfit
    omega
  have hblks := Sd.blks_toNat hlen
  have hlt : (BitVec.ofNat 32 (s.lba + i)).toNat < capacity := by
    have := Nat.mod_le (s.lba + i) (2 ^ 32)
    have hi' : i < Sd.usedSec (g.file s) := by
      rw [← hblks]
      cases s <;> exact hi
    rw [BitVec.toNat_ofNat]
    omega
  rw [BitVec.ofNat_add] at hlt
  cases s <;> exact hlt

/-- How a boot without faults ends. -/
lemma Packed.ends {g : Files} (h : Packed k g) {p : ℕ} (hs : SentinelAt g.dtb p)
    (hu : ∀ q, SentinelAt g.dtb q → q = p) {m m' : Ram} {e : Stop}
    (hends : Ends False (Sd.modeSdBoot true (fun l => some (k l)) m) e m') :
    (e = .halted ∨ e = .jumped kernelLoadAddr [0, dtbLoadAddr]) ∧
      (e = .jumped kernelLoadAddr [0, dtbLoadAddr] ∧ Booted m' g p ↔
        g.initrd.length ≤ 0x80000 ∧ ¬ Reforms g.dtb p g.initrd.length) := by
  rw [← h.right_iff hs hu m]
  cases hboot : Sd.modeSdBoot true (fun l => some (k l)) m with
  | halt text =>
    have he := hends.halt text hboot
    refine ⟨Or.inl he, ?_⟩
    rw [he]
    refine iff_of_false ?_ ?_
    · rintro ⟨⟨⟩, -⟩
    · rintro ⟨_, ⟨⟩, -⟩
  | jump m₁ =>
    rcases hends.jump m₁ hboot with ⟨he, rfl⟩ | ⟨-, hfalse⟩
    · refine ⟨Or.inr he, ?_⟩
      constructor
      · rintro ⟨-, hb⟩
        exact ⟨m', rfl, hb⟩
      · rintro ⟨_, ⟨⟩, hb⟩
        exact ⟨he, hb⟩
    · exact hfalse.elim
  | astray => exact absurd hboot (h.not_astray m)

lemma not_reforms_small : ¬ Reforms Sd.sentinel 0 1 := by
  rintro (⟨h, -⟩ | ⟨h, -⟩) <;> exact absurd h (by decide)

/-- **A boot is right or it halts.**  Take a card at rest that answers CMD58 if it is addressed in
blocks, and that `sd_pack` and then any of the tools have left consistent, with an initrd that ends
inside the SDRAM and a DTB that has the sentinel once.  Whatever else the card answers to the
commands that it is sent, the boot halts, or it jumps to the kernel and the files of the card are in
the SDRAM, each byte of them. -/
theorem modeSdBoot_right (c : SdCard) (htells : c.TellsHc) (w : World State)
    (hrests : w.card.Rests) (k : Card) (f : Files) (rs : List Run)
    (hruns : Sd.runs (.pack f :: rs) k = .ok w.store) (hcons : Consistent w.store (storedBy rs f))
    (p : ℕ) (hs : SentinelAt (storedBy rs f).dtb p)
    (hu : ∀ q, SentinelAt (storedBy rs f).dtb q → q = p)
    (hn : (storedBy rs f).initrd.length ≤ 0x80000) :
    ∃ e w', exec (modeSdBoot c.bus) w = (.error e, w') ∧ (e = .halted ∨
      e = .jumped kernelLoadAddr [0, dtbLoadAddr] ∧ Booted w'.ram (storedBy rs f) p) := by
  have hpacked := (packed_of_runs hruns hcons).home c
  obtain ⟨e, w', hexec, hends⟩ := (reads_any htells w.store).exec_modeSdBoot (w := w)
    ⟨hrests, rfl⟩ trivial fun _ _ _ => trivial
  refine ⟨e, w', hexec, ?_⟩
  cases hboot : Sd.modeSdBoot true (fun l => some (w.store (c.home l))) w.ram with
  | halt text => exact Or.inl (hends.halt text hboot)
  | jump m =>
    rcases hends.jump m hboot with ⟨he, hram⟩ | ⟨he, -⟩
    · rw [hram]
      exact Or.inr ⟨he, hpacked.booted hs hu hn hboot⟩
    · exact Or.inl he
  | astray => exact absurd hboot (hpacked.not_astray _)

/-- A card with one sector of everything. -/
lemma exists_small : ∃ k', Sd.runs [.pack ⟨[1], Sd.sentinel, [3]⟩] (fun _ _ => 0) = .ok k' ∧
    Consistent k' (storedBy [] ⟨[1], Sd.sentinel, [3]⟩) := by
  obtain ⟨k', hk'⟩ := Sd.exists_pack (f := ⟨[1], Sd.sentinel, [3]⟩) (fun _ _ => 0)
    (by rintro (_ | _ | _) <;> decide) (by rintro (_ | _ | _) <;> exact List.cons_ne_nil _ _)
  have hruns : Sd.runs [.pack ⟨[1], Sd.sentinel, [3]⟩] (fun _ _ => 0) = .ok k' :=
    (Sd.runs_concat []).2 ⟨_, rfl, hk'⟩
  have hspec := Run.exec_spec (r := .pack ⟨[1], Sd.sentinel, [3]⟩) hk'
  refine ⟨k', hruns, (hspec.consistent_iff (g := ⟨[1], Sd.sentinel, [3]⟩)
    (Sd.stored_runs hruns)).2 ?_⟩
  intro s hs
  cases hs

/-- A card without faults, with one sector of everything. -/
theorem modeSdBoot_right_small :
    ∃ k', Sd.runs [.pack ⟨[1], Sd.sentinel, [3]⟩] (fun _ _ => 0) = .ok k' ∧
      ∃ w', exec (modeSdBoot (SdCard.bus { Spi.plainCard true [] with capacity := 16384 }))
        ⟨[], [], ⟨false, .ready [], { Spi.blank with store := k' }⟩, false, fun _ => 0, 0⟩ =
          (.error (.jumped kernelLoadAddr [0, dtbLoadAddr]), w') ∧
        Booted w'.ram ⟨[1], Sd.sentinel, [3]⟩ 0 := by
  obtain ⟨k', hruns, hcons⟩ := exists_small
  obtain ⟨c, hc⟩ : ∃ c : SdCard, c = { Spi.plainCard true [] with capacity := 16384 } := ⟨_, rfl⟩
  have hsound : c.Sound := hc ▸ Spi.sound_plain true (by decide)
  obtain ⟨w, hw⟩ : ∃ w : World State, w =
    ⟨[], [], ⟨false, .ready [], { Spi.blank with store := k' }⟩, false, fun _ => 0, 0⟩ := ⟨_, rfl⟩
  have hcard : w.card = ⟨false, .ready [], { Spi.blank with store := k' }⟩ := by rw [hw]
  have hstore : w.store = k' := by rw [World.store, hcard]
  obtain ⟨e, w', hexec, hright⟩ := modeSdBoot_right c hsound.tellsHc w ⟨0, _, hcard⟩
    (fun _ _ => 0) ⟨[1], Sd.sentinel, [3]⟩ [] (hstore ▸ hruns) (hstore ▸ hcons) 0
    Sd.sentinelAt_sentinel.1 Sd.sentinelAt_sentinel.2 (by decide)
  -- without faults the boot does not halt
  have hpacked := packed_of_runs hruns hcons
  obtain ⟨e₁, w₁, hexec₁, hends⟩ := (reads_sound hsound k').exec_modeSdBoot (w := w)
    ⟨⟨_, hcard⟩, hstore⟩ (by rw [hc]; decide) (hpacked.inside (by rw [hc]; decide))
  obtain ⟨he, -⟩ := (hpacked.ends Sd.sentinelAt_sentinel.1 Sd.sentinelAt_sentinel.2 hends).2.2
    ⟨by decide, not_reforms_small⟩
  obtain ⟨hstop, rfl⟩ := Prod.mk.inj (hexec.symm.trans hexec₁)
  obtain rfl := Except.error.inj hstop
  subst he hc hw
  rcases hright with hhalt | ⟨-, hbooted⟩
  · cases hhalt
  · exact ⟨k', hruns, _, hexec, hbooted⟩

/-! ### The whole run -/

/-- **From the tools to the kernel.**  On a card without faults that is at rest and has all the
sectors of the layout, in a session in which the host runs `sd_pack` and then any of its tools, with
any requests that write nothing before each of them, and at last asks for the boot, its first byte
in time: when no tool fails, the tools leave the card consistent and the DTB has the sentinel once,
stage2 halts or jumps to the kernel.  It jumps with the files that the tools have stored in the
SDRAM exactly when the initrd ends inside the SDRAM and its end address does not form the sentinel
again. -/
theorem main_boots (c : SdCard) (hsound : c.Sound) (hcap : Sd.endLba ≤ c.capacity)
    (clk : BitVec 32) (w : World State) (hcard : ∃ k, w.card = ⟨false, .ready [], k⟩)
    (before : List Request) (f : Files) (js : List Job)
    (hjs : ∀ j ∈ ⟨before, .pack f⟩ :: js, j.Ok c.capacity) (k' : Card)
    (hruns : Sd.runs (.pack f :: js.map Job.run) w.store = .ok k')
    (hcons : Consistent k' (storedBy (js.map Job.run) f)) (b : Byte) (rest : List (Option Byte))
    (more : List Byte) (hin : w.input = some b :: rest)
    (hbytes : bytes w.input = wires (requests (⟨before, .pack f⟩ :: js)) ++ 0x62 :: more)
    (p : ℕ) (hs : SentinelAt (storedBy (js.map Job.run) f).dtb p)
    (hu : ∀ q, SentinelAt (storedBy (js.map Job.run) f).dtb q → q = p) :
    ∃ e w', exec (main c.bus clk) w = (.error e, w') ∧
      (e = .halted ∨ e = .jumped kernelLoadAddr [0, dtbLoadAddr]) ∧
      (e = .jumped kernelLoadAddr [0, dtbLoadAddr] ∧
          Booted w'.ram (storedBy (js.map Job.run) f) p ↔
        (storedBy (js.map Job.run) f).initrd.length ≤ 0x80000 ∧
          ¬ Reforms (storedBy (js.map Job.run) f).dtb p
            (storedBy (js.map Job.run) f).initrd.length) := by
  obtain ⟨hvalid, heffect⟩ := requests_spec hcap hjs hruns
  have hpacked := packed_of_runs hruns hcons
  obtain ⟨q, qs, hqs⟩ : ∃ q qs, requests (⟨before, .pack f⟩ :: js) = q :: qs := by
    refine List.exists_cons_of_ne_nil ?_
    rw [requests, List.flatMap_cons, Job.requests, requestsOf]
    simp
  rw [hqs] at hvalid heffect hbytes
  rw [hin, bytes_cons_some, wires, List.flatMap_cons, Request.wire, List.cons_append,
    List.cons_append, List.append_assoc] at hbytes
  obtain ⟨rfl, hrest⟩ := List.cons.inj hbytes
  have hlen : qs.length + 1 ≤ rest.length := by
    have h1 := length_le_wires qs
    have h2 : (bytes rest).length ≤ rest.length := List.length_filterMap_le _ _
    rw [hrest, List.length_append, List.length_append, List.length_cons] at h2
    rw [wires] at h1
    omega
  have hview : Shows Rested ((w.view.started clk).pending (q.payload ++ (wires qs ++ 0x62 :: more)))
      { w.started clk with input := rest } := by
    refine ⟨hcard, ?_⟩
    rw [World.view_started, hrest, wires]
  -- the dispatcher has a round for each request, and one for the boot
  obtain ⟨n, hn⟩ := Nat.exists_eq_add_of_le hlen
  have hrun : wp (main c.bus clk) (fun _ _ => False) (fun e w' => Ends False
      (Sd.modeSdBoot true (fun l => some (k' l)) (testedRam w.ram)) e w'.ram) w := by
    refine wp_main clk hin ?_
    have hrounds := hview.rounds hsound q qs hvalid (n := n + 1) (Q := fun _ _ => False)
      (E := fun e w' => Ends False
        (Sd.modeSdBoot true (fun l => some (k' l)) (testedRam w.ram)) e w'.ram) ?_
    · rwa [show n + 1 + (qs.length + 1) = rest.length + 1 by omega] at hrounds
    · intro w₁ h₁
      refine wp_seq h₁.recvByte ?_
      rintro b w₂ ⟨rfl, h₂⟩
      -- the tools have left their files on the card, and the SDRAM as the test left it
      have hstore : w₂.store = k' := by
        rw [← heffect]
        exact (congrArg View.card h₂.view).trans (serveAll_card _ _ _)
      have hram : w₂.ram = testedRam w.ram := by
        rw [← World.view_started_ram w clk, ← serveAll_ram c.hc (q :: qs)]
        exact congrArg View.ram h₂.view
      rw [← hram]
      exact wp_last_round ((reads_sound hsound k').modeSdBoot ⟨h₂.card, hstore⟩
        (lt_of_lt_of_le (by decide) hcap) (hpacked.inside hcap))
  rcases wp_cases hrun with ⟨_, _, -, hfalse⟩ | ⟨e, w', hexec, hends⟩
  · exact hfalse.elim
  · exact ⟨e, w', hexec, hpacked.ends hs hu hends⟩

/-- A look at the card, `sd_pack`, a silence and the boot. -/
theorem main_boots_small :
    ∃ w', exec (main (SdCard.bus { Spi.plainCard true [] with capacity := 16384 }) 50000000)
        ⟨(wires (requests [⟨[.smoke], .pack ⟨[1], Sd.sentinel, [3]⟩⟩])).map some ++
          [none, some 0x62], [], ⟨false, .ready [], Spi.blank⟩, false, fun _ => 0, 0⟩ =
        (.error (.jumped kernelLoadAddr [0, dtbLoadAddr]), w') ∧
      Booted w'.ram ⟨[1], Sd.sentinel, [3]⟩ 0 := by
  obtain ⟨k', hruns, hcons⟩ := exists_small
  have hjs : ∀ j ∈ [(⟨[.smoke], .pack ⟨[1], Sd.sentinel, [3]⟩⟩ : Job)], j.Ok 16384 := by
    intro j hj q hq
    obtain rfl := List.mem_singleton.1 hj
    obtain rfl := List.mem_singleton.1 hq
    exact ⟨trivial, (by decide : 0 < 16384)⟩
  obtain ⟨e, w', hexec, -, hend⟩ := main_boots { Spi.plainCard true [] with capacity := 16384 }
    (Spi.sound_plain true (by decide)) (by decide) 50000000
    ⟨(wires (requests [⟨[.smoke], .pack ⟨[1], Sd.sentinel, [3]⟩⟩])).map some ++
      [none, some 0x62], [], ⟨false, .ready [], Spi.blank⟩, false, fun _ => 0, 0⟩ ⟨Spi.blank, rfl⟩
    [.smoke] ⟨[1], Sd.sentinel, [3]⟩ [] hjs k' hruns hcons 0x73 _ [] rfl
    (by rw [bytes_append, bytes_map_some]; rfl) 0 Sd.sentinelAt_sentinel.1 Sd.sentinelAt_sentinel.2
  obtain ⟨rfl, hbooted⟩ := hend.2 ⟨by decide, not_reforms_small⟩
  exact ⟨w', hexec, hbooted⟩

end Neorv32Boot.Stage2
