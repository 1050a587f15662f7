import Neorv32Boot.Lib.Feed
import Neorv32Boot.Stage2.History

/-!
# The multi-segment write, byte by byte

Stage2 as the party of the multi-segment write that takes one byte after the other, now with a
device on its bus: where the party is inside the driver, the driver is called.  The program takes
the same bytes in large steps; whatever comes, it has printed what the party has printed, and it has
made the same calls of the driver, when it waits for more.
-/

namespace Neorv32Boot.Stage2

open Feed (Collects feed)
open Prog
open Sd (Dev failText mwGo mwReady sectorAt)

variable {σ : Type} {bus : Bus Byte σ}

/-! ### The party with a device -/

/-- Where stage2 is, and the device with the driver's variable. -/
structure Desk (σ : Type) where
  dev : Dev
  card : σ
  isHc : Bool

/-- The call of the driver that stage2 is in, if it is in one: what is printed behind it, and where
stage2 is then. -/
def Desk.work (bus : Bus Byte σ) (d : Desk σ) : List Byte × Desk σ :=
  match d.dev with
  | .sdInit =>
    let r := Spi.sdInit bus d.card
    if r.1.1 ≠ 0 then (ascii "[sd] mw: init FAIL\r\n" ++ readyText, ⟨.dispatch, r.2, r.1.2⟩)
    else (mwReady, ⟨.recvCount [], r.2, r.1.2⟩)
  | .sdWrite segCount s startLba secCount i rx =>
    let r := Spi.sdWriteBlock bus d.isHc (startLba + i) rx.bytes d.card
    if r.1 ≠ 0 then (failText (startLba + i) (BitVec.ofInt 32 r.1), ⟨.dispatch, r.2, d.isHc⟩)
    else ((Dev.written segCount s startLba secCount i).1,
      ⟨(Dev.written segCount s startLba secCount i).2, r.2, d.isHc⟩)
  | _ => ([], d)

/-- A byte for stage2, and the call of the driver that it leads to.  Other commands than `W` are not
looked at. -/
def Desk.recv (bus : Bus Byte σ) (d : Desk σ) (b : Byte) : Option (List Byte × Desk σ) :=
  (d.dev.recv b).bind fun r =>
    match r.2 with
    | .command _ => none
    | dev => some (r.1 ++ (Desk.work bus { d with dev := dev }).1,
        (Desk.work bus { d with dev := dev }).2)

/-! ### Its messages -/

/-- What the number of segments leads to. -/
def countTaken (s : σ) (hc : Bool) (m : List Byte) : List Byte × Desk σ :=
  if Sd.recvU32 m = 0 ∨ 16 < Sd.recvU32 m then
    (ascii "MW_FAIL bad_segs\n" ++ readyText, ⟨.dispatch, s, hc⟩)
  else (mwGo, ⟨.recvHdr (Sd.recvU32 m) 0 [], s, hc⟩)

/-- What the header of a segment leads to. -/
def hdrTaken (segCount k : BitVec 32) (s : σ) (hc : Bool) (m : List Byte) : List Byte × Desk σ :=
  if Sd.recvU32 (m.drop 4) = 0 ∨ 8192 < Sd.recvU32 (m.drop 4) then
    (ascii "\nMW_FAIL bad_count seg=" ++ puthex32 k ++ ascii "\n" ++ readyText, ⟨.dispatch, s, hc⟩)
  else
    ([], ⟨.recvSector segCount k (Sd.recvU32 (m.take 4)) (Sd.recvU32 (m.drop 4)) 0 [], s, hc⟩)

/-- What a sector leads to. -/
def sectorTaken (bus : Bus Byte σ) (segCount k startLba secCount i : BitVec 32) (s : σ) (hc : Bool)
    (m : List Byte) : List Byte × Desk σ :=
  Desk.work bus ⟨.sdWrite segCount k startLba secCount i (sectorAt m 0), s, hc⟩

lemma collects_count (bus : Bus Byte σ) (s : σ) (hc : Bool) : Collects (Desk.recv bus) 4
    (fun got => ⟨.recvCount got, s, hc⟩) fun m => some (countTaken s hc m) where
  more got b h := by
    have hlt : (got ++ [b]).length < 4 := by rwa [List.length_append]
    simp only [Desk.recv, Dev.recv, if_pos hlt, Option.bind_some, Desk.work, List.append_nil]
  full got b h := by
    have hge : ¬ (got ++ [b]).length < 4 := by
      rw [List.length_append, List.length_singleton, h]
      exact lt_irrefl 4
    simp only [Desk.recv, Dev.recv, if_neg hge, countTaken]
    split_ifs <;> simp only [Option.bind_some, Desk.work, List.append_nil]

lemma collects_hdr (bus : Bus Byte σ) (segCount k : BitVec 32) (s : σ) (hc : Bool) :
    Collects (Desk.recv bus) 8 (fun got => ⟨.recvHdr segCount k got, s, hc⟩)
      fun m => some (hdrTaken segCount k s hc m) where
  more got b h := by
    have hlt : (got ++ [b]).length < 8 := by rwa [List.length_append]
    simp only [Desk.recv, Dev.recv, if_pos hlt, Option.bind_some, Desk.work, List.append_nil]
  full got b h := by
    have hge : ¬ (got ++ [b]).length < 8 := by
      rw [List.length_append, List.length_singleton, h]
      exact lt_irrefl 8
    simp only [Desk.recv, Dev.recv, if_neg hge, hdrTaken]
    split_ifs <;> simp only [Option.bind_some, Desk.work, List.append_nil]

lemma collects_sector (bus : Bus Byte σ) (segCount k startLba secCount i : BitVec 32) (s : σ)
    (hc : Bool) :
    Collects (Desk.recv bus) 512
      (fun got => ⟨.recvSector segCount k startLba secCount i got, s, hc⟩)
      fun m => some (sectorTaken bus segCount k startLba secCount i s hc m) where
  more got b h := by
    have hlt : (got ++ [b]).length < 512 := by rwa [List.length_append]
    simp only [Desk.recv, Dev.recv, if_pos hlt, Option.bind_some, Desk.work, List.append_nil]
  full got b h := by
    have hge : ¬ (got ++ [b]).length < 512 := by
      rw [List.length_append, List.length_singleton, h]
      exact lt_irrefl 512
    simp only [Desk.recv, Dev.recv, if_neg hge, sectorTaken, Option.bind_some, List.nil_append]

/-! ### The program -/

/-- From `w₀` on the program has taken what has brought the party from `d₀` to `d`.  It still has to
print `owed` of what the party has printed. -/
structure Owing (bus : Bus Byte σ) (w₀ : World σ) (d₀ : Desk σ) (owed : List Byte) (d : Desk σ)
    (w : World σ) : Prop where
  fed : ∃ used out, bytes w₀.input = used ++ bytes w.input ∧
    feed (Desk.recv bus) d₀ used = some (out, d) ∧ w.output ++ owed = w₀.output ++ out

/-- The program has done what the party has done, and the input is at its end. -/
def Idle (bus : Bus Byte σ) (w₀ : World σ) (d₀ : Desk σ) (e : Stop) (w : World σ) : Prop :=
  e = .waiting ∧ bytes w.input = [] ∧
    ∃ d, Owing bus w₀ d₀ [] d w ∧ d.card = w.card ∧ d.isHc = w.isHc

section Program

variable {w₀ w : World σ} {d₀ d d' : Desk σ} {owed : List Byte}

/-- Something is printed. -/
lemma Owing.say {bs : List Byte} (h : Owing bus w₀ d₀ (bs ++ owed) d w) :
    Owing bus w₀ d₀ owed d (w.say bs) := by
  obtain ⟨used, out, hin, hfeed, hout⟩ := h.fed
  refine ⟨used, out, hin, hfeed, ?_⟩
  rw [World.say, List.append_assoc]
  exact hout

/-- Something is taken. -/
lemma Owing.fedMore {used rest : List (Option Byte)} {out : List Byte} {bs : List Byte}
    (h : Owing bus w₀ d₀ [] d w) (hw : w.input = used ++ rest) (hbs : bytes used = bs)
    (hfeed : feed (Desk.recv bus) d bs = some (out, d')) :
    Owing bus w₀ d₀ out d' { w with input := rest } := by
  obtain ⟨used₀, out₀, hin, hfeed₀, hout⟩ := h.fed
  refine ⟨used₀ ++ bs, out₀ ++ out, ?_, ?_, ?_⟩
  · rw [hin, hw, bytes_append, hbs, List.append_assoc]
  · rw [Feed.feed_append, hfeed₀, Option.bind_some, hfeed]
    rfl
  · rw [← List.append_assoc, ← hout, List.append_nil]

section Message

variable {n k : ℕ} {place : List Byte → Desk σ} {act : List Byte → Option (List Byte × Desk σ)}
  {got : List Byte} (hcol : Collects (Desk.recv bus) n place act)
  (hplace : ∀ got, (place got).card = w.card ∧ (place got).isHc = w.isHc)

include hcol hplace

/-- The input ends before a message does. -/
lemma Owing.idle (h : Owing bus w₀ d₀ [] (place got) w)
    (hlt : got.length + (bytes w.input).length < n) :
    Idle bus w₀ d₀ .waiting { w with input := [] } :=
  ⟨rfl, rfl, _, h.fedMore (List.append_nil _).symm rfl (hcol.short hlt), hplace _⟩

/-- Some bytes of a message. -/
lemma Owing.collect (h : Owing bus w₀ d₀ [] (place got) w) (hlt : got.length + k < n) :
    wp (times rawRecv k) (fun m w' => m.length = k ∧ ∃ rest, w' = { w with input := rest } ∧
      Owing bus w₀ d₀ [] (place (got ++ m)) w') (Idle bus w₀ d₀) w := by
  refine wp_times_rawRecv k (fun hfew => h.idle hcol hplace (by omega)) ?_
  intro m used rest hw hm hlen
  exact ⟨hlen, rest, rfl, h.fedMore hw hm (hcol.short (by omega))⟩

/-- The rest of a message. -/
lemma Owing.message (h : Owing bus w₀ d₀ [] (place got) w) (hk : 0 < k) (hn : got.length + k = n)
    {Q : List Byte → World σ → Prop}
    (hQ : ∀ m rest out d', m.length = k → act (got ++ m) = some (out, d') →
      Owing bus w₀ d₀ out d' { w with input := rest } → Q m { w with input := rest })
    (hact : ∀ m, m.length = k → ∃ r, act (got ++ m) = some r) :
    wp (times rawRecv k) Q (Idle bus w₀ d₀) w := by
  refine wp_times_rawRecv k (fun hfew => h.idle hcol hplace (by omega)) ?_
  intro m used rest hw hm hlen
  obtain ⟨⟨out, d'⟩, hr⟩ := hact m hlen
  have hne : m ≠ [] := by
    rintro rfl
    rw [← hlen] at hk
    exact absurd hk (lt_irrefl 0)
  exact hQ m rest out d' hlen hr (h.fedMore hw hm (hcol.message (by rw [hlen, hn]) hne hr))

end Message

section Segments

variable {Q : Bool → World σ → Prop} {E : Stop → World σ → Prop}

seal Prog.wp

/-- A call of `sd_write_block`. -/
lemma wp_sdWriteBlock_then {α : Type} {Q : α → World σ → Prop} {f : ℤ → Loader σ α}
    {lba : BitVec 32} {src : List Byte} {r : ℤ × σ}
    (hr : Spi.sdWriteBlock bus w.isHc lba src w.card = r)
    (h : wp (f r.1) Q E { w with card := r.2 }) :
    wp (sdWriteBlock bus lba src >>= f) Q E w := by
  rw [sdWriteBlock, bind_assoc, wp_bind, wp_get]
  dsimp only
  rw [hr, bind_assoc, wp_bind, wp_set, pure_bind]
  exact h

/-- What is printed behind the last sector of a segment, and where stage2 is then. -/
def segmentDone (segCount k : BitVec 32) : List Byte × Dev :=
  if k + 1 < segCount then ([], .recvHdr segCount (k + 1) [])
  else (ascii "\nMW_DONE\n" ++ readyText, .dispatch)

lemma written_last {segCount k start cnt i : BitVec 32} (h : ¬ i + 1 < cnt) :
    Dev.written segCount k start cnt i =
      ([0x4B] ++ (segmentDone segCount k).1, (segmentDone segCount k).2) := by
  rw [Dev.written, if_neg h, segmentDone]
  split_ifs
  · rfl
  · rw [List.append_assoc]

lemma failText_eq (lba rc : BitVec 32) :
    failText lba rc = ascii "X" ++ (ascii "\nMW_FAIL lba=" ++ (puthex32 lba ++ (ascii " rc=" ++
      (puthex32 rc ++ (ascii "\n" ++ readyText))))) := by
  simp only [failText, List.append_assoc]
  rfl

/-- A sector: a report when it is not written, else a `K` and the next one. -/
lemma Owing.sector {segCount k start cnt : BitVec 32} (i n : ℕ)
    (h : Owing bus w₀ d₀ [] ⟨.recvSector segCount k start cnt (BitVec.ofNat 32 i) [], w.card,
      w.isHc⟩ w)
    (hfail : ∀ w', Owing bus w₀ d₀ readyText ⟨.dispatch, w'.card, w'.isHc⟩ w' → Q false w')
    (hgo : ∀ w' owed dev, Dev.written segCount k start cnt (BitVec.ofNat 32 i) =
        ([0x4B] ++ owed, dev) → Owing bus w₀ d₀ owed ⟨dev, w'.card, w'.isHc⟩ w' →
      wp (Stage2.multiSectors bus start (i + 1) n) Q (Idle bus w₀ d₀) w') :
    wp (Stage2.multiSectors bus start i (n + 1)) Q (Idle bus w₀ d₀) w := by
  rw [Stage2.multiSectors, wp_bind]
  refine h.message (collects_sector ..) (fun _ => ⟨rfl, rfl⟩) (by decide) (by simp) ?_
    fun m _ => ⟨_, rfl⟩
  intro m rest out d' hlen hact h'
  obtain ⟨r, hr⟩ : ∃ r, Spi.sdWriteBlock bus w.isHc (start + BitVec.ofNat 32 i) m w.card = r :=
    ⟨_, rfl⟩
  have hm : (sectorAt m 0).bytes = m := Sd.bytes_sectorAt_zero hlen
  rw [List.nil_append, sectorTaken, Desk.work] at hact
  dsimp only at hact
  rw [hm, hr] at hact
  refine wp_sdWriteBlock_then hr ?_
  refine wp_ite (fun hrc => ?_) fun hrc => ?_
  · rw [if_pos hrc] at hact
    obtain ⟨rfl, rfl⟩ := Prod.mk.inj (Option.some.inj hact)
    rw [failText_eq] at h'
    have hsaid : Owing bus w₀ d₀ _ _ { w with input := rest, card := r.2 } := ⟨h'.fed⟩
    refine wp_puts_then (wp_puts_then (wp_emit_then (wp_puts_then (wp_emit_then
      (wp_puts_then ?_)))))
    rw [wp_pure]
    exact hfail _ hsaid.say.say.say.say.say.say
  · rw [if_neg hrc] at hact
    obtain ⟨rfl, rfl⟩ := Prod.mk.inj (Option.some.inj hact)
    have hwritten : ∃ owed, (Dev.written segCount k start cnt (BitVec.ofNat 32 i)).1 =
        ascii "K" ++ owed := by
      rw [Dev.written]
      split_ifs
      · exact ⟨[], rfl⟩
      · exact ⟨[], rfl⟩
      · exact ⟨_, List.append_assoc ..⟩
    obtain ⟨owed, howed⟩ := hwritten
    rw [howed] at h'
    have hsaid : Owing bus w₀ d₀ _ _ { w with input := rest, card := r.2 } := ⟨h'.fed⟩
    exact wp_puts_then (hgo _ owed _ (Prod.ext howed rfl) hsaid.say)

/-- The sectors of a segment. -/
lemma Owing.multiSectors {segCount k start cnt : BitVec 32} (hcnt : cnt.toNat ≤ 8192) (i n : ℕ)
    (hn : i + (n + 1) = cnt.toNat)
    (h : Owing bus w₀ d₀ [] ⟨.recvSector segCount k start cnt (BitVec.ofNat 32 i) [], w.card,
      w.isHc⟩ w) :
    wp (multiSectors bus start i (n + 1)) (fun ok w' =>
      (ok = true → Owing bus w₀ d₀ (segmentDone segCount k).1
        ⟨(segmentDone segCount k).2, w'.card, w'.isHc⟩ w') ∧
      (ok = false → Owing bus w₀ d₀ readyText ⟨.dispatch, w'.card, w'.isHc⟩ w'))
      (Idle bus w₀ d₀) w := by
  have hlt : BitVec.ofNat 32 i + 1 < cnt ↔ i + 1 < cnt.toNat := by bv_omega
  induction n generalizing i w with
  | zero =>
    refine h.sector i 0 (fun w' h' => ⟨fun hok => absurd hok Bool.false_ne_true, fun _ => h'⟩) ?_
    intro w' owed dev hwritten h'
    rw [written_last (by rw [hlt]; omega)] at hwritten
    obtain ⟨howed, rfl⟩ := Prod.mk.inj hwritten
    rw [← List.append_cancel_left howed] at h'
    rw [Stage2.multiSectors, wp_pure]
    exact ⟨fun _ => h', fun hok => absurd hok.symm Bool.false_ne_true⟩
  | succ n ih =>
    refine h.sector i (n + 1)
      (fun w' h' => ⟨fun hok => absurd hok Bool.false_ne_true, fun _ => h'⟩) ?_
    intro w' owed dev hwritten h'
    rw [Dev.written, if_pos (by rw [hlt]; omega)] at hwritten
    obtain ⟨howed, rfl⟩ := Prod.mk.inj hwritten
    have howed' : ([0x4B] : List Byte) ++ [] = [0x4B] ++ owed := howed
    obtain rfl := List.append_cancel_left howed'
    have hi : BitVec.ofNat 32 i + 1 = BitVec.ofNat 32 (i + 1) := by bv_omega
    rw [hi] at h'
    exact ih (i + 1) (by omega) h' (by bv_omega)

/-- The header of a segment: a report when its count is refused, else its sectors. -/
lemma Owing.header {segCount : BitVec 32} (k n : ℕ)
    (h : Owing bus w₀ d₀ [] ⟨.recvHdr segCount (BitVec.ofNat 32 k) [], w.card, w.isHc⟩ w)
    {Q : Unit → World σ → Prop}
    (hdone : ∀ w', Owing bus w₀ d₀ readyText ⟨.dispatch, w'.card, w'.isHc⟩ w' → Q () w')
    (hgo : ∀ w', Owing bus w₀ d₀ (segmentDone segCount (BitVec.ofNat 32 k)).1
        ⟨(segmentDone segCount (BitVec.ofNat 32 k)).2, w'.card, w'.isHc⟩ w' →
      wp (Stage2.multiSegments bus (k + 1) n) Q (Idle bus w₀ d₀) w') :
    wp (Stage2.multiSegments bus k (n + 1)) Q (Idle bus w₀ d₀) w := by
  have hcol := collects_hdr bus segCount (BitVec.ofNat 32 k) w.card w.isHc
  rw [Stage2.multiSegments, recvU32, bind_assoc, wp_bind]
  refine wp_mono ?_ (fun _ _ h => h) (h.collect hcol (fun _ => ⟨rfl, rfl⟩) (by simp))
  rintro lo _ ⟨hlo, rest, rfl, h₁⟩
  rw [pure_bind, bind_assoc, wp_bind]
  refine Owing.message (w := { w with input := rest }) hcol (fun _ => ⟨rfl, rfl⟩) h₁
    (by decide) (by rw [List.nil_append, hlo]) ?_ fun m _ => ⟨_, rfl⟩
  intro hi rest' out d' hhi hact h₂
  rw [pure_bind]
  rw [List.nil_append, hdrTaken, List.take_left' hlo, List.drop_left' hlo] at hact
  refine wp_ite (fun hbad => ?_) fun hok => ?_
  · rw [if_pos hbad] at hact
    obtain ⟨rfl, rfl⟩ := Prod.mk.inj (Option.some.inj hact)
    simp only [List.append_assoc] at h₂
    refine wp_puts_then (wp_emit_then ?_)
    rw [wp_puts]
    exact hdone _ h₂.say.say.say
  · rw [if_neg hok] at hact
    obtain ⟨rfl, rfl⟩ := Prod.mk.inj (Option.some.inj hact)
    have hcnt : (Sd.recvU32 hi).toNat ≤ 8192 := by
      have : ¬ 8192 < Sd.recvU32 hi := fun hlt => hok (Or.inr hlt)
      bv_omega
    obtain ⟨j, hj⟩ : ∃ j, (Sd.recvU32 hi).toNat = j + 1 := by
      refine Nat.exists_eq_succ_of_ne_zero fun hzero => hok (Or.inl ?_)
      exact BitVec.eq_of_toNat_eq hzero
    rw [hj]
    refine wp_seq (Owing.multiSectors (by omega) 0 j (by omega) h₂) ?_
    rintro (_ | _) w' ⟨htrue, hfalse⟩
    · rw [if_neg Bool.false_ne_true, wp_pure]
      exact hdone w' (hfalse rfl)
    · rw [if_pos rfl]
      exact hgo w' (htrue rfl)

/-- The segments. -/
lemma Owing.multiSegments {segCount : BitVec 32} (hcount : segCount.toNat ≤ 16) (k n : ℕ)
    (hn : k + (n + 1) = segCount.toNat)
    (h : Owing bus w₀ d₀ [] ⟨.recvHdr segCount (BitVec.ofNat 32 k) [], w.card, w.isHc⟩ w) :
    wp (multiSegments bus k (n + 1)) (fun _ w' =>
      Owing bus w₀ d₀ readyText ⟨.dispatch, w'.card, w'.isHc⟩ w') (Idle bus w₀ d₀) w := by
  have hlt : BitVec.ofNat 32 k + 1 < segCount ↔ k + 1 < segCount.toNat := by bv_omega
  induction n generalizing k w with
  | zero =>
    refine h.header k 0 (fun _ h' => h') ?_
    intro w' h'
    rw [segmentDone, if_neg (by rw [hlt]; omega)] at h'
    rw [Stage2.multiSegments, wp_puts]
    exact h'.say
  | succ n ih =>
    refine h.header k (n + 1) (fun _ h' => h') ?_
    intro w' h'
    rw [segmentDone, if_pos (by rw [hlt]; omega)] at h'
    have hk : BitVec.ofNat 32 k + 1 = BitVec.ofNat 32 (k + 1) := by bv_omega
    rw [hk] at h'
    exact ih (k + 1) (by omega) h' (by bv_omega)

end Segments

/-! ### The dispatcher -/

/-- The party behind a `W`: what is printed, and where stage2 is then. -/
abbrev World.enter (bus : Bus Byte σ) (w : World σ) : List Byte × Desk σ :=
  Desk.work bus ⟨.sdInit, w.card, w.isHc⟩

lemma Owing.refl (bus : Bus Byte σ) (w : World σ) (owed : List Byte) (d : Desk σ) :
    Owing bus (w.say owed) d owed d w :=
  ⟨[], [], rfl, rfl, (List.append_nil _).symm⟩

lemma Owing.trans {w₁ : World σ} {d₁ : Desk σ} (h : Owing bus w₀ d₀ [] d₁ w₁)
    (h' : Owing bus w₁ d₁ owed d w) : Owing bus w₀ d₀ owed d w := by
  obtain ⟨used, out, hin, hfeed, hout⟩ := h.fed
  obtain ⟨used', out', hin', hfeed', hout'⟩ := h'.fed
  refine ⟨used ++ used', out ++ out', ?_, ?_, ?_⟩
  · rw [hin, hin', List.append_assoc]
  · rw [Feed.feed_append, hfeed, Option.bind_some, hfeed']
    rfl
  · rw [hout', ← List.append_assoc, ← hout, List.append_nil]

lemma Idle.trans {w₁ : World σ} {d₁ : Desk σ} {e : Stop} (h : Owing bus w₀ d₀ [] d₁ w₁)
    (h' : Idle bus w₁ d₁ e w) : Idle bus w₀ d₀ e w := by
  obtain ⟨he, hin, d, hd, hcard⟩ := h'
  exact ⟨he, hin, d, h.trans hd, hcard⟩

section Dispatcher

seal Prog.wp

/-- A call of `sd_init`. -/
lemma wp_sdInit_then {α : Type} {Q : α → World σ → Prop} {E : Stop → World σ → Prop}
    {f : ℤ → Loader σ α} {r : (ℤ × Bool) × σ} (hr : Spi.sdInit bus w.card = r)
    (h : wp (f r.1.1) Q E (w.withCard r.2 r.1.2)) : wp (sdInit bus >>= f) Q E w := by
  rw [sdInit, bind_assoc, wp_bind, wp_get]
  dsimp only
  rw [hr, bind_assoc, wp_bind, wp_set, pure_bind]
  exact h

/-- `sd_write_multi` -/
lemma Owing.sdWriteMulti (h : Owing bus w₀ d₀ (w.enter bus).1 (w.enter bus).2 w) :
    wp (sdWriteMulti bus) (fun _ w' =>
      Owing bus w₀ d₀ readyText ⟨.dispatch, w'.card, w'.isHc⟩ w') (Idle bus w₀ d₀) w := by
  obtain ⟨r, hr⟩ : ∃ r, Spi.sdInit bus w.card = r := ⟨_, rfl⟩
  rw [World.enter, Desk.work] at h
  dsimp only at h
  rw [hr] at h
  rw [Stage2.sdWriteMulti]
  refine wp_sdInit_then hr (wp_ite (fun hrc => ?_) fun hrc => ?_)
  · rw [if_pos hrc] at h
    have hsaid : Owing bus w₀ d₀ _ _ (w.withCard r.2 r.1.2) := ⟨h.fed⟩
    rw [wp_puts]
    exact hsaid.say
  · rw [if_neg hrc, ← List.append_nil mwReady] at h
    have hsaid : Owing bus w₀ d₀ _ _ (w.withCard r.2 r.1.2) := ⟨h.fed⟩
    refine wp_puts_then ?_
    rw [recvU32, bind_assoc, wp_bind]
    refine hsaid.say.message (collects_count ..) (fun _ => ⟨rfl, rfl⟩) (by decide) rfl ?_
      fun m _ => ⟨_, rfl⟩
    intro m rest out d' hm hact h'
    rw [pure_bind]
    rw [List.nil_append, countTaken] at hact
    refine wp_ite (fun hbad => ?_) fun hok => ?_
    · rw [if_pos hbad] at hact
      obtain ⟨rfl, rfl⟩ := Prod.mk.inj (Option.some.inj hact)
      rw [wp_puts]
      exact h'.say
    · rw [if_neg hok, ← List.append_nil mwGo] at hact
      obtain ⟨rfl, rfl⟩ := Prod.mk.inj (Option.some.inj hact)
      -- there is a first segment, and the party waits for its header
      obtain ⟨n, hn⟩ : ∃ n, (Sd.recvU32 m).toNat = n + 1 := by
        refine Nat.exists_eq_succ_of_ne_zero fun hzero => hok (Or.inl ?_)
        exact BitVec.eq_of_toNat_eq hzero
      have hcount : (Sd.recvU32 m).toNat ≤ 16 := by
        have : ¬ 16 < Sd.recvU32 m := fun hlt => hok (Or.inr hlt)
        bv_omega
      refine wp_puts_then ?_
      rw [hn]
      exact Owing.multiSegments hcount 0 n (by omega) h'.say

lemma feed_enter (bus : Bus Byte σ) (w : World σ) :
    feed (Desk.recv bus) ⟨.dispatch, w.card, w.isHc⟩ [0x57] = some (w.enter bus) := by
  rw [feed, Desk.recv, Dev.recv, if_pos rfl]
  simp only [Option.bind_some, feed, Option.map_some, List.nil_append, List.append_nil]

/-- No other command than `W` is taken. -/
lemma eq_of_recv_dispatch {s : σ} {hc : Bool} {b : Byte} {r : List Byte × Desk σ}
    (h : Desk.recv bus ⟨.dispatch, s, hc⟩ b = some r) : b = 0x57 := by
  by_contra hne
  rw [Desk.recv, Dev.recv, if_neg hne] at h
  cases h

/-- The dispatcher behind a `W`, when nothing but `W` comes as a command. -/
lemma Owing.rounds {r : List Byte × Desk σ}
    (hfeed : feed (Desk.recv bus) d₀ (bytes w₀.input) = some r) (n : ℕ)
    (h : Owing bus w₀ d₀ (w.enter bus).1 (w.enter bus).2 w) (hn : (bytes w.input).length < n) :
    wp (Prog.rounds .waiting (command bus) n (some 0x57)) (fun _ _ => False) (Idle bus w₀ d₀)
      w := by
  induction n generalizing w with
  | zero => exact absurd hn (Nat.not_lt_zero _)
  | succ n ih =>
    rw [← List.append_nil (w.enter bus).1] at h
    have hround := Owing.sdWriteMulti (Owing.refl bus w (w.enter bus).1 (w.enter bus).2)
    rw [Prog.rounds, command, wp_bind, wp_bind]
    refine wp_mono ?_ (fun _ _ hidle => hidle.trans h.say) hround
    intro _ w₁ h₁
    have hlen : (bytes w₁.input).length ≤ (bytes w.input).length := by
      obtain ⟨used, -, hin, -, -⟩ := h₁.fed
      have := congrArg List.length hin
      rw [List.length_append] at this
      exact Nat.le_of_add_left_le this.ge
    rw [← List.append_nil readyText] at h₁
    have hready := h.say.trans h₁.say
    refine wp_emit_then ?_
    rw [wp_bind]
    refine wp_rawRecv (fun hnil => ?_) fun b used rest hw hb => ?_
    · exact ⟨rfl, rfl, _, hready.fedMore (List.append_nil _).symm hnil rfl, rfl, rfl⟩
    -- the next command is one that the party takes, so it is a `W`
    · obtain ⟨used₀, out, hin, hfeed₀, -⟩ := hready.fed
      have hin' : bytes w₀.input = used₀ ++ b :: bytes rest := by
        rw [hin, show (w₁.say readyText).input = used ++ rest from hw, bytes_append, hb]
        rfl
      obtain ⟨r', hr'⟩ := Feed.recv_of_feed hfeed₀ (hin' ▸ hfeed)
      obtain rfl := eq_of_recv_dispatch hr'
      rw [wp_pure]
      refine ih (w := { w₁.say readyText with input := rest })
        (hready.fedMore hw hb (feed_enter bus w₁)) ?_
      have hused := congrArg List.length (congrArg bytes (show w₁.input = used ++ rest from hw))
      rw [bytes_append, hb, List.length_append, List.length_singleton] at hused
      show (bytes rest).length < n
      omega

end Dispatcher

/-- **The program is the party.**  Let the first command come in time, and let no other command come
than `W`, whatever else comes behind it and whatever the device on the bus does.  Then stage2's
`main` waits when the input is at its end; behind its banner it has printed what the party has
printed, and it has left the device as the party has. -/
lemma exec_main_desk (clk : BitVec 32) {out : List Byte} (hin : ∀ rest, w.input ≠ none :: rest)
    (hfeed : feed (Desk.recv bus) ⟨.dispatch, w.card, w.isHc⟩ (bytes w.input) = some (out, d)) :
    ∃ w', exec (main bus clk) w = (.error .waiting, w') ∧
      w'.output = w.output ++ banner clk ++ out ∧ w'.card = d.card ∧ w'.isHc = d.isHc := by
  have hbase : Owing bus (w.started clk) ⟨.dispatch, w.card, w.isHc⟩ []
      ⟨.dispatch, w.card, w.isHc⟩ (w.started clk) := ⟨[], [], rfl, rfl, rfl⟩
  have hrun : wp (main bus clk) (fun _ _ => False)
      (Idle bus (w.started clk) ⟨.dispatch, w.card, w.isHc⟩) w := by
    rw [main]
    refine wp_seq (wp_startUp clk) ?_
    rintro _ _ rfl
    rw [wp_bind]
    refine wp_getc (fun hnil => ?_) fun c rest hw => ?_
    · exact ⟨rfl, congrArg bytes hnil, _, hbase, rfl, rfl⟩
    · have hw' : w.input = c :: rest := hw
      cases c with
      | none => exact absurd hw' (hin rest)
      | some b =>
        rw [hw', bytes_cons_some] at hfeed
        have hnil : feed (Desk.recv bus) ⟨.dispatch, w.card, w.isHc⟩ [] = some ([], _) := rfl
        obtain ⟨r, hr⟩ := Feed.recv_of_feed hnil hfeed
        obtain rfl := eq_of_recv_dispatch hr
        have hstarted : (w.started clk).input = [some 0x57] ++ rest := hw
        have henter := hbase.fedMore hstarted rfl (feed_enter bus w)
        rw [dispatch, wp, exec_loop]
        refine Owing.rounds (r := (out, d)) ?_ _ henter ?_
        · show feed _ _ (bytes w.input) = _
          rw [hw', bytes_cons_some, hfeed]
        · exact Nat.lt_succ_of_le (List.length_filterMap_le _ _)
  rcases wp_cases hrun with ⟨_, _, -, hfalse⟩ | ⟨e, w', hexec, rfl, hend, d', hd, hcard, hhc⟩
  · exact hfalse.elim
  obtain ⟨used, out', hused, hfeed', hout⟩ := hd.fed
  rw [hend, List.append_nil] at hused
  obtain ⟨rfl, rfl⟩ := Prod.mk.inj (Option.some.inj ((hused ▸ hfeed').symm.trans hfeed))
  rw [List.append_nil] at hout
  exact ⟨w', hexec, hout, hcard.symm, hhc.symm⟩

end Program

end Neorv32Boot.Stage2
