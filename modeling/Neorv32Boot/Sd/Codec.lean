import Neorv32Boot.Sd.Boot

/-!
# The header as both sides read it

The header sector has three descriptions: the `struct.pack` string of `build_header`, the list of
fields of `parse_header`, and `struct sd_boot_hdr` of the loader, which compares the magic with an
array of its own.  They agree, in both directions.
-/

namespace Neorv32Boot.Sd

/-! ### The magic of the loader -/

/-- `magic` of `mode_sd_boot`: 'N', 'E', 'O', 'L', 'N', 'X' and two zeros. -/
def bootMagic : List Byte := [0x4E, 0x45, 0x4F, 0x4C, 0x4E, 0x58, 0x00, 0x00]

/-- The loop of `mode_sd_boot` that halts at the first byte that is not as in its array. -/
def badMagic (hdrBuf : List Byte) : Bool :=
  (List.range 8).any fun i => hdrBuf.getD i 0 != bootMagic.getD i 0

lemma bootMagic_eq : bootMagic = magic := rfl

/-- The loop compares the first eight bytes. -/
lemma badMagic_iff {buf : List Byte} (h : 8 ≤ buf.length) :
    badMagic buf = true ↔ buf.take 8 ≠ magic := by
  rw [← bootMagic_eq, badMagic, List.any_eq_true]
  constructor
  · rintro ⟨i, hi, hne⟩ heq
    have hget : (buf.take 8).getD i 0 = buf.getD i 0 := by
      simp [List.mem_range.1 hi]
    rw [← hget, heq] at hne
    simp at hne
  · intro hne
    by_contra hall
    refine hne (List.ext_getElem ?_ fun i hi hi' => ?_)
    · rw [List.length_take]
      exact Nat.min_eq_left h
    · have hi8 : i < 8 := hi'
      by_contra hbyte
      refine hall ⟨i, List.mem_range.2 hi8, ?_⟩
      rw [List.getElem_take] at hbyte
      simpa [List.getD_eq_getElem?_getD, List.getElem?_eq_getElem (h.trans_lt' hi8),
        List.getElem?_eq_getElem hi'] using hbyte

/-- With a header that can be read, the loader stops at its magic loop or goes on behind it. -/
lemma modeSdBoot_bad_iff {s : Sector} {read : BitVec 32 → Option Sector} (m : Ram)
    (hread : read 0 = some s) :
    modeSdBoot true read m = .halt "[sd] bad magic\r\n" ↔ badMagic s.bytes = true := by
  have hlen : 8 ≤ s.bytes.length := by
    rw [length_bytes]
    decide
  rw [badMagic_iff hlen, modeSdBoot, hread]
  simp only [Bool.not_true, Bool.false_eq_true, if_false]
  by_cases hm : s.bytes.take 8 = magic
  · refine iff_of_false (fun hb => ?_) (fun hne => hne hm)
    rw [if_neg (not_not_intro hm)] at hb
    -- none of the ends behind the check has this message
    have hcopy : ∀ (e : CopyError) (text : String), text ≠ "[sd] bad magic\r\n" →
        e.boot text ≠ .halt "[sd] bad magic\r\n" := by
      rintro (_ | _) text htext heq
      · exact htext (Boot.halt.inj heq)
      · cases heq
    split at hb
    · exact hcopy _ _ (by decide) hb
    · split at hb
      · exact hcopy _ _ (by decide) hb
      · split at hb
        · exact hcopy _ _ (by decide) hb
        · split_ifs at hb
          simp at hb
  · exact iff_of_true (if_pos hm) hm

/-! ### Fields -/

/-- The fields of a header, in the order of `struct.pack`. -/
def Header.fields (h : Header) : List ℕ :=
  [h.imageSz, h.dtbSz, h.initrdSz, h.imageLba, h.dtbLba, h.initrdLba, h.layoutVersion,
    h.imageMaxSec, h.dtbMaxSec, h.initrdMaxSec]

/-- The loader sees the sizes and places that the host has parsed. -/
structure SdBootHdr.Shows (v : SdBootHdr) (h : Header) : Prop where
  imageSz : v.imageSz.toNat = h.imageSz
  dtbSz : v.dtbSz.toNat = h.dtbSz
  initrdSz : v.initrdSz.toNat = h.initrdSz
  imageLba : v.imageLba.toNat = h.imageLba
  dtbLba : v.dtbLba.toNat = h.dtbLba
  initrdLba : v.initrdLba.toNat = h.initrdLba

/-- What `parse_header` accepts: the magic, and the words behind it. -/
lemma parseHeader_eq_ok {buf : List Byte} {h : Header} (hp : parseHeader buf = .ok h) :
    sector ≤ buf.length ∧ buf.take 8 = magic ∧
      h.fields = (List.range 10).map fun k => Bytes.leAt 4 ((buf.drop 8).take 40) (4 * k) := by
  rw [parseHeader] at hp
  split_ifs at hp with hlen hmagic
  obtain rfl := Except.ok.inj hp
  exact ⟨not_lt.1 hlen, not_not.1 hmagic, rfl⟩

/-- A field inside the first 40 bytes behind the magic is a word of the sector. -/
lemma leAt_drop_take {buf : List Byte} {k : ℕ} (hk : k < 10) :
    Bytes.leAt 4 ((buf.drop 8).take 40) (4 * k) = Bytes.leAt 4 buf (8 + 4 * k) := by
  rw [Bytes.leAt, Bytes.leAt, List.drop_take, List.take_take, List.drop_drop,
    Nat.min_eq_left (by omega)]

lemma parseHeader_field {buf : List Byte} {h : Header} (hp : parseHeader buf = .ok h) {k : ℕ}
    (hk : k < 10) : h.fields[k]? = some (Bytes.leAt 4 buf (8 + 4 * k)) := by
  rw [(parseHeader_eq_ok hp).2.2, List.getElem?_map, List.getElem?_range hk, Option.map_some,
    leAt_drop_take hk]

/-- A word of the sector as the loader reads it. -/
lemma toNat_word (s : Sector) {k : ℕ} (hk : k < 10) :
    (BitVec.ofNat 32 (Bytes.leAt 4 s.bytes (8 + 4 * k))).toNat =
      Bytes.leAt 4 s.bytes (8 + 4 * k) := by
  refine Nat.mod_eq_of_lt (Bytes.leAt_lt ?_)
  rw [length_bytes, sector]
  omega

/-- **The struct of the loader and the field list of the host agree** on every sector that the
host can parse. -/
theorem ofSector_shows {s : Sector} {h : Header} (hp : parseHeader s.bytes = .ok h) :
    (SdBootHdr.ofSector s).Shows h := by
  have hfield : ∀ k x, k < 10 → h.fields[k]? = some x →
      (BitVec.ofNat 32 (Bytes.leAt 4 s.bytes (8 + 4 * k))).toNat = x := by
    intro k x hk hx
    rw [parseHeader_field hp hk] at hx
    rw [toNat_word s hk]
    exact Option.some.inj hx
  constructor
  · exact hfield 0 _ (by decide) rfl
  · exact hfield 1 _ (by decide) rfl
  · exact hfield 2 _ (by decide) rfl
  · exact hfield 3 _ (by decide) rfl
  · exact hfield 4 _ (by decide) rfl
  · exact hfield 5 _ (by decide) rfl

/-! ### Round trips -/

/-- A header of these sizes as a sector. -/
lemma buildHeader_sector {a b c : ℕ} (ha : a < 2 ^ 32) (hb : b < 2 ^ 32) (hc : c < 2 ^ 32) :
    ∃ s : Sector, buildHeader a b c = .ok s.bytes ∧
      s.bytes.take 48 = magic ++ (layoutFields a b c).flatMap (Bytes.toLE 4) := by
  have hlt : ∀ x ∈ layoutFields a b c, x < 2 ^ 32 := by
    simp only [layoutFields, List.mem_cons, List.not_mem_nil, or_false]
    rintro x (rfl | rfl | rfl | rfl | rfl | rfl | rfl | rfl | rfl | rfl)
    · exact ha
    · exact hb
    · exact hc
    all_goals decide
  have hbuild := (buildHeader_eq_ok_iff a b c _).2 ⟨hlt, rfl⟩
  have hfields : (magic ++ (layoutFields a b c).flatMap (Bytes.toLE 4)).length = 48 := by
    rw [List.length_append, Bytes.length_flatMap_toLE]
    rfl
  refine ⟨sectorAt (padSector (magic ++ (layoutFields a b c).flatMap (Bytes.toLE 4))) 0, ?_, ?_⟩
  · rw [bytes_sectorAt_zero (parseHeader_buildHeader hbuild).1, hbuild]
  · rw [bytes_sectorAt_zero (parseHeader_buildHeader hbuild).1, padSector, List.take_left' hfields]

/-- A parsed header with the layout of these constants is built again to the same 48 bytes. -/
lemma rebuild {s : Sector} {h : Header} (hp : parseHeader s.bytes = .ok h)
    (hv : verifyLayout h = .ok ()) :
    ∃ s' : Sector, buildHeader h.imageSz h.dtbSz h.initrdSz = .ok s'.bytes ∧
      s'.bytes.take 48 = s.bytes.take 48 := by
  obtain ⟨hlen, hmagic, hfields⟩ := parseHeader_eq_ok hp
  have hlayout : h.fields = layoutFields h.imageSz h.dtbSz h.initrdSz := by
    conv_lhs => rw [(verifyLayout_eq_ok_iff h).1 hv]
    rfl
  have hrest : ((s.bytes.drop 8).take 40).length = 40 := by
    rw [List.length_take, List.length_drop, length_bytes]
    rfl
  have hpack : h.fields.flatMap (Bytes.toLE 4) = (s.bytes.drop 8).take 40 := by
    rw [hfields, Bytes.flatMap_toLE_leAt 4 10 _ hrest.ge, List.take_of_length_le hrest.le]
  have hshow := ofSector_shows hp
  obtain ⟨s', hs', htake⟩ := buildHeader_sector (a := h.imageSz) (b := h.dtbSz) (c := h.initrdSz)
    (by rw [← hshow.imageSz]; exact BitVec.isLt _) (by rw [← hshow.dtbSz]; exact BitVec.isLt _)
    (by rw [← hshow.initrdSz]; exact BitVec.isLt _)
  refine ⟨s', hs', ?_⟩
  rw [htake, ← hlayout, hpack, ← hmagic, ← List.take_add]

/-- **The codecs of the header agree.**  For all sizes of 32 bits the host builds one sector, which
it parses back to these sizes in a layout that it accepts.  Whatever sector it parses, the loader
reads the same sizes and places; when it accepts the layout too, a header built of the parsed sizes
has the same 48 bytes.  And on every sector it complains about the magic exactly when the loader
does. -/
theorem header_codec_agrees :
    (∀ a b c : BitVec 32, ∃ s : Sector, buildHeader a.toNat b.toNat c.toNat = .ok s.bytes ∧
      parseHeader s.bytes = .ok (layoutHeader a.toNat b.toNat c.toNat) ∧
      verifyLayout (layoutHeader a.toNat b.toNat c.toNat) = .ok () ∧
      (SdBootHdr.ofSector s).Shows (layoutHeader a.toNat b.toNat c.toNat)) ∧
    (∀ (s : Sector) (h : Header), parseHeader s.bytes = .ok h →
      (SdBootHdr.ofSector s).Shows h ∧
      (verifyLayout h = .ok () →
        ∃ s' : Sector, buildHeader h.imageSz h.dtbSz h.initrdSz = .ok s'.bytes ∧
          s'.bytes.take 48 = s.bytes.take 48)) ∧
    ∀ (s : Sector) (read : BitVec 32 → Option Sector) (m : Ram), read 0 = some s →
      (parseHeader s.bytes = .error (.valueError ("bad magic: " ++ reprBytes (s.bytes.take 8))) ↔
        badMagic s.bytes = true) ∧
      (modeSdBoot true read m = .halt "[sd] bad magic\r\n" ↔ badMagic s.bytes = true) := by
  refine ⟨?_, ?_, ?_⟩
  · intro a b c
    obtain ⟨s, hs, -⟩ := buildHeader_sector a.isLt b.isLt c.isLt
    have hparse := (parseHeader_buildHeader hs).2
    exact ⟨s, hs, hparse, (verifyLayout_eq_ok_iff _).2 rfl, ofSector_shows hparse⟩
  · intro s h hp
    exact ⟨ofSector_shows hp, rebuild hp⟩
  · intro s read m hread
    refine ⟨?_, modeSdBoot_bad_iff m hread⟩
    have hlen : ¬ s.bytes.length < sector := by
      rw [length_bytes]
      exact lt_irrefl _
    rw [badMagic_iff (by rw [length_bytes]; decide), parseHeader, if_neg hlen]
    by_cases hm : s.bytes.take 8 = magic
    · rw [if_neg (not_not_intro hm)]
      exact iff_of_false (by rintro ⟨⟩) fun hne => hne hm
    · rw [if_pos hm]
      exact iff_of_true rfl hm

/-- A header of three small sizes. -/
def smallHeader : Sector := sectorAt (magic ++ (layoutFields 1 2 3).flatMap (Bytes.toLE 4)) 0

theorem header_codec_agrees_small :
    (SdBootHdr.ofSector smallHeader).Shows (layoutHeader 1 2 3) ∧
      (∃ s' : Sector, buildHeader 1 2 3 = .ok s'.bytes ∧
        s'.bytes.take 48 = smallHeader.bytes.take 48) ∧
      (modeSdBoot true (fun _ => some smallHeader) (fun _ => 0) = .halt "[sd] bad magic\r\n" ↔
        badMagic smallHeader.bytes = true) := by
  have hparse : parseHeader smallHeader.bytes = .ok (layoutHeader 1 2 3) := by decide +kernel
  obtain ⟨hshow, hbuild⟩ := header_codec_agrees.2.1 smallHeader (layoutHeader 1 2 3) hparse
  exact ⟨hshow, hbuild rfl, (header_codec_agrees.2.2 smallHeader _ _ rfl).2⟩

end Neorv32Boot.Sd
