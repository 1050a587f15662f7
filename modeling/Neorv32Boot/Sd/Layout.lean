import Neorv32Boot.Lib.Bytes

/-!
# The layout of the SD blob

`host/sd_layout.py`: fixed slots on the card for the Image, the DTB and the initrd, and a header
sector with their sizes.
-/

namespace Neorv32Boot.Sd

/-- An exception that the host tools raise, with its text. -/
inductive PyError
  | valueError (text : String)
  | runtimeError (text : String)
  | structError (text : String)
  | assertionError (text : String)
  /-- `sys.exit`, after the text was printed -/
  | systemExit (code : ℕ) (printed : String)
deriving DecidableEq

/-! ### Constants -/

def sector : ℕ := 512
/-- `b"NEOLNX\x00\x00"` -/
def magic : List Byte := ascii "NEOLNX" ++ [0, 0]
def layoutVersion : ℕ := 1

def hdrLba : ℕ := 0

def imgLba : ℕ := 1
def imgMaxSec : ℕ := 4000

def dtbLba : ℕ := imgLba + imgMaxSec
def dtbMaxSec : ℕ := 8

def irdLba : ℕ := dtbLba + dtbMaxSec
def irdMaxSec : ℕ := 4000

def endLba : ℕ := irdLba + irdMaxSec

/-! ### Sectors -/

/-- Pad with zeros to a whole number of sectors. -/
def padSector (b : List Byte) : List Byte :=
  let r := b.length % sector
  b ++ List.replicate (if r = 0 then 0 else sector - r) 0

lemma length_padSector (b : List Byte) :
    (padSector b).length = sector * ((b.length + 511) / sector) := by
  simp only [padSector, List.length_append, List.length_replicate]
  by_cases hr : b.length % sector = 0
  · simp only [hr, if_true]
    unfold sector at *
    omega
  · simp only [hr, if_false]
    unfold sector at *
    omega

/-! ### The header -/

/-- The fields of the header, in the order of `struct.pack`. -/
structure Header where
  imageSz : ℕ
  dtbSz : ℕ
  initrdSz : ℕ
  imageLba : ℕ
  dtbLba : ℕ
  initrdLba : ℕ
  layoutVersion : ℕ
  imageMaxSec : ℕ
  dtbMaxSec : ℕ
  initrdMaxSec : ℕ
deriving DecidableEq

/-- `struct.pack("<I...", ...)` -/
def packU32s (xs : List ℕ) : Except PyError (List Byte) :=
  if ∀ x ∈ xs, x < 2 ^ 32 then .ok (xs.flatMap (Bytes.toLE 4))
  else .error (.structError "'I' format requires 0 <= number <= 4294967295")

/-- The sector at LBA 0. -/
def buildHeader (imageSz dtbSz initrdSz : ℕ) : Except PyError (List Byte) := do
  let fields ← packU32s
    [imageSz, dtbSz, initrdSz, imgLba, dtbLba, irdLba, layoutVersion, imgMaxSec, dtbMaxSec,
      irdMaxSec]
  pure (padSector (magic ++ fields))

/-- `repr` of a byte string. -/
def reprBytes (bs : List Byte) : String :=
  let quote : ℕ := if 0x27 ∈ bs ∧ 0x22 ∉ bs then 0x22 else 0x27
  let char (b : Byte) : List ℕ :=
    if b.toNat = quote ∨ b = 0x5C then [0x5C, b.toNat]
    else if b = 0x09 then [0x5C, 0x74]
    else if b = 0x0A then [0x5C, 0x6E]
    else if b = 0x0D then [0x5C, 0x72]
    else if 0x20 ≤ b ∧ b < 0x7F then [b.toNat]
    else [0x5C, 0x78] ++ [b.toNat / 16, b.toNat % 16].map fun d => d + if d < 10 then 48 else 87
  String.ofList (([0x62, quote] ++ bs.flatMap char ++ [quote]).map Char.ofNat)

/-- The header in a sector. -/
def parseHeader (buf : List Byte) : Except PyError Header :=
  if buf.length < sector then
    .error (.valueError ("header too short: " ++ toString buf.length))
  else if buf.take 8 ≠ magic then
    .error (.valueError ("bad magic: " ++ reprBytes (buf.take 8)))
  else
    let field (k : ℕ) : ℕ := Bytes.leAt 4 ((buf.drop 8).take 40) (4 * k)
    .ok
      { imageSz := field 0
        dtbSz := field 1
        initrdSz := field 2
        imageLba := field 3
        dtbLba := field 4
        initrdLba := field 5
        layoutVersion := field 6
        imageMaxSec := field 7
        dtbMaxSec := field 8
        initrdMaxSec := field 9 }

/-- The fields that `verify_layout` compares after the version, with what it expects. -/
def expectedLayout (h : Header) : List (String × ℕ × ℕ) :=
  [("image_lba", h.imageLba, imgLba), ("dtb_lba", h.dtbLba, dtbLba),
    ("initrd_lba", h.initrdLba, irdLba), ("image_max_sec", h.imageMaxSec, imgMaxSec),
    ("dtb_max_sec", h.dtbMaxSec, dtbMaxSec), ("initrd_max_sec", h.initrdMaxSec, irdMaxSec)]

/-- The header must have the layout of these constants. -/
def verifyLayout (h : Header) : Except PyError Unit :=
  if h.layoutVersion ≠ layoutVersion then
    .error (.valueError ("layout_version mismatch: card=" ++ toString h.layoutVersion ++
      " expected=" ++ toString layoutVersion ++ ". Run sd_pack.py first."))
  else
    match (expectedLayout h).find? fun f => f.2.1 ≠ f.2.2 with
    | some (k, got, v) =>
      .error (.valueError (k ++ " mismatch: card=" ++ toString got ++ " expected=" ++ toString v ++
        ". Run sd_pack.py first."))
    | none => .ok ()

/-- The header with these sizes in this layout. -/
def layoutHeader (imageSz dtbSz initrdSz : ℕ) : Header where
  imageSz := imageSz
  dtbSz := dtbSz
  initrdSz := initrdSz
  imageLba := imgLba
  dtbLba := dtbLba
  initrdLba := irdLba
  layoutVersion := layoutVersion
  imageMaxSec := imgMaxSec
  dtbMaxSec := dtbMaxSec
  initrdMaxSec := irdMaxSec

/-- The fields of `layoutHeader`, in the order of `struct.pack`. -/
def layoutFields (imageSz dtbSz initrdSz : ℕ) : List ℕ :=
  [imageSz, dtbSz, initrdSz, imgLba, dtbLba, irdLba, layoutVersion, imgMaxSec, dtbMaxSec,
    irdMaxSec]

lemma length_magic : magic.length = 8 := rfl

/-- A header is built when its sizes fit their fields. -/
lemma buildHeader_eq_ok_iff (a b c : ℕ) (hdr : List Byte) :
    buildHeader a b c = .ok hdr ↔ (∀ x ∈ layoutFields a b c, x < 2 ^ 32) ∧
      padSector (magic ++ (layoutFields a b c).flatMap (Bytes.toLE 4)) = hdr := by
  have hb : buildHeader a b c = packU32s (layoutFields a b c) >>= fun f =>
    pure (padSector (magic ++ f)) := rfl
  rw [hb, packU32s]
  split_ifs with h
  · exact ⟨fun he => ⟨h, Except.ok.inj he⟩, fun he => congrArg Except.ok he.2⟩
  · exact iff_of_false nofun fun he => h he.1

/-- The bytes of a header: the magic, and one word for each field. -/
lemma buildHeader_bytes {a b c : ℕ} {hdr : List Byte} (h : buildHeader a b c = .ok hdr) :
    hdr.length = sector ∧ hdr.take 8 = magic ∧
      ∀ k (hk : k < (layoutFields a b c).length),
        Bytes.leAt 4 hdr (8 + 4 * k) = (layoutFields a b c)[k] := by
  obtain ⟨hlt, rfl⟩ := (buildHeader_eq_ok_iff a b c hdr).1 h
  have hflen : ((layoutFields a b c).flatMap (Bytes.toLE 4)).length = 40 :=
    Bytes.length_flatMap_toLE 4 _
  refine ⟨?_, ?_, fun k hk => ?_⟩
  · rw [length_padSector, List.length_append, hflen, length_magic]
    rfl
  · rw [padSector, List.append_assoc, List.take_left' length_magic]
  · rw [padSector, List.append_assoc, Bytes.leAt, ← List.drop_drop, List.drop_left' length_magic]
    exact Bytes.leAt_flatMap_toLE 4 (layoutFields a b c) k hk _ hlt

/-- **What is built is parsed back.** -/
theorem parseHeader_buildHeader {a b c : ℕ} {hdr : List Byte} (h : buildHeader a b c = .ok hdr) :
    hdr.length = sector ∧ parseHeader hdr = .ok (layoutHeader a b c) := by
  obtain ⟨hlen, hmagic, hfields⟩ := buildHeader_bytes h
  have hfield : ∀ k (hk : k < (layoutFields a b c).length),
      Bytes.leAt 4 ((hdr.drop 8).take 40) (4 * k) = (layoutFields a b c)[k] := by
    intro k hk
    have hten : (layoutFields a b c).length = 10 := rfl
    rw [← hfields k hk, Bytes.leAt, Bytes.leAt, List.drop_take, List.take_take, List.drop_drop,
      Nat.min_eq_left (by omega)]
  have hten : (layoutFields a b c).length = 10 := rfl
  refine ⟨hlen, ?_⟩
  rw [parseHeader, if_neg (by omega), if_neg (by simp [hmagic])]
  simp only
  rw [hfield 0 (by omega), hfield 1 (by omega), hfield 2 (by omega), hfield 3 (by omega),
    hfield 4 (by omega), hfield 5 (by omega), hfield 6 (by omega), hfield 7 (by omega),
    hfield 8 (by omega), hfield 9 (by omega)]
  rfl

/-- A header passes the check exactly when it differs from this layout in its sizes only. -/
lemma verifyLayout_eq_ok_iff (h : Header) :
    verifyLayout h = .ok () ↔ h = layoutHeader h.imageSz h.dtbSz h.initrdSz := by
  have hall : (expectedLayout h).find? (fun f => f.2.1 ≠ f.2.2) = none ↔
      ∀ f ∈ expectedLayout h, f.2.1 = f.2.2 := by
    simp [List.find?_eq_none]
  obtain ⟨a, b, c, ia, ib, ic, v, ma, mb, mc⟩ := h
  rw [verifyLayout]
  split_ifs with hv
  · refine iff_of_false nofun fun he => hv ?_
    rw [he]
    rfl
  · split
    · next k got v' hf =>
      refine iff_of_false nofun fun he => ?_
      rw [hall.2] at hf
      · exact nomatch hf
      · rw [he]
        simp [expectedLayout, layoutHeader]
    · next hf =>
      rw [hall] at hf
      simp [expectedLayout] at hf hv
      simp [layoutHeader, hf, hv]

end Neorv32Boot.Sd
