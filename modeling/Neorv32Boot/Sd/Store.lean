import Neorv32Boot.Sd.Card

/-!
# Packing and updating the card

`host/sd_pack.py` writes the header and all three slots, and `update_sd` of `host/sd_update.py`
writes the header and the slots that its flags select.  The header has the sizes of all three
local files in both.  `runs` is a history of such runs, and `storedBy` the files whose bytes are
in the slots after it.
-/

namespace Neorv32Boot.Sd

/-! ### Slots -/

/-- The three slots of the layout. -/
inductive Slot
  | image | dtb | initrd
deriving DecidableEq, Repr

namespace Slot

/-- All slots, in the order of the tools. -/
def all : List Slot := [image, dtb, initrd]

/-- The name in the messages of the tools. -/
def name : Slot → String
  | image => "Image"
  | dtb => "DTB"
  | initrd => "initrd"

def lba : Slot → ℕ
  | image => imgLba
  | dtb => dtbLba
  | initrd => irdLba

def maxSec : Slot → ℕ
  | image => imgMaxSec
  | dtb => dtbMaxSec
  | initrd => irdMaxSec

lemma mem_all (s : Slot) : s ∈ all := by
  cases s <;> simp [all]

lemma nodup_all : all.Nodup := by decide

/-- The slots are behind the header, and below the end of the layout. -/
lemma bounds (s : Slot) : 0 < s.lba ∧ s.lba + s.maxSec ≤ endLba := by
  revert s
  rintro (_ | _ | _) <;> decide

/-- Two slots share no sector. -/
lemma disjoint {s t : Slot} (h : s ≠ t) :
    s.lba + s.maxSec ≤ t.lba ∨ t.lba + t.maxSec ≤ s.lba := by
  revert h
  cases s <;> cases t <;> decide

end Slot

/-- One byte string for each slot. -/
structure Files where
  image : List Byte
  dtb : List Byte
  initrd : List Byte

/-- The file for a slot. -/
def Files.file (f : Files) : Slot → List Byte
  | .image => f.image
  | .dtb => f.dtb
  | .initrd => f.initrd

/-- The size of a slot in the header. -/
def Header.size (h : Header) : Slot → ℕ
  | .image => h.imageSz
  | .dtb => h.dtbSz
  | .initrd => h.initrdSz

/-- The number of sectors of a file. -/
def usedSec (b : List Byte) : ℕ := (b.length + 511) / sector

/-! ### The tools -/

/-- The text of `sd_pack` for a file that is too long. -/
def packOverflow (s : Slot) : PyError :=
  .systemExit 1 ("[!] " ++ s.name ++ " overflows its " ++ toString s.maxSec ++
    "-sector slot. Bump " ++ s.name.toUpper ++ "_MAX_SEC in sd_layout.py and " ++
    "rebuild stage2 layout.")

/-- The text of `update_sd` for a file that is too long. -/
def updateOverflow (f : Files) (s : Slot) : PyError :=
  .runtimeError (s.name ++ " (" ++ toString (usedSec (f.file s)) ++ " sec) overflows slot (" ++
    toString s.maxSec ++ "). Bump sd_layout.py and re-run sd_pack.py.")

/-- The slot checks: the first file that is too long for its slot is reported. -/
def checkSlots (err : Slot → PyError) (f : Files) : Except PyError Unit :=
  match Slot.all.find? fun s => s.maxSec < usedSec (f.file s) with
  | some s => .error (err s)
  | none => .ok ()

/-- `multi_seg_write` with a card that takes every write: stage2 refuses a list that is empty or
too long, and a segment that is empty or too long. -/
def multiSegWrite (segments : List Segment) (c : Card) : Except PyError Card :=
  if (1 ≤ segments.length ∧ segments.length ≤ 16) ∧ ∀ s ∈ segments, s.Ok then
    .ok (c.write (segments.flatMap Segment.writes))
  else .error (.runtimeError "MW did not complete")

/-- `read_header`: the sector at LBA 0. -/
def readHeader (c : Card) : List Byte := (c (BitVec.ofNat 32 hdrLba)).bytes

/-- `main` of `sd_pack.py`, with the files that it reads. -/
def pack (f : Files) (c : Card) : Except PyError Card := do
  checkSlots packOverflow f
  let header ← buildHeader f.image.length f.dtb.length f.initrd.length
  multiSegWrite
    [⟨hdrLba, header⟩, ⟨imgLba, padSector f.image⟩, ⟨dtbLba, padSector f.dtb⟩,
      ⟨irdLba, padSector f.initrd⟩] c

/-- The flags of `update_sd`. -/
structure Flags where
  doKernel : Bool
  doDtb : Bool
  doInitrd : Bool
  verify : Bool

/-- The fields that `update_sd` compares after the write. -/
def verifyFields (h : Header) : List (String × ℕ) :=
  [("image_sz", h.imageSz), ("dtb_sz", h.dtbSz), ("initrd_sz", h.initrdSz),
    ("image_lba", h.imageLba), ("dtb_lba", h.dtbLba), ("initrd_lba", h.initrdLba),
    ("layout_version", h.layoutVersion)]

/-- The text of a failed verification. -/
def verifyFailed (mismatches : List ((String × ℕ) × (String × ℕ))) : PyError :=
  let quoted (k : String) : String := "'" ++ k ++ "'"
  let dict (l : List (String × ℕ)) : String :=
    "\x7b" ++ String.intercalate ", " (l.map fun p => quoted p.1 ++ ": " ++ toString p.2) ++ "\x7d"
  .runtimeError ("verify FAILED — fields differ: [" ++
    String.intercalate ", " (mismatches.map fun p => quoted p.1.1) ++ "] got=" ++
    dict (mismatches.map Prod.fst) ++ " expected=" ++ dict (mismatches.map Prod.snd))

/-- The verification after the write: the header is read again and compared. -/
def verifyWrite (expected : Header) (c : Card) : Except PyError Unit := do
  let got ← parseHeader (readHeader c)
  let mismatches := ((verifyFields got).zip (verifyFields expected)).filter
    fun p => p.1.2 ≠ p.2.2
  if mismatches ≠ [] then throw (verifyFailed mismatches)

/-- `update_sd`, with the local output files: the old and the new header, and the card. -/
def updateSd (fl : Flags) (f : Files) (c : Card) : Except PyError ((Header × Header) × Card) := do
  checkSlots (updateOverflow f) f
  let h ← parseHeader (readHeader c)
  verifyLayout h
  let newHeader ← buildHeader f.image.length f.dtb.length f.initrd.length
  let segments := [⟨hdrLba, newHeader⟩] ++
    (if fl.doKernel then [⟨imgLba, padSector f.image⟩] else []) ++
    (if fl.doDtb then [⟨dtbLba, padSector f.dtb⟩] else []) ++
    (if fl.doInitrd then [⟨irdLba, padSector f.initrd⟩] else [])
  let c' ← multiSegWrite segments c
  let expected ← parseHeader newHeader
  if fl.verify then verifyWrite expected c'
  pure ((h, expected), c')

/-- `update_sd` up to the write: the old header, the new one, and the segments that it asks stage2
to write. -/
def updatePlan (fl : Flags) (f : Files) (hdrBytes : List Byte) :
    Except PyError ((Header × List Byte) × List Segment) := do
  checkSlots (updateOverflow f) f
  let h ← parseHeader hdrBytes
  verifyLayout h
  let newHeader ← buildHeader f.image.length f.dtb.length f.initrd.length
  pure ((h, newHeader), [⟨hdrLba, newHeader⟩] ++
    (if fl.doKernel then [⟨imgLba, padSector f.image⟩] else []) ++
    (if fl.doDtb then [⟨dtbLba, padSector f.dtb⟩] else []) ++
    (if fl.doInitrd then [⟨irdLba, padSector f.initrd⟩] else []))

/-- The slots that the flags select. -/
def Flags.selects (fl : Flags) : Slot → Bool
  | .image => fl.doKernel
  | .dtb => fl.doDtb
  | .initrd => fl.doInitrd

/-! ### Histories -/

/-- A run of one of the tools. -/
inductive Run
  | pack (f : Files)
  | update (fl : Flags) (f : Files)

/-- The local files of a run. -/
def Run.files : Run → Files
  | .pack f => f
  | .update _ f => f

/-- The slots that a run rewrites. -/
def Run.selects : Run → Slot → Bool
  | .pack _, _ => true
  | .update fl _, .image => fl.doKernel
  | .update fl _, .dtb => fl.doDtb
  | .update fl _, .initrd => fl.doInitrd

/-- The card after a run. -/
def Run.exec : Run → Card → Except PyError Card
  | .pack f, c => Sd.pack f c
  | .update fl f, c => do pure (← updateSd fl f c).2

/-- The file in each slot after a run, when `g` were there before. -/
def Run.store (r : Run) (g : Files) : Files where
  image := if r.selects .image then r.files.image else g.image
  dtb := if r.selects .dtb then r.files.dtb else g.dtb
  initrd := if r.selects .initrd then r.files.initrd else g.initrd

/-- The card after runs that all succeed. -/
def runs (rs : List Run) (c : Card) : Except PyError Card :=
  rs.foldlM (fun c r => r.exec c) c

/-- The file in each slot after some runs. -/
def storedBy (rs : List Run) (g : Files) : Files :=
  rs.foldl (fun g r => r.store g) g

/-- The slot holds a file, padded to whole sectors. -/
def Holds (c : Card) (s : Slot) (b : List Byte) : Prop :=
  ∀ i < usedSec b, c (BitVec.ofNat 32 (s.lba + i)) = sectorAt (padSector b) i

/-- The header has the sizes of the files that are in the slots. -/
def Consistent (c : Card) (g : Files) : Prop :=
  ∃ h, parseHeader (readHeader c) = .ok h ∧
    ∀ s, h.size s = (g.file s).length ∧ Holds c s (g.file s)

/-! ### What a successful run has done -/

lemma bind_eq_ok {α β : Type} {x : Except PyError α} {f : α → Except PyError β} {b : β} :
    x >>= f = .ok b ↔ ∃ a, x = .ok a ∧ f a = .ok b := by
  cases x with
  | error e => exact iff_of_false nofun (by simp)
  | ok a => exact ⟨fun h => ⟨a, rfl, h⟩, fun ⟨_, ha, h⟩ => by cases ha; exact h⟩

/-- The slot checks pass when every file fits its slot. -/
lemma checkSlots_eq_ok_iff (err : Slot → PyError) (f : Files) :
    checkSlots err f = .ok () ↔ ∀ s, usedSec (f.file s) ≤ s.maxSec := by
  unfold checkSlots
  split
  · next s hs =>
    have := List.find?_some hs
    refine iff_of_false nofun fun h => ?_
    simp only [decide_eq_true_eq] at this
    exact absurd (h s) (by omega)
  · next hs =>
    refine iff_of_true rfl fun s => ?_
    have := List.find?_eq_none.1 hs s s.mem_all
    simpa using this

/-- The segments of the selected slots. -/
def slotSegments (sel : Slot → Bool) (f : Files) : List Segment :=
  (Slot.all.filter sel).map fun s => ⟨s.lba, padSector (f.file s)⟩

/-- The plan is the first part of `update_sd`. -/
lemma updateSd_eq (fl : Flags) (f : Files) (c : Card) :
    updateSd fl f c = (do
      let p ← updatePlan fl f (readHeader c)
      let c' ← multiSegWrite p.2 c
      let expected ← parseHeader p.1.2
      if fl.verify then verifyWrite expected c'
      pure ((p.1.1, expected), c')) := by
  simp only [updateSd, updatePlan, bind_assoc, pure_bind]

/-- A plan that is made: the files fit, the header on the card has this layout, the new header has
their sizes, and the segments are the header and the selected slots. -/
lemma updatePlan_eq_ok {fl : Flags} {f : Files} {b : List Byte}
    {p : (Header × List Byte) × List Segment} (h : updatePlan fl f b = .ok p) :
    (∀ s, usedSec (f.file s) ≤ s.maxSec) ∧ parseHeader b = .ok p.1.1 ∧
      verifyLayout p.1.1 = .ok () ∧
      buildHeader f.image.length f.dtb.length f.initrd.length = .ok p.1.2 ∧
      p.2 = ⟨hdrLba, p.1.2⟩ :: slotSegments fl.selects f := by
  simp only [updatePlan, bind_eq_ok] at h
  obtain ⟨_, hcheck, old, hparse, _, hverify, hdr, hhdr, h⟩ := h
  obtain rfl := Except.ok.inj h
  refine ⟨(checkSlots_eq_ok_iff _ f).1 hcheck, hparse, hverify, hhdr, ?_⟩
  obtain ⟨k, d, i, v⟩ := fl
  cases k <;> cases d <;> cases i <;> rfl

/-- A successful run: the files fit, and the header and the selected slots go out as segments. -/
lemma Run.exec_segments {r : Run} {c c' : Card} (h : r.exec c = .ok c') :
    (∀ s, usedSec (r.files.file s) ≤ s.maxSec) ∧
      ∃ hdr, buildHeader r.files.image.length r.files.dtb.length r.files.initrd.length = .ok hdr ∧
        multiSegWrite (⟨hdrLba, hdr⟩ :: slotSegments r.selects r.files) c = .ok c' := by
  cases r with
  | pack f =>
    simp only [Run.exec, Sd.pack, bind_eq_ok] at h
    obtain ⟨_, hcheck, hdr, hhdr, h⟩ := h
    exact ⟨(checkSlots_eq_ok_iff _ f).1 hcheck, hdr, hhdr, h⟩
  | update fl f =>
    simp only [Run.exec, updateSd_eq, bind_eq_ok] at h
    obtain ⟨r, ⟨p, hplan, c₁, hw, e, -, hrest⟩, hr⟩ := h
    obtain ⟨hfit, -, -, hhdr, hsegs⟩ := updatePlan_eq_ok hplan
    have hsel : (Run.update fl f).selects = fl.selects := by
      funext s
      cases s <;> rfl
    rw [hsegs] at hw
    have hr₂ : r.2 = c₁ := by
      split_ifs at hrest
      · obtain ⟨_, -, hrest⟩ := bind_eq_ok.1 hrest
        exact congrArg Prod.snd (Except.ok.inj hrest).symm
      · exact congrArg Prod.snd (Except.ok.inj hrest).symm
    obtain rfl : c' = c₁ := (Except.ok.inj hr).symm.trans hr₂
    exact ⟨hfit, p.1.2, hhdr, hsel ▸ hw⟩

/-- A successful multi-segment write. -/
lemma multiSegWrite_eq_ok {segments : List Segment} {c c' : Card}
    (h : multiSegWrite segments c = .ok c') :
    ((1 ≤ segments.length ∧ segments.length ≤ 16) ∧ ∀ s ∈ segments, s.Ok) ∧
      c' = c.write (segments.flatMap Segment.writes) := by
  unfold multiSegWrite at h
  split_ifs at h with hok
  exact ⟨hok, (Except.ok.inj h).symm⟩

/-- A successful run: the files fit, and the header and the selected slots are written. -/
lemma Run.exec_eq_ok {r : Run} {c c' : Card} (h : r.exec c = .ok c') :
    (∀ s, usedSec (r.files.file s) ≤ s.maxSec) ∧
      ∃ hdr, buildHeader r.files.image.length r.files.dtb.length r.files.initrd.length = .ok hdr ∧
        c' = c.write ((⟨hdrLba, hdr⟩ :: slotSegments r.selects r.files).flatMap
          Segment.writes) := by
  obtain ⟨hfit, hdr, hhdr, hw⟩ := Run.exec_segments h
  exact ⟨hfit, hdr, hhdr, (multiSegWrite_eq_ok hw).2⟩

/-! ### The content of the slots -/

lemma segment_secCount (n : ℕ) (b : List Byte) :
    (⟨n, padSector b⟩ : Segment).secCount = usedSec b := by
  rw [Segment.secCount, length_padSector, Nat.mul_div_cancel_left _ (by decide)]
  rfl

/-- `sd_pack` succeeds on files that are not empty and fit their slots. -/
lemma exists_pack {f : Files} (c : Card) (hfit : ∀ s, usedSec (f.file s) ≤ s.maxSec)
    (hne : ∀ s, f.file s ≠ []) : ∃ c', Sd.pack f c = .ok c' := by
  have hused : ∀ s, 0 < usedSec (f.file s) ∧ usedSec (f.file s) ≤ 4000 ∧
      (f.file s).length < 2 ^ 32 := by
    intro s
    have h1 := hfit s
    have h2 : s.maxSec ≤ 4000 := by cases s <;> decide
    have h3 := List.length_pos_iff.2 (hne s)
    simp only [usedSec, sector] at *
    omega
  have hok : ∀ s : Slot, (⟨s.lba, padSector (f.file s)⟩ : Segment).Ok := by
    intro s
    have h1 := hused s
    have h2 : s.lba + s.maxSec ≤ 8009 := s.bounds.2
    have h3 := hfit s
    refine ⟨?_, ?_, ?_, ?_⟩
    · rw [length_padSector, Nat.mul_mod_right]
    all_goals
      rw [segment_secCount]
      try simp only
      omega
  obtain ⟨hdr, hhdr⟩ :
      ∃ hdr, buildHeader f.image.length f.dtb.length f.initrd.length = .ok hdr := by
    refine ⟨_, (buildHeader_eq_ok_iff _ _ _ _).2 ⟨?_, rfl⟩⟩
    have h1 := (hused .image).2.2
    have h2 := (hused .dtb).2.2
    have h3 := (hused .initrd).2.2
    simp only [Files.file] at h1 h2 h3
    simp only [layoutFields, List.forall_mem_cons]
    exact ⟨h1, h2, h3, by decide⟩
  have hhdrOk : (⟨hdrLba, hdr⟩ : Segment).Ok := by
    have hone : hdr.length = 512 := (parseHeader_buildHeader hhdr).1
    refine ⟨?_, ?_, ?_, ?_⟩ <;> simp [Segment.secCount, hone, sector, hdrLba]
  refine ⟨c.write (([⟨hdrLba, hdr⟩, ⟨imgLba, padSector f.image⟩, ⟨dtbLba, padSector f.dtb⟩,
      ⟨irdLba, padSector f.initrd⟩] : List Segment).flatMap Segment.writes),
    bind_eq_ok.2 ⟨(), (checkSlots_eq_ok_iff _ f).2 hfit,
      bind_eq_ok.2 ⟨hdr, hhdr, if_pos ⟨by simp, ?_⟩⟩⟩⟩
  simp only [List.forall_mem_cons]
  exact ⟨hhdrOk, hok .image, hok .dtb, hok .initrd, nofun⟩

section Slots

variable {f : Files} (hfit : ∀ s, usedSec (f.file s) ≤ s.maxSec)
include hfit

/-- Writing slots leaves the sectors outside them. -/
lemma write_slots_outside (l : List Slot) (c : Card) {n : ℕ} (hn : n < 2 ^ 32)
    (h : ∀ s ∈ l, n < s.lba ∨ s.lba + s.maxSec ≤ n) :
    c.write ((l.map fun s => ⟨s.lba, padSector (f.file s)⟩).flatMap Segment.writes)
      (BitVec.ofNat 32 n) = c (BitVec.ofNat 32 n) := by
  induction l generalizing c with
  | nil => rfl
  | cons s l ih =>
    have hs := h s (by simp)
    have hle := hfit s
    have hend : s.lba + s.maxSec ≤ 8009 := s.bounds.2
    rw [List.map_cons, List.flatMap_cons, Card.write_append, ih _ fun t ht => h t (by simp [ht])]
    refine Segment.write_outside _ c hn ?_ ?_ <;> rw [segment_secCount] <;> simp only <;> omega

/-- A written slot holds its file. -/
lemma write_slots_holds (l : List Slot) (hl : l.Nodup) (c : Card) {s : Slot} (hs : s ∈ l) :
    Holds (c.write ((l.map fun s => ⟨s.lba, padSector (f.file s)⟩).flatMap Segment.writes)) s
      (f.file s) := by
  induction l generalizing c with
  | nil => simp at hs
  | cons t l ih =>
    have hend : t.lba + t.maxSec ≤ 8009 := t.bounds.2
    have hle := hfit t
    rw [List.map_cons, List.flatMap_cons, Card.write_append]
    rcases List.mem_cons.1 hs with rfl | hs
    · intro i hi
      rw [write_slots_outside hfit l _ (by omega) fun u hu => ?_]
      · have hcount := segment_secCount s.lba (f.file s)
        exact Segment.write_inside _ c (by omega) (by simp only [hcount]; omega)
      · have hne : s ≠ u := fun h => (List.nodup_cons.1 hl).1 (h ▸ hu)
        have := Slot.disjoint hne
        omega
    · exact ih (List.nodup_cons.1 hl).2 _ hs

end Slots

/-- What a successful run leaves on the card: a header with the sizes of the local files, the
local files in the selected slots, and the old content in the other ones. -/
structure RunSpec (r : Run) (c c' : Card) : Prop where
  fits : ∀ s, usedSec (r.files.file s) ≤ s.maxSec
  header : parseHeader (readHeader c') = .ok (layoutHeader r.files.image.length
    r.files.dtb.length r.files.initrd.length)
  selected : ∀ s, r.selects s = true → Holds c' s (r.files.file s)
  kept : ∀ s g, r.selects s = false → usedSec g ≤ s.maxSec → Holds c s g → Holds c' s g

/-- Every successful run meets `RunSpec`. -/
theorem Run.exec_spec {r : Run} {c c' : Card} (h : r.exec c = .ok c') : RunSpec r c c' := by
  obtain ⟨hfit, hdr, hhdr, rfl⟩ := Run.exec_eq_ok h
  obtain ⟨hlen, hparse⟩ := parseHeader_buildHeader hhdr
  have hone : (⟨hdrLba, hdr⟩ : Segment).secCount = 1 := by
    rw [Segment.secCount, hlen]
    rfl
  have hend : hdrLba + (⟨hdrLba, hdr⟩ : Segment).secCount = 1 := by rw [hone]; rfl
  rw [List.flatMap_cons, Card.write_append]
  refine ⟨hfit, ?_, fun s hs => ?_, fun s g hs hg hold => ?_⟩
  · rw [readHeader, slotSegments, write_slots_outside hfit _ _ (by decide) fun s _ => ?_]
    · have hsec : c.write (⟨hdrLba, hdr⟩ : Segment).writes (BitVec.ofNat 32 hdrLba) =
          sectorAt hdr 0 :=
        Segment.write_inside ⟨hdrLba, hdr⟩ c (i := 0) (by omega) (by simp only; omega)
      rw [hsec, bytes_sectorAt_zero hlen, hparse]
    · have := s.bounds.1
      exact Or.inl this
  · exact write_slots_holds hfit _ (Slot.nodup_all.filter _) _ (List.mem_filter.2 ⟨s.mem_all, hs⟩)
  · intro i hi
    have hslot : s.lba + s.maxSec ≤ 8009 := s.bounds.2
    rw [slotSegments, write_slots_outside hfit _ _ (by omega) fun t ht => ?_]
    · have := s.bounds.1
      rw [Segment.write_outside _ c (by omega) (by simp only; omega)
        (Or.inr (by simp only; omega)), hold i hi]
    · have hne : s ≠ t := by
        rintro rfl
        simp [hs] at ht
      have := Slot.disjoint hne
      omega

/-! ### Consistency -/

/-- Every local file that a run does not write has the length of the file in its slot. -/
def KeepsLengths (g : Files) (r : Run) : Prop :=
  ∀ s, r.selects s = false → (r.files.file s).length = (g.file s).length

/-- The slots hold the files `g`, which fit. -/
def Stored (c : Card) (g : Files) : Prop :=
  ∀ s, usedSec (g.file s) ≤ s.maxSec ∧ Holds c s (g.file s)

lemma file_store (r : Run) (g : Files) (s : Slot) :
    (r.store g).file s = if r.selects s then r.files.file s else g.file s := by
  cases s <;> rfl

lemma size_layoutHeader (f : Files) (s : Slot) :
    (layoutHeader f.image.length f.dtb.length f.initrd.length).size s = (f.file s).length := by
  cases s <;> rfl

/-- A run keeps the slots in step with the files that it is meant to have stored. -/
lemma RunSpec.stored {r : Run} {c c' : Card} {g : Files} (h : RunSpec r c c')
    (hg : ∀ s, r.selects s = false → usedSec (g.file s) ≤ s.maxSec ∧ Holds c s (g.file s)) :
    Stored c' (r.store g) := by
  intro s
  rw [file_store]
  cases hs : r.selects s with
  | true => exact ⟨h.fits s, h.selected s hs⟩
  | false => exact ⟨(hg s hs).1, h.kept s _ hs (hg s hs).1 (hg s hs).2⟩

/-- A run leaves a consistent card when the files that it does not write have kept their
lengths, and only then. -/
lemma RunSpec.consistent_iff {r : Run} {c c' : Card} {g : Files} (h : RunSpec r c c')
    (hst : Stored c' (r.store g)) : Consistent c' (r.store g) ↔ KeepsLengths g r := by
  have hsize : ∀ s, (layoutHeader r.files.image.length r.files.dtb.length
      r.files.initrd.length).size s = ((r.store g).file s).length ↔
      (r.selects s = false → (r.files.file s).length = (g.file s).length) := by
    intro s
    rw [size_layoutHeader, file_store]
    cases r.selects s <;> simp
  constructor
  · rintro ⟨hdr, hp, hc⟩ s
    rw [h.header, Except.ok.injEq] at hp
    subst hp
    exact (hsize s).1 (hc s).1
  · intro hk
    exact ⟨_, h.header, fun s => ⟨(hsize s).2 (hk s), (hst s).2⟩⟩

lemma runs_concat (rs : List Run) {r : Run} {c c' : Card} :
    runs (rs ++ [r]) c = .ok c' ↔ ∃ c₁, runs rs c = .ok c₁ ∧ r.exec c₁ = .ok c' := by
  simp only [runs, List.foldlM_append, List.foldlM_cons, List.foldlM_nil, bind_pure, bind_eq_ok]

lemma storedBy_concat (rs : List Run) (r : Run) (g : Files) :
    storedBy (rs ++ [r]) g = r.store (storedBy rs g) := by
  simp [storedBy]

/-- After `sd_pack` and any successful runs, the slots hold what was stored last. -/
lemma stored_runs {f : Files} {rs : List Run} {c c' : Card} (h : runs (.pack f :: rs) c = .ok c') :
    Stored c' (storedBy rs f) := by
  induction rs using List.reverseRecOn generalizing c' with
  | nil =>
    obtain ⟨c₁, -, hc'⟩ := (runs_concat []).1 h
    exact (Run.exec_spec hc').stored (g := f) nofun
  | append_singleton rs r ih =>
    rw [← List.cons_append] at h
    obtain ⟨c₁, hc₁, hc'⟩ := (runs_concat _).1 h
    rw [storedBy_concat]
    exact (Run.exec_spec hc').stored fun s _ => ih hc₁ s

/-- **When the card stays consistent.**  In a history that starts with `sd_pack`, the card is
consistent after every run exactly when, in every run, the local files that it does not write have
the lengths of the files in their slots. -/
theorem consistent_iff_keepsLengths (c : Card) (f : Files) (rs : List Run) :
    (∀ pre, pre <+: rs → ∀ c', runs (.pack f :: pre) c = .ok c' →
        Consistent c' (storedBy pre f)) ↔
      ∀ pre r, pre ++ [r] <+: rs → ∀ c', runs (.pack f :: (pre ++ [r])) c = .ok c' →
        KeepsLengths (storedBy pre f) r := by
  have hstep : ∀ pre r c', runs (.pack f :: (pre ++ [r])) c = .ok c' →
      (Consistent c' (storedBy (pre ++ [r]) f) ↔ KeepsLengths (storedBy pre f) r) := by
    intro pre r c' h
    have hst := stored_runs h
    rw [← List.cons_append] at h
    obtain ⟨c₁, -, hc'⟩ := (runs_concat _).1 h
    rw [storedBy_concat] at hst ⊢
    exact (Run.exec_spec hc').consistent_iff hst
  constructor
  · intro hall pre r hpre c' h
    exact (hstep pre r c' h).1 (hall _ hpre c' h)
  · intro hall pre hpre c' h
    rcases List.eq_nil_or_concat pre with rfl | ⟨pre, r, rfl⟩
    · have hst := stored_runs h
      obtain ⟨c₁, -, hc'⟩ := (runs_concat []).1 h
      exact ((Run.exec_spec hc').consistent_iff (g := f) hst).2 nofun
    · rw [List.concat_eq_append] at *
      exact (hstep pre r c' h).2 (hall pre r hpre c' h)

/-- An initrd-only update after the local Image has grown by a byte: the header has the size of an
Image that is not on the card. -/
theorem update_stale_header :
    let f : Files := ⟨[1], [2], [3]⟩
    let up : Run := .update ⟨false, false, true, true⟩ ⟨[1, 1], [2], [3]⟩
    ∃ c', runs [.pack f, up] (fun _ _ => 0) = .ok c' ∧ ¬ Consistent c' (storedBy [up] f) := by
  intro f up
  have hok : (runs [.pack f, up] fun _ _ => 0).isOk = true := by decide +kernel
  obtain ⟨c', hc'⟩ : ∃ c', runs [.pack f, up] (fun _ _ => 0) = .ok c' := by
    cases h : runs [.pack f, up] fun _ _ => 0 with
    | error e => rw [h] at hok; exact absurd hok (by simp [Except.isOk, Except.toBool])
    | ok c' => exact ⟨c', rfl⟩
  refine ⟨c', hc', fun ⟨h, hp, hsize⟩ => ?_⟩
  obtain ⟨c₁, -, hup⟩ := (runs_concat [.pack f]).1 hc'
  rw [(Run.exec_spec hup).header, Except.ok.injEq] at hp
  have := (hsize .image).1
  rw [← hp] at this
  exact absurd this (by decide)

end Neorv32Boot.Sd
