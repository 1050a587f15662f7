import Neorv32Boot.Stage2.Program

/-!
# Programs that leave the card alone

The functions of stage2 that make no call of the driver keep every invariant that has nothing to say
about the line but what is still to come, nor about the SDRAM and the baud rate.  Those that do not
read either keep one that says what has come.  Which functions these are is found by looking at
their parts, and so is which functions never return.
-/

namespace Neorv32Boot.Stage2

open Prog

variable {σ α β : Type} {line : Bool}

/-- An invariant about the card.  It may say what is still to come of the input, and what has come
if the line is not to be read. -/
structure Coarse (line : Bool) (I : World σ → Prop) : Prop where
  input : line = true → ∀ w c rest, w.input = c :: rest → I w → I { w with input := rest }
  output : ∀ w o, I w → I { w with output := o }
  ram : ∀ w m, I w → I { w with ram := m }
  baud : ∀ w b, I w → I { w with baud := b }

/-- The program makes no call of the driver, and it reads the line only if it may. -/
class Inert (line : Bool) (p : Loader σ α) : Prop where
  keeps : ∀ I, Coarse line I → Keeps I p

/-- The program does not return. -/
class Final (p : Loader σ α) : Prop where
  stops : ∀ w, wp p (fun _ _ => False) (fun _ _ => True) w

/-! ### Parts -/

instance (a : α) : Inert line (pure a : Loader σ α) := ⟨fun _ _ => keeps_pure a⟩

instance (e : Stop) : Inert line (throw e : Loader σ α) := ⟨fun _ _ => keeps_throw e⟩

instance : Inert line (get : Loader σ (World σ)) := ⟨fun _ _ => keeps_get⟩

lemma Inert.bind {p : Loader σ α} {f : α → Loader σ β} (hp : Inert line p)
    (hf : ∀ a, Inert line (f a)) : Inert line (p >>= f) :=
  ⟨fun I hI => keeps_bind (hp.keeps I hI) fun a => (hf a).keeps I hI⟩

instance (p : Loader σ α) (f : α → Loader σ β) [hp : Inert line p] [hf : ∀ a, Inert line (f a)] :
    Inert line (p >>= f) := hp.bind hf

lemma Inert.ite {c : Prop} [Decidable c] {p q : Loader σ α} (hp : Inert line p)
    (hq : Inert line q) : Inert line (if c then p else q) :=
  ⟨fun I hI => keeps_ite (fun _ => hp.keeps I hI) fun _ => hq.keeps I hI⟩

instance (c : Prop) [Decidable c] (p q : Loader σ α) [hp : Inert line p] [hq : Inert line q] :
    Inert line (if c then p else q) := hp.ite hq

instance (body : ℕ → Loader σ Unit) (i n : ℕ) [h : ∀ i, Inert line (body i)] :
    Inert line (upFrom body i n) :=
  ⟨fun I hI => keeps_upFrom (fun i => (h i).keeps I hI) i n⟩

instance (p : Loader σ α) (n : ℕ) [h : Inert line p] : Inert line (times p n) :=
  ⟨fun I hI => keeps_times (h.keeps I hI) n⟩

instance (size : World σ → ℕ) (dry : Stop) (body : β → Loader σ (β ⊕ α)) (x : β)
    [h : ∀ x, Inert line (body x)] : Inert line (loop size dry body x) :=
  ⟨fun I hI => keeps_loop (fun x => (h x).keeps I hI) x⟩

/-! ### The serial line and the SDRAM -/

instance (bs : List Byte) : Inert line (emit bs : Loader σ Unit) :=
  ⟨fun _ hI => keeps_modify fun w hw => hI.output w _ hw⟩

instance (s : String) : Inert line (puts s : Loader σ Unit) := inferInstanceAs (Inert line (emit _))

instance : Inert line (halt : Loader σ α) := inferInstanceAs (Inert line (throw _))

instance (m : Sd.Ram) : Inert line (modify fun w => { w with ram := m } : Loader σ PUnit) :=
  ⟨fun _ hI => keeps_modify fun w hw => hI.ram w _ hw⟩

instance (a : BitVec 32) (bs : List Byte) : Inert line (storeBytes a bs : Loader σ Unit) :=
  .ite ⟨fun _ hI => keeps_modify fun w hw => hI.ram w _ hw⟩ inferInstance

instance (b : BitVec 32) : Inert line (modify fun w => { w with baud := b } : Loader σ PUnit) :=
  ⟨fun _ hI => keeps_modify fun w hw => hI.baud w _ hw⟩

instance : Inert true (getc : Loader σ (Option Byte)) := by
  refine ⟨fun I hI w hw => ?_⟩
  simp only [getc, wp_bind, wp_get]
  cases h : w.input with
  | nil => exact hw
  | cons c rest => exact hI.input rfl w c rest h hw

/-- Input that has been read. -/
lemma Coarse.drop {I : World σ → Prop} (hI : Coarse true I) (used rest : List (Option Byte))
    {w : World σ} (h : w.input = used ++ rest) (hw : I w) : I { w with input := rest } := by
  induction used generalizing w with
  | nil => rwa [← show w.input = rest from h]
  | cons c used ih => exact ih (w := { w with input := used ++ rest }) rfl (hI.input rfl w c _ h hw)

instance : Inert true (rawRecv : Loader σ Byte) := by
  refine ⟨fun I hI w hw => ?_⟩
  simp only [rawRecv, wp_bind, wp_get]
  cases h : nextByte w.input with
  | none => exact hI.drop w.input [] (List.append_nil _).symm hw
  | some r =>
    have hr : nextByte w.input = some (r.1, r.2) := h
    obtain ⟨silence, hs, -⟩ := nextByte_eq_some hr
    exact hI.drop (silence ++ [some r.1]) r.2 (by rw [hs, List.append_assoc]; rfl) hw

instance : Inert true (recvU32 : Loader σ (BitVec 32)) := by
  unfold recvU32
  infer_instance

/-! ### The receiver -/

instance (n : ℕ) : Inert true (recvBlock n : Loader σ (Option (List Byte))) := by
  induction n with
  | zero => exact inferInstanceAs (Inert true (pure _))
  | succ n ih =>
    have hc : ∀ c : Option Byte, Inert true (match c with
        | none => pure none
        | some b => do
          let rest ← recvBlock n
          pure (rest.map (b :: ·)) : Loader σ (Option (List Byte))) := by
      rintro (_ | b) <;> infer_instance
    exact inferInstanceAs (Inert true (getc >>= _))

instance (x : Xfer) : Inert true (nakRound x : Loader σ (Xfer ⊕ BitVec 32)) := by
  unfold nakRound
  infer_instance

instance (dest : BitVec 32) (x : Xfer) :
    Inert true (xmodemFrame dest x : Loader σ (Xfer ⊕ BitVec 32)) := by
  unfold xmodemFrame
  refine .bind inferInstance fun bn => .bind inferInstance fun bnc => ?_
  rcases bn with _ | bn <;> rcases bnc with _ | bnc <;> try infer_instance
  refine .bind inferInstance fun buf => ?_
  rcases buf with _ | buf
  · infer_instance
  · refine .bind inferInstance fun csum => ?_
    rcases csum with _ | csum <;> infer_instance

instance (dest : BitVec 32) (x : Xfer) :
    Inert true (xmodemRound dest x : Loader σ (Xfer ⊕ BitVec 32)) := by
  unfold xmodemRound
  refine .bind inferInstance fun c => ?_
  rcases c with _ | c <;> infer_instance

instance (dest : BitVec 32) : Inert true (xmodemReceive dest : Loader σ (BitVec 32)) := by
  unfold xmodemReceive
  infer_instance

instance (dest size : BitVec 32) : Inert line (crcAt dest size : Loader σ (BitVec 32)) := by
  unfold crcAt
  infer_instance

instance (dest : BitVec 32) (name : String) :
    Inert true (xmodemReceiveVerified dest name : Loader σ (BitVec 32)) := by
  unfold xmodemReceiveVerified
  repeat' first | refine .bind inferInstance fun _ => ?_ | refine .ite ?_ ?_ | infer_instance

/-! ### The modes -/

instance (addr : BitVec 32) (n : ℕ) : Inert line (dumpWords addr n : Loader σ Unit) := by
  have hword : ∀ i, Inert line (dumpWord addr i : Loader σ Unit) := by
    intro i
    unfold dumpWord dumpHead
    infer_instance
  unfold dumpWords
  infer_instance

instance (head : String) (size crc : BitVec 32) :
    Inert line (reportSize head size crc : Loader σ Unit) := by
  unfold reportSize
  infer_instance

instance : Inert true (retryUboot : Loader σ Unit) := by
  unfold retryUboot
  repeat' first | refine .bind inferInstance fun _ => ?_ | refine .ite ?_ ?_ | infer_instance

instance (resp : Option Byte) : Inert true (settleCrc resp : Loader σ Unit) := by
  unfold settleCrc
  infer_instance

instance : Inert true (modeUboot : Loader σ Unit) := by
  unfold modeUboot
  repeat' first | refine .bind inferInstance fun _ => ?_ | refine .ite ?_ ?_ | infer_instance

instance : Inert true (modeSetBaud : Loader σ Unit) := by
  unfold modeSetBaud
  infer_instance

instance (dtb : BitVec 32) (n : ℕ) (size : BitVec 32) :
    Inert line (patchDtb dtb n size : Loader σ ℕ) := by
  unfold patchDtb
  repeat' first | infer_instance | refine .bind inferInstance fun _ => ?_

instance : Inert line (jumpToKernel : Loader σ Unit) := inferInstanceAs (Inert line (throw _))

instance : Inert line (noSentinel : Loader σ Unit) := by
  unfold noSentinel
  infer_instance

instance (head tail : String) (v : BitVec 32) :
    Inert line (putsHex head v tail : Loader σ Unit) := by
  unfold putsHex
  infer_instance

instance (a : BitVec 32) : Inert line (callTest a : Loader σ Unit) := by
  unfold callTest
  infer_instance

instance (kernelSize dtbSize initrdSize : BitVec 32) :
    Inert line (launch kernelSize dtbSize initrdSize : Loader σ Unit) := by
  unfold launch
  repeat' first | refine .bind inferInstance fun _ => ?_ | infer_instance

instance : Inert true (modeLinux : Loader σ Unit) := by
  unfold modeLinux
  repeat' first | refine .bind inferInstance fun _ => ?_ | refine .ite ?_ ?_ | infer_instance

instance (base : BitVec 32) (i n errors : ℕ) :
    Inert line (checkWords base i n errors : Loader σ ℕ) := by
  induction n generalizing i errors with
  | zero => exact inferInstanceAs (Inert line (pure _))
  | succ n ih =>
    unfold checkWords
    repeat' first | refine .bind inferInstance fun _ => ?_ | refine .ite ?_ ?_ | infer_instance

instance : Inert line (sdramTest : Loader σ Bool) := by
  unfold sdramTest
  infer_instance

instance (clk : BitVec 32) : Inert line (startUp clk : Loader σ Unit) := by
  unfold startUp
  infer_instance

/-! ### Programs that do not return -/

lemma Final.wp {p : Loader σ α} (h : Final p) {Q Q' : α → World σ → Prop}
    {E : Stop → World σ → Prop} {w : World σ} (hp : wp p Q E w) : wp p Q' E w := by
  rcases wp_cases (h.stops w) with ⟨_, _, -, hfalse⟩ | ⟨e, w', hexec, -⟩
  · exact hfalse.elim
  · rw [wp_of_error hexec] at hp ⊢
    exact hp

instance (e : Stop) : Final (throw e : Loader σ α) := ⟨fun _ => trivial⟩

instance : Final (halt : Loader σ α) := inferInstanceAs (Final (throw _))

lemma Final.bind {p : Loader σ α} {f : α → Loader σ β} (hf : ∀ a, Final (f a)) :
    Final (p >>= f) := by
  refine ⟨fun w => ?_⟩
  rw [wp_bind]
  rcases hp : exec p w with ⟨e | a, w'⟩
  · exact (wp_of_error hp).2 trivial
  · exact (wp_of_ok hp).2 ((hf a).stops w')

instance (p : Loader σ α) (f : α → Loader σ β) [hf : ∀ a, Final (f a)] : Final (p >>= f) := .bind hf

lemma Final.ite {c : Prop} [Decidable c] {p q : Loader σ α} (hp : Final p) (hq : Final q) :
    Final (if c then p else q) :=
  ⟨fun w => wp_ite (fun _ => hp.stops w) fun _ => hq.stops w⟩

instance (c : Prop) [Decidable c] (p q : Loader σ α) [hp : Final p] [hq : Final q] :
    Final (if c then p else q) := hp.ite hq

instance : Final (jumpToKernel : Loader σ Unit) := inferInstanceAs (Final (throw _))

instance : Final (noSentinel : Loader σ Unit) := by
  unfold noSentinel
  infer_instance

instance : Final (modeUboot : Loader σ Unit) := by
  unfold modeUboot
  repeat' first | refine .bind fun _ => ?_ | refine .ite ?_ ?_ | infer_instance

instance (kernelSize dtbSize initrdSize : BitVec 32) :
    Final (launch kernelSize dtbSize initrdSize : Loader σ Unit) := by
  unfold launch
  repeat' first | refine .bind fun _ => ?_ | infer_instance

instance : Final (modeLinux : Loader σ Unit) := by
  unfold modeLinux
  repeat' first | refine .bind fun _ => ?_ | refine .ite ?_ ?_ | infer_instance

instance (bus : Bus Byte σ) (h : Sd.SdBootHdr) : Final (bootSections bus h : Loader σ Unit) := by
  unfold bootSections
  repeat' first | refine .bind fun _ => ?_ | refine .ite ?_ ?_ | infer_instance

instance (bus : Bus Byte σ) : Final (modeSdBoot bus : Loader σ Unit) := by
  unfold modeSdBoot
  repeat' first | refine .bind fun _ => ?_ | refine .ite ?_ ?_ | infer_instance

end Neorv32Boot.Stage2
