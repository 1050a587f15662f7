import Neorv32Boot.Stage2.OnCard
import Neorv32Boot.Stage2.Program

/-!
# The endless loops of stage2

The loops of stage2 that have no bound in the source are bounded in the model by what is left of the
input.  The bound is of no account: a round of the dispatcher, and one of `xmodem_receive`, takes
input, and no function of stage2 puts any back.  So each of these loops is what it unrolls to, and
the program stops only where stage2 does: at the end of its input, in a `while (1) {}`, or in other
code.  Nor does a function know what is still to come.  So a run on the whole input is what stage2
does while the input comes in, and what the program prints on the first part of it is what the other
side has to read by then.
-/

namespace Neorv32Boot.Stage2

open Prog

variable {σ α β : Type}

/-- The same world with more behind its input. -/
def World.more (w : World σ) (rest : List (Option Byte)) : World σ :=
  { w with input := w.input ++ rest }

/-- Stage2 waits only when nothing is left to read. -/
def AtEnd (e : Stop) (w : World σ) : Prop := e = .waiting → w.input = []

/-- What a run comes to when there is more behind its input: it does the same and leaves that, or it
has waited and goes on, and what it has printed stays. -/
inductive Resumes (rest : List (Option Byte)) :
    Except Stop α × World σ → Except Stop α × World σ → Prop
  | same (x : Except Stop α) (w : World σ) : Resumes rest (x, w) (x, w.more rest)
  | on {w : World σ} {r : Except Stop α × World σ} (h : w.output <+: r.2.output) :
      Resumes rest (.error .waiting, w) r

lemma Resumes.output {rest : List (Option Byte)} {r r' : Except Stop α × World σ}
    (h : Resumes rest r r') : r.2.output <+: r'.2.output := by
  cases h with
  | same => exact List.prefix_rfl
  | on hout => exact hout

/-- The program puts nothing back into the input and waits only at the end of it, takes back nothing
that it has printed, and does not know what is still to come. -/
class Diligent (p : Loader σ α) : Prop where
  runs : ∀ w, wp p (fun _ w' => w'.size ≤ w.size) AtEnd w
  grows : ∀ w, w.output <+: (exec p w).2.output
  resumes : ∀ w rest, Resumes rest (exec p w) (exec p (w.more rest))

/-- The program takes some input, if it returns. -/
def Eager (p : Loader σ α) : Prop := ∀ w, wp p (fun _ w' => w'.size < w.size) AtEnd w

/-! ### Parts -/

instance (a : α) : Diligent (pure a : Loader σ α) where
  runs _ := le_rfl
  grows _ := List.prefix_rfl
  resumes _ _ := .same _ _

lemma Diligent.stop {e : Stop} (h : e ≠ .waiting) : Diligent (throw e : Loader σ α) where
  runs _ he := absurd he h
  grows _ := List.prefix_rfl
  resumes _ _ := .same _ _

lemma Diligent.modify {f : World σ → World σ} (hin : ∀ w, (f w).input = w.input)
    (hout : ∀ w, w.output <+: (f w).output) (hmore : ∀ w rest, f (w.more rest) = (f w).more rest) :
    Diligent (modify f : Loader σ PUnit) where
  runs w := (congrArg List.length (hin w)).le
  grows w := hout w
  resumes w rest := by
    rw [exec_modify, exec_modify, hmore]
    exact .same _ _

/-- What does not look at the input may look at the world. -/
lemma Diligent.get_bind {f : World σ → Loader σ β} (hf : ∀ w, Diligent (f w))
    (hmore : ∀ w rest, f (w.more rest) = f w) : Diligent (get >>= f) where
  runs w := (hf w).runs w
  grows w := (hf w).grows w
  resumes w rest := by
    have h := (hf w).resumes w rest
    rw [← hmore w rest] at h
    nth_rewrite 1 [hmore w rest] at h
    exact h

lemma exec_bind_grows {p : Loader σ α} {f : α → Loader σ β} (hf : ∀ a, Diligent (f a))
    (w : World σ) : (exec p w).2.output <+: (exec (p >>= f) w).2.output := by
  rw [exec_bind]
  rcases exec p w with ⟨e | a, w'⟩
  · exact List.prefix_rfl
  · exact (hf a).grows w'

lemma Diligent.bind {p : Loader σ α} {f : α → Loader σ β} (hp : Diligent p)
    (hf : ∀ a, Diligent (f a)) : Diligent (p >>= f) where
  runs w := by
    refine wp_seq (hp.runs w) fun a w' hle => ?_
    exact wp_mono (fun _ _ hle' => hle'.trans hle) (fun _ _ h => h) ((hf a).runs w')
  grows w := (hp.grows w).trans (exec_bind_grows hf w)
  resumes w rest := by
    have h := hp.resumes w rest
    have hgrows := exec_bind_grows (p := p) hf (w.more rest)
    rw [exec_bind, exec_bind]
    rw [exec_bind] at hgrows
    generalize exec p w = r at h
    generalize exec p (w.more rest) = r' at h hgrows
    cases h with
    | same x w' =>
      cases x with
      | error e => exact .same _ _
      | ok a => exact (hf a).resumes w' rest
    | on hout => exact .on (hout.trans hgrows)

instance (p : Loader σ α) (f : α → Loader σ β) [hp : Diligent p] [hf : ∀ a, Diligent (f a)] :
    Diligent (p >>= f) := hp.bind hf

/-- Some input is taken at the beginning. -/
lemma Eager.bind {p : Loader σ α} {f : α → Loader σ β} (hp : Eager p)
    (hf : ∀ a, Diligent (f a)) : Eager (p >>= f) := by
  refine fun w => wp_seq (hp w) fun a w' hlt => ?_
  exact wp_mono (fun _ _ hle => lt_of_le_of_lt hle hlt) (fun _ _ h => h) ((hf a).runs w')

/-- Some input is taken later. -/
lemma Diligent.bind_eager {p : Loader σ α} {f : α → Loader σ β} (hp : Diligent p)
    (hf : ∀ a, Eager (f a)) : Eager (p >>= f) := by
  refine fun w => wp_seq (hp.runs w) fun a w' hle => ?_
  exact wp_mono (fun _ _ hlt => lt_of_lt_of_le hlt hle) (fun _ _ h => h) (hf a w')

lemma Diligent.ite {c : Prop} [Decidable c] {p q : Loader σ α} (hp : Diligent p)
    (hq : Diligent q) : Diligent (if c then p else q) := by
  split_ifs
  · exact hp
  · exact hq

instance (c : Prop) [Decidable c] (p q : Loader σ α) [hp : Diligent p] [hq : Diligent q] :
    Diligent (if c then p else q) := hp.ite hq

instance (body : ℕ → Loader σ Unit) (i n : ℕ) [h : ∀ i, Diligent (body i)] :
    Diligent (upFrom body i n) := by
  induction n generalizing i with
  | zero => exact inferInstanceAs (Diligent (pure _))
  | succ n ih => exact (h i).bind fun _ => ih (i + 1)

instance (p : Loader σ α) (n : ℕ) [h : Diligent p] : Diligent (times p n) := by
  induction n with
  | zero => exact inferInstanceAs (Diligent (pure _))
  | succ n ih => exact h.bind fun _ => ih.bind fun _ => inferInstance

/-! ### Loops -/

section Loop

variable {body : β → Loader σ (β ⊕ α)}

/-- A loop whose rounds take input is what it unrolls to. -/
lemma Eager.uses (h : ∀ x, Eager (body x)) : Uses World.size body := by
  intro x w x' w' hx
  exact (wp_of_ok hx).1 (h x w)

lemma rounds_grows (hd : ∀ x, Diligent (body x)) (n : ℕ) (x : β) (w : World σ) :
    w.output <+: (exec (rounds .waiting body n x) w).2.output := by
  induction n generalizing x w with
  | zero => exact List.prefix_rfl
  | succ n ih =>
    rw [rounds, exec_bind]
    have hgrows := (hd x).grows w
    generalize exec (body x) w = r at hgrows ⊢
    rcases r with ⟨e | x' | a, w'⟩
    · exact hgrows
    · exact hgrows.trans (ih x' w')
    · exact hgrows

/-- More input means more rounds, and the first ones are the same. -/
lemma rounds_resumes (h : ∀ x, Eager (body x)) (hd : ∀ x, Diligent (body x))
    {rest : List (Option Byte)} {n m : ℕ} (x : β) (w : World σ) (hn : w.size < n)
    (hm : w.size + rest.length < m) :
    Resumes rest (exec (rounds .waiting body n x) w)
      (exec (rounds .waiting body m x) (w.more rest)) := by
  induction n generalizing m x w with
  | zero => exact absurd hn (Nat.not_lt_zero _)
  | succ n ih =>
    obtain ⟨m, rfl⟩ := Nat.exists_eq_add_of_lt (Nat.zero_lt_of_lt hm)
    have hround := (hd x).resumes w rest
    have hless := h x w
    have hgrows : (exec (body x) (w.more rest)).2.output <+:
        (exec (rounds .waiting body (0 + m + 1) x) (w.more rest)).2.output := by
      rw [rounds, exec_bind]
      rcases exec (body x) (w.more rest) with ⟨e | x' | a, w'⟩
      · exact List.prefix_rfl
      · exact rounds_grows hd _ _ _
      · exact List.prefix_rfl
    rw [rounds, exec_bind] at hgrows ⊢
    rw [rounds, exec_bind]
    rw [wp] at hless
    generalize exec (body x) w = r at hround hless
    generalize exec (body x) (w.more rest) = r' at hround hgrows
    cases hround with
    | same y w' =>
      rcases y with e | x' | a
      · exact .same _ _
      · have hlt : w'.size < w.size := hless
        exact ih x' w' (by omega) (by omega)
      · exact .same _ _
    | on hout => exact .on (hout.trans hgrows)

/-- A loop whose rounds take input does not come to its bound. -/
lemma Diligent.loop (h : ∀ x, Eager (body x)) (hd : ∀ x, Diligent (body x)) (x : β) :
    Diligent (loop World.size .waiting body x) where
  runs w := by
    refine wp_loop (fun _ w' => w'.size ≤ w.size) le_rfl fun x w₁ hle => ?_
    refine wp_mono ?_ (fun _ _ h => h) (h x w₁)
    rintro (x' | a) w₂ hlt
    · exact ⟨hlt.le.trans hle, hlt⟩
    · exact hlt.le.trans hle
  grows w := rounds_grows hd _ x w
  resumes w rest := by
    rw [exec_loop, exec_loop]
    refine rounds_resumes h hd x w (Nat.lt_succ_self _) ?_
    rw [World.more, World.size, World.size, List.length_append]
    exact Nat.lt_succ_self _

end Loop

/-! ### The serial line, the SDRAM and the driver -/

instance (bs : List Byte) : Diligent (emit bs : Loader σ Unit) :=
  .modify (fun _ => rfl) (fun w => List.prefix_append w.output bs) fun _ _ => rfl

instance (s : String) : Diligent (puts s : Loader σ Unit) := inferInstanceAs (Diligent (emit _))

instance : Diligent (halt : Loader σ α) := .stop nofun

instance (m : Sd.Ram) : Diligent (modify fun w => { w with ram := m } : Loader σ PUnit) :=
  .modify (fun _ => rfl) (fun _ => List.prefix_rfl) fun _ _ => rfl

instance (a : BitVec 32) (bs : List Byte) : Diligent (storeBytes a bs : Loader σ Unit) :=
  .ite (.modify (fun _ => rfl) (fun _ => List.prefix_rfl) fun _ _ => rfl) (.stop nofun)

instance (b : BitVec 32) : Diligent (modify fun w => { w with baud := b } : Loader σ PUnit) :=
  .modify (fun _ => rfl) (fun _ => List.prefix_rfl) fun _ _ => rfl

lemma eager_getc : Eager (getc : Loader σ (Option Byte)) := by
  refine fun w => wp_getc (fun hnil _ => hnil) fun c rest h => ?_
  rw [World.size, World.size, h]
  exact Nat.lt_succ_self _

lemma exec_getc_nil {w : World σ} (h : w.input = []) :
    exec (getc : Loader σ (Option Byte)) w = (.error .waiting, w) := by
  rw [getc, exec_bind, exec_get]
  dsimp only
  rw [h]
  rfl

lemma exec_getc_cons {w : World σ} {c : Option Byte} {input : List (Option Byte)}
    (h : w.input = c :: input) : exec getc w = (.ok c, { w with input := input }) := by
  rw [getc, exec_bind, exec_get]
  dsimp only
  rw [h]
  rfl

instance : Diligent (getc : Loader σ (Option Byte)) := by
  have hgrows : ∀ w : World σ, w.output <+: (exec getc w).2.output := by
    intro w
    cases h : w.input with
    | nil => rw [exec_getc_nil h]
    | cons c input => rw [exec_getc_cons h]
  refine ⟨fun w => wp_mono (fun _ _ h => h.le) (fun _ _ h => h) (eager_getc w), hgrows,
    fun w rest => ?_⟩
  cases h : w.input with
  | nil =>
    rw [exec_getc_nil h]
    exact .on (hgrows (w.more rest))
  | cons c input =>
    have hmore : (w.more rest).input = c :: (input ++ rest) := by
      rw [World.more, h, List.cons_append]
    rw [exec_getc_cons h, exec_getc_cons hmore]
    exact .same _ _

lemma eager_rawRecv : Eager (rawRecv : Loader σ Byte) := by
  refine fun w => wp_rawRecv (fun _ _ => rfl) fun b used rest h hb => ?_
  rw [World.size, World.size, h, List.length_append]
  have hpos : 0 < used.length := by
    refine List.length_pos_iff.2 ?_
    rintro rfl
    cases hb
  exact Nat.lt_add_of_pos_left hpos

lemma exec_rawRecv_none {w : World σ} (h : nextByte w.input = none) :
    exec (rawRecv : Loader σ Byte) w = (.error .waiting, { w with input := [] }) := by
  rw [rawRecv, exec_bind, exec_get]
  dsimp only
  rw [h]
  rfl

lemma exec_rawRecv_some {w : World σ} {b : Byte} {input : List (Option Byte)}
    (h : nextByte w.input = some (b, input)) :
    exec rawRecv w = (.ok b, { w with input := input }) := by
  rw [rawRecv, exec_bind, exec_get]
  dsimp only
  rw [h]
  rfl

lemma nextByte_append {input input' : List (Option Byte)} {b : Byte}
    (h : nextByte input = some (b, input')) (rest : List (Option Byte)) :
    nextByte (input ++ rest) = some (b, input' ++ rest) := by
  induction input with
  | nil => cases h
  | cons c input ih =>
    cases c with
    | none => exact ih h
    | some b' =>
      obtain ⟨rfl, rfl⟩ : b' = b ∧ input = input' := by simpa [nextByte] using h
      rfl

instance : Diligent (rawRecv : Loader σ Byte) := by
  have hgrows : ∀ w : World σ, w.output <+: (exec rawRecv w).2.output := by
    intro w
    cases h : nextByte w.input with
    | none => rw [exec_rawRecv_none h]
    | some r =>
      obtain ⟨b, input⟩ := r
      rw [exec_rawRecv_some h]
  refine ⟨fun w => wp_mono (fun _ _ h => h.le) (fun _ _ h => h) (eager_rawRecv w), hgrows,
    fun w rest => ?_⟩
  cases h : nextByte w.input with
  | none =>
    rw [exec_rawRecv_none h]
    exact .on (hgrows (w.more rest))
  | some r =>
    obtain ⟨b, input⟩ := r
    rw [exec_rawRecv_some h, exec_rawRecv_some (w := w.more rest) (nextByte_append h rest)]
    exact .same _ _

instance : Diligent (recvU32 : Loader σ (BitVec 32)) := by
  rw [recvU32]
  infer_instance

section Driver

variable (bus : Bus Byte σ)

instance : Diligent (sdInit bus) where
  runs _ := le_rfl
  grows _ := List.prefix_rfl
  resumes _ _ := .same _ _

instance (lba : BitVec 32) : Diligent (sdReadBlock bus lba) where
  runs _ := le_rfl
  grows _ := List.prefix_rfl
  resumes _ _ := .same _ _

instance (lba : BitVec 32) (src : List Byte) : Diligent (sdWriteBlock bus lba src) where
  runs _ := le_rfl
  grows _ := List.prefix_rfl
  resumes _ _ := .same _ _

end Driver

/-! ### The receiver -/

instance (n : ℕ) : Diligent (recvBlock n : Loader σ (Option (List Byte))) := by
  induction n with
  | zero => exact inferInstanceAs (Diligent (pure _))
  | succ n ih =>
    have hc : ∀ c : Option Byte, Diligent (match c with
        | none => pure none
        | some b => do
          let rest ← recvBlock n
          pure (rest.map (b :: ·)) : Loader σ (Option (List Byte))) := by
      rintro (_ | b) <;> infer_instance
    exact inferInstanceAs (Diligent (getc >>= _))

instance (x : Xfer) : Diligent (nakRound x : Loader σ (Xfer ⊕ BitVec 32)) := by
  rw [nakRound]
  infer_instance

instance (dest : BitVec 32) (x : Xfer) :
    Diligent (xmodemFrame dest x : Loader σ (Xfer ⊕ BitVec 32)) := by
  rw [xmodemFrame]
  refine .bind inferInstance fun bn => .bind inferInstance fun bnc => ?_
  rcases bn with _ | bn <;> rcases bnc with _ | bnc <;> try infer_instance
  refine .bind inferInstance fun buf => ?_
  rcases buf with _ | buf
  · infer_instance
  · refine .bind inferInstance fun csum => ?_
    rcases csum with _ | csum <;> infer_instance

instance (dest : BitVec 32) (x : Xfer) :
    Diligent (xmodemRound dest x : Loader σ (Xfer ⊕ BitVec 32)) := by
  rw [xmodemRound]
  refine .bind inferInstance fun c => ?_
  rcases c with _ | c <;> infer_instance

/-- A round of the receiver takes the result of a call of `uart_getc_timeout`. -/
lemma eager_xmodemRound (dest : BitVec 32) (x : Xfer) :
    Eager (xmodemRound dest x : Loader σ (Xfer ⊕ BitVec 32)) := by
  rw [xmodemRound]
  refine eager_getc.bind fun c => ?_
  rcases c with _ | c <;> infer_instance

/-- The loop of `xmodem_receive` is `while (1)`, too. -/
lemma xmodemLoop_eq (dest : BitVec 32) (x : Xfer) :
    (loop World.size .waiting (xmodemRound dest) x : Loader σ (BitVec 32)) = (do
      match ← xmodemRound dest x with
      | .inl x' => loop World.size .waiting (xmodemRound dest) x'
      | .inr size => pure size) := by
  rw [loop_eq (Eager.uses (eager_xmodemRound dest)) x]
  refine bind_congr fun r => ?_
  cases r <;> rfl

instance (dest : BitVec 32) : Diligent (xmodemReceive dest : Loader σ (BitVec 32)) := by
  rw [xmodemReceive]
  exact .bind inferInstance fun _ => .loop (eager_xmodemRound dest) inferInstance _

instance (dest size : BitVec 32) : Diligent (crcAt dest size : Loader σ (BitVec 32)) := by
  rw [crcAt]
  exact .get_bind (fun _ => inferInstance) fun _ _ => rfl

instance (dest : BitVec 32) (name : String) :
    Diligent (xmodemReceiveVerified dest name : Loader σ (BitVec 32)) := by
  rw [xmodemReceiveVerified]
  repeat' first | refine .bind inferInstance fun _ => ?_ | refine .ite ?_ ?_ | infer_instance

/-! ### The modes of the serial line -/

instance (addr : BitVec 32) (n : ℕ) : Diligent (dumpWords addr n : Loader σ Unit) := by
  have hword : ∀ i, Diligent (dumpWord addr i : Loader σ Unit) := by
    intro i
    unfold dumpWord dumpHead
    refine .bind inferInstance fun _ => ?_
    exact .get_bind (fun _ => inferInstance) fun _ _ => rfl
  rw [dumpWords]
  infer_instance

instance (head : String) (size crc : BitVec 32) :
    Diligent (reportSize head size crc : Loader σ Unit) := by
  rw [reportSize]
  infer_instance

instance : Diligent (retryUboot : Loader σ Unit) := by
  rw [retryUboot]
  repeat' first | refine .bind inferInstance fun _ => ?_ | refine .ite ?_ ?_ | infer_instance

instance (resp : Option Byte) : Diligent (settleCrc resp : Loader σ Unit) := by
  rw [settleCrc]
  infer_instance

instance (pc : BitVec 32) (args : List (BitVec 32)) :
    Diligent (throw (.jumped pc args) : Loader σ α) := .stop nofun

instance : Diligent (modeUboot : Loader σ Unit) := by
  rw [modeUboot]
  repeat' first | refine .bind inferInstance fun _ => ?_ | refine .ite ?_ ?_ | infer_instance

instance : Diligent (modeSetBaud : Loader σ Unit) := by
  rw [modeSetBaud]
  infer_instance

instance (dtb : BitVec 32) (n : ℕ) (size : BitVec 32) :
    Diligent (patchDtb dtb n size : Loader σ ℕ) := by
  rw [patchDtb]
  refine .get_bind (fun w => ?_) fun _ _ => rfl
  repeat' first | infer_instance | refine .bind inferInstance fun _ => ?_

instance : Diligent (jumpToKernel : Loader σ Unit) := .stop nofun

instance : Diligent (noSentinel : Loader σ Unit) := by
  rw [noSentinel]
  infer_instance

instance (head tail : String) (v : BitVec 32) : Diligent (putsHex head v tail : Loader σ Unit) := by
  rw [putsHex]
  infer_instance

instance (a : BitVec 32) : Diligent (callTest a : Loader σ Unit) := by
  rw [callTest]
  exact .get_bind (fun _ => inferInstance) fun _ _ => rfl

instance (kernelSize dtbSize initrdSize : BitVec 32) :
    Diligent (launch kernelSize dtbSize initrdSize : Loader σ Unit) := by
  rw [launch]
  repeat' first | refine .bind inferInstance fun _ => ?_ | infer_instance

instance : Diligent (modeLinux : Loader σ Unit) := by
  rw [modeLinux]
  repeat' first | refine .bind inferInstance fun _ => ?_ | refine .ite ?_ ?_ | infer_instance

instance (base : BitVec 32) (i n errors : ℕ) :
    Diligent (checkWords base i n errors : Loader σ ℕ) := by
  induction n generalizing i errors with
  | zero => exact inferInstanceAs (Diligent (pure _))
  | succ n ih =>
    unfold checkWords
    refine .get_bind (fun _ => ?_) fun _ _ => rfl
    repeat' first | refine .bind inferInstance fun _ => ?_ | refine .ite ?_ ?_ | infer_instance

instance : Diligent (sdramTest : Loader σ Bool) := by
  unfold sdramTest
  infer_instance

instance (clk : BitVec 32) : Diligent (startUp clk : Loader σ Unit) := by
  rw [startUp]
  refine .bind (.modify (fun _ => rfl) (fun _ => List.prefix_rfl) fun _ _ => rfl) fun _ => ?_
  infer_instance

/-! ### The modes of the card -/

section Modes

variable (bus : Bus Byte σ)

instance : Diligent (sdSmoke bus) := by
  rw [sdSmoke]
  refine .bind inferInstance fun _ => .bind inferInstance fun rc => .ite ?_ ?_
  · infer_instance
  · refine .bind inferInstance fun _ => .get_bind (fun w => ?_) fun _ _ => rfl
    repeat' first | refine .bind inferInstance fun _ => ?_ | refine .ite ?_ ?_ | infer_instance

instance (start : BitVec 32) (i n : ℕ) : Diligent (dumpLoop bus start i n) := by
  induction n generalizing i with
  | zero => exact inferInstanceAs (Diligent (puts _))
  | succ n ih =>
    rw [dumpLoop]
    refine .bind inferInstance fun r => ?_
    infer_instance

instance : Diligent (sdDump bus) := by
  rw [sdDump]
  repeat' first | refine .bind inferInstance fun _ => ?_ | refine .ite ?_ ?_ | infer_instance

instance : Diligent (sdWriteTest bus) := by
  rw [sdWriteTest]
  repeat' first
    | refine .bind inferInstance fun _ => ?_ | refine .ite ?_ ?_ | infer_instance | split

instance (startLba : BitVec 32) (i n : ℕ) : Diligent (multiSectors bus startLba i n) := by
  induction n generalizing i with
  | zero => exact inferInstanceAs (Diligent (pure _))
  | succ n ih =>
    rw [multiSectors]
    repeat' first | refine .bind inferInstance fun _ => ?_ | refine .ite ?_ ?_ | infer_instance

instance (s n : ℕ) : Diligent (multiSegments bus s n) := by
  induction n generalizing s with
  | zero => exact inferInstanceAs (Diligent (puts _))
  | succ n ih =>
    rw [multiSegments]
    repeat' first | refine .bind inferInstance fun _ => ?_ | refine .ite ?_ ?_ | infer_instance

instance : Diligent (sdWriteMulti bus) := by
  rw [sdWriteMulti]
  repeat' first | refine .bind inferInstance fun _ => ?_ | refine .ite ?_ ?_ | infer_instance

instance : Diligent (sdReadHeader bus) := by
  rw [sdReadHeader]
  repeat' first | refine .bind inferInstance fun _ => ?_ | refine .ite ?_ ?_ | infer_instance

instance (lba dst : BitVec 32) (i n : ℕ) : Diligent (sdReadMany bus lba dst i n) := by
  induction n generalizing i with
  | zero => exact inferInstanceAs (Diligent (pure _))
  | succ n ih =>
    rw [sdReadMany]
    repeat' first | refine .bind inferInstance fun _ => ?_ | refine .ite ?_ ?_ | infer_instance

instance (h : Sd.SdBootHdr) : Diligent (bootSections bus h) := by
  rw [bootSections]
  repeat' first | refine .bind inferInstance fun _ => ?_ | refine .ite ?_ ?_ | infer_instance

instance : Diligent (modeSdBoot bus) := by
  rw [modeSdBoot]
  repeat' first | refine .bind inferInstance fun _ => ?_ | refine .ite ?_ ?_ | infer_instance

/-! ### The dispatcher -/

instance (c : Option Byte) : Diligent (mode bus c) := by
  unfold mode
  split <;> infer_instance

/-- A round of the dispatcher takes the next command. -/
lemma eager_command (c : Option Byte) : Eager (command bus c) := by
  rw [command]
  refine Diligent.bind_eager inferInstance fun _ => Diligent.bind_eager inferInstance fun _ => ?_
  exact eager_rawRecv.bind fun _ => inferInstance

instance (c : Option Byte) : Diligent (command bus c) := by
  rw [command]
  infer_instance

instance (c : Option Byte) : Diligent (dispatch bus c) :=
  .loop (eager_command bus) inferInstance c

/-- The dispatcher is `while (1)`: a command, and the dispatcher with the next one. -/
lemma dispatch_eq (c : Option Byte) : dispatch bus c = (do
    match ← command bus c with
    | .inl c' => dispatch bus c'
    | .inr a => pure a) := by
  rw [dispatch]
  rw [loop_eq (Eager.uses (eager_command bus)) c]
  refine bind_congr fun r => ?_
  rcases r with c' | a
  · rfl
  · exact a.elim

instance (clk : BitVec 32) : Diligent (main bus clk) := by
  rw [main]
  infer_instance

/-- The bounds of the loops are of no account: stage2 waits only at the end of its input. -/
lemma main_waits_at_end (clk : BitVec 32) (w : World σ) :
    ∃ e w', exec (main bus clk) w = (.error e, w') ∧ (e = .waiting → w'.input = []) := by
  have hmain : Diligent (main bus clk) := inferInstance
  rcases wp_cases (hmain.runs w) with ⟨a, -⟩ | ⟨e, w', hexec, hend⟩
  · exact a.elim
  · exact ⟨e, w', hexec, hend⟩

end Modes

end Neorv32Boot.Stage2
