import Neorv32Boot.Xmodem.Link

/-!
# The end of an XMODEM transfer

A receiver that has lost the head of a frame looks for a command in the bytes of the frame, and a
byte of the payload that happens to be `EOT` ends the transfer then.  As long as no `EOT` or `CAN`
is where the receiver will look for a command, this cannot happen; so it is when every frame is met
where it begins.
-/

namespace Neorv32Boot.Xmodem

open Neorv32Boot.Trans (Reachable restrict run restrict_eq_some reachable_of_run)

/-- Before the sender has transmitted its `EOT`, the receiver does not return a size other than
zero, and no byte that it is about to take ends the transfer. -/
def NeverPremature (step : Sys → Act → Option Sys) (s₀ : Sys) : Prop :=
  ∀ s, Reachable step s₀ s → s.tx.eotSent = false →
    (∀ size, s.rx.wait = .ret size → size = 0) ∧
      (s.rx.wait = .cmd → ∀ b rest, s.toDev = b :: rest → b ≠ eot ∧ b ≠ can)

/-! ### Scanning -/

/-- The bytes that the receiver still takes as those of a frame. -/
def Wait.owed : Wait → ℕ
  | .cmd | .ret _ => 0
  | .bn => 131
  | .bnc (some _) => 130
  | .bnc none => 1
  | .data _ _ buf => 129 - buf.length
  | .csum .. => 1

/-- The same when the timer of the receiver has run out: without the block number it still waits for
its complement. -/
def Wait.left : Wait → ℕ
  | .bn => 1
  | .cmd | .ret _ | .bnc _ | .data .. | .csum .. => 0

/-- How many bytes the receiver still takes as those of a frame after it has taken these, when it
meets neither `EOT` nor `CAN` where it looks for a command. -/
def scan : ℕ → List Byte → Option ℕ
  | n, [] => some n
  | n + 1, _ :: bs => scan n bs
  | 0, b :: bs => if b = eot ∨ b = can then none else if b = soh then scan 131 bs else scan 0 bs

/-- The first command in these bytes, if any, is `SOH`. -/
def Headed (bs : List Byte) : Prop :=
  bs.find? (fun b => b = soh ∨ b = eot ∨ b = can) ∈ [none, some soh]

instance (bs : List Byte) : Decidable (Headed bs) :=
  inferInstanceAs (Decidable (_ ∈ _))

/-- The step brings no `EOT` or `CAN` to a place where the receiver will look for a command: neither
a frame of the sender behind the bytes on the way, nor a timer that ends a frame of the receiver
before its bytes are there. -/
def mild (data : List Byte) (s : Sys) : Act → Bool
  | .send fs =>
    match s.tx with
    | .write blkIdx _ => s.rx.wait.returned ||
        (scan s.rx.wait.owed (s.toDev ++ deliver fs (packet data blkIdx))).isSome
    | _ => true
  | .devTimeout _ => (scan s.rx.wait.left s.toDev).isSome
  | .read | .hostTimeout | .recv _ => true

/-- Faults hit the frames only, and turn no byte into `EOT`. -/
def frameFaults (s : Sys) : Act → Bool
  | .send fs =>
    match s.tx with
    | .write .. => fs.all (· ≠ .alter eot)
    | _ => fs.isEmpty
  | .recv fs | .devTimeout fs => fs.isEmpty
  | .read | .hostTimeout => true

lemma scan_append (n : ℕ) (as bs : List Byte) :
    scan n (as ++ bs) = (scan n as).bind fun m => scan m bs := by
  fun_induction scan n as with
  | case1 n => simp
  | case2 n b as ih => simpa [scan] using ih
  | case3 b as h => rw [List.cons_append, scan, if_pos h, Option.bind_none]
  | case4 as h ih => rw [List.cons_append, scan, if_neg h, if_pos rfl, ih]
  | case5 b as h h' ih => rw [List.cons_append, scan, if_neg h, if_neg h', ih]

lemma scan_long {n : ℕ} {bs : List Byte} (h : bs.length ≤ n) :
    scan n bs = some (n - bs.length) := by
  induction bs generalizing n with
  | nil => simp [scan]
  | cons b bs ih =>
    obtain ⟨m, rfl⟩ : ∃ m, n = m + 1 := ⟨n - 1, by simp only [List.length_cons] at h; omega⟩
    rw [scan, ih (by simpa using h)]
    simp

lemma headed_cons {b : Byte} {bs : List Byte} (h : Headed (b :: bs))
    (hb : b = soh ∨ b = eot ∨ b = can) : b = soh := by
  rw [Headed, List.find?_cons_of_pos (by simpa using hb)] at h
  simpa using h

lemma headed_of_cons {b : Byte} {bs : List Byte} (h : Headed (b :: bs))
    (hb : ¬ (b = soh ∨ b = eot ∨ b = can)) : Headed bs := by
  rwa [Headed, List.find?_cons_of_neg (by simpa using hb)] at h

/-- A headed frame has no command for a receiver that meets it where it begins. -/
lemma scan_headed {bs : List Byte} (h : Headed bs) (hlen : bs.length ≤ 132) :
    ∃ m, scan 0 bs = some m := by
  induction bs with
  | nil => exact ⟨0, rfl⟩
  | cons b bs ih =>
    rw [scan]
    simp only [List.length_cons] at hlen
    split_ifs with hend hsoh
    · obtain rfl := headed_cons h (Or.inr hend)
      exact absurd hend (by decide)
    · exact ⟨_, scan_long (by omega)⟩
    · exact ih (headed_of_cons h (not_or.2 ⟨hsoh, hend⟩)) (by omega)

/-! ### Steps -/

/-- A block that is not whole has less than 128 bytes. -/
def Wait.Short : Wait → Prop
  | .data _ _ buf => buf.length < 128
  | _ => True

/-- The bytes on the way have no command that ends the transfer, where the receiver will look for
one. -/
structure Calm (s : Sys) : Prop where
  short : s.rx.wait.Short
  zero : ∀ size, s.rx.wait = .ret size → size = 0
  safe : s.rx.wait.returned = false → ∃ m, scan s.rx.wait.owed s.toDev = some m

/-- The receiver takes a byte that does not end the transfer. -/
lemma Rx.recv_scan {rx rx' : Rx} {c : Byte} {rest out : List Byte} {m : ℕ} (hs : rx.wait.Short)
    (h : rx.recv (some c) = some (out, rx')) (hm : scan rx.wait.owed (c :: rest) = some m) :
    rx'.wait.Short ∧ rx'.wait.returned = false ∧ scan rx'.wait.owed rest = some m := by
  cases hw : rx.wait with
  | cmd =>
    rw [hw, Wait.owed, scan] at hm
    have hend : ¬ (c = eot ∨ c = can) := fun hend => by simp [hend] at hm
    rw [if_neg hend] at hm
    simp only [Rx.recv, hw, (not_or.1 hend).1, (not_or.1 hend).2, if_false] at h
    by_cases hsoh : c = soh
    · rw [if_neg (not_not.2 hsoh)] at h
      rw [if_pos hsoh] at hm
      cases h
      exact ⟨trivial, rfl, hm⟩
    · rw [if_pos hsoh] at h
      rw [if_neg hsoh] at hm
      cases h
      rw [hw]
      exact ⟨trivial, rfl, hm⟩
  | bn =>
    simp only [Rx.recv, hw] at h
    rw [hw, Wait.owed, scan] at hm
    cases h
    exact ⟨trivial, rfl, hm⟩
  | bnc bn =>
    rw [hw] at hm
    cases bn with
    | none | some bn =>
      simp only [Rx.recv, hw] at h
      rw [Wait.owed, scan] at hm
      cases h
      refine ⟨?_, rfl, hm⟩
      simp [Wait.Short]
  | data bn bnc buf =>
    have hbuf : buf.length < 128 := by simpa [hw, Wait.Short] using hs
    obtain ⟨n, hn⟩ : ∃ n, 129 - buf.length = n + 1 := ⟨128 - buf.length, by omega⟩
    rw [hw, Wait.owed, hn, scan] at hm
    simp only [Rx.recv, hw] at h
    split_ifs at h with hlt
    · cases h
      refine ⟨?_, rfl, ?_⟩
      · simpa [Wait.Short] using hlt
      · rw [Wait.owed, List.length_append, List.length_singleton]
        rwa [show 129 - (buf.length + 1) = n by omega]
    · cases h
      have hge : 128 ≤ buf.length + 1 := not_lt.1 hlt
      refine ⟨trivial, rfl, ?_⟩
      rwa [Wait.owed, show 1 = n by omega]
  | csum bn bnc buf =>
    rw [hw, Wait.owed, scan] at hm
    simp only [Rx.recv, hw] at h
    split_ifs at h <;> cases h <;> exact ⟨trivial, rfl, hm⟩
  | ret size => cases (Rx.recv_returned hw _).symm.trans h

/-- A timer that runs out ends the frame of the receiver, or it makes it return zero. -/
lemma Rx.recv_none {rx rx' : Rx} {out : List Byte} (h : rx.recv none = some (out, rx')) :
    rx'.wait = .ret 0 ∨
      (rx'.wait.Short ∧ rx'.wait.returned = false ∧ rx'.wait.owed = rx.wait.left) := by
  cases hw : rx.wait with
  | cmd =>
    simp only [Rx.recv, hw] at h
    split_ifs at h <;> cases h
    · exact Or.inl rfl
    · exact Or.inr ⟨trivial, rfl, rfl⟩
  | bn | bnc bn | data bn bnc buf | csum bn bnc buf =>
    simp only [Rx.recv, hw] at h
    cases h
    exact Or.inr ⟨trivial, rfl, rfl⟩
  | ret size => cases (Rx.recv_returned hw _).symm.trans h

variable {data : List Byte} {s s' : Sys}

/-- A frame that comes where the receiver looks for one, and that has `SOH` as its first command. -/
lemma mild_send {blkIdx retries : ℕ} {fs : List Fault} (htx : s.tx = .write blkIdx retries)
    (hscan : scan s.rx.wait.owed s.toDev = some 0) (h : Headed (deliver fs (packet data blkIdx))) :
    mild data s (.send fs) = true := by
  have hlen : (packet data blkIdx).length ≤ 132 := by
    simp only [packet, block, blockSize, List.length_append, List.length_take, List.length_cons,
      List.length_nil]
    omega
  obtain ⟨m, hm⟩ := scan_headed h ((length_deliver_le _ _).trans hlen)
  rw [mild, htx]
  simp only
  rw [scan_append, hscan, Option.bind_some, hm, Option.isSome_some, Bool.or_true]

lemma Calm.send (hc : Calm s) {blkIdx retries : ℕ} {fs : List Fault} {tx : Tx}
    (htx : s.tx = .write blkIdx retries) (hm : mild data s (.send fs) = true) :
    Calm { s with tx := tx, toDev := s.toDev ++ deliver fs (packet data blkIdx) } := by
  refine ⟨hc.short, hc.zero, fun hret => ?_⟩
  have hret' : s.rx.wait.returned = false := hret
  simp only [mild, htx, hret', Bool.false_or] at hm
  exact Option.isSome_iff_exists.1 hm

lemma Calm.recv (hc : Calm s) {c : Byte} {rest out : List Byte} {rx : Rx} {toHost : List Byte}
    (hto : s.toDev = c :: rest) (hrx : s.rx.recv (some c) = some (out, rx)) :
    Calm { s with rx := rx, toDev := rest, toHost := toHost } := by
  have hret : s.rx.wait.returned = false := by
    cases hw : s.rx.wait with
    | ret size => cases (Rx.recv_returned hw _).symm.trans hrx
    | cmd | bn | bnc | data | csum => rfl
  obtain ⟨m, hm⟩ := hc.safe hret
  rw [hto] at hm
  obtain ⟨hshort, hret', hm'⟩ := Rx.recv_scan hc.short hrx hm
  refine ⟨hshort, fun size hw => ?_, fun _ => ⟨m, hm'⟩⟩
  rw [show rx.wait = _ from hw] at hret'
  cases hret'

lemma Calm.devTimeout {out : List Byte} {rx : Rx} {toHost : List Byte} {m : ℕ}
    (hrx : s.rx.recv none = some (out, rx)) (hm : scan s.rx.wait.left s.toDev = some m) :
    Calm { s with rx := rx, toHost := toHost } := by
  rcases Rx.recv_none hrx with hw | ⟨hshort, hret, howed⟩
  · refine ⟨hw ▸ trivial, fun size h => (Wait.ret.inj (hw.symm.trans h)).symm, fun h => ?_⟩
    rw [show rx.wait = _ from hw] at h
    cases h
  · refine ⟨hshort, fun size h => ?_, fun _ => ⟨m, howed ▸ hm⟩⟩
    rw [show rx.wait = _ from h] at hret
    cases hret

/-- A mild step keeps the receiver from the end of the transfer, as long as the sender has not
transmitted its `EOT`. -/
lemma Calm.step {a : Act} (hc : s.tx.eotSent = false → Calm s) (hm : mild data s a = true)
    (hs : s.step data a = some s') (heot : s'.tx.eotSent = false) : Calm s' := by
  cases a with
  | send fs =>
    obtain ⟨out, tx, htx, rfl⟩ := step_send hs
    cases ht : s.tx with
    | write blkIdx retries =>
      simp only [ht, Tx.send, Option.some.injEq, Prod.mk.injEq] at htx
      rw [← htx.1]
      exact (hc (ht ▸ rfl)).send ht hm
    | writeEot =>
      simp only [ht, Tx.send, Option.some.injEq, Prod.mk.injEq] at htx
      rw [← htx.2] at heot
      cases heot
    | reply | eotReply | complete | noAck | failed =>
      rw [ht] at htx
      cases htx
  | read =>
    obtain ⟨c, rest, tx, hto, htx, rfl⟩ := step_read hs
    have heot' : s.tx.eotSent = false := by
      cases ht : s.tx with
      | eotReply =>
        rw [ht, Tx.read] at htx
        split_ifs at htx <;> cases htx <;> cases heot
      | reply => rfl
      | write | writeEot | complete | noAck | failed =>
        rw [ht] at htx
        cases htx
    exact ⟨(hc heot').short, (hc heot').zero, (hc heot').safe⟩
  | hostTimeout =>
    obtain ⟨tx, htx, rfl⟩ := step_hostTimeout hs
    have heot' : s.tx.eotSent = false := by
      cases ht : s.tx with
      | eotReply =>
        rw [ht, Tx.timeout] at htx
        cases htx
        cases heot
      | reply => rfl
      | write | writeEot | complete | noAck | failed =>
        rw [ht] at htx
        cases htx
    exact ⟨(hc heot').short, (hc heot').zero, (hc heot').safe⟩
  | recv fs =>
    obtain ⟨c, rest, out, rx, hto, hrx, rfl⟩ := step_recv hs
    exact (hc heot).recv hto hrx
  | devTimeout fs =>
    obtain ⟨out, rx, hrx, rfl⟩ := step_devTimeout hs
    obtain ⟨m, hm⟩ := Option.isSome_iff_exists.1 hm
    exact Calm.devTimeout hrx hm

/-- **No frame is taken for the end of the transfer**, in every run of mild steps: whatever the
payload, whatever the line does to the replies, and whenever the timers run out. -/
theorem neverPremature (payload : List Byte) (mem : BitVec 32 → Byte) (toHost : List Byte) :
    NeverPremature (restrict (Sys.step (pad payload)) (mild (pad payload)))
      (Sys.start (pad payload) (Rx.start mem) toHost) := by
  intro s hs heot
  have hcalm : s.tx.eotSent = false → Calm s := by
    refine hs.inv (I := fun s => s.tx.eotSent = false → Calm s) (fun _ => ?_) ?_
    · exact ⟨trivial, nofun, fun _ => ⟨0, rfl⟩⟩
    · intro s a s' hI hstep
      obtain ⟨hm, hstep⟩ := restrict_eq_some.1 hstep
      exact Calm.step hI hm hstep
  refine ⟨(hcalm heot).zero, fun hw b rest hto => ?_⟩
  obtain ⟨m, hm⟩ := (hcalm heot).safe (hw ▸ rfl)
  rw [hw, hto, Wait.owed, scan] at hm
  refine not_or.1 fun hend => ?_
  rw [if_pos hend] at hm
  cases hm

/-- The second frame loses its `SOH`, and its block starts with a byte that is `EOT`. -/
def prematureRun : List Act :=
  .send [] :: List.replicate 132 (.recv []) ++ .read :: .send [.drop] ::
    List.replicate 3 (.recv [])

/-- A payload byte ends the transfer after the first of two blocks. -/
theorem premature_eot :
    ¬ ∀ (payload : List Byte) (mem : BitVec 32 → Byte),
      NeverPremature (restrict (Sys.step (pad payload)) frameFaults)
        (Sys.start (pad payload) (Rx.start mem) []) := by
  intro h
  let payload : List Byte := List.replicate 128 0x00 ++ [0x04]
  have hend : (run (restrict (Sys.step (pad payload)) frameFaults)
      (Sys.start (pad payload) (Rx.start fun _ => 0) []) prematureRun).map
        (fun s => (s.tx, s.rx.wait)) = some (.reply 1 0, .ret 128) := by
    decide +kernel
  obtain ⟨s, hs, heq⟩ := Option.map_eq_some_iff.1 hend
  obtain ⟨htx, hw⟩ := Prod.mk.inj heq
  have hzero := (h payload (fun _ => 0) s (reachable_of_run hs) (by rw [htx]; rfl)).1 128 hw
  exact absurd hzero (by decide)

end Neorv32Boot.Xmodem
