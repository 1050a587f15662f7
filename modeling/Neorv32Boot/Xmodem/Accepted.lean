import Neorv32Boot.Xmodem.Link

/-!
# What the receiver accepts

`xmodem_receive` on any input: every result of `uart_getc_timeout` may be any byte, or a timeout.
What is stored is what the input carries in frames with the right numbers, one after the other.
-/

namespace Neorv32Boot.Xmodem

/-! ### Inputs -/

/-- The receiver after some results of `uart_getc_timeout`: what it has sent, and where it is. -/
def Rx.feed (s : Rx) : List (Option Byte) → Option (List Byte × Rx)
  | [] => some ([], s)
  | c :: cs =>
    match s.recv c with
    | none => none
    | some (out, s) => (s.feed cs).map fun r => (out ++ r.1, r.2)

/-- The blocks that were accepted. -/
def Rx.blocks (s : Rx) : List (List Byte) := s.stores.map Prod.snd

/-- The input carries these blocks in frames, in order and with the numbers from 1 on, with anything
between and behind the frames. -/
inductive Carries : List (Option Byte) → List (List Byte) → Prop
  | nil (gap : List (Option Byte)) : Carries gap []
  | snoc {inp : List (Option Byte)} {bufs : List (List Byte)} {buf : List Byte}
      (h : Carries inp bufs) (hbuf : buf.length = 128) (gap : List (Option Byte)) :
      Carries (inp ++ (frame (blkNum bufs.length) buf).map some ++ gap) (bufs ++ [buf])

/-- What the receiver has taken of a frame. -/
def Wait.taken : Wait → List Byte
  | .bn => [soh]
  | .bnc (some x) => [soh, x]
  | .data x y buf | .csum x y buf => soh :: x :: y :: buf
  | _ => []

/-- The buffer has the bytes that the receiver has counted. -/
def Wait.Counts : Wait → Prop
  | .data _ _ buf => buf.length < 128
  | .csum _ _ buf => buf.length = 128
  | _ => True

/-! ### What a step does -/

/-- How an attempt to receive a block ends. -/
inductive Outcome
  | accepted
  /-- a timeout at the head of the loop -/
  | late
  /-- a frame cut short by a timeout -/
  | cut
  /-- a whole frame with a wrong number, complement or sum -/
  | rejected
  deriving DecidableEq

/-- The attempt that ends with this result of `uart_getc_timeout`. -/
def Rx.outcome (s : Rx) (c : Option Byte) : Option Outcome :=
  match s.wait, c with
  | .cmd, none => some .late
  | .bnc none, _ | .bnc (some _), none | .data .., none | .csum .., none => some .cut
  | .csum x y buf, some b =>
    if x ≠ s.blkNum ∨ y ≠ ~~~s.blkNum ∨ b ≠ checksum buf then some .rejected else some .accepted
  | _, _ => none

/-- What a result of `uart_getc_timeout` can do.  In `goOn` the receiver goes on inside a frame, and
in `cut` it lets a frame go that a timeout has cut short. -/
inductive Rx.Step (s : Rx) : Option Byte → List Byte → Rx → Prop
  | accept {buf : List Byte} (hw : s.wait = .csum s.blkNum (~~~s.blkNum) buf) :
      Step s (some (checksum buf)) [ack] (s.accept buf)
  | eot (hw : s.wait = .cmd) : Step s (some eot) [ack] { s with wait := .ret s.total }
  | cancel (hw : s.wait = .cmd) : Step s (some can) cancelledText { s with wait := .ret 0 }
  | giveUp (hw : s.wait = .cmd) (hr : retryMax < s.retries + 1) :
      Step s none ([can, can] ++ timeoutText) { s with wait := .ret 0, retries := s.retries + 1 }
  | again (hw : s.wait = .cmd) (hr : s.retries + 1 ≤ retryMax) :
      Step s none (waitingText ++ [nak]) { s with wait := .cmd, retries := s.retries + 1 }
  | skip {b : Byte} (hw : s.wait = .cmd) (hb : b ≠ eot ∧ b ≠ can ∧ b ≠ soh) : Step s (some b) [] s
  | goOn {b : Byte} {w : Wait} (hw : w.returned = false) (ht : w.taken = s.wait.taken ++ [b])
      (hcount : s.wait.Counts → w.Counts) (ho : s.outcome (some b) = none) :
      Step s (some b) [] { s with wait := w }
  | noNumber (hw : s.wait = .bn) : Step s none [] { s with wait := .bnc none }
  | cut {c : Option Byte} (ho : s.outcome c = some .cut) : Step s c [nak] { s with wait := .cmd }
  | reject {b x y : Byte} {buf : List Byte} (hw : s.wait = .csum x y buf)
      (hbad : x ≠ s.blkNum ∨ y ≠ ~~~s.blkNum ∨ b ≠ checksum buf) : Step s (some b) [nak] s.reject

lemma Rx.recv_step {s s' : Rx} {c : Option Byte} {out : List Byte}
    (h : s.recv c = some (out, s')) : s.Step c out s' := by
  have heq : ∀ {o : List Byte} {t : Rx}, some (o, t) = some (out, s') → o = out ∧ t = s' :=
    fun he => Prod.mk.inj (Option.some.inj he)
  cases hw : s.wait with
  | cmd =>
    cases c with
    | none =>
      simp only [Rx.recv, hw] at h
      split_ifs at h with hr <;> obtain ⟨rfl, rfl⟩ := heq h
      · exact .giveUp hw hr
      · exact .again hw (not_lt.1 hr)
    | some b =>
      simp only [Rx.recv, hw] at h
      split_ifs at h with heot hcan hsoh <;> obtain ⟨rfl, rfl⟩ := heq h
      · exact heot ▸ .eot hw
      · exact hcan ▸ .cancel hw
      · exact .skip hw ⟨heot, hcan, hsoh⟩
      · refine .goOn rfl ?_ (fun _ => trivial) (by simp only [Rx.outcome, hw])
        rw [hw, not_not.1 hsoh]
        rfl
  | bn =>
    simp only [Rx.recv, hw] at h
    obtain ⟨rfl, rfl⟩ := heq h
    cases c with
    | none => exact .noNumber hw
    | some b => exact .goOn rfl (by rw [hw]; rfl) (fun _ => trivial) (by simp only [Rx.outcome, hw])
  | bnc x =>
    rcases x with _ | x
    · simp only [Rx.recv, hw] at h
      obtain ⟨rfl, rfl⟩ := heq h
      exact .cut (by simp only [Rx.outcome, hw])
    · cases c with
      | none =>
        simp only [Rx.recv, hw] at h
        obtain ⟨rfl, rfl⟩ := heq h
        exact .cut (by simp only [Rx.outcome, hw])
      | some b =>
        simp only [Rx.recv, hw] at h
        obtain ⟨rfl, rfl⟩ := heq h
        exact .goOn rfl (by rw [hw]; rfl) (fun _ => Nat.zero_lt_succ _)
          (by simp only [Rx.outcome, hw])
  | data x y buf =>
    cases c with
    | none =>
      simp only [Rx.recv, hw] at h
      obtain ⟨rfl, rfl⟩ := heq h
      exact .cut (by simp only [Rx.outcome, hw])
    | some b =>
      simp only [Rx.recv, hw] at h
      split_ifs at h with hlt <;> obtain ⟨rfl, rfl⟩ := heq h
      · refine .goOn rfl (by rw [hw]; rfl) (fun _ => ?_) (by simp only [Rx.outcome, hw])
        rw [Wait.Counts, List.length_append]
        exact hlt
      · refine .goOn rfl (by rw [hw]; rfl) (fun hcount => ?_) (by simp only [Rx.outcome, hw])
        rw [hw, Wait.Counts] at hcount
        rw [Wait.Counts, List.length_append, List.length_singleton]
        have h128 : blockSize = 128 := rfl
        omega
  | csum x y buf =>
    cases c with
    | none =>
      simp only [Rx.recv, hw] at h
      obtain ⟨rfl, rfl⟩ := heq h
      exact .cut (by simp only [Rx.outcome, hw])
    | some b =>
      simp only [Rx.recv, hw] at h
      split_ifs at h with hbad <;> obtain ⟨rfl, rfl⟩ := heq h
      · exact .reject hw hbad
      · simp only [not_or, not_not] at hbad
        obtain ⟨rfl, rfl, rfl⟩ := hbad
        exact .accept hw
  | ret n =>
    rw [Rx.recv_returned hw] at h
    cases h

/-- The receiver has the same store as before. -/
structure Rx.SameStore (s s' : Rx) : Prop where
  blkNum_eq : s'.blkNum = s.blkNum
  total_eq : s'.total = s.total
  stores_eq : s'.stores = s.stores
  mem_eq : s'.mem = s.mem

/-- Only an accepted frame changes the store. -/
lemma Rx.Step.sameStore {s s' : Rx} {c : Option Byte} {out : List Byte} (h : s.Step c out s') :
    (∃ buf, s.wait = .csum s.blkNum (~~~s.blkNum) buf ∧ c = some (checksum buf) ∧
      s' = s.accept buf) ∨ s.SameStore s' := by
  cases h with
  | accept hw => exact Or.inl ⟨_, hw, rfl, rfl⟩
  | eot | cancel | giveUp | again | skip | goOn | noNumber | cut | reject =>
    exact Or.inr ⟨rfl, rfl, rfl, rfl⟩

/-- What has been stored stays stored. -/
lemma Rx.stores_prefix {s s' : Rx} {inp : List (Option Byte)} {out : List Byte}
    (h : s.feed inp = some (out, s')) : s.stores <+: s'.stores := by
  induction inp generalizing s out with
  | nil =>
    obtain ⟨rfl, rfl⟩ := Prod.mk.inj (Option.some.inj h)
    exact List.prefix_rfl
  | cons c cs ih =>
    rw [Rx.feed] at h
    cases hs : s.recv c with
    | none =>
      rw [hs] at h
      cases h
    | some x =>
      obtain ⟨o, s₁⟩ := x
      rw [hs] at h
      obtain ⟨⟨o', s₂⟩, hfeed, heq⟩ := Option.map_eq_some_iff.1 h
      obtain ⟨-, rfl⟩ := Prod.mk.inj heq
      refine List.IsPrefix.trans ?_ (ih hfeed)
      rcases (Rx.recv_step hs).sameStore with ⟨buf, -, -, rfl⟩ | hsame
      · rw [Rx.accept_stores]
        exact List.prefix_append _ _
      · rw [hsame.stores_eq]

/-! ### The input as frames -/

/-- The receiver has returned `n` after an `EOT` that it took as a command. -/
structure Rx.Ended (s₀ : Rx) (inp : List (Option Byte)) (s : Rx) (n : BitVec 32) : Prop where
  size : n = s.total
  eot : ∃ pre out₁ s₁, inp = pre ++ [some Xmodem.eot] ∧ s₀.feed pre = some (out₁, s₁) ∧
    s₁.wait = .cmd ∧ Carries pre s.blocks

/-- Between two calls of `uart_getc_timeout`, or behind the last one: the input so far is frames,
and the beginning of one more. -/
structure Rx.Received (s₀ : Rx) (inp : List (Option Byte)) (out : List Byte) (s : Rx) : Prop where
  length_buf : ∀ buf ∈ s.blocks, buf.length = 128
  blkNum_eq : s.blkNum = Xmodem.blkNum s.stores.length
  total_eq : s.total = BitVec.ofNat 32 (128 * s.stores.length)
  offsets : s.stores.map Prod.fst =
    (List.range s.stores.length).map fun k => BitVec.ofNat 32 (128 * k)
  mem_eq : s.stores.length ≤ 2 ^ 25 → ∀ a, s.mem a = s.blocks.flatten.getD a.toNat (s₀.mem a)
  going : s.wait.returned = false → out.count ack = s.stores.length ∧ s.wait.Counts ∧
    ∃ pre, inp = pre ++ s.wait.taken.map some ∧ Carries pre s.blocks
  ended : ∀ n, s.wait = .ret n → n = 0 ∨
    (out.count ack = s.stores.length + 1 ∧ s₀.Ended inp s n)

lemma Carries.gap {inp : List (Option Byte)} {bufs : List (List Byte)} (h : Carries inp bufs)
    (gap : List (Option Byte)) : Carries (inp ++ gap) bufs := by
  cases h with
  | nil g => exact .nil _
  | snoc h hbuf g =>
    rw [List.append_assoc]
    exact .snoc h hbuf _

/-- Every block takes a frame of the input. -/
lemma Carries.length_le {inp : List (Option Byte)} {bufs : List (List Byte)}
    (h : Carries inp bufs) : 132 * bufs.length ≤ inp.length := by
  induction h with
  | nil gap => exact Nat.zero_le _
  | snoc h hbuf gap ih =>
    simp only [List.length_append, List.length_map, List.length_singleton, length_frame hbuf]
    omega

lemma Rx.feed_append (s : Rx) (cs more : List (Option Byte)) :
    s.feed (cs ++ more) =
      (s.feed cs).bind fun r => (r.2.feed more).map fun r' => (r.1 ++ r'.1, r'.2) := by
  induction cs generalizing s with
  | nil => simp [Rx.feed]
  | cons d cs ih =>
    rw [List.cons_append, Rx.feed, Rx.feed]
    cases s.recv d with
    | none => rfl
    | some r =>
      simp only [ih]
      cases r.2.feed cs with
      | none => rfl
      | some r' => simp [Option.map_map, Function.comp_def]

lemma Rx.feed_concat (s : Rx) (cs : List (Option Byte)) (c : Option Byte) :
    s.feed (cs ++ [c]) =
      (s.feed cs).bind fun r => (r.2.recv c).map fun r' => (r.1 ++ r'.1, r'.2) := by
  rw [Rx.feed_append]
  congr 1
  funext r
  cases h : r.2.recv c <;> simp [Rx.feed, h]

/-- A block behind those that are stored. -/
lemma store_flatten {mem mem₀ : BitVec 32 → Byte} {bs buf : List Byte} {k : ℕ}
    (hk : k + 1 ≤ 2 ^ 25) (hbs : bs.length = 128 * k) (hbuf : buf.length = 128) {a : BitVec 32}
    (hmem : mem a = bs.getD a.toNat (mem₀ a)) :
    store mem (BitVec.ofNat 32 (128 * k)) buf a = (bs ++ buf).getD a.toNat (mem₀ a) := by
  have hlt := a.isLt
  simp only [store, List.getD_eq_getElem?_getD, hmem]
  rcases Nat.lt_or_ge a.toNat (128 * k) with ha | ha
  · have hsub : (a - BitVec.ofNat 32 (128 * k)).toNat = 2 ^ 32 - (128 * k - a.toNat) := by
      rw [BitVec.toNat_sub, BitVec.toNat_ofNat]
      omega
    rw [List.getElem?_append_left (by omega), hsub, List.getElem?_eq_none (by omega),
      Option.getD_none]
  · have hsub : (a - BitVec.ofNat 32 (128 * k)).toNat = a.toNat - 128 * k := by
      rw [BitVec.toNat_sub, BitVec.toNat_ofNat]
      omega
    rw [List.getElem?_append_right (by omega), hsub, hbs,
      List.getElem?_eq_none (by omega : bs.length ≤ a.toNat), Option.getD_none]

section Received

variable {s₀ s s' : Rx} {inp : List (Option Byte)} {out o : List Byte} {c : Option Byte}

lemma Rx.length_flatten_blocks (h : ∀ buf ∈ s.blocks, buf.length = 128) :
    s.blocks.flatten.length = 128 * s.stores.length := by
  have hlen : s.blocks.length = s.stores.length := List.length_map ..
  rw [← hlen, List.length_flatten, List.map_congr_left h, List.map_const', List.sum_replicate,
    smul_eq_mul, Nat.mul_comm]

/-- A step that keeps the store and does not end the transfer. -/
lemma Rx.Received.keep (h : s₀.Received inp out s) (hsame : s.SameStore s')
    (hgoing : s'.wait.returned = false) (hsend : o.count ack = 0) (hret : s.wait.returned = false)
    (hcount : s'.wait.Counts)
    (htaken : s'.wait.taken = [] ∨ ∃ b, c = some b ∧ s'.wait.taken = s.wait.taken ++ [b]) :
    s₀.Received (inp ++ [c]) (out ++ o) s' := by
  have hblocks : s'.blocks = s.blocks := congrArg (List.map Prod.snd) hsame.stores_eq
  obtain ⟨hack, -, pre, hpre, hcar⟩ := h.going hret
  refine ⟨?_, ?_, ?_, ?_, ?_, fun _ => ⟨?_, hcount, ?_⟩, fun n hn => ?_⟩
  · rw [hblocks]
    exact h.length_buf
  · rw [hsame.blkNum_eq, hsame.stores_eq, h.blkNum_eq]
  · rw [hsame.total_eq, hsame.stores_eq, h.total_eq]
  · rw [hsame.stores_eq, h.offsets]
  · rw [hsame.stores_eq, hsame.mem_eq, hblocks]
    exact h.mem_eq
  · rw [List.count_append, hack, hsend, hsame.stores_eq, Nat.add_zero]
  · rw [hblocks]
    rcases htaken with ht | ⟨b, rfl, ht⟩
    · refine ⟨inp ++ [c], by rw [ht, List.map_nil, List.append_nil], ?_⟩
      rw [hpre, List.append_assoc]
      exact hcar.gap _
    · refine ⟨pre, ?_, hcar⟩
      rw [ht, hpre, List.map_append, List.append_assoc]
      rfl
  · rw [hn] at hgoing
    cases hgoing

/-- The receiver has returned without an acknowledged `EOT`. -/
lemma Rx.Received.fail (h : s₀.Received inp out s) (hsame : s.SameStore s')
    (hret : s'.wait = .ret 0) : s₀.Received (inp ++ [c]) (out ++ o) s' := by
  have hblocks : s'.blocks = s.blocks := congrArg (List.map Prod.snd) hsame.stores_eq
  refine ⟨?_, ?_, ?_, ?_, ?_, fun hw => ?_, fun n hn => ?_⟩
  · rw [hblocks]
    exact h.length_buf
  · rw [hsame.blkNum_eq, hsame.stores_eq, h.blkNum_eq]
  · rw [hsame.total_eq, hsame.stores_eq, h.total_eq]
  · rw [hsame.stores_eq, h.offsets]
  · rw [hsame.stores_eq, hsame.mem_eq, hblocks]
    exact h.mem_eq
  · rw [hret] at hw
    cases hw
  · rw [hret] at hn
    exact Or.inl (Wait.ret.inj hn).symm

lemma Rx.Received.accept (h : s₀.Received inp out s) {buf : List Byte}
    (hw : s.wait = .csum s.blkNum (~~~s.blkNum) buf) :
    s₀.Received (inp ++ [some (checksum buf)]) (out ++ [ack]) (s.accept buf) := by
  obtain ⟨hack, hcount, pre, hpre, hcar⟩ := h.going (by rw [hw]; rfl)
  rw [hw, Wait.Counts] at hcount
  have hblocks : (s.accept buf).blocks = s.blocks ++ [buf] := by
    simp [Rx.blocks]
  have hstores : (s.accept buf).stores.length = s.stores.length + 1 := by simp
  have hlen : s.blocks.length = s.stores.length := List.length_map ..
  refine ⟨?_, ?_, ?_, ?_, fun hk a => ?_, fun _ => ⟨?_, trivial, ?_⟩, fun n hn => ?_⟩
  · rw [hblocks]
    intro b hb
    rcases List.mem_append.1 hb with hb | hb
    · exact h.length_buf b hb
    · rw [List.mem_singleton.1 hb, hcount]
  · rw [Rx.accept_blkNum, h.blkNum_eq, hstores, Xmodem.blkNum, Xmodem.blkNum]
    bv_omega
  · rw [Rx.accept_total, h.total_eq, hstores]
    bv_omega
  · rw [Rx.accept_stores, List.map_append, h.offsets, List.length_append, List.length_singleton,
      List.range_succ, List.map_append, h.total_eq]
    rfl
  · rw [hstores] at hk
    rw [hblocks, List.flatten_append, List.flatten_singleton, Rx.accept_mem, h.total_eq]
    exact store_flatten hk (Rx.length_flatten_blocks h.length_buf) hcount (h.mem_eq (by omega) a)
  · rw [List.count_append, hack, hstores]
    rfl
  · refine ⟨inp ++ [some (checksum buf)], (List.append_nil _).symm, ?_⟩
    have hframe : inp ++ [some (checksum buf)] =
        pre ++ (frame (Xmodem.blkNum s.blocks.length) buf).map some ++ [] := by
      rw [hpre, hw, hlen, ← h.blkNum_eq]
      simp [Wait.taken, frame]
    rw [hblocks, hframe]
    exact .snoc hcar hcount []
  · cases hn

/-- One more result of `uart_getc_timeout`. -/
lemma Rx.Received.step (h : s₀.Received inp out s) (hfeed : s₀.feed inp = some (out, s))
    (hs : s.recv c = some (o, s')) : s₀.Received (inp ++ [c]) (out ++ o) s' := by
  have hret : s.wait.returned = false := by
    rw [Bool.eq_false_iff]
    intro hw
    cases (Rx.recv_of_returned hw c).symm.trans hs
  have hwait : (waitingText ++ [nak]).count ack = 0 := by decide
  have hnak : [nak].count ack = 0 := by decide
  cases Rx.recv_step hs with
  | accept hw => exact h.accept hw
  | eot hw =>
    obtain ⟨hack, -, pre, hpre, hcar⟩ := h.going hret
    have hinp : inp = pre := by simpa [hw, Wait.taken] using hpre
    refine ⟨h.length_buf, h.blkNum_eq, h.total_eq, h.offsets, h.mem_eq, fun hw' => ?_,
      fun n hn => Or.inr ⟨?_, (Wait.ret.inj hn).symm, inp, out, s, rfl, hfeed, hw, ?_⟩⟩
    · cases hw'
    · rw [List.count_append, hack]
      rfl
    · rw [hinp]
      exact hcar
  | cancel | giveUp => exact h.fail ⟨rfl, rfl, rfl, rfl⟩ rfl
  | again => exact h.keep ⟨rfl, rfl, rfl, rfl⟩ rfl hwait hret trivial (Or.inl rfl)
  | skip hw =>
    exact h.keep ⟨rfl, rfl, rfl, rfl⟩ hret rfl hret (h.going hret).2.1 (Or.inl (by rw [hw]; rfl))
  | goOn hw ht hcount _ =>
    exact h.keep ⟨rfl, rfl, rfl, rfl⟩ hw rfl hret (hcount (h.going hret).2.1)
      (Or.inr ⟨_, rfl, ht⟩)
  | noNumber => exact h.keep ⟨rfl, rfl, rfl, rfl⟩ rfl rfl hret trivial (Or.inl rfl)
  | cut => exact h.keep ⟨rfl, rfl, rfl, rfl⟩ rfl hnak hret trivial (Or.inl rfl)
  | reject => exact h.keep ⟨rfl, rfl, rfl, rfl⟩ rfl hnak hret trivial (Or.inl rfl)

end Received

/-- What the receiver has got from any input. -/
lemma Rx.received {mem : BitVec 32 → Byte} {inp : List (Option Byte)} {out : List Byte} {s : Rx}
    (h : (Rx.start mem).feed inp = some (out, s)) : (Rx.start mem).Received inp out s := by
  induction inp using List.reverseRecOn generalizing out s with
  | nil =>
    obtain ⟨rfl, rfl⟩ := Prod.mk.inj (Option.some.inj h)
    refine ⟨by simp [Rx.blocks, Rx.start], rfl, rfl, rfl, fun _ a => rfl,
      fun _ => ⟨rfl, trivial, [], rfl, .nil []⟩, fun n hn => ?_⟩
    cases hn
  | append_singleton inp c ih =>
    rw [Rx.feed_concat] at h
    obtain ⟨⟨out₁, s₁⟩, hfeed, h⟩ := Option.bind_eq_some_iff.1 h
    obtain ⟨⟨o, s'⟩, hs, heq⟩ := Option.map_eq_some_iff.1 h
    obtain ⟨rfl, rfl⟩ := Prod.mk.inj heq
    exact (ih hfeed).step hfeed hs

/-- What the receiver has delivered when it returns `n`: the blocks that the input carries, up to
an `EOT` at the head of its loop. -/
structure Rx.Delivers (s₀ : Rx) (inp : List (Option Byte)) (out : List Byte) (s : Rx)
    (n : BitVec 32) (bufs : List (List Byte)) : Prop where
  size : n.toNat = 128 * bufs.length
  length_buf : ∀ buf ∈ bufs, buf.length = 128
  frames : ∃ pre out₁ s₁, inp = pre ++ [some eot] ∧ s₀.feed pre = some (out₁, s₁) ∧
    s₁.wait = .cmd ∧ Carries pre bufs
  dest : destBytes s.mem n.toNat = bufs.flatten
  acks : out.count ack = bufs.length + 1

/-- **What the receiver delivers.**  On any input with fewer than `2 ^ 25` accepted frames: a
non-zero result is the size of the blocks that the input carries, which are at `dest`; nothing
behind the accepted blocks is written; and a step that does not accept a frame keeps the memory,
the total and the expected number. -/
theorem receive_correct {mem : BitVec 32 → Byte} {inp : List (Option Byte)} {out : List Byte}
    {s : Rx} (h : (Rx.start mem).feed inp = some (out, s)) (hk : s.stores.length < 2 ^ 25) :
    (∀ n, s.wait = .ret n → n ≠ 0 → ∃ bufs, (Rx.start mem).Delivers inp out s n bufs) ∧
    ((∀ a, 128 * s.stores.length ≤ a.toNat → s.mem a = mem a) ∧
      s.stores.map Prod.fst =
        (List.range s.stores.length).map fun k => BitVec.ofNat 32 (128 * k)) ∧
    ∀ pre c post out₁ s₁ o s₂, inp = pre ++ c :: post →
      (Rx.start mem).feed pre = some (out₁, s₁) → s₁.recv c = some (o, s₂) →
      (∃ buf, s₁.wait = .csum s₁.blkNum (~~~s₁.blkNum) buf ∧ c = some (checksum buf) ∧
        s₂ = s₁.accept buf) ∨ s₁.SameStore s₂ := by
  have hrec := Rx.received h
  have hlen : s.blocks.length = s.stores.length := List.length_map ..
  have hflat := Rx.length_flatten_blocks hrec.length_buf
  refine ⟨fun n hn hne => ?_, ⟨fun a ha => ?_, hrec.offsets⟩, ?_⟩
  · obtain ⟨hack, hsize, hfr⟩ := (hrec.ended n hn).resolve_left hne
    have hn' : n.toNat = 128 * s.stores.length := by
      rw [hsize, hrec.total_eq, BitVec.toNat_ofNat]
      omega
    refine ⟨s.blocks, by rw [hn', hlen], hrec.length_buf, hfr, ?_, by rw [hack, hlen]⟩
    refine List.ext_getElem (by rw [destBytes, List.length_map, List.length_range, hn', hflat])
      fun j hj hj' => ?_
    have hj₂ : (BitVec.ofNat 32 j).toNat = j := by
      rw [BitVec.toNat_ofNat]
      omega
    simp only [destBytes, List.getElem_map, List.getElem_range]
    rw [hrec.mem_eq hk.le, hj₂, List.getD_eq_getElem?_getD, List.getElem?_eq_getElem hj',
      Option.getD_some]
  · rw [hrec.mem_eq hk.le, List.getD_eq_getElem?_getD, List.getElem?_eq_none (by omega),
      Option.getD_none]
    rfl
  · rintro pre c post out₁ s₁ o s₂ - - hs
    exact (Rx.recv_step hs).sameStore

/-- A silence and a letter, a block, its number again with another checksum, and the next block. -/
def twoBlocks : List (Option Byte) :=
  none :: some 0x41 :: (frame 1 (List.replicate 128 5)).map some ++
    ((frame 2 (List.replicate 128 7)).dropLast ++ [0]).map some ++
    (frame 2 (List.replicate 128 7)).map some ++ [some eot]

theorem receive_correct_two : ∃ out s, (Rx.start fun _ => 1).feed twoBlocks = some (out, s) ∧
    s.mem 127 = 5 ∧ s.mem 128 = 7 ∧ s.mem 256 = 1 ∧
    ∃ bufs, (Rx.start fun _ => 1).Delivers twoBlocks out s 256 bufs := by
  have hval : ((Rx.start fun _ => 1).feed twoBlocks).map
      (fun r => (r.2.wait, r.2.stores.length, r.2.mem 127, r.2.mem 128)) =
        some (.ret 256, 2, 5, 7) := by decide +kernel
  obtain ⟨⟨out, s⟩, h, heq⟩ := Option.map_eq_some_iff.1 hval
  simp only [Prod.mk.injEq] at heq
  obtain ⟨hw, hk, h127, h128⟩ := heq
  obtain ⟨hdelivers, ⟨hkeeps, -⟩, -⟩ := receive_correct h (by omega)
  exact ⟨out, s, h, h127, h128, hkeeps 256 (by rw [hk]; decide), hdelivers 256 hw (by decide)⟩

end Neorv32Boot.Xmodem
