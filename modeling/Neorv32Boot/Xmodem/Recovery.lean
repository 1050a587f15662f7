import Neorv32Boot.Xmodem.Surplus

/-!
# Recovery from faults of the line

The line hits one frame or one reply of a block at most.  A frame that is hit is sent again and the
transfer goes on, unless the damage keeps the number, the complement and the sum of the frame
right.  A reply that is hit is never made up for: the receiver has stored the block and rejects
every other frame of it.
-/

namespace Neorv32Boot.Xmodem

open Neorv32Boot.Trans (Reachable Inevitable restrict restrict_eq_some)

/-- What the line does to the first frame of a block, or to the reply to it. -/
inductive BlockFault
  | none
  | frame (fs : List Fault)
  | reply (f : Fault)

/-- The faults of what the sender is about to write. -/
def sendFaults (plan : ℕ → BlockFault) : Tx → List Fault
  | .write blkIdx 0 =>
    match plan blkIdx with
    | .frame fs => fs
    | .none | .reply _ => []
  | _ => []

/-- The faults of the reply that the sender waits for. -/
def replyFaults (plan : ℕ → BlockFault) : Tx → List Fault
  | .reply blkIdx 0 =>
    match plan blkIdx with
    | .reply f => [f]
    | .none | .frame _ => []
  | _ => []

/-- The faults are those of the plan, and a timer runs out only when the byte that the side waits
for does not come.  A timer inside a frame is shorter than the one of the sender. -/
def planned (plan : ℕ → BlockFault) (s : Sys) : Act → Bool
  | .send fs => fs == sendFaults plan s.tx
  | .read => true
  | .hostTimeout =>
    s.toDev.isEmpty && s.toHost.isEmpty && (s.rx.wait == .cmd || s.rx.wait.returned)
  | .recv fs => fs == replyFaults plan s.tx
  | .devTimeout fs =>
    fs.isEmpty && s.toDev.isEmpty && (s.tx.ended || (s.tx.waits && s.toHost.isEmpty))

/-- No frame loses its `SOH`, and no byte becomes a command or a reply. -/
def BlockFault.Permitted : BlockFault → Prop
  | .none => True
  | .frame fs => (∀ f ∈ fs.head?, f = .keep) ∧ ∀ b ∈ [soh, eot, can, ack, nak], .alter b ∉ fs
  | .reply f => ∀ b ∈ [soh, eot, can, ack, nak], f ≠ .alter b

/-- The line keeps the reply to the block, and does not turn the frame into a frame of this number
with another block. -/
def Benign (data : List Byte) (blkIdx : ℕ) : BlockFault → Prop
  | .none => True
  | .frame fs => ∀ buf, buf.length = 128 →
      deliver fs (packet data blkIdx) = frame (blkNum blkIdx) buf → buf = block data blkIdx
  | .reply f => f.apply ack = [ack]

/-! ### The places of the transfer -/

section Places

variable (data : List Byte) (plan : ℕ → BlockFault)

/-- The blocks before this one have been hit in a benign way only. -/
def Good (k : ℕ) : Prop := ∀ j < k, Benign data j (plan j)

/-- A second frame follows a first one that was hit. -/
def Again (k r : ℕ) : Prop :=
  r = 0 ∨ (r = 1 ∧ Benign data k (plan k) ∧ ∃ fs, plan k = .frame fs)

/-- The places of the transfer, as long as nothing has gone wrong for good.  The number falls as a
frame is received. -/
inductive Place : ℕ → Sys → Prop
  | write {k r : ℕ} {s : Sys} (hk : k < numBlocks data) (hgood : Good data plan k)
      (hagain : Again data plan k r) (hrx : s.rx.Holds data k) (hw : s.rx.wait = .cmd)
      (htx : s.tx = .write k r) (hd : s.toDev = []) (hh : s.toHost = []) : Place 3 s
  | sent {k r : ℕ} {p : List Byte} {s : Sys} (hk : k < numBlocks data) (hgood : Good data plan k)
      (hagain : Again data plan k r) (hrx : s.rx.Holds data k) (htx : s.tx = .reply k r)
      (hline : Line p (deliver (sendFaults plan (.write k r)) (packet data k)) s)
      (hh : s.toHost = []) : Place 3 s
  /-- the number of the block did not come -/
  | halted {k : ℕ} {s : Sys} (hk : k < numBlocks data) (hgood : Good data plan (k + 1))
      (hplan : ∃ fs, plan k = .frame fs) (hrx : s.rx.Holds data k) (hw : s.rx.wait = .bnc none)
      (htx : s.tx = .reply k 0) (hd : s.toDev = []) (hh : s.toHost = []) : Place 2 s
  | nacked {k : ℕ} {s : Sys} (hk : k < numBlocks data) (hgood : Good data plan (k + 1))
      (hplan : ∃ fs, plan k = .frame fs) (hrx : s.rx.Holds data k) (hw : s.rx.wait = .cmd)
      (htx : s.tx = .reply k 0) (hd : s.toDev = []) (hh : s.toHost = [nak]) : Place 1 s
  | acked {k r : ℕ} {s : Sys} (hk : k < numBlocks data) (hgood : Good data plan (k + 1))
      (hrx : s.rx.Holds data (k + 1)) (hw : s.rx.wait = .cmd) (htx : s.tx = .reply k r)
      (hd : s.toDev = []) (hh : s.toHost = [ack]) : Place 1 s
  | writeEot {s : Sys} (hgood : Good data plan (numBlocks data))
      (hrx : s.rx.Holds data (numBlocks data)) (hw : s.rx.wait = .cmd) (htx : s.tx = .writeEot)
      (hd : s.toDev = []) (hh : s.toHost = []) : Place 3 s
  | eotSent {s : Sys} (hgood : Good data plan (numBlocks data))
      (hrx : s.rx.Holds data (numBlocks data)) (hw : s.rx.wait = .cmd) (htx : s.tx = .eotReply)
      (hd : s.toDev = [eot]) (hh : s.toHost = []) : Place 3 s
  | eotAcked {s : Sys} (hgood : Good data plan (numBlocks data))
      (hrx : s.rx.Holds data (numBlocks data)) (hw : s.rx.wait = .ret s.rx.total)
      (htx : s.tx = .eotReply) (hd : s.toDev = []) (hh : s.toHost = [ack]) : Place 1 s
  | complete {s : Sys} (hgood : Good data plan (numBlocks data)) (h : Complete data s) : Place 0 s

/-- The `ACK` of the block `k` is lost: the sender cannot leave the block. -/
structure Stuck (k : ℕ) (s : Sys) : Prop where
  lt : k < numBlocks data
  tx : (∃ r, s.tx = .write k (r + 1)) ∨ (∃ r, s.tx = .reply k r) ∨ s.tx = .failed k
  noAck : ack ∉ s.toHost
  rx : s.rx.wait.returned = true ∨ (s.rx.Holds data (k + 1) ∧
    ∃ i p, Line p (List.replicate i (packet data k)).flatten s ∧ (s.tx = .reply k 0 → i = 0))

/-- What the receiver has to store. -/
def allStores : List (BitVec 32 × List Byte) :=
  (List.range (numBlocks data)).map fun k => (BitVec.ofNat 32 (128 * k), block data k)

/-- A fault that is not benign has gone through. -/
def Bad (s : Sys) : Prop :=
  ∃ k < numBlocks data, ¬ Benign data k (plan k) ∧
    (Stuck data k s ∨ ¬ s.rx.stores <+: allStores data)

/-- From a place of the transfer, a step leads to a later one, or a fault goes through. -/
def Goes (st : ℕ) (s s' : Sys) : Prop :=
  Bad data plan s' ∨ ∃ st', Place data plan st' s' ∧
    (s'.tx.rank data < s.tx.rank data ∨
      (s'.tx = s.tx ∧ (st' < st ∨ (st' = st ∧ s'.size < s.size))))

end Places

section Steps

variable {data : List Byte} {plan : ℕ → BlockFault} {s s' : Sys} {a : Act}

lemma Good.succ {k : ℕ} (h : Good data plan k) (hk : Benign data k (plan k)) :
    Good data plan (k + 1) := fun j hj => by
  rcases Nat.lt_succ_iff_lt_or_eq.1 hj with hj | rfl
  · exact h j hj
  · exact hk

/-- A frame that comes otherwise than it was sent is the first one of its block. -/
lemma Again.first {k r : ℕ} (h : Again data plan k r)
    (hne : deliver (sendFaults plan (.write k r)) (packet data k) ≠ packet data k) :
    r = 0 ∧ ∃ fs, plan k = .frame fs ∧
      deliver (sendFaults plan (.write k r)) (packet data k) = deliver fs (packet data k) := by
  rcases h with rfl | ⟨rfl, -⟩
  · rw [sendFaults] at hne ⊢
    cases hp : plan k with
    | frame fs => exact ⟨rfl, fs, rfl, rfl⟩
    | none | reply =>
      rw [hp] at hne
      exact absurd (deliver_nil _) hne
  · exact absurd (deliver_nil _) hne

/-- The head of a frame comes. -/
lemma head_deliver (hperm : ∀ k, (plan k).Permitted) (k r : ℕ) :
    ∃ rest, deliver (sendFaults plan (.write k r)) (packet data k) = soh :: rest := by
  have hnil : ∃ rest, deliver [] (packet data k) = soh :: rest := ⟨_, deliver_nil _⟩
  cases r with
  | succ r => exact hnil
  | zero =>
    rw [sendFaults]
    cases hp : plan k with
    | none | reply => exact hnil
    | frame fs =>
      have hkeep := hperm k
      rw [hp] at hkeep
      cases fs with
      | nil => exact hnil
      | cons f fs =>
        obtain rfl : f = .keep := hkeep.1 f rfl
        exact ⟨_, rfl⟩

lemma length_deliver_packet {k r : ℕ} (hk : k < numBlocks data) :
    (deliver (sendFaults plan (.write k r)) (packet data k)).length ≤ 132 :=
  (length_deliver_le _ _).trans (length_packet hk).le

/-! ### Steps that are not enabled -/

lemma not_send {fs : List Fault} (h : s.step data (.send fs) = some s')
    (htx : s.tx.send data = none) : False := by
  obtain ⟨out, tx, ht, -⟩ := step_send h
  cases htx.symm.trans ht

lemma not_read (h : s.step data .read = some s') (hh : s.toHost = []) : False := by
  obtain ⟨c, rest, tx, hto, -⟩ := step_read h
  cases hh.symm.trans hto

lemma not_recv {fs : List Fault} (h : s.step data (.recv fs) = some s') (hd : s.toDev = []) :
    False := by
  obtain ⟨c, rest, out, rx, hto, -⟩ := step_recv h
  cases hd.symm.trans hto

lemma planned_host (h : planned plan s .hostTimeout = true) :
    s.toDev = [] ∧ s.toHost = [] ∧ (s.rx.wait = .cmd ∨ s.rx.wait.returned = true) := by
  simpa [planned, and_assoc] using h

lemma planned_dev {fs : List Fault} (h : planned plan s (.devTimeout fs) = true) :
    fs = [] ∧ s.toDev = [] ∧ (s.tx.ended = true ∨ (s.tx.waits = true ∧ s.toHost = [])) := by
  simpa [planned, and_assoc] using h

lemma planned_send {fs : List Fault} (h : planned plan s (.send fs) = true) :
    fs = sendFaults plan s.tx := by
  simpa [planned] using h

lemma planned_recv {fs : List Fault} (h : planned plan s (.recv fs) = true) :
    fs = replyFaults plan s.tx := by
  simpa [planned] using h

/-! ### The steps of the transfer -/

lemma goes_write {k r : ℕ} (hk : k < numBlocks data)
    (hgood : Good data plan k) (hagain : Again data plan k r) (hrx : s.rx.Holds data k)
    (hw : s.rx.wait = .cmd) (htx : s.tx = .write k r) (hd : s.toDev = []) (hh : s.toHost = [])
    (hp : planned plan s a = true) (hs : s.step data a = some s') : Goes data plan 3 s s' := by
  cases a with
  | send fs =>
    obtain rfl := planned_send hp
    obtain ⟨out, tx, ht, rfl⟩ := step_send hs
    have hrank := rank_send ht
    rw [htx] at ht ⊢
    cases ht
    refine Or.inr ⟨3, .sent (p := []) hk hgood hagain hrx rfl ?_ hh, Or.inl hrank⟩
    rw [hd, List.nil_append]
    exact .start hw rfl
  | read => exact (not_read hs hh).elim
  | hostTimeout =>
    obtain ⟨tx, ht, -⟩ := step_hostTimeout hs
    rw [htx] at ht
    cases ht
  | recv fs => exact (not_recv hs hd).elim
  | devTimeout fs =>
    obtain ⟨-, -, ht | ⟨ht, -⟩⟩ := planned_dev hp <;> (rw [htx] at ht; cases ht)

lemma goes_nacked {k : ℕ} (hk : k < numBlocks data) (hgood : Good data plan (k + 1))
    (hplan : ∃ fs, plan k = .frame fs) (hrx : s.rx.Holds data k) (hw : s.rx.wait = .cmd)
    (htx : s.tx = .reply k 0) (hd : s.toDev = []) (hh : s.toHost = [nak])
    (hp : planned plan s a = true) (hs : s.step data a = some s') : Goes data plan 1 s s' := by
  cases a with
  | send fs => exact (not_send hs (by rw [htx]; rfl)).elim
  | read =>
    obtain ⟨c, rest, tx, hto, ht, rfl⟩ := step_read hs
    obtain ⟨rfl, rfl⟩ := List.cons.inj (hto.symm.trans hh)
    rw [htx, Tx.read, if_neg nak_ne_ack, if_pos rfl] at ht
    cases ht
    refine Or.inr ⟨3, .write (k := k) (r := 1) hk (fun j hj => hgood j (by omega))
      (Or.inr ⟨rfl, hgood k (by omega), hplan⟩) hrx hw rfl hd rfl, Or.inl ?_⟩
    rw [htx]
    exact rank_retry (r := 0) hk
  | hostTimeout => cases hh.symm.trans (planned_host hp).2.1
  | recv fs => exact (not_recv hs hd).elim
  | devTimeout fs =>
    obtain ⟨-, -, ht | ⟨-, hnil⟩⟩ := planned_dev hp
    · rw [htx] at ht
      cases ht
    · cases hh.symm.trans hnil

lemma goes_halted {k : ℕ} (hk : k < numBlocks data) (hgood : Good data plan (k + 1))
    (hplan : ∃ fs, plan k = .frame fs) (hrx : s.rx.Holds data k) (hw : s.rx.wait = .bnc none)
    (htx : s.tx = .reply k 0) (hd : s.toDev = []) (hh : s.toHost = [])
    (hp : planned plan s a = true) (hs : s.step data a = some s') : Goes data plan 2 s s' := by
  cases a with
  | send fs => exact (not_send hs (by rw [htx]; rfl)).elim
  | read => exact (not_read hs hh).elim
  | hostTimeout =>
    obtain ⟨-, -, hw' | hw'⟩ := planned_host hp
    · cases hw.symm.trans hw'
    · exact nomatch (hw ▸ hw')
  | recv fs => exact (not_recv hs hd).elim
  | devTimeout fs =>
    obtain ⟨rfl, -⟩ := planned_dev hp
    obtain ⟨out, rx, hr, rfl⟩ := step_devTimeout hs
    simp only [Rx.recv, hw] at hr
    cases hr
    refine Or.inr ⟨1, .nacked hk hgood hplan (hrx.congr rfl rfl rfl rfl) rfl htx hd ?_,
      Or.inr ⟨rfl, Or.inl (by omega)⟩⟩
    rw [hh, deliver_nil, List.nil_append]

lemma goes_acked {k r : ℕ} (hk : k < numBlocks data) (hgood : Good data plan (k + 1))
    (hrx : s.rx.Holds data (k + 1)) (hw : s.rx.wait = .cmd) (htx : s.tx = .reply k r)
    (hd : s.toDev = []) (hh : s.toHost = [ack])
    (hp : planned plan s a = true) (hs : s.step data a = some s') : Goes data plan 1 s s' := by
  cases a with
  | send fs => exact (not_send hs (by rw [htx]; rfl)).elim
  | read =>
    obtain ⟨c, rest, tx, hto, ht, rfl⟩ := step_read hs
    obtain ⟨rfl, rfl⟩ := List.cons.inj (hto.symm.trans hh)
    rw [htx, Tx.read, if_pos rfl] at ht
    cases ht
    have hrank : (Tx.block data (k + 1)).rank data < s.tx.rank data := by
      rw [htx]
      exact rank_block hk
    by_cases hnext : k + 1 < numBlocks data
    · exact Or.inr ⟨3, .write hnext hgood (Or.inl rfl) hrx hw (if_pos hnext) hd rfl, Or.inl hrank⟩
    · have hlast : k + 1 = numBlocks data := by omega
      rw [hlast] at hgood hrx
      exact Or.inr ⟨3, .writeEot hgood hrx hw (if_neg hnext) hd rfl, Or.inl hrank⟩
  | hostTimeout => cases hh.symm.trans (planned_host hp).2.1
  | recv fs => exact (not_recv hs hd).elim
  | devTimeout fs =>
    obtain ⟨-, -, ht | ⟨-, hnil⟩⟩ := planned_dev hp
    · rw [htx] at ht
      cases ht
    · cases hh.symm.trans hnil

lemma goes_writeEot (hgood : Good data plan (numBlocks data))
    (hrx : s.rx.Holds data (numBlocks data)) (hw : s.rx.wait = .cmd) (htx : s.tx = .writeEot)
    (hd : s.toDev = []) (hh : s.toHost = [])
    (hp : planned plan s a = true) (hs : s.step data a = some s') : Goes data plan 3 s s' := by
  cases a with
  | send fs =>
    obtain rfl := planned_send hp
    obtain ⟨out, tx, ht, rfl⟩ := step_send hs
    have hrank := rank_send ht
    rw [htx] at ht ⊢
    cases ht
    refine Or.inr ⟨3, .eotSent hgood hrx hw rfl ?_ hh, Or.inl hrank⟩
    rw [hd, sendFaults, deliver_nil, List.nil_append]
    · exact nofun
  | read => exact (not_read hs hh).elim
  | hostTimeout =>
    obtain ⟨tx, ht, -⟩ := step_hostTimeout hs
    rw [htx] at ht
    cases ht
  | recv fs => exact (not_recv hs hd).elim
  | devTimeout fs =>
    obtain ⟨-, -, ht | ⟨ht, -⟩⟩ := planned_dev hp <;> (rw [htx] at ht; cases ht)

lemma goes_eotSent (hgood : Good data plan (numBlocks data))
    (hrx : s.rx.Holds data (numBlocks data)) (hw : s.rx.wait = .cmd) (htx : s.tx = .eotReply)
    (hd : s.toDev = [eot]) (hh : s.toHost = [])
    (hp : planned plan s a = true) (hs : s.step data a = some s') : Goes data plan 3 s s' := by
  cases a with
  | send fs => exact (not_send hs (by rw [htx]; rfl)).elim
  | read => exact (not_read hs hh).elim
  | hostTimeout => cases hd.symm.trans (planned_host hp).1
  | recv fs =>
    obtain rfl := planned_recv hp
    obtain ⟨c, rest, out, rx, hto, hr, rfl⟩ := step_recv hs
    obtain ⟨rfl, rfl⟩ := List.cons.inj (hto.symm.trans hd)
    rw [Rx.recv_eot hw] at hr
    cases hr
    refine Or.inr ⟨1, .eotAcked hgood (hrx.congr rfl rfl rfl rfl) rfl htx rfl ?_,
      Or.inr ⟨rfl, Or.inl (by omega)⟩⟩
    rw [hh, htx, replyFaults, deliver_nil, List.nil_append]
    · exact nofun
  | devTimeout fs => cases hd.symm.trans (planned_dev hp).2.1

lemma goes_eotAcked (hdata : data.length % 128 = 0) (hgood : Good data plan (numBlocks data))
    (hrx : s.rx.Holds data (numBlocks data)) (hw : s.rx.wait = .ret s.rx.total)
    (htx : s.tx = .eotReply) (hd : s.toDev = []) (hh : s.toHost = [ack])
    (hp : planned plan s a = true) (hs : s.step data a = some s') : Goes data plan 1 s s' := by
  cases a with
  | send fs => exact (not_send hs (by rw [htx]; rfl)).elim
  | read =>
    obtain ⟨c, rest, tx, hto, ht, rfl⟩ := step_read hs
    obtain ⟨rfl, rfl⟩ := List.cons.inj (hto.symm.trans hh)
    rw [htx, Tx.read, if_pos rfl] at ht
    cases ht
    refine Or.inr ⟨0, .complete hgood ⟨rfl, ?_, hrx.stores_eq, hrx.dest_eq hdata⟩, Or.inl ?_⟩
    · rw [← length_eq hdata, ← hrx.total_eq]
      exact hw
    · rw [htx]
      simp [Tx.rank]
  | hostTimeout => cases hh.symm.trans (planned_host hp).2.1
  | recv fs => exact (not_recv hs hd).elim
  | devTimeout fs =>
    obtain ⟨out, rx, hr, -⟩ := step_devTimeout hs
    cases (Rx.recv_returned hw none).symm.trans hr

/-- A frame that is not taken for one of the block is the first one of the block, and was hit. -/
lemma Again.benign {k r : ℕ} (hk : k < numBlocks data) (h : Again data plan k r)
    (hno : ∀ buf, buf.length = 128 →
      deliver (sendFaults plan (.write k r)) (packet data k) ≠ frame (blkNum k) buf) :
    r = 0 ∧ (∃ fs, plan k = .frame fs) ∧ Benign data k (plan k) := by
  obtain ⟨hr, fs, hfs, heq⟩ := h.first fun heq =>
    hno _ (length_block hk) (heq.trans (packet_eq data k))
  refine ⟨hr, ⟨fs, hfs⟩, ?_⟩
  rw [hfs]
  exact fun buf hbuf hframe => absurd (heq.trans hframe) (hno buf hbuf)

/-- No frame comes from fewer bytes. -/
lemma ne_frame_of_short {msg : List Byte} (h : msg.length < 132) (num : Byte) (buf : List Byte)
    (hbuf : buf.length = 128) : msg ≠ frame num buf := by
  rintro rfl
  rw [length_frame hbuf] at h
  exact absurd h (by decide)

/-- A reply that is benign comes. -/
lemma Again.deliver_ack {k r : ℕ} (h : Again data plan k r) (hben : Benign data k (plan k)) :
    deliver (replyFaults plan (.reply k r)) [ack] = [ack] := by
  rcases h with rfl | ⟨rfl, -⟩
  · rw [replyFaults]
    cases hp : plan k with
    | none | frame => rfl
    | reply f =>
      rw [hp] at hben
      rw [deliver, deliver_nil, List.append_nil]
      exact hben
  · rfl

lemma not_mem_apply {f : Fault} (h : f.apply ack ≠ [ack]) : ack ∉ f.apply ack := by
  cases f with
  | keep => exact absurd rfl h
  | drop => exact List.not_mem_nil
  | alter b =>
    intro hmem
    exact h (congrArg (fun x => [x]) (List.mem_singleton.1 hmem).symm)

/-- When a whole frame of the block has come and the line is not benign, it is the reply that is
hit. -/
lemma Again.reply_hit {k r : ℕ} (h : Again data plan k r) (hben : ¬ Benign data k (plan k))
    (hframe : deliver (sendFaults plan (.write k r)) (packet data k) =
      frame (blkNum k) (block data k)) : r = 0 ∧ ∃ f, plan k = .reply f ∧ f.apply ack ≠ [ack] := by
  rcases h with rfl | ⟨-, hben', -⟩
  · rw [sendFaults] at hframe
    cases hp : plan k with
    | none =>
      rw [hp] at hben
      exact absurd trivial hben
    | frame fs =>
      rw [hp] at hben hframe
      exact absurd (fun buf _ heq => (frame_inj (heq.symm.trans hframe)).2) hben
    | reply f =>
      rw [hp] at hben
      exact ⟨rfl, f, rfl, hben⟩
  · exact absurd hben' hben

/-- A wrong block stays among those that were stored. -/
lemma not_prefix_of_wrong {k : ℕ} {rx : Rx} {buf : List Byte} (hk : k < numBlocks data)
    (hrx : rx.Holds data k) (hwrong : buf ≠ block data k) :
    ¬ (rx.accept buf).stores <+: allStores data := by
  rintro ⟨more, hmore⟩
  have hget := congrArg (·[k]?) hmore
  simp [allStores, hrx.stores_eq, hk] at hget
  exact hwrong hget.2

/-- The receiver takes a byte of a frame as it comes. -/
lemma goes_sent_recv {k r : ℕ} {p : List Byte} {fs : List Fault} (hlen : data.length < 2 ^ 32)
    (hperm : ∀ k, (plan k).Permitted) (hk : k < numBlocks data) (hgood : Good data plan k)
    (hagain : Again data plan k r) (hrx : s.rx.Holds data k) (htx : s.tx = .reply k r)
    (hline : Line p (deliver (sendFaults plan (.write k r)) (packet data k)) s)
    (hh : s.toHost = []) (hp : planned plan s (.recv fs) = true)
    (hs : s.step data (.recv fs) = some s') : Goes data plan 3 s s' := by
  obtain rfl := planned_recv hp
  obtain ⟨c, rest, out, rx, hto, hr, rfl⟩ := step_recv hs
  obtain ⟨more, hhead⟩ :
      ∃ more, deliver (sendFaults plan (.write k r)) (packet data k) = soh :: more :=
    head_deliver hperm k r
  have hflow : (p ++ [c]) ++ rest = deliver (sendFaults plan (.write k r)) (packet data k) := by
    rw [← hline.flow, hto, List.append_assoc, List.singleton_append]
  have hfront : (p ++ [c]).head? = some soh := by
    rw [hhead] at hflow
    cases p with
    | nil => exact congrArg some (List.cons.inj hflow).1
    | cons x p => exact congrArg some (List.cons.inj hflow).1
  have hle : (deliver (sendFaults plan (.write k r)) (packet data k)).length ≤ 132 :=
    length_deliver_packet hk
  rw [← hflow, List.length_append, List.length_append, List.length_singleton] at hle
  by_cases hlast : p.length < 131
  · -- inside the frame
    rw [Rx.recv_place hline.wait_eq hlast hfront] at hr
    cases hr
    refine Or.inr ⟨3, .sent (p := p ++ [c]) hk hgood hagain (hrx.congr rfl rfl rfl rfl) htx
      ⟨rfl, ?_, Or.inr hfront, hflow⟩ ?_, Or.inr ⟨rfl, Or.inr ⟨rfl, ?_⟩⟩⟩
    · rw [List.length_append, List.length_singleton]
      omega
    · rw [hh, deliver_nil_right, List.append_nil]
    · simp only [Sys.size, hto, deliver_nil_right, List.length_append, List.length_cons,
        List.length_nil]
      omega
  · -- the last byte of a frame
    have hp131 : p.length = 131 := by
      have := hline.short
      omega
    obtain rfl : rest = [] := List.eq_nil_of_length_eq_zero (by omega)
    rw [List.append_nil] at hflow
    have hhead' : p.head? = some soh := by
      cases p with
      | nil => cases hp131
      | cons x p => exact hfront
    rcases Rx.recv_last hline.wait_eq hp131 hhead' with ⟨buf, hbuf, hframe, hr'⟩ | ⟨hno, hr'⟩
    · rw [hflow, hrx.blkNum_eq] at hframe
      rw [hr] at hr'
      cases hr'
      by_cases hblock : buf = block data k
      · subst hblock
        have hrx' := hrx.accept hk hlen
        by_cases hben : Benign data k (plan k)
        · refine Or.inr ⟨1, .acked hk (hgood.succ hben) hrx' rfl htx rfl ?_,
            Or.inr ⟨rfl, Or.inl (by omega)⟩⟩
          rw [hh, htx, hagain.deliver_ack hben, List.nil_append]
        · -- the reply is lost
          obtain ⟨rfl, f, hf, hack⟩ := hagain.reply_hit hben hframe
          refine Or.inl ⟨k, hk, hben, Or.inl ⟨hk, Or.inr (Or.inl ⟨0, htx⟩), ?_,
            Or.inr ⟨hrx', 0, [], .start rfl rfl, fun _ => rfl⟩⟩⟩
          rw [hh, htx, replyFaults, hf, deliver, deliver_nil, List.append_nil, List.nil_append]
          exact not_mem_apply hack
      · -- a damaged frame that is accepted
        refine Or.inl ⟨k, hk, fun hben => hblock ?_, Or.inr (not_prefix_of_wrong hk hrx hblock)⟩
        obtain ⟨-, fs, hfs, heq⟩ := hagain.first fun heq =>
          hblock (frame_inj (hframe.symm.trans (heq.trans (packet_eq data k)))).2
        rw [hfs] at hben
        exact hben buf hbuf (heq.symm.trans hframe)
    · -- a damaged frame that is rejected
      rw [hflow, hrx.blkNum_eq] at hno
      rw [hr] at hr'
      cases hr'
      obtain ⟨rfl, ⟨fs, hfs⟩, hben⟩ := hagain.benign hk fun buf _ => hno buf
      refine Or.inr ⟨1, .nacked hk (hgood.succ hben) ⟨fs, hfs⟩ (hrx.congr rfl rfl rfl rfl) rfl htx
        rfl ?_, Or.inr ⟨rfl, Or.inl (by omega)⟩⟩
      rw [hh, htx, replyFaults, hfs, deliver_nil, List.nil_append]

lemma goes_sent {k r : ℕ} {p : List Byte} (hlen : data.length < 2 ^ 32)
    (hperm : ∀ k, (plan k).Permitted) (hk : k < numBlocks data) (hgood : Good data plan k)
    (hagain : Again data plan k r) (hrx : s.rx.Holds data k) (htx : s.tx = .reply k r)
    (hline : Line p (deliver (sendFaults plan (.write k r)) (packet data k)) s)
    (hh : s.toHost = []) (hp : planned plan s a = true)
    (hs : s.step data a = some s') : Goes data plan 3 s s' := by
  -- nothing more of the frame comes: some of its bytes are lost
  have hstarved : s.toDev = [] → ∃ more, p = soh :: more ∧
      r = 0 ∧ (∃ fs, plan k = .frame fs) ∧ Benign data k (plan k) := by
    intro hnil
    have hflow := hline.flow
    rw [hnil, List.append_nil] at hflow
    obtain ⟨more, hhead⟩ :
      ∃ more, deliver (sendFaults plan (.write k r)) (packet data k) = soh :: more :=
    head_deliver hperm k r
    refine ⟨more, hflow.trans hhead, hagain.benign hk fun buf hbuf => ?_⟩
    rw [← hflow]
    exact ne_frame_of_short hline.short _ _ hbuf
  cases a with
  | send fs => exact (not_send hs (by rw [htx]; rfl)).elim
  | read => exact (not_read hs hh).elim
  | hostTimeout =>
    obtain ⟨hnil, -, hw⟩ := planned_host hp
    obtain ⟨more, rfl, -⟩ := hstarved hnil
    rcases hw with hw | hw
    · exact absurd (hline.wait_cmd.1 hw) (List.cons_ne_nil _ _)
    · rw [hline.wait_eq, returned_place] at hw
      cases hw
  | recv fs => exact goes_sent_recv hlen hperm hk hgood hagain hrx htx hline hh hp hs
  | devTimeout fs =>
    obtain ⟨rfl, hnil, -⟩ := planned_dev hp
    obtain ⟨more, rfl, rfl, hplan, hben⟩ := hstarved hnil
    obtain ⟨out, rx, hr, rfl⟩ := step_devTimeout hs
    cases more with
    | nil =>
      simp only [Rx.recv, show s.rx.wait = .bn from hline.wait_eq] at hr
      cases hr
      refine Or.inr ⟨2, .halted hk (hgood.succ hben) hplan (hrx.congr rfl rfl rfl rfl) rfl htx hnil
        ?_, Or.inr ⟨rfl, Or.inl (by omega)⟩⟩
      rw [hh, deliver_nil, List.nil_append]
    | cons num more =>
      rw [Rx.timeout_place hline.wait_eq (by simp)] at hr
      cases hr
      refine Or.inr ⟨1, .nacked hk (hgood.succ hben) hplan (hrx.congr rfl rfl rfl rfl) rfl htx hnil
        ?_, Or.inr ⟨rfl, Or.inl (by omega)⟩⟩
      rw [hh, deliver_nil, List.nil_append]

/-! ### A lost reply -/

/-- The receiver that waits for a frame asks once more, or gives up. -/
lemma Rx.timeout_noAck {rx rx' : Rx} {out : List Byte} (hw : rx.wait = .cmd)
    (h : rx.recv none = some (out, rx')) :
    ack ∉ out ∧ (rx'.wait.returned = true ∨ rx' = { rx with retries := rx.retries + 1 }) := by
  simp only [Rx.recv, hw] at h
  split_ifs at h <;> cases h
  · exact ⟨by decide, Or.inl rfl⟩
  · exact ⟨by decide, Or.inr (by rw [hw])⟩

lemma Stuck.retry {k r : ℕ} {toHost : List Byte} (h : Stuck data k s) (hno : ack ∉ toHost) :
    Stuck data k { s with tx := .retry k r, toHost := toHost } := by
  refine ⟨h.lt, ?_, hno, h.rx.imp id ?_⟩
  · rw [Tx.retry]
    split_ifs
    · exact Or.inl ⟨r, rfl⟩
    · exact Or.inr (Or.inr rfl)
  · rintro ⟨hrx, i, p, hline, -⟩
    refine ⟨hrx, i, p, hline.congr rfl rfl, fun ht => ?_⟩
    simp only [Tx.retry] at ht
    split_ifs at ht

/-- The frame of the block is written once more. -/
lemma Stuck.send {k : ℕ} {fs : List Fault} (h : Stuck data k s)
    (hp : planned plan s (.send fs) = true) (hs : s.step data (.send fs) = some s') :
    Stuck data k s' := by
  obtain rfl := planned_send hp
  obtain ⟨out, tx, ht, rfl⟩ := step_send hs
  rcases h.tx with ⟨r, htx⟩ | ⟨r, htx⟩ | htx
  · rw [htx] at ht ⊢
    cases ht
    refine ⟨h.lt, Or.inr (Or.inl ⟨r + 1, rfl⟩), h.noAck, h.rx.imp id ?_⟩
    rintro ⟨hrx, i, p, hline, -⟩
    refine ⟨hrx, i + 1, p, ?_, nofun⟩
    rw [List.replicate_succ', List.flatten_append, List.flatten_singleton,
      show sendFaults plan (.write k (r + 1)) = [] from rfl, deliver_nil]
    exact hline.send
  · rw [htx] at ht
    cases ht
  · rw [htx] at ht
    cases ht

/-- What the sender reads is not the `ACK` it waits for. -/
lemma Stuck.read {k : ℕ} (h : Stuck data k s) (hs : s.step data .read = some s') :
    Stuck data k s' := by
  obtain ⟨c, rest, tx, hto, ht, rfl⟩ := step_read hs
  obtain ⟨hc, hrest⟩ := not_or.1 (mt List.mem_cons.2 (hto ▸ h.noAck))
  rcases h.tx with ⟨r, htx⟩ | ⟨r, htx⟩ | htx
  · rw [htx] at ht
    cases ht
  · rw [htx, Tx.read, if_neg (Ne.symm hc)] at ht
    split_ifs at ht <;> cases ht
    · exact h.retry hrest
    · refine ⟨h.lt, Or.inr (Or.inl ⟨r, rfl⟩), hrest, h.rx.imp id ?_⟩
      rintro ⟨hrx, i, p, hline, hi⟩
      exact ⟨hrx, i, p, hline.congr rfl rfl, fun ht => hi (htx.trans ht)⟩
  · rw [htx] at ht
    cases ht

/-- No reply is hit any more while old frames are on the way. -/
lemma Stuck.replyFaults_eq_nil {k : ℕ} (h : Stuck data k s) (hne : s.tx ≠ .reply k 0) :
    replyFaults plan s.tx = [] := by
  rcases h.tx with ⟨r, htx⟩ | ⟨r, htx⟩ | htx
  · rw [htx]
    rfl
  · cases r with
    | zero => exact absurd htx hne
    | succ r =>
      rw [htx]
      rfl
  · rw [htx]
    rfl

/-- The receiver takes a byte of an old frame, and rejects the frame with its last one. -/
lemma Stuck.recv {k : ℕ} {fs : List Fault} (h : Stuck data k s)
    (hp : planned plan s (.recv fs) = true) (hs : s.step data (.recv fs) = some s') :
    Stuck data k s' := by
  obtain rfl := planned_recv hp
  obtain ⟨c, rest, out, rx, hto, hr, rfl⟩ := step_recv hs
  rcases h.rx with hret | ⟨hrx, i, p, hline, hi⟩
  · cases (Rx.recv_of_returned hret _).symm.trans hr
  cases i with
  | zero =>
    have hflow := hline.flow
    rw [hto] at hflow
    exact absurd hflow (by simp)
  | succ i =>
    have hne : s.tx ≠ .reply k 0 := fun ht => Nat.succ_ne_zero i (hi ht)
    rw [h.replyFaults_eq_nil hne, deliver_nil]
    rw [List.replicate_succ, List.flatten_cons] at hline
    obtain ⟨hrx', ⟨rfl, -, p', hline'⟩ | ⟨rfl, -, hline'⟩⟩ := hline.recv_old h.lt hrx hto hr
    · refine ⟨h.lt, h.tx, ?_, Or.inr ⟨hrx', i + 1, p', ?_, hi⟩⟩
      · rw [List.append_nil]
        exact h.noAck
      · rw [List.replicate_succ, List.flatten_cons]
        exact hline' _
    · refine ⟨h.lt, h.tx, ?_, Or.inr ⟨hrx', i, [], hline' _, fun ht => absurd ht hne⟩⟩
      exact fun hmem => (List.mem_append.1 hmem).elim h.noAck (by decide)

/-- The receiver asks for a frame again, or gives up. -/
lemma Stuck.devTimeout {k : ℕ} {fs : List Fault} (h : Stuck data k s)
    (hp : planned plan s (.devTimeout fs) = true) (hs : s.step data (.devTimeout fs) = some s') :
    Stuck data k s' := by
  obtain ⟨rfl, hnil, -⟩ := planned_dev hp
  obtain ⟨out, rx, hr, rfl⟩ := step_devTimeout hs
  rw [deliver_nil]
  rcases h.rx with hret | ⟨hrx, i, p, hline, hi⟩
  · cases (Rx.recv_of_returned hret _).symm.trans hr
  have hline' := hline
  rw [← List.append_nil (List.flatten _)] at hline'
  obtain ⟨rfl, -⟩ := hline'.starved (fun f hf => length_replicate_packet h.lt hf) (Or.inl rfl) hnil
  obtain ⟨hout, hrx'⟩ := Rx.timeout_noAck (hline.wait_cmd.2 rfl) hr
  refine ⟨h.lt, h.tx, fun hmem => (List.mem_append.1 hmem).elim h.noAck hout, hrx'.imp id ?_⟩
  rintro rfl
  exact ⟨hrx.congr rfl rfl rfl rfl, i, [], hline.congr rfl rfl, hi⟩

/-- The sender does not come out of the block. -/
lemma Stuck.step {k : ℕ} (h : Stuck data k s) (hp : planned plan s a = true)
    (hs : s.step data a = some s') : Stuck data k s' := by
  cases a with
  | send fs => exact h.send hp hs
  | read => exact h.read hs
  | hostTimeout =>
    obtain ⟨tx, ht, rfl⟩ := step_hostTimeout hs
    rcases h.tx with ⟨r, htx⟩ | ⟨r, htx⟩ | htx
    · rw [htx] at ht
      cases ht
    · rw [htx] at ht
      cases ht
      exact h.retry h.noAck
    · rw [htx] at ht
      cases ht
  | recv fs => exact h.recv hp hs
  | devTimeout fs => exact h.devTimeout hp hs

/-- What was stored stays stored. -/
lemma Rx.recv_stores {rx rx' : Rx} {c : Option Byte} {out : List Byte}
    (h : rx.recv c = some (out, rx')) : rx.stores <+: rx'.stores := by
  unfold Rx.recv at h
  split at h <;> (try split_ifs at h) <;> cases h <;>
    first | exact List.prefix_refl _ | exact List.prefix_append ..

lemma stores_mono (hs : s.step data a = some s') : s.rx.stores <+: s'.rx.stores := by
  cases a with
  | send fs =>
    obtain ⟨out, tx, -, rfl⟩ := step_send hs
    exact List.prefix_refl _
  | read =>
    obtain ⟨c, rest, tx, -, -, rfl⟩ := step_read hs
    exact List.prefix_refl _
  | hostTimeout =>
    obtain ⟨tx, -, rfl⟩ := step_hostTimeout hs
    exact List.prefix_refl _
  | recv fs =>
    obtain ⟨c, rest, out, rx, -, hr, rfl⟩ := step_recv hs
    exact Rx.recv_stores hr
  | devTimeout fs =>
    obtain ⟨out, rx, hr, rfl⟩ := step_devTimeout hs
    exact Rx.recv_stores hr

/-- A fault that has gone through is not made up for. -/
lemma Bad.step (h : Bad data plan s) (hp : planned plan s a = true)
    (hs : s.step data a = some s') : Bad data plan s' := by
  obtain ⟨k, hk, hben, hstuck | hwrong⟩ := h
  · exact ⟨k, hk, hben, Or.inl (hstuck.step hp hs)⟩
  · exact ⟨k, hk, hben, Or.inr fun hpre => hwrong ((stores_mono hs).trans hpre)⟩

lemma Bad.not_complete (h : Bad data plan s) : ¬ Complete data s := by
  intro hc
  obtain ⟨k, hk, hben, hstuck | hwrong⟩ := h
  · rcases hstuck.tx with ⟨r, htx⟩ | ⟨r, htx⟩ | htx <;> cases htx.symm.trans hc.tx_eq
  · exact hwrong (hc.stores_eq ▸ List.prefix_refl _)

/-! ### Runs -/

/-- The transfer is at one of its places, or a fault has gone through. -/
def Faulty (data : List Byte) (plan : ℕ → BlockFault) (s : Sys) : Prop :=
  Bad data plan s ∨ ∃ st, Place data plan st s

/-- Nothing happens after the end. -/
lemma Complete.no_step (h : Complete data s) : ¬ s.step data a = some s' := by
  intro hs
  cases a with
  | send fs => exact not_send hs (by rw [h.tx_eq]; rfl)
  | read =>
    obtain ⟨c, rest, tx, -, ht, -⟩ := step_read hs
    exact nomatch (h.tx_eq ▸ ht)
  | hostTimeout =>
    obtain ⟨tx, ht, -⟩ := step_hostTimeout hs
    exact nomatch (h.tx_eq ▸ ht)
  | recv fs =>
    obtain ⟨c, rest, out, rx, -, hr, -⟩ := step_recv hs
    cases (Rx.recv_returned h.wait_eq _).symm.trans hr
  | devTimeout fs =>
    obtain ⟨out, rx, hr, -⟩ := step_devTimeout hs
    cases (Rx.recv_returned h.wait_eq _).symm.trans hr

/-- A step from one of the places. -/
lemma Place.goes {st : ℕ} (hdata : data.length % 128 = 0) (hlen : data.length < 2 ^ 32)
    (hperm : ∀ k, (plan k).Permitted) (h : Place data plan st s)
    (hp : planned plan s a = true) (hs : s.step data a = some s') : Goes data plan st s s' := by
  cases h with
  | write hk hgood hagain hrx hw htx hd hh =>
    exact goes_write hk hgood hagain hrx hw htx hd hh hp hs
  | sent hk hgood hagain hrx htx hline hh =>
    exact goes_sent hlen hperm hk hgood hagain hrx htx hline hh hp hs
  | halted hk hgood hplan hrx hw htx hd hh =>
    exact goes_halted hk hgood hplan hrx hw htx hd hh hp hs
  | nacked hk hgood hplan hrx hw htx hd hh =>
    exact goes_nacked hk hgood hplan hrx hw htx hd hh hp hs
  | acked hk hgood hrx hw htx hd hh => exact goes_acked hk hgood hrx hw htx hd hh hp hs
  | writeEot hgood hrx hw htx hd hh => exact goes_writeEot hgood hrx hw htx hd hh hp hs
  | eotSent hgood hrx hw htx hd hh => exact goes_eotSent hgood hrx hw htx hd hh hp hs
  | eotAcked hgood hrx hw htx hd hh => exact goes_eotAcked hdata hgood hrx hw htx hd hh hp hs
  | complete hgood h => exact absurd hs h.no_step

lemma Faulty.step (hdata : data.length % 128 = 0) (hlen : data.length < 2 ^ 32)
    (hperm : ∀ k, (plan k).Permitted) (h : Faulty data plan s)
    (hs : restrict (Sys.step data) (planned plan) s a = some s') : Faulty data plan s' := by
  obtain ⟨hp, hs⟩ := restrict_eq_some.1 hs
  rcases h with hbad | ⟨st, hplace⟩
  · exact Or.inl (hbad.step hp hs)
  · rcases hplace.goes hdata hlen hperm hp hs with hbad | ⟨st', hplace', -⟩
    · exact Or.inl hbad
    · exact Or.inr ⟨st', hplace'⟩

/-- A complete transfer has seen benign faults only. -/
lemma Faulty.benign (h : Faulty data plan s) (hc : Complete data s) :
    Good data plan (numBlocks data) := by
  rcases h with hbad | ⟨st, hplace⟩
  · exact absurd hc hbad.not_complete
  · cases hplace with
    | complete hgood => exact hgood
    | write _ _ _ _ _ htx | sent _ _ _ _ htx | halted _ _ _ _ _ htx | nacked _ _ _ _ _ htx
    | acked _ _ _ _ htx | writeEot _ _ _ htx | eotSent _ _ _ htx | eotAcked _ _ _ htx =>
      cases htx.symm.trans hc.tx_eq

/-! ### Progress -/

lemma planned_can (hp : planned plan s a = true) (h : ∃ s', s.step data a = some s') :
    ∃ a s', restrict (Sys.step data) (planned plan) s a = some s' := by
  obtain ⟨s', hs⟩ := h
  exact ⟨a, s', restrict_eq_some.2 ⟨hp, hs⟩⟩

lemma planned_timeout (hd : s.toDev = []) (hh : s.toHost = []) (htx : s.tx.waits = true) :
    planned plan s (.devTimeout []) = true := by
  simp [planned, hd, hh, htx]

/-- Something can happen, as long as the transfer is not complete. -/
lemma Place.can_step {st : ℕ} (h : Place data plan st s) :
    Complete data s ∨ ∃ a s', restrict (Sys.step data) (planned plan) s a = some s' := by
  cases h with
  | write _ _ _ _ _ htx | writeEot _ _ _ htx =>
    exact Or.inr (planned_can (a := .send (sendFaults plan s.tx)) (by simp [planned])
      (send_enabled (by rw [htx]; rfl) _))
  | sent _ _ _ _ htx hline hh =>
    by_cases hd : s.toDev = []
    · exact Or.inr (planned_can (planned_timeout hd hh (by rw [htx]; rfl))
        (devTimeout_enabled hline.not_returned []))
    · exact Or.inr (planned_can (a := .recv (replyFaults plan s.tx)) (by simp [planned])
        (recv_enabled hd hline.not_returned _))
  | halted _ _ _ _ hw htx hd hh =>
    exact Or.inr (planned_can (planned_timeout hd hh (by rw [htx]; rfl))
      (devTimeout_enabled (fun size => by rw [hw]; nofun) []))
  | nacked _ _ _ _ _ htx _ hh | acked _ _ _ _ htx _ hh =>
    exact Or.inr (planned_can rfl (read_enabled (by rw [hh]; nofun) (htx ▸ reply_read _ _)))
  | eotSent _ _ hw _ hd =>
    exact Or.inr (planned_can (a := .recv (replyFaults plan s.tx)) (by simp [planned])
      (recv_enabled (by rw [hd]; nofun) (fun size => by rw [hw]; nofun) _))
  | eotAcked _ _ _ htx _ hh =>
    exact Or.inr (planned_can rfl (read_enabled (by rw [hh]; nofun) (htx ▸ eotReply_read)))
  | complete _ h => exact Or.inl h

/-- With benign faults only, the transfer completes from each of its places. -/
lemma Place.inevitable {st : ℕ} (hdata : data.length % 128 = 0) (hlen : data.length < 2 ^ 32)
    (hperm : ∀ k, (plan k).Permitted) (hben : Good data plan (numBlocks data))
    (h : Place data plan st s) :
    Inevitable (restrict (Sys.step data) (planned plan)) (Complete data) s := by
  have wf : WellFounded (Prod.Lex (· < ·) (Prod.Lex (· < ·) (· < ·)) : ℕ × ℕ × ℕ → _ → Prop) :=
    WellFounded.prod_lex Nat.lt_wfRel.wf (WellFounded.prod_lex Nat.lt_wfRel.wf Nat.lt_wfRel.wf)
  refine Inevitable.of_rank wf (I := fun x s => ∃ st, Place data plan st s ∧
    x = (s.tx.rank data, st, s.size)) (fun x s hI => ?_) (fun x s a s' hI hs => ?_) ⟨st, h, rfl⟩
  · obtain ⟨st, hplace, -⟩ := hI
    exact hplace.can_step
  · obtain ⟨st, hplace, rfl⟩ := hI
    obtain ⟨hp, hs⟩ := restrict_eq_some.1 hs
    refine Or.inr ?_
    rcases hplace.goes hdata hlen hperm hp hs with ⟨k, hk, hno, -⟩ | ⟨st', hplace', hlt⟩
    · exact absurd (hben k hk) hno
    · refine ⟨_, ?_, st', hplace', rfl⟩
      rcases hlt with hlt | ⟨htx, hlt | ⟨rfl, hlt⟩⟩
      · exact .left _ _ hlt
      · exact htx ▸ .right _ (.left _ _ hlt)
      · exact htx ▸ .right _ (.right _ hlt)

lemma Place.start (mem : BitVec 32 → Byte) (hpos : 0 < numBlocks data) :
    Place data plan 3 (Sys.start data (Rx.start mem) []) :=
  .write hpos nofun (Or.inl rfl) (Rx.Holds.start data mem) rfl (if_pos hpos) rfl rfl

/-- A transfer with a fault that is not benign does not complete. -/
lemma good_of_inevitable (hdata : data.length % 128 = 0) (hlen : data.length < 2 ^ 32)
    (hpos : 0 < numBlocks data) (hperm : ∀ k, (plan k).Permitted) {mem : BitVec 32 → Byte}
    (h : Inevitable (restrict (Sys.step data) (planned plan)) (Complete data)
      (Sys.start data (Rx.start mem) [])) : Good data plan (numBlocks data) := by
  obtain ⟨s, hs, hc⟩ := h.exists_reachable
  have hfaulty : Faulty data plan s :=
    hs.inv (Or.inr ⟨3, Place.start mem hpos⟩) fun _ _ _ hI hs => hI.step hdata hlen hperm hs
  exact hfaulty.benign hc

end Steps

/-- **The transfer completes exactly when the faults are benign**: no reply is hit, and no frame is
turned into one that passes the checks of the receiver with another block. -/
theorem recovers_iff (payload : List Byte) (mem : BitVec 32 → Byte) (plan : ℕ → BlockFault)
    (hne : payload ≠ []) (hlen : (pad payload).length < 2 ^ 32)
    (hperm : ∀ k, (plan k).Permitted) :
    Inevitable (restrict (Sys.step (pad payload)) (planned plan)) (Complete (pad payload))
        (Sys.start (pad payload) (Rx.start mem) []) ↔
      ∀ k < numBlocks (pad payload), Benign (pad payload) k (plan k) := by
  have hpos := numBlocks_pad_pos hne
  constructor
  · intro h
    exact good_of_inevitable (length_pad payload) hlen hpos hperm h
  · intro hben
    exact Place.inevitable (length_pad payload) hlen hperm hben (Place.start mem hpos)

/-- A payload of one byte, of whose only frame the last byte is dropped. -/
theorem recovers_one :
    Inevitable (restrict (Sys.step (pad [0x2A]))
        (planned fun _ => .frame (List.replicate 131 .keep ++ [.drop])))
        (Complete (pad [0x2A])) (Sys.start (pad [0x2A]) (Rx.start fun _ => 0) []) ↔
      ∀ k < numBlocks (pad [0x2A]), Benign (pad [0x2A]) k
        (.frame (List.replicate 131 .keep ++ [.drop])) :=
  recovers_iff [0x2A] (fun _ => 0) (fun _ => .frame (List.replicate 131 .keep ++ [.drop]))
    (by decide) (by decide +kernel) fun _ => ⟨by decide, by decide⟩

/-- The `ACK` of the only block is lost. -/
theorem lost_ack_stops :
    ¬ ∀ (payload : List Byte) (mem : BitVec 32 → Byte) (plan : ℕ → BlockFault), payload ≠ [] →
      (pad payload).length < 2 ^ 32 → (∀ k, (plan k).Permitted) →
      Inevitable (restrict (Sys.step (pad payload)) (planned plan)) (Complete (pad payload))
        (Sys.start (pad payload) (Rx.start mem) []) := by
  intro h
  have hperm : ∀ k, ((fun _ => BlockFault.reply .drop : ℕ → BlockFault) k).Permitted :=
    fun _ b _ => nofun
  have hlen : (pad [0x2A]).length < 2 ^ 32 := by decide +kernel
  have hne : ([0x2A] : List Byte) ≠ [] := List.cons_ne_nil _ _
  have hpos := numBlocks_pad_pos hne
  have hgood := good_of_inevitable (length_pad [0x2A]) hlen hpos hperm
    (h [0x2A] (fun _ => 0) _ hne hlen hperm)
  have hack : Fault.drop.apply ack = [ack] := hgood 0 hpos
  cases hack

end Neorv32Boot.Xmodem
