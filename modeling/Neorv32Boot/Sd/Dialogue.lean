import Neorv32Boot.Sd.MultiWrite

/-!
# The dialogue of the multi-segment write

The framing is positional, so that the two sides are in step in every state that they can reach.
`Phase` lists the places of the dialogue, and `At` says, for each of them, where the two sides are
and which bytes are on the way.  Only what is on the way matters, and not where a side or a stream
holds it, so that `At` is about a `View` of the state that putting a byte into a stream does not
change.
-/

namespace Neorv32Boot.Sd

open Stage2 (readyText puthex32)

/-! ### Views -/

/-- A state without the difference between bytes that are still to be put into a stream and bytes
in it. -/
structure View where
  host : Host
  toDev : List Byte
  dev : Dev
  toHost : List Byte
  card : Card
  writes : ℕ

/-- The view of a state. -/
def Sys.view (s : Sys) : View where
  host := s.host
  toDev := s.h2s ++ s.hostTx
  dev := s.dev
  toHost := s.s2h ++ s.devTx
  card := s.card
  writes := s.writes

/-- The steps that change the view. -/
inductive View.Step (env : Env) (segments : List Segment) : View → View → Prop
  | read {v : View} {chunk rest out : List Byte} {host : Host}
      (hread : v.host.read segments chunk = some (out, host)) (hrest : v.toHost = chunk ++ rest) :
      View.Step env segments v { v with host := host, toDev := v.toDev ++ out, toHost := rest }
  | recv {v : View} {b : Byte} {rest out : List Byte} {dev : Dev}
      (hrecv : v.dev.recv b = some (out, dev)) (hrest : v.toDev = b :: rest) :
      View.Step env segments v { v with dev := dev, toDev := rest, toHost := v.toHost ++ out }
  | init {v : View} (hdev : v.dev = .sdInit) (hok : env.initOk = true) :
      View.Step env segments v { v with dev := .recvCount [], toHost := v.toHost ++ mwReady }
  | initFail {v : View} (hdev : v.dev = .sdInit) (hok : env.initOk = false) :
      View.Step env segments v { v with
        dev := .dispatch, toHost := v.toHost ++ (ascii "[sd] mw: init FAIL\r\n" ++ readyText) }
  | written {v : View} {n k lba cnt i : BitVec 32} {rx : Sector}
      (hdev : v.dev = .sdWrite n k lba cnt i rx) (hok : env.fault v.writes = none) :
      View.Step env segments v { v with
        dev := (Dev.written n k lba cnt i).2, toHost := v.toHost ++ (Dev.written n k lba cnt i).1
        card := v.card.write [(lba + i, rx)], writes := v.writes + 1 }
  | failed {v : View} {n k lba cnt i rc : BitVec 32} {rx junk : Sector}
      (hdev : v.dev = .sdWrite n k lba cnt i rx) (hok : env.fault v.writes = some (rc, junk)) :
      View.Step env segments v { v with
        dev := .dispatch, toHost := v.toHost ++ failText (lba + i) rc
        card := v.card.write [(lba + i, junk)], writes := v.writes + 1 }

/-- The bytes that a side still has to put into its stream. -/
def Sys.unsent (s : Sys) : ℕ := s.hostTx.length + s.devTx.length

/-- A step puts a byte into a stream, or it is a step of the view. -/
lemma Sys.step_view {env : Env} {segments : List Segment} {s s' : Sys} {a : Act}
    (h : s.step env segments a = some s') :
    (s'.view = s.view ∧ s'.unsent < s.unsent) ∨ View.Step env segments s.view s'.view := by
  cases a with
  | hostSend =>
    rw [Sys.step] at h
    split at h
    · exact nomatch h
    · next b tx htx =>
      cases h
      simp [Sys.view, Sys.unsent, htx]
  | devSend =>
    rw [Sys.step] at h
    split at h
    · exact nomatch h
    · next b tx htx =>
      cases h
      simp [Sys.view, Sys.unsent, htx]
  | hostRead n =>
    rw [Sys.step] at h
    split_ifs at h with hn
    split at h
    · exact nomatch h
    · next out host hread =>
      cases h
      have hrest : s.view.toHost = s.s2h.take n ++ (s.s2h.drop n ++ s.devTx) := by
        rw [← List.append_assoc, List.take_append_drop]
        rfl
      refine Or.inr ?_
      have : View.Step env segments s.view _ := .read hread hrest
      simpa [Sys.view, hn.1] using this
  | devRecv =>
    rw [Sys.step] at h
    split at h
    · next b h2s hdtx hh2s =>
      split at h
      · exact nomatch h
      · next out dev hrecv =>
        cases h
        have hrest : s.view.toDev = b :: (h2s ++ s.hostTx) := by simp [Sys.view, hh2s]
        refine Or.inr ?_
        have : View.Step env segments s.view _ := .recv hrecv hrest
        simpa [Sys.view, hdtx] using this
    · exact nomatch h
  | devWork =>
    rw [Sys.step] at h
    split at h
    · next hdtx hdev =>
      split_ifs at h with hok
      · cases h
        refine Or.inr ?_
        have : View.Step env segments s.view _ := .init hdev hok
        simpa [Sys.view, hdtx] using this
      · cases h
        refine Or.inr ?_
        have : View.Step env segments s.view _ := .initFail hdev (by simpa using hok)
        simpa [Sys.view, hdtx] using this
    · next n k lba cnt i rx hdtx hdev =>
      simp only at h
      split at h
      · next hf =>
        cases h
        refine Or.inr ?_
        have : View.Step env segments s.view _ := .written hdev hf
        simpa [Sys.view, hdtx] using this
      · next rc junk hf =>
        cases h
        refine Or.inr ?_
        have : View.Step env segments s.view _ := .failed hdev hf
        simpa [Sys.view, hdtx] using this
    · exact nomatch h

/-! ### Markers -/

/-- A marker ends with a byte that it has nowhere else, so that it is found only when it has come
as a whole, whatever came before. -/
lemma infix_append_cases {pre q m : List Byte} {z : Byte} (hz : z ∉ q)
    (h : m ++ [z] <:+: pre ++ q) : m ++ [z] <:+: pre := by
  obtain ⟨s, t, hst⟩ := h
  rcases List.append_eq_append_iff.1 hst with ⟨a, ha, -⟩ | ⟨c, hc, hq⟩
  · exact ⟨s, a, ha.symm⟩
  · rcases List.eq_nil_or_concat c with rfl | ⟨c, x, rfl⟩
    · exact ⟨s, [], by simpa using hc⟩
    · rw [List.concat_eq_append, ← List.append_assoc, ← List.append_assoc] at hc
      have hx : z = x := by simpa using (List.append_inj' hc rfl).2
      exact absurd (by simp [hq, hx]) hz

/-- A marker that was not there before is found exactly when all of it has come. -/
lemma marker_found_iff {pre m buf rest : List Byte} {z : Byte} (hz : z ∉ m)
    (hpre : ¬ m ++ [z] <:+: pre) (h : buf ++ rest = pre ++ (m ++ [z])) :
    m ++ [z] <:+: buf ↔ rest = [] := by
  constructor
  · intro hin
    by_contra hne
    obtain ⟨r, x, rfl⟩ := List.eq_nil_or_concat rest |>.resolve_left hne
    rw [List.concat_eq_append, ← List.append_assoc, ← List.append_assoc] at h
    have hbuf : buf ++ r = pre ++ m := (List.append_inj' h rfl).1
    refine hpre (infix_append_cases hz ?_)
    rw [← hbuf]
    exact List.infix_append_of_infix_left hin
  · rintro rfl
    rw [List.append_nil] at h
    rw [h]
    exact List.infix_append_right

/-! ### The places of the dialogue -/

/-- The places of the dialogue.  `front`, `seg` and `rest` are the segments that are done, the
current one, and those to come, and `i` is the current sector. -/
inductive Phase
  /-- the mode command is on the way -/
  | hello
  /-- stage2 is in `sd_init` -/
  | init
  /-- `MW_READY` is on the way -/
  | ready
  /-- the number of segments is on the way -/
  | count
  /-- `MW_GO` is on the way -/
  | go
  /-- the header of a segment is on the way, with its first sector -/
  | header (front : List Segment) (seg : Segment) (rest : List Segment)
  /-- a sector is on the way -/
  | sector (front : List Segment) (seg : Segment) (rest : List Segment) (i : ℕ)
  /-- stage2 is in `sd_write_block` -/
  | write (front : List Segment) (seg : Segment) (rest : List Segment) (i : ℕ)
  /-- the ack of a sector is on the way -/
  | acked (front : List Segment) (seg : Segment) (rest : List Segment) (i : ℕ)
  /-- the report of a failed write is on the way -/
  | failed (front : List Segment) (seg : Segment) (rest : List Segment) (i : ℕ)
  /-- the host has read that a write failed -/
  | nacked
  | raised
  /-- `MW_DONE` is on the way -/
  | finish
  | done

/-- The sector writes of the segments that are done, and of `i` sectors of the current one. -/
def writesTo (front : List Segment) (seg : Segment) (i : ℕ) : List (BitVec 32 × Sector) :=
  front.flatMap Segment.writes ++ seg.writes.take i

/-- What stage2 prints at the end. -/
def doneText : List Byte := ascii "\nMW_DONE\n" ++ readyText

section Dialogue

variable (env : Env) (segments : List Segment) (card : Card) (pre : List Byte)

/-- The writes `ws` have been done, and none of them has failed. -/
structure Wrote (v : View) (ws : List (BitVec 32 × Sector)) : Prop where
  card_eq : v.card = card.write ws
  writes_eq : v.writes = ws.length
  ok : ∀ j < ws.length, env.fault j = none

/-- The writes before some write have been done, this one has failed, and no other one was
tried. -/
def WroteFailed (v : View) : Prop :=
  ∃ ws w rest rc junk, segments.flatMap Segment.writes = ws ++ w :: rest ∧
    (∀ j < ws.length, env.fault j = none) ∧ env.fault ws.length = some (rc, junk) ∧
    v.card = (card.write ws).write [(w.1, junk)] ∧ v.writes = ws.length + 1

/-- The state of stage2 in `recv_u32` of a segment header. -/
def devHdr (front : List Segment) (got : List Byte) : Dev :=
  .recvHdr (BitVec.ofNat 32 segments.length) (BitVec.ofNat 32 front.length) got

/-- Where the two sides are at a place of the dialogue, and what is on the way. -/
def At : Phase → View → Prop
  | .hello, v =>
    (∃ buf, v.host = .waitReady buf ∧ buf ++ v.toHost = pre) ∧ v.toDev = [0x57] ∧
      v.dev = .dispatch ∧ Wrote env card v []
  | .init, v =>
    (∃ buf, v.host = .waitReady buf ∧ buf ++ v.toHost = pre) ∧ v.toDev = [] ∧
      v.dev = .sdInit ∧ Wrote env card v []
  | .ready, v =>
    (∃ buf, v.host = .waitReady buf ∧ buf ++ v.toHost = pre ++ mwReady) ∧ v.toHost ≠ [] ∧
      v.toDev = [] ∧ v.dev = .recvCount [] ∧ Wrote env card v []
  | .count, v =>
    v.host = .waitGo [] ∧ v.toHost = [] ∧
      (∃ got, v.dev = .recvCount got ∧ got.length < 4 ∧
        got ++ v.toDev = Bytes.toLE 4 segments.length) ∧ Wrote env card v []
  | .go, v =>
    (∃ buf, v.host = .waitGo buf ∧ buf ++ v.toHost = mwGo) ∧ v.toHost ≠ [] ∧ v.toDev = [] ∧
      v.dev = devHdr segments [] [] ∧ Wrote env card v []
  | .header front seg rest, v =>
    segments = front ++ seg :: rest ∧ v.host = .ack front.length seg rest 0 ∧ v.toHost = [] ∧
      (∃ got, v.dev = devHdr segments front got ∧ got.length < 8 ∧
        got ++ v.toDev = Bytes.toLE 4 seg.startLba ++ Bytes.toLE 4 seg.secCount ++ seg.block 0) ∧
      Wrote env card v (writesTo front seg 0)
  | .sector front seg rest i, v =>
    segments = front ++ seg :: rest ∧ i < seg.secCount ∧ v.host = .ack front.length seg rest i ∧
      v.toHost = [] ∧
      (∃ got, v.dev = .recvSector (BitVec.ofNat 32 segments.length) (BitVec.ofNat 32 front.length)
          (BitVec.ofNat 32 seg.startLba) (BitVec.ofNat 32 seg.secCount) (BitVec.ofNat 32 i) got ∧
        got.length < 512 ∧ got ++ v.toDev = seg.block i) ∧
      Wrote env card v (writesTo front seg i)
  | .write front seg rest i, v =>
    segments = front ++ seg :: rest ∧ i < seg.secCount ∧ v.host = .ack front.length seg rest i ∧
      v.toHost = [] ∧ v.toDev = [] ∧
      v.dev = .sdWrite (BitVec.ofNat 32 segments.length) (BitVec.ofNat 32 front.length)
        (BitVec.ofNat 32 seg.startLba) (BitVec.ofNat 32 seg.secCount) (BitVec.ofNat 32 i)
        (sectorAt seg.data i) ∧
      Wrote env card v (writesTo front seg i)
  | .acked front seg rest i, v =>
    segments = front ++ seg :: rest ∧ i < seg.secCount ∧ v.host = .ack front.length seg rest i ∧
      v.toDev = [] ∧
      (v.toHost, v.dev) = Dev.written (BitVec.ofNat 32 segments.length)
        (BitVec.ofNat 32 front.length) (BitVec.ofNat 32 seg.startLba)
        (BitVec.ofNat 32 seg.secCount) (BitVec.ofNat 32 i) ∧
      Wrote env card v (writesTo front seg (i + 1))
  | .failed front seg rest i, v =>
    segments = front ++ seg :: rest ∧ i < seg.secCount ∧ v.host = .ack front.length seg rest i ∧
      v.toDev = [] ∧ v.dev = .dispatch ∧ (∃ lba rc, v.toHost = failText lba rc) ∧
      WroteFailed env segments card v
  | .nacked, v =>
    (∃ k seg i b, v.host = .extra k seg i b) ∧ v.toDev = [] ∧ v.dev = .dispatch ∧
      WroteFailed env segments card v
  | .raised, v =>
    (∃ e, v.host = .raised e) ∧ v.toDev = [] ∧ v.dev = .dispatch ∧
      WroteFailed env segments card v
  | .finish, v =>
    (∃ buf, v.host = .waitDone buf ∧ buf ++ v.toHost = doneText ∧ ¬ mwDone <:+: buf) ∧
      v.toDev = [] ∧ v.dev = .dispatch ∧
      Wrote env card v (segments.flatMap Segment.writes)
  | .done, v =>
    v.host = .returned ∧ v.toDev = [] ∧ v.dev = .dispatch ∧
      Wrote env card v (segments.flatMap Segment.writes)

/-- A bound on the places that segments still lead through. -/
def ahead (segs : List Segment) : ℕ := (segs.map fun s => 5 * s.secCount + 5).sum

/-- A number that falls from place to place. -/
def Phase.rank : Phase → ℕ
  | .hello => ahead segments + 5
  | .init => ahead segments + 4
  | .ready => ahead segments + 3
  | .count => ahead segments + 2
  | .go => ahead segments + 1
  | .header _ seg rest => ahead rest + 5 * seg.secCount + 4
  | .sector _ seg rest i => ahead rest + 5 * (seg.secCount - i) + 3
  | .write _ seg rest i => ahead rest + 5 * (seg.secCount - i) + 2
  | .acked _ seg rest i | .failed _ seg rest i => ahead rest + 5 * (seg.secCount - i) + 1
  | .nacked | .finish => 1
  | .raised | .done => 0

/-- The number of bytes on the way. -/
def View.size (v : View) : ℕ := v.toDev.length + v.toHost.length

/-- From a place of the dialogue, a step leads to a later one, or takes a byte off the way. -/
def Goes (ph : Phase) (v v' : View) : Prop :=
  ∃ ph', At env segments card pre ph' v' ∧
    (ph'.rank segments < ph.rank segments ∨
      (ph'.rank segments = ph.rank segments ∧ v'.size < v.size))

end Dialogue

/-! ### What the two sides send -/

lemma recvU32_toLE {n : ℕ} (h : n < 2 ^ 32) : recvU32 (Bytes.toLE 4 n) = BitVec.ofNat 32 n := by
  rw [recvU32, Bytes.ofLE_toLE_of_lt (by omega)]

lemma packU32s_one {n : ℕ} (h : n < 2 ^ 32) : packU32s [n] = .ok (Bytes.toLE 4 n) := by
  rw [packU32s, if_pos (by simpa only [List.mem_singleton, forall_eq] using h)]
  simp

lemma packU32s_two {a b : ℕ} (ha : a < 2 ^ 32) (hb : b < 2 ^ 32) :
    packU32s [a, b] = .ok (Bytes.toLE 4 a ++ Bytes.toLE 4 b) := by
  rw [packU32s, if_pos fun x hx => ?_]
  · simp
  · rcases List.mem_cons.1 hx with rfl | hx
    · exact ha
    · rwa [List.mem_singleton.1 hx]

/-- The next segment starts with its header and its first sector. -/
lemma nextSegment_cons {seg : Segment} (h : seg.Ok) (k : ℕ) (rest : List Segment) :
    Host.nextSegment k (seg :: rest) =
      (Bytes.toLE 4 seg.startLba ++ Bytes.toLE 4 seg.secCount ++ seg.block 0,
        .ack k seg rest 0) := by
  have hpos := h.pos
  have hle := h.le
  have hlba := h.lba
  have hne : seg.secCount ≠ 0 := by omega
  rw [Host.nextSegment, if_neg (not_not.2 h.aligned), packU32s_two (by omega) (by omega)]
  simp only [hne, if_false]

/-- A sector that was sent is the sector of the segment. -/
lemma length_block {seg : Segment} {i : ℕ} (hi : i < seg.secCount) :
    (seg.block i).length = 512 := by
  unfold Segment.secCount sector at hi
  rw [Segment.block, List.length_take, List.length_drop]
  unfold sector
  omega

lemma sectorAt_block (seg : Segment) (i : ℕ) :
    sectorAt (seg.block i) 0 = sectorAt seg.data i := by
  funext j
  have hj : (j : ℕ) < sector := j.isLt
  simp only [sectorAt, Segment.block, Nat.mul_zero, Nat.zero_add, List.getD_eq_getElem?_getD,
    List.getElem?_take, hj, if_true, List.getElem?_drop]

lemma writesTo_succ (front : List Segment) {seg : Segment} {i : ℕ} (hi : i < seg.secCount) :
    writesTo front seg (i + 1) = writesTo front seg i ++
      [(BitVec.ofNat 32 seg.startLba + BitVec.ofNat 32 i, sectorAt seg.data i)] := by
  have hw : seg.writes.take (i + 1) = seg.writes.take i ++
      [(BitVec.ofNat 32 seg.startLba + BitVec.ofNat 32 i, sectorAt seg.data i)] := by
    have hlt : i < seg.writes.length := by simpa [Segment.writes] using hi
    rw [List.take_succ_eq_append_getElem hlt]
    simp [Segment.writes, BitVec.ofNat_add]
  rw [writesTo, writesTo, hw, List.append_assoc]

lemma length_writes (seg : Segment) : seg.writes.length = seg.secCount := by
  simp [Segment.writes]

/-- All sectors of a segment. -/
lemma writesTo_secCount (front : List Segment) (seg : Segment) :
    writesTo front seg seg.secCount = (front ++ [seg]).flatMap Segment.writes := by
  rw [writesTo, ← length_writes, List.take_length]
  simp

/-- Where stage2 is after a sector, and what it prints: an ack, and the end of the write after the
last one. -/
lemma written_eq {n k cnt i : ℕ} (lba : BitVec 32) (hi : i < cnt) (hc : cnt ≤ 8192) (hk : k < n)
    (hn : n ≤ 16) :
    Dev.written (BitVec.ofNat 32 n) (BitVec.ofNat 32 k) lba (BitVec.ofNat 32 cnt)
        (BitVec.ofNat 32 i) =
      if i + 1 < cnt then
        ([0x4B], .recvSector (BitVec.ofNat 32 n) (BitVec.ofNat 32 k) lba (BitVec.ofNat 32 cnt)
          (BitVec.ofNat 32 (i + 1)) [])
      else if k + 1 < n then ([0x4B], .recvHdr (BitVec.ofNat 32 n) (BitVec.ofNat 32 (k + 1)) [])
      else ([0x4B] ++ doneText, .dispatch) := by
  have h1 : BitVec.ofNat 32 i + 1 = BitVec.ofNat 32 (i + 1) := by bv_omega
  have h2 : BitVec.ofNat 32 k + 1 = BitVec.ofNat 32 (k + 1) := by bv_omega
  have h3 : BitVec.ofNat 32 (i + 1) < BitVec.ofNat 32 cnt ↔ i + 1 < cnt := by bv_omega
  have h4 : BitVec.ofNat 32 (k + 1) < BitVec.ofNat 32 n ↔ k + 1 < n := by bv_omega
  simp only [Dev.written, h1, h2, h3, h4, doneText, List.append_assoc]

/-! ### Steps of the dialogue -/

/-- Nothing but a write can fail: `sd_init` succeeds, stage2 accepts the segments, and the host is
not fooled by what stage2 has printed before. -/
structure Accepted (env : Env) (segments : List Segment) (pre : List Byte) : Prop where
  initOk : env.initOk = true
  pos : 1 ≤ segments.length
  le : segments.length ≤ 16
  ok : ∀ s ∈ segments, s.Ok
  quiet : ¬ mwReady <:+: pre

/-- What the dialogue needs before its first segment: stage2 accepts the number of segments, and the
host is not fooled. -/
structure Talks (segments : List Segment) (pre : List Byte) : Prop where
  pos : 1 ≤ segments.length
  le : segments.length ≤ 16
  quiet : ¬ mwReady <:+: pre

lemma Accepted.talks {env : Env} {segments : List Segment} {pre : List Byte}
    (h : Accepted env segments pre) : Talks segments pre :=
  ⟨h.pos, h.le, h.quiet⟩

lemma read_waitReady {segments : List Segment} {buf chunk out : List Byte} {host : Host}
    (hlen : segments.length < 2 ^ 32)
    (h : Host.read segments (.waitReady buf) chunk = some (out, host)) :
    0 < chunk.length ∧ (out, host) =
      if mwReady <:+: buf ++ chunk then (Bytes.toLE 4 segments.length, .waitGo [])
      else ([], .waitReady (buf ++ chunk)) := by
  rw [Host.read, packU32s_one hlen] at h
  split_ifs at h ⊢ with hc hm <;> exact ⟨by omega, (Option.some.inj h).symm⟩

lemma read_waitGo {segments : List Segment} {buf chunk out : List Byte} {host : Host}
    (h : Host.read segments (.waitGo buf) chunk = some (out, host)) :
    0 < chunk.length ∧ (out, host) =
      if mwGo <:+: buf ++ chunk then Host.nextSegment 0 segments
      else ([], .waitGo (buf ++ chunk)) := by
  rw [Host.read] at h
  split_ifs at h ⊢ with hc hm <;> exact ⟨by omega, (Option.some.inj h).symm⟩

lemma read_waitDone {segments : List Segment} {buf chunk out : List Byte} {host : Host}
    (h : Host.read segments (.waitDone buf) chunk = some (out, host)) :
    0 < chunk.length ∧ (out, host) =
      if mwDone <:+: buf ++ chunk then ([], .returned)
      else if mwFail <:+: buf ++ chunk then
        ([], .raised (.runtimeError "MW did not complete"))
      else ([], .waitDone (buf ++ chunk)) := by
  rw [Host.read] at h
  split_ifs at h ⊢ with hc hm hf <;> exact ⟨by omega, (Option.some.inj h).symm⟩

lemma read_ack {segments rest : List Segment} {seg : Segment} {k i : ℕ} {chunk out : List Byte}
    {host : Host} (h : Host.read segments (.ack k seg rest i) chunk = some (out, host)) :
    ∃ b, chunk = [b] ∧ (out, host) =
      if b ≠ 0x4B then ([], .extra k seg i b)
      else if i + 1 < seg.secCount then (seg.block (i + 1), .ack k seg rest (i + 1))
      else Host.nextSegment (k + 1) rest := by
  obtain _ | ⟨b, _ | ⟨c, t⟩⟩ := chunk
  · exact nomatch h
  · refine ⟨b, rfl, ?_⟩
    rw [Host.read] at h
    split_ifs at h ⊢ <;> exact (Option.some.inj h).symm
  · exact nomatch h

section Steps

variable {env : Env} {segments : List Segment} {card : Card} {pre : List Byte} {v v' : View}

lemma Wrote.congr {ws : List (BitVec 32 × Sector)} (h : Wrote env card v ws)
    (hc : v'.card = v.card) (hw : v'.writes = v.writes) : Wrote env card v' ws :=
  ⟨hc.trans h.card_eq, hw.trans h.writes_eq, h.ok⟩

/-- Before `MW_READY` has come as a whole, the host reads on. -/
lemma read_early {buf chunk rest out : List Byte} {host : Host} (ha : Talks segments pre)
    (hread : Host.read segments (.waitReady buf) chunk = some (out, host))
    (hpre : buf ++ (chunk ++ rest) = pre) :
    0 < chunk.length ∧ out = [] ∧ host = .waitReady (buf ++ chunk) := by
  have hlen := ha.le
  obtain ⟨hpos, heq⟩ := read_waitReady (by omega) hread
  have hno : ¬ mwReady <:+: buf ++ chunk := by
    intro hin
    refine ha.quiet ?_
    rw [← hpre, ← List.append_assoc]
    exact List.infix_append_of_infix_left hin
  rw [if_neg hno] at heq
  exact ⟨hpos, congrArg Prod.fst heq, congrArg Prod.snd heq⟩

lemma step_hello (ha : Talks segments pre) (h : At env segments card pre .hello v)
    (hs : View.Step env segments v v') : Goes env segments card pre .hello v v' := by
  obtain ⟨⟨buf, hhost, hbuf⟩, hdev, hd, hw⟩ := h
  cases hs with
  | read hread hrest =>
    rw [hhost] at hread
    rw [hrest] at hbuf
    obtain ⟨hpos, rfl, rfl⟩ := read_early ha hread hbuf
    refine ⟨.hello, ⟨⟨_, rfl, by simpa using hbuf⟩, by simpa using hdev, hd, hw.congr rfl rfl⟩,
      Or.inr ⟨rfl, ?_⟩⟩
    simp only [View.size, hrest, List.length_append, List.length_nil]
    omega
  | recv hrecv hrest =>
    rw [hdev] at hrest
    obtain ⟨rfl, rfl⟩ := List.cons.inj hrest
    rw [hd] at hrecv
    cases hrecv
    exact ⟨.init, ⟨⟨buf, hhost, by simpa using hbuf⟩, rfl, rfl, hw.congr rfl rfl⟩,
      Or.inl (by simp [Phase.rank])⟩
  | init hdev' | initFail hdev' | written hdev' | failed hdev' =>
    exact absurd (hd.symm.trans hdev') nofun

lemma step_init (ha : Talks segments pre) (hok : env.initOk = true)
    (h : At env segments card pre .init v) (hs : View.Step env segments v v') :
    Goes env segments card pre .init v v' := by
  obtain ⟨⟨buf, hhost, hbuf⟩, hdev, hd, hw⟩ := h
  cases hs with
  | read hread hrest =>
    rw [hhost] at hread
    rw [hrest] at hbuf
    obtain ⟨hpos, rfl, rfl⟩ := read_early ha hread hbuf
    refine ⟨.init, ⟨⟨_, rfl, by simpa using hbuf⟩, by simpa using hdev, hd, hw.congr rfl rfl⟩,
      Or.inr ⟨rfl, ?_⟩⟩
    simp only [View.size, hrest, List.length_append, List.length_nil]
    omega
  | recv hrecv hrest => exact absurd (hdev.symm.trans hrest) nofun
  | init hdev' =>
    refine ⟨.ready, ⟨⟨buf, hhost, ?_⟩, ?_, hdev, rfl, hw.congr rfl rfl⟩,
      Or.inl (by simp [Phase.rank])⟩
    · rw [← hbuf, List.append_assoc]
    · exact List.append_ne_nil_of_right_ne_nil _ (List.cons_ne_nil _ _)
  | initFail hdev' hno => exact absurd (hok.symm.trans hno) nofun
  | written hdev' | failed hdev' =>
    exact absurd (hd.symm.trans hdev') nofun

lemma step_ready (ha : Talks segments pre) (h : At env segments card pre .ready v)
    (hs : View.Step env segments v v') : Goes env segments card pre .ready v v' := by
  obtain ⟨⟨buf, hhost, hbuf⟩, hne, hdev, hd, hw⟩ := h
  have hle := ha.le
  cases hs with
  | @read chunk rest out host hread hrest =>
    rw [hhost] at hread
    rw [hrest, ← List.append_assoc] at hbuf
    obtain ⟨hpos, heq⟩ := read_waitReady (by omega) hread
    have hfound : mwReady <:+: buf ++ chunk ↔ rest = [] :=
      marker_found_iff (m := ascii "MW_READY") (z := 0x0A) (by decide) ha.quiet hbuf
    by_cases hr : rest = []
    · rw [if_pos (hfound.2 hr)] at heq
      cases heq
      exact ⟨.count, ⟨rfl, hr, ⟨[], hd, by simp, by simp [hdev]⟩, hw.congr rfl rfl⟩,
        Or.inl (by simp [Phase.rank])⟩
    · rw [if_neg (mt hfound.1 hr)] at heq
      cases heq
      refine ⟨.ready, ⟨⟨_, rfl, hbuf⟩, hr, by simpa using hdev, hd, hw.congr rfl rfl⟩,
        Or.inr ⟨rfl, ?_⟩⟩
      simp only [View.size, hrest, List.length_append, List.length_nil]
      omega
  | recv hrecv hrest => exact absurd (hdev.symm.trans hrest) nofun
  | init hdev' | initFail hdev' | written hdev' | failed hdev' =>
    exact absurd (hd.symm.trans hdev') nofun

/-- The host that waits for `MW_GO` with nothing on the way reads nothing. -/
lemma not_read_nil {h : Host} {chunk rest out : List Byte} {host : Host}
    (hh : (∃ buf, h = .waitGo buf) ∨ ∃ k seg rest i, h = .ack k seg rest i)
    (hread : h.read segments chunk = some (out, host)) (hrest : [] = chunk ++ rest) : False := by
  have hchunk : chunk = [] := (List.append_eq_nil_iff.1 hrest.symm).1
  subst hchunk
  rcases hh with ⟨buf, rfl⟩ | ⟨k, seg, rest, i, rfl⟩
  · exact absurd (read_waitGo hread).1 (by simp)
  · obtain ⟨b, hb, -⟩ := read_ack hread
    exact nomatch hb

/-- Bytes of a message are received until all have come. -/
lemma recv_front {got rest msg : List Byte} {b : Byte} {n : ℕ} (hmsg : got ++ b :: rest = msg)
    (hgot : got.length < n) :
    (got ++ [b]) ++ rest = msg ∧ (¬ (got ++ [b]).length < n → got ++ [b] = msg.take n ∧
      rest = msg.drop n) := by
  have h1 : (got ++ [b]) ++ rest = msg := by simpa using hmsg
  refine ⟨h1, fun hlen => ?_⟩
  have hl : (got ++ [b]).length = n := by
    rw [List.length_append, List.length_singleton] at hlen ⊢
    omega
  rw [← h1, List.take_left' hl, List.drop_left' hl]
  exact ⟨rfl, rfl⟩

lemma step_count (ha : Talks segments pre) (h : At env segments card pre .count v)
    (hs : View.Step env segments v v') : Goes env segments card pre .count v v' := by
  obtain ⟨hhost, hto, ⟨got, hd, hgot, hmsg⟩, hw⟩ := h
  have hpos := ha.pos
  have hle := ha.le
  cases hs with
  | read hread hrest =>
    rw [hto] at hrest
    exact (not_read_nil (Or.inl ⟨_, hhost⟩) hread hrest).elim
  | @recv b rest out dev hrecv hrest =>
    rw [hrest] at hmsg
    obtain ⟨hsplit, hall⟩ := recv_front hmsg hgot
    rw [hd, Dev.recv] at hrecv
    simp only at hrecv
    split_ifs at hrecv with hlt hbad
    · cases hrecv
      refine ⟨.count, ⟨hhost, by simp [hto], ⟨_, rfl, hlt, hsplit⟩, hw.congr rfl rfl⟩,
        Or.inr ⟨rfl, ?_⟩⟩
      simp only [View.size, hrest, List.length_append, List.length_cons, List.length_nil]
      omega
    · obtain ⟨hm, -⟩ := hall hlt
      rw [hm, List.take_of_length_le (by simp), recvU32_toLE (by omega)] at hbad
      exact absurd hbad (by bv_omega)
    · obtain ⟨hm, hr⟩ := hall hlt
      rw [hm, List.take_of_length_le (by simp), recvU32_toLE (by omega)] at hrecv
      rw [List.drop_of_length_le (by simp)] at hr
      cases hrecv
      exact ⟨.go, ⟨⟨[], hhost, by simp [hto]⟩, by simp [hto]; exact List.cons_ne_nil _ _, hr, rfl,
        hw.congr rfl rfl⟩, Or.inl (by simp [Phase.rank])⟩
  | init hdev' | initFail hdev' | written hdev' | failed hdev' =>
    exact absurd (hd.symm.trans hdev') nofun

/-- The host goes on to the next segment, or has none left. -/
lemma goes_header {front rest : List Segment} {seg : Segment} (hseg : seg.Ok)
    (hsplit : segments = front ++ seg :: rest)
    (hw : Wrote env card v (front.flatMap Segment.writes))
    (hd : v.dev = devHdr segments front []) (hto : v.toHost = [])
    (hhost : (v.toDev, v.host) = Host.nextSegment front.length (seg :: rest)) :
    At env segments card pre (.header front seg rest) v := by
  rw [nextSegment_cons hseg, Prod.mk.injEq] at hhost
  refine ⟨hsplit, hhost.2, hto, ⟨[], hd, by simp, hhost.1⟩, ?_⟩
  simpa [writesTo] using hw

lemma step_go (ha : Talks segments pre) (hok : ∀ seg ∈ segments.head?, seg.Ok)
    (h : At env segments card pre .go v) (hs : View.Step env segments v v') :
    Goes env segments card pre .go v v' := by
  obtain ⟨⟨buf, hhost, hbuf⟩, hne, hdev, hd, hw⟩ := h
  have hpos := ha.pos
  cases hs with
  | @read chunk rest out host hread hrest =>
    rw [hhost] at hread
    rw [hrest, ← List.append_assoc] at hbuf
    obtain ⟨hlen, heq⟩ := read_waitGo hread
    have hfound : mwGo <:+: buf ++ chunk ↔ rest = [] :=
      marker_found_iff (m := ascii "MW_GO") (z := 0x0A) (by decide)
        (show ¬ mwGo <:+: [] by decide) hbuf
    by_cases hr : rest = []
    · rw [if_pos (hfound.2 hr)] at heq
      obtain ⟨seg, segs, hcons⟩ := List.exists_cons_of_length_pos hpos
      refine ⟨.header [] seg segs, goes_header (hok seg (by simp [hcons])) hcons
        (hw.congr rfl rfl) hd hr ?_, Or.inl ?_⟩
      · rw [hdev, List.nil_append, heq, hcons]
        rfl
      · simp only [Phase.rank, hcons, ahead, List.map_cons, List.sum_cons]
        omega
    · rw [if_neg (mt hfound.1 hr)] at heq
      cases heq
      refine ⟨.go, ⟨⟨_, rfl, hbuf⟩, hr, by simpa using hdev, hd, hw.congr rfl rfl⟩,
        Or.inr ⟨rfl, ?_⟩⟩
      simp only [View.size, hrest, List.length_append, List.length_nil]
      omega
  | recv hrecv hrest => exact absurd (hdev.symm.trans hrest) nofun
  | init hdev' | initFail hdev' | written hdev' | failed hdev' =>
    exact absurd (hd.symm.trans hdev') nofun

lemma step_header {front rest : List Segment} {seg : Segment} (hseg : seg.Ok)
    (h : At env segments card pre (.header front seg rest) v) (hs : View.Step env segments v v') :
    Goes env segments card pre (.header front seg rest) v v' := by
  obtain ⟨hsplit, hhost, hto, ⟨got, hd, hgot, hmsg⟩, hw⟩ := h
  have hpos := hseg.pos
  have hcap := hseg.le
  have hlba := hseg.lba
  cases hs with
  | read hread hrest =>
    rw [hto] at hrest
    exact (not_read_nil (Or.inr ⟨_, _, _, _, hhost⟩) hread hrest).elim
  | @recv b more out dev hrecv hrest =>
    rw [hrest] at hmsg
    obtain ⟨hmore, hall⟩ := recv_front hmsg hgot
    rw [hd, devHdr, Dev.recv] at hrecv
    simp only at hrecv
    split_ifs at hrecv with hlt hbad
    · cases hrecv
      refine ⟨.header front seg rest, ⟨hsplit, hhost, by simp [hto], ⟨_, rfl, hlt, hmore⟩,
        hw.congr rfl rfl⟩, Or.inr ⟨rfl, ?_⟩⟩
      simp only [View.size, hrest, List.length_append, List.length_cons, List.length_nil]
      omega
    all_goals
      obtain ⟨hm, hr⟩ := hall hlt
      rw [List.take_left' (by simp)] at hm
      rw [List.drop_left' (by simp)] at hr
      rw [hm, List.drop_left' (by simp), recvU32_toLE (by omega)] at hbad
    · exact absurd hbad (by bv_omega)
    · rw [hm, List.take_left' (by simp), List.drop_left' (by simp), recvU32_toLE (by omega),
        recvU32_toLE (by omega)] at hrecv
      cases hrecv
      refine ⟨.sector front seg rest 0, ⟨hsplit, hpos, hhost, by simp [hto], ⟨[], rfl, by simp, ?_⟩,
        hw.congr rfl rfl⟩, Or.inl ?_⟩
      · simpa using hr
      · simp only [Phase.rank]
        omega
  | init hdev' | initFail hdev' | written hdev' | failed hdev' =>
    exact absurd (hd.symm.trans hdev') nofun

lemma step_sector {front rest : List Segment} {seg : Segment}
    {i : ℕ} (h : At env segments card pre (.sector front seg rest i) v)
    (hs : View.Step env segments v v') :
    Goes env segments card pre (.sector front seg rest i) v v' := by
  obtain ⟨hsplit, hi, hhost, hto, ⟨got, hd, hgot, hmsg⟩, hw⟩ := h
  have hblock := length_block hi
  cases hs with
  | read hread hrest =>
    rw [hto] at hrest
    exact (not_read_nil (Or.inr ⟨_, _, _, _, hhost⟩) hread hrest).elim
  | @recv b more out dev hrecv hrest =>
    rw [hrest] at hmsg
    obtain ⟨hmore, hall⟩ := recv_front hmsg hgot
    rw [hd, Dev.recv] at hrecv
    split_ifs at hrecv with hlt
    · cases hrecv
      refine ⟨.sector front seg rest i, ⟨hsplit, hi, hhost, by simp [hto], ⟨_, rfl, hlt, hmore⟩,
        hw.congr rfl rfl⟩, Or.inr ⟨rfl, ?_⟩⟩
      simp only [View.size, hrest, List.length_append, List.length_cons, List.length_nil]
      omega
    · obtain ⟨hm, hr⟩ := hall hlt
      rw [hm, List.take_of_length_le hblock.le, sectorAt_block] at hrecv
      rw [List.drop_of_length_le hblock.le] at hr
      cases hrecv
      refine ⟨.write front seg rest i, ⟨hsplit, hi, hhost, by simp [hto], hr, rfl,
        hw.congr rfl rfl⟩, Or.inl ?_⟩
      simp only [Phase.rank]
      omega
  | init hdev' | initFail hdev' | written hdev' | failed hdev' =>
    exact absurd (hd.symm.trans hdev') nofun

/-- One more write. -/
lemma Wrote.concat {ws : List (BitVec 32 × Sector)} {w : BitVec 32 × Sector}
    (h : Wrote env card v ws) (hf : env.fault v.writes = none) (hc : v'.card = v.card.write [w])
    (hw : v'.writes = v.writes + 1) : Wrote env card v' (ws ++ [w]) := by
  refine ⟨?_, ?_, fun j hj => ?_⟩
  · rw [hc, h.card_eq, Card.write_append]
  · simp [hw, h.writes_eq]
  · rw [List.length_append, List.length_singleton] at hj
    rcases Nat.lt_succ_iff_lt_or_eq.1 hj with hj | rfl
    · exact h.ok j hj
    · rwa [← h.writes_eq]

/-- The writes up to some sector are the first ones of all. -/
lemma flatMap_writes_split {front rest : List Segment} {seg : Segment} (i : ℕ)
    (hsplit : segments = front ++ seg :: rest) :
    ∃ more, segments.flatMap Segment.writes = writesTo front seg i ++ more := by
  refine ⟨seg.writes.drop i ++ rest.flatMap Segment.writes, ?_⟩
  rw [hsplit, List.flatMap_append, List.flatMap_cons, writesTo, List.append_assoc,
    ← List.append_assoc (seg.writes.take i), List.take_append_drop]

lemma step_write {front rest : List Segment} {seg : Segment} {i : ℕ}
    (h : At env segments card pre (.write front seg rest i) v)
    (hs : View.Step env segments v v') :
    Goes env segments card pre (.write front seg rest i) v v' := by
  obtain ⟨hsplit, hi, hhost, hto, hdev, hd, hw⟩ := h
  cases hs with
  | read hread hrest =>
    rw [hto] at hrest
    exact (not_read_nil (Or.inr ⟨_, _, _, _, hhost⟩) hread hrest).elim
  | recv hrecv hrest => exact absurd (hdev.symm.trans hrest) nofun
  | init hdev' | initFail hdev' => exact absurd (hd.symm.trans hdev') nofun
  | written hdev' hf =>
    cases hd.symm.trans hdev'
    refine ⟨.acked front seg rest i, ⟨hsplit, hi, hhost, hdev, ?_, ?_⟩, Or.inl ?_⟩
    · simp [hto]
    · rw [writesTo_succ front hi]
      exact hw.concat hf rfl rfl
    · simp only [Phase.rank]
      omega
  | failed hdev' hf =>
    cases hd.symm.trans hdev'
    refine ⟨.failed front seg rest i, ⟨hsplit, hi, hhost, hdev, rfl,
      ⟨_, _, by rw [hto, List.nil_append]⟩, ?_⟩, Or.inl ?_⟩
    · obtain ⟨more, hmore⟩ := flatMap_writes_split (i + 1) hsplit
      rw [writesTo_succ front hi, List.append_assoc, List.singleton_append] at hmore
      rw [hw.writes_eq] at hf
      refine ⟨_, _, _, _, _, hmore, hw.ok, hf, ?_, ?_⟩
      · simp [hw.card_eq]
      · simp [hw.writes_eq]
    · simp only [Phase.rank]
      omega

lemma step_acked (ha : Talks segments pre) {front rest : List Segment} {seg : Segment}
    (hseg : seg.Ok) {i : ℕ} (hok : i + 1 = seg.secCount → ∀ seg' ∈ rest.head?, seg'.Ok)
    (h : At env segments card pre (.acked front seg rest i) v)
    (hs : View.Step env segments v v') :
    Goes env segments card pre (.acked front seg rest i) v v' := by
  obtain ⟨hsplit, hi, hhost, hdev, hwritten, hw⟩ := h
  have hcap := hseg.le
  have hle := ha.le
  have hlen : segments.length = front.length + 1 + rest.length := by
    rw [hsplit, List.length_append, List.length_cons]
    omega
  rw [written_eq _ hi hcap (by omega) hle] at hwritten
  cases hs with
  | @read chunk more out host hread hrest =>
    rw [hhost] at hread
    obtain ⟨b, rfl, heq⟩ := read_ack hread
    split_ifs at hwritten with hnext hmore
    · -- the next sector of the segment
      rw [Prod.mk.injEq, hrest] at hwritten
      obtain ⟨rfl, rfl⟩ := List.cons.inj hwritten.1
      rw [if_neg (not_not.2 rfl), if_pos hnext, Prod.mk.injEq] at heq
      obtain ⟨rfl, rfl⟩ := heq
      refine ⟨.sector front seg rest (i + 1), ⟨hsplit, hnext, rfl, rfl,
        ⟨[], hwritten.2, by simp, by simp [hdev]⟩, hw.congr rfl rfl⟩, Or.inl ?_⟩
      simp only [Phase.rank]
      omega
    · -- the next segment
      rw [Prod.mk.injEq, hrest] at hwritten
      obtain ⟨rfl, rfl⟩ := List.cons.inj hwritten.1
      rw [if_neg (not_not.2 rfl), if_neg hnext] at heq
      obtain ⟨seg', rest', rfl⟩ := List.exists_cons_of_length_pos (show 0 < rest.length by omega)
      have hall : i + 1 = seg.secCount := by omega
      rw [hall, writesTo_secCount] at hw
      refine ⟨.header (front ++ [seg]) seg' rest', goes_header (hok hall seg' rfl)
        (by simp [hsplit]) (hw.congr rfl rfl) ?_ rfl ?_, Or.inl ?_⟩
      · simpa [devHdr] using hwritten.2
      · simpa [hdev] using heq
      · simp only [Phase.rank, ahead, List.map_cons, List.sum_cons]
        omega
    · -- the end
      rw [Prod.mk.injEq, hrest, List.singleton_append] at hwritten
      obtain ⟨rfl, rfl⟩ := List.cons.inj hwritten.1
      rw [if_neg (not_not.2 rfl), if_neg hnext] at heq
      have hnil : rest = [] := List.eq_nil_of_length_eq_zero (by omega)
      subst hnil
      cases heq
      have hall : i + 1 = seg.secCount := by omega
      rw [hall, writesTo_secCount, ← hsplit] at hw
      refine ⟨.finish, ⟨⟨[], rfl, rfl, by decide⟩, by simp [hdev], hwritten.2, hw.congr rfl rfl⟩,
        Or.inl ?_⟩
      simp only [Phase.rank]
      omega
  | recv hrecv hrest => exact absurd (hdev.symm.trans hrest) nofun
  | init hdev' | initFail hdev' | written hdev' | failed hdev' =>
    rw [Prod.mk.injEq, hdev'] at hwritten
    split_ifs at hwritten <;> exact nomatch hwritten.2

lemma step_failed {front rest : List Segment} {seg : Segment} {i : ℕ}
    (h : At env segments card pre (.failed front seg rest i) v)
    (hs : View.Step env segments v v') :
    Goes env segments card pre (.failed front seg rest i) v v' := by
  obtain ⟨hsplit, hi, hhost, hdev, hd, ⟨lba, rc, hto⟩, hw⟩ := h
  cases hs with
  | @read chunk more out host hread hrest =>
    rw [hhost] at hread
    obtain ⟨b, rfl, heq⟩ := read_ack hread
    have hb : b = 0x58 := (List.cons.inj (hrest.symm.trans hto)).1
    subst hb
    rw [if_pos (by decide), Prod.mk.injEq] at heq
    obtain ⟨rfl, rfl⟩ := heq
    refine ⟨.nacked, ⟨⟨_, _, _, _, rfl⟩, by simp [hdev], hd, hw⟩, Or.inl ?_⟩
    simp only [Phase.rank]
    omega
  | recv hrecv hrest => exact absurd (hdev.symm.trans hrest) nofun
  | init hdev' | initFail hdev' | written hdev' | failed hdev' =>
    exact absurd (hd.symm.trans hdev') nofun

lemma step_nacked (h : At env segments card pre .nacked v) (hs : View.Step env segments v v') :
    Goes env segments card pre .nacked v v' := by
  obtain ⟨⟨k, seg, i, b, hhost⟩, hdev, hd, hw⟩ := h
  cases hs with
  | read hread hrest =>
    rw [hhost, Host.read] at hread
    split_ifs at hread
    cases hread
    exact ⟨.raised, ⟨⟨_, rfl⟩, by simp [hdev], hd, hw⟩, Or.inl (by simp [Phase.rank])⟩
  | recv hrecv hrest => exact absurd (hdev.symm.trans hrest) nofun
  | init hdev' | initFail hdev' | written hdev' | failed hdev' =>
    exact absurd (hd.symm.trans hdev') nofun

/-- The report of the end has no report of a failure in it. -/
lemma mwFail_not_infix : ¬ mwFail <:+: doneText := by decide

lemma step_finish (h : At env segments card pre .finish v) (hs : View.Step env segments v v') :
    Goes env segments card pre .finish v v' := by
  obtain ⟨⟨buf, hhost, hbuf, hno⟩, hdev, hd, hw⟩ := h
  cases hs with
  | @read chunk rest out host hread hrest =>
    rw [hhost] at hread
    rw [hrest, ← List.append_assoc] at hbuf
    obtain ⟨hpos, heq⟩ := read_waitDone hread
    have hfail : ¬ mwFail <:+: buf ++ chunk := by
      intro hin
      refine mwFail_not_infix ?_
      rw [← hbuf]
      exact List.infix_append_of_infix_left hin
    rw [if_neg hfail] at heq
    split_ifs at heq with hfound
    · cases heq
      exact ⟨.done, ⟨rfl, by simp [hdev], hd, hw.congr rfl rfl⟩, Or.inl (by simp [Phase.rank])⟩
    · cases heq
      refine ⟨.finish, ⟨⟨_, rfl, hbuf, hfound⟩, by simp [hdev], hd, hw.congr rfl rfl⟩,
        Or.inr ⟨rfl, ?_⟩⟩
      simp only [View.size, hrest, List.length_append, List.length_nil]
      omega
  | recv hrecv hrest => exact absurd (hdev.symm.trans hrest) nofun
  | init hdev' | initFail hdev' | written hdev' | failed hdev' =>
    exact absurd (hd.symm.trans hdev') nofun

/-- When the host has ended, nothing but the rest of a report is on the way. -/
lemma no_step_ended (hhost : v.host = .returned ∨ ∃ e, v.host = .raised e) (hdev : v.toDev = [])
    (hd : v.dev = .dispatch) : ¬ View.Step env segments v v' := by
  intro hs
  cases hs with
  | read hread hrest =>
    rcases hhost with hh | ⟨e, hh⟩ <;> exact nomatch (hh ▸ hread)
  | recv hrecv hrest => exact absurd (hdev.symm.trans hrest) nofun
  | init hdev' | initFail hdev' | written hdev' | failed hdev' =>
    exact absurd (hd.symm.trans hdev') nofun

/-- Every step of the view is one of the dialogue. -/
lemma At.step (ha : Accepted env segments pre) {ph : Phase} (h : At env segments card pre ph v)
    (hs : View.Step env segments v v') : Goes env segments card pre ph v v' := by
  cases ph with
  | hello => exact step_hello ha.talks h hs
  | init => exact step_init ha.talks ha.initOk h hs
  | ready => exact step_ready ha.talks h hs
  | count => exact step_count ha.talks h hs
  | go => exact step_go ha.talks (fun seg hseg => ha.ok seg (List.mem_of_mem_head? hseg)) h hs
  | header => exact step_header (ha.ok _ (by simp [h.1])) h hs
  | sector => exact step_sector h hs
  | write => exact step_write h hs
  | acked =>
    refine step_acked ha.talks (ha.ok _ (by simp [h.1])) (fun _ seg' hseg' => ha.ok seg' ?_) h hs
    rw [h.1]
    exact List.mem_append_right _ (List.mem_cons_of_mem _ (List.mem_of_mem_head? hseg'))
  | failed => exact step_failed h hs
  | nacked => exact step_nacked h hs
  | raised => exact (no_step_ended (Or.inr h.1) h.2.1 h.2.2.1 hs).elim
  | finish => exact step_finish h hs
  | done => exact (no_step_ended (Or.inl h.1) h.2.1 h.2.2.1 hs).elim

end Steps

end Neorv32Boot.Sd
