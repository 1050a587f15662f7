import Neorv32Boot.Sd.Agreement
import Neorv32Boot.Sd.Store

/-!
# The frame of a partial update

`update_sd` of `host/sd_update.py` over the serial line: what it checks before it asks stage2 for
anything, and which sectors its write can reach, wherever the card or a timer of the host ends it.
An empty file makes a segment without sectors, which stage2 refuses while the host goes on to the
next one, so that here not all of the dialogue is in step.
-/

namespace Neorv32Boot.Sd

open Neorv32Boot.Trans (Reachable)
open Stage2 (readyText puthex32)

/-! ### The timers of the host -/

/-- What the host does when a timer runs out.  `late` is what has come when the second timer after
an ack has run out as well. -/
def Host.timeout : Host → List Byte → Option Host
  | .waitReady buf, _ =>
    some (.raised (.runtimeError ("[!] no MW_READY: " ++ reprBytes (buf.drop (buf.length - 200)))))
  | .waitGo buf, _ =>
    some (.raised (.runtimeError ("[!] no MW_GO: " ++ reprBytes (buf.drop (buf.length - 200)))))
  | .ack segIdx seg _ i, late =>
    if 256 < late.length then none
    else some (.raised (.runtimeError ("no ACK seg=" ++ toString segIdx ++ " sec=" ++ toString i ++
      " lba=" ++ toString (seg.startLba + i) ++ " got " ++ reprBytes [] ++ reprBytes late)))
  | .waitDone _, _ => some (.raised (.runtimeError "MW did not complete"))
  | .extra _ _ _ _, _ | .returned, _ | .raised _, _ => none

/-- A step, or a timer. -/
inductive Turn
  | act (a : Act)
  /-- a timer runs out, and this many bytes are read then -/
  | timeout (n : ℕ)

/-- The steps, with the timers of the host. -/
def Sys.stepTimed (env : Env) (segments : List Segment) (s : Sys) : Turn → Option Sys
  | .act a => s.step env segments a
  | .timeout n =>
    if s.hostTx = [] ∧ n ≤ s.s2h.length then
      match s.host.timeout (s.s2h.take n) with
      | none => none
      | some host => some { s with host := host, s2h := s.s2h.drop n }
    else none

/-- The state is one without timers, but that the host may have given up. -/
def Shadow (s t : Sys) : Prop :=
  s = t ∨ (t.hostTx = [] ∧ ∃ e s2h, s = { t with host := .raised e, s2h := s2h })

lemma Shadow.dev_card {s t : Sys} (h : Shadow s t) : s.dev = t.dev ∧ s.card = t.card := by
  rcases h with rfl | ⟨-, e, s2h, rfl⟩ <;> exact ⟨rfl, rfl⟩

/-- After the host has given up, only stage2 takes steps, and it does not look at the host. -/
lemma Sys.step_raised {env : Env} {segments : List Segment} {t s' : Sys} {e : PyError}
    {s2h : List Byte} {a : Act} (htx : t.hostTx = [])
    (hs : Sys.step env segments { t with host := .raised e, s2h := s2h } a = some s') :
    ∃ t', t.step env segments a = some t' ∧ Shadow s' t' := by
  cases a with
  | hostSend =>
    simp only [Sys.step, htx] at hs
    cases hs
  | hostRead n =>
    rw [Sys.step] at hs
    split_ifs at hs
    cases hs
  | devSend =>
    simp only [Sys.step] at hs ⊢
    split at hs
    · cases hs
    · next b tx hb =>
      cases hs
      exact ⟨_, rfl, Or.inr ⟨htx, e, _, rfl⟩⟩
  | devRecv =>
    simp only [Sys.step] at hs ⊢
    split at hs
    · split at hs
      · cases hs
      · next out dev hrecv =>
        cases hs
        exact ⟨_, rfl, Or.inr ⟨htx, e, _, rfl⟩⟩
    · cases hs
  | devWork =>
    simp only [Sys.step] at hs ⊢
    split at hs
    · split_ifs at hs ⊢
      all_goals
        cases hs
        exact ⟨_, rfl, Or.inr ⟨htx, e, _, rfl⟩⟩
    · split at hs
      all_goals
        cases hs
        exact ⟨_, rfl, Or.inr ⟨htx, e, _, rfl⟩⟩
    · cases hs

lemma Host.timeout_raised {h h' : Host} {late : List Byte} (hto : h.timeout late = some h') :
    ∃ e, h' = .raised e := by
  cases h with
  | waitReady | waitGo | waitDone =>
    cases hto
    exact ⟨_, rfl⟩
  | ack =>
    rw [Host.timeout] at hto
    split_ifs at hto
    cases hto
    exact ⟨_, rfl⟩
  | extra | returned | raised => cases hto

/-- A timer only stops the host. -/
lemma Shadow.step {env : Env} {segments : List Segment} {s s' t : Sys} {u : Turn}
    (h : Shadow s t) (hs : s.stepTimed env segments u = some s') :
    Shadow s' t ∨ ∃ a t', t.step env segments a = some t' ∧ Shadow s' t' := by
  cases u with
  | act a =>
    rw [Sys.stepTimed] at hs
    rcases h with rfl | ⟨htx, e, s2h, rfl⟩
    · exact Or.inr ⟨a, s', hs, Or.inl rfl⟩
    · exact Or.inr ⟨a, Sys.step_raised htx hs⟩
  | timeout n =>
    rw [Sys.stepTimed] at hs
    split_ifs at hs with hn
    split at hs
    · cases hs
    · next host hhost =>
      cases hs
      obtain ⟨e, rfl⟩ := Host.timeout_raised hhost
      rcases h with rfl | ⟨htx, e', s2h, rfl⟩
      · exact Or.inl (Or.inr ⟨hn.1, e, _, rfl⟩)
      · exact Or.inl (Or.inr ⟨htx, e, _, rfl⟩)

/-- With timers, stage2 and the card get to no other states. -/
lemma exists_shadow {env : Env} {segments : List Segment} {s₀ s : Sys}
    (h : Reachable (Sys.stepTimed env segments) s₀ s) :
    ∃ t, Reachable (Sys.step env segments) s₀ t ∧ Shadow s t := by
  induction h with
  | refl => exact ⟨s₀, .refl, Or.inl rfl⟩
  | tail _ hs ih =>
    obtain ⟨t, ht, hsh⟩ := ih
    rcases hsh.step hs with hsh' | ⟨a, t', hst, hsh'⟩
    · exact ⟨t, ht, hsh'⟩
    · exact ⟨t', .tail ht hst, hsh'⟩

/-! ### The segments of a plan -/

/-- A byte that the dispatcher does not know: it starts `mode_uboot`, which does not use the
card. -/
def IsUboot (b : Byte) : Prop := b ∉ ascii "lbdswWRBf"

/-- The segment of an empty file. -/
def Segment.Empty (s : Segment) : Prop := s.data = [] ∧ s.startLba < 2 ^ 32

/-- What the dialogue needs to know of the segments of a plan. -/
structure Laid (segments : List Segment) : Prop where
  head : ∀ seg ∈ segments.head?, seg.Ok
  pos : 1 ≤ segments.length
  le : segments.length ≤ 16
  each : ∀ seg ∈ segments, seg.Ok ∨ seg.Empty
  /-- behind an empty segment, an LBA begins with a byte that is no mode command -/
  behind : ∀ seg ∈ segments.drop 2, IsUboot (BitVec.ofNat 8 seg.startLba)

/-- The host waits for the ack of a sector that its segment has. -/
def Host.InRange (h : Host) : Prop := ∀ k seg rest i, h = .ack k seg rest i → i < seg.secCount

lemma Segment.Empty.secCount {s : Segment} (h : s.Empty) : s.secCount = 0 := by
  rw [Segment.secCount, h.1]
  rfl

/-- An empty segment is its header only. -/
lemma nextSegment_empty {e : Segment} (he : e.Empty) (k : ℕ) (rest : List Segment) :
    Host.nextSegment k (e :: rest) =
      (Bytes.toLE 4 e.startLba ++ Bytes.toLE 4 0 ++ (Host.nextSegment (k + 1) rest).1,
        (Host.nextSegment (k + 1) rest).2) := by
  have hdata : ¬ e.data.length % sector ≠ 0 := by simp [he.1]
  rw [Host.nextSegment, if_neg hdata, he.secCount, packU32s_two he.2 (by omega)]
  rfl

lemma nextSegment_inRange (k : ℕ) (rest : List Segment) :
    (Host.nextSegment k rest).2.InRange := by
  induction rest generalizing k with
  | nil =>
    intro k' seg rest i h
    cases h
  | cons e rest ih =>
    rw [Host.nextSegment]
    split_ifs with hal hzero
    · intro k' seg rest' i h
      cases h
    · split
      · intro k' seg rest' i h
        cases h
      · exact ih (k + 1)
    · split
      · intro k' seg rest' i h
        cases h
      · intro k' seg rest' i h
        cases h
        exact Nat.pos_of_ne_zero hzero

lemma Host.InRange.read {segments : List Segment} {h h' : Host} {chunk out : List Byte}
    (hr : h.InRange) (hread : h.read segments chunk = some (out, h')) : h'.InRange := by
  cases h with
  | waitReady buf =>
    rw [Host.read] at hread
    split_ifs at hread
    · split at hread <;> cases hread <;> intro k seg rest i he <;> cases he
    · cases hread
      intro k seg rest i he
      cases he
  | waitGo buf =>
    obtain ⟨-, heq⟩ := read_waitGo hread
    split_ifs at heq
    · rw [show h' = _ from congrArg Prod.snd heq]
      exact nextSegment_inRange 0 segments
    · cases heq
      intro k seg rest i he
      cases he
  | ack k seg rest i =>
    obtain ⟨b, -, heq⟩ := read_ack hread
    split_ifs at heq with hb hnext
    · cases heq
      intro k seg rest i he
      cases he
    · cases heq
      intro k' seg' rest' i' he
      cases he
      exact hnext
    · rw [show h' = _ from congrArg Prod.snd heq]
      exact nextSegment_inRange (k + 1) rest
  | extra k seg i b =>
    rw [Host.read] at hread
    split_ifs at hread
    cases hread
    intro k seg rest i he
    cases he
  | waitDone buf =>
    obtain ⟨-, heq⟩ := read_waitDone hread
    split_ifs at heq <;> cases heq <;> intro k seg rest i he <;> cases he
  | returned | raised => cases hread

/-- What the host does after an empty segment: it waits for the end or for an ack, and what it has
written begins with the LBA of a later segment. -/
lemma nextSegment_behind {rest : List Segment} (hall : ∀ s ∈ rest, s.Ok ∨ s.Empty) (k : ℕ) :
    ((Host.nextSegment k rest).2 = .waitDone [] ∨
        ∃ k' seg rest' i, (Host.nextSegment k rest).2 = .ack k' seg rest' i) ∧
      ((Host.nextSegment k rest).1 = [] ∨
        ∃ s ∈ rest, ∃ t, (Host.nextSegment k rest).1 = BitVec.ofNat 8 s.startLba :: t) := by
  induction rest generalizing k with
  | nil => exact ⟨Or.inl rfl, Or.inl rfl⟩
  | cons s rest ih =>
    rcases hall s (by simp) with hok | he
    · rw [nextSegment_cons hok]
      exact ⟨Or.inr ⟨_, _, _, _, rfl⟩, Or.inr ⟨s, by simp, _, rfl⟩⟩
    · rw [nextSegment_empty he]
      exact ⟨(ih (fun t ht => hall t (by simp [ht])) (k + 1)).1, Or.inr ⟨s, by simp, _, rfl⟩⟩

/-! ### Where a run can be -/

/-- What stage2 prints behind the last byte that `read_header` waits for. -/
def afterHeader : List Byte := ascii "\n" ++ readyText

/-- What stage2 prints when `sd_init` fails. -/
def initFailText : List Byte := ascii "[sd] mw: init FAIL\r\n" ++ readyText

/-- The host writes nothing more. -/
def Deaf (v : View) : Prop :=
  (∃ buf, v.host = .waitDone buf) ∨
    (∃ k seg rest i t, v.host = .ack k seg rest i ∧ v.toHost = 0x0A :: t) ∨
    (∃ k seg i b, v.host = .extra k seg i b) ∨ v.host.Ended

/-- Where the write of a plan can be: at a place of the dialogue, or off it. -/
inductive UpdateAt (env : Env) (segments : List Segment) (card : Card) (pre : List Byte) :
    View → Prop
  | inStep {ph : Phase} {v : View} (h : At env segments card pre ph v) :
    UpdateAt env segments card pre v
  /-- `sd_init` has failed, and the host still waits -/
  | initFailed {v : View} {buf : List Byte} (hhost : v.host = .waitReady buf)
      (hbuf : buf ++ v.toHost = pre ++ initFailText) (hdev : v.toDev = []) (hd : v.dev = .dispatch)
      (hw : Wrote env card v []) : UpdateAt env segments card pre v
  /-- the header of an empty segment is on the way, with what the host wrote behind it -/
  | emptyHeader {v : View} {front rest : List Segment} {e : Segment} {got out : List Byte}
      (hsplit : segments = front ++ e :: rest) (hfront : front ≠ []) (he : e.Empty)
      (hd : v.dev = devHdr segments front got) (hgot : got.length < 8)
      (hmsg : got ++ v.toDev = Bytes.toLE 4 e.startLba ++ Bytes.toLE 4 0 ++ out)
      (hhost : (out, v.host) = Host.nextSegment (front.length + 1) rest) (hto : v.toHost = [])
      (hw : Wrote env card v (front.flatMap Segment.writes)) : UpdateAt env segments card pre v
  /-- stage2 has refused an empty segment, and may have taken the next byte as a mode command -/
  | refused {v : View} {front rest : List Segment} (hsplit : segments = front ++ rest)
      (hdeaf : Deaf v)
      (hd : (v.dev = .dispatch ∧ (v.toDev = [] ∨ ∃ b t, v.toDev = b :: t ∧ IsUboot b)) ∨
        ∃ b, v.dev = .command b ∧ IsUboot b)
      (hw : Wrote env card v (front.flatMap Segment.writes)) : UpdateAt env segments card pre v

section Run

variable {env : Env} {segments : List Segment} {card : Card} {pre : List Byte} {v v' : View}

lemma quiet_of_suffix (h : pre <:+ afterHeader) : ¬ mwReady <:+: pre :=
  fun hin => absurd (hin.trans h.isInfix) (by decide)

lemma quiet_initFail (h : pre <:+ afterHeader) : ¬ mwReady <:+: pre ++ initFailText := by
  intro hin
  obtain ⟨s, hs⟩ := h
  have hall : mwReady <:+: afterHeader ++ initFailText := by
    rw [← hs, List.append_assoc]
    exact List.infix_append_of_infix_right hin
  exact absurd hall (by decide +kernel)

/-- The host that writes nothing more stays so. -/
lemma Deaf.read {chunk rest out : List Byte} {host : Host} (h : Deaf v)
    (hread : v.host.read segments chunk = some (out, host)) (hrest : v.toHost = chunk ++ rest) :
    out = [] ∧ ∀ c w d t, Deaf ⟨host, d, c, t, w, v.writes⟩ := by
  rcases h with ⟨buf, hh⟩ | ⟨k, seg, more, i, t, hh, hto⟩ | ⟨k, seg, i, b, hh⟩ | hh | ⟨e, hh⟩
  · rw [hh] at hread
    obtain ⟨-, heq⟩ := read_waitDone hread
    split_ifs at heq
    · cases heq
      exact ⟨rfl, fun _ _ _ _ => Or.inr (Or.inr (Or.inr (Or.inl rfl)))⟩
    · cases heq
      exact ⟨rfl, fun _ _ _ _ => Or.inr (Or.inr (Or.inr (Or.inr ⟨_, rfl⟩)))⟩
    · cases heq
      exact ⟨rfl, fun _ _ _ _ => Or.inl ⟨_, rfl⟩⟩
  · rw [hh] at hread
    obtain ⟨b, rfl, heq⟩ := read_ack hread
    rw [hto, List.singleton_append] at hrest
    obtain ⟨rfl, -⟩ := List.cons.inj hrest
    rw [if_pos (by decide)] at heq
    cases heq
    exact ⟨rfl, fun _ _ _ _ => Or.inr (Or.inr (Or.inl ⟨_, _, _, _, rfl⟩))⟩
  · rw [hh, Host.read] at hread
    split_ifs at hread
    cases hread
    exact ⟨rfl, fun _ _ _ _ => Or.inr (Or.inr (Or.inr (Or.inr ⟨_, rfl⟩)))⟩
  · rw [hh] at hread
    cases hread
  · rw [hh] at hread
    cases hread

/-- After a failed `sd_init` the host only waits. -/
lemma step_initFailed (hl : Laid segments) (hpre : pre <:+ afterHeader) {buf : List Byte}
    (hhost : v.host = .waitReady buf) (hbuf : buf ++ v.toHost = pre ++ initFailText)
    (hdev : v.toDev = []) (hd : v.dev = .dispatch) (hw : Wrote env card v [])
    (hs : View.Step env segments v v') : UpdateAt env segments card pre v' := by
  have hlen := hl.le
  cases hs with
  | @read chunk rest out host hread hrest =>
    rw [hhost] at hread
    rw [hrest, ← List.append_assoc] at hbuf
    obtain ⟨-, heq⟩ := read_waitReady (by omega) hread
    have hno : ¬ mwReady <:+: buf ++ chunk := by
      intro hin
      refine quiet_initFail hpre ?_
      rw [← hbuf]
      exact List.infix_append_of_infix_left hin
    rw [if_neg hno] at heq
    cases heq
    exact .initFailed rfl hbuf (by simpa using hdev) hd (hw.congr rfl rfl)
  | recv hrecv hrest => cases hdev.symm.trans hrest
  | init hdev' | initFail hdev' | written hdev' | failed hdev' => cases hd.symm.trans hdev'

/-- Stage2 refuses an empty segment. -/
lemma step_emptyHeader (hl : Laid segments) {front rest : List Segment} {e : Segment}
    {got out : List Byte} (hsplit : segments = front ++ e :: rest) (hfront : front ≠ [])
    (he : e.Empty) (hd : v.dev = devHdr segments front got) (hgot : got.length < 8)
    (hmsg : got ++ v.toDev = Bytes.toLE 4 e.startLba ++ Bytes.toLE 4 0 ++ out)
    (hhost : (out, v.host) = Host.nextSegment (front.length + 1) rest) (hto : v.toHost = [])
    (hw : Wrote env card v (front.flatMap Segment.writes)) (hs : View.Step env segments v v') :
    UpdateAt env segments card pre v' := by
  have hmem : ∀ s ∈ rest, s ∈ segments := by
    intro s hs
    rw [hsplit]
    exact List.mem_append_right _ (List.mem_cons_of_mem _ hs)
  obtain ⟨hwait, hout⟩ := nextSegment_behind (fun s hs => hl.each s (hmem s hs)) (front.length + 1)
  rw [← hhost] at hwait hout
  simp only at hwait hout
  cases hs with
  | read hread hrest =>
    rw [hto] at hrest
    rcases hwait with hwait | ⟨k, seg, more, i, hwait⟩
    · rw [hwait] at hread
      have := (read_waitDone hread).1
      rw [(List.append_eq_nil_iff.1 hrest.symm).1] at this
      exact absurd this (by simp)
    · exact (not_read_nil (Or.inr ⟨_, _, _, _, hwait⟩) hread hrest).elim
  | @recv b more _ dev hrecv hrest =>
    rw [hrest] at hmsg
    obtain ⟨hmore, hall⟩ := recv_front hmsg hgot
    rw [hd, devHdr, Dev.recv] at hrecv
    simp only at hrecv
    by_cases hlt : (got ++ [b]).length < 8
    · rw [if_pos hlt] at hrecv
      cases hrecv
      exact .emptyHeader hsplit hfront he rfl hlt hmore hhost (by simp [hto]) (hw.congr rfl rfl)
    · obtain ⟨hm, hr⟩ := hall hlt
      rw [List.take_left' (by simp)] at hm
      rw [List.drop_left' (by simp)] at hr
      rw [if_neg hlt, hm, List.drop_left' (by simp), recvU32_toLE (by omega),
        if_pos (show BitVec.ofNat 32 0 = 0 ∨ 8192 < BitVec.ofNat 32 0 from Or.inl rfl)] at hrecv
      cases hrecv
      refine .refused hsplit ?_ (Or.inl ⟨rfl, ?_⟩) (hw.congr rfl rfl)
      · rcases hwait with hwait | ⟨k, seg, more', i, hwait⟩
        · exact Or.inl ⟨_, hwait⟩
        · exact Or.inr (Or.inl ⟨k, seg, more', i, _, hwait, by rw [hto]; rfl⟩)
      · rcases hout with hnil | ⟨s, hs, t, ht⟩
        · exact Or.inl (hr.trans hnil)
        · refine Or.inr ⟨_, t, hr.trans ht, hl.behind s ?_⟩
          obtain ⟨f, fs, rfl⟩ := List.exists_cons_of_ne_nil hfront
          rw [hsplit, List.cons_append, List.drop_succ_cons]
          rcases fs with _ | ⟨g, gs⟩
          · exact hs
          · exact List.mem_append_right _ (List.mem_cons_of_mem _ hs)
  | init hdev' | initFail hdev' | written hdev' | failed hdev' =>
    rw [hd] at hdev'
    cases hdev'

/-- After that, stage2 takes at most one byte, which is no mode command. -/
lemma step_refused {front rest : List Segment} (hsplit : segments = front ++ rest) (hdeaf : Deaf v)
    (hd : (v.dev = .dispatch ∧ (v.toDev = [] ∨ ∃ b t, v.toDev = b :: t ∧ IsUboot b)) ∨
      ∃ b, v.dev = .command b ∧ IsUboot b)
    (hw : Wrote env card v (front.flatMap Segment.writes)) (hs : View.Step env segments v v') :
    UpdateAt env segments card pre v' := by
  cases hs with
  | read hread hrest =>
    obtain ⟨rfl, hdeaf'⟩ := hdeaf.read hread hrest
    refine .refused hsplit (hdeaf' _ _ _ _) ?_ (hw.congr rfl rfl)
    simpa using hd
  | @recv b more out dev hrecv hrest =>
    rcases hd with ⟨hd, htd⟩ | ⟨c, hd, -⟩
    · rw [hrest] at htd
      rcases htd with htd | ⟨b', t, htd, hb⟩
      · cases htd
      · obtain ⟨rfl, -⟩ := List.cons.inj htd
        have hne : b ≠ 0x57 := by
          rintro rfl
          exact hb (by decide)
        rw [hd, Dev.recv, if_neg hne] at hrecv
        cases hrecv
        refine .refused hsplit ?_ (Or.inr ⟨b, rfl, hb⟩) (hw.congr rfl rfl)
        simpa [Deaf] using hdeaf
    · rw [hd] at hrecv
      cases hrecv
  | init hdev' | initFail hdev' | written hdev' | failed hdev' =>
    rcases hd with ⟨hd, -⟩ | ⟨c, hd, -⟩
    · cases hd.symm.trans hdev'
    · cases hd.symm.trans hdev'

/-- The ack of a last sector, with an empty segment behind it. -/
lemma step_acked_empty (hl : Laid segments) {front rest : List Segment} {seg e : Segment} {i : ℕ}
    (he : e.Empty) (hseg : seg.Ok) (hlast : i + 1 = seg.secCount)
    (h : At env segments card pre (.acked front seg (e :: rest) i) v)
    (hs : View.Step env segments v v') : UpdateAt env segments card pre v' := by
  obtain ⟨hsplit, hi, hhost, hdev, hwritten, hw⟩ := h
  have hcap := hseg.le
  have hle := hl.le
  have hlen : segments.length = front.length + 2 + rest.length := by
    rw [hsplit, List.length_append, List.length_cons, List.length_cons]
    omega
  rw [written_eq _ hi hcap (by omega) hle, if_neg (by omega), if_pos (by omega),
    Prod.mk.injEq] at hwritten
  cases hs with
  | @read chunk more out host hread hrest =>
    rw [hhost] at hread
    obtain ⟨b, rfl, heq⟩ := read_ack hread
    rw [hrest] at hwritten
    obtain ⟨rfl, rfl⟩ := List.cons.inj hwritten.1
    rw [if_neg (not_not.2 rfl), if_neg (by omega), nextSegment_empty he, Prod.mk.injEq] at heq
    obtain ⟨rfl, hnext⟩ := heq
    rw [hlast, writesTo_secCount] at hw
    have hsplit' : segments = (front ++ [seg]) ++ e :: rest := by simp [hsplit]
    have hd : v.dev = devHdr segments (front ++ [seg]) [] := by simpa [devHdr] using hwritten.2
    have hhost' : ((Host.nextSegment (front.length + 1 + 1) rest).1, host) =
        Host.nextSegment ((front ++ [seg]).length + 1) rest := by simp [hnext]
    exact .emptyHeader hsplit' (by simp) he hd (by simp) (by simp [hdev]) hhost' rfl
      (hw.congr rfl rfl)
  | recv hrecv hrest => cases hdev.symm.trans hrest
  | init hdev' | initFail hdev' | written hdev' | failed hdev' =>
    cases hwritten.2.symm.trans hdev'

/-- In step, or off it, every step leads to a place of the plan. -/
lemma UpdateAt.step (hl : Laid segments) (hpre : pre <:+ afterHeader) (hr : v.host.InRange)
    (h : UpdateAt env segments card pre v) (hs : View.Step env segments v v') :
    UpdateAt env segments card pre v' := by
  have ht : Talks segments pre := ⟨hl.pos, hl.le, quiet_of_suffix hpre⟩
  have hgoes : ∀ {ph}, Goes env segments card pre ph v v' → UpdateAt env segments card pre v' :=
    fun ⟨_, hat, _⟩ => .inStep hat
  have hok : ∀ {front seg rest i}, segments = front ++ seg :: rest → i < seg.secCount → seg.Ok := by
    intro front seg rest i hsplit hi
    refine (hl.each seg (by simp [hsplit])).resolve_right fun he => ?_
    rw [he.secCount] at hi
    omega
  cases h with
  | initFailed hhost hbuf hdev hd hw => exact step_initFailed hl hpre hhost hbuf hdev hd hw hs
  | emptyHeader hsplit hfront he hd hgot hmsg hhost hto hw =>
    exact step_emptyHeader hl hsplit hfront he hd hgot hmsg hhost hto hw hs
  | refused hsplit hdeaf hd hw => exact step_refused hsplit hdeaf hd hw hs
  | @inStep ph _ hat =>
    cases ph with
    | hello => exact hgoes (step_hello ht hat hs)
    | init =>
      cases hinit : env.initOk with
      | true => exact hgoes (step_init ht hinit hat hs)
      | false =>
        obtain ⟨⟨buf, hhost, hbuf⟩, hdev, hd, hw⟩ := hat
        cases hs with
        | read hread hrest =>
          rw [hhost] at hread
          rw [hrest] at hbuf
          obtain ⟨-, rfl, rfl⟩ := read_early ht hread hbuf
          exact @UpdateAt.inStep _ _ _ _ .init _
            ⟨⟨_, rfl, by simpa using hbuf⟩, by simpa using hdev, hd, hw.congr rfl rfl⟩
        | recv hrecv hrest => cases hdev.symm.trans hrest
        | init hdev' hyes => cases hinit.symm.trans hyes
        | initFail =>
          refine .initFailed hhost ?_ hdev rfl (hw.congr rfl rfl)
          rw [← hbuf, List.append_assoc]
          rfl
        | written hdev' | failed hdev' => cases hd.symm.trans hdev'
    | ready => exact hgoes (step_ready ht hat hs)
    | count => exact hgoes (step_count ht hat hs)
    | go => exact hgoes (step_go ht hl.head hat hs)
    | header front seg rest =>
      exact hgoes (step_header (hok hat.1 (hr _ _ _ _ hat.2.1)) hat hs)
    | sector => exact hgoes (step_sector hat hs)
    | write => exact hgoes (step_write hat hs)
    | acked front seg rest i =>
      have hseg := hok hat.1 hat.2.1
      by_cases hnext : i + 1 = seg.secCount → ∀ seg' ∈ rest.head?, seg'.Ok
      · exact hgoes (step_acked ht hseg hnext hat hs)
      · push Not at hnext
        obtain ⟨hlast, e, hhead, hno⟩ := hnext
        obtain ⟨more, rfl⟩ := List.head?_eq_some_iff.1 hhead
        have he := (hl.each e (by simp [hat.1])).resolve_left hno
        exact step_acked_empty hl he hseg hlast hat hs
    | failed => exact hgoes (step_failed hat hs)
    | nacked => exact hgoes (step_nacked hat hs)
    | raised => exact (no_step_ended (Or.inr hat.1) hat.2.1 hat.2.2.1 hs).elim
    | finish => exact hgoes (step_finish hat hs)
    | done => exact (no_step_ended (Or.inl hat.1) hat.2.1 hat.2.2.1 hs).elim

lemma View.Step.inRange (hr : v.host.InRange) (hs : View.Step env segments v v') :
    v'.host.InRange := by
  cases hs with
  | read hread => exact hr.read hread
  | recv | init | initFail | written | failed => exact hr

/-- Every state that the write of a plan gets to is at a place of the plan. -/
lemma UpdateAt.reachable (hl : Laid segments) {s2h devTx : List Byte}
    (hpre : s2h ++ devTx <:+ afterHeader) {s : Sys}
    (h : Reachable (Sys.step env segments) (Sys.start card s2h devTx) s) :
    UpdateAt env segments card (s2h ++ devTx) s.view := by
  have hinv : UpdateAt env segments card (s2h ++ devTx) s.view ∧ s.view.host.InRange := by
    refine h.inv (I := fun s => UpdateAt env segments card (s2h ++ devTx) s.view ∧
      s.view.host.InRange) ⟨?_, ?_⟩ fun s a s' hI hs => ?_
    · exact @UpdateAt.inStep _ _ _ _ .hello _
        ⟨⟨[], rfl, rfl⟩, rfl, rfl, ⟨rfl, rfl, fun j hj => by cases hj⟩⟩
    · intro k seg rest i he
      cases he
    · rcases Sys.step_view hs with ⟨hv, -⟩ | hv
      · exact hv ▸ hI
      · exact ⟨hI.1.step hl hpre hI.2 hv, hv.inRange hI.2⟩
  exact hinv.1

/-- The card has some of the writes of the plan, and perhaps a damaged sector of one more. -/
lemma UpdateAt.wrote (h : UpdateAt env segments card pre v) :
    (∃ ws more, segments.flatMap Segment.writes = ws ++ more ∧ Wrote env card v ws) ∨
      WroteFailed env segments card v := by
  cases h with
  | inStep h => exact h.wrote
  | initFailed hhost hbuf hdev hd hw => exact Or.inl ⟨[], _, rfl, hw⟩
  | emptyHeader hsplit hfront he hd hgot hmsg hhost hto hw =>
    exact Or.inl ⟨_, _, by rw [hsplit, List.flatMap_append], hw⟩
  | refused hsplit hdeaf hd hw =>
    exact Or.inl ⟨_, _, by rw [hsplit, List.flatMap_append], hw⟩

/-- What stage2 takes as a mode command is none that uses the card. -/
lemma UpdateAt.command (h : UpdateAt env segments card pre v) {b : Byte}
    (hb : v.dev = .command b) : IsUboot b := by
  cases h with
  | inStep h =>
    rcases h.dev with hl | ⟨hbusy, -⟩
    · rw [hb] at hl
      exact hl.elim
    · rw [hb] at hbusy
      simp [Dev.Busy] at hbusy
  | initFailed hhost hbuf hdev hd hw => cases hd.symm.trans hb
  | emptyHeader hsplit hfront he hd hgot hmsg hhost hto hw => cases hd.symm.trans hb
  | refused hsplit hdeaf hd hw =>
    rcases hd with ⟨hd, -⟩ | ⟨c, hd, hc⟩
    · cases hd.symm.trans hb
    · rw [hd, Dev.command.injEq] at hb
      exact hb ▸ hc

/-- A sector that no segment has is left alone. -/
lemma UpdateAt.frame (h : UpdateAt env segments card pre v) {lba : BitVec 32}
    (hout : ∀ w ∈ segments.flatMap Segment.writes, w.1 ≠ lba) : v.card lba = card lba := by
  have hwrite : ∀ (c : Card) (ws : List (BitVec 32 × Sector)), (∀ w ∈ ws, w.1 ≠ lba) →
      c.write ws lba = c lba := by
    intro c ws hws
    refine Lanes.storeAll_of_forall_ne fun w hw => ?_
    obtain ⟨x, hx, rfl⟩ := List.mem_map.1 hw
    exact hws x hx
  rcases h.wrote with ⟨ws, more, hsplit, hw⟩ | ⟨ws, w, rest, rc, junk, hsplit, -, -, hc, -⟩
  · rw [hw.card_eq]
    exact hwrite _ _ fun w hw => hout w (by simp [hsplit, hw])
  · rw [hc, hwrite _ _ fun x hx => ?_, hwrite _ _ fun x hx => hout x (by simp [hsplit, hx])]
    rw [List.mem_singleton.1 hx]
    exact hout w (by simp [hsplit])

end Run

/-! ### The frame -/

/-- The segment of a file that fits its slot. -/
lemma slotSegment_ok {f : Files} {s : Slot} (hfit : usedSec (f.file s) ≤ s.maxSec) :
    (⟨s.lba, padSector (f.file s)⟩ : Segment).Ok ∨
      (⟨s.lba, padSector (f.file s)⟩ : Segment).Empty := by
  have hend : s.lba + s.maxSec ≤ 8009 := s.bounds.2
  have hmax : s.maxSec ≤ 4000 := by cases s <;> decide
  have hcount := segment_secCount s.lba (f.file s)
  have hlen := length_padSector (f.file s)
  rcases Nat.eq_zero_or_pos (usedSec (f.file s)) with hzero | hpos
  · refine Or.inr ⟨List.eq_nil_of_length_eq_zero ?_, ?_⟩
    · rw [hlen]
      unfold usedSec at hzero
      rw [hzero, Nat.mul_zero]
    · simp only
      omega
  · refine Or.inl ⟨?_, ?_, ?_, ?_⟩
    · rw [hlen, Nat.mul_mod_right]
    · omega
    · omega
    · simp only [hcount]
      omega

/-- The segments of a plan. -/
lemma laid_of_plan {fl : Flags} {f : Files} {b : List Byte}
    {p : (Header × List Byte) × List Segment} (h : updatePlan fl f b = .ok p) : Laid p.2 := by
  obtain ⟨hfit, -, -, hbuild, hsegs⟩ := updatePlan_eq_ok h
  have hlen := (parseHeader_buildHeader hbuild).1
  have hcount : (slotSegments fl.selects f).length ≤ 3 := by
    rw [slotSegments, List.length_map]
    exact List.length_filter_le _ _
  rw [hsegs]
  have hhdr : (⟨hdrLba, p.1.2⟩ : Segment).Ok := by
    refine ⟨?_, ?_, ?_, ?_⟩ <;> simp [Segment.secCount, hlen, sector, hdrLba]
  refine ⟨?_, by simp, by simp only [List.length_cons]; omega, ?_, ?_⟩
  · intro seg hseg
    rw [List.head?_cons, Option.mem_some_iff] at hseg
    exact hseg ▸ hhdr
  · intro seg hseg
    rcases List.mem_cons.1 hseg with rfl | hseg
    · exact Or.inl hhdr
    · obtain ⟨s, -, rfl⟩ := List.mem_map.1 hseg
      exact slotSegment_ok (hfit s)
  · intro seg hseg
    rw [List.drop_succ_cons, slotSegments, ← List.map_drop] at hseg
    obtain ⟨s, hs, rfl⟩ := List.mem_map.1 hseg
    -- the Image can only be the first one
    have hne : s ∈ [Slot.dtb, Slot.initrd] := by
      rw [Slot.all, List.filter_cons] at hs
      split_ifs at hs
      · exact List.mem_of_mem_filter (by simpa using hs)
      · exact List.mem_of_mem_filter (List.mem_of_mem_drop hs)
    have hdtb : BitVec.ofNat 8 Slot.dtb.lba ∉ ascii "lbdswWRBf" := by decide
    have hinitrd : BitVec.ofNat 8 Slot.initrd.lba ∉ ascii "lbdswWRBf" := by decide
    rw [List.mem_cons, List.mem_singleton] at hne
    rcases hne with rfl | rfl
    · exact hdtb
    · exact hinitrd

/-- The card at any moment of a run of `update_sd`: nothing is sent without a plan. -/
inductive UpdateCard (fl : Flags) (f : Files) (env : Env) (card : Card) : Card → Prop
  | unsent : UpdateCard fl f env card card
  | write {p : (Header × List Byte) × List Segment} {s2h devTx : List Byte} {s : Sys}
      (hplan : updatePlan fl f (readHeader card) = .ok p) (hpre : s2h ++ devTx <:+ afterHeader)
      (h : Reachable (Sys.stepTimed env p.2) (Sys.start card s2h devTx) s) :
    UpdateCard fl f env card s.card

/-- What a run of `update_sd` keeps to. -/
structure UpdateFrame (fl : Flags) (f : Files) (env : Env) (card : Card) : Prop where
  /-- a file that overflows its slot, a header that does not parse, or one with another layout:
  there is no plan, and the card is never written -/
  refuses : ((∃ s, s.maxSec < usedSec (f.file s)) ∨
      (∃ e, parseHeader (readHeader card) = .error e) ∨
      (∃ h, parseHeader (readHeader card) = .ok h ∧
        h ≠ layoutHeader h.imageSz h.dtbSz h.initrdSz)) →
    (∃ e, updatePlan fl f (readHeader card) = .error e) ∧
      ∀ c', UpdateCard fl f env card c' → c' = card
  /-- the segments are the header and the selected slots, each from its first LBA on and inside -/
  segments : ∀ p, updatePlan fl f (readHeader card) = .ok p →
    p.1.2.length = sector ∧ p.2 = ⟨hdrLba, p.1.2⟩ :: slotSegments fl.selects f ∧
      ∀ s, (⟨s.lba, padSector (f.file s)⟩ : Segment).secCount ≤ s.maxSec
  /-- the slots are apart from each other and from the header, and end at `END_LBA` -/
  geometry : (∀ s : Slot, hdrLba < s.lba ∧ s.lba + s.maxSec ≤ endLba) ∧
    (∃ s : Slot, s.lba + s.maxSec = endLba) ∧
    ∀ s t : Slot, s ≠ t → s.lba + s.maxSec ≤ t.lba ∨ t.lba + t.maxSec ≤ s.lba
  /-- all other sectors are as they were, at every moment -/
  frame : ∀ c', UpdateCard fl f env card c' → ∀ lba : BitVec 32, lba.toNat ≠ hdrLba →
    (∀ s, fl.selects s = true → lba.toNat < s.lba ∨ s.lba + s.maxSec ≤ lba.toNat) →
    c' lba = card lba
  /-- stage2 takes no byte of the write as a mode command that uses the card -/
  command : ∀ p s2h devTx, updatePlan fl f (readHeader card) = .ok p →
    s2h ++ devTx <:+ afterHeader →
    ∀ s, Reachable (Sys.stepTimed env p.2) (Sys.start card s2h devTx) s →
      ∀ b, s.dev = .command b → IsUboot b

/-- The sectors of a segment. -/
lemma mem_writes {seg : Segment} {w : BitVec 32 × Sector} (hw : w ∈ seg.writes)
    (hlt : seg.startLba + seg.secCount ≤ 2 ^ 32) :
    seg.startLba ≤ w.1.toNat ∧ w.1.toNat < seg.startLba + seg.secCount := by
  simp only [Segment.writes, List.mem_map, List.mem_range] at hw
  obtain ⟨i, hi, rfl⟩ := hw
  simp only [BitVec.toNat_ofNat]
  omega

/-- There is no plan for a file that overflows its slot, or for a header that does not parse or has
another layout. -/
lemma updatePlan_refuses {fl : Flags} {f : Files} {b : List Byte}
    (hbad : (∃ s, s.maxSec < usedSec (f.file s)) ∨ (∃ e, parseHeader b = .error e) ∨
      (∃ h, parseHeader b = .ok h ∧ h ≠ layoutHeader h.imageSz h.dtbSz h.initrdSz)) :
    ∃ e, updatePlan fl f b = .error e := by
  cases hplan : updatePlan fl f b with
  | error e => exact ⟨e, rfl⟩
  | ok p =>
    obtain ⟨hfit, hparse, hverify, -, -⟩ := updatePlan_eq_ok hplan
    rcases hbad with ⟨s, hs⟩ | ⟨e, he⟩ | ⟨h, hh, hne⟩
    · exact absurd (hfit s) (by omega)
    · cases he.symm.trans hparse
    · obtain rfl := Except.ok.inj (hh.symm.trans hparse)
      exact absurd ((verifyLayout_eq_ok_iff _).1 hverify) hne

/-- A planned write is one of the header, or lies in a selected slot. -/
lemma lands_of_plan {fl : Flags} {f : Files} {b : List Byte}
    {p : (Header × List Byte) × List Segment} (hplan : updatePlan fl f b = .ok p)
    {w : BitVec 32 × Sector} (hw : w ∈ p.2.flatMap Segment.writes) :
    w.1.toNat = hdrLba ∨
      ∃ s, fl.selects s = true ∧ s.lba ≤ w.1.toNat ∧ w.1.toNat < s.lba + s.maxSec := by
  obtain ⟨hfit, -, -, hbuild, hsegs⟩ := updatePlan_eq_ok hplan
  have hlen := (parseHeader_buildHeader hbuild).1
  rw [hsegs] at hw
  obtain ⟨seg, hseg, hw⟩ := List.mem_flatMap.1 hw
  rcases List.mem_cons.1 hseg with rfl | hseg
  · have hone : (⟨hdrLba, p.1.2⟩ : Segment).secCount = 1 := by
      rw [Segment.secCount, hlen]
      rfl
    have hin := mem_writes hw (by rw [hone]; exact (by decide : hdrLba + 1 ≤ 2 ^ 32))
    rw [hone] at hin
    simp only at hin
    exact Or.inl (by omega)
  · obtain ⟨sl, hsl, rfl⟩ := List.mem_map.1 hseg
    have hend : sl.lba + sl.maxSec ≤ 8009 := sl.bounds.2
    have hcount := segment_secCount sl.lba (f.file sl)
    have hle := hfit sl
    have hin := mem_writes hw (by simp only [hcount]; omega)
    simp only [hcount] at hin
    exact Or.inr ⟨sl, by simpa using (List.mem_filter.1 hsl).2, by omega, by omega⟩

/-- **A partial update keeps to its slots.**  Whatever is on the card, whatever the sizes of the
files and the flags, and wherever the card or a timer of the host ends it, `update_sd` changes only
the header and the slots that are selected, and nothing when it refuses. -/
theorem update_frame (fl : Flags) (f : Files) (env : Env) (card : Card) :
    UpdateFrame fl f env card where
  refuses hbad := by
    obtain ⟨e, he⟩ := @updatePlan_refuses fl f _ hbad
    refine ⟨⟨e, he⟩, fun c' hc' => ?_⟩
    cases hc' with
    | unsent => rfl
    | write hplan => cases he.symm.trans hplan
  segments p hplan := by
    obtain ⟨hfit, -, -, hbuild, hsegs⟩ := updatePlan_eq_ok hplan
    refine ⟨(parseHeader_buildHeader hbuild).1, hsegs, fun s => ?_⟩
    rw [segment_secCount]
    exact hfit s
  geometry := ⟨fun s => s.bounds, ⟨.initrd, rfl⟩, fun _ _ => Slot.disjoint⟩
  frame c' hc' lba hhdr hslots := by
    cases hc' with
    | unsent => rfl
    | @write p s2h devTx s hplan hpre h =>
      obtain ⟨t, ht, hsh⟩ := exists_shadow h
      rw [hsh.dev_card.2]
      refine (UpdateAt.reachable (laid_of_plan hplan) hpre ht).frame fun w hw hwl => ?_
      rw [← hwl] at hhdr hslots
      rcases lands_of_plan hplan hw with hh | ⟨sl, hsel, hlo, hhi⟩
      · exact hhdr hh
      · have hout := hslots sl hsel
        omega
  command p s2h devTx hplan hpre s h b hb := by
    obtain ⟨t, ht, hsh⟩ := exists_shadow h
    rw [hsh.dev_card.1] at hb
    exact (UpdateAt.reachable (laid_of_plan hplan) hpre ht).command hb

end Neorv32Boot.Sd
