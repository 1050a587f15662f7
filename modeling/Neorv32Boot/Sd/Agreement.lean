import Neorv32Boot.Sd.Dialogue

/-!
# The two sides of the multi-segment write agree

In every interleaving the host ends, and it returns or raises as the card has taken the sectors or
not.  Stage2 is in its dispatcher then and has consumed all that the host has sent, and it never
takes a byte of the transfer as a mode command.
-/

namespace Neorv32Boot.Sd

open Neorv32Boot.Trans (Reachable Inevitable)

/-- `multi_seg_write` has returned or raised. -/
def Host.Ended (h : Host) : Prop := h = .returned ∨ ∃ e, h = .raised e

/-- The host waits in `wait_for` or for an ack. -/
def Host.Waits (h : Host) : Prop :=
  (∃ buf, h = .waitReady buf) ∨ ∃ k seg rest i, h = .ack k seg rest i

/-- Stage2 is in `sd_init` or `sd_write_block`, where it does not look at the serial line. -/
def Dev.Busy (d : Dev) : Prop :=
  d = .sdInit ∨ ∃ n k lba cnt i rx, d = .sdWrite n k lba cnt i rx

/-- Stage2 waits for a byte of the multi-segment write, or for the next mode command. -/
def Dev.Listens : Dev → Prop
  | .dispatch | .recvCount _ | .recvHdr .. | .recvSector .. => True
  | .sdInit | .sdWrite .. | .command _ => False

section Agreement

variable {env : Env} {segments : List Segment} {card : Card} {pre : List Byte} {s s' : Sys}

/-! ### Progress -/

/-- The host reads a byte that has come. -/
lemma can_read (htx : s.hostTx = []) (hs2h : s.s2h ≠ [])
    (hread : ∀ b, ∃ r, s.host.read segments [b] = some r) :
    ∃ a s', s.step env segments a = some s' := by
  obtain ⟨b, rest, hb⟩ := List.exists_cons_of_ne_nil hs2h
  obtain ⟨⟨out, host⟩, hr⟩ := hread b
  refine ⟨.hostRead 1, { s with host := host, hostTx := out, s2h := rest }, ?_⟩
  simp [Sys.step, htx, hb, hr]

/-- Stage2 receives a byte that has come. -/
lemma can_recv (htx : s.devTx = []) (hh2s : s.h2s ≠ [])
    (hrecv : ∀ b, ∃ r, s.dev.recv b = some r) : ∃ a s', s.step env segments a = some s' := by
  obtain ⟨b, rest, hb⟩ := List.exists_cons_of_ne_nil hh2s
  obtain ⟨⟨out, dev⟩, hr⟩ := hrecv b
  refine ⟨.devRecv, { s with dev := dev, devTx := out, h2s := rest }, ?_⟩
  simp [Sys.step, htx, hb, hr]

/-- `sd_init` or `sd_write_block` returns. -/
lemma can_work (htx : s.devTx = []) (hdev : s.dev.Busy) :
    ∃ a s', s.step env segments a = some s' := by
  refine ⟨.devWork, ?_⟩
  rcases hdev with hd | ⟨n, k, lba, cnt, i, rx, hd⟩
  · cases hok : env.initOk <;> simp [Sys.step, htx, hd, hok]
  · cases hf : env.fault s.writes <;> simp [Sys.step, htx, hd, hf]

lemma read_total (b : Byte) (k : ℕ) (seg : Segment) (rest : List Segment) (i : ℕ) :
    ∃ r, Host.read segments (.ack k seg rest i) [b] = some r := by
  rw [Host.read]
  split_ifs <;> exact ⟨_, rfl⟩

lemma waitReady_total (b : Byte) (buf : List Byte) :
    ∃ r, Host.read segments (.waitReady buf) [b] = some r := by
  rw [Host.read, if_neg (by simp)]
  split_ifs
  · cases packU32s [segments.length] <;> exact ⟨_, rfl⟩
  · exact ⟨_, rfl⟩

lemma waitGo_total (b : Byte) (buf : List Byte) :
    ∃ r, Host.read segments (.waitGo buf) [b] = some r := by
  rw [Host.read, if_neg (by simp)]
  split_ifs <;> exact ⟨_, rfl⟩

lemma waitDone_total (b : Byte) (buf : List Byte) :
    ∃ r, Host.read segments (.waitDone buf) [b] = some r := by
  rw [Host.read, if_neg (by simp)]
  split_ifs <;> exact ⟨_, rfl⟩

/-- A message is received until all of it has come. -/
lemma toDev_ne_nil {got rest msg : List Byte} {n : ℕ} (h : got ++ rest = msg) (hg : got.length < n)
    (hm : n ≤ msg.length) : rest ≠ [] := by
  rintro rfl
  rw [List.append_nil] at h
  rw [h] at hg
  omega

/-- At every place of the dialogue something can happen, but for the end. -/
lemma At.can_step {ph : Phase} (h : At env segments card pre ph s.view) :
    (s.host.Ended ∧ s.devTx = []) ∨ ∃ a s', s.step env segments a = some s' := by
  rcases hdtx : s.devTx with _ | ⟨b, tx⟩
  swap
  · exact Or.inr ⟨.devSend, _, by rw [Sys.step, hdtx]⟩
  rcases hhtx : s.hostTx with _ | ⟨b, tx⟩
  swap
  · exact Or.inr ⟨.hostSend, _, by rw [Sys.step, hhtx]⟩
  have hto : s.view.toHost = s.s2h := by simp [Sys.view, hdtx]
  have hdev : s.view.toDev = s.h2s := by simp [Sys.view, hhtx]
  cases ph with
  | hello =>
    obtain ⟨-, htd, hd, -⟩ := h
    refine Or.inr (can_recv hdtx (by rw [← hdev, htd]; exact List.cons_ne_nil _ _) fun b => ?_)
    rw [show s.dev = .dispatch from hd, Dev.recv]
    split_ifs <;> exact ⟨_, rfl⟩
  | init => exact Or.inr (can_work hdtx (Or.inl h.2.2.1))
  | ready =>
    obtain ⟨⟨buf, hhost, -⟩, hne, -⟩ := h
    rw [hto] at hne
    exact Or.inr (can_read hhtx hne fun b =>
      (show s.host = .waitReady buf from hhost) ▸ waitReady_total b buf)
  | count =>
    obtain ⟨-, -, ⟨got, hd, hgot, hmsg⟩, -⟩ := h
    have hne := toDev_ne_nil hmsg hgot (by simp)
    rw [hdev] at hne
    refine Or.inr (can_recv hdtx hne fun b => ?_)
    rw [show s.dev = .recvCount got from hd, Dev.recv]
    dsimp only
    split_ifs <;> exact ⟨_, rfl⟩
  | go =>
    obtain ⟨⟨buf, hhost, -⟩, hne, -⟩ := h
    rw [hto] at hne
    exact Or.inr (can_read hhtx hne fun b =>
      (show s.host = .waitGo buf from hhost) ▸ waitGo_total b buf)
  | header front seg rest =>
    obtain ⟨-, -, -, ⟨got, hd, hgot, hmsg⟩, -⟩ := h
    have hne := toDev_ne_nil hmsg hgot (by
      simp only [List.length_append, Bytes.length_toLE]
      omega)
    rw [hdev] at hne
    refine Or.inr (can_recv hdtx hne fun b => ?_)
    rw [show s.dev = devHdr segments front got from hd, devHdr, Dev.recv]
    dsimp only
    split_ifs <;> exact ⟨_, rfl⟩
  | sector front seg rest i =>
    obtain ⟨-, hi, -, -, ⟨got, hd, hgot, hmsg⟩, -⟩ := h
    have hne := toDev_ne_nil hmsg hgot (length_block hi).ge
    rw [hdev] at hne
    refine Or.inr (can_recv hdtx hne fun b => ?_)
    rw [show s.dev = _ from hd, Dev.recv]
    split_ifs <;> exact ⟨_, rfl⟩
  | write front seg rest i =>
    obtain ⟨-, -, -, -, -, hd, -⟩ := h
    exact Or.inr (can_work hdtx (Or.inr ⟨_, _, _, _, _, _, hd⟩))
  | acked front seg rest i =>
    obtain ⟨-, -, hhost, -, hw, -⟩ := h
    have hne : s.s2h ≠ [] := by
      rw [← hto, show s.view.toHost = _ from congrArg Prod.fst hw, Dev.written]
      split_ifs <;> exact List.cons_ne_nil _ _
    exact Or.inr (can_read hhtx hne fun b => (show s.host = _ from hhost) ▸ read_total b _ _ _ _)
  | failed front seg rest i =>
    obtain ⟨-, -, hhost, -, -, ⟨lba, rc, hfail⟩, -⟩ := h
    have hne : s.s2h ≠ [] := by
      rw [← hto, hfail]
      exact List.cons_ne_nil _ _
    exact Or.inr (can_read hhtx hne fun b => (show s.host = _ from hhost) ▸ read_total b _ _ _ _)
  | nacked =>
    obtain ⟨⟨k, seg, i, b, hhost⟩, -⟩ := h
    refine Or.inr ⟨.hostRead 0, ?_⟩
    simp [Sys.step, hhtx, show s.host = _ from hhost, Host.read]
  | raised => exact Or.inl ⟨Or.inr h.1, rfl⟩
  | finish =>
    obtain ⟨⟨buf, hhost, hbuf, hno⟩, -⟩ := h
    have hne : s.s2h ≠ [] := by
      intro hnil
      rw [hto, hnil, List.append_nil] at hbuf
      exact hno (hbuf ▸ by decide)
    exact Or.inr (can_read hhtx hne fun b =>
      (show s.host = .waitDone buf from hhost) ▸ waitDone_total b buf)
  | done => exact Or.inl ⟨Or.inl h.1, rfl⟩

/-! ### Runs -/

/-- The two sides are at some place of the dialogue. -/
def InDialogue (env : Env) (segments : List Segment) (card : Card) (pre : List Byte) (s : Sys) :
    Prop :=
  ∃ ph, At env segments card pre ph s.view

lemma InDialogue.start (s2h devTx : List Byte) :
    InDialogue env segments card (s2h ++ devTx) (Sys.start card s2h devTx) :=
  ⟨.hello, ⟨[], rfl, rfl⟩, rfl, rfl, ⟨rfl, rfl, nofun⟩⟩

/-- A step of the state keeps the place, or goes on to a later one. -/
lemma InDialogue.step (ha : Accepted env segments pre) {a : Act}
    (h : InDialogue env segments card pre s) (hs : s.step env segments a = some s') :
    InDialogue env segments card pre s' := by
  obtain ⟨ph, hat⟩ := h
  rcases Sys.step_view hs with ⟨hv, -⟩ | hv
  · exact ⟨ph, hv ▸ hat⟩
  · obtain ⟨ph', hat', -⟩ := hat.step ha hv
    exact ⟨ph', hat'⟩

lemma InDialogue.reachable {s2h devTx : List Byte} (ha : Accepted env segments (s2h ++ devTx))
    (h : Reachable (Sys.step env segments) (Sys.start card s2h devTx) s) :
    InDialogue env segments card (s2h ++ devTx) s :=
  h.inv (InDialogue.start s2h devTx) fun _ _ _ hI hs => hI.step ha hs

/-- The dialogue comes to its end: the place, the bytes on the way and the bytes to be put into
the streams fall. -/
lemma InDialogue.ends (ha : Accepted env segments pre) (h : InDialogue env segments card pre s) :
    Inevitable (Sys.step env segments) (fun s => s.host.Ended ∧ s.devTx = []) s := by
  obtain ⟨ph, hat⟩ := h
  have wf : WellFounded (Prod.Lex (· < ·) (Prod.Lex (· < ·) (· < ·)) : ℕ × ℕ × ℕ → _ → Prop) :=
    WellFounded.prod_lex Nat.lt_wfRel.wf (WellFounded.prod_lex Nat.lt_wfRel.wf Nat.lt_wfRel.wf)
  refine Inevitable.of_rank wf (I := fun x s => ∃ ph, At env segments card pre ph s.view ∧
    x = (ph.rank segments, s.view.size, s.unsent)) (fun x s hI => ?_) (fun x s a s' hI hs => ?_)
    ⟨ph, hat, rfl⟩
  · obtain ⟨ph, hat, -⟩ := hI
    exact hat.can_step
  · obtain ⟨ph, hat, rfl⟩ := hI
    refine Or.inr ?_
    rcases Sys.step_view hs with ⟨hv, hlt⟩ | hv
    · exact ⟨_, .right _ (hv ▸ .right _ hlt), ph, hv ▸ hat, rfl⟩
    · obtain ⟨ph', hat', hlt | ⟨heq, hlt⟩⟩ := hat.step ha hv
      · exact ⟨_, .left _ _ hlt, ph', hat', rfl⟩
      · exact ⟨_, heq ▸ .right _ (.left _ _ hlt), ph', hat', rfl⟩

/-! ### What holds at every place -/

variable {v : View} {ph : Phase}

/-- Stage2 looks at the line, or it is busy and nothing is on the way to it. -/
lemma At.dev (h : At env segments card pre ph v) :
    v.dev.Listens ∨ (v.dev.Busy ∧ v.host.Waits ∧ v.toDev = []) := by
  cases ph with
  | init =>
    obtain ⟨⟨buf, hhost, -⟩, hdev, hd, -⟩ := h
    exact Or.inr ⟨Or.inl hd, Or.inl ⟨_, hhost⟩, hdev⟩
  | write =>
    obtain ⟨-, -, hhost, -, hdev, hd, -⟩ := h
    exact Or.inr ⟨Or.inr ⟨_, _, _, _, _, _, hd⟩, Or.inr ⟨_, _, _, _, hhost⟩, hdev⟩
  | acked =>
    obtain ⟨-, -, -, -, hw, -⟩ := h
    refine Or.inl ?_
    rw [show v.dev = _ from congrArg Prod.snd hw, Dev.written]
    split_ifs <;> trivial
  | count =>
    obtain ⟨-, -, ⟨got, hd, -⟩, -⟩ := h
    exact Or.inl (hd ▸ trivial)
  | header =>
    obtain ⟨-, -, -, ⟨got, hd, -⟩, -⟩ := h
    exact Or.inl (hd ▸ trivial)
  | sector =>
    obtain ⟨-, -, -, -, ⟨got, hd, -⟩, -⟩ := h
    exact Or.inl (hd ▸ trivial)
  | failed =>
    obtain ⟨-, -, -, -, hd, -⟩ := h
    exact Or.inl (hd ▸ trivial)
  | ready | go => exact Or.inl (h.2.2.2.1 ▸ trivial)
  | hello | nacked | raised | finish | done => exact Or.inl (h.2.2.1 ▸ trivial)

/-- Some of the writes have been done, or one of them has failed. -/
lemma At.wrote (h : At env segments card pre ph v) :
    (∃ ws more, segments.flatMap Segment.writes = ws ++ more ∧ Wrote env card v ws) ∨
      WroteFailed env segments card v := by
  cases ph with
  | hello | init => exact Or.inl ⟨[], _, rfl, h.2.2.2⟩
  | ready | go => exact Or.inl ⟨[], _, rfl, h.2.2.2.2⟩
  | count => exact Or.inl ⟨[], _, rfl, h.2.2.2⟩
  | header =>
    obtain ⟨hsplit, -, -, -, hw⟩ := h
    obtain ⟨more, hmore⟩ := flatMap_writes_split 0 hsplit
    exact Or.inl ⟨_, more, hmore, hw⟩
  | sector front seg rest i =>
    obtain ⟨hsplit, -, -, -, -, hw⟩ := h
    obtain ⟨more, hmore⟩ := flatMap_writes_split i hsplit
    exact Or.inl ⟨_, more, hmore, hw⟩
  | write front seg rest i =>
    obtain ⟨hsplit, -, -, -, -, -, hw⟩ := h
    obtain ⟨more, hmore⟩ := flatMap_writes_split i hsplit
    exact Or.inl ⟨_, more, hmore, hw⟩
  | acked front seg rest i =>
    obtain ⟨hsplit, -, -, -, -, hw⟩ := h
    obtain ⟨more, hmore⟩ := flatMap_writes_split (i + 1) hsplit
    exact Or.inl ⟨_, more, hmore, hw⟩
  | failed => exact Or.inr h.2.2.2.2.2.2
  | nacked | raised => exact Or.inr h.2.2.2
  | finish | done => exact Or.inl ⟨_, [], (List.append_nil _).symm, h.2.2.2⟩

/-- When the host has ended, stage2 is in its dispatcher and has consumed everything, and the host
has returned after all writes or raised after a failed one. -/
lemma At.ended (h : At env segments card pre ph v) (he : v.host.Ended) :
    v.toDev = [] ∧ v.dev = .dispatch ∧
      ((v.host = .returned ∧ Wrote env card v (segments.flatMap Segment.writes)) ∨
        ((∃ e, v.host = .raised e) ∧ WroteFailed env segments card v)) := by
  have hno : ∀ {hst : Host}, v.host = hst → ¬ hst.Ended → False := fun hv hn => hn (hv ▸ he)
  cases ph with
  | raised => exact ⟨h.2.1, h.2.2.1, Or.inr ⟨h.1, h.2.2.2⟩⟩
  | done => exact ⟨h.2.1, h.2.2.1, Or.inl ⟨h.1, h.2.2.2⟩⟩
  | hello | init | ready | go | finish =>
    obtain ⟨⟨buf, hhost, -⟩, -⟩ := h
    exact (hno hhost (by simp [Host.Ended])).elim
  | nacked =>
    obtain ⟨⟨k, seg, i, b, hhost⟩, -⟩ := h
    exact (hno hhost (by simp [Host.Ended])).elim
  | count => exact (hno h.1 (by simp [Host.Ended])).elim
  | header => exact (hno h.2.1 (by simp [Host.Ended])).elim
  | sector | write | acked | failed => exact (hno h.2.2.1 (by simp [Host.Ended])).elim

/-- The first failed write is one and the same for all. -/
lemma WroteFailed.eq {ws rest : List (BitVec 32 × Sector)} {w : BitVec 32 × Sector}
    {rc : BitVec 32} {junk : Sector} (h : WroteFailed env segments card v)
    (hws : segments.flatMap Segment.writes = ws ++ w :: rest)
    (hok : ∀ j < ws.length, env.fault j = none) (hf : env.fault ws.length = some (rc, junk)) :
    v.card = (card.write ws).write [(w.1, junk)] ∧ v.writes = ws.length + 1 := by
  obtain ⟨ws', w', rest', rc', junk', hws', hok', hf', hcard, hwrites⟩ := h
  have hlen : ws'.length = ws.length := by
    rcases Nat.lt_trichotomy ws'.length ws.length with hlt | heq | hlt
    · exact absurd ((hok _ hlt).symm.trans hf') nofun
    · exact heq
    · exact absurd ((hok' _ hlt).symm.trans hf) nofun
  obtain ⟨rfl, hcons⟩ := List.append_inj (hws'.symm.trans hws) hlen
  obtain ⟨rfl, -⟩ := List.cons.inj hcons
  rw [hf] at hf'
  cases hf'
  exact ⟨hcard, hwrites⟩

/-- When no write fails, none has failed. -/
lemma not_wroteFailed (hok : ∀ j < (segments.flatMap Segment.writes).length, env.fault j = none) :
    ¬ WroteFailed env segments card v := by
  rintro ⟨ws, w, rest, rc, junk, hws, -, hf, -⟩
  have hlt : ws.length < (segments.flatMap Segment.writes).length := by
    rw [hws, List.length_append, List.length_cons]
    omega
  exact absurd ((hok _ hlt).symm.trans hf) nofun

/-- Before a write that fails, at most the writes before it have been done. -/
lemma Wrote.length_le {ws : List (BitVec 32 × Sector)} {k : ℕ} {r : BitVec 32 × Sector}
    (h : Wrote env card v ws) (hf : env.fault k = some r) : v.writes ≤ k := by
  rw [h.writes_eq]
  by_contra hlt
  exact absurd ((h.ok k (by omega)).symm.trans hf) nofun

/-! ### Agreement -/

/-- What every interleaving from `s₀` keeps to. -/
structure MwAgrees (env : Env) (segments : List Segment) (card : Card) (s₀ : Sys) : Prop where
  /-- the host returns or raises, and stage2 prints its report to the end -/
  ends : Inevitable (Sys.step env segments) (fun s => s.host.Ended ∧ s.devTx = []) s₀
  /-- when all writes succeed, the host returns, and the card has the sectors -/
  success : (∀ j < (segments.flatMap Segment.writes).length, env.fault j = none) →
    ∀ s, Reachable (Sys.step env segments) s₀ s → s.host.Ended →
      s.host = .returned ∧ s.card = card.write (segments.flatMap Segment.writes)
  /-- when the write of `w` is the first one to fail, the host raises, the writes before it have
  been done, and no write after it is ever tried -/
  failure : ∀ ws w rest rc junk, segments.flatMap Segment.writes = ws ++ w :: rest →
    (∀ j < ws.length, env.fault j = none) → env.fault ws.length = some (rc, junk) →
    ∀ s, Reachable (Sys.step env segments) s₀ s → s.writes ≤ ws.length + 1 ∧
      (s.host.Ended → (∃ e, s.host = .raised e) ∧
        s.card = (card.write ws).write [(w.1, junk)] ∧ s.writes = ws.length + 1)
  /-- when the host has ended, stage2 is in its dispatcher and has consumed every byte -/
  consumed : ∀ s, Reachable (Sys.step env segments) s₀ s → s.host.Ended →
    s.dev = .dispatch ∧ s.hostTx = [] ∧ s.h2s = []
  /-- no byte of the transfer is taken as a mode command -/
  noCommand : ∀ s, Reachable (Sys.step env segments) s₀ s → ∀ mode, s.dev ≠ .command mode
  /-- while stage2 does not look at the line, the host waits and nothing is on the way -/
  idle : ∀ s, Reachable (Sys.step env segments) s₀ s → s.dev.Busy →
    s.host.Waits ∧ s.hostTx = [] ∧ s.h2s = []

lemma view_toDev_nil (h : s.view.toDev = []) : s.hostTx = [] ∧ s.h2s = [] :=
  (List.append_eq_nil_iff.1 h).symm

/-- **The two sides of the multi-segment write agree**: whatever the order in which they take
their steps, wherever a write fails, and whatever stage2 has printed before. -/
theorem mwAgrees (card : Card) (s2h devTx : List Byte)
    (ha : Accepted env segments (s2h ++ devTx)) :
    MwAgrees env segments card (Sys.start card s2h devTx) where
  ends := (InDialogue.start s2h devTx).ends ha
  success hok s hs he := by
    obtain ⟨ph, hat⟩ := InDialogue.reachable ha hs
    obtain ⟨-, -, ⟨hret, hw⟩ | ⟨-, hw⟩⟩ := hat.ended he
    · exact ⟨hret, hw.card_eq⟩
    · exact absurd hw (not_wroteFailed hok)
  failure ws w rest rc junk hws hok hf s hs := by
    obtain ⟨ph, hat⟩ := InDialogue.reachable ha hs
    refine ⟨?_, fun he => ?_⟩
    · rcases hat.wrote with ⟨ws', more, -, hw⟩ | hw
      · exact (hw.length_le hf).trans (Nat.le_succ _)
      · exact (hw.eq hws hok hf).2.le
    · obtain ⟨-, -, ⟨-, hw⟩ | ⟨hraise, hw⟩⟩ := hat.ended he
      · have hle := hw.length_le hf
        rw [hw.writes_eq, hws, List.length_append, List.length_cons] at hle
        omega
      · exact ⟨hraise, hw.eq hws hok hf⟩
  consumed s hs he := by
    obtain ⟨ph, hat⟩ := InDialogue.reachable ha hs
    obtain ⟨hnil, hd, -⟩ := hat.ended he
    exact ⟨hd, view_toDev_nil hnil⟩
  noCommand s hs mode hm := by
    obtain ⟨ph, hat⟩ := InDialogue.reachable ha hs
    have hm' : s.view.dev = .command mode := hm
    rcases hat.dev with hl | ⟨hb, -⟩
    · exact (hm' ▸ hl : (Dev.command mode).Listens)
    · rw [hm'] at hb
      simp [Dev.Busy] at hb
  idle s hs hb := by
    obtain ⟨ph, hat⟩ := InDialogue.reachable ha hs
    rcases hat.dev with hl | ⟨-, hwait, hnil⟩
    · rcases hb with hd | ⟨n, k, lba, cnt, i, rx, hd⟩
      · exact ((show s.view.dev = _ from hd) ▸ hl : Dev.sdInit.Listens).elim
      · exact ((show s.view.dev = _ from hd) ▸ hl : (Dev.sdWrite ..).Listens).elim
    · exact ⟨hwait, view_toDev_nil hnil⟩

/-- Two segments, of two sectors and of one. -/
def twoSegments : List Segment :=
  [⟨7, List.replicate 512 1 ++ List.replicate 512 2⟩, ⟨3, List.replicate 512 3⟩]

lemma twoSegments_lbas : (twoSegments.flatMap Segment.writes).map Prod.fst = [7, 8, 3] := by
  decide +kernel

/-- The second of their writes fails and leaves something else: the host raises, and the third one
is not tried. -/
theorem mwAgrees_two :
    let env : Env := ⟨true, fun k => if k = 1 then some (5, fun _ => 9) else none⟩
    let start := Sys.start (fun _ _ => 4) [0x4D, 0x57] [0x5F]
    let ws := twoSegments.flatMap Segment.writes
    MwAgrees env twoSegments (fun _ _ => 4) start ∧
      ∀ s, Reachable (Sys.step env twoSegments) start s → s.host.Ended →
        (∃ e, s.host = .raised e) ∧ s.writes = 2 ∧
          s.card = (Card.write (fun _ _ => 4) (ws.take 1)).write [(8, fun _ => 9)] := by
  intro env start ws
  have hagrees : MwAgrees env twoSegments (fun _ _ => 4) start :=
    mwAgrees _ [0x4D, 0x57] [0x5F] ⟨rfl, by decide, by decide, by decide +kernel, by decide⟩
  refine ⟨hagrees, fun s hs he => ?_⟩
  have hlba : ws.map Prod.fst = [7, 8, 3] := twoSegments_lbas
  obtain ⟨x, y, z, hws⟩ : ∃ x y z, ws = [x, y, z] :=
    List.length_eq_three.1 (by rw [← List.length_map, hlba]; rfl)
  rw [hws] at hlba ⊢
  obtain ⟨hraise, hcard, hwrites⟩ := (hagrees.failure [x] y [z] 5 (fun _ => 9) hws
    (fun j hj => if_neg (Nat.ne_of_lt hj)) rfl s hs).2 he
  rw [(List.cons.inj (List.cons.inj hlba).2).1] at hcard
  exact ⟨hraise, hwrites, hcard⟩

end Agreement

end Neorv32Boot.Sd
