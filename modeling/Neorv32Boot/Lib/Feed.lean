import Neorv32Boot.Lib.Trans

/-!
# Devices that answer

A device takes its input item by item and writes something for each of them.  Often it only collects
what comes until a message is complete.  This file has the run of a device over an input, and a
client that sends to it and reads what it has written, in pieces of any length.
-/

namespace Neorv32Boot.Feed

open Neorv32Boot.Trans (Reachable withHistory)

variable {δ κ β γ : Type*}

/-- What a device writes for an input, and where it is then. -/
def feed (recv : δ → β → Option (List γ × δ)) : δ → List β → Option (List γ × δ)
  | d, [] => some ([], d)
  | d, b :: bs => (recv d b).bind fun r => (feed recv r.2 bs).map fun r' => (r.1 ++ r'.1, r'.2)

section Device

variable {recv : δ → β → Option (List γ × δ)}

lemma feed_append (d : δ) (bs cs : List β) :
    feed recv d (bs ++ cs) = (feed recv d bs).bind fun r =>
      (feed recv r.2 cs).map fun r' => (r.1 ++ r'.1, r'.2) := by
  induction bs generalizing d with
  | nil => simp [feed]
  | cons b bs ih =>
    rw [List.cons_append, feed, feed]
    cases recv d b with
    | none => rfl
    | some r =>
      rw [Option.bind_some, Option.bind_some, ih]
      cases feed recv r.2 bs with
      | none => rfl
      | some r' => simp [Function.comp_def, List.append_assoc]

/-- One item more. -/
lemma feed_concat {d d₁ d₂ : δ} {bs : List β} {b : β} {out out' : List γ}
    (h : feed recv d bs = some (out, d₁)) (hb : recv d₁ b = some (out', d₂)) :
    feed recv d (bs ++ [b]) = some (out ++ out', d₂) := by
  rw [feed_append, h, Option.bind_some, feed, hb]
  simp [feed]

/-- A device that has taken an input has taken what it begins with. -/
lemma recv_of_feed {d d₁ : δ} {bs cs : List β} {b : β} {out : List γ} {r : List γ × δ}
    (h : feed recv d bs = some (out, d₁)) (hr : feed recv d (bs ++ b :: cs) = some r) :
    ∃ r', recv d₁ b = some r' := by
  rw [feed_append, h, Option.bind_some, feed] at hr
  cases hb : recv d₁ b with
  | none =>
    rw [hb] at hr
    cases hr
  | some r' => exact ⟨r', rfl⟩

/-- A device collects `n` items before it acts on them. -/
structure Collects (recv : δ → β → Option (List γ × δ)) (n : ℕ) (place : List β → δ)
    (act : List β → Option (List γ × δ)) : Prop where
  more : ∀ got b, got.length + 1 < n → recv (place got) b = some ([], place (got ++ [b]))
  full : ∀ got b, got.length + 1 = n → recv (place got) b = act (got ++ [b])

variable {n : ℕ} {place : List β → δ} {act : List β → Option (List γ × δ)}

/-- Too few items. -/
lemma Collects.short (h : Collects recv n place act) {got bs : List β}
    (hlt : got.length + bs.length < n) :
    feed recv (place got) bs = some ([], place (got ++ bs)) := by
  induction bs generalizing got with
  | nil => rw [feed, List.append_nil]
  | cons b bs ih =>
    rw [List.length_cons] at hlt
    have hgot : (got ++ [b]).length = got.length + 1 := List.length_append
    rw [feed, h.more got b (by omega), Option.bind_some, ih (by omega), Option.map_some,
      List.append_assoc]
    rfl

/-- The rest of a message. -/
lemma Collects.message (h : Collects recv n place act) {got bs : List β} {r : List γ × δ}
    (hlen : got.length + bs.length = n) (hne : bs ≠ []) (hact : act (got ++ bs) = some r) :
    feed recv (place got) bs = some r := by
  obtain ⟨front, b, rfl⟩ := List.eq_nil_or_concat bs |>.resolve_left hne
  rw [List.concat_eq_append] at hlen hact ⊢
  rw [List.length_append, List.length_singleton] at hlen
  have hfull : (got ++ front).length + 1 = n := by
    rw [List.length_append]
    omega
  rw [← List.append_assoc] at hact
  rw [feed_append, h.short (by omega), Option.bind_some, feed, h.full _ b hfull, hact]
  simp [feed]

end Device

/-! ### A client -/

/-- A client of a device: what it still has to send, what it has sent, and how much it has read of
what the device has written. -/
structure Talk (κ β : Type*) where
  client : κ
  tx : List β
  sent : List β
  read : ℕ

/-- What a client does next. -/
inductive TalkAct
  | send
  | read (n : ℕ)

/-- One step of a client.  It reads when it has sent everything, and what it gets is some of what
the device writes for what has been sent so far. -/
def Talk.step (client : κ → List γ → Option (List β × κ)) (answers : List β → List γ)
    (t : Talk κ β) : TalkAct → Option (Talk κ β)
  | .send =>
    match t.tx with
    | [] => none
    | b :: tx => some { t with tx := tx, sent := t.sent ++ [b] }
  | .read n =>
    let unread := (answers t.sent).drop t.read
    if t.tx = [] ∧ n ≤ unread.length then
      (client t.client (unread.take n)).map fun r =>
        { t with client := r.2, tx := r.1, read := t.read + n }
    else none

section Client

variable {client : κ → List γ → Option (List β × κ)} {answers : List β → List γ} {t t' : Talk κ β}

lemma Talk.step_send (h : t.step client answers .send = some t') :
    ∃ b tx, t.tx = b :: tx ∧ t' = { t with tx := tx, sent := t.sent ++ [b] } := by
  rw [Talk.step] at h
  split at h
  · cases h
  · next b tx htx => exact ⟨b, tx, htx, (Option.some.inj h).symm⟩

lemma Talk.step_read {n : ℕ} (h : t.step client answers (.read n) = some t') :
    t.tx = [] ∧ n ≤ ((answers t.sent).drop t.read).length ∧
      ∃ tx k, client t.client (((answers t.sent).drop t.read).take n) = some (tx, k) ∧
        t' = { t with client := k, tx := tx, read := t.read + n } := by
  rw [Talk.step] at h
  split_ifs at h with hn
  obtain ⟨⟨tx, k⟩, hr, rfl⟩ := Option.map_eq_some_iff.1 h
  exact ⟨hn.1, hn.2, tx, k, hr, rfl⟩

/-- What a client has read, with a step. -/
def Talk.heard (answers : List β → List γ) (t : Talk κ β) : TalkAct → List γ → List γ
  | .send, l => l
  | .read n, l => l ++ ((answers t.sent).drop t.read).take n

end Client

end Neorv32Boot.Feed
