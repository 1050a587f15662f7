import Mathlib.Tactic

/-!
# A full-duplex bus

A device on a bus where every word that goes out brings one in, and that can be selected.  This
file has the loops of a driver over such a bus, and what they do when the device has a row of words
to say.
-/

namespace Neorv32Boot

/-- A device, as its states and what the bus does to them. -/
structure Bus (β σ : Type*) where
  xchg : β → σ → β × σ
  select : Bool → σ → σ

namespace Bus

variable {β σ : Type*} (bus : Bus β σ)

/-- Words go out, and what comes in is dropped. -/
def sends : List β → σ → σ
  | [], s => s
  | b :: bs, s => sends bs (bus.xchg b s).2

/-- So many words come in, for the same word each. -/
def recvs (fill : β) : ℕ → σ → List β × σ
  | 0, s => ([], s)
  | n + 1, s =>
    let r := bus.xchg fill s
    let rs := recvs fill n r.2
    (r.1 :: rs.1, rs.2)

/-- At most so many words come in, until one is as wanted: the last one, or `last` when there is
none. -/
def poll (fill : β) (wanted : β → Bool) : ℕ → β → σ → β × σ
  | 0, last, s => (last, s)
  | n + 1, _, s =>
    let r := bus.xchg fill s
    if wanted r.1 then r else poll fill wanted n r.1 r.2

variable {bus}

lemma sends_append (xs ys : List β) (s : σ) :
    bus.sends (xs ++ ys) s = bus.sends ys (bus.sends xs s) := by
  induction xs generalizing s with
  | nil => rfl
  | cons x xs ih => exact ih _

/-! ### A device with something to say -/

/-- A row of words is said, one for each of the driver's. -/
def Tells (bus : Bus β σ) (fill : β) (line : List β → σ) : Prop :=
  ∀ b out, bus.xchg fill (line (b :: out)) = (b, line out)

section Tells

variable {fill : β} {line : List β → σ} (h : Tells bus fill line)
include h

lemma Tells.recvs (out more : List β) :
    bus.recvs fill out.length (line (out ++ more)) = (out, line more) := by
  induction out with
  | nil => rfl
  | cons b out ih => rw [List.length_cons, Bus.recvs, List.cons_append, h, ih]

/-- The words before the first that is wanted are skipped. -/
lemma Tells.poll {wanted : β → Bool} {pre : List β} {b : β} (hpre : ∀ x ∈ pre, wanted x = false)
    (hb : wanted b = true) {n : ℕ} (hn : pre.length < n) (more : List β) (last : β) :
    bus.poll fill wanted n last (line (pre ++ b :: more)) = (b, line more) := by
  induction pre generalizing n last with
  | nil =>
    obtain ⟨n, rfl⟩ := Nat.exists_eq_add_of_lt hn
    rw [Bus.poll, List.nil_append, h]
    exact if_pos hb
  | cons x pre ih =>
    obtain ⟨hx, hpre⟩ := List.forall_mem_cons.1 hpre
    obtain ⟨n, rfl⟩ := Nat.exists_eq_add_of_lt hn
    rw [Bus.poll, List.cons_append, h]
    simp only [hx, Bool.false_eq_true, if_false]
    refine ih hpre ?_ x
    rw [List.length_cons]
    omega

/-- When no word is wanted, the last one is left. -/
lemma Tells.poll_none {wanted : β → Bool} {pre : List β} (hpre : ∀ x ∈ pre, wanted x = false)
    (more : List β) {last : β} (hlast : wanted last = false) :
    wanted (bus.poll fill wanted pre.length last (line (pre ++ more))).1 = false ∧
      (bus.poll fill wanted pre.length last (line (pre ++ more))).2 = line more := by
  induction pre generalizing last with
  | nil => exact ⟨hlast, rfl⟩
  | cons x pre ih =>
    obtain ⟨hx, hpre⟩ := List.forall_mem_cons.1 hpre
    rw [List.length_cons, Bus.poll, List.cons_append, h]
    simp only [hx, Bool.false_eq_true, if_false]
    exact ih hpre hx

end Tells

/-! ### A kind of state that is kept -/

section Kept

variable {I : σ → Prop} {fill : β} (h : ∀ s, I s → I (bus.xchg fill s).2)
include h

lemma recvs_kept (n : ℕ) {s : σ} (hs : I s) : I (bus.recvs fill n s).2 := by
  induction n generalizing s with
  | zero => exact hs
  | succ n ih => exact ih (h s hs)

lemma poll_kept {wanted : β → Bool} (n : ℕ) (last : β) {s : σ} (hs : I s) :
    I (bus.poll fill wanted n last s).2 := by
  induction n generalizing last s with
  | zero => exact hs
  | succ n ih =>
    rw [poll]
    split_ifs
    · exact h s hs
    · exact ih _ (h s hs)

end Kept

end Bus

end Neorv32Boot
