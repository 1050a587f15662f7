import Mathlib.Data.List.DropRight
import Neorv32Boot.Lib.Bytes

/-!
# Byte strings of Python

The methods of `bytes` by which the host takes a number out of what stage2 has printed.
-/

namespace Neorv32Boot.Host

/-- What follows the first `pat`: `bs[bs.index(pat) + len(pat):]`, when `pat in bs`. -/
def after (pat : List Byte) : List Byte → Option (List Byte)
  | [] => if pat = [] then some [] else none
  | b :: bs => if pat <+: b :: bs then some ((b :: bs).drop pat.length) else after pat bs

/-- ASCII whitespace. -/
def isSpace (b : Byte) : Bool := (ascii " \t\n\r" ++ [0x0B, 0x0C]).contains b

/-- `bs.strip()` -/
def strip (bs : List Byte) : List Byte := (bs.dropWhile isSpace).rdropWhile isSpace

/-- `bs.split(sep)[0]` -/
def splitHead (sep : Byte) (bs : List Byte) : List Byte := bs.takeWhile (· ≠ sep)

/-- The value of a hexadecimal digit. -/
def hexVal (b : Byte) : Option ℕ :=
  let n := b.toNat
  if 0x30 ≤ n ∧ n ≤ 0x39 then some (n - 0x30)
  else if 0x41 ≤ n ∧ n ≤ 0x46 then some (n - 0x37)
  else if 0x61 ≤ n ∧ n ≤ 0x66 then some (n - 0x57)
  else none

/-- Digits up to the end, with single underscores between them. -/
def digits16 (acc : ℕ) : List Byte → Option ℕ
  | [] => some acc
  | b :: bs =>
    match hexVal b with
    | some d => digits16 (16 * acc + d) bs
    | none =>
      if b = 0x5F ∧ (bs.head?.bind hexVal).isSome then digits16 acc bs else none

/-- `int(bs, 16)`, where `none` is a `ValueError`. -/
def int16 (bs : List Byte) : Option ℤ :=
  let bs := strip bs
  let neg := bs.head? = some 0x2D
  let bs := if neg ∨ bs.head? = some 0x2B then bs.tail else bs
  let bs :=
    if bs.take 2 = ascii "0x" ∨ bs.take 2 = ascii "0X" then
      let bs := bs.drop 2
      if bs.head? = some 0x5F then bs.tail else bs
    else bs
  if (bs.head?.bind hexVal).isSome then
    (digits16 0 bs).map fun n => if neg then -(n : ℤ) else n
  else none

/-! ### Their rules -/

lemma strip_eq_self {bs : List Byte} (h : ∀ b ∈ bs, isSpace b = false) : strip bs = bs := by
  have hdrop : bs.dropWhile isSpace = bs := by
    refine List.dropWhile_eq_self_iff.2 fun hl => ?_
    rw [h _ (List.getElem_mem hl)]
    exact Bool.false_ne_true
  rw [strip, hdrop]
  refine List.rdropWhile_eq_self_iff.2 fun hl => ?_
  rw [h _ (List.getLast_mem hl)]
  exact Bool.false_ne_true

lemma splitHead_eq_self {sep : Byte} {bs : List Byte} (h : sep ∉ bs) : splitHead sep bs = bs := by
  refine List.takeWhile_eq_self_iff.2 fun b hb => ?_
  rw [decide_eq_true_eq]
  rintro rfl
  exact h hb

lemma after_eq_none_iff {pat bs : List Byte} : after pat bs = none ↔ ¬ pat <:+: bs := by
  induction bs with
  | nil =>
    rw [after]
    split_ifs with h
    · exact iff_of_false nofun fun hn => hn (h ▸ List.infix_rfl)
    · exact iff_of_true rfl fun hin => h (List.infix_nil.1 hin)
  | cons b bs ih =>
    rw [after, List.infix_cons_iff]
    split_ifs with h
    · exact iff_of_false nofun fun hn => hn (Or.inl h)
    · rw [ih]
      exact ⟨fun hn => not_or.2 ⟨h, hn⟩, fun hn => (not_or.1 hn).2⟩

/-- A marker is found where it first comes. -/
lemma after_first {pat front line : List Byte} {z : Byte} (h : ¬ pat ++ [z] <:+: front ++ pat) :
    after (pat ++ [z]) (front ++ (pat ++ [z]) ++ line) = some line := by
  induction front with
  | nil =>
    have hpre : pat ++ [z] <+: pat ++ [z] ++ line := List.prefix_append ..
    have hdrop : (pat ++ [z] ++ line).drop (pat ++ [z]).length = line := List.drop_left
    rw [List.nil_append]
    obtain ⟨b, bs, hb⟩ : ∃ b bs, pat ++ [z] ++ line = b :: bs := by
      cases pat <;> exact ⟨_, _, rfl⟩
    rw [hb] at hpre hdrop ⊢
    rw [after, if_pos hpre, hdrop]
  | cons b front ih =>
    rw [List.cons_append, List.infix_cons_iff, not_or] at h
    rw [List.cons_append, List.cons_append, after, if_neg, ih h.2]
    intro hpre
    have hfront : b :: (front ++ pat) <+: b :: (front ++ (pat ++ [z]) ++ line) :=
      ⟨[z] ++ line, by simp⟩
    exact h.1 (List.prefix_of_prefix_length_le hpre hfront (by simp))

/-- A marker that ends with a byte it has nowhere else is found where this byte comes first. -/
lemma after_append {pat front line : List Byte} {z : Byte} (hz : z ∉ pat) (hf : z ∉ front) :
    after (pat ++ [z]) (front ++ (pat ++ [z]) ++ line) = some line := by
  refine after_first fun hin => ?_
  have hmem : z ∈ front ++ pat := hin.subset (by simp)
  rcases List.mem_append.1 hmem with h | h
  · exact hf h
  · exact hz h

end Neorv32Boot.Host
