import Mathlib.Tactic

/-!
# Reading a stream in chunks

A loop that reads a stream piece by piece into a buffer, until the buffer has what the loop wants or
its time is over.  How a stream is cut into chunks is up to the other side: a row of numbers says
how many elements have come when each of the reads returns.  What the loop ends with is a prefix of
the stream, and where it ends depends on these numbers only.
-/

namespace Neorv32Boot

namespace Gather

variable {α : Type*}

/-- The buffer, and what is left of the stream, after the reads of a loop.  `ask` is how many
elements a read asks for, by the length of the buffer, `stop` is the condition to leave the loop,
and `offers` is how many elements have come, read by read, before the time is over. -/
def gather (ask : ℕ → ℕ) (stop : List α → Bool) : List ℕ → List α → List α → List α × List α
  | [], buf, stream => (buf, stream)
  | k :: offers, buf, stream =>
    if stop buf then (buf, stream)
    else
      let n := min k (ask buf.length)
      gather ask stop offers (buf ++ stream.take n) (stream.drop n)

/-- Where such a loop ends that wants the first `e` of `len` elements and has `m` of them. -/
def reach (ask : ℕ → ℕ) (e len : ℕ) : List ℕ → ℕ → ℕ
  | [], m => m
  | k :: offers, m =>
    if e ≤ m then m else reach ask e len offers (min len (m + min k (ask m)))

variable {ask : ℕ → ℕ} {stop : List α → Bool} {e len : ℕ}

/-- Nothing is lost. -/
lemma gather_append (offers : List ℕ) (buf stream : List α) :
    (gather ask stop offers buf stream).1 ++ (gather ask stop offers buf stream).2 =
      buf ++ stream := by
  induction offers generalizing buf stream with
  | nil => rfl
  | cons k offers ih =>
    rw [gather]
    split_ifs
    · rfl
    · rw [ih, List.append_assoc, List.take_append_drop]

/-- The loop does not ask for more than it wants. -/
lemma reach_le_of_ask {offers : List ℕ} {m : ℕ} (hask : ∀ n < e, n + ask n ≤ e) (hm : m ≤ e) :
    reach ask e len offers m ≤ e := by
  induction offers generalizing m with
  | nil => exact hm
  | cons k offers ih =>
    rw [reach]
    split_ifs with he
    · exact hm
    · refine ih ((min_le_right _ _).trans ?_)
      have := hask m (not_le.1 he)
      omega

/-- The loop ends less than one read behind what it wants. -/
lemma reach_lt {offers : List ℕ} {m c : ℕ} (hask : ∀ n, ask n ≤ c) (hm : m < e + c) :
    reach ask e len offers m < e + c := by
  induction offers generalizing m with
  | nil => exact hm
  | cons k offers ih =>
    rw [reach]
    split_ifs with he
    · exact hm
    · refine ih ((min_le_right _ _).trans_lt ?_)
      have := hask m
      omega

/-- A loop that stops exactly with the first `e` elements ends where `reach` says. -/
lemma gather_eq {whole : List α}
    (hstop : ∀ m ≤ whole.length, stop (whole.take m) = true ↔ e ≤ m) (offers : List ℕ) {m : ℕ}
    (hm : m ≤ whole.length) :
    gather ask stop offers (whole.take m) (whole.drop m) =
      (whole.take (reach ask e whole.length offers m),
        whole.drop (reach ask e whole.length offers m)) := by
  induction offers generalizing m with
  | nil => rfl
  | cons k offers ih =>
    have hlen : (whole.take m).length = m := List.length_take_of_le hm
    rw [gather, reach]
    by_cases he : e ≤ m
    · rw [if_pos ((hstop m hm).2 he), if_pos he]
    · rw [if_neg (mt (hstop m hm).1 he), if_neg he, hlen]
      have htake : whole.take m ++ (whole.drop m).take (min k (ask m)) =
          whole.take (min whole.length (m + min k (ask m))) := by
        rw [← List.take_add]
        rcases le_total whole.length (m + min k (ask m)) with hl | hl
        · rw [min_eq_left hl, List.take_length, List.take_of_length_le hl]
        · rw [min_eq_right hl]
      have hdrop : (whole.drop m).drop (min k (ask m)) =
          whole.drop (min whole.length (m + min k (ask m))) := by
        rw [List.drop_drop]
        rcases le_total whole.length (m + min k (ask m)) with hl | hl
        · rw [min_eq_left hl, List.drop_length, List.drop_of_length_le hl]
        · rw [min_eq_right hl]
      dsimp only
      rw [htake, hdrop]
      exact ih (min_le_left _ _)

end Gather

end Neorv32Boot
