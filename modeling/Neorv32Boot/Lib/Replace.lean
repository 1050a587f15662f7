import Mathlib.Tactic

/-!
# Replacing a pattern in place

A loop goes over an array by one position at a time, and wherever it finds a pattern, it overwrites
it with new content of the same length.  It then looks at positions inside what it has just
written.  For a pattern that does not overlap itself, the loop replaces exactly the occurrences of
the original array, unless some new content, together with what follows it, forms the pattern
again.
-/

namespace Neorv32Boot.Replace

variable {α : Type*}

/-- The pattern is at position `i`. -/
def OccursAt (pat xs : List α) (i : ℕ) : Prop := pat <+: xs.drop i

instance [DecidableEq α] (pat xs : List α) (i : ℕ) : Decidable (OccursAt pat xs i) :=
  inferInstanceAs (Decidable (pat <+: xs.drop i))

/-- No proper part of the pattern is at both of its ends. -/
def BorderFree (pat : List α) : Prop := ∀ d, 0 < d → d < pat.length → ¬ pat.drop d <+: pat

/-- The array with `new` written from position `i` on. -/
def put (xs : List α) (i : ℕ) : List α → List α
  | [] => xs
  | b :: bs => put (xs.set i b) (i + 1) bs

/-! ### Positions -/

lemma occursAt_iff {pat xs : List α} {i : ℕ} :
    OccursAt pat xs i ↔ ∀ k < pat.length, xs[i + k]? = pat[k]? := by
  rw [OccursAt, List.prefix_iff_getElem?]
  refine forall₂_congr fun k hk => ?_
  rw [List.getElem?_drop, List.getElem?_eq_getElem hk]

lemma OccursAt.le {pat xs : List α} {i : ℕ} (h : OccursAt pat xs i) (hne : pat ≠ []) :
    i + pat.length ≤ xs.length := by
  have hlen := h.length_le
  have := List.length_pos_iff.2 hne
  rw [List.length_drop] at hlen
  omega

/-- Padding with an element that is not in the pattern adds no occurrence. -/
lemma occursAt_append_replicate {pat xs : List α} {x : α} (hx : x ∉ pat) (n i : ℕ) :
    OccursAt pat (xs ++ List.replicate n x) i ↔ OccursAt pat xs i := by
  rw [occursAt_iff, occursAt_iff]
  refine forall₂_congr fun k hk => ?_
  have hne : pat[k]? ≠ some x := fun he => hx (List.mem_of_getElem? he)
  rcases Nat.lt_or_ge (i + k) xs.length with hlt | hge
  · rw [List.getElem?_append_left hlt]
  · rw [List.getElem?_append_right hge, List.getElem?_eq_none hge, List.getElem?_replicate,
      List.getElem?_eq_getElem hk]
    rw [List.getElem?_eq_getElem hk] at hne
    split_ifs with hn
    · exact iff_of_false (fun he => hne he.symm) (by simp)
    · rfl

/-- Occurrences do not overlap. -/
lemma BorderFree.apart {pat xs : List α} (hb : BorderFree pat) {i j : ℕ}
    (hi : OccursAt pat xs i) (hj : OccursAt pat xs j) (hij : i < j) : i + pat.length ≤ j := by
  by_contra hlt
  refine hb (j - i) (by omega) (by omega) (List.prefix_iff_getElem?.2 fun k hk => ?_)
  rw [List.length_drop] at hk
  have h1 := occursAt_iff.1 hi (j - i + k) (by omega)
  have h2 := occursAt_iff.1 hj k (by omega)
  rw [show i + (j - i + k) = j + k by omega] at h1
  rw [← h2, h1, List.getElem_drop, List.getElem?_eq_getElem]

@[simp] lemma length_put (xs : List α) (i : ℕ) (new : List α) :
    (put xs i new).length = xs.length := by
  induction new generalizing xs i with
  | nil => rfl
  | cons b bs ih => rw [put, ih, List.length_set]

lemma getElem?_put (xs : List α) (i : ℕ) (new : List α) (k : ℕ) (hk : k < xs.length) :
    (put xs i new)[k]? = if i ≤ k ∧ k < i + new.length then new[k - i]? else xs[k]? := by
  induction new generalizing xs i with
  | nil => simp [put]
  | cons b bs ih =>
    rw [put, ih _ _ (by simpa using hk), List.getElem?_set]
    rcases Nat.lt_trichotomy k i with hlt | rfl | hgt
    · rw [if_neg (by omega), if_neg (by omega), if_neg (by omega)]
    · simp [hk]
    · have hsplit : k - i = k - (i + 1) + 1 := by omega
      rw [List.length_cons, if_neg (by omega : ¬ i = k), hsplit, List.getElem?_cons_succ]
      exact if_congr (by omega) rfl rfl

/-- A write elsewhere leaves an occurrence where it is. -/
lemma OccursAt.put {pat xs new : List α} {i q : ℕ} (h : OccursAt pat xs q) (hne : pat ≠ [])
    (hiq : i + new.length ≤ q) : OccursAt pat (put xs i new) q := by
  have hle := h.le hne
  rw [occursAt_iff] at h ⊢
  intro k hk
  rw [getElem?_put _ _ _ _ (by omega), if_neg (by omega), h k hk]

/-! ### What is to be done -/

/-- The occurrences of `xs` below position `n` are replaced, and nothing else. -/
structure Replaced (pat new xs : List α) (n : ℕ) (ys : List α) : Prop where
  length : ys.length = xs.length
  inside : ∀ p < n, OccursAt pat xs p → ∀ k < pat.length, ys[p + k]? = new[k]?
  outside : ∀ k, (∀ p < n, OccursAt pat xs p → k < p ∨ p + pat.length ≤ k) → ys[k]? = xs[k]?

/-- Some replaced occurrence forms the pattern again, with what follows it. -/
def Reforms (pat new xs : List α) : Prop :=
  ∃ p, OccursAt pat xs p ∧ ∃ j, 0 < j ∧ j < pat.length ∧
    OccursAt pat (new ++ xs.drop (p + pat.length)) j

section Replaced

variable {pat new xs ys : List α} {n : ℕ}

/-- A position that is no occurrence of the original array adds nothing to replace. -/
lemma Replaced.succ_of_not (h : Replaced pat new xs n ys)
    (hn : ¬ OccursAt pat xs n) : Replaced pat new xs (n + 1) ys := by
  have hlt : ∀ p < n + 1, OccursAt pat xs p → p < n := fun p hp ho =>
    lt_of_le_of_ne (Nat.lt_succ_iff.1 hp) fun he => hn (he ▸ ho)
  exact ⟨h.length, fun p hp ho => h.inside p (hlt p hp ho) ho,
    fun k hk => h.outside k fun p hp => hk p (by omega)⟩

/-- The occurrence at the current position is replaced. -/
lemma Replaced.succ_put (hb : BorderFree pat) (hne : pat ≠ [])
    (hnew : new.length = pat.length) (h : Replaced pat new xs n ys) (hn : OccursAt pat xs n) :
    Replaced pat new xs (n + 1) (put ys n new) := by
  have hle := hn.le hne
  refine ⟨by rw [length_put, h.length], fun p hp ho k hk => ?_, fun k hk => ?_⟩
  · have hlen := h.length
    rcases Nat.lt_succ_iff_lt_or_eq.1 hp with hlt | rfl
    · have hapart := hb.apart ho hn hlt
      rw [getElem?_put _ _ _ _ (by omega), if_neg (by omega), h.inside p hlt ho k hk]
    · rw [getElem?_put _ _ _ _ (by omega), if_pos (by omega), Nat.add_sub_cancel_left]
  · rw [← h.outside k fun p hp => hk p (by omega)]
    rcases Nat.lt_or_ge k ys.length with hlt | hge
    · rw [getElem?_put _ _ _ _ hlt, if_neg]
      have := hk n (by omega) hn
      omega
    · rw [List.getElem?_eq_none (by simpa using hge), List.getElem?_eq_none hge]

/-- Only occurrences count. -/
lemma Replaced.mono_of_not {m : ℕ} (h : Replaced pat new xs n ys) (hnm : n ≤ m)
    (hno : ∀ i, n ≤ i → ¬ OccursAt pat xs i) : Replaced pat new xs m ys := by
  induction m, hnm using Nat.le_induction with
  | base => exact h
  | succ m hm ih => exact ih.succ_of_not (hno m hm)

/-- Behind a replaced occurrence there is the original array. -/
lemma Replaced.drop_eq (hb : BorderFree pat) (hne : pat ≠ [])
    (hnew : new.length = pat.length) (h : Replaced pat new xs n ys) {p : ℕ}
    (hp : OccursAt pat xs p) (hpn : p < n) (hn : n ≤ p + pat.length) :
    ys.drop p = new ++ xs.drop (p + pat.length) := by
  have hle := hp.le hne
  refine List.ext_getElem? fun k => ?_
  rw [List.getElem?_drop]
  rcases Nat.lt_or_ge k pat.length with hk | hk
  · rw [h.inside p hpn hp k hk, List.getElem?_append_left (by omega)]
  · rw [List.getElem?_append_right (by omega), List.getElem?_drop, h.outside]
    · congr 1
      omega
    · intro q hq hoq
      rcases Nat.lt_trichotomy q p with hlt | rfl | hgt
      · have := hb.apart hoq hp hlt
        omega
      · omega
      · have := hb.apart hp hoq hgt
        omega

end Replaced

/-! ### The loop -/

variable [DecidableEq α]

/-- One round, at position `i`: the array, and how often the pattern was found. -/
def round (pat new : List α) (s : List α × ℕ) (i : ℕ) : List α × ℕ :=
  if OccursAt pat s.1 i then (put s.1 i new, s.2 + 1) else s

/-- The rounds at the first `n` positions. -/
def rounds (pat new xs : List α) (n : ℕ) : List α × ℕ :=
  (List.range n).foldl (round pat new) (xs, 0)

/-- The loop: every position where the pattern still fits. -/
def scan (pat new xs : List α) : List α × ℕ := rounds pat new xs (xs.length + 1 - pat.length)

/-- The number of occurrences below position `n`. -/
def countBelow (pat xs : List α) (n : ℕ) : ℕ := (List.range n).countP fun i => OccursAt pat xs i

/-- The number of occurrences. -/
def occurrences (pat xs : List α) : ℕ := countBelow pat xs xs.length

lemma rounds_succ (pat new xs : List α) (n : ℕ) :
    rounds pat new xs (n + 1) = round pat new (rounds pat new xs n) n := by
  rw [rounds, List.range_succ, List.foldl_append]
  rfl

lemma countBelow_succ (pat xs : List α) (n : ℕ) :
    countBelow pat xs (n + 1) = countBelow pat xs n + if OccursAt pat xs n then 1 else 0 := by
  rw [countBelow, List.range_succ, List.countP_append, ← countBelow]
  simp

lemma countBelow_of_not {pat xs : List α} {m n : ℕ} (hmn : m ≤ n)
    (hno : ∀ i, m ≤ i → ¬ OccursAt pat xs i) : countBelow pat xs n = countBelow pat xs m := by
  induction n, hmn using Nat.le_induction with
  | base => rfl
  | succ n hn ih => rw [countBelow_succ, if_neg (hno n hn), Nat.add_zero, ih]

/-- One occurrence is counted exactly when there is one. -/
lemma occurrences_eq_one_iff {pat xs : List α} (hne : pat ≠ []) :
    occurrences pat xs = 1 ↔ ∃! p, OccursAt pat xs p := by
  have hcard : occurrences pat xs =
      ((Finset.range xs.length).filter fun i => OccursAt pat xs i).card := by
    rw [occurrences, countBelow, List.countP_eq_length_filter]
    rfl
  have hpos := List.length_pos_iff.2 hne
  have hmem : ∀ p, p ∈ (Finset.range xs.length).filter (fun i => OccursAt pat xs i) ↔
      OccursAt pat xs p := by
    intro p
    rw [Finset.mem_filter, Finset.mem_range, and_iff_right_iff_imp]
    intro hp
    have := hp.le hne
    omega
  rw [hcard, Finset.card_eq_one]
  refine exists_congr fun p => ?_
  rw [Finset.eq_singleton_iff_unique_mem]
  simp only [hmem]

/-! ### What the rounds do to the array -/

/-- After the rounds below `n`: what is ahead is still there, every occurrence so far was counted,
and when nothing else was, only the occurrences are replaced. -/
structure Progress (pat new xs : List α) (n : ℕ) (s : List α × ℕ) : Prop where
  length : s.1.length = xs.length
  ahead : ∀ q, n ≤ q → OccursAt pat xs q → OccursAt pat s.1 q
  le : countBelow pat xs n ≤ s.2
  clean : s.2 = countBelow pat xs n → Replaced pat new xs n s.1

section Step

variable {pat new xs : List α} {n : ℕ} {s : List α × ℕ}

lemma Progress.zero (pat new xs : List α) : Progress pat new xs 0 (xs, 0) :=
  ⟨rfl, fun _ _ h => h, le_rfl, fun _ => ⟨rfl, by simp, by simp⟩⟩

/-- One round keeps the progress. -/
lemma Progress.step (hb : BorderFree pat) (hne : pat ≠ []) (hnew : new.length = pat.length)
    (h : Progress pat new xs n s) : Progress pat new xs (n + 1) (round pat new s n) := by
  have hcount := countBelow_succ pat xs n
  have hle := h.le
  rw [round]
  by_cases hfound : OccursAt pat s.1 n
  · rw [if_pos hfound]
    refine ⟨by rw [length_put, h.length], fun q hq ho => ?_, ?_, fun heq => ?_⟩
    · have hq' := h.ahead q (by omega) ho
      exact hq'.put hne (by rw [hnew]; exact hb.apart hfound hq' hq)
    · split_ifs at hcount <;> simp only <;> omega
    · by_cases ho : OccursAt pat xs n
      · rw [if_pos ho] at hcount
        exact (h.clean (by simp only at heq; omega)).succ_put hb hne hnew ho
      · rw [if_neg ho] at hcount
        simp only at heq
        omega
  · have ho : ¬ OccursAt pat xs n := fun ho => hfound (h.ahead n le_rfl ho)
    rw [if_neg hfound]
    rw [if_neg ho, Nat.add_zero] at hcount
    exact ⟨h.length, fun q hq => h.ahead q (by omega), hcount.trans_le hle, fun heq =>
      (h.clean (heq.trans hcount)).succ_of_not ho⟩

/-- A surplus in the count stays. -/
lemma Progress.exact_of_succ (h : Progress pat new xs n s)
    (heq : (round pat new s n).2 = countBelow pat xs (n + 1)) : s.2 = countBelow pat xs n := by
  have hle := h.le
  rw [round, countBelow_succ] at heq
  by_cases hfound : OccursAt pat s.1 n
  · rw [if_pos hfound] at heq
    simp only at heq
    split_ifs at heq <;> omega
  · rw [if_neg hfound, if_neg fun ho => hfound (h.ahead n le_rfl ho)] at heq
    exact heq

/-- A round is exact when what it finds is an occurrence of the original array. -/
lemma Progress.exact_succ_iff (h : Progress pat new xs n s) (heq : s.2 = countBelow pat xs n) :
    (round pat new s n).2 = countBelow pat xs (n + 1) ↔
      (OccursAt pat s.1 n → OccursAt pat xs n) := by
  rw [round, countBelow_succ]
  by_cases hfound : OccursAt pat s.1 n
  · rw [if_pos hfound]
    split_ifs with ho <;> simp [hfound, ho, heq]
  · have ho : ¬ OccursAt pat xs n := fun ho => hfound (h.ahead n le_rfl ho)
    rw [if_neg hfound, if_neg ho]
    simp [hfound, heq]

end Step

/-! ### The result of the loop -/

section Scan

variable {pat new : List α} (hb : BorderFree pat) (hne : pat ≠ [])
  (hnew : new.length = pat.length) (xs : List α)
include hb hne hnew

lemma progress_rounds (n : ℕ) : Progress pat new xs n (rounds pat new xs n) := by
  induction n with
  | zero => exact Progress.zero pat new xs
  | succ n ih =>
    rw [rounds_succ]
    exact ih.step hb hne hnew

/-- The rounds count the occurrences only, unless one of them forms again. -/
lemma rounds_exact_iff (n : ℕ) : (rounds pat new xs n).2 = countBelow pat xs n ↔
    ∀ p, OccursAt pat xs p → ∀ j, 0 < j → j < pat.length → p + j < n →
      ¬ OccursAt pat (new ++ xs.drop (p + pat.length)) j := by
  induction n with
  | zero => exact iff_of_true rfl fun p _ j _ _ hlt => absurd hlt (by omega)
  | succ n ih =>
    have hprog := progress_rounds hb hne hnew xs n
    constructor
    · intro heq p hp j hj hjw hlt
      rw [rounds_succ] at heq
      have hn := hprog.exact_of_succ heq
      rcases Nat.lt_succ_iff_lt_or_eq.1 hlt with hlt | rfl
      · exact ih.1 hn p hp j hj hjw hlt
      · rw [hprog.exact_succ_iff hn] at heq
        intro hre
        rw [OccursAt, ← (hprog.clean hn).drop_eq hb hne hnew hp (by omega) (by omega),
          List.drop_drop] at hre
        have := hb.apart hp (heq hre) (by omega)
        omega
    · intro hno
      have hn := ih.2 fun p hp j hj hjw hlt => hno p hp j hj hjw (by omega)
      rw [rounds_succ, hprog.exact_succ_iff hn]
      intro hfound
      by_contra ho
      -- the position lies inside a replaced occurrence, or nothing has changed there
      by_cases hcover : ∃ p, OccursAt pat xs p ∧ p < n ∧ n < p + pat.length
      · obtain ⟨p, hp, hpn, hnp⟩ := hcover
        refine hno p hp (n - p) (by omega) (by omega) (by omega) ?_
        rw [OccursAt, ← (hprog.clean hn).drop_eq hb hne hnew hp hpn (by omega), List.drop_drop,
          Nat.add_sub_cancel' hpn.le]
        exact hfound
      · refine ho (occursAt_iff.2 fun k hk => ?_)
        rw [← occursAt_iff.1 hfound k hk, (hprog.clean hn).outside]
        intro p hp hop
        have : ¬ n < p + pat.length := fun hlt => hcover ⟨p, hop, hp, hlt⟩
        omega

end Scan

section Scan

variable {pat new : List α} (hb : BorderFree pat) (hne : pat ≠ [])
  (hnew : new.length = pat.length) (xs : List α)

include hne in
/-- All occurrences are at positions where the pattern fits. -/
lemma occurrences_eq : occurrences pat xs = countBelow pat xs (xs.length + 1 - pat.length) := by
  have hpos := List.length_pos_iff.2 hne
  exact countBelow_of_not (by omega) fun i hi ho => by have := ho.le hne; omega

include hb hne hnew in
/-- The loop counts the occurrences, when no replaced one forms the pattern again. -/
lemma scan_count_iff :
    (scan pat new xs).2 = occurrences pat xs ↔ ¬ Reforms pat new xs := by
  have hpos := List.length_pos_iff.2 hne
  rw [occurrences_eq hne, scan, rounds_exact_iff hb hne hnew]
  constructor
  · rintro hno ⟨p, hp, j, hj, hjw, hre⟩
    refine hno p hp j hj hjw ?_ hre
    have hle := hre.le hne
    have hple := hp.le hne
    rw [List.length_append, List.length_drop] at hle
    omega
  · exact fun hno p hp j hj hjw _ hre => hno ⟨p, hp, j, hj, hjw, hre⟩

include hb hne hnew in
/-- **What the loop replaces.**  It counts and replaces exactly the occurrences of the pattern, when
no replaced one forms the pattern again, and only then. -/
theorem scan_iff : (scan pat new xs).2 = occurrences pat xs ∧
    Replaced pat new xs xs.length (scan pat new xs).1 ↔ ¬ Reforms pat new xs := by
  have hpos := List.length_pos_iff.2 hne
  rw [← scan_count_iff hb hne hnew]
  refine and_iff_left_of_imp fun heq => ?_
  rw [occurrences_eq hne] at heq
  exact ((progress_rounds hb hne hnew xs _).clean heq).mono_of_not (by omega)
    fun i hi ho => by have := ho.le hne; omega

include hb hne hnew in
/-- A count of one: the pattern is there once, and it is replaced. -/
lemma scan_eq_one (h : (scan pat new xs).2 = 1) : (∃! p, OccursAt pat xs p) ∧
    Replaced pat new xs xs.length (scan pat new xs).1 := by
  have hle : occurrences pat xs ≤ 1 := by
    rw [occurrences_eq hne]
    exact (progress_rounds hb hne hnew xs _).le.trans_eq h
  have hone : occurrences pat xs = 1 := by
    by_contra hzero
    have hcount : occurrences pat xs = 0 := by omega
    rw [occurrences, countBelow, List.countP_eq_zero] at hcount
    -- without an occurrence nothing is counted
    have hno : ¬ Reforms pat new xs := by
      rintro ⟨p, hp, -⟩
      have hfit := hp.le hne
      have hpos := List.length_pos_iff.2 hne
      exact hcount p (List.mem_range.2 (by omega)) (by simpa using hp)
    have := (scan_count_iff hb hne hnew xs).2 hno
    omega
  have hno := (scan_count_iff hb hne hnew xs).1 (h.trans hone.symm)
  exact ⟨(occurrences_eq_one_iff hne).1 hone, ((scan_iff hb hne hnew xs).2 hno).2⟩

include hb hne hnew in
/-- When the count is one: the pattern is there once, and it is not formed again. -/
lemma scan_eq_one_iff :
    (scan pat new xs).2 = 1 ↔ (∃! p, OccursAt pat xs p) ∧ ¬ Reforms pat new xs := by
  rw [← occurrences_eq_one_iff hne, ← scan_count_iff hb hne hnew]
  constructor
  · intro h
    have hone := (occurrences_eq_one_iff hne).2 (scan_eq_one hb hne hnew xs h).1
    exact ⟨hone, h.trans hone.symm⟩
  · rintro ⟨hone, hcount⟩
    exact hcount.trans hone

end Scan

end Neorv32Boot.Replace
