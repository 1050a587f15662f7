import Neorv32Boot.Xmodem.Accepted

/-!
# The retry budget of the receiver

`xmodem_receive` on an endless input: how many attempts to receive a block may fail one after the
other, and when the receiver gives up.
-/

namespace Neorv32Boot.Xmodem

/-! ### Runs -/

/-- One result of `uart_getc_timeout`; a receiver that has returned stays as it is. -/
def Rx.turn (s : Rx) (c : Option Byte) : List Byte × Rx := (s.recv c).getD ([], s)

/-- The receiver after `n` results. -/
def Rx.after (s₀ : Rx) (inp : ℕ → Option Byte) : ℕ → Rx
  | 0 => s₀
  | n + 1 => ((s₀.after inp n).turn (inp n)).2

/-- What it sends at result `n`. -/
def Rx.sentAt (s₀ : Rx) (inp : ℕ → Option Byte) (n : ℕ) : List Byte :=
  ((s₀.after inp n).turn (inp n)).1

/-- The attempt that ends with result `n`. -/
def Rx.outcomeAt (s₀ : Rx) (inp : ℕ → Option Byte) (n : ℕ) : Option Outcome :=
  (s₀.after inp n).outcome (inp n)

/-- The unsuccessful attempts since the last accepted block, before result `n`, and how many of them
were cut short. -/
def Rx.attempts (s₀ : Rx) (inp : ℕ → Option Byte) : ℕ → ℕ × ℕ
  | 0 => (0, 0)
  | n + 1 =>
    match s₀.outcomeAt inp n with
    | none => s₀.attempts inp n
    | some .accepted => (0, 0)
    | some .cut => ((s₀.attempts inp n).1 + 1, (s₀.attempts inp n).2 + 1)
    | some .late | some .rejected => ((s₀.attempts inp n).1 + 1, (s₀.attempts inp n).2)

/-- The unsuccessful attempts since the last accepted block. -/
def Rx.failures (s₀ : Rx) (inp : ℕ → Option Byte) (n : ℕ) : ℕ := (s₀.attempts inp n).1

/-- Those of them that were cut short by a timeout. -/
def Rx.cuts (s₀ : Rx) (inp : ℕ → Option Byte) (n : ℕ) : ℕ := (s₀.attempts inp n).2

/-! ### What is wanted, and when -/

/-- In the first `N` results there are never more than `XMODEM_RETRY_MAX + 1` unsuccessful attempts
in a row, and with the last one of so many the receiver sends `CAN CAN` and returns 0. -/
def Rx.Bounded (s₀ : Rx) (inp : ℕ → Option Byte) (N : ℕ) : Prop :=
  ∀ n < N, s₀.failures inp (n + 1) ≤ retryMax + 1 ∧
    (s₀.failures inp n = retryMax → s₀.failures inp (n + 1) = retryMax + 1 →
      [can, can] <+: s₀.sentAt inp n ∧ (s₀.after inp (n + 1)).wait = .ret 0)

/-- The receiver returns on an input that has no acceptable frame from some point on. -/
def Rx.Terminates (s₀ : Rx) (inp : ℕ → Option Byte) : Prop :=
  (∃ N, ∀ n ≥ N, s₀.outcomeAt inp n ≠ some .accepted) →
    ∃ n, (s₀.after inp n).wait.returned = true

/-- After `XMODEM_RETRY_MAX` unsuccessful attempts, of which none was cut short, the next
unsuccessful one is a timeout at the head of the loop. -/
def Rx.InBudget (s₀ : Rx) (inp : ℕ → Option Byte) (N : ℕ) : Prop :=
  ∀ n < N, s₀.failures inp n = retryMax → ∀ o, s₀.outcomeAt inp n = some o → o ≠ .accepted →
    o = .late ∧ s₀.cuts inp n = 0

/-- From some point on the head of the loop gets bytes that it skips, and nothing else. -/
def Rx.NoiseForever (s₀ : Rx) (inp : ℕ → Option Byte) : Prop :=
  ∃ N, ∀ n ≥ N, (s₀.after inp n).wait = .cmd ∧ ∃ b, inp n = some b ∧ b ≠ eot ∧ b ≠ can ∧ b ≠ soh

/-! ### Steps -/

/-- A receiver that has not returned takes what comes. -/
lemma Rx.turn_step {s : Rx} (hw : s.wait.returned = false) (c : Option Byte) :
    s.Step c (s.turn c).1 (s.turn c).2 := by
  obtain ⟨r, hr⟩ := Rx.recv_total (s := s) (fun n hn => by rw [hn] at hw; cases hw) c
  rw [Rx.turn, hr]
  exact Rx.recv_step hr

lemma Rx.turn_returned {s : Rx} (hw : s.wait.returned = true) (c : Option Byte) :
    s.turn c = ([], s) ∧ s.outcome c = none := by
  cases h : s.wait with
  | ret n =>
    refine ⟨by rw [Rx.turn, Rx.recv_returned h, Option.getD_none], ?_⟩
    simp only [Rx.outcome, h]
  | cmd | bn | bnc | data | csum =>
    rw [h] at hw
    cases hw

/-- What the kinds of steps mean for the retry budget. -/
lemma Rx.Step.outcome_cases {s s' : Rx} {c : Option Byte} {out : List Byte} (h : s.Step c out s') :
    (s.outcome c = some .accepted ∧ s'.retries = 0 ∧ s'.wait = .cmd) ∨
    (s.outcome c = some .late ∧ s'.retries = s.retries + 1 ∧
      if retryMax < s.retries + 1 then [can, can] <+: out ∧ s'.wait = .ret 0
      else s'.wait = .cmd) ∨
    (s.outcome c = some .cut ∧ s'.retries = s.retries ∧ s'.wait = .cmd) ∨
    (s.outcome c = some .rejected ∧ s'.retries = s.retries + 1 ∧ s'.wait = .cmd) ∨
    (s.outcome c = none ∧ s'.retries = s.retries) := by
  cases h with
  | accept hw => exact Or.inl ⟨by simp [Rx.outcome, hw], rfl, rfl⟩
  | giveUp hw hr =>
    refine Or.inr (Or.inl ⟨by simp [Rx.outcome, hw], rfl, ?_⟩)
    rw [if_pos hr]
    exact ⟨List.prefix_append .., rfl⟩
  | again hw hr =>
    refine Or.inr (Or.inl ⟨by simp [Rx.outcome, hw], rfl, ?_⟩)
    rw [if_neg (not_lt.2 hr)]
  | cut ho => exact Or.inr (Or.inr (Or.inl ⟨ho, rfl, rfl⟩))
  | reject hw hbad =>
    refine Or.inr (Or.inr (Or.inr (Or.inl ⟨?_, rfl, rfl⟩)))
    simp only [Rx.outcome, hw, if_pos hbad]
  | goOn _ _ _ ho => exact Or.inr (Or.inr (Or.inr (Or.inr ⟨ho, rfl⟩)))
  | eot hw | cancel hw | skip hw | noNumber hw =>
    exact Or.inr (Or.inr (Or.inr (Or.inr ⟨by simp [Rx.outcome, hw], rfl⟩)))

section Run

variable {s₀ : Rx} {inp : ℕ → Option Byte} {n : ℕ}

/-- A receiver that has returned makes no more attempts. -/
lemma Rx.after_returned (hw : (s₀.after inp n).wait.returned = true) :
    s₀.after inp (n + 1) = s₀.after inp n ∧ s₀.failures inp (n + 1) = s₀.failures inp n ∧
      s₀.cuts inp (n + 1) = s₀.cuts inp n ∧ s₀.outcomeAt inp n = none := by
  obtain ⟨hturn, hout⟩ := Rx.turn_returned hw (inp n)
  have ho : s₀.outcomeAt inp n = none := hout
  refine ⟨by rw [Rx.after, hturn], ?_, ?_, ho⟩
  · rw [Rx.failures, Rx.attempts, ho, Rx.failures]
  · rw [Rx.cuts, Rx.attempts, ho, Rx.cuts]

lemma Rx.returned_mono {m : ℕ} (hw : (s₀.after inp n).wait.returned = true) (hnm : n ≤ m) :
    (s₀.after inp m).wait.returned = true := by
  induction m, hnm using Nat.le_induction with
  | base => exact hw
  | succ m _ ih => rwa [(Rx.after_returned ih).1]

/-- The counts after a result, by what it ends. -/
lemma Rx.attempts_succ (s₀ : Rx) (inp : ℕ → Option Byte) (n : ℕ) :
    (s₀.outcomeAt inp n = none → s₀.failures inp (n + 1) = s₀.failures inp n ∧
      s₀.cuts inp (n + 1) = s₀.cuts inp n) ∧
    (s₀.outcomeAt inp n = some .accepted → s₀.failures inp (n + 1) = 0 ∧
      s₀.cuts inp (n + 1) = 0) ∧
    (s₀.outcomeAt inp n = some .cut → s₀.failures inp (n + 1) = s₀.failures inp n + 1 ∧
      s₀.cuts inp (n + 1) = s₀.cuts inp n + 1) ∧
    (s₀.outcomeAt inp n = some .late ∨ s₀.outcomeAt inp n = some .rejected →
      s₀.failures inp (n + 1) = s₀.failures inp n + 1 ∧ s₀.cuts inp (n + 1) = s₀.cuts inp n) := by
  unfold Rx.failures Rx.cuts
  rw [Rx.attempts]
  refine ⟨?_, ?_, ?_, ?_⟩
  · intro h
    rw [h]
    exact ⟨rfl, rfl⟩
  · intro h
    rw [h]
    exact ⟨rfl, rfl⟩
  · intro h
    rw [h]
    exact ⟨rfl, rfl⟩
  · rintro (h | h)
    · rw [h]
      exact ⟨rfl, rfl⟩
    · rw [h]
      exact ⟨rfl, rfl⟩

/-- The retry counter counts the unsuccessful attempts, but for those that were cut short. -/
lemma Rx.retries_add_cuts (h₀ : s₀.retries = 0) (n : ℕ) :
    (s₀.after inp n).retries + s₀.cuts inp n = s₀.failures inp n := by
  induction n with
  | zero => exact h₀
  | succ n ih =>
    obtain ⟨hnone, hacc, hcut, hother⟩ := Rx.attempts_succ s₀ inp n
    cases hw : (s₀.after inp n).wait.returned with
    | true =>
      obtain ⟨h1, h2, h3, -⟩ := Rx.after_returned hw
      rw [h1, h2, h3, ih]
    | false =>
      rw [Rx.after]
      rcases (Rx.turn_step hw (inp n)).outcome_cases with ⟨ho, hr, -⟩ | ⟨ho, hr, -⟩ |
        ⟨ho, hr, -⟩ | ⟨ho, hr, -⟩ | ⟨ho, hr⟩
      · rw [hr, (hacc ho).1, (hacc ho).2]
      · have := hother (Or.inl ho)
        omega
      · have := hcut ho
        omega
      · have := hother (Or.inr ho)
        omega
      · have := hnone ho
        omega

/-- Within the budget, a receiver that has not returned has not used it up. -/
lemma Rx.InBudget.failures_le (h₀ : s₀.retries = 0) {N : ℕ} (h : s₀.InBudget inp N) (hn : n ≤ N) :
    s₀.failures inp n ≤ retryMax + 1 ∧
      ((s₀.after inp n).wait.returned = false → s₀.failures inp n ≤ retryMax) := by
  induction n with
  | zero => exact ⟨Nat.zero_le _, fun _ => Nat.zero_le _⟩
  | succ n ih =>
    obtain ⟨ih1, ih2⟩ := ih (by omega)
    obtain ⟨hnone, hacc, hcut, hother⟩ := Rx.attempts_succ s₀ inp n
    have hsum := @Rx.retries_add_cuts s₀ inp h₀ n
    have hstay := h n (by omega)
    cases hw : (s₀.after inp n).wait.returned with
    | true =>
      obtain ⟨h1, h2, -⟩ := Rx.after_returned hw
      rw [h1, h2, hw]
      exact ⟨ih1, fun hf => by cases hf⟩
    | false =>
      have hle := ih2 hw
      rw [Rx.after]
      rcases (Rx.turn_step hw (inp n)).outcome_cases with ⟨ho, hr, -⟩ | ⟨ho, hr, hgive⟩ |
        ⟨ho, hr, hw'⟩ | ⟨ho, hr, hw'⟩ | ⟨ho, hr⟩
      · rw [(hacc ho).1]
        exact ⟨Nat.zero_le _, fun _ => Nat.zero_le _⟩
      · have hf := (hother (Or.inl ho)).1
        refine ⟨by omega, fun hret => ?_⟩
        by_contra hgt
        have hcuts := (hstay (by omega) _ ho (by decide)).2
        rw [if_pos (by omega)] at hgive
        rw [hgive.2] at hret
        cases hret
      · have hf := (hcut ho).1
        refine ⟨by omega, fun _ => ?_⟩
        by_contra hgt
        have hlate := (hstay (by omega) _ ho (by decide)).1
        cases hlate
      · have hf := (hother (Or.inr ho)).1
        refine ⟨by omega, fun _ => ?_⟩
        by_contra hgt
        have hlate := (hstay (by omega) _ ho (by decide)).1
        cases hlate
      · rw [(hnone ho).1]
        exact ⟨ih1, fun _ => hle⟩

/-- An unsuccessful attempt, with what it does when it is one too many. -/
lemma Rx.failures_succ_cases (h₀ : s₀.retries = 0) (hfail : s₀.failures inp n = retryMax)
    (hsucc : s₀.failures inp (n + 1) = retryMax + 1) :
    ([can, can] <+: s₀.sentAt inp n ∧ (s₀.after inp (n + 1)).wait = .ret 0) ↔
      s₀.outcomeAt inp n = some .late ∧ s₀.cuts inp n = 0 := by
  obtain ⟨hnone, hacc, hcut, hother⟩ := Rx.attempts_succ s₀ inp n
  have hsum := @Rx.retries_add_cuts s₀ inp h₀ n
  cases hw : (s₀.after inp n).wait.returned with
  | true =>
    have := (Rx.after_returned hw).2.1
    omega
  | false =>
    rw [Rx.after, Rx.sentAt]
    rcases (Rx.turn_step hw (inp n)).outcome_cases with ⟨ho, hr, -⟩ | ⟨ho, hr, hgive⟩ |
      ⟨ho, hr, hw'⟩ | ⟨ho, hr, hw'⟩ | ⟨ho, hr⟩
    · have := (hacc ho).1
      omega
    · by_cases hlt : retryMax < (s₀.after inp n).retries + 1
      · rw [if_pos hlt] at hgive
        exact iff_of_true hgive ⟨ho, by omega⟩
      · rw [if_neg hlt] at hgive
        refine iff_of_false (fun hc => ?_) fun hc => by omega
        rw [hgive] at hc
        cases hc.2
    · refine iff_of_false (fun hc => ?_) fun hc => by cases ho.symm.trans hc.1
      rw [hw'] at hc
      cases hc.2
    · refine iff_of_false (fun hc => ?_) fun hc => by cases ho.symm.trans hc.1
      rw [hw'] at hc
      cases hc.2
    · have := (hnone ho).1
      omega

/-- The bound and the condition agree on every number of results. -/
lemma Rx.bounded_iff_inBudget (h₀ : s₀.retries = 0) (N : ℕ) :
    s₀.Bounded inp N ↔ s₀.InBudget inp N := by
  constructor
  · intro hb n hn hfail o ho hne
    have hsucc : s₀.failures inp (n + 1) = retryMax + 1 := by
      obtain ⟨-, -, hcut, hother⟩ := Rx.attempts_succ s₀ inp n
      cases o with
      | accepted => exact absurd rfl hne
      | late => rw [(hother (Or.inl ho)).1, hfail]
      | cut => rw [(hcut ho).1, hfail]
      | rejected => rw [(hother (Or.inr ho)).1, hfail]
    obtain ⟨ho', hcuts⟩ := (Rx.failures_succ_cases h₀ hfail hsucc).1 ((hb n hn).2 hfail hsucc)
    exact ⟨Option.some.inj (ho.symm.trans ho'), hcuts⟩
  · intro hin n hn
    refine ⟨(hin.failures_le h₀ hn).1, fun hfail hsucc => ?_⟩
    refine (Rx.failures_succ_cases h₀ hfail hsucc).2 ?_
    obtain ⟨hnone, hacc, -, -⟩ := Rx.attempts_succ s₀ inp n
    cases ho : s₀.outcomeAt inp n with
    | none =>
      have := (hnone ho).1
      omega
    | some o =>
      have hne : o ≠ .accepted := by
        rintro rfl
        have := (hacc ho).1
        omega
      obtain ⟨rfl, hcuts⟩ := hin n hn hfail o ho hne
      exact ⟨rfl, hcuts⟩

end Run

/-! ### The end of a run -/

/-- A bounded counter that does not fall comes to rest. -/
lemma exists_rest {f : ℕ → ℕ} {N B : ℕ} (hmono : ∀ n ≥ N, f n ≤ f (n + 1)) (hB : ∀ n, f n ≤ B) :
    ∃ M ≥ N, ∀ n ≥ M, f (n + 1) = f n := by
  have hk : ∀ k M, N ≤ M → B - f M ≤ k → ∃ M' ≥ N, ∀ n ≥ M', f (n + 1) = f n := by
    intro k
    induction k with
    | zero =>
      intro M hM hle
      refine ⟨M, hM, fun n hn => ?_⟩
      have hfM : ∀ n ≥ M, f M ≤ f n := fun n hn =>
        Nat.le_induction le_rfl (fun m hm ih => ih.trans (hmono m (hM.trans hm))) n hn
      have h1 := hfM n hn
      have h2 := hfM (n + 1) (by omega)
      have h3 := hB n
      have h4 := hB (n + 1)
      omega
    | succ k ih =>
      intro M hM hle
      by_cases hall : ∀ n ≥ M, f (n + 1) = f n
      · exact ⟨M, hM, hall⟩
      · push Not at hall
        obtain ⟨n, hn, hne⟩ := hall
        have hfn : f M ≤ f n :=
          Nat.le_induction le_rfl (fun m hm ih => ih.trans (hmono m (hM.trans hm))) n hn
        have hlt := hmono n (hM.trans hn)
        exact ih (n + 1) (by omega) (by omega)
  exact hk _ N le_rfl le_rfl

/-- A frame has 131 bytes before its last one. -/
lemma Wait.length_taken_le {w : Wait} (h : w.Counts) : w.taken.length ≤ 131 := by
  cases w with
  | cmd | bn | ret => simp [Wait.taken]
  | bnc x => cases x <;> simp [Wait.taken]
  | data x y buf | csum x y buf =>
    simp only [Wait.Counts] at h
    simp only [Wait.taken, List.length_cons]
    omega

lemma Rx.Step.counts {s s' : Rx} {c : Option Byte} {out : List Byte} (h : s.Step c out s')
    (hs : s.wait.Counts) : s'.wait.Counts := by
  cases h with
  | skip => exact hs
  | goOn _ _ hcount _ => exact hcount hs
  | accept | eot | cancel | giveUp | again | noNumber | cut | reject => trivial

/-- A step that ends no attempt and does not return. -/
lemma Rx.Step.quiet {s s' : Rx} {c : Option Byte} {out : List Byte} (h : s.Step c out s')
    (ho : s.outcome c = none) (hw : s'.wait.returned = false) :
    (s.wait = .cmd ∧ ∃ b, c = some b ∧ b ≠ Xmodem.eot ∧ b ≠ can ∧ b ≠ soh) ∨
    (∃ b, s'.wait.taken = s.wait.taken ++ [b]) ∨ s'.wait = .bnc none := by
  cases h with
  | skip hcmd hb => exact Or.inl ⟨hcmd, _, rfl, hb⟩
  | goOn _ ht _ _ => exact Or.inr (Or.inl ⟨_, ht⟩)
  | noNumber => exact Or.inr (Or.inr rfl)
  | eot | cancel | giveUp => cases hw
  | accept hcsum => simp [Rx.outcome, hcsum] at ho
  | again hcmd => simp [Rx.outcome, hcmd] at ho
  | cut hcut => cases hcut.symm.trans ho
  | reject hcsum hbad =>
    simp only [Rx.outcome, hcsum, if_pos hbad] at ho
    cases ho

section End

variable {s₀ : Rx} {inp : ℕ → Option Byte}

lemma Rx.after_counts (hc : s₀.wait.Counts) (n : ℕ) : (s₀.after inp n).wait.Counts := by
  induction n with
  | zero => exact hc
  | succ n ih =>
    cases hw : (s₀.after inp n).wait.returned with
    | true => rwa [(Rx.after_returned hw).1]
    | false => exact (Rx.turn_step hw (inp n)).counts ih

/-- A receiver that returns at no time and ends no attempt from `N` on is not inside a frame. -/
lemma Rx.head_of_quiet (hc : s₀.wait.Counts) {N : ℕ}
    (hret : ∀ n, (s₀.after inp n).wait.returned = false)
    (hquiet : ∀ n ≥ N, s₀.outcomeAt inp n = none) {n : ℕ} (hn : N ≤ n) :
    (s₀.after inp n).wait = .cmd ∧ ∃ b, inp n = some b ∧ b ≠ eot ∧ b ≠ can ∧ b ≠ soh := by
  have hcut : ∀ n, (s₀.after inp (n + 1)).wait = .bnc none →
      s₀.outcomeAt inp (n + 1) ≠ none := by
    intro n hw
    simp [Rx.outcomeAt, Rx.outcome, hw]
  -- the rest of a frame is never taken
  have hin : ∀ k n, N ≤ n → 131 - (s₀.after inp n).wait.taken.length = k →
      (s₀.after inp n).wait = .cmd ∧ ∃ b, inp n = some b ∧ b ≠ eot ∧ b ≠ can ∧ b ≠ soh := by
    intro k
    induction k with
    | zero =>
      intro n hn hk
      have hstep := (Rx.turn_step (hret n) (inp n)).quiet (hquiet n hn) (hret (n + 1))
      have hle := Wait.length_taken_le (@Rx.after_counts s₀ inp hc (n + 1))
      rcases hstep with hskip | ⟨b, hb⟩ | hbnc
      · exact hskip
      · rw [Rx.after, hb, List.length_append, List.length_singleton] at hle
        omega
      · exact absurd (hquiet (n + 1) (by omega)) (hcut n hbnc)
    | succ k ih =>
      intro n hn hk
      have hstep := (Rx.turn_step (hret n) (inp n)).quiet (hquiet n hn) (hret (n + 1))
      rcases hstep with hskip | ⟨b, hb⟩ | hbnc
      · exact hskip
      · have hlen : (s₀.after inp (n + 1)).wait.taken.length =
            (s₀.after inp n).wait.taken.length + 1 := by
          rw [Rx.after, hb, List.length_append, List.length_singleton]
        have hcmd := (ih (n + 1) (by omega) (by omega)).1
        rw [hcmd] at hlen
        cases hlen
      · exact absurd (hquiet (n + 1) (by omega)) (hcut n hbnc)
  exact hin _ n hn rfl

/-- Within its budget the receiver returns, but for endless noise. -/
lemma Rx.InBudget.terminates (h₀ : s₀.retries = 0) (hc : s₀.wait.Counts)
    (h : ∀ N, s₀.InBudget inp N) (hnoise : ¬ s₀.NoiseForever inp) : s₀.Terminates inp := by
  rintro ⟨N, hno⟩
  by_contra hnever
  have hret : ∀ n, (s₀.after inp n).wait.returned = false := by
    intro n
    rw [← Bool.not_eq_true]
    exact fun hw => hnever ⟨n, hw⟩
  have hmono : ∀ n ≥ N, s₀.failures inp n ≤ s₀.failures inp (n + 1) := by
    intro n hn
    obtain ⟨hnone, -, hcut, hother⟩ := Rx.attempts_succ s₀ inp n
    cases ho : s₀.outcomeAt inp n with
    | none => exact (hnone ho).1.ge
    | some o =>
      cases o with
      | accepted => exact absurd ho (hno n hn)
      | late => rw [(hother (Or.inl ho)).1]; omega
      | cut => rw [(hcut ho).1]; omega
      | rejected => rw [(hother (Or.inr ho)).1]; omega
  obtain ⟨M, hM, hrest⟩ := exists_rest hmono fun n => ((h n).failures_le h₀ le_rfl).1
  refine hnoise ⟨M, fun n hn => Rx.head_of_quiet hc hret (fun m hm => ?_) hn⟩
  have hsame := hrest m hm
  obtain ⟨-, -, hcut, hother⟩ := Rx.attempts_succ s₀ inp m
  cases ho : s₀.outcomeAt inp m with
  | none => rfl
  | some o =>
    cases o with
    | accepted => exact absurd ho (hno m (by omega))
    | late =>
      have := (hother (Or.inl ho)).1
      omega
    | cut =>
      have := (hcut ho).1
      omega
    | rejected =>
      have := (hother (Or.inr ho)).1
      omega

/-- Endless noise keeps the receiver for ever. -/
lemma Rx.NoiseForever.not_terminates (h : s₀.NoiseForever inp) : ¬ s₀.Terminates inp := by
  obtain ⟨N, hN⟩ := h
  intro hterm
  obtain ⟨n, hn⟩ := hterm ⟨N, fun n hn => by
    obtain ⟨hcmd, b, hb, -⟩ := hN n hn
    simp [Rx.outcomeAt, Rx.outcome, hcmd, hb]⟩
  have := Rx.returned_mono hn (le_max_left n N)
  rw [(hN (max n N) (le_max_right n N)).1] at this
  cases this

end End

/-- **When the retries are bounded.**  On every input, and up to every point of it, the number of
unsuccessful attempts in a row is bounded exactly when those before the last one are not cut short
and the last one is a timeout at the head of the loop; and the receiver then returns on every input
without acceptable frames, unless it gets noise for ever. -/
theorem bounded_iff (mem : BitVec 32 → Byte) (inp : ℕ → Option Byte) :
    (∀ N, (Rx.start mem).Bounded inp N ↔ (Rx.start mem).InBudget inp N) ∧
    (((∀ N, (Rx.start mem).Bounded inp N) ∧ (Rx.start mem).Terminates inp) ↔
      (∀ N, (Rx.start mem).InBudget inp N) ∧ ¬ (Rx.start mem).NoiseForever inp) := by
  have hiff := fun N => @Rx.bounded_iff_inBudget (Rx.start mem) inp rfl N
  refine ⟨hiff, ?_⟩
  rw [forall_congr' hiff]
  constructor
  · exact fun ⟨hin, hterm⟩ => ⟨hin, fun hnoise => hnoise.not_terminates hterm⟩
  · exact fun ⟨hin, hno⟩ => ⟨hin, Rx.InBudget.terminates rfl trivial hin hno⟩

/-- A frame that is cut short behind its first byte, over and over again. -/
def cutFrames (n : ℕ) : Option Byte := if n % 3 = 0 then some soh else none

section CutFrames

variable {mem : BitVec 32 → Byte}

/-- One cut frame. -/
lemma cutFrames_wait {k : ℕ} (hw : ((Rx.start mem).after cutFrames (3 * k)).wait = .cmd) :
    ((Rx.start mem).after cutFrames (3 * k + 1)).wait = .bn ∧
      ((Rx.start mem).after cutFrames (3 * k + 2)).wait = .bnc none ∧
      ((Rx.start mem).after cutFrames (3 * k + 3)).wait = .cmd := by
  have h0 : cutFrames (3 * k) = some soh := if_pos (by omega)
  have h1 : cutFrames (3 * k + 1) = none := if_neg (by omega)
  have hbn : ((Rx.start mem).after cutFrames (3 * k + 1)).wait = .bn := by
    simp [Rx.after, Rx.turn, Rx.recv, hw, h0]
  have hbnc : ((Rx.start mem).after cutFrames (3 * k + 2)).wait = .bnc none := by
    rw [Rx.after]
    simp [Rx.turn, Rx.recv, hbn, h1]
  refine ⟨hbn, hbnc, ?_⟩
  rw [Rx.after]
  simp [Rx.turn, Rx.recv, hbnc]

lemma cutFrames_head (k : ℕ) : ((Rx.start mem).after cutFrames (3 * k)).wait = .cmd := by
  induction k with
  | zero => rfl
  | succ k ih => exact (cutFrames_wait ih).2.2

/-- What ends at each result. -/
lemma cutFrames_outcome (k : ℕ) : (Rx.start mem).outcomeAt cutFrames (3 * k) = none ∧
    (Rx.start mem).outcomeAt cutFrames (3 * k + 1) = none ∧
    (Rx.start mem).outcomeAt cutFrames (3 * k + 2) = some .cut := by
  have hw := @cutFrames_head mem k
  obtain ⟨hbn, hbnc, -⟩ := cutFrames_wait hw
  have h0 : cutFrames (3 * k) = some soh := if_pos (by omega)
  exact ⟨by simp [Rx.outcomeAt, Rx.outcome, hw, h0], by simp [Rx.outcomeAt, Rx.outcome, hbn],
    by simp [Rx.outcomeAt, Rx.outcome, hbnc]⟩

lemma cutFrames_failures (k : ℕ) : (Rx.start mem).failures cutFrames (3 * k) = k := by
  induction k with
  | zero => rfl
  | succ k ih =>
    obtain ⟨h0, h1, h2⟩ := @cutFrames_outcome mem k
    have a0 := (Rx.attempts_succ (Rx.start mem) cutFrames (3 * k)).1 h0
    have a1 := (Rx.attempts_succ (Rx.start mem) cutFrames (3 * k + 1)).1 h1
    have a2 := (Rx.attempts_succ (Rx.start mem) cutFrames (3 * k + 2)).2.2.1 h2
    rw [Nat.mul_succ, a2.1, a1.1, a0.1, ih]

end CutFrames

/-- On such an input the attempts are not bounded, and the receiver never returns. -/
theorem cut_frames_forever : (¬ ∀ N, (Rx.start fun _ => 0).Bounded cutFrames N) ∧
    ¬ (Rx.start fun _ => 0).Terminates cutFrames := by
  constructor
  · intro hb
    have hle := (hb (3 * 22) (3 * 22 - 1) (by omega)).1
    have heq : (Rx.start fun _ => 0).failures cutFrames (3 * 22 - 1 + 1) = 22 :=
      cutFrames_failures 22
    rw [heq] at hle
    exact absurd hle (by decide)
  · intro hterm
    have hno : ∀ n ≥ 0, (Rx.start fun _ => 0).outcomeAt cutFrames n ≠ some .accepted := by
      intro n _
      obtain ⟨h0, h1, h2⟩ := @cutFrames_outcome (fun _ => 0) (n / 3)
      obtain hn | hn | hn : n = 3 * (n / 3) ∨ n = 3 * (n / 3) + 1 ∨ n = 3 * (n / 3) + 2 := by omega
      · rw [hn, h0]
        simp
      · rw [hn, h1]
        simp
      · rw [hn, h2]
        simp
    obtain ⟨n, hn⟩ := hterm ⟨0, hno⟩
    have := Rx.returned_mono hn (show n ≤ 3 * n by omega)
    rw [cutFrames_head n] at this
    cases this

end Neorv32Boot.Xmodem
