import Mathlib.Tactic

/-!
# Programs that may stop

A program works on a world: it returns a value, or it stops for good with a reason, and leaves a
world either way.  A loop is bounded by a number that is read off the world when it starts; where
every round makes that number smaller the bound is of no account, and the loop is what it unrolls
to.  Facts about a program are stated by `wp`: what holds when it returns, and what holds when it
stops.
-/

namespace Neorv32Boot

/-- A program over worlds `ω` that may stop with a reason in `ε`. -/
abbrev Prog (ω ε α : Type) : Type := ExceptT ε (StateM ω) α

namespace Prog

variable {ω ε α β σ : Type}

/-- A program run on a world. -/
def exec (p : Prog ω ε α) (w : ω) : Except ε α × ω := p w

@[simp] lemma exec_pure (a : α) (w : ω) : exec (pure a : Prog ω ε α) w = (.ok a, w) := rfl

@[simp] lemma exec_throw (e : ε) (w : ω) : exec (throw e : Prog ω ε α) w = (.error e, w) := rfl

@[simp] lemma exec_get (w : ω) : exec (get : Prog ω ε ω) w = (.ok w, w) := rfl

@[simp] lemma exec_set (w' w : ω) : exec (set w' : Prog ω ε PUnit) w = (.ok ⟨⟩, w') := rfl

@[simp] lemma exec_modify (f : ω → ω) (w : ω) :
    exec (modify f : Prog ω ε PUnit) w = (.ok ⟨⟩, f w) := rfl

/-- One program after the other. -/
lemma exec_bind (p : Prog ω ε α) (f : α → Prog ω ε β) (w : ω) :
    exec (p >>= f) w = match exec p w with
      | (.ok a, w') => exec (f a) w'
      | (.error e, w') => (.error e, w') := by
  show (ExceptT.bind p f) w = _
  rcases h : exec p w with ⟨_ | a, w'⟩ <;>
  · rw [exec] at h
    simp only [ExceptT.bind, ExceptT.mk, bind, StateT.bind, h]
    rfl

/-- Two programs that do the same on every world are the same. -/
lemma ext {p q : Prog ω ε α} (h : ∀ w, exec p w = exec q w) : p = q := funext h

/-! ### Weakest preconditions -/

/-- From this world the program returns with `Q`, or it stops with `E`. -/
def wp (p : Prog ω ε α) (Q : α → ω → Prop) (E : ε → ω → Prop) (w : ω) : Prop :=
  match exec p w with
  | (.ok a, w') => Q a w'
  | (.error e, w') => E e w'

variable {p : Prog ω ε α} {Q Q' : α → ω → Prop} {E E' : ε → ω → Prop} {w w' : ω}

lemma wp_of_ok {a : α} (h : exec p w = (.ok a, w')) : wp p Q E w ↔ Q a w' := by
  rw [wp, h]

lemma wp_of_error {e : ε} (h : exec p w = (.error e, w')) : wp p Q E w ↔ E e w' := by
  rw [wp, h]

/-- What a run comes to. -/
lemma wp_cases (h : wp p Q E w) :
    (∃ a w', exec p w = (.ok a, w') ∧ Q a w') ∨ ∃ e w', exec p w = (.error e, w') ∧ E e w' := by
  rcases hp : exec p w with ⟨e | a, w'⟩
  · exact Or.inr ⟨e, w', rfl, (wp_of_error hp).1 h⟩
  · exact Or.inl ⟨a, w', rfl, (wp_of_ok hp).1 h⟩

@[simp] lemma wp_pure (a : α) : wp (pure a : Prog ω ε α) Q E = Q a := rfl

@[simp] lemma wp_throw (e : ε) : wp (throw e : Prog ω ε α) Q E = E e := rfl

@[simp] lemma wp_get {Q : ω → ω → Prop} : wp (get : Prog ω ε ω) Q E = fun w => Q w w := rfl

@[simp] lemma wp_set {Q : PUnit → ω → Prop} :
    wp (set w' : Prog ω ε PUnit) Q E = fun _ => Q ⟨⟩ w' := rfl

@[simp] lemma wp_modify {Q : PUnit → ω → Prop} (f : ω → ω) :
    wp (modify f : Prog ω ε PUnit) Q E = fun w => Q ⟨⟩ (f w) := rfl

@[simp] lemma wp_bind {f : α → Prog ω ε β} {Q : β → ω → Prop} :
    wp (p >>= f) Q E = wp p (fun a => wp (f a) Q E) E := by
  funext w
  rw [wp, exec_bind, wp]
  rcases exec p w with ⟨_ | a, w'⟩ <;> rfl

@[simp] lemma wp_map {f : α → β} {Q : β → ω → Prop} :
    wp (f <$> p) Q E = wp p (fun a => Q (f a)) E := by
  rw [← bind_pure_comp, wp_bind]
  rfl

lemma wp_mono (hQ : ∀ a w, Q a w → Q' a w) (hE : ∀ e w, E e w → E' e w) (h : wp p Q E w) :
    wp p Q' E' w := by
  rw [wp] at h ⊢
  split at h
  · exact hQ _ _ h
  · exact hE _ _ h

/-- One program after the other, with what holds between them. -/
lemma wp_seq {R : α → ω → Prop} {f : α → Prog ω ε β} {Q : β → ω → Prop} (hp : wp p R E w)
    (hf : ∀ a w', R a w' → wp (f a) Q E w') : wp (p >>= f) Q E w := by
  rw [wp_bind]
  exact wp_mono hf (fun _ _ h => h) hp

lemma wp_ite {c : Prop} [Decidable c] {q : Prog ω ε α} (hp : c → wp p Q E w)
    (hq : ¬ c → wp q Q E w) : wp (if c then p else q) Q E w := by
  split_ifs with h
  · exact hp h
  · exact hq h

/-- A program whose result and world are known. -/
lemma exec_of_wp {r : Except ε α × ω}
    (h : wp p (fun a w' => r = (.ok a, w')) (fun e w' => r = (.error e, w')) w) :
    exec p w = r := by
  rcases wp_cases h with ⟨a, w', hp, hr⟩ | ⟨e, w', hp, hr⟩
  · rw [hp, hr]
  · rw [hp, hr]

/-- What holds however the program ends holds of the world that is left. -/
lemma exec_of_wp_both {I : ω → Prop} (h : wp p (fun _ => I) (fun _ => I) w) : I (exec p w).2 := by
  rcases wp_cases h with ⟨a, w', hp, hI⟩ | ⟨e, w', hp, hI⟩ <;>
  · rw [hp]
    exact hI

/-! ### Loops -/

/-- `for (i = start; i < start + n; i++)`. -/
def upFrom (body : ℕ → Prog ω ε Unit) : ℕ → ℕ → Prog ω ε Unit
  | _, 0 => pure ()
  | i, n + 1 => do
    body i
    upFrom body (i + 1) n

/-- The loop with an invariant. -/
lemma wp_upFrom {body : ℕ → Prog ω ε Unit} (I : ℕ → ω → Prop) (i n : ℕ) (h : I i w)
    (hbody : ∀ j w, i ≤ j → j < i + n → I j w → wp (body j) (fun _ => I (j + 1)) E w) :
    wp (upFrom body i n) (fun _ => I (i + n)) E w := by
  induction n generalizing i w with
  | zero => exact h
  | succ n ih =>
    rw [upFrom, wp_bind]
    refine wp_mono ?_ (fun _ _ h => h) (hbody i w le_rfl (by omega) h)
    intro _ w' h'
    rw [show i + (n + 1) = i + 1 + n by omega]
    exact ih (i + 1) h' fun j w hj hj' => hbody j w (by omega) (by omega)

/-- A value from each of `n` runs. -/
def times (p : Prog ω ε α) : ℕ → Prog ω ε (List α)
  | 0 => pure []
  | n + 1 => do
    let a ← p
    let as ← times p n
    pure (a :: as)

/-- At most so many rounds of a loop, which goes on with a new state or is left with a value. -/
def rounds (dry : ε) (body : σ → Prog ω ε (σ ⊕ α)) : ℕ → σ → Prog ω ε α
  | 0, _ => throw dry
  | n + 1, x => do
    match ← body x with
    | .inl x' => rounds dry body n x'
    | .inr a => pure a

/-- `while (1)` for a body that uses up the world: more rounds than its size are never made. -/
def loop (size : ω → ℕ) (dry : ε) (body : σ → Prog ω ε (σ ⊕ α)) (x : σ) : Prog ω ε α := do
  rounds dry body (size (← get) + 1) x

section Loop

variable {size : ω → ℕ} {dry : ε} {body : σ → Prog ω ε (σ ⊕ α)}

lemma exec_loop (x : σ) (w : ω) :
    exec (loop size dry body x) w = exec (rounds dry body (size w + 1) x) w := rfl

/-- The loop with an invariant.  A round that goes on has made the world smaller. -/
lemma wp_loop (I : σ → ω → Prop) {x : σ} (h : I x w)
    (hbody : ∀ x w, I x w → wp (body x) (fun r w' => match r with
      | .inl x' => I x' w' ∧ size w' < size w
      | .inr a => Q a w') E w) :
    wp (loop size dry body x) Q E w := by
  have hrounds : ∀ n x w, I x w → size w < n → wp (rounds dry body n x) Q E w := by
    intro n
    induction n with
    | zero => exact fun _ _ _ hn => absurd hn (Nat.not_lt_zero _)
    | succ n ih =>
      intro x w hx hn
      rw [rounds, wp_bind]
      refine wp_mono ?_ (fun _ _ h => h) (hbody x w hx)
      rintro (x' | a) w' hr
      · exact ih x' w' hr.1 (by have := hr.2; omega)
      · exact hr
  rw [loop, wp_bind, wp_get]
  exact hrounds _ x w h (Nat.lt_succ_self _)

/-- The loop with an invariant that covers the end of the rounds. -/
lemma wp_loop_of_dry (I : σ → ω → Prop) (hdry : ∀ x w, I x w → E dry w)
    (hbody : ∀ x w, I x w → wp (body x) (fun r w' => match r with
      | .inl x' => I x' w'
      | .inr a => Q a w') E w) {x : σ} (h : I x w) : wp (loop size dry body x) Q E w := by
  have hrounds : ∀ n x w, I x w → wp (rounds dry body n x) Q E w := by
    intro n
    induction n with
    | zero => exact hdry
    | succ n ih =>
      intro x w hx
      rw [rounds, wp_bind]
      refine wp_mono ?_ (fun _ _ h => h) (hbody x w hx)
      rintro (x' | a) w' hr
      · exact ih x' w' hr
      · exact hr
  rw [loop, wp_bind, wp_get]
  exact hrounds _ x w h

/-- Every round that goes on makes the world smaller. -/
def Uses (size : ω → ℕ) (body : σ → Prog ω ε (σ ⊕ α)) : Prop :=
  ∀ x w x' w', exec (body x) w = (.ok (.inl x'), w') → size w' < size w

lemma exec_rounds_eq (huses : Uses size body) {n m : ℕ} (x : σ) (w : ω) (hn : size w < n)
    (hm : size w < m) : exec (rounds dry body n x) w = exec (rounds dry body m x) w := by
  induction n generalizing m x w with
  | zero => exact absurd hn (Nat.not_lt_zero _)
  | succ n ih =>
    obtain ⟨m, rfl⟩ := Nat.exists_eq_add_of_lt hm
    rw [rounds, rounds, exec_bind, exec_bind]
    rcases hb : exec (body x) w with ⟨e | x' | a, w'⟩
    · rfl
    · have := huses x w x' w' hb
      exact ih x' w' (by omega) (by omega)
    · rfl

/-- The loop is its first round and the loop after it. -/
lemma loop_eq (huses : Uses size body) (x : σ) :
    loop size dry body x = (do
      match ← body x with
      | .inl x' => loop size dry body x'
      | .inr a => pure a) := by
  refine ext fun w => ?_
  rw [exec_loop, rounds, exec_bind, exec_bind]
  rcases hb : exec (body x) w with ⟨e | x' | a, w'⟩
  · rfl
  · exact exec_rounds_eq huses x' w' (huses x w x' w' hb) (Nat.lt_succ_self _)
  · rfl

end Loop

/-! ### Invariants -/

/-- The program keeps an invariant, however it ends. -/
def Keeps (I : ω → Prop) (p : Prog ω ε α) : Prop := ∀ w, I w → wp p (fun _ => I) (fun _ => I) w

section Keeps

variable {I : ω → Prop}

lemma keeps_pure (a : α) : Keeps I (pure a : Prog ω ε α) := fun _ hw => hw

lemma keeps_throw (e : ε) : Keeps I (throw e : Prog ω ε α) := fun _ hw => hw

lemma keeps_get : Keeps I (get : Prog ω ε ω) := fun _ hw => hw

lemma keeps_modify {f : ω → ω} (h : ∀ w, I w → I (f w)) : Keeps I (modify f : Prog ω ε PUnit) :=
  fun w hw => h w hw

lemma keeps_bind {f : α → Prog ω ε β} (hp : Keeps I p) (hf : ∀ a, Keeps I (f a)) :
    Keeps I (p >>= f) := by
  intro w hw
  rw [wp_bind]
  exact wp_mono (fun a w' h => hf a w' h) (fun _ _ h => h) (hp w hw)

lemma keeps_ite {c : Prop} [Decidable c] {q : Prog ω ε α} (hp : c → Keeps I p)
    (hq : ¬ c → Keeps I q) : Keeps I (if c then p else q) := by
  split_ifs with h
  · exact hp h
  · exact hq h

lemma keeps_upFrom {body : ℕ → Prog ω ε Unit} (h : ∀ i, Keeps I (body i)) (i n : ℕ) :
    Keeps I (upFrom body i n) := by
  induction n generalizing i with
  | zero => exact keeps_pure _
  | succ n ih => exact keeps_bind (h i) fun _ => ih (i + 1)

lemma keeps_times (h : Keeps I p) (n : ℕ) : Keeps I (times p n) := by
  induction n with
  | zero => exact keeps_pure _
  | succ n ih => exact keeps_bind h fun _ => keeps_bind ih fun _ => keeps_pure _

lemma keeps_loop {size : ω → ℕ} {dry : ε} {body : σ → Prog ω ε (σ ⊕ α)}
    (h : ∀ x, Keeps I (body x)) (x : σ) : Keeps I (loop size dry body x) := by
  intro w hw
  refine wp_loop_of_dry (fun _ => I) (fun _ _ h => h) (fun x w hw => ?_) hw
  refine wp_mono ?_ (fun _ _ h => h) (h x w hw)
  rintro (x' | a) w' hI <;> exact hI

end Keeps

end Prog

end Neorv32Boot
