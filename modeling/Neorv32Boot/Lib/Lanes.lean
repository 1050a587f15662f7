import Mathlib.Tactic

/-!
# Memories with byte lanes

A memory of words, each made of lanes, and masked writes to it.  A history of writes determines
the memory in two ways: by doing the writes one after the other (`storeAll`), and by asking, for
each lane of each word, which write touched it last (`lastWritten`).  The two agree.
-/

namespace Neorv32Boot.Lanes

variable {α κ β : Type*} [DecidableEq α]

/-- A masked write: the word it addresses, the lanes it selects, and a value for each lane. -/
structure Write (α κ β : Type*) where
  addr : α
  sel : κ → Bool
  data : κ → β

/-- Do one write. -/
def store (m : α → κ → β) (w : Write α κ β) : α → κ → β :=
  fun a k => if w.addr = a ∧ w.sel k then w.data k else m a k

/-- Do a list of writes, in order. -/
def storeAll (m : α → κ → β) (ws : List (Write α κ β)) : α → κ → β :=
  ws.foldl store m

/-- The newest write of the list to lane `k` of word `a` gives its value; without one it is the
value in `m`. -/
def lastWritten (m : α → κ → β) (ws : List (Write α κ β)) (a : α) (k : κ) : β :=
  match ws.reverse.find? (fun w => w.addr = a ∧ w.sel k) with
  | some w => w.data k
  | none => m a k

@[simp] lemma storeAll_nil (m : α → κ → β) : storeAll m [] = m := rfl

@[simp] lemma storeAll_concat (m : α → κ → β) (ws : List (Write α κ β)) (w : Write α κ β) :
    storeAll m (ws ++ [w]) = store (storeAll m ws) w := by
  simp [storeAll]

/-- A write that selects no lane changes nothing. -/
lemma store_of_sel_false {m : α → κ → β} {w : Write α κ β} (h : ∀ k, w.sel k = false) :
    store m w = m := by
  funext a k
  simp [store, h]

/-- A write changes only the lanes that it selects. -/
lemma store_of_not_hit {m : α → κ → β} {w : Write α κ β} {a : α} {k : κ}
    (h : ¬(w.addr = a ∧ w.sel k = true)) : store m w a k = m a k := by
  simp only [store, if_neg h]

lemma storeAll_append (m : α → κ → β) (ws vs : List (Write α κ β)) :
    storeAll m (ws ++ vs) = storeAll (storeAll m ws) vs := by
  simp [storeAll]

/-- Words that no write addresses keep their value. -/
lemma storeAll_of_forall_ne {m : α → κ → β} {ws : List (Write α κ β)} {a : α}
    (h : ∀ w ∈ ws, w.addr ≠ a) : storeAll m ws a = m a := by
  induction ws using List.reverseRecOn with
  | nil => rfl
  | append_singleton ws w ih =>
    have hw : w.addr ≠ a := h w (by simp)
    rw [storeAll_concat]
    funext k
    rw [store_of_not_hit fun hit => hw hit.1, ih fun v hv => h v (by simp [hv])]

/-- A write of a whole word. -/
def Write.whole (a : α) (v : κ → β) : Write α κ β := ⟨a, fun _ => true, v⟩

/-- Of whole words at different addresses, each is stored. -/
lemma storeAll_whole {ι : Type*} (m : α → κ → β) (l : List ι) (addr : ι → α) (val : ι → κ → β)
    (hd : (l.map addr).Nodup) {i : ι} (hi : i ∈ l) :
    storeAll m (l.map fun i => .whole (addr i) (val i)) (addr i) = val i := by
  induction l using List.reverseRecOn with
  | nil => simp at hi
  | append_singleton l j ih =>
    rw [List.map_append, List.nodup_append'] at hd
    rw [List.map_append, List.map_singleton, storeAll_concat]
    rcases List.mem_append.1 hi with hi | hi
    · have hne : addr j ≠ addr i := fun h => hd.2.2 (List.mem_map_of_mem hi) (by simp [h])
      funext k
      rw [store_of_not_hit fun hit => hne hit.1, ih hd.1 hi]
    · rw [List.mem_singleton.1 hi]
      funext k
      simp [store, Write.whole]

/-- **Writing in order is keeping the newest value.** -/
theorem storeAll_apply (m : α → κ → β) (ws : List (Write α κ β)) (a : α) (k : κ) :
    storeAll m ws a k = lastWritten m ws a k := by
  induction ws using List.reverseRecOn with
  | nil => rfl
  | append_singleton ws w ih =>
    rw [storeAll_concat]
    by_cases h : w.addr = a ∧ w.sel k = true
    · simp [lastWritten, store, h]
    · rw [store_of_not_hit h, ih]
      simp only [lastWritten, List.reverse_append, List.reverse_singleton, List.singleton_append,
        List.find?_cons, h, decide_false]

end Neorv32Boot.Lanes
