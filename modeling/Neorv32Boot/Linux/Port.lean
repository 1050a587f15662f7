import Neorv32Boot.Lib.Bytes
import Neorv32Boot.Lib.Trans

/-!
# Opening and closing the UART port

`neorv32_startup` and `neorv32_shutdown` of `board/neorv32_uart.c`.  The kernel creates a thread or
not; the polling thread runs until it is stopped.
-/

namespace Neorv32Boot.Linux

/-! ### Pointers of the kernel -/

/-- A pointer, which may encode an error. -/
abbrev Ptr : Type := BitVec 32

/-- `IS_ERR`: one of the last 4095 addresses. -/
def isErr (p : Ptr) : Bool := -4095 ≤ p

/-- `PTR_ERR`: the pointer as a signed number. -/
def ptrErr (p : Ptr) : ℤ := p.toInt

/-- `NULL` -/
def null : Ptr := 0

lemma ptrErr_null : ptrErr null = 0 := rfl

/-! ### The port -/

/-- `struct neorv32_port` with the CTRL register of its UART, and the polling threads that exist.
`dbg` is what `neo_uart_dbg` has printed. -/
structure Port where
  ctrl : BitVec 32
  portOpen : Bool
  pollThread : Ptr
  threads : List Ptr
  dbg : List Byte

/-- `CTRL_EN` -/
def ctrlEn : BitVec 32 := 1

/-- `neorv32_startup`, where `kthread_run` returns `r`: what it returns, and the port. -/
def Port.startup (p : Port) (r : Ptr) : ℤ × Port :=
  let p := { p with dbg := p.dbg ++ ascii "S", ctrl := p.ctrl ||| ctrlEn, portOpen := true }
  let p := { p with pollThread := r, threads := if isErr r then p.threads else r :: p.threads }
  if isErr p.pollThread then
    let p := { p with pollThread := null, dbg := p.dbg ++ ascii "!" }
    (ptrErr p.pollThread, p)
  else (0, { p with dbg := p.dbg ++ ascii "s" })

/-- `neorv32_shutdown`: the thread that it stops, and the port. -/
def Port.shutdown (p : Port) : Option Ptr × Port :=
  let p := { p with portOpen := false }
  if p.pollThread ≠ null then
    (some p.pollThread,
      { p with pollThread := null, threads := p.threads.erase p.pollThread })
  else (none, p)

/-! ### Histories -/

/-- A call by the serial core. -/
inductive Call
  /-- of `neorv32_startup`, where `kthread_run` returns this -/
  | startup (r : Ptr)
  | shutdown

/-- The port and its calls: whether the last one was a startup, the thread that it created, and
what the last call did. -/
structure Core where
  port : Port
  opened : Bool
  created : Option Ptr
  ret : ℤ
  stopped : Option Ptr

/-- The port before its first call. -/
def Core.start (ctrl : BitVec 32) (dbg : List Byte) : Core where
  port := ⟨ctrl, false, null, [], dbg⟩
  opened := false
  created := none
  ret := 0
  stopped := none

/-- A call, when it is its turn.  A thread that is created is none of those that exist. -/
def Core.step (s : Core) : Call → Option Core
  | .startup r =>
    if s.opened = false ∧ r ≠ null ∧ r ∉ s.port.threads then
      let (ret, port) := s.port.startup r
      some ⟨port, true, if isErr r then none else some r, ret, none⟩
    else none
  | .shutdown =>
    if s.opened then
      let (stopped, port) := s.port.shutdown
      some ⟨port, false, none, 0, stopped⟩
    else none

/-! ### What a call must do -/

/-- What is right after any call. -/
structure Core.Sound (s' : Core) : Prop where
  flag : s'.port.portOpen = true ↔ s'.port.pollThread ≠ null
  one : s'.port.threads.length ≤ 1

/-- A call does what it should. -/
def Core.CallOk (s : Core) : Call → Core → Prop
  | .startup r, s' => s'.Sound ∧
    (s'.ret = 0 ↔ s'.created = some s'.port.pollThread) ∧
    (isErr r → s'.ret = ptrErr r ∧ s'.ret ≠ 0 ∧ s'.port.threads = [])
  | .shutdown, s' => s'.Sound ∧ s'.stopped = s.created ∧ s'.port.threads = []

/-- The call creates a thread, if it has to. -/
def Call.Creates : Call → Prop
  | .startup r => isErr r = false
  | .shutdown => True

/-- Between the calls of a history without failures. -/
structure Core.Healthy (s : Core) : Prop where
  flag : s.port.portOpen = s.opened
  opened : s.opened = true → ∃ r, r ≠ null ∧ s.created = some r ∧ s.port.pollThread = r ∧
    s.port.threads = [r]
  closed : s.opened = false → s.created = none ∧ s.port.pollThread = null ∧ s.port.threads = []

section Step

variable {s s' : Core} {r : Ptr}

/-- A startup that creates its thread. -/
lemma Core.Healthy.startup (hs : s.Healthy) (h : s.step (.startup r) = some s')
    (hr : isErr r = false) : s'.Healthy ∧ s.CallOk (.startup r) s' := by
  simp only [Core.step, hr, Bool.false_eq_true, if_false] at h
  split_ifs at h with hen
  obtain ⟨hop, hnull, -⟩ := hen
  obtain ⟨-, -, hth⟩ := hs.closed hop
  simp only [Port.startup, hr, hth, Bool.false_eq_true, if_false] at h
  obtain rfl := Option.some.inj h
  refine ⟨⟨rfl, fun _ => ⟨r, hnull, rfl, rfl, rfl⟩, fun h => absurd h (by simp)⟩, ⟨?_, ?_⟩, ?_, ?_⟩
  · simp [hnull]
  · simp
  · simp
  · simp [hr]

/-- A startup without a thread reports success. -/
lemma Core.Healthy.startup_fails (h : s.step (.startup r) = some s') (hr : isErr r = true) :
    s'.ret = 0 ∧ s'.port.portOpen = true ∧ s'.port.pollThread = null := by
  simp only [Core.step, hr, if_true] at h
  split_ifs at h
  simp only [Port.startup, hr, if_true] at h
  obtain rfl := Option.some.inj h
  exact ⟨ptrErr_null, rfl, rfl⟩

lemma Core.Healthy.shutdown (hs : s.Healthy) (h : s.step .shutdown = some s') :
    s'.Healthy ∧ s.CallOk .shutdown s' := by
  rw [Core.step] at h
  split_ifs at h with hop
  obtain ⟨r, hnull, hcr, hpt, hth⟩ := hs.opened hop
  simp only [Port.shutdown, hpt, hth, hnull, ne_eq, not_false_eq_true, if_true,
    List.erase_cons_head] at h
  obtain rfl := Option.some.inj h
  refine ⟨⟨rfl, fun h => absurd h (by simp), fun _ => ⟨rfl, rfl, rfl⟩⟩, ⟨?_, ?_⟩, hcr.symm, rfl⟩
  · simp
  · simp

end Step

/-- **When the port is sound.**  Every call of a history does what it should exactly when every
startup gets its thread from the kernel. -/
theorem callOk_iff_creates (ctrl : BitVec 32) (dbg : List Byte) (cs : List Call) :
    Trans.Along Core.step (fun s c s' => s.CallOk c s') (Core.start ctrl dbg) cs ↔
      Trans.Along Core.step (fun _ c _ => c.Creates) (Core.start ctrl dbg) cs := by
  refine Trans.along_iff (I := Core.Healthy) (fun c _ s s' hs hstep => ?_)
    (fun c _ s s' hs hstep hc => ?_)
    ⟨rfl, fun h => absurd h (by simp [Core.start]), fun _ => ⟨rfl, rfl, rfl⟩⟩
  · cases c with
    | startup r =>
      cases hr : isErr r with
      | false => exact iff_of_true (hs.startup hstep hr).2 hr
      | true =>
        refine iff_of_false (fun hok => ?_) (by simp [Call.Creates, hr])
        exact (hok.2.2 hr).2.1 (Core.Healthy.startup_fails hstep hr).1
    | shutdown => exact iff_of_true (hs.shutdown hstep).2 trivial
  · cases c with
    | startup r => exact (hs.startup hstep hc).1
    | shutdown => exact (hs.shutdown hstep).1

/-- `kthread_run` fails with `-ENOMEM`: the startup returns 0, and the port counts as open. -/
theorem failed_startup_succeeds :
    (∃ s, Core.step (Core.start 0 []) (.startup (-12)) = some s ∧ s.ret = 0 ∧
      s.port.portOpen = true ∧ s.port.pollThread = null ∧ s.port.threads = []) ∧
      ¬ Trans.Along Core.step (fun s c s' => s.CallOk c s') (Core.start 0 []) [.startup (-12)] := by
  refine ⟨⟨_, rfl, by decide⟩, fun hall => ?_⟩
  have hok : Core.CallOk _ (.startup (-12)) _ := (hall _ rfl).1
  exact (hok.2.2 rfl).2.1 rfl

end Neorv32Boot.Linux
