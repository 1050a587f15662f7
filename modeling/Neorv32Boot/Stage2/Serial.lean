import Neorv32Boot.Sd.Windows
import Neorv32Boot.Stage2.Receiver

/-!
# Booting over the serial line

`mode_linux` and `mode_uboot` on any input.  They jump only behind transfers that have not been
refused, and then the SDRAM holds what these transfers have stored.

The receiver checks no address, and with more than `2 ^ 23` blocks it stores over the data memory of
the CPU.  A transfer is one that does not come that far; behind one that does nothing is said, and
the input of such a one is long.
-/

namespace Neorv32Boot.Stage2

open Prog
open Replace (OccursAt)
open Sd (BlocksOnXbus Boot Numbered OnXbus PatchesOnce Ram Receipt dtbLoadAddr endCell execTest
  initrdLoadAddr kernelLoadAddr seenDtb sentinel testAddr)
open Xmodem (Carries Rx Wait eot nak)

variable {σ : Type} {dest : BitVec 32} {w : World σ} {m : Ram} {r : Receipt}

/-! ### A transfer -/

/-- From this input the receiver returns the size of the receipt, with its stores, and these are all
for the XBUS. -/
structure Takes (dest : BitVec 32) (m : Ram) (used : List (Option Byte)) (r : Receipt) : Prop where
  run : ∃ out s, (rxAt dest m).feed used = some (out, s) ∧ s.wait = .ret r.size ∧
    s.stores = r.stores
  lands : BlocksOnXbus dest r.stores

/-- A receiver that has returned takes nothing more. -/
lemma feed_append_of_ret {s s₁ : Rx} {used more : List (Option Byte)} {out : List Byte}
    {n : BitVec 32} (h : s.feed used = some (out, s₁)) (hret : s₁.wait = .ret n)
    (hmore : more ≠ []) : s.feed (used ++ more) = none := by
  obtain ⟨c, cs, rfl⟩ := List.exists_cons_of_ne_nil hmore
  rw [Rx.feed_append, h, Option.bind_some, Rx.feed, Rx.recv_returned hret]
  rfl

/-- Of two beginnings of an input, a receiver returns from one only, and it does not go on to the
end of the input. -/
lemma feed_unique {s s₁ s₂ : Rx} {used used' rest rest' : List (Option Byte)} {out out' : List Byte}
    {n : BitVec 32} (h : s.feed used = some (out, s₁)) (hret : s₁.wait = .ret n)
    (h' : s.feed used' = some (out', s₂)) (heq : used ++ rest = used' ++ rest')
    (hend : (∃ n', s₂.wait = .ret n') ∨ rest' = []) :
    used = used' ∧ rest = rest' ∧ out = out' ∧ s₁ = s₂ := by
  have hused : used = used' := by
    rcases List.append_eq_append_iff.1 heq with ⟨t, rfl, -⟩ | ⟨t, rfl, ht⟩
    · by_contra hne
      have ht : t ≠ [] := fun ht => hne (by rw [ht, List.append_nil])
      cases (feed_append_of_ret h hret ht).symm.trans h'
    · by_contra hne
      have ht' : t ≠ [] := fun ht => hne (by rw [ht, List.append_nil])
      rcases hend with ⟨n', hret'⟩ | hnil
      · cases (feed_append_of_ret h' hret' ht').symm.trans h
      · rw [hnil] at ht
        exact ht' (List.append_eq_nil_iff.1 ht.symm).1
  subst hused
  obtain ⟨rfl, rfl⟩ := Prod.mk.inj (Option.some.inj (h.symm.trans h'))
  exact ⟨rfl, List.append_cancel_left heq, rfl, rfl⟩

/-- A receiver that has returned has stored what it had stored before. -/
lemma stores_prefix_of_ret {s s₁ s₂ : Rx} {used used' rest rest' : List (Option Byte)}
    {out out' : List Byte} {n : BitVec 32} (h : s.feed used = some (out, s₁))
    (h' : s.feed used' = some (out', s₂)) (hret : s₂.wait = .ret n)
    (heq : used ++ rest = used' ++ rest') : s₁.stores <+: s₂.stores := by
  rcases List.append_eq_append_iff.1 heq with ⟨t, rfl, -⟩ | ⟨t, rfl, -⟩
  · rw [Rx.feed_append, h, Option.bind_some] at h'
    obtain ⟨⟨o, s'⟩, hfeed, heq⟩ := Option.map_eq_some_iff.1 h'
    obtain ⟨-, rfl⟩ := Prod.mk.inj heq
    exact Rx.stores_prefix hfeed
  -- nothing is taken behind the return
  · have ht : t = [] := by
      by_contra ht
      cases (feed_append_of_ret h' hret ht).symm.trans h
    rw [ht, List.append_nil, h'] at h
    obtain ⟨-, rfl⟩ := Prod.mk.inj (Option.some.inj h)
    exact List.prefix_rfl

/-- Of two inputs from which the receiver returns neither goes on behind the other. -/
lemma Takes.unique {used used' rest rest' : List (Option Byte)} {r r' : Receipt}
    (h : Takes dest m used r) (h' : Takes dest m used' r') (heq : used ++ rest = used' ++ rest') :
    used = used' ∧ rest = rest' ∧ r = r' := by
  obtain ⟨out, s, hfeed, hret, hstores⟩ := h.run
  obtain ⟨out', s', hfeed', hret', hstores'⟩ := h'.run
  obtain ⟨hused, hrest, -, rfl⟩ := feed_unique hfeed hret hfeed' heq (Or.inl ⟨_, hret'⟩)
  refine ⟨hused, hrest, ?_⟩
  have hsize := Wait.ret.inj (hret.symm.trans hret')
  obtain ⟨size, stores⟩ := r
  obtain ⟨size', stores'⟩ := r'
  simp only at hsize hstores hstores'
  rw [hsize, ← hstores, ← hstores']

/-- The program does not go on.  Only a long input takes it off the XBUS. -/
inductive Stuck (n : ℕ) : Stop → Prop
  | waiting : Stuck n .waiting
  | halted : Stuck n .halted
  | astray (h : 2 ^ 29 ≤ n) : Stuck n .astray

lemma Stuck.of_le {n n' : ℕ} {e : Stop} (h : Stuck n e) (hle : n ≤ n') : Stuck n' e := by
  cases h with
  | waiting => exact .waiting
  | halted => exact .halted
  | astray h => exact .astray (h.trans hle)

/-- What `xmodem_receive` comes to. -/
lemma wp_xmodemReceive_takes (hdest : Sdram.inSdram dest = true) (w : World σ) :
    wp (xmodemReceive dest) (fun size w' => ∃ used r, w.input = used ++ w'.input ∧
      Takes dest w.ram used r ∧ size = r.size ∧ w'.ram = r.store w.ram dest)
      (fun e _ => Stuck w.size e ∧ ∀ used rest r, w.input = used ++ rest →
        ¬ Takes dest w.ram used r) w := by
  refine wp_mono ?_ ?_ (wp_xmodemReceive dest w)
  · rintro size _ ⟨s, h, hw⟩
    obtain ⟨used, out, hused, hfeed, hw'⟩ := h.came
    refine ⟨used, ⟨size, s.stores⟩, hused, ⟨⟨out, s, hfeed, hw, rfl⟩, h.lands⟩, rfl, ?_⟩
    rw [hw']
    rfl
  · rintro e _ (⟨rfl, hnil, s, h, hgoing⟩ | hstray)
    · refine ⟨.waiting, fun used rest r hin ht => ?_⟩
      obtain ⟨all, out, hall, hfeed, -⟩ := h.came
      obtain ⟨out', s', hfeed', hret', -⟩ := ht.run
      obtain ⟨-, -, -, rfl⟩ := feed_unique hfeed' hret' hfeed (hin.symm.trans hall) (Or.inr hnil)
      rw [hret'] at hgoing
      cases hgoing
    -- what has been stored off the XBUS stays in the receipt
    · have hlong := hstray.long hdest
      obtain ⟨rfl, used', rest', out, s, hin', hfeed, -, hout⟩ := hstray
      refine ⟨.astray hlong, fun used rest r hin ht => hout ?_⟩
      obtain ⟨out', s', hfeed', hret', hstores⟩ := ht.run
      have hpre := stores_prefix_of_ret hfeed hfeed' hret' (hin'.symm.trans hin)
      rw [hstores] at hpre
      exact fun x hx => ht.lands x (hpre.subset hx)

/-- The receipt is what the input carries in frames, up to an `EOT`. -/
structure Framed (used : List (Option Byte)) (r : Receipt) : Prop where
  ends : ∃ pre, used = pre ++ [some eot] ∧ Carries pre (r.stores.map Prod.snd)
  numbered : Numbered r.stores
  size_eq : r.size = BitVec.ofNat 32 (128 * r.stores.length)

lemma Takes.framed {used : List (Option Byte)} (h : Takes dest m used r) (hne : r.size ≠ 0) :
    Framed used r := by
  obtain ⟨out, s, hfeed, hret, hstores⟩ := h.run
  have hrec := Rx.received hfeed
  obtain ⟨-, hsize, pre, -, -, hused, -, -, hcar⟩ := (hrec.ended _ hret).resolve_left hne
  refine ⟨⟨pre, hused, ?_⟩, ?_, ?_⟩
  · rw [← hstores]
    exact hcar
  · rw [← hstores]
    exact numbered_of_feed hfeed
  · rw [hsize, hrec.total_eq, hstores]

/-- A transfer of a file: the receiver returns its size, and the next result of
`uart_getc_timeout` does not refuse its CRC. -/
structure Transfer (dest : BitVec 32) (m : Ram) (used : List (Option Byte)) (r : Receipt) :
    Prop where
  came : ∃ front answer, used = front ++ [answer] ∧ Takes dest m front r ∧ answer ≠ some nak
  size_ne : r.size ≠ 0

/-- What a transfer stores: the bytes of its blocks, as many as its size says. -/
structure Stored (dest : BitVec 32) (r : Receipt) : Prop where
  store_eq : ∀ m : Ram, r.store m dest = m.storeBytes dest r.bytes
  length_bytes : r.bytes.length = r.size.toNat
  onXbus : OnXbus dest r.bytes.length

lemma Transfer.stored {used : List (Option Byte)} (h : Transfer dest m used r)
    (hdest : OnXbus dest 0) : Stored dest r := by
  obtain ⟨front, answer, rfl, ht, -⟩ := h.came
  obtain ⟨-, hnum, hsize⟩ := ht.framed h.size_ne
  have hon := (hnum.onXbus_iff hdest).1 ht.lands
  have hlen : r.bytes.length = 128 * r.stores.length := hnum.length_flatten
  refine ⟨fun m => hnum.foldl_eq m dest, ?_, hlen ▸ hon⟩
  have hle := hon.2
  rw [hlen, hsize, BitVec.toNat_ofNat, Nat.mod_eq_of_lt (by omega)]

/-- The blocks of a transfer come in frames. -/
lemma Transfer.size_le {used : List (Option Byte)} (h : Transfer dest m used r)
    (hdest : OnXbus dest 0) : r.size.toNat ≤ used.length := by
  obtain ⟨front, answer, rfl, ht, -⟩ := h.came
  obtain ⟨⟨pre, rfl, hcar⟩, hnum, -⟩ := ht.framed h.size_ne
  have hlen : r.bytes.length = 128 * r.stores.length := hnum.length_flatten
  have hframes := hcar.length_le
  rw [List.length_map] at hframes
  rw [← (h.stored hdest).length_bytes, hlen, List.length_append, List.length_append]
  omega

/-- One transfer after the other, to these addresses. -/
inductive Transfers : List (BitVec 32) → Ram → List (Option Byte) → List Receipt → Ram →
    List (Option Byte) → Prop
  | nil (m : Ram) (input : List (Option Byte)) : Transfers [] m input [] m input
  | cons {dest : BitVec 32} {dests : List (BitVec 32)} {m m' : Ram} {r : Receipt}
      {rs : List Receipt} {used input rest : List (Option Byte)} (h : Transfer dest m used r)
      (hs : Transfers dests (r.store m dest) input rs m' rest) :
      Transfers (dest :: dests) m (used ++ input) (r :: rs) m' rest

/-- The first transfer of an input is the only one that it can begin with. -/
lemma Transfers.tail {dests : List (BitVec 32)} {m' : Ram} {rs : List Receipt}
    {used input rest : List (Option Byte)} (h : Transfer dest m used r)
    (hs : Transfers (dest :: dests) m (used ++ input) rs m' rest) :
    ∃ rs', rs = r :: rs' ∧ Transfers dests (r.store m dest) input rs' m' rest := by
  obtain ⟨⟨front, answer, rfl, ht, -⟩, -⟩ := h
  generalize hall : front ++ [answer] ++ input = all at hs
  cases hs with
  | cons h' hs' =>
    obtain ⟨⟨front', answer', rfl, ht', -⟩, -⟩ := h'
    rw [List.append_assoc, List.append_assoc] at hall
    obtain ⟨rfl, hrest, rfl⟩ := ht.unique ht' hall
    obtain ⟨-, rfl⟩ := List.cons.inj hrest
    exact ⟨_, rfl, hs'⟩

lemma Transfers.first {dests : List (BitVec 32)} {m' : Ram} {rs : List Receipt}
    {input rest : List (Option Byte)} (hs : Transfers (dest :: dests) m input rs m' rest) :
    ∃ used more r, input = used ++ more ∧ Transfer dest m used r := by
  cases hs with
  | cons h _ => exact ⟨_, _, _, rfl, h⟩

/-- An input has these transfers in one way only. -/
lemma Transfers.unique {dests : List (BitVec 32)} {m' m'' : Ram} {rs rs' : List Receipt}
    {input rest rest' : List (Option Byte)} (h : Transfers dests m input rs m' rest)
    (h' : Transfers dests m input rs' m'' rest') : rs = rs' ∧ m' = m'' ∧ rest = rest' := by
  induction h generalizing rs' with
  | nil =>
    cases h'
    exact ⟨rfl, rfl, rfl⟩
  | cons ht _ ih =>
    obtain ⟨rs'', rfl, hs⟩ := h'.tail ht
    obtain ⟨rfl, hm, hrest⟩ := ih hs
    exact ⟨rfl, hm, hrest⟩

/-- What `xmodem_receive_verified` comes to. -/
lemma wp_xmodemReceiveVerified (hdest : Sdram.inSdram dest = true) (name : String) (w : World σ) :
    wp (xmodemReceiveVerified dest name) (fun size w' =>
      (size ≠ 0 ∧ ∃ used r, w.input = used ++ w'.input ∧ Transfer dest w.ram used r ∧
        size = r.size ∧ w'.ram = r.store w.ram dest) ∨
      (size = 0 ∧ ∀ used rest r, w.input = used ++ rest → ¬ Transfer dest w.ram used r))
      (fun e _ => Stuck w.size e ∧
        ∀ used rest r, w.input = used ++ rest → ¬ Transfer dest w.ram used r) w := by
  rw [xmodemReceiveVerified]
  refine wp_puts_then (wp_puts_then (wp_puts_then ?_))
  rw [wp_bind]
  refine wp_mono ?_ ?_ (wp_xmodemReceive_takes hdest _)
  · rintro size w₁ ⟨front, r, hin, ht, rfl, hram⟩
    have hin₁ : w.input = front ++ w₁.input := hin
    -- the transfer was empty, and what an input begins with is unique
    refine wp_ite (fun h0 => ?_) fun h0 => ?_
    · refine wp_puts_then (wp_puts_then (wp_puts_then (Or.inr ⟨rfl, ?_⟩)))
      rintro used rest r' hin' ⟨⟨front', answer', rfl, ht', -⟩, hne⟩
      rw [hin₁, List.append_assoc] at hin'
      obtain ⟨-, -, rfl⟩ := ht.unique ht' hin'
      exact hne h0
    · rw [crcAt, bind_assoc, wp_bind, wp_get]
      dsimp only
      rw [pure_bind]
      refine wp_puts_then (wp_puts_then (wp_puts_then (wp_emit_then (wp_puts_then (wp_emit_then
        (wp_puts_then ?_))))))
      rw [wp_bind]
      refine wp_getc (fun hnil => ⟨.waiting, ?_⟩) ?_
      -- the input ends before the answer
      · rintro used rest r' hin' ⟨⟨front', answer', rfl, ht', -⟩, -⟩
        rw [hin₁, List.append_assoc] at hin'
        obtain ⟨-, hrest, -⟩ := ht.unique ht' hin'
        rw [show w₁.input = [] from hnil] at hrest
        cases hrest
      · intro answer rest hrest
        have hrest₁ : w₁.input = answer :: rest := hrest
        refine wp_ite (fun hnak => ?_) fun hnak => ?_
        · refine wp_puts_then (wp_puts_then (wp_puts_then (wp_emit_then (wp_puts_then
            (Or.inr ⟨rfl, ?_⟩)))))
          rintro used rest' r' hin' ⟨⟨front', answer', rfl, ht', hans⟩, -⟩
          rw [hin₁, List.append_assoc] at hin'
          obtain ⟨-, hcons, -⟩ := ht.unique ht' hin'
          rw [hrest₁] at hcons
          exact hans ((List.cons.inj hcons).1.symm.trans hnak)
        · refine Or.inl ⟨h0, front ++ [answer], r, ?_, ⟨⟨front, answer, rfl, ht, hnak⟩, h0⟩,
            rfl, hram⟩
          rw [hin₁, hrest₁, List.append_assoc]
          rfl
  · rintro e w₁ ⟨hstuck, hnone⟩
    refine ⟨hstuck, ?_⟩
    rintro used rest r hin ⟨⟨front, answer, rfl, ht, -⟩, -⟩
    exact hnone front ([answer] ++ rest) r (by rw [← List.append_assoc]; exact hin) ht

/-! ### `mode_linux` -/

/-- The routine that prints a letter is in the SDRAM. -/
def RoutineFits (kernelSize : BitVec 32) : Prop :=
  ∀ q < 4, Sdram.inSdram (testAddr kernelSize + BitVec.ofNat 32 (4 * q)) = true

lemma testAddr_align (kernelSize : BitVec 32) : (testAddr kernelSize).toNat % 4 = 0 := by
  have h : testAddr kernelSize &&& 3 = 0 := by
    rw [testAddr, BitVec.and_assoc]
    exact BitVec.and_zero
  have h3 := congrArg BitVec.toNat h
  rw [BitVec.toNat_and] at h3
  exact (Nat.and_two_pow_sub_one_eq_mod _ 2).symm.trans h3

/-- A byte of an aligned word. -/
lemma inSdram_word {a : BitVec 32} (ha : a.toNat % 4 = 0) {q j : ℕ} (hj : j < 4) :
    Sdram.inSdram (a + BitVec.ofNat 32 (4 * q + j)) =
      Sdram.inSdram (a + BitVec.ofNat 32 (4 * q)) := by
  rw [Bool.eq_iff_iff, Sdram.inSdram_iff, Sdram.inSdram_iff, BitVec.toNat_add, BitVec.toNat_add,
    BitVec.toNat_ofNat, BitVec.toNat_ofNat]
  omega

/-- Bytes that are stored in the SDRAM. -/
lemma loadBytes_storeBytes (m : Ram) {a : BitVec 32} {bs : List Byte} (hlt : bs.length ≤ 2 ^ 32)
    (hin : ∀ i < bs.length, Sdram.inSdram (a + BitVec.ofNat 32 i) = true) :
    loadBytes (m.storeBytes a bs) a bs.length = bs := by
  refine List.ext_getElem (by rw [loadBytes, List.length_map, List.length_range]) fun i _ hi => ?_
  simp only [loadBytes, List.getElem_map, List.getElem_range]
  exact Sd.Ram.load_storeBytes m a bs hi hlt (hin i hi)

/-- The routine is called where it is in the SDRAM. -/
lemma loadBytes_execTest_iff (m : Ram) (kernelSize : BitVec 32) :
    loadBytes (m.storeBytes (testAddr kernelSize) execTest) (testAddr kernelSize)
      execTest.length = execTest ↔ RoutineFits kernelSize := by
  constructor
  · intro h q hq
    -- the first byte of each word is not zero
    have hword : ∀ q < 4, execTest[4 * q]? ≠ some 0 := by decide
    by_contra hout
    refine hword q hq ?_
    have hlt : 4 * q < execTest.length := by
      have : execTest.length = 16 := rfl
      omega
    conv_lhs => rw [← h]
    rw [loadBytes, List.getElem?_map, List.getElem?_range hlt, Option.map_some, Sd.Ram.load,
      if_neg hout]
  · intro h
    refine loadBytes_storeBytes m (by decide) fun i hi => ?_
    have hlen : execTest.length = 16 := rfl
    have hsplit := Nat.div_add_mod i 4
    rw [← hsplit, inSdram_word (testAddr_align kernelSize) (Nat.mod_lt _ (by decide))]
    exact h _ (by omega)

/-- The input has these three transfers, and they boot: the sentinel is once in what is then at the
address of the DTB, and the routine behind the kernel is in the SDRAM.  In the end the SDRAM holds
what the transfers have stored, with the end of the initramfs in the cell and with the routine. -/
structure Loads (w : World σ) (k d i : Receipt) (m : Ram) (rest : List (Option Byte)) : Prop where
  once : PatchesOnce (seenDtb d.bytes i.bytes) i.size
  fits : RoutineFits k.size
  ends : ∃ m₀ p, Transfers [kernelLoadAddr, dtbLoadAddr, initrdLoadAddr] w.ram w.input [k, d, i]
      m₀ rest ∧
    OccursAt sentinel (seenDtb d.bytes i.bytes) p ∧
    m = (m₀.storeBytes (dtbLoadAddr + BitVec.ofNat 32 p)
      (endCell (initrdLoadAddr + i.size))).storeBytes (testAddr k.size) execTest

/-- The input has these three transfers. -/
lemma Loads.transfers {w : World σ} {k d i : Receipt} {m : Ram} {rest : List (Option Byte)}
    (h : Loads w k d i m rest) : ∃ m₀,
    Transfers [kernelLoadAddr, dtbLoadAddr, initrdLoadAddr] w.ram w.input [k, d, i] m₀ rest := by
  obtain ⟨m₀, p, hs, -⟩ := h.ends
  exact ⟨m₀, hs⟩

lemma Loads.unique {w : World σ} {k d i k' d' i' : Receipt} {m m' : Ram}
    {rest rest' : List (Option Byte)} (h : Loads w k d i m rest) (h' : Loads w k' d' i' m' rest') :
    m = m' ∧ rest = rest' := by
  obtain ⟨m₀, p, hs, hp, rfl⟩ := h.ends
  obtain ⟨m₀', p', hs', hp', rfl⟩ := h'.ends
  obtain ⟨heq, rfl, hrest⟩ := hs.unique hs'
  obtain ⟨rfl, rfl, rfl⟩ : k = k' ∧ d = d' ∧ i = i' := by simpa using heq
  obtain rfl := h.once.1.unique hp hp'
  exact ⟨rfl, hrest⟩

/-- Not a jump to the kernel. -/
def NoKernel (e : Stop) : Prop := e ≠ .jumped kernelLoadAddr [0, dtbLoadAddr]

section Linux

variable {E : Stop → World σ → Prop}

/-- The call of the routine. -/
lemma wp_callTest {Q : Unit → World σ → Prop} {a : BitVec 32}
    (hin : loadBytes w.ram a execTest.length = execTest → Q () (w.say (ascii "K")))
    (hout : loadBytes w.ram a execTest.length ≠ execTest → E (.jumped a []) w) :
    wp (callTest a) Q E w := by
  rw [callTest, wp_bind, wp_get]
  exact wp_ite (fun h => hin h) fun h => hout h

lemma wp_putsHex_then {α : Type} {f : Unit → Loader σ α} {Q : α → World σ → Prop} {head : String}
    {v : BitVec 32} {tail : String} (h : ∀ out, wp (f ()) Q E (w.say out)) :
    wp (putsHex head v tail >>= f) Q E w := by
  have hout := h (ascii head ++ puthex32 v ++ ascii tail)
  rw [World.say, ← List.append_assoc, ← List.append_assoc] at hout
  exact hout

lemma wp_dumpWords_then {α : Type} {f : Unit → Loader σ α} {Q : α → World σ → Prop}
    {addr : BitVec 32} {n : ℕ} (h : ∀ out, wp (f ()) Q E (w.say out)) :
    wp (dumpWords addr n >>= f) Q E w := by
  refine wp_seq (wp_dumpWords addr n) ?_
  rintro _ _ ⟨out, rfl⟩
  exact h out

/-- A jump to the kernel. -/
lemma wp_jumpToKernel {Q : Unit → World σ → Prop} :
    wp jumpToKernel Q E w ↔ E (.jumped kernelLoadAddr [0, dtbLoadAddr]) w := Iff.rfl

lemma wp_storeBytes_then {α : Type} {f : Unit → Loader σ α} {Q : α → World σ → Prop}
    {a : BitVec 32} {bs : List Byte}
    (h : OnXbus a bs.length → wp (f ()) Q E { w with ram := w.ram.storeBytes a bs })
    (hout : ¬ OnXbus a bs.length → E .astray w) : wp (storeBytes a bs >>= f) Q E w := by
  rw [wp_bind]
  exact wp_storeBytes h hout

/-- A routine in the SDRAM is on the XBUS. -/
lemma RoutineFits.onXbus {k : BitVec 32} (h : RoutineFits k) :
    OnXbus (testAddr k) execTest.length := by
  have h0 := h 0 (by decide)
  have hexec : execTest.length = 16 := rfl
  rw [Nat.mul_zero, BitVec.add_zero, Sdram.inSdram_iff] at h0
  exact ⟨h0.1, by omega⟩

seal Prog.wp

/-- `mode_linux` behind the patch. -/
lemma wp_launch (k d i : BitVec 32) :
    wp (launch k d i) (fun _ _ => False) (fun e w' =>
      (RoutineFits k ∧ e = .jumped kernelLoadAddr [0, dtbLoadAddr] ∧
        w'.ram = w.ram.storeBytes (testAddr k) execTest ∧ w'.input = w.input) ∨
      (¬ RoutineFits k ∧ NoKernel e ∧
        (e = .astray → ¬ OnXbus (testAddr k) execTest.length))) w := by
  rw [launch]
  refine wp_puts_then (wp_putsHex_then fun _ => wp_putsHex_then fun _ => wp_putsHex_then fun _ =>
    wp_puts_then (wp_dumpWords_then fun _ => wp_puts_then (wp_dumpWords_then fun _ =>
    wp_puts_then (wp_puts_then (wp_putsHex_then fun _ => wp_putsHex_then fun _ =>
    wp_putsHex_then fun _ => wp_storeBytes_then (fun _ => ?_) fun hout => ?_)))))
  · rw [wp_bind]
    refine wp_callTest (fun hin => ?_) fun hout => ?_
    · refine wp_puts_then (wp_emit_then (wp_puts_then (wp_jumpToKernel.2
        (Or.inl ⟨?_, rfl, ?_, ?_⟩))))
      · exact (loadBytes_execTest_iff _ _).1 hin
      · simp only [World.say]
      · simp only [World.say]
    · refine Or.inr ⟨fun h => hout ((loadBytes_execTest_iff _ _).2 h), fun h => ?_, nofun⟩
      exact absurd (Stop.jumped.inj h).2 (List.cons_ne_nil _ _).symm
  · exact Or.inr ⟨fun h => hout h.onXbus, nofun, fun _ => hout⟩

/-- How `mode_linux` ends: with a jump to the kernel behind three transfers that boot, or without
such transfers. -/
structure LinuxEnds (w : World σ) (e : Stop) (w' : World σ) : Prop where
  jump : e = .jumped kernelLoadAddr [0, dtbLoadAddr] → ∃ k d i, Loads w k d i w'.ram w'.input
  none : NoKernel e → ∀ k d i m rest, ¬ Loads w k d i m rest
  halts : NoKernel e → ∀ k d i m rest,
    Transfers [kernelLoadAddr, dtbLoadAddr, initrdLoadAddr] w.ram w.input [k, d, i] m rest →
    RoutineFits k.size → e = .halted
  astray : e = .astray → 2 ^ 29 ≤ w.input.length

lemma linuxEnds_of_stuck {e : Stop} {w' : World σ} (he : Stuck w.size e)
    (h : ∀ k d i m rest, ¬ Transfers [kernelLoadAddr, dtbLoadAddr, initrdLoadAddr] w.ram w.input
      [k, d, i] m rest) : LinuxEnds w e w' := by
  have hnone : ∀ k d i m rest, ¬ Loads w k d i m rest := fun k d i m rest hloads => by
    obtain ⟨_, hs⟩ := hloads.transfers
    exact h _ _ _ _ _ hs
  have hhalts : ∀ k d i m rest, Transfers [kernelLoadAddr, dtbLoadAddr, initrdLoadAddr] w.ram
      w.input [k, d, i] m rest → RoutineFits k.size → e = .halted :=
    fun _ _ _ _ _ hs => absurd hs (h _ _ _ _ _)
  cases he with
  | waiting | halted => exact ⟨nofun, fun _ => hnone, fun _ => hhalts, nofun⟩
  | astray hlong => exact ⟨nofun, fun _ => hnone, fun _ => hhalts, fun _ => hlong⟩

lemma linuxEnds_of_halted {w' : World σ} (h : ∀ k d i m rest, ¬ Loads w k d i m rest) :
    LinuxEnds w .halted w' :=
  ⟨nofun, fun _ => h, fun _ _ _ _ _ _ _ _ => rfl, nofun⟩

lemma linuxEnds_of_jump {w' : World σ} {k d i : Receipt} (h : Loads w k d i w'.ram w'.input) :
    LinuxEnds w (.jumped kernelLoadAddr [0, dtbLoadAddr]) w' :=
  ⟨fun _ => ⟨k, d, i, h⟩, fun hno => absurd rfl hno, fun hno => absurd rfl hno, nofun⟩

/-- `xmodem_receive_verified` in front of the rest of `mode_linux`. -/
lemma wp_verified_then {f : BitVec 32 → Loader σ Unit} {name : String}
    (hdest : Sdram.inSdram dest = true)
    (hnone : (∀ used rest r, w.input = used ++ rest → ¬ Transfer dest w.ram used r) →
      ∀ e w', Stuck w.size e → E e w')
    (hsome : ∀ used r w', w.input = used ++ w'.input → Transfer dest w.ram used r →
      w'.ram = r.store w.ram dest → wp (f r.size) (fun _ _ => False) E w') :
    wp (xmodemReceiveVerified dest name >>= fun size => if size = 0 then halt else f size)
      (fun _ _ => False) E w := by
  rw [wp_bind]
  refine wp_mono ?_ ?_ (wp_xmodemReceiveVerified hdest name w)
  · rintro size w' (⟨h0, used, r, hin, ht, rfl, hram⟩ | ⟨h0, h⟩)
    · rw [if_neg h0]
      exact hsome used r w' hin ht hram
    · rw [if_pos h0, halt, wp_throw]
      exact hnone h _ _ .halted
  · rintro e w' ⟨hstuck, h⟩
    exact hnone h e w' hstuck

/-- An address from which transfers go up. -/
lemma onXbus_of_inSdram (h : Sdram.inSdram dest = true) : OnXbus dest 0 := by
  rw [Sdram.inSdram_iff] at h
  exact ⟨h.1, by omega⟩

/-- What the patch makes of three transfers. -/
lemma Transfers.patch {k d i : Receipt} {m m₀ : Ram} {input rest : List (Option Byte)}
    (h : Transfers [kernelLoadAddr, dtbLoadAddr, initrdLoadAddr] m input [k, d, i] m₀ rest) :
    ((Sd.patchDtbInitrdEnd m₀ dtbLoadAddr d.size.toNat i.size).2 = 1 ↔
      PatchesOnce (seenDtb d.bytes i.bytes) i.size) ∧
    (PatchesOnce (seenDtb d.bytes i.bytes) i.size →
      ∀ p, OccursAt sentinel (seenDtb d.bytes i.bytes) p →
        (Sd.patchDtbInitrdEnd m₀ dtbLoadAddr d.size.toNat i.size).1 =
          m₀.storeBytes (dtbLoadAddr + BitVec.ofNat 32 p) (endCell (initrdLoadAddr + i.size))) := by
  obtain ⟨⟩ | ⟨hk, ⟨⟩ | ⟨hd, ⟨⟩ | ⟨hi, ⟨⟩⟩⟩⟩ := h
  obtain ⟨hdeq, hdlen, hdon⟩ := hd.stored (onXbus_of_inSdram (by decide))
  obtain ⟨hieq, -, hion⟩ := hi.stored (onXbus_of_inSdram (by decide))
  rw [hieq, hdeq, ← hdlen]
  exact ⟨Sd.patch_eq_one_iff_patchesOnce _ hdon hion _,
    fun honce p hp => Sd.patch_eq_storeBytes _ hdon hion honce hp⟩

/-- A routine that is not for the XBUS is behind a kernel that has taken a long input. -/
lemma Transfer.long {used : List (Option Byte)} {k : Receipt}
    (h : Transfer kernelLoadAddr m used k)
    (hout : ¬ OnXbus (testAddr k.size) execTest.length) : 2 ^ 29 ≤ used.length := by
  have hdest : OnXbus kernelLoadAddr 0 := onXbus_of_inSdram (by decide)
  obtain ⟨-, hlen, -, hon⟩ := h.stored hdest
  have hsize := h.size_le hdest
  have k1 := Sd.kernelLoadAddr_toNat
  have hexec : execTest.length = 16 := rfl
  have hge := Sd.testAddr_ge (show k.size.toNat ≤ 0x40000000 by omega)
  have hle := Sd.testAddr_le (show k.size.toNat ≤ 0x40000000 by omega)
  rw [BitVec.ofNat_toNat, BitVec.setWidth_eq] at hge hle
  rw [OnXbus] at hout
  omega

/-- `mode_linux` on any input. -/
lemma wp_modeLinux (w : World σ) :
    wp modeLinux (fun _ _ => False) (fun e w' => LinuxEnds w e w') w := by
  rw [modeLinux]
  refine wp_puts_then (wp_puts_then (wp_putsHex_then fun _ => wp_putsHex_then fun _ =>
    wp_putsHex_then fun _ => ?_))
  refine wp_verified_then (by decide) (fun h e w' hs => linuxEnds_of_stuck hs ?_)
    fun uk k w₁ hin₁ hk hram₁ => ?_
  · rintro k d i m rest hs
    obtain ⟨_, _, _, hin, ht⟩ := hs.first
    exact h _ _ _ hin ht
  have hin : w.input = uk ++ w₁.input := hin₁
  replace hk : Transfer kernelLoadAddr w.ram uk k := hk
  replace hram₁ : w₁.ram = k.store w.ram kernelLoadAddr := hram₁
  have hle₁ : w₁.size ≤ w.size := by
    rw [World.size, World.size, hin, List.length_append]
    exact Nat.le_add_left _ _
  refine wp_verified_then (by decide)
    (fun h e w' hs => linuxEnds_of_stuck (hs.of_le hle₁) ?_) fun ud d w₂ hin₂ hd hram₂ => ?_
  · rintro k' d i m rest hs
    rw [hin] at hs
    obtain ⟨_, -, hs⟩ := hs.tail hk
    obtain ⟨_, _, _, hin', ht⟩ := hs.first
    exact h _ _ _ hin' (by rw [hram₁]; exact ht)
  have hle₂ : w₂.size ≤ w₁.size := by
    rw [World.size, World.size, hin₂, List.length_append]
    exact Nat.le_add_left _ _
  rw [hram₁] at hd hram₂
  rw [hin₂] at hin
  refine wp_verified_then (by decide)
    (fun h e w' hs => linuxEnds_of_stuck (hs.of_le (hle₂.trans hle₁)) ?_)
    fun ui i w₃ hin₃ hi hram₃ => ?_
  · rintro k' d' i m rest hs
    rw [hin] at hs
    obtain ⟨_, -, hs⟩ := hs.tail hk
    obtain ⟨_, -, hs⟩ := hs.tail hd
    obtain ⟨_, _, _, hin', ht⟩ := hs.first
    exact h _ _ _ hin' (by rw [hram₂]; exact ht)
  rw [hram₂] at hi hram₃
  rw [hin₃] at hin
  have htrans : Transfers [kernelLoadAddr, dtbLoadAddr, initrdLoadAddr] w.ram w.input [k, d, i]
      w₃.ram w₃.input := by
    rw [hin, hram₃]
    exact .cons hk (.cons hd (.cons hi (.nil _ _)))
  -- there are no other transfers
  have honly : ∀ k' d' i' m rest, Transfers [kernelLoadAddr, dtbLoadAddr, initrdLoadAddr] w.ram
      w.input [k', d', i'] m rest → k' = k ∧ d' = d ∧ i' = i := by
    rintro k' d' i' m rest hs
    obtain ⟨heq, -, -⟩ := hs.unique htrans
    simpa using heq
  obtain ⟨hone, hcell⟩ := htrans.patch
  -- the sentinel decides between the halt and the launch
  refine wp_seq (wp_patchDtb _ _ _) ?_
  rintro n w₄ ⟨hn, hram₄, hin₄⟩
  refine wp_ite (fun hne => ?_) fun heq => ?_
  · refine wp_puts_then (wp_emit_then (wp_halts _ (linuxEnds_of_halted ?_)))
    intro k' d' i' m rest h
    obtain ⟨_, hs⟩ := h.transfers
    obtain ⟨rfl, rfl, rfl⟩ := honly _ _ _ _ _ hs
    exact hne (hn.trans (hone.2 h.once))
  · have honce := hone.1 (hn.symm.trans (not_not.1 heq))
    obtain ⟨p, hp⟩ := honce.1.exists
    refine wp_mono (fun _ _ h => h) ?_ (wp_launch k.size d.size i.size)
    rintro e w₅ (⟨hfits, rfl, hram₅, hin₅⟩ | ⟨hfits, he, hstray⟩)
    · refine linuxEnds_of_jump ⟨honce, hfits, w₃.ram, p, ?_, hp, ?_⟩
      · rw [hin₅, hin₄]
        exact htrans
      · rw [hram₅, hram₄, hcell honce p hp]
    · refine ⟨fun h => absurd h he, fun _ k' d' i' m rest h => hfits ?_,
        fun _ k' d' i' m rest hs h => absurd ?_ hfits, fun h => ?_⟩
      · obtain ⟨_, hs⟩ := h.transfers
        obtain ⟨rfl, -, -⟩ := honly _ _ _ _ _ hs
        exact h.fits
      · obtain ⟨rfl, -, -⟩ := honly _ _ _ _ _ hs
        exact h
      · have hlong := hk.long (hstray h)
        rw [hin, List.length_append]
        omega

/-- **Booting over the serial line.** `mode_linux` jumps to the kernel exactly when its input has
three transfers one after the other, of the kernel, the DTB and the initramfs, none of them empty,
none of them refused and all their blocks for the XBUS; when the sentinel is once in the bytes that
are then at the address of the DTB, and the end of the initramfs forms no other one; and when the
test routine behind the kernel is in the SDRAM.  Then the SDRAM is what the three transfers have
stored, with the end of the initramfs in the cell of the sentinel and with the routine, and nothing
behind the third answer is taken.  What a transfer stores has come in frames with the right numbers,
in order, up to an `EOT`.  Only an input of `2 ^ 29` results or more can make it store past the
XBUS. -/
theorem modeLinux_jumps_iff (w : World σ) (m : Ram) (rest : List (Option Byte)) :
    ((∃ w', exec modeLinux w = (.error (.jumped kernelLoadAddr [0, dtbLoadAddr]), w') ∧
      w'.ram = m ∧ w'.input = rest) ↔ ∃ k d i, Loads w k d i m rest) ∧
    (∀ dest m' used r, Transfer dest m' used r → ∃ front answer, used = front ++ [answer] ∧
      Framed front r) ∧
    ∀ w', exec modeLinux w = (.error .astray, w') → 2 ^ 29 ≤ w.input.length := by
  rcases wp_cases (wp_modeLinux w) with ⟨_, _, -, hfalse⟩ | ⟨e, w', hexec, hends⟩
  · exact hfalse.elim
  refine ⟨⟨?_, ?_⟩, ?_, fun w'' hexec' => ?_⟩
  · rintro ⟨w'', hexec', rfl, rfl⟩
    obtain ⟨he, rfl⟩ := Prod.mk.inj (hexec.symm.trans hexec')
    exact hends.jump (Except.error.inj he)
  · rintro ⟨k, d, i, h⟩
    by_cases he : NoKernel e
    · exact absurd h (hends.none he k d i m rest)
    · have hjump := not_not.1 he
      obtain ⟨k', d', i', h'⟩ := hends.jump hjump
      rw [hjump] at hexec
      obtain ⟨rfl, rfl⟩ := h'.unique h
      exact ⟨w', hexec, rfl, rfl⟩
  · rintro dest m' used r ⟨⟨front, answer, rfl, ht, -⟩, hne⟩
    exact ⟨front, answer, rfl, ht.framed hne⟩
  · exact hends.astray (Except.error.inj (Prod.mk.inj (hexec.symm.trans hexec')).1)

end Linux

/-! ### `mode_uboot` -/

/-- The input lets U-Boot in: a transfer that is not refused, or a refused one and a second one that
is accepted. -/
inductive Enters (w : World σ) : Ram → List (Option Byte) → Prop
  | once {used rest : List (Option Byte)} {r : Receipt} (hin : w.input = used ++ rest)
      (h : Transfer ubootLoadAddr w.ram used r) : Enters w (r.store w.ram ubootLoadAddr) rest
  | again {front front' rest : List (Option Byte)} {r r' : Receipt}
      (hin : w.input = front ++ some nak :: (front' ++ some Xmodem.ack :: rest))
      (h : Takes ubootLoadAddr w.ram front r) (hne : r.size ≠ 0)
      (h' : Takes ubootLoadAddr (r.store w.ram ubootLoadAddr) front' r') (hne' : r'.size ≠ 0) :
      Enters w (r'.store (r.store w.ram ubootLoadAddr) ubootLoadAddr) rest

/-- A first transfer that is not refused is not one that is. -/
lemma Takes.not_refused {used front rest rest' : List (Option Byte)} {r' : Receipt}
    (ht : Takes dest m front r) (h : Transfer dest m used r')
    (heq : front ++ some nak :: rest = used ++ rest') : False := by
  obtain ⟨⟨front', answer', rfl, ht', hans⟩, -⟩ := h
  rw [List.append_assoc] at heq
  obtain ⟨-, hcons, -⟩ := ht.unique ht' heq
  exact hans (List.cons.inj hcons).1.symm

/-- An input lets U-Boot in in one way only. -/
lemma Enters.unique {m m' : Ram} {rest rest' : List (Option Byte)} (h : Enters w m rest)
    (h' : Enters w m' rest') : m = m' ∧ rest = rest' := by
  rcases h with ⟨hin, ht⟩ | ⟨hin, ht, -, hu, -⟩ <;>
    rcases h' with ⟨hin', ht'⟩ | ⟨hin', ht', -, hu', -⟩
  · obtain ⟨⟨front, answer, rfl, ht, -⟩, -⟩ := ht
    obtain ⟨⟨front', answer', rfl, ht', -⟩, -⟩ := ht'
    rw [hin, List.append_assoc, List.append_assoc] at hin'
    obtain ⟨-, hcons, rfl⟩ := ht.unique ht' hin'
    exact ⟨rfl, (List.cons.inj hcons).2⟩
  · exact (ht'.not_refused ht (hin'.symm.trans hin)).elim
  · exact (ht.not_refused ht' (hin.symm.trans hin')).elim
  · rw [hin] at hin'
    obtain ⟨-, hcons, rfl⟩ := ht.unique ht' hin'
    obtain ⟨-, hcons', rfl⟩ := hu.unique hu' (List.cons.inj hcons).2
    exact ⟨rfl, (List.cons.inj hcons').2⟩

section Uboot

variable {E : Stop → World σ → Prop}

lemma wp_reportSize_then {α : Type} {f : Unit → Loader σ α} {Q : α → World σ → Prop}
    {head : String} {size crc : BitVec 32} (h : ∀ out, wp (f ()) Q E (w.say out)) :
    wp (reportSize head size crc >>= f) Q E w := by
  have hout := h (ascii head ++ puthex32 size ++ ascii " CRC:" ++ puthex32 crc ++ ascii "\r\n")
  rw [World.say, ← List.append_assoc, ← List.append_assoc, ← List.append_assoc,
    ← List.append_assoc] at hout
  exact hout

/-- `crc32` only reads. -/
lemma wp_crcAt_then {α : Type} {f : BitVec 32 → Loader σ α} {Q : α → World σ → Prop}
    {dest size : BitVec 32} (h : ∀ crc, wp (f crc) Q E w) : wp (crcAt dest size >>= f) Q E w :=
  h _

seal Prog.wp

/-- A transfer and the answer behind it. -/
lemma wp_receive_then {f : Option Byte → Loader σ Unit} {failed report : String}
    {Q : Unit → World σ → Prop}
    (hnone : (∀ front answer rest r, w.input = front ++ answer :: rest →
      Takes ubootLoadAddr w.ram front r → r.size = 0) → ∀ e w', Stuck w.size e → E e w')
    (hsome : ∀ front answer r w', w.input = front ++ answer :: w'.input →
      Takes ubootLoadAddr w.ram front r → r.size ≠ 0 →
      w'.ram = r.store w.ram ubootLoadAddr → wp (f answer) Q E w') :
    wp (do
      let size ← xmodemReceive ubootLoadAddr
      if size = 0 then
        puts failed
        halt
      else
        let crc ← crcAt ubootLoadAddr size
        reportSize report size crc
        let resp ← getc
        f resp) Q E w := by
  rw [wp_bind]
  refine wp_mono ?_ ?_ (wp_xmodemReceive_takes (by decide) w)
  · rintro size w₁ ⟨front, r, hin, ht, rfl, hram⟩
    refine wp_ite (fun h0 => wp_halts _ (hnone ?_ _ _ .halted)) fun h0 => ?_
    · rintro front' answer rest r' hin' ht'
      rw [hin] at hin'
      obtain ⟨-, -, rfl⟩ := ht.unique ht' hin'
      exact h0
    · refine wp_crcAt_then fun crc => wp_reportSize_then fun out => ?_
      rw [wp_bind]
      refine wp_getc (fun hnil => hnone ?_ _ _ .waiting) fun answer rest hrest => ?_
      · rintro front' answer rest r' hin' ht'
        rw [hin] at hin'
        obtain ⟨-, hnil', -⟩ := ht.unique ht' hin'
        rw [World.say] at hnil
        rw [show w₁.input = [] from hnil] at hnil'
        cases hnil'
      · have hrest₁ : w₁.input = answer :: rest := hrest
        rw [hrest₁] at hin
        exact hsome front answer r _ hin ht h0 hram
  · rintro e w₁ ⟨hstuck, h⟩
    exact hnone (fun front answer rest r hin ht => absurd ht (h _ _ _ hin)) e w₁ hstuck

/-- The second transfer. -/
lemma wp_retryUboot {Q : Unit → World σ → Prop}
    (hnone : (∀ front rest r, w.input = front ++ some Xmodem.ack :: rest →
      Takes ubootLoadAddr w.ram front r → r.size = 0) → ∀ e w', Stuck w.size e → E e w')
    (hsome : ∀ front r w', w.input = front ++ some Xmodem.ack :: w'.input →
      Takes ubootLoadAddr w.ram front r → r.size ≠ 0 →
      w'.ram = r.store w.ram ubootLoadAddr → Q () w') : wp retryUboot Q E w := by
  rw [retryUboot]
  refine wp_puts_then (wp_emit_then (wp_puts_then (wp_receive_then
    (fun h e w' hs => hnone ?_ e w' hs) ?_)))
  · rintro front rest r hin ht
    exact h _ _ _ _ hin ht
  · rintro front answer r w' hin ht hne hram
    refine wp_ite (fun hack => ?_) fun hack => ?_
    · refine wp_puts_then (wp_emit_then (wp_halts _ (hnone ?_ _ _ .halted)))
      rintro front' rest r' hin' ht'
      obtain ⟨-, hcons, -⟩ := ht.unique ht' (hin.symm.trans hin')
      exact absurd (List.cons.inj hcons).1 hack
    · rw [not_not.1 hack] at hin
      rw [wp_pure]
      exact hsome front r w' hin ht hne hram

/-- How `mode_uboot` ends. -/
def UbootEnds (w : World σ) (e : Stop) (w' : World σ) : Prop :=
  (e = .jumped ubootLoadAddr [] ∧ Enters w w'.ram w'.input) ∨
    (Stuck w.size e ∧ ∀ m rest, ¬ Enters w m rest)

/-- `mode_uboot` on any input. -/
lemma wp_modeUboot (w : World σ) :
    wp modeUboot (fun _ _ => False) (fun e w' => UbootEnds w e w') w := by
  rw [modeUboot]
  refine wp_puts_then (wp_puts_then (wp_receive_then (fun h e w' hs => Or.inr ⟨hs, ?_⟩) ?_))
  · rintro _ rest (⟨hin, ⟨front, answer, rfl, ht, -⟩, hne⟩ | ⟨hin, ht, hne, -, -⟩)
    · exact hne (h front answer rest _ (by rw [List.append_cons]; exact hin) ht)
    · exact hne (h _ _ _ _ hin ht)
  · rintro front answer r w₁ hin ht hne hram
    replace hin : w.input = front ++ answer :: w₁.input := hin
    replace ht : Takes ubootLoadAddr w.ram front r := ht
    replace hram : w₁.ram = r.store w.ram ubootLoadAddr := hram
    have hle : w₁.size ≤ w.size := by
      rw [World.size, World.size, hin, List.length_append, List.length_cons]
      omega
    -- the dump and the jump
    have hjump : ∀ w' : World σ, Enters w w'.ram w'.input →
        wp (do
          dumpWords ubootLoadAddr 16
          puts "[stage2] jumping to SDRAM 0x40000000...\r\n"
          throw (.jumped ubootLoadAddr []) : Loader σ Unit) (fun _ _ => False)
          (fun e w' => UbootEnds w e w') w' := by
      intro w' h
      refine wp_dumpWords_then fun out => wp_puts_then ?_
      rw [wp_throw]
      exact Or.inl ⟨rfl, h⟩
    rw [wp_bind, settleCrc]
    refine wp_ite (fun hnak => ?_) fun hnak => ?_
    · rw [hnak] at hin
      refine wp_retryUboot (fun h e w' hs => Or.inr ⟨hs.of_le hle, ?_⟩)
        fun front' r' w₂ hin₂ ht' hne' hram₂ => hjump w₂ ?_
      · rintro _ rest (⟨hin', ht'⟩ | ⟨hin', ht', -, ht'', hne''⟩)
        · exact ht.not_refused ht' (hin.symm.trans hin')
        · rw [hin] at hin'
          obtain ⟨-, hcons, rfl⟩ := ht.unique ht' hin'
          rw [← hram] at ht''
          exact hne'' (h _ _ _ (List.cons.inj hcons).2 ht'')
      · rw [hram] at ht' hram₂
        rw [hram₂]
        rw [hin₂] at hin
        exact .again hin ht hne ht' hne'
    · have henters : Enters w w₁.ram w₁.input := by
        rw [hram]
        have hwhole : w.input = (front ++ [answer]) ++ w₁.input := by
          rw [hin, List.append_assoc]
          rfl
        exact .once hwhole ⟨⟨front, answer, rfl, ht, hnak⟩, hne⟩
      refine wp_ite (fun _ => ?_) fun _ => ?_
      · rw [wp_puts]
        exact hjump _ henters
      · rw [wp_pure]
        exact hjump _ henters

/-- **U-Boot over the serial line.** `mode_uboot` goes to U-Boot exactly when its input begins with
a transfer that is not empty and whose CRC is not refused, or with a refused one and, right behind
it, a second one that is accepted.  Then the SDRAM is what these transfers have stored, one over the
other, and nothing more of the input is taken.  Else it halts, or it waits, or a block has gone past
the XBUS, which takes an input of `2 ^ 29` results at least. -/
theorem modeUboot_jumps_iff (w : World σ) (m : Ram) (rest : List (Option Byte)) :
    ((∃ w', exec modeUboot w = (.error (.jumped ubootLoadAddr []), w') ∧ w'.ram = m ∧
      w'.input = rest) ↔ Enters w m rest) ∧
    ((∀ m rest, ¬ Enters w m rest) →
      ∃ e w', exec modeUboot w = (.error e, w') ∧ Stuck w.size e) := by
  rcases wp_cases (wp_modeUboot w) with ⟨_, _, -, hfalse⟩ | ⟨e, w', hexec, hends⟩
  · exact hfalse.elim
  refine ⟨⟨?_, fun h => ?_⟩, fun hnone => ?_⟩
  · rintro ⟨w'', hexec', rfl, rfl⟩
    obtain ⟨he, rfl⟩ := Prod.mk.inj (hexec.symm.trans hexec')
    rcases hends with ⟨-, h⟩ | ⟨hstuck, -⟩
    · exact h
    · rw [Except.error.inj he] at hstuck
      cases hstuck
  · rcases hends with ⟨rfl, h'⟩ | ⟨-, hnone⟩
    · obtain ⟨rfl, rfl⟩ := h'.unique h
      exact ⟨w', hexec, rfl, rfl⟩
    · exact absurd h (hnone m rest)
  · rcases hends with ⟨-, h⟩ | ⟨hstuck, -⟩
    · exact absurd h (hnone _ _)
    · exact ⟨e, w', hexec, hstuck⟩

end Uboot

end Neorv32Boot.Stage2
