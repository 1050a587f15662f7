import Neorv32Boot.Spi.Card
import Neorv32Boot.Spi.Driver

/-!
# The driver and the card, command by command

What `sd_cmd` and the exchanges after it do on a card that is ready for a frame: the bytes on the
bus are gone, and what is left is the command and its answer.
-/

namespace Neorv32Boot.Spi

namespace SdCard

variable {c : SdCard} {k : Core} {next : Phase}

/-! ### Bytes of the card -/

/-- A selected card sends what it has to say. -/
lemma tells (c : SdCard) (k : Core) (next : Phase) :
    Bus.Tells c.bus 0xFF fun out => ⟨true, next.say out, k⟩ :=
  fun _ _ => rfl

/-- A released card that is ready stays so. -/
lemma sends_released (bs : List Byte) :
    c.bus.sends bs ⟨false, .ready [], k⟩ = ⟨false, .ready [], k⟩ := by
  induction bs with
  | nil => rfl
  | cons b bs ih => exact ih

/-- The card is in the middle of an answer, or at its end. -/
def Talks (k : Core) (s : State) : Prop := ∃ out, s = ⟨true, (Phase.ready []).say out, k⟩

lemma Talks.xchg (c : SdCard) {s : State} (h : Talks k s) : Talks k (c.bus.xchg 0xFF s).2 := by
  obtain ⟨_ | ⟨b, out⟩, rfl⟩ := h
  · exact ⟨[], rfl⟩
  · exact ⟨out, rfl⟩

lemma drop_say (out : List Byte) : (next.say out).drop = next.drop := by
  cases out with
  | nil => rfl
  | cons b out =>
    rw [Phase.say, Phase.drop]

/-- A card that is released during its answer is ready. -/
lemma Talks.release (c : SdCard) {s : State} (h : Talks k s) :
    c.bus.select false s = ⟨false, .ready [], k⟩ := by
  obtain ⟨out, rfl⟩ := h
  show (⟨false, ((Phase.ready []).say out).drop, k⟩ : State) = _
  rw [drop_say]
  rfl

/-! ### Frames -/

lemma start_byte (cmd : Byte) (h : cmd < 64) :
    (0x40 ||| cmd) &&& 0xC0 = 0x40 ∧ (0x40 ||| cmd) &&& 0x3F = cmd := by
  revert cmd
  decide

/-- The argument comes in as it went out. -/
lemma frameArg_cmdFrame (cmd : Byte) (arg : BitVec 32) (crc : Byte) :
    frameArg ((cmdFrame cmd arg crc).drop 1) = arg := by
  refine BitVec.eq_of_toNat_eq ?_
  have := arg.isLt
  simp only [frameArg, cmdFrame, List.drop_succ_cons, List.drop_zero, List.take_succ_cons,
    List.take_zero, List.reverse_cons, List.reverse_nil, List.nil_append, List.cons_append,
    Bytes.ofLE, BitVec.toNat_ofNat, BitVec.extractLsb'_toNat, Nat.shiftRight_eq_div_pow]
  omega

/-- A card that is ready takes the frame of a command. -/
lemma sends_cmdFrame (c : SdCard) (k : Core) {cmd : Byte} (hcmd : cmd < 64) (arg : BitVec 32)
    (crc : Byte) : c.bus.sends (cmdFrame cmd arg crc) ⟨true, .ready [], k⟩ =
      ⟨true, (c.command cmd arg k).2.2.1.say (List.replicate (c.answer cmd k).delay.val 0xFF ++
        (c.command cmd arg k).1 :: (c.command cmd arg k).2.1), (c.command cmd arg k).2.2.2⟩ := by
  obtain ⟨hstart, hcode⟩ := start_byte cmd hcmd
  have harg := frameArg_cmdFrame cmd arg crc
  have hfirst : c.bus.sends (cmdFrame cmd arg crc) ⟨true, .ready [], k⟩ =
      c.bus.sends ((cmdFrame cmd arg crc).drop 2) ⟨true, .ready [0x40 ||| cmd], k⟩ := by
    show c.bus.sends _ (c.bus.xchg (0x40 ||| cmd) ⟨true, .ready [], k⟩).2 = _
    have hx : (c.bus.xchg (0x40 ||| cmd) ⟨true, .ready [], k⟩).2 =
        ⟨true, .ready (if (0x40 ||| cmd) &&& 0xC0 = 0x40 then [0x40 ||| cmd] else []), k⟩ := rfl
    rw [hx, if_pos hstart]
    rfl
  have hrest : c.bus.sends ((cmdFrame cmd arg crc).drop 2) ⟨true, .ready [0x40 ||| cmd], k⟩ =
      c.takeFrame ((cmdFrame cmd arg crc).drop 1)
        ⟨true, .ready ((cmdFrame cmd arg crc).drop 1 |>.take 5), k⟩ := rfl
  have hhead : ((cmdFrame cmd arg crc).drop 1).getD 0 0 &&& 0x3F = cmd := hcode
  rw [hfirst, hrest, takeFrame]
  simp only [hhead, harg]

/-! ### Answers -/

lemma command_of_obey {cmd : Byte} {arg : BitVec 32} {tail : List Byte} {k' : Core}
    (h : c.obey (c.answer cmd k) cmd arg (count cmd k) = some (tail, next, k')) :
    c.command cmd arg k = (if k'.idle then 0x01 else 0x00, tail, next, k') := by
  rw [command, h]

/-- A command is obeyed or answered with an error. -/
lemma command_cases (c : SdCard) (cmd : Byte) (arg : BitVec 32) (k : Core) :
    (∃ tail next k', c.obey (c.answer cmd k) cmd arg (count cmd k) = some (tail, next, k') ∧
      c.command cmd arg k = (if k'.idle then 0x01 else 0x00, tail, next, k')) ∨
    (c.obey (c.answer cmd k) cmd arg (count cmd k) = none ∧
      c.command cmd arg k = ((c.answer cmd k).error.byte, [], .ready [],
        { count cmd k with app := false })) := by
  cases h : c.obey (c.answer cmd k) cmd arg (count cmd k) with
  | none => exact Or.inr ⟨rfl, by rw [command, h]⟩
  | some r =>
    obtain ⟨tail, next, k'⟩ := r
    exact Or.inl ⟨tail, next, k', rfl, command_of_obey h⟩

lemma isR1_command (cmd : Byte) (arg : BitVec 32) : isR1 (c.command cmd arg k).1 = true := by
  rcases command_cases c cmd arg k with ⟨tail, next, k', -, h⟩ | ⟨-, h⟩
  · rw [h]
    dsimp only
    split_ifs <;> rfl
  · rw [h, isR1, (c.answer cmd k).error.isR1]
    rfl

/-- The command was obeyed, when its `R1` has no error bit. -/
lemma obeyed {cmd : Byte} {arg : BitVec 32} (h : (c.command cmd arg k).1 &&& 0x7E = 0) :
    ∃ tail next k', c.obey (c.answer cmd k) cmd arg (count cmd k) = some (tail, next, k') ∧
      c.command cmd arg k = (if k'.idle then 0x01 else 0x00, tail, next, k') := by
  refine (command_cases c cmd arg k).resolve_right ?_
  rintro ⟨-, hr⟩
  rw [hr] at h
  exact (c.answer cmd k).error.isError h

/-- What `sd_cmd` does. -/
lemma sdCmd_eq (c : SdCard) (k : Core) {cmd : Byte} (hcmd : cmd < 64) (arg : BitVec 32)
    (crc : Byte) : sdCmd c.bus cmd arg crc ⟨true, .ready [], k⟩ = ((c.command cmd arg k).1,
      ⟨true, (c.command cmd arg k).2.2.1.say (c.command cmd arg k).2.1,
        (c.command cmd arg k).2.2.2⟩) := by
  rw [sdCmd, sends_cmdFrame c k hcmd]
  refine (tells c (c.command cmd arg k).2.2.2 (c.command cmd arg k).2.2.1).poll ?_
    (isR1_command cmd arg) ?_ _ _
  · intro x hx
    rw [List.eq_of_mem_replicate hx]
    rfl
  · rw [List.length_replicate]
    have := (c.answer cmd k).delay.isLt
    omega

/-- But for a write, the card is ready after its answer. -/
lemma next_ready {cmd : Byte} (hcmd : cmd ≠ 24) (arg : BitVec 32) :
    (c.command cmd arg k).2.2.1 = .ready [] := by
  rcases command_cases c cmd arg k with ⟨tail, next, k', ho, h⟩ | ⟨-, h⟩
  · rw [h]
    have h24 : cmd.toNat ≠ 24 := fun he => hcmd (BitVec.eq_of_toNat_eq he)
    dsimp only
    rw [obey] at ho
    split_ifs at ho
    rw [perform] at ho
    split at ho <;> (try split_ifs at ho) <;> (try split at ho) <;> cases ho <;>
      first | rfl | exact absurd ‹_› h24
  · rw [h]

/-- What `sd_init` does for a command. -/
lemma transact_eq (c : SdCard) (k : Core) {cmd : Byte} (hcmd : cmd < 64) (hne : cmd ≠ 24)
    (arg : BitVec 32) (crc : Byte) (n : ℕ) :
    ∃ bytes, transact c.bus cmd arg crc n ⟨false, .ready [], k⟩ =
      (((c.command cmd arg k).1, bytes), ⟨false, .ready [], (c.command cmd arg k).2.2.2⟩) ∧
      ((c.command cmd arg k).2.1.length = n → bytes = (c.command cmd arg k).2.1) := by
  have hsel : c.bus.select true ⟨false, .ready [], k⟩ = ⟨true, .ready [], k⟩ := rfl
  have htalks : Talks (c.command cmd arg k).2.2.2 ⟨true,
      (Phase.ready []).say (c.command cmd arg k).2.1, (c.command cmd arg k).2.2.2⟩ := ⟨_, rfl⟩
  simp only [transact, hsel, sdCmd_eq c k hcmd, next_ready hne]
  refine ⟨_, Prod.ext rfl ?_, ?_⟩
  · exact Talks.release c (Talks.xchg c (Bus.recvs_kept (fun _ => Talks.xchg c) n htalks))
  · rintro rfl
    have hrecvs := (tells c (c.command cmd arg k).2.2.2 (.ready [])).recvs
      (c.command cmd arg k).2.1 []
    rw [List.append_nil] at hrecvs
    exact congrArg Prod.fst hrecvs

end SdCard

end Neorv32Boot.Spi
