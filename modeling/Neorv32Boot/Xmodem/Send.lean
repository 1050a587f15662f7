import Neorv32Boot.Xmodem.Receive

/-!
# The XMODEM sender

`xmodem_send` of `host/boot_linux.py`, as a machine that puts a packet on the line, or takes one
byte of a reply, or sees its timer run out.
-/

namespace Neorv32Boot.Xmodem

/-- The payload padded with `0x1A` to whole blocks. -/
def pad (data : List Byte) : List Byte :=
  data ++ List.replicate ((blockSize - data.length % blockSize) % blockSize) 0x1A

/-! In what follows `data` is the padded payload. -/

def numBlocks (data : List Byte) : ℕ := data.length / blockSize

/-- `data[offset:offset + XMODEM_BLOCK_SIZE]` for the block of this index. -/
def block (data : List Byte) (blkIdx : ℕ) : List Byte :=
  (data.drop (blockSize * blkIdx)).take blockSize

/-- `(blk_idx + 1) & 0xFF` -/
def blkNum (blkIdx : ℕ) : Byte := BitVec.ofNat 8 (blkIdx + 1)

/-- `sum(block) & 0xFF` -/
def sumBlock (block : List Byte) : Byte := BitVec.ofNat 8 (block.map BitVec.toNat).sum

/-- The packet of a block. -/
def packet (data : List Byte) (blkIdx : ℕ) : List Byte :=
  [soh, blkNum blkIdx, ~~~blkNum blkIdx] ++ block data blkIdx ++ [sumBlock (block data blkIdx)]

/-- Where the sender is. -/
inductive Tx
  /-- about to write the packet of a block -/
  | write (blkIdx retries : ℕ)
  /-- in the loop that reads the reply to it -/
  | reply (blkIdx retries : ℕ)
  | writeEot
  /-- in the loop that reads the reply to `EOT` -/
  | eotReply
  /-- it has returned `True` -/
  | complete
  /-- it has returned `False`, without an `ACK` for `EOT` -/
  | noAck
  /-- it has returned `False`, after all retries of a block -/
  | failed (blkIdx : ℕ)
  deriving DecidableEq

/-- The head of the loop over the blocks. -/
def Tx.block (data : List Byte) (blkIdx : ℕ) : Tx :=
  if blkIdx < numBlocks data then .write blkIdx 0 else .writeEot

/-- One more retry of a block. -/
def Tx.retry (blkIdx retries : ℕ) : Tx :=
  if retries + 1 < 10 then .write blkIdx (retries + 1) else .failed blkIdx

/-- What the sender writes, and where it is then. -/
def Tx.send (data : List Byte) : Tx → Option (List Byte × Tx)
  | .write blkIdx retries => some (packet data blkIdx, .reply blkIdx retries)
  | .writeEot => some ([eot], .eotReply)
  | _ => none

/-- A byte that the sender reads. -/
def Tx.read (data : List Byte) (c : Byte) : Tx → Option Tx
  | .reply blkIdx retries =>
    if c = ack then some (.block data (blkIdx + 1))
    else if c = nak then some (.retry blkIdx retries)
    else some (.reply blkIdx retries)
  | .eotReply => if c = ack then some .complete else some .eotReply
  | _ => none

/-- The time for the reply is over. -/
def Tx.timeout : Tx → Option Tx
  | .reply blkIdx retries => some (.retry blkIdx retries)
  | .eotReply => some .noAck
  | _ => none

/-- The sender has transmitted its `EOT`. -/
def Tx.eotSent : Tx → Bool
  | .eotReply | .complete | .noAck => true
  | _ => false

/-- The sender has returned. -/
def Tx.ended : Tx → Bool
  | .complete | .noAck | .failed _ => true
  | _ => false

/-- The sender waits for a reply. -/
def Tx.waits : Tx → Bool
  | .reply .. | .eotReply => true
  | _ => false

/-! ### Blocks and packets -/

/-- The two ends sum a block in the same way. -/
lemma sumBlock_eq (buf : List Byte) : sumBlock buf = checksum buf := by
  have h : ∀ acc : Byte,
      buf.foldl (· + ·) acc = acc + BitVec.ofNat 8 (buf.map BitVec.toNat).sum := by
    induction buf with
    | nil => simp
    | cons b buf ih =>
      intro acc
      rw [List.foldl_cons, ih, List.map_cons, List.sum_cons, BitVec.ofNat_add, BitVec.ofNat_toNat,
        BitVec.setWidth_eq, BitVec.add_assoc]
  rw [checksum, h, sumBlock]
  simp

lemma packet_eq (data : List Byte) (k : ℕ) : packet data k = frame (blkNum k) (block data k) := by
  rw [packet, frame, sumBlock_eq]

lemma length_pad (data : List Byte) : (pad data).length % 128 = 0 := by
  simp only [pad, blockSize, List.length_append, List.length_replicate]
  omega

lemma length_block {data : List Byte} {k : ℕ} (h : k < numBlocks data) :
    (block data k).length = 128 := by
  unfold numBlocks blockSize at h
  simp only [block, blockSize, List.length_take, List.length_drop]
  omega

lemma length_packet {data : List Byte} {k : ℕ} (h : k < numBlocks data) :
    (packet data k).length = 132 := by
  rw [packet_eq, length_frame (length_block h)]

lemma getElem_block {data : List Byte} {k i : ℕ} (hi : i < 128) :
    (block data k).getD i 0 = data.getD (128 * k + i) 0 := by
  simp [block, blockSize, List.getD_eq_getElem?_getD, hi]

/-- Numbers of blocks next to each other differ. -/
lemma blkNum_ne (k : ℕ) : blkNum k ≠ blkNum (k + 1) := by
  unfold blkNum
  bv_omega

end Neorv32Boot.Xmodem
