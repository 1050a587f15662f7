import Neorv32Boot.Xmodem.Link

/-!
# Frames and replies on the way

Where the receiver is inside the frames that are on the way to it, and which replies are on the
way to the sender.
-/

namespace Neorv32Boot.Xmodem

/-! ### Replies -/

/-- The bytes that the sender takes as replies. -/
def replies (bs : List Byte) : List Byte := bs.filter fun b => b = ack ∨ b = nak

@[simp] lemma replies_nil : replies [] = [] := rfl

lemma replies_append (as bs : List Byte) : replies (as ++ bs) = replies as ++ replies bs :=
  List.filter_append ..

lemma replies_cons (b : Byte) (bs : List Byte) :
    replies (b :: bs) = if b = ack ∨ b = nak then b :: replies bs else replies bs := by
  simp [replies, List.filter_cons]

lemma replies_ack : replies [ack] = [ack] := rfl

lemma replies_nak : replies [nak] = [nak] := rfl

/-- What the receiver prints while it waits has one reply in it. -/
lemma replies_waiting : replies (waitingText ++ [nak]) = [nak] := by decide

/-- What came before the sender began, when no `ACK` is in it. -/
lemma replies_stale {bs : List Byte} (h : ack ∉ bs) :
    replies bs = List.replicate (bs.count nak) nak := by
  induction bs with
  | nil => rfl
  | cons b bs ih =>
    obtain ⟨hb, hbs⟩ := not_or.1 (mt List.mem_cons.2 h)
    rw [replies_cons, ih hbs]
    by_cases hn : b = nak
    · subst hn
      rw [if_pos (Or.inr rfl), List.count_cons_self, List.replicate_succ]
    · rw [if_neg (not_or.2 ⟨Ne.symm hb, hn⟩), List.count_cons_of_ne hn]

/-! ### Frames -/

/-- The receiver has taken the bytes `p` of the messages `msgs`, and the others are on the way. -/
structure Line (p msgs : List Byte) (s : Sys) : Prop where
  wait_eq : s.rx.wait = place p
  short : p.length < 132
  head : p = [] ∨ p.head? = some soh
  flow : p ++ s.toDev = msgs

lemma Line.start {msgs : List Byte} {s : Sys} (hw : s.rx.wait = .cmd) (hd : s.toDev = msgs) :
    Line [] msgs s :=
  ⟨hw, by simp, Or.inl rfl, hd⟩

/-- What is written goes behind what is on the way. -/
lemma Line.send {p msgs out : List Byte} {s : Sys} {tx : Tx} (h : Line p msgs s) :
    Line p (msgs ++ out) { s with tx := tx, toDev := s.toDev ++ out } :=
  ⟨h.wait_eq, h.short, h.head, by rw [← h.flow, List.append_assoc]⟩

/-- A receiver that is not at the head of its loop is inside a message. -/
lemma Line.wait_cmd {p msgs : List Byte} {s : Sys} (h : Line p msgs s) :
    s.rx.wait = .cmd ↔ p = [] := by
  rw [h.wait_eq]
  match p with
  | [] => simp [place]
  | [x] => simp [place]
  | [x, y] => simp [place]
  | x :: y :: z :: buf =>
    simp only [place]
    split_ifs <;> simp

lemma Line.not_returned {p msgs : List Byte} {s : Sys} (h : Line p msgs s) (size : BitVec 32) :
    s.rx.wait ≠ .ret size := by
  rw [h.wait_eq]
  exact place_ne_ret p size

/-- The receiver takes a byte of a frame: it goes on inside the frame, or it was the last byte, and
the frame is accepted when it has the right number, and rejected otherwise. -/
lemma Line.recv {p tail rest buf : List Byte} {num c : Byte} {s : Sys}
    (h : Line p (frame num buf ++ tail) s) (hbuf : buf.length = 128) (hto : s.toDev = c :: rest) :
    (s.rx.recv (some c) = some ([], { s.rx with wait := place (p ++ [c]) }) ∧
      ∀ toHost, Line (p ++ [c]) (frame num buf ++ tail)
        { s with rx := { s.rx with wait := place (p ++ [c]) }, toDev := rest, toHost := toHost }) ∨
    (rest = tail ∧ s.rx.recv (some c) =
      if num = s.rx.blkNum then some ([ack], s.rx.accept buf) else some ([nak], s.rx.reject)) := by
  have hlen : (frame num buf).length = 132 := length_frame hbuf
  have hflow : (p ++ [c]) ++ rest = frame num buf ++ tail := by
    rw [← h.flow, hto, List.append_assoc, List.singleton_append]
  have hhead : (p ++ [c]).head? = some soh := by
    rcases h.head with rfl | hp
    · rw [List.nil_append, List.singleton_append] at hflow
      rw [(List.cons.inj hflow).1]
      rfl
    · rw [List.head?_append, hp]
      rfl
  by_cases hlast : p.length < 131
  · refine Or.inl ⟨Rx.recv_place h.wait_eq hlast hhead, fun toHost => ?_⟩
    refine ⟨rfl, ?_, Or.inr hhead, hflow⟩
    rw [List.length_append, List.length_singleton]
    omega
  · have hp : p.length = 131 := by
      have := h.short
      omega
    obtain ⟨hframe, rfl⟩ := List.append_inj hflow (by simp [hp, hlen])
    refine Or.inr ⟨rfl, ?_⟩
    have hhead' : p.head? = some soh := by
      refine h.head.resolve_left ?_
      rintro rfl
      cases hp
    rcases Rx.recv_last h.wait_eq hp hhead' with ⟨buf', -, heq, hr⟩ | ⟨hne, hr⟩
    · obtain ⟨hnum, rfl⟩ := frame_inj (hframe.symm.trans heq)
      rw [if_pos hnum, hr]
    · rw [hr, if_neg]
      rintro rfl
      exact hne buf hframe

/-- With whole frames on the way, perhaps followed by `EOT`, the receiver has taken all of them when
no byte is on the way. -/
lemma Line.starved {p tail : List Byte} {fs : List (List Byte)} {s : Sys}
    (h : Line p (fs.flatten ++ tail) s) (hfs : ∀ f ∈ fs, f.length = 132)
    (htail : tail = [] ∨ tail = [eot]) (hnil : s.toDev = []) : p = [] ∧ fs = [] ∧ tail = [] := by
  have hflow := h.flow
  rw [hnil, List.append_nil] at hflow
  cases fs with
  | nil =>
    rw [List.flatten_nil, List.nil_append] at hflow
    rcases htail with rfl | rfl
    · exact ⟨hflow, rfl, rfl⟩
    · have hhead := h.head.resolve_left (by rw [hflow]; exact List.cons_ne_nil _ _)
      rw [hflow] at hhead
      exact absurd (Option.some.inj hhead).symm soh_ne_eot
  | cons f fs =>
    have hshort := h.short
    rw [hflow, List.flatten_cons, List.append_assoc, List.length_append,
      hfs f List.mem_cons_self] at hshort
    omega

end Neorv32Boot.Xmodem
