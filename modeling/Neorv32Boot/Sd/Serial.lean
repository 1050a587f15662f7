import Neorv32Boot.Host.Python
import Neorv32Boot.Lib.Gather
import Neorv32Boot.Sd.Dialogue

/-!
# Markers in the serial stream

`wait_for` of `host/sd_proto.py` on a stream that loses nothing.  How the stream is cut into chunks,
and how many reads a timer of the host allows, is given by rows of numbers: a number for each read
that is made before the timer runs out, the bytes that have come when it returns.  What the loops of
the host print is left out.
-/

namespace Neorv32Boot.Sd

open Neorv32Boot.Host (after after_first after_eq_none_iff)
open Gather (gather reach)

/-- The text of the exception of `wait_for`. -/
def noMarker (label : String) (buf : List Byte) : PyError :=
  .runtimeError ("[!] no " ++ label ++ ": " ++ reprBytes (buf.drop (buf.length - 200)))

/-- `wait_for`: what has come behind the marker, and what is left of the stream.  A marker is not
empty, so that it can be looked for before each read as well as after it. -/
def waitFor (marker : List Byte) (label : String) (offers : List ℕ) (stream : List Byte) :
    Except PyError (List Byte) × List Byte :=
  let r := gather (fun _ => 256) (fun buf => (after marker buf).isSome) offers [] stream
  match after marker r.1 with
  | some rest => (.ok rest, r.2)
  | none => (.error (noMarker label r.1), r.2)

/-- Where `wait_for` stops reading when the marker ends at `e`. -/
def found (e : ℕ) (stream : List Byte) (offers : List ℕ) : ℕ :=
  reach (fun _ => 256) e stream.length offers 0

/-- A marker that ends with a byte it has nowhere else comes first where it was put, when it was not
there before. -/
lemma first_of_absent {pre marker : List Byte} (hne : marker ≠ [])
    (hlast : marker.getLast hne ∉ marker.dropLast) (hpre : ¬ marker <:+: pre) :
    ¬ marker <:+: pre ++ marker.dropLast := by
  intro h
  have hmarker := List.dropLast_append_getLast hne
  refine hpre ?_
  rw [← hmarker]
  refine infix_append_cases hlast ?_
  rwa [hmarker]

section Marker

variable {front marker : List Byte} (hne : marker ≠ [])
  (hfirst : ¬ marker <:+: front ++ marker.dropLast)
include hne hfirst

/-- The marker is found where it first ends. -/
lemma after_marker (rest : List Byte) : after marker (front ++ marker ++ rest) = some rest := by
  rw [← List.dropLast_append_getLast hne] at hfirst ⊢
  rw [List.dropLast_concat] at hfirst
  exact after_first hfirst

/-- It is found in what has come exactly when all of it has come. -/
lemma isSome_after_take (rest : List Byte) (m : ℕ) :
    (after marker ((front ++ marker ++ rest).take m)).isSome = true ↔
      (front ++ marker).length ≤ m := by
  constructor
  · intro hsome
    by_contra hlt
    have hin : marker <:+: (front ++ marker ++ rest).take m := by
      by_contra hno
      rw [after_eq_none_iff.2 hno] at hsome
      exact Bool.false_ne_true hsome
    have hpre : (front ++ marker ++ rest).take m <+: front ++ marker.dropLast := by
      have hlen := List.length_pos_of_ne_nil hne
      refine List.prefix_of_prefix_length_le (List.take_prefix _ _) ?_ ?_
      · exact ((List.prefix_append_right_inj front).2 (List.dropLast_prefix marker)).trans
          (List.prefix_append _ rest)
      · refine (List.length_take_le _ _).trans ?_
        rw [List.length_append] at hlt ⊢
        rw [List.length_dropLast]
        omega
    exact hfirst (hin.trans hpre.isInfix)
  · intro hle
    obtain ⟨i, rfl⟩ := Nat.exists_eq_add_of_le hle
    rw [List.take_length_add_append, after_marker hne hfirst]
    rfl

/-- `wait_for` on a stream with its marker: it returns with fewer than 256 bytes of what follows the
marker in hand, or its time is over before all of the marker has come. -/
lemma waitFor_cases (rest : List Byte) (label : String) (offers : List ℕ) :
    (∃ n < 256, found (front ++ marker).length (front ++ marker ++ rest) offers =
        (front ++ marker).length + n ∧
      waitFor marker label offers (front ++ marker ++ rest) = (.ok (rest.take n), rest.drop n)) ∨
    (found (front ++ marker).length (front ++ marker ++ rest) offers < (front ++ marker).length ∧
      ∃ buf left, waitFor marker label offers (front ++ marker ++ rest) =
        (.error (noMarker label buf), left)) := by
  have hgather := @Gather.gather_eq Byte (fun _ => 256) (fun buf => (after marker buf).isSome)
    (front ++ marker).length (front ++ marker ++ rest)
    (fun m _ => isSome_after_take hne hfirst rest m) offers 0 (Nat.zero_le _)
  obtain ⟨m, hm⟩ : ∃ m, m = reach (fun _ => 256) (front ++ marker).length
    (front ++ marker ++ rest).length offers 0 := ⟨_, rfl⟩
  rw [List.take_zero, List.drop_zero, ← hm] at hgather
  rw [found, waitFor, hgather, ← hm]
  dsimp only
  by_cases he : (front ++ marker).length ≤ m
  · obtain ⟨n, rfl⟩ := Nat.exists_eq_add_of_le he
    have hlt : reach (fun _ => 256) (front ++ marker).length
        (front ++ marker ++ rest).length offers 0 < (front ++ marker).length + 256 :=
      Gather.reach_lt (fun _ => le_rfl) (by omega)
    refine Or.inl ⟨n, by omega, rfl, ?_⟩
    rw [List.take_length_add_append, after_marker hne hfirst, List.drop_length_add_append]
  · have hnone : after marker ((front ++ marker ++ rest).take m) = none := by
      rw [← Option.not_isSome_iff_eq_none, isSome_after_take hne hfirst]
      exact he
    refine Or.inr ⟨not_le.1 he, ?_⟩
    rw [hnone]
    exact ⟨_, _, rfl⟩

end Marker

/-- `wait_for` on a stream without its marker. -/
lemma waitFor_of_none {marker stream : List Byte} (h : ¬ marker <:+: stream) (label : String)
    (offers : List ℕ) :
    ∃ buf rest, waitFor marker label offers stream = (.error (noMarker label buf), rest) := by
  obtain ⟨r, hr⟩ : ∃ r, r = gather (fun _ => 256) (fun buf => (after marker buf).isSome) offers []
    stream := ⟨_, rfl⟩
  have happ : r.1 ++ r.2 = stream := hr ▸ Gather.gather_append offers [] stream
  have hnone : after marker r.1 = none :=
    after_eq_none_iff.2 fun hin => h (hin.trans ⟨[], r.2, by simpa using happ⟩)
  exact ⟨r.1, r.2, by rw [waitFor, ← hr, hnone]⟩

/-- A marker is not found in a text that holds neither all of it nor, at its start, an end of it. -/
lemma infix_append_of_tails {pre m q : List Byte}
    (hq : ¬ m <:+: q) (htails : ∀ t ∈ m.tails, t ≠ [] → ¬ t <+: q) (h : m <:+: pre ++ q) :
    m <:+: pre := by
  obtain ⟨s, t, hst⟩ := h
  rcases List.append_eq_append_iff.1 hst with ⟨a, ha, -⟩ | ⟨c, hc, hqt⟩
  · exact ⟨s, a, ha.symm⟩
  · rcases List.append_eq_append_iff.1 hc with ⟨d, hd, hm⟩ | ⟨d, -, hc'⟩
    · by_cases hnil : c = []
      · rw [hnil, List.append_nil] at hm
        exact ⟨s, [], by rw [hm, hd, List.append_nil]⟩
      · exact absurd ⟨t, hqt.symm⟩ (htails c (List.mem_tails _ _ |>.2 ⟨d, hm.symm⟩) hnil)
    · exact absurd ⟨d, t, by rw [hqt, hc']⟩ hq

end Neorv32Boot.Sd
