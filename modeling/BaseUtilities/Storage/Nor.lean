import BaseUtilities.Memory.Buffer

/-!
# Storage that is erased and programmed

A part of such storage is erased as a whole, which sets all of its bits, and programmed byte by byte,
which clears bits and sets none.  What has been programmed from the start of a part on is written as an
overlay of the erased part, so that the bytes behind it are known.
-/

open Mem

namespace Storage

variable {n : Nat}

/-- A byte of erased storage. -/
abbrev erasedByte : UInt8 := 0xFF

def erased (n : Nat) : Buffer n := ⟨List.replicate n erasedByte, List.length_replicate⟩

/-- To write `new` over `old` clears bits and sets none. -/
def Clears (old new : Bytes) : Prop := List.zipWith (· &&& ·) new old = new

instance (old new : Bytes) : Decidable (Clears old new) := inferInstanceAs (Decidable (_ = new))

def program? (b : Buffer n) (off : Nat) (src : Bytes) : Option (Buffer n) :=
  if Clears ((b.bytes.drop off).take src.length) src then b.store? off src else none

theorem clears_erased (src : Bytes) : Clears (List.replicate src.length erasedByte) src := by
  unfold Clears
  induction src with
  | nil => rfl
  | cons b src ih =>
    have hb : b &&& erasedByte = b := by
      apply UInt8.toNat_inj.mp
      rw [UInt8.toNat_and]
      exact Nat.and_two_pow_sub_one_of_lt_two_pow b.toNat_lt (n := 8)
    rw [List.length_cons, List.replicate_succ, List.zipWith_cons_cons, ih, hb]

/-! ## What has been programmed -/

theorem overlay_erased_bytes {src : Bytes} (h : src.length ≤ n) :
    ((erased n).overlay src).bytes = src ++ List.replicate (n - src.length) erasedByte := by
  rw [Buffer.overlay_bytes h]
  simp [erased]

/-- Erased bytes are like bytes that nothing has been written to. -/
theorem overlay_erased_append {src : Bytes} {k : Nat} (h : src.length + k ≤ n) :
    (erased n).overlay (src ++ List.replicate k erasedByte) = (erased n).overlay src := by
  apply Buffer.ext
  rw [overlay_erased_bytes (by simpa using h), overlay_erased_bytes (by omega), List.append_assoc,
    List.replicate_append_replicate]
  congr 2
  simp only [List.length_append, List.length_replicate]
  omega

@[simp] theorem overlay_erased_nil : (erased n).overlay [] = erased n := by
  apply Buffer.ext
  rw [Buffer.overlay_bytes (by simp)]
  simp

/-- What is read from some way into what has been programmed on, or from behind it. -/
theorem load?_overlay_drop {src : Bytes} {off len : Nat} (hsrc : src.length ≤ n) (h : off + len ≤ n) :
    ((erased n).overlay src).load? off len =
      some (((src ++ List.replicate (n - src.length) erasedByte).drop off).take len) := by
  rw [Buffer.load?_eq_some h, overlay_erased_bytes hsrc]

/-- Bytes are programmed behind those that have been, possibly with a gap. -/
theorem program?_behind {pre src : Bytes} {k : Nat} (h : pre.length + k + src.length ≤ n) :
    program? ((erased n).overlay pre) (pre.length + k) src =
      some ((erased n).overlay (pre ++ List.replicate k erasedByte ++ src)) := by
  have hgap : (pre ++ List.replicate k erasedByte).length = pre.length + k := by simp
  have hclears : Clears ((((erased n).overlay pre).bytes.drop (pre.length + k)).take src.length) src := by
    have hold : (((erased n).overlay pre).bytes.drop (pre.length + k)).take src.length =
        List.replicate src.length erasedByte := by
      rw [overlay_erased_bytes (by omega), List.drop_append, List.drop_of_length_le (by omega),
        List.nil_append, List.drop_replicate, List.take_replicate]
      congr 1
      omega
    rw [hold]
    exact clears_erased src
  rw [program?, if_pos hclears, ← overlay_erased_append (k := k) (by omega), ← hgap]
  have := Buffer.overlay_store? (erased n) (pre ++ List.replicate k erasedByte) [] src (Nat.zero_le _)
    (by rw [hgap]; exact h)
  rwa [List.append_nil] at this

/-- Bytes are programmed over others, clearing bits. -/
theorem program?_over {src : Bytes} (pre old new post : Bytes) (hsrc : src = pre ++ old ++ post)
    (hlen : old.length = new.length) (hclears : Clears old new) (h : src.length ≤ n) :
    program? ((erased n).overlay src) pre.length new = some ((erased n).overlay (pre ++ new ++ post)) := by
  subst hsrc
  have hold : (((erased n).overlay (pre ++ old ++ post)).bytes.drop pre.length).take new.length = old := by
    rw [overlay_erased_bytes h, List.append_assoc, List.append_assoc, List.drop_left' rfl, ← hlen,
      List.take_left' rfl]
  rw [program?, if_pos (by rwa [hold])]
  refine Buffer.overlay_patch _ pre old new post hlen ?_
  simp only [List.length_append] at h
  omega

end Storage
