import Mathlib.Data.BitVec

/-!
# Cyclic redundancy checks

A check is a register that takes in octets, lowest bit first, and is shifted through its polynomial.
The shift is linear and loses nothing, so that the check of a message tells apart all messages that
differ in no more octets next to each other than the register has.
-/

namespace Coding

variable {w : Nat} {poly : BitVec w}

/-- One shift of the register. -/
def shift (poly c : BitVec w) : BitVec w := if c.getLsbD 0 then c >>> 1 ^^^ poly else c >>> 1

def shifts (poly : BitVec w) : Nat → BitVec w → BitVec w
  | 0, c => c
  | n + 1, c => shifts poly n (shift poly c)

/-- The register after one octet. -/
def octet (poly c : BitVec w) (b : UInt8) : BitVec w := shifts poly 8 (c ^^^ b.toBitVec.setWidth w)

/-- The register after a message. -/
def register (poly c : BitVec w) (message : List UInt8) : BitVec w := message.foldl (octet poly) c

theorem register_append (c : BitVec w) (m₁ m₂ : List UInt8) :
    register poly c (m₁ ++ m₂) = register poly (register poly c m₁) m₂ :=
  List.foldl_append

/-! ## The shift is linear -/

theorem xor_xor_cancel (a b p : BitVec w) : a ^^^ p ^^^ (b ^^^ p) = a ^^^ b := by
  rw [BitVec.xor_assoc, BitVec.xor_comm b p, ← BitVec.xor_assoc p, BitVec.xor_self, BitVec.zero_xor]

theorem shift_xor (a b : BitVec w) : shift poly (a ^^^ b) = shift poly a ^^^ shift poly b := by
  unfold shift
  rw [BitVec.getLsbD_xor, BitVec.ushiftRight_xor_distrib]
  cases a.getLsbD 0 with
  | false =>
    cases b.getLsbD 0 with
    | false => rfl
    | true => exact BitVec.xor_assoc _ _ _
  | true =>
    cases b.getLsbD 0 with
    | false =>
      show a >>> 1 ^^^ b >>> 1 ^^^ poly = a >>> 1 ^^^ poly ^^^ b >>> 1
      rw [BitVec.xor_assoc, BitVec.xor_comm (b >>> 1), ← BitVec.xor_assoc]
    | true => exact (xor_xor_cancel _ _ _).symm

theorem shifts_xor (n : Nat) (a b : BitVec w) :
    shifts poly n (a ^^^ b) = shifts poly n a ^^^ shifts poly n b := by
  induction n generalizing a b with
  | zero => rfl
  | succ n ih => rw [shifts, shift_xor, ih, shifts, shifts]

theorem shifts_add (m n : Nat) (c : BitVec w) : shifts poly (m + n) c = shifts poly n (shifts poly m c) := by
  induction m generalizing c with
  | zero => rw [Nat.zero_add, shifts]
  | succ m ih => rw [Nat.succ_add, shifts, ih, shifts]

/-- A register whose lowest bits are clear moves down through as many shifts. -/
theorem shifts_clear {n : Nat} {c : BitVec w} (h : ∀ i < n, c.getLsbD i = false) :
    shifts poly n c = c >>> n := by
  induction n generalizing c with
  | zero => rw [shifts, BitVec.ushiftRight_zero]
  | succ n ih =>
    have hlow : shift poly c = c >>> 1 := by
      rw [shift, h 0 (Nat.succ_pos n)]
      rfl
    have hrest : ∀ i < n, (c >>> 1).getLsbD i = false := by
      intro i hi
      rw [BitVec.getLsbD_ushiftRight]
      exact h (1 + i) (by omega)
    rw [shifts, hlow, ih hrest, ← BitVec.shiftRight_add, Nat.add_comm]

/-! ## The shift loses nothing -/

/-- The top bit after a shift is the bit that was shifted out, where the polynomial has its top bit. -/
theorem shift_injective (hpoly : poly.msb = true) {a b : BitVec w} (h : shift poly a = shift poly b) :
    a = b := by
  have hw : 0 < w := by
    by_contra hzero
    obtain rfl : w = 0 := by omega
    rw [BitVec.of_length_zero (x := poly)] at hpoly
    cases hpoly
  have htop : ∀ c : BitVec w, (shift poly c).msb = c.getLsbD 0 := by
    intro c
    have hclear : (c >>> 1).msb = false := by
      rw [BitVec.msb_eq_getLsbD_last, BitVec.getLsbD_ushiftRight]
      exact BitVec.getLsbD_of_ge _ _ (by omega)
    unfold shift
    cases hc : c.getLsbD 0 with
    | false => exact hclear
    | true => rw [if_pos rfl, BitVec.msb_xor, hclear, hpoly]; rfl
  have hbit : a.getLsbD 0 = b.getLsbD 0 := by rw [← htop a, ← htop b, h]
  have hrest : a >>> 1 = b >>> 1 := by
    unfold shift at h
    rw [hbit] at h
    cases hb : b.getLsbD 0 with
    | false =>
      rw [hb] at h
      exact h
    | true =>
      rw [hb] at h
      exact BitVec.xor_left_inj poly |>.mp h
  apply BitVec.eq_of_getLsbD_eq
  intro i hi
  cases i with
  | zero => exact hbit
  | succ i =>
    have hget : (a >>> 1).getLsbD i = (b >>> 1).getLsbD i := by rw [hrest]
    rw [BitVec.getLsbD_ushiftRight, BitVec.getLsbD_ushiftRight, Nat.add_comm] at hget
    exact hget

theorem shifts_injective (hpoly : poly.msb = true) {n : Nat} {a b : BitVec w}
    (h : shifts poly n a = shifts poly n b) : a = b := by
  induction n generalizing a b with
  | zero => exact h
  | succ n ih => exact shift_injective hpoly (ih h)

theorem octet_injective (hpoly : poly.msb = true) {a b : BitVec w} {o : UInt8}
    (h : octet poly a o = octet poly b o) : a = b :=
  (BitVec.xor_left_inj _).mp (shifts_injective hpoly h)

theorem register_injective (hpoly : poly.msb = true) {a b : BitVec w} {message : List UInt8}
    (h : register poly a message = register poly b message) : a = b := by
  induction message generalizing a b with
  | nil => exact h
  | cons o message ih => exact octet_injective hpoly (ih h)

/-! ## Bursts -/

/-- Octets as a word, the first one lowest. -/
def word (w : Nat) : List UInt8 → BitVec w
  | [] => 0
  | b :: bs => word w bs <<< 8 ^^^ b.toBitVec.setWidth w

theorem word_clear {bs : List UInt8} {i : Nat} (hi : 8 * bs.length ≤ i) :
    (word w bs).getLsbD i = false := by
  induction bs generalizing i with
  | nil => exact BitVec.getLsbD_zero
  | cons b bs ih =>
    rw [List.length_cons] at hi
    have hhigh : (b.toBitVec.setWidth w).getLsbD i = false := by
      rw [BitVec.getLsbD_setWidth, BitVec.getLsbD_of_ge b.toBitVec i (by omega), Bool.and_false]
    rw [word, BitVec.getLsbD_xor, hhigh, BitVec.getLsbD_shiftLeft, ih (by omega)]
    simp

/-- A short message goes through the register as one word. -/
theorem register_word {bs : List UInt8} (h : 8 * bs.length ≤ w) (c : BitVec w) :
    register poly c bs = shifts poly (8 * bs.length) (c ^^^ word w bs) := by
  induction bs generalizing c with
  | nil => exact BitVec.xor_zero.symm
  | cons b bs ih =>
    rw [List.length_cons] at h ⊢
    -- What the rest adds to the register has been eight places higher before the first octet.
    have hup : shifts poly 8 (word w bs <<< 8) = word w bs := by
      have hclear : ∀ i < 8, (word w bs <<< 8).getLsbD i = false := by
        intro i hi
        simp [BitVec.getLsbD_shiftLeft, hi]
      rw [shifts_clear hclear]
      apply BitVec.eq_of_getLsbD_eq
      intro i hi
      rw [BitVec.getLsbD_ushiftRight, BitVec.getLsbD_shiftLeft]
      by_cases hlow : 8 + i < w
      · simp [hlow]
      · have hclear : (word w bs).getLsbD i = false := word_clear (by omega)
        simp [hlow, hclear]
    have hrest := ih (by omega) (octet poly c b)
    rw [register, List.foldl_cons, ← register, hrest, octet, Nat.mul_add, Nat.mul_one, Nat.add_comm,
      shifts_add, word]
    have hin : shifts poly 8 (c ^^^ (word w bs <<< 8 ^^^ b.toBitVec.setWidth w)) =
        shifts poly 8 (c ^^^ b.toBitVec.setWidth w) ^^^ word w bs := by
      rw [BitVec.xor_comm (word w bs <<< 8), ← BitVec.xor_assoc, shifts_xor, hup]
    rw [hin]

theorem word_injective {bs₁ bs₂ : List UInt8} (hlen : bs₁.length = bs₂.length)
    (hw : 8 * bs₁.length ≤ w) (h : word w bs₁ = word w bs₂) : bs₁ = bs₂ := by
  induction bs₁ generalizing bs₂ with
  | nil => exact (List.length_eq_zero_iff.mp hlen.symm).symm
  | cons a bs₁ ih =>
    cases bs₂ with
    | nil => cases hlen
    | cons b bs₂ =>
      rw [List.length_cons] at hw
      have hbit : ∀ i, i < w → (word w (a :: bs₁)).getLsbD i = (word w (b :: bs₂)).getLsbD i :=
        fun i _ => by rw [h]
      have hsplit : ∀ (o : UInt8) (os : List UInt8) i, i < w → (word w (o :: os)).getLsbD i =
          if i < 8 then o.toBitVec.getLsbD i else (word w os).getLsbD (i - 8) := by
        intro o os i hi
        rw [word, BitVec.getLsbD_xor, BitVec.getLsbD_shiftLeft, BitVec.getLsbD_setWidth]
        by_cases hlow : i < 8
        · simp [hlow, hi]
        · rw [BitVec.getLsbD_of_ge o.toBitVec i (by omega)]
          simp [hlow, hi]
      have hoctet : a = b := by
        apply UInt8.toBitVec_inj.mp
        apply BitVec.eq_of_getLsbD_eq
        intro i hi
        have hget := hbit i (by omega)
        rwa [hsplit a bs₁ i (by omega), hsplit b bs₂ i (by omega), if_pos hi, if_pos hi] at hget
      have hrest : word w bs₁ = word w bs₂ := by
        apply BitVec.eq_of_getLsbD_eq
        intro i hi
        by_cases hhigh : i + 8 < w
        · have hget := hbit (i + 8) hhigh
          rwa [hsplit a bs₁ _ hhigh, hsplit b bs₂ _ hhigh, if_neg (by omega), if_neg (by omega),
            Nat.add_sub_cancel] at hget
        · rw [word_clear (by omega), word_clear (by rw [← Nat.succ.inj hlen]; omega)]
      rw [hoctet, ih (Nat.succ.inj hlen) (by omega) hrest]

/-- Messages that differ in no more octets than the register has are told apart. -/
theorem register_burst (hpoly : poly.msb = true) {c : BitVec w} {pre bs₁ bs₂ post : List UInt8}
    (hlen : bs₁.length = bs₂.length) (hw : 8 * bs₁.length ≤ w)
    (h : register poly c (pre ++ bs₁ ++ post) = register poly c (pre ++ bs₂ ++ post)) : bs₁ = bs₂ := by
  rw [register_append, register_append, register_append, register_append] at h
  have hburst := register_injective hpoly h
  have hw₂ : 8 * bs₂.length ≤ w := by rwa [← hlen]
  rw [register_word hw, register_word hw₂, ← hlen] at hburst
  exact word_injective hlen hw ((BitVec.xor_right_inj _).mp (shifts_injective hpoly hburst))

end Coding
