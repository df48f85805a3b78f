import BaseUtilities.Net.IPAddress

/-!
# What `fromString` takes for an address

`sscanf` reads four numbers with dots between them, each with blanks and a sign before it and of any
size, and whatever follows; `fromString` shifts them together without a look at them.  A dotted quad is
read as its address; any other text with four such numbers is read as an address, too, and that is
0.0.0.0 only where no bit of a number is left in its place.
-/

open Mem

namespace IPAddress

/-- A dotted quad is read as its address, and everything else as 0.0.0.0. -/
def ReadsExactly (s : Bytes) : Prop :=
  (∀ a b c d, Dotted s a b c d → fromString s = ofOctets a b c d) ∧
    ((¬∃ a b c d, Dotted s a b c d) → fromString s = empty)

/-- `s` begins with the numbers `a.b.c.d`, as `sscanf` reads them. -/
def BeginsWith (s : Bytes) (a b c d : Int) : Prop :=
  ∃ ta tb tc td rest, IntText ta a ∧ IntText tb b ∧ IntText tc c ∧ IntText td d ∧ Ends rest ∧
    s = ta ++ dot :: (tb ++ dot :: (tc ++ dot :: (td ++ rest)))

variable {s : Bytes} {a b c d x : Int}

/-! ## The conversions -/

/-- A number and the dot behind it. -/
theorem scanDotted_eq_cons {k : Nat} {xs : List Int} (hxs : xs ≠ []) :
    scanDotted (k + 1) s = x :: xs ↔
      ∃ text rest, IntText text x ∧ s = text ++ dot :: rest ∧ scanDotted k rest = xs := by
  rw [scanDotted]
  constructor
  · intro h
    split at h
    · cases h
    · next y rest hscan =>
      obtain ⟨rfl, hrest⟩ := List.cons.inj h
      obtain ⟨text, htext, hs, -⟩ := scanInt_iff.mp hscan
      exact ⟨text, rest, htext, hs, hrest⟩
    · exact absurd (List.cons.inj h).2.symm hxs
  · intro h
    obtain ⟨text, rest, htext, rfl, rfl⟩ := h
    rw [scanInt_iff.mpr ⟨text, htext, rfl, ends_dot rest⟩]
    rfl

/-- The last number, whatever follows. -/
theorem scanDotted_eq_singleton :
    scanDotted 1 s = [x] ↔ ∃ text rest, IntText text x ∧ s = text ++ rest ∧ Ends rest := by
  rw [scanDotted]
  constructor
  · intro h
    -- The last conversion: what follows the number is not looked at, be it a dot or nothing.
    split at h
    · cases h
    · next y rest hscan =>
      obtain ⟨rfl, -⟩ := List.cons.inj h
      obtain ⟨text, htext, hs, hrest⟩ := scanInt_iff.mp hscan
      exact ⟨text, _, htext, hs, hrest⟩
    · next y rest _ hscan =>
      obtain ⟨rfl, -⟩ := List.cons.inj h
      obtain ⟨text, htext, hs, hrest⟩ := scanInt_iff.mp hscan
      exact ⟨text, _, htext, hs, hrest⟩
  · intro h
    obtain ⟨text, rest, htext, rfl, hrest⟩ := h
    rw [scanInt_iff.mpr ⟨text, htext, rfl, hrest⟩]
    cases rest with
    | nil => rfl
    | cons e rest =>
      -- A dot behind the number is taken off by the scanner, to no effect.
      by_cases he : e = 46
      · rw [he]
        rfl
      · split
        · next heq => cases heq
        · next heq =>
          cases heq
          exact absurd rfl he
        · next heq =>
          cases heq
          rfl

/-- `sscanf` returns 4 exactly where the string begins with four numbers. -/
theorem scanDotted_four : scanDotted 4 s = [a, b, c, d] ↔ BeginsWith s a b c d := by
  rw [scanDotted_eq_cons (List.cons_ne_nil _ _)]
  constructor
  · intro h
    obtain ⟨ta, sb, ha, rfl, h₁⟩ := h
    obtain ⟨tb, sc, hb, rfl, h₂⟩ := (scanDotted_eq_cons (List.cons_ne_nil _ _)).mp h₁
    obtain ⟨tc, sd, hc, rfl, h₃⟩ := (scanDotted_eq_cons (List.cons_ne_nil _ _)).mp h₂
    obtain ⟨td, rest, hd, rfl, hrest⟩ := scanDotted_eq_singleton.mp h₃
    exact ⟨ta, tb, tc, td, rest, ha, hb, hc, hd, hrest, rfl⟩
  · intro h
    obtain ⟨ta, tb, tc, td, rest, ha, hb, hc, hd, hrest, rfl⟩ := h
    have h₃ := scanDotted_eq_singleton.mpr ⟨td, rest, hd, rfl, hrest⟩
    have h₂ := (scanDotted_eq_cons (List.cons_ne_nil _ _)).mpr ⟨tc, _, hc, rfl, h₃⟩
    have h₁ := (scanDotted_eq_cons (List.cons_ne_nil _ _)).mpr ⟨tb, _, hb, rfl, h₂⟩
    exact ⟨ta, _, ha, rfl, h₁⟩

/-! ## The address -/

theorem BeginsWith.fromString (h : BeginsWith s a b c d) : fromString s =
    ⟨UInt32.ofInt a <<< 24 ||| UInt32.ofInt b <<< 16 ||| UInt32.ofInt c <<< 8 ||| UInt32.ofInt d⟩ := by
  unfold IPAddress.fromString
  rw [scanDotted_four.mpr h]

/-- Without four numbers there is no address. -/
theorem fromString_none (h : ¬∃ a b c d, BeginsWith s a b c d) : fromString s = empty := by
  unfold fromString
  split
  · next a b c d heq => exact absurd ⟨a, b, c, d, scanDotted_four.mp heq⟩ h
  · rfl

theorem shift_eq_zero_iff {k : UInt32} (hk : k.toNat < 32) :
    UInt32.ofInt x <<< k = 0 ↔ (x % 2 ^ 32).toNat * 2 ^ k.toNat % 2 ^ 32 = 0 := by
  rw [← UInt32.toNat_inj, UInt32.toNat_shiftLeft, ofInt_toNat, Nat.mod_eq_of_lt hk, Nat.shiftLeft_eq]
  rfl

/-- A number that `%d` reads is an `int`. -/
theorem intText_range {text : Bytes} (h : IntText text x) : -2 ^ 31 ≤ x ∧ x < 2 ^ 31 := by
  obtain ⟨negative, n, -, rfl⟩ := h
  cases negative with
  | false =>
    rw [if_neg Bool.false_ne_true]
    omega
  | true =>
    rw [if_pos rfl]
    omega

/-- Four numbers are read as 0.0.0.0 where each vanishes in its place. -/
theorem BeginsWith.empty_iff (h : BeginsWith s a b c d) :
    IPAddress.fromString s = empty ↔ 2 ^ 8 ∣ a ∧ 2 ^ 16 ∣ b ∧ 2 ^ 24 ∣ c ∧ d = 0 := by
  obtain ⟨ta, tb, tc, td, rest, -, -, -, hd, -⟩ := id h
  have hrange := intText_range hd
  have ha : UInt32.ofInt a <<< 24 = 0 ↔ 2 ^ 8 ∣ a := by
    rw [shift_eq_zero_iff (by decide), show (24 : UInt32).toNat = 24 from rfl]
    omega
  have hb : UInt32.ofInt b <<< 16 = 0 ↔ 2 ^ 16 ∣ b := by
    rw [shift_eq_zero_iff (by decide), show (16 : UInt32).toNat = 16 from rfl]
    omega
  have hc : UInt32.ofInt c <<< 8 = 0 ↔ 2 ^ 24 ∣ c := by
    rw [shift_eq_zero_iff (by decide), show (8 : UInt32).toNat = 8 from rfl]
    omega
  have hd : UInt32.ofInt d = 0 ↔ d = 0 := by
    rw [← UInt32.toNat_inj, ofInt_toNat, show (0 : UInt32).toNat = 0 from rfl]
    omega
  rw [h.fromString]
  unfold empty
  rw [IPAddress.mk.injEq, UInt32.or_eq_zero_iff, UInt32.or_eq_zero_iff, UInt32.or_eq_zero_iff,
    ha, hb, hc, hd, and_assoc, and_assoc]

/-- Which strings are read exactly: a dotted quad, and what is none when it does not begin with four
numbers, or with four that all vanish in their places. -/
theorem readsExactly_iff (s : Bytes) :
    ReadsExactly s ↔ (∃ a b c d, Dotted s a b c d) ∨
      ∀ a b c d, BeginsWith s a b c d → 2 ^ 8 ∣ a ∧ 2 ^ 16 ∣ b ∧ 2 ^ 24 ∣ c ∧ d = 0 := by
  have hquad : ∀ a b c d, Dotted s a b c d → fromString s = ofOctets a b c d :=
    fun a b c d h => h.fromString
  by_cases hdotted : ∃ a b c d, Dotted s a b c d
  · constructor
    · intro _
      exact .inl hdotted
    · intro _
      exact ⟨hquad, fun hno => absurd hdotted hno⟩
  · constructor
    · intro h
      right
      intro a b c d hbegins
      exact hbegins.empty_iff.mp (h.2 hdotted)
    · intro h
      have hvanish := h.resolve_left hdotted
      refine ⟨hquad, fun _ => ?_⟩
      by_cases hbegins : ∃ a b c d, BeginsWith s a b c d
      · obtain ⟨a, b, c, d, hbegins⟩ := hbegins
        exact hbegins.empty_iff.mpr (hvanish a b c d hbegins)
      · exact fromString_none hbegins

/-- An octet of 256 is read as a bit of the one before it. -/
theorem not_readsExactly : ¬∀ s, ReadsExactly s := by
  intro hall
  have hread := (hall (ascii "1.2.3.256")).2
  have hnot : ¬∃ a b c d, Dotted (ascii "1.2.3.256") a b c d := by
    intro h
    obtain ⟨a, b, c, d, hdotted⟩ := h
    have hscan := hdotted.scanned
    rw [show scanDotted 4 (ascii "1.2.3.256") = [1, 2, 3, 256] by decide +kernel] at hscan
    have hd := d.toNat_lt
    simp only [List.cons.injEq] at hscan
    omega
  have haddr : fromString (ascii "1.2.3.256") = ⟨0x01020300 ||| 256⟩ := by decide +kernel
  rw [haddr] at hread
  exact absurd (hread hnot) (by decide)

end IPAddress
