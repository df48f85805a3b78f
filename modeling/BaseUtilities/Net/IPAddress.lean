import BaseUtilities.Memory.Text

/-!
# IPv4 addresses

The class `IPAddress` of `IPAddress.hpp` and `IPAddress.cpp`: an address as a number of 32 bits, its
octets, and its text.  A printed address is read back as the same address.
-/

open Mem

/-- `IPAddress` -/
structure IPAddress where
  m_addr : UInt32
  deriving DecidableEq, Repr

namespace IPAddress

/-- `IPAddress()` -/
def empty : IPAddress := ⟨0⟩

/-- `IPAddress(a, b, c, d)` -/
def ofOctets (a b c d : UInt8) : IPAddress :=
  ⟨a.toUInt32 <<< 24 ||| b.toUInt32 <<< 16 ||| c.toUInt32 <<< 8 ||| d.toUInt32⟩

/-- `operator[]`; a shift by a number of bits outside of 0..31 has no value. -/
def index (self : IPAddress) (index : Int) : Option UInt8 :=
  let shift := 8 * (3 - index)
  if 0 ≤ shift ∧ shift < 32 then some (self.m_addr >>> UInt32.ofInt shift).toUInt8 else none

/-- A dot. -/
abbrev dot : UInt8 := 46

/-- The text that `toString` prints. -/
def printed (self : IPAddress) : Bytes :=
  decimal ((self.m_addr >>> 24) &&& 0xFF).toNat ++ dot :: (
    decimal ((self.m_addr >>> 16) &&& 0xFF).toNat ++ dot :: (
      decimal ((self.m_addr >>> 8) &&& 0xFF).toNat ++ dot ::
        decimal (self.m_addr &&& 0xFF).toNat))

/-- `toString`, through an array of 16 bytes. -/
def toString (self : IPAddress) : Bytes := snprintf 16 self.printed

/-- `sscanf(s, "%d.%d. ..", ..)` with `k` conversions: their values up to the first mismatch. -/
def scanDotted : Nat → Bytes → List Int
  | 0, _ => []
  | k + 1, s =>
    match scanInt s with
    | none => []
    | some (x, 46 :: s) => x :: scanDotted k s
    | some (x, _) => [x]

/-- `fromString` -/
def fromString (str : Bytes) : IPAddress :=
  match scanDotted 4 str with
  | [a, b, c, d] =>
    ⟨UInt32.ofInt a <<< 24 ||| UInt32.ofInt b <<< 16 ||| UInt32.ofInt c <<< 8 ||| UInt32.ofInt d⟩
  | _ => empty

/-- `s` is `a.b.c.d`. -/
def Dotted (s : Bytes) (a b c d : UInt8) : Prop :=
  ∃ da db dc dd, Number da a.toNat ∧ Number db b.toNat ∧ Number dc c.toNat ∧ Number dd d.toNat ∧
    s = da ++ dot :: (db ++ dot :: (dc ++ dot :: dd))

variable {a b c d : UInt8} {s : Bytes}

theorem ofInt_toNat (x : Int) : (UInt32.ofInt x).toNat = (x % 2 ^ 32).toNat := by
  show (UInt32.ofNat (x % 2 ^ 32).toNat).toNat = _
  rw [UInt32.toNat_ofNat']
  omega

/-! ## Octets -/

/-- Octets do not overlap. -/
theorem ofOctets_toNat (a b c d : UInt8) :
    (ofOctets a b c d).m_addr.toNat =
      a.toNat * 2 ^ 24 + b.toNat * 2 ^ 16 + c.toNat * 2 ^ 8 + d.toNat := by
  have ha := a.toNat_lt
  have hb := b.toNat_lt
  have hc := c.toNat_lt
  have hd := d.toNat_lt
  have hshift : ∀ (x : UInt8) (k : Nat), k ≤ 24 → x.toNat <<< k % 2 ^ 32 = x.toNat <<< k := by
    intro x k hk
    rw [Nat.shiftLeft_eq]
    apply Nat.mod_eq_of_lt
    calc x.toNat * 2 ^ k < 2 ^ 8 * 2 ^ k := Nat.mul_lt_mul_of_pos_right x.toNat_lt (Nat.two_pow_pos k)
      _ = 2 ^ (8 + k) := (Nat.pow_add 2 8 k).symm
      _ ≤ 2 ^ 32 := Nat.pow_le_pow_right (by decide) (by omega)
  unfold ofOctets
  simp only [UInt32.toNat_or, UInt32.toNat_shiftLeft, UInt8.toNat_toUInt32]
  show a.toNat <<< 24 % 2 ^ 32 ||| b.toNat <<< 16 % 2 ^ 32 ||| c.toNat <<< 8 % 2 ^ 32 ||| d.toNat = _
  rw [hshift a 24 (by decide), hshift b 16 (by decide), hshift c 8 (by decide)]
  have hcd : c.toNat <<< 8 ||| d.toNat = c.toNat * 2 ^ 8 + d.toNat := by
    rw [← Nat.shiftLeft_add_eq_or_of_lt hd, Nat.shiftLeft_eq]
  have hbcd : b.toNat <<< 16 ||| (c.toNat <<< 8 ||| d.toNat) =
      b.toNat * 2 ^ 16 + (c.toNat * 2 ^ 8 + d.toNat) := by
    rw [hcd, ← Nat.shiftLeft_add_eq_or_of_lt (by omega), Nat.shiftLeft_eq]
  rw [Nat.or_assoc, Nat.or_assoc, hbcd, ← Nat.shiftLeft_add_eq_or_of_lt (by omega), Nat.shiftLeft_eq]
  omega

/-- Any address is that of its octets. -/
theorem exists_octets (self : IPAddress) : ∃ a b c d, self = ofOctets a b c d := by
  have hlt := self.m_addr.toNat_lt
  refine ⟨UInt8.ofNat (self.m_addr.toNat / 2 ^ 24), UInt8.ofNat (self.m_addr.toNat / 2 ^ 16),
    UInt8.ofNat (self.m_addr.toNat / 2 ^ 8), UInt8.ofNat self.m_addr.toNat, ?_⟩
  have haddr : self.m_addr = (ofOctets (UInt8.ofNat (self.m_addr.toNat / 2 ^ 24))
      (UInt8.ofNat (self.m_addr.toNat / 2 ^ 16)) (UInt8.ofNat (self.m_addr.toNat / 2 ^ 8))
      (UInt8.ofNat self.m_addr.toNat)).m_addr := by
    apply UInt32.toNat_inj.mp
    rw [ofOctets_toNat]
    simp only [UInt8.toNat_ofNat']
    omega
  cases self
  exact congrArg IPAddress.mk haddr

/-- The octets of an address, as `operator[]` reads them and as `toString` prints them. -/
theorem ofOctets_bytes (a b c d : UInt8) :
    (ofOctets a b c d).m_addr.toNat / 2 ^ 24 % 2 ^ 8 = a.toNat ∧
    (ofOctets a b c d).m_addr.toNat / 2 ^ 16 % 2 ^ 8 = b.toNat ∧
    (ofOctets a b c d).m_addr.toNat / 2 ^ 8 % 2 ^ 8 = c.toNat ∧
    (ofOctets a b c d).m_addr.toNat % 2 ^ 8 = d.toNat := by
  have ha := a.toNat_lt
  have hb := b.toNat_lt
  have hc := c.toNat_lt
  have hd := d.toNat_lt
  rw [ofOctets_toNat]
  omega

theorem index_octet {self : IPAddress} {x : UInt8} {k : Nat} (hk : k < 4)
    (hx : self.m_addr.toNat / 2 ^ (8 * (3 - k)) % 2 ^ 8 = x.toNat) : self.index k = some x := by
  have hshift : 8 * (3 - (k : Int)) = ((8 * (3 - k) : Nat) : Int) := by omega
  unfold index
  dsimp only
  rw [if_pos (by omega), hshift]
  congr 1
  apply UInt8.toNat_inj.mp
  have hsmall : 8 * (3 - k) < 32 := by omega
  have hnat : (UInt32.ofInt ((8 * (3 - k) : Nat) : Int)).toNat = 8 * (3 - k) := by
    rw [ofInt_toNat]
    omega
  rw [UInt32.toNat_toUInt8, UInt32.toNat_shiftRight, hnat, Nat.mod_eq_of_lt hsmall,
    Nat.shiftRight_eq_div_pow]
  exact hx

/-- `operator[]` reads the octets in order. -/
theorem ofOctets_index (a b c d : UInt8) :
    (ofOctets a b c d).index 0 = some a ∧ (ofOctets a b c d).index 1 = some b ∧
    (ofOctets a b c d).index 2 = some c ∧ (ofOctets a b c d).index 3 = some d := by
  obtain ⟨ha, hb, hc, hd⟩ := ofOctets_bytes a b c d
  refine ⟨index_octet (k := 0) (by decide) ha, index_octet (k := 1) (by decide) hb,
    index_octet (k := 2) (by decide) hc, index_octet (k := 3) (by decide) ?_⟩
  rw [Nat.pow_zero, Nat.div_one]
  exact hd

/-! ## Printing -/

theorem printed_ofOctets (a b c d : UInt8) :
    (ofOctets a b c d).printed =
      decimal a.toNat ++ dot :: (decimal b.toNat ++ dot :: (decimal c.toNat ++ dot :: decimal d.toNat)) := by
  obtain ⟨ha, hb, hc, hd⟩ := ofOctets_bytes a b c d
  have hmask : ∀ x : UInt32, (x &&& 0xFF).toNat = x.toNat % 2 ^ 8 := by
    intro x
    rw [UInt32.toNat_and]
    exact Nat.and_two_pow_sub_one_eq_mod x.toNat 8
  have hshift : ∀ (x : UInt32) (k : UInt32), k.toNat < 32 →
      (x >>> k).toNat = x.toNat / 2 ^ k.toNat := by
    intro x k hk
    rw [UInt32.toNat_shiftRight, Nat.mod_eq_of_lt hk, Nat.shiftRight_eq_div_pow]
  unfold printed
  rw [hmask, hmask, hmask, hmask, hshift _ _ (by decide), hshift _ _ (by decide), hshift _ _ (by decide)]
  rw [← ha, ← hb, ← hc, ← hd]
  rfl

/-- A printed address fits the array with its terminator. -/
theorem printed_length (self : IPAddress) : self.printed.length ≤ 15 := by
  obtain ⟨a, b, c, d, rfl⟩ := self.exists_octets
  have ha := (decimal_byte a).1
  have hb := (decimal_byte b).1
  have hc := (decimal_byte c).1
  have hd := (decimal_byte d).1
  rw [printed_ofOctets]
  simp only [List.length_append, List.length_cons]
  omega

theorem toString_eq (self : IPAddress) : self.toString = self.printed := by
  unfold toString snprintf
  exact List.take_of_length_le self.printed_length

/-- A printed address is a dotted quad. -/
theorem toString_dotted (a b c d : UInt8) : Dotted (ofOctets a b c d).toString a b c d := by
  rw [toString_eq, printed_ofOctets]
  exact ⟨_, _, _, _, decimal_number _, decimal_number _, decimal_number _, decimal_number _, rfl⟩

/-! ## Scanning -/

theorem ends_dot (rest : Bytes) : Ends (dot :: rest) := by
  intro x hx
  rw [← Option.some.inj hx]
  rfl

theorem ends_nil : Ends [] := nofun

/-- An octet and the dot behind it. -/
theorem scanDotted_more {digits rest : Bytes} {x : UInt8} (k : Nat) (hdigits : Number digits x.toNat) :
    scanDotted (k + 1) (digits ++ dot :: rest) = (x.toNat : Int) :: scanDotted k rest := by
  have hx := x.toNat_lt
  rw [scanDotted, scanInt_digits hdigits (ends_dot rest) (by omega)]
  rfl

theorem scanDotted_last {digits : Bytes} {x : UInt8} (k : Nat) (hdigits : Number digits x.toNat) :
    scanDotted (k + 1) digits = [(x.toNat : Int)] := by
  have hx := x.toNat_lt
  have hscan := scanInt_digits hdigits ends_nil (by omega)
  rw [List.append_nil] at hscan
  rw [scanDotted, hscan]

theorem Dotted.scanned (h : Dotted s a b c d) :
    scanDotted 4 s = [(a.toNat : Int), (b.toNat : Int), (c.toNat : Int), (d.toNat : Int)] := by
  obtain ⟨da, db, dc, dd, ha, hb, hc, hd, rfl⟩ := h
  rw [scanDotted_more 3 ha, scanDotted_more 2 hb, scanDotted_more 1 hc, scanDotted_last 0 hd]

/-- A dotted quad is read as the address of its octets. -/
theorem Dotted.fromString (h : Dotted s a b c d) : fromString s = ofOctets a b c d := by
  have hoctet : ∀ x : UInt8, UInt32.ofInt (x.toNat : Int) = x.toUInt32 := by
    intro x
    apply UInt32.toNat_inj.mp
    have hx := x.toNat_lt
    rw [ofInt_toNat, UInt8.toNat_toUInt32]
    omega
  unfold IPAddress.fromString
  rw [h.scanned]
  dsimp only
  rw [hoctet, hoctet, hoctet, hoctet]
  rfl

/-- An address is printed in full, as its four octets in order; it is read back, and no other address
is printed like it. -/
theorem toString_roundTrip (m : UInt32) :
    (printed ⟨m⟩).length < 16 ∧
    fromString (toString ⟨m⟩) = ⟨m⟩ ∧
    (∃ a b c d, index ⟨m⟩ 0 = some a ∧ index ⟨m⟩ 1 = some b ∧ index ⟨m⟩ 2 = some c ∧
      index ⟨m⟩ 3 = some d ∧ toString ⟨m⟩ =
        decimal a.toNat ++ dot :: (decimal b.toNat ++ dot :: (decimal c.toNat ++ dot :: decimal d.toNat))) ∧
    ∀ m', toString ⟨m'⟩ = toString ⟨m⟩ → m' = m := by
  have hread : ∀ self : IPAddress, fromString self.toString = self := by
    intro self
    obtain ⟨a, b, c, d, rfl⟩ := self.exists_octets
    exact (toString_dotted a b c d).fromString
  refine ⟨Nat.lt_succ_of_le (printed_length ⟨m⟩), hread ⟨m⟩, ?_, ?_⟩
  · obtain ⟨a, b, c, d, hoctets⟩ := exists_octets ⟨m⟩
    obtain ⟨ha, hb, hc, hd⟩ := ofOctets_index a b c d
    rw [hoctets]
    exact ⟨a, b, c, d, ha, hb, hc, hd, (toString_eq _).trans (printed_ofOctets a b c d)⟩
  · intro m' h
    have hsame : (⟨m'⟩ : IPAddress) = ⟨m⟩ := by
      rw [← hread ⟨m'⟩, h, hread ⟨m⟩]
    exact congrArg m_addr hsame

end IPAddress
