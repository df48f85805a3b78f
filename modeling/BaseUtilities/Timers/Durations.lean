import Mathlib.Algebra.Group.Nat.Defs
import Mathlib.Algebra.Order.Floor.Semiring
import Mathlib.Data.Rat.Floor

/-!
# Durations

`std::chrono` durations and their conversion to milliseconds.  A duration counts periods in a type of
its own, and the conversion computes in that type, or in 64 bits where that is a smaller integer type.
An unsigned count of 64 bits wraps there, and a signed one has no value; a floating-point count is
rounded.
-/

namespace Timers

/-- `std::ratio<num, den>` of a second. -/
structure Period where
  num : Nat
  den : Nat
  num_pos : 0 < num
  den_pos : 0 < den
  num_lt : num < 2 ^ 63
  den_lt : den < 2 ^ 63

namespace Period

variable (period : Period)

/-- `std::ratio_divide<Period, std::milli>`: what the conversion multiplies by. -/
def cf_num : Nat := period.num * 1000 / Nat.gcd (period.num * 1000) period.den

/-- What it divides by. -/
def cf_den : Nat := period.den / Nat.gcd (period.num * 1000) period.den

theorem gcd_pos : 0 < Nat.gcd (period.num * 1000) period.den :=
  Nat.gcd_pos_of_pos_right _ period.den_pos

theorem cf_den_pos : 0 < period.cf_den :=
  Nat.div_pos (Nat.le_of_dvd period.den_pos (Nat.gcd_dvd_right _ _)) period.gcd_pos

theorem cf_den_lt : period.cf_den < 2 ^ 63 :=
  Nat.lt_of_le_of_lt (Nat.div_le_self _ _) period.den_lt

/-- The ratio in lowest terms is that of the periods. -/
theorem cf_div (count : Nat) :
    count * period.cf_num / period.cf_den = count * period.num * 1000 / period.den := by
  have hnum := Nat.div_mul_cancel (Nat.gcd_dvd_left (period.num * 1000) period.den)
  have hden := Nat.div_mul_cancel (Nat.gcd_dvd_right (period.num * 1000) period.den)
  symm
  calc count * period.num * 1000 / period.den
      = count * period.cf_num * Nat.gcd (period.num * 1000) period.den /
          (period.cf_den * Nat.gcd (period.num * 1000) period.den) := by
        unfold cf_num cf_den
        rw [hden, Nat.mul_assoc count (_ / _), hnum, Nat.mul_assoc]
    _ = _ := Nat.mul_div_mul_right _ _ period.gcd_pos

/-- `std::milli` -/
def milli : Period := ⟨1, 1000, by decide, by decide, by decide, by decide⟩

theorem milli_cf_num : milli.cf_num = 1 := rfl

theorem milli_cf_den : milli.cf_den = 1 := rfl

end Period

/-- A type of durations with `std::chrono::duration_cast<std::chrono::milliseconds>(d).count()`, an
`int64_t`.  There is no value where the conversion is undefined. -/
class Chrono (D : Type) where
  duration_cast : D → Option Int

open Chrono (duration_cast)

/-! ## Integer counts -/

/-- What `duration_cast` computes in: `uint64_t` for counts of that type, `int64_t` for those of any
other integer type. -/
inductive Rep where
  | signed
  | unsigned
  deriving DecidableEq, Repr

def Rep.bound : Rep → Nat
  | .signed => 2 ^ 63
  | .unsigned => 2 ^ 64

/-- `std::chrono::duration` of any integer type, not negative. -/
structure Duration where
  rep : Rep
  period : Period
  count : Nat
  count_lt : count < rep.bound

namespace Duration

/-- Durations of any two types are compared as fractions of a second. -/
instance : LE Duration where
  le d₁ d₂ := d₁.count * d₁.period.num * d₂.period.den ≤ d₂.count * d₂.period.num * d₁.period.den

section

variable (d : Duration)

/-- The whole milliseconds of a duration. -/
def milliseconds : Nat := d.count * d.period.num * 1000 / d.period.den

/-- The count in the period of the conversion, before it is divided. -/
def product : Nat := d.count * d.period.cf_num

/-- What becomes of the milliseconds where the product wraps at 64 bits. -/
def wrapped : Nat := d.product % 2 ^ 64 / d.period.cf_den

/-- The conversion is defined: a signed product does not overflow. -/
def Defined : Prop := d.rep = .signed → d.product < 2 ^ 63

/-- The product keeps to the type it is computed in. -/
def Lossless : Prop := d.product < d.rep.bound

end

instance : Chrono Duration where
  duration_cast d :=
    match d.rep with
    | .signed => if d.product < 2 ^ 63 then some (d.product / d.period.cf_den : Nat) else none
    | .unsigned => some (Int64.ofNat (d.product % 2 ^ 64 / d.period.cf_den)).toInt

variable {d d₁ d₂ d₃ : Duration} {n : Nat}

theorem product_div (d : Duration) : d.product / d.period.cf_den = d.milliseconds :=
  d.period.cf_div d.count

theorem wrapped_le (d : Duration) : d.wrapped ≤ d.milliseconds := by
  rw [← d.product_div]
  exact Nat.div_le_div_right (Nat.mod_le _ _)

/-- A product that wraps comes to fewer milliseconds, as no divisor is as large as what is lost. -/
theorem wrapped_lt (h : 2 ^ 64 ≤ d.product) : d.wrapped < d.milliseconds := by
  have hden := d.period.cf_den_pos
  have hlt := d.period.cf_den_lt
  have hmod := Nat.mod_add_div d.product (2 ^ 64)
  have hquot : 1 ≤ d.product / 2 ^ 64 := (Nat.one_le_div_iff (by decide)).mpr h
  rw [← d.product_div]
  calc d.wrapped < d.product % 2 ^ 64 / d.period.cf_den + 1 := Nat.lt_succ_self _
    _ = (d.product % 2 ^ 64 + d.period.cf_den) / d.period.cf_den := (Nat.add_div_right _ hden).symm
    _ ≤ d.product / d.period.cf_den := Nat.div_le_div_right (by omega)

theorem lossless_iff : d.Lossless ↔ d.Defined ∧ d.wrapped = d.milliseconds := by
  have hkept (h : d.product < 2 ^ 64) : d.wrapped = d.milliseconds := by
    rw [wrapped, Nat.mod_eq_of_lt h, product_div]
  unfold Lossless Defined
  cases hrep : d.rep with
  | signed =>
    constructor
    · intro h
      exact ⟨fun _ => h, hkept (Nat.lt_trans h (by decide))⟩
    · intro h
      exact h.1 rfl
  | unsigned =>
    constructor
    · intro h
      exact ⟨nofun, hkept h⟩
    · intro h
      by_contra hle
      exact absurd h.2 (Nat.ne_of_lt (wrapped_lt (Nat.le_of_not_lt hle)))

theorem cast_isSome_iff : (duration_cast d).isSome ↔ d.Defined := by
  unfold Defined
  simp only [duration_cast]
  cases d.rep with
  | signed =>
    dsimp only
    split
    · next h => exact ⟨fun _ _ => h, fun _ => rfl⟩
    · next h => exact ⟨nofun, fun hdefined => absurd (hdefined rfl) h⟩
  | unsigned => exact ⟨fun _ => nofun, fun _ => rfl⟩

/-- Where the milliseconds are in range, the conversion gives the wrapped ones. -/
theorem cast_eq (hdefined : d.Defined) (hrange : d.milliseconds < 2 ^ 63) :
    duration_cast d = some (d.wrapped : Int) := by
  unfold Defined at hdefined
  simp only [duration_cast]
  cases hrep : d.rep with
  | signed =>
    have hproduct := hdefined hrep
    dsimp only
    rw [if_pos hproduct, wrapped, Nat.mod_eq_of_lt (Nat.lt_trans hproduct (by decide))]
  | unsigned =>
    have hwrapped : d.wrapped < 2 ^ 63 := Nat.lt_of_le_of_lt d.wrapped_le hrange
    exact congrArg some (Int64.toInt_ofNat_of_lt hwrapped)

/-- Narrowed to 32 bits, the conversion gives what is left of the wrapped milliseconds. -/
theorem cast_narrowed (d : Duration) {ms : Int} (h : duration_cast d = some ms) :
    (UInt32.ofInt ms).toNat = d.wrapped % 2 ^ 32 := by
  have hmod : ms % 2 ^ 32 = (d.wrapped : Int) % 2 ^ 32 := by
    simp only [duration_cast] at h
    cases hrep : d.rep with
    | signed =>
      rw [hrep] at h
      dsimp only at h
      split at h
      · next hproduct =>
        rw [← Option.some.inj h, wrapped, Nat.mod_eq_of_lt (Nat.lt_trans hproduct (by decide))]
      · cases h
    | unsigned =>
      rw [hrep] at h
      rw [← Option.some.inj h, Int64.toInt_ofNat', ← Int.emod_emod_of_dvd _ (by decide : (2 : Int) ^ 32 ∣ Int64.size),
        Int.bmod_emod, Int.emod_emod_of_dvd _ (by decide)]
      rfl
  rw [UInt32.ofInt, hmod, UInt32.toNat_ofNat']
  omega

theorem le_trans (h₁₂ : d₁ ≤ d₂) (h₂₃ : d₂ ≤ d₃) : d₁ ≤ d₃ := by
  have h₁₂ : d₁.count * d₁.period.num * d₂.period.den ≤ d₂.count * d₂.period.num * d₁.period.den := h₁₂
  have h₂₃ : d₂.count * d₂.period.num * d₃.period.den ≤ d₃.count * d₃.period.num * d₂.period.den := h₂₃
  show d₁.count * d₁.period.num * d₃.period.den ≤ d₃.count * d₃.period.num * d₁.period.den
  apply Nat.le_of_mul_le_mul_right _ d₂.period.den_pos
  calc d₁.count * d₁.period.num * d₃.period.den * d₂.period.den
      = d₁.count * d₁.period.num * d₂.period.den * d₃.period.den := Nat.mul_right_comm _ _ _
    _ ≤ d₂.count * d₂.period.num * d₁.period.den * d₃.period.den := Nat.mul_le_mul_right _ h₁₂
    _ = d₂.count * d₂.period.num * d₃.period.den * d₁.period.den := Nat.mul_right_comm _ _ _
    _ ≤ d₃.count * d₃.period.num * d₂.period.den * d₁.period.den := Nat.mul_le_mul_right _ h₂₃
    _ = d₃.count * d₃.period.num * d₁.period.den * d₂.period.den := Nat.mul_right_comm _ _ _

theorem milliseconds_mono (h : d₁ ≤ d₂) : d₁.milliseconds ≤ d₂.milliseconds := by
  have hle : d₁.count * d₁.period.num * d₂.period.den ≤ d₂.count * d₂.period.num * d₁.period.den := h
  unfold milliseconds
  rw [Nat.le_div_iff_mul_le d₂.period.den_pos]
  apply Nat.le_of_mul_le_mul_right _ d₁.period.den_pos
  calc d₁.count * d₁.period.num * 1000 / d₁.period.den * d₂.period.den * d₁.period.den
      = d₁.count * d₁.period.num * 1000 / d₁.period.den * d₁.period.den * d₂.period.den :=
        Nat.mul_right_comm _ _ _
    _ ≤ d₁.count * d₁.period.num * 1000 * d₂.period.den :=
        Nat.mul_le_mul_right _ (Nat.div_mul_le_self _ _)
    _ = d₁.count * d₁.period.num * d₂.period.den * 1000 := Nat.mul_right_comm _ _ _
    _ ≤ d₂.count * d₂.period.num * d₁.period.den * 1000 := Nat.mul_le_mul_right _ hle
    _ = d₂.count * d₂.period.num * 1000 * d₁.period.den := Nat.mul_right_comm _ _ _

/-- `std::chrono::milliseconds` -/
def ofMilliseconds (n : Nat) (h : n < 2 ^ 63) : Duration :=
  ⟨.signed, .milli, n, h⟩

theorem ofMilliseconds_cast (h : n < 2 ^ 63) : duration_cast (ofMilliseconds n h) = some (n : Int) := by
  -- A count of milliseconds is multiplied and divided by 1.
  simp only [duration_cast, ofMilliseconds, product, Period.milli_cf_num, Period.milli_cf_den,
    Nat.mul_one, Nat.div_one]
  exact if_pos h

theorem ofMilliseconds_le_iff (h : n < 2 ^ 63) : ofMilliseconds n h ≤ d ↔ n ≤ d.milliseconds := by
  have hle : ofMilliseconds n h ≤ d ↔ n * 1 * d.period.den ≤ d.count * d.period.num * 1000 := Iff.rfl
  rw [hle, Nat.mul_one]
  unfold milliseconds
  rw [Nat.le_div_iff_mul_le d.period.den_pos]

theorem ofMilliseconds_mono {m : Nat} (hm : m < 2 ^ 63) (hn : n < 2 ^ 63) (h : m ≤ n) :
    ofMilliseconds m hm ≤ ofMilliseconds n hn :=
  Nat.mul_le_mul_right _ (Nat.mul_le_mul_right _ h)

end Duration

/-- The integer durations that a program uses, those in milliseconds among them. -/
structure Durations where
  used : Duration → Prop
  milliseconds : ∀ n h, used (.ofMilliseconds n h)

namespace Durations

variable (S : Durations) (limit : Duration)

/-- All that are used up to `limit` have a conversion. -/
def Defined : Prop := ∀ d, S.used d → d ≤ limit → d.Defined

/-- The products of all that are used up to `limit` keep to their types. -/
def Lossless : Prop := ∀ d, S.used d → d ≤ limit → d.Lossless

/-- The conversion is defined, and what the products of all that are used up to `limit` lose leaves the
same `f`. -/
def Kept (f : Nat → Nat) : Prop :=
  ∀ d, S.used d → d ≤ limit → d.Defined ∧ f d.wrapped = f d.milliseconds

theorem lossless_iff_kept : S.Lossless limit ↔ S.Kept limit id :=
  forall₃_congr fun _ _ _ => Duration.lossless_iff

end Durations

/-! ## Floating-point counts -/

/-- A floating-point type, by the rounding of its operations. -/
structure Floating where
  round : ℚ → ℚ
  round_zero : round 0 = 0
  round_mono : Monotone round

/-- `std::chrono::duration` of a floating-point type, not negative. -/
structure FloatDuration (F : Floating) (period : Period) where
  count : ℚ
  nonneg : 0 ≤ count
  representable : F.round count = count

namespace FloatDuration

variable {F : Floating} {period : Period}

instance : LE (FloatDuration F period) where
  le d₁ d₂ := d₁.count ≤ d₂.count

/-- The milliseconds of a duration as its type computes them. -/
def milliseconds (d : FloatDuration F period) : ℚ :=
  F.round (F.round (d.count * F.round period.cf_num) / F.round period.cf_den)

instance : Chrono (FloatDuration F period) where
  duration_cast d := if d.milliseconds < 2 ^ 63 then some (⌊d.milliseconds⌋₊ : Int) else none

variable {d₁ d₂ d₃ : FloatDuration F period}

theorem le_trans (h₁₂ : d₁ ≤ d₂) (h₂₃ : d₂ ≤ d₃) : d₁ ≤ d₃ :=
  Rat.le_trans h₁₂ h₂₃

theorem round_nonneg {x : ℚ} (h : 0 ≤ x) : 0 ≤ F.round x := by
  rw [← F.round_zero]
  exact F.round_mono h

theorem milliseconds_mono (h : d₁ ≤ d₂) : d₁.milliseconds ≤ d₂.milliseconds := by
  have hle : d₁.count ≤ d₂.count := h
  have hnum : 0 ≤ F.round period.cf_num := round_nonneg (Nat.cast_nonneg _)
  have hden : 0 ≤ F.round period.cf_den := round_nonneg (Nat.cast_nonneg _)
  unfold milliseconds
  apply F.round_mono
  apply div_le_div_of_nonneg_right _ hden
  apply F.round_mono
  exact mul_le_mul_of_nonneg_right hle hnum

theorem cast_eq (d : FloatDuration F period) (h : ⌊d.milliseconds⌋₊ < 2 ^ 63) :
    duration_cast d = some (⌊d.milliseconds⌋₊ : Int) := by
  have hlt : d.milliseconds < 2 ^ 63 := by
    have := (Nat.floor_lt' (by decide)).mp h
    exact_mod_cast this
  exact if_pos hlt

end FloatDuration

end Timers
