import BaseUtilities.Timers.DelayExec
import BaseUtilities.Timers.Durations

/-!
# Delays as durations

The functions of `DelayExec.hpp` and `Timer.hpp` that take a `std::chrono` duration, and the literals.
Each converts to milliseconds, narrows to 32 bits on the way, and hands a count to FreeRTOS or to a
`Ticker`.  The counts follow the durations up to the first one whose milliseconds, or ticks, leave 32
bits or whose conversion wraps, and no further; a delay below one tick gives the period 0, which
`xTimerCreate` does not take.
-/

open Effects

namespace Timers

open Chrono (duration_cast)

/-- `configTICK_RATE_HZ` -/
structure TickRate where
  hz : Nat
  pos : 1 ≤ hz
  le : hz ≤ 1000

/-- `pdMS_TO_TICKS` -/
def pdMS_TO_TICKS (rate : TickRate) (ms : Int) : UInt32 := UInt32.ofInt (ms * rate.hz / 1000)

/-! ## The functions -/

/-- Calls that wait: of a task, and of a `Ticker`. -/
inductive WaitOp where
  | vTaskDelay (ticks : UInt32)
  | attach_ms (milliseconds : UInt64)
  | once_ms (milliseconds : UInt64)
  deriving DecidableEq

abbrev WaitOp.Res : WaitOp → Type := fun _ => Unit

abbrev WaitCode (α : Type) := Prog WaitOp WaitOp.Res α

section

variable {D : Type} [Chrono D] (rate : TickRate)

/-- `delay_exec` of a duration. -/
def delay_exec_duration (callback : Bool) (delay : D) : Code Bool := do
  let ms ← Prog.ofOption (duration_cast delay)
  delay_exec (fun ms => pdMS_TO_TICKS rate ms.toNat) callback (UInt32.ofInt ms)

/-- `delay` of a duration. -/
def delay (d : D) : WaitCode Unit := do
  let ms ← Prog.ofOption (duration_cast d)
  Prog.perform (.vTaskDelay (pdMS_TO_TICKS rate ms))

/-- `operator""_ms_ticks` -/
def literal_ms_ticks (ms : UInt64) : UInt32 := pdMS_TO_TICKS rate ms.toUInt32.toNat

/-- `operator""_s_ticks` -/
def literal_s_ticks (s : UInt64) : UInt32 := pdMS_TO_TICKS rate (s * 1000).toUInt32.toNat

/-- `operator""_ms` -/
def literal_ms (ms : UInt64) : UInt32 := pdMS_TO_TICKS rate ms.toUInt32.toNat

/-- `operator""_s` -/
def literal_s (s : UInt64) : UInt32 := pdMS_TO_TICKS rate (s * 1000).toUInt32.toNat

end

/-- `Timer`; the pointer may be null. -/
structure Timer where
  m_ticker : Bool
  deriving DecidableEq

namespace Timer

/-- `Timer::start_periodic` -/
def start_periodic_ms (self : Timer) (period_ms : UInt32) : WaitCode Bool := do
  if self.m_ticker then
    Prog.perform (.attach_ms period_ms.toUInt64)
    return true
  else
    return false

/-- `Timer::start_once` -/
def start_once_ms (self : Timer) (delay_ms : UInt32) : WaitCode Bool := do
  if self.m_ticker then
    Prog.perform (.once_ms delay_ms.toUInt64)
    return true
  else
    return false

/-- `Timer::start_periodic` of a duration. -/
def start_periodic {D : Type} [Chrono D] (self : Timer) (period : D) : WaitCode Bool := do
  let ms ← Prog.ofOption (duration_cast period)
  self.start_periodic_ms (UInt32.ofInt ms)

/-- `Timer::start_once` of a duration. -/
def start_once {D : Type} [Chrono D] (self : Timer) (delay : D) : WaitCode Bool := do
  let ms ← Prog.ofOption (duration_cast delay)
  self.start_once_ms (UInt32.ofInt ms)

end Timer

/-! ## What is handed over -/

/-- The count of a call to FreeRTOS. -/
def Op.count : Op → Option Nat
  | .xTimerCreate xTimerPeriodInTicks _ => some xTimerPeriodInTicks.toNat
  | _ => none

/-- The count of a call to FreeRTOS or a `Ticker`. -/
def WaitOp.count : WaitOp → Option Nat
  | .vTaskDelay ticks => some ticks.toNat
  | .attach_ms milliseconds => some milliseconds.toNat
  | .once_ms milliseconds => some milliseconds.toNat

section

variable {Op : Type} {Res : Op → Type} {α : Type}

/-- A run of `p` comes to a call with the count `n`. -/
def Hands (count : Op → Option Nat) (p : Prog Op Res α) (n : Nat) : Prop :=
  ∃ op t, Exec recording p [] (.stopped (.asking op)) t ∧ count op = some n

/-- No run of `p` comes to undefined behaviour. -/
def Defined (p : Prog Op Res α) : Prop := ∀ t, ¬Exec recording p [] (.stopped .fault) t

/-- Among the durations `used` up to `limit`, each is taken and none is handed over as a smaller count
than a shorter one. -/
def MonotoneUpTo {D : Type} [LE D] (used : D → Prop) (limit : D) (count : Op → Option Nat)
    (p : D → Prog Op Res α) : Prop :=
  ∀ d, used d → d ≤ limit → Defined (p d) ∧
    ∀ d₁ n₁ n, used d₁ → d₁ ≤ d → Hands count (p d₁) n₁ → Hands count (p d) n → n₁ ≤ n

/-- `p` hands over `g` of the milliseconds of its argument, once they have a value. -/
structure HandsOver {D : Type} [Chrono D] (count : Op → Option Nat) (p : D → Prog Op Res α)
    (g : Int → Nat) : Prop where
  hands : ∀ d n, Hands count (p d) n ↔ ∃ ms, duration_cast d = some ms ∧ n = g ms
  defined : ∀ d, Defined (p d) ↔ (duration_cast d).isSome

/-- Calls with the count `m`, and no others with a count, whichever way a program goes on. -/
structure Counts (count : Op → Option Nat) (p : Prog Op Res α) (m : Nat) : Prop where
  hands : ∀ n, Hands count p n ↔ n = m
  defined : Defined p

section

variable {D : Type} [Chrono D] {f : Int → Prog Op Res α}

/-- A program that converts a duration and goes on is defined where the conversion is. -/
theorem defined_cast (hf : ∀ ms, Defined (f ms)) (d : D) :
    Defined (Prog.ofOption (duration_cast d) >>= f) ↔ (duration_cast d).isSome := by
  cases duration_cast d with
  | none =>
    rw [Prog.ofOption_none, Prog.fault_bind]
    constructor
    · intro h
      exact absurd ⟨rfl, rfl⟩ (h [])
    · intro h
      cases h
  | some ms =>
    rw [Prog.ofOption_some, Prog.ret_bind]
    exact ⟨fun _ => rfl, fun _ => hf ms⟩

/-- It hands over what it goes on with. -/
theorem hands_cast {count : Op → Option Nat} (d : D) (n : Nat) :
    Hands count (Prog.ofOption (duration_cast d) >>= f) n ↔
      ∃ ms, duration_cast d = some ms ∧ Hands count (f ms) n := by
  cases duration_cast d with
  | none =>
    rw [Prog.ofOption_none, Prog.fault_bind]
    constructor
    · intro h
      obtain ⟨op, t, hrun, -⟩ := h
      have hfault : Outcome.stopped (Stop.asking op) = Outcome.stopped Stop.fault := hrun.1
      cases hfault
    · intro h
      obtain ⟨ms, hms, -⟩ := h
      cases hms
  | some ms =>
    rw [Prog.ofOption_some, Prog.ret_bind]
    constructor
    · intro h
      exact ⟨ms, rfl, h⟩
    · intro h
      obtain ⟨ms', hms, h⟩ := h
      rw [Option.some.inj hms]
      exact h

theorem handsOver_cast {count : Op → Option Nat} {g : Int → Nat} (hf : ∀ ms, Counts count (f ms) (g ms)) :
    HandsOver count (fun d : D => Prog.ofOption (duration_cast d) >>= f) g where
  hands d n := by
    rw [hands_cast]
    exact exists_congr fun ms => and_congr_right fun _ => (hf ms).hands n
  defined := defined_cast fun ms => (hf ms).defined

end

end

/-- `g` is `f`, which grows, up to `bound`, and falls there. -/
structure FallsAt (g f : Nat → Nat) (bound : Nat) : Prop where
  follows : ∀ n, n < bound → g n = f n
  mono : ∀ m n, m ≤ n → f m ≤ f n
  falls : g bound < g (bound - 1)

namespace FallsAt

variable {g f : Nat → Nat} {bound : Nat}

theorem mono_below (h : FallsAt g f bound) {m n : Nat} (hmn : m ≤ n) (hn : n < bound) : g m ≤ g n := by
  rw [h.follows m (by omega), h.follows n hn]
  exact h.mono m n hmn

section

variable {Op : Type} {Res : Op → Type} {α : Type} {count : Op → Option Nat} {g : Int → Nat}

/-- What is handed over follows the durations exactly below the fall, and as long as what a conversion
loses does not show. -/
theorem monotoneUpTo_iff {p : Duration → Prog Op Res α} (h : FallsAt (fun n => g n) f bound)
    (hp : HandsOver count p g) (hbound : bound < 2 ^ 63) (S : Durations) (limit : Duration) :
    MonotoneUpTo S.used limit count p ↔ limit.milliseconds < bound ∧ S.Kept limit f := by
  -- The count that a duration below the fall is handed over as.
  have hcount {d : Duration} {n : Nat} (hdefined : d.Defined) (hlow : d.milliseconds < bound)
      (hn : Hands count (p d) n) : n = f d.wrapped := by
    obtain ⟨ms, hms, rfl⟩ := (hp.hands d n).mp hn
    rw [Duration.cast_eq hdefined (by omega)] at hms
    rw [← Option.some.inj hms]
    exact h.follows _ (Nat.lt_of_le_of_lt d.wrapped_le hlow)
  have hmilli {n : Nat} (hn : n < 2 ^ 63) : Hands count (p (.ofMilliseconds n hn)) (g n) :=
    (hp.hands _ _).mpr ⟨_, Duration.ofMilliseconds_cast hn, rfl⟩
  constructor
  · intro hmono
    have hlow : limit.milliseconds < bound := by
      by_contra hle
      -- the fall itself is a pair of milliseconds
      have hfall := (hmono (.ofMilliseconds bound hbound) (S.milliseconds _ _)
        ((Duration.ofMilliseconds_le_iff hbound).mpr (by omega))).2
        (.ofMilliseconds (bound - 1) (by omega)) _ _ (S.milliseconds _ _)
        (Duration.ofMilliseconds_mono _ _ (by omega)) (hmilli _) (hmilli _)
      have := h.falls
      omega
    refine ⟨hlow, fun d hd hlimit => ?_⟩
    have hdefined : d.Defined :=
      Duration.cast_isSome_iff.mp ((hp.defined d).mp (hmono d hd hlimit).1)
    have hms : d.milliseconds < bound :=
      Nat.lt_of_le_of_lt (Duration.milliseconds_mono hlimit) hlow
    -- The duration of its own milliseconds is no longer than `d`.
    have hle := (hmono d hd hlimit).2 (.ofMilliseconds d.milliseconds (by omega)) _ _
      (S.milliseconds _ _) ((Duration.ofMilliseconds_le_iff _).mpr (Nat.le_refl _)) (hmilli _)
      ((hp.hands d _).mpr ⟨_, Duration.cast_eq hdefined (by omega), rfl⟩)
    have hfollows : g d.milliseconds = f d.milliseconds := h.follows _ hms
    have hwrapped : g d.wrapped = f d.wrapped := h.follows _ (Nat.lt_of_le_of_lt d.wrapped_le hms)
    have hmono' := h.mono _ _ d.wrapped_le
    exact ⟨hdefined, by omega⟩
  · rintro ⟨hlow, hkept⟩ d hd hlimit
    have hms : d.milliseconds < bound :=
      Nat.lt_of_le_of_lt (Duration.milliseconds_mono hlimit) hlow
    obtain ⟨hdefined, heq⟩ := hkept d hd hlimit
    refine ⟨(hp.defined d).mpr (Duration.cast_isSome_iff.mpr hdefined), ?_⟩
    intro d₁ n₁ n hd₁ hle h₁ hn
    have hms₁ := Duration.milliseconds_mono hle
    obtain ⟨hdefined₁, heq₁⟩ := hkept d₁ hd₁ (Duration.le_trans hle hlimit)
    rw [hcount hdefined₁ (by omega) h₁, hcount hdefined hms hn, heq₁, heq]
    exact h.mono _ _ hms₁

/-- Durations of one floating-point type are followed as far as their milliseconds are. -/
theorem floating_monotone {F : Floating} {period : Period} {p : FloatDuration F period → Prog Op Res α}
    (h : FallsAt (fun n => g n) f bound) (hp : HandsOver count p g) (hbound : bound < 2 ^ 63)
    (limit : FloatDuration F period) (hlow : ⌊limit.milliseconds⌋₊ < bound) :
    MonotoneUpTo (fun _ => True) limit count p := by
  have hms {d : FloatDuration F period} (hd : d ≤ limit) : ⌊d.milliseconds⌋₊ < bound :=
    Nat.lt_of_le_of_lt (Nat.floor_le_floor (FloatDuration.milliseconds_mono hd)) hlow
  have hcast {d : FloatDuration F period} (hd : d ≤ limit) := d.cast_eq (Nat.lt_trans (hms hd) hbound)
  rintro d - hd
  refine ⟨(hp.defined d).mpr (Option.isSome_iff_exists.mpr ⟨_, hcast hd⟩), ?_⟩
  intro d₁ n₁ n _ hle h₁ hn
  have hd₁ : d₁ ≤ limit := FloatDuration.le_trans hle hd
  obtain ⟨ms₁, hms₁, rfl⟩ := (hp.hands d₁ n₁).mp h₁
  obtain ⟨ms, hms', rfl⟩ := (hp.hands d n).mp hn
  rw [hcast hd₁] at hms₁
  rw [hcast hd] at hms'
  rw [← Option.some.inj hms₁, ← Option.some.inj hms']
  exact h.mono_below (Nat.floor_le_floor (FloatDuration.milliseconds_mono hle)) (hms hd)

end

/-- The same for a literal of 64 bits. -/
theorem literal_iff {literal : UInt64 → UInt32} (h : FallsAt g f bound)
    (hliteral : ∀ a, (literal a).toNat = g a.toNat) (hbound : bound < 2 ^ 64) (limit : UInt64) :
    (∀ a b, a ≤ b → b ≤ limit → literal a ≤ literal b) ↔ limit.toNat < bound := by
  have hle : ∀ a b, literal a ≤ literal b ↔ g a.toNat ≤ g b.toNat := by
    intro a b
    rw [UInt32.le_iff_toNat_le, hliteral, hliteral]
  constructor
  · intro hmono
    by_contra hlimit
    have hnat : ∀ m, m ≤ bound → (UInt64.ofNat m).toNat = m := by
      intro m hm
      rw [UInt64.toNat_ofNat']
      exact Nat.mod_eq_of_lt (by omega)
    have hfall := (hle _ _).mp (hmono (.ofNat (bound - 1)) (.ofNat bound)
      (by rw [UInt64.le_iff_toNat_le, hnat _ (by omega), hnat _ (Nat.le_refl _)]; omega)
      (by rw [UInt64.le_iff_toNat_le, hnat _ (Nat.le_refl _)]; omega))
    rw [hnat _ (by omega), hnat _ (Nat.le_refl _)] at hfall
    have := h.falls
    omega
  · intro hlimit a b hab hb
    rw [hle]
    rw [UInt64.le_iff_toNat_le] at hab hb
    exact h.mono_below hab (by omega)

end FallsAt

/-! ## The counts -/

variable {rate : TickRate}

/-- The conversion to 32 bits keeps what is left of a natural number. -/
theorem ofInt_natCast (n : Nat) : UInt32.ofInt n = UInt32.ofNat n := by
  apply UInt32.toNat_inj.mp
  rw [UInt32.ofInt, UInt32.toNat_ofNat', UInt32.toNat_ofNat']
  omega

theorem pdMS_TO_TICKS_toNat (rate : TickRate) (n : Nat) :
    (pdMS_TO_TICKS rate n).toNat = n * rate.hz / 1000 % 2 ^ 32 := by
  have hticks : (n : Int) * rate.hz / 1000 = (n * rate.hz / 1000 : Nat) := rfl
  unfold pdMS_TO_TICKS
  rw [hticks, ofInt_natCast, UInt32.toNat_ofNat']

/-- At most one tick is a millisecond. -/
theorem ticks_le (rate : TickRate) (n : Nat) : n * rate.hz / 1000 ≤ n := by
  apply Nat.div_le_of_le_mul
  rw [Nat.mul_comm 1000]
  exact Nat.mul_le_mul_left n rate.le

theorem ticks_mono (rate : TickRate) {m n : Nat} (h : m ≤ n) :
    m * rate.hz / 1000 ≤ n * rate.hz / 1000 :=
  Nat.div_le_div_right (Nat.mul_le_mul_right _ h)

/-- Milliseconds that are narrowed to 32 bits. -/
theorem narrowed_falls : FallsAt (fun n => (UInt32.ofInt n).toNat) id (2 ^ 32) where
  follows n hn := by
    rw [ofInt_natCast, UInt32.toNat_ofNat', Nat.mod_eq_of_lt hn, id]
  mono m n hmn := hmn
  falls := by decide

/-- Ticks of narrowed milliseconds. -/
theorem narrowed_ticks_falls (rate : TickRate) :
    FallsAt (fun n => (pdMS_TO_TICKS rate (UInt32.ofInt n).toNat).toNat) (fun n => n * rate.hz / 1000)
      (2 ^ 32) where
  follows n hn := by
    rw [ofInt_natCast, pdMS_TO_TICKS_toNat, UInt32.toNat_ofNat', Nat.mod_eq_of_lt hn,
      Nat.mod_eq_of_lt (Nat.lt_of_le_of_lt (ticks_le rate n) hn)]
  mono m n hmn := ticks_mono rate hmn
  falls := by
    rw [ofInt_natCast, ofInt_natCast, pdMS_TO_TICKS_toNat, pdMS_TO_TICKS_toNat, UInt32.toNat_ofNat',
      UInt32.toNat_ofNat', Nat.mod_self, Nat.zero_mul, Nat.zero_div, Nat.zero_mod]
    rw [Nat.mod_eq_of_lt (show 2 ^ 32 - 1 < 2 ^ 32 by decide)]
    have hle := ticks_le rate (2 ^ 32 - 1)
    have hpos : 1 ≤ (2 ^ 32 - 1) * rate.hz / 1000 := by
      have := rate.pos
      omega
    rw [Nat.mod_eq_of_lt (by omega)]
    omega

/-- The first number of milliseconds whose ticks leave 32 bits. -/
def TickRate.wrap (rate : TickRate) : Nat := (2 ^ 32 * 1000 + rate.hz - 1) / rate.hz

theorem lt_wrap_iff (rate : TickRate) (n : Nat) : n < rate.wrap ↔ n * rate.hz / 1000 < 2 ^ 32 := by
  unfold TickRate.wrap
  have hpos := rate.pos
  rw [← Nat.succ_le_iff, Nat.le_div_iff_mul_le (by omega), Nat.succ_mul, Nat.div_lt_iff_lt_mul (by decide)]
  omega

/-- Ticks that are not narrowed before. -/
theorem ticks_falls (rate : TickRate) :
    FallsAt (fun n => (pdMS_TO_TICKS rate n).toNat) (fun n => n * rate.hz / 1000) rate.wrap where
  follows n hn := by
    rw [pdMS_TO_TICKS_toNat, Nat.mod_eq_of_lt ((lt_wrap_iff rate n).mp hn)]
  mono m n hmn := ticks_mono rate hmn
  falls := by
    -- the ticks before the wrap are `2 ^ 32 - 1`, as one more millisecond is one tick at most
    have hpos := rate.pos
    have hle := rate.le
    have hwrap : 2 ^ 32 ≤ rate.wrap * rate.hz / 1000 := by
      by_contra hlt
      exact absurd ((lt_wrap_iff rate rate.wrap).mpr (by omega)) (Nat.lt_irrefl _)
    have hone : 1 ≤ rate.wrap := by
      by_contra hzero
      rw [show rate.wrap = 0 by omega] at hwrap
      simp at hwrap
    have hbefore : (rate.wrap - 1) * rate.hz / 1000 < 2 ^ 32 :=
      (lt_wrap_iff rate _).mp (by omega)
    have hstep : rate.wrap * rate.hz = (rate.wrap - 1) * rate.hz + rate.hz := by
      rw [Nat.sub_mul, Nat.one_mul]
      have : rate.hz ≤ rate.wrap * rate.hz := Nat.le_mul_of_pos_left _ hone
      omega
    rw [pdMS_TO_TICKS_toNat, pdMS_TO_TICKS_toNat]
    omega

theorem wrap_lt (rate : TickRate) : rate.wrap < 2 ^ 63 := by
  unfold TickRate.wrap
  have hpos := rate.pos
  have hle := rate.le
  apply Nat.lt_of_le_of_lt (Nat.div_le_self _ _)
  omega

/-- Ticks of seconds whose milliseconds are narrowed. -/
theorem seconds_falls (rate : TickRate) :
    FallsAt (fun n => (pdMS_TO_TICKS rate (n * 1000 % 2 ^ 64 % 2 ^ 32 : Nat)).toNat)
      (fun n => n * 1000 * rate.hz / 1000) 4294968 where
  follows n hn := by
    have hms : n * 1000 < 2 ^ 32 := by omega
    rw [Nat.mod_eq_of_lt (show n * 1000 < 2 ^ 64 by omega), Nat.mod_eq_of_lt hms, pdMS_TO_TICKS_toNat,
      Nat.mod_eq_of_lt (Nat.lt_of_le_of_lt (ticks_le rate _) hms)]
  mono m n hmn := ticks_mono rate (Nat.mul_le_mul_right _ hmn)
  falls := by
    have hpos := rate.pos
    have hle := rate.le
    rw [pdMS_TO_TICKS_toNat, pdMS_TO_TICKS_toNat,
      show 4294968 * 1000 % 2 ^ 64 % 2 ^ 32 = 704 from rfl,
      show (4294968 - 1) * 1000 % 2 ^ 64 % 2 ^ 32 = 4294967000 from rfl]
    have hafter : 704 * rate.hz / 1000 < 2 ^ 32 := by omega
    have hbefore : 4294967000 * rate.hz / 1000 < 2 ^ 32 := by omega
    rw [Nat.mod_eq_of_lt hafter, Nat.mod_eq_of_lt hbefore]
    omega

/-! ## What the functions hand over -/

section

variable {Op : Type} {Res : Op → Type} {α : Type}

/-- The calls with a count have the count `m`. -/
def OnlyCount (count : Op → Option Nat) (m : Nat) : Stop Op → Trace Op Res → Prop
  | .asking op, _ => ∀ n, count op = some n → n = m
  | .fault, _ => False

/-- A program whose first call has a count, and all others the same or none. -/
theorem counts_of_only {count : Op → Option Nat} {m : Nat} {p : Prog Op Res α} (hm : Hands count p m)
    (hp : wp recording (OnlyCount count m) p (fun _ _ => True) []) : Counts count p m where
  hands n := by
    constructor
    · intro h
      obtain ⟨op, t, hrun, hn⟩ := h
      exact hp.stopped hrun n hn
    · intro h
      rw [h]
      exact hm
  defined t hrun := hp.stopped hrun

end

/-- `delay_exec` creates its timer with the ticks of the delay. -/
theorem delay_exec_counts (toTicks : UInt32 → UInt32) (callback : Bool) (delay_ms : UInt32) :
    Counts Op.count (delay_exec toTicks callback delay_ms) (toTicks delay_ms).toNat := by
  -- `xTimerCreate` is the one call with a count: some run reaches it, and every run hands it that.
  apply counts_of_only
  · exact ⟨_, _, Exec.call (r := 0) ⟨trivial, rfl⟩ (.inl ⟨rfl, rfl⟩), rfl⟩
  · unfold delay_exec
    apply wp_ask nofun
    intro ctx t _
    apply wp_ask
    · intro n hn
      exact (Option.some.inj hn).symm
    · intro timer t _
      -- From here on no call has a count, whichever way the function returns.
      cases timer with
      | none =>
        apply wp_ask nofun
        intro _ t _
        apply wp_ask nofun
        intro _ t _
        exact wp_ret.mpr trivial
      | some timer =>
        apply wp_ask nofun
        intro started t _
        split
        · apply wp_ask nofun
          intro _ t _
          exact wp_ret.mpr trivial
        · apply wp_ask nofun
          intro _ t _
          apply wp_ask nofun
          intro _ t _
          apply wp_ask nofun
          intro _ t _
          exact wp_ret.mpr trivial

/-- A program that is one call with a count. -/
theorem wait_counts {α : Type} (op : WaitOp) {m : Nat} (hop : op.count = some m)
    {k : Unit → WaitCode α} (hk : ∀ t, wp recording (OnlyCount WaitOp.count m) (k ()) (fun _ _ => True) t) :
    Counts WaitOp.count ((Prog.perform op : WaitCode Unit) >>= k) m := by
  apply counts_of_only
  · exact ⟨op, [], .inl ⟨rfl, rfl⟩, hop⟩
  · apply wp_ask
    · intro n hn
      rw [hop] at hn
      exact (Option.some.inj hn).symm
    · intro _ t _
      exact hk t

section

variable {D : Type} [Chrono D]

theorem delay_exec_handsOver (rate : TickRate) (callback : Bool) :
    HandsOver Op.count (delay_exec_duration (D := D) rate callback)
      (fun ms => (pdMS_TO_TICKS rate (UInt32.ofInt ms).toNat).toNat) :=
  handsOver_cast fun _ => delay_exec_counts _ callback _

theorem delay_handsOver (rate : TickRate) :
    HandsOver WaitOp.count (delay (D := D) rate) (fun ms => (pdMS_TO_TICKS rate ms).toNat) :=
  handsOver_cast fun ms => wait_counts (.vTaskDelay (pdMS_TO_TICKS rate ms)) rfl fun _ => wp_ret.mpr trivial

namespace Timer

/-- A `Ticker` is given the narrowed milliseconds. -/
theorem start_once_handsOver {self : Timer} (h : self.m_ticker = true) :
    HandsOver WaitOp.count (self.start_once (D := D)) (fun ms => (UInt32.ofInt ms).toNat) := by
  apply handsOver_cast
  intro ms
  unfold start_once_ms
  rw [if_pos h]
  exact wait_counts (.once_ms (UInt32.ofInt ms).toUInt64) (congrArg some (UInt32.toNat_toUInt64 _))
    (k := fun _ => pure true) (fun _ => wp_ret.mpr trivial)

theorem start_periodic_handsOver {self : Timer} (h : self.m_ticker = true) :
    HandsOver WaitOp.count (self.start_periodic (D := D)) (fun ms => (UInt32.ofInt ms).toNat) := by
  apply handsOver_cast
  intro ms
  unfold start_periodic_ms
  rw [if_pos h]
  exact wait_counts (.attach_ms (UInt32.ofInt ms).toUInt64) (congrArg some (UInt32.toNat_toUInt64 _))
    (k := fun _ => pure true) (fun _ => wp_ret.mpr trivial)

/-- A program that converts a duration and hands nothing over. -/
structure Idle (start : D → WaitCode Bool) : Prop where
  hands : ∀ d n, ¬Hands WaitOp.count (start d) n
  defined : ∀ d, Defined (start d) ↔ (duration_cast d).isSome

theorem idle_cast {f : Int → WaitCode Bool} (hf : ∀ ms, f ms = Prog.ret false) :
    Idle fun d : D => Prog.ofOption (duration_cast d) >>= f where
  hands d n h := by
    obtain ⟨ms, -, op, t, hrun, -⟩ := (hands_cast d n).mp h
    rw [hf] at hrun
    cases hrun.1
  defined := by
    apply defined_cast
    intro ms t hrun
    rw [hf] at hrun
    cases hrun.1

/-- Without a `Ticker` there is nobody to hand a count to. -/
theorem start_once_idle {self : Timer} (h : self.m_ticker = false) : Idle (self.start_once (D := D)) := by
  apply idle_cast
  intro ms
  unfold start_once_ms
  rw [h]
  rfl

theorem start_periodic_idle {self : Timer} (h : self.m_ticker = false) :
    Idle (self.start_periodic (D := D)) := by
  apply idle_cast
  intro ms
  unfold start_periodic_ms
  rw [h]
  rfl

end Timer

end

namespace Timer

/-- Either start function, which hands over the narrowed milliseconds if there is a `Ticker`. -/
theorem starts_monotone_iff {self : Timer} {start : Duration → WaitCode Bool}
    (hnone : self.m_ticker = false → Idle start)
    (hsome : self.m_ticker = true → HandsOver WaitOp.count start (fun ms => (UInt32.ofInt ms).toNat))
    (S : Durations) (limit : Duration) :
    MonotoneUpTo S.used limit WaitOp.count start ↔
      if self.m_ticker then limit.milliseconds < 2 ^ 32 ∧ S.Lossless limit else S.Defined limit := by
  cases hticker : self.m_ticker with
  | false =>
    have hidle := hnone hticker
    rw [if_neg Bool.false_ne_true]
    constructor
    · intro hmono d hd hlimit
      exact Duration.cast_isSome_iff.mp ((hidle.defined d).mp (hmono d hd hlimit).1)
    · intro hdefined d hd hlimit
      refine ⟨(hidle.defined d).mpr (Duration.cast_isSome_iff.mpr (hdefined d hd hlimit)), ?_⟩
      intro d₁ n₁ n _ _ h₁
      exact absurd h₁ (hidle.hands d₁ n₁)
  | true =>
    rw [if_pos rfl, narrowed_falls.monotoneUpTo_iff (hsome hticker) (by decide), S.lossless_iff_kept]

theorem start_once_monotone_iff (self : Timer) (S : Durations) (limit : Duration) :
    MonotoneUpTo S.used limit WaitOp.count self.start_once ↔
      if self.m_ticker then limit.milliseconds < 2 ^ 32 ∧ S.Lossless limit else S.Defined limit :=
  starts_monotone_iff start_once_idle start_once_handsOver S limit

theorem start_periodic_monotone_iff (self : Timer) (S : Durations) (limit : Duration) :
    MonotoneUpTo S.used limit WaitOp.count self.start_periodic ↔
      if self.m_ticker then limit.milliseconds < 2 ^ 32 ∧ S.Lossless limit else S.Defined limit :=
  starts_monotone_iff start_periodic_idle start_periodic_handsOver S limit

/-- Either start function, of durations of one floating-point type. -/
theorem starts_floating {self : Timer} {F : Floating} {period : Period}
    {start : FloatDuration F period → WaitCode Bool} (hnone : self.m_ticker = false → Idle start)
    (hsome : self.m_ticker = true → HandsOver WaitOp.count start (fun ms => (UInt32.ofInt ms).toNat))
    (limit : FloatDuration F period) (hlow : ⌊limit.milliseconds⌋₊ < 2 ^ 32) :
    MonotoneUpTo (fun _ => True) limit WaitOp.count start := by
  cases hticker : self.m_ticker with
  | false =>
    have hidle := hnone hticker
    rintro d - hd
    have hms := Nat.floor_le_floor (FloatDuration.milliseconds_mono hd)
    refine ⟨(hidle.defined d).mpr (Option.isSome_iff_exists.mpr ⟨_, d.cast_eq (by omega)⟩), ?_⟩
    intro d₁ n₁ n _ _ h₁
    exact absurd h₁ (hidle.hands d₁ n₁)
  | true => exact narrowed_falls.floating_monotone (hsome hticker) (by decide) limit hlow

end Timer

/-! ## How far the counts follow -/

theorem delay_exec_monotone_iff (rate : TickRate) (callback : Bool) (S : Durations) (limit : Duration) :
    MonotoneUpTo S.used limit Op.count (delay_exec_duration rate callback) ↔
      limit.milliseconds < 2 ^ 32 ∧ S.Kept limit (fun ms => ms * rate.hz / 1000) :=
  (narrowed_ticks_falls rate).monotoneUpTo_iff (delay_exec_handsOver rate callback) (by decide) S limit

theorem delay_monotone_iff (rate : TickRate) (S : Durations) (limit : Duration) :
    MonotoneUpTo S.used limit WaitOp.count (delay rate) ↔
      limit.milliseconds * rate.hz / 1000 < 2 ^ 32 ∧ S.Kept limit (fun ms => ms * rate.hz / 1000) := by
  rw [(ticks_falls rate).monotoneUpTo_iff (delay_handsOver rate) (wrap_lt rate), lt_wrap_iff]

theorem literal_ms_toNat (rate : TickRate) (a : UInt64) :
    (literal_ms rate a).toNat = (pdMS_TO_TICKS rate (UInt32.ofInt a.toNat).toNat).toNat := by
  unfold literal_ms
  rw [ofInt_natCast, UInt32.toNat_ofNat', UInt64.toNat_toUInt32]

theorem literal_s_toNat (rate : TickRate) (a : UInt64) :
    (literal_s rate a).toNat = (pdMS_TO_TICKS rate (a.toNat * 1000 % 2 ^ 64 % 2 ^ 32 : Nat)).toNat := by
  unfold literal_s
  rw [UInt64.toNat_toUInt32, UInt64.toNat_mul]
  rfl

/-- The period of a `delay_exec` is a tick at least when its milliseconds are. -/
theorem period_iff (rate : TickRate) (callback : Bool) (delay_ms : UInt32) :
    (∀ n, Hands Op.count (delay_exec (fun ms => pdMS_TO_TICKS rate ms.toNat) callback delay_ms) n →
      1 ≤ n) ↔ 1000 ≤ delay_ms.toNat * rate.hz := by
  have hsmall : delay_ms.toNat * rate.hz / 1000 < 2 ^ 32 :=
    Nat.lt_of_le_of_lt (ticks_le rate _) delay_ms.toNat_lt
  have hperiod : 1 ≤ (pdMS_TO_TICKS rate delay_ms.toNat).toNat ↔ 1000 ≤ delay_ms.toNat * rate.hz := by
    rw [pdMS_TO_TICKS_toNat, Nat.mod_eq_of_lt hsmall]
    omega
  have hcounts := delay_exec_counts (fun ms => pdMS_TO_TICKS rate ms.toNat) callback delay_ms
  rw [← hperiod]
  constructor
  · intro h
    exact h _ ((hcounts.hands _).mpr rfl)
  · intro h n hn
    rw [(hcounts.hands n).mp hn]
    exact h

/-- A delay is taken, and `xTimerCreate` given a period of a tick at least. -/
def Starts {D : Type} [Chrono D] (rate : TickRate) (callback : Bool) (d : D) : Prop :=
  Defined (delay_exec_duration rate callback d) ∧
    ∀ n, Hands Op.count (delay_exec_duration rate callback d) n → 1 ≤ n

/-- A duration is when its narrowed milliseconds are. -/
theorem starts_cast_iff {D : Type} [Chrono D] (rate : TickRate) (callback : Bool) (d : D) :
    Starts rate callback d ↔
      ∃ ms, duration_cast d = some ms ∧ 1000 ≤ (UInt32.ofInt ms).toNat * rate.hz := by
  have hdefined := (delay_exec_handsOver rate callback).defined d
  unfold Starts
  rw [hdefined, Option.isSome_iff_exists]
  unfold delay_exec_duration
  simp only [hands_cast]
  constructor
  · rintro ⟨⟨ms, hms⟩, h⟩
    exact ⟨ms, hms, (period_iff rate callback _).mp fun n hn => h n ⟨ms, hms, hn⟩⟩
  · rintro ⟨ms, hms, h⟩
    refine ⟨⟨ms, hms⟩, ?_⟩
    rintro n ⟨ms', hms', hn⟩
    obtain rfl : ms = ms' := Option.some.inj (hms.symm.trans hms')
    exact (period_iff rate callback _).mpr h n hn

theorem starts_iff (rate : TickRate) (callback : Bool) (d : Duration) :
    Starts rate callback d ↔ d.Defined ∧ 1000 ≤ d.wrapped % 2 ^ 32 * rate.hz := by
  rw [starts_cast_iff, ← Duration.cast_isSome_iff, Option.isSome_iff_exists]
  constructor
  · rintro ⟨ms, hms, h⟩
    rw [d.cast_narrowed hms] at h
    exact ⟨⟨ms, hms⟩, h⟩
  · rintro ⟨⟨ms, hms⟩, h⟩
    rw [← d.cast_narrowed hms] at h
    exact ⟨ms, hms, h⟩

theorem starts_floating_iff (rate : TickRate) (callback : Bool) {F : Floating} {period : Period}
    (d : FloatDuration F period) :
    Starts rate callback d ↔
      d.milliseconds < 2 ^ 63 ∧ 1000 ≤ ⌊d.milliseconds⌋₊ % 2 ^ 32 * rate.hz := by
  rw [starts_cast_iff]
  simp only [duration_cast]
  split
  · next h => simp [h, ofInt_natCast]
  · next h => simp [h]

end Timers
