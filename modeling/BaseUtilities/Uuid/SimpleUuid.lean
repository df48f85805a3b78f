import BaseUtilities.Memory.Buffer
import Mathlib.Logic.Function.Iterate

/-!
# Random UUIDs

`simple_uuid` of `simple_uuid.c`, which `UUID::generate` calls.  Four random numbers are stamped with a version and a
variant and printed octet by octet, the lower half of an octet first.  The text has the form of RFC 4122 and ends in
the last byte of the array; two texts are the same exactly where the random bits that are not stamped are.
-/

open Mem

namespace Uuid

/-- The digit of four bits. -/
def digit (ch : UInt8) : UInt8 := if ch < 10 then 48 + ch else 97 - 10 + ch

abbrev hyphen : UInt8 := 45

/-- The numbers that are printed, how far the text has come, and the array that it is written to. -/
structure Progress where
  ar : Nat → UInt32
  j : Nat
  uuid_str : Buffer 37

def Progress.put (s : Progress) (c : UInt8) : Option Progress :=
  (s.uuid_str.store? s.j [c]).map fun b => { s with uuid_str := b, j := s.j + 1 }

/-- A hyphen stands before the octets 4, 6, 8 and 10. -/
def Hyphenated (i : Nat) : Prop := i % 2 = 0 ∧ 4 ≤ i ∧ i ≤ 10

instance (i : Nat) : Decidable (Hyphenated i) := inferInstanceAs (Decidable (_ ∧ _))

/-- One step of the loop. -/
def printOctet (s : Progress) (i : Nat) : Option Progress := do
  let s ← (if Hyphenated i then s.put hyphen else some s)
  let nr := i / 4
  let xx := (s.ar nr).toUInt8
  let s ← s.put (digit (xx &&& 0x0F))
  let s := { s with ar := Function.update s.ar nr (s.ar nr >>> 8) }
  s.put (digit ((xx >>> 4) &&& 0x0F))

/-- The numbers with the version and the variant in them. -/
def stamped (esp_random : Nat → UInt32) : Nat → UInt32 :=
  let ar := Function.update esp_random 1 ((esp_random 1 &&& 0xFFF0FFFF) ||| 0x00040000)
  Function.update ar 2 ((ar 2 &&& 0xFFFFFFF3) ||| 0x00000008)

/-- `esp_random n` is what the `n`-th call of `esp_random` returns. -/
def simple_uuid (esp_random : Nat → UInt32) (uuid_str : Buffer 37) : Option (Buffer 37) := do
  let s ← (List.range 16).foldlM printOctet ⟨stamped esp_random, 0, uuid_str⟩
  s.uuid_str.store? 36 [0]

/-- `UUID::generate`: the string at the start of its array `buf`. -/
def generate (esp_random : Nat → UInt32) (buf : Buffer 37) : Option Bytes := do
  let buf ← simple_uuid esp_random buf
  buf.cstr?

/-! ## The text -/

/-- The number after `k` of its octets have been printed. -/
def rest (k : Nat) (x : UInt32) : UInt32 := (fun y : UInt32 => y >>> 8)^[k] x

def octet (ar : Nat → UInt32) (i : Nat) : UInt8 := (rest (i % 4) (ar (i / 4))).toUInt8

def digits (b : UInt8) : Bytes := [digit (b &&& 0x0F), digit ((b >>> 4) &&& 0x0F)]

/-- What is printed for the first `i` octets. -/
def printed (ar : Nat → UInt32) (i : Nat) : Bytes :=
  (List.range i).flatMap fun i => (if Hyphenated i then [hyphen] else []) ++ digits (octet ar i)

variable {ar : Nat → UInt32} {i : Nat}

theorem printed_succ (ar : Nat → UInt32) (i : Nat) :
    printed ar (i + 1) = printed ar i ++ ((if Hyphenated i then [hyphen] else []) ++ digits (octet ar i)) := by
  rw [printed, List.range_succ, List.flatMap_append, List.flatMap_singleton, ← printed]

/-- How far the text has come with the first `i` octets. -/
def textLength : Nat → Nat
  | 0 => 0
  | i + 1 => textLength i + if Hyphenated i then 3 else 2

theorem length_printed (ar : Nat → UInt32) (i : Nat) : (printed ar i).length = textLength i := by
  induction i with
  | zero => rfl
  | succ i ih =>
    rw [printed_succ, List.length_append, ih, textLength]
    congr 1
    split <;> rfl

theorem textLength_le : ∀ i < 16, textLength (i + 1) ≤ 36 := by decide

theorem put_overlay (ar : Nat → UInt32) (b : Buffer 37) {text : Bytes} (h : text.length < 37) (c : UInt8) :
    Progress.put ⟨ar, text.length, b.overlay text⟩ c =
      some ⟨ar, (text ++ [c]).length, b.overlay (text ++ [c])⟩ := by
  have hstore := Buffer.overlay_store? b text [] [c] (Nat.zero_le _) h
  rw [List.append_nil] at hstore
  rw [Progress.put, hstore, List.length_append]
  rfl

/-- The numbers after `i` octets have been printed. -/
def left (ar : Nat → UInt32) (i n : Nat) : UInt32 := rest (min 4 (i - 4 * n)) (ar n)

theorem left_self (ar : Nat → UInt32) (i : Nat) : (left ar i (i / 4)).toUInt8 = octet ar i := by
  have hmod : min 4 (i - 4 * (i / 4)) = i % 4 := by omega
  rw [left, hmod, octet]

theorem left_succ (ar : Nat → UInt32) (i : Nat) :
    Function.update (left ar i) (i / 4) (left ar i (i / 4) >>> 8) = left ar (i + 1) := by
  funext n
  by_cases hn : n = i / 4
  · subst hn
    have hnext : min 4 (i + 1 - 4 * (i / 4)) = min 4 (i - 4 * (i / 4)) + 1 := by omega
    rw [Function.update_self, left, left, hnext, rest, rest, Function.iterate_succ_apply']
  · have hsame : min 4 (i + 1 - 4 * n) = min 4 (i - 4 * n) := by omega
    rw [Function.update_of_ne hn, left, left, hsame]

/-- One octet is printed behind the others. -/
theorem printOctet_eq (hi : i < 16) (b : Buffer 37) :
    printOctet ⟨left ar i, (printed ar i).length, b.overlay (printed ar i)⟩ i =
      some ⟨left ar (i + 1), (printed ar (i + 1)).length, b.overlay (printed ar (i + 1))⟩ := by
  have hle := textLength_le i hi
  rw [← length_printed ar, printed_succ, List.length_append, List.length_append] at hle
  have htwo : (digits (octet ar i)).length = 2 := rfl
  have hmark : (if Hyphenated i then Progress.put ⟨left ar i, (printed ar i).length, b.overlay (printed ar i)⟩ hyphen
      else some ⟨left ar i, (printed ar i).length, b.overlay (printed ar i)⟩) =
      some ⟨left ar i, (printed ar i ++ if Hyphenated i then [hyphen] else []).length,
        b.overlay (printed ar i ++ if Hyphenated i then [hyphen] else [])⟩ := by
    split
    · exact put_overlay _ b (by omega) _
    · rw [List.append_nil]
  obtain ⟨text, htext⟩ : ∃ text, (printed ar i ++ if Hyphenated i then [hyphen] else []) = text := ⟨_, rfl⟩
  rw [← Nat.add_assoc, ← List.length_append, htext, htwo] at hle
  rw [printed_succ, ← List.append_assoc, printOctet, hmark, htext]
  dsimp only [Option.bind_eq_bind, Option.bind_some]
  rw [left_self, put_overlay _ b (by omega)]
  dsimp only [Option.bind_some]
  rw [left_succ, put_overlay _ b (by rw [List.length_append, List.length_singleton]; omega), List.append_assoc]
  rfl

/-- All octets have been printed. -/
theorem foldlM_printOctet (ar : Nat → UInt32) (b : Buffer 37) (hi : i ≤ 16) :
    (List.range i).foldlM printOctet ⟨ar, 0, b⟩ =
      some ⟨left ar i, (printed ar i).length, b.overlay (printed ar i)⟩ := by
  induction i with
  | zero =>
    have hnothing : left ar 0 = ar := by
      funext n
      rw [left, Nat.zero_sub, Nat.min_zero]
      rfl
    have hself : b.overlay [] = b := by
      apply Buffer.ext
      rw [Buffer.overlay_bytes (Nat.zero_le _)]
      rfl
    rw [hnothing, show printed ar 0 = [] from rfl, hself]
    rfl
  | succ i ih =>
    rw [List.range_succ, List.foldlM_append, ih (by omega)]
    dsimp only [Option.bind_eq_bind, Option.bind_some]
    rw [List.foldlM_cons, printOctet_eq (by omega)]
    rfl

/-- The text of the numbers. -/
def uuidText (esp_random : Nat → UInt32) : Bytes := printed (stamped esp_random) 16

theorem length_uuidText (esp_random : Nat → UInt32) : (uuidText esp_random).length = 36 := by
  rw [uuidText, length_printed]
  decide

theorem simple_uuid_eq (esp_random : Nat → UInt32) (uuid_str : Buffer 37) :
    simple_uuid esp_random uuid_str = some (uuid_str.overlay (uuidText esp_random ++ [0])) := by
  have hstore := Buffer.overlay_store? uuid_str (uuidText esp_random) [] [0] (Nat.zero_le _)
    (by rw [length_uuidText]; decide)
  rw [List.append_nil, length_uuidText] at hstore
  rw [simple_uuid, foldlM_printOctet _ _ (Nat.le_refl 16)]
  exact hstore

theorem length_text (esp_random : Nat → UInt32) : (uuidText esp_random ++ [0]).length = 37 := by
  rw [List.length_append, length_uuidText]
  rfl

/-- The text fills the array. -/
theorem overlay_text_bytes (esp_random : Nat → UInt32) (uuid_str : Buffer 37) :
    (uuid_str.overlay (uuidText esp_random ++ [0])).bytes = uuidText esp_random ++ [0] := by
  have hlen := length_text esp_random
  have hsize := uuid_str.size_eq
  rw [Buffer.overlay_bytes (Nat.le_of_eq hlen), List.drop_of_length_le (by omega), List.append_nil]

/-! ## Its form -/

/-- A digit as it is printed. -/
def HexDigit (c : UInt8) : Prop := c ∈ ascii "0123456789abcdef"

/-- A text of RFC 4122, of version 4 and of its variant. -/
def Canonical (text : Bytes) : Prop :=
  ∃ a b c v d e, text = a ++ hyphen :: b ++ hyphen :: 52 :: c ++ hyphen :: v :: d ++ hyphen :: e ∧
    v ∈ ascii "89ab" ∧ a.length = 8 ∧ b.length = 4 ∧ c.length = 3 ∧ d.length = 3 ∧ e.length = 12 ∧
    ∀ x ∈ a ++ b ++ c ++ d ++ e, HexDigit x

instance (c : UInt8) : Decidable (HexDigit c) := inferInstanceAs (Decidable (_ ∈ _))

theorem hexDigit_ofNat : ∀ k < 16, HexDigit (digit (UInt8.ofNat k)) := by decide

theorem hexDigit_low (b : UInt8) : HexDigit (digit (b &&& 0x0F)) := by
  have hlt : (b &&& 0x0F).toNat < 16 := by
    rw [UInt8.toNat_and]
    exact Nat.lt_of_le_of_lt Nat.and_le_right (by decide)
  have hdigit := hexDigit_ofNat _ hlt
  rwa [UInt8.ofNat_toNat] at hdigit

theorem hexDigit_digits (b : UInt8) : ∀ x ∈ digits b, HexDigit x := by
  intro x hx
  rcases List.mem_cons.mp hx with rfl | hx
  · exact hexDigit_low b
  · rw [List.mem_singleton.mp hx]
    exact hexDigit_low (b >>> 4)

theorem low_cases {i : Nat} (hi : i < 8) : i = 0 ∨ i = 1 ∨ i = 2 ∨ i = 3 ∨ i = 4 ∨ i = 5 ∨ i = 6 ∨ i = 7 := by omega

theorem version_bits (x : UInt32) :
    (((x &&& 0xFFF0FFFF) ||| 0x00040000) >>> 8 >>> 8).toUInt8 &&& 0x0F = 4 := by
  apply UInt8.toBitVec_inj.mp
  apply BitVec.eq_of_getLsbD_eq
  intro i hi
  rcases low_cases hi with rfl | rfl | rfl | rfl | rfl | rfl | rfl | rfl <;> simp

theorem variant_bits (x : UInt32) :
    ((x &&& 0xFFFFFFF3) ||| 0x00000008).toUInt8 &&& 0x0F = (x.toUInt8 &&& 0x03) ||| 8 := by
  apply UInt8.toBitVec_inj.mp
  apply BitVec.eq_of_getLsbD_eq
  intro i hi
  rcases low_cases hi with rfl | rfl | rfl | rfl | rfl | rfl | rfl | rfl <;> simp

theorem variant_ofNat : ∀ k < 4, digit (UInt8.ofNat k ||| 8) ∈ ascii "89ab" := by decide

theorem variant_digit (b : UInt8) : digit ((b &&& 0x03) ||| 8) ∈ ascii "89ab" := by
  have hlt : (b &&& 0x03).toNat < 4 := by
    rw [UInt8.toNat_and]
    exact Nat.lt_of_le_of_lt Nat.and_le_right (by decide)
  have hdigit := variant_ofNat _ hlt
  rwa [UInt8.ofNat_toNat] at hdigit

theorem uuidText_canonical (esp_random : Nat → UInt32) : Canonical (uuidText esp_random) := by
  obtain ⟨o, ho⟩ : ∃ o, octet (stamped esp_random) = o := ⟨_, rfl⟩
  have hversion : digit (o 6 &&& 0x0F) = 52 := by
    have hbits : o 6 &&& 0x0F = 4 := by
      rw [← ho]
      exact version_bits (esp_random 1)
    rw [hbits]
    rfl
  have hvariant : digit (o 8 &&& 0x0F) ∈ ascii "89ab" := by
    have hbits : o 8 &&& 0x0F = ((esp_random 2).toUInt8 &&& 0x03) ||| 8 := by
      rw [← ho]
      exact variant_bits (esp_random 2)
    rw [hbits]
    exact variant_digit _
  refine ⟨digits (o 0) ++ digits (o 1) ++ digits (o 2) ++ digits (o 3), digits (o 4) ++ digits (o 5),
    digit ((o 6 >>> 4) &&& 0x0F) :: digits (o 7), digit (o 8 &&& 0x0F), digit ((o 8 >>> 4) &&& 0x0F) :: digits (o 9),
    digits (o 10) ++ digits (o 11) ++ digits (o 12) ++ digits (o 13) ++ digits (o 14) ++ digits (o 15), ?_, hvariant,
    rfl, rfl, rfl, rfl, rfl, ?_⟩
  · rw [← hversion, ← ho]
    rfl
  · simp only [List.forall_mem_append, List.forall_mem_cons]
    and_intros <;> first | exact hexDigit_digits _ | exact hexDigit_low _

/-! ## Which texts are the same -/

/-- The four bits that two digits are read as, the lower ones first. -/
def readDigits (text : Bytes) : UInt8 :=
  text.foldr (fun c b => (if c < 97 then c - 48 else c - 87) + 16 * b) 0

theorem readDigits_ofNat : ∀ k < 256, readDigits (digits (UInt8.ofNat k)) = UInt8.ofNat k := by decide +kernel

theorem digits_injective {b b' : UInt8} (h : digits b = digits b') : b = b' := by
  have hread : ∀ b : UInt8, readDigits (digits b) = b := by
    intro b
    have hdigits := readDigits_ofNat _ b.toNat_lt
    rwa [UInt8.ofNat_toNat] at hdigits
  rw [← hread b, h, hread b']

theorem octets_of_printed {ar' : Nat → UInt32} (h : printed ar i = printed ar' i) :
    ∀ k < i, octet ar k = octet ar' k := by
  induction i with
  | zero => exact fun k hk => absurd hk (Nat.not_lt_zero k)
  | succ i ih =>
    rw [printed_succ, printed_succ] at h
    obtain ⟨hbefore, hlast⟩ := List.append_inj' h (by rw [List.length_append, List.length_append]; rfl)
    intro k hk
    rcases Nat.lt_succ_iff_lt_or_eq.mp hk with hk | rfl
    · exact ih hbefore k hk
    · exact digits_injective (List.append_cancel_left hlast)

/-- A number is made of its octets. -/
theorem word_of_octets {x y : UInt32} (h₀ : x.toUInt8 = y.toUInt8) (h₁ : (x >>> 8).toUInt8 = (y >>> 8).toUInt8)
    (h₂ : (x >>> 8 >>> 8).toUInt8 = (y >>> 8 >>> 8).toUInt8)
    (h₃ : (x >>> 8 >>> 8 >>> 8).toUInt8 = (y >>> 8 >>> 8 >>> 8).toUInt8) : x = y := by
  replace h₀ := congrArg UInt8.toNat h₀
  replace h₁ := congrArg UInt8.toNat h₁
  replace h₂ := congrArg UInt8.toNat h₂
  replace h₃ := congrArg UInt8.toNat h₃
  simp only [UInt32.toNat_toUInt8, Nat.reducePow, UInt32.toNat_shiftRight, UInt32.reduceToNat, Nat.reduceMod,
    Nat.shiftRight_eq_div_pow] at h₀ h₁ h₂ h₃
  have hx := x.toNat_lt
  have hy := y.toNat_lt
  apply UInt32.toNat_inj.mp
  omega

theorem printed_eq_iff {ar' : Nat → UInt32} :
    printed ar 16 = printed ar' 16 ↔ ar 0 = ar' 0 ∧ ar 1 = ar' 1 ∧ ar 2 = ar' 2 ∧ ar 3 = ar' 3 := by
  constructor
  · intro h
    have hoctet := octets_of_printed h
    refine ⟨?_, ?_, ?_, ?_⟩
    · exact word_of_octets (hoctet 0 (by decide)) (hoctet 1 (by decide)) (hoctet 2 (by decide)) (hoctet 3 (by decide))
    · exact word_of_octets (hoctet 4 (by decide)) (hoctet 5 (by decide)) (hoctet 6 (by decide)) (hoctet 7 (by decide))
    · exact word_of_octets (hoctet 8 (by decide)) (hoctet 9 (by decide)) (hoctet 10 (by decide)) (hoctet 11 (by decide))
    · exact word_of_octets (hoctet 12 (by decide)) (hoctet 13 (by decide)) (hoctet 14 (by decide))
        (hoctet 15 (by decide))
  · rintro ⟨h₀, h₁, h₂, h₃⟩
    have hword : ∀ n < 4, ar n = ar' n := by
      intro n hn
      obtain rfl | rfl | rfl | rfl : n = 0 ∨ n = 1 ∨ n = 2 ∨ n = 3 := by omega
      · exact h₀
      · exact h₁
      · exact h₂
      · exact h₃
    rw [printed, printed, List.flatMap_def, List.flatMap_def]
    refine congrArg List.flatten (List.map_congr_left fun i hi => ?_)
    rw [octet, octet, hword _ (by have := List.mem_range.mp hi; omega)]

/-- A stamp covers what has been cleared, and nothing else. -/
theorem stamp_eq_iff {x y m c : UInt32} (hc : c &&& m = 0) : x &&& m ||| c = y &&& m ||| c ↔ x &&& m = y &&& m := by
  have hclear : ∀ z : UInt32, (z &&& m ||| c) &&& m = z &&& m := by
    intro z
    apply UInt32.toBitVec_inj.mp
    have hc' := congrArg UInt32.toBitVec hc
    simp only [UInt32.toBitVec_and, UInt32.toBitVec_or] at hc' ⊢
    rw [BitVec.and_or_distrib_right, hc', BitVec.and_assoc, BitVec.and_self]
    exact BitVec.or_zero
  refine ⟨fun h => ?_, fun h => by rw [h]⟩
  rw [← hclear x, h, hclear y]

/-- The numbers agree in the 122 bits that are not stamped. -/
def Agree (r r' : Nat → UInt32) : Prop :=
  r 0 = r' 0 ∧ r 1 &&& 0xFFF0FFFF = r' 1 &&& 0xFFF0FFFF ∧ r 2 &&& 0xFFFFFFF3 = r' 2 &&& 0xFFFFFFF3 ∧ r 3 = r' 3

theorem uuidText_eq_iff (r r' : Nat → UInt32) : uuidText r = uuidText r' ↔ Agree r r' := by
  rw [uuidText, uuidText, printed_eq_iff]
  show r 0 = r' 0 ∧ r 1 &&& 0xFFF0FFFF ||| 0x00040000 = r' 1 &&& 0xFFF0FFFF ||| 0x00040000 ∧
    r 2 &&& 0xFFFFFFF3 ||| 0x00000008 = r' 2 &&& 0xFFFFFFF3 ||| 0x00000008 ∧ r 3 = r' 3 ↔ _
  rw [stamp_eq_iff (by decide), stamp_eq_iff (by decide), Agree]

/-! ## The array and the string -/

/-- The array is written to its end and not over it, with a text of RFC 4122. -/
theorem simple_uuid_canonical (esp_random : Nat → UInt32) (uuid_str : Buffer 37) :
    ∃ b text, simple_uuid esp_random uuid_str = some b ∧ b.bytes = text ++ [0] ∧ Canonical text :=
  ⟨_, _, simple_uuid_eq esp_random uuid_str, overlay_text_bytes esp_random uuid_str, uuidText_canonical esp_random⟩

theorem Canonical.nonzero {text : Bytes} (h : Canonical text) : (0 : UInt8) ∉ text := by
  obtain ⟨a, b, c, v, d, e, rfl, hv, _, _, _, _, _, hdigits⟩ := h
  have hnot : ¬ HexDigit 0 := by decide
  have hzero : (0 : UInt8) ∉ a ++ b ++ c ++ d ++ e := fun hmem => hnot (hdigits 0 hmem)
  have hvariant : (0 : UInt8) ≠ v := by
    rintro rfl
    exact absurd hv (by decide)
  simp only [List.mem_append, List.mem_cons, not_or] at hzero ⊢
  obtain ⟨⟨⟨⟨ha, hb⟩, hc⟩, hd⟩, he⟩ := hzero
  exact ⟨⟨⟨⟨ha, by decide, hb⟩, by decide, by decide, hc⟩, by decide, hvariant, hd⟩, by decide, he⟩

theorem generate_eq (esp_random : Nat → UInt32) (buf : Buffer 37) :
    generate esp_random buf = some (uuidText esp_random) := by
  rw [generate, simple_uuid_eq]
  exact Buffer.overlay_cstr? buf (uuidText_canonical esp_random).nonzero (Nat.le_of_eq (length_text esp_random))

/-- Two UUIDs are the same exactly where the random bits in them are. -/
theorem generate_eq_iff (r r' : Nat → UInt32) (buf buf' : Buffer 37) :
    generate r buf = generate r' buf' ↔ Agree r r' := by
  rw [generate_eq, generate_eq, Option.some.injEq, uuidText_eq_iff]

end Uuid
