import BaseUtilities.Coding.Crc
import BaseUtilities.FlashDb.Utils

/-!
# FlashDB: checks and statuses

`fdb_calc_crc32` is the register of the polynomial of CRC-32, read from a table of eight shifts, so that
it does not matter how a message is cut into buffers and no short burst of wrong bytes goes unseen.  A
status is a count of bits that have been cleared, which is why one is written over another without an
erase.
-/

open Coding Mem Kv

namespace FlashDb

/-! ## CRC-32 -/

/-- The polynomial of CRC-32, its lowest power in the highest bit. -/
def crc32Poly : BitVec 32 := 0xEDB88320#32

theorem crc32_table_eq :
    ∀ i < 256, (crc32_table.getD i 0).toBitVec = shifts crc32Poly 8 (BitVec.ofNat 32 i) := by
  decide +kernel

theorem octet_bits : ∀ i < 32, (0xFF#32).getLsbD i = decide (i < 8) := by decide

theorem crcStep_toBitVec (crc : UInt32) (b : UInt8) :
    (crcStep crc b).toBitVec = octet crc32Poly crc.toBitVec b := by
  let x : BitVec 32 := crc.toBitVec ^^^ b.toBitVec.setWidth 32
  let low : BitVec 32 := x &&& 0xFF#32
  let high : BitVec 32 := x &&& ~~~0xFF#32
  -- The register splits into the octet that is shifted out and the rest, which only moves.
  have hsplit : low ^^^ high = x := by
    apply BitVec.eq_of_getLsbD_eq
    intro i hi
    rw [BitVec.getLsbD_xor, BitVec.getLsbD_and, BitVec.getLsbD_and, BitVec.getLsbD_not, octet_bits i hi]
    by_cases h : i < 8 <;> simp [h, hi]
  have hclear : ∀ i < 8, high.getLsbD i = false := by
    intro i hi
    rw [BitVec.getLsbD_and, BitVec.getLsbD_not, octet_bits i (by omega)]
    simp [hi]
  have hmove : high >>> 8 = crc.toBitVec >>> 8 := by
    apply BitVec.eq_of_getLsbD_eq
    intro i hi
    rw [BitVec.getLsbD_ushiftRight, BitVec.getLsbD_ushiftRight, BitVec.getLsbD_and, BitVec.getLsbD_not,
      BitVec.getLsbD_xor, BitVec.getLsbD_setWidth, BitVec.getLsbD_of_ge b.toBitVec (8 + i) (by omega)]
    by_cases h : 8 + i < 32
    · rw [octet_bits (8 + i) h]
      simp [h]
    · simp [h, BitVec.getLsbD_of_ge crc.toBitVec (8 + i) (by omega)]
  have hindex : (crc ^^^ b.toUInt32) &&& 0xFF = ⟨low⟩ := rfl
  have hlt : low.toNat < 256 := by
    rw [BitVec.toNat_and]
    exact Nat.lt_of_le_of_lt Nat.and_le_right (by decide)
  have htable := crc32_table_eq low.toNat hlt
  rw [BitVec.ofNat_toNat, BitVec.setWidth_eq] at htable
  rw [crcStep, hindex, octet]
  show (crc32_table.getD low.toNat 0).toBitVec ^^^ crc.toBitVec >>> 8 = shifts crc32Poly 8 x
  rw [htable, ← hmove, ← shifts_clear hclear, ← shifts_xor, hsplit]

theorem foldl_crcStep (crc : UInt32) (buf : Bytes) :
    (buf.foldl crcStep crc).toBitVec = register crc32Poly crc.toBitVec buf := by
  induction buf generalizing crc with
  | nil => rfl
  | cons b buf ih => rw [List.foldl_cons, ih, crcStep_toBitVec]; rfl

theorem fdb_calc_crc32_eq (crc : UInt32) (buf : Bytes) :
    fdb_calc_crc32 crc buf = ~~~⟨register crc32Poly (~~~crc).toBitVec buf⟩ := by
  rw [fdb_calc_crc32, ← foldl_crcStep]

@[simp] theorem fdb_calc_crc32_nil (crc : UInt32) : fdb_calc_crc32 crc [] = crc := by
  rw [fdb_calc_crc32, List.foldl_nil, UInt32.not_not]

/-- A message may be checked buffer by buffer. -/
theorem fdb_calc_crc32_append (crc : UInt32) (b₁ b₂ : Bytes) :
    fdb_calc_crc32 crc (b₁ ++ b₂) = fdb_calc_crc32 (fdb_calc_crc32 crc b₁) b₂ := by
  rw [fdb_calc_crc32, fdb_calc_crc32, fdb_calc_crc32, UInt32.not_not, List.foldl_append]

theorem fdb_calc_crc32_burst {crc : UInt32} {pre b₁ b₂ post : Bytes} (hlen : b₁.length = b₂.length)
    (hshort : b₁.length ≤ 4)
    (h : fdb_calc_crc32 crc (pre ++ b₁ ++ post) = fdb_calc_crc32 crc (pre ++ b₂ ++ post)) : b₁ = b₂ := by
  rw [fdb_calc_crc32_eq, fdb_calc_crc32_eq, UInt32.not_inj] at h
  exact register_burst (by decide) hlen (by omega) (UInt32.toBitVec_inj.mpr h)

/-- However a message is cut, the table of its octets divides it by the polynomial. -/
theorem fdb_calc_crc32_chunks (crc : UInt32) (chunks : List Bytes) :
    chunks.foldl fdb_calc_crc32 crc = ~~~⟨register crc32Poly (~~~crc).toBitVec chunks.flatten⟩ := by
  rw [← fdb_calc_crc32_eq]
  induction chunks generalizing crc with
  | nil => exact (fdb_calc_crc32_nil crc).symm
  | cons b chunks ih => rw [List.foldl_cons, ih, List.flatten_cons, fdb_calc_crc32_append]

/-! ## Statuses -/

/-- The byte of a table whose first `k` bits have been cleared. -/
def statusByte (k : Nat) : UInt8 := UInt8.ofNat (0xFF >>> k)

/-- A table of one byte holds every status below 8. -/
theorem fdb_set_status_eq : ∀ n ≤ 8, ∀ k < n, 0 < k → fdb_set_status n k = ([statusByte k], some 0) := by
  decide

theorem fdb_get_status_eq : ∀ n ≤ 8, ∀ k < n, fdb_get_status [statusByte k] n = k := by
  decide

end FlashDb
