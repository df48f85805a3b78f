import BaseUtilities.FlashDb.Operations
import BaseUtilities.Storage.Nor

/-!
# FlashDB: the storage of a database

The sectors of a database, as `fdb_file.c` keeps them in files of their own.  A call has an answer only
where it stays inside of one sector, where a write sets no bit of it, and where an erase covers it; so a
program that is `Total` here keeps to what flash memory can do.
-/

open Effects Mem Kv Storage

namespace FlashDb

/-- The sizes of a database.  `_fdb_init_ex` demands `power` and `sectors`.  It does not demand `room`,
without which a header would not be inside of its sector, nor `fits`, without which a sum of
`get_next_sector_addr` would pass the end of `uint32_t`. -/
structure Geometry where
  sec_size : Nat
  count : Nat
  power : sec_size &&& (sec_size - 1) = 0
  room : 128 ≤ sec_size
  sectors : 2 ≤ count
  fits : (count + 1) * sec_size < 2 ^ 32

namespace Geometry

/-- A small database. -/
def small : Geometry := ⟨256, 2, by decide, by decide, by decide, by decide⟩

theorem lt_small {i : Nat} (hi : i < small.count) : i = 0 ∨ i = 1 :=
  Nat.le_one_iff_eq_zero_or_eq_one.mp (Nat.le_of_lt_succ hi)

variable (G : Geometry)

def max_size : Nat := G.count * G.sec_size

theorem sec_pos : 0 < G.sec_size := by
  have := G.room
  omega

theorem count_pos : 0 < G.count := by
  have := G.sectors
  omega

/-- One sector more than there are still has addresses. -/
theorem max_size_fits : G.max_size + G.sec_size < 2 ^ 32 := by
  have h := G.fits
  rwa [Nat.succ_mul] at h

/-- The sectors lie one behind the other. -/
theorem sector_end {i : Nat} (hi : i < G.count) : i * G.sec_size + G.sec_size ≤ G.max_size := by
  rw [← Nat.succ_mul]
  exact Nat.mul_le_mul_right _ hi

variable {G}

theorem addr_div {i off : Nat} (hoff : off < G.sec_size) : (i * G.sec_size + off) / G.sec_size = i := by
  rw [Nat.mul_comm, Nat.mul_add_div G.sec_pos, Nat.div_eq_of_lt hoff, Nat.add_zero]

theorem addr_mod {i off : Nat} (hoff : off < G.sec_size) : (i * G.sec_size + off) % G.sec_size = off := by
  rw [Nat.mul_comm, Nat.mul_add_mod, Nat.mod_eq_of_lt hoff]

/-- An address of a sector is one of no other. -/
theorem addr_inj {i j off off' : Nat} (hoff : off < G.sec_size) (hoff' : off' < G.sec_size)
    (h : i * G.sec_size + off = j * G.sec_size + off') : i = j ∧ off = off' := by
  constructor
  · rw [← addr_div (i := i) hoff, h, addr_div hoff']
  · rw [← addr_mod (i := i) hoff, h, addr_mod hoff']

end Geometry

/-- The sectors by their number. -/
abbrev Flash (G : Geometry) := Nat → Buffer G.sec_size

variable {G : Geometry}

/-- The answer of the storage to a call. -/
def respond (G : Geometry) (w : Flash G) : (op : Op) → Option (op.Res × Flash G)
  | .read addr size =>
    if addr / G.sec_size < G.count then
      ((w (addr / G.sec_size)).load? (addr % G.sec_size) size).bind fun bytes =>
        (Buffer.ofBytes? size bytes).map fun buf => ((.noErr, buf), w)
    else none
  | .write addr data _ =>
    if addr / G.sec_size < G.count then
      (program? (w (addr / G.sec_size)) (addr % G.sec_size) data).map fun sector =>
        (.noErr, Function.update w (addr / G.sec_size) sector)
    else none
  | .erase addr size =>
    if addr / G.sec_size < G.count ∧ addr % G.sec_size = 0 ∧ size = G.sec_size then
      some (.noErr, Function.update w (addr / G.sec_size) (erased G.sec_size))
    else none

abbrev storage (G : Geometry) : Env Op Op.Res (Flash G) := answering (respond G)

/-- Every call has an answer, and nothing is undefined. -/
def Legal (G : Geometry) : Stop Op → Flash G → Prop
  | .asking op, w => (respond G w op).isSome
  | .fault, _ => False

/-- `Runs p Q w`: from the storage `w`, `p` makes legal calls only and returns what meets `Q`. -/
abbrev Runs {α : Type} (p : Code α) (Q : α → Flash G → Prop) (w : Flash G) : Prop :=
  Total (storage G) (Legal G) p Q w

variable {α β : Type} {R : β → Flash G → Prop} {w : Flash G}

/-! ## Calls -/

theorem runs_ret {a : α} {Q : α → Flash G → Prop} (h : Q a w) : Runs (.ret a) Q w := Total.ret h

theorem runs_call {op : Op} {r : op.Res} {w' : Flash G} {f : op.Res → Code β}
    (hr : respond G w op = some (r, w')) (h : Runs (f r) R w') : Runs (Prog.perform op >>= f) R w :=
  Total.answer (by rw [Legal, hr]; rfl) hr h

theorem runs_perform {op : Op} {r : op.Res} {w' : Flash G} {Q : op.Res → Flash G → Prop}
    (hr : respond G w op = some (r, w')) (h : Q r w') : Runs (Prog.perform op) Q w :=
  runs_call (f := .ret) hr (runs_ret h)

theorem respond_read {addr i off size : Nat} {bytes : Bytes} (haddr : addr = i * G.sec_size + off)
    (hi : i < G.count) (hoff : off < G.sec_size) (hload : (w i).load? off size = some bytes) :
    ∃ buf : Buffer size, buf.bytes = bytes ∧ respond G w (.read addr size) = some ((.noErr, buf), w) := by
  have hlen : bytes.length = size := by
    unfold Buffer.load? at hload
    split at hload
    · rename_i hle
      rw [← Option.some.inj hload, List.length_take, List.length_drop, (w i).size_eq]
      omega
    · cases hload
  refine ⟨⟨bytes, hlen⟩, rfl, ?_⟩
  simp only [respond, haddr, Geometry.addr_div hoff, Geometry.addr_mod hoff, if_pos hi, hload,
    Option.bind_some, Buffer.ofBytes?, dif_pos hlen, Option.map_some]

theorem respond_write {addr i off : Nat} {data : Bytes} {sync : Bool} {sector : Buffer G.sec_size}
    (haddr : addr = i * G.sec_size + off) (hi : i < G.count) (hoff : off < G.sec_size)
    (hprogram : program? (w i) off data = some sector) :
    respond G w (.write addr data sync) = some (.noErr, Function.update w i sector) := by
  simp only [respond, haddr, Geometry.addr_div hoff, Geometry.addr_mod hoff, if_pos hi, hprogram,
    Option.map_some]

theorem respond_erase {i : Nat} (hi : i < G.count) :
    respond G w (.erase (i * G.sec_size) G.sec_size) =
      some (.noErr, Function.update w i (erased G.sec_size)) := by
  have hdiv := Geometry.addr_div (i := i) G.sec_pos
  have hmod := Geometry.addr_mod (i := i) G.sec_pos
  rw [Nat.add_zero] at hdiv hmod
  simp only [respond, hdiv, hmod, hi, and_self, if_true]

theorem runs_read {addr i off size : Nat} {bytes : Bytes} {f : FdbErr × Buffer size → Code β}
    (haddr : addr = i * G.sec_size + off) (hi : i < G.count) (hoff : off < G.sec_size)
    (hload : (w i).load? off size = some bytes)
    (h : ∀ buf : Buffer size, buf.bytes = bytes → Runs (f (.noErr, buf)) R w) :
    Runs (fdb_flash_read addr size >>= f) R w := by
  obtain ⟨buf, hbuf, hread⟩ := respond_read haddr hi hoff hload
  exact runs_call hread (h buf hbuf)

theorem runs_write {addr i off : Nat} {data : Bytes} {sync : Bool} {sector : Buffer G.sec_size}
    {f : FdbErr → Code β} (haddr : addr = i * G.sec_size + off) (hi : i < G.count)
    (hoff : off < G.sec_size) (hprogram : program? (w i) off data = some sector)
    (h : Runs (f .noErr) R (Function.update w i sector)) :
    Runs (fdb_flash_write addr data sync >>= f) R w :=
  runs_call (respond_write haddr hi hoff hprogram) h

theorem runs_assert {c : Prop} [Decidable c] {f : Unit → Code β} (hc : c) (h : Runs (f ()) R w) :
    Runs (fdbAssert c >>= f) R w := by
  rw [fdbAssert, if_pos hc]
  exact h

end FlashDb
