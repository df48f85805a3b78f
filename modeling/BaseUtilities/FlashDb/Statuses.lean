import BaseUtilities.FlashDb.Caches

/-!
# FlashDB: tables of statuses

A status is the number of leading bits of its table that are 0, of which a write only touches the byte of the last
one.  So a table of any length goes through growing statuses without an erase, but for the multiples of eight: those
are written as a byte whose bits are all 1.
-/

open Effects Mem Kv Storage

namespace FlashDb

/-- The byte that a status is written to, and what is written there. -/
def statusIndex (k : Nat) : Nat := (k - 1) / 8

theorem fdb_set_status_pos {n k : Nat} (hk : 0 < k) : fdb_set_status n k =
    ((List.replicate (statusTableSize n) FDB_BYTE_ERASED).modify (statusIndex k) (· &&& statusByte (k % 8)),
      some (statusIndex k)) := by
  rw [fdb_set_status, if_pos hk]
  rfl

theorem erased_and_statusByte : ∀ r < 8, FDB_BYTE_ERASED &&& statusByte r = statusByte r := by decide

theorem statusByte_bit : ∀ r < 8, ∀ s < 8, statusByte r &&& UInt8.ofNat (0x80 >>> s) = 0 ↔ s < r := by decide

theorem erased_bit : ∀ s < 8, FDB_BYTE_ERASED &&& UInt8.ofNat (0x80 >>> s) ≠ 0 := by decide

/-- A table that holds the status `k`: behind the byte of its last bit nothing has been written. -/
structure Reads (k : Nat) (table : Bytes) : Prop where
  last : 0 < k → table.getD (statusIndex k) FDB_BYTE_ERASED = statusByte (k % 8)
  behind : ∀ q, k ≤ 8 * q → table.getD q FDB_BYTE_ERASED = FDB_BYTE_ERASED

/-- The status that a table holds is the one that is read from it. -/
theorem Reads.statusFrom_eq {k : Nat} {table : Bytes} (h : Reads k table) (hk : k % 8 ≠ 0 ∨ k = 0) {m : Nat}
    (hm : k ≤ m) : statusFrom table m = k := by
  induction m with
  | zero => rw [statusFrom, Nat.le_zero.mp hm]
  | succ m ih =>
    rw [statusFrom]
    rcases Nat.lt_or_ge m k with hlt | hge
    · -- The last bit of the status.
      obtain rfl : k = m + 1 := by omega
      have hmod : m % 8 < (m + 1) % 8 := by omega
      have hbyte := h.last (Nat.succ_pos m)
      rw [statusIndex, Nat.add_sub_cancel] at hbyte
      rw [hbyte, if_pos ((statusByte_bit _ (by omega) _ (by omega)).mpr hmod)]
    · rw [if_neg, ih hge]
      rcases Nat.lt_or_ge (8 * (m / 8)) k with hin | hout
      · -- A later bit of the same byte.
        have hindex : statusIndex k = m / 8 := by
          rw [statusIndex]
          omega
        have hbyte := h.last (by omega)
        rw [hindex] at hbyte
        rw [hbyte, statusByte_bit _ (by omega) _ (by omega)]
        omega
      · rw [h.behind _ hout]
        exact erased_bit _ (by omega)

theorem reads_erased (n : Nat) : Reads 0 (List.replicate n FDB_BYTE_ERASED) := by
  refine ⟨fun h => absurd h (Nat.lt_irrefl 0), fun q _ => ?_⟩
  rw [List.getD_eq_getElem?_getD, List.getElem?_replicate]
  split <;> rfl

/-- A greater status over the one that a table holds. -/
theorem Reads.set {j k : Nat} {table : Bytes} (h : Reads j table) (hjk : j ≤ k) (hk : 0 < k)
    (hlen : statusIndex k < table.length) : Reads k (table.set (statusIndex k) (statusByte (k % 8))) := by
  constructor
  · intro _
    rw [List.getD_eq_getElem?_getD, List.getElem?_set_self hlen]
    rfl
  · intro q hq
    have hne : statusIndex k ≠ q := by
      rw [statusIndex]
      omega
    rw [List.getD_eq_getElem?_getD, List.getElem?_set_ne hne, ← List.getD_eq_getElem?_getD]
    exact h.behind q (by omega)

theorem statusIndex_lt {n k : Nat} (hkn : k < n) : statusIndex k < statusTableSize n := by
  simp only [statusIndex, statusTableSize, FDB_WRITE_GRAN]
  omega

/-- A status is read from the table that `fdb_set_status` makes of it, but for the multiples of eight. -/
theorem status_roundTrip_iff {n k : Nat} (hkn : k < n) :
    fdb_get_status (fdb_set_status n k).1 n = k ↔ k = 0 ∨ k % 8 ≠ 0 := by
  rcases Nat.eq_zero_or_pos k with rfl | hk
  · refine iff_of_true ?_ (.inl rfl)
    exact (reads_erased _).statusFrom_eq (.inr rfl) (Nat.zero_le _)
  have htable : (fdb_set_status n k).1 =
      (List.replicate (statusTableSize n) FDB_BYTE_ERASED).set (statusIndex k) (statusByte (k % 8)) := by
    rw [fdb_set_status_pos hk]
    dsimp only
    rw [List.modify_eq_set_getElem?, List.getElem?_replicate, if_pos (statusIndex_lt hkn)]
    dsimp only [Option.map_some, Option.getD_some, Functor.map]
    rw [erased_and_statusByte _ (by omega)]
  constructor
  · intro hget
    refine .inr fun hmod => ?_
    have herased : (fdb_set_status n k).1 = List.replicate (statusTableSize n) FDB_BYTE_ERASED := by
      rw [htable, hmod]
      exact List.set_replicate_self
    rw [herased, fdb_get_status, (reads_erased _).statusFrom_eq (.inr rfl) (Nat.zero_le _)] at hget
    omega
  · intro hmod
    have hreads := (reads_erased (statusTableSize n)).set (Nat.zero_le k) hk
      (by rw [List.length_replicate]; exact statusIndex_lt hkn)
    rw [htable, fdb_get_status]
    exact hreads.statusFrom_eq (by omega) (by omega)

/-- The first status that is lost. -/
theorem status_roundTrip_eight : fdb_get_status (fdb_set_status 9 8).1 9 = 8 ↔ 8 = 0 ∨ 8 % 8 ≠ 0 :=
  status_roundTrip_iff (by decide)

/-! ## In the storage -/

variable {G : Geometry} {w : Flash G} {i n : Nat} {head table tail : Bytes}

theorem Reads.byte {j k : Nat} (h : Reads j table) (hjk : j ≤ k) (hmod : k % 8 ≠ 0) :
    Clears [table.getD (statusIndex k) FDB_BYTE_ERASED] [statusByte (k % 8)] := by
  have hclears : ∀ r < 8, ∀ s < 8, r ≤ s → Clears [statusByte r] [statusByte s] := by decide
  have herased : ∀ s < 8, Clears [FDB_BYTE_ERASED] [statusByte s] := by decide
  rcases Nat.lt_or_ge (8 * statusIndex k) j with hin | hout
  · have hindex : statusIndex j = statusIndex k := by
      simp only [statusIndex] at hin ⊢
      omega
    rw [← hindex, h.last (by omega)]
    simp only [statusIndex] at hin
    exact hclears _ (by omega) _ (by omega) (by omega)
  · rw [h.behind _ hout]
    exact herased _ (by omega)

theorem program?_table {b : Buffer n} (hb : b.bytes = head ++ table ++ tail) {q : Nat} (hq : q < table.length)
    {v : UInt8} (hclears : Clears [table.getD q FDB_BYTE_ERASED] [v]) :
    ∃ b', program? b (head.length + q) [v] = some b' ∧ b'.bytes = head ++ table.set q v ++ tail := by
  have hsize := b.size_eq
  rw [hb, List.length_append, List.length_append] at hsize
  have hold : (b.bytes.drop (head.length + q)).take 1 = [table.getD q FDB_BYTE_ERASED] := by
    rw [hb, List.append_assoc, List.drop_append, List.drop_of_length_le (by omega), List.nil_append,
      Nat.add_sub_cancel_left, List.drop_append_of_le_length (by omega), List.drop_eq_getElem_cons hq,
      List.getD_eq_getElem?_getD, List.getElem?_eq_getElem hq]
    rfl
  obtain ⟨b', hstore, hb'⟩ := b.store?_eq_some (head.length + q) [v] (by rw [List.length_singleton]; omega)
  refine ⟨b', ?_, ?_⟩
  · rw [program?, List.length_singleton, hold, if_pos hclears, hstore]
  · rw [hb', hb, List.length_singleton, List.append_assoc head, List.take_append, List.take_of_length_le (by omega),
      Nat.add_sub_cancel_left, List.take_append_of_le_length (by omega), Nat.add_assoc, List.drop_append,
      List.drop_of_length_le (by omega), List.nil_append, Nat.add_sub_cancel_left,
      List.drop_append_of_le_length (by omega), List.set_eq_take_append_cons_drop, if_pos hq]
    simp only [List.append_assoc, List.cons_append, List.nil_append]

/-- Statuses written one after another. -/
def writeStatuses (addr status_num : Nat) : List Nat → Code Unit
  | [] => return ()
  | status_index :: rest => do
    let _ ← fdb_write_status addr status_num status_index true
    writeStatuses addr status_num rest

/-- The sector `i` has a table with the status `k` behind `head`. -/
structure Tabled (w : Flash G) (i : Nat) (head tail : Bytes) (n k : Nat) (table : Bytes) : Prop where
  bytes : (w i).bytes = head ++ table ++ tail
  length : table.length = statusTableSize n
  reads : Reads k table

theorem fdb_write_status_runs {j k : Nat} (hi : i < G.count) (h : Tabled w i head tail n j table) (hjk : j < k)
    (hkn : k < n) (hmod : k % 8 ≠ 0) (sync : Bool) :
    Runs (fdb_write_status (G.addr i head.length) n k sync) (fun r w' => r = .noErr ∧
      ∃ table', Tabled w' i head tail n k table') w := by
  have hk : 0 < k := by omega
  have hindex : statusIndex k < table.length := by
    rw [h.length]
    exact statusIndex_lt hkn
  obtain ⟨sector, hprogram, hbytes⟩ := program?_table h.bytes hindex (h.reads.byte (Nat.le_of_lt hjk) hmod)
  have hsize := (w i).size_eq
  rw [h.bytes, List.length_append, List.length_append] at hsize
  have hbyte : ((List.replicate (statusTableSize n) FDB_BYTE_ERASED).modify (statusIndex k)
      (· &&& statusByte (k % 8))).getD (statusIndex k) FDB_BYTE_ERASED = statusByte (k % 8) := by
    rw [List.getD_eq_getElem?_getD, List.getElem?_modify_eq, List.getElem?_replicate, if_pos (statusIndex_lt hkn)]
    exact erased_and_statusByte _ (by omega)
  unfold fdb_write_status
  refine runs_assert hkn ?_
  rw [fdb_set_status_pos hk]
  dsimp only
  rw [hbyte]
  refine runs_perform (respond_write (Nat.add_assoc _ _ _) hi (by omega) hprogram)
    ⟨rfl, table.set (statusIndex k) (statusByte (k % 8)), ?_⟩
  exact ⟨by rw [Function.update_self, hbytes], by rw [List.length_set, h.length],
    h.reads.set (Nat.le_of_lt hjk) hk hindex⟩

theorem fdb_read_status_runs {k : Nat} (hi : i < G.count) (h : Tabled w i head tail n k table)
    (hk : k % 8 ≠ 0 ∨ k = 0) (hkn : k < n) :
    Runs (fdb_read_status (G.addr i head.length) n) (fun r w' => w' = w ∧ r = k) w := by
  have hsize := (w i).size_eq
  rw [h.bytes, List.length_append, List.length_append, h.length] at hsize
  have hpos : 0 < statusTableSize n := Nat.lt_of_le_of_lt (Nat.zero_le _) (statusIndex_lt hkn)
  unfold fdb_read_status
  refine runs_read rfl hi (by omega) (Buffer.load?_eq_some (by omega)) ?_
  intro buf hbuf
  refine runs_ret ⟨rfl, ?_⟩
  rw [hbuf, h.bytes, List.append_assoc, List.drop_left, List.take_left' h.length, fdb_get_status]
  exact h.reads.statusFrom_eq hk (by omega)

theorem writeStatuses_from {ks : List Nat} {j : Nat} (hi : i < G.count) (hw : Tabled w i head tail n j table)
    (hfirst : ∀ k ∈ ks, j < k) (hgrow : ks.Pairwise (· < ·)) (hks : ∀ k ∈ ks, k < n ∧ k % 8 ≠ 0) :
    Runs (writeStatuses (G.addr i head.length) n ks)
      (fun _ w' => ∃ table', Tabled w' i head tail n (ks.getLastD j) table') w := by
  induction ks generalizing w j table with
  | nil => exact runs_ret ⟨table, hw⟩
  | cons k ks ih =>
    obtain ⟨hbehind, hgrow⟩ := List.pairwise_cons.mp hgrow
    obtain ⟨hkn, hmod⟩ := hks k List.mem_cons_self
    refine (fdb_write_status_runs hi hw (hfirst k List.mem_cons_self) hkn hmod true).bind ?_
    rintro _ w' ⟨rfl, table', hw'⟩
    rw [List.getLastD_cons]
    exact ih hw' hbehind hgrow fun k' hk' => hks k' (List.mem_cons_of_mem _ hk')

/-- Growing statuses, none of them a multiple of eight, are written without an erase, and the last one is read. -/
theorem writeStatuses_runs {ks : List Nat} (hi : i < G.count)
    (hw : (w i).bytes = head ++ List.replicate (statusTableSize n) erasedByte ++ tail) (hn : 0 < n)
    (hgrow : ks.Pairwise (· < ·)) (hks : ∀ k ∈ ks, k < n ∧ k % 8 ≠ 0) :
    Runs (do writeStatuses (G.addr i head.length) n ks; fdb_read_status (G.addr i head.length) n)
      (fun r _ => r = ks.getLastD 0) w := by
  have hempty : Tabled w i head tail n 0 _ := ⟨hw, List.length_replicate, reads_erased _⟩
  have hfirst : ∀ k ∈ ks, 0 < k := by
    intro k hk
    have := (hks k hk).2
    omega
  refine (writeStatuses_from hi hempty hfirst hgrow hks).bind ?_
  rintro _ w' ⟨table, hw'⟩
  have hlast : (ks.getLastD 0 % 8 ≠ 0 ∨ ks.getLastD 0 = 0) ∧ ks.getLastD 0 < n := by
    cases ks with
    | nil => exact ⟨.inr rfl, hn⟩
    | cons k ks =>
      have hmem : (k :: ks).getLastD 0 ∈ k :: ks := by
        rw [List.getLastD_cons]
        exact List.getLastD_mem_cons
      exact ⟨.inl (hks _ hmem).2, (hks _ hmem).1⟩
  exact (fdb_read_status_runs hi hw' hlast.1 hlast.2).mono fun r _ h => h.2

/-- Statuses of a table of two bytes. -/
theorem writeStatuses_erased :
    Runs (G := .small) (do writeStatuses 256 16 [1, 3, 9, 15]; fdb_read_status 256 16) (fun r _ => r = 15)
      (fun _ => erased 256) :=
  @writeStatuses_runs .small _ 1 16 [] (List.replicate 254 erasedByte) _ (by decide) rfl (by decide) (by decide)
    (by decide)

end FlashDb
