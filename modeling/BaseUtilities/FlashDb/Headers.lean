import BaseUtilities.FlashDb.Changes

/-!
# FlashDB: headers that have been lost

A sector is erased before its header is written, so that power that goes off in between leaves it without one.  When
a database is loaded such sectors are formatted again, and the others stay as they are; a database that is not
formatable is not loaded, and nothing is written.
-/

open Effects Mem Kv Storage

namespace FlashDb

variable {G : Geometry} {w : Flash G} {A : Nat → Sector} {i : Nat} {db db' : Kvdb} {bad : Nat → Prop}

/-- A header that `read_sector_info` refuses. -/
def Lost {n : Nat} (b : Buffer n) : Prop :=
  let sec_hdr := SectorHdr.ofBytes (b.bytes.take SECTOR_HDR_DATA_SIZE)
  sec_hdr.magic ≠ SECTOR_MAGIC_WORD ∨
    sec_hdr.combined.toNat ≠ SECTOR_NOT_COMBINED ∧ sec_hdr.combined.toNat ≠ SECTOR_COMBINED

instance {n : Nat} (b : Buffer n) : Decidable (Lost b) := inferInstanceAs (Decidable (_ ∨ _))

/-- The sectors in `bad` have lost their headers, and are to be empty; the others look like those of `A`. -/
structure Partly (w : Flash G) (A : Nat → Sector) (bad : Nat → Prop) : Prop where
  lost : ∀ i < G.count, bad i → A i = ⟨.clean, []⟩ ∧ Lost (w i)
  kept : ∀ i < G.count, ¬ bad i → (A i).Wf G ∧ w i = (erased G.sec_size).overlay (A i).image

/-- Sectors without entries. -/
theorem Sector.Wf.empty (G : Geometry) : Sector.Wf G ⟨.clean, []⟩ := by
  refine ⟨fun _ => rfl, DirtyStatus.noConfusion, ?_⟩
  have := G.room
  show 16 + 88 < G.sec_size
  omega

theorem Partly.stored (h : Partly w A fun _ => False) : Stored w A where
  wf i hi := (h.kept i hi id).1
  image i hi := (h.kept i hi id).2

theorem Stored.partly (h : Stored w A) : Partly w A fun _ => False where
  lost _ _ hbad := hbad.elim
  kept i hi _ := ⟨h.wf i hi, h.image i hi⟩

/-- The header of a sector that has one. -/
theorem Partly.header (h : Partly w A bad) (hi : i < G.count) (hgood : ¬ bad i) :
    Contains w i 0 (sectorHdr (A i).store (A i).dirty).bytes :=
  contains_header (h.kept i hi hgood).1 (h.kept i hi hgood).2

/-- A sector that has been formatted. -/
theorem Partly.format (h : Partly w A bad) (hi : i < G.count) (hbad : bad i) {bad' : Nat → Prop}
    (hrest : ∀ j, bad' j ↔ bad j ∧ j ≠ i) : Partly (w.written i (Sector.image ⟨.clean, []⟩)) A bad' where
  lost j hj hbad' := by
    obtain ⟨hbadj, hji⟩ := (hrest j).mp hbad'
    rw [Flash.written, Function.update_of_ne hji]
    exact h.lost j hj hbadj
  kept j hj hgood := by
    by_cases hji : j = i
    · subst hji
      rw [Flash.written, Function.update_self, (h.lost j hj hbad).1]
      exact ⟨.empty G, rfl⟩
    · rw [Flash.written, Function.update_of_ne hji]
      exact h.kept j hj fun hbadj => hgood ((hrest j).mpr ⟨hbadj, hji⟩)

/-! ## What the cache does not know -/

/-- No sector of `bad` is in the cache. -/
def Uncached (G : Geometry) (db : Kvdb) (bad : Nat → Prop) : Prop :=
  ∀ i < G.count, bad i → get_sector_from_cache db (i * G.sec_size) = none

theorem get_sector_from_cache_eq_none {addr : Nat} :
    get_sector_from_cache db addr = none ↔ ∀ s ∈ db.sector_cache_table, s.addr ≠ addr := by
  rw [get_sector_from_cache, List.find?_eq_none]
  simp

/-- Nothing is cached of a sector without a header. -/
theorem update_sector_cache_lost {sector : SecInfo} (h : get_sector_from_cache db sector.addr = none)
    (hbad : sector.check_ok = false) : update_sector_cache db sector = db := by
  rw [get_sector_from_cache_eq_none] at h
  unfold update_sector_cache
  rcases updateSectorLoop_spec sector 0 db.sector_cache_table FDB_SECTOR_CACHE_TABLE_SIZE with
    ⟨pre, cached, post, htable, hcached, _⟩ | ⟨e, hloop, _⟩
  · exact absurd hcached (h cached (htable ▸ List.mem_append_right _ List.mem_cons_self))
  · rw [hloop]
    dsimp only
    rw [hbad, if_neg (by simp)]

/-- What is cached of a sector says nothing of the others. -/
theorem Uncached.update (h : Uncached G db bad) {sector : SecInfo} (hgood : ∀ i < G.count, bad i →
    sector.addr ≠ i * G.sec_size) : Uncached G (update_sector_cache db sector) bad := by
  intro i hi hbad
  have hnone := get_sector_from_cache_eq_none.mp (h i hi hbad)
  have hne := hgood i hi hbad
  rw [get_sector_from_cache_eq_none]
  unfold update_sector_cache
  rcases updateSectorLoop_spec sector 0 db.sector_cache_table FDB_SECTOR_CACHE_TABLE_SIZE with
    ⟨pre, cached, post, htable, _, _, hloop⟩ | ⟨e, hloop, _⟩
  · rw [hloop]
    rw [htable] at hnone
    intro s hs
    rcases List.mem_append.mp hs with hs | hs
    · exact hnone s (List.mem_append_left _ hs)
    rcases List.mem_cons.mp hs with rfl | hs
    · split
      · exact hne
      · exact (G.sector_ne hi).symm
    · exact hnone s (List.mem_append_right _ (List.mem_cons_of_mem _ hs))
  · rw [hloop]
    dsimp only
    split
    · intro s hs
      rcases List.mem_or_eq_of_mem_set hs with hs | rfl
      · exact hnone s hs
      · exact hne
    · exact hnone

/-! ## A sector -/

/-- A sector without a header is not taken for one. -/
theorem read_lost_runs (hsec : db.sec_size = G.sec_size) (hi : i < G.count)
    (hnone : get_sector_from_cache db (i * G.sec_size) = none) (hlost : Lost (w i)) (sector : SecInfo) :
    Runs (read_sector_info db (i * G.sec_size) sector false) (fun r w' => w' = w ∧ r.2.1.check_ok = false ∧
      r.2.1.addr = i * G.sec_size ∧ r.2.1.combined = SECTOR_NOT_COMBINED ∧ r.2.2 = db) w := by
  have hroom := G.room
  have hfits : 0 + SECTOR_HDR_DATA_SIZE ≤ G.sec_size := by
    simp only [SECTOR_HDR_DATA_SIZE]
    omega
  unfold read_sector_info
  refine runs_assert (by rw [hsec, Nat.mul_mod_left]) ?_
  rw [hnone]
  dsimp only
  unfold readSectorHdr
  refine runs_read rfl hi G.sec_pos (Buffer.load?_eq_some hfits) ?_
  intro buf hbuf
  rw [List.drop_zero] at hbuf
  dsimp only [Lost] at hlost ⊢
  rw [hbuf, if_pos hlost]
  exact runs_ret ⟨rfl, rfl, rfl, rfl, rfl⟩

theorem format_lost_runs (hsec : db.sec_size = G.sec_size) (hi : i < G.count)
    (hnone : get_sector_from_cache db (i * G.sec_size) = none) :
    Runs (format_sector db (i * G.sec_size) (UInt32.ofNat SECTOR_NOT_COMBINED))
      (fun r w' => w' = w.written i (Sector.image ⟨.clean, []⟩) ∧ r = (.noErr, db)) w := by
  refine (format_sector_runs hsec hi).mono ?_
  rintro ⟨result, db'⟩ w' ⟨rfl, rfl, rfl⟩
  exact ⟨rfl, congrArg _ (update_sector_cache_lost hnone rfl)⟩

/-! ## All sectors -/

/-- The sectors before `t` have been checked. -/
structure Checked (A : Nat → Sector) (bad : Nat → Prop) (db : Kvdb) (t : Nat) (db' : Kvdb) (failed : Nat)
    (w : Flash G) : Prop where
  partly : Partly w A fun i => bad i ∧ t ≤ i
  uncached : Uncached G db' fun i => bad i ∧ t ≤ i
  resectored : Resectored G A db db'
  failed_le : failed ≤ t
  all : failed = t → (∀ i < t, bad i) ∧ db' = db
  some : 0 < failed → ∃ i < G.count, bad i
  every : (∀ i < t, bad i) → failed = t

/-- All sectors have been checked. -/
theorem Checked.stored {failed : Nat} (h : Checked A bad db G.count db' failed w) : Stored w A := by
  have hnever : ∀ i < G.count, ¬ (bad i ∧ G.count ≤ i) := fun i hi hbad => absurd hbad.2 (by omega)
  exact ⟨fun i hi => (h.partly.kept i hi (hnever i hi)).1, fun i hi => (h.partly.kept i hi (hnever i hi)).2⟩

theorem Checked.good {t failed : Nat} (h : Checked A bad db t db' failed w) (hgood : ¬ bad t) {s : SecInfo}
    (haddr : s.addr = t * G.sec_size) {db'' : Kvdb} (hdb : db'' = db' ∨ db'' = update_sector_cache db' s)
    (hresectored : Resectored G A db' db'') : Checked A bad db (t + 1) db'' failed w := by
  have hsame : ∀ i, (bad i ∧ t + 1 ≤ i) ↔ bad i ∧ t ≤ i := by
    intro i
    refine ⟨fun h => ⟨h.1, by omega⟩, fun h => ⟨h.1, ?_⟩⟩
    have hne : i ≠ t := by
      rintro rfl
      exact hgood h.1
    omega
  refine ⟨?_, ?_, h.resectored.trans hresectored, by have := h.failed_le; omega, fun hfailed => ?_, h.some,
    fun hall => absurd (hall t (Nat.lt_succ_self t)) hgood⟩
  · simp only [hsame]
    exact h.partly
  · simp only [hsame]
    rcases hdb with rfl | rfl
    · exact h.uncached
    · refine h.uncached.update fun i hi hbad heq => ?_
      rw [haddr] at heq
      exact hgood (G.sector_inj heq ▸ hbad.1)
  · have := h.failed_le
    omega

theorem Checked.lost {t failed : Nat} (h : Checked A bad db t db' failed w) (ht : t < G.count) (hbad : bad t) :
    Checked A bad db (t + 1) db' (failed + 1) (w.written t (Sector.image ⟨.clean, []⟩)) := by
  have hsame : ∀ i, (bad i ∧ t + 1 ≤ i) ↔ (bad i ∧ t ≤ i) ∧ i ≠ t := by
    intro i
    refine ⟨fun h => ⟨⟨h.1, by omega⟩, by omega⟩, fun h => ⟨h.1.1, by omega⟩⟩
  refine ⟨h.partly.format ht ⟨hbad, Nat.le_refl t⟩ hsame, ?_, h.resectored, Nat.succ_le_succ h.failed_le, ?_,
    fun _ => ⟨t, ht, hbad⟩, fun hall => congrArg (· + 1) (h.every fun i hi => hall i (Nat.lt_succ_of_lt hi))⟩
  · exact fun i hi hb => h.uncached i hi ((hsame i).mp hb).1
  · intro hfailed
    obtain ⟨hall, rfl⟩ := h.all (Nat.succ.inj hfailed)
    refine ⟨fun i hi => ?_, rfl⟩
    rcases Nat.lt_succ_iff_lt_or_eq.mp hi with hi | rfl
    · exact hall i hi
    · exact hbad

theorem check_headers_runs (hsec : db.sec_size = G.sec_size) (hmax : db.max_size = G.max_size)
    (holdest : db.oldest_addr = 0) (hsectors : SectorsCached G A db.sector_cache_table)
    (huncached : Uncached G db bad) (hw : Partly w A bad)
    (hformatable : (∃ i < G.count, bad i) → db.not_formatable = false) (sector : SecInfo) :
    Runs (sector_iterator db sector .unused check_sec_hdr_cb 0 false) (fun r w' => Stored w' A ∧
      Resectored G A db r.2.1 ∧ (r.2.2 = G.count → (∀ i < G.count, bad i) ∧ r.2.1 = db) ∧
      (0 < r.2.2 → ∃ i < G.count, bad i) ∧ ((∀ i < G.count, bad i) → r.2.2 = G.count)) w := by
  unfold sector_iterator
  refine Total.forever
    (fun s w' => ∃ t, t < G.count ∧ s.sec_addr = t * G.sec_size ∧ s.traversed_len = t * G.sec_size ∧
      Checked A bad db t s.db s.arg w')
    (fun s _ => G.max_size - s.traversed_len)
    ⟨0, G.count_pos, holdest.trans (Nat.zero_mul _).symm, (Nat.zero_mul _).symm, ?_⟩ ?_
  · have hsame : ∀ i, (bad i ∧ 0 ≤ i) ↔ bad i := fun i => ⟨And.left, fun h => ⟨h, Nat.zero_le i⟩⟩
    refine ⟨?_, ?_, ⟨db.sector_cache_table, rfl, hsectors⟩, Nat.le_refl 0,
      fun _ => ⟨fun i hi => absurd hi (Nat.not_lt_zero i), rfl⟩, fun h => absurd h (Nat.lt_irrefl 0), fun _ => rfl⟩
    · simp only [hsame]
      exact hw
    · simp only [hsame]
      exact huncached
  rintro ⟨s₀, sec_addr, traversed_len, kv, db', failed⟩ w' ⟨t, ht, rfl, rfl, hchecked⟩
  dsimp only at hchecked ⊢
  have hdb' : db'.sec_size = G.sec_size ∧ db'.max_size = G.max_size ∧ db'.not_formatable = db.not_formatable ∧
      SectorsCached G A db'.sector_cache_table := by
    obtain ⟨table, rfl, htable⟩ := hchecked.resectored
    exact ⟨hsec, hmax, rfl, htable⟩
  obtain ⟨hsec', hmax', hformatable', hsectors'⟩ := hdb'
  -- What follows the check of the sector `t`.
  have hnext : ∀ {s : SecInfo} {db'' : Kvdb} {failed' : Nat} {w'' : Flash G}, s.addr = t * G.sec_size →
      s.combined = SECTOR_NOT_COMBINED → Checked A bad db (t + 1) db'' failed' w'' →
      Runs (pure (if get_next_sector_addr db'' s (t * G.sec_size + G.sec_size) ≠ FAILED_ADDR then
          Iter.next (⟨s, get_next_sector_addr db'' s (t * G.sec_size + G.sec_size), t * G.sec_size + G.sec_size, kv,
            db'', failed'⟩ : IteratorState Nat)
        else .done (s, db'', failed')))
      (Iter.post (fun s' w' => (∃ t, t < G.count ∧ s'.sec_addr = t * G.sec_size ∧ s'.traversed_len = t * G.sec_size ∧
          Checked A bad db t s'.db s'.arg w') ∧ G.max_size - s'.traversed_len < G.max_size - t * G.sec_size)
        (fun r w' => Stored w' A ∧ Resectored G A db r.2.1 ∧
          (r.2.2 = G.count → (∀ i < G.count, bad i) ∧ r.2.1 = db) ∧ (0 < r.2.2 → ∃ i < G.count, bad i) ∧
          ((∀ i < G.count, bad i) → r.2.2 = G.count))) w'' := by
    intro s db'' failed' w'' haddr hcombined hchecked''
    have hdb'' : db''.sec_size = G.sec_size ∧ db''.max_size = G.max_size := by
      obtain ⟨table, rfl, _⟩ := hchecked''.resectored
      exact ⟨hsec, hmax⟩
    have hmod : s.addr = (0 + t) % G.count * G.sec_size := by
      rw [haddr, Nat.zero_add, Nat.mod_eq_of_lt ht]
    rw [← Nat.succ_mul, Nat.succ_eq_add_one, get_next_sector_addr_eq hdb''.1 hdb''.2 ht hmod hcombined]
    by_cases hend : t + 1 < G.count
    · have hne : (0 + (t + 1)) % G.count * G.sec_size ≠ FAILED_ADDR := G.sector_ne (Nat.mod_lt _ G.count_pos)
      rw [if_pos hend, if_pos hne]
      refine runs_ret ⟨⟨t + 1, hend, ?_, rfl, hchecked''⟩, ?_⟩
      · dsimp only
        rw [Nat.zero_add, Nat.mod_eq_of_lt hend]
      · have hle := G.sector_end ht
        have hpos := G.sec_pos
        dsimp only
        rw [Nat.succ_mul]
        omega
    · have hall : t + 1 = G.count := by omega
      rw [if_neg hend, if_neg (by simp)]
      rw [hall] at hchecked''
      exact runs_ret ⟨hchecked''.stored, hchecked''.resectored, hchecked''.all, hchecked''.some, hchecked''.every⟩
  rw [hsec']
  by_cases hbad : bad t
  · have hnone := hchecked.uncached t ht ⟨hbad, Nat.le_refl t⟩
    refine (read_lost_runs hsec' ht hnone (hchecked.partly.lost t ht ⟨hbad, Nat.le_refl t⟩).2 s₀).bind ?_
    rintro ⟨result, s, db''⟩ w' ⟨rfl, hs, haddr, hcombined, hdb''⟩
    dsimp only at hs haddr hcombined hdb'' ⊢
    subst hdb''
    rw [if_pos (.inl rfl)]
    unfold visitSector check_sec_hdr_cb
    rw [if_neg Bool.false_ne_true, hs, if_pos (by decide), hformatable', hformatable ⟨t, ht, hbad⟩,
      if_neg Bool.false_ne_true, haddr]
    simp only [bind_assoc]
    refine (format_lost_runs hsec' ht hnone).bind ?_
    rintro _ _ ⟨rfl, rfl⟩
    simp only [pure_bind]
    rw [if_neg Bool.false_ne_true]
    exact hnext haddr hcombined (hchecked.lost ht hbad)
  · refine (read_header_runs hsec' hsectors' ht (hchecked.partly.header ht fun h => hbad h.1) s₀).bind ?_
    rintro ⟨result, s, db''⟩ w' ⟨rfl, hs, hdb'', hresectored⟩
    dsimp only at hs hdb'' hresectored ⊢
    rw [if_pos (.inl rfl)]
    unfold visitSector check_sec_hdr_cb
    rw [if_neg Bool.false_ne_true, hs.check_ok, if_neg (by decide)]
    simp only [pure_bind]
    rw [if_neg Bool.false_ne_true]
    exact hnext hs.addr hs.combined (hchecked.good hbad hs.addr hdb'' hresectored)

/-- The check ends at the first sector without a header where it must not format it. -/
theorem check_headers_refuses {t : Nat} (hsec : db.sec_size = G.sec_size) (hmax : db.max_size = G.max_size)
    (holdest : db.oldest_addr = 0) (hsectors : SectorsCached G A db.sector_cache_table)
    (huncached : Uncached G db (· = t)) (ht : t < G.count) (hlost : Lost (w t))
    (hgood : ∀ i < t, (A i).Wf G ∧ w i = (erased G.sec_size).overlay (A i).image)
    (hformatable : db.not_formatable = true) (sector : SecInfo) :
    Runs (sector_iterator db sector .unused check_sec_hdr_cb 0 false) (fun r w' => w' = w ∧
      Resectored G A db r.2.1 ∧ r.2.2 = 1) w := by
  unfold sector_iterator
  refine Total.forever
    (fun s w' => w' = w ∧ ∃ j ≤ t, s.sec_addr = j * G.sec_size ∧ s.traversed_len = j * G.sec_size ∧
      Uncached G s.db (· = t) ∧ Resectored G A db s.db ∧ s.arg = 0)
    (fun s _ => G.max_size - s.traversed_len)
    ⟨rfl, 0, Nat.zero_le t, holdest.trans (Nat.zero_mul _).symm, (Nat.zero_mul _).symm, huncached,
      ⟨db.sector_cache_table, rfl, hsectors⟩, rfl⟩ ?_
  rintro ⟨s₀, sec_addr, traversed_len, kv, db', failed⟩ w ⟨rfl, j, hj, rfl, rfl, huncached', hdb', rfl⟩
  dsimp only at huncached' hdb' ⊢
  have hsame : db'.sec_size = G.sec_size ∧ db'.not_formatable = true ∧ SectorsCached G A db'.sector_cache_table := by
    obtain ⟨table, rfl, htable⟩ := hdb'
    exact ⟨hsec, hformatable, htable⟩
  obtain ⟨hsec', hformatable', hsectors'⟩ := hsame
  rw [hsec']
  rcases Nat.lt_or_eq_of_le hj with hj | rfl
  · have hheader := contains_header (hgood j hj).1 (hgood j hj).2
    refine (read_header_runs hsec' hsectors' (by omega) hheader s₀).bind ?_
    rintro ⟨result, s, db''⟩ w ⟨rfl, hs, hdb'', hresectored⟩
    dsimp only at hs hdb'' hresectored ⊢
    have hmax'' : db''.max_size = G.max_size ∧ db''.sec_size = G.sec_size := by
      obtain ⟨table, rfl, _⟩ := hdb'.trans hresectored
      exact ⟨hmax, hsec⟩
    have huncached'' : Uncached G db'' (· = t) := by
      rcases hdb'' with rfl | rfl
      · exact huncached'
      · refine huncached'.update ?_
        rintro i _ rfl heq
        rw [hs.addr] at heq
        exact absurd (G.sector_inj heq) (by omega)
    rw [if_pos (.inl rfl)]
    unfold visitSector check_sec_hdr_cb
    rw [if_neg Bool.false_ne_true, hs.check_ok, if_neg (by decide)]
    simp only [pure_bind]
    have hmod : s.addr = (0 + j) % G.count * G.sec_size := by
      rw [hs.addr, Nat.zero_add, Nat.mod_eq_of_lt (by omega)]
    have hne : (0 + (j + 1)) % G.count * G.sec_size ≠ FAILED_ADDR := G.sector_ne (Nat.mod_lt _ G.count_pos)
    rw [if_neg Bool.false_ne_true, ← Nat.succ_mul, Nat.succ_eq_add_one,
      get_next_sector_addr_eq hmax''.2 hmax''.1 (by omega) hmod hs.combined, if_pos (show j + 1 < G.count by omega), if_pos hne]
    refine runs_ret ⟨⟨rfl, j + 1, hj, ?_, rfl, huncached'', hdb'.trans hresectored, rfl⟩, ?_⟩
    · dsimp only
      rw [Nat.zero_add, Nat.mod_eq_of_lt (by omega)]
    · have hle := G.sector_end (show j < G.count by omega)
      have hpos := G.sec_pos
      dsimp only
      rw [Nat.succ_mul]
      omega
  · refine (read_lost_runs hsec' ht (huncached' j ht rfl) hlost s₀).bind ?_
    rintro ⟨result, s, db''⟩ w ⟨rfl, hs, _, _, hdb''⟩
    dsimp only at hs hdb'' ⊢
    subst hdb''
    rw [if_pos (.inl rfl)]
    unfold visitSector check_sec_hdr_cb
    rw [if_neg Bool.false_ne_true, hs, if_pos (by decide), hformatable', if_pos rfl]
    simp only [pure_bind]
    rw [if_pos trivial]
    exact runs_ret ⟨rfl, hdb', rfl⟩

end FlashDb
