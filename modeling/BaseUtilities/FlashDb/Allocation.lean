import BaseUtilities.FlashDb.Additions

/-!
# FlashDB: finding space

`alloc_kv` counts the sectors by what they store, and takes the first one with space for a node: one in use, or
an empty one if another one stays empty.  A collection takes clean sectors only, and any of them.
-/

open Effects Mem Kv Storage

namespace FlashDb

variable {G : Geometry} {w : Flash G} {A : Nat → Sector} {db db' : Kvdb}

/-- A sector has space for a node of this size; during a collection only clean sectors count. -/
def Takes (G : Geometry) (collecting : Bool) (S : Sector) (size : Nat) : Prop :=
  (S.dirty = .clean ∨ collecting = false ∧ S.dirty = .dirty) ∧
    S.stop + size + FDB_SEC_REMAIN_THRESHOLD < G.sec_size

theorem Mounted.resectored (h : Mounted db A w) (hdb : Resectored G A db db') : Mounted db' A w := by
  obtain ⟨table, rfl, htable⟩ := hdb
  exact h.withSectors htable

theorem Mounted.resectored_self (h : Mounted db A w) : Resectored G A db db :=
  ⟨db.sector_cache_table, rfl, h.sectors⟩

/-! ## How many sectors are empty and in use -/

def countStore (A : Nat → Sector) (status : StoreStatus) (is : List Nat) : Nat :=
  is.countP fun i => (A i).store = status

theorem countStore_concat (status : StoreStatus) (is : List Nat) (i : Nat) :
    countStore A status (is ++ [i]) = countStore A status is + if (A i).store = status then 1 else 0 := by
  rw [countStore, List.countP_append, countStore]
  congr 1
  by_cases h : (A i).store = status <;> simp [h]

theorem countStore_zero {status : StoreStatus} {is : List Nat} (h : countStore A status is = 0) {i : Nat}
    (hi : i ∈ is) : (A i).store ≠ status := by
  have hall := List.countP_eq_zero.mp h i hi
  simpa using hall

theorem countStore_pos {status : StoreStatus} {is : List Nat} (h : countStore A status is > 0) :
    ∃ i ∈ is, (A i).store = status := by
  obtain ⟨i, hi, hstore⟩ := List.countP_pos_iff.mp h
  exact ⟨i, hi, by simpa using hstore⟩

theorem sector_statistics_cb_runs {s : SecInfo} (hs : s.check_ok = true) (arg : Nat × Nat) :
    Runs (sector_statistics_cb s db arg) (fun r w' => w' = w ∧ r.1 = false ∧ r.2.1 = db ∧
      r.2.2 = (arg.1 + (if s.store = .empty then 1 else 0), arg.2 + if s.store = .inUse then 1 else 0)) w := by
  unfold sector_statistics_cb
  rw [hs]
  cases s.store <;> exact runs_ret ⟨rfl, rfl, rfl, rfl⟩

theorem sector_statistics_runs (h : Mounted db A w) (sector : SecInfo) :
    Runs (sector_iterator db sector .unused sector_statistics_cb (0, 0) false) (fun r w' => w' = w ∧
      Resectored G A db r.2.1 ∧
      ∃ is : List Nat, is.Nodup ∧ (∀ i < G.count, i ∈ is) ∧ (∀ i ∈ is, i < G.count) ∧
        r.2.2 = (countStore A .empty is, countStore A .inUse is)) w := by
  let L : SectorLoop G (Nat × Nat) :=
    { inv := fun done A' db' arg w' => A' = A ∧ w' = w ∧ Resectored G A db db' ∧ (∀ i ∈ done, i < G.count) ∧
        arg = (countStore A .empty done, countStore A .inUse done)
      mounted := by
        rintro _ _ _ _ _ ⟨rfl, rfl, hdb, _⟩
        exact h.resectored hdb
      resectored := by
        rintro _ _ _ _ _ _ ⟨rfl, rfl, hdb, hcount⟩ hdb'
        exact ⟨rfl, rfl, hdb.trans hdb', hcount⟩ }
  refine sector_iterator_runs (A := A) L (Q := fun _ db' arg w' => w' = w ∧ Resectored G A db db' ∧
    ∃ is : List Nat, is.Nodup ∧ (∀ i < G.count, i ∈ is) ∧ (∀ i ∈ is, i < G.count) ∧
      arg = (countStore A .empty is, countStore A .inUse is)) ?_ ?_ ?_ ?_
  · exact ⟨rfl, rfl, h.resectored_self, fun _ hi => absurd hi List.not_mem_nil, rfl⟩
  · intro done i A' db' arg w' _ _ hne
    exact absurd rfl hne
  · rintro done i s A' db' arg w' hi _ ⟨rfl, rfl, hdb, hlt, rfl⟩ _ hs _
    have hall : ∀ j ∈ done ++ [i], j < G.count := by
      intro j hj
      rcases List.mem_append.mp hj with hj | hj
      · exact hlt j hj
      · rw [List.mem_singleton.mp hj]
        exact hi
    refine (sector_statistics_cb_runs hs.check_ok _).mono ?_
    rintro ⟨stop, db'', arg⟩ _ ⟨rfl, rfl, rfl, rfl⟩
    refine ⟨A', rfl, rfl, hdb, hall, ?_⟩
    dsimp only
    rw [countStore_concat, countStore_concat, hs.store]
  · rintro done s A' db' arg w' hnodup hall ⟨rfl, rfl, hdb, hlt, harg⟩
    exact ⟨rfl, hdb, done, hnodup, hall, hlt, harg⟩

/-! ## A sector with space -/

/-- What comes of looking for space among the sectors of a status. -/
def Found (G : Geometry) (A : Nat → Sector) (collecting : Bool) (status : StoreStatus) (size : Nat)
    (sector : SecInfo) (addr : Nat) : Prop :=
  addr = FAILED_ADDR ∧ (∀ i < G.count, status = (A i).store → ¬ Takes G collecting (A i) size) ∨
    ∃ i < G.count, status = (A i).store ∧ Open G (A i) i sector size ∧ addr = G.addr i (A i).stop ∧
      (collecting = true → (A i).dirty = .clean)

theorem alloc_kv_cb_runs {i : Nat} {s : SecInfo} (hs : Cached G (A i) i s)
    (hspace : Space G (A i) i s) (size : Nat) (empty_kv : Nat) :
    Runs (alloc_kv_cb size s db empty_kv) (fun r w' => w' = w ∧ r.2.1 = db ∧
      (r.1 = true ∧ r.2.2 = G.addr i (A i).stop ∧ Open G (A i) i s size ∧
          (db.gc_request = true → (A i).dirty = .clean) ∨
        r.1 = false ∧ r.2.2 = empty_kv ∧ ¬ Takes G db.gc_request (A i) size)) w := by
  have hclean : s.dirty = .clean ↔ (A i).dirty = .clean := by
    rcases hs.dirty with heq | ⟨hdirty, hgc⟩
    · rw [heq]
    · rw [hdirty, hgc]
      simp
  have hremain := hspace.remain
  unfold alloc_kv_cb
  split
  · rename_i hfound
    obtain ⟨_, hfits, hdirty⟩ := hfound
    refine runs_ret ⟨rfl, rfl, .inl ⟨rfl, hspace.empty_kv,
      ⟨hs.store, hs.addr, hspace.empty_kv, hremain, hfits⟩, fun hgc => ?_⟩⟩
    rcases hdirty with hdirty | ⟨_, hnot⟩
    · exact hclean.mp hdirty
    · simp [hgc] at hnot
  · rename_i hfound
    refine runs_ret ⟨rfl, rfl, .inr ⟨rfl, rfl, fun htakes => hfound ⟨hs.check_ok, ?_, ?_⟩⟩⟩
    · have hlt := htakes.2
      omega
    · rcases htakes.1 with hd | ⟨hidle, hd⟩
      · exact .inl (hclean.mpr hd)
      · refine .inr ⟨?_, by simp [hidle]⟩
        rcases hs.dirty with heq | ⟨heq, _⟩
        · exact heq.trans hd
        · exact heq

theorem allocIn_runs (h : Mounted db A w) {status : StoreStatus} (hstatus : status ≠ .unused)
    (sector : SecInfo) (size : Nat) :
    Runs (sector_iterator db sector status (alloc_kv_cb size) FAILED_ADDR true) (fun r w' => w' = w ∧
      Resectored G A db r.2.1 ∧ Found G A db.gc_request status size r.1 r.2.2) w := by
  let L : SectorLoop G Nat :=
    { inv := fun done A' db' arg w' => A' = A ∧ w' = w ∧ Resectored G A db db' ∧ arg = FAILED_ADDR ∧
        ∀ i ∈ done, status = (A i).store → ¬ Takes G db.gc_request (A i) size
      mounted := by
        rintro _ _ _ _ _ ⟨rfl, rfl, hdb, _⟩
        exact h.resectored hdb
      resectored := by
        rintro _ _ _ _ _ _ ⟨rfl, rfl, hdb, hnone⟩ hdb'
        exact ⟨rfl, rfl, hdb.trans hdb', hnone⟩ }
  have hmem : ∀ {done : List Nat} {i : Nat},
      (∀ j ∈ done, status = (A j).store → ¬ Takes G db.gc_request (A j) size) →
      (status = (A i).store → ¬ Takes G db.gc_request (A i) size) →
      ∀ j ∈ done ++ [i], status = (A j).store → ¬ Takes G db.gc_request (A j) size := by
    intro done i hdone hi j hj
    rcases List.mem_append.mp hj with hj | hj
    · exact hdone j hj
    · rw [List.mem_singleton.mp hj]
      exact hi
  refine sector_iterator_runs (A := A) L (Q := fun sector db' addr w' => w' = w ∧ Resectored G A db db' ∧
    Found G A db.gc_request status size sector addr) ?_ ?_ ?_ ?_
  · exact ⟨rfl, rfl, h.resectored_self, rfl, fun _ hi => absurd hi List.not_mem_nil⟩
  · rintro done i A' db' arg w' _ ⟨rfl, rfl, hdb, rfl, hdone⟩ _ hne
    exact ⟨rfl, rfl, hdb, rfl, hmem hdone fun heq => absurd heq hne⟩
  · rintro done i s A' db' arg w' hi _ ⟨rfl, rfl, hdb, rfl, hdone⟩ heq hs hspace
    have hgc : db'.gc_request = db.gc_request := by
      obtain ⟨_, rfl, _⟩ := hdb
      rfl
    refine (alloc_kv_cb_runs hs (hspace rfl) size FAILED_ADDR).mono ?_
    rintro ⟨stop, db'', addr⟩ _ ⟨rfl, rfl, ⟨rfl, rfl, hopen, hclean⟩ | ⟨rfl, rfl, hnot⟩⟩
    · exact ⟨rfl, hdb, .inr ⟨i, hi, heq.resolve_left hstatus, hopen, rfl, fun h' => hclean (hgc.trans h')⟩⟩
    · exact ⟨A', rfl, rfl, hdb, rfl, hmem hdone fun _ => hgc ▸ hnot⟩
  · rintro done s A' db' arg w' _ hall ⟨rfl, rfl, hdb, rfl, hdone⟩
    exact ⟨rfl, hdb, .inl ⟨rfl, fun i hi => hdone i (hall i hi)⟩⟩

theorem Sector.store_cases (S : Sector) : S.store = .empty ∨ S.store = .inUse := by
  by_cases h : S.entries = []
  · exact .inl (Sector.store_empty h)
  · exact .inr (Sector.store_inUse h)

theorem Sector.entries_of_store {S : Sector} (h : S.store = .empty) : S.entries = [] := by
  by_contra hne
  rw [Sector.store_inUse hne] at h
  cases h

/-- A sector other than `i` is empty where more than one is. -/
theorem exists_other_empty {is : List Nat} (hnodup : is.Nodup) (hcount : 1 < countStore A .empty is) (i : Nat) :
    ∃ j ∈ is, j ≠ i ∧ (A j).entries = [] := by
  obtain ⟨j, hj, hji, hempty⟩ := exists_other hnodup hcount i
  exact ⟨j, hj, hji, Sector.entries_of_store (by simpa using hempty)⟩

/-- A sector of an empty one is left, or it does not matter. -/
def Reserved (G : Geometry) (A : Nat → Sector) (collecting : Bool) (i : Nat) : Prop :=
  collecting = true ∨ ∃ j < G.count, j ≠ i ∧ (A j).entries = []

/-- No sector may take a node of this size: none in use has space, and none that is empty but may not be the last
one. -/
def NoSpace (G : Geometry) (A : Nat → Sector) (collecting : Bool) (size : Nat) : Prop :=
  ∀ i < G.count, (A i).store = .inUse ∨ Reserved G A collecting i → ¬ Takes G collecting (A i) size

/-- No two sectors are empty. -/
def Sole (G : Geometry) (A : Nat → Sector) : Prop :=
  ∀ i < G.count, ∀ j < G.count, (A i).entries = [] → (A j).entries = [] → i = j

/-- A node of this size has no space in an empty sector. -/
def TooLong (G : Geometry) (size : Nat) : Prop :=
  G.sec_size ≤ SECTOR_HDR_DATA_SIZE + size + FDB_SEC_REMAIN_THRESHOLD

/-- A sector is empty. -/
def Spare (G : Geometry) (A : Nat → Sector) : Prop := ∃ i < G.count, (A i).entries = []

/-- The sector that `alloc_kv` returns. -/
def Allocated (G : Geometry) (A : Nat → Sector) (collecting : Bool) (size addr : Nat) (sector : SecInfo) : Prop :=
  ∃ i < G.count, Open G (A i) i sector size ∧ addr = G.addr i (A i).stop ∧
    (collecting = true → (A i).dirty = .clean) ∧
    (collecting = false → (A i).entries = [] → ∃ j < G.count, j ≠ i ∧ (A j).entries = [])

theorem alloc_kv_runs (h : Mounted db A w) (sector : SecInfo) (size : Nat) :
    Runs (alloc_kv db sector size) (fun r w' => w' = w ∧
      (r.1 = FAILED_ADDR ∧ Resectored G A { db with gc_request := r.2.2.gc_request } r.2.2 ∧
          (db.gc_request = true → r.2.2.gc_request = true) ∧ NoSpace G A db.gc_request size ∧
          (TooLong G size ∨ Sole G A ∧ (Spare G A → r.2.2.gc_request = true)) ∨
        r.1 ≠ FAILED_ADDR ∧ Resectored G A db r.2.2 ∧ Allocated G A db.gc_request size r.1 r.2.1)) w := by
  unfold alloc_kv
  refine (sector_statistics_runs h sector).bind ?_
  rintro ⟨sector₁, db₁, empty_sector, using_sector⟩ w ⟨rfl, hdb₁, is, hnodup, hall, hlt, hcount⟩
  obtain ⟨rfl, rfl⟩ := Prod.mk.inj hcount
  have hmounted₁ := h.resectored hdb₁
  have hgc₁ : db₁.gc_request = db.gc_request := by
    obtain ⟨_, rfl, _⟩ := hdb₁
    rfl
  have hsame : ∀ {db'}, Resectored G A db db' → Resectored G A { db with gc_request := db'.gc_request } db' := by
    rintro _ ⟨table, rfl, htable⟩
    exact ⟨table, rfl, htable⟩
  have hused : Runs (if countStore A .inUse is > 0 then
        sector_iterator db₁ sector₁ .inUse (alloc_kv_cb size) FAILED_ADDR true
      else return (sector₁, db₁, FAILED_ADDR)) (fun r w' => w' = w ∧ Resectored G A db r.2.1 ∧
        Found G A db.gc_request .inUse size r.1 r.2.2) w := by
    split
    · refine (allocIn_runs hmounted₁ (by decide) sector₁ size).mono ?_
      rintro ⟨s, db', addr⟩ _ ⟨rfl, hdb', hfound⟩
      exact ⟨rfl, hdb₁.trans hdb', hgc₁ ▸ hfound⟩
    · rename_i hzero
      refine runs_ret ⟨rfl, hdb₁, .inl ⟨rfl, fun i hi hstore => ?_⟩⟩
      exact absurd hstore.symm (countStore_zero (Nat.eq_zero_of_not_pos hzero) (hall i hi))
  refine hused.bind ?_
  rintro ⟨sector₂, db₂, addr⟩ w ⟨rfl, hdb₂, hfound⟩
  have hmounted₂ := h.resectored hdb₂
  have hgc₂ : db₂.gc_request = db.gc_request := by
    obtain ⟨_, rfl, _⟩ := hdb₂
    rfl
  dsimp only at hfound hdb₂ ⊢
  rcases hfound with ⟨rfl, hnone⟩ | ⟨i, hi, hstore, hopen, rfl, hclean⟩
  · split
    · rename_i hpos
      replace hpos := hpos.1
      split
      · rename_i hmore
        refine (allocIn_runs hmounted₂ (by decide) sector₂ size).bind ?_
        rintro ⟨sector₃, db₃, addr⟩ w ⟨rfl, hdb₃, hfound⟩
        dsimp only at hfound ⊢
        rw [hgc₂] at hfound hmore
        replace hdb₃ := hdb₂.trans hdb₃
        rcases hfound with ⟨rfl, hnone'⟩ | ⟨i, hi, hstore, hopen, rfl, hclean⟩
        · refine runs_ret ⟨rfl, .inl ⟨rfl, hsame hdb₃, fun hgc => ?_, fun i hi _ => ?_, .inl ?_⟩⟩
          · obtain ⟨_, rfl, _⟩ := hdb₃
            exact hgc
          · rcases (A i).store_cases with hs | hs
            · exact hnone' i hi hs.symm
            · exact hnone i hi hs.symm
          · obtain ⟨j, hj, hempty⟩ := countStore_pos hpos
            have hentries := Sector.entries_of_store hempty
            by_contra hshort
            refine hnone' j (hlt j hj) hempty.symm ⟨.inl ((h.stored.wf j (hlt j hj)).clean hentries), ?_⟩
            rw [Sector.stop, hentries, used_nil]
            unfold TooLong at hshort
            omega
        · refine runs_ret ⟨rfl, .inr ⟨G.addr_ne _ hi (h.stored.wf i hi).stop_lt, hdb₃, i, hi, hopen, rfl, hclean, ?_⟩⟩
          intro hgc _
          obtain ⟨j, hj, hji, hempty⟩ := exists_other_empty hnodup (hmore.resolve_right (by simp [hgc])) i
          exact ⟨j, hlt j hj, hji, hempty⟩
      · rename_i hmore
        obtain ⟨hone, hgc⟩ := not_or.mp hmore
        rw [hgc₂] at hgc
        have hsole : Sole G A := by
          intro i hi j hj hi' hj'
          by_contra hij
          exact hone (one_lt_countP (hall i hi) (hall j hj) hij (by simp [Sector.store_empty hi'])
            (by simp [Sector.store_empty hj']))
        refine runs_ret ⟨rfl, .inl ⟨rfl, ?_, fun hgc' => absurd hgc' hgc, fun i hi hmay => ?_,
          .inr ⟨hsole, fun _ => rfl⟩⟩⟩
        · obtain ⟨table, rfl, htable⟩ := hdb₂
          exact ⟨table, rfl, htable⟩
        · rcases (A i).store_cases with hs | hs
          · rcases hmay with hinUse | hgc' | ⟨j, hj, hji, hempty⟩
            · rw [hs] at hinUse
              cases hinUse
            · exact absurd hgc' hgc
            · exact absurd (hsole j hj i hi hempty (Sector.entries_of_store hs)) hji
          · exact hnone i hi hs.symm
    · rename_i hzero
      have hempty : ∀ i < G.count, (A i).store ≠ .empty := fun i hi =>
        countStore_zero (Nat.eq_zero_of_not_pos fun hpos => hzero ⟨hpos, rfl⟩) (hall i hi)
      refine runs_ret ⟨rfl, .inl ⟨rfl, hsame hdb₂, fun hgc => hgc₂.trans hgc, fun i hi _ => ?_,
        .inr ⟨fun i hi _ _ hentries => ?_, ?_⟩⟩⟩
      · rcases (A i).store_cases with hs | hs
        · exact absurd hs (hempty i hi)
        · exact hnone i hi hs.symm
      · exact absurd (Sector.store_empty hentries) (hempty i hi)
      · rintro ⟨i, hi, hentries⟩
        exact absurd (Sector.store_empty hentries) (hempty i hi)
  · have hne := G.addr_ne _ hi (h.stored.wf i hi).stop_lt
    rw [if_neg fun h' => hne h'.2]
    refine runs_ret ⟨rfl, .inr ⟨hne, hdb₂, i, hi, hopen, rfl, hclean, fun _ hempty => ?_⟩⟩
    rw [Sector.store_empty hempty] at hstore
    cases hstore

end FlashDb
