import BaseUtilities.FlashDb.Nodes

/-!
# FlashDB: reading sectors

`Mounted` is what holds between a database, its caches and its storage whenever a function of the
database looks at a sector.  `read_sector_info` tells what is in the storage, from the cache or by going
through the nodes of the sector.
-/

open Effects Mem Kv Storage

namespace FlashDb

variable {G : Geometry} {w : Flash G} {A : Nat → Sector} {i : Nat} {db : Kvdb} {α β : Type}
  {R : β → Flash G → Prop}

/-- The entry at an address. -/
def At (G : Geometry) (A : Nat → Sector) (a : Nat) (e : Entry) : Prop :=
  ∃ i < G.count, ∃ pre post, (A i).entries = pre ++ e :: post ∧
    a = G.addr i (SECTOR_HDR_DATA_SIZE + used pre)

/-- What the cache of keys may say: a node for the check of its name is there and not yet deleted. -/
def Filed (G : Geometry) (A : Nat → Sector) (c : UInt16) (a : Nat) : Prop :=
  ∃ e, At G A a e ∧ e.fate ≠ .deleted ∧ nameCrc e.name.bytes = c

structure Mounted (db : Kvdb) (A : Nat → Sector) (w : Flash G) : Prop where
  sec_size : db.sec_size = G.sec_size
  max_size : db.max_size = G.max_size
  oldest : ∃ i < G.count, db.oldest_addr = i * G.sec_size
  stored : Stored w A
  sectors : SectorsCached G A db.sector_cache_table
  keys : KeysCached (Filed G A) (slots db.kv_cache_table)

theorem Mounted.withSectors (h : Mounted db A w) {table : List SecInfo} (htable : SectorsCached G A table) :
    Mounted { db with sector_cache_table := table } A w :=
  ⟨h.sec_size, h.max_size, h.oldest, h.stored, htable, h.keys⟩

/-! ## Empty caches -/

/-- A database in memory that is all zero but for its sizes, which `fdb_kvdb_control` has set. -/
def Kvdb.zeroed (sec_size max_size : Nat) (not_formatable : Bool) : Kvdb where
  sec_size := sec_size
  max_size := max_size
  oldest_addr := 0
  init_ok := false
  not_formatable := not_formatable
  default_kvs := []
  gc_request := false
  in_recovery_check := false
  cur_kv := .uninit
  cur_sector := .uninit
  last_is_complete_del := false
  kv_cache_table := List.replicate FDB_KV_CACHE_TABLE_SIZE ⟨0, 0, 0⟩
  sector_cache_table := List.replicate FDB_SECTOR_CACHE_TABLE_SIZE .uninit

/-- The database as `fdb_kvdb_init` loads it. -/
def Kvdb.blank (G : Geometry) (not_formatable : Bool) (default_kv : List (Key × Bytes)) : Kvdb :=
  { Kvdb.zeroed G.sec_size G.max_size not_formatable with
    default_kvs := default_kv
    sector_cache_table := List.replicate FDB_SECTOR_CACHE_TABLE_SIZE
      { SecInfo.uninit with check_ok := false, empty_kv := FAILED_ADDR, addr := FDB_DATA_UNUSED }
    kv_cache_table := List.replicate FDB_KV_CACHE_TABLE_SIZE ⟨0, 0, FDB_DATA_UNUSED⟩ }

theorem sectorsCached_unused {table : List SecInfo} (h : ∀ s ∈ table, s.addr = FDB_DATA_UNUSED) :
    SectorsCached G A table :=
  ⟨List.pairwise_of_forall_mem_list fun s hs _ _ _ => h s hs, fun s hs hused => absurd (h s hs) hused⟩

/-- The caches are empty, and the database starts with its first sector. -/
theorem Stored.mounted (h : Stored w A) (hsec : db.sec_size = G.sec_size) (hmax : db.max_size = G.max_size)
    (holdest : db.oldest_addr = 0) (hsectors : ∀ s ∈ db.sector_cache_table, s.addr = FDB_DATA_UNUSED)
    (hkeys : ∀ node ∈ db.kv_cache_table, node.addr = FDB_DATA_UNUSED) : Mounted db A w where
  sec_size := hsec
  max_size := hmax
  oldest := ⟨0, G.count_pos, by rw [holdest, Nat.zero_mul]⟩
  stored := h
  sectors := sectorsCached_unused hsectors
  keys := by
    have hslots : ∀ p ∈ slots db.kv_cache_table, p.2 = FDB_DATA_UNUSED := by
      intro p hp
      obtain ⟨node, hnode, rfl⟩ := List.mem_map.mp hp
      exact hkeys node hnode
    exact ⟨List.pairwise_of_forall_mem_list fun _ _ q hq _ => hslots q hq, fun p hp hused => absurd (hslots p hp) hused⟩

/-! ## Through a sector -/

theorem traverseNodes_runs (h : Mounted db A w) (hi : i < G.count) (hne : (A i).entries ≠ [])
    {sector : SecInfo} {kv : Node} (hstore : sector.store ≠ .empty) (haddr : sector.addr = i * G.sec_size)
    (hempty : sector.empty_kv = G.addr i SECTOR_HDR_DATA_SIZE)
    (hremain : sector.remain = G.sec_size - SECTOR_HDR_DATA_SIZE)
    (hstart : kv.start = G.addr i SECTOR_HDR_DATA_SIZE) :
    Runs (traverseNodes db sector kv) (fun r w' => w' = w ∧ r.1 = .noErr ∧
      r.2 = { sector with empty_kv := G.addr i (A i).stop, remain := G.sec_size - (A i).stop }) w := by
  unfold traverseNodes
  -- At the entry `e`, the entries in front of it have been counted.
  refine Total.forever
    (fun s w' => w' = w ∧ ∃ pre e post, (A i).entries = pre ++ e :: post ∧
      s.2.start = G.addr i (SECTOR_HDR_DATA_SIZE + used pre) ∧
      s.1 = { sector with
        empty_kv := G.addr i (SECTOR_HDR_DATA_SIZE + used pre)
        remain := G.sec_size - (SECTOR_HDR_DATA_SIZE + used pre) })
    (fun s _ => i * G.sec_size + G.sec_size - s.2.start) ?_ ?_
  · obtain ⟨e, post, hentries⟩ := List.exists_cons_of_ne_nil hne
    exact ⟨rfl, [], e, post, hentries, hstart, by rw [used_nil, Nat.add_zero, ← hempty, ← hremain]⟩
  · rintro ⟨s, kv⟩ w' ⟨rfl, pre, e, post, hentries, hstart, rfl⟩
    have hroom := h.stored.entry_room hi hentries
    dsimp only at hstart ⊢
    refine (read_kv_runs h.stored h.max_size hi hentries hstart).bind ?_
    rintro ⟨_, kv'⟩ _ ⟨rfl, rfl, hkv⟩
    rw [hstart] at hkv
    dsimp only at hkv ⊢
    rw [if_neg (by simp [hkv.crc_is_ok])]
    refine (get_next_kv_addr_runs h.stored h.sec_size h.sectors hi hentries hstore haddr hkv).bind ?_
    rintro _ _ ⟨rfl, rfl⟩
    have hstop : (A i).stop = SECTOR_HDR_DATA_SIZE + used pre + e.size + used post := by
      rw [Sector.stop, hentries, used_append, used_cons]
      omega
    have hfilled : ({ sector with
        empty_kv := G.addr i (SECTOR_HDR_DATA_SIZE + used pre) + kv'.len
        remain := G.sec_size - (SECTOR_HDR_DATA_SIZE + used pre) - kv'.len } : SecInfo) =
        { sector with
          empty_kv := G.addr i (SECTOR_HDR_DATA_SIZE + used pre + e.size)
          remain := G.sec_size - (SECTOR_HDR_DATA_SIZE + used pre + e.size) } := by
      rw [hkv.len]
      congr 1
      · omega
      · simp only [Geometry.addr]
        omega
    rw [hfilled]
    cases post with
    | nil =>
      rw [used_nil, Nat.add_zero] at hstop
      rw [if_neg (by simp [nextAddr]), ← hstop]
      exact runs_ret ⟨rfl, rfl, rfl⟩
    | cons e' post =>
      have hge := e.size_ge
      have hkvsize : KV_HDR_DATA_SIZE = 24 := rfl
      have hnext : nextAddr G i pre e (e' :: post) ≠ FAILED_ADDR := G.addr_ne _ hi (by omega)
      rw [if_pos hnext]
      refine runs_ret ⟨⟨rfl, pre ++ [e], e', post, by rw [hentries, List.append_assoc]; rfl, ?_, ?_⟩, ?_⟩
      · rw [used_append, used_cons, used_nil, Nat.add_zero, ← Nat.add_assoc]
        rfl
      · rw [used_append, used_cons, used_nil, Nat.add_zero, ← Nat.add_assoc]
      · rw [hstart]
        simp only [nextAddr, Geometry.addr]
        omega

theorem runStart_erased (start n : Nat) (last : UInt8) (addr : Nat) :
    runStart start (List.replicate (n + 1) erasedByte) (last, addr) =
      (erasedByte, if last ≠ erasedByte then start else addr) := by
  induction n generalizing start last addr with
  | zero => simp [runStart]
  | succ n ih =>
    rw [List.replicate_succ, runStart, ih]
    simp

theorem fdb_continue_ff_addr_runs (hi : i < G.count) {off n : Nat} (hpos : 0 < n) (hend : off + n = G.sec_size)
    (herased : Contains w i off (List.replicate n erasedByte)) :
    Runs (fdb_continue_ff_addr (G.addr i off) (i * G.sec_size + G.sec_size))
      (fun r w' => w' = w ∧ r = G.addr i off) w := by
  unfold fdb_continue_ff_addr
  refine Total.bind (Q := fun r w' => w' = w ∧ r = (erasedByte, G.addr i off)) ?_ ?_
  · refine Total.forever
      (fun s w' => w' = w ∧ G.addr i off ≤ s.1 ∧
        (s = (G.addr i off, FDB_BYTE_WRITTEN, G.addr i off) ∨
          G.addr i off < s.1 ∧ s.2 = (erasedByte, G.addr i off)))
      (fun s _ => i * G.sec_size + G.sec_size - s.1) ⟨rfl, Nat.le_refl _, .inl rfl⟩ ?_
    rintro ⟨start, last, addr⟩ w' ⟨rfl, hle, hs⟩
    dsimp only at hle hs ⊢
    split
    · rename_i hlt
      obtain ⟨k, rfl⟩ : ∃ k, start = G.addr i (off + k) :=
        ⟨start - G.addr i off, by simp only [Geometry.addr] at hle ⊢; omega⟩
      set size := if G.addr i (off + k) + 32 < i * G.sec_size + G.sec_size then 32
        else i * G.sec_size + G.sec_size - G.addr i (off + k) with hsize
      simp only [Geometry.addr] at hlt hle hs hsize ⊢
      obtain ⟨m, hm⟩ : ∃ m, size = m + 1 := ⟨size - 1, by split at hsize <;> omega⟩
      have hfit : k + size ≤ n := by split at hsize <;> omega
      refine runs_read rfl hi (by omega) (herased k size (by rw [List.length_replicate]; exact hfit)) ?_
      intro buf hbuf
      have hbytes : buf.bytes = List.replicate (m + 1) erasedByte := by
        rw [hbuf, List.drop_replicate, List.take_replicate, Nat.min_eq_left (by omega), hm]
      dsimp only
      rw [hbytes, runStart_erased]
      refine runs_ret ⟨⟨rfl, by dsimp only; omega, .inr ⟨by dsimp only; omega, ?_⟩⟩, by dsimp only; omega⟩
      rcases hs with hs | ⟨_, hs⟩
      · obtain ⟨hstart, rfl, rfl⟩ : _ = _ ∧ last = _ ∧ addr = _ := by simpa using hs
        rw [if_pos (by decide), hstart]
        rfl
      · obtain ⟨rfl, rfl⟩ := Prod.mk.inj hs
        rw [if_neg (by decide)]
    · rename_i hge
      refine runs_ret ⟨rfl, ?_⟩
      rcases hs with hs | ⟨_, hs⟩
      · obtain ⟨rfl, _⟩ := Prod.mk.inj hs
        simp only [Geometry.addr] at hge
        omega
      · exact hs
  · rintro _ _ ⟨rfl, rfl⟩
    refine runs_ret ⟨rfl, ?_⟩
    rw [if_pos rfl, wgAlign_eq]

/-! ## A sector -/

theorem Sector.Wf.stop_lt {S : Sector} (h : S.Wf G) : S.stop < G.sec_size := by
  have := h.room
  omega

theorem Sector.store_inUse {S : Sector} (h : S.entries ≠ []) : S.store = .inUse := if_neg h

theorem Sector.store_empty {S : Sector} (h : S.entries = []) : S.store = .empty := if_pos h

theorem traverseSector_runs (h : Mounted db A w) (hi : i < G.count) {sector : SecInfo}
    (hstore : sector.store = (A i).store) (haddr : sector.addr = i * G.sec_size) :
    Runs (traverseSector db sector) (fun r w' => w' = w ∧ r.1 = .noErr ∧
      r.2 = { sector with empty_kv := G.addr i (A i).stop, remain := G.sec_size - (A i).stop }) w := by
  have hwf := h.stored.wf i hi
  unfold traverseSector
  by_cases hentries : (A i).entries = []
  · have hstop : (A i).stop = SECTOR_HDR_DATA_SIZE := by rw [Sector.stop, hentries]; rfl
    rw [Sector.store_empty hentries] at hstore
    simp only [hstore]
    refine runs_ret ⟨rfl, rfl, ?_⟩
    rw [hstop, haddr, h.sec_size]
  · rw [Sector.store_inUse hentries] at hstore
    simp only [hstore]
    refine (traverseNodes_runs h hi hentries ?_ ?_ ?_ ?_ ?_).bind ?_
    · exact StoreStatus.noConfusion
    · exact haddr
    · rw [haddr]
    · rw [h.sec_size]
    · rw [haddr]
    rintro ⟨_, s⟩ _ ⟨rfl, rfl, rfl⟩
    dsimp only
    have hroom := hwf.room
    have herased := h.stored.contains hi (A i).entries [] (List.append_nil _).symm
    rw [images_nil, List.nil_append, ← Sector.stop] at herased
    rw [haddr, h.sec_size]
    refine (fdb_continue_ff_addr_runs hi (by omega) (by omega) herased).bind ?_
    rintro _ _ ⟨rfl, rfl⟩
    rw [if_neg (by simp)]
    exact runs_ret ⟨rfl, rfl, rfl⟩

theorem StoreStatus.index_lt (s : StoreStatus) : s.index < FDB_SECTOR_STORE_STATUS_NUM := by
  cases s <;> decide

theorem DirtyStatus.index_lt (d : DirtyStatus) : d.index < FDB_SECTOR_DIRTY_STATUS_NUM := by
  cases d <;> decide

/-- What the database is left with where only the cache of sectors changes. -/
def Resectored (G : Geometry) (A : Nat → Sector) (db db' : Kvdb) : Prop :=
  ∃ table, db' = { db with sector_cache_table := table } ∧ SectorsCached G A table

theorem Resectored.trans {db₁ db₂ db₃ : Kvdb} (h : Resectored G A db₁ db₂) (h' : Resectored G A db₂ db₃) :
    Resectored G A db₁ db₃ := by
  obtain ⟨_, rfl, _⟩ := h
  obtain ⟨table, rfl, htable⟩ := h'
  exact ⟨table, rfl, htable⟩

/-- A header is read without regard to what is in the other sectors. -/
theorem readSectorHdr_runs (hsectors : SectorsCached G A db.sector_cache_table) (hi : i < G.count)
    (hheader : Contains w i 0 (sectorHdr (A i).store (A i).dirty).bytes) (sector : SecInfo) (traversal : Bool)
    (hmounted : traversal = true → Mounted db A w)
    (hnew : traversal = false → get_sector_from_cache db (i * G.sec_size) = none) :
    Runs (readSectorHdr db (i * G.sec_size) sector traversal)
      (fun r w' => w' = w ∧ r.1 = .noErr ∧ Cached G (A i) i r.2.1 ∧
        (traversal = true → Space G (A i) i r.2.1) ∧ r.2.2 = update_sector_cache db r.2.1 ∧
        Resectored G A db r.2.2) w := by
  unfold readSectorHdr
  refine runs_read rfl hi G.sec_pos hheader.load ?_
  intro buf hbuf
  have hhdr : SectorHdr.ofBytes buf.bytes = sectorHdr (A i).store (A i).dirty := by
    rw [hbuf]
    exact SectorHdr.ofBytes_bytes _ rfl rfl
  have hcombined : (UInt32.ofNat SECTOR_NOT_COMBINED).toNat = SECTOR_NOT_COMBINED := by decide
  dsimp only
  rw [hhdr]
  split
  · rename_i hbad
    exact absurd hbad (by simp [sectorHdr, hcombined])
  · dsimp only [sectorHdr]
    rw [hcombined, fdb_get_status_eq _ (by decide) _ (A i).store.index_lt,
      fdb_get_status_eq _ (by decide) _ (A i).dirty.index_lt, StoreStatus.ofStatus_index,
      DirtyStatus.ofStatus_index]
    have hinfo : ∀ remain empty_kv, Info G (A i) i (SecInfo.mk true (A i).store (A i).dirty (i * G.sec_size)
        SECTOR_MAGIC_WORD SECTOR_NOT_COMBINED remain empty_kv) :=
      fun _ _ => ⟨rfl, rfl, .inl rfl, rfl, rfl⟩
    cases traversal with
    | true =>
      rw [if_pos rfl]
      refine (traverseSector_runs (hmounted rfl) hi ?_ ?_).bind ?_
      · rfl
      · rfl
      rintro ⟨_, s⟩ _ ⟨rfl, rfl, rfl⟩
      have hspace : Space G (A i) i (SecInfo.mk true (A i).store (A i).dirty (i * G.sec_size)
          SECTOR_MAGIC_WORD SECTOR_NOT_COMBINED (G.sec_size - (A i).stop) (G.addr i (A i).stop)) := ⟨rfl, rfl⟩
      obtain ⟨table, hdb, htable⟩ :=
        hsectors.update (B := A) hi rfl (fun _ => ⟨hinfo _ _, .inr hspace⟩) fun _ _ => rfl
      exact runs_ret ⟨rfl, rfl, ⟨hinfo _ _, .inr hspace⟩, fun _ => hspace, rfl, table, hdb, htable⟩
    | false =>
      rw [if_neg Bool.false_ne_true, hnew rfl]
      obtain ⟨table, hdb, htable⟩ :=
        hsectors.update (B := A) hi rfl (fun _ => ⟨hinfo 0 FAILED_ADDR, .inl rfl⟩) fun _ _ => rfl
      exact runs_ret ⟨rfl, rfl, ⟨hinfo _ _, .inl rfl⟩, fun hf => absurd hf Bool.false_ne_true, rfl, table, hdb, htable⟩

theorem read_sector_info_runs (h : Mounted db A w) (hi : i < G.count) (sector : SecInfo) (traversal : Bool) :
    Runs (read_sector_info db (i * G.sec_size) sector traversal)
      (fun r w' => w' = w ∧ r.1 = .noErr ∧ Cached G (A i) i r.2.1 ∧
        (traversal = true → Space G (A i) i r.2.1) ∧ Resectored G A db r.2.2) w := by
  unfold read_sector_info
  refine runs_assert (by rw [h.sec_size, Nat.mul_mod_left]) ?_
  have hheader : (traversal = false → get_sector_from_cache db (i * G.sec_size) = none) → Runs
      (readSectorHdr db (i * G.sec_size) sector traversal) (fun r w' => w' = w ∧ r.1 = .noErr ∧
        Cached G (A i) i r.2.1 ∧ (traversal = true → Space G (A i) i r.2.1) ∧ Resectored G A db r.2.2) w := by
    intro hnew
    refine (readSectorHdr_runs h.sectors hi (h.stored.contains_header hi) sector traversal (fun _ => h) hnew).mono ?_
    rintro r w ⟨rfl, hresult, hcached, hspace, _, hdb⟩
    exact ⟨rfl, hresult, hcached, hspace, hdb⟩
  cases hget : get_sector_from_cache db (i * G.sec_size) with
  | none => exact hheader fun _ => hget
  | some s =>
    have hcached := h.sectors.get hi hget
    dsimp only
    split
    · rename_i huse
      refine runs_ret ⟨rfl, rfl, hcached, fun htraversal => ?_, db.sector_cache_table, rfl, h.sectors⟩
      have hempty : s.empty_kv ≠ FAILED_ADDR := by simpa [htraversal] using huse
      exact hcached.space.resolve_left hempty
    · rename_i huse
      refine hheader fun htraversal => ?_
      simp [htraversal] at huse

/-- The header of a sector, where the others may be anything. -/
theorem read_header_runs (hsec : db.sec_size = G.sec_size) (hsectors : SectorsCached G A db.sector_cache_table)
    (hi : i < G.count) (hheader : Contains w i 0 (sectorHdr (A i).store (A i).dirty).bytes) (sector : SecInfo) :
    Runs (read_sector_info db (i * G.sec_size) sector false) (fun r w' => w' = w ∧ Cached G (A i) i r.2.1 ∧
      (r.2.2 = db ∨ r.2.2 = update_sector_cache db r.2.1) ∧ Resectored G A db r.2.2) w := by
  unfold read_sector_info
  refine runs_assert (by rw [hsec, Nat.mul_mod_left]) ?_
  cases hget : get_sector_from_cache db (i * G.sec_size) with
  | none =>
    refine (readSectorHdr_runs hsectors hi hheader sector false (fun h => absurd h Bool.false_ne_true)
      fun _ => hget).mono ?_
    rintro r w ⟨rfl, _, hcached, _, hdb, hresectored⟩
    exact ⟨rfl, hcached, .inr hdb, hresectored⟩
  | some s =>
    dsimp only
    rw [if_pos (by simp)]
    exact runs_ret ⟨rfl, hsectors.get hi hget, .inl rfl, db.sector_cache_table, rfl, hsectors⟩

end FlashDb
