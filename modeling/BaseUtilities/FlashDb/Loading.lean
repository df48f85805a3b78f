import BaseUtilities.FlashDb.Defaults
import BaseUtilities.FlashDb.Headers

/-!
# FlashDB: loading

`fdb_kvdb_init` on the sectors that a database has left behind stands for the same map again, also where some of
them have lost their headers; on storage that has never been formatted it stands for no pairs.
-/

open Effects Mem Kv Storage

namespace FlashDb

variable {G : Geometry} {w : Flash G} {A : Nat → Sector} {i : Nat} {db db' : Kvdb} {K : Name → Prop}
  {m : Name → Option Bytes} {bad : Nat → Prop} {P : (Name → Option Bytes) → Prop}

/-- A database that has been loaded stands for the map `m`, and there is space for a collection. -/
structure Ready (K : Name → Prop) (m : Name → Option Bytes) (db : Kvdb) (w : Flash G) : Prop where
  kept : ∃ A, Kept K m db A w ∧ Spare G A
  idle : db.gc_request = false
  init_ok : db.init_ok = true

/-! ## The oldest sector -/

/-- A cache in zeroed memory claims to know the first sector, and the search for the oldest one sees no other. -/
theorem oldest_zeroed_runs (hmax : 0 < db.max_size) (hsec : 0 < db.sec_size)
    (hfits : db.max_size + db.sec_size < 2 ^ 32)
    (htable : db.sector_cache_table = List.replicate FDB_SECTOR_CACHE_TABLE_SIZE .uninit)
    (holdest : db.oldest_addr = 0) :
    Runs (sector_iterator db .uninit .unused check_oldest_addr_cb (0, .unused) false)
      (fun r w' => w' = w ∧ r.2.1 = db ∧ r.2.2.1 = 0) w := by
  have hcache : get_sector_from_cache db 0 = some .uninit := by
    rw [get_sector_from_cache, htable]
    rfl
  have hread : ∀ sector, Runs (read_sector_info db 0 sector false)
      (fun r w' => w' = w ∧ r = (.noErr, .uninit, db)) w := by
    intro sector
    unfold read_sector_info
    refine runs_assert (Nat.zero_mod _) ?_
    rw [hcache]
    exact runs_ret ⟨rfl, rfl⟩
  have hnext : ∀ len, len < 4294967296 →
      get_next_sector_addr db .uninit len = if len ≤ db.max_size then 0 else FAILED_ADDR := by
    intro len hlen
    have hsize : (if SecInfo.uninit.combined = SECTOR_NOT_COMBINED then db.sec_size
        else SecInfo.uninit.combined * db.sec_size % 4294967296) = 0 := by
      rw [if_neg (by decide), show SecInfo.uninit.combined = 0 from rfl, Nat.zero_mul]
    have hfirst : (SecInfo.uninit.addr + 0) % 4294967296 < db.max_size := hmax
    unfold get_next_sector_addr
    dsimp only
    rw [hsize, if_pos hfirst, Nat.add_zero, Nat.mod_eq_of_lt hlen]
    rfl
  unfold sector_iterator
  refine Total.forever
    (fun s w' => w' = w ∧ s.db = db ∧ s.sec_addr = 0 ∧ s.arg = (0, .unused) ∧ s.traversed_len ≤ db.max_size)
    (fun s _ => db.max_size + db.sec_size - s.traversed_len) ⟨rfl, rfl, holdest, rfl, Nat.zero_le _⟩ ?_
  rintro ⟨sector, sec_addr, traversed_len, kv, db', arg⟩ w' ⟨rfl, hdb, rfl, rfl, hle⟩
  dsimp only at hdb hle ⊢
  subst hdb
  refine (hread sector).bind ?_
  rintro _ _ ⟨rfl, rfl⟩
  dsimp only
  rw [if_pos (.inl rfl)]
  have hvisit : visitSector 0 .uninit check_oldest_addr_cb false db' (0, .unused) =
      pure (false, .uninit, db', 0, .unused) := rfl
  rw [hvisit, pure_bind]
  dsimp only
  rw [if_neg Bool.false_ne_true, hnext _ (by omega)]
  by_cases hend : traversed_len + db'.sec_size ≤ db'.max_size
  · rw [if_pos hend, if_pos (by decide)]
    refine runs_ret ⟨⟨rfl, rfl, rfl, rfl, hend⟩, ?_⟩
    dsimp only
    omega
  · rw [if_neg hend, if_neg (by decide)]
    exact runs_ret ⟨rfl, rfl, rfl⟩

/-! ## A collection that had been begun -/

theorem recovery_gc_runs (h : Kept K m db A w) (hidle : db.gc_request = false) (hspare : Spare G A) (sector : SecInfo) :
    Runs (sector_iterator db sector .unused check_and_recovery_gc_cb () false)
      (fun r w' => Changed db r.2.1 ∧ ∃ A', Kept K m r.2.1 A' w' ∧ Spare G A') w := by
  let L : SectorLoop G Unit :=
    { inv := fun _ A' db' _ w' => Changed db db' ∧ Kept K m db' A' w' ∧ Spare G A'
      mounted := fun hinv => hinv.2.1.mounted
      resectored := fun hinv hdb => ⟨hinv.1.trans hdb.changed, hinv.2.1.resectored hdb, hinv.2.2⟩ }
  refine sector_iterator_runs (A := A) L (Q := fun _ db' _ w' => Changed db db' ∧
    ∃ A', Kept K m db' A' w' ∧ Spare G A') ⟨Changed.refl db, h, hspare⟩ ?_ ?_ ?_
  · intro done i A' db' arg w' _ hinv _ _
    exact hinv
  · rintro done i s A' db' arg w' _ _ ⟨hchanged, hkept, hspare'⟩ _ _ _
    have hidle' : db'.gc_request = false := hchanged.gc_request.trans hidle
    unfold check_and_recovery_gc_cb gc_collect
    split
    · refine (gc_collect_by_free_size_runs (hkept.request true) rfl hspare' _).bind ?_
      rintro db'' w'' ⟨hchanged', A'', hkept'', hspare'', _⟩
      refine runs_ret ⟨A'', hchanged.trans ?_, hkept'', hspare''⟩
      have hsame : ({ db' with gc_request := false } : Kvdb) = db' := Kvdb.request_self hidle'
      rw [← hsame]
      exact hchanged'
    · exact runs_ret ⟨A', hchanged, hkept, hspare'⟩
  · rintro done s A' db' arg w' _ _ ⟨hchanged, hkept, hspare'⟩
    exact ⟨hchanged, A', hkept, hspare'⟩

/-! ## The nodes -/

theorem recovery_kv_cb_runs (h : Mounted db A w) {a : Nat} {e : Entry} (hat : At G A a e)
    (hfate : e.fate = .write ∨ e.fate = .deleted) {kv : Node} (hkv : NodeOf e a kv) :
    Runs (check_and_recovery_kv_cb kv db ()) (fun r w' => w' = w ∧ r.1 = false ∧ Recached G A db r.2.1) w := by
  unfold check_and_recovery_kv_cb
  rw [hkv.crc_is_ok, hkv.status]
  rcases hfate with hfate | hfate
  · rw [hfate, if_neg (by decide), if_neg (by decide), if_pos (by decide)]
    have hname : kv.name.bytes.take kv.name_len.toNat = e.name.bytes := by
      rw [hkv.name_len]
      exact hkv.name
    have hfiled : Filed G A (nameCrc e.name.bytes) kv.start := by
      rw [hkv.start]
      exact ⟨e, hat, by rw [hfate]; exact Fate.noConfusion, rfl⟩
    obtain ⟨table, hupdate, hkeys⟩ := h.keys.update (fun _ _ _ hpoints => hpoints) fun _ => hfiled
    rw [hname, hupdate]
    exact runs_ret ⟨rfl, rfl, db.sector_cache_table, table, rfl, h.sectors, hkeys⟩
  · rw [hfate, if_neg (by decide), if_neg (by decide), if_neg (by decide)]
    exact runs_ret ⟨rfl, rfl, h.recached_self⟩

theorem recoverNodes_runs (h : Mounted db A w) (hidle : db.gc_request = false) (hsettled : Settled G A) :
    Runs (recoverNodes db) (fun db' w' => w' = w ∧ Recached G A db db') w := by
  let L : NodeLoop A w Unit :=
    { inv := fun _ db' _ => Recached G A db db'
      mounted := fun hinv => h.recached hinv
      resectored := fun hinv hdb => hinv.resectored hdb }
  have hpass : ∀ kv, Runs (kv_iterator db kv check_and_recovery_kv_cb ()) (fun r w' => w' = w ∧
      Recached G A db r.2.1) w := by
    intro kv
    refine kv_iterator_runs L (Q := fun _ db' _ => Recached G A db db') h.recached_self ?_ ?_
    · rintro done a e kv db' arg hat hkv hdb
      refine (recovery_kv_cb_runs (h.recached hdb) hat (hsettled.fate_cases hat) hkv).mono ?_
      rintro ⟨stop, db'', _⟩ _ ⟨rfl, rfl, hdb'⟩
      exact ⟨rfl, hdb.trans hdb'⟩
    · exact fun _ _ _ _ _ hdb => hdb
  unfold recoverNodes
  refine Total.forever (fun s w' => s = db ∧ w' = w) (fun _ _ => 0) ⟨rfl, rfl⟩ ?_
  rintro s w' ⟨rfl, rfl⟩
  refine (hpass _).bind ?_
  rintro ⟨kv, db', _⟩ w ⟨rfl, hdb⟩
  have hidle' : db'.gc_request = false := hdb.changed.gc_request.trans hidle
  dsimp only
  rw [hidle', if_neg Bool.false_ne_true]
  exact runs_ret ⟨rfl, hdb⟩

/-! ## Loading -/

theorem Kept.recovery (h : Kept K m db A w) (running : Bool) :
    Kept K m { db with in_recovery_check := running } A w :=
  ⟨h.toHolds, ⟨h.mounted.sec_size, h.mounted.max_size, h.mounted.oldest, h.mounted.stored, h.mounted.sectors,
    h.mounted.keys⟩, h.completed⟩

theorem Kept.finish (h : Kept K m db A w) : Kept K m { db with init_ok := true } A w :=
  ⟨h.toHolds, ⟨h.mounted.sec_size, h.mounted.max_size, h.mounted.oldest, h.mounted.stored, h.mounted.sectors,
    h.mounted.keys⟩, h.completed⟩

theorem recover_runs (h : Kept K m db A w) (hidle : db.gc_request = false) (hspare : Spare G A) (sector : SecInfo) :
    Runs (recover db sector) (fun r w' => r.1 = .noErr ∧ r.2.gc_request = false ∧
      ∃ A', Kept K m r.2 A' w' ∧ Spare G A') w := by
  unfold recover
  refine (recovery_gc_runs h hidle hspare sector).bind ?_
  rintro ⟨s, db₁, _⟩ w₁ ⟨hchanged, A₁, hkept₁, hspare₁⟩
  have hidle₁ : db₁.gc_request = false := hchanged.gc_request.trans hidle
  refine (recoverNodes_runs hkept₁.mounted hidle₁ hkept₁.settled).bind ?_
  rintro db₂ w ⟨rfl, hdb₂⟩
  have hkept₂ := (hkept₁.recached hdb₂).recovery false
  exact runs_ret ⟨rfl, hdb₂.changed.gc_request.trans hidle₁, A₁, hkept₂, hspare₁⟩

theorem Geometry.max_div (G : Geometry) : G.max_size / G.sec_size = G.count := by
  rw [Geometry.max_size, Nat.mul_div_cancel _ G.sec_pos]

/-- Sectors that are empty stay as they are when they are formatted. -/
theorem formatAll_runs (hsec : db.sec_size = G.sec_size) (hmax : db.max_size = G.max_size)
    (huncached : Uncached G db fun _ => True) (hempty : ∀ i < G.count, w i = (erased G.sec_size).overlay
      (Sector.image ⟨.clean, []⟩)) : Runs (formatAll db) (fun r w' => r = (.noErr, db) ∧ w' = w) w := by
  unfold formatAll
  refine Total.forever (fun s w' => w' = w ∧ ∃ t ≤ G.count, s = (t * G.sec_size, db)) (fun s _ => G.max_size - s.1)
    ⟨rfl, 0, Nat.zero_le _, by rw [Nat.zero_mul]⟩ ?_
  rintro ⟨addr, db'⟩ w ⟨rfl, t, ht, hs⟩
  obtain ⟨rfl, rfl⟩ := Prod.mk.inj hs
  have hiff : t * G.sec_size < G.max_size ↔ t < G.count := Nat.mul_lt_mul_right G.sec_pos
  dsimp only
  split
  · rename_i hlt
    rw [hmax, hiff] at hlt
    refine (format_lost_runs hsec hlt (huncached t hlt trivial)).bind ?_
    rintro _ _ ⟨rfl, rfl⟩
    have hsame : w.written t (Sector.image ⟨.clean, []⟩) = w := by
      rw [Flash.written, ← hempty t hlt, Function.update_eq_self]
    dsimp only
    rw [if_neg (by simp), hsec, ← Nat.succ_mul]
    refine runs_ret ⟨⟨hsame, t + 1, hlt, rfl⟩, ?_⟩
    have hle := G.sector_end hlt
    have hpos := G.sec_pos
    dsimp only
    rw [Nat.succ_mul]
    omega
  · rename_i hge
    rw [hmax, hiff] at hge
    have hall : t = G.count := by omega
    exact runs_ret ⟨rfl, rfl⟩

theorem uncached_blank (not_formatable : Bool) (default_kv : List (Key × Bytes)) (bad : Nat → Prop) :
    Uncached G (Kvdb.blank G not_formatable default_kv) bad := by
  intro i hi _
  rw [get_sector_from_cache_eq_none]
  intro s hs
  rw [List.eq_of_mem_replicate hs]
  exact (G.sector_ne hi).symm

theorem Stored.blank (h : Stored w A) (not_formatable : Bool) (default_kv : List (Key × Bytes)) :
    Mounted (Kvdb.blank G not_formatable default_kv) A w := by
  refine h.mounted rfl rfl rfl ?_ ?_
  · intro s hs
    rw [List.eq_of_mem_replicate hs]
  · intro node hnode
    rw [List.eq_of_mem_replicate hnode]

theorem holds_empty (G : Geometry) (K : Name → Prop) : Holds G K (fun _ => none) fun _ => ⟨.clean, []⟩ :=
  holds_dead fun _ _ _ he => absurd he List.not_mem_nil

theorem Kept.rewound (h : Kept K m db A w) : Kept K m { db with oldest_addr := 0 } A w :=
  ⟨h.toHolds, ⟨h.mounted.sec_size, h.mounted.max_size, ⟨0, G.count_pos, (Nat.zero_mul _).symm⟩, h.mounted.stored,
    h.mounted.sectors, h.mounted.keys⟩, h.completed⟩

/-- Sectors that have just been formatted get the default pairs. -/
theorem fdb_kv_set_default_runs (hempty : ∀ i < G.count, w i = (erased G.sec_size).overlay (Sector.image ⟨.clean, []⟩))
    {not_formatable : Bool} {default_kv : List (Key × Bytes)} (hcreates : Creates G K default_kv P) :
    Runs (fdb_kv_set_default { Kvdb.blank G not_formatable default_kv with in_recovery_check := true })
      (fun r w' => r.2.gc_request = false ∧ ∃ m, P m ∧ ∃ A, Kept K m r.2 A w' ∧ Spare G A) w := by
  have hstored : Stored w fun _ => ⟨.clean, []⟩ := ⟨fun _ _ => .empty G, hempty⟩
  have hmounted : Mounted { Kvdb.blank G not_formatable default_kv with
      in_recovery_check := true
      kv_cache_table := (Kvdb.blank G not_formatable default_kv).kv_cache_table.map fun node =>
        { node with addr := FDB_DATA_UNUSED } } (fun _ => ⟨.clean, []⟩) w := by
    refine hstored.mounted rfl rfl rfl ?_ ?_
    · intro s hs
      rw [List.eq_of_mem_replicate hs]
    · intro node hnode
      obtain ⟨node', _, rfl⟩ := List.mem_map.mp hnode
      rfl
  unfold fdb_kv_set_default
  refine Total.bind (formatAll_runs rfl rfl (uncached_blank not_formatable default_kv _) hempty) ?_
  rintro _ w₁ ⟨rfl, rfl⟩
  dsimp only
  rw [if_pos rfl]
  refine (hcreates ⟨holds_empty G K, hmounted, rfl⟩ rfl).bind ?_
  rintro db' w₂ ⟨hchanged, m, hm, A, hkept, hspare⟩
  exact runs_ret ⟨hchanged.gc_request, m, hm, A, hkept.rewound, hspare⟩

theorem fdb_kv_load_runs (hw : Partly w A bad) (hholds : Holds G K m A) (hspare : Spare G A) {not_formatable : Bool}
    (hformatable : (∃ i < G.count, bad i) → not_formatable = false) {default_kv : List (Key × Bytes)}
    (hnew : (∀ i < G.count, bad i) → Creates G K default_kv P) (hold : (¬ ∀ i < G.count, bad i) → P m) :
    Runs (fdb_kv_load (Kvdb.blank G not_formatable default_kv)) (fun r w' => r.1 = .noErr ∧ r.2.gc_request = false ∧
      ∃ m', P m' ∧ ∃ A', Kept K m' r.2 A' w' ∧ Spare G A') w := by
  have huncached : Uncached G { Kvdb.blank G not_formatable default_kv with in_recovery_check := true } bad :=
    uncached_blank not_formatable default_kv bad
  unfold fdb_kv_load
  refine (check_headers_runs rfl rfl rfl ?_ huncached hw hformatable .uninit).bind ?_
  · exact sectorsCached_unused fun s hs => by rw [List.eq_of_mem_replicate hs]
  rintro ⟨sector, db₁, failed⟩ w₁ ⟨hstored, hdb₁, hall, hsome, hevery⟩
  have hkept : Kept K m { Kvdb.blank G not_formatable default_kv with in_recovery_check := true } A w₁ :=
    Kept.recovery ⟨hholds, hstored.blank not_formatable default_kv, rfl⟩ true
  dsimp only at hdb₁ hall hsome hevery ⊢
  have hsizes : db₁.not_formatable = not_formatable ∧ db₁.max_size / db₁.sec_size = G.count := by
    obtain ⟨table, rfl, _⟩ := hdb₁
    exact ⟨rfl, G.max_div⟩
  have hneg : ¬ (db₁.not_formatable = true ∧ failed > 0) := by
    rintro ⟨hnot, hpos⟩
    rw [hsizes.1, hformatable (hsome hpos)] at hnot
    cases hnot
  rw [if_neg hneg, hsizes.2]
  by_cases hcount : failed = G.count
  · -- No sector had a header.
    obtain ⟨hbad, rfl⟩ := hall hcount
    rw [if_pos hcount]
    have hempty : ∀ i < G.count, w₁ i = (erased G.sec_size).overlay (Sector.image ⟨.clean, []⟩) := by
      intro i hi
      rw [hstored.image i hi, (hw.lost i hi (hbad i hi)).1]
    refine (fdb_kv_set_default_runs hempty (hnew hbad)).bind ?_
    rintro ⟨_, db₂⟩ w₂ ⟨hidle, m', hm', A', hkept', hspare'⟩
    refine (recover_runs hkept' hidle hspare' sector).mono ?_
    rintro ⟨result, db₃⟩ w₃ ⟨hresult, hidle', hready⟩
    exact ⟨hresult, hidle', m', hm', hready⟩
  · rw [if_neg hcount]
    have hidle : db₁.gc_request = false := by
      obtain ⟨table, rfl, _⟩ := hdb₁
      rfl
    refine (recover_runs (hkept.resectored hdb₁) hidle hspare sector).mono ?_
    rintro ⟨result, db₂⟩ w₂ ⟨hresult, hidle', hready⟩
    exact ⟨hresult, hidle', m, hold fun hbad => hcount (hevery hbad), hready⟩

theorem fdb_init_ex_runs (hsec : db.sec_size = G.sec_size) (hmax : db.max_size = G.max_size) :
    Runs (fdb_init_ex db) (fun r w' => w' = w ∧ r = .noErr) w := by
  have hsectors := G.sectors
  have hpos : 0 < G.max_size := Nat.mul_pos G.count_pos G.sec_pos
  unfold fdb_init_ex
  rw [hsec, hmax]
  split
  · exact runs_ret ⟨rfl, rfl⟩
  · refine runs_assert G.sec_pos.ne' (runs_assert hpos.ne' (runs_assert G.power ?_))
    rw [if_neg (by rw [Geometry.max_size, Nat.mul_mod_left]; simp), if_neg (by rw [G.max_div]; omega)]
    exact runs_ret ⟨rfl, rfl⟩

/-- What comes of the load decides what comes of `fdb_kvdb_init`. -/
theorem init_runs {not_formatable : Bool} {default_kv : List (Key × Bytes)} {Q : FdbErr × Kvdb → Flash G → Prop}
    (hload : Runs (fdb_kv_load (Kvdb.blank G not_formatable default_kv)) (fun r w' =>
      Q (r.1, if r.1 = .noErr then { r.2 with init_ok := true } else r.2) w') w) :
    Runs (fdb_kvdb_init (Kvdb.zeroed G.sec_size G.max_size not_formatable) default_kv) Q w := by
  have hpos : 0 < G.max_size := Nat.mul_pos G.count_pos G.sec_pos
  unfold fdb_kvdb_init
  refine (fdb_init_ex_runs rfl rfl).bind ?_
  rintro _ w ⟨rfl, rfl⟩
  rw [if_neg (by simp)]
  refine (oldest_zeroed_runs ?_ ?_ ?_ ?_ ?_).bind ?_
  · exact hpos
  · exact G.sec_pos
  · exact G.max_size_fits
  · rfl
  · rfl
  rintro ⟨sector, db₁, oldest, status⟩ w ⟨rfl, hdb₁, holdest⟩
  dsimp only at hdb₁ holdest ⊢
  subst hdb₁ holdest
  refine runs_assert ?_ ?_
  · show 1 < G.max_size / G.sec_size
    rw [G.max_div]
    exact G.sectors
  show Runs (fdb_kv_load (Kvdb.blank G not_formatable default_kv) >>= _) _ _
  exact hload.bind fun r w' hQ => runs_ret hQ

/-- The sectors that a database has left behind stand for its map again, where those that have lost their headers
were empty. -/
theorem fdb_kvdb_init_runs (hw : Partly w A bad) (hholds : Holds G K m A) (hspare : Spare G A) {not_formatable : Bool}
    (hformatable : (∃ i < G.count, bad i) → not_formatable = false) {default_kv : List (Key × Bytes)}
    (hnew : (∀ i < G.count, bad i) → Creates G K default_kv P) (hold : (¬ ∀ i < G.count, bad i) → P m) :
    Runs (fdb_kvdb_init (Kvdb.zeroed G.sec_size G.max_size not_formatable) default_kv)
      (fun r w' => r.1 = .noErr ∧ ∃ m', P m' ∧ Ready K m' r.2 w') w := by
  refine init_runs ((fdb_kv_load_runs hw hholds hspare hformatable hnew hold).mono ?_)
  rintro ⟨result, db'⟩ w' ⟨rfl, hidle, m', hm', A', hkept, hspare'⟩
  exact ⟨rfl, m', hm', ⟨A', hkept.finish, hspare'⟩, hidle, rfl⟩

/-! ## Storage that must not be formatted -/

theorem fdb_kv_load_refuses {t : Nat} (ht : t < G.count) (hlost : Lost (w t))
    (hgood : ∀ i < t, (A i).Wf G ∧ w i = (erased G.sec_size).overlay (A i).image) (default_kv : List (Key × Bytes)) :
    Runs (fdb_kv_load (Kvdb.blank G true default_kv))
      (fun r w' => w' = w ∧ r.1 = .readErr ∧ r.2.init_ok = false) w := by
  have huncached : Uncached G { Kvdb.blank G true default_kv with in_recovery_check := true } (· = t) :=
    uncached_blank true default_kv _
  unfold fdb_kv_load
  refine (check_headers_refuses rfl rfl rfl ?_ huncached ht hlost hgood rfl .uninit).bind ?_
  · exact sectorsCached_unused fun s hs => by rw [List.eq_of_mem_replicate hs]
  rintro ⟨sector, db₁, failed⟩ w₁ ⟨rfl, hdb₁, rfl⟩
  obtain ⟨table, rfl, _⟩ := hdb₁
  dsimp only
  rw [if_pos ⟨rfl, Nat.one_pos⟩]
  exact runs_ret ⟨rfl, rfl, rfl⟩

/-- A database that must not format its storage is not loaded where a header is wrong, and leaves all as it
is; the check ends at the first wrong header, and what is behind it does not matter. -/
theorem not_formatable_refused {t : Nat} (ht : t < G.count) (hfirst : Lost (w t))
    (hgood : ∀ i < t, (A i).Wf G ∧ w i = (erased G.sec_size).overlay (A i).image)
    (default_kv : List (Key × Bytes)) :
    Runs (fdb_kvdb_init (Kvdb.zeroed G.sec_size G.max_size true) default_kv)
      (fun r w' => w' = w ∧ r.1 = .readErr ∧ r.2.init_ok = false) w := by
  refine init_runs ((fdb_kv_load_refuses ht hfirst hgood default_kv).mono ?_)
  rintro ⟨result, db'⟩ w' ⟨rfl, rfl, hok⟩
  exact ⟨rfl, rfl, hok⟩

/-- The second of two sectors is erased. -/
theorem not_formatable_refused_second :
    Runs (G := .small) (fdb_kvdb_init (Kvdb.zeroed 256 512 true) [])
      (fun r w' => w' = Function.update (Flash.imaged .small fun _ => ⟨.clean, []⟩) 1 (erased 256) ∧
        r.1 = .readErr ∧ r.2.init_ok = false)
      (Function.update (Flash.imaged .small fun _ => ⟨.clean, []⟩) 1 (erased 256)) :=
  not_formatable_refused (A := fun _ => ⟨.clean, []⟩) (by decide : 1 < 2)
    (by decide : Lost (erased 256))
    (fun i hi => ⟨.empty .small, Function.update_of_ne (Nat.ne_of_lt hi) _ _⟩) []

/-! ## An empty database -/

/-- All sectors have been formatted. -/
def Flash.formatted (G : Geometry) : Flash G := .imaged G fun _ => ⟨.clean, []⟩

/-- A database of such sectors, with nothing in its caches. -/
def Kvdb.loaded (G : Geometry) : Kvdb := { Kvdb.blank G false [] with init_ok := true }

theorem loaded_kept (G : Geometry) (K : Name → Prop) :
    Kept K (fun _ => none) (Kvdb.loaded G) (fun _ => ⟨.clean, []⟩) (Flash.formatted G) := by
  have hstored : Stored (Flash.formatted G) fun _ => ⟨.clean, []⟩ := ⟨fun _ _ => .empty G, fun _ _ => rfl⟩
  exact Kept.finish ⟨holds_empty G K, hstored.blank false [], rfl⟩

theorem loaded_ready (G : Geometry) (K : Name → Prop) : Ready K (fun _ => none) (Kvdb.loaded G) (Flash.formatted G) :=
  ⟨⟨_, loaded_kept G K, 0, G.count_pos, rfl⟩, rfl, rfl⟩

end FlashDb
