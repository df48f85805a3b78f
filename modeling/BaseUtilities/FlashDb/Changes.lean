import BaseUtilities.FlashDb.Writing

/-!
# FlashDB: changes of a database

What a deletion, a new node, a copied node and an erase make of a database that is mounted: it is mounted
again, on sectors that say what has changed.
-/

open Effects Mem Kv Storage

namespace FlashDb

variable {G : Geometry} {w : Flash G} {A : Nat → Sector} {i : Nat} {db db' : Kvdb} {β : Type}
  {R : β → Flash G → Prop}

/-! ## Marks -/

/-- The mark of a sector after a deletion. -/
def soiled (d : DirtyStatus) : DirtyStatus := if d = .clean then .dirty else d

/-- A sector with another mark. -/
def Sector.marked (S : Sector) (d : DirtyStatus) : Sector := ⟨d, S.entries⟩

theorem Stored.filed_mark {c : UInt16} {a : Nat} {d : DirtyStatus} (h : Filed G A c a) :
    Filed G (Function.update A i ((A i).marked d)) c a := by
  obtain ⟨e, hat, hfate, hname⟩ := h
  exact ⟨e, at_mark.mpr hat, hfate, hname⟩

/-- What is cached of a sector with another mark. -/
theorem Cached.mark {S : Sector} {s : SecInfo} {d d' : DirtyStatus} (h : Cached G S i s)
    (hd : d' = d ∨ d' = .dirty ∧ d = .gc) : Cached G (S.marked d) i { s with dirty := d' } where
  check_ok := h.check_ok
  store := h.store
  dirty := hd
  addr := h.addr
  combined := h.combined
  space := h.space.imp id fun hspace => ⟨hspace.empty_kv, hspace.remain⟩

theorem Sector.Wf.mark {S : Sector} (h : S.Wf G) (hne : S.entries ≠ []) {d : DirtyStatus}
    (hd : d ≠ .unused) : (S.marked d).Wf G :=
  ⟨fun hempty => absurd hempty hne, hd, h.room⟩

theorem update_other {S : Sector} : ∀ j ≠ i, A j = Function.update A i S j :=
  fun _ hji => (Function.update_of_ne hji _ _).symm

theorem markDirty_runs (h : Mounted db A w) (hi : i < G.count) (hne : (A i).entries ≠ []) {off : Nat}
    (hoff : off < G.sec_size) :
    Runs (markDirty db (G.addr i off)) (fun r w' => r.1 = .noErr ∧
      (∃ table, r.2 = { db with sector_cache_table := table }) ∧
      Mounted r.2 (Function.update A i ((A i).marked (soiled (A i).dirty))) w') w := by
  have hroom := G.room
  have haddr : alignDown (G.addr i off) db.sec_size = i * G.sec_size := by
    rw [h.sec_size, Geometry.addr_alignDown hoff]
  unfold markDirty fdb_read_status
  rw [haddr]
  dsimp only
  rw [bind_assoc]
  have hheader := h.stored.contains_header hi
  rw [SectorHdr.bytes] at hheader
  have hmark := Contains.slice _ _ _ hheader
  refine runs_read rfl hi (Nat.lt_of_lt_of_le (by decide) hroom) hmark.load ?_
  intro buf hbuf
  dsimp only
  rw [hbuf]
  show Runs (if DirtyStatus.ofStatus (fdb_get_status [statusByte (A i).dirty.index] FDB_SECTOR_DIRTY_STATUS_NUM) =
    .clean then _ else _) _ _
  rw [fdb_get_status_eq _ (by decide) _ (A i).dirty.index_lt, DirtyStatus.ofStatus_index]
  split
  · rename_i hclean
    have hsoiled : soiled (A i).dirty = .dirty := if_pos hclean
    rw [hsoiled]
    refine runs_write_dirty h.stored hi (by rw [hclean]; decide) (by decide) (runs_ret ⟨rfl, ⟨_, rfl⟩, ?_⟩)
    refine ⟨h.sec_size, h.max_size, h.oldest, h.stored.written ((h.stored.wf i hi).mark hne (by decide)), ?_,
      h.keys.mono fun c a => Stored.filed_mark⟩
    refine h.sectors.modify hi (fun _ => rfl) (fun s hs => ?_) update_other
    rw [Function.update_self]
    exact hs.mark (.inl rfl)
  · rename_i hdirty
    have hsoiled : soiled (A i).dirty = (A i).dirty := if_neg hdirty
    have hself : Function.update A i ((A i).marked (A i).dirty) = A := Function.update_eq_self i A
    rw [hsoiled, hself]
    exact runs_ret ⟨rfl, ⟨_, rfl⟩, h⟩

/-! ## Deletions -/

def Entry.withFate (e : Entry) (f : Fate) : Entry := { e with fate := f }

theorem Entry.withFate_size (e : Entry) (f : Fate) : (e.withFate f).size = e.size := rfl

/-- The sector with another status of its entry behind `pre`. -/
def Sector.refated (S : Sector) (pre : List Entry) (e : Entry) (post : List Entry) (f : Fate) : Sector :=
  ⟨S.dirty, pre ++ e.withFate f :: post⟩

theorem Sector.refated_stop {S : Sector} {pre post : List Entry} {e : Entry} {f : Fate}
    (hentries : S.entries = pre ++ e :: post) : (S.refated pre e post f).stop = S.stop := by
  rw [Sector.stop, Sector.stop, hentries, Sector.refated]
  simp only [used_append, used_cons]
  rfl

theorem Sector.refated_store {S : Sector} {pre post : List Entry} {e : Entry} {f : Fate}
    (hentries : S.entries = pre ++ e :: post) : (S.refated pre e post f).store = S.store := by
  have hne : S.entries ≠ [] := by simp [hentries]
  have hne' : (S.refated pre e post f).entries ≠ [] := by simp [Sector.refated]
  rw [Sector.store_inUse hne, Sector.store_inUse hne']

theorem Sector.Wf.refated {S : Sector} (h : S.Wf G) {pre post : List Entry} {e : Entry} {f : Fate}
    (hentries : S.entries = pre ++ e :: post) : (S.refated pre e post f).Wf G where
  clean hempty := absurd hempty (by simp [Sector.refated])
  marked := h.marked
  room := by
    rw [Sector.refated_stop hentries]
    exact h.room

/-- What is cached of a sector holds of another one that looks the same from outside. -/
theorem Cached.same {S S' : Sector} {s : SecInfo} (h : Cached G S i s) (hdirty : S'.dirty = S.dirty)
    (hstore : S'.store = S.store) (hstop : S'.stop = S.stop) : Cached G S' i s where
  check_ok := h.check_ok
  store := h.store.trans hstore.symm
  dirty := by
    rw [hdirty]
    exact h.dirty
  addr := h.addr
  combined := h.combined
  space := h.space.imp id fun hspace => ⟨hstop ▸ hspace.empty_kv, hstop ▸ hspace.remain⟩

/-- The sectors after the status of an entry has changed and its sector has been marked. -/
def deletion (A : Nat → Sector) (i : Nat) (pre : List Entry) (e : Entry) (post : List Entry) (f : Fate) :
    Nat → Sector :=
  Function.update A i ⟨soiled (A i).dirty, pre ++ e.withFate f :: post⟩

theorem at_deletion (h : Stored w A) (hi : i < G.count) {pre post : List Entry} {e e' : Entry}
    (hentries : (A i).entries = pre ++ e :: post) {f : Fate} {a : Nat} :
    At G (deletion A i pre e post f) a e' ↔ At G A a e' ∧ a ≠ G.addr i (SECTOR_HDR_DATA_SIZE + used pre) ∨
      a = G.addr i (SECTOR_HDR_DATA_SIZE + used pre) ∧ e' = e.withFate f :=
  h.at_replace hi hentries (e.withFate_size f)

/-- A node that is not deleted stays filed. -/
theorem Filed.retire (h : Stored w A) (hi : i < G.count) {pre post : List Entry} {e : Entry}
    (hentries : (A i).entries = pre ++ e :: post) {d : DirtyStatus} {c : UInt16} {a : Nat}
    (hfiled : Filed G A c a) :
    Filed G (Function.update A i ⟨d, pre ++ e.withFate .preDelete :: post⟩) c a := by
  obtain ⟨e', hat, hfate, hname⟩ := hfiled
  by_cases ha : a = G.addr i (SECTOR_HDR_DATA_SIZE + used pre)
  · obtain rfl := h.at_unique hat ⟨i, hi, pre, post, hentries, ha⟩
    exact ⟨_, (h.at_replace hi hentries (e'.withFate_size _)).mpr (.inr ⟨ha, rfl⟩), Fate.noConfusion, hname⟩
  · exact ⟨e', (h.at_replace hi hentries (e.withFate_size _)).mpr (.inl ⟨hat, ha⟩), hfate, hname⟩

/-- So does every node but the one that is deleted. -/
theorem Filed.delete (h : Stored w A) (hi : i < G.count) {pre post : List Entry} {e : Entry}
    (hentries : (A i).entries = pre ++ e :: post) {d : DirtyStatus} {c : UInt16} {a : Nat}
    (hfiled : Filed G A c a) (ha : a ≠ G.addr i (SECTOR_HDR_DATA_SIZE + used pre)) (f : Fate) :
    Filed G (Function.update A i ⟨d, pre ++ e.withFate f :: post⟩) c a := by
  obtain ⟨e', hat, hfate, hname⟩ := hfiled
  exact ⟨e', (h.at_replace hi hentries (e.withFate_size f)).mpr (.inl ⟨hat, ha⟩), hfate, hname⟩

/-- A database after the status of an entry has been written. -/
theorem Mounted.refated (h : Mounted db A w) (hi : i < G.count) {pre post : List Entry} {e : Entry}
    (hentries : (A i).entries = pre ++ e :: post) {f : Fate} {keys : List KvCacheNode}
    (hkeys : KeysCached (Filed G (Function.update A i ((A i).refated pre e post f))) (slots keys)) :
    Mounted { db with kv_cache_table := keys } (Function.update A i ((A i).refated pre e post f))
      (w.written i ((A i).refated pre e post f).image) where
  sec_size := h.sec_size
  max_size := h.max_size
  oldest := h.oldest
  stored := h.stored.written ((h.stored.wf i hi).refated hentries)
  sectors := h.sectors.congr fun j _ s hs => by
    by_cases hji : j = i
    · subst hji
      rw [Function.update_self]
      exact hs.same rfl (Sector.refated_store hentries) (Sector.refated_stop hentries)
    · rwa [Function.update_of_ne hji]
  keys := hkeys

/-- The mark on a sector of which the status of an entry has been written. -/
theorem Mounted.markDirty_runs (hmounted : Mounted db (Function.update A i ((A i).refated pre e post f)) w)
    (hi : i < G.count) {off : Nat} (hoff : off < G.sec_size) :
    Runs (markDirty db (G.addr i off)) (fun r w' => r.1 = .noErr ∧
      (∃ table, r.2 = { db with sector_cache_table := table }) ∧
      Mounted r.2 (deletion A i pre e post f) w') w := by
  have hmark := FlashDb.markDirty_runs hmounted hi (by rw [Function.update_self]; simp [Sector.refated]) hoff
  rw [Function.update_self, Function.update_idem] at hmark
  exact hmark

/-- What the functions that write leave a database with: only what it keeps for itself changes. -/
def Changed (db db' : Kvdb) : Prop :=
  ∃ oldest sectors keys completed, db' = { db with
    oldest_addr := oldest
    sector_cache_table := sectors
    kv_cache_table := keys
    last_is_complete_del := completed }

theorem Changed.refl (db : Kvdb) : Changed db db := ⟨_, _, _, _, rfl⟩

theorem Changed.trans {db₁ db₂ db₃ : Kvdb} (h : Changed db₁ db₂) (h' : Changed db₂ db₃) : Changed db₁ db₃ := by
  obtain ⟨_, _, _, _, rfl⟩ := h
  obtain ⟨oldest, sectors, keys, completed, rfl⟩ := h'
  exact ⟨oldest, sectors, keys, completed, rfl⟩

theorem Resectored.changed (h : Resectored G A db db') : Changed db db' := by
  obtain ⟨sectors, rfl, _⟩ := h
  exact ⟨_, sectors, _, _, rfl⟩

theorem Recached.changed (h : Recached G A db db') : Changed db db' := by
  obtain ⟨sectors, keys, rfl, _⟩ := h
  exact ⟨_, sectors, keys, _, rfl⟩

/-- A node is being deleted. -/
theorem delNode_retire (h : Mounted db A w) (hi : i < G.count) {pre post : List Entry} {e : Entry}
    (hentries : (A i).entries = pre ++ e :: post) (hfate : e.fate = .write) (key : Option Key) {kv : Node}
    (hstart : kv.start = G.addr i (SECTOR_HDR_DATA_SIZE + used pre)) :
    Runs (delNode db key kv false) (fun r w' => r.1 = .noErr ∧ Changed db r.2 ∧
      r.2.last_is_complete_del = true ∧ Mounted r.2 (deletion A i pre e post .preDelete) w') w := by
  have hroom := h.stored.entry_room hi hentries
  have hge := e.size_ge
  have hkeys : KeysCached (Filed G (Function.update A i ((A i).refated pre e post .preDelete)))
      (slots db.kv_cache_table) := h.keys.mono fun c a hfiled => hfiled.retire h.stored hi hentries
  have hmounted := h.refated hi hentries hkeys
  have hflag : Mounted { db with last_is_complete_del := true } _ _ :=
    ⟨hmounted.sec_size, hmounted.max_size, hmounted.oldest, hmounted.stored, hmounted.sectors, hmounted.keys⟩
  unfold delNode markDeleted
  rw [if_pos (by decide), bind_assoc, hstart]
  refine runs_write_fate h.stored hi hentries .preDelete rfl (by rw [hfate]; decide) ?_
  refine (hflag.markDirty_runs hi (by omega)).mono ?_
  rintro ⟨result, db'⟩ w' ⟨rfl, ⟨sectors, rfl⟩, hmounted'⟩
  exact ⟨rfl, ⟨_, sectors, _, _, rfl⟩, rfl, hmounted'⟩

/-- A node is deleted; the cache of keys has lost it already, or loses it now. -/
theorem delNode_complete (h : Mounted db A w) (hi : i < G.count) {pre post : List Entry} {e : Entry}
    (hentries : (A i).entries = pre ++ e :: post) {key : Option Key} {kv : Node}
    (hstart : kv.start = G.addr i (SECTOR_HDR_DATA_SIZE + used pre))
    (hkey : key.getD (kv.name.bytes.take kv.name_len.toNat) = e.name.bytes)
    (hpoints : db.last_is_complete_del = true → ∀ p ∈ slots db.kv_cache_table, p.2 ≠ FDB_DATA_UNUSED →
      p.2 ≠ kv.start) :
    Runs (delNode db key kv true) (fun r w' => r.1 = .noErr ∧ Changed db r.2 ∧
      r.2.last_is_complete_del = false ∧ Mounted r.2 (deletion A i pre e post .deleted) w') w := by
  have hroom := h.stored.entry_room hi hentries
  have hge := e.size_ge
  rw [hstart] at hpoints
  -- The cache is left without the node either way.
  have hkeys : ∃ keys, (if !db.last_is_complete_del ∧ FdbErr.noErr = FdbErr.noErr then
        update_kv_cache db e.name.bytes FDB_DATA_UNUSED else db) = { db with kv_cache_table := keys } ∧
      KeysCached (Filed G (Function.update A i ((A i).refated pre e post .deleted))) (slots keys) := by
    by_cases hflag : db.last_is_complete_del = true
    · refine ⟨db.kv_cache_table, if_neg (by simp [hflag]), h.keys.first, fun p hp hused => ?_⟩
      exact (h.keys.points p hp hused).delete h.stored hi hentries (hpoints hflag p hp hused) _
    · have hother : ∀ c a, c ≠ nameCrc e.name.bytes → Filed G A c a →
          Filed G (Function.update A i ((A i).refated pre e post .deleted)) c a := by
        intro c a hne hfiled
        refine hfiled.delete h.stored hi hentries ?_ _
        rintro rfl
        obtain ⟨e', hat, _, hname⟩ := hfiled
        obtain rfl := h.stored.at_unique hat ⟨i, hi, pre, post, hentries, rfl⟩
        exact hne hname.symm
      obtain ⟨keys, hupdate, hkeys⟩ := h.keys.update hother
        fun hused : FDB_DATA_UNUSED ≠ FDB_DATA_UNUSED => absurd rfl hused
      exact ⟨keys, by rw [if_pos (by simp [hflag]), hupdate], hkeys⟩
  obtain ⟨keys, hupdate, hkeys⟩ := hkeys
  have hmounted := h.refated hi hentries hkeys
  have hflag : Mounted { db with kv_cache_table := keys, last_is_complete_del := false } _ _ :=
    ⟨hmounted.sec_size, hmounted.max_size, hmounted.oldest, hmounted.stored, hmounted.sectors, hmounted.keys⟩
  unfold delNode markDeleted
  rw [if_neg (by decide), bind_assoc, hstart]
  refine runs_write_fate h.stored hi hentries .deleted rfl (by cases e.fate <;> decide) ?_
  dsimp only
  rw [hkey, hupdate]
  refine (hflag.markDirty_runs hi (by omega)).mono ?_
  rintro ⟨result, db'⟩ w' ⟨rfl, ⟨sectors, rfl⟩, hmounted'⟩
  exact ⟨rfl, ⟨_, sectors, keys, _, rfl⟩, rfl, hmounted'⟩

/-! ## A sector that is erased -/

theorem format_sector_runs (hsec : db.sec_size = G.sec_size) (hi : i < G.count) :
    Runs (format_sector db (i * G.sec_size) (UInt32.ofNat SECTOR_NOT_COMBINED)) (fun r w' => r.1 = .noErr ∧
      w' = w.written i (Sector.image ⟨.clean, []⟩) ∧ r.2 = update_sector_cache db
        { SecInfo.uninit with addr := i * G.sec_size, check_ok := false, empty_kv := FAILED_ADDR }) w := by
  have hroom := G.room
  have herase : respond G w (.erase (i * G.sec_size) db.sec_size) = some (.noErr, w.written i []) := by
    rw [hsec, respond_erase hi, Flash.written, overlay_erased_nil]
  have hsize : SECTOR_HDR_DATA_SIZE = 16 := rfl
  unfold format_sector
  refine runs_assert (by rw [hsec, Nat.mul_mod_left]) ?_
  refine runs_call herase ?_
  rw [if_pos rfl]
  show Runs (fdb_flash_write (i * G.sec_size) (sectorHdr .empty .clean).bytes true >>= _) _ _
  refine runs_behind (k := 0) (s := []) rfl hi (by simpa using G.sec_pos)
    (by rw [length_sectorHdr]; simp only [List.length_nil]; omega) ?_
  refine runs_ret ⟨rfl, ?_, rfl⟩
  rw [Sector.image, Sector.store_empty rfl, images_nil, List.append_nil]
  rfl

/-- A database after a sector of deleted nodes has been erased. -/
theorem Mounted.wipe (h : Mounted db A w) (hi : i < G.count) (hdeleted : ∀ e ∈ (A i).entries, e.fate = .deleted) :
    ∃ table, update_sector_cache db
        { SecInfo.uninit with addr := i * G.sec_size, check_ok := false, empty_kv := FAILED_ADDR } =
        { db with sector_cache_table := table } ∧
      Mounted { db with sector_cache_table := table } (Function.update A i ⟨.clean, []⟩)
        (w.written i (Sector.image ⟨.clean, []⟩)) := by
  obtain ⟨table, hupdate, htable⟩ := h.sectors.update (B := Function.update A i ⟨.clean, []⟩) hi
    (show { SecInfo.uninit with addr := i * G.sec_size, check_ok := false, empty_kv := FAILED_ADDR }.addr = _ from rfl)
    (fun hok => absurd hok Bool.false_ne_true) update_other
  have hwf : Sector.Wf G ⟨.clean, []⟩ := by
    refine ⟨fun _ => rfl, DirtyStatus.noConfusion, ?_⟩
    have := G.room
    show 16 + 88 < G.sec_size
    omega
  refine ⟨table, hupdate, h.sec_size, h.max_size, h.oldest, h.stored.written hwf, htable, h.keys.mono ?_⟩
  rintro c a ⟨e, ⟨j, hj, pre, post, hentries, haddr⟩, hfate, hname⟩
  refine ⟨e, at_wipe.mpr ⟨j, hj, ?_, pre, post, hentries, haddr⟩, hfate, hname⟩
  rintro rfl
  exact hfate (hdeleted e (hentries ▸ List.mem_append_right _ List.mem_cons_self))

end FlashDb
