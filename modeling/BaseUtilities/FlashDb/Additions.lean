import BaseUtilities.FlashDb.Changes

/-!
# FlashDB: nodes that are added

A sector that has been found for a node takes it behind the others, be it a new pair or a node that is moved
there from another sector.  The cache of keys knows the node from then on, and none of its kind.
-/

open Effects Mem Kv Storage

namespace FlashDb

variable {G : Geometry} {w : Flash G} {A : Nat → Sector} {i : Nat} {db db' : Kvdb}

/-- The sector `i`, which is `S`, has space for a node, and `s` says where. -/
structure Open (G : Geometry) (S : Sector) (i : Nat) (s : SecInfo) (size : Nat) : Prop where
  store : s.store = S.store
  addr : s.addr = i * G.sec_size
  empty_kv : s.empty_kv = G.addr i S.stop
  remain : s.remain = G.sec_size - S.stop
  fits : size + FDB_SEC_REMAIN_THRESHOLD < s.remain

/-- The sectors with an entry behind the others of the sector `i`. -/
def addition (A : Nat → Sector) (i : Nat) (e : Entry) : Nat → Sector :=
  Function.update A i ⟨(A i).dirty, (A i).entries ++ [e]⟩

/-- The cache knows one address for a name at most. -/
def Latest (keys : List KvCacheNode) (k : Name) (a : Nat) : Prop :=
  ∀ p ∈ slots keys, p.2 ≠ FDB_DATA_UNUSED → p.1 = nameCrc k.bytes → p.2 = a

theorem addition_self (e : Entry) : addition A i e i = ⟨(A i).dirty, (A i).entries ++ [e]⟩ :=
  Function.update_self _ _ _

theorem addition_other {j : Nat} (e : Entry) (hji : j ≠ i) : addition A i e j = A j :=
  Function.update_of_ne hji _ _

theorem addition_stop (e : Entry) : (addition A i e i).stop = (A i).stop + e.size := by
  rw [addition_self, Sector.stop, Sector.stop, used_append, used_cons, used_nil]
  omega

theorem addition_store (e : Entry) : (addition A i e i).store = .inUse := by
  rw [addition_self]
  exact Sector.store_inUse (by simp)

theorem Open.stop_lt {S : Sector} {s : SecInfo} {size : Nat} (h : Open G S i s size) :
    S.stop + size + FDB_SEC_REMAIN_THRESHOLD < G.sec_size := by
  have hfits := h.fits
  rw [h.remain] at hfits
  omega

theorem Open.wf {s : SecInfo} {e : Entry} (hopen : Open G (A i) i s e.size) (h : (A i).Wf G) :
    (addition A i e i).Wf G := by
  have hlt := hopen.stop_lt
  refine ⟨fun hempty => ?_, ?_, ?_⟩
  · rw [addition_self] at hempty
    exact absurd hempty (by simp)
  · rw [addition_self]
    exact h.marked
  · rw [addition_stop]
    exact hlt

theorem Stored.extend (h : Stored w A) (hi : i < G.count) {s : SecInfo} {e : Entry}
    (hopen : Open G (A i) i s e.size) :
    Stored (w.written i (addition A i e i).image) (addition A i e) := by
  have hwf := hopen.wf (h.wf i hi)
  rw [addition_self] at hwf ⊢
  exact h.written hwf

/-! ## The cached sector -/

theorem modifySector_comp {a : Nat} {f g : SecInfo → SecInfo} (hg : ∀ s, (g s).addr = s.addr)
    (table : List SecInfo) : modifySector a f (modifySector a g table) = modifySector a (f ∘ g) table := by
  induction table with
  | nil => rfl
  | cons s table ih =>
    rw [modifySector, modifySector]
    by_cases hs : s.addr = a
    · rw [if_pos hs, if_pos hs, modifySector, if_pos ((hg s).trans hs)]
      rfl
    · rw [if_neg hs, if_neg hs, modifySector, if_neg hs, ih]

/-- What is cached of a sector once it has taken an entry. -/
theorem Cached.filled {S T : Sector} {s : SecInfo} (h : Cached G S i s) (hdirty : T.dirty = S.dirty) :
    Cached G T i { s with
      store := T.store
      empty_kv := G.addr i T.stop
      remain := G.sec_size - (G.addr i T.stop - s.addr) } where
  check_ok := h.check_ok
  store := rfl
  dirty := by
    rw [hdirty]
    exact h.dirty
  addr := h.addr
  combined := h.combined
  space := by
    refine .inr ⟨rfl, ?_⟩
    dsimp only
    rw [h.addr, Geometry.addr, Nat.add_sub_cancel_left]

/-- The cache of sectors between the new status of a sector and its new end. -/
def Filling (G : Geometry) (A : Nat → Sector) (i : Nat) (db : Kvdb) (table : List SecInfo) : Prop :=
  ∀ e : Entry, ∃ table', update_sector_empty_addr_cache { db with sector_cache_table := table } (i * G.sec_size)
      (G.addr i ((A i).stop + e.size)) = { db with sector_cache_table := table' } ∧
    SectorsCached G (addition A i e) table'

theorem update_sec_status_runs (h : Mounted db A w) (hi : i < G.count) {sector : SecInfo} {size : Nat}
    (hopen : Open G (A i) i sector size) :
    Runs (update_sec_status db sector size) (fun r w' => r.1 = .noErr ∧ r.2.1.getD false = false ∧
      w' = w.written i ((sectorHdr .inUse (A i).dirty).bytes ++ images (A i).entries) ∧
      ∃ table, r.2.2 = { db with sector_cache_table := table } ∧ Filling G A i db table) w := by
  have hsec := G.sec_le
  have hroom := (h.stored.wf i hi).room
  have hlt := hopen.stop_lt
  have hself := h.stored.written_self hi
  rw [Sector.image] at hself
  have hremain := hopen.remain
  unfold update_sec_status
  by_cases hentries : (A i).entries = []
  · have hstore := hopen.store.trans (Sector.store_empty hentries)
    simp only [hstore]
    rw [hopen.addr, ← hself, Sector.store_empty hentries]
    refine runs_write_store hi (by decide) (by decide) ?_ (runs_ret ⟨rfl, rfl, ?_, _, rfl, ?_⟩)
    · rw [length_images]
      simp only [Sector.stop] at hlt
      omega
    · rw [Flash.written_written]
    · intro e
      have haddr : ∀ s : SecInfo, ({ s with store := .inUse } : SecInfo).addr = s.addr := fun _ => rfl
      refine ⟨_, rfl, ?_⟩
      dsimp only
      rw [modifySector_comp haddr, h.sec_size]
      refine h.sectors.modify hi (fun _ => rfl) (fun s hs => ?_) update_other
      have hfilled := hs.filled (T := addition A i e i) (by rw [addition_self])
      rw [addition_stop, addition_store] at hfilled
      exact hfilled
  · have hstore := hopen.store.trans (Sector.store_inUse hentries)
    simp only [hstore]
    rw [if_neg (by have := hopen.fits; omega)]
    refine runs_ret ⟨rfl, rfl, ?_, db.sector_cache_table, rfl, ?_⟩
    · rw [← Sector.store_inUse hentries, hself]
    · intro e
      refine ⟨_, rfl, ?_⟩
      dsimp only
      rw [h.sec_size]
      refine h.sectors.modify hi (fun _ => rfl) (fun s hs => ?_) update_other
      have hfilled := hs.filled (T := addition A i e i) (by rw [addition_self])
      rw [addition_stop, addition_store, ← Sector.store_inUse hentries, ← hs.store] at hfilled
      exact hfilled

/-! ## The cached key -/

/-- A database once a node has been written. -/
theorem Mounted.extend (h : Mounted db A w) (hi : i < G.count) {sector : SecInfo} {e : Entry}
    (hopen : Open G (A i) i sector e.size) (hfate : e.fate ≠ .deleted) {table : List SecInfo}
    (htable : SectorsCached G (addition A i e) table) :
    ∃ keys, update_kv_cache { db with sector_cache_table := table } e.name.bytes (G.addr i (A i).stop) =
        { db with sector_cache_table := table, kv_cache_table := keys } ∧
      Mounted { db with sector_cache_table := table, kv_cache_table := keys } (addition A i e)
        (w.written i (addition A i e i).image) ∧
      Latest keys e.name (G.addr i (A i).stop) := by
  have hadded : Filed G (addition A i e) (nameCrc e.name.bytes) (G.addr i (A i).stop) :=
    ⟨e, (at_append hi).mpr (.inr ⟨rfl, rfl⟩), hfate, rfl⟩
  have hother : ∀ c a, c ≠ nameCrc e.name.bytes → Filed G A c a →
      Filed G (addition A i e) c a ∧ (c = nameCrc e.name.bytes → a = G.addr i (A i).stop) := by
    rintro c a hne ⟨e', hat, hfate', hname⟩
    exact ⟨⟨e', (at_append hi).mpr (.inl hat), hfate', hname⟩, fun heq => absurd heq hne⟩
  obtain ⟨keys, hupdate, hkeys⟩ := @KeysCached.update { db with sector_cache_table := table } _ _ _ _ h.keys hother
    fun _ => ⟨hadded, fun _ => rfl⟩
  have hstored := h.stored.extend hi hopen
  exact ⟨keys, hupdate, ⟨h.sec_size, h.max_size, h.oldest, hstored, htable, hkeys.mono fun _ _ hp => hp.1⟩,
    fun p hp hused => (hkeys.points p hp hused).2⟩

/-- The cache has lost the other nodes of the name. -/
theorem Latest.forgets (h : Mounted db A w) {a a' : Nat} {e : Entry} (hlatest : Latest db.kv_cache_table e.name a')
    (hat : At G A a e) (hne : a ≠ a') : ∀ p ∈ slots db.kv_cache_table, p.2 ≠ FDB_DATA_UNUSED → p.2 ≠ a := by
  rintro ⟨c, b⟩ hp hused rfl
  obtain ⟨e', hat', _, hname⟩ := h.keys.points _ hp hused
  obtain rfl := h.stored.at_unique hat' hat
  exact hne (hlatest _ hp hused hname.symm)

/-! ## A new pair -/

/-- What the sector looks like with a node behind the others. -/
theorem addition_image (e : Entry) : (addition A i e i).image =
    ((sectorHdr .inUse (A i).dirty).bytes ++ images (A i).entries) ++ e.image := by
  rw [Sector.image, addition_store, addition_self, images_append, images_cons, images_nil, List.append_nil,
    List.append_assoc]

theorem createAt_runs (h : Mounted db A w) (hi : i < G.count) {sector : SecInfo} {e : Entry}
    (hfate : e.fate = .write) (hopen : Open G (A i) i sector e.size) :
    Runs (createAt db sector e.name.bytes e.value sector.empty_kv) (fun r w' => r.1 = .noErr ∧ Changed db r.2 ∧
      r.2.last_is_complete_del = db.last_is_complete_del ∧ Mounted r.2 (addition A i e) w' ∧
      Latest r.2.kv_cache_table e.name (G.addr i (A i).stop)) w := by
  have hsec := G.sec_le
  have hlt := hopen.stop_lt
  have hsize : e.size = KV_HDR_DATA_SIZE + e.name.bytes.length + e.value.length := rfl
  have hkv : KV_HDR_DATA_SIZE = 24 := rfl
  have hlen : e.hdr.len.toNat = e.size := Entry.hdr_len_toNat (by omega)
  have himage := addition_image (A := A) (i := i) e
  have hbytes : e.image = statusByte KvStatus.write.index ::
      (List.replicate 3 erasedByte ++ e.hdr.tail ++ e.name.bytes ++ e.value) := by
    rw [Entry.image, hfate, Entry.body]
    simp [Fate.status]
  have hslen : ((sectorHdr .inUse (A i).dirty).bytes ++ images (A i).entries).length = (A i).stop := by
    rw [List.length_append, length_sectorHdr, length_images, Sector.stop]
  have htail := e.length_hdr
  obtain ⟨s, hs⟩ : ∃ s, (sectorHdr .inUse (A i).dirty).bytes ++ images (A i).entries = s := ⟨_, rfl⟩
  rw [hs] at himage hslen
  unfold createAt
  dsimp only
  rw [show newHdr e.name.bytes e.value = e.hdr from rfl, hlen]
  refine (update_sec_status_runs h hi hopen).bind ?_
  rintro ⟨result, is_full, db'⟩ w' ⟨rfl, hfull, hw, table, rfl, hfilling⟩
  rw [hs] at hw
  subst hw
  obtain ⟨table', hfilled, htable'⟩ := hfilling e
  obtain ⟨keys, hupdate, hmounted, hlatest⟩ := h.extend hi hopen (by rw [hfate]; exact Fate.noConfusion) htable'
  have hname : G.addr i (A i).stop + KV_HDR_DATA_SIZE = G.addr i ((A i).stop + KV_HDR_DATA_SIZE) := by
    simp only [Geometry.addr, Nat.add_assoc]
  have hend : G.addr i (A i).stop + KV_HDR_DATA_SIZE + wgAlign e.name.bytes.length + wgAlign e.value.length =
      G.addr i ((A i).stop + e.size) := by
    rw [wgAlign_eq, wgAlign_eq, hsize]
    simp only [Geometry.addr]
    omega
  dsimp only at hfull ⊢
  rw [hfull, if_pos rfl, hopen.empty_kv]
  refine (write_kv_hdr_runs rfl (by rw [hslen]) hi (by omega)).bind ?_
  rintro _ _ ⟨rfl, rfl⟩
  rw [if_pos rfl]
  unfold createName
  dsimp only
  rw [bind_assoc]
  have hlen₁ : (s ++ (statusByte KvStatus.preWrite.index :: List.replicate 3 erasedByte ++ e.hdr.tail)).length =
      (A i).stop + KV_HDR_DATA_SIZE := by
    simp only [List.length_append, List.length_cons, List.length_replicate, htail, hslen, hkv]
  refine (fdb_flash_write_align_runs (by rw [hlen₁, hname]) hi (by omega) (by omega)).bind ?_
  rintro _ _ ⟨rfl, rfl⟩
  rw [hend, if_pos (by decide), hopen.addr, hfilled, hupdate]
  have hlen₂ : (s ++ (statusByte KvStatus.preWrite.index :: List.replicate 3 erasedByte ++ e.hdr.tail) ++
      e.name.bytes).length = (A i).stop + KV_HDR_DATA_SIZE + e.name.bytes.length := by
    rw [List.length_append, hlen₁]
  have hvalue : G.addr i (A i).stop + KV_HDR_DATA_SIZE + wgAlign e.name.bytes.length =
      G.addr i ((A i).stop + KV_HDR_DATA_SIZE + e.name.bytes.length) := by
    rw [wgAlign_eq, hname, Geometry.addr, Geometry.addr, Nat.add_assoc]
  rw [pure_bind]
  dsimp only
  rw [if_pos rfl, hvalue]
  refine (fdb_flash_write_align_runs (by rw [hlen₂]) hi (by omega) (by omega)).bind ?_
  rintro _ _ ⟨rfl, rfl⟩
  rw [if_pos rfl]
  have hwhole : s ++ (statusByte KvStatus.preWrite.index :: List.replicate 3 erasedByte ++ e.hdr.tail) ++
      e.name.bytes ++ e.value = s ++ (statusByte KvStatus.preWrite.index ::
        (List.replicate 3 erasedByte ++ e.hdr.tail ++ e.name.bytes ++ e.value)) := by
    simp
  rw [hwhole]
  refine runs_write_complete (by rw [hslen]) hi ?_ (runs_ret ?_)
  · simp only [List.length_append, List.length_replicate, htail, hslen]
    omega
  · rw [himage, hbytes] at hmounted
    rw [if_neg (by simp)]
    exact ⟨rfl, ⟨_, table', keys, _, rfl⟩, rfl, hmounted, hlatest⟩

/-! ## A node that is moved -/

/-- Between the first write of a copy and the next one there are bytes that stay erased. -/
theorem written_gap {s : Bytes} {k : Nat} (h : s.length + k ≤ G.sec_size) :
    w.written i (s ++ List.replicate k erasedByte) = w.written i s := by
  rw [Flash.written, Flash.written, overlay_erased_append h]

theorem moveTo_runs (h : Mounted db A w) (hi : i < G.count) {j : Nat} (hj : j < G.count) (hji : j ≠ i)
    {pre post : List Entry} {e : Entry} {f : Fate} (hentries : (A j).entries = pre ++ e.withFate f :: post)
    {sector : SecInfo} (hopen : Open G (A i) i sector e.size) {kv : Node}
    (hkv : NodeOf e (G.addr j (SECTOR_HDR_DATA_SIZE + used pre)) kv) :
    Runs (moveTo db sector kv sector.empty_kv) (fun r w' => r.1 = .noErr ∧ Changed db r.2 ∧
      r.2.last_is_complete_del = false ∧
      Mounted r.2 (deletion (addition A i (e.withFate .write)) j pre (e.withFate f) post .deleted) w') w := by
  have hsec := G.sec_le
  have hlt := hopen.stop_lt
  have hroom := h.stored.entry_room hj hentries
  rw [e.withFate_size] at hroom
  have hsize : e.size = KV_HDR_DATA_SIZE + e.name.bytes.length + e.value.length := rfl
  have hkvsize : KV_HDR_DATA_SIZE = 24 := rfl
  have himage := addition_image (A := A) (i := i) (e.withFate .write)
  have hbytes : (e.withFate .write).image =
      statusByte KvStatus.write.index :: (List.replicate 3 erasedByte ++ e.body) := rfl
  have hslen : ((sectorHdr .inUse (A i).dirty).bytes ++ images (A i).entries).length = (A i).stop := by
    rw [List.length_append, length_sectorHdr, length_images, Sector.stop]
  have hbody := e.length_body
  obtain ⟨s, hs⟩ : ∃ s, (sectorHdr .inUse (A i).dirty).bytes ++ images (A i).entries = s := ⟨_, rfl⟩
  rw [hs] at himage hslen
  unfold moveTo
  rw [hkv.len]
  refine (update_sec_status_runs h hi hopen).bind ?_
  rintro ⟨result, is_full, db'⟩ w' ⟨rfl, _, hw, table, rfl, hfilling⟩
  rw [hs] at hw
  subst hw
  obtain ⟨table', hfilled, htable'⟩ := hfilling (e.withFate .write)
  obtain ⟨keys, hupdate, hmounted, hlatest⟩ := h.extend (e := e.withFate .write) hi hopen Fate.noConfusion htable'
  have hcontains := h.stored.contains_entry hj hentries
  rw [Entry.image] at hcontains
  have hsrc : Contains w j _ e.body := hcontains.tail
  have hdst : G.addr i (A i).stop + KV_MAGIC_OFFSET = G.addr i ((A i).stop + KV_MAGIC_OFFSET) := by
    simp only [Geometry.addr, Nat.add_assoc]
  have hend : G.addr i (A i).stop + KV_HDR_DATA_SIZE + wgAlign kv.name_len.toNat + wgAlign kv.value_len =
      G.addr i ((A i).stop + e.size) := by
    rw [wgAlign_eq, wgAlign_eq, hsize, hkv.name_len, hkv.value_len]
    simp only [Geometry.addr]
    omega
  have hlen₁ : (s ++ [statusByte KvStatus.preWrite.index] ++ List.replicate 3 erasedByte).length =
      (A i).stop + KV_MAGIC_OFFSET := by
    simp only [List.length_append, List.length_singleton, List.length_replicate, hslen, KV_MAGIC_OFFSET]
  dsimp only
  rw [hopen.empty_kv]
  refine runs_write_status (by decide) (by decide) (by decide) ?_
  refine runs_behind (k := 0) (by rw [hslen]; rfl) hi (by omega) (by rw [List.length_singleton]; omega) ?_
  rw [List.replicate_zero, List.append_nil, ← written_gap (k := 3) (by simp; omega), hdst]
  have hlength : e.size - KV_MAGIC_OFFSET = e.body.length := hbody.symm
  rw [hlength]
  refine (copyNode_runs hi hj hji hsrc ?_ (by rw [hlen₁]) ?_ ?_).bind ?_
  · rw [hkv.start]
    simp only [Geometry.addr, Nat.add_assoc]
    rfl
  · rw [hbody]
    show _ + 4 + (e.size - 4) ≤ _
    omega
  · rw [hlen₁, hbody]
    simp only [KV_MAGIC_OFFSET]
    omega
  rintro _ _ ⟨rfl, rfl⟩
  have hwhole : s ++ [statusByte KvStatus.preWrite.index] ++ List.replicate 3 erasedByte ++ e.body =
      s ++ (statusByte KvStatus.preWrite.index :: (List.replicate 3 erasedByte ++ e.body)) := by
    simp
  rw [hwhole]
  refine runs_write_complete (by rw [hslen]) hi ?_ ?_
  · simp only [List.length_append, List.length_replicate, hbody, hslen]
    omega
  rw [himage, hbytes] at hmounted
  have hentries' : (addition A i (e.withFate .write) j).entries = pre ++ e.withFate f :: post := by
    rw [addition_other _ hji]
    exact hentries
  have hpoints : ∀ p ∈ slots keys, p.2 ≠ FDB_DATA_UNUSED → p.2 ≠ kv.start := by
    refine Latest.forgets hmounted (e := e.withFate f) hlatest ⟨j, hj, pre, post, hentries', hkv.start⟩ fun hcopy => ?_
    have hstop := (h.stored.wf i hi).stop_lt
    rw [hkv.start] at hcopy
    exact hji (Geometry.addr_inj (by omega) hstop hcopy).1
  have hname : kv.name.bytes.take kv.name_len.toNat = e.name.bytes := by
    rw [hkv.name_len]
    exact hkv.name
  have hsector : alignDown (G.addr i (A i).stop) db.sec_size = i * G.sec_size := by
    rw [h.sec_size, Geometry.addr_alignDown (h.stored.wf i hi).stop_lt]
  have hupdate' : update_kv_cache (update_sector_empty_addr_cache { db with sector_cache_table := table }
      (i * G.sec_size) (G.addr i ((A i).stop + e.size))) e.name.bytes (G.addr i (A i).stop) =
      { db with sector_cache_table := table', kv_cache_table := keys } := by
    rw [← hupdate, ← hfilled]
    rfl
  rw [hend, hname, hsector, hupdate']
  have hkey : (none : Option Key).getD (kv.name.bytes.take kv.name_len.toNat) = e.name.bytes := hname
  refine (delNode_complete hmounted hj hentries' hkv.start hkey fun _ => hpoints).bind ?_
  rintro ⟨_, db'⟩ w' ⟨_, ⟨oldest, sectors', keys', completed, rfl⟩, hflag, hmounted'⟩
  exact runs_ret ⟨rfl, ⟨oldest, sectors', keys', completed, rfl⟩, hflag, hmounted'⟩

end FlashDb
