import BaseUtilities.FlashDb.Layout
import BaseUtilities.Storage.Slots

/-!
# FlashDB: the caches

What a database keeps of its sectors and of its keys in memory is either right or not used.  A sector is
cached in one slot at most; of the slots for one check of a name only the first can be in use.  What a
cached sector does not say is that it is being collected, which is written to the storage only.
-/

open Effects Mem Kv Storage

namespace FlashDb

variable {G : Geometry} {A B : Nat → Sector} {i : Nat} {db : Kvdb}

/-- The address of a place in a sector. -/
abbrev Geometry.addr (G : Geometry) (i off : Nat) : Nat := i * G.sec_size + off

/-! ## Sectors -/

/-- What is known of the sector `i`, which is `S`. -/
structure Info (G : Geometry) (S : Sector) (i : Nat) (s : SecInfo) : Prop where
  check_ok : s.check_ok = true
  store : s.store = S.store
  dirty : s.dirty = S.dirty ∨ s.dirty = .dirty ∧ S.dirty = .gc
  addr : s.addr = i * G.sec_size
  combined : s.combined = SECTOR_NOT_COMBINED

/-- What is known of the space of a sector once it has been gone through. -/
structure Space (G : Geometry) (S : Sector) (i : Nat) (s : SecInfo) : Prop where
  empty_kv : s.empty_kv = G.addr i S.stop
  remain : s.remain = G.sec_size - S.stop

/-- A cached sector. -/
structure Cached (G : Geometry) (S : Sector) (i : Nat) (s : SecInfo) : Prop extends Info G S i s where
  space : s.empty_kv = FAILED_ADDR ∨ Space G S i s

structure SectorsCached (G : Geometry) (A : Nat → Sector) (table : List SecInfo) : Prop where
  distinct : table.Pairwise fun s t => s.addr = t.addr → s.addr = FDB_DATA_UNUSED
  cached : ∀ s ∈ table, s.addr ≠ FDB_DATA_UNUSED → ∃ i < G.count, Cached G (A i) i s

/-- No sector is at the address that stands for none. -/
theorem Geometry.sector_ne (G : Geometry) (hi : i < G.count) : i * G.sec_size ≠ FDB_DATA_UNUSED := by
  have h₁ := G.sector_end hi
  have h₂ := G.max_size_fits
  have h₃ := G.room
  show i * G.sec_size ≠ 0xFFFFFFFF
  omega

theorem Geometry.sector_inj {j : Nat} (h : i * G.sec_size = j * G.sec_size) : i = j :=
  Nat.eq_of_mul_eq_mul_right G.sec_pos h

theorem SectorsCached.get (h : SectorsCached G A db.sector_cache_table) (hi : i < G.count) {s : SecInfo}
    (hs : get_sector_from_cache db (i * G.sec_size) = some s) : Cached G (A i) i s := by
  have haddr : s.addr = i * G.sec_size := by simpa using List.find?_some hs
  obtain ⟨j, _, hcached⟩ := h.cached s (List.mem_of_find?_eq_some hs) (haddr ▸ G.sector_ne hi)
  rwa [Geometry.sector_inj (haddr.symm.trans hcached.addr)]

/-- What is cached of a sector stays right where the others change. -/
theorem SectorsCached.congr {table : List SecInfo} (h : SectorsCached G A table)
    (hAB : ∀ i < G.count, ∀ s, Cached G (A i) i s → Cached G (B i) i s) : SectorsCached G B table where
  distinct := h.distinct
  cached s hs hused := by
    obtain ⟨i, hi, hcached⟩ := h.cached s hs hused
    exact ⟨i, hi, hAB i hi s hcached⟩

/-- The loop of `update_sector_cache` changes the slot of the sector, or finds none. -/
theorem updateSectorLoop_spec (sector : SecInfo) (i : Nat) (table : List SecInfo) (e : Nat) :
    (∃ pre cached post, table = pre ++ cached :: post ∧ cached.addr = sector.addr ∧
      (∀ s ∈ pre, s.addr ≠ sector.addr) ∧
      updateSectorLoop sector i table e = (pre ++
        (if sector.check_ok then sector else { cached with addr := FDB_DATA_UNUSED }) :: post, none)) ∨
    ∃ e', updateSectorLoop sector i table e = (table, some e') ∧ ∀ s ∈ table, s.addr ≠ sector.addr := by
  induction table generalizing i e with
  | nil => exact .inr ⟨e, rfl, fun s hs => absurd hs List.not_mem_nil⟩
  | cons c table ih =>
    rw [updateSectorLoop]
    by_cases hc : c.addr = sector.addr
    · rw [if_pos hc]
      exact .inl ⟨[], c, table, rfl, hc, fun s hs => absurd hs List.not_mem_nil, rfl⟩
    · rw [if_neg hc]
      rcases ih (i + 1) (if c.addr = FDB_DATA_UNUSED then i else e) with
        ⟨pre, cached, post, rfl, haddr, hpre, hloop⟩ | ⟨e', hloop, hfresh⟩
      · rw [hloop]
        refine .inl ⟨c :: pre, cached, post, rfl, haddr, ?_, rfl⟩
        intro s hs
        rcases List.mem_cons.mp hs with rfl | hs
        · exact hc
        · exact hpre s hs
      · rw [hloop]
        refine .inr ⟨e', rfl, ?_⟩
        intro s hs
        rcases List.mem_cons.mp hs with rfl | hs
        · exact hc
        · exact hfresh s hs

/-- What is known of a sector is cached, or nothing of it is. -/
theorem SectorsCached.update (h : SectorsCached G A db.sector_cache_table) (hi : i < G.count)
    {sector : SecInfo} (haddr : sector.addr = i * G.sec_size)
    (hsector : sector.check_ok = true → Cached G (B i) i sector) (hother : ∀ j ≠ i, A j = B j) :
    ∃ table, update_sector_cache db sector = { db with sector_cache_table := table } ∧
      SectorsCached G B table := by
  have hne := G.sector_ne hi
  -- A slot for another address stays right.
  have hkeep : ∀ s : SecInfo, s.addr ≠ sector.addr → s.addr ≠ FDB_DATA_UNUSED →
      s ∈ db.sector_cache_table → ∃ j < G.count, Cached G (B j) j s := by
    intro s hsaddr hused hs
    obtain ⟨j, hj, hcached⟩ := h.cached s hs hused
    refine ⟨j, hj, hother j ?_ ▸ hcached⟩
    rintro rfl
    exact hsaddr (hcached.addr.trans haddr.symm)
  unfold update_sector_cache
  rcases updateSectorLoop_spec sector 0 db.sector_cache_table FDB_SECTOR_CACHE_TABLE_SIZE with
    ⟨pre, cached, post, htable, hcaddr, hpre, hloop⟩ | ⟨e, hloop, hfresh⟩
  · rw [hloop]
    refine ⟨_, rfl, ?_, ?_⟩
    · have hdistinct := h.distinct
      rw [htable] at hdistinct
      obtain ⟨_, hcons, hcross⟩ := List.pairwise_append.mp hdistinct
      cases hok : sector.check_ok with
      | true =>
        refine pairwise_replace hdistinct (fun s hs heq => ?_) (fun s hs heq => ?_)
        · exact absurd heq (hpre s hs)
        · exact absurd (hcaddr.symm.trans ((List.pairwise_cons.mp hcons).1 s hs (hcaddr.trans heq)))
            (haddr ▸ hne)
      | false => exact pairwise_replace hdistinct (fun s _ heq => heq) (fun s _ _ => rfl)
    · have hpost : ∀ s ∈ post, s.addr ≠ sector.addr := by
        have hdistinct := h.distinct
        rw [htable] at hdistinct
        intro s hs heq
        have := (List.pairwise_cons.mp (List.pairwise_append.mp hdistinct).2.1).1 s hs (hcaddr.trans heq.symm)
        exact hne (haddr ▸ hcaddr ▸ this)
      intro s hs hused
      rcases List.mem_append.mp hs with hs | hs
      · exact hkeep s (hpre s hs) hused (htable ▸ List.mem_append_left _ hs)
      rcases List.mem_cons.mp hs with rfl | hs
      · cases hok : sector.check_ok with
        | true => exact ⟨i, hi, by simpa [hok] using hsector hok⟩
        | false => simp [hok] at hused
      · exact hkeep s (hpost s hs) hused
          (htable ▸ List.mem_append_right _ (List.mem_cons_of_mem _ hs))
  · rw [hloop]
    have hall : SectorsCached G B db.sector_cache_table :=
      ⟨h.distinct, fun s hs hused => hkeep s (hfresh s hs) hused hs⟩
    dsimp only
    split
    · rename_i hok
      refine ⟨_, rfl, pairwise_set h.distinct ?_ e, ?_⟩
      · intro s hs
        exact ⟨fun heq => absurd heq (hfresh s hs), fun heq => absurd heq.symm (hfresh s hs)⟩
      · intro s hs hused
        rcases List.mem_or_eq_of_mem_set hs with hs | rfl
        · exact hall.cached s hs hused
        · exact ⟨i, hi, hsector hok.1⟩
    · exact ⟨_, rfl, hall⟩

/-- A cached sector is changed in its slot. -/
theorem SectorsCached.modify {table : List SecInfo} (h : SectorsCached G A table) (hi : i < G.count)
    {f : SecInfo → SecInfo} (haddr : ∀ s, (f s).addr = s.addr)
    (hf : ∀ s, Cached G (A i) i s → Cached G (B i) i (f s)) (hother : ∀ j ≠ i, A j = B j) :
    SectorsCached G B (modifySector (i * G.sec_size) f table) := by
  have hne := G.sector_ne hi
  induction table with
  | nil => exact ⟨List.Pairwise.nil, fun s hs => absurd hs List.not_mem_nil⟩
  | cons c table ih =>
    obtain ⟨hc, hdistinct⟩ := List.pairwise_cons.mp h.distinct
    have hrest : SectorsCached G A table := ⟨hdistinct, fun s hs => h.cached s (List.mem_cons_of_mem _ hs)⟩
    have hkeep : ∀ s ∈ c :: table, s.addr ≠ i * G.sec_size → s.addr ≠ FDB_DATA_UNUSED →
        ∃ j < G.count, Cached G (B j) j s := by
      intro s hs hsaddr hused
      obtain ⟨j, hj, hcached⟩ := h.cached s hs hused
      refine ⟨j, hj, hother j ?_ ▸ hcached⟩
      rintro rfl
      exact hsaddr hcached.addr
    rw [modifySector]
    by_cases hcaddr : c.addr = i * G.sec_size
    · rw [if_pos hcaddr]
      refine ⟨List.pairwise_cons.mpr ⟨?_, hdistinct⟩, ?_⟩
      · intro s hs heq
        rw [haddr] at heq ⊢
        exact hc s hs heq
      · intro s hs hused
        rcases List.mem_cons.mp hs with rfl | hs
        · obtain ⟨j, hj, hcached⟩ := h.cached c List.mem_cons_self (hcaddr ▸ hne)
          obtain rfl := Geometry.sector_inj (hcaddr.symm.trans hcached.addr)
          exact ⟨_, hi, hf c hcached⟩
        · refine hkeep s (List.mem_cons_of_mem _ hs) ?_ hused
          intro heq
          exact hne (hcaddr ▸ hc s hs (hcaddr.trans heq.symm))
    · rw [if_neg hcaddr]
      have hih := ih hrest
      have hmem : ∀ t : List SecInfo, ∀ s ∈ modifySector (i * G.sec_size) f t, ∃ s' ∈ t, s.addr = s'.addr := by
        intro t
        induction t with
        | nil => exact fun s hs => absurd hs List.not_mem_nil
        | cons d t iht =>
          intro s hs
          rw [modifySector] at hs
          split at hs
          · rcases List.mem_cons.mp hs with rfl | hs
            · exact ⟨d, List.mem_cons_self, haddr d⟩
            · exact ⟨s, List.mem_cons_of_mem _ hs, rfl⟩
          · rcases List.mem_cons.mp hs with rfl | hs
            · exact ⟨_, List.mem_cons_self, rfl⟩
            · obtain ⟨s', hs', heq⟩ := iht s hs
              exact ⟨s', List.mem_cons_of_mem _ hs', heq⟩
      refine ⟨List.pairwise_cons.mpr ⟨?_, hih.distinct⟩, ?_⟩
      · intro s hs heq
        obtain ⟨s', hs', haddr'⟩ := hmem table s hs
        exact hc s' hs' (heq.trans haddr')
      · intro s hs hused
        rcases List.mem_cons.mp hs with rfl | hs
        · exact hkeep _ List.mem_cons_self hcaddr hused
        · exact hih.cached s hs hused

/-! ## Keys -/

/-- A slot of the cache of keys: a check, and the address of a node. -/
abbrev Slot := UInt16 × Nat

def KvCacheNode.slot (node : KvCacheNode) : Slot := (node.name_crc, node.addr)

def slots (table : List KvCacheNode) : List Slot := table.map KvCacheNode.slot

/-- The slots in use are the first ones of their checks, and `points` holds of them. -/
structure KeysCached (points : UInt16 → Nat → Prop) (table : List Slot) : Prop where
  first : table.Pairwise fun p q => p.1 = q.1 → q.2 = FDB_DATA_UNUSED
  points : ∀ p ∈ table, p.2 ≠ FDB_DATA_UNUSED → points p.1 p.2

variable {points points' : UInt16 → Nat → Prop}

theorem KeysCached.mono {table : List Slot} (h : KeysCached points table)
    (hpoints : ∀ c a, points c a → points' c a) : KeysCached points' table :=
  ⟨h.first, fun p hp hused => hpoints _ _ (h.points p hp hused)⟩

/-- The loop of `update_kv_cache` changes the first slot of the check, or finds none. -/
theorem updateKvLoop_spec (c : UInt16) (addr i : Nat) (table : List KvCacheNode) (v : CacheSlots) :
    (∃ table' pre a post, updateKvLoop c addr i table v = (table', none) ∧
      slots table = pre ++ (c, a) :: post ∧ (∀ p ∈ pre, p.1 ≠ c) ∧ slots table' = pre ++ (c, addr) :: post) ∨
    ∃ table' v', updateKvLoop c addr i table v = (table', some v') ∧ slots table' = slots table ∧
      ∀ p ∈ slots table, p.1 ≠ c := by
  induction table generalizing i v with
  | nil => exact .inr ⟨[], v, rfl, rfl, fun p hp => absurd hp List.not_mem_nil⟩
  | cons node table ih =>
    by_cases hc : node.name_crc = c
    · subst hc
      rw [updateKvLoop, if_pos rfl, if_pos rfl]
      by_cases haddr : addr = FDB_DATA_UNUSED
      · rw [if_neg (not_not.mpr haddr), haddr]
        exact .inl ⟨_, [], node.addr, slots table, rfl, rfl, fun p hp => absurd hp List.not_mem_nil, rfl⟩
      · rw [if_pos haddr]
        exact .inl ⟨_, [], node.addr, slots table, rfl, rfl, fun p hp => absurd hp List.not_mem_nil, rfl⟩
    · -- Of a node of another check only the activity changes.
      have hstep : ∃ node' v', node'.slot = node.slot ∧ updateKvLoop c addr i (node :: table) v =
          (node' :: (updateKvLoop c addr (i + 1) table v').1, (updateKvLoop c addr (i + 1) table v').2) := by
        rw [updateKvLoop, if_neg hc, if_neg hc]
        split
        · split
          · exact ⟨node, _, rfl, rfl⟩
          · split
            · refine ⟨_, _, ?_, rfl⟩
              split <;> rfl
            · exact ⟨node, _, rfl, rfl⟩
        · exact ⟨node, _, rfl, rfl⟩
      obtain ⟨node', v', hnode, hstep⟩ := hstep
      have hcons : ∀ t, slots (node' :: t) = node.slot :: slots t := fun t => congrArg (· :: slots t) hnode
      have hne : ∀ {l : List Slot}, (∀ p ∈ l, p.1 ≠ c) → ∀ p ∈ node.slot :: l, p.1 ≠ c := by
        intro l hl p hp
        rcases List.mem_cons.mp hp with rfl | hp
        · exact hc
        · exact hl p hp
      rcases ih (i + 1) v' with
        ⟨table', pre, a, post, hloop, hslots, hpre, hslots'⟩ | ⟨table', v'', hloop, hslots, hfresh⟩
      · rw [hstep, hloop]
        refine .inl ⟨_, node.slot :: pre, a, post, rfl, congrArg (node.slot :: ·) hslots, hne hpre, ?_⟩
        rw [hcons, hslots']
        rfl
      · rw [hstep, hloop]
        exact .inr ⟨_, v'', rfl, by rw [hcons, hslots]; rfl, hne hfresh⟩

/-- A slot for another check stays right where no slot of the check is left but the new one. -/
theorem KeysCached.update {name : Bytes} {addr : Nat} (h : KeysCached points (slots db.kv_cache_table))
    (hother : ∀ c a, c ≠ nameCrc name → points c a → points' c a)
    (haddr : addr ≠ FDB_DATA_UNUSED → points' (nameCrc name) addr) :
    ∃ table, update_kv_cache db name addr = { db with kv_cache_table := table } ∧
      KeysCached points' (slots table) := by
  unfold update_kv_cache
  dsimp only
  rcases updateKvLoop_spec (nameCrc name) addr 0 db.kv_cache_table
      ⟨FDB_KV_CACHE_TABLE_SIZE, FDB_KV_CACHE_TABLE_SIZE, 0xFFFF⟩ with
    ⟨table, pre, a, post, hloop, hslots, hpre, hslots'⟩ | ⟨table, v, hloop, hslots, hfresh⟩
  · rw [hloop]
    have hfirst := h.first
    rw [hslots] at hfirst
    have hpost := (List.pairwise_cons.mp (List.pairwise_append.mp hfirst).2.1).1
    refine ⟨_, rfl, hslots' ▸ pairwise_replace hfirst ?_ ?_, ?_⟩
    · intro p hp heq
      exact absurd heq (hpre p hp)
    · exact hpost
    · intro p hp hused
      rw [hslots'] at hp
      rcases List.mem_append.mp hp with hp | hp
      · exact hother _ _ (hpre p hp) (h.points p (hslots ▸ List.mem_append_left _ hp) hused)
      rcases List.mem_cons.mp hp with rfl | hp
      · exact haddr hused
      · have hmem : p ∈ slots db.kv_cache_table :=
          hslots ▸ List.mem_append_right _ (List.mem_cons_of_mem _ hp)
        exact hother _ _ (fun heq => hused (hpost p hp heq.symm)) (h.points p hmem hused)
  · rw [hloop]
    have hall : KeysCached points' (slots table) := by
      rw [hslots]
      exact ⟨h.first, fun p hp hused => hother _ _ (hfresh p hp) (h.points p hp hused)⟩
    -- A new slot may be put in any place.
    have hset : ∀ (k : Nat) (active : UInt16),
        KeysCached points' (slots (table.set k ⟨nameCrc name, active, addr⟩)) := by
      intro k active
      rw [slots, List.map_set]
      refine ⟨pairwise_set hall.first ?_ k, ?_⟩
      · intro p hp
        have hne : p.1 ≠ nameCrc name := hfresh p (hslots ▸ hp)
        exact ⟨fun heq => absurd heq hne, fun heq => absurd heq.symm hne⟩
      · intro p hp hused
        rcases List.mem_or_eq_of_mem_set hp with hp | rfl
        · exact hall.points p hp hused
        · exact haddr hused
    dsimp only
    split
    · exact ⟨_, rfl, hset _ _⟩
    split
    · exact ⟨_, rfl, hset _ _⟩
    · exact ⟨_, rfl, hall⟩

end FlashDb
