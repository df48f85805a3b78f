import BaseUtilities.FlashDb.Pairs

/-!
# FlashDB: collections

A collection moves the nodes that are in use out of the sectors that hold deleted ones, and erases these
sectors.  `Kept` is what it, and every other operation, leaves a database with; the map stays the same.
-/

open Effects Mem Kv Storage

namespace FlashDb

variable {G : Geometry} {w : Flash G} {A : Nat → Sector} {i j : Nat} {db db' : Kvdb} {K : Name → Prop}
  {m : Name → Option Bytes}

/-- The sectors `A` stand for the map `m`, with keys in `K`; no operation on them has been left half done. -/
structure Holds (G : Geometry) (K : Name → Prop) (m : Name → Option Bytes) (A : Nat → Sector) : Prop where
  stands : Stands (Live G A) m
  settled : Settled G A
  named : NamedIn G A K
  marks : Marked G A

/-- So does the database on them. -/
structure Kept (K : Name → Prop) (m : Name → Option Bytes) (db : Kvdb) (A : Nat → Sector) (w : Flash G) : Prop
    extends Holds G K m A where
  mounted : Mounted db A w
  completed : db.last_is_complete_del = false

/-- Sectors with deleted nodes only stand for no pairs. -/
theorem holds_dead (hdead : ∀ i < G.count, ∀ e ∈ (A i).entries, e.fate = .deleted ∧ (A i).dirty ≠ .clean) :
    Holds G K (fun _ => none) A := by
  have hat : ∀ {a e}, At G A a e → e.fate = .deleted := by
    rintro a e ⟨i, hi, pre, post, hentries, _⟩
    exact (hdead i hi e (hentries ▸ List.mem_append_right _ List.mem_cons_self)).1
  have hlive : ∀ a k v, ¬ Live G A a k v := by
    rintro a k v ⟨e, he, hfate, _⟩
    rw [hat he] at hfate
    cases hfate
  refine ⟨⟨fun k v => ⟨nofun, ?_⟩, fun a _ _ _ _ h => absurd h (hlive a _ _),
    fun a _ _ _ _ h => absurd h (hlive a _ _)⟩, fun a e he hpre => ?_, fun a e he hne => absurd (hat he) hne,
    fun i hi hclean e he => absurd hclean (hdead i hi e he).2⟩
  · rintro ⟨a, h⟩
    exact absurd h (hlive a k v)
  · rw [hat he] at hpre
    cases hpre

theorem Kept.resectored (h : Kept K m db A w) (hdb : Resectored G A db db') : Kept K m db' A w := by
  have hmounted := h.mounted.resectored hdb
  obtain ⟨_, rfl, _⟩ := hdb
  exact ⟨h.toHolds, hmounted, h.completed⟩

theorem Kept.recached (h : Kept K m db A w) (hdb : Recached G A db db') : Kept K m db' A w := by
  have hmounted := h.mounted.recached hdb
  obtain ⟨_, _, rfl, _⟩ := hdb
  exact ⟨h.toHolds, hmounted, h.completed⟩

/-- An entry of a database at rest is in use or deleted. -/
theorem Settled.fate_cases (h : Settled G A) {a : Nat} {e : Entry} (hat : At G A a e) :
    e.fate = .write ∨ e.fate = .deleted := by
  have hpre := h a e hat
  cases hf : e.fate with
  | write => exact .inl rfl
  | preDelete => exact absurd hf hpre
  | deleted => exact .inr rfl

/-! ## A node -/

/-- The sectors after the node `e` of the sector `j` has been moved to the sector `i`. -/
def moved (A : Nat → Sector) (i j : Nat) (pre : List Entry) (e : Entry) (post : List Entry) : Nat → Sector :=
  succession A i (e.withFate .write) j pre e post post

variable {pre post : List Entry} {e : Entry}

theorem moved_source (hij : i ≠ j) (hgc : (A j).dirty = .gc) :
    moved A i j pre e post j = ⟨.gc, pre ++ e.withFate .deleted :: post⟩ := by
  rw [moved, succession, deletion_self, addition_other _ hij.symm, deletion_self, hgc]
  rfl

theorem moved_other {t : Nat} (htj : t ≠ j) : moved A i j pre e post t = addition A i (e.withFate .write) t := by
  rw [moved, succession, deletion_other htj]
  by_cases hti : t = i
  · subst hti
    rw [addition_self, addition_self, deletion_other htj]
  · rw [addition_other _ hti, addition_other _ hti, deletion_other htj]

theorem move_kv_runs (h : Kept K m db A w) (hcollecting : db.gc_request = true) (hj : j < G.count)
    (hgc : (A j).dirty = .gc) (hentries : (A j).entries = pre ++ e :: post) (hfate : e.fate = .write) {kv : Node}
    (hkv : NodeOf e (G.addr j (SECTOR_HDR_DATA_SIZE + used pre)) kv)
    (htakes : ∃ t < G.count, t ≠ j ∧ Takes G true (A t) e.size) :
    Runs (move_kv db kv) (fun r w' => Changed db r.2 ∧
      ∃ i < G.count, i ≠ j ∧ (A i).dirty = .clean ∧ Kept K m r.2 (moved A i j pre e post) w') w := by
  have hstatus : kv.status = .write := by
    rw [hkv.status, hfate]
    rfl
  unfold move_kv
  rw [if_pos hstatus]
  refine (delNode_retire h.mounted hj hentries hfate none hkv.start).bind ?_
  rintro ⟨result₁, db₁⟩ w₁ ⟨rfl, hchanged₁, _, hmounted₁⟩
  dsimp only at hchanged₁ hmounted₁ ⊢
  have hgc₁ : db₁.gc_request = true := by
    obtain ⟨_, _, _, _, rfl⟩ := hchanged₁
    exact hcollecting
  rw [hkv.len]
  refine (alloc_kv_runs hmounted₁ .uninit e.size).bind ?_
  rintro ⟨addr, sector, db₂⟩ w₂ ⟨rfl, ⟨_, _, _, hnone, _⟩ | ⟨hne, hdb₂, i, hi, hopen, rfl, hclean, _⟩⟩
  · obtain ⟨t, ht, htj, htakes⟩ := htakes
    have hsame : deletion A j pre e post .preDelete t = A t := deletion_other htj
    rw [← hsame] at htakes
    rw [hgc₁] at hnone
    exact absurd htakes (hnone t ht (.inr (.inl rfl)))
  · have hcleani := hclean hgc₁
    have hij : i ≠ j := by
      rintro rfl
      rw [deletion_self, hgc] at hcleani
      cases hcleani
    have hmounted₂ := hmounted₁.resectored hdb₂
    have hentries₂ : (deletion A j pre e post .preDelete j).entries = pre ++ e.withFate .preDelete :: post := by
      rw [deletion_self]
    dsimp only at hne hopen ⊢
    rw [if_neg hne, if_neg (by simp [hstatus]), ← hopen.empty_kv]
    refine (moveTo_runs hmounted₂ hi hj hij.symm hentries₂ hopen hkv).mono ?_
    rintro ⟨result₃, db₃⟩ w₃ ⟨rfl, hchanged₃, hcompleted, hmounted₃⟩
    have hstop := deletion_stop hentries .preDelete i
    have hstored := hmounted₂.stored.extend (e := e.withFate .write) hi hopen
    have hentries₃ : (addition (deletion A j pre e post .preDelete) i (e.withFate .write) j).entries =
        pre ++ e.withFate .preDelete :: post := by
      rw [addition_other _ hij.symm, hentries₂]
    have hat : At G A (G.addr j (SECTOR_HDR_DATA_SIZE + used pre)) e := ⟨j, hj, pre, post, hentries, rfl⟩
    have hlive : Live G A (G.addr j (SECTOR_HDR_DATA_SIZE + used pre)) e.name e.value := ⟨e, hat, hfate, rfl, rfl⟩
    have hfree : ∀ k v, ¬ Live G A (G.addr i (A i).stop) k v := by
      rintro k v ⟨e', hat', _⟩
      exact h.mounted.stored.not_at_stop hi e' hat'
    refine ⟨hchanged₁.trans (hdb₂.changed.trans hchanged₃), i, hi, hij, ?_, ⟨?_, ?_, ?_, ?_⟩, hmounted₃, hcompleted⟩
    · rw [← hcleani, deletion_other hij]
    · exact h.stands.move hlive hfree
        (live_succession h.mounted.stored hstored hi hj hentries hentries₃ rfl)
    · exact settled_succession h.mounted.stored hstored hi hj hentries hentries₃ rfl h.settled
    · exact namedIn_succession h.mounted.stored hstored hi hj hentries hentries₃ rfl h.named
        (h.named _ e hat (by rw [hfate]; exact Fate.noConfusion))
    · exact marked_succession rfl h.marks

/-! ## A sector -/

/-- Where the next node is does not depend on the status of a node. -/
theorem get_next_kv_addr_status (sector : SecInfo) (kv : Node) (status : KvStatus) :
    get_next_kv_addr db sector { kv with status := status } = get_next_kv_addr db sector kv := rfl

theorem NodeOf.withFate {a : Nat} {kv : Node} (h : NodeOf e a kv) (f : Fate) :
    NodeOf (e.withFate f) a { kv with status := f.status } :=
  ⟨rfl, h.crc_is_ok, h.name_len, h.len, h.value_len, h.name, h.start, h.value⟩

/-- While the sector `j` is being collected: the nodes in front of `e` have been moved or were deleted, and there
is a sector that has taken no more than they did. -/
structure Collecting (K : Name → Prop) (m : Name → Option Bytes) (j : Nat) (pre : List Entry) (e : Entry)
    (post : List Entry) (db : Kvdb) (A : Nat → Sector) (w : Flash G) : Prop where
  kept : Kept K m db A w
  entries : (A j).entries = pre ++ e :: post
  gc : (A j).dirty = .gc
  deleted : ∀ d ∈ pre, d.fate = .deleted
  target : ∃ t < G.count, t ≠ j ∧ (A t).dirty = .clean ∧ (A t).stop ≤ SECTOR_HDR_DATA_SIZE + used pre

theorem Collecting.takes (h : Collecting K m j pre e post db A w) (hj : j < G.count) :
    ∃ t < G.count, t ≠ j ∧ Takes G true (A t) e.size := by
  obtain ⟨t, ht, htj, hclean, hstop⟩ := h.target
  have hroom := h.kept.mounted.stored.entry_room hj h.entries
  exact ⟨t, ht, htj, .inl hclean, by omega⟩

/-- Clean sectors stay clean. -/
def Cleaner (A A' : Nat → Sector) : Prop := ∀ t, (A t).dirty = .clean → (A' t).dirty = .clean

/-- What `collectNodes` makes of the node `e`. -/
theorem collectNode_runs (h : Collecting K m j pre e post db A w) (hcollecting : db.gc_request = true)
    (hj : j < G.count) {kv : Node} (hkv : NodeOf e (G.addr j (SECTOR_HDR_DATA_SIZE + used pre)) kv) :
    Runs (if kv.crc_is_ok ∧ (kv.status = .write ∨ kv.status = .preDelete) then move_kv db kv
        else return (.noErr, db)) (fun r w' => Changed db r.2 ∧ ∃ A', Kept K m r.2 A' w' ∧
      (A' j).entries = pre ++ e.withFate .deleted :: post ∧ (A' j).dirty = .gc ∧ Cleaner A A' ∧
      ∃ t < G.count, t ≠ j ∧ (A' t).dirty = .clean ∧
        (A' t).stop ≤ SECTOR_HDR_DATA_SIZE + used (pre ++ [e.withFate .deleted])) w := by
  have hused : used (pre ++ [e.withFate .deleted]) = used pre + e.size := by
    rw [used_append, used_cons, used_nil, e.withFate_size, Nat.add_zero]
  have hat : At G A (G.addr j (SECTOR_HDR_DATA_SIZE + used pre)) e := ⟨j, hj, pre, post, h.entries, rfl⟩
  rw [hused, hkv.crc_is_ok, hkv.status]
  obtain ⟨t, ht, htj, hclean, hstop⟩ := h.target
  rcases h.kept.settled.fate_cases hat with hfate | hfate
  · rw [if_pos (by simp [hfate, Fate.status])]
    refine (move_kv_runs h.kept hcollecting hj h.gc h.entries hfate hkv (h.takes hj)).mono ?_
    rintro ⟨result, db'⟩ w' ⟨hchanged, i, hi, hij, hcleani, hkept⟩
    have hsource : moved A i j pre e post j = ⟨.gc, pre ++ e.withFate .deleted :: post⟩ := moved_source hij h.gc
    have hcleaner : Cleaner A (moved A i j pre e post) := by
      intro t hclean
      have htj : t ≠ j := by
        rintro rfl
        rw [h.gc] at hclean
        cases hclean
      rw [moved_other htj]
      by_cases hti : t = i
      · subst hti
        rw [addition_self]
        exact hclean
      · rwa [addition_other _ hti]
    refine ⟨hchanged, moved A i j pre e post, hkept, by rw [hsource], by rw [hsource], hcleaner, t, ht, htj, ?_⟩
    rw [moved_other htj]
    by_cases hti : t = i
    · subst hti
      rw [addition_stop, addition_self, e.withFate_size]
      exact ⟨hclean, by omega⟩
    · rw [addition_other _ hti]
      exact ⟨hclean, by omega⟩
  · rw [if_neg (by simp [hfate, Fate.status])]
    have hsame : e.withFate .deleted = e := by
      rw [← hfate]
      rfl
    rw [hsame]
    exact runs_ret ⟨Changed.refl db, A, h.kept, h.entries, h.gc, fun _ hclean => hclean, t, ht, htj, hclean, by omega⟩

theorem collectNodes_runs {d : Entry} {rest : List Entry} (h : Collecting K m j [] d rest db A w)
    (hcollecting : db.gc_request = true) (hj : j < G.count) {sector : SecInfo} (hstore : sector.store = .inUse)
    (haddr : sector.addr = j * G.sec_size) :
    Runs (collectNodes sector db) (fun db' w' => Changed db db' ∧ ∃ A', Kept K m db' A' w' ∧ Cleaner A A' ∧
      ∀ e ∈ (A' j).entries, e.fate = .deleted) w := by
  unfold collectNodes
  refine Total.forever
    (fun s w' => Changed db s.2 ∧ ∃ A' pre e post, Collecting K m j pre e post s.2 A' w' ∧ Cleaner A A' ∧
      s.1.start = G.addr j (SECTOR_HDR_DATA_SIZE + used pre))
    (fun s _ => j * G.sec_size + G.sec_size - s.1.start) ?_ ?_
  · exact ⟨Changed.refl db, A, [], d, rest, h, fun _ hclean => hclean, by rw [haddr]; rfl⟩
  · rintro ⟨kv, db₁⟩ w₁ ⟨hchanged, A', pre, e, post, hc, hcleaner, hstart⟩
    have hmounted := hc.kept.mounted
    have hroom := hmounted.stored.entry_room hj hc.entries
    have hcollecting₁ : db₁.gc_request = true := by
      obtain ⟨_, _, _, _, rfl⟩ := hchanged
      exact hcollecting
    dsimp only at hstart ⊢
    refine (read_kv_runs hmounted.stored hmounted.max_size hj hc.entries hstart).bind ?_
    rintro ⟨_, kv₁⟩ _ ⟨rfl, rfl, hkv⟩
    rw [hstart] at hkv
    dsimp only at hkv ⊢
    refine (collectNode_runs hc hcollecting₁ hj hkv).bind ?_
    rintro ⟨result, db₂⟩ w₂ ⟨hchanged₂, A₂, hkept, hentries, hgc, hcleaner₂, htarget⟩
    replace hchanged₂ := hchanged.trans hchanged₂
    replace hcleaner₂ : Cleaner A A₂ := fun t hclean => hcleaner₂ t (hcleaner t hclean)
    have hmounted₂ := hkept.mounted
    have hnext := get_next_kv_addr_runs hmounted₂.stored hmounted₂.sec_size hmounted₂.sectors hj hentries
      (by rw [hstore]; exact StoreStatus.noConfusion) haddr (hkv.withFate .deleted)
    rw [get_next_kv_addr_status] at hnext
    dsimp only at hentries hnext ⊢
    have hdeleted : ∀ d ∈ pre ++ [e.withFate .deleted], d.fate = .deleted := by
      intro d hd
      rcases List.mem_append.mp hd with hd | hd
      · exact hc.deleted d hd
      · rw [List.mem_singleton.mp hd]
        rfl
    refine hnext.bind ?_
    rintro _ _ ⟨rfl, rfl⟩
    cases post with
    | nil =>
      rw [if_neg (by simp [nextAddr])]
      exact runs_ret ⟨hchanged₂, A₂, hkept, hcleaner₂, by rw [hentries]; exact hdeleted⟩
    | cons e' post =>
      have hge := e.size_ge
      have hkvsize : KV_HDR_DATA_SIZE = 24 := rfl
      have hne : nextAddr G j pre (e.withFate .deleted) (e' :: post) ≠ FAILED_ADDR :=
        G.addr_ne _ hj (by rw [e.withFate_size]; omega)
      rw [if_pos hne]
      refine runs_ret ⟨⟨hchanged₂, A₂, pre ++ [e.withFate .deleted], e', post,
        ⟨hkept, by rw [hentries, List.append_assoc]; rfl, hgc, hdeleted, htarget⟩, hcleaner₂, ?_⟩, ?_⟩
      · rw [used_append, used_cons, used_nil, Nat.add_zero, ← Nat.add_assoc]
        rfl
      · rw [hstart]
        simp only [nextAddr, Geometry.addr, e.withFate_size]
        omega

theorem Kept.mark (h : Kept K m db A w) (hi : i < G.count) (hne : (A i).entries ≠ []) {d : DirtyStatus}
    (hd : d ≠ .unused) (hnot : d ≠ .clean) (hcached : ∀ s, Cached G (A i) i s → Cached G ((A i).marked d) i s) :
    Kept K m db (Function.update A i ((A i).marked d)) (w.written i ((A i).marked d).image) where
  mounted :=
    { sec_size := h.mounted.sec_size
      max_size := h.mounted.max_size
      oldest := h.mounted.oldest
      stored := h.mounted.stored.written ((h.mounted.stored.wf i hi).mark hne hd)
      sectors := h.mounted.sectors.congr fun j _ s hs => by
        by_cases hji : j = i
        · subst hji
          rw [Function.update_self]
          exact hcached s hs
        · rwa [Function.update_of_ne hji]
      keys := h.mounted.keys.mono fun _ _ => Stored.filed_mark }
  stands := h.stands.congr fun a k v => by simp only [Live, Sector.marked, at_mark]
  settled a e hat := h.settled a e (at_mark.mp hat)
  named a e hat := h.named a e (at_mark.mp hat)
  marks := h.marks.update fun hclean => absurd hclean hnot
  completed := h.completed

theorem Kept.wipe (h : Kept K m db A w) (hi : i < G.count) (hdeleted : ∀ e ∈ (A i).entries, e.fate = .deleted) :
    ∃ table, update_sector_cache db
        { SecInfo.uninit with addr := i * G.sec_size, check_ok := false, empty_kv := FAILED_ADDR } =
        { db with sector_cache_table := table } ∧
      Kept K m { db with sector_cache_table := table } (Function.update A i ⟨.clean, []⟩)
        (w.written i (Sector.image ⟨.clean, []⟩)) := by
  obtain ⟨table, hupdate, hmounted⟩ := h.mounted.wipe hi hdeleted
  have hless : ∀ {a e}, At G (Function.update A i ⟨.clean, []⟩) a e → At G A a e := by
    intro a e hat
    obtain ⟨j, hj, _, pre, post, hentries, haddr⟩ := at_wipe.mp hat
    exact ⟨j, hj, pre, post, hentries, haddr⟩
  have hmore : ∀ {a e}, At G A a e → e.fate = .write → At G (Function.update A i ⟨.clean, []⟩) a e := by
    rintro a e ⟨j, hj, pre, post, hentries, haddr⟩ hfate
    refine at_wipe.mpr ⟨j, hj, ?_, pre, post, hentries, haddr⟩
    rintro rfl
    rw [hdeleted e (hentries ▸ List.mem_append_right _ List.mem_cons_self)] at hfate
    cases hfate
  refine ⟨table, hupdate, ⟨h.stands.congr fun a k v => ⟨?_, ?_⟩, fun a e hat => h.settled a e (hless hat),
    fun a e hat => h.named a e (hless hat), h.marks.update fun _ _ he => absurd he List.not_mem_nil⟩, hmounted,
    h.completed⟩
  · rintro ⟨e, hat, hpair⟩
    exact ⟨e, hless hat, hpair⟩
  · rintro ⟨e, hat, hfate, hpair⟩
    exact ⟨e, hmore hat hfate, hfate, hpair⟩

/-- In a clean sector more than `size` bytes are left, and another sector is empty. -/
def Fitting (G : Geometry) (A : Nat → Sector) (size : Nat) : Prop :=
  ∃ l < G.count, (A l).dirty = .clean ∧ (A l).stop + size < G.sec_size ∧ ∃ i < G.count, i ≠ l ∧ (A i).entries = []

/-- The address of a clean sector. -/
def CleanAt (G : Geometry) (A : Nat → Sector) (addr : Nat) : Prop :=
  ∃ t < G.count, addr = t * G.sec_size ∧ (A t).dirty = .clean

/-- The next sector, or the first one behind the last. -/
theorem next_sector_addr (hi : i < G.count) (hsec : db.sec_size = G.sec_size) (hmax : db.max_size = G.max_size) {s : SecInfo}
    (haddr : s.addr = i * G.sec_size) (hcombined : s.combined = SECTOR_NOT_COMBINED) :
    ∃ t < G.count, get_next_sector_addr db s 0 = t * G.sec_size := by
  have hfits := G.max_size_fits
  have hle : (0 + G.sec_size) % 4294967296 ≤ G.max_size := by
    have := G.sector_end G.count_pos
    omega
  have haddr' : (i * G.sec_size + G.sec_size) % 4294967296 = i * G.sec_size + G.sec_size :=
    Nat.mod_eq_of_lt (by have := G.sector_end hi; omega)
  unfold get_next_sector_addr
  dsimp only
  rw [if_pos hcombined, hsec, hmax, if_pos hle, haddr, haddr']
  split
  · rename_i hlt
    refine ⟨i + 1, ?_, (Nat.succ_mul i _).symm⟩
    rw [← Nat.succ_mul, Geometry.max_size, Nat.mul_lt_mul_right G.sec_pos] at hlt
    exact hlt
  · exact ⟨0, G.count_pos, (Nat.zero_mul _).symm⟩

theorem do_gc_runs (h : Kept K m db A w) (hcollecting : db.gc_request = true) (hspare : Spare G A)
    (hi : i < G.count) {s : SecInfo} (hs : Info G (A i) i s) {last : Nat}
    (hlast : CleanAt G A last) (size : Nat) :
    Runs (do_gc size s db last) (fun r w' => Changed db r.2.1 ∧
      ∃ A', Kept K m r.2.1 A' w' ∧ Spare G A' ∧ Cleaner A A' ∧ (A' i).dirty = .clean ∧ CleanAt G A' r.2.2 ∧
        (r.1 = true → Fitting G A' size)) w := by
  unfold do_gc
  split
  · rename_i hdirty
    have hnot : (A i).dirty ≠ .clean := by
      intro hclean
      have hdirty := hdirty.2
      rcases hs.dirty with heq | ⟨_, hgc⟩
      · rw [heq, hclean] at hdirty
        simp at hdirty
      · rw [hclean] at hgc
        cases hgc
    have hne : (A i).entries ≠ [] := fun hempty => hnot ((h.mounted.stored.wf i hi).clean hempty)
    obtain ⟨d, rest, hentries⟩ := List.exists_cons_of_ne_nil hne
    rw [hs.addr]
    refine runs_write_dirty h.mounted.stored hi (by cases (A i).dirty <;> decide) (by decide) ?_
    have hgc : ∀ s, Cached G (A i) i s → Cached G ((A i).marked .gc) i s := by
      intro s hs
      refine hs.mark ?_
      have hmarked := (h.mounted.stored.wf i hi).marked
      rcases hs.dirty with heq | ⟨heq, _⟩
      · rw [heq]
        cases hd : (A i).dirty with
        | unused => exact absurd hd hmarked
        | clean => exact absurd hd hnot
        | dirty => exact .inr ⟨rfl, rfl⟩
        | gc => exact .inl rfl
      · exact .inr ⟨heq, rfl⟩
    have hmarked := h.mark hi hne (by decide) (by decide) hgc
    obtain ⟨t, ht, hempty⟩ := hspare
    have hti : t ≠ i := by
      rintro rfl
      exact hne hempty
    have hself : Function.update A i ((A i).marked .gc) i = (A i).marked .gc := Function.update_self _ _ _
    have hother : Function.update A i ((A i).marked .gc) t = A t := Function.update_of_ne hti _ _
    have hstart : Collecting K m i [] d rest db (Function.update A i ((A i).marked .gc))
        (w.written i ((A i).marked .gc).image) := by
      refine ⟨hmarked, by rw [hself]; exact hentries, by rw [hself]; rfl, fun e he => absurd he List.not_mem_nil,
        t, ht, hti, ?_⟩
      rw [hother, Sector.stop, hempty]
      exact ⟨(h.mounted.stored.wf t ht).clean hempty, Nat.le_refl _⟩
    refine (collectNodes_runs hstart hcollecting hi (hs.store.trans (Sector.store_inUse hne)) hs.addr).bind ?_
    rintro db₁ w₁ ⟨hchanged₁, A₁, hkept₁, hcleaner, hdeleted⟩
    refine (format_sector_runs hkept₁.mounted.sec_size hi).bind ?_
    rintro ⟨result, db₂⟩ w₂ ⟨rfl, rfl, rfl⟩
    obtain ⟨table, hupdate, hkept₂⟩ := hkept₁.wipe hi hdeleted
    obtain ⟨t', ht', hnext⟩ := @next_sector_addr _ _ { db₁ with sector_cache_table := table }
      hi hkept₂.mounted.sec_size hkept₂.mounted.max_size _ hs.addr hs.combined
    dsimp only
    rw [hupdate, hnext]
    have hkept₃ : Kept K m { db₁ with sector_cache_table := table, oldest_addr := t' * G.sec_size }
        (Function.update A₁ i ⟨.clean, []⟩) (w₁.written i (Sector.image ⟨.clean, []⟩)) :=
      ⟨hkept₂.toHolds, ⟨hkept₂.mounted.sec_size, hkept₂.mounted.max_size, ⟨t', ht', rfl⟩, hkept₂.mounted.stored,
        hkept₂.mounted.sectors, hkept₂.mounted.keys⟩, hkept₂.completed⟩
    obtain ⟨l, hl, rfl, hlclean⟩ := hlast
    have hli : l ≠ i := by
      rintro rfl
      exact hnot hlclean
    refine (read_sector_info_runs hkept₃.mounted hl .uninit true).bind ?_
    rintro ⟨result, last_gc_sector, db₄⟩ _ ⟨rfl, rfl, _, hspace, hdb₄⟩
    have hempty₃ : Function.update A₁ i ⟨.clean, []⟩ i = ⟨.clean, []⟩ := Function.update_self _ _ _
    have hcleaner₃ : Cleaner A (Function.update A₁ i ⟨.clean, []⟩) := by
      intro t hclean
      by_cases hti : t = i
      · subst hti
        rw [hempty₃]
      · rw [Function.update_of_ne hti]
        refine hcleaner t ?_
        rwa [Function.update_of_ne hti]
    refine runs_ret ⟨?_, _, hkept₃.resectored hdb₄, ⟨i, hi, by rw [hempty₃]⟩, hcleaner₃, by rw [hempty₃],
      ⟨i, hi, rfl, by rw [hempty₃]⟩, fun hstop => ?_⟩
    · exact hchanged₁.trans (Changed.trans ⟨_, table, _, _, rfl⟩ hdb₄.changed)
    · have hremain : last_gc_sector.remain = _ := (hspace rfl).remain
      have hmore : size < last_gc_sector.remain := (of_decide_eq_true hstop).2
      exact ⟨l, hl, hcleaner₃ l hlclean, by omega, i, hi, hli.symm, by rw [hempty₃]⟩
  · rename_i hdirty
    refine runs_ret ⟨Changed.refl db, A, h, hspare, fun _ hclean => hclean, ?_, hlast,
      fun hstop => absurd hstop Bool.false_ne_true⟩
    have hmarked := (h.mounted.stored.wf i hi).marked
    by_contra hnot
    refine hdirty ⟨hs.check_ok, ?_⟩
    rcases hs.dirty with heq | ⟨heq, _⟩
    · rw [heq]
      cases hd : (A i).dirty with
      | unused => exact absurd hd hmarked
      | clean => exact absurd hd hnot
      | dirty => exact .inl rfl
      | gc => exact .inr rfl
    · exact .inl heq

/-! ## All sectors -/

theorem gc_check_runs (h : Mounted db A w) (sector : SecInfo) :
    Runs (sector_iterator db sector .empty gc_check_cb (0, 0) false) (fun r w' => w' = w ∧
      Resectored G A db r.2.1 ∧ (Spare G A → CleanAt G A r.2.2.2) ∧
      ∃ is : List Nat, is.Nodup ∧ (∀ i ∈ is, i < G.count) ∧ r.2.2.1 = countStore A .empty is) w := by
  let L : SectorLoop G (Nat × Nat) :=
    { inv := fun done A' db' arg w' => A' = A ∧ w' = w ∧ Resectored G A db db' ∧
        ((∃ i ∈ done, (A i).store = .empty) → CleanAt G A arg.2) ∧ (∀ i ∈ done, i < G.count) ∧
        arg.1 = countStore A .empty done
      mounted := by
        rintro _ _ _ _ _ ⟨rfl, rfl, hdb, _⟩
        exact h.resectored hdb
      resectored := by
        rintro _ _ _ _ _ _ ⟨rfl, rfl, hdb, hlast⟩ hdb'
        exact ⟨rfl, rfl, hdb.trans hdb', hlast⟩ }
  have hmem : ∀ {done : List Nat} {i : Nat}, (∀ j ∈ done, j < G.count) → i < G.count →
      ∀ j ∈ done ++ [i], j < G.count := by
    intro done i hdone hi j hj
    rcases List.mem_append.mp hj with hj | hj
    · exact hdone j hj
    · rw [List.mem_singleton.mp hj]
      exact hi
  refine sector_iterator_runs (A := A) L (Q := fun _ db' arg w' => w' = w ∧ Resectored G A db db' ∧
    (Spare G A → CleanAt G A arg.2) ∧
    ∃ is : List Nat, is.Nodup ∧ (∀ i ∈ is, i < G.count) ∧ arg.1 = countStore A .empty is) ?_ ?_ ?_ ?_
  · refine ⟨rfl, rfl, h.resectored_self, ?_, fun _ hi => absurd hi List.not_mem_nil, rfl⟩
    rintro ⟨i, hi, _⟩
    exact absurd hi List.not_mem_nil
  · rintro done i A' db' arg w' hi ⟨rfl, rfl, hdb, hlast, hlt, hcount⟩ _ hne
    refine ⟨rfl, rfl, hdb, ?_, hmem hlt hi, ?_⟩
    · rintro ⟨j, hj, hempty⟩
      rcases List.mem_append.mp hj with hj | hj
      · exact hlast ⟨j, hj, hempty⟩
      · rw [List.mem_singleton.mp hj] at hempty
        exact absurd hempty.symm hne
    · rw [countStore_concat, if_neg hne.symm, Nat.add_zero]
      exact hcount
  · rintro done i s A' db' arg w' hi _ ⟨rfl, rfl, hdb, _, hlt, hcount⟩ heq hs _
    unfold gc_check_cb
    rw [if_pos hs.check_ok]
    have hempty := (heq.resolve_left (by decide)).symm
    refine runs_ret ⟨A', rfl, rfl, hdb, fun _ => ⟨i, hi, hs.addr, ?_⟩, hmem hlt hi, ?_⟩
    · exact (h.stored.wf i hi).clean (Sector.entries_of_store hempty)
    · rw [countStore_concat, if_pos hempty, ← hcount]
  · rintro done s A' db' arg w' hnodup hall ⟨rfl, rfl, hdb, hlast, hlt, hcount⟩
    refine ⟨rfl, hdb, ?_, done, hnodup, hlt, hcount⟩
    rintro ⟨i, hi, hempty⟩
    exact hlast ⟨i, hall i hi, Sector.store_empty hempty⟩

theorem gc_sectors_runs (h : Kept K m db A w) (hcollecting : db.gc_request = true) (hspare : Spare G A)
    {last : Nat} (hlast : CleanAt G A last) (sector : SecInfo) (size : Nat) :
    Runs (sector_iterator db sector .unused (do_gc size) last false) (fun r w' => Changed db r.2.1 ∧
      ∃ A', Kept K m r.2.1 A' w' ∧ Spare G A' ∧
        ((∀ i < G.count, (A' i).dirty = .clean) ∨ Fitting G A' size)) w := by
  let L : SectorLoop G Nat :=
    { inv := fun done A' db' arg w' => Changed db db' ∧ Kept K m db' A' w' ∧ Spare G A' ∧
        CleanAt G A' arg ∧ ∀ i ∈ done, (A' i).dirty = .clean
      mounted := fun hinv => hinv.2.1.mounted
      resectored := fun hinv hdb => ⟨hinv.1.trans hdb.changed, hinv.2.1.resectored hdb, hinv.2.2⟩ }
  refine sector_iterator_runs (A := A) L (Q := fun _ db' _ w' => Changed db db' ∧
    ∃ A', Kept K m db' A' w' ∧ Spare G A' ∧ ((∀ i < G.count, (A' i).dirty = .clean) ∨ Fitting G A' size)) ?_ ?_ ?_ ?_
  · exact ⟨Changed.refl db, h, hspare, hlast, fun _ hi => absurd hi List.not_mem_nil⟩
  · intro done i A' db' arg w' _ _ hne _
    exact absurd rfl hne
  · rintro done i s A' db' arg w' hi _ ⟨hchanged, hkept, hspare', hlast', hdone⟩ _ hs _
    have hcollecting' : db'.gc_request = true := by
      obtain ⟨_, _, _, _, rfl⟩ := hchanged
      exact hcollecting
    refine (do_gc_runs hkept hcollecting' hspare' hi hs.toInfo hlast' size).mono ?_
    rintro ⟨stop, db'', last'⟩ w'' ⟨hchanged', A'', hkept'', hspare'', hcleaner, hclean, hlast'', hfitting⟩
    replace hchanged' := hchanged.trans hchanged'
    cases stop with
    | true => exact ⟨hchanged', A'', hkept'', hspare'', .inr (hfitting rfl)⟩
    | false =>
      refine ⟨A'', hchanged', hkept'', hspare'', hlast'', fun j hj => ?_⟩
      rcases List.mem_append.mp hj with hj | hj
      · exact hcleaner j (hdone j hj)
      · rw [List.mem_singleton.mp hj]
        exact hclean
  · rintro done s A' db' arg w' _ hall ⟨hchanged, hkept, hspare', _, hdone⟩
    exact ⟨hchanged, A', hkept, hspare', .inl fun i hi => hdone i (hall i hi)⟩

/-- What a collection leaves a database with that it was asked for. -/
theorem Changed.collected (h : Changed db db') :
    Changed { db with gc_request := false } { db' with gc_request := false } := by
  obtain ⟨oldest, sectors, keys, completed, rfl⟩ := h
  exact ⟨oldest, sectors, keys, completed, rfl⟩

theorem Kept.request (h : Kept K m db A w) (gc : Bool) : Kept K m { db with gc_request := gc } A w :=
  ⟨h.toHolds, ⟨h.mounted.sec_size, h.mounted.max_size, h.mounted.oldest, h.mounted.stored, h.mounted.sectors,
    h.mounted.keys⟩, h.completed⟩

theorem gc_collect_by_free_size_runs (h : Kept K m db A w) (hcollecting : db.gc_request = true)
    (hspare : Spare G A) (free_size : Nat) :
    Runs (gc_collect_by_free_size db free_size) (fun db' w' => Changed { db with gc_request := false } db' ∧
      ∃ A', Kept K m db' A' w' ∧ Spare G A' ∧ (Sole G A →
        (∀ i < G.count, (A' i).dirty = .clean) ∨ Fitting G A' free_size)) w := by
  unfold gc_collect_by_free_size
  refine (gc_check_runs h.mounted .uninit).bind ?_
  rintro ⟨sector, db₁, empty_sec_num, empty_sec_addr⟩ w ⟨rfl, hdb₁, hlast, is, hnodup, hlt, hcount⟩
  have hkept₁ := h.resectored hdb₁
  have hcollecting₁ : db₁.gc_request = true := by
    obtain ⟨_, rfl, _⟩ := hdb₁
    exact hcollecting
  dsimp only at hlast hcount ⊢
  split
  · refine (gc_sectors_runs hkept₁ hcollecting₁ hspare (hlast hspare) sector free_size).bind ?_
    rintro ⟨s, db₂, last⟩ w₂ ⟨hchanged, A', hkept', hspare', hclean⟩
    exact runs_ret ⟨(hdb₁.changed.trans hchanged).collected, A', hkept'.request false, hspare', fun _ => hclean⟩
  · rename_i hmany
    refine runs_ret ⟨hdb₁.changed.collected, A, hkept₁.request false, hspare, fun hsole => ?_⟩
    obtain ⟨t, ht, hempty⟩ := hspare
    rw [hcount] at hmany
    obtain ⟨j, hj, hjt, hempty'⟩ := exists_other_empty hnodup (Nat.lt_of_not_le hmany) t
    exact absurd (hsole j (hlt j hj) t ht hempty' hempty) hjt

/-- A whole collection leaves no deleted node behind, and every pair. -/
theorem gc_collect_leaves_live (h : Kept K m db A w) (hcollecting : db.gc_request = true) (hspare : Spare G A)
    (hsole : Sole G A) :
    Runs (gc_collect db) (fun db' w' => db'.gc_request = false ∧ ∃ A', Kept K m db' A' w' ∧ Spare G A' ∧
      ∀ i < G.count, (A' i).dirty = .clean ∧ ∀ e ∈ (A' i).entries, e.fate = .write) w := by
  refine (gc_collect_by_free_size_runs h hcollecting hspare db.max_size).mono ?_
  rintro db' w' ⟨hchanged, A', hkept', hspare', hclean⟩
  obtain ⟨_, _, _, _, rfl⟩ := hchanged
  have hall : ∀ i < G.count, (A' i).dirty = .clean := by
    refine (hclean hsole).resolve_right ?_
    rintro ⟨l, _, _, hfits, _⟩
    have hle := G.sector_end G.count_pos
    rw [h.mounted.max_size] at hfits
    omega
  exact ⟨rfl, A', hkept', hspare', fun i hi => ⟨hall i hi, hkept'.marks i hi (hall i hi)⟩⟩

/-- A sector with a deleted node, and an empty one. -/
def littered : Nat → Sector
  | 0 => ⟨.dirty, [⟨.deleted, Name.sample, []⟩]⟩
  | _ => ⟨.clean, []⟩

theorem littered_stored : Stored (Flash.imaged .small littered) littered :=
  stored_small ⟨by decide, by decide, by decide⟩ ⟨by decide, by decide, by decide⟩

theorem gc_collect_leaves_live_littered :
    Runs (gc_collect { Kvdb.blank .small false [] with gc_request := true }) (fun db' w' => db'.gc_request = false ∧
      ∃ A', Kept (· = Name.sample) (fun _ => none) db' A' w' ∧ Spare .small A' ∧
        ∀ i < 2, (A' i).dirty = .clean ∧ ∀ e ∈ (A' i).entries, e.fate = .write)
      (Flash.imaged .small littered) := by
  refine gc_collect_leaves_live (A := littered) ⟨holds_dead ?_, littered_stored.mounted rfl rfl rfl ?_ ?_, rfl⟩ rfl
    ⟨1, by decide, rfl⟩ ?_
  · intro i hi e he
    obtain rfl | rfl := Geometry.lt_small hi
    · rw [List.mem_singleton.mp he]
      exact ⟨rfl, by decide⟩
    · exact absurd he List.not_mem_nil
  · intro s hs
    rw [List.eq_of_mem_replicate hs]
  · intro node hnode
    rw [List.eq_of_mem_replicate hnode]
  · have hsole : ∀ i < 2, (littered i).entries = [] → i = 1 := by
      intro i hi hempty
      obtain rfl | rfl := Geometry.lt_small hi
      · cases hempty
      · rfl
    intro i hi j hj hi' hj'
    rw [hsole i hi hi', hsole j hj hj']

end FlashDb
