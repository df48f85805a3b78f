import BaseUtilities.FlashDb.Caches

/-!
# FlashDB: reading nodes

What `read_kv` makes of an entry, and how the functions that go through a sector come from one entry to
the next: `find_next_kv_addr` looks for the magic word, and what it finds is the node behind.
-/

open Effects Mem Kv Storage

namespace FlashDb

variable {G : Geometry} {w : Flash G} {A : Nat → Sector} {i : Nat} {db : Kvdb} {α β : Type}
  {R : β → Flash G → Prop}

theorem runs_ofOption {o : Option α} {a : α} {f : α → Code β} (ho : o = some a) (h : Runs (f a) R w) :
    Runs (Prog.ofOption o >>= f) R w := by
  subst ho
  exact h

/-- `kv` is what is known of the entry at `addr` once it has been read. -/
structure NodeOf (e : Entry) (addr : Nat) (kv : Node) : Prop where
  status : kv.status = e.fate.status
  crc_is_ok : kv.crc_is_ok = true
  name_len : kv.name_len.toNat = e.name.bytes.length
  len : kv.len = e.size
  value_len : kv.value_len = e.value.length
  name : kv.name.bytes.take e.name.bytes.length = e.name.bytes
  start : kv.start = addr
  value : kv.value = addr + KV_HDR_DATA_SIZE + e.name.bytes.length

namespace Entry

variable (e : Entry)

theorem name_len_toNat : (e.hdr.name_len.headD 0).toNat = e.name.bytes.length := by
  have hshort := e.name.short
  show (UInt8.ofNat e.name.bytes.length).toNat = _
  rw [UInt8.toNat_ofNat']
  exact Nat.mod_eq_of_lt (by simp only [FDB_KV_NAME_MAX] at hshort; omega)

variable {e}

theorem hdr_len_toNat (h : e.size < 2 ^ 32) : e.hdr.len.toNat = e.size := by
  show (UInt32.ofNat (KV_HDR_DATA_SIZE + wgAlign e.name.bytes.length + wgAlign e.value.length)).toNat = _
  rw [wgAlign_eq, wgAlign_eq, UInt32.toNat_ofNat']
  exact Nat.mod_eq_of_lt h

theorem value_len_toNat (h : e.size < 2 ^ 32) : e.hdr.value_len.toNat = e.value.length := by
  show (UInt32.ofNat e.value.length).toNat = _
  rw [UInt32.toNat_ofNat']
  exact Nat.mod_eq_of_lt (by simp only [size] at h; omega)

theorem crc32_eq (e : Entry) :
    e.hdr.crc32 = fdb_calc_crc32 (fdb_calc_crc32 (fdb_calc_crc32 0 e.hdr.name_len) (le32 e.hdr.value_len))
      (e.name.bytes ++ e.value) := by
  rw [fdb_calc_crc32_append]
  rfl

end Entry

/-- An entry of a sector is inside of it. -/
theorem Stored.entry_room (h : Stored w A) (hi : i < G.count) {pre post : List Entry} {e : Entry}
    (hentries : (A i).entries = pre ++ e :: post) :
    SECTOR_HDR_DATA_SIZE + used pre + e.size + used post + FDB_SEC_REMAIN_THRESHOLD < G.sec_size := by
  have hroom := (h.wf i hi).room
  rw [Sector.stop, hentries, used_append, used_cons] at hroom
  omega

theorem Geometry.sec_le (G : Geometry) : G.sec_size < 2 ^ 32 := by
  have := G.max_size_fits
  omega

/-! ## A node -/

theorem dataCrc_runs {off : Nat} {data : Bytes} (hi : i < G.count) (hoff : off + data.length < G.sec_size)
    (hdata : Contains w i off data) (crc : UInt32) :
    Runs (dataCrc (G.addr i off) data.length crc) (fun r w' => w' = w ∧ r = fdb_calc_crc32 crc data) w := by
  unfold dataCrc
  refine Total.forever (fun s w' => w' = w ∧ s.1 ≤ data.length ∧ s.2 = fdb_calc_crc32 crc (data.take s.1))
    (fun s _ => data.length - s.1) ⟨rfl, Nat.zero_le _, by simp⟩ ?_
  rintro ⟨len, c⟩ w' ⟨rfl, hle, hc⟩
  dsimp only at hle hc ⊢
  split
  · rename_i hlt
    set size := if len + 32 < data.length then 32 else data.length - len with hsize
    have hfit : len + size ≤ data.length := by split at hsize <;> omega
    have hpos : 0 < size := by split at hsize <;> omega
    refine runs_read (Nat.add_assoc _ _ _) hi (by omega)
      (hdata len (wgAlign size) (by rw [wgAlign_eq]; exact hfit)) ?_
    intro buf hbuf
    refine runs_ret ⟨⟨rfl, hfit, ?_⟩, by dsimp only; omega⟩
    dsimp only
    rw [hc, hbuf, wgAlign_eq, List.take_take, Nat.min_self, ← fdb_calc_crc32_append, List.take_add]
  · rename_i hge
    refine runs_ret ⟨rfl, ?_⟩
    rw [hc, List.take_of_length_le (by omega)]

theorem readChecked_runs (h : Stored w A) (hi : i < G.count) {pre post : List Entry} {e : Entry}
    (hentries : (A i).entries = pre ++ e :: post) {kv : Node} {kv_hdr : KvHdr}
    (hstart : kv.start = G.addr i (SECTOR_HDR_DATA_SIZE + used pre)) (hlen : kv.len = e.size)
    (hstatus : kv.status = e.fate.status) (hname : kv_hdr.name_len = e.hdr.name_len)
    (hvalue : kv_hdr.value_len = e.hdr.value_len) (hcheck : kv_hdr.crc32 = e.hdr.crc32) :
    Runs (readChecked kv kv_hdr) (fun r w' => w' = w ∧ r.1 = .noErr ∧ NodeOf e kv.start r.2) w := by
  have hroom := h.entry_room hi hentries
  have hsize : e.size < 2 ^ 32 := by have := G.sec_le; omega
  have hshort := e.name.short
  have hentry := h.contains_entry hi hentries
  rw [e.image_eq] at hentry
  have hdata := hentry.tail
  rw [e.length_head] at hdata
  have hdl : kv.len - KV_HDR_DATA_SIZE = (e.name.bytes ++ e.value).length := by
    rw [hlen, List.length_append, Entry.size]
    omega
  have hinside : SECTOR_HDR_DATA_SIZE + used pre + KV_HDR_DATA_SIZE + (e.name.bytes ++ e.value).length <
      G.sec_size := by
    rw [← hdl, hlen]
    have := e.size_ge
    omega
  have hcrc := dataCrc_runs hi hinside hdata
    (fdb_calc_crc32 (fdb_calc_crc32 0 e.hdr.name_len) (le32 e.hdr.value_len))
  have haddr : kv.start + KV_HDR_DATA_SIZE = G.addr i (SECTOR_HDR_DATA_SIZE + used pre + KV_HDR_DATA_SIZE) := by
    rw [hstart, Geometry.addr, Geometry.addr, Nat.add_assoc]
  have hlength : (kv_hdr.name_len.headD 0).toNat = e.name.bytes.length := by
    rw [hname]
    exact e.name_len_toNat
  unfold readChecked
  -- The length stands in the types of what is read.
  dsimp only
  have hread := hlength
  generalize (kv_hdr.name_len.headD 0).toNat = n at hread ⊢
  subst hread
  rw [hname, hvalue, hcheck, hdl, haddr]
  refine hcrc.bind ?_
  rintro _ _ ⟨rfl, rfl⟩
  rw [if_neg (by rw [← e.crc32_eq]; simp)]
  refine runs_read rfl hi (by omega) (hdata.head.load_take (by rw [wgAlign_eq])) ?_
  intro buf hbuf
  have hbuf : buf.bytes = e.name.bytes := by rw [hbuf, wgAlign_eq, List.take_length]
  refine runs_ofOption (by rw [hbuf]; exact kv.name.store?_zero (Nat.le_of_lt hshort)) ?_
  rw [if_neg (Nat.not_le.mpr hshort)]
  refine runs_ofOption
    (by
      have hlast := Buffer.overlay_store? kv.name e.name.bytes [] [0] (Nat.zero_le _)
        hshort
      rwa [List.append_nil] at hlast) ?_
  refine runs_ret ⟨rfl, rfl, ?_⟩
  exact
    { status := hstatus
      crc_is_ok := rfl
      name_len := e.name_len_toNat
      len := hlen
      value_len := e.value_len_toNat hsize
      name := by
        dsimp only
        rw [Buffer.overlay_bytes (by rw [List.length_append]; exact hshort), List.append_assoc,
          List.take_left' rfl]
      start := rfl
      value := by
        dsimp only
        rw [wgAlign_eq, ← haddr] }

/-- The length of an entry is one that `read_kv` believes. -/
theorem Stored.len_possible (h : Stored w A) (hmax : db.max_size = G.max_size) (hi : i < G.count)
    {pre post : List Entry} {e : Entry} (hentries : (A i).entries = pre ++ e :: post) :
    ¬ (e.size = 0xFFFFFFFF ∨ e.size > db.max_size ∨ e.size < KV_HDR_DATA_SIZE) := by
  have hroom := h.entry_room hi hentries
  have hge := e.size_ge
  have hlt : G.sec_size < G.max_size := by
    have h₂ : 2 * G.sec_size ≤ G.count * G.sec_size := Nat.mul_le_mul_right _ G.sectors
    have := G.sec_pos
    rw [Geometry.max_size]
    omega
  have hfits := G.max_size_fits
  omega

/-- An entry is read as what was written. -/
theorem read_kv_runs (h : Stored w A) (hmax : db.max_size = G.max_size) (hi : i < G.count)
    {pre post : List Entry} {e : Entry} (hentries : (A i).entries = pre ++ e :: post) {kv : Node}
    (hstart : kv.start = G.addr i (SECTOR_HDR_DATA_SIZE + used pre)) :
    Runs (read_kv db kv) (fun r w' => w' = w ∧ r.1 = .noErr ∧ NodeOf e kv.start r.2) w := by
  have hroom := h.entry_room hi hentries
  have hsec := G.sec_le
  have hsize : e.size < 2 ^ 32 := by omega
  have hge := e.size_ge
  have hentry := h.contains_entry hi hentries
  rw [e.image_eq] at hentry
  have hload := hentry.head.load
  rw [e.length_head] at hload
  unfold read_kv
  refine runs_read hstart hi (by omega) hload ?_
  intro buf hbuf
  have hhdr : KvHdr.ofBytes buf.bytes = { e.hdr with status_table := [statusByte e.fate.status.index] } := by
    rw [hbuf]
    exact KvHdr.ofBytes_tail e.hdr _ rfl
  have hfate : e.fate.status.index < FDB_KV_STATUS_NUM := by cases e.fate <;> decide
  dsimp only
  rw [hhdr]
  dsimp only
  rw [Entry.hdr_len_toNat hsize, fdb_get_status_eq _ (by decide) _ hfate, KvStatus.ofStatus_index,
    if_neg (h.len_possible hmax hi hentries)]
  exact readChecked_runs h hi hentries hstart rfl rfl rfl rfl rfl

/-! ## The next node -/

/-- The address behind the entry `e`, if another one is there. -/
def nextAddr (G : Geometry) (i : Nat) (pre : List Entry) (e : Entry) : List Entry → Nat
  | [] => FAILED_ADDR
  | _ :: _ => G.addr i (SECTOR_HDR_DATA_SIZE + used pre + e.size)

theorem findMagic_erased (start_bak stop left addr n : Nat) :
    findMagic start_bak stop left addr (List.replicate n erasedByte) = none := by
  induction left generalizing addr n with
  | zero => rfl
  | succ left ih =>
    have hword : ofLe32 ((List.replicate n erasedByte).take 4) ≠ KV_MAGIC_WORD := by
      rw [List.take_replicate]
      rcases Nat.lt_or_ge n 4 with hn | hn
      · rw [Nat.min_eq_right (Nat.le_of_lt hn)]
        exact (by decide : ∀ n < 4, ofLe32 (List.replicate n erasedByte) ≠ KV_MAGIC_WORD) n hn
      · rw [Nat.min_eq_left hn]
        decide
    rw [findMagic]
    split
    · rw [if_neg fun h => hword h.1, List.drop_replicate, ih]
    · rfl

/-- The magic word of a node that starts where the search does is the first one that counts. -/
theorem findMagic_entry {start stop : Nat} (hpos : 0 < start) (hstart : start + 4 < stop) (e : Entry)
    (rest : Bytes) : findMagic start stop 28 start ((e.image ++ rest).take 32) = some start := by
  have hmagic : (e.image ++ rest).take 32 =
      statusByte e.fate.status.index :: erasedByte :: erasedByte :: erasedByte ::
        (le32 KV_MAGIC_WORD ++ (e.image.drop 8 ++ rest).take 24) := rfl
  have hskip : ∀ left addr b buf, addr < start + 4 → findMagic start stop (left + 1) addr (b :: buf) =
      findMagic start stop left (addr + 1) buf := by
    intro left addr b buf haddr
    rw [findMagic, if_pos (by omega), if_neg (by simp only [KV_MAGIC_OFFSET]; omega)]
    rfl
  rw [hmagic, hskip 27 start _ _ (by omega), hskip 26 (start + 1) _ _ (by omega),
    hskip 25 (start + 1 + 1) _ _ (by omega), hskip 24 (start + 1 + 1 + 1) _ _ (by omega), findMagic,
    if_pos hstart, if_pos ⟨rfl, Nat.le_refl _⟩]
  rfl

/-- No place in a sector has the address that stands for none. -/
theorem Geometry.addr_ne (G : Geometry) (off : Nat) (hi : i < G.count) (hoff : off < G.sec_size) :
    G.addr i off ≠ FAILED_ADDR := by
  have h₁ := G.sector_end hi
  have h₂ := G.max_size_fits
  show i * G.sec_size + off ≠ 0xFFFFFFFF
  omega

theorem Geometry.addr_alignDown {off : Nat} (hoff : off < G.sec_size) :
    alignDown (G.addr i off) G.sec_size = i * G.sec_size := by
  rw [alignDown, Geometry.addr_div hoff]

theorem search_runs (h : Stored w A) (hi : i < G.count) {pre post : List Entry} {e : Entry}
    (hentries : (A i).entries = pre ++ e :: post) :
    Runs (find_next_kv_addr.search (G.addr i (SECTOR_HDR_DATA_SIZE + used pre + e.size))
        (i * G.sec_size + G.sec_size - SECTOR_HDR_DATA_SIZE))
      (fun r w' => w' = w ∧ r = nextAddr G i pre e post) w := by
  have hroom := h.entry_room hi hentries
  have hstop : (A i).stop = SECTOR_HDR_DATA_SIZE + used pre + e.size + used post := by
    rw [Sector.stop, hentries, used_append, used_cons]
    omega
  have hrest := h.contains hi (pre ++ [e]) post (by rw [hentries, List.append_assoc]; rfl)
  rw [used_append, used_cons, used_nil, Nat.add_zero, ← Nat.add_assoc] at hrest
  have hconst : SECTOR_HDR_DATA_SIZE = 16 ∧ FDB_SEC_REMAIN_THRESHOLD = 88 := ⟨rfl, rfl⟩
  unfold find_next_kv_addr.search
  cases post with
  | nil =>
    -- There are only erased bytes.
    simp only [images_nil, List.nil_append, used_nil, Nat.add_zero] at hrest hstop hroom
    refine Total.forever
      (fun addr w' => w' = w ∧ G.addr i (SECTOR_HDR_DATA_SIZE + used pre + e.size) ≤ addr)
      (fun addr _ => i * G.sec_size + G.sec_size - addr) ⟨rfl, Nat.le_refl _⟩ ?_
    rintro addr w' ⟨rfl, hle⟩
    dsimp only
    split
    · rename_i hlt
      obtain ⟨off, rfl⟩ : ∃ off, addr = G.addr i (SECTOR_HDR_DATA_SIZE + used pre + e.size + off) :=
        ⟨addr - G.addr i (SECTOR_HDR_DATA_SIZE + used pre + e.size), by
          simp only [Geometry.addr] at hle ⊢
          omega⟩
      simp only [Geometry.addr] at hlt hle ⊢
      refine runs_read rfl hi (by omega) (hrest off 32 (by rw [List.length_replicate, hstop]; omega)) ?_
      intro buf hbuf
      rw [List.drop_replicate, List.take_replicate] at hbuf
      dsimp only
      rw [if_neg (by simp), hbuf, findMagic_erased]
      exact runs_ret ⟨⟨rfl, by omega⟩, by omega⟩
    · exact runs_ret ⟨rfl, rfl⟩
  | cons e' post =>
    have hge := e'.size_ge
    have hkv : KV_HDR_DATA_SIZE = 24 := rfl
    rw [used_cons] at hroom hstop
    refine Total.forever
      (fun addr w' => w' = w ∧ addr = G.addr i (SECTOR_HDR_DATA_SIZE + used pre + e.size)) (fun _ _ => 0)
      ⟨rfl, rfl⟩ ?_
    rintro addr w' ⟨rfl, rfl⟩
    dsimp only
    rw [if_pos (by rw [Geometry.addr]; omega)]
    refine runs_read rfl hi (by omega) (hrest.load_take ?_) ?_
    · rw [images_cons]
      simp only [List.length_append, Entry.length_image, length_images, List.length_replicate]
      omega
    intro buf hbuf
    dsimp only
    rw [if_neg (by simp), hbuf, images_cons, List.append_assoc,
      findMagic_entry (by rw [Geometry.addr]; omega) (by rw [Geometry.addr]; omega)]
    exact runs_ret ⟨rfl, rfl⟩

theorem find_next_runs (h : Stored w A) (hsec : db.sec_size = G.sec_size)
    (hcache : SectorsCached G A db.sector_cache_table) (hi : i < G.count) {pre post : List Entry} {e : Entry}
    (hentries : (A i).entries = pre ++ e :: post) :
    Runs (find_next_kv_addr db (G.addr i (SECTOR_HDR_DATA_SIZE + used pre + e.size))
        (i * G.sec_size + G.sec_size - SECTOR_HDR_DATA_SIZE))
      (fun r w' => w' = w ∧ r = nextAddr G i pre e post) w := by
  have hroom := h.entry_room hi hentries
  have hsearch := search_runs h hi hentries
  unfold find_next_kv_addr
  rw [hsec, Geometry.addr_alignDown (by omega)]
  cases hget : get_sector_from_cache db (i * G.sec_size) with
  | none => exact hsearch
  | some s =>
    dsimp only
    split
    · -- The address is that of the erased bytes.
      rename_i heq
      rcases (hcache.get hi hget).space with hfailed | hspace
      · exact absurd (heq.trans hfailed) (G.addr_ne _ hi (by omega))
      · have hstop := (Geometry.addr_inj (by omega) (by have := (h.wf i hi).room; omega)
          (heq.trans hspace.empty_kv)).2
        rw [Sector.stop, hentries, used_append, used_cons] at hstop
        cases post with
        | nil => exact runs_ret ⟨rfl, rfl⟩
        | cons e' post =>
          have hge := e'.size_ge
          have hkv : KV_HDR_DATA_SIZE = 24 := rfl
          rw [used_cons] at hstop
          omega
    · exact hsearch

theorem get_next_kv_addr_runs (h : Stored w A) (hsec : db.sec_size = G.sec_size)
    (hcache : SectorsCached G A db.sector_cache_table) (hi : i < G.count) {pre post : List Entry} {e : Entry}
    (hentries : (A i).entries = pre ++ e :: post) {sector : SecInfo} (hstore : sector.store ≠ .empty)
    (haddr : sector.addr = i * G.sec_size) {kv : Node}
    (hkv : NodeOf e (G.addr i (SECTOR_HDR_DATA_SIZE + used pre)) kv) :
    Runs (get_next_kv_addr db sector kv) (fun r w' => w' = w ∧ r = nextAddr G i pre e post) w := by
  have hroom := h.entry_room hi hentries
  have hge := e.size_ge
  have hconst : KV_HDR_DATA_SIZE = 24 ∧ FDB_SEC_REMAIN_THRESHOLD = 88 := ⟨rfl, rfl⟩
  unfold get_next_kv_addr
  rw [if_neg hstore, hkv.start, if_neg (G.addr_ne _ hi (by omega)), haddr, hsec,
    if_pos (by rw [Geometry.addr]; omega), if_pos hkv.crc_is_ok, hkv.len]
  rw [show G.addr i (SECTOR_HDR_DATA_SIZE + used pre) + e.size =
    G.addr i (SECTOR_HDR_DATA_SIZE + used pre + e.size) from Nat.add_assoc _ _ _]
  refine (find_next_runs h hsec hcache hi hentries).bind ?_
  rintro _ _ ⟨rfl, rfl⟩
  cases post with
  | nil => exact runs_ret ⟨rfl, rfl⟩
  | cons e' post =>
    rw [if_neg]
    · exact runs_ret ⟨rfl, rfl⟩
    · have hne := G.addr_ne (SECTOR_HDR_DATA_SIZE + used pre + e.size) hi (by omega)
      simp only [nextAddr, Geometry.addr] at hne ⊢
      omega

end FlashDb
