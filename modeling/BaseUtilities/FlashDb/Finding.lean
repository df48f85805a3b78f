import BaseUtilities.FlashDb.Places
import BaseUtilities.Storage.Cells

/-!
# FlashDB: finding keys

A key is found where its pair is live, in the cache or by going through all nodes.  The cache compares
the upper half of a check and as many bytes as the key has, so that it can take a key for another one
that it starts with; `Separate` says that the names in use do not allow that.
-/

open Effects Mem Kv Storage

namespace FlashDb

variable {G : Geometry} {w : Flash G} {A : Nat → Sector} {i : Nat} {db db' : Kvdb}

/-! ## Pairs -/

/-- The pair of `k` is live at an address. -/
def Live (G : Geometry) (A : Nat → Sector) (a : Nat) (k : Name) (v : Bytes) : Prop :=
  ∃ e, At G A a e ∧ e.fate = .write ∧ e.name = k ∧ e.value = v

/-- Names none of which the cache takes for another one. -/
def Separate (K : Name → Prop) : Prop :=
  ∀ k k', K k → K k' → nameCrc k.bytes = nameCrc k'.bytes → k.bytes <+: k'.bytes → k = k'

theorem separate_singleton (k : Name) : Separate (· = k) := by
  rintro _ _ rfl rfl _ _
  rfl

/-- The names of the entries that are not deleted. -/
def NamedIn (G : Geometry) (A : Nat → Sector) (K : Name → Prop) : Prop :=
  ∀ a e, At G A a e → e.fate ≠ .deleted → K e.name

/-- No node is between two states. -/
def Settled (G : Geometry) (A : Nat → Sector) : Prop := ∀ a e, At G A a e → e.fate ≠ .preDelete

/-- What the database is left with where only its caches change. -/
def Recached (G : Geometry) (A : Nat → Sector) (db db' : Kvdb) : Prop :=
  ∃ sectors keys, db' = { db with sector_cache_table := sectors, kv_cache_table := keys } ∧
    SectorsCached G A sectors ∧ KeysCached (Filed G A) (slots keys)

theorem Mounted.recached (h : Mounted db A w) (hdb : Recached G A db db') : Mounted db' A w := by
  obtain ⟨sectors, keys, rfl, hsectors, hkeys⟩ := hdb
  exact ⟨h.sec_size, h.max_size, h.oldest, h.stored, hsectors, hkeys⟩

theorem Mounted.recached_self (h : Mounted db A w) : Recached G A db db :=
  ⟨db.sector_cache_table, db.kv_cache_table, rfl, h.sectors, h.keys⟩

theorem Recached.trans {db₁ db₂ db₃ : Kvdb} (h : Recached G A db₁ db₂) (h' : Recached G A db₂ db₃) :
    Recached G A db₁ db₃ := by
  obtain ⟨_, _, rfl, _, _⟩ := h
  obtain ⟨sectors, keys, rfl, hsectors, hkeys⟩ := h'
  exact ⟨sectors, keys, rfl, hsectors, hkeys⟩

theorem Recached.resectored {db₁ db₂ db₃ : Kvdb} (h : Recached G A db₁ db₂) (h' : Resectored G A db₂ db₃) :
    Recached G A db₁ db₃ := by
  obtain ⟨_, keys, rfl, _, hkeys⟩ := h
  obtain ⟨sectors, rfl, hsectors⟩ := h'
  exact ⟨sectors, keys, rfl, hsectors, hkeys⟩

/-! ## `strncmp` -/

theorem strncmpEq_comm (a b : Bytes) (n : Nat) : strncmpEq a b n = strncmpEq b a n := by
  induction n generalizing a b with
  | zero => rfl
  | succ n ih =>
    rw [strncmpEq, strncmpEq, ih]
    by_cases h : a.headD 0 = b.headD 0
    · simp only [h]
    · simp only [h, Ne.symm h, false_and, decide_false]

/-- All of a string is compared. -/
theorem strncmpEq_iff {a b : Bytes} (ha : (0 : UInt8) ∉ a) : strncmpEq a b a.length = true ↔ a <+: b := by
  induction a generalizing b with
  | nil => simp [strncmpEq]
  | cons x a ih =>
    have hx : x ≠ 0 := fun h => ha (h ▸ List.mem_cons_self)
    rw [List.length_cons, strncmpEq]
    cases b with
    | nil => simp [hx]
    | cons y b =>
      have hrest := ih (b := b) fun h => ha (List.mem_cons_of_mem _ h)
      simp [hx, hrest, List.cons_prefix_cons]

/-! ## In the cache -/

theorem prefix_of_take {l a b : Bytes} {n : Nat} (h : l <+: (a ++ b).take n) : l <+: a ∨ a <+: l := by
  have hl : l <+: a ++ b := h.trans (List.take_prefix _ _)
  rcases Nat.le_total l.length a.length with hle | hle
  · exact .inl (List.prefix_of_prefix_length_le hl (List.prefix_append a b) hle)
  · exact .inr (List.prefix_of_prefix_length_le (List.prefix_append a b) hl hle)

/-- What is read from the start of a name on, which goes on behind it. -/
theorem Stored.load_name (h : Stored w A) (hi : i < G.count) {pre post : List Entry} {e : Entry}
    (hentries : (A i).entries = pre ++ e :: post) :
    ∃ rest, (w i).load? (SECTOR_HDR_DATA_SIZE + used pre + KV_HDR_DATA_SIZE) FDB_KV_NAME_MAX =
      some ((e.name.bytes ++ rest).take FDB_KV_NAME_MAX) := by
  have hroom := (h.wf i hi).room
  have hrest := h.contains hi pre (e :: post) hentries
  simp only [images_cons, e.image_eq, List.append_assoc] at hrest
  have hname := hrest.tail
  rw [e.length_head] at hname
  refine ⟨_, hname.load_take ?_⟩
  have hlen : FDB_KV_NAME_MAX ≤ G.sec_size - (A i).stop := by
    simp only [FDB_SEC_REMAIN_THRESHOLD] at hroom
    omega
  simp only [List.length_append, length_images, List.length_replicate]
  omega

theorem getKvLoop_runs (h : Mounted db A w) {K : Name → Prop} (hK : Separate K) (hnamed : NamedIn G A K)
    {k : Name} (hk : K k) {table : List KvCacheNode}
    (htable : ∀ p ∈ slots table, p.2 ≠ FDB_DATA_UNUSED → Filed G A p.1 p.2) :
    Runs (getKvLoop k.bytes (nameCrc k.bytes) table) (fun r w' => w' = w ∧ slots r.2 = slots table ∧
      ∀ a, r.1 = some a → ∃ e, At G A a e ∧ e.fate ≠ .deleted ∧ e.name = k) w := by
  induction table with
  | nil => exact runs_ret ⟨rfl, rfl, fun a ha => by cases ha⟩
  | cons node table ih =>
    have hrest := ih fun p hp => htable p (List.mem_cons_of_mem _ hp)
    have hmiss : Runs (getKvLoop k.bytes (nameCrc k.bytes) table >>= fun r => return (r.1, node :: r.2))
        (fun r w' => w' = w ∧ slots r.2 = slots (node :: table) ∧
          ∀ a, r.1 = some a → ∃ e, At G A a e ∧ e.fate ≠ .deleted ∧ e.name = k) w := by
      refine hrest.bind ?_
      rintro ⟨addr, table'⟩ _ ⟨rfl, hslots, hfound⟩
      exact runs_ret ⟨rfl, congrArg (node.slot :: ·) hslots, hfound⟩
    rw [getKvLoop]
    split
    · rename_i hnode
      obtain ⟨hused, hcrc⟩ := hnode
      obtain ⟨e, ⟨i, hi, pre, post, hentries, haddr⟩, hfate, hname⟩ :=
        htable node.slot List.mem_cons_self hused
      have hroom := h.stored.entry_room hi hentries
      obtain ⟨rest, hload⟩ := h.stored.load_name hi hentries
      have hat : At G A node.addr e := ⟨i, hi, pre, post, hentries, haddr⟩
      refine runs_read (by rw [show node.addr = _ from haddr, Geometry.addr, Nat.add_assoc]) hi
        (by have := e.size_ge; omega) hload ?_
      intro buf hbuf
      dsimp only
      rw [hbuf]
      split
      · rename_i hcmp
        refine runs_ret ⟨rfl, rfl, fun a ha => ?_⟩
        obtain rfl := Option.some.inj ha
        -- The names are the same, or one of them starts with the other.
        have hsame : nameCrc e.name.bytes = nameCrc k.bytes := hname.trans hcrc
        refine ⟨e, hat, hfate, ?_⟩
        rcases prefix_of_take ((strncmpEq_iff k.terminated).mp hcmp) with hpre | hpre
        · exact (hK k e.name hk (hnamed _ _ hat hfate) hsame.symm hpre).symm
        · exact hK e.name k (hnamed _ _ hat hfate) hk hsame hpre
      · exact hmiss
    · exact hmiss

theorem get_kv_from_cache_runs (h : Mounted db A w) {K : Name → Prop} (hK : Separate K)
    (hnamed : NamedIn G A K) {k : Name} (hk : K k) :
    Runs (get_kv_from_cache db k.bytes) (fun r w' => w' = w ∧ Recached G A db r.2 ∧
      ∀ a, r.1 = some a → ∃ e, At G A a e ∧ e.fate ≠ .deleted ∧ e.name = k) w := by
  unfold get_kv_from_cache
  refine (getKvLoop_runs h hK hnamed hk h.keys.points).bind ?_
  rintro ⟨addr, table⟩ _ ⟨rfl, hslots, hfound⟩
  have hkeys : KeysCached (Filed G A) (slots table) := by
    rw [hslots]
    exact h.keys
  exact runs_ret ⟨rfl, ⟨db.sector_cache_table, table, rfl, h.sectors, hkeys⟩, hfound⟩

/-! ## Among all nodes -/

theorem find_kv_cb_runs {k : Name} {e : Entry} {a : Nat} {kv : Node} (hkv : NodeOf e a kv) (db : Kvdb)
    (find_ok : Bool) :
    Runs (find_kv_cb k.bytes kv db find_ok) (fun r w' => w' = w ∧ r.2.1 = db ∧
      (e.fate = .write ∧ e.name = k ∧ r.1 = true ∧ r.2.2 = true ∨
        ¬ (e.fate = .write ∧ e.name = k) ∧ r.1 = false ∧ r.2.2 = find_ok)) w := by
  unfold find_kv_cb
  split
  · rename_i hlen
    refine runs_ret ⟨rfl, rfl, .inr ⟨?_, rfl, rfl⟩⟩
    rintro ⟨_, rfl⟩
    exact hlen hkv.name_len.symm
  · rename_i hlen
    have hlen : k.bytes.length = e.name.bytes.length := by
      rw [← hkv.name_len]
      exact not_not.mp hlen
    -- Names of one length are the same where one starts with the other.
    have hcmp : strncmpEq kv.name.bytes k.bytes k.bytes.length = true ↔ e.name = k := by
      rw [strncmpEq_comm, strncmpEq_iff k.terminated, List.prefix_iff_eq_take, hlen, hkv.name]
      constructor
      · exact fun heq => Name.ext heq.symm
      · rintro rfl
        rfl
    have hstatus : kv.status = .write ↔ e.fate = .write := by
      rw [hkv.status]
      cases e.fate <;> simp [Fate.status]
    split
    · rename_i hmatch
      exact runs_ret ⟨rfl, rfl, .inl ⟨hstatus.mp hmatch.2.1, hcmp.mp hmatch.2.2, rfl, rfl⟩⟩
    · rename_i hmiss
      refine runs_ret ⟨rfl, rfl, .inr ⟨?_, rfl, rfl⟩⟩
      rintro ⟨hfate, hname⟩
      exact hmiss ⟨hkv.crc_is_ok, hstatus.mpr hfate, hcmp.mpr hname⟩

/-- What a search for the key `k` comes to. -/
def Searched (G : Geometry) (A : Nat → Sector) (k : Name) (found : Bool) (kv : Node) : Prop :=
  if found then ∃ a e, At G A a e ∧ e.fate = .write ∧ e.name = k ∧ NodeOf e a kv
  else ∀ a v, ¬ Live G A a k v

theorem find_kv_no_cache_runs (h : Mounted db A w) (k : Name) (kv : Node) :
    Runs (find_kv_no_cache db k.bytes kv)
      (fun r w' => w' = w ∧ Recached G A db r.2.2 ∧ Searched G A k r.1 r.2.1) w := by
  let L : NodeLoop A w Bool :=
    { inv := fun done db' found => Recached G A db db' ∧ found = false ∧
        ∀ a e, (a, e) ∈ done → ¬ (e.fate = .write ∧ e.name = k)
      mounted := fun hinv => h.recached hinv.1
      resectored := fun hinv hdb => ⟨hinv.1.resectored hdb, hinv.2⟩ }
  unfold find_kv_no_cache
  refine Total.bind (kv_iterator_runs L (Q := fun kv' db' found => Recached G A db db' ∧ Searched G A k found kv')
    ⟨h.recached_self, rfl, fun a e hmem => absurd hmem List.not_mem_nil⟩ ?_ ?_) ?_
  · rintro done a e kv' db' found hat hkv ⟨hdb, rfl, hdone⟩
    refine (find_kv_cb_runs hkv db' false).mono ?_
    rintro ⟨stop, db'', found⟩ _ ⟨rfl, rfl, ⟨hfate, hname, rfl, rfl⟩ | ⟨hmiss, rfl, rfl⟩⟩
    · exact ⟨rfl, hdb, a, e, hat, hfate, hname, hkv⟩
    · refine ⟨rfl, hdb, rfl, fun a' e' hmem => ?_⟩
      rcases List.mem_append.mp hmem with hmem | hmem
      · exact hdone a' e' hmem
      · obtain ⟨rfl, rfl⟩ := Prod.mk.inj (List.mem_singleton.mp hmem)
        exact hmiss
  · rintro done kv' db' found hall ⟨hdb, rfl, hdone⟩
    refine ⟨hdb, fun a v hlive => ?_⟩
    obtain ⟨e, hat, hfate, hname, _⟩ := hlive
    exact hdone a e (hall a e hat) ⟨hfate, hname⟩
  · rintro ⟨kv', db', found⟩ _ ⟨rfl, hdb, hfound⟩
    exact runs_ret ⟨rfl, hdb, hfound⟩

theorem find_kv_runs (h : Mounted db A w) {K : Name → Prop} (hK : Separate K) (hnamed : NamedIn G A K)
    (hsettled : Settled G A) {k : Name} (hk : K k) (kv : Node) :
    Runs (find_kv db k.bytes kv)
      (fun r w' => w' = w ∧ Recached G A db r.2.2 ∧ Searched G A k r.1 r.2.1) w := by
  unfold find_kv
  refine (get_kv_from_cache_runs h hK hnamed hk).bind ?_
  rintro ⟨addr, db'⟩ _ ⟨rfl, hdb, hfound⟩
  have hmounted := h.recached hdb
  cases addr with
  | some a =>
    obtain ⟨e, hat, hfate, hname⟩ := hfound a rfl
    have hwrite : e.fate = .write := by
      have hpre := hsettled a e hat
      cases hf : e.fate with
      | write => rfl
      | preDelete => exact absurd hf hpre
      | deleted => exact absurd hf hfate
    obtain ⟨i, hi, pre, post, hentries, haddr⟩ := hat
    dsimp only
    refine (read_kv_runs hmounted.stored hmounted.max_size hi hentries haddr).bind ?_
    rintro ⟨_, kv'⟩ _ ⟨rfl, rfl, hkv⟩
    exact runs_ret ⟨rfl, hdb, a, e, ⟨i, hi, pre, post, hentries, haddr⟩, hwrite, hname, hkv⟩
  | none =>
    dsimp only
    refine (find_kv_no_cache_runs hmounted k kv).bind ?_
    rintro ⟨found, kv', db''⟩ _ ⟨rfl, hdb', hsearched⟩
    have hdb'' := hdb.trans hdb'
    cases found with
    | true =>
      obtain ⟨a, e, hat, hfate, rfl, hkv⟩ := hsearched
      have hfiled : Filed G A (nameCrc e.name.bytes) kv'.start := by
        rw [hkv.start]
        exact ⟨e, hat, by rw [hfate]; exact Fate.noConfusion, rfl⟩
      obtain ⟨table, hupdate, hkeys⟩ := (h.recached hdb'').keys.update (fun _ _ _ hpoints => hpoints)
        fun _ => hfiled
      dsimp only
      rw [if_pos rfl, hupdate]
      obtain ⟨sectors, _, rfl, hsectors, _⟩ := hdb''
      exact runs_ret ⟨rfl, ⟨sectors, table, rfl, hsectors, hkeys⟩, a, e, hat, hfate, rfl, hkv⟩
    | false => exact runs_ret ⟨rfl, hdb'', hsearched⟩

/-! ## Getting -/

/-- What `fdb_kv_get_blob` says of a value, or of no value. -/
def got {size : Nat} (buf : Buffer size) : Option Bytes → GetResult size
  | none => ⟨0, buf, some 0⟩
  | some v => ⟨min size v.length, buf.overlay (v.take size), some v.length⟩

theorem get_kv_runs (h : Mounted db A w) {K : Name → Prop} (hK : Separate K) (hnamed : NamedIn G A K)
    (hsettled : Settled G A) {k : Name} (hk : K k) {m : Name → Option Bytes} (hm : Stands (Live G A) m)
    {size : Nat} (buf : Buffer size) :
    Runs (get_kv db k.bytes buf) (fun r w' => w' = w ∧ Recached G A db r.2 ∧ r.1 = got buf (m k)) w := by
  unfold get_kv
  refine (find_kv_runs h hK hnamed hsettled hk .uninit).bind ?_
  rintro ⟨found, kv, db'⟩ _ ⟨rfl, hdb, hsearched⟩
  cases found with
  | true =>
    obtain ⟨a, e, hat, hfate, rfl, hkv⟩ := hsearched
    have hlookup : m e.name = some e.value := hm.lookup ⟨e, hat, hfate, rfl, rfl⟩
    obtain ⟨i, hi, pre, post, hentries, rfl⟩ := hat
    have hroom := h.stored.entry_room hi hentries
    have hentry := h.stored.contains_entry hi hentries
    rw [e.image_eq] at hentry
    have hvalue := hentry.tail.tail
    rw [e.length_head] at hvalue
    have hlen : (if size > kv.value_len then kv.value_len else size) = min size e.value.length := by
      rw [hkv.value_len]
      split <;> omega
    dsimp only
    rw [if_pos rfl, hlookup, hlen]
    have haddr : kv.value = G.addr i (SECTOR_HDR_DATA_SIZE + used pre + KV_HDR_DATA_SIZE + e.name.bytes.length) := by
      rw [hkv.value]
      simp only [Geometry.addr]
      omega
    refine runs_read haddr hi (by simp only [Entry.size] at hroom; omega)
      (hvalue.load_take (Nat.min_le_right _ _)) ?_
    intro value hvalue
    refine runs_ret ⟨rfl, hdb, ?_⟩
    dsimp only [got]
    rw [hvalue, hkv.value_len, ← List.take_take, List.take_length]
  | false =>
    have hlookup : m k = none := hm.lookup_none fun a v hlive => hsearched a v hlive
    rw [hlookup]
    exact runs_ret ⟨rfl, hdb, rfl⟩

theorem fdb_kv_get_blob_runs (h : Mounted db A w) (hinit : db.init_ok = true) {K : Name → Prop}
    (hK : Separate K) (hnamed : NamedIn G A K) (hsettled : Settled G A) {k : Name} (hk : K k)
    {m : Name → Option Bytes} (hm : Stands (Live G A) m) {size : Nat} (buf : Buffer size) :
    Runs (fdb_kv_get_blob db k.bytes buf)
      (fun r w' => w' = w ∧ Recached G A db r.2 ∧ r.1 = got buf (m k)) w := by
  unfold fdb_kv_get_blob
  rw [hinit, if_neg (by decide)]
  exact get_kv_runs h hK hnamed hsettled hk hm buf

end FlashDb
