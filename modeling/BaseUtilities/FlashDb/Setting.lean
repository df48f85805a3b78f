import BaseUtilities.FlashDb.Collection

/-!
# FlashDB: setting and deleting

A key is set by writing a new node and deleting the old one, after a collection if there is no space; it is
deleted by deleting its node.  Either changes the map at the key, or says that it has left the map alone.
-/

open Effects Mem Kv Storage

namespace FlashDb

variable {G : Geometry} {w : Flash G} {A : Nat → Sector} {i j : Nat} {db db' : Kvdb} {K : Name → Prop}
  {m : Name → Option Bytes} {pre post : List Entry} {e : Entry}

theorem Changed.init_ok (h : Changed db db') : db'.init_ok = db.init_ok := by
  obtain ⟨_, _, _, _, rfl⟩ := h
  rfl

theorem Changed.gc_request (h : Changed db db') : db'.gc_request = db.gc_request := by
  obtain ⟨_, _, _, _, rfl⟩ := h
  rfl

/-! ## Space for a node -/

theorem Kvdb.request_self {gc : Bool} (h : db.gc_request = gc) : { db with gc_request := gc } = db := by
  subst h
  rfl

/-- A request for a collection that has been taken back. -/
theorem Resectored.declined {gc : Bool} (h : Resectored G A { db with gc_request := gc } db')
    (hidle : db.gc_request = false) : Changed db { db' with gc_request := false } := by
  obtain ⟨table, rfl, _⟩ := h
  have hsame := congrArg (fun d : Kvdb => { d with sector_cache_table := table }) (Kvdb.request_self hidle)
  exact ⟨db.oldest_addr, table, db.kv_cache_table, db.last_is_complete_del, hsame⟩

/-- No sector has space for a node of this size, and there is none to be had: the node is too long for any, or no
deleted node is left.  Or a collection has ended with a sector that has space for the node, but not for what
`alloc_kv` wants to be left behind it. -/
def Full (G : Geometry) (A : Nat → Sector) (size : Nat) : Prop :=
  NoSpace G A false size ∧ (TooLong G size ∨ (∀ i < G.count, ∀ e ∈ (A i).entries, e.fate = .write) ∨
    ∃ l < G.count, (A l).stop + size < G.sec_size ∧ G.sec_size ≤ (A l).stop + size + FDB_SEC_REMAIN_THRESHOLD)

theorem Kept.full (h : Kept K m db A w) {size : Nat} (hnone : NoSpace G A false size)
    (hcollected : (∀ i < G.count, (A i).dirty = .clean) ∨ Fitting G A size) : Full G A size := by
  refine ⟨hnone, .inr ?_⟩
  rcases hcollected with hclean | ⟨l, hl, hclean, hfits, i, hi, hil, hempty⟩
  · exact .inl fun i hi => h.marks i hi (hclean i hi)
  · refine .inr ⟨l, hl, hfits, ?_⟩
    by_contra hspace
    have hmay : (A l).store = .inUse ∨ Reserved G A false l := .inr (.inr ⟨i, hi, hil, hempty⟩)
    exact hnone l hl hmay ⟨.inl hclean, by omega⟩

theorem new_kv_runs (h : Kept K m db A w) (hidle : db.gc_request = false) (hspare : Spare G A)
    (sector : SecInfo) (size : Nat) :
    Runs (new_kv db sector size) (fun r w' => Changed db r.2.2 ∧ ∃ A', Kept K m r.2.2 A' w' ∧ Spare G A' ∧
      (r.1 = FAILED_ADDR ∧ Full G A' size ∨
        r.1 ≠ FAILED_ADDR ∧ Allocated G A' false size r.1 r.2.1)) w := by
  unfold new_kv
  refine (alloc_kv_runs h.mounted sector size).bind ?_
  rintro ⟨addr, sector₁, db₁⟩ w ⟨rfl, ⟨rfl, hdb₁, _, hnone, hreason⟩ | ⟨hne, hdb₁, hallocated⟩⟩
  · rw [hidle] at hnone
    have hkept₁ := (h.request db₁.gc_request).resectored hdb₁
    have hdeclined := hdb₁.declined hidle
    dsimp only at hdb₁ hkept₁ hdeclined hreason ⊢
    cases hgc : db₁.gc_request with
    | false =>
      rw [if_neg (by simp)]
      rw [Kvdb.request_self hgc] at hdeclined
      have hlong : TooLong G size :=
        hreason.resolve_right fun hsole => Bool.false_ne_true (hgc.symm.trans (hsole.2 hspare))
      exact runs_ret ⟨hdeclined, A, hkept₁, hspare, .inl ⟨rfl, hnone, .inl hlong⟩⟩
    | true =>
      rw [if_pos ⟨rfl, rfl⟩]
      refine (gc_collect_by_free_size_runs hkept₁ hgc hspare size).bind ?_
      rintro db₂ w₂ ⟨hchanged₂, A₂, hkept₂, hspare₂, hcollected⟩
      have hidle₂ : db₂.gc_request = false := hchanged₂.gc_request
      replace hchanged₂ := hdeclined.trans hchanged₂
      refine (alloc_kv_runs hkept₂.mounted sector₁ size).bind ?_
      rintro ⟨addr, sector₃, db₃⟩ w₃ ⟨rfl, ⟨rfl, hdb₃, _, hnone₃, _⟩ | ⟨hne, hdb₃, hallocated⟩⟩
      · rw [hidle₂] at hnone₃
        have hkept₃ := ((hkept₂.request db₃.gc_request).resectored hdb₃).request false
        have hfull : Full G A₂ size := by
          rcases hreason with hlong | ⟨hsole, _⟩
          · exact ⟨hnone₃, .inl hlong⟩
          · exact hkept₂.full hnone₃ (hcollected hsole)
        dsimp only at hdb₃ ⊢
        rw [if_pos rfl]
        exact runs_ret ⟨hchanged₂.trans (hdb₃.declined hidle₂), A₂, hkept₃, hspare₂, .inl ⟨rfl, hfull⟩⟩
      · dsimp only at hne hdb₃ hallocated ⊢
        rw [if_neg hne]
        rw [hidle₂] at hallocated
        exact runs_ret ⟨hchanged₂.trans hdb₃.changed, A₂, hkept₂.resectored hdb₃, hspare₂, .inr ⟨hne, hallocated⟩⟩
  · dsimp only at hne hdb₁ hallocated ⊢
    rw [if_neg fun h' => hne h'.1]
    rw [hidle] at hallocated
    exact runs_ret ⟨hdb₁.changed, A, h.resectored hdb₁, hspare, .inr ⟨hne, hallocated⟩⟩

/-! ## Deleting -/

theorem Spare.deletion (h : Spare G A) (hentries : (A i).entries = pre ++ e :: post) (f : Fate) :
    Spare G (deletion A i pre e post f) := by
  obtain ⟨t, ht, hempty⟩ := h
  refine ⟨t, ht, ?_⟩
  rw [deletion_other]
  · exact hempty
  · rintro rfl
    rw [hempty] at hentries
    exact absurd hentries (by simp)

theorem del_kv_runs (h : Kept K m db A w) (hspare : Spare G A) (hK : Separate K) {k : Name} (hk : K k) :
    Runs (del_kv db k.bytes true) (fun r w' => Changed db r.2 ∧
      ((r.1 = .noErr ∧ m k ≠ none ∧ ∃ A', Kept K (Function.update m k none) r.2 A' w' ∧ Spare G A') ∨
        (r.1 = .kvNameErr ∧ m k = none ∧ Kept K m r.2 A w' ∧ Spare G A))) w := by
  unfold del_kv
  refine (find_kv_runs h.mounted hK h.named h.settled hk .uninit).bind ?_
  rintro ⟨found, kv, db₁⟩ w ⟨rfl, hdb₁, hsearched⟩
  have hkept₁ := h.recached hdb₁
  dsimp only at hdb₁ hsearched ⊢
  cases found with
  | true =>
    rw [if_pos rfl]
    obtain ⟨a, e, hat, hfate, rfl, hkv⟩ := hsearched
    have hlive : Live G A a e.name e.value := ⟨e, hat, hfate, rfl, rfl⟩
    have hlookup := h.stands.lookup hlive
    obtain ⟨i, hi, pre, post, hentries, rfl⟩ := hat
    refine (delNode_complete hkept₁.mounted hi hentries hkv.start (Option.getD_some ..) fun hflag => ?_).mono ?_
    · rw [hkept₁.completed] at hflag
      cases hflag
    rintro ⟨result, db₂⟩ w₂ ⟨rfl, hchanged, hcompleted, hmounted⟩
    refine ⟨hdb₁.changed.trans hchanged, .inl ⟨rfl, by simp [hlookup], _, ⟨⟨?_, ?_, ?_, ?_⟩, hmounted, hcompleted⟩,
      hspare.deletion hentries _⟩⟩
    · exact h.stands.remove hlive (live_deletion h.mounted.stored hi hentries (by decide))
    · exact h.settled.deletion h.mounted.stored hi hentries
    · exact h.named.deletion h.mounted.stored hi hentries hk _
    · exact h.marks.deletion _ _ _ _
  | false =>
    rw [if_neg Bool.false_ne_true]
    exact runs_ret ⟨hdb₁.changed, .inr ⟨rfl, h.stands.lookup_none hsearched, hkept₁, hspare⟩⟩

/-! ## Setting -/

theorem Mounted.current (h : Mounted db A w) (kv : Node) (sector : SecInfo) :
    Mounted { db with cur_kv := kv, cur_sector := sector } A w :=
  ⟨h.sec_size, h.max_size, h.oldest, h.stored, h.sectors, h.keys⟩

theorem Kept.current (h : Kept K m db A w) (kv : Node) (sector : SecInfo) :
    Kept K m { db with cur_kv := kv, cur_sector := sector } A w :=
  ⟨h.toHolds, h.mounted.current kv sector, h.completed⟩

theorem Open.deletion {s : SecInfo} {size : Nat} (h : Open G (A i) i s size)
    (hentries : (A j).entries = pre ++ e :: post) (f : Fate) :
    Open G (deletion A j pre e post f i) i s size where
  store := by
    rw [h.store]
    by_cases hij : i = j
    · subst hij
      rw [deletion_self]
      exact (Sector.refated_store hentries).symm
    · rw [deletion_other hij]
  addr := h.addr
  empty_kv := by
    rw [deletion_stop hentries]
    exact h.empty_kv
  remain := by
    rw [deletion_stop hentries]
    exact h.remain
  fits := h.fits

/-- A node for which there is space is created there. -/
theorem create_kv_blob_runs (h : Mounted db A w) (hi : i < G.count) {sector : SecInfo} (hfate : e.fate = .write)
    (hopen : Open G (A i) i sector e.size) :
    Runs (create_kv_blob db sector e.name.bytes e.value) (fun r w' => r.1 = .noErr ∧ r.2.1 = sector ∧
      Changed db r.2.2 ∧ r.2.2.last_is_complete_del = db.last_is_complete_del ∧
      Mounted r.2.2 (addition A i e) w' ∧ Latest r.2.2.kv_cache_table e.name (G.addr i (A i).stop)) w := by
  have hshort := e.name.short
  have hlt := hopen.stop_lt
  have hstop : SECTOR_HDR_DATA_SIZE ≤ (A i).stop := Nat.le_add_right _ _
  have hsize : e.size = KV_HDR_DATA_SIZE + e.name.bytes.length + e.value.length := rfl
  have hne : sector.empty_kv ≠ FAILED_ADDR := by
    rw [hopen.empty_kv]
    exact G.addr_ne _ hi (h.stored.wf i hi).stop_lt
  have hlen : KV_HDR_DATA_SIZE + wgAlign e.name.bytes.length + wgAlign e.value.length = e.size := by
    rw [wgAlign_eq, wgAlign_eq, hsize]
  unfold create_kv_blob
  rw [if_neg (by omega)]
  dsimp only
  rw [hlen, if_neg (by rw [h.sec_size]; omega), if_pos hne]
  show Runs (if sector.empty_kv ≠ FAILED_ADDR then _ else _) _ _
  rw [if_pos hne]
  refine (createAt_runs h hi hfate hopen).bind ?_
  rintro ⟨result, db'⟩ w' ⟨rfl, hchanged, hcompleted, hmounted, hlatest⟩
  exact runs_ret ⟨rfl, rfl, hchanged, hcompleted, hmounted, hlatest⟩

theorem Spare.addition (h : ∃ t < G.count, t ≠ i ∧ (A t).entries = []) (e : Entry) : Spare G (addition A i e) := by
  obtain ⟨t, ht, hti, hempty⟩ := h
  exact ⟨t, ht, by rw [addition_other _ hti]; exact hempty⟩

/-- A sector that takes a node leaves another one empty. -/
theorem Spare.other (h : Spare G A) (hother : (A i).entries = [] → ∃ t < G.count, t ≠ i ∧ (A t).entries = []) :
    ∃ t < G.count, t ≠ i ∧ (A t).entries = [] := by
  by_cases hempty : (A i).entries = []
  · exact hother hempty
  · obtain ⟨t, ht, htempty⟩ := h
    exact ⟨t, ht, fun hti => hempty (hti ▸ htempty), htempty⟩

/-- What the new node makes of the map. -/
def SetTo (G : Geometry) (K : Name → Prop) (m : Name → Option Bytes) (k : Name) (v : Bytes) (db db' : Kvdb)
    (w : Flash G) : Prop :=
  db'.init_ok = db.init_ok ∧ db'.gc_request = db.gc_request ∧
    ∃ A, Kept K (Function.update m k (some v)) db' A w ∧ Spare G A

/-- A key that has no node gets one. -/
theorem Kept.insert (h : Kept K m db A w) {k : Name} (hk : K k) {v : Bytes} (hnone : m k = none) (hi : i < G.count)
    {w' : Flash G} (hmounted : Mounted db' (addition A i ⟨.write, k, v⟩) w')
    (hcompleted : db'.last_is_complete_del = false) :
    Kept K (Function.update m k (some v)) db' (addition A i ⟨.write, k, v⟩) w' := by
  have hfree : ∀ k v, ¬ Live G A (G.addr i (A i).stop) k v := by
    rintro k v ⟨e', hat, _⟩
    exact h.mounted.stored.not_at_stop hi e' hat
  refine ⟨⟨?_, ?_, ?_, ?_⟩, hmounted, hcompleted⟩
  · exact h.stands.insert hnone hfree (live_addition hi rfl)
  · exact h.settled.addition hi Fate.noConfusion
  · exact h.named.addition hi hk
  · exact h.marks.addition rfl

/-- A key that has no node. -/
theorem insertNode_runs (h : Kept K m db A w) {k : Name} (hk : K k) {v : Bytes} (hnone : ∀ a v, ¬ Live G A a k v)
    (hi : i < G.count) (hopen : Open G (A i) i db.cur_sector (Entry.mk .write k v).size)
    (hspare : ∃ t < G.count, t ≠ i ∧ (A t).entries = []) :
    Runs (replaceNode db k.bytes v false) (fun r w' => r.1 = .noErr ∧ SetTo G K m k v db r.2 w') w := by
  unfold replaceNode
  rw [if_neg Bool.false_ne_true, pure_bind]
  dsimp only
  rw [if_pos rfl]
  refine (create_kv_blob_runs (e := ⟨.write, k, v⟩) h.mounted hi rfl hopen).bind ?_
  rintro ⟨result, sector, db₁⟩ w₁ ⟨rfl, rfl, hchanged, hcompleted, hmounted, _⟩
  dsimp only at hchanged hcompleted hmounted ⊢
  rw [if_neg (by simp)]
  have hkept₁ := h.insert hk (h.stands.lookup_none hnone) hi hmounted (hcompleted.trans h.completed)
  exact runs_ret ⟨rfl, hchanged.init_ok, hchanged.gc_request, _, hkept₁.current db₁.cur_kv db.cur_sector,
    Spare.addition hspare _⟩

/-- A key whose node gives way to the new one. -/
theorem exchangeNode_runs (h : Kept K m db A w) {a : Nat} (hat : At G A a e) (hfate : e.fate = .write)
    (hkv : NodeOf e a db.cur_kv) {v : Bytes} (hi : i < G.count)
    (hopen : Open G (A i) i db.cur_sector (Entry.mk .write e.name v).size)
    (hspare : ∃ t < G.count, t ≠ i ∧ (A t).entries = []) :
    Runs (replaceNode db e.name.bytes v true) (fun r w' => r.1 = .noErr ∧ SetTo G K m e.name v db r.2 w') w := by
  have hlive : Live G A a e.name e.value := ⟨e, hat, hfate, rfl, rfl⟩
  have hk : K e.name := h.named a e hat (by rw [hfate]; exact Fate.noConfusion)
  obtain ⟨j, hj, pre, post, hentries, rfl⟩ := hat
  unfold replaceNode
  rw [if_pos rfl]
  refine (delNode_retire h.mounted hj hentries hfate (some e.name.bytes) hkv.start).bind ?_
  rintro ⟨result₁, db₁⟩ w₁ ⟨rfl, hchanged₁, hflag₁, hmounted₁⟩
  have hcur : db₁.cur_sector = db.cur_sector ∧ db₁.cur_kv = db.cur_kv := by
    obtain ⟨_, _, _, _, rfl⟩ := hchanged₁
    exact ⟨rfl, rfl⟩
  dsimp only at hchanged₁ hflag₁ hmounted₁ ⊢
  rw [if_pos rfl, hcur.1]
  have hopen₁ := hopen.deletion hentries .preDelete
  refine (create_kv_blob_runs (e := ⟨.write, e.name, v⟩) hmounted₁ hi rfl hopen₁).bind ?_
  rintro ⟨result₂, sector, db₂⟩ w₂ ⟨rfl, rfl, hchanged₂, _, hmounted₂, hlatest⟩
  replace hchanged₂ := hchanged₁.trans hchanged₂
  have hcur₂ : db₂.cur_kv = db.cur_kv := by
    obtain ⟨_, _, _, _, rfl⟩ := hchanged₂
    rfl
  -- The old node is where it was, and the new one may be behind it.
  obtain ⟨post', hentries₂⟩ : ∃ post', (addition (deletion A j pre e post .preDelete) i ⟨.write, e.name, v⟩ j).entries =
      pre ++ e.withFate .preDelete :: post' := by
    by_cases hji : j = i
    · subst hji
      exact ⟨post ++ [⟨.write, e.name, v⟩], by rw [addition_self, deletion_self, List.append_assoc]; rfl⟩
    · exact ⟨post, by rw [addition_other _ hji, deletion_self]⟩
  have hold : At G (addition (deletion A j pre e post .preDelete) i ⟨.write, e.name, v⟩)
      (G.addr j (SECTOR_HDR_DATA_SIZE + used pre)) (e.withFate .preDelete) := ⟨j, hj, pre, post', hentries₂, rfl⟩
  have hat : At G A (G.addr j (SECTOR_HDR_DATA_SIZE + used pre)) e := ⟨j, hj, pre, post, hentries, rfl⟩
  have hpoints : ∀ p ∈ slots db₂.kv_cache_table, p.2 ≠ FDB_DATA_UNUSED → p.2 ≠ db.cur_kv.start := by
    rw [hkv.start]
    refine Latest.forgets (e := e.withFate .preDelete) hmounted₂ hlatest hold fun heq => ?_
    rw [deletion_stop hentries] at heq
    exact h.mounted.stored.not_at_stop hi e (heq ▸ hat)
  dsimp only at hmounted₂ ⊢
  rw [if_pos ⟨rfl, rfl⟩, hcur₂]
  refine (delNode_complete (hmounted₂.current db.cur_kv db.cur_sector) hj hentries₂ hkv.start
    (Option.getD_some ..) fun _ => hpoints).mono ?_
  rintro ⟨result₃, db₃⟩ w₃ ⟨rfl, hchanged₃, hflag₃, hmounted₃⟩
  have hfree : ∀ k v, ¬ Live G A (G.addr i (A i).stop) k v := by
    rintro k v ⟨e', hat', _⟩
    exact h.mounted.stored.not_at_stop hi e' hat'
  refine ⟨rfl, hchanged₃.init_ok.trans hchanged₂.init_ok, hchanged₃.gc_request.trans hchanged₂.gc_request,
    succession A i ⟨.write, e.name, v⟩ j pre e post post', ⟨⟨?_, ?_, ?_, ?_⟩, hmounted₃, hflag₃⟩, ?_⟩
  · exact h.stands.replace hlive hfree
      (live_succession h.mounted.stored hmounted₂.stored hi hj hentries hentries₂ rfl)
  · exact settled_succession h.mounted.stored hmounted₂.stored hi hj hentries hentries₂ rfl h.settled
  · exact namedIn_succession h.mounted.stored hmounted₂.stored hi hj hentries hentries₂ rfl h.named hk
  · exact marked_succession rfl h.marks
  · refine Spare.deletion (Spare.addition ?_ _) hentries₂ _
    obtain ⟨t, ht, hti, hempty⟩ := hspare
    refine ⟨t, ht, hti, ?_⟩
    rw [deletion_other]
    · exact hempty
    · rintro rfl
      rw [hempty] at hentries
      exact absurd hentries (by simp)

theorem setValue_runs (h : Kept K m db A w) (hidle : db.gc_request = false) (hspare : Spare G A) (hK : Separate K)
    {k : Name} (hk : K k) (v : Bytes) :
    Runs (setValue db k.bytes v) (fun r w' => r.2.init_ok = db.init_ok ∧ r.2.gc_request = false ∧
      ((r.1 = .noErr ∧ ∃ A', Kept K (Function.update m k (some v)) r.2 A' w' ∧ Spare G A') ∨
        (r.1 = .savedFull ∧ ∃ A', Kept K m r.2 A' w' ∧ Spare G A' ∧ Full G A' (Entry.mk .write k v).size))) w := by
  have hsize : KV_HDR_DATA_SIZE + wgAlign k.bytes.length + wgAlign v.length = (Entry.mk .write k v).size := by
    rw [wgAlign_eq, wgAlign_eq]
    rfl
  unfold setValue new_kv_ex
  rw [hsize]
  refine (new_kv_runs h hidle hspare db.cur_sector _).bind ?_
  rintro ⟨addr, sector, db₁⟩ w₁ ⟨hchanged₁, A₁, hkept₁, hspare₁, hspace⟩
  have hidle₁ : db₁.gc_request = false := hchanged₁.gc_request.trans hidle
  dsimp only at hspace hkept₁ hchanged₁ ⊢
  rcases hspace with ⟨rfl, hfull⟩ | ⟨hne, i, hi, hopen, _, _, hother⟩
  · rw [if_pos rfl]
    exact runs_ret ⟨hchanged₁.init_ok, hidle₁, .inr ⟨rfl, A₁, hkept₁.current db₁.cur_kv sector, hspare₁, hfull⟩⟩
  · rw [if_neg hne]
    have hspare₂ := hspare₁.other (hother rfl)
    have hcurrent := hkept₁.current db₁.cur_kv sector
    refine (find_kv_runs hcurrent.mounted hK hcurrent.named hcurrent.settled hk _).bind ?_
    rintro ⟨found, kv, db₂⟩ w ⟨rfl, hdb₂, hsearched⟩
    have hsector : db₂.cur_sector = sector := by
      obtain ⟨_, _, rfl, _⟩ := hdb₂
      rfl
    have hinit₂ : db₂.init_ok = db.init_ok := hdb₂.changed.init_ok.trans hchanged₁.init_ok
    have hidle₂ : db₂.gc_request = false := hdb₂.changed.gc_request.trans hidle₁
    have hkept₂ := (hcurrent.recached hdb₂).current kv db₂.cur_sector
    rw [← hsector] at hopen
    have hset : Runs (replaceNode { db₂ with cur_kv := kv } k.bytes v found) (fun r w' => r.1 = .noErr ∧
        SetTo G K m k v { db₂ with cur_kv := kv } r.2 w') w := by
      cases found with
      | true =>
        obtain ⟨a, e, hat, hfate, rfl, hkv⟩ := hsearched
        exact exchangeNode_runs hkept₂ hat hfate hkv hi hopen hspare₂
      | false => exact insertNode_runs hkept₂ hk hsearched hi hopen hspare₂
    dsimp only
    refine hset.bind ?_
    rintro ⟨result, db₃⟩ w₃ ⟨rfl, hinit₃, hidle₃, A₃, hkept₃, hspare₃⟩
    dsimp only at hinit₃ hidle₃ hkept₃ ⊢
    rw [hidle₂] at hidle₃
    rw [hidle₃, if_neg Bool.false_ne_true]
    exact runs_ret ⟨hinit₃.trans hinit₂, hidle₃, .inl ⟨rfl, A₃, hkept₃, hspare₃⟩⟩

end FlashDb
