import BaseUtilities.FlashDb.Setting

/-!
# FlashDB: default pairs

`fdb_kv_set_default` creates pairs one after another in sectors that it has formatted.  What `create_kv_blob` makes of
each is dropped, so that a pair for which there is no space is left out, and the ones behind it are still tried.
-/

open Effects Mem Kv Storage

namespace FlashDb

variable {G : Geometry} {w : Flash G} {A : Nat → Sector} {i : Nat} {db : Kvdb} {K : Name → Prop}
  {m : Name → Option Bytes}

/-- What pairs that are created one after another make of a map. -/
inductive Created (G : Geometry) (K : Name → Prop) :
    List (Name × Bytes) → (Name → Option Bytes) → (Name → Option Bytes) → Prop where
  | nil (m : Name → Option Bytes) : Created G K [] m m
  | stored {k : Name} {v : Bytes} {kvs : List (Name × Bytes)} {m m' : Name → Option Bytes} :
      Created G K kvs (Function.update m k (some v)) m' → Created G K ((k, v) :: kvs) m m'
  /-- There was no space for the pair. -/
  | refused {k : Name} {v : Bytes} {kvs : List (Name × Bytes)} {m m' : Name → Option Bytes} {A : Nat → Sector} :
      Holds G K m A → Full G A (Entry.mk .write k v).size → Created G K kvs m m' → Created G K ((k, v) :: kvs) m m'

/-- The pairs as `fdb_default_kv` has them. -/
def defaultKvs (kvs : List (Name × Bytes)) : List (Key × Bytes) := kvs.map fun p => (p.1.bytes, p.2)

theorem full_of_long {size : Nat} (hlong : size > G.sec_size - SECTOR_HDR_DATA_SIZE) : Full G A size := by
  have hhdr : SECTOR_HDR_DATA_SIZE = 16 := rfl
  refine ⟨fun i _ _ htakes => ?_, .inl ?_⟩
  · have hfits := htakes.2
    have hstop : SECTOR_HDR_DATA_SIZE ≤ (A i).stop := Nat.le_add_right _ _
    omega
  · rw [TooLong]
    omega

/-- A pair is created where `new_kv` finds space for it. -/
theorem createNew_runs (h : Mounted db A w) {k : Name} {v : Bytes} {R : FdbErr × SecInfo × Kvdb → Flash G → Prop}
    (hlong : (Entry.mk .write k v).size > G.sec_size - SECTOR_HDR_DATA_SIZE →
      R (.savedFull, { SecInfo.uninit with empty_kv := FAILED_ADDR }, db) w)
    (hnew : Runs (new_kv db { SecInfo.uninit with empty_kv := FAILED_ADDR } (Entry.mk .write k v).size) (fun r w' =>
      r.1 = FAILED_ADDR ∧ R (.savedFull, r.2.1, r.2.2) w' ∨
        r.1 ≠ FAILED_ADDR ∧ Runs (createAt r.2.2 r.2.1 k.bytes v r.1) (fun r' w'' => R (r'.1, r.2.1, r'.2) w'') w') w) :
    Runs (create_kv_blob db { SecInfo.uninit with empty_kv := FAILED_ADDR } k.bytes v) R w := by
  have hshort := k.short
  have hsize : KV_HDR_DATA_SIZE + wgAlign k.bytes.length + wgAlign v.length = (Entry.mk .write k v).size := by
    rw [wgAlign_eq, wgAlign_eq]
    rfl
  unfold create_kv_blob
  rw [if_neg (by omega)]
  dsimp only
  rw [hsize, h.sec_size]
  split
  · rename_i hgt
    exact runs_ret (hlong hgt)
  rw [if_neg (by simp)]
  refine hnew.bind ?_
  rintro ⟨addr, sector, db₁⟩ w₁ (⟨rfl, hR⟩ | ⟨hne, hcreate⟩)
  · dsimp only
    rw [if_neg (by simp)]
    exact runs_ret hR
  · dsimp only at hne hcreate ⊢
    rw [if_pos hne]
    exact hcreate.bind fun r w' hR => runs_ret hR

theorem insertAt_runs (h : Kept K m db A w) {k : Name} (hk : K k) {v : Bytes} (hnone : m k = none) (hi : i < G.count)
    {sector : SecInfo} (hopen : Open G (A i) i sector (Entry.mk .write k v).size) {addr : Nat}
    (haddr : addr = G.addr i (A i).stop) :
    Runs (createAt db sector k.bytes v addr) (fun r w' => Changed db r.2 ∧
      Kept K (Function.update m k (some v)) r.2 (addition A i ⟨.write, k, v⟩) w') w := by
  rw [haddr, ← hopen.empty_kv]
  refine (createAt_runs (e := ⟨.write, k, v⟩) h.mounted hi rfl hopen).mono ?_
  rintro ⟨result, db'⟩ w' ⟨rfl, hchanged, hcompleted, hmounted, _⟩
  exact ⟨hchanged, h.insert hk hnone hi hmounted (hcompleted.trans h.completed)⟩

/-- A pair with a new key. -/
theorem createDefault_runs (h : Kept K m db A w) (hidle : db.gc_request = false) (hspare : Spare G A) {k : Name}
    (hk : K k) (hnone : m k = none) (v : Bytes) :
    Runs (create_kv_blob db { SecInfo.uninit with empty_kv := FAILED_ADDR } k.bytes v) (fun r w' =>
      Changed db r.2.2 ∧ ∃ A', Spare G A' ∧ (Kept K (Function.update m k (some v)) r.2.2 A' w' ∨
        Kept K m r.2.2 A' w' ∧ Full G A' (Entry.mk .write k v).size)) w := by
  refine createNew_runs h.mounted ?_ ?_
  · exact fun hlong => ⟨Changed.refl db, A, hspare, .inr ⟨h, full_of_long hlong⟩⟩
  refine (new_kv_runs h hidle hspare _ _).mono ?_
  rintro ⟨addr, sector, db₁⟩ w₁ ⟨hchanged₁, A₁, hkept₁, hspare₁, ⟨rfl, hfull⟩ | ⟨hne, i, hi, hopen, haddr, _, hother⟩⟩
  · exact .inl ⟨rfl, hchanged₁, A₁, hspare₁, .inr ⟨hkept₁, hfull⟩⟩
  · refine .inr ⟨hne, (insertAt_runs hkept₁ hk hnone hi hopen haddr).mono ?_⟩
    rintro ⟨result, db₂⟩ w₂ ⟨hchanged₂, hkept₂⟩
    exact ⟨hchanged₁.trans hchanged₂, _, Spare.addition (hspare₁.other (hother rfl)) _, .inl hkept₂⟩

/-- The names of pairs behind a first one are not in the map either once that one is. -/
theorem absent_update {k : Name} (v : Bytes) {kvs : List (Name × Bytes)} (hnew : k ∉ kvs.map Prod.fst)
    (hnone : ∀ p ∈ kvs, m p.1 = none) : ∀ p ∈ kvs, Function.update m k (some v) p.1 = none := by
  intro p hp
  have hne : p.1 ≠ k := fun heq => hnew (List.mem_map.mpr ⟨p, hp, heq⟩)
  rw [Function.update_of_ne hne]
  exact hnone p hp

theorem createDefaults_runs (h : Kept K m db A w) (hidle : db.gc_request = false) (hspare : Spare G A)
    {kvs : List (Name × Bytes)} (hkvs : ∀ p ∈ kvs, K p.1) (hnodup : (kvs.map Prod.fst).Nodup)
    (hnone : ∀ p ∈ kvs, m p.1 = none) :
    Runs (createDefaults (defaultKvs kvs) db) (fun db' w' => Changed db db' ∧
      ∃ m', Created G K kvs m m' ∧ ∃ A', Kept K m' db' A' w' ∧ Spare G A') w := by
  induction kvs generalizing m db A w with
  | nil => exact runs_ret ⟨Changed.refl db, m, .nil m, A, h, hspare⟩
  | cons p kvs ih =>
    obtain ⟨k, v⟩ := p
    obtain ⟨hnew, hnodup⟩ := List.nodup_cons.mp hnodup
    have hkvs' : ∀ p ∈ kvs, K p.1 := fun p hp => hkvs p (List.mem_cons_of_mem _ hp)
    have hrest : ∀ p ∈ kvs, m p.1 = none := fun p hp => hnone p (List.mem_cons_of_mem _ hp)
    rw [defaultKvs, List.map_cons, createDefaults]
    refine (createDefault_runs h hidle hspare (hkvs _ List.mem_cons_self) (hnone _ List.mem_cons_self) v).bind ?_
    rintro ⟨result, sector, db₁⟩ w₁ ⟨hchanged, A₁, hspare₁, hkept₁ | ⟨hkept₁, hfull⟩⟩
    · have hother := absent_update v hnew hrest
      refine (ih hkept₁ (hchanged.gc_request.trans hidle) hspare₁ hkvs' hnodup hother).mono ?_
      rintro db' w' ⟨hchanged', m', hcreated, hkept'⟩
      exact ⟨hchanged.trans hchanged', m', .stored hcreated, hkept'⟩
    · refine (ih hkept₁ (hchanged.gc_request.trans hidle) hspare₁ hkvs' hnodup hrest).mono ?_
      rintro db' w' ⟨hchanged', m', hcreated, hkept'⟩
      exact ⟨hchanged.trans hchanged', m', .refused hkept₁.toHolds hfull hcreated, hkept'⟩

/-! ## Pairs that fit into one sector -/

/-- How many bytes the nodes of pairs take. -/
def pairsSize (kvs : List (Name × Bytes)) : Nat := (kvs.map fun p => (Entry.mk .write p.1 p.2).size).sum

/-- A map with pairs put into it. -/
def filled (m : Name → Option Bytes) (kvs : List (Name × Bytes)) : Name → Option Bytes :=
  kvs.foldl (fun m p => Function.update m p.1 (some p.2)) m

theorem exists_space (hspare : Spare G A) {size : Nat} (hroom : ∀ i < G.count, Takes G false (A i) size) :
    ¬ NoSpace G A false size := by
  intro hnone
  obtain ⟨t, ht, hempty⟩ := hspare
  obtain ⟨j, hj, hjt⟩ : ∃ j < G.count, j ≠ t := by
    have := G.sectors
    by_cases ht : t = 0
    · exact ⟨1, by omega, by omega⟩
    · exact ⟨0, by omega, fun heq => ht heq.symm⟩
  exact hnone j hj (.inr (.inr ⟨t, ht, hjt.symm, hempty⟩)) (hroom j hj)

/-- Where there is space, no collection is asked for. -/
theorem new_kv_found_runs (h : Mounted db A w) (hidle : db.gc_request = false) (sector : SecInfo) {size : Nat}
    (hspace : ¬ NoSpace G A false size) :
    Runs (new_kv db sector size) (fun r w' => w' = w ∧ Resectored G A db r.2.2 ∧ r.1 ≠ FAILED_ADDR ∧
      Allocated G A false size r.1 r.2.1) w := by
  unfold new_kv
  refine (alloc_kv_runs h sector size).bind ?_
  rintro ⟨addr, sector₁, db₁⟩ w ⟨rfl, ⟨_, _, _, hnone, _⟩ | ⟨hne, hdb₁, hallocated⟩⟩
  · rw [hidle] at hnone
    exact absurd hnone hspace
  · dsimp only at hne hdb₁ hallocated ⊢
    rw [hidle] at hallocated
    rw [if_neg fun h' => hne h'.1]
    exact runs_ret ⟨rfl, hdb₁, hne, hallocated⟩

/-- Pairs that fit into every sector, one with the others, are all created. -/
theorem createDefaults_filled (h : Kept K m db A w) (hidle : db.gc_request = false) (hspare : Spare G A)
    {kvs : List (Name × Bytes)} (hkvs : ∀ p ∈ kvs, K p.1) (hnodup : (kvs.map Prod.fst).Nodup)
    (hnone : ∀ p ∈ kvs, m p.1 = none) (hroom : ∀ i < G.count, Takes G false (A i) (pairsSize kvs)) :
    Runs (createDefaults (defaultKvs kvs) db) (fun db' w' => Changed db db' ∧
      ∃ A', Kept K (filled m kvs) db' A' w' ∧ Spare G A') w := by
  induction kvs generalizing m db A w with
  | nil => exact runs_ret ⟨Changed.refl db, A, h, hspare⟩
  | cons p kvs ih =>
    obtain ⟨k, v⟩ := p
    obtain ⟨hnew, hnodup⟩ := List.nodup_cons.mp hnodup
    have hkvs' : ∀ p ∈ kvs, K p.1 := fun p hp => hkvs p (List.mem_cons_of_mem _ hp)
    have hrest : ∀ p ∈ kvs, m p.1 = none := fun p hp => hnone p (List.mem_cons_of_mem _ hp)
    have hsum : pairsSize ((k, v) :: kvs) = (Entry.mk .write k v).size + pairsSize kvs := List.sum_cons
    have hfirst : ∀ i < G.count, Takes G false (A i) (Entry.mk .write k v).size := by
      intro i hi
      obtain ⟨hdirty, hfits⟩ := hroom i hi
      exact ⟨hdirty, by omega⟩
    rw [defaultKvs, List.map_cons, createDefaults]
    have hcreate : Runs (create_kv_blob db { SecInfo.uninit with empty_kv := FAILED_ADDR } k.bytes v) (fun r w' =>
        Changed db r.2.2 ∧ ∃ i < G.count, Spare G (addition A i ⟨.write, k, v⟩) ∧
          Kept K (Function.update m k (some v)) r.2.2 (addition A i ⟨.write, k, v⟩) w') w := by
      refine createNew_runs h.mounted ?_ ?_
      · intro hlong
        have hfits := (hfirst 0 G.count_pos).2
        have hstop : SECTOR_HDR_DATA_SIZE ≤ (A 0).stop := Nat.le_add_right _ _
        omega
      refine (new_kv_found_runs h.mounted hidle _ (exists_space hspare hfirst)).mono ?_
      rintro ⟨addr, sector, db₁⟩ w ⟨rfl, hdb₁, hne, i, hi, hopen, haddr, _, hother⟩
      have hk := hkvs _ List.mem_cons_self
      refine .inr ⟨hne, (insertAt_runs (h.resectored hdb₁) hk (hnone _ List.mem_cons_self) hi hopen haddr).mono ?_⟩
      rintro ⟨result, db₂⟩ w₂ ⟨hchanged₂, hkept₂⟩
      exact ⟨hdb₁.changed.trans hchanged₂, i, hi, Spare.addition (hspare.other (hother rfl)) _, hkept₂⟩
    refine hcreate.bind ?_
    rintro ⟨result, sector, db₁⟩ w₁ ⟨hchanged, i, hi, hspare₁, hkept₁⟩
    -- The pairs that are left fit beside the one that has been created.
    have hroom₁ : ∀ j < G.count, Takes G false (addition A i ⟨.write, k, v⟩ j) (pairsSize kvs) := by
      intro j hj
      obtain ⟨hdirty, hfits⟩ := hroom j hj
      by_cases hji : j = i
      · subst hji
        refine ⟨by rw [addition_self]; exact hdirty, ?_⟩
        rw [addition_stop]
        omega
      · rw [addition_other _ hji]
        exact ⟨hdirty, by omega⟩
    refine (ih hkept₁ (hchanged.gc_request.trans hidle) hspare₁ hkvs' hnodup (absent_update v hnew hrest)
      hroom₁).mono ?_
    rintro db' w' ⟨hchanged', hkept'⟩
    exact ⟨hchanged.trans hchanged', hkept'⟩

/-! ## In empty sectors -/

/-- The default pairs, created in empty sectors, make a map with the property `P`. -/
def Creates (G : Geometry) (K : Name → Prop) (default_kv : List (Key × Bytes)) (P : (Name → Option Bytes) → Prop) :
    Prop :=
  ∀ {db : Kvdb} {w : Flash G}, Kept K (fun _ => none) db (fun _ => ⟨.clean, []⟩) w → db.gc_request = false →
    Runs (createDefaults default_kv db) (fun db' w' => Changed db db' ∧
      ∃ m, P m ∧ ∃ A, Kept K m db' A w' ∧ Spare G A) w

variable {kvs : List (Name × Bytes)}

theorem creates_created (hkvs : ∀ p ∈ kvs, K p.1) (hnodup : (kvs.map Prod.fst).Nodup) :
    Creates G K (defaultKvs kvs) (Created G K kvs fun _ => none) :=
  fun h hidle => createDefaults_runs h hidle ⟨0, G.count_pos, rfl⟩ hkvs hnodup fun _ _ => rfl

theorem creates_filled (hkvs : ∀ p ∈ kvs, K p.1) (hnodup : (kvs.map Prod.fst).Nodup)
    (hfits : SECTOR_HDR_DATA_SIZE + pairsSize kvs + FDB_SEC_REMAIN_THRESHOLD < G.sec_size) :
    Creates G K (defaultKvs kvs) (· = filled (fun _ => none) kvs) := by
  intro db w h hidle
  refine (createDefaults_filled h hidle ⟨0, G.count_pos, rfl⟩ hkvs hnodup (fun _ _ => rfl) ?_).mono ?_
  · exact fun _ _ => ⟨.inl rfl, hfits⟩
  · rintro db' w' ⟨hchanged, hkept⟩
    exact ⟨hchanged, _, rfl, hkept⟩

end FlashDb
