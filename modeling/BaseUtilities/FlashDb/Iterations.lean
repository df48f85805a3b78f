import BaseUtilities.FlashDb.Sectors
import Mathlib.Data.Nat.ModEq

/-!
# FlashDB: iterations

`sector_iterator` visits every sector once, from the oldest one on and around the end of the storage;
`kv_iterator` visits every node.  Each has a rule for an invariant over what has been visited.
-/

open Effects Mem Kv Storage

namespace FlashDb

variable {G : Geometry} {w : Flash G} {A : Nat → Sector} {i : Nat} {db : Kvdb} {σ : Type}

/-! ## The order of the sectors -/

/-- The first `t` sectors from the sector `i` on, the last one followed by the first. -/
def visited (G : Geometry) (i t : Nat) : List Nat := (List.range t).map fun k => (i + k) % G.count

theorem visited_succ (i t : Nat) : visited G i (t + 1) = visited G i t ++ [(i + t) % G.count] := by
  rw [visited, List.range_succ, List.map_append]
  rfl

theorem mod_ne_of_lt {c s t : Nat} (hst : s < t) (htc : t < c) (i : Nat) : (i + s) % c ≠ (i + t) % c := by
  intro h
  have hmod : s ≡ t [MOD c] := Nat.ModEq.add_left_cancel' i h
  have heq := Nat.ModEq.eq_of_lt_of_lt hmod (by omega) htc
  omega

theorem not_mem_visited {i t : Nat} (ht : t < G.count) : (i + t) % G.count ∉ visited G i t := by
  intro hmem
  obtain ⟨s, hs, heq⟩ := List.mem_map.mp hmem
  exact mod_ne_of_lt (List.mem_range.mp hs) ht i heq

theorem visited_nodup {i t : Nat} (ht : t ≤ G.count) : (visited G i t).Nodup := by
  induction t with
  | zero => exact List.nodup_nil
  | succ t ih =>
    rw [visited_succ, List.nodup_append]
    refine ⟨ih (by omega), List.nodup_singleton _, ?_⟩
    intro a ha b hb heq
    rw [List.mem_singleton] at hb
    exact not_mem_visited (i := i) (t := t) (by omega) (hb ▸ heq ▸ ha)

/-- After a whole round every sector has been visited. -/
theorem mem_visited {i j : Nat} (hi : i < G.count) (hj : j < G.count) : j ∈ visited G i G.count := by
  rw [visited, List.mem_map]
  rcases Nat.lt_or_ge j i with hlt | hge
  · refine ⟨j + G.count - i, List.mem_range.mpr (by omega), ?_⟩
    rw [show i + (j + G.count - i) = j + G.count by omega, Nat.add_mod_right, Nat.mod_eq_of_lt hj]
  · refine ⟨j - i, List.mem_range.mpr (by omega), ?_⟩
    rw [Nat.add_sub_cancel' hge, Nat.mod_eq_of_lt hj]

/-- The next sector of the round, or the end of it. -/
theorem get_next_sector_addr_eq (hsec : db.sec_size = G.sec_size) (hmax : db.max_size = G.max_size)
    {sector : SecInfo} {i t : Nat} (ht : t < G.count) (haddr : sector.addr = (i + t) % G.count * G.sec_size)
    (hcombined : sector.combined = SECTOR_NOT_COMBINED) :
    get_next_sector_addr db sector ((t + 1) * G.sec_size) =
      if t + 1 < G.count then (i + (t + 1)) % G.count * G.sec_size else FAILED_ADDR := by
  have hpos := G.sec_pos
  have hlen : (t + 1) * G.sec_size + G.sec_size ≤ G.max_size ↔ t + 1 < G.count := by
    rw [← Nat.succ_mul, Geometry.max_size, Nat.mul_le_mul_right_iff hpos]
    rfl
  have hnext : (i + t) % G.count * G.sec_size + G.sec_size < G.max_size ↔ (i + t) % G.count + 1 < G.count := by
    rw [← Nat.succ_mul, Geometry.max_size, Nat.mul_lt_mul_right hpos]
  have hfits := G.max_size_fits
  have hround : (t + 1) * G.sec_size ≤ G.max_size := Nat.mul_le_mul_right _ ht
  have hlast := G.sector_end (Nat.mod_lt (i + t) G.count_pos)
  unfold get_next_sector_addr
  dsimp only
  rw [if_pos hcombined, hsec, hmax, haddr,
    -- No sum wraps: each is at most one sector behind the end of the storage.
    Nat.mod_eq_of_lt (show (t + 1) * G.sec_size + G.sec_size < 4294967296 by omega),
    Nat.mod_eq_of_lt (show (i + t) % G.count * G.sec_size + G.sec_size < 4294967296 by omega)]
  by_cases hend : t + 1 < G.count
  · rw [if_pos (hlen.mpr hend), if_pos hend]
    have hlt : (i + t) % G.count < G.count := Nat.mod_lt _ G.count_pos
    have hmod : (i + (t + 1)) % G.count = ((i + t) % G.count + 1) % G.count := by
      rw [← Nat.add_assoc, Nat.add_mod (i + t) 1, Nat.mod_eq_of_lt (show 1 < G.count from G.sectors)]
    rw [hmod]
    by_cases hwrap : (i + t) % G.count + 1 < G.count
    · rw [if_pos (hnext.mpr hwrap), ← Nat.succ_mul, Nat.mod_eq_of_lt hwrap]
    · rw [if_neg (fun h => hwrap (hnext.mp h)), show (i + t) % G.count + 1 = G.count by omega, Nat.mod_self,
        Nat.zero_mul]
  · rw [if_neg (fun h => hend (hlen.mp h)), if_neg hend]

/-! ## Sectors -/

/-- An invariant over the sectors that have been visited, and over what they are by then. -/
structure SectorLoop (G : Geometry) (σ : Type) where
  inv : List Nat → (Nat → Sector) → Kvdb → σ → Flash G → Prop
  mounted : ∀ {done A db arg w}, inv done A db arg w → Mounted db A w
  resectored : ∀ {done A db db' arg w}, inv done A db arg w → Resectored G A db db' → inv done A db' arg w

theorem sector_iterator_runs (L : SectorLoop G σ) {status : StoreStatus} {traversal_kv : Bool}
    {callback : SecInfo → Kvdb → σ → Code (Bool × Kvdb × σ)} {Q : SecInfo → Kvdb → σ → Flash G → Prop}
    {sector : SecInfo} {arg : σ} (hinit : L.inv [] A db arg w)
    (hskip : ∀ done i A db arg w, i < G.count → L.inv done A db arg w → status ≠ .unused →
      status ≠ (A i).store → L.inv (done ++ [i]) A db arg w)
    (hvisit : ∀ done i s A db arg w, i < G.count → i ∉ done → L.inv done A db arg w →
      (status = .unused ∨ status = (A i).store) → Cached G (A i) i s → (traversal_kv = true → Space G (A i) i s) →
      Runs (callback s db arg) (fun r w' => if r.1 = true then Q s r.2.1 r.2.2 w'
        else ∃ A', L.inv (done ++ [i]) A' r.2.1 r.2.2 w') w)
    (hend : ∀ done s A db arg w, done.Nodup → (∀ i < G.count, i ∈ done) → L.inv done A db arg w → Q s db arg w) :
    Runs (sector_iterator db sector status callback arg traversal_kv) (fun r w' => Q r.1 r.2.1 r.2.2 w') w := by
  obtain ⟨i₀, hi₀, holdest⟩ := (L.mounted hinit).oldest
  unfold sector_iterator
  refine Total.forever
    (fun s w' => ∃ t A', t < G.count ∧ s.sec_addr = (i₀ + t) % G.count * G.sec_size ∧
      s.traversed_len = t * G.sec_size ∧ L.inv (visited G i₀ t) A' s.db s.arg w')
    (fun s _ => G.max_size - s.traversed_len)
    ⟨0, A, G.count_pos, by rw [Nat.add_zero, Nat.mod_eq_of_lt hi₀]; exact holdest, (Nat.zero_mul _).symm, hinit⟩ ?_
  rintro ⟨s₀, sec_addr, traversed_len, kv, db, arg⟩ w ⟨t, A, ht, rfl, rfl, hinv⟩
  set i := (i₀ + t) % G.count with hi
  have hlt : i < G.count := Nat.mod_lt _ G.count_pos
  have hmounted := L.mounted hinv
  -- What is left to do once the sector has been visited, or passed over.
  have hnext : ∀ (stop : Bool) s db arg w, Info G (A i) i s →
      (if stop = true then Q s db arg w else ∃ A', L.inv (visited G i₀ t ++ [i]) A' db arg w) →
      Runs (if stop then pure (.done (s, db, arg))
        else
          let sec_addr := get_next_sector_addr db s (t * G.sec_size + G.sec_size)
          pure (if sec_addr ≠ FAILED_ADDR then
            .next (⟨s, sec_addr, t * G.sec_size + G.sec_size, kv, db, arg⟩ : IteratorState σ)
            else .done (s, db, arg)))
        (Iter.post (fun s' w' => (∃ t A', t < G.count ∧ s'.sec_addr = (i₀ + t) % G.count * G.sec_size ∧
          s'.traversed_len = t * G.sec_size ∧ L.inv (visited G i₀ t) A' s'.db s'.arg w') ∧
            G.max_size - s'.traversed_len < G.max_size - t * G.sec_size)
          fun r w' => Q r.1 r.2.1 r.2.2 w') w := by
    intro stop s db arg w hinfo hpost
    cases stop with
    | true => exact runs_ret hpost
    | false =>
      rw [if_neg Bool.false_ne_true] at hpost ⊢
      obtain ⟨A', hpost⟩ := hpost
      have hmounted := L.mounted hpost
      dsimp only
      rw [← Nat.succ_mul, get_next_sector_addr_eq hmounted.sec_size hmounted.max_size ht (hi ▸ hinfo.addr) hinfo.combined]
      rw [← visited_succ] at hpost
      by_cases hend' : t + 1 < G.count
      · have hne : (i₀ + (t + 1)) % G.count * G.sec_size ≠ FAILED_ADDR := G.sector_ne (Nat.mod_lt _ G.count_pos)
        rw [if_pos hend', if_pos hne]
        refine runs_ret ⟨⟨t + 1, A', hend', rfl, rfl, hpost⟩, ?_⟩
        have hle := G.sector_end ht
        have hpos := G.sec_pos
        dsimp only
        rw [Nat.succ_mul]
        omega
      · rw [if_neg hend', if_neg (by simp)]
        have hround : t + 1 = G.count := by omega
        rw [hround] at hpost
        exact runs_ret (hend _ _ A' _ _ _ (visited_nodup (Nat.le_refl _)) (fun j hj => mem_visited hi₀ hj) hpost)
  dsimp only at hinv ⊢
  rw [hmounted.sec_size]
  refine (read_sector_info_runs hmounted hlt s₀ false).bind ?_
  rintro ⟨_, s, db'⟩ _ ⟨rfl, rfl, hcached, _, hdb⟩
  replace hinv := L.resectored hinv hdb
  dsimp only at hcached hinv ⊢
  by_cases hstatus : status = .unused ∨ status = (A i).store
  · rw [if_pos (by rw [hcached.store]; exact hstatus)]
    have hfresh := not_mem_visited (i := i₀) ht
    unfold visitSector
    cases traversal_kv with
    | true =>
      rw [if_pos rfl, bind_assoc]
      refine (read_sector_info_runs (L.mounted hinv) hlt s true).bind ?_
      rintro ⟨_, s', db''⟩ _ ⟨rfl, rfl, hcached', hspace, hdb'⟩
      replace hinv := L.resectored hinv hdb'
      dsimp only at hcached' hspace hinv ⊢
      rw [bind_assoc]
      refine (hvisit _ i s' A db'' arg _ hlt hfresh hinv hstatus hcached' fun _ => hspace rfl).bind ?_
      rintro ⟨stop, db₁, arg₁⟩ w₁ hpost
      exact hnext stop s' db₁ arg₁ w₁ hcached'.toInfo hpost
    | false =>
      rw [if_neg Bool.false_ne_true, bind_assoc]
      refine (hvisit _ i s A db' arg _ hlt hfresh hinv hstatus hcached fun h => absurd h Bool.false_ne_true).bind ?_
      rintro ⟨stop, db₁, arg₁⟩ w₁ hpost
      exact hnext stop s db₁ arg₁ w₁ hcached.toInfo hpost
  · rw [if_neg (by rw [hcached.store]; exact hstatus)]
    obtain ⟨hne, hne'⟩ := not_or.mp hstatus
    exact hnext false s db' arg _ hcached.toInfo ⟨A, hskip _ _ _ _ _ _ hlt hinv hne hne'⟩

/-! ## Nodes -/

/-- Entries with their addresses, from `off` on. -/
def placed (G : Geometry) (i : Nat) : Nat → List Entry → List (Nat × Entry)
  | _, [] => []
  | off, e :: es => (G.addr i off, e) :: placed G i (off + e.size) es

theorem placed_append (off : Nat) (es es' : List Entry) :
    placed G i off (es ++ es') = placed G i off es ++ placed G i (off + used es) es' := by
  induction es generalizing off with
  | nil => rfl
  | cons e es ih => rw [List.cons_append, placed, ih, placed, used_cons, Nat.add_assoc, List.cons_append]

/-- An invariant over the nodes that have been visited, while the storage does not change. -/
structure NodeLoop (A : Nat → Sector) (w : Flash G) (σ : Type) where
  inv : List (Nat × Entry) → Kvdb → σ → Prop
  mounted : ∀ {done db arg}, inv done db arg → Mounted db A w
  resectored : ∀ {done db db' arg}, inv done db arg → Resectored G A db db' → inv done db' arg

variable {callback : Node → Kvdb → σ → Code (Bool × Kvdb × σ)}

theorem iterateNodes_runs (L : NodeLoop A w σ) {Q : Node → Kvdb → σ → Prop} (hi : i < G.count)
    {sector : SecInfo} (hsector : Info G (A i) i sector) (hne : (A i).entries ≠ [])
    {done : List (Nat × Entry)} {kv : Node} {arg : σ} (hstart : kv.start = G.addr i SECTOR_HDR_DATA_SIZE)
    (hinit : L.inv done db arg)
    (hvisit : ∀ done a e kv db arg, At G A a e → NodeOf e a kv → L.inv done db arg →
      Runs (callback kv db arg) (fun r w' => w' = w ∧
        if r.1 = true then Q kv r.2.1 r.2.2 else L.inv (done ++ [(a, e)]) r.2.1 r.2.2) w) :
    Runs (iterateNodes sector callback kv db arg) (fun r w' => w' = w ∧
      if r.1 = true then Q r.2.1 r.2.2.1 r.2.2.2
      else L.inv (done ++ placed G i SECTOR_HDR_DATA_SIZE (A i).entries) r.2.2.1 r.2.2.2) w := by
  have hstore : sector.store ≠ .empty := by
    rw [hsector.store, Sector.store_inUse hne]
    exact StoreStatus.noConfusion
  unfold iterateNodes
  refine Total.forever
    (fun s w' => w' = w ∧ ∃ pre e post, (A i).entries = pre ++ e :: post ∧
      s.1.start = G.addr i (SECTOR_HDR_DATA_SIZE + used pre) ∧
      L.inv (done ++ placed G i SECTOR_HDR_DATA_SIZE pre) s.2.1 s.2.2)
    (fun s _ => i * G.sec_size + G.sec_size - s.1.start) ?_ ?_
  · obtain ⟨e, post, hentries⟩ := List.exists_cons_of_ne_nil hne
    exact ⟨rfl, [], e, post, hentries, hstart, by rw [placed, List.append_nil]; exact hinit⟩
  · rintro ⟨kv, db, arg⟩ w' ⟨rfl, pre, e, post, hentries, hstart, hinv⟩
    have hmounted := L.mounted hinv
    have hroom := hmounted.stored.entry_room hi hentries
    have hplaced : ∀ post', (A i).entries = pre ++ e :: post' →
        placed G i SECTOR_HDR_DATA_SIZE pre ++ [(G.addr i (SECTOR_HDR_DATA_SIZE + used pre), e)] =
          placed G i SECTOR_HDR_DATA_SIZE (pre ++ [e]) := by
      intro _ _
      rw [placed_append]
      rfl
    dsimp only at hstart hinv hmounted ⊢
    refine (read_kv_runs hmounted.stored hmounted.max_size hi hentries hstart).bind ?_
    rintro ⟨_, kv'⟩ _ ⟨rfl, rfl, hkv⟩
    rw [hstart] at hkv
    refine (hvisit _ _ e kv' db arg ⟨i, hi, pre, post, hentries, rfl⟩ hkv hinv).bind ?_
    rintro ⟨stop, db', arg'⟩ _ ⟨rfl, hpost⟩
    dsimp only at hpost ⊢
    cases stop with
    | true => exact runs_ret ⟨rfl, hpost⟩
    | false =>
      rw [if_neg Bool.false_ne_true] at hpost ⊢
      rw [List.append_assoc, hplaced post hentries] at hpost
      have hmounted' := L.mounted hpost
      refine (get_next_kv_addr_runs hmounted'.stored hmounted'.sec_size hmounted'.sectors hi hentries hstore
        hsector.addr hkv).bind ?_
      rintro _ _ ⟨rfl, rfl⟩
      cases post with
      | nil =>
        rw [if_neg (by simp [nextAddr])]
        refine runs_ret ⟨rfl, ?_⟩
        rw [if_neg Bool.false_ne_true, hentries]
        exact hpost
      | cons e' post =>
        have hge := e.size_ge
        have hkvsize : KV_HDR_DATA_SIZE = 24 := rfl
        have hnext : nextAddr G i pre e (e' :: post) ≠ FAILED_ADDR := G.addr_ne _ hi (by omega)
        rw [if_pos hnext]
        refine runs_ret ⟨⟨rfl, pre ++ [e], e', post, by rw [hentries, List.append_assoc]; rfl, ?_, hpost⟩, ?_⟩
        · rw [used_append, used_cons, used_nil, Nat.add_zero, ← Nat.add_assoc]
          rfl
        · rw [hstart]
          simp only [nextAddr, Geometry.addr]
          omega

/-- The nodes of sectors. -/
def placedAll (G : Geometry) (A : Nat → Sector) (is : List Nat) : List (Nat × Entry) :=
  is.flatMap fun i => placed G i SECTOR_HDR_DATA_SIZE (A i).entries

theorem mem_placedAll {is : List Nat} (his : ∀ i < G.count, i ∈ is) {a : Nat} {e : Entry} (h : At G A a e) :
    (a, e) ∈ placedAll G A is := by
  obtain ⟨i, hi, pre, post, hentries, rfl⟩ := h
  refine List.mem_flatMap.mpr ⟨i, his i hi, ?_⟩
  rw [hentries, placed_append]
  exact List.mem_append_right _ List.mem_cons_self

theorem kv_iterator_runs (L : NodeLoop A w σ) {Q : Node → Kvdb → σ → Prop} {kv : Node} {arg : σ}
    (hinit : L.inv [] db arg)
    (hvisit : ∀ done a e kv db arg, At G A a e → NodeOf e a kv → L.inv done db arg →
      Runs (callback kv db arg) (fun r w' => w' = w ∧
        if r.1 = true then Q kv r.2.1 r.2.2 else L.inv (done ++ [(a, e)]) r.2.1 r.2.2) w)
    (hend : ∀ done kv db arg, (∀ a e, At G A a e → (a, e) ∈ done) → L.inv done db arg → Q kv db arg) :
    Runs (kv_iterator db kv callback arg) (fun r w' => w' = w ∧ Q r.1 r.2.1 r.2.2) w := by
  obtain ⟨i₀, hi₀, holdest⟩ := (L.mounted hinit).oldest
  unfold kv_iterator
  refine Total.forever
    (fun s w' => w' = w ∧ ∃ t, t < G.count ∧ s.sec_addr = (i₀ + t) % G.count * G.sec_size ∧
      s.traversed_len = t * G.sec_size ∧ L.inv (placedAll G A (visited G i₀ t)) s.db s.arg)
    (fun s _ => G.max_size - s.traversed_len)
    ⟨rfl, 0, G.count_pos, by rw [Nat.add_zero, Nat.mod_eq_of_lt hi₀]; exact holdest, (Nat.zero_mul _).symm, hinit⟩ ?_
  rintro ⟨s₀, sec_addr, traversed_len, kv, db, arg⟩ w ⟨rfl, t, ht, rfl, rfl, hinv⟩
  set i := (i₀ + t) % G.count with hi
  have hlt : i < G.count := Nat.mod_lt _ G.count_pos
  have hmounted := L.mounted hinv
  -- What is left to do once the nodes of the sector have been visited.
  have hnext : ∀ (stop : Bool) s kv db arg, Info G (A i) i s →
      (if stop = true then Q kv db arg
        else L.inv (placedAll G A (visited G i₀ t) ++ placed G i SECTOR_HDR_DATA_SIZE (A i).entries) db arg) →
      Runs (if stop then pure (.done (kv, db, arg))
        else
          let sec_addr := get_next_sector_addr db s (t * G.sec_size + G.sec_size)
          pure (if sec_addr ≠ FAILED_ADDR then
            .next (⟨s, sec_addr, t * G.sec_size + G.sec_size, kv, db, arg⟩ : IteratorState σ)
            else .done (kv, db, arg)))
        (Iter.post (fun s' w' => (w' = w ∧ ∃ t, t < G.count ∧ s'.sec_addr = (i₀ + t) % G.count * G.sec_size ∧
          s'.traversed_len = t * G.sec_size ∧ L.inv (placedAll G A (visited G i₀ t)) s'.db s'.arg) ∧
            G.max_size - s'.traversed_len < G.max_size - t * G.sec_size)
          fun r w' => w' = w ∧ Q r.1 r.2.1 r.2.2) w := by
    intro stop s kv db arg hinfo hpost
    cases stop with
    | true => exact runs_ret ⟨rfl, hpost⟩
    | false =>
      rw [if_neg Bool.false_ne_true] at hpost ⊢
      have hmounted := L.mounted hpost
      have hplaced : placedAll G A (visited G i₀ t) ++ placed G i SECTOR_HDR_DATA_SIZE (A i).entries =
          placedAll G A (visited G i₀ (t + 1)) := by
        rw [visited_succ, placedAll, placedAll, List.flatMap_append, List.flatMap_singleton]
      dsimp only
      rw [← Nat.succ_mul, get_next_sector_addr_eq hmounted.sec_size hmounted.max_size ht (hi ▸ hinfo.addr)
        hinfo.combined]
      rw [hplaced] at hpost
      by_cases hend' : t + 1 < G.count
      · have hne : (i₀ + (t + 1)) % G.count * G.sec_size ≠ FAILED_ADDR := G.sector_ne (Nat.mod_lt _ G.count_pos)
        rw [if_pos hend', if_pos hne]
        refine runs_ret ⟨⟨rfl, t + 1, hend', rfl, rfl, hpost⟩, ?_⟩
        have hle := G.sector_end ht
        have hpos := G.sec_pos
        dsimp only
        rw [Nat.succ_mul]
        omega
      · rw [if_neg hend', if_neg (by simp)]
        have hround : t + 1 = G.count := by omega
        rw [hround] at hpost
        exact runs_ret ⟨rfl, hend _ _ _ _ (fun a e hat => mem_placedAll (fun j hj => mem_visited hi₀ hj) hat) hpost⟩
  dsimp only at hinv ⊢
  rw [hmounted.sec_size]
  refine (read_sector_info_runs hmounted hlt s₀ false).bind ?_
  rintro ⟨result, s, db'⟩ _ ⟨rfl, rfl, hcached, _, hdb⟩
  replace hinv := L.resectored hinv hdb
  dsimp only at hcached hinv ⊢
  rw [hcached.store]
  by_cases hentries : (A i).entries = []
  · rw [Sector.store_empty hentries, if_neg (by simp)]
    refine hnext false s kv db' arg hcached.toInfo ?_
    rw [if_neg Bool.false_ne_true, hentries, placed, List.append_nil]
    exact hinv
  · rw [Sector.store_inUse hentries, if_pos (by simp)]
    refine (iterateNodes_runs L hlt hcached.toInfo hentries ?_ hinv hvisit).bind ?_
    · rw [hcached.addr]
    rintro ⟨stop, kv', db'', arg'⟩ _ ⟨rfl, hpost⟩
    exact hnext stop s kv' db'' arg' hcached.toInfo hpost

end FlashDb
