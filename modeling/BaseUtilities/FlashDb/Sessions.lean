import BaseUtilities.Effects.Dialogue
import BaseUtilities.FlashDb.Loading

/-!
# FlashDB: sessions

What a database is for: a map from names to values that requests read and change, and that is there again after
the power has been off.  `Answers` is the map as a server; the database refines it.
-/

open Effects Mem Kv Storage

namespace FlashDb

variable {G : Geometry} {w : Flash G} {A : Nat → Sector} {db db' : Kvdb} {K : Name → Prop}
  {m m' : Name → Option Bytes}

/-- What is asked of a database between two of its operations. -/
inductive Request where
  | get (k : Name) (size : Nat) (buf : Buffer size)
  | set (k : Name) (v : Option Bytes)
  | del (k : Name)
  /-- The memory is lost, and the database is loaded from its storage again. -/
  | restart (not_formatable : Bool) (default_kv : List (Key × Bytes))

inductive Reply where
  | got {size : Nat} (result : GetResult size)
  | status (err : FdbErr)

def serve : Request → Kvdb → Code (Reply × Kvdb)
  | .get k _ buf, db => do
    let (result, db) ← fdb_kv_get_blob db k.bytes buf
    return (.got result, db)
  | .set k v, db => do
    let (err, db) ← fdb_kv_set_blob db k.bytes v
    return (.status err, db)
  | .del k, db => do
    let (err, db) ← fdb_kv_del db k.bytes
    return (.status err, db)
  | .restart not_formatable default_kv, db => do
    let (err, db) ← fdb_kvdb_init (Kvdb.zeroed db.sec_size db.max_size not_formatable) default_kv
    return (.status err, db)

/-- A map as a server. -/
inductive Answers (m : Name → Option Bytes) : Request → Reply → (Name → Option Bytes) → Prop where
  | get (k : Name) (size : Nat) (buf : Buffer size) : Answers m (.get k size buf) (.got (got buf (m k))) m
  | set (k : Name) (v : Bytes) : Answers m (.set k (some v)) (.status .noErr) (Function.update m k (some v))
  | full (k : Name) (v : Bytes) : Answers m (.set k (some v)) (.status .savedFull) m
  | unset (k : Name) : m k ≠ none → Answers m (.set k none) (.status .noErr) (Function.update m k none)
  | unsetNone (k : Name) : m k = none → Answers m (.set k none) (.status .kvNameErr) m
  | del (k : Name) : m k ≠ none → Answers m (.del k) (.status .noErr) (Function.update m k none)
  | delNone (k : Name) : m k = none → Answers m (.del k) (.status .kvNameErr) m
  | restart (not_formatable : Bool) (default_kv : List (Key × Bytes)) :
      Answers m (.restart not_formatable default_kv) (.status .noErr) m

/-- The name that a request is about is in `K`. -/
def Request.about (K : Name → Prop) : Request → Prop
  | .get k _ _ => K k
  | .set k _ => K k
  | .del k => K k
  | .restart _ _ => True

/-! ## The operations -/

theorem fdb_kv_set_blob_eq (h : db.init_ok = true) (key : Key) (value : Option Bytes) :
    fdb_kv_set_blob db key value = set_kv db key value := by
  unfold fdb_kv_set_blob
  rw [h]
  rfl

theorem fdb_kv_del_eq (h : db.init_ok = true) (key : Key) : fdb_kv_del db key = del_kv db key true := by
  unfold fdb_kv_del
  rw [h]
  rfl

theorem ready_get_runs (h : Ready K m db w) (hK : Separate K) {k : Name} (hk : K k) {size : Nat} (buf : Buffer size) :
    Runs (fdb_kv_get_blob db k.bytes buf) (fun r w' => w' = w ∧ r.1 = got buf (m k) ∧ Ready K m r.2 w) w := by
  obtain ⟨A, hkept, hspare⟩ := h.kept
  refine (fdb_kv_get_blob_runs hkept.mounted h.init_ok hK hkept.named hkept.settled hk hkept.stands buf).mono ?_
  rintro ⟨result, db'⟩ w ⟨rfl, hdb, rfl⟩
  exact ⟨rfl, rfl, ⟨A, hkept.recached hdb, hspare⟩, hdb.changed.gc_request.trans h.idle,
    hdb.changed.init_ok.trans h.init_ok⟩

theorem ready_del_runs (h : Ready K m db w) (hK : Separate K) {k : Name} (hk : K k) :
    Runs (del_kv db k.bytes true) (fun r w' =>
      (r.1 = .noErr ∧ m k ≠ none ∧ Ready K (Function.update m k none) r.2 w') ∨
        (r.1 = .kvNameErr ∧ m k = none ∧ Ready K m r.2 w')) w := by
  obtain ⟨A, hkept, hspare⟩ := h.kept
  refine (del_kv_runs hkept hspare hK hk).mono ?_
  rintro ⟨err, db'⟩ w' ⟨hchanged, hresult⟩
  have hidle := hchanged.gc_request.trans h.idle
  have hinit := hchanged.init_ok.trans h.init_ok
  rcases hresult with ⟨herr, hsome, hkept'⟩ | ⟨herr, hnone, hkept', hspare'⟩
  · exact .inl ⟨herr, hsome, hkept', hidle, hinit⟩
  · exact .inr ⟨herr, hnone, ⟨A, hkept', hspare'⟩, hidle, hinit⟩

theorem ready_set_runs (h : Ready K m db w) (hK : Separate K) {k : Name} (hk : K k) (v : Bytes) :
    Runs (setValue db k.bytes v) (fun r w' =>
      (r.1 = .noErr ∧ Ready K (Function.update m k (some v)) r.2 w') ∨
        (r.1 = .savedFull ∧ Ready K m r.2 w')) w := by
  obtain ⟨A, hkept, hspare⟩ := h.kept
  refine (setValue_runs hkept h.idle hspare hK hk v).mono ?_
  rintro ⟨err, db'⟩ w' ⟨hinit, hidle, ⟨herr, hkept'⟩ | ⟨herr, A', hkept', hspare', _⟩⟩
  · exact .inl ⟨herr, hkept', hidle, hinit.trans h.init_ok⟩
  · exact .inr ⟨herr, ⟨A', hkept', hspare'⟩, hidle, hinit.trans h.init_ok⟩

theorem Ready.restart (h : Ready K m db w) (not_formatable : Bool) (default_kv : List (Key × Bytes)) :
    Runs (fdb_kvdb_init (Kvdb.zeroed db.sec_size db.max_size not_formatable) default_kv)
      (fun r w' => r.1 = .noErr ∧ Ready K m r.2 w') w := by
  obtain ⟨A, hkept, hspare⟩ := h.kept
  rw [hkept.mounted.sec_size, hkept.mounted.max_size]
  refine (fdb_kvdb_init_runs (P := (· = m)) hkept.mounted.stored.partly hkept.toHolds hspare ?_ ?_ fun _ => rfl).mono ?_
  · rintro ⟨_, _, hbad⟩
    exact hbad.elim
  · exact fun hbad => (hbad 0 G.count_pos).elim
  · rintro ⟨err, db'⟩ w' ⟨herr, m', rfl, hready⟩
    exact ⟨herr, hready⟩

/-- A reply of the database is one of its map. -/
theorem serve_runs (hK : Separate K) (q : Request) (hq : q.about K) (h : Ready K m db w) :
    Runs (serve q db) (fun r w' => ∃ m', Answers m q r.1 m' ∧ Ready K m' r.2 w') w := by
  cases q with
  | get k size buf =>
    refine (ready_get_runs h hK hq buf).bind ?_
    rintro ⟨result, db'⟩ w ⟨rfl, rfl, hready⟩
    exact runs_ret ⟨m, .get k size buf, hready⟩
  | set k v =>
    rw [serve, fdb_kv_set_blob_eq h.init_ok]
    cases v with
    | none =>
      refine (ready_del_runs h hK hq).bind ?_
      rintro ⟨err, db'⟩ w' (⟨rfl, hsome, hready⟩ | ⟨rfl, hnone, hready⟩)
      · exact runs_ret ⟨_, .unset k hsome, hready⟩
      · exact runs_ret ⟨m, .unsetNone k hnone, hready⟩
    | some v =>
      refine (ready_set_runs h hK hq v).bind ?_
      rintro ⟨err, db'⟩ w' (⟨rfl, hready⟩ | ⟨rfl, hready⟩)
      · exact runs_ret ⟨_, .set k v, hready⟩
      · exact runs_ret ⟨m, .full k v, hready⟩
  | del k =>
    rw [serve, fdb_kv_del_eq h.init_ok]
    refine (ready_del_runs h hK hq).bind ?_
    rintro ⟨err, db'⟩ w' (⟨rfl, hsome, hready⟩ | ⟨rfl, hnone, hready⟩)
    · exact runs_ret ⟨_, .del k hsome, hready⟩
    · exact runs_ret ⟨m, .delNone k hnone, hready⟩
  | restart not_formatable default_kv =>
    refine (h.restart not_formatable default_kv).bind ?_
    rintro ⟨err, db'⟩ w' ⟨rfl, hready⟩
    exact runs_ret ⟨m, .restart not_formatable default_kv, hready⟩

/-- Whatever is asked of a database, it answers as a map does, with legal calls of its storage only. -/
theorem session_refines_map (hK : Separate K) {qs : List Request} (hqs : ∀ q ∈ qs, q.about K)
    (h : Ready K m db w) :
    Runs (serveAll serve qs db) (fun r w' => ∃ m', Converses Answers m qs r.1 m' ∧ Ready K m' r.2 w') w :=
  Total.serveAll (Ready K) (fun q _ _ _ hq h => serve_runs hK q hq h) hqs h

/-- A value that outlives the memory. -/
theorem session_of_loaded : Runs
    (serveAll serve [.set Name.sample (some [1]), .restart true [], .get Name.sample 1 (.zeroed 1)]
      (Kvdb.loaded .small))
    (fun r w' => ∃ m', Converses Answers (fun _ => none)
      [.set Name.sample (some [1]), .restart true [], .get Name.sample 1 (.zeroed 1)] r.1 m' ∧
        Ready (· = Name.sample) m' r.2 w')
    (Flash.formatted .small) :=
  session_refines_map (separate_singleton _) (by simp [Request.about]) (loaded_ready _ _)

/-- A database is loaded, and then asked. -/
def loadAndServe (db : Kvdb) (default_kv : List (Key × Bytes)) (qs : List Request) :
    Code (FdbErr × List Reply × Kvdb) := do
  let (err, db) ← fdb_kvdb_init db default_kv
  let (replies, db) ← serveAll serve qs db
  return (err, replies, db)

theorem loadAndServe_runs {default_kv : List (Key × Bytes)} {P : (Name → Option Bytes) → Prop}
    (h : Runs (fdb_kvdb_init db default_kv) (fun r w' => r.1 = .noErr ∧ ∃ m, P m ∧ Ready K m r.2 w') w)
    (hK : Separate K) {qs : List Request} (hqs : ∀ q ∈ qs, q.about K) :
    Runs (loadAndServe db default_kv qs) (fun r w' => r.1 = .noErr ∧
      ∃ m, P m ∧ ∃ m', Converses Answers m qs r.2.1 m' ∧ Ready K m' r.2.2 w') w := by
  unfold loadAndServe
  refine h.bind ?_
  rintro ⟨err, db⟩ w₁ ⟨rfl, m, hm, hready⟩
  refine (Total.serveAll (Ready K) (fun q _ _ _ hq h => serve_runs hK q hq h) hqs hready).bind ?_
  rintro ⟨replies, db'⟩ w₂ hserved
  exact runs_ret ⟨rfl, m, hm, hserved⟩

theorem init_new_runs {default_kv : List (Key × Bytes)} {P : (Name → Option Bytes) → Prop}
    (hw : ∀ i < G.count, Lost (w i)) (hcreates : Creates G K default_kv P) :
    Runs (fdb_kvdb_init (Kvdb.zeroed G.sec_size G.max_size false) default_kv)
      (fun r w' => r.1 = .noErr ∧ ∃ m, P m ∧ Ready K m r.2 w') w := by
  have hpartly : Partly w (fun _ => ⟨.clean, []⟩) fun _ => True :=
    ⟨fun i hi _ => ⟨rfl, hw i hi⟩, fun _ _ hbad => absurd trivial hbad⟩
  have hspare : Spare G fun _ => ⟨.clean, []⟩ := ⟨0, G.count_pos, rfl⟩
  exact fdb_kvdb_init_runs hpartly (holds_empty G K) hspare (fun _ => rfl) (fun _ => hcreates)
    fun hnot => absurd (fun _ _ => trivial) hnot

/-- All of the default pairs are there at first where one sector has space for them. -/
theorem new_database_has_defaults (hw : ∀ i < G.count, Lost (w i)) (hK : Separate K) {kvs : List (Name × Bytes)}
    (hkvs : ∀ p ∈ kvs, K p.1) (hnodup : (kvs.map Prod.fst).Nodup)
    (hfits : SECTOR_HDR_DATA_SIZE + pairsSize kvs + FDB_SEC_REMAIN_THRESHOLD < G.sec_size) {qs : List Request}
    (hqs : ∀ q ∈ qs, q.about K) :
    Runs (loadAndServe (Kvdb.zeroed G.sec_size G.max_size false) (defaultKvs kvs) qs) (fun r w' => r.1 = .noErr ∧
      ∃ m', Converses Answers (filled (fun _ => none) kvs) qs r.2.1 m' ∧ Ready K m' r.2.2 w') w := by
  refine (loadAndServe_runs (init_new_runs hw (creates_filled hkvs hnodup hfits)) hK hqs).mono ?_
  rintro ⟨err, replies, db'⟩ w' ⟨herr, m, rfl, hserved⟩
  exact ⟨herr, hserved⟩

/-- A default pair is read from what was erased storage. -/
theorem new_database_has_default_pair :
    Runs (G := .small)
      (loadAndServe (Kvdb.zeroed 256 512 false) (defaultKvs [(Name.sample, [1])]) [.get Name.sample 1 (.zeroed 1)])
      (fun r w' => r.1 = .noErr ∧ ∃ m', Converses Answers (filled (fun _ => none) [(Name.sample, [1])])
        [.get Name.sample 1 (.zeroed 1)] r.2.1 m' ∧ Ready (· = Name.sample) m' r.2.2 w')
      (fun _ => erased 256) :=
  new_database_has_defaults (fun _ _ => (by decide : Lost (erased 256))) (separate_singleton _) (by simp) (by simp)
    (by decide) (by simp [Request.about])

/-- While the power is off, sectors without nodes lose their headers; the database answers as if they had not. -/
theorem damaged_database_refines_map (h : Kept K m db A w) (hspare : Spare G A) {w' : Flash G}
    (hdamaged : ∀ i < G.count, w' i = w i ∨ (A i).entries = [] ∧ Lost (w' i))
    (hkept : ∃ i < G.count, (A i).entries ≠ []) (default_kv : List (Key × Bytes)) (hK : Separate K)
    {qs : List Request} (hqs : ∀ q ∈ qs, q.about K) :
    Runs (loadAndServe (Kvdb.zeroed G.sec_size G.max_size false) default_kv qs) (fun r w' => r.1 = .noErr ∧
      ∃ m', Converses Answers m qs r.2.1 m' ∧ Ready K m' r.2.2 w') w' := by
  have hempty : ∀ i < G.count, w' i ≠ w i → (A i).entries = [] ∧ Lost (w' i) :=
    fun i hi hne => (hdamaged i hi).resolve_left hne
  have hpartly : Partly w' A fun i => w' i ≠ w i := by
    constructor
    · intro i hi hne
      obtain ⟨hentries, hlost⟩ := hempty i hi hne
      have hclean := (h.mounted.stored.wf i hi).clean hentries
      exact ⟨by rw [← hentries, ← hclean], hlost⟩
    · intro i hi hsame
      exact ⟨h.mounted.stored.wf i hi, (not_not.mp hsame).trans (h.mounted.stored.image i hi)⟩
  -- The default pairs are not created while one sector has its header.
  have hnew : ¬ ∀ i < G.count, w' i ≠ w i := by
    obtain ⟨i, hi, hentries⟩ := hkept
    exact fun hbad => hentries (hempty i hi (hbad i hi)).1
  refine (loadAndServe_runs (P := (· = m)) (fdb_kvdb_init_runs hpartly h.toHolds hspare (fun _ => rfl)
    (fun hbad => absurd hbad hnew) fun _ => rfl) hK hqs).mono ?_
  rintro ⟨err, replies, db'⟩ w'' ⟨herr, m', rfl, hserved⟩
  exact ⟨herr, hserved⟩

/-- A pair in the first of two sectors. -/
def single : Nat → Sector := addition (fun _ => ⟨.clean, []⟩) 0 ⟨.write, Name.sample, [1]⟩

theorem single_kept : Kept (· = Name.sample) (Function.update (fun _ => none) Name.sample (some [1]))
    (Kvdb.loaded .small) single (Flash.imaged .small single) := by
  have hstored : Stored (Flash.imaged .small single) single :=
    stored_small ⟨by decide, by decide, by decide⟩ ⟨by decide, by decide, by decide⟩
  exact ((loaded_kept .small (· = Name.sample)).insert rfl rfl (by decide) (hstored.blank false []) rfl).finish

/-- The second sector has been erased. -/
theorem damaged_database_of_single :
    Runs (loadAndServe (Kvdb.zeroed 256 512 false) [] [.get Name.sample 1 (.zeroed 1)]) (fun r w' => r.1 = .noErr ∧
      ∃ m', Converses Answers (Function.update (fun _ => none) Name.sample (some [1]))
        [.get Name.sample 1 (.zeroed 1)] r.2.1 m' ∧ Ready (· = Name.sample) m' r.2.2 w')
    (Function.update (Flash.imaged .small single) 1 (erased 256)) := by
  refine damaged_database_refines_map single_kept ⟨1, by decide, rfl⟩ ?_ ⟨0, by decide, by decide⟩ []
    (separate_singleton _) (by simp [Request.about])
  intro i _
  by_cases hi : i = 1
  · subst hi
    exact .inr ⟨rfl, (by decide : Lost (erased 256))⟩
  · exact .inl (Function.update_of_ne hi _ _)

/-- A value is refused only where there is no space for it, and none to be had. -/
theorem set_refused_only_when_full (hK : Separate K) (h : Ready K m db w) {k : Name} (hk : K k) (v : Bytes) :
    Runs (fdb_kv_set_blob db k.bytes (some v)) (fun r w' => r.1 ≠ .noErr → r.1 = .savedFull ∧
      ∃ A, Stored w' A ∧ Holds G K m A ∧ Full G A (Entry.mk .write k v).size) w := by
  obtain ⟨A, hkept, hspare⟩ := h.kept
  rw [fdb_kv_set_blob_eq h.init_ok]
  refine (setValue_runs hkept h.idle hspare hK hk v).mono ?_
  rintro ⟨err, db'⟩ w' ⟨_, _, ⟨rfl, _⟩ | ⟨rfl, A', hkept', _, hfull⟩⟩ herr
  · exact absurd rfl herr
  · exact ⟨rfl, A', hkept'.mounted.stored, hkept'.toHolds, hfull⟩

theorem set_refused_of_loaded : Runs
    (fdb_kv_set_blob (Kvdb.loaded .small) Name.sample.bytes (some (List.replicate 200 0)))
    (fun r w' => r.1 ≠ .noErr → r.1 = .savedFull ∧
      ∃ A, Stored w' A ∧ Holds .small (· = Name.sample) (fun _ => none) A ∧
        Full .small A (Entry.mk .write Name.sample (List.replicate 200 0)).size)
    (Flash.formatted .small) :=
  set_refused_only_when_full (separate_singleton _) (loaded_ready _ _) rfl _

end FlashDb
