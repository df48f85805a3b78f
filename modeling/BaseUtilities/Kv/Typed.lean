import BaseUtilities.Effects.Runs
import BaseUtilities.Kv.RoundTrip

/-!
# Values of any type

`KVDB::get` of a type of `n` bytes after any history of writes.  The implementations report the length
of what is stored in different ways; the value is the same with both, the bytes that are stored last
where there are `n` of them and the default otherwise.
-/

open Effects Mem

namespace Kv

/-! ## Histories -/

/-- What is known of NVS beside the assumptions of `World.Step`: a key without a blob is not found, and
an erased key has none. -/
def World.Finds (w : World) : KvEvent → World → Prop
  | ⟨.nvs_get_blob key _, loaded⟩, _ => w.blobs key = none → loaded = none
  | ⟨.nvs_erase key, ok⟩, w' => ok = true → w'.blobs key = none
  | _, _ => True

def stores : Env Op Op.Res World := fun w op r w' => w.Step ⟨op, r⟩ w' ∧ w.Finds ⟨op, r⟩ w'

/-- What a user has done with a database, where `value` is what has been stored last under `key`: the
bytes of the last write, or none where there was none or the key has been erased since. -/
inductive History (db : KVDB) (w₀ : World) (key : Key) : Option Bytes → KVDB → World → Prop where
  /-- What was stored before. -/
  | start {value} : Holds key value db w₀ → History db w₀ key value db w₀
  | write {value self w self' w'} (data : Option Bytes) : History db w₀ key value self w →
      Exec stores (self.set_blob key data) w (.returned (true, self')) w' →
      History db w₀ key (stored self data) self' w'
  | erase {value self w self' w'} : History db w₀ key value self w →
      Exec stores (self.erase key) w (.returned (true, self')) w' → History db w₀ key none self' w'
  | other {value self w self' w'} (c : Call) : History db w₀ key value self w → ¬c.Writes key →
      Exec stores (c.run self) w (.returned self') w' → History db w₀ key value self' w'
  /-- A write that left what is stored. -/
  | refused {value self w self' w'} (c : Call) : History db w₀ key value self w →
      Exec stores (c.run self) w (.returned self') w' → Holds key value self' w' →
      History db w₀ key value self' w'

/-- The value of `n` bytes that is stored, and the default where nothing or another number of bytes is. -/
def typed {n : Nat} (value : Option Bytes) (default_val : Buffer n) : Buffer n :=
  match value with
  | none => default_val
  | some b => if h : b.length = n then ⟨b, h⟩ else default_val

theorem typed_bytes {n : Nat} {b : Bytes} (default_val : Buffer n) (h : b.length = n) :
    (typed (some b) default_val).bytes = b := by
  rw [typed, dif_pos h]

theorem typed_default {n : Nat} {b : Bytes} (default_val : Buffer n) (h : b.length ≠ n) :
    typed (some b) default_val = default_val :=
  dif_neg h

section

variable {α : Type} {w w' : World} {self self' : KVDB} {key : Key} {value : Option Bytes}

theorem exec_store {p : Code α} {out : Outcome Op α} (h : Exec stores p w out w') :
    Exec store p w out w' := by
  obtain ⟨w₁, hexec, rfl⟩ := h.follow (F := store) (R := fun w v => w = v)
    (fun w v op r w' heq hstep => ⟨w', heq ▸ hstep.1, rfl⟩) rfl
  exact hexec

theorem wp_stores {p : Code α} {ok : Stop Op → World → Prop} {Q : α → World → Prop}
    (h : wp store ok p Q w) : wp stores ok p Q w :=
  fun out w' hexec => h out w' (exec_store hexec)

/-- An erased key is not there any more. -/
theorem erase_holds (hsane : Sane self w)
    (herase : Exec stores (self.erase key) w (.returned (true, self')) w') : Holds key none self' w' := by
  have hspec : wp stores (fun _ _ => True) (self.erase key)
      (fun r w' => r.1 = true → Holds key none r.2 w') w := by
    cases self with
    | nvs => exact wp_ask trivial fun r w' hstep => wp_ret.mpr hstep.2
    | flashdb part kv =>
      rw [KVDB.erase, KVDB.via, KVHandle.erase]
      split
      · next hinit =>
        refine wp_bind.mpr (wp_ask trivial fun err w' hstep => wp_ret.mpr (wp_ret.mpr fun herr => ?_))
        obtain ⟨id, -, hdb⟩ := hsane hinit
        obtain ⟨d, hd, -, hvalue⟩ := hstep.1.2 (by simpa using herr)
        obtain rfl : d = ⟨id, part⟩ := by simpa [hdb] using hd.symm
        exact hvalue
      · refine wp_bind.mpr (wp_ret.mpr (wp_ret.mpr fun h => ?_))
        cases h
  exact hspec.returned herase rfl

/-- After a history the store holds what has been stored last. -/
theorem History.holds {db : KVDB} {w₀ : World} (h : History db w₀ key value self w) (hsane : Sane db w₀) :
    Sane self w ∧ Holds key value self w := by
  induction h with
  | start hholds => exact ⟨hsane, hholds⟩
  | write data _ hexec ih =>
    have hset := exec_store hexec
    exact ⟨(run_sane (c := .set_blob key data) ih.1).returned (hset.bind ⟨rfl, rfl⟩),
      set_blob_holds ih.1 hset⟩
  | erase _ hexec ih =>
    have hdel := exec_store hexec
    exact ⟨(run_sane (c := .erase key) ih.1).returned (hdel.bind ⟨rfl, rfl⟩), erase_holds ih.1 hexec⟩
  | other c _ hno hexec ih =>
    have hrun := exec_store hexec
    exact ⟨(run_sane ih.1).returned hrun, (run_holds hno ih.2).returned hrun⟩
  | refused c _ hexec hholds ih => exact ⟨(run_sane ih.1).returned (exec_store hexec), hholds⟩

/-! ## What is read -/

/-- A handle does not find a key without a value. -/
theorem KVHandle.get_blob_absent {kv : KVHandle} (out : Bytes) (hinit : kv.m_initialized = true)
    (hvalue : w.Value kv.m_kvdb key none) :
    wp store NoFault (kv.get_blob key out) (fun r _ => r.1 = false) w := by
  rw [get_blob, if_pos hinit]
  refine wp_ask trivial fun r w' hstep => ?_
  obtain ⟨err, len⟩ := r
  have herr : err ≠ .noErr := hstep.2.2 hvalue
  dsimp only
  rw [if_pos herr]
  exact wp_ret.mpr rfl

variable {n : Nat}

/-- Bytes that fill an array replace all of it. -/
theorem ofBytes?_overwrite (b : Buffer n) {v : Bytes} (hv : v.length ≤ n) :
    ∃ c, Buffer.ofBytes? n (overwrite b.bytes v) = some c ∧ (v.length = n → c.bytes = v) := by
  have hlen : (overwrite b.bytes v).length = n := by
    rw [overwrite, List.length_append, List.length_drop, b.size_eq]
    omega
  refine ⟨⟨_, hlen⟩, dif_pos hlen, fun heq => ?_⟩
  show overwrite b.bytes v = v
  rw [overwrite, List.drop_of_length_le (by rw [b.size_eq, heq]), List.append_nil]

/-- The value of `get` where nothing was loaded. -/
theorem read_unloaded (value : Buffer n) :
    Prog.ofOption ((some value.bytes).bind (Buffer.ofBytes? n)) = (.ret value : Code (Buffer n)) := by
  rw [Option.bind_some, Buffer.ofBytes?_bytes, Prog.ofOption_some]

/-- What `get` returns where all of what is stored was loaded. -/
theorem get_loaded {E : Env Op Op.Res World} {b : Bytes} (self : KVDB) (default_val value : Buffer n)
    (hb : b.length ≤ n) :
    wp E NoFault (do
      let value ← Prog.ofOption ((some (overwrite value.bytes b)).bind (Buffer.ofBytes? n))
      if b.length ≠ n then
        return (default_val, self)
      else
        return (value, self)) (fun r _ => r.1 = typed (some b) default_val) w := by
  obtain ⟨c, hc, hbytes⟩ := ofBytes?_overwrite value hb
  rw [Option.bind_some, hc, Prog.ofOption_some, Prog.ret_bind]
  split
  · next hne => exact wp_ret.mpr (typed_default default_val hne).symm
  · next heq =>
    have heq : b.length = n := not_not.mp heq
    refine wp_ret.mpr (Buffer.ext ?_)
    rw [typed_bytes default_val heq]
    exact hbytes heq

theorem nvs_get (hopen : w.nvsOpen = true) (default_val value : Buffer n) :
    wp stores NoFault (KVDB.nvs.get key default_val value)
      (fun r _ => r.1 = typed (w.blobs key) default_val) w := by
  refine wp_ask trivial fun opened w₁ hopened => ?_
  obtain ⟨⟨rfl, rfl⟩, -⟩ := hopened
  rw [if_pos hopen]
  refine wp_bind.mpr (wp_bind.mpr (wp_ask trivial fun loaded w₂ hloaded => ?_))
  obtain ⟨⟨rfl, hfound⟩, habsent⟩ := hloaded
  cases hstored : w₂.blobs key with
  | none =>
    obtain rfl : loaded = none := habsent hstored
    refine wp_ret.mpr (wp_ret.mpr ?_)
    dsimp only
    rw [read_unloaded]
    exact wp_ret.mpr rfl
  | some b =>
    have hload : if b.length ≤ n then loaded = some ⟨b, b.length⟩ else loaded = none :=
      hfound hopen b hstored
    split at hload
    · next hb =>
      subst hload
      exact wp_ret.mpr (wp_ret.mpr (get_loaded KVDB.nvs default_val value hb))
    · next hb =>
      -- The buffer is too small, so that NVS fails.
      subst hload
      refine wp_ret.mpr (wp_ret.mpr ?_)
      dsimp only
      rw [read_unloaded]
      have hne : b.length ≠ n := fun h => hb (Nat.le_of_eq h)
      exact wp_ret.mpr (typed_default default_val hne).symm

theorem flashdb_get {part : Part} {kv : KVHandle} (hinit : kv.m_initialized = true)
    (hvalue : w.Value kv.m_kvdb key value) (default_val v : Buffer n) :
    wp stores NoFault ((KVDB.flashdb part kv).get key default_val v)
      (fun r _ => r.1 = typed value default_val) w := by
  rw [KVDB.get, KVDB.is_open, Prog.pure_eq, Prog.ret_bind, if_pos hinit]
  refine wp_bind.mpr (wp_bind.mpr ?_)
  cases value with
  | none =>
    refine (wp_stores (KVHandle.get_blob_absent [] hinit hvalue)).bind ?_
    rintro ⟨found, tmp, kv'⟩ w' rfl
    refine wp_ret.mpr (wp_ret.mpr ?_)
    dsimp only
    rw [read_unloaded]
    exact wp_ret.mpr rfl
  | some b =>
    have hget : wp store NoFault (kv.get_blob key []) (fun r w' => r = (true, b, kv) ∧ w' = w) w :=
      KVHandle.get_blob_value hinit hvalue
    refine (wp_stores hget).bind ?_
    rintro _ w' ⟨rfl, rfl⟩
    dsimp only
    rw [if_pos rfl]
    split
    · next hb =>
      have hcopy : KVDB.memcpy? (some v.bytes) b = some (some (overwrite v.bytes b)) :=
        if_pos (Nat.le_trans hb (Nat.le_of_eq v.size_eq.symm))
      rw [hcopy]
      exact wp_ret.mpr (wp_ret.mpr (get_loaded (KVDB.flashdb part kv) default_val v hb))
    · next hb =>
      -- The vector does not fit the buffer and is not copied.
      refine wp_ret.mpr (wp_ret.mpr ?_)
      dsimp only
      rw [read_unloaded]
      have hne : b.length ≠ n := fun h => hb (Nat.le_of_eq h)
      exact wp_ret.mpr (typed_default default_val hne).symm

/-! ## Runs that end -/

/-- Flashdb has an answer to every question about a key. -/
theorem exists_answer {R : Type} (w : World) (db : Option Db) (key : Key) (f : Bytes → R) (r : R) :
    ∃ err r, (∀ v, w.Value db key (some v) → err = .noErr ∧ r = f v) ∧
      (w.Value db key none → err ≠ FdbErr.noErr) := by
  by_cases h : ∃ v, w.Value db key (some v)
  · obtain ⟨v, hv⟩ := h
    refine ⟨.noErr, f v, fun v' hv' => ?_, fun hnone => ?_⟩
    · obtain rfl := Option.some.inj (hv.unique hv')
      exact ⟨rfl, rfl⟩
    · exact absurd (hv.unique hnone) (Option.some_ne_none v)
  · exact ⟨.readErr, r, fun v hv => absurd ⟨v, hv⟩ h, fun _ => FdbErr.noConfusion⟩

theorem exists_nvs_get_blob (w : World) (key : Key) (room : Nat) :
    ∃ r, stores w (.nvs_get_blob key (some room)) r w := by
  cases hstored : w.blobs key with
  | none =>
    refine ⟨none, ⟨rfl, fun _ v hv => ?_⟩, fun _ => rfl⟩
    exact absurd (hv.symm.trans hstored) (Option.some_ne_none v)
  | some b =>
    refine ⟨if b.length ≤ room then some ⟨b, b.length⟩ else none, ⟨rfl, fun _ v hv => ?_⟩, fun hnone => ?_⟩
    · obtain rfl := Option.some.inj (hstored.symm.trans hv)
      dsimp only
      split
      · rfl
      · rfl
    · exact absurd (hstored.symm.trans hnone) (Option.some_ne_none b)

theorem KVHandle.get_blob_ends (kv : KVHandle) (key : Key) (out : Bytes) (w : World) :
    Ends stores (kv.get_blob key out) w := by
  rw [get_blob]
  split
  · obtain ⟨err, len, hget⟩ := exists_answer w kv.m_kvdb key List.length 0
    have hasked : stores w (.fdb_kv_get kv.m_kvdb key) (err, len) w := ⟨⟨rfl, hget⟩, trivial⟩
    refine (Ends.perform hasked).bind fun r w' => ?_
    dsimp only
    split
    · exact .ret
    · obtain ⟨err, loaded, hget⟩ :=
        exists_answer w' kv.m_kvdb key (fun v => (⟨v.take r.2, v.length⟩ : Loaded)) ⟨[], 0⟩
      have hasked : stores w' (.fdb_kv_get_blob kv.m_kvdb key r.2) (err, loaded) w' := ⟨⟨rfl, hget⟩, trivial⟩
      refine (Ends.perform hasked).bind fun r w' => ?_
      split
      · exact .ret
      · exact .ret
  · exact .ret

theorem get_blob_into_ends (self : KVDB) (key : Key) (out : Bytes) (len : Nat) (w : World) :
    Ends stores (self.get_blob_into key (some out) len) w := by
  cases self with
  | nvs =>
    obtain ⟨r, hr⟩ := exists_nvs_get_blob w key len
    refine Ends.bind ((Ends.perform hr).bind fun r w' => ?_) fun _ _ => .ret
    cases r with
    | none => exact .ret
    | some loaded => exact .ret
  | flashdb part kv =>
    refine Ends.bind ((KVHandle.get_blob_ends kv key [] w).bind fun r w' => ?_) fun _ _ => .ret
    obtain ⟨found, tmp, kv'⟩ := r
    dsimp only
    split
    · split
      · exact Ends.ofOption.bind fun _ _ => .ret
      · exact .ret
    · exact .ret

theorem get_ends (self : KVDB) (key : Key) (default_val value : Buffer n) (w : World) :
    Ends stores (self.get key default_val value) w := by
  have hopen : Ends stores self.is_open w := by
    cases self with
    | nvs =>
      have hasked : stores w .nvs_is_open w.nvsOpen w := ⟨⟨rfl, rfl⟩, trivial⟩
      exact .perform hasked
    | flashdb part kv => exact .ret
  refine hopen.bind fun opened w' => ?_
  split
  · refine (get_blob_into_ends self key value.bytes n w').bind fun r w' => ?_
    refine Ends.ofOption.bind fun value w' => ?_
    split
    · split
      · exact .ret
      · exact .ret
    · exact .ret
  · exact .ret

end

/-- After any history of an open database, with either backend, `get` returns the bytes that are stored
last under the key where they are as many as the type has, and the default otherwise. -/
theorem get_history {n : Nat} (backend : Backend) (part : Part) (w₀ : World) (key : Key)
    (value : Option Bytes) (self : KVDB) (w : World)
    (h : History (.constructed backend part) w₀ key value self w)
    (hopen : Exec stores self.is_open w (.returned true) w) (default_val v : Buffer n) :
    wp stores NoFault (self.get key default_val v) (fun r _ => r.1 = typed value default_val) w ∧
      ∃ r w', Exec stores (self.get key default_val v) w (.returned r) w' := by
  obtain ⟨hsane, hholds⟩ := h.holds (constructed_sane backend part w₀)
  have hget : wp stores NoFault (self.get key default_val v)
      (fun r _ => r.1 = typed value default_val) w := by
    cases self with
    | nvs =>
      have hnvs : w.nvsOpen = true := by
        rcases hopen with ⟨hstop, -⟩ | ⟨b, _, hb, hret, -⟩
        · cases hstop
        · exact hb.1.2.symm.trans (Outcome.returned.inj hret).symm
      obtain rfl : w.blobs key = value := hholds
      exact nvs_get hnvs default_val v
    | flashdb part' kv =>
      have hinit : kv.m_initialized = true := (Outcome.returned.inj hopen.1).symm
      obtain ⟨id, hlive, hdb⟩ := hsane hinit
      exact flashdb_get hinit ⟨_, hdb, hlive, hholds⟩ default_val v
  obtain ⟨r, w', hexec, -⟩ := (get_ends self key default_val v w).returned hget fun _ hfault => hfault
  exact ⟨hget, r, w', hexec⟩

/-- Stores without values. -/
def emptyWorld : World := ⟨fun _ _ => none, [], [], false, fun _ => none⟩

/-- A value of two bytes that has been written to Flashdb. -/
theorem get_history_written :
    wp stores NoFault ((opened 0 0).get [107] (.zeroed 2) (.zeroed 2))
        (fun r _ => r.1 = typed (some [1, 2]) (.zeroed 2))
        ((emptyWorld.opened 0).put 0 [107] (some [1, 2])) ∧
      ∃ r w', Exec stores ((opened 0 0).get [107] (.zeroed 2) (.zeroed 2))
        ((emptyWorld.opened 0).put 0 [107] (some [1, 2])) (.returned r) w' := by
  have hopen : History (.constructed .flashdb 0) emptyWorld [107] none (opened 0 0) (emptyWorld.opened 0) :=
    History.other .open_ (.start rfl) id
      (Exec.call (r := some 0) ⟨⟨List.not_mem_nil, rfl⟩, trivial⟩ ⟨rfl, rfl⟩)
  have hwrite : Exec stores ((opened 0 0).set_blob [107] (some [1, 2])) (emptyWorld.opened 0)
      (.returned (true, opened 0 0)) ((emptyWorld.opened 0).put 0 [107] (some [1, 2])) :=
    Exec.call (r := FdbErr.noErr) ⟨World.put_step List.mem_cons_self nofun, trivial⟩ ⟨rfl, rfl⟩
  exact get_history .flashdb 0 emptyWorld [107] (some [1, 2]) (opened 0 0) _
    (hopen.write (some [1, 2]) hwrite) ⟨rfl, rfl⟩ (.zeroed 2) (.zeroed 2)

end Kv
