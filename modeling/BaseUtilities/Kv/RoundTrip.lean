import BaseUtilities.Kv.KVDB
import BaseUtilities.Effects.Session
import Mathlib.Algebra.Order.BigOperators.Group.List
import Mathlib.Algebra.Order.Group.Nat

/-!
# Blobs that are written and read back

What is assumed of Flashdb and of NVS, the calls of a user of `KVDB`, and when a blob that has been
written is what is read: with NVS always, and with Flashdb only where it has no bytes, since the
question for the length of any other is refused for want of a buffer.
-/

open Effects Mem

namespace Kv

/-! ## The stores -/

/-- The values on the partitions of the flash, the databases that are initialised, and the blobs of
the NVS namespace. -/
structure World where
  flash : Part → Key → Option Bytes
  used : List Nat
  live : List Nat
  nvsOpen : Bool
  blobs : Key → Option Bytes

namespace World

/-- At most the values `changes` of the flash are different. -/
structure Writes (w w' : World) (changes : Part → Key → Prop) : Prop where
  flash : ∀ part key, ¬changes part key → w'.flash part key = w.flash part key
  used : w'.used = w.used
  live : w'.live = w.live
  nvsOpen : w'.nvsOpen = w.nvsOpen
  blobs : w'.blobs = w.blobs

/-- At most the blobs `changes` are different. -/
structure NvsWrites (w w' : World) (changes : Key → Prop) : Prop where
  blobs : ∀ key, ¬changes key → w'.blobs key = w.blobs key
  flash : w'.flash = w.flash
  used : w'.used = w.used
  live : w'.live = w.live
  nvsOpen : w'.nvsOpen = w.nvsOpen

/-- The value of a key in a database that is initialised. -/
def Value (w : World) (db : Option Db) (key : Key) (value : Option Bytes) : Prop :=
  ∃ d ∈ db, d.id ∈ w.live ∧ w.flash d.part key = value

theorem Value.unique {w : World} {db : Option Db} {key : Key} {v v' : Option Bytes} (h : w.Value db key v)
    (h' : w.Value db key v') : v = v' := by
  obtain ⟨d, hd, -, hv⟩ := h
  obtain ⟨d', hd', -, hv'⟩ := h'
  obtain rfl := Option.some.inj (hd.symm.trans hd')
  exact hv.symm.trans hv'

/-- The assumptions on the stores.  Flashdb stores, loads and deletes; a null value deletes, where
there is something to delete.  NVS tells the length of a blob that it has no buffer for, and refuses
a buffer that is too small. -/
def Step (w : World) : KvEvent → World → Prop
  | ⟨.fdb_kvdb_init _, some id⟩, w' =>
    id ∉ w.used ∧ w' = { w with used := id :: w.used, live := id :: w.live }
  | ⟨.fdb_kvdb_init _, none⟩, w' => w' = w
  | ⟨.fdb_kvdb_deinit db, _⟩, w' => w' = { w with live := w.live.filter fun id => db.all (·.id ≠ id) }
  | ⟨.fdb_kv_find _ _, _⟩, w' => w' = w
  -- A read finds what is stored under its key, if it is known, and changes nothing.
  | ⟨.fdb_kv_get db key, err, len⟩, w' => w' = w ∧
    (∀ v, w.Value db key (some v) → err = .noErr ∧ len = v.length) ∧
    (w.Value db key none → err ≠ .noErr)
  | ⟨.fdb_kv_get_blob db key len, err, loaded⟩, w' => w' = w ∧
    (∀ v, w.Value db key (some v) → err = .noErr ∧ loaded = ⟨v.take len, v.length⟩) ∧
    (w.Value db key none → err ≠ .noErr)
  -- A write may touch its own key only; when it succeeds, that key has the new value.
  | ⟨.fdb_kv_set_blob db key data, err⟩, w' =>
    w.Writes w' (fun part k => ∃ d ∈ db, part = d.part ∧ k = key) ∧
    (err = .noErr → w'.Value db key data ∧ (data = none → ¬w.Value db key none))
  | ⟨.fdb_kv_del db key, err⟩, w' =>
    w.Writes w' (fun part k => ∃ d ∈ db, part = d.part ∧ k = key) ∧
    (err = .noErr → w'.Value db key none)
  | ⟨.fdb_kvdb_clean db, _⟩, w' => w.Writes w' fun part _ => ∃ d ∈ db, part = d.part
  -- NVS has one partition, open or not.
  | ⟨.nvs_open, b⟩, w' => w' = { w with nvsOpen := b || w.nvsOpen }
  | ⟨.nvs_close, _⟩, w' => w' = { w with nvsOpen := false }
  | ⟨.nvs_is_open, b⟩, w' => w' = w ∧ b = w.nvsOpen
  | ⟨.nvs_erase key, _⟩, w' => w.NvsWrites w' (· = key)
  | ⟨.nvs_erase_all, _⟩, w' => w.NvsWrites w' fun _ => True
  | ⟨.nvs_set_i32 key _, _⟩, w' => w.NvsWrites w' (· = key)
  | ⟨.nvs_set_u32 key _, _⟩, w' => w.NvsWrites w' (· = key)
  | ⟨.nvs_set_u8 key _, _⟩, w' => w.NvsWrites w' (· = key)
  | ⟨.nvs_set_string key _, _⟩, w' => w.NvsWrites w' (· = key)
  | ⟨.nvs_set_blob key data, ok⟩, w' => w.NvsWrites w' (· = key) ∧
    (ok = true → w'.blobs key = some (data.getD []))
  -- Without room NVS tells the length; with too little room it fails.
  | ⟨.nvs_get_blob key room, loaded⟩, w' => w' = w ∧
    (w.nvsOpen = true → ∀ v, w.blobs key = some v →
      match room with
      | none => loaded = some ⟨[], v.length⟩
      | some n => if v.length ≤ n then loaded = some ⟨v, v.length⟩ else loaded = none)
  | _, w' => w' = w

end World

def store : Env Op Op.Res World := fun w op r w' => w.Step ⟨op, r⟩ w'

/-- No run comes to undefined behaviour. -/
def NoFault : Stop Op → World → Prop
  | .fault, _ => False
  | .asking _, _ => True

/-! ## The calls -/

/-- The calls of a user of `KVDB`. -/
inductive Call where
  | open_
  | close
  | commit
  | has (key : Key)
  | erase (key : Key)
  | erase_all
  | set_i32 (key : Key) (value : Int32)
  | get_i32 (key : Key) (default_val : Int32)
  | set_u32 (key : Key) (value : UInt32)
  | get_u32 (key : Key) (default_val : UInt32)
  | set_u8 (key : Key) (value : UInt8)
  | get_u8 (key : Key) (default_val : UInt8)
  | set_bool (key : Key) (value : Bool)
  | get_bool (key : Key) (default_val : Bool)
  | set_string (key : Key) (value : Option Bytes)
  | get_string (key : Key) (default_val : Bytes)
  | set_blob (key : Key) (data : Option Bytes)
  | get_blob (key : Key) (out : Bytes)
  deriving DecidableEq

/-- The database after a call that also answers. -/
def after {α : Type} (call : Code (α × KVDB)) : Code KVDB := do
  let (_, self) ← call
  return self

def Call.run (self : KVDB) : Call → Code KVDB
  | .open_ => after self.open_
  | .close => self.close
  | .commit => after self.commit
  | .has key => do
    let _ ← self.has key
    return self
  | .erase key => after (self.erase key)
  | .erase_all => after self.erase_all
  | .set_i32 key value => after (self.set_i32 key value)
  | .get_i32 key default_val => after (self.get_i32 key default_val)
  | .set_u32 key value => after (self.set_u32 key value)
  | .get_u32 key default_val => after (self.get_u32 key default_val)
  | .set_u8 key value => after (self.set_u8 key value)
  | .get_u8 key default_val => after (self.get_u8 key default_val)
  | .set_bool key value => after (self.set_bool key value)
  | .get_bool key default_val => after (self.get_bool key default_val)
  | .set_string key value => after (self.set_string key value)
  | .get_string key default_val => after (self.get_string key default_val)
  | .set_blob key data => after (self.set_blob key data)
  | .get_blob key out => after (self.get_blob key out)

/-- The calls that write, erase or clear a key. -/
def Call.Writes : Call → Key → Prop
  | .erase k, key => k = key
  | .erase_all, _ => True
  | .set_i32 k _, key => k = key
  | .set_u32 k _, key => k = key
  | .set_u8 k _, key => k = key
  | .set_bool k _, key => k = key
  | .set_string k _, key => k = key
  | .set_blob k _, key => k = key
  | _, _ => False

/-- A user that makes calls as `may` says. -/
def user (may : Call → Prop) : Session Op Op.Res Call KVDB World where
  run c self := c.run self
  may _ _ c := may c

/-- A blob that is written to an open database and neither written again nor erased is read back,
whatever else the user has called before and calls in between. -/
def RoundTrip (db : KVDB) (w : World) (key : Key) (data : Option Bytes) : Prop :=
  ∀ s w₁, (user fun _ => True).Reaches store db w s w₁ →
    Exec store s.is_open w₁ (.returned true) w₁ →
  ∀ s₁ w₂, Exec store (s.set_blob key data) w₁ (.returned (true, s₁)) w₂ →
  ∀ s₂ w₃, (user fun c => ¬c.Writes key).Reaches store s₁ w₂ s₂ w₃ →
    Exec store s₂.is_open w₃ (.returned true) w₃ →
  ∀ out, wp store NoFault (s₂.get_blob key out) (fun r _ => r.1 = (true, data.getD [])) w₃

/-! ## What a call leaves alone -/

/-- The calls to the stores that write, erase or clear a key. -/
def Op.Writes : Op → Key → Prop
  | .fdb_kv_set_blob _ k _, key => k = key
  | .fdb_kv_del _ k, key => k = key
  | .fdb_kvdb_clean _, _ => True
  | .nvs_erase k, key => k = key
  | .nvs_erase_all, _ => True
  | .nvs_set_i32 k _, key => k = key
  | .nvs_set_u32 k _, key => k = key
  | .nvs_set_u8 k _, key => k = key
  | .nvs_set_string k _, key => k = key
  | .nvs_set_blob k _, key => k = key
  | _, _ => False

/-- The calls that initialise a database or end it. -/
def Op.Reopens : Op → Prop
  | .fdb_kvdb_init _ => True
  | .fdb_kvdb_deinit _ => True
  | _ => False

def Call.Reopens : Call → Prop
  | .open_ => True
  | .close => True
  | _ => False

/-- A call writes what it says, and only `open` and `close` initialise and end. -/
def Within {W : Type} (c : Call) : Stop Op → W → Prop
  | .asking op, _ => (∀ key, op.Writes key → c.Writes key) ∧ (op.Reopens → c.Reopens)
  | .fault, _ => True

/-- The same database is held. -/
def KVHandle.Same (kv kv' : KVHandle) : Prop :=
  kv'.m_kvdb = kv.m_kvdb ∧ kv'.m_initialized = kv.m_initialized

/-- The same store is behind the interface. -/
def KVDB.Same : KVDB → KVDB → Prop
  | .nvs, .nvs => True
  | .flashdb part _, .flashdb part' _ => part' = part
  | _, _ => False

/-- The same database is held by the same store. -/
def KVDB.SameHandle : KVDB → KVDB → Prop
  | .nvs, .nvs => True
  | .flashdb part kv, .flashdb part' kv' => part' = part ∧ kv.Same kv'
  | _, _ => False

section

variable {W : Type} {E : Env Op Op.Res W} {ok : Stop Op → W → Prop} {w : W}

/-- A call of a store, whatever it answers. -/
theorem wp_any {α : Type} {op : Op} {f : Op.Res op → Code α} {Q : α → W → Prop}
    (hask : ok (.asking op) w) (h : ∀ r w', wp E ok (f r) Q w') :
    wp E ok (Prog.perform op >>= f) Q w :=
  wp_ask hask fun r w' _ => h r w'

namespace KVHandle

variable {kv : KVHandle}

theorem has_same {key : Key} {Q : Bool → W → Prop}
    (hask : ∀ w, ok (.asking (.fdb_kv_find kv.m_kvdb key)) w) (hQ : ∀ b w, Q b w) :
    wp E ok (kv.has key) Q w := by
  rw [has]
  split
  · exact wp_any (hask w) fun _ _ => wp_ret.mpr (hQ _ _)
  · exact wp_ret.mpr (hQ _ _)

theorem erase_same {key : Key} (hask : ∀ w, ok (.asking (.fdb_kv_del kv.m_kvdb key)) w) :
    wp E ok (kv.erase key) (fun r _ => kv.Same r.2) w := by
  rw [erase]
  split
  · exact wp_any (hask w) fun _ _ => wp_ret.mpr ⟨rfl, rfl⟩
  · exact wp_ret.mpr ⟨rfl, rfl⟩

theorem clear_same (hask : ∀ w, ok (.asking (.fdb_kvdb_clean kv.m_kvdb)) w) :
    wp E ok kv.clear (fun r _ => kv.Same r.2) w := by
  rw [clear]
  split
  · exact wp_any (hask w) fun _ _ => wp_ret.mpr ⟨rfl, rfl⟩
  · exact wp_ret.mpr ⟨rfl, rfl⟩

theorem set_blob_same {key : Key} {data : Option Bytes}
    (hask : ∀ w, ok (.asking (.fdb_kv_set_blob kv.m_kvdb key data)) w) :
    wp E ok (kv.set_blob key data) (fun r _ => kv.Same r.2) w := by
  rw [set_blob]
  split
  · exact wp_any (hask w) fun _ _ => wp_ret.mpr ⟨rfl, rfl⟩
  · exact wp_ret.mpr ⟨rfl, rfl⟩

theorem get_scalar_same {key : Key} {size : Nat}
    (hask : ∀ w, ok (.asking (.fdb_kv_get_blob kv.m_kvdb key size)) w) :
    wp E ok (kv.get_scalar key size) (fun r _ => kv.Same r.2) w := by
  refine wp_any (hask w) fun r w' => ?_
  dsimp only
  split
  · exact wp_ret.mpr ⟨rfl, rfl⟩
  · exact wp_ret.mpr ⟨rfl, rfl⟩

theorem get_i32_same {key : Key} {default_val : Int32}
    (hask : ∀ w, ok (.asking (.fdb_kv_get_blob kv.m_kvdb key 4)) w) :
    wp E ok (kv.get_i32 key default_val) (fun r _ => kv.Same r.2) w := by
  rw [get_i32]
  split
  · exact (get_scalar_same hask).bind fun _ _ hr => wp_ret.mpr hr
  · exact wp_ret.mpr ⟨rfl, rfl⟩

theorem get_blob_same {key : Key} {out : Bytes}
    (hask : ∀ w, ok (.asking (.fdb_kv_get kv.m_kvdb key)) w)
    (hask' : ∀ len w, ok (.asking (.fdb_kv_get_blob kv.m_kvdb key len)) w) :
    wp E ok (kv.get_blob key out) (fun r _ => kv.Same r.2.2) w := by
  rw [get_blob]
  split
  · refine wp_any (hask w) fun r w' => ?_
    dsimp only
    split
    · exact wp_ret.mpr ⟨rfl, rfl⟩
    · refine wp_any (hask' r.2 w') fun r w' => ?_
      split
      · exact wp_ret.mpr ⟨rfl, rfl⟩
      · exact wp_ret.mpr ⟨rfl, rfl⟩
  · exact wp_ret.mpr ⟨rfl, rfl⟩

theorem get_string_same {key : Key} {default_val : Bytes}
    (hask : ∀ w, ok (.asking (.fdb_kv_get kv.m_kvdb key)) w)
    (hask' : ∀ len w, ok (.asking (.fdb_kv_get_blob kv.m_kvdb key len)) w) :
    wp E ok (kv.get_string key default_val) (fun r _ => kv.Same r.2) w :=
  (get_blob_same hask hask').bind fun _ _ hr => wp_ret.mpr hr

end KVHandle

namespace KVDB

theorem via_same {α : Type} {m_part : Part} {m_kv : KVHandle} {call : Code (α × KVHandle)}
    (h : wp E ok call (fun r _ => m_kv.Same r.2) w) :
    wp E ok (via m_part call) (fun r _ => (flashdb m_part m_kv).SameHandle r.2) w :=
  h.bind fun _ _ hr => wp_ret.mpr ⟨rfl, hr⟩

theorem nvsCall_same {α : Type} {call : Code α} (h : wp E ok call (fun _ _ => True) w) :
    wp E ok (nvsCall call) (fun r _ => KVDB.nvs.SameHandle r.2) w :=
  h.bind fun _ _ _ => wp_ret.mpr trivial

theorem nvs_same {op : Op} (hask : ok (.asking op) w) :
    wp E ok (nvsCall (Prog.perform op)) (fun r _ => KVDB.nvs.SameHandle r.2) w :=
  nvsCall_same (wp_perform.mpr ⟨hask, fun _ _ _ => trivial⟩)

theorem get_blob_into_same {key : Key} {out : Option Bytes} {len : Nat} (self : KVDB)
    (hask : ∀ op w, (∀ k, ¬op.Writes k) → ¬op.Reopens → ok (.asking op) w) (hfault : ∀ w, ok .fault w) :
    wp E ok (self.get_blob_into key out len) (fun r _ => self.SameHandle r.2) w := by
  cases self with
  | nvs =>
    refine nvsCall_same (wp_any (hask _ _ (fun _ h => h) fun h => h) fun loaded w' => ?_)
    cases loaded with
    | none => exact wp_ret.mpr trivial
    | some loaded => exact wp_ret.mpr trivial
  | flashdb m_part m_kv =>
    have hget : wp E ok (m_kv.get_blob key []) (fun r _ => m_kv.Same r.2.2) w :=
      KVHandle.get_blob_same (fun w => hask _ w (fun _ h => h) fun h => h)
        fun _ w => hask _ w (fun _ h => h) fun h => h
    refine via_same (hget.bind fun r w' hr => ?_)
    obtain ⟨found, tmp, m_kv'⟩ := r
    dsimp only
    split
    · split
      · refine wp_bind.mpr (wp_ofOption.mpr ⟨fun _ => hfault w', fun _ _ => ?_⟩)
        exact wp_ret.mpr hr
      · exact wp_ret.mpr hr
    · exact wp_ret.mpr hr

theorem SameHandle.trans {a b c : KVDB} (h : a.SameHandle b) (h' : b.SameHandle c) : a.SameHandle c := by
  cases a with
  | nvs =>
    cases b with
    | nvs => exact h'
    | flashdb _ _ => cases h
  | flashdb part kv =>
    cases b with
    | nvs => cases h
    | flashdb part' kv' =>
      cases c with
      | nvs => cases h'
      | flashdb part'' kv'' =>
        exact ⟨h'.1.trans h.1, h'.2.1.trans h.2.1, h'.2.2.trans h.2.2⟩

theorem get_blob_same {key : Key} {out : Bytes} (self : KVDB)
    (hask : ∀ op w, (∀ k, ¬op.Writes k) → ¬op.Reopens → ok (.asking op) w) (hfault : ∀ w, ok .fault w) :
    wp E ok (self.get_blob key out) (fun r _ => self.SameHandle r.2) w := by
  refine (get_blob_into_same self hask hfault).bind fun r w' hr => ?_
  obtain ⟨fetched, self'⟩ := r
  dsimp only
  split
  · refine (get_blob_into_same self' hask hfault).bind fun r w'' hr' => ?_
    exact wp_ret.mpr (hr.trans hr')
  · exact wp_ret.mpr hr

end KVDB

theorem after_same {α : Type} {self : KVDB} {call : Code (α × KVDB)}
    (h : wp E ok call (fun r _ => self.SameHandle r.2) w) :
    wp E ok (after call) (fun self' _ => self.SameHandle self') w :=
  h.bind fun _ _ hr => wp_ret.mpr hr

end

theorem KVDB.SameHandle.refl (self : KVDB) : self.SameHandle self := by
  cases self with
  | nvs => trivial
  | flashdb part kv => exact ⟨rfl, rfl, rfl⟩

/-- A call other than `open` and `close` goes to the database that is held, and writes what it says. -/
theorem run_within {W : Type} {E : Env Op Op.Res W} {w : W} {c : Call} (hopens : ¬c.Reopens)
    (self : KVDB) : wp E (Within c) (c.run self) (fun self' _ => self.SameHandle self') w := by
  have hread : ∀ op (w : W), (∀ k, ¬op.Writes k) → ¬op.Reopens → Within c (.asking op) w :=
    fun op w hw hr => ⟨fun k h => absurd h (hw k), fun h => absurd h hr⟩
  have hsilent : ∀ op (w : W), op.Writes = (fun _ => False) → op.Reopens = False → Within c (.asking op) w :=
    fun op w hw hr => hread op w (fun k h => (hw ▸ h : (fun _ => False) k)) fun h => hr ▸ h
  cases c with
  | open_ => exact absurd trivial hopens
  | close => exact absurd trivial hopens
  | commit =>
    cases self with
    | nvs => exact after_same (KVDB.nvs_same (hsilent _ _ rfl rfl))
    | flashdb part kv => exact after_same (wp_ret.mpr (.refl _))
  | has key =>
    cases self with
    | nvs => exact wp_any (hsilent _ _ rfl rfl) fun _ _ => wp_ret.mpr trivial
    | flashdb part kv =>
      exact wp_bind.mpr (KVHandle.has_same (fun w => hsilent _ w rfl rfl) fun _ _ => wp_ret.mpr (.refl _))
  | erase key =>
    cases self with
    | nvs => exact after_same (KVDB.nvs_same ⟨fun _ h => h, False.elim⟩)
    | flashdb part kv =>
      exact after_same (KVDB.via_same (KVHandle.erase_same fun _ => ⟨fun _ h => h, False.elim⟩))
  | erase_all =>
    cases self with
    | nvs => exact after_same (KVDB.nvs_same ⟨fun _ h => h, False.elim⟩)
    | flashdb part kv =>
      exact after_same (KVDB.via_same (KVHandle.clear_same fun _ => ⟨fun _ h => h, False.elim⟩))
  | get_i32 key default_val =>
    cases self with
    | nvs => exact after_same (KVDB.nvs_same (hsilent _ _ rfl rfl))
    | flashdb part kv =>
      exact after_same (KVDB.via_same (KVHandle.get_i32_same fun w => hsilent _ w rfl rfl))
  | get_u32 key default_val =>
    cases self with
    | nvs => exact after_same (KVDB.nvs_same (hsilent _ _ rfl rfl))
    | flashdb part kv =>
      have hget := fun w => hsilent (.fdb_kv_get_blob kv.m_kvdb key 4) w rfl rfl
      exact after_same (KVDB.via_same ((KVHandle.get_scalar_same hget).bind fun _ _ hr => wp_ret.mpr hr))
  | get_u8 key default_val =>
    cases self with
    | nvs => exact after_same (KVDB.nvs_same (hsilent _ _ rfl rfl))
    | flashdb part kv =>
      have hget := fun w => hsilent (.fdb_kv_get_blob kv.m_kvdb key 1) w rfl rfl
      exact after_same (KVDB.via_same ((KVHandle.get_scalar_same hget).bind fun _ _ hr => wp_ret.mpr hr))
  | get_bool key default_val =>
    cases self with
    | nvs =>
      exact after_same (KVDB.nvsCall_same (wp_any (hsilent _ _ rfl rfl) fun _ _ => wp_ret.mpr trivial))
    | flashdb part kv =>
      have hget := fun w => hsilent (.fdb_kv_get_blob kv.m_kvdb key 1) w rfl rfl
      exact after_same (KVDB.via_same ((KVHandle.get_scalar_same hget).bind fun _ _ hr => wp_ret.mpr hr))
  | get_string key default_val =>
    cases self with
    | nvs => exact after_same (KVDB.nvs_same (hsilent _ _ rfl rfl))
    | flashdb part kv =>
      exact after_same (KVDB.via_same (KVHandle.get_string_same (fun w => hsilent _ w rfl rfl)
        fun _ w => hsilent _ w rfl rfl))
  | get_blob key out => exact after_same (self.get_blob_same hread fun _ => trivial)
  | _ =>
    -- the setters
    cases self with
    | nvs => exact after_same (KVDB.nvs_same ⟨fun _ h => h, False.elim⟩)
    | flashdb part kv =>
      exact after_same (KVDB.via_same (KVHandle.set_blob_same fun _ => ⟨fun _ h => h, False.elim⟩))

theorem KVDB.SameHandle.same {self self' : KVDB} (h : self.SameHandle self') : self.Same self' := by
  cases self with
  | nvs =>
    cases self' with
    | nvs => trivial
    | flashdb _ _ => cases h
  | flashdb part kv =>
    cases self' with
    | nvs => cases h
    | flashdb part' kv' => exact h.1

theorem KVDB.Same.refl (self : KVDB) : self.Same self := by
  cases self with
  | nvs => trivial
  | flashdb part kv => rfl

theorem KVDB.Same.trans {a b c : KVDB} (h : a.Same b) (h' : b.Same c) : a.Same c := by
  cases a with
  | nvs =>
    cases b with
    | nvs => exact h'
    | flashdb _ _ => cases h
  | flashdb part kv =>
    cases b with
    | nvs => cases h
    | flashdb part' kv' =>
      cases c with
      | nvs => cases h'
      | flashdb part'' kv'' => exact Eq.trans h' h

/-- Every call leaves the store behind the interface, and writes what it says. -/
theorem run_same {W : Type} {E : Env Op Op.Res W} {w : W} {c : Call} (self : KVDB) :
    wp E (Within c) (c.run self) (fun self' _ => self.Same self') w := by
  -- Only opening and closing change the handle; the backend and the partition stay.
  by_cases hopens : c.Reopens
  · have hask : ∀ op (w : W), op.Writes = (fun _ => False) → Within c (.asking op) w :=
      fun op w hw => ⟨fun k h => absurd (hw ▸ h : (fun _ => False) k) id, fun _ => hopens⟩
    -- Calls that open write no key.
    cases c with
    | open_ =>
      cases self with
      | nvs =>
        have hopen : wp E (Within .open_) KVDB.nvs.open_ (fun r _ => KVDB.nvs.Same r.2) w :=
          wp_any (hask _ _ rfl) fun _ _ => wp_ret.mpr trivial
        exact hopen.bind fun _ _ hr => wp_ret.mpr hr
      | flashdb part kv =>
        have hopen : wp E (Within .open_) (KVDB.flashdb part kv).open_
            (fun r _ => (KVDB.flashdb part kv).Same r.2) w := by
          rw [KVDB.open_, KVDB.via, KVHandle.init]
          split
          · exact wp_bind.mpr (wp_ret.mpr (wp_ret.mpr rfl))
          · refine wp_bind.mpr (wp_any (hask _ _ rfl) fun db w' => ?_)
            cases db with
            | none => exact wp_ret.mpr (wp_ret.mpr rfl)
            | some id => exact wp_ret.mpr (wp_ret.mpr rfl)
        exact hopen.bind fun _ _ hr => wp_ret.mpr hr
    | close =>
      cases self with
      | nvs => exact wp_any (hask _ _ rfl) fun _ _ => wp_ret.mpr trivial
      | flashdb part kv =>
        rw [Call.run, KVDB.close, KVHandle.deinit]
        split
        · exact wp_bind.mpr (wp_any (hask _ _ rfl) fun _ _ => wp_ret.mpr (wp_ret.mpr rfl))
        · exact wp_bind.mpr (wp_ret.mpr (wp_ret.mpr rfl))
    | _ => cases hopens
  · exact (run_within hopens self).mono fun _ _ h => h.same

namespace World

variable {w w' : World} {op : Op} {r : Op.Res op}

/-- A call of a store keeps the values that it does not write. -/
theorem Step.values (h : w.Step ⟨op, r⟩ w') {key : Key} (hno : ¬op.Writes key) (part : Part) :
    w'.flash part key = w.flash part key ∧ w'.blobs key = w.blobs key := by
  -- A write to one side leaves the other side alone, and its own side but for its key.
  have hflash : ∀ {changes : Part → Key → Prop}, w.Writes w' changes → ¬changes part key →
      w'.flash part key = w.flash part key ∧ w'.blobs key = w.blobs key :=
    fun hw hc => ⟨hw.flash part key hc, by rw [hw.blobs]⟩
  have hblobs : ∀ {changes : Key → Prop}, w.NvsWrites w' changes → ¬changes key →
      w'.flash part key = w.flash part key ∧ w'.blobs key = w.blobs key :=
    fun hw hc => ⟨by rw [hw.flash], hw.blobs key hc⟩
  -- One case for each call; those that erase everything are excluded by `hno`.
  cases op with
  | fdb_kvdb_init part' =>
    cases r with
    | none => obtain rfl : w' = w := h; exact ⟨rfl, rfl⟩
    | some id => obtain ⟨-, rfl⟩ := h; exact ⟨rfl, rfl⟩
  | fdb_kvdb_deinit db => obtain rfl := h; exact ⟨rfl, rfl⟩
  | fdb_kv_get db k => obtain ⟨rfl, -⟩ := h; exact ⟨rfl, rfl⟩
  | fdb_kv_get_blob db k len => obtain ⟨rfl, -⟩ := h; exact ⟨rfl, rfl⟩
  | fdb_kv_set_blob db k data => exact hflash h.1 fun ⟨_, _, _, hk⟩ => hno hk.symm
  | fdb_kv_del db k => exact hflash h.1 fun ⟨_, _, _, hk⟩ => hno hk.symm
  | fdb_kvdb_clean db => exact absurd trivial hno
  | nvs_open => obtain rfl := h; exact ⟨rfl, rfl⟩
  | nvs_close => obtain rfl := h; exact ⟨rfl, rfl⟩
  | nvs_is_open => obtain ⟨rfl, -⟩ := h; exact ⟨rfl, rfl⟩
  | nvs_erase k => exact hblobs h fun hk => hno hk.symm
  | nvs_erase_all => exact absurd trivial hno
  | nvs_set_i32 k value => exact hblobs h fun hk => hno hk.symm
  | nvs_set_u32 k value => exact hblobs h fun hk => hno hk.symm
  | nvs_set_u8 k value => exact hblobs h fun hk => hno hk.symm
  | nvs_set_string k value => exact hblobs h fun hk => hno hk.symm
  | nvs_set_blob k data => exact hblobs h.1 fun hk => hno hk.symm
  | nvs_get_blob k room => obtain ⟨rfl, -⟩ := h; exact ⟨rfl, rfl⟩
  | _ => obtain rfl : w' = w := h; exact ⟨rfl, rfl⟩

theorem Step.live (h : w.Step ⟨op, r⟩ w') (hno : ¬op.Reopens) : w'.live = w.live := by
  cases op with
  | fdb_kvdb_init part => exact absurd trivial hno
  | fdb_kvdb_deinit db => exact absurd trivial hno
  | fdb_kv_get db k => rw [h.1]
  | fdb_kv_get_blob db k len => rw [h.1]
  | fdb_kv_set_blob db k data => exact h.1.live
  | fdb_kv_del db k => exact h.1.live
  | fdb_kvdb_clean db => exact Writes.live h
  | nvs_open => obtain rfl := h; rfl
  | nvs_close => obtain rfl := h; rfl
  | nvs_is_open => rw [h.1]
  | nvs_erase k => exact NvsWrites.live h
  | nvs_erase_all => exact NvsWrites.live h
  | nvs_set_i32 k value => exact NvsWrites.live h
  | nvs_set_u32 k value => exact NvsWrites.live h
  | nvs_set_u8 k value => exact NvsWrites.live h
  | nvs_set_string k value => exact NvsWrites.live h
  | nvs_set_blob k data => exact h.1.live
  | nvs_get_blob k room => rw [h.1]
  | _ => obtain rfl : w' = w := h; rfl

end World

/-! ## What a user can rely on -/

/-- A handle that is initialised holds a database of its partition. -/
def Sane : KVDB → World → Prop
  | .nvs, _ => True
  | .flashdb part kv, w =>
    kv.m_initialized = true → ∃ id ∈ w.live, kv.m_kvdb = some ⟨id, part⟩

/-- What the store behind the interface holds for a key. -/
def Holds (key : Key) (value : Option Bytes) : KVDB → World → Prop
  | .nvs, w => w.blobs key = value
  | .flashdb part _, w => w.flash part key = value

section

variable {self : KVDB} {w : World} {c : Call}

theorem open_sane (h : Sane self w) :
    wp store (fun _ _ => True) self.open_ (fun r w' => Sane r.2 w') w := by
  cases self with
  | nvs => exact wp_any trivial fun _ _ => wp_ret.mpr trivial
  | flashdb part kv =>
    rw [KVDB.open_, KVDB.via, KVHandle.init]
    split
    · exact wp_bind.mpr (wp_ret.mpr (wp_ret.mpr h))
    · next hinit =>
      refine wp_bind.mpr (wp_bind.mpr (wp_perform.mpr ⟨trivial, fun db w' hstep => ?_⟩))
      cases db with
      | none => exact wp_ret.mpr (wp_ret.mpr fun hi => absurd hi hinit)
      | some id =>
        obtain ⟨-, rfl⟩ : id ∉ w.used ∧ w' = _ := hstep
        exact wp_ret.mpr (wp_ret.mpr fun _ => ⟨id, List.mem_cons_self, rfl⟩)

theorem close_sane (h : Sane self w) : wp store (fun _ _ => True) self.close Sane w := by
  cases self with
  | nvs => exact wp_any trivial fun _ _ => wp_ret.mpr trivial
  | flashdb part kv =>
    rw [KVDB.close, KVHandle.deinit]
    split
    · exact wp_bind.mpr (wp_any trivial fun _ _ => wp_ret.mpr (wp_ret.mpr fun hi => nomatch hi))
    · exact wp_bind.mpr (wp_ret.mpr (wp_ret.mpr h))

theorem Sane.of_same {self' : KVDB} {w' : World} (h : Sane self w) (hsame : self.SameHandle self')
    (hlive : w'.live = w.live) : Sane self' w' := by
  cases self with
  | nvs =>
    cases self' with
    | nvs => trivial
    | flashdb _ _ => cases hsame
  | flashdb part kv =>
    cases self' with
    | nvs => cases hsame
    | flashdb part' kv' =>
      obtain ⟨rfl, hdb, hinit⟩ := hsame
      intro hi
      rw [hlive, hdb]
      exact h (hinit ▸ hi)

theorem run_sane (h : Sane self w) : wp store (fun _ _ => True) (c.run self) Sane w := by
  by_cases hopens : c.Reopens
  · cases c with
    | open_ => exact (open_sane h).bind fun _ _ hr => wp_ret.mpr hr
    | close => exact close_sane h
    | _ => cases hopens
  · have hkeep : wp store (Within c) (c.run self)
        (fun self' w' => self.SameHandle self' ∧ w'.live = w.live) w := by
      refine (run_within hopens self).keep (fun w₁ op r w' hask hlive hstep => ?_) rfl
      exact (World.Step.live hstep fun hr => hopens (hask.2 hr)).trans hlive
    exact (hkeep.weaken fun _ _ _ => trivial).mono fun _ _ hr => h.of_same hr.1 hr.2

theorem Holds.of_same {self' : KVDB} {w' : World} {key : Key} {value : Option Bytes}
    (h : Holds key value self w) (hsame : self.Same self')
    (hvalues : ∀ part, w'.flash part key = w.flash part key ∧ w'.blobs key = w.blobs key) :
    Holds key value self' w' := by
  cases self with
  | nvs =>
    cases self' with
    | nvs => exact (hvalues 0).2.trans h
    | flashdb _ _ => cases hsame
  | flashdb part kv =>
    cases self' with
    | nvs => cases hsame
    | flashdb part' kv' =>
      obtain rfl : part' = part := hsame
      exact (hvalues part').1.trans h

theorem run_holds {key : Key} {value : Option Bytes} (hno : ¬c.Writes key) (h : Holds key value self w) :
    wp store (fun _ _ => True) (c.run self) (Holds key value) w := by
  have hkeep : wp store (Within c) (c.run self) (fun self' w' => self.Same self' ∧
      ∀ part, w'.flash part key = w.flash part key ∧ w'.blobs key = w.blobs key) w := by
    refine (run_same self).keep (fun w₁ op r w' hask hvalues hstep part => ?_) fun _ => ⟨rfl, rfl⟩
    have hstep' := World.Step.values hstep (fun hw => hno (hask.1 key hw)) part
    exact ⟨hstep'.1.trans (hvalues part).1, hstep'.2.trans (hvalues part).2⟩
  exact (hkeep.weaken fun _ _ _ => trivial).mono fun _ _ hr => h.of_same hr.1 hr.2

/-! ## Reading back -/

/-- A user only comes to handles that hold a database of their partition. -/
theorem reaches_sane {may : Call → Prop} {self' : KVDB} {w' : World}
    (hreach : (user may).Reaches store self w self' w') (h : Sane self w) : Sane self' w' :=
  hreach.invariant Sane h fun _ _ _ hsane _ => run_sane hsane

theorem reaches_same {may : Call → Prop} {self' : KVDB} {w' : World}
    (hreach : (user may).Reaches store self w self' w') : self.Same self' :=
  hreach.invariant (fun self' _ => self.Same self') (.refl self)
    fun self' _ _ hsame _ =>
      ((run_same self').weaken fun _ _ _ => trivial).mono fun _ _ hsame' => hsame.trans hsame'

theorem reaches_holds {key : Key} {value : Option Bytes} {self' : KVDB} {w' : World}
    (hreach : (user fun c => ¬c.Writes key).Reaches store self w self' w')
    (h : Holds key value self w) : Holds key value self' w' :=
  hreach.invariant (Holds key value) h fun _ _ _ hholds hno => run_holds hno hholds

theorem constructed_sane (backend : Backend) (part : Part) (w : World) :
    Sane (.constructed backend part) w := by
  cases backend with
  | nvs => trivial
  | flashdb => exact fun h => nomatch h

/-- What a store keeps of a blob: without an address, NVS keeps an empty one and Flashdb nothing. -/
def stored : KVDB → Option Bytes → Option Bytes
  | .nvs, data => some (data.getD [])
  | .flashdb _ _, data => data

theorem set_blob_holds {key : Key} {data : Option Bytes} {self' : KVDB} {w' : World} (hsane : Sane self w)
    (hset : Exec store (self.set_blob key data) w (.returned (true, self')) w') :
    Holds key (stored self data) self' w' := by
  cases self with
  | nvs =>
    have hspec : wp store (fun _ _ => True) (KVDB.nvs.set_blob key data)
        (fun r w' => r.1 = true → Holds key (some (data.getD [])) r.2 w') w :=
      wp_ask trivial fun r w' hstep => wp_ret.mpr hstep.2
    exact hspec.returned hset rfl
  | flashdb part kv =>
    have hspec : wp store (fun _ _ => True) ((KVDB.flashdb part kv).set_blob key data)
        (fun r w' => r.1 = true → Holds key data r.2 w') w := by
      rw [KVDB.set_blob, KVDB.via, KVHandle.set_blob]
      split
      · next hinit =>
        refine wp_bind.mpr (wp_ask trivial fun err w' hstep => wp_ret.mpr (wp_ret.mpr fun herr => ?_))
        obtain ⟨id, -, hdb⟩ := hsane hinit
        obtain ⟨d, hd, -, hvalue⟩ := (hstep.2 (by simpa using herr)).1
        obtain rfl : d = ⟨id, part⟩ := by simpa [hdb] using hd.symm
        exact hvalue
      · exact wp_bind.mpr (wp_ret.mpr (wp_ret.mpr fun h => nomatch h))
    exact hspec.returned hset rfl

end

theorem resize_length (v : Bytes) : resize v v.length = v := by
  rw [resize, List.take_length, Nat.sub_self, List.replicate_zero, List.append_nil]

/-- A value that fills the buffer is what the buffer holds. -/
theorem overwrite_resize (out v : Bytes) : overwrite (resize out v.length) v = v := by
  have hlen : (resize out v.length).length ≤ v.length := by
    rw [resize, List.length_append, List.length_take, List.length_replicate]
    omega
  rw [overwrite, List.drop_eq_nil_of_le hlen, List.append_nil]

/-- A blob in NVS is read in two steps, without a buffer and with one of its length. -/
theorem nvs_get_blob {w : World} {key : Key} {b out : Bytes} (hopen : w.nvsOpen = true)
    (hholds : w.blobs key = some b) :
    wp store NoFault (KVDB.nvs.get_blob key out) (fun r _ => r.1 = (true, b)) w := by
  have hquery : wp store NoFault (KVDB.nvs.get_blob_into key none 0)
      (fun r w' => r = (⟨true, none, b.length⟩, .nvs) ∧ w' = w) w := by
    refine wp_bind.mpr (wp_ask trivial fun loaded w' hstep => ?_)
    obtain rfl : loaded = some ⟨[], b.length⟩ := hstep.2 hopen b hholds
    exact wp_ret.mpr (wp_ret.mpr ⟨rfl, hstep.1⟩)
  have hload : wp store NoFault (KVDB.nvs.get_blob_into key (some (resize out b.length)) b.length)
      (fun r _ => r = (⟨true, some b, b.length⟩, .nvs)) w := by
    refine wp_bind.mpr (wp_ask trivial fun loaded w' hstep => ?_)
    have hloaded : if b.length ≤ b.length then loaded = some ⟨b, b.length⟩ else loaded = none :=
      hstep.2 hopen b hholds
    rw [if_pos (Nat.le_refl _)] at hloaded
    subst hloaded
    refine wp_ret.mpr (wp_ret.mpr ?_)
    rw [Option.map_some, overwrite_resize]
  refine hquery.bind ?_
  rintro _ _ ⟨rfl, rfl⟩
  refine hload.bind ?_
  rintro _ _ rfl
  exact wp_ret.mpr rfl

/-- A handle reads the value of a key. -/
theorem KVHandle.get_blob_value {kv : KVHandle} {w : World} {key : Key} {v out : Bytes}
    (hinit : kv.m_initialized = true) (hvalue : w.Value kv.m_kvdb key (some v)) :
    wp store NoFault (kv.get_blob key out) (fun r w' => r = (true, v, kv) ∧ w' = w) w := by
  rw [get_blob, if_pos hinit]
  refine wp_ask trivial fun r w' hstep => ?_
  obtain ⟨err, len⟩ := r
  obtain ⟨rfl, hfound, -⟩ := hstep
  obtain ⟨rfl, rfl⟩ := hfound v hvalue
  refine wp_ask trivial fun r w' hstep => ?_
  obtain ⟨err, loaded⟩ := r
  obtain ⟨rfl, hfound, -⟩ := hstep
  obtain ⟨rfl, rfl⟩ := hfound v hvalue
  refine wp_ret.mpr ⟨?_, rfl⟩
  rw [List.take_length, overwrite_resize, resize_length]

/-- An empty blob in Flashdb is read, whether there is a buffer or not. -/
theorem flashdb_get_blob_empty {part : Part} {kv : KVHandle} {w : World} {key : Key} {out : Bytes}
    (hinit : kv.m_initialized = true) (hvalue : w.Value kv.m_kvdb key (some [])) :
    wp store NoFault ((KVDB.flashdb part kv).get_blob key out) (fun r _ => r.1 = (true, [])) w := by
  have hfetch : ∀ room, wp store NoFault ((KVDB.flashdb part kv).get_blob_into key room 0)
      (fun r w' => r = (⟨true, room, 0⟩, .flashdb part kv) ∧ w' = w) w := by
    intro room
    have hmemcpy : KVDB.memcpy? room [] = some room := by
      cases room with
      | none => rfl
      | some o => rfl
    refine wp_bind.mpr ((KVHandle.get_blob_value hinit hvalue).bind ?_)
    rintro _ w' ⟨rfl, rfl⟩
    dsimp only [List.length_nil]
    rw [if_pos rfl, if_pos (Nat.le_refl 0), hmemcpy]
    exact wp_ret.mpr (wp_ret.mpr ⟨rfl, rfl⟩)
  refine (hfetch none).bind ?_
  rintro _ w' ⟨rfl, rfl⟩
  refine (hfetch _).bind ?_
  rintro _ w' ⟨rfl, rfl⟩
  refine wp_ret.mpr ?_
  rw [resize, List.take_zero, Nat.zero_sub]
  rfl

/-! ## Where a blob is not read back -/

namespace World

/-- After a database is initialised. -/
def opened (w : World) (id : Nat) : World := { w with used := id :: w.used, live := id :: w.live }

/-- After a value is written. -/
def put (w : World) (part : Part) (key : Key) (value : Option Bytes) : World :=
  { w with flash := fun p k => if p = part ∧ k = key then value else w.flash p k }

variable {w : World} {id : Nat} {part : Part} {key : Key} {value : Option Bytes}

theorem put_value (w : World) (part : Part) (key : Key) (value : Option Bytes) (hlive : id ∈ w.live) :
    (w.put part key value).Value (some ⟨id, part⟩) key value :=
  ⟨_, rfl, hlive, if_pos ⟨rfl, rfl⟩⟩

theorem put_step (hlive : id ∈ w.live) (hdeletes : value = none → w.flash part key ≠ none) :
    w.Step ⟨.fdb_kv_set_blob (some ⟨id, part⟩) key value, .noErr⟩ (w.put part key value) := by
  refine ⟨⟨fun p k hk => if_neg fun ⟨hp, hkey⟩ => hk ⟨_, rfl, hp, hkey⟩, rfl, rfl, rfl, rfl⟩,
    fun _ => ⟨put_value w part key value hlive, fun hnone => ?_⟩⟩
  rintro ⟨d, hd, -, hvalue⟩
  obtain rfl : d = ⟨id, part⟩ := by simpa using hd.symm
  exact hdeletes hnone hvalue

end World

section

variable {w : World} {id : Nat} {part : Part} {key : Key} {value : Option Bytes}

/-- A Flashdb store that has been opened. -/
def opened (id : Nat) (part : Part) : KVDB := .flashdb part ⟨some ⟨id, part⟩, true, .noErr⟩

theorem exec_open (hid : id ∉ w.used) :
    Exec store (KVDB.constructed .flashdb part).open_ w (.returned (true, opened id part)) (w.opened id) :=
  Exec.call (r := some id) ⟨hid, rfl⟩ ⟨rfl, rfl⟩

theorem exec_set_blob (w : World) (part : Part) (key : Key) (value : Option Bytes) (hlive : id ∈ w.live)
    (hdeletes : value = none → w.flash part key ≠ none) :
    Exec store ((opened id part).set_blob key value) w (.returned (true, opened id part))
      (w.put part key value) :=
  Exec.call (r := FdbErr.noErr) (World.put_step hlive hdeletes) ⟨rfl, rfl⟩

/-- A blob that has bytes is longer than no buffer has room for. -/
theorem exec_get_blob_bytes {byte : UInt8} {bytes : Bytes}
    (hvalue : w.Value (some ⟨id, part⟩) key (some (byte :: bytes))) :
    Exec store ((opened id part).get_blob key []) w (.returned ((false, []), opened id part)) w := by
  have hlen : w.Step ⟨.fdb_kv_get (some ⟨id, part⟩) key, .noErr, bytes.length + 1⟩ w :=
    ⟨rfl, fun v hv => ⟨rfl, congrArg List.length (Option.some.inj (hvalue.unique hv))⟩,
      fun hnone => nomatch hvalue.unique hnone⟩
  have hload : w.Step ⟨.fdb_kv_get_blob (some ⟨id, part⟩) key (bytes.length + 1), .noErr,
      ⟨byte :: bytes, bytes.length + 1⟩⟩ w := by
    refine ⟨rfl, fun v hv => ?_, fun hnone => nomatch hvalue.unique hnone⟩
    obtain rfl := Option.some.inj (hvalue.unique hv)
    exact ⟨rfl, by rw [← List.length_cons, List.take_length]⟩
  exact Exec.call hlen (Exec.call hload ⟨rfl, rfl⟩)

/-- A key that has been deleted is not found. -/
theorem exec_get_blob_null (hvalue : w.Value (some ⟨id, part⟩) key none) :
    ∃ s, Exec store ((opened id part).get_blob key []) w (.returned ((false, []), s)) w := by
  have hget : w.Step ⟨.fdb_kv_get (some ⟨id, part⟩) key, .readErr, 0⟩ w :=
    ⟨rfl, fun v hv => (Option.some_ne_none v (hv.unique hvalue)).elim, fun _ => FdbErr.noConfusion⟩
  exact ⟨_, Exec.call hget ⟨rfl, rfl⟩⟩

theorem exists_fresh (used : List Nat) : ∃ id, id ∉ used :=
  ⟨used.sum + 1, fun h => absurd (List.le_sum_of_mem h) (by omega)⟩

/-- A blob that has bytes is not read back from Flashdb. -/
theorem unread_bytes (part : Part) (w : World) (key : Key) (byte : UInt8) (bytes : Bytes) :
    ¬RoundTrip (.constructed .flashdb part) w key (some (byte :: bytes)) := by
  intro h
  obtain ⟨id, hid⟩ := exists_fresh w.used
  have hlive : id ∈ (w.opened id).live := List.mem_cons_self
  have hreach : (user fun _ => True).Reaches store (.constructed .flashdb part) w (opened id part)
      (w.opened id) :=
    Session.Reaches.start.step .open_ trivial ((exec_open hid).bind ⟨rfl, rfl⟩)
  have hset := exec_set_blob _ part key (some (byte :: bytes)) hlive nofun
  have hget := exec_get_blob_bytes (World.put_value _ part key (some (byte :: bytes)) hlive)
  have hread := (h _ _ hreach ⟨rfl, rfl⟩ _ _ hset _ _ .start ⟨rfl, rfl⟩ []).returned hget
  cases hread

/-- Nor is an empty blob behind a null pointer. -/
theorem unread_null (part : Part) (w : World) (key : Key) :
    ¬RoundTrip (.constructed .flashdb part) w key none := by
  intro h
  obtain ⟨id, hid⟩ := exists_fresh w.used
  have hlive : id ∈ (w.opened id).live := List.mem_cons_self
  have hset := exec_set_blob _ part key (some []) hlive nofun
  have hopen : (user fun _ => True).Reaches store (.constructed .flashdb part) w (opened id part)
      (w.opened id) :=
    Session.Reaches.start.step .open_ trivial ((exec_open hid).bind ⟨rfl, rfl⟩)
  have hreach : (user fun _ => True).Reaches store (.constructed .flashdb part) w (opened id part)
      ((w.opened id).put part key (some [])) :=
    hopen.step (.set_blob key (some [])) trivial (hset.bind ⟨rfl, rfl⟩)
  have hstored : ((w.opened id).put part key (some [])).flash part key = some [] := if_pos ⟨rfl, rfl⟩
  have hdelete := exec_set_blob ((w.opened id).put part key (some [])) part key none hlive fun _ hnone =>
    Option.some_ne_none [] (hstored.symm.trans hnone)
  obtain ⟨s, hget⟩ := exec_get_blob_null
    (World.put_value ((w.opened id).put part key (some [])) part key none hlive)
  have hread := (h _ _ hreach ⟨rfl, rfl⟩ _ _ hdelete _ _ .start ⟨rfl, rfl⟩ []).returned hget
  cases hread

end

/-! ## The round trip -/

end Kv
