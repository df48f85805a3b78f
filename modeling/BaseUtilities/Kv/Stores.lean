import BaseUtilities.Effects.Trace
import BaseUtilities.Memory.Buffer

/-!
# Key-value stores

The calls of Flashdb that `KVHandle.hpp` makes, and those of the NVS library and its handle that
`KVDB.hpp` makes.  A `fdb_kvdb_t` is the database that it holds; every initialisation makes a database
of its own.
-/

open Effects Mem

namespace Kv

abbrev Key := Bytes

/-- A partition of the flash. -/
abbrev Part := Nat

/-- An initialised database. -/
structure Db where
  id : Nat
  part : Part
  deriving DecidableEq, Repr

/-- `fdb_kv_t`: a pair, with the value that the handler of a pair is given. -/
structure Pair where
  key : Key
  value : Bytes
  deriving DecidableEq, Repr

/-- `fdb_err_t` -/
inductive FdbErr where
  | noErr
  | eraseErr
  | readErr
  | writeErr
  | partNotFound
  | kvNameErr
  | kvNameExist
  | savedFull
  | initFailed
  deriving DecidableEq, Repr

inductive Op where
  | fdb_kvdb_init (part : Part)
  | fdb_kvdb_deinit (db : Option Db)
  /-- `fdb_kv_get` for the pair of a key. -/
  | fdb_kv_find (db : Option Db) (key : Key)
  /-- `fdb_kv_get` without a value: the length. -/
  | fdb_kv_get (db : Option Db) (key : Key)
  /-- The value, into a buffer of `len` bytes. -/
  | fdb_kv_get_blob (db : Option Db) (key : Key) (len : Nat)
  /-- The value, from a pointer that may be null. -/
  | fdb_kv_set_blob (db : Option Db) (key : Key) (data : Option Bytes)
  | fdb_kv_del (db : Option Db) (key : Key)
  | fdb_kvdb_clean (db : Option Db)
  | fdb_kvdb_used_size (db : Option Db)
  /-- The member `size` of a partition. -/
  | part_size (part : Part)
  /-- `fdb_kvdb_control` for the first node. -/
  | fdb_kvdb_head (db : Option Db)
  | fdb_kv_get_node_kv (node : Nat)
  /-- The member `next` of a node. -/
  | node_next (node : Nat)
  /-- The user's function for a pair. -/
  | callback (kv : Pair)
  | nvs_open
  | nvs_close
  | nvs_commit
  | nvs_is_open
  | nvs_has (key : Key)
  | nvs_erase (key : Key)
  | nvs_erase_all
  | nvs_set_i32 (key : Key) (value : Int32)
  | nvs_get_i32 (key : Key) (default_val : Int32)
  | nvs_set_u32 (key : Key) (value : UInt32)
  | nvs_get_u32 (key : Key) (default_val : UInt32)
  | nvs_set_u8 (key : Key) (value : UInt8)
  | nvs_get_u8 (key : Key) (default_val : UInt8)
  | nvs_set_string (key : Key) (value : Bytes)
  | nvs_get_string (key : Key) (default_val : Bytes)
  | nvs_set_blob (key : Key) (data : Option Bytes)
  /-- The value, into a buffer of `len` bytes or without a buffer. -/
  | nvs_get_blob (key : Key) (room : Option Nat)
  deriving DecidableEq

/-- What is stored in a buffer, and the length of the value. -/
structure Loaded where
  data : Bytes
  len : Nat
  deriving DecidableEq, Repr

abbrev Op.Res : Op → Type
  | .fdb_kvdb_init _ => Option Nat
  | .fdb_kvdb_deinit _ => Unit
  | .fdb_kv_find _ _ => FdbErr
  | .fdb_kv_get _ _ => FdbErr × Nat
  | .fdb_kv_get_blob _ _ _ => FdbErr × Loaded
  | .fdb_kv_set_blob _ _ _ => FdbErr
  | .fdb_kv_del _ _ => FdbErr
  | .fdb_kvdb_clean _ => FdbErr
  | .fdb_kvdb_used_size _ => UInt32
  | .part_size _ => UInt32
  | .fdb_kvdb_head _ => Option Nat
  | .fdb_kv_get_node_kv _ => FdbErr × Pair
  | .node_next _ => Option Nat
  | .callback _ => Unit
  | .nvs_open => Bool
  | .nvs_close => Unit
  | .nvs_commit => Bool
  | .nvs_is_open => Bool
  | .nvs_has _ => Bool
  | .nvs_erase _ => Bool
  | .nvs_erase_all => Bool
  | .nvs_set_i32 _ _ => Bool
  | .nvs_get_i32 _ _ => Int32
  | .nvs_set_u32 _ _ => Bool
  | .nvs_get_u32 _ _ => UInt32
  | .nvs_set_u8 _ _ => Bool
  | .nvs_get_u8 _ _ => UInt8
  | .nvs_set_string _ _ => Bool
  | .nvs_get_string _ _ => Bytes
  | .nvs_set_blob _ _ => Bool
  | .nvs_get_blob _ _ => Option Loaded

abbrev Code (α : Type) := Prog Op Op.Res α

abbrev KvEvent := Event Op Op.Res

namespace Sys

abbrev fdb_kvdb_init (part : Part) : Code (Option Nat) := Prog.perform (Op.fdb_kvdb_init part)
abbrev fdb_kvdb_deinit (db : Option Db) : Code Unit := Prog.perform (Op.fdb_kvdb_deinit db)
abbrev fdb_kv_find (db : Option Db) (key : Key) : Code FdbErr := Prog.perform (Op.fdb_kv_find db key)
abbrev fdb_kv_get (db : Option Db) (key : Key) : Code (FdbErr × Nat) :=
  Prog.perform (Op.fdb_kv_get db key)
abbrev fdb_kv_get_blob (db : Option Db) (key : Key) (len : Nat) : Code (FdbErr × Loaded) :=
  Prog.perform (Op.fdb_kv_get_blob db key len)
abbrev fdb_kv_set_blob (db : Option Db) (key : Key) (data : Option Bytes) : Code FdbErr :=
  Prog.perform (Op.fdb_kv_set_blob db key data)
abbrev fdb_kv_del (db : Option Db) (key : Key) : Code FdbErr := Prog.perform (Op.fdb_kv_del db key)
abbrev fdb_kvdb_clean (db : Option Db) : Code FdbErr := Prog.perform (Op.fdb_kvdb_clean db)
abbrev fdb_kvdb_used_size (db : Option Db) : Code UInt32 := Prog.perform (Op.fdb_kvdb_used_size db)
abbrev part_size (part : Part) : Code UInt32 := Prog.perform (Op.part_size part)
abbrev fdb_kvdb_head (db : Option Db) : Code (Option Nat) := Prog.perform (Op.fdb_kvdb_head db)
abbrev fdb_kv_get_node_kv (node : Nat) : Code (FdbErr × Pair) := Prog.perform (Op.fdb_kv_get_node_kv node)
abbrev node_next (node : Nat) : Code (Option Nat) := Prog.perform (Op.node_next node)
abbrev callback (kv : Pair) : Code Unit := Prog.perform (Op.callback kv)
abbrev nvs_open : Code Bool := Prog.perform Op.nvs_open
abbrev nvs_close : Code Unit := Prog.perform Op.nvs_close
abbrev nvs_commit : Code Bool := Prog.perform Op.nvs_commit
abbrev nvs_is_open : Code Bool := Prog.perform Op.nvs_is_open
abbrev nvs_has (key : Key) : Code Bool := Prog.perform (Op.nvs_has key)
abbrev nvs_erase (key : Key) : Code Bool := Prog.perform (Op.nvs_erase key)
abbrev nvs_erase_all : Code Bool := Prog.perform Op.nvs_erase_all
abbrev nvs_set_i32 (key : Key) (value : Int32) : Code Bool := Prog.perform (Op.nvs_set_i32 key value)
abbrev nvs_get_i32 (key : Key) (default_val : Int32) : Code Int32 :=
  Prog.perform (Op.nvs_get_i32 key default_val)
abbrev nvs_set_u32 (key : Key) (value : UInt32) : Code Bool :=
  Prog.perform (Op.nvs_set_u32 key value)
abbrev nvs_get_u32 (key : Key) (default_val : UInt32) : Code UInt32 :=
  Prog.perform (Op.nvs_get_u32 key default_val)
abbrev nvs_set_u8 (key : Key) (value : UInt8) : Code Bool := Prog.perform (Op.nvs_set_u8 key value)
abbrev nvs_get_u8 (key : Key) (default_val : UInt8) : Code UInt8 :=
  Prog.perform (Op.nvs_get_u8 key default_val)
abbrev nvs_set_string (key : Key) (value : Bytes) : Code Bool :=
  Prog.perform (Op.nvs_set_string key value)
abbrev nvs_get_string (key : Key) (default_val : Bytes) : Code Bytes :=
  Prog.perform (Op.nvs_get_string key default_val)
abbrev nvs_set_blob (key : Key) (data : Option Bytes) : Code Bool :=
  Prog.perform (Op.nvs_set_blob key data)
abbrev nvs_get_blob (key : Key) (room : Option Nat) : Code (Option Loaded) :=
  Prog.perform (Op.nvs_get_blob key room)

end Sys

/-- `std::vector::resize`, and that of a string: new elements are zero. -/
def resize (v : Bytes) (n : Nat) : Bytes := v.take n ++ List.replicate (n - v.length) 0

/-- A copy to the start of an array. -/
def overwrite (v data : Bytes) : Bytes := data ++ v.drop data.length

/-- The bytes of a 32-bit integer. -/
def le32 (v : UInt32) : Bytes :=
  [v.toUInt8, (v >>> 8).toUInt8, (v >>> 16).toUInt8, (v >>> 24).toUInt8]

/-- The 32-bit integer of four bytes. -/
def ofLe32 : Bytes → UInt32
  | [a, b, c, d] => a.toUInt32 ||| b.toUInt32 <<< 8 ||| c.toUInt32 <<< 16 ||| d.toUInt32 <<< 24
  | _ => 0

/-! ## `KVHandle` -/

structure KVHandle where
  m_kvdb : Option Db
  m_initialized : Bool
  m_last_error : FdbErr
  deriving DecidableEq

namespace KVHandle

/-- `KVHandle::KVHandle` -/
def constructed : KVHandle where
  m_kvdb := none
  m_initialized := false
  m_last_error := .noErr

/-- `KVHandle::init` of a partition. -/
def init (self : KVHandle) (part : Part) : Code (Bool × KVHandle) := do
  if self.m_initialized then
    return (true, self)
  else
    let db ← Sys.fdb_kvdb_init part
    match db with
    | some id => return (true, { self with m_kvdb := some ⟨id, part⟩, m_initialized := true })
    | none => return (false, self)

/-- `KVHandle::init` of an existing database. -/
def initExisting (self : KVHandle) (existing_kvdb : Option Db) : Bool × KVHandle :=
  if self.m_initialized then
    (true, self)
  else
    (true, { self with m_kvdb := existing_kvdb, m_initialized := true })

/-- `KVHandle::deinit` -/
def deinit (self : KVHandle) : Code KVHandle := do
  if self.m_initialized then
    Sys.fdb_kvdb_deinit self.m_kvdb
    return { self with m_initialized := false }
  else
    return self

/-- The move constructor: the new handle and the old one. -/
def moveConstruct (other : KVHandle) : KVHandle × KVHandle :=
  ({ constructed with m_initialized := other.m_initialized, m_kvdb := other.m_kvdb },
    { other with m_initialized := false })

/-- The move assignment from another handle: this one and the other. -/
def moveAssign (self other : KVHandle) : Code (KVHandle × KVHandle) := do
  let self ← self.deinit
  return ({ self with m_kvdb := other.m_kvdb, m_initialized := other.m_initialized },
    { other with m_initialized := false })

/-- `~KVHandle` -/
def destroy (self : KVHandle) : Code Unit := do
  let _ ← self.deinit
  return ()

/-- `KVHandle::has` -/
def has (self : KVHandle) (key : Key) : Code Bool := do
  if self.m_initialized then
    let err ← Sys.fdb_kv_find self.m_kvdb key
    return err = .noErr
  else
    return false

/-- `KVHandle::erase` -/
def erase (self : KVHandle) (key : Key) : Code (Bool × KVHandle) := do
  if self.m_initialized then
    let err ← Sys.fdb_kv_del self.m_kvdb key
    return (err = .noErr, { self with m_last_error := err })
  else
    return (false, self)

/-- `KVHandle::clear` -/
def clear (self : KVHandle) : Code (Bool × KVHandle) := do
  if self.m_initialized then
    let err ← Sys.fdb_kvdb_clean self.m_kvdb
    return (err = .noErr, { self with m_last_error := err })
  else
    return (false, self)

/-- `KVHandle::used_size` -/
def used_size (self : KVHandle) : Code UInt32 := do
  if self.m_initialized then Sys.fdb_kvdb_used_size self.m_kvdb else return 0

/-- `KVHandle::available_size` -/
def available_size (self : KVHandle) : Code UInt32 := do
  if self.m_initialized then
    let db ← Prog.ofOption self.m_kvdb
    let size ← Sys.part_size db.part
    let used ← Sys.fdb_kvdb_used_size self.m_kvdb
    return size - used
  else
    return 0

/-- `KVHandle::set_blob` -/
def set_blob (self : KVHandle) (key : Key) (data : Option Bytes) : Code (Bool × KVHandle) := do
  if self.m_initialized then
    let err ← Sys.fdb_kv_set_blob self.m_kvdb key data
    return (err = .noErr, { self with m_last_error := err })
  else
    return (false, self)

def set_i32 (self : KVHandle) (key : Key) (value : Int32) : Code (Bool × KVHandle) :=
  self.set_blob key (some (le32 value.toUInt32))

def set_u32 (self : KVHandle) (key : Key) (value : UInt32) : Code (Bool × KVHandle) :=
  self.set_blob key (some (le32 value))

def set_u8 (self : KVHandle) (key : Key) (value : UInt8) : Code (Bool × KVHandle) :=
  self.set_blob key (some [value])

def set_bool (self : KVHandle) (key : Key) (value : Bool) : Code (Bool × KVHandle) :=
  self.set_blob key (some [if value then 1 else 0])

/-- A string of no bytes may be without storage. -/
def set_string (self : KVHandle) (key : Key) (value : Option Bytes) : Code (Bool × KVHandle) :=
  self.set_blob key value

/-- What the getters of integers share: the `size` bytes of a value of that size. -/
def get_scalar (self : KVHandle) (key : Key) (size : Nat) : Code (Option Bytes × KVHandle) := do
  let (err, loaded) ← Sys.fdb_kv_get_blob self.m_kvdb key size
  if err ≠ .noErr ∨ loaded.len ≠ size then
    return (none, { self with m_last_error := err })
  else
    return (some loaded.data, self)

/-- `KVHandle::get_i32`, the one of them that asks whether the handle is initialised. -/
def get_i32 (self : KVHandle) (key : Key) (default_val : Int32) : Code (Int32 × KVHandle) := do
  if self.m_initialized then
    let (value, self) ← self.get_scalar key 4
    return ((value.map fun v => (ofLe32 v).toInt32).getD default_val, self)
  else
    return (default_val, self)

def get_u32 (self : KVHandle) (key : Key) (default_val : UInt32) : Code (UInt32 × KVHandle) := do
  let (value, self) ← self.get_scalar key 4
  return ((value.map ofLe32).getD default_val, self)

def get_u8 (self : KVHandle) (key : Key) (default_val : UInt8) : Code (UInt8 × KVHandle) := do
  let (value, self) ← self.get_scalar key 1
  return ((value.map fun v => v.headD 0).getD default_val, self)

def get_bool (self : KVHandle) (key : Key) (default_val : Bool) : Code (Bool × KVHandle) := do
  let (value, self) ← self.get_scalar key 1
  return ((value.map fun v => decide (v.headD 0 ≠ 0)).getD default_val, self)

/-- `KVHandle::set` of a type of `n` bytes. -/
def set {n : Nat} (self : KVHandle) (key : Key) (value : Buffer n) : Code (Bool × KVHandle) :=
  self.set_blob key (some value.bytes)

/-- `KVHandle::get` of a type of `n` bytes; what `value` holds at first is indeterminate. -/
def get {n : Nat} (self : KVHandle) (key : Key) (default_val value : Buffer n) :
    Code (Buffer n × KVHandle) := do
  if self.m_initialized then
    let (found, self) ← self.get_scalar key n
    match found with
    | none => return (default_val, self)
    | some bytes => return (← Prog.ofOption (value.store? 0 bytes), self)
  else
    return (default_val, self)

/-- `KVHandle::foreach` -/
def foreach (self : KVHandle) : Code Unit := do
  if self.m_initialized then
    let node ← Sys.fdb_kvdb_head self.m_kvdb
    Prog.forever node fun node => do
      match node with
      | none => return .done ()
      | some node =>
        let (err, kv) ← Sys.fdb_kv_get_node_kv node
        if err = .noErr then
          Sys.callback kv
        let next ← Sys.node_next node
        return .next next
  else
    return ()

/-- `KVHandle::get_blob`, and `get_string` up to its default: what the vector holds at the end. -/
def get_blob (self : KVHandle) (key : Key) (out : Bytes) : Code (Bool × Bytes × KVHandle) := do
  if self.m_initialized then
    let (err, len) ← Sys.fdb_kv_get self.m_kvdb key
    if err ≠ .noErr then
      return (false, out, { self with m_last_error := err })
    else
      let (err, loaded) ← Sys.fdb_kv_get_blob self.m_kvdb key len
      let out := overwrite (resize out len) loaded.data
      if err ≠ .noErr then
        return (false, out, { self with m_last_error := err })
      else
        return (true, resize out loaded.len, self)
  else
    return (false, out, self)

/-- `KVHandle::get_string` -/
def get_string (self : KVHandle) (key : Key) (default_val : Bytes) : Code (Bytes × KVHandle) := do
  let (found, result, self) ← self.get_blob key []
  return (if found then result else default_val, self)

end KVHandle

end Kv
