import BaseUtilities.Kv.Stores

/-!
# The unified interface

The class `KVDB` of `KVDB.hpp` over its two implementations.  Of the NVS implementation the handle is
the library's; of the Flashdb one the members are the partition and the `KVHandle`.
-/

open Effects Mem

namespace Kv

/-- `KVDB::Backend` -/
inductive Backend where
  | nvs
  | flashdb
  deriving DecidableEq, Repr

/-- The implementation behind a `KVDB`. -/
inductive KVDB where
  | nvs
  | flashdb (m_part : Part) (m_kv : KVHandle)
  deriving DecidableEq

namespace KVDB

/-- A database behind its constructor. -/
def constructed : Backend → Part → KVDB
  | .nvs, _ => .nvs
  | .flashdb, part => .flashdb part .constructed

/-- The database after a call of its `KVHandle`. -/
def via {α : Type} (m_part : Part) (call : Code (α × KVHandle)) : Code (α × KVDB) := do
  let (r, m_kv) ← call
  return (r, .flashdb m_part m_kv)

/-- The database after a call of the NVS handle. -/
def nvsCall {α : Type} (call : Code α) : Code (α × KVDB) := do
  let r ← call
  return (r, .nvs)

/-- `KVDB::open` -/
def open_ : KVDB → Code (Bool × KVDB)
  | .nvs => nvsCall Sys.nvs_open
  | .flashdb m_part m_kv => via m_part (m_kv.init m_part)

/-- `KVDB::close` -/
def close : KVDB → Code KVDB
  | .nvs => do
    Sys.nvs_close
    return .nvs
  | .flashdb m_part m_kv => do
    let m_kv ← m_kv.deinit
    return .flashdb m_part m_kv

/-- `KVDB::commit` -/
def commit : KVDB → Code (Bool × KVDB)
  | .nvs => nvsCall Sys.nvs_commit
  | .flashdb m_part m_kv => return (true, .flashdb m_part m_kv)

/-- `KVDB::is_open` -/
def is_open : KVDB → Code Bool
  | .nvs => Sys.nvs_is_open
  | .flashdb _ m_kv => return m_kv.m_initialized

/-- `KVDB::has` -/
def has (key : Key) : KVDB → Code Bool
  | .nvs => Sys.nvs_has key
  | .flashdb _ m_kv => m_kv.has key

/-- `KVDB::erase` -/
def erase (key : Key) : KVDB → Code (Bool × KVDB)
  | .nvs => nvsCall (Sys.nvs_erase key)
  | .flashdb m_part m_kv => via m_part (m_kv.erase key)

/-- `KVDB::erase_all` -/
def erase_all : KVDB → Code (Bool × KVDB)
  | .nvs => nvsCall Sys.nvs_erase_all
  | .flashdb m_part m_kv => via m_part m_kv.clear

def set_i32 (key : Key) (value : Int32) : KVDB → Code (Bool × KVDB)
  | .nvs => nvsCall (Sys.nvs_set_i32 key value)
  | .flashdb m_part m_kv => via m_part (m_kv.set_i32 key value)

def get_i32 (key : Key) (default_val : Int32) : KVDB → Code (Int32 × KVDB)
  | .nvs => nvsCall (Sys.nvs_get_i32 key default_val)
  | .flashdb m_part m_kv => via m_part (m_kv.get_i32 key default_val)

def set_u32 (key : Key) (value : UInt32) : KVDB → Code (Bool × KVDB)
  | .nvs => nvsCall (Sys.nvs_set_u32 key value)
  | .flashdb m_part m_kv => via m_part (m_kv.set_u32 key value)

def get_u32 (key : Key) (default_val : UInt32) : KVDB → Code (UInt32 × KVDB)
  | .nvs => nvsCall (Sys.nvs_get_u32 key default_val)
  | .flashdb m_part m_kv => via m_part (m_kv.get_u32 key default_val)

def set_u8 (key : Key) (value : UInt8) : KVDB → Code (Bool × KVDB)
  | .nvs => nvsCall (Sys.nvs_set_u8 key value)
  | .flashdb m_part m_kv => via m_part (m_kv.set_u8 key value)

def get_u8 (key : Key) (default_val : UInt8) : KVDB → Code (UInt8 × KVDB)
  | .nvs => nvsCall (Sys.nvs_get_u8 key default_val)
  | .flashdb m_part m_kv => via m_part (m_kv.get_u8 key default_val)

/-- NVS has no type for booleans: they are bytes. -/
def set_bool (key : Key) (value : Bool) : KVDB → Code (Bool × KVDB)
  | .nvs => nvsCall (Sys.nvs_set_u8 key (if value then 1 else 0))
  | .flashdb m_part m_kv => via m_part (m_kv.set_bool key value)

def get_bool (key : Key) (default_val : Bool) : KVDB → Code (Bool × KVDB)
  | .nvs => nvsCall do
    let v ← Sys.nvs_get_u8 key (if default_val then 1 else 0)
    return v ≠ 0
  | .flashdb m_part m_kv => via m_part (m_kv.get_bool key default_val)

def set_string (key : Key) (value : Option Bytes) : KVDB → Code (Bool × KVDB)
  | .nvs => nvsCall (Sys.nvs_set_string key (value.getD []))
  | .flashdb m_part m_kv => via m_part (m_kv.set_string key value)

def get_string (key : Key) (default_val : Bytes) : KVDB → Code (Bytes × KVDB)
  | .nvs => nvsCall (Sys.nvs_get_string key default_val)
  | .flashdb m_part m_kv => via m_part (m_kv.get_string key default_val)

/-- `KVDB::set_blob`; `data` is a pointer that may be null. -/
def set_blob (key : Key) (data : Option Bytes) : KVDB → Code (Bool × KVDB)
  | .nvs => nvsCall (Sys.nvs_set_blob key data)
  | .flashdb m_part m_kv => via m_part (m_kv.set_blob key data)

/-- What a `get_blob` into a buffer leaves: whether it succeeded, the buffer, and `len`. -/
structure Fetched where
  success : Bool
  out : Option Bytes
  len : Nat
  deriving DecidableEq

/-- `memcpy` to a pointer that may be null; the buffer is at least as long as the data. -/
def memcpy? : Option Bytes → Bytes → Option (Option Bytes)
  | none, [] => some none
  | none, _ :: _ => none
  | some out, data => if data.length ≤ out.length then some (some (overwrite out data)) else none

/-- `KVDB::get_blob` into a buffer, which may be null. -/
def get_blob_into (key : Key) (out : Option Bytes) (len : Nat) : KVDB → Code (Fetched × KVDB)
  | .nvs => nvsCall do
    let loaded ← Sys.nvs_get_blob key (out.map fun _ => len)
    match loaded with
    | none => return ⟨false, out, len⟩
    | some loaded => return ⟨true, out.map (overwrite · loaded.data), loaded.len⟩
  | .flashdb m_part m_kv => via m_part do
    let (found, tmp, m_kv) ← m_kv.get_blob key []
    if found then
      if tmp.length ≤ len then
        let out ← Prog.ofOption (memcpy? out tmp)
        return (⟨true, out, tmp.length⟩, m_kv)
      else
        return (⟨false, out, tmp.length⟩, m_kv)
    else
      return (⟨false, out, len⟩, m_kv)

/-- `KVDB::get_blob` into a vector, in two steps: first the length, without a buffer. -/
def get_blob (key : Key) (out : Bytes) (self : KVDB) : Code ((Bool × Bytes) × KVDB) := do
  let (fetched, self) ← self.get_blob_into key none 0
  if fetched.success then
    let out := resize out fetched.len
    let (fetched, self) ← self.get_blob_into key (some out) fetched.len
    return ((fetched.success, fetched.out.getD out), self)
  else
    return ((false, out), self)

/-- `KVDB::set` of a type of `n` bytes. -/
def set {n : Nat} (key : Key) (value : Buffer n) (self : KVDB) : Code (Bool × KVDB) :=
  self.set_blob key (some value.bytes)

/-- `KVDB::get` of a type of `n` bytes; what `value` holds at first is indeterminate. -/
def get {n : Nat} (key : Key) (default_val value : Buffer n) (self : KVDB) : Code (Buffer n × KVDB) := do
  let opened ← self.is_open
  if opened then
    let (fetched, self) ← self.get_blob_into key (some value.bytes) n
    let value ← Prog.ofOption (fetched.out.bind (Buffer.ofBytes? n))
    if fetched.success then
      if fetched.len ≠ n then
        return (default_val, self)
      else
        return (value, self)
    else
      return (default_val, self)
  else
    return (default_val, self)

/-- `KVDB::available_size`; NVS has none. -/
def available_size : KVDB → Code UInt32
  | .nvs => return 0
  | .flashdb _ m_kv => m_kv.available_size

/-- `KVDB::used_size`; NVS has none. -/
def used_size : KVDB → Code UInt32
  | .nvs => return 0
  | .flashdb _ m_kv => m_kv.used_size

end KVDB

end Kv
