import BaseUtilities.FlashDb.Kvdb
import Mathlib.Algebra.Group.Nat.Defs

/-!
# FlashDB: the operations of a key-value database

The functions of `fdb_kvdb.c` that search, write, delete and collect, and the interface on top of them.
The callbacks of an iteration return whether to stop, and change the database and their argument.
-/

open Effects Mem Kv

namespace FlashDb

variable {σ : Type}

/-! ## Iterations -/

/-- The inner loop of `kv_iterator`: the nodes of one sector from `kv` on. -/
def iterateNodes (sector : SecInfo) (callback : Node → Kvdb → σ → Code (Bool × Kvdb × σ)) (kv : Node)
    (db : Kvdb) (arg : σ) : Code (Bool × Node × Kvdb × σ) :=
  Prog.forever (kv, db, arg) fun (kv, db, arg) => do
    let (_, kv) ← read_kv db kv
    let (stop, db, arg) ← callback kv db arg
    if stop then
      return .done (true, kv, db, arg)
    else
      let start ← get_next_kv_addr db sector kv
      let kv := { kv with start := start }
      return if start ≠ FAILED_ADDR then .next (kv, db, arg) else .done (false, kv, db, arg)

/-- The variables of `kv_iterator`. -/
structure IteratorState (σ : Type) where
  sector : SecInfo
  sec_addr : Nat
  traversed_len : Nat
  kv : Node
  db : Kvdb
  arg : σ

def kv_iterator (db : Kvdb) (kv : Node) (callback : Node → Kvdb → σ → Code (Bool × Kvdb × σ)) (arg : σ) :
    Code (Node × Kvdb × σ) :=
  Prog.forever (⟨.uninit, db.oldest_addr, 0, kv, db, arg⟩ : IteratorState σ) fun s => do
    let traversed_len := s.traversed_len + s.db.sec_size
    let (result, sector, db) ← read_sector_info s.db s.sec_addr s.sector false
    let (stop, kv, db, arg) ← (
      if result = .noErr ∧ (sector.store = .inUse ∨ sector.store = .full) then
        iterateNodes sector callback { s.kv with start := sector.addr + SECTOR_HDR_DATA_SIZE } db s.arg
      else
        return (false, s.kv, db, s.arg))
    if stop then
      return .done (kv, db, arg)
    else
      let sec_addr := get_next_sector_addr db sector traversed_len
      return if sec_addr ≠ FAILED_ADDR then .next ⟨sector, sec_addr, traversed_len, kv, db, arg⟩
        else .done (kv, db, arg)

/-- `sector_iterator` at a sector of the status that it looks for. -/
def visitSector (sec_addr : Nat) (sector : SecInfo) (callback : SecInfo → Kvdb → σ → Code (Bool × Kvdb × σ))
    (traversal_kv : Bool) (db : Kvdb) (arg : σ) : Code (Bool × SecInfo × Kvdb × σ) := do
  if traversal_kv then
    let (_, sector, db) ← read_sector_info db sec_addr sector true
    let (stop, db, arg) ← callback sector db arg
    return (stop, sector, db, arg)
  else
    let (stop, db, arg) ← callback sector db arg
    return (stop, sector, db, arg)

/-- `sector_iterator`; the status `unused` stands for all sectors. -/
def sector_iterator (db : Kvdb) (sector : SecInfo) (status : StoreStatus)
    (callback : SecInfo → Kvdb → σ → Code (Bool × Kvdb × σ)) (arg : σ) (traversal_kv : Bool) :
    Code (SecInfo × Kvdb × σ) :=
  Prog.forever (⟨sector, db.oldest_addr, 0, .uninit, db, arg⟩ : IteratorState σ) fun s => do
    let traversed_len := s.traversed_len + s.db.sec_size
    let (_, sector, db) ← read_sector_info s.db s.sec_addr s.sector false
    let (stop, sector, db, arg) ← (
      if status = .unused ∨ status = sector.store then
        visitSector s.sec_addr sector callback traversal_kv db s.arg
      else
        return (false, sector, db, s.arg))
    if stop then
      return .done (sector, db, arg)
    else
      let sec_addr := get_next_sector_addr db sector traversed_len
      return if sec_addr ≠ FAILED_ADDR then .next ⟨sector, sec_addr, traversed_len, s.kv, db, arg⟩
        else .done (sector, db, arg)

/-! ## Finding -/

/-- `find_kv_cb`: a node of the key; the argument is `find_ok`. -/
def find_kv_cb (key : Key) (kv : Node) (db : Kvdb) (find_ok : Bool) : Code (Bool × Kvdb × Bool) := do
  if key.length ≠ kv.name_len.toNat then
    return (false, db, find_ok)
  else if kv.crc_is_ok ∧ kv.status = .write ∧ strncmpEq kv.name.bytes key key.length then
    return (true, db, true)
  else
    return (false, db, find_ok)

def find_kv_no_cache (db : Kvdb) (key : Key) (kv : Node) : Code (Bool × Node × Kvdb) := do
  let (kv, db, find_ok) ← kv_iterator db kv (find_kv_cb key) false
  return (find_ok, kv, db)

def find_kv (db : Kvdb) (key : Key) (kv : Node) : Code (Bool × Node × Kvdb) := do
  let (addr, db) ← get_kv_from_cache db key
  match addr with
  | some start =>
    let (_, kv) ← read_kv db { kv with start := start }
    return (true, kv, db)
  | none =>
    let (find_ok, kv, db) ← find_kv_no_cache db key kv
    return (find_ok, kv, if find_ok then update_kv_cache db key kv.start else db)

/-- What `get_kv` returns: `read_len`, and what it leaves in the buffer and in `value_len` (none where that
is not written). -/
structure GetResult (n : Nat) where
  read_len : Nat
  value_buf : Buffer n
  value_len : Option Nat

def get_kv (db : Kvdb) (key : Key) {buf_len : Nat} (value_buf : Buffer buf_len) :
    Code (GetResult buf_len × Kvdb) := do
  let (found, kv, db) ← find_kv db key .uninit
  if found then
    let read_len := if buf_len > kv.value_len then kv.value_len else buf_len
    let (_, value) ← fdb_flash_read kv.value read_len
    return (⟨read_len, value_buf.overlay value.bytes, some kv.value_len⟩, db)
  else
    return (⟨0, value_buf, some 0⟩, db)

def fdb_kv_get_blob (db : Kvdb) (key : Key) {size : Nat} (buf : Buffer size) :
    Code (GetResult size × Kvdb) := do
  if !db.init_ok then
    return (⟨0, buf, none⟩, db)
  else
    get_kv db key buf

/-! ## Writing -/

def write_kv_hdr (addr : Nat) (kv_hdr : KvHdr) : Code FdbErr := do
  let result ← fdb_write_status addr FDB_KV_STATUS_NUM KvStatus.preWrite.index false
  if result ≠ .noErr then
    return result
  else
    fdb_flash_write (addr + KV_MAGIC_OFFSET) kv_hdr.tail false

def format_sector (db : Kvdb) (addr : Nat) (combined_value : UInt32) : Code (FdbErr × Kvdb) := do
  fdbAssert (addr % db.sec_size = 0)
  let result ← fdb_flash_erase addr db.sec_size
  if result = .noErr then
    let sec_hdr : SectorHdr :=
      { store := (fdb_set_status FDB_SECTOR_STORE_STATUS_NUM StoreStatus.empty.index).1
        dirty := (fdb_set_status FDB_SECTOR_DIRTY_STATUS_NUM DirtyStatus.clean.index).1
        magic := SECTOR_MAGIC_WORD
        combined := combined_value
        reserved := UInt32.ofNat FDB_DATA_UNUSED }
    let result ← fdb_flash_write addr sec_hdr.bytes true
    return (result, update_sector_cache db
      { SecInfo.uninit with addr := addr, check_ok := false, empty_kv := FAILED_ADDR })
  else
    return (result, db)

/-- `update_sec_status`; `is_full` is none where it is not written. -/
def update_sec_status (db : Kvdb) (sector : SecInfo) (new_kv_len : Nat) :
    Code (FdbErr × Option Bool × Kvdb) := do
  match sector.store with
  | .empty =>
    let result ← fdb_write_status sector.addr FDB_SECTOR_STORE_STATUS_NUM StoreStatus.inUse.index true
    return (result, none, update_sector_status_store_cache db sector.addr .inUse)
  | .inUse =>
    -- the difference is one of unsigned numbers
    if sector.remain < FDB_SEC_REMAIN_THRESHOLD ∨
        (sector.remain + 2 ^ 32 - new_kv_len) % 2 ^ 32 < FDB_SEC_REMAIN_THRESHOLD then
      let result ← fdb_write_status sector.addr FDB_SECTOR_STORE_STATUS_NUM StoreStatus.full.index true
      return (result, some true, update_sector_status_store_cache db sector.addr .full)
    else
      return (.noErr, some false, db)
  | _ => return (.noErr, none, db)

/-- `sector_statistics_cb`: how many sectors are empty and in use. -/
def sector_statistics_cb (sector : SecInfo) (db : Kvdb) (arg : Nat × Nat) : Code (Bool × Kvdb × Nat × Nat) := do
  if sector.check_ok ∧ sector.store = .empty then
    return (false, db, arg.1 + 1, arg.2)
  else if sector.check_ok ∧ sector.store = .inUse then
    return (false, db, arg.1, arg.2 + 1)
  else
    return (false, db, arg)

/-- `alloc_kv_cb`: a sector with space for a node; the argument is where it is. -/
def alloc_kv_cb (kv_size : Nat) (sector : SecInfo) (db : Kvdb) (empty_kv : Nat) : Code (Bool × Kvdb × Nat) := do
  if sector.check_ok ∧ sector.remain > kv_size + FDB_SEC_REMAIN_THRESHOLD ∧
      (sector.dirty = .clean ∨ sector.dirty = .dirty ∧ !db.gc_request) then
    return (true, db, sector.empty_kv)
  else
    return (false, db, empty_kv)

def alloc_kv (db : Kvdb) (sector : SecInfo) (kv_size : Nat) : Code (Nat × SecInfo × Kvdb) := do
  let (sector, db, empty_sector, using_sector) ←
    sector_iterator db sector .unused sector_statistics_cb (0, 0) false
  let (sector, db, empty_kv) ← (
    if using_sector > 0 then sector_iterator db sector .inUse (alloc_kv_cb kv_size) FAILED_ADDR true
    else return (sector, db, FAILED_ADDR))
  if empty_sector > 0 ∧ empty_kv = FAILED_ADDR then
    if empty_sector > FDB_GC_EMPTY_SEC_THRESHOLD ∨ db.gc_request then
      let (sector, db, empty_kv) ← sector_iterator db sector .empty (alloc_kv_cb kv_size) empty_kv true
      return (empty_kv, sector, db)
    else
      -- no space for new KV now will GC and retry
      return (empty_kv, sector, { db with gc_request := true })
  else
    return (empty_kv, sector, db)

/-! ## Deleting -/

/-- What `del_kv` does to the sector of a node: a clean sector becomes dirty. -/
def markDirty (db : Kvdb) (start : Nat) : Code (FdbErr × Kvdb) := do
  let dirty_status_addr := alignDown start db.sec_size + SECTOR_DIRTY_OFFSET
  let dirty ← fdb_read_status dirty_status_addr FDB_SECTOR_DIRTY_STATUS_NUM
  if DirtyStatus.ofStatus dirty = .clean then
    let result ← fdb_write_status dirty_status_addr FDB_SECTOR_DIRTY_STATUS_NUM DirtyStatus.dirty.index true
    let mark (sector : SecInfo) : SecInfo := { sector with dirty := .dirty }
    let table := modifySector (alignDown start db.sec_size) mark db.sector_cache_table
    return (result, { db with sector_cache_table := table })
  else
    return (.noErr, db)

/-- What `del_kv` does to the status of a node. -/
def markDeleted (db : Kvdb) (key : Option Key) (old_kv : Node) (complete_del : Bool) :
    Code (FdbErr × Kvdb) := do
  if !complete_del then
    let result ← fdb_write_status old_kv.start FDB_KV_STATUS_NUM KvStatus.preDelete.index false
    return (result, { db with last_is_complete_del := true })
  else
    let result ← fdb_write_status old_kv.start FDB_KV_STATUS_NUM KvStatus.deleted.index true
    let name := key.getD (old_kv.name.bytes.take old_kv.name_len.toNat)
    let db := if !db.last_is_complete_del ∧ result = .noErr then update_kv_cache db name FDB_DATA_UNUSED
      else db
    return (result, { db with last_is_complete_del := false })

/-- `del_kv` of a node that is known. -/
def delNode (db : Kvdb) (key : Option Key) (old_kv : Node) (complete_del : Bool) : Code (FdbErr × Kvdb) := do
  let (result, db) ← markDeleted db key old_kv complete_del
  if result = .noErr then
    markDirty db old_kv.start
  else
    return (result, db)

/-- `del_kv` of a key. -/
def del_kv (db : Kvdb) (key : Key) (complete_del : Bool) : Code (FdbErr × Kvdb) := do
  let (found, kv, db) ← find_kv db key .uninit
  if found then
    delNode db key kv complete_del
  else
    return (.kvNameErr, db)

/-! ## Collecting -/

/-- The loop of `move_kv` that copies a node behind its status. -/
def copyNode (src dst kv_len : Nat) : Code FdbErr :=
  Prog.forever (0, .noErr) fun (len, result) => do
    if len < kv_len then
      let size := if len + 32 < kv_len then 32 else kv_len - len
      let (_, buf) ← fdb_flash_read (src + len) (wgAlign size)
      let result ← fdb_flash_write (dst + len) (buf.bytes.take size) true
      return .next (len + size, result)
    else
      return .done result

/-- `move_kv`, once there is space for the node. -/
def moveTo (db : Kvdb) (sector : SecInfo) (kv : Node) (kv_addr : Nat) : Code (FdbErr × Kvdb) := do
  let (_, _, db) ← update_sec_status db sector kv.len
  let _ ← fdb_write_status kv_addr FDB_KV_STATUS_NUM KvStatus.preWrite.index false
  let result ← copyNode (kv.start + KV_MAGIC_OFFSET) (kv_addr + KV_MAGIC_OFFSET) (kv.len - KV_MAGIC_OFFSET)
  let _ ← fdb_write_status kv_addr FDB_KV_STATUS_NUM KvStatus.write.index true
  let db := update_sector_empty_addr_cache db (alignDown kv_addr db.sec_size)
    (kv_addr + KV_HDR_DATA_SIZE + wgAlign kv.name_len.toNat + wgAlign kv.value_len)
  let db := update_kv_cache db (kv.name.bytes.take kv.name_len.toNat) kv_addr
  let (_, db) ← delNode db none kv true
  return (result, db)

/-- `move_kv`: move the KV to new space. -/
def move_kv (db : Kvdb) (kv : Node) : Code (FdbErr × Kvdb) := do
  let (_, db) ← (if kv.status = .write then delNode db none kv false else return (.noErr, db))
  let (kv_addr, sector, db) ← alloc_kv db .uninit kv.len
  if kv_addr = FAILED_ADDR then
    return (.savedFull, db)
  else if db.in_recovery_check ∧ kv.status = .preDelete then
    let name := (kv.name.bytes.take kv.name_len.toNat).takeWhile (· ≠ 0)
    let (found, _, db) ← find_kv_no_cache db name .uninit
    if found then
      -- already create success, don't need to duplicate
      let (_, db) ← delNode db none kv true
      return (.noErr, db)
    else
      moveTo db sector kv kv_addr
  else
    moveTo db sector kv kv_addr

/-- `gc_check_cb`: the number of empty sectors, and the last of them. -/
def gc_check_cb (sector : SecInfo) (db : Kvdb) (arg : Nat × Nat) : Code (Bool × Kvdb × Nat × Nat) := do
  if sector.check_ok then
    return (false, db, arg.1 + 1, sector.addr)
  else
    return (false, db, arg)

/-- The loop of `do_gc` over the nodes of a sector. -/
def collectNodes (sector : SecInfo) (db : Kvdb) : Code Kvdb :=
  Prog.forever ({ Node.uninit with start := sector.addr + SECTOR_HDR_DATA_SIZE }, db) fun (kv, db) => do
    let (_, kv) ← read_kv db kv
    let (_, db) ← (
      if kv.crc_is_ok ∧ (kv.status = .write ∨ kv.status = .preDelete) then move_kv db kv
      else return (.noErr, db))
    let start ← get_next_kv_addr db sector kv
    return if start ≠ FAILED_ADDR then .next ({ kv with start := start }, db) else .done db

/-- `do_gc`; the argument is `last_gc_sec_addr`. -/
def do_gc (setting_free_size : Nat) (sector : SecInfo) (db : Kvdb) (last_gc_sec_addr : Nat) :
    Code (Bool × Kvdb × Nat) := do
  if sector.check_ok ∧ (sector.dirty = .dirty ∨ sector.dirty = .gc) then
    let _ ← fdb_write_status (sector.addr + SECTOR_DIRTY_OFFSET) FDB_SECTOR_DIRTY_STATUS_NUM
      DirtyStatus.gc.index true
    let db ← collectNodes sector db
    let (_, db) ← format_sector db sector.addr (UInt32.ofNat SECTOR_NOT_COMBINED)
    let db := { db with oldest_addr := get_next_sector_addr db sector 0 }
    let (result, last_gc_sector, db) ← read_sector_info db last_gc_sec_addr .uninit true
    return (result = .noErr ∧ last_gc_sector.remain > setting_free_size, db, sector.addr)
  else
    return (false, db, last_gc_sec_addr)

def gc_collect_by_free_size (db : Kvdb) (free_size : Nat) : Code Kvdb := do
  let (sector, db, empty_sec_num, empty_sec_addr) ← sector_iterator db .uninit .empty gc_check_cb (0, 0) false
  if empty_sec_num ≤ FDB_GC_EMPTY_SEC_THRESHOLD then
    let (_, db, _) ← sector_iterator db sector .unused (do_gc free_size) empty_sec_addr false
    return { db with gc_request := false }
  else
    return { db with gc_request := false }

def gc_collect (db : Kvdb) : Code Kvdb := gc_collect_by_free_size db db.max_size

def new_kv (db : Kvdb) (sector : SecInfo) (kv_size : Nat) : Code (Nat × SecInfo × Kvdb) := do
  let (empty_kv, sector, db) ← alloc_kv db sector kv_size
  if empty_kv = FAILED_ADDR ∧ db.gc_request then
    let db ← gc_collect_by_free_size db kv_size
    let (empty_kv, sector, db) ← alloc_kv db sector kv_size
    if empty_kv = FAILED_ADDR then
      return (empty_kv, sector, { db with gc_request := false })
    else
      return (empty_kv, sector, db)
  else
    return (empty_kv, sector, db)

def new_kv_ex (db : Kvdb) (sector : SecInfo) (key_len buf_len : Nat) : Code (Nat × SecInfo × Kvdb) :=
  new_kv db sector (KV_HDR_DATA_SIZE + wgAlign key_len + wgAlign buf_len)

/-! ## Creating -/

/-- The header of a new node, whose status is written by itself. -/
def newHdr (key : Key) (value : Bytes) : KvHdr :=
  let name_len := UInt8.ofNat key.length :: List.replicate 3 FDB_BYTE_ERASED
  let value_len := UInt32.ofNat value.length
  { status_table := [FDB_BYTE_ERASED]
    magic := KV_MAGIC_WORD
    len := UInt32.ofNat (KV_HDR_DATA_SIZE + wgAlign key.length + wgAlign value.length)
    crc32 := fdb_calc_crc32 (fdb_calc_crc32 (fdb_calc_crc32 (fdb_calc_crc32 0 name_len) (le32 value_len)) key) value
    name_len := name_len
    value_len := value_len }

/-- What `create_kv_blob` writes behind the header: the name. -/
def createName (db : Kvdb) (sector : SecInfo) (is_full : Bool) (key : Key) (value_len kv_addr : Nat) :
    Code (FdbErr × Kvdb) := do
  let result ← fdb_flash_write_align (kv_addr + KV_HDR_DATA_SIZE) key
  let db :=
    if !is_full then
      update_sector_empty_addr_cache db sector.addr
        (kv_addr + KV_HDR_DATA_SIZE + wgAlign key.length + wgAlign value_len)
    else db
  return (result, update_kv_cache db key kv_addr)

/-- `create_kv_blob`, once there is a place for the node. -/
def createAt (db : Kvdb) (sector : SecInfo) (key : Key) (value : Bytes) (kv_addr : Nat) :
    Code (FdbErr × Kvdb) := do
  let kv_hdr := newHdr key value
  let (result, is_full, db) ← update_sec_status db sector kv_hdr.len.toNat
  let is_full := is_full.getD false
  let result ← (if result = .noErr then write_kv_hdr kv_addr kv_hdr else return result)
  let (result, db) ← (
    if result = .noErr then createName db sector is_full key value.length kv_addr else return (result, db))
  let result ← (
    if result = .noErr then fdb_flash_write_align (kv_addr + KV_HDR_DATA_SIZE + wgAlign key.length) value
    else return result)
  let result ← (
    if result = .noErr then fdb_write_status kv_addr FDB_KV_STATUS_NUM KvStatus.write.index true
    else return result)
  -- trigger GC collect when current sector is full
  return (result, if result = .noErr ∧ is_full then { db with gc_request := true } else db)

def create_kv_blob (db : Kvdb) (sector : SecInfo) (key : Key) (value : Bytes) :
    Code (FdbErr × SecInfo × Kvdb) := do
  if key.length > FDB_KV_NAME_MAX then
    return (.kvNameErr, sector, db)
  else
    let len := KV_HDR_DATA_SIZE + wgAlign key.length + wgAlign value.length
    if len > db.sec_size - SECTOR_HDR_DATA_SIZE then
      return (.savedFull, sector, db)
    else
      let (kv_addr, sector, db) ← (
        if sector.empty_kv ≠ FAILED_ADDR then return (sector.empty_kv, sector, db) else new_kv db sector len)
      if kv_addr ≠ FAILED_ADDR then
        let (result, db) ← createAt db sector key value kv_addr
        return (result, sector, db)
      else
        return (.savedFull, sector, db)

/-! ## The interface -/

def fdb_kv_del (db : Kvdb) (key : Key) : Code (FdbErr × Kvdb) := do
  if !db.init_ok then
    return (.initFailed, db)
  else
    del_kv db key true

/-- `set_kv`, once there is space for the new node and the old one has been looked for. -/
def replaceNode (db : Kvdb) (key : Key) (value_buf : Bytes) (kv_is_found : Bool) : Code (FdbErr × Kvdb) := do
  -- prepare to delete the old KV
  let (result, db) ← (if kv_is_found then delNode db key db.cur_kv false else return (.noErr, db))
  -- create the new KV
  let (result, sector, db) ← (
    if result = .noErr then create_kv_blob db db.cur_sector key value_buf
    else return (result, db.cur_sector, db))
  let db := { db with cur_sector := sector }
  -- delete the old KV
  if kv_is_found ∧ result = .noErr then
    delNode db key db.cur_kv true
  else
    return (result, db)

/-- `set_kv` of a value. -/
def setValue (db : Kvdb) (key : Key) (value_buf : Bytes) : Code (FdbErr × Kvdb) := do
  -- make sure the flash has enough space
  let (empty_kv, sector, db) ← new_kv_ex db db.cur_sector key.length value_buf.length
  let db := { db with cur_sector := sector }
  if empty_kv = FAILED_ADDR then
    return (.savedFull, db)
  else
    let (kv_is_found, kv, db) ← find_kv db key db.cur_kv
    let (result, db) ← replaceNode { db with cur_kv := kv } key value_buf kv_is_found
    -- process the GC after set KV
    if db.gc_request then
      let db ← gc_collect_by_free_size db (KV_HDR_DATA_SIZE + wgAlign key.length + wgAlign value_buf.length)
      return (result, db)
    else
      return (result, db)

/-- `set_kv`; without a value it deletes the key. -/
def set_kv (db : Kvdb) (key : Key) : Option Bytes → Code (FdbErr × Kvdb)
  | none => del_kv db key true
  | some value_buf => setValue db key value_buf

def fdb_kv_set_blob (db : Kvdb) (key : Key) (value : Option Bytes) : Code (FdbErr × Kvdb) := do
  if !db.init_ok then
    return (.initFailed, db)
  else
    set_kv db key value

/-! ## Loading -/

/-- The loop of `fdb_kv_set_default` that formats all sectors. -/
def formatAll (db : Kvdb) : Code (FdbErr × Kvdb) :=
  Prog.forever (0, db) fun (addr, db) => do
    if addr < db.max_size then
      let (result, db) ← format_sector db addr (UInt32.ofNat SECTOR_NOT_COMBINED)
      return if result ≠ .noErr then .done (result, db) else .next (addr + db.sec_size, db)
    else
      return .done (.noErr, db)

/-- The loop of `fdb_kv_set_default` that creates the default pairs; what `create_kv_blob` returns is
dropped. -/
def createDefaults : List (Key × Bytes) → Kvdb → Code Kvdb
  | [], db => return db
  | (key, value) :: kvs, db => do
    let (_, _, db) ← create_kv_blob db { SecInfo.uninit with empty_kv := FAILED_ADDR } key value
    createDefaults kvs db

def fdb_kv_set_default (db : Kvdb) : Code (FdbErr × Kvdb) := do
  let forget (node : KvCacheNode) : KvCacheNode := { node with addr := FDB_DATA_UNUSED }
  let (result, db) ← formatAll { db with kv_cache_table := db.kv_cache_table.map forget }
  let db ← (if result = .noErr then createDefaults db.default_kvs db else return db)
  return (result, { db with oldest_addr := 0 })

/-- `check_oldest_addr_cb`: the address found, and the status of the sector before. -/
def check_oldest_addr_cb (sector : SecInfo) (db : Kvdb) (arg : Nat × StoreStatus) :
    Code (Bool × Kvdb × Nat × StoreStatus) := do
  if arg.2 = .empty ∧ (sector.store = .full ∨ sector.store = .inUse) then
    return (false, db, sector.addr, sector.store)
  else
    return (false, db, arg.1, sector.store)

/-- `check_sec_hdr_cb`: the number of sectors whose header is wrong. -/
def check_sec_hdr_cb (sector : SecInfo) (db : Kvdb) (failed_count : Nat) : Code (Bool × Kvdb × Nat) := do
  if !sector.check_ok then
    if db.not_formatable then
      return (true, db, failed_count + 1)
    else
      let (_, db) ← format_sector db sector.addr (UInt32.ofNat SECTOR_NOT_COMBINED)
      return (false, db, failed_count + 1)
  else
    return (false, db, failed_count)

def check_and_recovery_gc_cb (sector : SecInfo) (db : Kvdb) (_ : Unit) : Code (Bool × Kvdb × Unit) := do
  if sector.check_ok ∧ sector.dirty = .gc then
    return (false, ← gc_collect { db with gc_request := true }, ())
  else
    return (false, db, ())

def check_and_recovery_kv_cb (kv : Node) (db : Kvdb) (_ : Unit) : Code (Bool × Kvdb × Unit) := do
  if kv.crc_is_ok ∧ kv.status = .preDelete then
    -- recovery the old KV
    let (result, db) ← move_kv db kv
    return (result ≠ .noErr, db, ())
  else if kv.status = .preWrite then
    let _ ← fdb_write_status kv.start FDB_KV_STATUS_NUM KvStatus.errHdr.index true
    return (true, db, ())
  else if kv.crc_is_ok ∧ kv.status = .write then
    return (false, update_kv_cache db (kv.name.bytes.take kv.name_len.toNat) kv.start, ())
  else
    return (false, db, ())

/-- `_fdb_kv_load`, the check of all nodes, again after each collection. -/
def recoverNodes (db : Kvdb) : Code Kvdb :=
  Prog.forever db fun db => do
    let (_, db, _) ← kv_iterator db .uninit check_and_recovery_kv_cb ()
    if db.gc_request then return .next (← gc_collect db) else return .done db

/-- `_fdb_kv_load`, once all headers of sectors are right. -/
def recover (db : Kvdb) (sector : SecInfo) : Code (FdbErr × Kvdb) := do
  -- check all sector header for recovery GC
  let (_, db, _) ← sector_iterator db sector .unused check_and_recovery_gc_cb () false
  -- check all KV for recovery
  let db ← recoverNodes db
  return (.noErr, { db with in_recovery_check := false })

/-- `_fdb_kv_load`: check and load the flash KV. -/
def fdb_kv_load (db : Kvdb) : Code (FdbErr × Kvdb) := do
  let db := { db with in_recovery_check := true }
  -- check all sector header
  let (sector, db, check_failed_count) ← sector_iterator db .uninit .unused check_sec_hdr_cb 0 false
  if db.not_formatable ∧ check_failed_count > 0 then
    return (.readErr, db)
  else
    -- all sector header check failed
    let (_, db) ← (
      if check_failed_count = db.max_size / db.sec_size then fdb_kv_set_default db else return (.noErr, db))
    recover db sector

/-- `_fdb_init_ex`, for a database in files. -/
def fdb_init_ex (db : Kvdb) : Code FdbErr := do
  if db.init_ok then
    return .noErr
  else
    fdbAssert (db.sec_size ≠ 0)
    fdbAssert (db.max_size ≠ 0)
    fdbAssert (db.sec_size &&& (db.sec_size - 1) = 0)
    if db.max_size % db.sec_size ≠ 0 then
      return .initFailed
    else if db.max_size / db.sec_size < 2 then
      return .initFailed
    else
      return .noErr

def fdb_kvdb_init (db : Kvdb) (default_kv : List (Key × Bytes)) : Code (FdbErr × Kvdb) := do
  let result ← fdb_init_ex db
  if result ≠ .noErr then
    return (result, db)
  else
    let db := { db with
      gc_request := false
      in_recovery_check := false
      default_kvs := default_kv
      oldest_addr := 0 }
    let (_, db, oldest_addr, _) ← sector_iterator db .uninit .unused check_oldest_addr_cb (0, .unused) false
    let db := { db with oldest_addr := oldest_addr }
    fdbAssert (FDB_GC_EMPTY_SEC_THRESHOLD < db.max_size / db.sec_size)
    let forgetSector (sector : SecInfo) : SecInfo :=
      { sector with check_ok := false, empty_kv := FAILED_ADDR, addr := FDB_DATA_UNUSED }
    let forgetNode (node : KvCacheNode) : KvCacheNode := { node with addr := FDB_DATA_UNUSED }
    let db := { db with
      sector_cache_table := db.sector_cache_table.map forgetSector
      kv_cache_table := db.kv_cache_table.map forgetNode }
    let (result, db) ← fdb_kv_load db
    -- `_fdb_init_finish`
    return (result, if result = .noErr then { db with init_ok := true } else db)

def fdb_kvdb_deinit (db : Kvdb) : Kvdb := { db with init_ok := false }

end FlashDb
