import BaseUtilities.FlashDb.Utils

/-!
# FlashDB: the key-value database

The functions of `fdb_kvdb.c`.  A database is passed in and returned; what it keeps beside its storage
are two caches, of sectors and of the addresses of keys, and a few flags.  Keys are C strings without
their terminator.  A structure that a function leaves without a value is passed in as well.
-/

open Effects Mem Kv

namespace FlashDb

abbrev FDB_KV_NAME_MAX : Nat := 64
abbrev FDB_KV_CACHE_TABLE_SIZE : Nat := 64
abbrev FDB_SECTOR_CACHE_TABLE_SIZE : Nat := 8
abbrev SECTOR_MAGIC_WORD : UInt32 := 0x30424446
abbrev KV_MAGIC_WORD : UInt32 := 0x3030564B
abbrev FAILED_ADDR : Nat := 0xFFFFFFFF
abbrev SECTOR_NOT_COMBINED : Nat := 0xFFFFFFFF
abbrev SECTOR_COMBINED : Nat := 0
abbrev FDB_GC_EMPTY_SEC_THRESHOLD : Nat := 1

/-- `sizeof(struct sector_hdr_data)` -/
abbrev SECTOR_HDR_DATA_SIZE : Nat := 16

abbrev SECTOR_DIRTY_OFFSET : Nat := 1

/-- `sizeof(struct kv_hdr_data)` -/
abbrev KV_HDR_DATA_SIZE : Nat := 24

abbrev KV_MAGIC_OFFSET : Nat := 4
abbrev FDB_SEC_REMAIN_THRESHOLD : Nat := KV_HDR_DATA_SIZE + FDB_KV_NAME_MAX
abbrev FDB_KV_STATUS_NUM : Nat := 6
abbrev FDB_SECTOR_STORE_STATUS_NUM : Nat := 4
abbrev FDB_SECTOR_DIRTY_STATUS_NUM : Nat := 4

/-- `fdb_kv_status_t` -/
inductive KvStatus where
  | unused
  | preWrite
  | write
  | preDelete
  | deleted
  | errHdr
  deriving DecidableEq, Repr

namespace KvStatus

def index : KvStatus → Nat
  | unused => 0
  | preWrite => 1
  | write => 2
  | preDelete => 3
  | deleted => 4
  | errHdr => 5

def ofStatus : Nat → KvStatus
  | 0 => unused
  | 1 => preWrite
  | 2 => write
  | 3 => preDelete
  | 4 => deleted
  | _ => errHdr

end KvStatus

/-- `fdb_sector_store_status_t` -/
inductive StoreStatus where
  | unused
  | empty
  | inUse
  | full
  deriving DecidableEq, Repr

namespace StoreStatus

def index : StoreStatus → Nat
  | unused => 0
  | empty => 1
  | inUse => 2
  | full => 3

def ofStatus : Nat → StoreStatus
  | 0 => unused
  | 1 => empty
  | 2 => inUse
  | _ => full

end StoreStatus

/-- `fdb_sector_dirty_status_t` -/
inductive DirtyStatus where
  | unused
  | clean
  | dirty
  | gc
  deriving DecidableEq, Repr

namespace DirtyStatus

def index : DirtyStatus → Nat
  | unused => 0
  | clean => 1
  | dirty => 2
  | gc => 3

def ofStatus : Nat → DirtyStatus
  | 0 => unused
  | 1 => clean
  | 2 => dirty
  | _ => gc

end DirtyStatus

/-- `struct fdb_kv` -/
structure Node where
  status : KvStatus
  crc_is_ok : Bool
  name_len : UInt8
  len : Nat
  value_len : Nat
  name : Buffer FDB_KV_NAME_MAX
  /-- `addr.start` -/
  start : Nat
  /-- `addr.value` -/
  value : Nat
  deriving DecidableEq

/-- `struct kvdb_sec_info` -/
structure SecInfo where
  check_ok : Bool
  store : StoreStatus
  dirty : DirtyStatus
  addr : Nat
  magic : UInt32
  combined : Nat
  remain : Nat
  empty_kv : Nat
  deriving DecidableEq, Repr

/-- `struct kv_cache_node` -/
structure KvCacheNode where
  name_crc : UInt16
  active : UInt16
  addr : Nat
  deriving DecidableEq, Repr

/-- `struct fdb_kvdb` -/
structure Kvdb where
  sec_size : Nat
  max_size : Nat
  oldest_addr : Nat
  init_ok : Bool
  not_formatable : Bool
  default_kvs : List (Key × Bytes)
  gc_request : Bool
  in_recovery_check : Bool
  cur_kv : Node
  cur_sector : SecInfo
  last_is_complete_del : Bool
  kv_cache_table : List KvCacheNode
  sector_cache_table : List SecInfo
  deriving DecidableEq

/-! ## What is in the storage -/

/-- `struct kv_hdr_data` -/
structure KvHdr where
  status_table : Bytes
  magic : UInt32
  len : UInt32
  crc32 : UInt32
  /-- `name_len` with the padding behind it, which the check covers. -/
  name_len : Bytes
  value_len : UInt32
  deriving DecidableEq, Repr

def KvHdr.ofBytes (b : Bytes) : KvHdr where
  status_table := b.take 1
  magic := ofLe32 ((b.drop 4).take 4)
  len := ofLe32 ((b.drop 8).take 4)
  crc32 := ofLe32 ((b.drop 12).take 4)
  name_len := (b.drop 16).take 4
  value_len := ofLe32 ((b.drop 20).take 4)

/-- The header behind its status, as it is written. -/
def KvHdr.tail (h : KvHdr) : Bytes := le32 h.magic ++ le32 h.len ++ le32 h.crc32 ++ h.name_len ++ le32 h.value_len

/-- `struct sector_hdr_data` -/
structure SectorHdr where
  store : Bytes
  dirty : Bytes
  magic : UInt32
  combined : UInt32
  reserved : UInt32
  deriving DecidableEq, Repr

def SectorHdr.ofBytes (b : Bytes) : SectorHdr where
  store := b.take 1
  dirty := (b.drop 1).take 1
  magic := ofLe32 ((b.drop 4).take 4)
  combined := ofLe32 ((b.drop 8).take 4)
  reserved := ofLe32 ((b.drop 12).take 4)

/-- The header behind its statuses. -/
def SectorHdr.tail (h : SectorHdr) : Bytes :=
  [FDB_BYTE_ERASED, FDB_BYTE_ERASED] ++ le32 h.magic ++ le32 h.combined ++ le32 h.reserved

def SectorHdr.bytes (h : SectorHdr) : Bytes := h.store ++ h.dirty ++ h.tail

/-! ## The sector cache -/

/-- `get_sector_from_cache` -/
def get_sector_from_cache (db : Kvdb) (sec_addr : Nat) : Option SecInfo :=
  db.sector_cache_table.find? fun sector => sector.addr = sec_addr

/-- What is written through the pointer that `get_sector_from_cache` returns. -/
def modifySector (sec_addr : Nat) (f : SecInfo → SecInfo) : List SecInfo → List SecInfo
  | [] => []
  | sector :: table =>
    if sector.addr = sec_addr then f sector :: table else sector :: modifySector sec_addr f table

/-- The loop of `update_sector_cache` from the index `i` on; there is an index where it comes to its
end. -/
def updateSectorLoop (sector : SecInfo) : Nat → List SecInfo → Nat → List SecInfo × Option Nat
  | _, [], empty_index => ([], some empty_index)
  | i, cached :: table, empty_index =>
    if cached.addr = sector.addr then
      ((if sector.check_ok then sector else { cached with addr := FDB_DATA_UNUSED }) :: table, none)
    else
      let (table, found) :=
        updateSectorLoop sector (i + 1) table (if cached.addr = FDB_DATA_UNUSED then i else empty_index)
      (cached :: table, found)

def update_sector_cache (db : Kvdb) (sector : SecInfo) : Kvdb :=
  match updateSectorLoop sector 0 db.sector_cache_table FDB_SECTOR_CACHE_TABLE_SIZE with
  | (table, none) => { db with sector_cache_table := table }
  | (table, some empty_index) =>
    if sector.check_ok ∧ empty_index < FDB_SECTOR_CACHE_TABLE_SIZE then
      { db with sector_cache_table := table.set empty_index sector }
    else
      { db with sector_cache_table := table }

def update_sector_empty_addr_cache (db : Kvdb) (sec_addr empty_addr : Nat) : Kvdb :=
  let fill (sector : SecInfo) : SecInfo :=
    { sector with empty_kv := empty_addr, remain := db.sec_size - (empty_addr - sector.addr) }
  { db with sector_cache_table := modifySector sec_addr fill db.sector_cache_table }

def update_sector_status_store_cache (db : Kvdb) (sec_addr : Nat) (status : StoreStatus) : Kvdb :=
  let mark (sector : SecInfo) : SecInfo := { sector with store := status }
  { db with sector_cache_table := modifySector sec_addr mark db.sector_cache_table }

/-! ## The cache of keys -/

/-- The upper half of the check of a name. -/
def nameCrc (name : Bytes) : UInt16 := (fdb_calc_crc32 0 name >>> 16).toUInt16

/-- The variables of `update_kv_cache`. -/
structure CacheSlots where
  empty_index : Nat
  min_activity_index : Nat
  min_activity : UInt16

/-- The loop of `update_kv_cache` from the index `i` on; there are variables where it comes to its
end. -/
def updateKvLoop (name_crc : UInt16) (addr : Nat) :
    Nat → List KvCacheNode → CacheSlots → List KvCacheNode × Option CacheSlots
  | _, [], v => ([], some v)
  | i, node :: table, v =>
    if addr ≠ FDB_DATA_UNUSED then
      if node.name_crc = name_crc then
        ({ node with addr := addr } :: table, none)
      else if node.addr = FDB_DATA_UNUSED ∧ v.empty_index = FDB_KV_CACHE_TABLE_SIZE then
        let (table, found) := updateKvLoop name_crc addr (i + 1) table { v with empty_index := i }
        (node :: table, found)
      else if node.addr ≠ FDB_DATA_UNUSED then
        let node := if node.active > 0 then { node with active := node.active - 1 } else node
        let v := if node.active < v.min_activity then
            { v with min_activity_index := i, min_activity := node.active }
          else v
        let (table, found) := updateKvLoop name_crc addr (i + 1) table v
        (node :: table, found)
      else
        let (table, found) := updateKvLoop name_crc addr (i + 1) table v
        (node :: table, found)
    else if node.name_crc = name_crc then
      -- delete the KV
      ({ node with addr := FDB_DATA_UNUSED, active := 0 } :: table, none)
    else
      let (table, found) := updateKvLoop name_crc addr (i + 1) table v
      (node :: table, found)

def update_kv_cache (db : Kvdb) (name : Bytes) (addr : Nat) : Kvdb :=
  let name_crc := nameCrc name
  let entry : KvCacheNode := ⟨name_crc, UInt16.ofNat FDB_KV_CACHE_TABLE_SIZE, addr⟩
  match updateKvLoop name_crc addr 0 db.kv_cache_table
    ⟨FDB_KV_CACHE_TABLE_SIZE, FDB_KV_CACHE_TABLE_SIZE, 0xFFFF⟩ with
  | (table, none) => { db with kv_cache_table := table }
  | (table, some v) =>
    if v.empty_index < FDB_KV_CACHE_TABLE_SIZE then
      { db with kv_cache_table := table.set v.empty_index entry }
    else if v.min_activity_index < FDB_KV_CACHE_TABLE_SIZE then
      { db with kv_cache_table := table.set v.min_activity_index entry }
    else
      { db with kv_cache_table := table }

/-- `strncmp(a, b, n) == 0`; behind its bytes a string is terminated. -/
def strncmpEq : Bytes → Bytes → Nat → Bool
  | _, _, 0 => true
  | a, b, n + 1 => a.headD 0 = b.headD 0 ∧ (a.headD 0 = 0 ∨ strncmpEq a.tail b.tail n)

/-- A node of the cache that was hit. -/
def KvCacheNode.hit (node : KvCacheNode) : KvCacheNode :=
  { node with active :=
      if node.active ≥ 0xFFFF - UInt16.ofNat FDB_KV_CACHE_TABLE_SIZE then 0xFFFF
      else node.active + UInt16.ofNat FDB_KV_CACHE_TABLE_SIZE }

/-- The loop of `get_kv_from_cache`: the address that is found, and the table. -/
def getKvLoop (name : Bytes) (name_crc : UInt16) : List KvCacheNode → Code (Option Nat × List KvCacheNode)
  | [] => return (none, [])
  | node :: table => do
    if node.addr ≠ FDB_DATA_UNUSED ∧ node.name_crc = name_crc then
      let (_, saved_name) ← fdb_flash_read (node.addr + KV_HDR_DATA_SIZE) FDB_KV_NAME_MAX
      if strncmpEq name saved_name.bytes name.length then
        return (some node.addr, node.hit :: table)
      else
        let (addr, table) ← getKvLoop name name_crc table
        return (addr, node :: table)
    else
      let (addr, table) ← getKvLoop name name_crc table
      return (addr, node :: table)

def get_kv_from_cache (db : Kvdb) (name : Bytes) : Code (Option Nat × Kvdb) := do
  let (addr, table) ← getKvLoop name (nameCrc name) db.kv_cache_table
  return (addr, { db with kv_cache_table := table })

/-! ## Going through a sector -/

/-- The inner loop of `find_next_kv_addr`: the magic word in `buf`, which was read from `addr` on, where
`left` positions of it are still to be looked at. -/
def findMagic (start_bak stop : Nat) : (left addr : Nat) → Bytes → Option Nat
  | 0, _, _ => none
  | left + 1, addr, buf =>
    if addr < stop then
      if ofLe32 (buf.take 4) = KV_MAGIC_WORD ∧ addr - KV_MAGIC_OFFSET ≥ start_bak then
        some (addr - KV_MAGIC_OFFSET)
      else
        findMagic start_bak stop left (addr + 1) (buf.drop 1)
    else
      none

/-- `find_next_kv_addr`: find the next KV address by magic word on the flash. -/
def find_next_kv_addr (db : Kvdb) (start stop : Nat) : Code Nat := do
  match get_sector_from_cache db (alignDown start db.sec_size) with
  | some sector =>
    if start = sector.empty_kv then return FAILED_ADDR else search
  | none => search
where
  search : Code Nat :=
    Prog.forever start fun addr => do
      if addr < stop ∧ addr + 32 < stop then
        let (err, buf) ← fdb_flash_read addr 32
        if err ≠ .noErr then
          return .done FAILED_ADDR
        else
          match findMagic start stop 28 addr buf.bytes with
          | some found => return .done found
          | none => return .next (addr + 28)
      else
        return .done FAILED_ADDR

def get_next_kv_addr (db : Kvdb) (sector : SecInfo) (pre_kv : Node) : Code Nat := do
  if sector.store = .empty then
    return FAILED_ADDR
  else if pre_kv.start = FAILED_ADDR then
    return sector.addr + SECTOR_HDR_DATA_SIZE
  else if pre_kv.start ≤ sector.addr + db.sec_size then
    -- behind a node whose check failed there may be anything
    let addr := if pre_kv.crc_is_ok then pre_kv.start + pre_kv.len else pre_kv.start + wgAlign 1
    let addr ← find_next_kv_addr db addr (sector.addr + db.sec_size - SECTOR_HDR_DATA_SIZE)
    if addr = FAILED_ADDR ∨ addr > sector.addr + db.sec_size ∨ pre_kv.len = 0 then
      return FAILED_ADDR
    else
      return addr
  else
    return FAILED_ADDR

/-- The loop of `read_kv` that computes the check of the data behind a header. -/
def dataCrc (addr crc_data_len : Nat) (calc_crc32 : UInt32) : Code UInt32 :=
  Prog.forever (0, calc_crc32) fun (len, crc) => do
    if len < crc_data_len then
      let size := if len + 32 < crc_data_len then 32 else crc_data_len - len
      let (_, buf) ← fdb_flash_read (addr + len) (wgAlign size)
      return .next (len + size, fdb_calc_crc32 crc (buf.bytes.take size))
    else
      return .done crc

/-- `read_kv`, once the length of the node is known to be possible. -/
def readChecked (kv : Node) (kv_hdr : KvHdr) : Code (FdbErr × Node) := do
  let calc_crc32 := fdb_calc_crc32 (fdb_calc_crc32 0 kv_hdr.name_len) (le32 kv_hdr.value_len)
  let calc_crc32 ← dataCrc (kv.start + KV_HDR_DATA_SIZE) (kv.len - KV_HDR_DATA_SIZE) calc_crc32
  let hdr_name_len := kv_hdr.name_len.headD 0
  let kv_name_addr := kv.start + KV_HDR_DATA_SIZE
  if calc_crc32 ≠ kv_hdr.crc32 then
    let name_len := if hdr_name_len.toNat > FDB_KV_NAME_MAX then FDB_KV_NAME_MAX else hdr_name_len.toNat
    let (_, name) ← fdb_flash_read kv_name_addr (wgAlign name_len)
    return (.readErr, { kv with crc_is_ok := false, name := kv.name.overlay name.bytes })
  else
    let (_, name) ← fdb_flash_read kv_name_addr (wgAlign hdr_name_len.toNat)
    -- A name that does not fit is written behind the array.
    let saved ← Prog.ofOption (kv.name.store? 0 name.bytes)
    let last := if hdr_name_len.toNat ≥ FDB_KV_NAME_MAX then FDB_KV_NAME_MAX - 1 else hdr_name_len.toNat
    let saved ← Prog.ofOption (saved.store? last [0])
    return (.noErr, { kv with
      crc_is_ok := true
      name := saved
      name_len := hdr_name_len
      value_len := kv_hdr.value_len.toNat
      value := kv_name_addr + wgAlign hdr_name_len.toNat })

def read_kv (db : Kvdb) (kv : Node) : Code (FdbErr × Node) := do
  let (_, hdr) ← fdb_flash_read kv.start KV_HDR_DATA_SIZE
  let kv_hdr := KvHdr.ofBytes hdr.bytes
  let kv := { kv with
    status := .ofStatus (fdb_get_status kv_hdr.status_table FDB_KV_STATUS_NUM)
    len := kv_hdr.len.toNat }
  if kv.len = 0xFFFFFFFF ∨ kv.len > db.max_size ∨ kv.len < KV_HDR_DATA_SIZE then
    let kv := { kv with len := KV_HDR_DATA_SIZE }
    if kv.status ≠ .errHdr then
      let _ ← fdb_write_status kv.start FDB_KV_STATUS_NUM KvStatus.errHdr.index true
      return (.readErr, { kv with status := .errHdr, crc_is_ok := false })
    else
      return (.readErr, { kv with crc_is_ok := false })
  else
    readChecked kv kv_hdr

/-- The loop of `read_sector_info` over the nodes of a sector, down to its end or to a node that cannot
be passed. -/
def traverseNodes (db : Kvdb) (sector : SecInfo) (kv_obj : Node) : Code (FdbErr × SecInfo) :=
  Prog.forever (sector, kv_obj) fun (sector, kv_obj) => do
    let (_, kv_obj) ← read_kv db kv_obj
    if !kv_obj.crc_is_ok ∧ kv_obj.status ≠ .preWrite ∧ kv_obj.status ≠ .errHdr then
      return .done (.readErr, { sector with remain := 0 })
    else
      let sector := { sector with
        empty_kv := sector.empty_kv + kv_obj.len
        remain := sector.remain - kv_obj.len }
      let start ← get_next_kv_addr db sector kv_obj
      if start ≠ FAILED_ADDR then
        return .next (sector, { kv_obj with start := start })
      else
        return .done (.noErr, sector)

/-- A local variable of which nothing is looked at before it is written. -/
def Node.uninit : Node := ⟨.unused, false, 0, 0, 0, .zeroed _, 0, 0⟩

def SecInfo.uninit : SecInfo := ⟨false, .unused, .unused, 0, 0, 0, 0, 0⟩

/-- `read_sector_info`, where it traverses the nodes and computes the space that remains. -/
def traverseSector (db : Kvdb) (sector : SecInfo) : Code (FdbErr × SecInfo) := do
  let sector := { sector with remain := 0, empty_kv := sector.addr + SECTOR_HDR_DATA_SIZE }
  match sector.store with
  | .empty => return (.noErr, { sector with remain := db.sec_size - SECTOR_HDR_DATA_SIZE })
  | .inUse =>
    let kv_obj := { Node.uninit with start := sector.addr + SECTOR_HDR_DATA_SIZE }
    let (result, sector) ←
      traverseNodes db { sector with remain := db.sec_size - SECTOR_HDR_DATA_SIZE } kv_obj
    let ff_addr ← fdb_continue_ff_addr sector.empty_kv (sector.addr + db.sec_size)
    if sector.empty_kv ≠ ff_addr then
      return (result, { sector with empty_kv := ff_addr, remain := db.sec_size - (ff_addr - sector.addr) })
    else
      return (result, sector)
  | _ => return (.noErr, sector)

/-- `read_sector_info`, where the sector is not read from the cache. -/
def readSectorHdr (db : Kvdb) (addr : Nat) (sector : SecInfo) (traversal : Bool) :
    Code (FdbErr × SecInfo × Kvdb) := do
  let (_, raw) ← fdb_flash_read addr SECTOR_HDR_DATA_SIZE
  let sec_hdr := SectorHdr.ofBytes raw.bytes
  let sector := { sector with store := .unused, dirty := .unused, addr := addr, magic := sec_hdr.magic }
  if sector.magic ≠ SECTOR_MAGIC_WORD ∨
      sec_hdr.combined.toNat ≠ SECTOR_NOT_COMBINED ∧ sec_hdr.combined.toNat ≠ SECTOR_COMBINED then
    return (.initFailed, { sector with check_ok := false, combined := SECTOR_NOT_COMBINED }, db)
  else
    let sector := { sector with
      check_ok := true
      combined := sec_hdr.combined.toNat
      store := .ofStatus (fdb_get_status sec_hdr.store FDB_SECTOR_STORE_STATUS_NUM)
      dirty := .ofStatus (fdb_get_status sec_hdr.dirty FDB_SECTOR_DIRTY_STATUS_NUM) }
    if traversal then
      let (result, sector) ← traverseSector db sector
      return (result, sector, update_sector_cache db sector)
    else
      match get_sector_from_cache db sector.addr with
      | some _ => return (.noErr, sector, db)
      | none =>
        let sector := { sector with empty_kv := FAILED_ADDR, remain := 0 }
        return (.noErr, sector, update_sector_cache db sector)

def read_sector_info (db : Kvdb) (addr : Nat) (sector : SecInfo) (traversal : Bool) :
    Code (FdbErr × SecInfo × Kvdb) := do
  fdbAssert (addr % db.sec_size = 0)
  match get_sector_from_cache db addr with
  | some sector_cache =>
    if !traversal ∨ sector_cache.empty_kv ≠ FAILED_ADDR then
      return (.noErr, sector_cache, db)
    else
      readSectorHdr db addr sector traversal
  | none => readSectorHdr db addr sector traversal

/-- `get_next_sector_addr`; the sums and the product are those of `uint32_t`. -/
def get_next_sector_addr (db : Kvdb) (pre_sec : SecInfo) (traversed_len : Nat) : Nat :=
  let cur_block_size :=
    if pre_sec.combined = SECTOR_NOT_COMBINED then db.sec_size
    else pre_sec.combined * db.sec_size % 4294967296
  if (traversed_len + cur_block_size) % 4294967296 ≤ db.max_size then
    -- if reach to the end, roll back to the first sector
    let next := (pre_sec.addr + cur_block_size) % 4294967296
    if next < db.max_size then next else 0
  else
    FAILED_ADDR

end FlashDb
