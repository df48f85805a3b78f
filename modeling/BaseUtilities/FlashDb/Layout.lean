import BaseUtilities.FlashDb.Checks
import BaseUtilities.FlashDb.Storage

/-!
# FlashDB: what a database has written

A sector is its header and the nodes that have been written behind it, and is erased from there on.  An
entry is a node that is complete; only its status changes from then on.  `Entry` and `Sector` say what
is in the storage in these terms, and `image` is how that looks there.
-/

open Effects Mem Kv Storage

namespace FlashDb

/-- A name of a key: a C string that fits into the array of a node, with its terminator. -/
structure Name where
  bytes : Bytes
  short : bytes.length < FDB_KV_NAME_MAX
  terminated : (0 : UInt8) ∉ bytes
  deriving DecidableEq

@[ext] theorem Name.ext {k k' : Name} (h : k.bytes = k'.bytes) : k = k' := by
  cases k; cases k'; cases h; rfl

/-- A name of one letter. -/
def Name.sample : Name := ⟨[107], by decide, by decide⟩

/-- What has become of a node that was written completely. -/
inductive Fate where
  | write
  | preDelete
  | deleted
  deriving DecidableEq, Repr

namespace Fate

def status : Fate → KvStatus
  | write => .write
  | preDelete => .preDelete
  | deleted => .deleted

end Fate

structure Entry where
  fate : Fate
  name : Name
  value : Bytes
  deriving DecidableEq

namespace Entry

def size (e : Entry) : Nat := KV_HDR_DATA_SIZE + e.name.bytes.length + e.value.length

def hdr (e : Entry) : KvHdr := newHdr e.name.bytes e.value

/-- The node behind its status. -/
def body (e : Entry) : Bytes := e.hdr.tail ++ e.name.bytes ++ e.value

def image (e : Entry) : Bytes :=
  statusByte e.fate.status.index :: List.replicate 3 erasedByte ++ e.body

/-- The header of the node, with its status. -/
def head (e : Entry) : Bytes := statusByte e.fate.status.index :: List.replicate 3 erasedByte ++ e.hdr.tail

end Entry

/-- The space that entries take. -/
def used : List Entry → Nat
  | [] => 0
  | e :: es => e.size + used es

def images (es : List Entry) : Bytes := es.flatMap Entry.image

structure Sector where
  dirty : DirtyStatus
  entries : List Entry
  deriving DecidableEq

namespace Sector

def store (s : Sector) : StoreStatus := if s.entries = [] then .empty else .inUse

/-- Where the erased bytes start. -/
def stop (s : Sector) : Nat := SECTOR_HDR_DATA_SIZE + used s.entries

end Sector

/-- The header of a sector with these statuses. -/
def sectorHdr (st : StoreStatus) (di : DirtyStatus) : SectorHdr where
  store := [statusByte st.index]
  dirty := [statusByte di.index]
  magic := SECTOR_MAGIC_WORD
  combined := UInt32.ofNat SECTOR_NOT_COMBINED
  reserved := UInt32.ofNat FDB_DATA_UNUSED

def Sector.image (s : Sector) : Bytes := (sectorHdr s.store s.dirty).bytes ++ images s.entries

/-! ## Sizes -/

@[simp] theorem length_le32 (v : UInt32) : (le32 v).length = 4 := rfl

theorem KvHdr.length_tail (h : KvHdr) (hname : h.name_len.length = 4) : h.tail.length = 20 := by
  simp [KvHdr.tail, hname]

@[simp] theorem Entry.length_hdr (e : Entry) : e.hdr.tail.length = 20 := KvHdr.length_tail _ rfl

@[simp] theorem Entry.length_body (e : Entry) : e.body.length = e.size - 4 := by
  simp only [Entry.body, List.length_append, Entry.length_hdr, Entry.size, KV_HDR_DATA_SIZE]
  omega

theorem Entry.size_ge (e : Entry) : KV_HDR_DATA_SIZE ≤ e.size := by
  simp only [Entry.size]
  omega

@[simp] theorem Entry.length_image (e : Entry) : e.image.length = e.size := by
  have := e.size_ge
  simp only [Entry.image, List.length_append, List.length_cons, List.length_replicate, Entry.length_body,
    KV_HDR_DATA_SIZE] at this ⊢
  omega

@[simp] theorem Entry.length_head (e : Entry) : e.head.length = KV_HDR_DATA_SIZE := by
  rw [Entry.head, List.length_append, Entry.length_hdr]
  rfl

/-- Behind the header are the name and the value. -/
theorem Entry.image_eq (e : Entry) : e.image = e.head ++ (e.name.bytes ++ e.value) := by
  rw [Entry.image, Entry.head, Entry.body, List.append_assoc, List.append_assoc]

@[simp] theorem used_append (es es' : List Entry) : used (es ++ es') = used es + used es' := by
  induction es with
  | nil => rw [List.nil_append, used, Nat.zero_add]
  | cons e es ih => rw [List.cons_append, used, used, ih, Nat.add_assoc]

@[simp] theorem used_nil : used [] = 0 := rfl

@[simp] theorem used_cons (e : Entry) (es : List Entry) : used (e :: es) = e.size + used es := rfl

@[simp] theorem images_append (es es' : List Entry) : images (es ++ es') = images es ++ images es' :=
  List.flatMap_append

@[simp] theorem images_nil : images [] = [] := rfl

@[simp] theorem images_cons (e : Entry) (es : List Entry) : images (e :: es) = e.image ++ images es := rfl

@[simp] theorem length_images (es : List Entry) : (images es).length = used es := by
  induction es with
  | nil => rfl
  | cons e es ih => rw [images_cons, List.length_append, Entry.length_image, ih, used_cons]

@[simp] theorem length_sectorHdr (st : StoreStatus) (di : DirtyStatus) :
    (sectorHdr st di).bytes.length = SECTOR_HDR_DATA_SIZE := rfl

@[simp] theorem Sector.length_image (s : Sector) : s.image.length = s.stop := by
  rw [Sector.image, List.length_append, length_sectorHdr, length_images, Sector.stop]

/-! ## Reading back -/

theorem ofLe32_le32 (v : UInt32) : ofLe32 (le32 v) = v := by
  apply UInt32.toBitVec_inj.mp
  apply BitVec.eq_of_getLsbD_eq
  intro i hi
  have h8 : (UInt32.toBitVec 8 % 32).toNat = 8 := rfl
  have h16 : (UInt32.toBitVec 16 % 32).toNat = 16 := rfl
  have h24 : (UInt32.toBitVec 24 % 32).toNat = 24 := rfl
  simp only [le32, ofLe32, UInt32.toBitVec_or, UInt32.toBitVec_shiftLeft, UInt8.toBitVec_toUInt32,
    UInt32.toBitVec_toUInt8, UInt32.toBitVec_shiftRight, BitVec.getLsbD_or, BitVec.getLsbD_setWidth,
    BitVec.shiftLeft_eq', BitVec.ushiftRight_eq', BitVec.getLsbD_shiftLeft, BitVec.getLsbD_ushiftRight,
    h8, h16, h24, hi, decide_true, Bool.true_and]
  -- Bit `i` comes from the byte that it lies in.
  rcases Nat.lt_or_ge i 8 with h₁ | h₁
  · simp [h₁, Nat.lt_trans h₁]
  rcases Nat.lt_or_ge i 16 with h₂ | h₂
  · have hpos : 8 + (i - 8) = i := by omega
    simp [Nat.not_lt.mpr h₁, h₂, Nat.lt_trans h₂, hpos, show i - 8 < 8 by omega, show i - 8 < 32 by omega]
  rcases Nat.lt_or_ge i 24 with h₃ | h₃
  · have hpos : 16 + (i - 16) = i := by omega
    simp [Nat.not_lt.mpr h₁, Nat.not_lt.mpr h₂, h₃, hpos, show ¬ i - 8 < 8 by omega,
      show i - 16 < 8 by omega, show i - 16 < 32 by omega]
  · have hpos : 24 + (i - 24) = i := by omega
    simp [Nat.not_lt.mpr h₁, Nat.not_lt.mpr h₂, Nat.not_lt.mpr h₃, hpos, show ¬ i - 8 < 8 by omega,
      show ¬ i - 16 < 8 by omega, show i - 24 < 8 by omega, show i - 24 < 32 by omega]

/-- Byte `k` of an integer. -/
theorem byte_ofLe32 {x y z t c : UInt8} {k i : Nat} (hk : k < 4) (hc : [x, y, z, t].getD k 0 = c) (hi : i < 8) :
    (ofLe32 [x, y, z, t]).toBitVec.getLsbD (8 * k + i) = c.toBitVec.getLsbD i := by
  have h8 : (UInt32.toBitVec 8 % 32).toNat = 8 := rfl
  have h16 : (UInt32.toBitVec 16 % 32).toNat = 16 := rfl
  have h24 : (UInt32.toBitVec 24 % 32).toNat = 24 := rfl
  have hclear : ∀ (c : UInt8) j, 8 ≤ j → c.toBitVec.getLsbD j = false := fun c j hj => BitVec.getLsbD_of_ge _ _ hj
  subst hc
  simp only [ofLe32, UInt32.toBitVec_or, UInt32.toBitVec_shiftLeft, UInt8.toBitVec_toUInt32, BitVec.getLsbD_or,
    BitVec.getLsbD_setWidth, BitVec.shiftLeft_eq', BitVec.getLsbD_shiftLeft, h8, h16, h24]
  obtain rfl | rfl | rfl | rfl : k = 0 ∨ k = 1 ∨ k = 2 ∨ k = 3 := by omega
  · simp [show i < 32 by omega, hi, show i < 16 by omega, show i < 24 by omega]
  · simp [show 8 + i < 32 by omega, show 8 + i < 16 by omega, show 8 + i < 24 by omega, show i < 32 by omega]
  · simp [show 16 + i < 32 by omega, show 16 + i < 24 by omega, hclear x (16 + i) (by omega),
      hclear y (16 + i - 8) (by omega), show i < 32 by omega, show ¬ (16 + i < 8) by omega]
  · simp [show 24 + i < 32 by omega, hclear x (24 + i) (by omega), hclear y (24 + i - 8) (by omega),
      hclear z (24 + i - 16) (by omega), show i < 32 by omega, show ¬ (24 + i < 8) by omega,
      show ¬ (24 + i < 16) by omega]

theorem le32_ofLe32 {b : Bytes} (h : b.length = 4) : le32 (ofLe32 b) = b := by
  obtain ⟨x, y, z, t, rfl⟩ := List.length_eq_four.mp h
  have hbyte : ∀ (s : UInt32) (k : Nat) (c : UInt8), k < 4 → (s.toBitVec % 32).toNat = 8 * k →
      [x, y, z, t].getD k 0 = c → (ofLe32 [x, y, z, t] >>> s).toUInt8 = c := by
    intro s k c hk hs hc
    apply UInt8.toBitVec_inj.mp
    apply BitVec.eq_of_getLsbD_eq
    intro i hi
    rw [UInt32.toBitVec_toUInt8, BitVec.getLsbD_setWidth, UInt32.toBitVec_shiftRight, BitVec.ushiftRight_eq',
      BitVec.getLsbD_ushiftRight, hs, byte_ofLe32 hk hc hi]
    simp [hi]
  have h0 : (ofLe32 [x, y, z, t]).toUInt8 = x := by
    have := hbyte 0 0 x (by decide) rfl rfl
    rwa [UInt32.shiftRight_zero] at this
  rw [le32, h0, hbyte 8 1 y (by decide) rfl rfl, hbyte 16 2 z (by decide) rfl rfl, hbyte 24 3 t (by decide) rfl rfl]

theorem KvHdr.ofBytes_tail (h : KvHdr) (k : Nat) (hname : h.name_len.length = 4) :
    KvHdr.ofBytes (statusByte k :: List.replicate 3 erasedByte ++ h.tail) =
      { h with status_table := [statusByte k] } := by
  obtain ⟨status_table, magic, len, crc32, name_len, value_len⟩ := h
  obtain ⟨a, b, c, d, rfl⟩ : ∃ a b c d, name_len = [a, b, c, d] := by
    match name_len, hname with
    | [a, b, c, d], _ => exact ⟨a, b, c, d, rfl⟩
  show KvHdr.mk _ _ _ _ _ _ = KvHdr.mk _ _ _ _ _ _
  congr 1
  · exact ofLe32_le32 magic
  · exact ofLe32_le32 len
  · exact ofLe32_le32 crc32
  · exact ofLe32_le32 value_len

theorem SectorHdr.ofBytes_bytes (h : SectorHdr) (hstore : h.store.length = 1)
    (hdirty : h.dirty.length = 1) : SectorHdr.ofBytes h.bytes = h := by
  obtain ⟨store, dirty, magic, combined, reserved⟩ := h
  obtain ⟨a, rfl⟩ := List.length_eq_one_iff.mp hstore
  obtain ⟨b, rfl⟩ := List.length_eq_one_iff.mp hdirty
  show SectorHdr.mk _ _ _ _ _ = SectorHdr.mk _ _ _ _ _
  congr 1
  · exact ofLe32_le32 magic
  · exact ofLe32_le32 combined
  · exact ofLe32_le32 reserved

theorem KvStatus.ofStatus_index (s : KvStatus) : KvStatus.ofStatus s.index = s := by cases s <;> rfl

theorem StoreStatus.ofStatus_index (s : StoreStatus) : StoreStatus.ofStatus s.index = s := by
  cases s <;> rfl

theorem DirtyStatus.ofStatus_index (s : DirtyStatus) : DirtyStatus.ofStatus s.index = s := by
  cases s <;> rfl

/-! ## What is in the storage -/

/-- A sector as the operations leave it; none is ever filled up, so that a whole name can be read from
any node. -/
structure Sector.Wf (G : Geometry) (s : Sector) : Prop where
  clean : s.entries = [] → s.dirty = .clean
  marked : s.dirty ≠ .unused
  room : s.stop + FDB_SEC_REMAIN_THRESHOLD < G.sec_size

/-- `Stored w A`: the storage `w` looks like the sectors `A`. -/
structure Stored {G : Geometry} (w : Flash G) (A : Nat → Sector) : Prop where
  wf : ∀ i < G.count, (A i).Wf G
  image : ∀ i < G.count, w i = (erased G.sec_size).overlay (A i).image

/-- Storage that looks like the sectors `A`. -/
def Flash.imaged (G : Geometry) (A : Nat → Sector) : Flash G := fun i => (erased G.sec_size).overlay (A i).image

/-- `data` is in the sector `i` from `off` on. -/
def Contains {G : Geometry} (w : Flash G) (i off : Nat) (data : Bytes) : Prop :=
  ∀ k n, k + n ≤ data.length → (w i).load? (off + k) n = some ((data.drop k).take n)

variable {G : Geometry} {w : Flash G} {A : Nat → Sector} {i : Nat}

theorem stored_small (hfirst : (A 0).Wf .small) (hsecond : (A 1).Wf .small) : Stored (Flash.imaged .small A) A where
  wf i hi := by
    obtain rfl | rfl := Geometry.lt_small hi
    · exact hfirst
    · exact hsecond
  image _ _ := rfl

theorem Contains.slice {off : Nat} (pre mid post : Bytes) (h : Contains w i off (pre ++ mid ++ post)) :
    Contains w i (off + pre.length) mid := by
  intro k n hkn
  have hload := h (pre.length + k) n (by simp only [List.length_append]; omega)
  rw [← Nat.add_assoc] at hload
  rw [hload, List.append_assoc, List.drop_append, List.drop_of_length_le (Nat.le_add_right _ _),
    List.nil_append, Nat.add_sub_cancel_left, List.drop_append_of_le_length (by omega),
    List.take_append_of_le_length (by rw [List.length_drop]; omega)]

theorem Contains.load {off : Nat} {data : Bytes} (h : Contains w i off data) :
    (w i).load? off data.length = some data := by
  have hload := h 0 data.length (by omega)
  rwa [Nat.add_zero, List.drop_zero, List.take_length] at hload

theorem Contains.load_take {off n : Nat} {data : Bytes} (h : Contains w i off data) (hn : n ≤ data.length) :
    (w i).load? off n = some (data.take n) := by
  have hload := h 0 n (by omega)
  rwa [Nat.add_zero, List.drop_zero] at hload

theorem Contains.head {off : Nat} {mid post : Bytes} (h : Contains w i off (mid ++ post)) :
    Contains w i off mid :=
  Contains.slice [] mid post h

theorem Contains.tail {off : Nat} {pre mid : Bytes} (h : Contains w i off (pre ++ mid)) :
    Contains w i (off + pre.length) mid :=
  Contains.slice pre mid [] (by rwa [List.append_nil])

/-- What is in a sector from some of its entries on, the erased bytes included. -/
theorem Stored.contains (h : Stored w A) (hi : i < G.count) (pre post : List Entry)
    (hentries : (A i).entries = pre ++ post) :
    Contains w i (SECTOR_HDR_DATA_SIZE + used pre)
      (images post ++ List.replicate (G.sec_size - (A i).stop) erasedByte) := by
  have hroom := (h.wf i hi).room
  have hall : Contains w i 0 ((A i).image ++ List.replicate (G.sec_size - (A i).stop) erasedByte) := by
    intro k n hkn
    simp only [List.length_append, Sector.length_image, List.length_replicate] at hkn
    rw [h.image i hi, load?_overlay_drop (by rw [Sector.length_image]; omega) (by omega), Nat.zero_add,
      Sector.length_image]
  rw [Sector.image, hentries, images_append, List.append_assoc, List.append_assoc] at hall
  have hrest := hall.tail.tail
  rwa [length_sectorHdr, length_images, Nat.zero_add] at hrest

theorem Stored.contains_entry (h : Stored w A) (hi : i < G.count) {pre post : List Entry} {e : Entry}
    (hentries : (A i).entries = pre ++ e :: post) :
    Contains w i (SECTOR_HDR_DATA_SIZE + used pre) e.image := by
  have hrest := h.contains hi _ _ hentries
  rw [images_cons, List.append_assoc] at hrest
  exact hrest.head

theorem contains_header {S : Sector} (hwf : S.Wf G) (himage : w i = (erased G.sec_size).overlay S.image) :
    Contains w i 0 (sectorHdr S.store S.dirty).bytes := by
  have hroom := hwf.room
  have hall : Contains w i 0 S.image := by
    intro k n hkn
    rw [Sector.length_image] at hkn
    rw [himage, load?_overlay_drop (by rw [Sector.length_image]; omega) (by omega), Nat.zero_add,
      List.drop_append_of_le_length (by rw [Sector.length_image]; omega),
      List.take_append_of_le_length (by rw [List.length_drop, Sector.length_image]; omega)]
  rw [Sector.image] at hall
  exact hall.head

theorem Stored.contains_header (h : Stored w A) (hi : i < G.count) :
    Contains w i 0 (sectorHdr (A i).store (A i).dirty).bytes :=
  FlashDb.contains_header (h.wf i hi) (h.image i hi)

end FlashDb
