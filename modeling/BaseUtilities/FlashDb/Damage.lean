import BaseUtilities.FlashDb.Sectors

/-!
# FlashDB: damaged nodes

The check of a node covers all of its bytes but its status, its magic word, its length and the check itself.  Wrong
bytes among those that it covers, no more than four next to each other, are noticed when the node is read.
-/

open Effects Mem Kv Storage

namespace FlashDb

variable {G : Geometry} {w : Flash G} {A : Nat → Sector} {i : Nat} {db : Kvdb}

/-- Where the first 16 bytes of a header are known, its length and its check are. -/
theorem KvHdr.ofBytes_take {b c : Bytes} (h : b.take 16 = c.take 16) :
    (KvHdr.ofBytes b).status_table = (KvHdr.ofBytes c).status_table ∧
      (KvHdr.ofBytes b).len = (KvHdr.ofBytes c).len ∧ (KvHdr.ofBytes b).crc32 = (KvHdr.ofBytes c).crc32 := by
  have hslice : ∀ d n, d + n ≤ 16 → (b.drop d).take n = (c.drop d).take n := by
    intro d n hdn
    have hb : ∀ l : Bytes, (l.drop d).take n = ((l.take 16).drop d).take n := by
      intro l
      rw [List.drop_take, List.take_take, Nat.min_eq_left (by omega)]
    rw [hb b, hb c, h]
  refine ⟨?_, ?_, ?_⟩
  · have hstatus := hslice 0 1 (by omega)
    rwa [List.drop_zero, List.drop_zero] at hstatus
  · exact congrArg ofLe32 (hslice 8 4 (by omega))
  · exact congrArg ofLe32 (hslice 12 4 (by omega))

/-- What `read_kv` checks, header and data, stands in one piece in the storage. -/
theorem checked_bytes (image : Bytes) : ((image.take KV_HDR_DATA_SIZE).drop 16).take 4 ++
    ((image.take KV_HDR_DATA_SIZE).drop 20).take 4 ++ image.drop KV_HDR_DATA_SIZE = image.drop 16 := by
  have h20 : image.drop 20 = (image.drop 16).drop 4 := by rw [List.drop_drop]
  have h24 : image.drop KV_HDR_DATA_SIZE = (image.drop 16).drop (4 + 4) := by rw [List.drop_drop]
  rw [List.drop_take, List.drop_take, List.take_take, List.take_take, h20, h24]
  show (image.drop 16).take 4 ++ ((image.drop 16).drop 4).take 4 ++ (image.drop 16).drop (4 + 4) = image.drop 16
  rw [← List.take_add, List.take_append_drop]

/-- What the check of a node covers: the bytes from the length of its name on. -/
theorem Entry.crc32_image (e : Entry) : e.hdr.crc32 = fdb_calc_crc32 0 (e.image.drop 16) := by
  rw [e.crc32_eq, ← fdb_calc_crc32_append, ← fdb_calc_crc32_append]
  congr 1

theorem contains_self (w : Flash G) (i off len : Nat) (h : off + len ≤ G.sec_size) :
    Contains w i off (((w i).bytes.drop off).take len) := by
  intro k n hkn
  have hlen : (((w i).bytes.drop off).take len).length = len := by
    rw [List.length_take, List.length_drop, (w i).size_eq]
    omega
  rw [hlen] at hkn
  rw [Buffer.load?_eq_some (by omega), List.drop_take, List.take_take, Nat.min_eq_left (by omega), List.drop_drop]

/-- A node whose check is not that of its bytes. -/
theorem readChecked_detects {off : Nat} {data : Bytes} (hi : i < G.count) {kv : Node} {kv_hdr : KvHdr}
    (hstart : kv.start = G.addr i off) (hlen : kv.len = KV_HDR_DATA_SIZE + data.length)
    (hdata : Contains w i (off + KV_HDR_DATA_SIZE) data)
    (hroom : off + KV_HDR_DATA_SIZE + data.length + FDB_KV_NAME_MAX < G.sec_size)
    (hwrong : fdb_calc_crc32 (fdb_calc_crc32 (fdb_calc_crc32 0 kv_hdr.name_len) (le32 kv_hdr.value_len)) data ≠
      kv_hdr.crc32) :
    Runs (readChecked kv kv_hdr) (fun r w' => w' = w ∧ r.1 = .readErr ∧ r.2.crc_is_ok = false) w := by
  have haddr : kv.start + KV_HDR_DATA_SIZE = G.addr i (off + KV_HDR_DATA_SIZE) := by
    rw [hstart, Geometry.addr, Geometry.addr, Nat.add_assoc]
  unfold readChecked
  dsimp only
  rw [hlen, Nat.add_sub_cancel_left, haddr]
  refine (dataCrc_runs hi (by omega) hdata _).bind ?_
  rintro _ w ⟨rfl, rfl⟩
  rw [if_pos hwrong]
  have hshort : wgAlign (if (kv_hdr.name_len.headD 0).toNat > FDB_KV_NAME_MAX then FDB_KV_NAME_MAX
      else (kv_hdr.name_len.headD 0).toNat) ≤ FDB_KV_NAME_MAX := by
    rw [wgAlign_eq]
    split <;> omega
  exact runs_read rfl hi (by omega) (Buffer.load?_eq_some (by omega)) fun name _ => runs_ret ⟨rfl, rfl, rfl⟩

variable {b : Buffer G.sec_size} {head good bad tail : Bytes}

/-- In the sector `i` the bytes `good` behind `head` have become `bad`. -/
structure Damaged (w : Flash G) (i : Nat) (b : Buffer G.sec_size) (head good bad tail : Bytes) : Prop where
  before : (w i).bytes = head ++ good ++ tail
  after : b.bytes = head ++ bad ++ tail
  length : good.length = bad.length
  different : good ≠ bad

/-- What has become of the bytes that `good` is among. -/
theorem Damaged.slices (h : Damaged w i b head good bad tail) (off len : Nat) (hoff : off ≤ head.length)
    (hend : head.length + good.length ≤ off + len) :
    ∃ pre post, ((w i).bytes.drop off).take len = pre ++ good ++ post ∧
      (b.bytes.drop off).take len = pre ++ bad ++ post ∧ pre.length = head.length - off := by
  have hslice : ∀ mid : Bytes, mid.length = good.length → ((head ++ mid ++ tail).drop off).take len =
      head.drop off ++ mid ++ tail.take (len - (head.length - off) - good.length) := by
    intro mid hmid
    rw [List.append_assoc, List.drop_append_of_le_length hoff, ← List.append_assoc, List.take_append,
      List.take_of_length_le, List.length_append, List.length_drop, hmid, Nat.sub_sub]
    rw [List.length_append, List.length_drop, hmid]
    omega
  exact ⟨head.drop off, tail.take _, by rw [h.before]; exact hslice good rfl,
    by rw [h.after]; exact hslice bad h.length.symm, List.length_drop⟩

/-- Wrong bytes among those that a check covers are noticed. -/
theorem read_kv_detects_burst (h : Stored w A) (hmax : db.max_size = G.max_size) (hi : i < G.count)
    {pre post : List Entry} {e : Entry} (hentries : (A i).entries = pre ++ e :: post) {kv : Node}
    (hstart : kv.start = G.addr i (SECTOR_HDR_DATA_SIZE + used pre)) (hdamaged : Damaged w i b head good bad tail)
    (hshort : good.length ≤ 4) (hfrom : SECTOR_HDR_DATA_SIZE + used pre + 16 ≤ head.length)
    (hto : head.length + good.length ≤ SECTOR_HDR_DATA_SIZE + used pre + e.size) :
    Runs (read_kv db kv) (fun r w' => w' = Function.update w i b ∧ r.1 = .readErr ∧ r.2.crc_is_ok = false)
      (Function.update w i b) := by
  have hroom := h.entry_room hi hentries
  have hsize : e.size < 2 ^ 32 := by have := G.sec_le; omega
  have hge := e.size_ge
  have hentry := (h.contains_entry hi hentries).load
  set off := SECTOR_HDR_DATA_SIZE + used pre with hoff
  rw [e.length_image, Buffer.load?_eq_some (by omega)] at hentry
  obtain ⟨front, back, hbefore, hafter, hfront⟩ := hdamaged.slices off e.size (by omega) hto
  rw [Option.some.inj hentry] at hbefore
  -- What is there now instead of the image of the entry.
  set image := (b.bytes.drop off).take e.size with himage
  have hlen : image.length = e.size := by
    rw [himage, List.length_take, List.length_drop, b.size_eq]
    omega
  have hself : Function.update w i b i = b := Function.update_self _ _ _
  have hcontains : Contains (Function.update w i b) i off image := by
    have hcontains := contains_self (Function.update w i b) i off e.size (by omega)
    rwa [hself] at hcontains
  have hkv : KV_HDR_DATA_SIZE = 24 := rfl
  have hthreshold : FDB_SEC_REMAIN_THRESHOLD = 88 := rfl
  have hmaxname : FDB_KV_NAME_MAX = 64 := rfl
  unfold read_kv
  refine runs_read hstart hi (by omega) (hcontains.load_take (by omega)) ?_
  intro buf hbuf
  have hhead : buf.bytes.take 16 = e.head.take 16 := by
    have htake : e.image.take 16 = e.head.take 16 := by
      rw [e.image_eq, List.take_append_of_le_length (by rw [e.length_head]; decide)]
    rw [hbuf, List.take_take, Nat.min_eq_left (by omega), ← htake, hafter, hbefore, List.append_assoc,
      List.append_assoc, List.take_append_of_le_length (by omega), List.take_append_of_le_length (by omega)]
  obtain ⟨hstatus, hhlen, hcheck⟩ := KvHdr.ofBytes_take hhead
  have hhdr : KvHdr.ofBytes e.head = { e.hdr with status_table := [statusByte e.fate.status.index] } :=
    KvHdr.ofBytes_tail e.hdr _ rfl
  rw [hhdr] at hstatus hhlen hcheck
  have hfate : e.fate.status.index < FDB_KV_STATUS_NUM := by cases e.fate <;> decide
  dsimp only at hstatus hhlen hcheck ⊢
  rw [hhlen, Entry.hdr_len_toNat hsize, if_neg (h.len_possible hmax hi hentries)]
  have hrest : (image.drop KV_HDR_DATA_SIZE).length = e.size - KV_HDR_DATA_SIZE := by rw [List.length_drop, hlen]
  have hdata : Contains (Function.update w i b) i (off + KV_HDR_DATA_SIZE) (image.drop KV_HDR_DATA_SIZE) := by
    have hparts : Contains (Function.update w i b) i off
        (image.take KV_HDR_DATA_SIZE ++ image.drop KV_HDR_DATA_SIZE) := by
      rwa [List.take_append_drop]
    have htail := hparts.tail
    rwa [List.length_take, hlen, Nat.min_eq_left hge] at htail
  refine readChecked_detects hi hstart (by dsimp only; omega) hdata (by rw [hrest]; omega) ?_
  have hchecked : (buf.bytes.drop 16).take 4 ++ (buf.bytes.drop 20).take 4 ++ image.drop KV_HDR_DATA_SIZE =
      image.drop 16 := by
    rw [hbuf]
    exact checked_bytes image
  rw [hcheck, e.crc32_image]
  dsimp only [KvHdr.ofBytes]
  rw [le32_ofLe32 (by rw [List.length_take, List.length_drop, hbuf, List.length_take]; omega),
    ← fdb_calc_crc32_append, ← fdb_calc_crc32_append, ← List.append_assoc, hchecked, hafter, hbefore]
  intro heq
  have hdrop : ∀ mid : Bytes, (front ++ mid ++ back).drop 16 = front.drop 16 ++ mid ++ back := by
    intro mid
    rw [List.append_assoc, List.drop_append_of_le_length (by omega), List.append_assoc]
  rw [hdrop, hdrop] at heq
  exact hdamaged.different (fdb_calc_crc32_burst hdamaged.length hshort heq.symm)

/-- A sector with one node, whose value is a single byte. -/
def stocked : Nat → Sector
  | 0 => ⟨.clean, [⟨.write, Name.sample, [1]⟩]⟩
  | _ => ⟨.clean, []⟩

theorem stocked_stored : Stored (Flash.imaged .small stocked) stocked :=
  stored_small ⟨by decide, by decide, by decide⟩ ⟨by decide, by decide, by decide⟩

/-- What stands before the value. -/
def stockedHead : Bytes :=
  (sectorHdr .inUse .clean).bytes ++ (Entry.head ⟨.write, Name.sample, [1]⟩ ++ Name.sample.bytes)

theorem length_stockedHead : stockedHead.length = 41 := by
  rw [stockedHead, List.length_append, List.length_append, length_sectorHdr, Entry.length_head]
  rfl

/-- The value with its lowest bit lost. -/
def spoilt : Buffer 256 :=
  ⟨stockedHead ++ [0] ++ List.replicate 214 erasedByte, by
    rw [List.length_append, List.length_append, length_stockedHead, List.length_replicate]
    rfl⟩

theorem stocked_damaged : Damaged (Flash.imaged .small stocked) 0 spoilt stockedHead [1] [0]
    (List.replicate 214 erasedByte) where
  before := by
    have himage : (stocked 0).image = stockedHead ++ [1] := by
      rw [Sector.image, stocked, images_cons, images_nil, List.append_nil, Entry.image_eq, stockedHead]
      simp only [List.append_assoc]
      rfl
    have hlen : (stockedHead ++ [1]).length = 42 := by rw [List.length_append, length_stockedHead]; rfl
    rw [Flash.imaged, himage, overlay_erased_bytes (by rw [hlen]; decide), hlen]
    rfl
  after := rfl
  length := rfl
  different := by decide

theorem read_kv_detects_burst_spoilt :
    Runs (read_kv (Kvdb.blank .small false []) { Node.uninit with start := 16 })
      (fun r w' => w' = Function.update (Flash.imaged .small stocked) 0 spoilt ∧ r.1 = .readErr ∧ r.2.crc_is_ok = false)
      (Function.update (Flash.imaged .small stocked) 0 spoilt) :=
  read_kv_detects_burst stocked_stored rfl (by decide)
    (show (stocked 0).entries = [] ++ ⟨.write, Name.sample, [1]⟩ :: [] from rfl) rfl stocked_damaged (by decide)
    (by rw [length_stockedHead]; decide) (by rw [length_stockedHead]; decide)

end FlashDb
