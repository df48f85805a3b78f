import BaseUtilities.FlashDb.Finding

/-!
# FlashDB: writing to the storage

What the functions that write make of a sector, byte by byte: a status over another one, the header, the
name and the value of a new node behind the others, and a node that is copied.  In between a sector is
not what `Stored` describes, so these results speak of its bytes.
-/

open Effects Mem Kv Storage

namespace FlashDb

variable {G : Geometry} {w : Flash G} {A : Nat → Sector} {i : Nat} {db db' : Kvdb} {β : Type}
  {R : β → Flash G → Prop}

/-- A sector of which these bytes have been written. -/
abbrev Flash.written (w : Flash G) (i : Nat) (s : Bytes) : Flash G :=
  Function.update w i ((erased G.sec_size).overlay s)

theorem Flash.written_written (w : Flash G) (i : Nat) (s s' : Bytes) :
    (w.written i s).written i s' = w.written i s' :=
  Function.update_idem _ _ _

theorem Stored.written_self (h : Stored w A) (hi : i < G.count) : w.written i (A i).image = w := by
  rw [Flash.written, ← h.image i hi, Function.update_eq_self]

theorem Stored.written (h : Stored w A) {S : Sector} (hS : S.Wf G) :
    Stored (w.written i S.image) (Function.update A i S) where
  wf j hj := by
    by_cases hji : j = i
    · subst hji
      rwa [Function.update_self]
    · rw [Function.update_of_ne hji]
      exact h.wf j hj
  image j hj := by
    by_cases hji : j = i
    · subst hji
      rw [Function.update_self, Flash.written, Function.update_self]
    · rw [Function.update_of_ne hji, Flash.written, Function.update_of_ne hji]
      exact h.image j hj

theorem runs_behind {addr k : Nat} {s src : Bytes} {sync : Bool} {f : FdbErr → Code β}
    (haddr : addr = G.addr i (s.length + k)) (hi : i < G.count) (hlt : s.length + k < G.sec_size)
    (hfit : s.length + k + src.length ≤ G.sec_size)
    (h : Runs (f .noErr) R (w.written i (s ++ List.replicate k erasedByte ++ src))) :
    Runs (fdb_flash_write addr src sync >>= f) R (w.written i s) := by
  refine runs_write haddr hi hlt ?_ (by rwa [Function.update_idem])
  rw [Flash.written, Function.update_self]
  exact program?_behind hfit

theorem runs_over {addr : Nat} {s : Bytes} (pre old new post : Bytes) {sync : Bool} {f : FdbErr → Code β}
    (hs : s = pre ++ old ++ post) (hlen : old.length = new.length) (hclears : Clears old new)
    (haddr : addr = G.addr i pre.length) (hi : i < G.count) (hlt : pre.length < G.sec_size)
    (hfit : s.length ≤ G.sec_size) (h : Runs (f .noErr) R (w.written i (pre ++ new ++ post))) :
    Runs (fdb_flash_write addr new sync >>= f) R (w.written i s) := by
  refine runs_write haddr hi hlt ?_ (by rwa [Function.update_idem])
  rw [Flash.written, Function.update_self]
  exact program?_over pre old new post hs hlen hclears hfit

/-! ## Statuses -/

theorem runs_write_status {addr n k : Nat} {sync : Bool} {f : FdbErr → Code β} (hn : n ≤ 8) (hk : k < n)
    (hpos : 0 < k) (h : Runs (fdb_flash_write addr [statusByte k] sync >>= f) R w) :
    Runs (fdb_write_status addr n k sync >>= f) R w := by
  unfold fdb_write_status
  rw [bind_assoc]
  refine runs_assert hk ?_
  rw [fdb_set_status_eq n hn k hk hpos]
  exact h

theorem clears_status : ∀ k < 8, ∀ j ≤ k, Clears [statusByte j] [statusByte k] := by decide

/-- The status of an entry. -/
theorem runs_write_fate (h : Stored w A) (hi : i < G.count) {pre post : List Entry} {e : Entry}
    (hentries : (A i).entries = pre ++ e :: post) (fate : Fate) {d : DirtyStatus} (hd : d = (A i).dirty)
    (hle : e.fate.status.index ≤ fate.status.index) {sync : Bool} {f : FdbErr → Code β}
    (hf : Runs (f .noErr) R (w.written i (Sector.image ⟨d, pre ++ { e with fate := fate } :: post⟩))) :
    Runs (fdb_write_status (G.addr i (SECTOR_HDR_DATA_SIZE + used pre)) FDB_KV_STATUS_NUM fate.status.index
      sync >>= f) R w := by
  have hroom := h.entry_room hi hentries
  have hlt : fate.status.index < FDB_KV_STATUS_NUM := by cases fate <;> decide
  have hpos : 0 < fate.status.index := by cases fate <;> decide
  refine runs_write_status (by decide) hlt hpos ?_
  rw [← h.written_self hi]
  have himage : ∀ g : Fate, Sector.image ⟨d, pre ++ { e with fate := g } :: post⟩ =
      ((sectorHdr .inUse d).bytes ++ images pre) ++ [statusByte g.status.index] ++
        (List.replicate 3 erasedByte ++ e.body ++ images post) := by
    intro g
    rw [Sector.image, Sector.store_inUse (by simp), images_append, images_cons, Entry.image]
    simp [Entry.body, Entry.hdr]
  have hold : (A i).image = Sector.image ⟨d, pre ++ { e with fate := e.fate } :: post⟩ := by
    rw [hd, ← hentries]
  rw [himage] at hf
  refine runs_over _ _ _ _ (hold.trans (himage e.fate)) rfl
    (clears_status _ (by simp only [FDB_KV_STATUS_NUM] at hlt; omega) _ hle) ?_ hi ?_ ?_ hf
  · rw [List.length_append, length_sectorHdr, length_images]
  · rw [List.length_append, length_sectorHdr, length_images]
    have := e.size_ge
    simp only [KV_HDR_DATA_SIZE] at this
    omega
  · rw [Sector.length_image]
    exact Nat.le_of_lt (h.wf i hi).stop_lt

/-- The status of what a sector stores. -/
theorem runs_write_store (hi : i < G.count) {st st' : StoreStatus} {d : DirtyStatus} {rest : Bytes}
    (hle : st.index ≤ st'.index) (hpos : 0 < st'.index) (hfit : SECTOR_HDR_DATA_SIZE + rest.length ≤ G.sec_size)
    {sync : Bool} {f : FdbErr → Code β}
    (hf : Runs (f .noErr) R (w.written i ((sectorHdr st' d).bytes ++ rest))) :
    Runs (fdb_write_status (i * G.sec_size) FDB_SECTOR_STORE_STATUS_NUM st'.index sync >>= f) R
      (w.written i ((sectorHdr st d).bytes ++ rest)) := by
  have hlt := st'.index_lt
  refine runs_write_status (by decide) hlt hpos ?_
  refine runs_over [] [statusByte st.index] [statusByte st'.index]
    ([statusByte d.index] ++ (sectorHdr st d).tail ++ rest) rfl rfl
    (clears_status _ (by simp only [FDB_SECTOR_STORE_STATUS_NUM] at hlt; omega) _ hle) rfl hi G.sec_pos ?_ hf
  rw [List.length_append, length_sectorHdr]
  exact hfit

/-- The mark of a sector. -/
theorem runs_write_dirty (h : Stored w A) (hi : i < G.count) {d : DirtyStatus}
    (hle : (A i).dirty.index ≤ d.index) (hpos : 0 < d.index) {sync : Bool} {f : FdbErr → Code β}
    (hf : Runs (f .noErr) R (w.written i (Sector.image ⟨d, (A i).entries⟩))) :
    Runs (fdb_write_status (i * G.sec_size + SECTOR_DIRTY_OFFSET) FDB_SECTOR_DIRTY_STATUS_NUM d.index sync >>= f)
      R w := by
  have hlt := d.index_lt
  refine runs_write_status (by decide) hlt hpos ?_
  rw [← h.written_self hi]
  refine runs_over [statusByte (A i).store.index] [statusByte (A i).dirty.index] [statusByte d.index]
    ((sectorHdr (A i).store d).tail ++ images (A i).entries) ?_ rfl
    (clears_status _ (by simp only [FDB_SECTOR_DIRTY_STATUS_NUM] at hlt; omega) _ hle) rfl hi ?_ ?_ ?_
  · rw [Sector.image, SectorHdr.bytes, List.append_assoc]
    rfl
  · show 1 < G.sec_size
    have := G.room
    omega
  · rw [Sector.length_image]
    exact Nat.le_of_lt (h.wf i hi).stop_lt
  · rw [Sector.image, SectorHdr.bytes, List.append_assoc] at hf
    exact hf

/-! ## A new node -/

theorem fdb_flash_write_align_runs {addr : Nat} {s src : Bytes} (haddr : addr = G.addr i s.length)
    (hi : i < G.count) (hlt : s.length < G.sec_size) (hfit : s.length + src.length ≤ G.sec_size) :
    Runs (fdb_flash_write_align addr src) (fun r w' => r = .noErr ∧ w' = w.written i (s ++ src))
      (w.written i s) := by
  unfold fdb_flash_write_align
  dsimp only
  rw [wgAlignDown_eq, Nat.sub_self]
  by_cases hsrc : src = []
  · subst hsrc
    rw [if_neg (by simp)]
    refine runs_ret ?_
    rw [List.append_nil]
    exact ⟨rfl, rfl⟩
  · rw [if_pos (List.length_pos_iff.mpr hsrc), List.take_length]
    refine runs_behind (k := 0) haddr hi hlt hfit (runs_ret ?_)
    rw [List.replicate_zero, List.append_nil]
    exact ⟨rfl, rfl⟩

/-- The header of a node, with the status `preWrite`. -/
theorem write_kv_hdr_runs {addr : Nat} {s : Bytes} {hdr : KvHdr} (hname : hdr.name_len.length = 4)
    (haddr : addr = G.addr i s.length) (hi : i < G.count) (hfit : s.length + KV_HDR_DATA_SIZE ≤ G.sec_size) :
    Runs (write_kv_hdr addr hdr) (fun r w' => r = .noErr ∧ w' = w.written i
      (s ++ (statusByte KvStatus.preWrite.index :: List.replicate 3 erasedByte ++ hdr.tail))) (w.written i s) := by
  have hkv : KV_HDR_DATA_SIZE = 24 := rfl
  have htail := hdr.length_tail hname
  unfold write_kv_hdr
  refine runs_write_status (by decide) (by decide) (by decide) ?_
  refine runs_behind (k := 0) haddr hi (by omega) (by rw [List.length_singleton]; omega) ?_
  rw [List.replicate_zero, List.append_nil, if_neg (by simp)]
  have hlen : (s ++ [statusByte KvStatus.preWrite.index]).length = s.length + 1 := by simp
  have hlast : Runs (fdb_flash_write (addr + KV_MAGIC_OFFSET) hdr.tail false >>= .ret)
      (fun r w' => r = .noErr ∧ w' = w.written i
        (s ++ (statusByte KvStatus.preWrite.index :: List.replicate 3 erasedByte ++ hdr.tail)))
      (w.written i (s ++ [statusByte KvStatus.preWrite.index])) := by
    refine runs_behind (k := 3) ?_ hi (by omega) (by omega) (runs_ret ⟨rfl, ?_⟩)
    · rw [haddr, hlen]
      simp only [Geometry.addr, KV_MAGIC_OFFSET]
      omega
    · rw [List.append_assoc, List.append_assoc]
      rfl
  rwa [Prog.bind_ret] at hlast

/-- The status of a node that is written completely. -/
theorem runs_write_complete {addr : Nat} {s rest : Bytes} {sync : Bool} {f : FdbErr → Code β}
    (haddr : addr = G.addr i s.length) (hi : i < G.count) (hfit : s.length + (rest.length + 1) ≤ G.sec_size)
    (hf : Runs (f .noErr) R (w.written i (s ++ (statusByte KvStatus.write.index :: rest)))) :
    Runs (fdb_write_status addr FDB_KV_STATUS_NUM KvStatus.write.index sync >>= f) R
      (w.written i (s ++ (statusByte KvStatus.preWrite.index :: rest))) := by
  refine runs_write_status (by decide) (by decide) (by decide) ?_
  refine runs_over s [statusByte KvStatus.preWrite.index] [statusByte KvStatus.write.index] rest ?_ rfl
    (clears_status _ (by decide) _ (by decide)) haddr hi (by omega) ?_ ?_
  · rw [List.append_assoc]
    rfl
  · rw [List.length_append, List.length_cons]
    exact hfit
  · rw [List.append_assoc]
    exact hf

/-! ## A copy -/

/-- A node is copied behind its status, from another sector. -/
theorem copyNode_runs {j off src dst : Nat} {s body : Bytes} (hi : i < G.count) (hj : j < G.count)
    (hji : j ≠ i) (hbody : Contains w j off body) (hsrc : src = G.addr j off)
    (hdst : dst = G.addr i s.length) (hoff : off + body.length ≤ G.sec_size)
    (hfit : s.length + body.length ≤ G.sec_size) :
    Runs (copyNode src dst body.length) (fun r w' => r = .noErr ∧ w' = w.written i (s ++ body))
      (w.written i s) := by
  unfold copyNode
  refine Total.forever
    (fun s' w' => w' = w.written i (s ++ body.take s'.1) ∧ s'.1 ≤ body.length ∧ s'.2 = .noErr)
    (fun s' _ => body.length - s'.1) ⟨by simp, Nat.zero_le _, rfl⟩ ?_
  rintro ⟨len, result⟩ w' ⟨rfl, hle, rfl⟩
  dsimp only at hle ⊢
  split
  · rename_i hlt
    set size := if len + 32 < body.length then 32 else body.length - len with hsize
    have hfits : len + size ≤ body.length := by split at hsize <;> omega
    have hpos : 0 < size := by split at hsize <;> omega
    have hload : (w.written i (s ++ body.take len) j).load? (off + len) (wgAlign size) =
        some ((body.drop len).take size) := by
      rw [wgAlign_eq, Flash.written, Function.update_of_ne hji]
      exact hbody len size hfits
    have haddr : src + len = G.addr j (off + len) := by rw [hsrc, Geometry.addr, Geometry.addr, Nat.add_assoc]
    refine runs_read haddr hj (by omega) hload ?_
    intro buf hbuf
    have htaken : (s ++ body.take len).length = s.length + len := by
      rw [List.length_append, List.length_take, Nat.min_eq_left hle]
    dsimp only
    rw [hbuf, List.take_take, Nat.min_self]
    have hchunk : ((body.drop len).take size).length = size := by
      rw [List.length_take, List.length_drop]
      omega
    refine runs_behind (k := 0) ?_ hi (by omega) (by rw [hchunk]; omega) (runs_ret ⟨⟨?_, hfits, rfl⟩, ?_⟩)
    · rw [hdst, htaken, Geometry.addr, Geometry.addr, Nat.add_assoc]
      rfl
    · rw [List.replicate_zero, List.append_nil, List.append_assoc, ← List.take_add]
    · dsimp only
      omega
  · rename_i hge
    refine runs_ret ⟨rfl, ?_⟩
    rw [List.take_of_length_le (by omega)]

end FlashDb
