import BaseUtilities.Ftp.Image
import BaseUtilities.Ftp.Newlines

/-!
# Uploads in ASCII mode

What an upload in ASCII mode sends where nothing fails.  `writeLine` translates each chunk that `fread`
delivers by itself, so that a CR LF whose halves are in two chunks gets a second CR.
-/

open Effects Mem

namespace Ftp

/-! ## Two translations -/

section

variable {n : Nat}

/-- A CR ends a chunk of `n` bytes and an LF begins the next one. -/
def SplitPair (n : Nat) (F : Bytes) : Prop :=
  ∃ k, F[n * k + (n - 1)]? = some CR ∧ F[n * k + n]? = some LF

/-- The translation of a file in chunks of `n` bytes. -/
def crlfChunks (n : Nat) (F : Bytes) : Bytes :=
  if F = [] ∨ n = 0 then [] else crlfFrom 0 (F.take n) ++ crlfChunks n (F.drop n)
termination_by F.length
decreasing_by
  next h =>
  have := List.length_pos_iff.mpr fun hnil => h (.inl hnil)
  rw [List.length_drop]
  omega

theorem crlfChunks_nil : crlfChunks n [] = [] := by
  rw [crlfChunks, if_pos (.inl rfl)]

theorem crlfChunks_cons {F : Bytes} (hn : 0 < n) (h : F ≠ []) :
    crlfChunks n F = crlfFrom 0 (F.take n) ++ crlfChunks n (F.drop n) := by
  rw [crlfChunks, if_neg]
  rintro (hnil | rfl)
  · exact h hnil
  · exact absurd hn (Nat.lt_irrefl 0)

theorem crlfFrom_append (lc : UInt8) (A B : Bytes) :
    crlfFrom lc (A ++ B) = crlfFrom lc A ++ crlfFrom (A.getLastD lc) B := by
  induction A generalizing lc with
  | nil => rfl
  | cons c A ih =>
    rw [List.cons_append, crlfFrom, crlfFrom, List.getLastD_cons]
    split
    · simp [ih]
    · simp [ih]

theorem crlfFrom_length_le (lc : UInt8) (F : Bytes) : (crlfFrom lc F).length ≤ 2 * F.length := by
  induction F generalizing lc with
  | nil => exact Nat.le_refl _
  | cons c F ih =>
    have := ih c
    rw [crlfFrom]
    split
    · simp only [List.length_cons]
      omega
    · simp only [List.length_cons]
      omega

/-- The byte in front of `F` makes a difference where it and the first byte are a CR LF. -/
theorem crlfFrom_zero (lc : UInt8) (F : Bytes) :
    (crlfFrom lc F).length ≤ (crlfFrom 0 F).length ∧
      (crlfFrom 0 F = crlfFrom lc F ↔ ¬(lc = CR ∧ F[0]? = some LF)) := by
  cases F with
  | nil => simp [crlfFrom]
  | cons c F =>
    by_cases hpair : lc = CR ∧ c = LF
    · obtain ⟨rfl, rfl⟩ := hpair
      simp [crlfFrom, CR, LF]
    · have heq : crlfFrom 0 (c :: F) = crlfFrom lc (c :: F) := by
        rw [crlfFrom, crlfFrom]
        by_cases hc : c = LF
        · have hlc : lc ≠ CR := fun h => hpair ⟨h, hc⟩
          rw [if_pos ⟨hc, by decide⟩, if_pos ⟨hc, hlc⟩]
        · rw [if_neg (fun h => hc h.1), if_neg (fun h => hc h.1)]
      have hhead : ¬(lc = CR ∧ (c :: F)[0]? = some LF) := by simpa using hpair
      exact ⟨Nat.le_of_eq (congrArg _ heq.symm), fun _ => hhead, fun _ => heq⟩

theorem getLastD_take {F : Bytes} (lc : UInt8) (hn : 0 < n) (h : n < F.length) :
    F[n - 1]? = some ((F.take n).getLastD lc) := by
  have hlast : (F.take n).getLast? = F[n - 1]? := by
    rw [List.getLast?_eq_getElem?, List.length_take, Nat.min_eq_left h.le,
      List.getElem?_take_of_lt (by omega)]
  have hsome : F[n - 1]? = some F[n - 1] := List.getElem?_eq_getElem (by omega)
  rw [List.getLastD_eq_getLast?, hlast, hsome, Option.getD_some]

/-- A split pair is at the end of the first chunk or behind it. -/
theorem splitPair_drop (F : Bytes) :
    SplitPair n F ↔ F[n - 1]? = some CR ∧ (F.drop n)[0]? = some LF ∨ SplitPair n (F.drop n) := by
  have hcr : ∀ k, n * (k + 1) + (n - 1) = n + (n * k + (n - 1)) := fun k => by
    rw [Nat.mul_succ]
    omega
  have hlf : ∀ k, n * (k + 1) + n = n + (n * k + n) := fun k => by
    rw [Nat.mul_succ]
    omega
  simp only [SplitPair, List.getElem?_drop]
  constructor
  · rintro ⟨_ | k, h⟩
    · exact .inl (by simpa using h)
    · exact .inr ⟨k, by simpa only [hcr, hlf] using h⟩
  · rintro (h | ⟨k, h⟩)
    · exact ⟨0, by simpa using h⟩
    · exact ⟨k + 1, by simpa only [hcr, hlf] using h⟩

/-- Translating chunk by chunk only adds bytes, and adds none where no pair is split. -/
theorem crlfChunks_spec (hn : 0 < n) (lc : UInt8) (F : Bytes) :
    (crlfFrom lc F).length ≤ (crlfChunks n F).length ∧
      (crlfChunks n F = crlfFrom lc F ↔ ¬(lc = CR ∧ F[0]? = some LF) ∧ ¬SplitPair n F) := by
  by_cases hnil : F = []
  · subst hnil
    simp [crlfFrom, SplitPair, crlfChunks_nil]
  have hpos := List.length_pos_iff.mpr hnil
  obtain ⟨hle, heq⟩ := crlfFrom_zero lc (F.take n)
  rw [List.getElem?_take_of_lt hn] at heq
  -- Recursion on the chunks; the byte before a chunk is the last one of the chunk before.
  obtain ⟨hle', heq'⟩ := crlfChunks_spec hn ((F.take n).getLastD lc) (F.drop n)
  have hwhole : crlfFrom lc F =
      crlfFrom lc (F.take n) ++ crlfFrom ((F.take n).getLastD lc) (F.drop n) := by
    rw [← crlfFrom_append, List.take_append_drop]
  -- A pair is lost where its halves fall into two chunks, as `writeLine` starts each with 0.
  have hpair : (F.take n).getLastD lc = CR ∧ (F.drop n)[0]? = some LF ↔
      F[n - 1]? = some CR ∧ (F.drop n)[0]? = some LF := by
    refine and_congr_left fun hlf => ?_
    have hlong : n < F.length := by
      have := (List.getElem?_eq_some_iff.mp hlf).1
      rw [List.length_drop] at this
      omega
    rw [getLastD_take lc hn hlong, Option.some.injEq]
  rw [crlfChunks_cons hn hnil, hwhole]
  constructor
  · rw [List.length_append, List.length_append]
    omega
  rw [splitPair_drop, not_or, ← hpair]
  constructor
  · intro h
    -- Neither part may grow, so equality of the whole is equality of both parts.
    have hlen := congrArg List.length h
    rw [List.length_append, List.length_append] at hlen
    obtain ⟨h₁, h₂⟩ := List.append_inj h (by omega)
    exact ⟨heq.mp h₁, heq'.mp h₂⟩
  · rintro ⟨h₁, h₂⟩
    rw [heq.mpr h₁, heq'.mpr h₂]
termination_by F.length
decreasing_by
  rw [List.length_drop]
  omega

/-- The translation by chunks is that of the whole file where no pair is split. -/
theorem crlfChunks_eq_iff (hn : 0 < n) (F : Bytes) :
    crlfChunks n F = crlfFrom 0 F ↔ ¬SplitPair n F := by
  have := (crlfChunks_spec hn 0 F).2
  simpa [CR] using this

theorem crlfChunks_length_le (hn : 0 < n) (F : Bytes) : (crlfChunks n F).length ≤ 2 * F.length := by
  by_cases hnil : F = []
  · simp [hnil, crlfChunks_nil]
  have hpos := List.length_pos_iff.mpr hnil
  have h₁ := crlfFrom_length_le 0 (F.take n)
  have h₂ := crlfChunks_length_le hn (F.drop n)
  have hlen := congrArg List.length (List.take_append_drop n F)
  rw [List.length_append] at hlen
  rw [crlfChunks_cons hn hnil, List.length_append]
  omega
termination_by F.length
decreasing_by
  rw [List.length_drop]
  omega

end

/-! ## The upload -/

/-- `fread` delivers the file `F` in full chunks and a last partial one, and `send` accepts all it is
given on the data connection. -/
def Delivers (control : Nat) (F : Bytes) (t : FtpTrace) : FtpEvent → Prop
  | ⟨.fread _ size, x⟩ => x.data.1 = (F.drop (content t).length).take size ∧ x.failed = false
  | ⟨.send fd data, x⟩ => fd ≠ control → x.map (·.1) = some data.length
  | _ => True

/-- What was sent is the translation of the file just when no pair is split. -/
def Translated (F : Bytes) (t : FtpTrace) : Prop :=
  sent t = crlfFrom 0 F ↔ ¬SplitPair BUFFER_SIZE F

/-- The file was uploaded and `xfer` returns 1, or the upload has not begun and `xfer` returns 0. -/
def Uploaded (F : Bytes) (rv : Int) (t : FtpTrace) : Prop :=
  rv = 1 ∧ Translated F t ∨ rv = 0 ∧ t = []

/-- The upload comes to an end: its calls are bounded by the file, and only before and after it can there be
a fault. -/
def UploadStops (control : Nat) (F : Bytes) : Stop Op → FtpTrace → Prop
  | .asking op, t => op.isTransfer control → t.length ≤ 3 * F.length
  | .fault, t => t = [] ∨ Translated F t

/-- An upload of `F` of which `left` is to be read and `rest` is to be sent. -/
structure UploadAt (F left rest : Bytes) (t : FtpTrace) : Prop where
  content_eq : content t ++ left = F
  sent_eq : sent t ++ rest = crlfChunks BUFFER_SIZE F
  length_le : t.length ≤ (content t).length + (sent t).length

variable {control fd : Nat} {F left rest : Bytes} {t : FtpTrace}

theorem UploadAt.start (F : Bytes) : UploadAt F F (crlfChunks BUFFER_SIZE F) [] :=
  ⟨rfl, rfl, Nat.zero_le _⟩

theorem UploadAt.bound (h : UploadAt F left rest t) : t.length ≤ 3 * F.length := by
  have hcontent := congrArg List.length h.content_eq
  have hsent := congrArg List.length h.sent_eq
  have hle := crlfChunks_length_le (n := BUFFER_SIZE) (by decide) F
  have := h.length_le
  rw [List.length_append] at hcontent hsent
  omega

theorem UploadAt.read (h : UploadAt F left (crlfChunks BUFFER_SIZE left) t) (file : File)
    {x : FileChunk BUFFER_SIZE} (hx : x.data.1 = left.take BUFFER_SIZE) (hne : x.data.1 ≠ []) :
    UploadAt F (left.drop BUFFER_SIZE)
      (crlfFrom 0 x.data.1 ++ crlfChunks BUFFER_SIZE (left.drop BUFFER_SIZE))
      (t ++ [⟨.fread file BUFFER_SIZE, x⟩]) := by
  have hleft : left ≠ [] := fun hnil => hne (by rw [hx, hnil, List.take_nil])
  have hcontent : content [⟨.fread file BUFFER_SIZE, x⟩] = x.data.1 := by simp [content]
  have hsent : sent [⟨.fread file BUFFER_SIZE, x⟩] = [] := rfl
  have hpos := List.length_pos_iff.mpr hne
  refine ⟨?_, ?_, ?_⟩
  · rw [content_append, hcontent, hx, List.append_assoc, List.take_append_drop, h.content_eq]
  · rw [sent_append, hsent, List.append_nil, hx, ← crlfChunks_cons (by decide) hleft, h.sent_eq]
  · have := h.length_le
    rw [content_append, sent_append, hcontent, hsent]
    simp only [List.length_append, List.length_singleton, List.length_nil]
    omega

theorem UploadAt.send {data : Bytes} (h : UploadAt F left (data ++ rest) t) (hne : data ≠ [])
    {x : { sent : Nat // sent ≤ data.length }} (hx : x.1 = data.length) :
    UploadAt F left rest (t ++ [⟨.send fd data, some x⟩]) := by
  have hcontent : content [⟨.send fd data, some x⟩] = [] := rfl
  have hsent : sent [⟨.send fd data, some x⟩] = data := by simp [sent, hx]
  have hpos := List.length_pos_iff.mpr hne
  refine ⟨?_, ?_, ?_⟩
  · rw [content_append, hcontent, List.append_nil, h.content_eq]
  · rw [sent_append, hsent, List.append_assoc, h.sent_eq]
  · have := h.length_le
    rw [content_append, sent_append, hcontent, hsent]
    simp only [List.length_append, List.length_singleton, List.length_nil]
    omega

theorem UploadAt.delivered {file : File} {x : FileChunk BUFFER_SIZE} (h : UploadAt F left rest t)
    (hmay : Delivers control F t ⟨.fread file BUFFER_SIZE, x⟩) :
    x.data.1 = left.take BUFFER_SIZE := by
  rw [hmay.1, ← h.content_eq, List.drop_left' rfl]

/-- A data connection of an upload in ASCII mode without a callback. -/
structure Uploads (control : Nat) (nData : NetBuf) : Prop where
  dir_eq : nData.dir = .write
  buf_some : nData.buf.isSome = true
  idlecb_eq : nData.idlecb = none
  handle_ne : nData.handle ≠ control

theorem Uploads.counted {nData nData' : NetBuf} (h : Uploads control nData)
    (hcounted : nData.Counted nData') (hbuf : nData'.buf.isSome = true) : Uploads control nData' :=
  ⟨hcounted.dir_eq.trans h.dir_eq, hbuf, hcounted.idlecb_eq.trans h.idlecb_eq, by
    rw [hcounted.handle_eq]
    exact h.handle_ne⟩

theorem Uploads.isTransfer {nData : NetBuf} (h : Uploads control nData) (data : Bytes) :
    (Op.send nData.handle data).isTransfer control = true := by
  simpa [Op.isTransfer] using h.handle_ne

/-- The end of a write that was not short. -/
theorem Uploads.writeCount {nData : NetBuf} (h : Uploads control nData) (i : Nat) (nControl : NetBuf) :
    ∃ nData', writeCount i nData nControl = .ret (i, nData', nControl) ∧
      Uploads control nData' := by
  have hneg : ¬(i : Int) = -1 := by omega
  have hcounted : nData.Counted { nData with xfered := nData.xfered + UInt32.ofNat i } :=
    ⟨_, _, _, _, _, _, _, rfl⟩
  refine ⟨{ nData with xfered := nData.xfered + UInt32.ofNat i }, ?_, h.counted hcounted h.buf_some⟩
  rw [Ftp.writeCount, if_neg hneg, Int.toNat_natCast, account_none i h.idlecb_eq, Prog.ret_bind]
  rfl

/-- The send of a piece of a chunk. -/
theorem writeFlush_upload {nData : NetBuf} (nControl : NetBuf) {nbp : Buffer BUFFER_SIZE} {nb : Nat}
    (x : Int) (hup : Uploads control nData) (hpos : 0 < nb) (hnb : nb ≤ BUFFER_SIZE)
    (h : UploadAt F left (nbp.bytes.take nb ++ rest) t) :
    wp (transfers control (Delivers control F)) (UploadStops control F)
      (writeFlush nData nControl nbp nb x)
      (fun r t => r = (none, nControl) ∧ UploadAt F left rest t) t := by
  have hlen := nbp.take_length hnb
  rw [writeFlush, socketWait_none nControl hup.idlecb_eq]
  refine wp_record (hup.isTransfer _) (fun _ => h.bound) fun r hmay => ?_
  cases r with
  | none => cases hmay hup.handle_ne
  | some w =>
    have hw : w.1 = (nbp.bytes.take nb).length := Option.some.inj (hmay hup.handle_ne)
    have hdone : ¬w.1 ≠ nb := by omega
    refine wp_ret.mpr ?_
    rw [if_neg hdone]
    exact ⟨rfl, h.send (fun hnil => by simp [hnil] at hlen; omega) hw⟩

/-- The write of a chunk. -/
theorem writeFtpClient_upload {nData : NetBuf} (nControl : NetBuf) {buf : Bytes}
    (hup : Uploads control nData) (h : UploadAt F left (crlfFrom 0 buf ++ rest) t) :
    wp (transfers control (Delivers control F)) (UploadStops control F)
      (writeFtpClient buf nData nControl)
      (fun r t => r.1 = buf.length ∧ Uploads control r.2.1 ∧ r.2.2 = nControl ∧
        UploadAt F left rest t) t := by
  obtain ⟨nbp, hnbp⟩ := Option.isSome_iff_exists.mp hup.buf_some
  have hbuf : ∀ nbp', Uploads control { nData with buf := some nbp' } := fun _ =>
    hup.counted ⟨_, _, _, _, _, _, _, rfl⟩ rfl
  -- The rule of `writeLine`, with what is still to be sent as its invariant; no flush can fail here.
  have hrule : wp (transfers control (Delivers control F)) (UploadStops control F)
      (writeLine buf nData nControl) _ t :=
    writeLine_rule (J := fun piece nc t => nc = nControl ∧ UploadAt F left (piece ++ rest) t)
      (K := fun _ _ _ => False) hup.dir_eq hnbp ?_ ?_ ⟨rfl, h⟩
  · rw [writeFtpClient, if_neg (not_not.mpr hup.dir_eq), if_pos hup.buf_some]
    refine hrule.bind ?_
    rintro ⟨i, d, nc⟩ t ⟨⟨nbp', hd⟩, ⟨hi, hnc, hat⟩ | hfalse⟩
    · obtain rfl : d = { nData with buf := some nbp' } := hd
      obtain rfl : i = buf.length := hi
      obtain rfl : nc = nControl := hnc
      obtain ⟨d', hcount, hup'⟩ := (hbuf nbp').writeCount buf.length nc
      dsimp only
      rw [hcount]
      exact wp_ret.mpr ⟨rfl, hup', rfl, hat⟩
    · exact hfalse.elim
  -- A full buffer in the middle of the line.
  · rintro nbp piece nc x t - - ⟨rfl, hat⟩
    have htake := nbp.take_all
    rw [List.append_assoc, ← htake] at hat
    refine (writeFlush_upload nc x hup (by decide) (Nat.le_refl _) hat).mono ?_
    rintro _ t ⟨rfl, hat⟩
    exact ⟨rfl, hat⟩
  -- What is left at the end of the line.
  · rintro s nc t hpos hnb ⟨rfl, hat⟩
    refine (writeFlush_upload nc _ (hbuf s.nbp) hpos hnb hat).mono ?_
    rintro _ t ⟨rfl, hat⟩
    exact ⟨rfl, by simpa using hat⟩

theorem xferUpload_upload {nData : NetBuf} (file : File) (nControl : NetBuf)
    (hup : Uploads control nData) :
    wp (transfers control (Delivers control F)) (UploadStops control F)
      (xferUpload file nData nControl) (fun r t => (r.1 = 1 ∧ Translated F t) ∧ r.2.2 = nControl) [] := by
  -- Between two chunks everything up to here has been sent, translated chunk by chunk.
  refine wp_forever (fun s t => Uploads control s.1 ∧ s.2 = nControl ∧
    ∃ left, UploadAt F left (crlfChunks BUFFER_SIZE left) t) ⟨hup, rfl, F, .start F⟩ ?_
  rintro ⟨d, nc⟩ t ⟨hup, rfl, left, hat⟩
  refine wp_record rfl (fun _ => hat.bound) fun x hmay => ?_
  have hx := hat.delivered hmay
  dsimp only [Prog.bind]
  split
  · next hpos =>
    have hread := hat.read file hx (List.length_pos_iff.mp hpos)
    refine (writeFtpClient_upload nc hup hread).bind ?_
    rintro ⟨c, d', nc'⟩ t ⟨hc, hup', rfl, hat⟩
    have hlong : ¬c < x.data.1.length := by
      have : c = x.data.1.length := hc
      omega
    refine wp_ret.mpr ?_
    rw [if_neg hlong]
    exact ⟨hup', rfl, _, hat⟩
  -- `fread` brought nothing: the file is at its end.
  · next hnone =>
    have hleft : left = [] := by
      have hnil : left.take BUFFER_SIZE = [] := by
        rw [← hx]
        exact List.length_eq_zero_iff.mp (Nat.eq_zero_of_not_pos hnone)
      simpa using hnil
    subst hleft
    refine wp_ret.mpr ⟨⟨rfl, ?_⟩, rfl⟩
    have huploaded : sent t = crlfChunks BUFFER_SIZE F := by simpa [crlfChunks_nil] using hat.sent_eq
    have hsent : sent [⟨.fread file BUFFER_SIZE, x⟩] = [] := rfl
    rw [Translated, sent_append, hsent, List.append_nil, huploaded]
    exact crlfChunks_eq_iff (by decide) F

/-- The data connection of an upload in ASCII mode. -/
theorem Opened.uploads {nControl nData : NetBuf} (hcb : nControl.idlecb = none)
    (h : Opened (· ≠ control) nControl .ascii Typ.fileWrite.dataDir nData) : Uploads control nData := by
  obtain ⟨fd, buf, rfl, hmode, hfd⟩ := h
  exact ⟨rfl, hmode.mpr rfl, newData_idlecb hcb .., hfd⟩

theorem xferEnd_upload (F : Bytes) {nControl : NetBuf} (hdir : nControl.dir = .control)
    (hcb : nControl.idlecb = none) (localfile path : Option Bytes) :
    wp (transfers nControl.handle (Delivers nControl.handle F)) (UploadStops nControl.handle F)
      (xferEnd localfile path nControl .fileWrite .ascii) (fun e t => Uploaded F e.rv t) [] := by
  refine xferEnd_record ?_ (.inl rfl) localfile path .fileWrite .ascii hdir
    (fun _ => .inr ⟨rfl, rfl⟩) ?_
  · intro op t hop hop'
    rw [hop] at hop'
    cases hop'
  · intro file nData nc hopened hsame _
    refine wp.mono (Q := fun r t => Uploaded F r.1 t ∧ r.2.2 = nc) ?_ ?_
    · apply xferData_record (fun h => absurd h Bool.false_ne_true) ⟨.inr ⟨rfl, rfl⟩, rfl⟩
      · intro _
        exact (xferUpload_upload file nc (hopened.uploads hcb)).mono fun _ _ h => ⟨.inl h.1, h.2⟩
      · intro hread
        exact absurd rfl hread
    · rintro ⟨rv, d, nc'⟩ t ⟨huploaded, rfl⟩
      have hfault : t = [] ∨ Translated F t := by
        rcases huploaded with ⟨-, h⟩ | ⟨-, h⟩
        · exact .inr h
        · exact .inl h
      exact ⟨hfault, hsame, fun _ _ => huploaded⟩

theorem writeFlush_sends {nData : NetBuf} (nControl : NetBuf) {nbp : Buffer BUFFER_SIZE} {nb : Nat}
    (x : Int) (hup : Uploads control nData) (hnb : nb ≤ BUFFER_SIZE) :
    Exec (transfers control (Delivers control F)) (writeFlush nData nControl nbp nb x) t
      (.returned (none, nControl)) (t ++ [sendsAll nData.handle (nbp.bytes.take nb)]) := by
  have hlen := nbp.take_length hnb
  rw [writeFlush, socketWait_none nControl hup.idlecb_eq]
  refine Exec.call (r := some ⟨(nbp.bytes.take nb).length, Nat.le_refl _⟩)
    ⟨⟨by simp [broughtFd], fun _ => rfl⟩, rfl⟩ ?_
  rw [record_of (hup.isTransfer _)]
  have hall : ¬(nbp.bytes.take nb).length ≠ nb := not_not.mpr hlen
  exact ⟨by simp only [hall, if_false], rfl⟩

/-- One chunk of the file, in front of the rest of an upload. -/
theorem xferUpload_next {nData : NetBuf} (file : File) (nControl : NetBuf) (hup : Uploads control nData)
    {x : FileChunk BUFFER_SIZE} (hmay : Delivers control F t ⟨.fread file BUFFER_SIZE, x⟩)
    (hne : x.data.1 ≠ []) (hfits : (crlfFrom 0 x.data.1).length ≤ BUFFER_SIZE) :
    ∃ nData' t', Uploads control nData' ∧ content t' = content t ++ x.data.1 ∧
      ∀ out t'', Exec (transfers control (Delivers control F)) (xferUpload file nData' nControl) t' out
        t'' → Exec (transfers control (Delivers control F)) (xferUpload file nData nControl) t out
        t'' := by
  obtain ⟨nbp, hnbp⟩ := Option.isSome_iff_exists.mp hup.buf_some
  -- The chunk fits into one buffer, so this iteration makes exactly one send.
  obtain ⟨nbp', hline, -⟩ := writeLine_fits nControl hup.dir_eq hnbp hne hfits
  have hup' : Uploads control { nData with buf := some nbp' } :=
    hup.counted ⟨_, _, _, _, _, _, _, rfl⟩ rfl
  obtain ⟨d', hcount, hd'⟩ := hup'.writeCount x.data.1.length nControl
  have hpos := List.length_pos_iff.mpr hne
  have hwrite : ∀ t, Exec (transfers control (Delivers control F))
      (writeFtpClient x.data.1 nData nControl) t (.returned (x.data.1.length, d', nControl))
      (t ++ [sendsAll nData.handle (nbp'.bytes.take (crlfFrom 0 x.data.1).length)]) := by
    intro t
    rw [writeFtpClient, if_neg (not_not.mpr hup.dir_eq), if_pos hup.buf_some, hline]
    refine Exec.bind (Exec.bind (writeFlush_sends nControl _ hup' hfits) .ret) ?_
    dsimp only [Option.getD_none]
    rw [hcount]
    exact .ret
  have hrun : Exec (transfers control (Delivers control F)) (Sys.fread file BUFFER_SIZE) t (.returned x)
      (t ++ [⟨.fread file BUFFER_SIZE, x⟩]) :=
    .call ⟨⟨by simp [broughtFd], hmay⟩, (record_of rfl).symm⟩ .ret
  refine ⟨d', t ++ [⟨.fread file BUFFER_SIZE, x⟩] ++
    [sendsAll nData.handle (nbp'.bytes.take (crlfFrom 0 x.data.1).length)], hd', ?_, ?_⟩
  · simp [content, sendsAll]
  · intro out t'' hrest
    refine Exec.loop_next (hrun.bind ?_) hrest
    dsimp only
    rw [if_pos hpos]
    refine (hwrite _).bind ?_
    dsimp only
    rw [if_neg (Int.lt_irrefl _)]
    exact .ret

theorem xferUpload_end {nData : NetBuf} (file : File) (nControl : NetBuf) {x : FileChunk BUFFER_SIZE}
    (hmay : Delivers control F t ⟨.fread file BUFFER_SIZE, x⟩) (hnil : x.data.1 = []) :
    Exec (transfers control (Delivers control F)) (xferUpload file nData nControl) t
      (.returned (1, nData, nControl)) (t ++ [⟨.fread file BUFFER_SIZE, x⟩]) := by
  refine Exec.loop_done (Exec.call (r := x) ⟨⟨by simp [broughtFd], hmay⟩, (record_of rfl).symm⟩ ?_)
    .ret
  dsimp only [Prog.bind]
  rw [if_neg (by simp [hnil])]
  exact .ret

/-- A file whose first chunk ends between a CR and an LF. -/
def splitFile : Bytes := List.replicate (BUFFER_SIZE - 1) 97 ++ [CR, LF]

theorem splitFile_splitPair : SplitPair BUFFER_SIZE splitFile :=
  ⟨0, by decide +kernel, by decide +kernel⟩

/-- The chunks of it that `fread` delivers. -/
def splitChunk (k : Nat) : FileChunk BUFFER_SIZE :=
  ⟨⟨(splitFile.drop k).take BUFFER_SIZE, List.length_take_le ..⟩, false⟩

theorem splitChunk_delivers {file : File} {k : Nat} (h : (content t).length = k) :
    Delivers control splitFile t ⟨.fread file BUFFER_SIZE, splitChunk k⟩ := by
  subst h
  exact ⟨rfl, rfl⟩

theorem splitFile_run {nData : NetBuf} (file : File) (nControl : NetBuf) (hup : Uploads 3 nData) :
    ∃ nData' t,
      Exec (transfers 3 (Delivers 3 splitFile)) (xferUpload file nData nControl) []
        (.returned (1, nData', nControl)) t := by
  obtain ⟨d₁, t₁, hup₁, hcontent₁, hrun₁⟩ := xferUpload_next (F := splitFile) (t := []) file nControl
    hup (x := splitChunk 0) (splitChunk_delivers rfl) (by decide +kernel) (by decide +kernel)
  have hlen₁ : (content t₁).length = BUFFER_SIZE := by
    rw [hcontent₁]
    decide +kernel
  obtain ⟨d₂, t₂, hup₂, hcontent₂, hrun₂⟩ := xferUpload_next (F := splitFile) file nControl
    hup₁ (x := splitChunk BUFFER_SIZE) (splitChunk_delivers hlen₁) (by decide +kernel) (by decide +kernel)
  have hlen₂ : (content t₂).length = BUFFER_SIZE + 1 := by
    rw [hcontent₂, List.length_append, hlen₁]
    decide +kernel
  have hlast : Delivers 3 splitFile t₂ ⟨.fread file BUFFER_SIZE, splitChunk (BUFFER_SIZE + 1)⟩ :=
    splitChunk_delivers hlen₂
  exact ⟨d₂, _, hrun₁ _ _ (hrun₂ _ _ (xferUpload_end file nControl hlast (by decide +kernel)))⟩

/-- An upload of it, from the connection to the completion reply. -/
theorem splitFile_xfer : ∃ nControl t, Exec (transfers 3 (Delivers 3 splitFile))
    (xfer (some (ascii "f")) (some (ascii "g")) exampleControl .fileWrite .ascii) []
    (.returned (1, nControl)) t := by
  have hmay : ∀ t (e : FtpEvent), e.1.isTransfer 3 = false → Delivers 3 splitFile t e := by
    rintro t ⟨op, r⟩ hop
    cases op <;> first | exact trivial | exact fun hfd => by simp [Op.isTransfer, hfd] at hop | cases hop
  obtain ⟨nc, nData, haccess, hcloses, ⟨fd, buf, rfl, hmode, hfd⟩, hfirst⟩ :=
    example_access hmay (rfl : exampleControl.dir = .control) rfl .fileWrite .ascii
      (ascii "STOR g") (by decide +kernel) (by decide +kernel)
  have hup : Uploads 3 (newData exampleControl fd buf .write) := ⟨rfl, hmode.mpr rfl, rfl, hfd⟩
  obtain ⟨d, t, hupload⟩ := splitFile_run (.named (ascii "f")) nc hup
  have hdata : Exec (transfers 3 (Delivers 3 splitFile))
      (xferData (.named (ascii "f")) .fileWrite (newData exampleControl fd buf .write) nc) []
      (.returned (1, d, nc)) t :=
    Exec.call (r := some (.zeroed _)) ⟨⟨by simp [broughtFd], trivial⟩, rfl⟩ hupload
  obtain ⟨closed, nc', hend⟩ := example_close (t := t) hmay hcloses hfirst (some (ascii "f"))
    (.named (ascii "f")) .fileWrite 1 d
  have hxfer : Exec (transfers 3 (Delivers 3 splitFile))
      (xferEnd (some (ascii "f")) (some (ascii "g")) exampleControl .fileWrite .ascii) []
      (.returned ⟨1, some closed, nc'⟩) t :=
    Exec.call (r := .ok ()) ⟨⟨by simp [broughtFd], trivial⟩, rfl⟩ (haccess.bind (hdata.bind hend))
  exact ⟨nc', t, hxfer.bind .ret⟩

end Ftp
