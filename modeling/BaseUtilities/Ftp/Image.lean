import BaseUtilities.Effects.Runs
import BaseUtilities.Ftp.Completion

/-!
# Transfers in image mode

What `xfer` reports of a transfer in image mode without a callback.  It looks at `fwrite` writing
nothing and at `send` coming up short; it does not see that `recv` or `fread` failed, that `fwrite`
wrote some of the bytes, that `fflush` or `fclose` lost some, or what the server said when the connection
was closed.
-/

open Effects Mem

namespace Ftp

/-! ## Events -/

/-- `recv` returned -1. -/
def recvFailed : FtpEvent → Bool
  | ⟨.recv _ _, none⟩ => true
  | _ => false

/-- `recv` returned 0. -/
def recvEnded : FtpEvent → Bool
  | ⟨.recv _ _, some x⟩ => x.1.isEmpty
  | _ => false

/-- `fwrite` returned 0. -/
def wroteNothing : FtpEvent → Bool
  | ⟨.fwrite _ _, x⟩ => x.1 = 0
  | _ => false

/-- `fwrite` returned less than it was given. -/
def wroteShort : FtpEvent → Bool
  | ⟨.fwrite _ data, x⟩ => x.1 < data.length
  | _ => false

/-- `send` returned -1 or less than it was given. -/
def sentShort : FtpEvent → Bool
  | ⟨.send _ _, none⟩ => true
  | ⟨.send _ data, some x⟩ => x.1 < data.length
  | _ => false

/-- `fread` stopped at an error. -/
def readFailed : FtpEvent → Bool
  | ⟨.fread _ _, x⟩ => x.failed
  | _ => false

/-- `fread` returned 0 without an error. -/
def readEnded : FtpEvent → Bool
  | ⟨.fread _ _, x⟩ => x.data.1.isEmpty && !x.failed
  | _ => false

/-- How many of the bytes that `fwrite` has taken a call lost. -/
def lost : FtpEvent → Nat
  | ⟨.fflush _, .failed lost⟩ => lost
  | ⟨.fclose _, .failed lost⟩ => lost
  | _ => 0

/-- `fflush` or `fclose` lost bytes. -/
def lostBytes (e : FtpEvent) : Bool := lost e ≠ 0

/-! ## Runs -/

/-- The calls on the data connection and the local file. -/
def transferred (control : Nat) (t : FtpTrace) : FtpTrace := t.filter (·.1.isTransfer control)

/-- What is in the local file after one more call. -/
def storeEvent (file : Bytes) : FtpEvent → Bytes
  | ⟨.fwrite _ data, x⟩ => file ++ data.take x.1
  | e => file.take (file.length - lost e)

/-- The content of the local file that a run leaves. -/
def stored (t : FtpTrace) : Bytes := t.foldl storeEvent []

/-- What a run has heard on the control connection. -/
def heardOn (control : Nat) (t : FtpTrace) : Heard := t.foldl (Heard.after control) ⟨[], false⟩

/-- Answers that POSIX allows: no new descriptor is that of the control connection, nothing comes on it behind its
end, and no more is lost than has been written. -/
def Possible (control : Nat) (t : FtpTrace) (e : FtpEvent) : Prop :=
  broughtFd e ≠ some control ∧
    ((heardOn control t).ended = true → ((heardOn control t).after control e).bytes = (heardOn control t).bytes) ∧
    lost e ≤ (stored t).length

instance (control : Nat) (t : FtpTrace) (e : FtpEvent) : Decidable (Possible control t e) :=
  inferInstanceAs (Decidable (_ ∧ _ ∧ _))

/-- Calls that answer so. -/
def transferring (control : Nat) : Env Op Op.Res FtpTrace :=
  watching (Possible control) fun t e => t ++ [e]

/-! ## Reports -/

/-- The transfer was faithful: the source came to its end without an error, and the bytes that left it are those
that arrived; the local file holds the bytes of a download. -/
def Faithful (control : Nat) (typ : Typ) (t : FtpTrace) : Prop :=
  let d := transferred control t
  if typ = .fileWrite then d.any readEnded ∧ ¬ d.any readFailed ∧ sent d = content d
  else d.any recvEnded ∧ stored t = received d

/-- The failures that `xfer` looks at: the transfer did not begin, `send` came up short, or `fwrite`
wrote nothing. -/
def Noticed (typ : Typ) (d : FtpTrace) : Prop :=
  d = [] ∨ if typ = .fileWrite then d.any sentShort else d.any wroteNothing

/-- None of the failures that it does not look at: `fread` and `recv` did not fail, `fwrite` wrote all it was given,
and nothing was lost behind it. -/
def Smooth (control : Nat) (typ : Typ) (t : FtpTrace) : Prop :=
  let d := transferred control t
  if typ = .fileWrite then ¬ d.any readFailed
  else ¬ d.any recvFailed ∧ ¬ d.any wroteShort ∧ ¬ t.any lostBytes

/-- The server has sent a completion reply, the fourth on the control connection behind the unread bytes `u`, and
it begins with `2`. -/
def Completed (nControl : NetBuf) (u : Bytes) (t : FtpTrace) : Prop :=
  ∃ p ∈ takeReplies 4 nControl.response ((heardOn nControl.handle t).lines u), p.1.first = 50

/-- The bytes that left the source have been handed on, to `send` or to `fwrite`. -/
def HandedOn (typ : Typ) (d : FtpTrace) : Prop :=
  if typ = .fileWrite then d.any readEnded ∧ ¬ d.any readFailed ∧ sent d = content d
  else d.any recvEnded ∧ written d = received d

/-- The copy met none of the failures that `xfer` does not look at. -/
def Unhindered (typ : Typ) (d : FtpTrace) : Prop :=
  if typ = .fileWrite then ¬ d.any readFailed else ¬ d.any recvFailed ∧ ¬ d.any wroteShort

/-- How the result of `xfer` and its record belong together. -/
structure Reported (typ : Typ) (rv : Int) (t : FtpTrace) : Prop where
  bool : rv = 0 ∨ rv = 1
  zero_iff : rv = 0 ↔ Noticed typ t
  handedOn_iff : rv = 1 → (HandedOn typ t ↔ Unhindered typ t)
  written_le : typ ≠ .fileWrite → (written t).length ≤ (received t).length

/-! ## Without a callback -/

theorem socketWait_none {ctl : NetBuf} (nControl : NetBuf) (hcb : ctl.idlecb = none) :
    socketWait ctl nControl = .ret (1, nControl) := by
  rw [socketWait]
  split
  · rfl
  · rfl
  · next h _ => rw [hcb] at h; cases h

theorem account_none {nData : NetBuf} (i : Nat) (hcb : nData.idlecb = none) :
    nData.account i = .ret ({ nData with xfered := nData.xfered + UInt32.ofNat i }, none) := by
  rw [NetBuf.account]
  simp only [hcb]
  rfl

/-- A data connection of a transfer in image mode. -/
structure Plain (fd : Nat) (dir : Dir) (nData : NetBuf) : Prop where
  handle_eq : nData.handle = fd
  dir_eq : nData.dir = dir
  buf_eq : nData.buf = none
  idlecb_eq : nData.idlecb = none

theorem Plain.count {fd : Nat} {dir : Dir} {nData : NetBuf} (h : Plain fd dir nData) (i : Nat) :
    Plain fd dir { nData with xfered := nData.xfered + UInt32.ofNat i } :=
  ⟨h.handle_eq, h.dir_eq, h.buf_eq, h.idlecb_eq⟩

theorem readFtpClient_plain {max fd : Nat} {nData : NetBuf} (buf : Buffer max) (nControl : NetBuf)
    (h : Plain fd .read nData) :
    readFtpClient buf nData nControl = .call (.recv fd max) fun
      | none => .ret ⟨0, buf, nData, nControl⟩
      | some x => .ret ⟨x.1.length, buf.overlay x.1,
          { nData with xfered := nData.xfered + UInt32.ofNat x.1.length }, nControl⟩ := by
  obtain ⟨rfl, hdir, hbuf, hcb⟩ := h
  rw [readFtpClient, if_neg (not_not.mpr hdir), if_neg (by simp [hbuf]), socketWait_none _ hcb]
  refine congrArg (Prog.call _) (funext fun r => ?_)
  cases r with
  | none => rfl
  | some x =>
    change readCount x.1.length (buf.overlay x.1) nData nControl = _
    rw [readCount, if_neg (by omega), account_none _ hcb]
    rfl

theorem writeFtpClient_plain {fd : Nat} {nData : NetBuf} (buf : Bytes) (nControl : NetBuf)
    (h : Plain fd .write nData) :
    writeFtpClient buf nData nControl = .call (.send fd buf) fun
      | none => .ret (0, nData, nControl)
      | some i => .ret (i.1, { nData with xfered := nData.xfered + UInt32.ofNat i.1 }, nControl) := by
  obtain ⟨rfl, hdir, hbuf, hcb⟩ := h
  rw [writeFtpClient, if_neg (not_not.mpr hdir), if_neg (by simp [hbuf]), socketWait_none _ hcb]
  refine congrArg (Prog.call _) (funext fun r => ?_)
  cases r with
  | none => rfl
  | some i =>
    change writeCount i.1 nData nControl = _
    rw [writeCount, if_neg (by omega), account_none _ hcb]
    rfl

/-! ## Downloads -/

/-- A download that has not met an end, an error or an `fwrite` of nothing. -/
structure Downloading (t : FtpTrace) : Prop where
  ended : t.any recvEnded = false
  failed : t.any recvFailed = false
  nothing : t.any wroteNothing = false
  length_le : (written t).length ≤ (received t).length
  equal_iff : written t = received t ↔ t.any wroteShort = false

theorem Downloading.nil : Downloading [] := ⟨rfl, rfl, rfl, Nat.le_refl _, by simp [written, received]⟩

/-- A chunk received and `k` of its bytes written. -/
def chunkEvents (fd len : Nat) (file : File) (x : Chunk len)
    (k : { written : Nat // written ≤ x.1.length }) : FtpTrace :=
  [⟨.recv fd len, some x⟩, ⟨.fwrite file x.1, k⟩]

theorem Downloading.chunk {t : FtpTrace} (h : Downloading t) {fd len : Nat} {file : File}
    {x : Chunk len} {k : { written : Nat // written ≤ x.1.length }} (hx : x.1 ≠ [])
    (hk : k.1 ≠ 0) : Downloading (t ++ chunkEvents fd len file x k) := by
  have hwritten : written (t ++ chunkEvents fd len file x k) = written t ++ x.1.take k.1 := by
    simp [chunkEvents, written]
  have hreceived : received (t ++ chunkEvents fd len file x k) = received t ++ x.1 := by
    simp [chunkEvents, received]
  have hle := h.length_le
  have hkle := k.2
  refine ⟨?_, ?_, ?_, ?_, ?_⟩
  · simp [h.ended, chunkEvents, recvEnded, hx]
  · simp [h.failed, chunkEvents, recvFailed]
  · simp [h.nothing, chunkEvents, wroteNothing, hk]
  · rw [hwritten, hreceived, List.length_append, List.length_append, List.length_take]
    omega
  · rw [hwritten, hreceived, List.any_append, Bool.or_eq_false_iff, ← h.equal_iff]
    simp only [chunkEvents, wroteShort, List.any_cons, List.any_nil, Bool.or_false, Bool.false_or,
      decide_eq_false_iff_not, not_lt]
    constructor
    · intro heq
      have hlen := congrArg List.length heq
      simp only [List.length_append, List.length_take] at hlen
      exact ⟨(List.append_inj heq (by omega)).1, by omega⟩
    · rintro ⟨heq, hk⟩
      rw [heq, List.take_of_length_le hk]

/-- The end of a download: `recv` returned 0 or -1. -/
theorem Downloading.reported {t : FtpTrace} (h : Downloading t) {typ : Typ} (htyp : typ ≠ .fileWrite)
    (fd len : Nat) (r : Option (Chunk len)) (hr : ∀ x, r = some x → x.1 = []) :
    Reported typ 1 (t ++ [⟨.recv fd len, r⟩]) where
  bool := .inr rfl
  zero_iff := by
    simp [Noticed, htyp, h.nothing, wroteNothing]
  handedOn_iff _ := by
    simp only [HandedOn, Unhindered, htyp, if_false, List.any_append, h.ended, h.failed, received_append,
      written_append]
    cases r with
    | none => simp [recvEnded, recvFailed, wroteShort]
    | some x =>
      have hreceived : received [⟨.recv fd len, some x⟩] = [] := by simp [received, hr x rfl]
      have hwritten : written [⟨.recv fd len, some x⟩] = [] := rfl
      have hended : recvEnded ⟨.recv fd len, some x⟩ = true := by simp [recvEnded, hr x rfl]
      have hfailed : recvFailed ⟨.recv fd len, some x⟩ = false := rfl
      have hshort : wroteShort ⟨.recv fd len, some x⟩ = false := rfl
      rw [hreceived, hwritten, List.append_nil, List.append_nil, h.equal_iff]
      generalize t.any wroteShort = short
      simp [hended, hfailed, hshort]
  written_le _ := by
    rw [written_append, received_append, List.length_append, List.length_append]
    exact Nat.add_le_add h.length_le (Nat.zero_le _)

theorem xferDownload_reported {fd control : Nat} {file : File} {typ : Typ} {nData : NetBuf}
    (dbuf : Buffer BUFFER_SIZE) (nControl : NetBuf) (htyp : typ ≠ .fileWrite) (hfd : fd ≠ control)
    (h : Plain fd .read nData) :
    wp (transfers control fun _ _ => True) (fun _ _ => True) (xferDownload file dbuf nData nControl)
      (fun r t => Reported typ r.1 t ∧ r.2.2 = nControl) [] := by
  -- Between two chunks the file holds what was received.
  refine wp_forever (fun s t => Plain fd .read s.2.1 ∧ s.2.2 = nControl ∧ Downloading t)
    ⟨h, rfl, .nil⟩ ?_
  rintro ⟨b, d, nc⟩ t ⟨hd, rfl, ht⟩
  dsimp only
  have hrecv : (Op.recv fd BUFFER_SIZE).isTransfer control = true := by simpa [Op.isTransfer] using hfd
  rw [readFtpClient_plain b nc hd, Prog.call_bind]
  refine wp_record hrecv trivial fun r _ => ?_
  -- An error of `recv` is taken for the end of the stream by the source.
  cases r with
  | none => exact wp_ret.mpr ⟨ht.reported htyp _ _ _ (by simp), rfl⟩
  | some x =>
    rw [Prog.ret_bind]
    dsimp only
    have hdata : (b.overlay x.1).bytes.take (Int.toNat x.1.length) = x.1 :=
      b.overlay_take x.1 x.2
    rw [hdata]
    split
    · next hpos =>
      have hne : x.1 ≠ [] := fun hnil => by simp [hnil] at hpos
      refine wp_record rfl trivial fun k _ => wp_ret.mpr ?_
      rw [List.append_assoc]
      -- An `fwrite` of nothing ends the copy, and is the one failure that is reported.
      split
      · next hk =>
        refine ⟨⟨.inl rfl, ?_, by simp, fun _ => ?_⟩, rfl⟩
        · simp [Noticed, htyp, wroteNothing, hk]
        · have hwritten : written [⟨.recv fd BUFFER_SIZE, some x⟩, ⟨.fwrite file x.1, k⟩] = [] := by
            simp [written, hk]
          rw [List.singleton_append, written_append, hwritten, List.append_nil, received_append,
            List.length_append]
          exact Nat.le_add_right_of_le ht.length_le
      · next hk => exact ⟨hd.count _, rfl, ht.chunk hne hk⟩
    -- No bytes: the end of the stream, or an error that looks like it.
    · next hpos =>
      refine wp_ret.mpr ⟨ht.reported htyp _ _ _ ?_, rfl⟩
      rintro _ ⟨⟩
      exact List.length_eq_zero_iff.mp (by omega)

/-! ## Uploads -/

/-- An upload all of whose bytes have been accepted so far, and whose file has not ended. -/
structure Uploading (t : FtpTrace) : Prop where
  ended : t.any readEnded = false
  short : t.any sentShort = false
  equal : sent t = content t

theorem reported_sentShort {t : FtpTrace} (h : t.any sentShort = true) :
    Reported .fileWrite 0 t :=
  ⟨.inl rfl, ⟨fun _ => .inr h, fun _ => rfl⟩, fun h => (by cases h), fun h => absurd rfl h⟩

theorem xferUpload_reported {fd control : Nat} {file : File} {nData : NetBuf}
    (nControl : NetBuf) (hfd : fd ≠ control) (h : Plain fd .write nData) :
    wp (transfers control fun _ _ => True) (fun _ _ => True) (xferUpload file nData nControl)
      (fun r t => Reported .fileWrite r.1 t ∧ r.2.2 = nControl) [] := by
  refine wp_forever (fun s t => Plain fd .write s.1 ∧ s.2 = nControl ∧ Uploading t)
    ⟨h, rfl, ⟨rfl, rfl, rfl⟩⟩ ?_
  rintro ⟨d, nc⟩ t ⟨hd, rfl, ht⟩
  refine wp_record rfl trivial fun chunk _ => ?_
  dsimp only [Prog.bind]
  have hsend : (Op.send fd chunk.data.1).isTransfer control = true := by
    simpa [Op.isTransfer] using hfd
  split
  · next hpos =>
    rw [writeFtpClient_plain _ nc hd, Prog.call_bind]
    refine wp_record hsend trivial fun r _ => ?_
    -- A failed and a short `send` are both noticed.
    cases r with
    | none =>
      refine wp_ret.mpr ?_
      rw [if_pos (by simpa using hpos)]
      exact ⟨reported_sentShort (by simp [sentShort]), rfl⟩
    | some k =>
      refine wp_ret.mpr ?_
      split
      · next hk =>
        have hk : k.1 < chunk.data.1.length := by simpa using hk
        exact ⟨reported_sentShort (by simp [sentShort, hk]), rfl⟩
      · next hk =>
        have hk : chunk.data.1.length ≤ k.1 := by omega
        refine ⟨hd.count _, rfl, ?_, ?_, ?_⟩
        · have hne : chunk.data.1 ≠ [] := fun hnil => by simp [hnil] at hpos
          simp [ht.ended, readEnded, hne]
        · simp [ht.short, sentShort, hk]
        · have hsent : sent [⟨.send fd chunk.data.1, some k⟩] = chunk.data.1 := by
            simp [sent, List.take_of_length_le hk]
          have hcontent : content [⟨.fread file BUFFER_SIZE, chunk⟩] = chunk.data.1 := by
            simp [content]
          simp only [sent_append, content_append, hsent, hcontent, ht.equal]
          simp [sent, content]
  · next hpos =>
    have hnil : chunk.data.1 = [] := List.length_eq_zero_iff.mp (by omega)
    refine wp_ret.mpr ⟨⟨.inr rfl, ?_, fun _ => ?_, fun h => absurd rfl h⟩, rfl⟩
    · simp [Noticed, ht.short, sentShort]
    · have hcontent : content [⟨.fread file BUFFER_SIZE, chunk⟩] = [] := by simp [content, hnil]
      have hsent : sent [⟨.fread file BUFFER_SIZE, chunk⟩] = [] := rfl
      simp only [HandedOn, Unhindered, if_true, List.any_append, ht.ended, sent_append, content_append,
        hcontent, hsent, ht.equal]
      simp [readEnded, readFailed, hnil]

/-! ## `xfer` -/

theorem reported_none (typ : Typ) : Reported typ 0 [] :=
  ⟨.inl rfl, ⟨fun _ => .inl rfl, fun _ => rfl⟩, fun h => (by cases h), fun _ => Nat.le_refl _⟩

theorem newData_idlecb {nControl : NetBuf} (hcb : nControl.idlecb = none) (fd : Nat)
    (buf : Option (Buffer BUFFER_SIZE)) (dir : Dir) : (newData nControl fd buf dir).idlecb = none := by
  simp [newData, hcb]

theorem xferData_reported {control : Nat} (file : File) {typ : Typ} {nControl nData : NetBuf} (nc : NetBuf)
    (hcb : nControl.idlecb = none) (h : Opened (· ≠ control) nControl .image typ.dataDir nData) :
    wp (transfers control fun _ _ => True) (fun _ _ => True) (xferData file typ nData nc)
      (fun r t => Reported typ r.1 t ∧ r.2.2 = nc) [] := by
  obtain ⟨fd, buf, rfl, hmode, hfd⟩ := h
  have hbuf : buf = none := by simpa using hmode
  have hplain : Plain fd typ.dataDir (newData nControl fd buf typ.dataDir) :=
    ⟨rfl, rfl, hbuf, newData_idlecb hcb ..⟩
  apply xferData_record trivial ⟨reported_none typ, rfl⟩
  · intro htyp
    subst htyp
    exact xferUpload_reported nc hfd hplain
  · intro htyp dbuf
    rw [Typ.dataDir, if_neg htyp] at hplain ⊢
    exact xferDownload_reported dbuf nc htyp hfd hplain

theorem xferEnd_reported {nControl : NetBuf} (hdir : nControl.dir = .control)
    (hcb : nControl.idlecb = none) (localfile path : Option Bytes) (typ : Typ) :
    wp (transfers nControl.handle fun _ _ => True) (fun _ _ => True)
      (xferEnd localfile path nControl typ .image) (fun e t => Reported typ e.rv t) [] := by
  refine xferEnd_record (fun _ _ _ => trivial) trivial localfile path typ .image hdir
    (fun _ => reported_none typ) fun file nData nc hopened hsame _ => ?_
  refine (xferData_reported _ _ hcb hopened).mono ?_
  rintro ⟨rv, nData', nc'⟩ t ⟨hreported, rfl⟩
  exact ⟨trivial, hsame, fun _ _ => hreported⟩

/-! ## The whole trace -/

theorem transferred_append (control : Nat) (t u : FtpTrace) :
    transferred control (t ++ u) = transferred control t ++ transferred control u :=
  List.filter_append ..

/-- What is known of a program from its record is known of the calls that it adds to a trace. -/
theorem transferring_follows {α : Type} {control : Nat} {p : Client α} {Q : α → FtpTrace → Prop}
    (h : wp (transfers control fun _ _ => True) (fun _ _ => True) p Q []) (t : FtpTrace) :
    wp (transferring control) (fun _ _ => True) p
      (fun a t' => ∃ es, t' = t ++ es ∧ Q a (transferred control es)) t := by
  intro out t' hexec
  have hfollow : ∀ t₁ d op r t₂, (∃ es, t₁ = t ++ es ∧ d = transferred control es) →
      transferring control t₁ op r t₂ → ∃ d', transfers control (fun _ _ => True) d op r d' ∧
        ∃ es, t₂ = t ++ es ∧ d' = transferred control es := by
    rintro _ _ op r _ ⟨es, rfl, rfl⟩ ⟨⟨hbrought, -⟩, rfl⟩
    refine ⟨_, ⟨⟨hbrought, trivial⟩, rfl⟩, es ++ [⟨op, r⟩], List.append_assoc .., ?_⟩
    rw [record, transferred_append, transferred, transferred, List.filter_cons, List.filter_nil]
    split
    · rfl
    · rw [List.append_nil]
  obtain ⟨d', hexec', es, rfl, rfl⟩ := hexec.follow hfollow ⟨[], (List.append_nil t).symm, rfl⟩
  cases out with
  | returned a => exact ⟨es, rfl, h.returned hexec'⟩
  | stopped s => trivial

theorem stored_append (t : FtpTrace) (e : FtpEvent) : stored (t ++ [e]) = storeEvent (stored t) e := by
  rw [stored, List.foldl_append]
  rfl

theorem written_transferred (control : Nat) (t : FtpTrace) : written (transferred control t) = written t := by
  induction t with
  | nil => rfl
  | cons e t ih =>
    have hcons : written (e :: t) = written [e] ++ written t := by
      rw [← List.singleton_append, written_append]
    rw [transferred, List.filter_cons, hcons]
    split
    · rw [← List.singleton_append, written_append, ← transferred, ih]
    · next hop =>
      -- What is outside of the record is no `fwrite`.
      have hnil : written [e] = [] := by
        obtain ⟨op, r⟩ := e
        cases op with
        | fwrite file data => exact absurd rfl hop
        | _ => rfl
      rw [hnil, ← transferred, ih, List.nil_append]

/-- A call adds to the local file, or takes from its end. -/
theorem storeEvent_cases (e : FtpEvent) :
    (lost e = 0 ∧ ∀ file, storeEvent file e = file ++ written [e]) ∨
      (written [e] = [] ∧ ∀ file, storeEvent file e = file.take (file.length - lost e)) := by
  obtain ⟨op, r⟩ := e
  cases op with
  | fwrite file data => exact .inl ⟨rfl, fun _ => by simp [storeEvent, written]⟩
  | _ => exact .inr ⟨rfl, fun _ => rfl⟩

/-- The local file holds what has been written, up to the bytes that have been lost. -/
structure Filed (t : FtpTrace) : Prop where
  equal : t.any lostBytes = false → stored t = written t
  less : t.any lostBytes = true → (stored t).length < (written t).length

theorem Filed.step {control : Nat} {t : FtpTrace} {e : FtpEvent} (h : Filed t) (he : Possible control t e) :
    Filed (t ++ [e]) := by
  rcases storeEvent_cases e with ⟨hlost, hstore⟩ | ⟨hwritten, hstore⟩
  · have hkept : lostBytes e = false := by simp [lostBytes, hlost]
    refine ⟨fun hany => ?_, fun hany => ?_⟩
    · rw [List.any_append, Bool.or_eq_false_iff] at hany
      rw [stored_append, hstore, written_append, h.equal hany.1]
    · rw [List.any_append, List.any_cons, hkept, List.any_nil, Bool.or_false, Bool.or_false] at hany
      have hless := h.less hany
      rw [stored_append, hstore, written_append, List.length_append, List.length_append]
      omega
  · have hle := he.2.2
    have hwritten' : written (t ++ [e]) = written t := by rw [written_append, hwritten, List.append_nil]
    have hstored : stored (t ++ [e]) = (stored t).take ((stored t).length - lost e) := by
      rw [stored_append, hstore]
    refine ⟨fun hany => ?_, fun hany => ?_⟩
    · rw [List.any_append, Bool.or_eq_false_iff] at hany
      have hlost : lost e = 0 := by simpa [lostBytes] using hany.2
      rw [hwritten', hstored, hlost, Nat.sub_zero, List.take_length, h.equal hany.1]
    · rw [hwritten', hstored, List.length_take]
      by_cases hbefore : t.any lostBytes = true
      · have hless := h.less hbefore
        omega
      · -- The first loss.
        have hlost : lost e ≠ 0 := by simpa [hbefore, lostBytes] using hany
        have heq := congrArg List.length (h.equal (Bool.eq_false_iff.mpr hbefore))
        omega

theorem Filed.of_run {α : Type} {control : Nat} {p : Client α} {a : α} {t : FtpTrace}
    (hrun : Exec (transferring control) p [] (.returned a) t) : Filed t := by
  have hkeep := (wp_trivial p []).keep (E := transferring control) (I := Filed)
    (fun w op r w' _ h hstep => hstep.2 ▸ h.step hstep.1) ⟨fun _ => rfl, fun h => by cases h⟩
  exact (hkeep.returned hrun).2

/-! ## The completion reply -/

theorem transferring_listens (control : Nat) : Listens (transferring control) control (heardOn control) where
  after t op r t' h := by
    rw [h.2, heardOn, List.foldl_append]
    rfl
  last t len x t' h hended := by
    have hbytes := h.1.2.1 hended
    rw [Heard.after, if_pos rfl] at hbytes
    exact List.append_right_eq_self.mp hbytes

section

variable {control fd k : Nat} {response₀ : Buffer RESPONSE_BUFFER_SIZE} {u₀ : Bytes} {nControl : NetBuf}

theorem transferring_data (hfd : fd ≠ control) :
    DataKeeps (transferring control) (fun _ _ => True) (Heeded control (heardOn control) response₀ u₀ k nControl)
      (fun _ => True) fd where
  recv len := (transferring_listens control).keeps fun h r => by
    cases r with
    | none => rfl
    | some x => rw [Heard.after, if_neg hfd]
  send _ := (transferring_listens control).keeps fun _ _ => rfl
  select _ _ := (transferring_listens control).keeps fun _ _ => rfl
  text _ _ _ _ _ _ _ := trivial
  idlecb _ _ _ := (transferring_listens control).keeps fun _ _ => rfl
  fault _ _ := trivial

theorem transferring_copy :
    CopyKeeps (transferring control) (fun _ _ => True) (Heeded control (heardOn control) response₀ u₀ k nControl) where
  malloc _ := (transferring_listens control).keeps fun _ _ => rfl
  fread _ _ := (transferring_listens control).keeps fun _ _ => rfl
  fwrite _ _ := (transferring_listens control).keeps fun _ _ => rfl

theorem transferring_files :
    FileKeeps (transferring control) (fun _ _ => True) (Heeded control (heardOn control) response₀ u₀ k nControl) where
  fopen _ _ := (transferring_listens control).keeps fun _ _ => rfl
  fflush _ := (transferring_listens control).keeps fun _ _ => rfl
  fclose _ := (transferring_listens control).keeps fun _ _ => rfl
  unlink _ := (transferring_listens control).keeps fun _ _ => rfl

end

/-- Where there was a data connection, `closeFtpClient` reads the completion reply. -/
theorem xferEnd_completed {nControl : NetBuf} {u : Bytes} (hdir : nControl.dir = .control)
    (hcb : nControl.idlecb = none) (hunread : nControl.Unread u) (localfile path : Option Bytes) (typ : Typ) :
    wp (transferring nControl.handle) (fun _ _ => True) (xferEnd localfile path nControl typ .image)
      (fun e t => match e.closed with
        | none => e.rv = 0
        | some closed => Accepted closed e.nControl ↔ Completed nControl u t) [] := by
  have hE := transferring_listens nControl.handle
  have hopened : ∀ localfile file t,
      Heeded nControl.handle (heardOn nControl.handle) nControl.response u 0 nControl t →
      wp (transferring nControl.handle) (fun _ _ => True) (xferOpened localfile file path nControl typ .image)
        (fun e t => match e.closed with
          | none => e.rv = 0
          | some closed => Accepted closed e.nControl ↔ Completed nControl u t) t := by
    intro localfile file t h
    rw [xferOpened]
    have hstart : Unrecorded nControl.handle (fun _ _ => True) [] := ⟨fun _ _ _ => trivial, trivial⟩
    have haccess := transferring_follows (@accessFtpClient_spec _ _ _ _ _ _ _ 0 _
      (hstart.rules fun _ _ => True) path typ .image hdir rfl) t
    refine ((accessFtpClient_hears hE path typ .image h).and haccess).bind ?_
    rintro ⟨nc, nData⟩ t ⟨hheeds, es, -, ⟨hsame, hpost⟩, hfirst⟩
    cases nData with
    | none => exact (wp_trivial _ t).bind fun _ _ _ => wp_ret.mpr rfl
    | some nData =>
      obtain ⟨-, hopened⟩ := hpost
      have hheeds := hheeds rfl
      have hfd : nData.handle ≠ nControl.handle := by
        obtain ⟨fd, buf, rfl, -, hfd⟩ := hopened
        exact hfd
      -- The copy leaves the control connection alone.
      have hframe := xferData_frame file typ nc (transferring_data hfd) transferring_copy hheeds
      have hdata := transferring_follows (xferData_reported file nc hcb hopened) t
      refine (hframe.and hdata).bind ?_
      rintro ⟨rv, nData', nc'⟩ t ⟨⟨hheeds, -⟩, es', -, -, rfl⟩
      refine (xferClose_frame localfile file typ rv transferring_files hheeds).bind fun _ t hheeds => ?_
      refine (closeFtpClient_hears hE nData' (hfirst rfl) hheeds).bind ?_
      rintro ⟨closed, nc''⟩ t hclosed
      exact wp_ret.mpr hclosed
  have hstart : Heeded nControl.handle (heardOn nControl.handle) nControl.response u 0 nControl [] :=
    .start hdir rfl hunread rfl
  rw [xferEnd.eq_def]
  cases localfile with
  | none => exact hopened _ _ _ hstart
  | some name =>
    refine (transferring_files.fopen _ _).bind hstart ?_
    rintro r t h -
    cases r with
    | error text => exact wp_ret.mpr rfl
    | ok x => exact hopened _ _ _ h

/-- The reports of a transfer, and the file it leaves. -/
theorem Reported.faithful_iff {control : Nat} {typ : Typ} {rv : Int} {t : FtpTrace}
    (h : Reported typ rv (transferred control t)) (hheld : Filed t) (hrv : rv = 1) :
    Faithful control typ t ↔ Smooth control typ t := by
  have hiff := h.handedOn_iff hrv
  have hle := h.written_le
  rw [written_transferred] at hle
  unfold HandedOn Unhindered at hiff
  unfold Faithful Smooth
  dsimp only
  split
  · next htyp => rwa [if_pos htyp, if_pos htyp] at hiff
  · next htyp =>
    rw [if_neg htyp, if_neg htyp, written_transferred] at hiff
    rw [← and_assoc, ← hiff]
    by_cases hlost : t.any lostBytes = true
    · -- A file that bytes are missing from is not all that was received.
      have hless := hheld.less hlost
      refine iff_of_false (fun h => ?_) (fun h => h.2 hlost)
      have heq := congrArg List.length h.2
      have hle := hle htyp
      omega
    · rw [hheld.equal (Bool.eq_false_iff.mpr hlost)]
      exact (and_iff_left hlost).symm

/-- Success of a transfer in image mode means a faithful and completed one exactly where one of the
failures that `xfer` looks at occurred, or none of the others did and the server's completion reply begins
with `2`. -/
theorem xfer_image_iff {nControl : NetBuf} {u : Bytes} (hdir : nControl.dir = .control)
    (hcb : nControl.idlecb = none) (hunread : nControl.Unread u) (name : Bytes) (path : Option Bytes) (typ : Typ)
    {rv : Int} {nControl' : NetBuf} {t : FtpTrace}
    (hrun : Exec (transferring nControl.handle) (xfer (some name) path nControl typ .image) []
      (.returned (rv, nControl')) t) :
    ∃ closed,
      Exec (transferring nControl.handle) (xferEnd (some name) path nControl typ .image) []
        (.returned ⟨rv, closed, nControl'⟩) t ∧
      ((rv = 1 → Faithful nControl.handle typ t ∧ ∃ c ∈ closed, Accepted c nControl') ↔
        Noticed typ (transferred nControl.handle t) ∨
          Smooth nControl.handle typ t ∧ Completed nControl u t) := by
  have hheld := Filed.of_run hrun
  obtain ⟨o, w₁, hend, hret⟩ := exec_bind.mp hrun
  cases o with
  | stopped s => cases hret.1
  | returned e =>
    obtain ⟨heq, rfl⟩ := hret
    obtain ⟨rfl, rfl⟩ := Prod.mk.inj (Outcome.returned.inj heq)
    obtain ⟨es, rfl, hrep⟩ := (transferring_follows (xferEnd_reported hdir hcb (some name) path typ) []).returned hend
    have hclosed := (xferEnd_completed hdir hcb hunread (some name) path typ).returned hend
    refine ⟨e.closed, hend, ?_⟩
    rw [← hrep.zero_iff]
    rcases hrep.bool with hrv | hrv
    · exact iff_of_true (fun h => absurd (hrv.symm.trans h) (by decide)) (.inl hrv)
    · cases hc : e.closed with
      | none =>
        rw [hc] at hclosed
        exact absurd (hrv.symm.trans hclosed) (by decide)
      | some closed =>
        rw [hc] at hclosed
        have hcompleted : (∃ c ∈ some closed, Accepted c e.nControl) ↔ Completed nControl u t := by
          simpa using hclosed
        rw [hrep.faithful_iff hheld hrv, hcompleted]
        constructor
        · exact fun h => .inr (h hrv)
        · rintro (hzero | h) -
          · exact absurd (hrv.symm.trans hzero) (by decide)
          · exact h

/-! ## A receive error -/

/-- The server sends `a`, and the network fails. -/
def brokenDownload : FtpTrace :=
  ⟨.fopen (ascii "f") (ascii "wb"), .ok ()⟩ ::
    exampleOpening .image (ascii "RETR g") ++
    [⟨.malloc BUFFER_SIZE, some (.zeroed _)⟩,
      ⟨.recv 4 BUFFER_SIZE, some ⟨ascii "a", by decide⟩⟩,
      ⟨.fwrite (.named (ascii "f")) (ascii "a"), ⟨1, by decide⟩⟩,
      ⟨.recv 4 BUFFER_SIZE, none⟩,
      ⟨.fflush (.named (ascii "f")), .done⟩,
      ⟨.fclose (.named (ascii "f")), .done⟩,
      ⟨.shutdown 4, ()⟩,
      ⟨.closesocket 4, ()⟩,
      ⟨.recv 3 BUFFER_SIZE, some ⟨ascii "426 aborted\r\n", by decide⟩⟩]

theorem exampleControl_unread : exampleControl.Unread [] := ⟨rfl, rfl, _, rfl, rfl⟩

/-- `xfer` reports success of it. -/
theorem brokenDownload_run : ∃ nControl', Exec (transferring 3)
    (xfer (some (ascii "f")) (some (ascii "g")) exampleControl .fileRead .image) []
    (.returned (1, nControl')) brokenDownload := by
  have hallowed : Allowed (Possible 3) (fun t e => t ++ [e]) [] brokenDownload := by
    decide +kernel
  have hreplay : (xfer (some (ascii "f")) (some (ascii "g")) exampleControl .fileRead .image).replays 4
      brokenDownload (Outcome.returns fun r => r.1 = 1) = true := by
    decide +kernel
  obtain ⟨⟨rv, nControl'⟩, hexec, hout⟩ := Prog.replays_returned hreplay (path_watching hallowed)
  obtain rfl : rv = 1 := of_decide_eq_true hout
  exact ⟨nControl', hexec⟩

theorem xfer_image_iff_brokenDownload : ∃ nControl' closed,
    Exec (transferring 3) (xferEnd (some (ascii "f")) (some (ascii "g")) exampleControl .fileRead .image) []
      (.returned ⟨1, closed, nControl'⟩) brokenDownload ∧
    (((1 : Int) = 1 → Faithful 3 .fileRead brokenDownload ∧ ∃ c ∈ closed, Accepted c nControl') ↔
      Noticed .fileRead (transferred 3 brokenDownload) ∨
        Smooth 3 .fileRead brokenDownload ∧ Completed exampleControl [] brokenDownload) := by
  obtain ⟨nControl', hrun⟩ := brokenDownload_run
  exact ⟨nControl', xfer_image_iff (rfl : exampleControl.dir = .control) rfl exampleControl_unread _ _ _ hrun⟩

theorem xfer_image_unsound : ¬ ∀ (nControl : NetBuf) (u name : Bytes) (path : Option Bytes) (typ : Typ)
    (nControl' : NetBuf) (t : FtpTrace), nControl.dir = .control → nControl.idlecb = none →
    nControl.Unread u → Exec (transferring nControl.handle) (xfer (some name) path nControl typ .image) []
      (.returned (1, nControl')) t → Faithful nControl.handle typ t ∧ Completed nControl u t := by
  intro h
  obtain ⟨nControl', hrun⟩ := brokenDownload_run
  have hfaithful := (h exampleControl _ _ _ _ _ _ rfl rfl exampleControl_unread hrun).1
  rw [Faithful, if_neg (by simp)] at hfaithful
  exact absurd hfaithful.1 (by decide +kernel)

end Ftp
