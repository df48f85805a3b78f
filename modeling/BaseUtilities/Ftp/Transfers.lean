import BaseUtilities.Ftp.Sockets

/-!
# What a transfer does

The world of a transfer is the record of its calls on the data connection and on the local file.  All
other calls leave it alone, so that a statement about `xfer` comes down to one about the loop between
`malloc` and `free`.
-/

open Effects Mem

namespace Ftp

/-- The calls on the data connection and the local file, where `control` is the descriptor of the
control connection, and those of the user's callback. -/
def Op.isTransfer (control : Nat) : Op → Bool
  | .recv fd _ => fd ≠ control
  | .send fd _ => fd ≠ control
  | .fread _ _ | .fwrite _ _ | .idlecb _ _ _ => true
  | _ => false

/-- A record of the calls so far, with one more. -/
def record (control : Nat) (t : FtpTrace) (e : FtpEvent) : FtpTrace :=
  if e.1.isTransfer control then t ++ [e] else t

/-- Calls that answer as POSIX and `may` allow; no new descriptor is that of the control
connection. -/
def transfers (control : Nat) (may : FtpTrace → FtpEvent → Prop) : Env Op Op.Res FtpTrace :=
  watching (fun t e => broughtFd e ≠ some control ∧ may t e) (record control)

/-- The bytes that `recv` delivered. -/
def received (t : FtpTrace) : Bytes := t.flatMap fun
  | ⟨.recv _ _, some x⟩ => x.1
  | _ => []

/-- The bytes that `send` accepted. -/
def sent (t : FtpTrace) : Bytes := t.flatMap fun
  | ⟨.send _ data, some x⟩ => data.take x.1
  | _ => []

/-- The bytes that `fwrite` wrote. -/
def written (t : FtpTrace) : Bytes := t.flatMap fun
  | ⟨.fwrite _ data, x⟩ => data.take x.1
  | _ => []

/-- The bytes that `fread` delivered. -/
def content (t : FtpTrace) : Bytes := t.flatMap fun
  | ⟨.fread _ _, x⟩ => x.data.1
  | _ => []

section

variable (t u : FtpTrace)

@[simp] theorem received_append : received (t ++ u) = received t ++ received u := List.flatMap_append
@[simp] theorem sent_append : sent (t ++ u) = sent t ++ sent u := List.flatMap_append
@[simp] theorem written_append : written (t ++ u) = written t ++ written u := List.flatMap_append
@[simp] theorem content_append : content (t ++ u) = content t ++ content u := List.flatMap_append

end

variable {control : Nat} {may : FtpTrace → FtpEvent → Prop} {ok : Stop Op → FtpTrace → Prop}
  {t t₀ : FtpTrace} {op : Op}

theorem record_of_not {e : FtpEvent} (h : e.1.isTransfer control = false) :
    record control t e = t := by
  rw [record, h, if_neg Bool.false_ne_true]

theorem record_of {e : FtpEvent} (h : e.1.isTransfer control = true) :
    record control t e = t ++ [e] :=
  if_pos h

theorem unrecorded {r : Op.Res op} {t' : FtpTrace} (hop : op.isTransfer control = false)
    (h : transfers control may t op r t') : t' = t :=
  h.2.trans (record_of_not hop)

/-- A call outside the record. -/
theorem keeps_record (hop : op.isTransfer control = false)
    (hok : ∀ op t, op.isTransfer control = false → ok (.asking op) t) :
    Keeps (transfers control may) ok (· = t₀) op where
  asks t _ := hok op t hop
  keeps _ _ _ ht h := (unrecorded hop h).trans ht

/-- A call in the record. -/
theorem wp_record {α : Type} {k : Op.Res op → Client α} {Q : α → FtpTrace → Prop}
    (hop : op.isTransfer control = true) (hasks : ok (.asking op) t)
    (hk : ∀ r, may t ⟨op, r⟩ → wp (transfers control may) ok (k r) Q (t ++ [⟨op, r⟩])) :
    wp (transfers control may) ok (.call op k) Q t := by
  refine wp_call.mpr ⟨hasks, ?_⟩
  rintro r _ ⟨⟨-, hmay⟩, rfl⟩
  rw [record_of (e := ⟨op, r⟩) hop]
  exact hk r hmay

/-- Whatever is outside the record may be asked, and fails without harm where the record is `t₀`. -/
structure Unrecorded (control : Nat) (ok : Stop Op → FtpTrace → Prop) (t₀ : FtpTrace) : Prop where
  asks : ∀ op t, op.isTransfer control = false → ok (.asking op) t
  fault : ok .fault t₀

theorem Unrecorded.rules (h : Unrecorded control ok t₀) (may : FtpTrace → FtpEvent → Prop) :
    SocketRules (transfers control may) ok control (fun _ t => t = t₀) (· ≠ control)
      (fun _ _ => True) where
  setup owned op hop := keeps_record (by cases op <;> first | rfl | cases hop) h.asks
  recv owned len := keeps_record (by simp [Op.isTransfer]) h.asks
  send owned data := keeps_record (by simp [Op.isTransfer]) h.asks
  fault := by
    rintro owned t rfl
    exact h.fault
  socket_asks owned t _ := h.asks _ t rfl
  opened _ _ _ _ ht h' := ⟨(unrecorded rfl h').trans ht, fun heq => h'.1.1 (congrArg some heq)⟩
  refused _ _ _ ht h' := (unrecorded rfl h').trans ht
  listens _ _ _ _ _ _ := trivial
  unnamed _ _ _ _ ht _ h' := (unrecorded rfl h').trans ht
  close_asks owned t fd _ := h.asks _ t rfl
  closed _ _ _ _ _ ht h' := (unrecorded rfl h').trans ht
  shutdown owned fd := keeps_record rfl h.asks
  wait owned fd := keeps_record rfl h.asks
  gaveUp _ _ _ _ _ ht h' _ := (unrecorded rfl h').trans ht
  accept_asks owned t fd _ := h.asks _ t rfl
  accepted _ _ _ _ _ _ ht h' :=
    ⟨(unrecorded rfl h').trans ht, fun heq => h'.1.1 (congrArg some heq)⟩
  unaccepted _ _ _ _ _ ht h' := (unrecorded rfl h').trans ht

theorem Unrecorded.files (h : Unrecorded control ok t₀) :
    FileKeeps (transfers control may) ok (· = t₀) where
  fopen _ _ := keeps_record rfl h.asks
  fflush _ := keeps_record rfl h.asks
  fclose _ := keeps_record rfl h.asks
  unlink _ := keeps_record rfl h.asks

/-- The transfer of data is the loop of an upload or of a download, once there is memory for it. -/
theorem xferData_record {nData nc : NetBuf} {file : File} {typ : Typ}
    {R : Int × NetBuf × NetBuf → FtpTrace → Prop} (hask : ok (.asking (.malloc BUFFER_SIZE)) [])
    (hnone : R (0, nData, nc) [])
    (hup : typ = .fileWrite → wp (transfers control may) ok (xferUpload file nData nc) R [])
    (hdown : typ ≠ .fileWrite → ∀ dbuf,
      wp (transfers control may) ok (xferDownload file dbuf nData nc) R []) :
    wp (transfers control may) ok (xferData file typ nData nc) R [] := by
  rw [xferData]
  refine wp_call.mpr ⟨hask, ?_⟩
  rintro r _ ⟨-, rfl⟩
  cases r with
  | none => exact wp_ret.mpr hnone
  | some dbuf =>
    dsimp only [Prog.bind]
    split
    · next htyp => exact hup htyp
    · next htyp => exact hdown htyp dbuf

/-- A statement about `xfer` comes down to one about its transfer of data: without a data connection
nothing is recorded, and behind the transfer nothing more is. -/
theorem xferEnd_record {nControl : NetBuf} {R : XferEnd → FtpTrace → Prop}
    (hasks : ∀ op t, op.isTransfer nControl.handle = false → ok (.asking op) t)
    (hfault : ok .fault []) (localfile path : Option Bytes) (typ : Typ) (mode : Mode)
    (hdir : nControl.dir = .control) (hnone : ∀ nc, R ⟨0, none, nc⟩ [])
    (hdata : ∀ file nData nc, Opened (· ≠ nControl.handle) nControl mode typ.dataDir nData →
      nControl.Same nc → nc.response.first = 49 →
      wp (transfers nControl.handle may) ok (xferData file typ nData nc)
        (fun r t => ok .fault t ∧ nControl.Same r.2.2 ∧ ∀ closed nc', R ⟨r.1, some closed, nc'⟩ t)
        []) :
    wp (transfers nControl.handle may) ok (xferEnd localfile path nControl typ mode) R [] := by
  have hstart : Unrecorded nControl.handle ok [] := ⟨hasks, hfault⟩
  -- Neither opening nor closing is recorded, so the record is that of the copy alone.
  have hopened : ∀ localfile file, wp (transfers nControl.handle may) ok
      (xferOpened localfile file path nControl typ mode) R [] := by
    intro localfile file
    rw [xferOpened]
    have haccess := @accessFtpClient_spec _ _ ok _ _ _ _ 0 _ (hstart.rules may) path typ mode hdir rfl
    refine haccess.bind ?_
    rintro ⟨nc, nData⟩ t ⟨⟨hsame, hpost⟩, hfirst⟩
    cases nData with
    | none =>
      obtain rfl : t = [] := hpost
      refine (xferDiscard_frame localfile file typ hstart.files rfl).bind ?_
      rintro _ _ rfl
      exact wp_ret.mpr (hnone nc)
    | some nData =>
      obtain ⟨rfl, hopened⟩ := hpost
      refine (hdata file nData nc hopened hsame (hfirst rfl)).bind ?_
      rintro ⟨rv, nData', nc'⟩ t ⟨hfault, hsame', hR⟩
      have hend : Unrecorded nControl.handle ok t := ⟨hasks, hfault⟩
      refine (xferClose_frame localfile file typ rv hend.files rfl).bind ?_
      rintro _ _ rfl
      have hclose := @closeFtpClient_spec _ _ ok _ _ _ _ 0 _ (hsame'.rules (hend.rules may)) nData'
        (hsame'.dir_eq.trans hdir) rfl
      refine hclose.bind ?_
      rintro ⟨closed, nc''⟩ _ ⟨-, rfl⟩
      exact wp_ret.mpr (hR closed nc'')
  -- Without a local file, and after a failed `fopen`, nothing is transferred.
  rw [xferEnd.eq_def]
  cases localfile with
  | none => exact hopened _ _
  | some name =>
    refine (hstart.files.fopen _ _).bind rfl ?_
    rintro r _ rfl -
    cases r with
    | error text => exact wp_ret.mpr (hnone _)
    | ok u => exact hopened _ _

/-- A run of `accessFtpClient` records nothing. -/
theorem accessFtpClient_run {nControl nc nData : NetBuf} {path : Option Bytes} {typ : Typ} {mode : Mode}
    (hdir : nControl.dir = .control)
    (hrun : Exec (transfers nControl.handle may) (accessFtpClient path typ mode nControl) []
      (.returned (nc, some nData)) t) :
    t = [] ∧ nControl.Same nc ∧ Opened (· ≠ nControl.handle) nControl mode typ.dataDir nData ∧
      nc.response.first = 49 := by
  have hstart : Unrecorded nControl.handle (fun _ _ => True) [] := ⟨fun _ _ _ => trivial, trivial⟩
  have hspec := @accessFtpClient_spec _ _ _ _ _ _ _ 0 _ (hstart.rules may) path typ mode hdir rfl
  obtain ⟨⟨hsame, hnil, hopened⟩, hfirst⟩ := hspec.returned hrun
  exact ⟨hnil, hsame, hopened, hfirst rfl⟩

/-! ## Connections for examples -/

/-- A connected control connection with nothing unread. -/
def exampleControl : NetBuf := newControl 3 (.zeroed _)

/-- `send` accepts all of `data`. -/
def sendsAll (fd : Nat) (data : Bytes) : FtpEvent :=
  ⟨.send fd data, some ⟨data.length, Nat.le_refl _⟩⟩

/-- The server accepts a transfer by the command `cmd` in passive mode, on the data connection 4. -/
def exampleOpening (mode : Mode) (cmd : Bytes) : FtpTrace :=
  [sendsAll 3 (typeCommand mode.char ++ [CR, LF]),
    ⟨.recv 3 BUFFER_SIZE, some ⟨ascii "200 ok\r\n", by decide⟩⟩,
    sendsAll 3 (ascii "PASV\r\n"),
    ⟨.recv 3 BUFFER_SIZE, some ⟨ascii "227 (10,0,0,1,4,0)\r\n", by decide⟩⟩,
    ⟨.uninit, .replicate 6 0⟩,
    ⟨.socket, some 4⟩,
    ⟨.connect 4 #v[4, 0, 10, 0, 0, 1], true⟩,
    ⟨.calloc, true⟩] ++
  (if mode = .ascii then [⟨.malloc BUFFER_SIZE, some (.zeroed _)⟩] else []) ++
  [sendsAll 3 (cmd ++ [CR, LF]),
    ⟨.recv 3 BUFFER_SIZE, some ⟨ascii "150 ok\r\n", by decide⟩⟩]

/-- The end of such a transfer. -/
def exampleClosing : FtpTrace :=
  [⟨.shutdown 4, ()⟩,
    ⟨.closesocket 4, ()⟩,
    ⟨.recv 3 BUFFER_SIZE, some ⟨ascii "226 ok\r\n", by decide⟩⟩]

/-- The completion reply can be read. -/
def exampleCloses (nControl : NetBuf) : Bool :=
  (readResponse 50 nControl).replays 4 (exampleClosing.drop 2) (Outcome.returns fun _ => true)

section

variable (hmay : ∀ t (e : FtpEvent), e.1.isTransfer 3 = false → may t e)

include hmay

theorem allowed_unrecorded {es : FtpTrace}
    (hes : es.all (fun e => !e.1.isTransfer 3 && broughtFd e != some 3) = true) :
    Path (transfers 3 may) t es t := by
  induction es with
  | nil => exact .nil
  | cons e es ih =>
    simp only [List.all_cons, Bool.and_eq_true, Bool.not_eq_true', bne_iff_ne, ne_eq] at hes
    exact .cons ⟨⟨hes.1.2, hmay t e hes.1.1⟩, (record_of_not hes.1.1).symm⟩ (ih hes.2)

/-- A data connection is opened and nothing is recorded. -/
theorem example_access {nControl : NetBuf} (hdir : nControl.dir = .control) (hhandle : nControl.handle = 3)
    (typ : Typ) (mode : Mode) (cmd : Bytes)
    (hes : (exampleOpening mode cmd).all (fun e => !e.1.isTransfer 3 && broughtFd e != some 3) = true)
    (hreplay : (accessFtpClient (some (ascii "g")) typ mode nControl).replays 4
      (exampleOpening mode cmd) (Outcome.returns fun r => r.2.isSome && exampleCloses r.1) = true) :
    ∃ nc nData, Exec (transfers 3 may) (accessFtpClient (some (ascii "g")) typ mode nControl) []
        (.returned (nc, some nData)) [] ∧
      exampleCloses nc = true ∧ Opened (· ≠ 3) nControl mode typ.dataDir nData ∧
      nc.response.first = 49 := by
  obtain ⟨⟨nc, nData⟩, haccess, hout⟩ :=
    Prog.replays_returned hreplay (allowed_unrecorded (t := []) hmay hes)
  cases nData with
  | none => cases hout
  | some nData =>
    rw [← hhandle] at haccess
    obtain ⟨-, -, hopened, hfirst⟩ := accessFtpClient_run hdir haccess
    rw [hhandle] at haccess hopened
    exact ⟨nc, nData, haccess, hout, hopened, hfirst⟩

/-- The transfer is brought to its end. -/
theorem example_close {nc : NetBuf} (hclose : exampleCloses nc = true) (hfirst : nc.response.first = 49)
    (localfile : Option Bytes) (file : File) (typ : Typ) (rv : Int) (nData : NetBuf) :
    ∃ closed nc', Exec (transfers 3 may)
      (do
        xferClose localfile file typ rv
        let (closed, nControl) ← closeFtpClient nData nc
        return (⟨rv, some closed, nControl⟩ : XferEnd))
      t (.returned ⟨rv, some closed, nc'⟩) t := by
  -- None of the calls after the copy is part of the record.
  have hstep : ∀ (op : Op) (r : Op.Res op), op.isTransfer 3 = false → broughtFd ⟨op, r⟩ ≠ some 3 →
      transfers 3 may t op r t := fun op r hop hfd =>
    ⟨⟨hfd, hmay t ⟨op, r⟩ hop⟩, (record_of_not hop).symm⟩
  have hfile : Exec (transfers 3 may) (xferClose localfile file typ rv) t (.returned ()) t := by
    rw [xferClose.eq_def]
    refine Exec.call (r := .done) (hstep _ _ rfl (by simp [broughtFd])) ?_
    cases localfile with
    | none => exact .ret
    | some name =>
      refine Exec.call (r := .done) (hstep _ _ rfl (by simp [broughtFd])) ?_
      dsimp only [Prog.bind]
      split
      · exact Exec.call (r := true) (hstep _ _ rfl (by simp [broughtFd])) .ret
      · exact .ret
  -- Only the reply depends on the connection, so it is replayed; the rest is the same for all.
  obtain ⟨⟨closed, nc'⟩, hread, -⟩ :=
    Prog.replays_returned hclose (allowed_unrecorded (t := t) hmay (by decide +kernel))
  have hend : Exec (transfers 3 may) (closeFtpClient nData nc) t (.returned (closed, nc')) t := by
    refine Exec.call (r := ()) (hstep _ _ rfl (by simp [broughtFd]))
      (Exec.call (r := ()) (hstep _ _ rfl (by simp [broughtFd])) ?_)
    dsimp only [Prog.bind]
    rw [if_pos (by rw [hfirst]; decide)]
    exact hread
  exact ⟨closed, nc', hfile.bind (hend.bind .ret)⟩

end

end Ftp
