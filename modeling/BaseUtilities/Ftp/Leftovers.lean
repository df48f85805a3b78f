import BaseUtilities.Ftp.Sockets

/-!
# What a download leaves behind

The local file of a download exists once `fopen` has created it, until `unlink` removes it.  `xfer`
removes it for one type of transfer only, and does not look at what `unlink` returns: a get that fails
leaves its file where `unlink` fails as well, and a listing leaves the file that it has opened, whether
it fails or not.
-/

open Effects Mem

namespace Ftp

/-- Whether there is a file `name` behind a call: `fopen` creates it when it opens it for writing. -/
def fileAfter (name : Bytes) (there : Bool) : FtpEvent → Bool
  | ⟨.fopen localfile mode, .ok _⟩ => there || (localfile = name && mode.head? = some 119)
  | ⟨.unlink localfile, true⟩ => there && localfile ≠ name
  | _ => there

/-- `unlink` returned -1. -/
def unlinkFailed : FtpEvent → Bool
  | ⟨.unlink _, removed⟩ => !removed
  | _ => false

/-- Whether there is a file `name` after the calls of `t`. -/
def fileThere (name : Bytes) (before : Bool) (t : FtpTrace) : Bool := t.foldl (fileAfter name) before

/-- `fopen` of the file `name` has succeeded. -/
def openedFile (name : Bytes) (t : FtpTrace) : Prop := ∃ mode, ⟨.fopen name mode, .ok ()⟩ ∈ t

/-- In every run in which the file `name` was opened, it is there in the end exactly where `stays` says so
of the result and the calls. -/
def LeavesFile (name : Bytes) (p : NetBuf → Client (Int × NetBuf)) (stays : Int → FtpTrace → Prop) : Prop :=
  ∀ nControl before r t, nControl.dir = .control → Exec recording (p nControl) [] (.returned r) t →
    openedFile name t → (fileThere name before t = true ↔ stays r.1 t)

/-- In every run in which the file `name` was opened and that returns 0, it is gone in the end. -/
def LeavesNothing (name : Bytes) (p : NetBuf → Client (Int × NetBuf)) : Prop :=
  ∀ nControl before r t, nControl.dir = .control → Exec recording (p nControl) [] (.returned r) t →
    openedFile name t → r.1 = 0 → fileThere name before t = false

variable {name : Bytes} {before there : Bool} {t : FtpTrace} {nControl : NetBuf} {op : Op}

theorem fileThere_snoc (e : FtpEvent) :
    fileThere name before (t ++ [e]) = fileAfter name (fileThere name before t) e := by
  unfold fileThere
  rw [List.foldl_append]
  rfl

/-- The file is there or not, and no `unlink` has failed. -/
structure FileIs (name : Bytes) (before there : Bool) (t : FtpTrace) : Prop where
  there_eq : fileThere name before t = there
  removed : t.any unlinkFailed = false

/-- What `xfer` leaves behind with the result `rv`. -/
def KeepsFile (name : Bytes) (before : Bool) (typ : Typ) (rv : Int) (t : FtpTrace) : Prop :=
  fileThere name before t = true ↔ typ ≠ .fileRead ∨ rv = 1 ∨ t.any unlinkFailed = true

theorem FileIs.keeps {typ : Typ} {rv : Int} (h : FileIs name before true t) (hstays : typ ≠ .fileRead ∨ rv = 1) :
    KeepsFile name before typ rv t :=
  iff_of_true h.there_eq (hstays.imp_right .inl)

/-! ## Calls that leave the file alone -/

/-- The calls that create and remove files. -/
def Op.isDirectory : Op → Bool
  | .fopen _ _ | .unlink _ => true
  | _ => false

theorem fileAfter_of_not {e : FtpEvent} (h : e.1.isDirectory = false) :
    fileAfter name there e = there := by
  obtain ⟨op, r⟩ := e
  cases op with
  | fopen localfile mode => cases h
  | unlink localfile => cases h
  | _ => rfl

theorem unlinkFailed_of_not {e : FtpEvent} (h : e.1.isDirectory = false) : unlinkFailed e = false := by
  obtain ⟨op, r⟩ := e
  cases op with
  | unlink localfile => cases h
  | _ => rfl

/-- A call on anything but files leaves everything as it is. -/
theorem call_file (name : Bytes) (before : Bool) (t : FtpTrace) (r : Op.Res op) (h : op.isDirectory = false) :
    fileThere name before (t ++ [⟨op, r⟩]) = fileThere name before t ∧
      List.any (t ++ [⟨op, r⟩]) unlinkFailed = t.any unlinkFailed := by
  constructor
  · rw [fileThere_snoc, fileAfter_of_not h]
  · rw [List.any_append, List.any_cons, unlinkFailed_of_not h]
    simp

theorem keeps_file (h : op.isDirectory = false) :
    Keeps recording (fun _ _ => True) (FileIs name before there) op where
  asks _ _ := trivial
  keeps t r t' ht hr := by
    obtain ⟨-, rfl⟩ := hr
    obtain ⟨hthere, hfailed⟩ := call_file name before t r h
    exact ⟨hthere.trans ht.there_eq, hfailed.trans ht.removed⟩

theorem keeps_keepsFile {typ : Typ} {rv : Int} (h : op.isDirectory = false) :
    Keeps recording (fun _ _ => True) (KeepsFile name before typ rv) op where
  asks _ _ := trivial
  keeps t r t' ht hr := by
    obtain ⟨-, rfl⟩ := hr
    obtain ⟨hthere, hfailed⟩ := call_file name before t r h
    unfold KeepsFile
    rw [hthere, hfailed]
    exact ht

section

variable {J : FtpTrace → Prop}

/-- What every call on anything but files keeps, commands keep. -/
theorem openKeeps_file (hJ : ∀ op, op.isDirectory = false → Keeps recording (fun _ _ => True) J op) :
    OpenKeeps recording (fun _ _ => True) (fun nc t => nc.dir = .control ∧ J t) (fun _ => True) where
  send cmd expresp nc t _ h := by
    have hsend : wp recording (fun _ _ => True) (sendCommand cmd expresp nc)
        (fun r t => J t ∧ nc.Same r.2 ∧ (r.1 = 0 ∨ r.1 = 1 ∧ r.2.response.first = expresp)) t :=
      sendCommand_frame cmd expresp (fun _ => hJ _ rfl) (fun _ => hJ _ rfl) (fun _ _ => trivial) h.2
    apply hsend.mono
    intro r t h'
    exact ⟨h'.2.1.dir_eq.trans h.1, h'.1⟩
  fault _ _ _ := trivial
  call nc op hop := by
    have hno : op.isDirectory = false := by
      cases op with
      | fopen localfile mode => cases hop
      | unlink localfile => cases hop
      | _ => rfl
    exact ⟨fun _ _ => trivial, fun t r t' h hr => ⟨h.1, (hJ op hno).keeps t r t' h.2 hr⟩⟩
  respond _ _ _ h := h

theorem readResponse_file (hJ : ∀ op, op.isDirectory = false → Keeps recording (fun _ _ => True) J op)
    (c : UInt8) (nc : NetBuf) (t : FtpTrace) (h : nc.dir = .control ∧ J t) :
    wp recording (fun _ _ => True) (readResponse c nc) (fun r t => r.2.dir = .control ∧ J t) t := by
  apply (readResponse_frame c h.1 (fun _ => hJ _ rfl) (fun _ _ => trivial) h.2).mono
  intro r t h'
  exact ⟨h'.2.1.dir_eq.trans h.1, h'.1⟩

end

theorem dataKeeps_file (fd : Nat) :
    DataKeeps recording (fun _ _ => True) (FileIs name before there) (fun _ => True) fd where
  recv _ := keeps_file rfl
  send _ := keeps_file rfl
  select _ _ := keeps_file rfl
  text _ _ _ _ _ _ _ := trivial
  idlecb _ _ _ := keeps_file rfl
  fault _ _ := trivial

theorem copyKeeps_file : CopyKeeps recording (fun _ _ => True) (FileIs name before there) where
  malloc _ := keeps_file rfl
  fread _ _ := keeps_file rfl
  fwrite _ _ := keeps_file rfl

/-! ## The end of the local file -/

/-- The file is removed, unless `unlink` fails. -/
theorem unlink_file {rv : Int} (h : FileIs name before true t) (hrv : rv ≠ 1) :
    wp recording (fun _ _ => True)
      (do
        let _ ← Sys.unlink name
        return ())
      (fun _ t => KeepsFile name before .fileRead rv t) t := by
  apply wp_call.mpr
  constructor
  · trivial
  · intro removed t' hr
    obtain ⟨-, rfl⟩ := hr
    apply wp_ret.mpr
    unfold KeepsFile
    rw [fileThere_snoc, List.any_append, h.removed, h.there_eq]
    cases removed with
    | true => simp [fileAfter, unlinkFailed, hrv]
    | false => simp [fileAfter, unlinkFailed]

/-- Behind a transfer with the result `rv` the file is removed when a get has failed. -/
theorem xferClose_file (typ : Typ) (rv : Int) (h : FileIs name before true t) :
    wp recording (fun _ _ => True) (xferClose (some name) (.named name) typ rv)
      (fun _ t => KeepsFile name before typ rv t) t := by
  unfold xferClose
  apply (keeps_file rfl).bind h
  intro _ t h _
  dsimp only
  apply (keeps_file rfl).bind h
  intro _ t h _
  by_cases hfail : rv ≠ 1 ∧ typ = .fileRead
  · obtain ⟨hrv, rfl⟩ := hfail
    rw [if_pos ⟨hrv, rfl⟩]
    exact unlink_file h hrv
  · rw [if_neg hfail]
    apply wp_ret.mpr
    apply h.keeps
    by_cases htyp : typ = .fileRead
    · right
      by_contra hrv
      exact hfail ⟨hrv, htyp⟩
    · exact .inl htyp

/-- Without a data connection it is removed for a get. -/
theorem xferDiscard_file (typ : Typ) (h : FileIs name before true t) :
    wp recording (fun _ _ => True) (xferDiscard (some name) (.named name) typ)
      (fun _ t => KeepsFile name before typ 0 t) t := by
  unfold xferDiscard
  apply (keeps_file rfl).bind h
  intro _ t h _
  by_cases htyp : typ = .fileRead
  · subst htyp
    rw [if_pos rfl]
    exact unlink_file h (by decide)
  · rw [if_neg htyp]
    apply wp_ret.mpr
    exact h.keeps (.inl htyp)

/-! ## Transfers -/

/-- Once the file is open it stays, unless a get fails. -/
theorem xferOpened_file (path : Option Bytes) (typ : Typ) (mode : Mode) (hdir : nControl.dir = .control)
    (h : FileIs name before true t) :
    wp recording (fun _ _ => True) (xferOpened (some name) (.named name) path nControl typ mode)
      (fun e t => KeepsFile name before typ e.rv t) t := by
  unfold xferOpened
  have haccess := accessFtpClient_keeps (openKeeps_file fun _ => keeps_file)
    (readResponse_file fun _ => keeps_file) path typ mode trivial
    (fun _ _ _ _ _ _ => ⟨trivial, fun _ => trivial, trivial⟩) ⟨hdir, h⟩
  apply haccess.bind
  intro r t hr
  obtain ⟨nc, nData⟩ := r
  cases nData with
  | none =>
    -- the transfer has not begun
    apply (xferDiscard_file typ hr.2).bind
    intro _ t hend
    exact wp_ret.mpr hend
  | some nData =>
    apply (xferData_frame (.named name) typ nc (dataKeeps_file nData.handle) copyKeeps_file hr.2).bind
    intro r t hdata
    obtain ⟨rv, nData', nc'⟩ := r
    obtain ⟨hthere, -, hnoted⟩ := hdata
    have hdir' : nc'.dir = .control := hnoted.same.dir_eq.trans hr.1
    apply (xferClose_file typ rv hthere).bind
    intro _ t hend
    have hclose := closeFtpClient_keeps (openKeeps_file fun _ => keeps_keepsFile)
      (readResponse_file fun _ => keeps_keepsFile) nData' ⟨hdir', hend⟩
    apply hclose.bind
    intro r t hclosed
    exact wp_ret.mpr hclosed.2

/-- A transfer to a local file leaves it there, unless it is a get and fails and `unlink` does not. -/
theorem xfer_leaves (path : Option Bytes) {typ : Typ} (mode : Mode) (htyp : typ ≠ .fileWrite) :
    LeavesFile name (fun nControl => xfer (some name) path nControl typ mode)
      (fun rv t => typ ≠ .fileRead ∨ rv = 1 ∨ t.any unlinkFailed = true) := by
  intro nControl before r t hdir hrun hopened
  have hxfer : wp recording (fun _ _ => True) (xfer (some name) path nControl typ mode)
      (fun r t => openedFile name t → KeepsFile name before typ r.1 t) [] := by
    unfold xfer
    apply wp.bind (Q := fun e t => openedFile name t → KeepsFile name before typ e.rv t)
    · unfold xferEnd
      apply wp_ask trivial
      intro opened t hopen
      obtain ⟨-, rfl⟩ := hopen
      cases opened with
      | error text =>
        -- the file was not opened
        apply wp_ret.mpr
        intro hopened
        obtain ⟨m, hm⟩ := hopened
        simp at hm
      | ok u =>
        have hthere : FileIs name before true [⟨.fopen name (fopenMode typ mode), .ok u⟩] := by
          refine ⟨?_, rfl⟩
          unfold fileThere fopenMode
          rw [if_neg htyp]
          have hw : (ascii "w" ++ if mode = .image then ascii "b" else []).head? = some 119 := rfl
          simp [fileAfter, hw]
        apply (xferOpened_file path typ mode hdir hthere).mono
        intro e t hend _
        exact hend
    · intro e t hend
      exact wp_ret.mpr hend
  exact hxfer.returned hrun hopened

/-- A get leaves its file where it returns 1, and where `unlink` fails; a listing keeps the file that it has
opened whatever it returns. -/
theorem downloads_leave (name : Bytes) (path : Option Bytes) :
    (∀ mode, LeavesFile name (getDataFtpClient (some name) path mode)
      (fun rv t => rv = 1 ∨ t.any unlinkFailed = true)) ∧
    LeavesFile name (dirFtpClient (some name) path) (fun _ _ => True) ∧
    LeavesFile name (nlstFtpClient (some name) path) (fun _ _ => True) ∧
    LeavesFile name (mlsdFtpClient (some name) path) (fun _ _ => True) := by
  have hget : ∀ mode, LeavesFile name (getDataFtpClient (some name) path mode)
      (fun rv t => rv = 1 ∨ t.any unlinkFailed = true) := by
    intro mode nControl before r t hdir hrun hopened
    rw [xfer_leaves path mode (by decide) nControl before r t hdir hrun hopened]
    simp
  have hlist : ∀ typ, typ ≠ .fileWrite → typ ≠ .fileRead →
      LeavesFile name (fun nControl => xfer (some name) path nControl typ .ascii) (fun _ _ => True) := by
    intro typ hwrite hread nControl before r t hdir hrun hopened
    rw [xfer_leaves path .ascii hwrite nControl before r t hdir hrun hopened]
    simp [hread]
  exact ⟨hget, hlist _ (by decide) (by decide), hlist _ (by decide) (by decide),
    hlist _ (by decide) (by decide)⟩

/-- The server does not take the `TYPE` of a listing. -/
def refusedListing : FtpTrace :=
  [⟨.fopen (ascii "out") (ascii "w"), .ok ()⟩,
    ⟨.send 3 (typeCommand 65 ++ [CR, LF]), none⟩,
    ⟨.fclose (.named (ascii "out")), .done⟩]

/-- A listing that fails leaves its file. -/
theorem listing_leaves_file :
    ¬∀ name path, LeavesNothing name (dirFtpClient (some name) path) := by
  intro hall
  have hreplay : (dirFtpClient (some (ascii "out")) none (newControl 3 (.zeroed _))).replays 4
      refusedListing (Outcome.returns fun r => r.1 = 0) = true := by decide +kernel
  have hallowed : Allowed (fun _ _ => True) (fun t e => t ++ [e]) [] refusedListing :=
    ⟨trivial, trivial, trivial, trivial⟩
  obtain ⟨r, hrun, hout⟩ := Prog.replays_returned hreplay (path_watching hallowed)
  have hzero : r.1 = 0 := of_decide_eq_true hout
  have hopened : openedFile (ascii "out") refusedListing := ⟨ascii "w", List.mem_cons_self⟩
  have hgone := hall (ascii "out") none (newControl 3 (.zeroed _)) false r refusedListing rfl hrun
    hopened hzero
  exact absurd hgone (by decide)

end Ftp
