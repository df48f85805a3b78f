import BaseUtilities.Ftp.Newlines
import BaseUtilities.Ftp.Transfers

/-!
# Aborting a transfer

The user's callback aborts a transfer by returning 0.  `xfer` stops and reports a failure where the
callback was called while `writeLine` waited to send a full buffer before the end of its input; there
`writeLine` returns less than it was given.  In all other places the abort is taken for an end of
file or for a success.
-/

open Effects Mem

namespace Ftp

/-- The callback returned 0. -/
def aborts : FtpEvent → Bool
  | ⟨.idlecb _ _ _, rv⟩ => rv = 0
  | _ => false

/-- One event's effect on the number of bytes that are still to be sent, with the CRs of ASCII mode,
of what `fread` delivered last. -/
def pendingStep (n : Nat) : FtpEvent → Nat
  | ⟨.fread _ _, x⟩ => (crlfFrom 0 x.data.1).length
  | ⟨.send _ _, some k⟩ => n - k.1
  | _ => n

def pending (t : FtpTrace) : Nat := t.foldl pendingStep 0

@[simp] theorem pending_snoc (t : FtpTrace) (e : FtpEvent) :
    pending (t ++ [e]) = pendingStep (pending t) e := by
  rw [pending, List.foldl_append]
  rfl

/-- Behind an abort nothing is received or sent on the data connection. -/
def SilentAfterAbort (control : Nat) : Stop Op → FtpTrace → Prop
  | .asking (.recv fd _), t => fd ≠ control → t.any aborts = false
  | .asking (.send fd _), t => fd ≠ control → t.any aborts = false
  | _, _ => True

/-- An abort ends the transfer with a failure, where `may` permits the events. -/
def AbortHonoured (may : FtpTrace → FtpEvent → Prop) (nControl : NetBuf) (localfile path : Option Bytes)
    (typ : Typ) (mode : Mode) : Prop :=
  wp (transfers nControl.handle may) (SilentAfterAbort nControl.handle)
    (xfer localfile path nControl typ mode) (fun r t => t.any aborts → r.1 = 0) []

/-- The callback aborts only an upload in ASCII mode of which more than a buffer is still to be
sent. -/
def MidChunk (mode : Mode) (t : FtpTrace) (e : FtpEvent) : Prop :=
  aborts e → mode = .ascii ∧ BUFFER_SIZE < pending t

variable {control fd : Nat} {mode : Mode} {t : FtpTrace}

/-! ## Transfers that cannot be aborted -/

/-- A call in the record that is no abort. -/
theorem abort_keeps {J : FtpTrace → Prop} {op : Op}
    (hasks : ∀ t, J t → SilentAfterAbort control (.asking op) t)
    (hkeeps : ∀ t r, J t → MidChunk mode t ⟨op, r⟩ → J (t ++ [⟨op, r⟩])) :
    Keeps (transfers control (MidChunk mode)) (SilentAfterAbort control) J op where
  asks := hasks
  keeps := by
    rintro t r _ hJ ⟨⟨-, hmay⟩, rfl⟩
    rw [record]
    split
    · exact hkeeps t r hJ hmay
    · exact hJ

/-- `J` says that nothing was aborted, and keeps the callback from doing so. -/
theorem abort_dataKeeps {J : FtpTrace → Prop} (hsilent : ∀ t, J t → t.any aborts = false)
    (hrecv : ∀ t len r, J t → J (t ++ [⟨.recv fd len, r⟩]))
    (hsend : ∀ t data r, J t → J (t ++ [⟨.send fd data, r⟩]))
    (hselect : ∀ t dir timeout r, J t → J (t ++ [⟨.select fd dir timeout, r⟩]))
    (hidlecb : ∀ t cb xfered arg rv, J t → MidChunk mode t ⟨.idlecb cb xfered arg, rv⟩ →
      J (t ++ [⟨.idlecb cb xfered arg, rv⟩])) :
    DataKeeps (transfers control (MidChunk mode)) (SilentAfterAbort control) J (fun _ => True) fd where
  recv len := abort_keeps (fun t hJ _ => hsilent t hJ) fun t r hJ _ => hrecv t len r hJ
  send data := abort_keeps (fun t hJ _ => hsilent t hJ) fun t r hJ _ => hsend t data r hJ
  select dir timeout := abort_keeps (fun _ _ => trivial) fun t r hJ _ => hselect t dir timeout r hJ
  text _ _ _ _ _ _ _ := trivial
  idlecb cb xfered arg := abort_keeps (fun _ _ => trivial) fun t rv hJ h =>
    hidlecb t cb xfered arg rv hJ h
  fault _ _ := trivial

/-- Nothing was aborted, and nothing is to be sent. -/
def Idle (t : FtpTrace) : Prop := t.any aborts = false ∧ pending t = 0

theorem idle_dataKeeps :
    DataKeeps (transfers control (MidChunk mode)) (SilentAfterAbort control) Idle (fun _ => True)
      fd := by
  refine abort_dataKeeps (fun _ h => h.1) ?_ ?_ ?_ ?_
  · intro t len r h
    simpa [Idle, aborts, pendingStep] using h
  · intro t data r h
    cases r <;> simp_all [Idle, aborts, pendingStep]
  · intro t dir timeout r h
    simpa [Idle, aborts, pendingStep] using h
  · intro t cb xfered arg rv h hmay
    have hrv : rv ≠ 0 := by
      intro hrv
      have := (hmay (by simpa [aborts] using hrv)).2
      rw [h.2] at this
      exact absurd this (by simp)
    simpa [Idle, aborts, pendingStep, hrv] using h

/-- Outside ASCII mode the callback does not abort. -/
theorem image_dataKeeps (hmode : mode ≠ .ascii) :
    DataKeeps (transfers control (MidChunk mode)) (SilentAfterAbort control)
      (fun t => t.any aborts = false) (fun _ => True) fd := by
  refine abort_dataKeeps (fun _ h => h) ?_ ?_ ?_ ?_
  · intro t len r h
    simpa [aborts] using h
  · intro t data r h
    simpa [aborts] using h
  · intro t dir timeout r h
    simpa [aborts] using h
  · intro t cb xfered arg rv h hmay
    have hrv : rv ≠ 0 := fun hrv => hmode (hmay (by simpa [aborts] using hrv)).1
    simpa [aborts, hrv] using h

/-! ## Uploads in ASCII mode -/

section

variable (control) in
/-- Between calls of the upload: nothing was aborted, and `rest` is still to be sent. -/
def Sending (nControl : NetBuf) (rest : Bytes) (nc : NetBuf) (t : FtpTrace) : Prop :=
  nControl.Same nc ∧ t.any aborts = false ∧ pending t = rest.length

/-- A result of `writeLine` before its end: it is short, or nothing was aborted and no more than a
buffer is left. -/
def Broken (nControl : NetBuf) (total : Nat) (v : Int) (nc : NetBuf) (t : FtpTrace) : Prop :=
  nControl.Same nc ∧ (v < total ∨ t.any aborts = false ∧ pending t ≤ BUFFER_SIZE)

theorem socketWait_abort {ctl : NetBuf} (nControl : NetBuf) (ht : t.any aborts = false) :
    wp (transfers control (MidChunk .ascii)) (SilentAfterAbort control) (socketWait ctl nControl)
      (fun r t' => nControl.Same r.2 ∧ pending t' = pending t ∧
        (t'.any aborts = false ∨ r.1 = 0 ∧ BUFFER_SIZE < pending t)) t := by
  rw [socketWait]
  split
  · exact wp_ret.mpr ⟨.refl _, rfl, .inl ht⟩
  · exact wp_ret.mpr ⟨.refl _, rfl, .inl ht⟩
  refine wp_forever (fun _ t' => t'.any aborts = false ∧ pending t' = pending t) ⟨ht, rfl⟩ ?_
  rintro _ t' ⟨ht', hpending⟩
  refine wp_call.mpr ⟨trivial, ?_⟩
  rintro r _ ⟨-, rfl⟩
  cases r with
  | error text => exact wp_ret.mpr ⟨(NetBuf.Same.refl _).respond _, hpending, .inl ht'⟩
  | ready => exact wp_ret.mpr ⟨.refl _, hpending, .inl ht'⟩
  | timeout =>
    refine wp_record rfl trivial fun rv hmay => wp_ret.mpr ?_
    split
    · next hrv => exact ⟨by simpa [aborts, ht'] using hrv, by simpa [pendingStep] using hpending⟩
    · next hrv =>
      have hmid := (hmay (by simpa [aborts] using hrv)).2
      exact ⟨.refl _, by simpa [pendingStep] using hpending, .inr ⟨rfl, hpending ▸ hmid⟩⟩

/-- A send of `piece` in front of `rest`. -/
theorem writeFlush_abort {nData nControl nc : NetBuf} {nbp : Buffer BUFFER_SIZE} {nb total : Nat}
    {rest : Bytes} {x : Int} (hfd : nData.handle ≠ control) (hlen : (nbp.bytes.take nb).length = nb)
    (hx : BUFFER_SIZE < nb + rest.length → x < total)
    (hJ : Sending nControl (nbp.bytes.take nb ++ rest) nc t) :
    wp (transfers control (MidChunk .ascii)) (SilentAfterAbort control)
      (writeFlush nData nc nbp nb x)
      (fun r t => match r.1 with
        | none => Sending nControl rest r.2 t
        | some v => Broken nControl total v r.2 t) t := by
  obtain ⟨hsame, ht, hpending⟩ := hJ
  rw [List.length_append, hlen] at hpending
  have hsend : (Op.send nData.handle (nbp.bytes.take nb)).isTransfer control = true := by
    simpa [Op.isTransfer] using hfd
  rw [writeFlush]
  refine (socketWait_abort nc ht).bind ?_
  rintro ⟨ready, nc'⟩ t' ⟨hsame', hpending', haborted⟩
  replace hsame := hsame.trans hsame'
  rw [hpending] at hpending' haborted
  dsimp only
  -- No go from the callback: the part sent so far is lost, and `x` is what `writeLine` returns.
  split
  · refine wp_ret.mpr ⟨hsame, ?_⟩
    -- The callback aborts only while more than a buffer is pending, and then the line ends short (`hx`).
    rcases haborted with ht' | ⟨-, hmid⟩
    · by_cases hmid : BUFFER_SIZE < nb + rest.length
      · exact .inl (hx hmid)
      · exact .inr ⟨ht', by omega⟩
    · exact .inl (hx hmid)
  · next hready =>
    have ht' : t'.any aborts = false := haborted.resolve_right fun h => hready h.1
    refine wp_record hsend (fun _ => ht') fun r _ => ?_
    -- A failed or a short send ends the line too: `writeLine` returns less than it was given.
    cases r with
    | none =>
      refine wp_ret.mpr ⟨hsame, .inl ?_⟩
      omega
    | some w =>
      refine wp_ret.mpr ?_
      by_cases hw : w.1 = nb
      · simp only [hw, ne_eq, not_true_eq_false, if_false]
        refine ⟨hsame, by simp [ht', aborts], ?_⟩
        rw [pending_snoc]
        simp only [pendingStep, hpending', hw]
        omega
      · simp only [hw, ne_eq, not_false_eq_true, if_true]
        exact ⟨hsame, .inl (by omega)⟩

theorem writeLine_abort {nData nControl : NetBuf} {nbp : Buffer BUFFER_SIZE} {buf : Bytes}
    (hdir : nData.dir = .write) (hnbp : nData.buf = some nbp) (hfd : nData.handle ≠ control)
    (ht : t.any aborts = false) (hpending : pending t = (crlfFrom 0 buf).length) :
    wp (transfers control (MidChunk .ascii)) (SilentAfterAbort control)
      (writeLine buf nData nControl)
      (fun r t => (∃ nbp', r.2.1 = { nData with buf := some nbp' }) ∧
        Broken nControl buf.length r.1 r.2.2 t) t := by
  have hrule : wp (transfers control (MidChunk .ascii)) (SilentAfterAbort control)
      (writeLine buf nData nControl) _ t :=
    writeLine_rule (J := Sending nControl) (K := Broken nControl buf.length) hdir hnbp ?_ ?_
      ⟨.refl _, ht, hpending⟩
  · refine hrule.mono ?_
    rintro ⟨v, d, nc⟩ t ⟨hd, ⟨-, hsame, ht, hpending⟩ | hbroken⟩
    · exact ⟨hd, hsame, .inr ⟨ht, by simp [hpending]⟩⟩
    · exact ⟨hd, hbroken⟩
  -- In the loop the buffer is full, at the end it holds what is left: both are flushes of `writeFlush`.
  · intro nbp rest nc x t hrest hx hJ
    have htake := nbp.take_all
    rw [← htake] at hJ
    exact writeFlush_abort hfd (by rw [htake]; exact nbp.size_eq) (fun _ => by exact_mod_cast hx) hJ
  · intro s nc t _ hnb hJ
    have hlen := s.nbp.take_length hnb
    rw [WriteState.out, ← List.append_nil (s.nbp.bytes.take s.nb)] at hJ
    refine writeFlush_abort hfd hlen (fun h => ?_) hJ
    rw [List.length_nil] at h
    omega

/-- The callback that counts bytes does not abort a transfer with no more than a buffer to send. -/
theorem count_keeps (cb : Callback) (xfered : UInt32) (arg : Nat) :
    Keeps (transfers control (MidChunk .ascii)) (SilentAfterAbort control)
      (fun t => t.any aborts = false ∧ pending t ≤ BUFFER_SIZE) (.idlecb cb xfered arg) := by
  refine abort_keeps (fun _ _ => trivial) ?_
  rintro t rv ⟨ht, hpending⟩ hmay
  have hrv : rv ≠ 0 := by
    intro hrv
    have := (hmay (by simpa [aborts] using hrv)).2
    omega
  simpa [aborts, pendingStep, ht, hrv] using hpending

theorem any_keeps (cb : Callback) (xfered : UInt32) (arg : Nat) :
    Keeps (transfers control (MidChunk .ascii)) (SilentAfterAbort control) (fun _ => True)
      (.idlecb cb xfered arg) :=
  ⟨fun _ _ => trivial, fun _ _ _ _ _ => trivial⟩

/-- A write of a chunk is short, or nothing was aborted. -/
theorem writeFtpClient_abort {nData : NetBuf} (nControl : NetBuf) {buf : Bytes} (hpos : 0 < buf.length)
    (hdir : nData.dir = .write) (hbuf : nData.buf.isSome = true) (hfd : nData.handle ≠ control)
    (ht : t.any aborts = false) (hpending : pending t = (crlfFrom 0 buf).length) :
    wp (transfers control (MidChunk .ascii)) (SilentAfterAbort control)
      (writeFtpClient buf nData nControl)
      (fun r t => nData.Counted r.2.1 ∧ r.2.1.buf.isSome = true ∧ nControl.Same r.2.2 ∧
        (r.1 < buf.length ∨ t.any aborts = false)) t := by
  obtain ⟨nbp, hnbp⟩ := Option.isSome_iff_exists.mp hbuf
  rw [writeFtpClient, if_neg (not_not.mpr hdir), if_pos hbuf]
  refine (writeLine_abort hdir hnbp hfd ht hpending).bind ?_
  rintro ⟨v, d, nc⟩ t ⟨⟨nbp', hd⟩, hsame, hv⟩
  obtain rfl : d = { nData with buf := some nbp' } := hd
  have hcounted : ∀ d' : NetBuf, NetBuf.Tallied { nData with buf := some nbp' } d' →
      nData.Counted d' ∧ d'.buf.isSome = true := by
    rintro _ ⟨_, _, rfl⟩
    exact ⟨⟨_, _, _, _, _, _, _, rfl⟩, rfl⟩
  rcases hv with hshort | hquiet
  · refine (writeCount_frame v nc any_keeps trivial).mono ?_
    rintro ⟨c, d', nc'⟩ t ⟨-, htallied, rfl, hc⟩
    refine ⟨(hcounted d' htallied).1, (hcounted d' htallied).2, hsame, .inl ?_⟩
    rw [hc]
    dsimp only at hshort
    split <;> omega
  · refine (writeCount_frame v nc count_keeps hquiet).mono ?_
    rintro ⟨c, d', nc'⟩ t ⟨⟨ht, -⟩, htallied, rfl, -⟩
    exact ⟨(hcounted d' htallied).1, (hcounted d' htallied).2, hsame, .inr ht⟩

theorem xferUpload_abort {nData nControl : NetBuf} (file : File) (hdir : nData.dir = .write)
    (hbuf : nData.buf.isSome = true) (hfd : nData.handle ≠ control) (ht : t.any aborts = false) :
    wp (transfers control (MidChunk .ascii)) (SilentAfterAbort control)
      (xferUpload file nData nControl)
      (fun r t => nControl.Same r.2.2 ∧ (t.any aborts → r.1 = 0)) t := by
  refine wp_forever (fun s t => nData.Counted s.1 ∧ s.1.buf.isSome = true ∧ nControl.Same s.2 ∧
    t.any aborts = false) ⟨.refl _, hbuf, .refl _, ht⟩ ?_
  rintro ⟨d, nc⟩ t ⟨hcounted, hbuf, hsame, ht⟩
  dsimp only at hcounted hbuf hsame ⊢
  refine wp_record rfl trivial fun chunk _ => ?_
  have ht' : (t ++ [(⟨.fread file BUFFER_SIZE, chunk⟩ : FtpEvent)]).any aborts = false := by
    simpa [aborts] using ht
  dsimp only [Prog.bind]
  split
  · next hpos =>
    have hwrite := writeFtpClient_abort nc hpos (hcounted.dir_eq.trans hdir) hbuf
      (by rw [hcounted.handle_eq]; exact hfd) ht' (by simp [pendingStep])
    refine hwrite.bind ?_
    rintro ⟨c, d', nc'⟩ t ⟨hcounted', hbuf', hsame', hc⟩
    refine wp_ret.mpr ?_
    dsimp only at hc ⊢
    split
    · exact ⟨hsame.trans hsame', fun _ => rfl⟩
    · next hlong =>
      exact ⟨hcounted.trans hcounted', hbuf', hsame.trans hsame', hc.resolve_left hlong⟩
  · exact wp_ret.mpr ⟨hsame, fun h => by simp [ht'] at h⟩

/-! ## `xfer` -/

theorem xferData_abort {nControl nData nc : NetBuf} (file : File) (typ : Typ) (mode : Mode)
    (hopened : Opened (· ≠ control) nControl mode typ.dataDir nData) :
    wp (transfers control (MidChunk mode)) (SilentAfterAbort control)
      (xferData file typ nData nc)
      (fun r t => nc.Same r.2.2 ∧ (t.any aborts → r.1 = 0)) [] := by
  obtain ⟨fd, buf, rfl, hmode, hfd⟩ := hopened
  have hfile : ∀ data, Keeps (transfers control (MidChunk mode)) (SilentAfterAbort control) Idle
      (.fwrite file data) := fun data => by
    refine abort_keeps (fun _ _ => trivial) fun t r h _ => ?_
    simpa [Idle, aborts, pendingStep] using h
  apply xferData_record trivial ⟨.refl _, fun _ => rfl⟩
  · intro htyp
    have hdir : typ.dataDir = .write := if_pos htyp
    rw [hdir]
    -- Only an upload in ASCII mode can be aborted here (`MidChunk`).
    by_cases hascii : mode = .ascii
    · subst hascii
      exact xferUpload_abort file rfl (hmode.mpr rfl) hfd rfl
    · have hfread : ∀ size, Keeps (transfers control (MidChunk mode)) (SilentAfterAbort control)
          (fun t => t.any aborts = false) (.fread file size) := fun size => by
        refine abort_keeps (fun _ _ => trivial) fun t r h _ => ?_
        simpa [aborts] using h
      refine (xferUpload_frame file nc (image_dataKeeps hascii) hfread rfl).mono ?_
      rintro r t ⟨ht, -, hnoted⟩
      exact ⟨hnoted.same, fun h => by simp [ht] at h⟩
  -- A download sends nothing, so it is never in the middle of a chunk.
  · intro _ dbuf
    refine (xferDownload_frame file dbuf nc idle_dataKeeps hfile ⟨rfl, rfl⟩).mono ?_
    rintro r t ⟨ht, -, hnoted⟩
    exact ⟨hnoted.same, fun h => by simp [ht.1] at h⟩

end

/-! ## An abort in the middle of a chunk -/

/-- A connection whose user may abort a transfer that makes no progress for a second. -/
def abortable : NetBuf := { exampleControl with idlecb := some ⟨0⟩, idletime := ⟨1, 0⟩ }

theorem socketWait_gaveUp {nData : NetBuf} (nControl : NetBuf) {cb : Callback} (hdir : nData.dir = .write)
    (hcb : nData.idlecb = some cb) (hmid : BUFFER_SIZE < pending t) :
    Exec (transfers control (MidChunk .ascii)) (socketWait nData nControl) t (.returned (0, nControl))
      (t ++ [⟨.idlecb cb nData.xfered nData.idlearg, (0 : Int)⟩]) := by
  rw [socketWait, hdir, hcb]
  -- `select` times out, and the callback gives the transfer up.
  have hselect : transfers control (MidChunk .ascii) t (.select nData.handle .write nData.idletime) .timeout t :=
    ⟨⟨by simp [broughtFd], fun h => by cases h⟩, rfl⟩
  have hcall : transfers control (MidChunk .ascii) t (.idlecb cb nData.xfered nData.idlearg) (0 : Int) _ :=
    ⟨⟨by simp [broughtFd], fun _ => ⟨rfl, hmid⟩⟩, (record_of rfl).symm⟩
  exact Exec.loop_done (Exec.call hselect (Exec.call hcall .ret)) .ret

/-- A chunk that `writeLine` cannot send in one piece, as it begins with a line end. -/
def longChunk : FileChunk BUFFER_SIZE where
  data := ⟨LF :: List.replicate 4095 97, Nat.le_of_eq (congrArg (· + 1) List.length_replicate)⟩
  failed := false

theorem longChunk_length : longChunk.data.1.length = BUFFER_SIZE := by decide +kernel

theorem longChunk_pending : (crlfFrom 0 longChunk.data.1).length = BUFFER_SIZE + 1 := by decide +kernel

/-- The buffer is full before the last byte, and the user gives up there. -/
theorem writeLine_gaveUp (control : Nat) {nData : NetBuf} (nControl : NetBuf) {cb : Callback}
    (hdir : nData.dir = .write) (hbuf : nData.buf.isSome = true) (hcb : nData.idlecb = some cb)
    (hmid : BUFFER_SIZE < pending t) :
    ∃ nbp', Exec (transfers control (MidChunk .ascii)) (writeLine longChunk.data.1 nData nControl) t
      (.returned (4095, { nData with buf := some nbp' }, nControl))
      (t ++ [⟨.idlecb cb nData.xfered nData.idlearg, (0 : Int)⟩]) := by
  obtain ⟨nbp, hnbp⟩ := Option.isSome_iff_exists.mp hbuf
  have hsplit : longChunk.data.1 = (LF :: List.replicate 4094 97) ++ [97] :=
    congrArg (LF :: ·) List.replicate_succ'
  have hfull : (crlfFrom 0 (LF :: List.replicate 4094 97)).length = BUFFER_SIZE := by decide +kernel
  have hlen : (LF :: List.replicate 4094 (97 : UInt8)).length = 4095 := by decide +kernel
  obtain ⟨s, hrun, hnb, -⟩ := writeLineLoop_fits nData nControl (LF :: List.replicate 4094 97) [97] 0
    ⟨nbp, 0, 0⟩ (by rw [hfull, Nat.zero_add])
  rw [hfull, Nat.zero_add] at hnb
  have hflush : Exec (transfers control (MidChunk .ascii))
      (writeFlush nData nControl s.nbp BUFFER_SIZE 4095) t
      (.returned (some 4095, nControl)) (t ++ [⟨.idlecb cb nData.xfered nData.idlearg, (0 : Int)⟩]) := by
    rw [writeFlush]
    refine (socketWait_gaveUp nControl hdir hcb hmid).bind ?_
    dsimp only
    rw [if_pos rfl]
    exact .ret
  refine ⟨s.nbp, ?_⟩
  rw [writeLine, if_neg (not_not.mpr hdir), hnbp, Prog.ofOption_some, Prog.ret_bind, hsplit, hrun, hlen,
    writeLineLoop, writeCR, if_neg (fun h => absurd h.1 (by decide)), Prog.pure_eq, Prog.ret_bind]
  dsimp only
  rw [writeIfFull, if_pos hnb, Nat.zero_add]
  exact Exec.bind (Exec.bind (Exec.bind hflush .ret) .ret) .ret

theorem xferUpload_gaveUp (nData : NetBuf) (file : File) (nControl : NetBuf) {cb : Callback}
    (hdir : nData.dir = .write) (hbuf : nData.buf.isSome = true) (hcb : nData.idlecb = some cb)
    (hcount : nData.cbbytes = 0) :
    ∃ nData', Exec (transfers control (MidChunk .ascii)) (xferUpload file nData nControl) []
      (.returned (0, nData', nControl))
      [⟨.fread file BUFFER_SIZE, longChunk⟩, ⟨.idlecb cb nData.xfered nData.idlearg, (0 : Int)⟩] := by
  have hmid : BUFFER_SIZE < pending [⟨.fread file BUFFER_SIZE, longChunk⟩] := by
    have hpending : pending [⟨.fread file BUFFER_SIZE, longChunk⟩] = BUFFER_SIZE + 1 := longChunk_pending
    omega
  obtain ⟨nbp', hline⟩ := writeLine_gaveUp control nControl hdir hbuf hcb hmid
  have hwrite : ∃ nData', Exec (transfers control (MidChunk .ascii)) (writeFtpClient longChunk.data.1 nData nControl)
      [⟨.fread file BUFFER_SIZE, longChunk⟩] (.returned (4095, nData', nControl))
      [⟨.fread file BUFFER_SIZE, longChunk⟩, ⟨.idlecb cb nData.xfered nData.idlearg, (0 : Int)⟩] := by
    rw [writeFtpClient, if_neg (not_not.mpr hdir), if_pos hbuf]
    refine ⟨{ nData with buf := some nbp', xfered := nData.xfered + 4095 }, hline.bind ?_⟩
    dsimp only
    rw [writeCount, if_neg (by decide), NetBuf.account]
    dsimp only
    rw [hcb]
    dsimp only
    rw [if_pos hcount]
    exact .ret
  obtain ⟨nData', hwrite⟩ := hwrite
  refine ⟨nData', Exec.loop_done (b := (0, nData', nControl))
    (Exec.call (r := longChunk) ⟨⟨by simp [broughtFd], fun h => ?_⟩, rfl⟩ ?_) .ret⟩
  · cases h
  · dsimp only [Prog.bind]
    rw [if_pos (by rw [longChunk_length]; decide), record_of rfl, List.nil_append]
    refine hwrite.bind ?_
    dsimp only
    rw [longChunk_length, if_pos (by decide)]
    exact .ret

/-- The upload of such a file, aborted in the middle of its first chunk. -/
theorem abortable_run : ∃ nControl' t, Exec (transfers 3 (MidChunk .ascii))
    (xfer none (some (ascii "g")) abortable .fileWrite .ascii) [] (.returned (0, nControl')) t ∧
    t.any aborts = true := by
  have hmay : ∀ t (e : FtpEvent), e.1.isTransfer 3 = false → MidChunk .ascii t e := by
    rintro t ⟨op, r⟩ hop h
    cases op <;> first | cases h | cases hop
  obtain ⟨nc, nData, haccess, hcloses, ⟨fd, buf, rfl, hmode, -⟩, hfirst⟩ :=
    example_access hmay (rfl : abortable.dir = .control) rfl .fileWrite .ascii (ascii "STOR g")
      (by decide +kernel) (by decide +kernel)
  obtain ⟨nData', hupload⟩ := xferUpload_gaveUp (newData abortable fd buf .write) .stdin nc rfl
    (hmode.mpr rfl) rfl rfl
  have hdata : Exec (transfers 3 (MidChunk .ascii))
      (xferData .stdin .fileWrite (newData abortable fd buf .write) nc) [] (.returned (0, nData', nc)) _ :=
    Exec.call (r := some (.zeroed _)) ⟨⟨by simp [broughtFd], fun h => by cases h⟩, rfl⟩ hupload
  obtain ⟨closed, nc', hend⟩ := example_close hmay hcloses hfirst none .stdin .fileWrite 0 nData'
  have hxfer : Exec (transfers 3 (MidChunk .ascii)) (xferEnd none (some (ascii "g")) abortable .fileWrite .ascii) []
      (.returned ⟨0, some closed, nc'⟩) _ := haccess.bind (hdata.bind hend)
  exact ⟨nc', _, hxfer.bind .ret, rfl⟩

/-- The callback gives up on a download in image mode before a byte has arrived. -/
def abortedDownload : FtpTrace :=
  exampleOpening .image (ascii "RETR g") ++
    [⟨.malloc BUFFER_SIZE, some (.zeroed _)⟩,
      ⟨.select 4 .read ⟨1, 0⟩, .timeout⟩,
      ⟨.idlecb ⟨0⟩ 0 0, (0 : Int)⟩,
      ⟨.fflush .stdout, .done⟩] ++
    exampleClosing

end Ftp
