import BaseUtilities.Ftp.Commands
import BaseUtilities.Ftp.Lines

/-!
# What the control connection's functions leave alone

Reading lines and replies changes the receive buffer and the text in `response`, and calls `recv` and
`send` on the control connection only.  A predicate that these calls keep is kept by `readResponse`
and by `sendCommand`.
-/

open Effects Mem

namespace Ftp

/-- Two states of a control connection that differ in the receive buffer and in `response`. -/
def NetBuf.Same (nControl nControl' : NetBuf) : Prop :=
  ∃ cput cget cavail cleft buf response, nControl' =
    { nControl with
      cput := cput, cget := cget, cavail := cavail, cleft := cleft, buf := buf
      response := response }

namespace NetBuf.Same

variable {c c₁ c₂ c₃ : NetBuf}

theorem refl (c : NetBuf) : c.Same c := ⟨_, _, _, _, _, _, rfl⟩

theorem trans (h : c₁.Same c₂) (h' : c₂.Same c₃) : c₁.Same c₃ := by
  obtain ⟨_, _, _, _, _, _, rfl⟩ := h
  obtain ⟨_, _, _, _, _, _, rfl⟩ := h'
  exact ⟨_, _, _, _, _, _, rfl⟩

theorem respond (h : c₁.Same c₂) (response : Buffer RESPONSE_BUFFER_SIZE) :
    c₁.Same { c₂ with response } := by
  obtain ⟨_, _, _, _, _, _, rfl⟩ := h
  exact ⟨_, _, _, _, _, _, rfl⟩

theorem of_moved (h : c₁.Moved c₂) : c₁.Same c₂ := by
  obtain ⟨_, _, _, _, _, rfl⟩ := h
  exact ⟨_, _, _, _, _, _, rfl⟩

theorem handle_eq (h : c₁.Same c₂) : c₂.handle = c₁.handle := by
  obtain ⟨_, _, _, _, _, _, rfl⟩ := h
  rfl

theorem dir_eq (h : c₁.Same c₂) : c₂.dir = c₁.dir := by
  obtain ⟨_, _, _, _, _, _, rfl⟩ := h
  rfl

theorem cmode_eq (h : c₁.Same c₂) : c₂.cmode = c₁.cmode := by
  obtain ⟨_, _, _, _, _, _, rfl⟩ := h
  rfl

theorem idlecb_eq (h : c₁.Same c₂) : c₂.idlecb = c₁.idlecb := by
  obtain ⟨_, _, _, _, _, _, rfl⟩ := h
  rfl

end NetBuf.Same

variable {W : Type} {E : Env Op Op.Res W} {ok : Stop Op → W → Prop} {J : W → Prop} {w : W} {n : Nat}

/-! ## Lines -/

theorem LineState.copy_frame {s s' : LineState n} {found : Bool} (h : s.copy = some (s', found)) :
    s.ctl.Moved s'.ctl ∧ s'.nControl = s.nControl := by
  rw [LineState.copy] at h
  split at h
  · cases h
    exact ⟨.refl _, rfl⟩
  · split at h
    · cases h
    · simp only [Option.bind_eq_bind, Option.bind_eq_some_iff, Option.some.injEq,
        Prod.mk.injEq] at h
      obtain ⟨_, _, _, _, _, _, _, _, rfl, _⟩ := h
      exact ⟨⟨_, _, _, _, _, rfl⟩, rfl⟩

theorem LineState.chop_frame {s s' : LineState n} (h : s.chop = some s') :
    s'.ctl = s.ctl ∧ s'.nControl = s.nControl := by
  rw [LineState.chop] at h
  split at h
  · cases h
  · simp only [Option.bind_eq_bind, Option.bind_eq_some_iff] at h
    obtain ⟨_, _, h⟩ := h
    split at h
    · simp only [Option.bind_eq_some_iff, Option.some.injEq] at h
      obtain ⟨_, _, rfl⟩ := h
      exact ⟨rfl, rfl⟩
    · cases h
      exact ⟨rfl, rfl⟩

theorem NetBuf.receive_moved {ctl ctl' : NetBuf} {bytes : Bytes}
    (h : ctl.receive bytes = some ctl') : ctl.Moved ctl' := by
  simp only [NetBuf.receive, Option.bind_eq_bind, Option.bind_eq_some_iff, Option.some.injEq] at h
  obtain ⟨_, _, _, _, rfl⟩ := h
  exact ⟨_, _, _, _, _, rfl⟩

/-- `J` is kept by the calls that the client makes on the data connection with the descriptor `fd`;
`T` holds of the texts that a failed `select` leaves in `response`. -/
structure DataKeeps (E : Env Op Op.Res W) (ok : Stop Op → W → Prop) (J : W → Prop)
    (T : Bytes → Prop) (fd : Nat) : Prop where
  recv : ∀ len, Keeps E ok J (.recv fd len)
  send : ∀ data, Keeps E ok J (.send fd data)
  select : ∀ dir timeout, Keeps E ok J (.select fd dir timeout)
  text : ∀ w dir timeout t w', J w → E w (.select fd dir timeout) (.error t) w' → T t
  idlecb : ∀ cb xfered arg, Keeps E ok J (.idlecb cb xfered arg)
  fault : ∀ w, J w → ok .fault w

/-- A connection that is as it was, or has the text of an error in `response`. -/
def NetBuf.Noted (T : Bytes → Prop) (nControl nControl' : NetBuf) : Prop :=
  nControl' = nControl ∨
    ∃ text, T text ∧ nControl' = { nControl with response := nControl.response.strncpy text }

namespace NetBuf.Noted

variable {T : Bytes → Prop} {c c₁ c₂ c₃ : NetBuf}

theorem refl (c : NetBuf) : c.Noted T c := .inl rfl

theorem trans (h : c₁.Noted T c₂) (h' : c₂.Noted T c₃) : c₁.Noted T c₃ := by
  rcases h' with rfl | ⟨text, ht, rfl⟩
  · exact h
  · rcases h with rfl | ⟨_, _, rfl⟩
    · exact .inr ⟨text, ht, rfl⟩
    · exact .inr ⟨text, ht, rfl⟩

theorem same (h : c₁.Noted T c₂) : c₁.Same c₂ := by
  rcases h with rfl | ⟨_, _, rfl⟩
  · exact .refl _
  · exact (NetBuf.Same.refl _).respond _

end NetBuf.Noted

variable {T : Bytes → Prop}

theorem socketWait_frame {ctl : NetBuf} (nControl : NetBuf)
    (hdata : ctl.dir ≠ .control → DataKeeps E ok J T ctl.handle) (hJ : J w) :
    wp E ok (socketWait ctl nControl)
      (fun r w => J w ∧ nControl.Noted T r.2 ∧ (ctl.idlecb = none → r = (1, nControl))) w := by
  rw [socketWait]
  split
  · exact wp_ret.mpr ⟨hJ, .refl _, fun _ => rfl⟩
  · exact wp_ret.mpr ⟨hJ, .refl _, fun _ => rfl⟩
  · next _ _ idlecb hcb hdir =>
    have hdata := hdata hdir
    have hnone : ∀ r : Int × NetBuf, ctl.idlecb = none → r = (1, nControl) := by simp [hcb]
    refine wp_forever (fun _ => J) hJ fun _ w hJ => ?_
    refine (hdata.select _ _).bind hJ fun r w hJ' hr => ?_
    cases r with
    | error text =>
      exact wp_ret.mpr ⟨hJ', .inr ⟨text, hdata.text _ _ _ _ _ hJ hr, rfl⟩, hnone _⟩
    | ready => exact wp_ret.mpr ⟨hJ', .refl _, fun _ => rfl⟩
    | timeout =>
      refine (hdata.idlecb _ _ _).bind hJ' fun rv w hJ _ => wp_ret.mpr ?_
      split
      · exact hJ
      · exact ⟨hJ, .refl _, hnone _⟩

theorem readLine_frame {ctl : NetBuf} (buffer : Buffer n) (nControl : NetBuf)
    (hrecv : ∀ len, Keeps E ok J (.recv ctl.handle len)) (hfault : ∀ w, J w → ok .fault w)
    (hdata : ctl.dir ≠ .control → DataKeeps E ok J T ctl.handle) (hJ : J w) :
    wp E ok (readLine buffer ctl nControl)
      (fun r w => J w ∧ ctl.Moved r.ctl ∧ nControl.Noted T r.nControl ∧
        (ctl.idlecb = none → r.nControl = nControl)) w := by
  rw [readLine]
  split
  · exact wp_ret.mpr ⟨hJ, .refl _, .refl _, fun _ => rfl⟩
  split
  · exact wp_ret.mpr ⟨hJ, .refl _, .refl _, fun _ => rfl⟩
  -- What the loop keeps: the connection moves in its buffer only, and `nControl` is at most noted in.
  refine wp_forever (fun s w => J w ∧ ctl.Moved s.ctl ∧ nControl.Noted T s.nControl ∧
    (ctl.idlecb = none → s.nControl = nControl)) ⟨hJ, .refl _, .refl _, fun _ => rfl⟩ ?_
  rintro s w ⟨hJ, hmoved, hnoted, hnone⟩
  rw [readLineBody]
  refine wp_bind.mpr (wp_ofOption.mpr ⟨fun _ => hfault w hJ, ?_⟩)
  rintro ⟨s', found⟩ hcopy
  obtain ⟨hctl, hnc⟩ := LineState.copy_frame hcopy
  replace hmoved := hmoved.trans hctl
  rw [← hnc] at hnoted hnone
  dsimp only
  -- A line end was found.
  split
  · refine wp_bind.mpr (wp_ofOption.mpr ⟨fun _ => hfault w hJ, fun s'' hchop => ?_⟩)
    obtain ⟨hctl', hnc'⟩ := LineState.chop_frame hchop
    rw [← hctl'] at hmoved
    rw [← hnc'] at hnoted hnone
    exact wp_ret.mpr ⟨hJ, hmoved, hnoted, hnone⟩
  -- The array is full.
  split
  · refine wp_bind.mpr (wp_ofOption.mpr ⟨fun _ => hfault w hJ, fun b _ => ?_⟩)
    exact wp_ret.mpr ⟨hJ, hmoved, hnoted, hnone⟩
  replace hmoved := hmoved.trans s'.ctl.rewind_moved
  -- The end of the file.
  split
  · exact wp_ret.mpr ⟨hJ, hmoved, hnoted, hnone⟩
  rw [hmoved.socketWait_eq]
  refine (socketWait_frame s'.nControl hdata hJ).bind ?_
  rintro ⟨ready, nc⟩ w ⟨hJ, hnoted', hnone'⟩
  replace hnoted := hnoted.trans hnoted'
  replace hnone : ctl.idlecb = none → nc = nControl := fun h => by
    rw [(Prod.mk.inj (hnone' h)).2, hnone h]
  dsimp only
  -- The callback gives up.
  split
  · exact wp_ret.mpr ⟨hJ, hmoved, hnoted, hnone⟩
  rw [hmoved.handle_eq]
  refine (hrecv _).bind hJ fun x w hJ _ => ?_
  cases x with
  | none => exact wp_ret.mpr ⟨hJ, hmoved, hnoted, hnone⟩
  | some x =>
    refine wp_bind.mpr (wp_ofOption.mpr ⟨fun _ => hfault w hJ, fun ctl' hreceive => ?_⟩)
    exact wp_ret.mpr ⟨hJ, hmoved.trans (NetBuf.receive_moved hreceive), hnoted, hnone⟩

/-! ## Replies -/

theorem readResponseLine_frame {nControl : NetBuf} (hdir : nControl.dir = .control)
    (hrecv : ∀ len, Keeps E ok J (.recv nControl.handle len)) (hfault : ∀ w, J w → ok .fault w)
    (hJ : J w) :
    wp E ok (readResponseLine nControl) (fun r w => J w ∧ nControl.Same r.2) w := by
  have hline := readLine_frame (T := fun _ => True) nControl.response nControl hrecv hfault
    (fun h => absurd hdir h) hJ
  refine hline.bind ?_
  rintro r w ⟨hJ, hmoved, -, -⟩
  exact wp_ret.mpr ⟨hJ, (NetBuf.Same.of_moved hmoved).respond _⟩

/-- A predicate that receiving on the control connection keeps is kept by `readResponse`; an
expected reply leaves its first character in `response`. -/
theorem readResponse_frame {nControl : NetBuf} (c : UInt8) (hdir : nControl.dir = .control)
    (hrecv : ∀ len, Keeps E ok J (.recv nControl.handle len)) (hfault : ∀ w, J w → ok .fault w)
    (hJ : J w) :
    wp E ok (readResponse c nControl)
      (fun r w => J w ∧ nControl.Same r.2 ∧ (r.1 = 0 ∨ r.1 = 1 ∧ r.2.response.first = c)) w := by
  -- The answer is 1 only where the first character is the one expected.
  have hverdict : ∀ nc : NetBuf, (if nc.response.first = c then (1 : Int) else 0) = 0 ∨
      (if nc.response.first = c then (1 : Int) else 0) = 1 ∧ nc.response.first = c := by
    intro nc
    split
    · next h => exact .inr ⟨rfl, h⟩
    · exact .inl rfl
  rw [readResponse]
  refine (readResponseLine_frame hdir hrecv hfault hJ).bind ?_
  rintro ⟨rv, nc⟩ w ⟨hJ, hsame⟩
  dsimp only at hsame ⊢
  split
  · exact wp_ret.mpr ⟨hJ, hsame, .inl rfl⟩
  -- A reply of several lines: the loop reads lines until one closes it.
  split
  · refine wp_forever (fun nc w => J w ∧ nControl.Same nc) ⟨hJ, hsame⟩ ?_
    rintro nc w ⟨hJ, hsame⟩
    have hline : wp E ok (readResponseLine nc) (fun r w => J w ∧ nc.Same r.2) w :=
      readResponseLine_frame (hsame.dir_eq.trans hdir) (by rw [hsame.handle_eq]; exact hrecv) hfault hJ
    refine hline.bind ?_
    rintro ⟨rv, nc'⟩ w ⟨hJ, hsame'⟩
    dsimp only at hsame' ⊢
    split
    · exact wp_ret.mpr ⟨hJ, hsame.trans hsame', .inl rfl⟩
    split
    · exact wp_ret.mpr ⟨hJ, hsame.trans hsame', hverdict nc'⟩
    · exact wp_ret.mpr ⟨hJ, hsame.trans hsame'⟩
  · exact wp_ret.mpr ⟨hJ, hsame, hverdict nc⟩

theorem sendCommand_frame {nControl : NetBuf} (cmd : Bytes) (expresp : UInt8)
    (hrecv : ∀ len, Keeps E ok J (.recv nControl.handle len))
    (hsend : ∀ data, Keeps E ok J (.send nControl.handle data)) (hfault : ∀ w, J w → ok .fault w)
    (hJ : J w) :
    wp E ok (sendCommand cmd expresp nControl)
      (fun r w => J w ∧ nControl.Same r.2 ∧ (r.1 = 0 ∨ r.1 = 1 ∧ r.2.response.first = expresp)) w := by
  rw [sendCommand]
  split
  · exact wp_ret.mpr ⟨hJ, .refl _, .inl rfl⟩
  next hdir =>
  split
  · exact wp_ret.mpr ⟨hJ, .refl _, .inl rfl⟩
  refine (hsend _).bind hJ fun sent w hJ _ => ?_
  cases sent with
  | none => exact wp_ret.mpr ⟨hJ, .refl _, .inl rfl⟩
  | some sent =>
    dsimp only
    split
    · exact wp_ret.mpr ⟨hJ, .refl _, .inl rfl⟩
    · exact readResponse_frame expresp (not_not.mp hdir) hrecv hfault hJ

/-! ## Data connections -/

/-- Two states of a data connection that differ in its receive buffer and its byte counts. -/
def NetBuf.Counted (nData nData' : NetBuf) : Prop :=
  ∃ cput cget cavail cleft buf xfered xfered1, nData' =
    { nData with
      cput := cput, cget := cget, cavail := cavail, cleft := cleft, buf := buf, xfered := xfered
      xfered1 := xfered1 }

namespace NetBuf.Counted

variable {d d₁ d₂ d₃ : NetBuf}

theorem refl (d : NetBuf) : d.Counted d := ⟨_, _, _, _, _, _, _, rfl⟩

theorem trans (h : d₁.Counted d₂) (h' : d₂.Counted d₃) : d₁.Counted d₃ := by
  obtain ⟨_, _, _, _, _, _, _, rfl⟩ := h
  obtain ⟨_, _, _, _, _, _, _, rfl⟩ := h'
  exact ⟨_, _, _, _, _, _, _, rfl⟩

theorem of_moved (h : d₁.Moved d₂) : d₁.Counted d₂ := by
  obtain ⟨_, _, _, _, _, rfl⟩ := h
  exact ⟨_, _, _, _, _, _, _, rfl⟩

theorem handle_eq (h : d₁.Counted d₂) : d₂.handle = d₁.handle := by
  obtain ⟨_, _, _, _, _, _, _, rfl⟩ := h
  rfl

theorem dir_eq (h : d₁.Counted d₂) : d₂.dir = d₁.dir := by
  obtain ⟨_, _, _, _, _, _, _, rfl⟩ := h
  rfl

theorem idlecb_eq (h : d₁.Counted d₂) : d₂.idlecb = d₁.idlecb := by
  obtain ⟨_, _, _, _, _, _, _, rfl⟩ := h
  rfl

end NetBuf.Counted

/-- Two states of a data connection that differ in its byte counts. -/
def NetBuf.Tallied (nData nData' : NetBuf) : Prop :=
  ∃ xfered xfered1, nData' = { nData with xfered := xfered, xfered1 := xfered1 }

theorem NetBuf.Tallied.counted {d d' : NetBuf} (h : d.Tallied d') : d.Counted d' := by
  obtain ⟨_, _, rfl⟩ := h
  exact ⟨_, _, _, _, _, _, _, rfl⟩

theorem NetBuf.Tallied.buf_eq {d d' : NetBuf} (h : d.Tallied d') : d'.buf = d.buf := by
  obtain ⟨_, _, rfl⟩ := h
  rfl

theorem account_frame {nData : NetBuf} (i : Nat)
    (hcb : ∀ cb xfered arg, Keeps E ok J (.idlecb cb xfered arg)) (hJ : J w) :
    wp E ok (nData.account i) (fun r w => J w ∧ nData.Tallied r.1) w := by
  rw [NetBuf.account]
  dsimp only
  split
  · exact wp_ret.mpr ⟨hJ, _, _, rfl⟩
  split
  · exact wp_ret.mpr ⟨hJ, _, _, rfl⟩
  split
  · exact (hcb _ _ _).bind hJ fun r w hJ _ => wp_ret.mpr ⟨hJ, _, _, rfl⟩
  · exact wp_ret.mpr ⟨hJ, _, _, rfl⟩

theorem readCount_frame {nData : NetBuf} (i : Int) (buf : Buffer n) (nControl : NetBuf)
    (hcb : ∀ cb xfered arg, Keeps E ok J (.idlecb cb xfered arg)) (hJ : J w) :
    wp E ok (readCount i buf nData nControl)
      (fun r w => J w ∧ nData.Tallied r.nData ∧ r.nControl = nControl) w := by
  rw [readCount]
  split
  · exact wp_ret.mpr ⟨hJ, ⟨_, _, rfl⟩, rfl⟩
  refine (account_frame _ hcb hJ).bind ?_
  rintro ⟨nData', called⟩ w ⟨hJ, a, b, rfl⟩
  cases called with
  | none => exact wp_ret.mpr ⟨hJ, ⟨_, _, rfl⟩, rfl⟩
  | some rv =>
    dsimp only
    split
    · exact wp_ret.mpr ⟨hJ, ⟨_, _, rfl⟩, rfl⟩
    · exact wp_ret.mpr ⟨hJ, ⟨_, _, rfl⟩, rfl⟩

theorem readFtpClient_frame {nData : NetBuf} (buf : Buffer n) (nControl : NetBuf)
    (hdata : DataKeeps E ok J T nData.handle) (hJ : J w) :
    wp E ok (readFtpClient buf nData nControl)
      (fun r w => J w ∧ nData.Counted r.nData ∧ nControl.Noted T r.nControl) w := by
  rw [readFtpClient]
  split
  · exact wp_ret.mpr ⟨hJ, .refl _, .refl _⟩
  -- With a buffer the connection is in ASCII mode and reads a line; without one it reads once.
  split
  · refine (readLine_frame buf nControl hdata.recv hdata.fault (fun _ => hdata) hJ).bind ?_
    rintro r w ⟨hJ, hmoved, hnoted, -⟩
    refine (readCount_frame _ _ _ hdata.idlecb hJ).mono ?_
    rintro r' w ⟨hJ, htallied, hnc⟩
    exact ⟨hJ, (NetBuf.Counted.of_moved hmoved).trans htallied.counted, hnc ▸ hnoted⟩
  · refine (socketWait_frame nControl (fun _ => hdata) hJ).bind ?_
    rintro ⟨i, nc⟩ w ⟨hJ, hnoted, -⟩
    -- Whatever `recv` returned goes through the same end: an error is 0, the rest is counted.
    have hcount : ∀ i (b : Buffer n) w, J w → wp E ok (readCount i b nData nc)
        (fun r w => J w ∧ nData.Counted r.nData ∧ nControl.Noted T r.nControl) w := by
      intro i b w hJ
      refine (readCount_frame i b nc hdata.idlecb hJ).mono ?_
      rintro r w ⟨hJ, htallied, hnc⟩
      exact ⟨hJ, htallied.counted, hnc ▸ hnoted⟩
    dsimp only
    split
    · exact wp_ret.mpr ⟨hJ, .refl _, hnoted⟩
    refine (hdata.recv _).bind hJ fun x w hJ _ => ?_
    cases x with
    | none => exact hcount _ _ w hJ
    | some x => exact hcount _ _ w hJ

theorem writeFlush_frame {nData : NetBuf} (nControl : NetBuf) (nbp : Buffer BUFFER_SIZE) (nb : Nat)
    (aborted : Int) (hdata : DataKeeps E ok J T nData.handle) (hJ : J w) :
    wp E ok (writeFlush nData nControl nbp nb aborted)
      (fun r w => J w ∧ nControl.Noted T r.2) w := by
  rw [writeFlush]
  refine (socketWait_frame nControl (fun _ => hdata) hJ).bind ?_
  rintro ⟨ready, nc⟩ w ⟨hJ, hnoted, -⟩
  dsimp only
  split
  · exact wp_ret.mpr ⟨hJ, hnoted⟩
  refine (hdata.send _).bind hJ fun x w hJ _ => ?_
  cases x with
  | none => exact wp_ret.mpr ⟨hJ, hnoted⟩
  | some x => exact wp_ret.mpr ⟨hJ, hnoted⟩

theorem writeIfFull_frame {nData : NetBuf} (nControl : NetBuf) (s : WriteState) (x : Nat)
    (hdata : DataKeeps E ok J T nData.handle) (hJ : J w) :
    wp E ok (writeIfFull nData nControl s x) (fun r w => J w ∧ nControl.Noted T r.2.1) w := by
  rw [writeIfFull]
  split
  · refine (writeFlush_frame nControl _ _ _ hdata hJ).bind ?_
    rintro ⟨rv, nc⟩ w ⟨hJ, hnoted⟩
    exact wp_ret.mpr ⟨hJ, hnoted⟩
  · exact wp_ret.mpr ⟨hJ, .refl _⟩

theorem writeCR_frame {nData : NetBuf} (nControl : NetBuf) (s : WriteState) (c : UInt8) (x : Nat)
    (hdata : DataKeeps E ok J T nData.handle) (hJ : J w) :
    wp E ok (writeCR nData nControl s c x) (fun r w => J w ∧ nControl.Noted T r.2.1) w := by
  rw [writeCR]
  split
  · refine (writeIfFull_frame nControl s x hdata hJ).bind ?_
    rintro ⟨rv, nc, s'⟩ w ⟨hJ, hnoted⟩
    cases rv with
    | some rv => exact wp_ret.mpr ⟨hJ, hnoted⟩
    | none =>
      refine wp_bind.mpr (wp_ofOption.mpr ⟨fun _ => hdata.fault w hJ, fun s'' _ => ?_⟩)
      exact wp_ret.mpr ⟨hJ, hnoted⟩
  · exact wp_ret.mpr ⟨hJ, .refl _⟩

theorem writeLineLoop_frame {nData : NetBuf} (buf : Bytes) (x : Nat) (nControl : NetBuf)
    (s : WriteState) (hdata : DataKeeps E ok J T nData.handle) (hJ : J w) :
    wp E ok (writeLineLoop nData buf x nControl s) (fun r w => J w ∧ nControl.Noted T r.2.1) w := by
  induction buf generalizing x nControl s w with
  | nil => exact wp_ret.mpr ⟨hJ, .refl _⟩
  | cons c buf ih =>
    rw [writeLineLoop]
    refine (writeCR_frame nControl s c x hdata hJ).bind ?_
    rintro ⟨rv, nc, s₁⟩ w ⟨hJ, hnoted⟩
    cases rv with
    | some rv => exact wp_ret.mpr ⟨hJ, hnoted⟩
    | none =>
      refine (writeIfFull_frame nc s₁ x hdata hJ).bind ?_
      rintro ⟨rv, nc', s₂⟩ w ⟨hJ, hnoted'⟩
      cases rv with
      | some rv => exact wp_ret.mpr ⟨hJ, hnoted.trans hnoted'⟩
      | none =>
        refine wp_bind.mpr (wp_ofOption.mpr ⟨fun _ => hdata.fault w hJ, fun s₃ _ => ?_⟩)
        refine (ih (x + 1) nc' _ hJ).mono ?_
        rintro r w ⟨hJ, hnoted''⟩
        exact ⟨hJ, (hnoted.trans hnoted').trans hnoted''⟩

theorem writeLine_frame {nData : NetBuf} (buf : Bytes) (nControl : NetBuf)
    (hdata : DataKeeps E ok J T nData.handle) (hJ : J w) :
    wp E ok (writeLine buf nData nControl)
      (fun r w => J w ∧ nData.Counted r.2.1 ∧ nControl.Noted T r.2.2) w := by
  rw [writeLine]
  split
  · exact wp_ret.mpr ⟨hJ, .refl _, .refl _⟩
  refine wp_bind.mpr (wp_ofOption.mpr ⟨fun _ => hdata.fault w hJ, fun nbp _ => ?_⟩)
  refine (writeLineLoop_frame buf 0 nControl _ hdata hJ).bind ?_
  rintro ⟨rv, nc, s⟩ w ⟨hJ, hnoted⟩
  have hcounted : nData.Counted { nData with buf := some s.nbp } := ⟨_, _, _, _, _, _, _, rfl⟩
  cases rv with
  | some rv => exact wp_ret.mpr ⟨hJ, hcounted, hnoted⟩
  | none =>
    dsimp only
    split
    · have hflush : wp E ok (writeFlush { nData with buf := some s.nbp } nc s.nbp s.nb buf.length)
          (fun r w => J w ∧ nc.Noted T r.2) w :=
        writeFlush_frame nc s.nbp s.nb buf.length hdata hJ
      refine hflush.bind ?_
      rintro ⟨rv, nc'⟩ w ⟨hJ, hnoted'⟩
      exact wp_ret.mpr ⟨hJ, hcounted, hnoted.trans hnoted'⟩
    · exact wp_ret.mpr ⟨hJ, hcounted, hnoted⟩

/-- The count of written bytes: all of `i` is returned, or nothing after an error. -/
theorem writeCount_frame {nData : NetBuf} (i : Int) (nControl : NetBuf)
    (hcb : ∀ cb xfered arg, Keeps E ok J (.idlecb cb xfered arg)) (hJ : J w) :
    wp E ok (writeCount i nData nControl)
      (fun r w => J w ∧ nData.Tallied r.2.1 ∧ r.2.2 = nControl ∧
        r.1 = if i = -1 then 0 else i) w := by
  rw [writeCount]
  split
  · exact wp_ret.mpr ⟨hJ, ⟨_, _, rfl⟩, rfl, rfl⟩
  refine (account_frame _ hcb hJ).bind ?_
  rintro ⟨nData', called⟩ w ⟨hJ, a, b, rfl⟩
  cases called with
  | none => exact wp_ret.mpr ⟨hJ, ⟨_, _, rfl⟩, rfl, rfl⟩
  | some rv => exact wp_ret.mpr ⟨hJ, ⟨_, _, rfl⟩, rfl, rfl⟩

theorem writeFtpClient_frame {nData : NetBuf} (buf : Bytes) (nControl : NetBuf)
    (hdata : DataKeeps E ok J T nData.handle) (hJ : J w) :
    wp E ok (writeFtpClient buf nData nControl)
      (fun r w => J w ∧ nData.Counted r.2.1 ∧ nControl.Noted T r.2.2) w := by
  rw [writeFtpClient]
  split
  · exact wp_ret.mpr ⟨hJ, .refl _, .refl _⟩
  split
  · refine (writeLine_frame buf nControl hdata hJ).bind ?_
    rintro ⟨i, nData', nc⟩ w ⟨hJ, hcounted, hnoted⟩
    refine (writeCount_frame _ _ hdata.idlecb hJ).mono ?_
    rintro r w ⟨hJ, htallied, hnc, -⟩
    exact ⟨hJ, hcounted.trans htallied.counted, hnc ▸ hnoted⟩
  · refine (socketWait_frame nControl (fun _ => hdata) hJ).bind ?_
    rintro ⟨i, nc⟩ w ⟨hJ, hnoted, -⟩
    have hcount : ∀ i w, J w → wp E ok (writeCount i nData nc)
        (fun r w => J w ∧ nData.Counted r.2.1 ∧ nControl.Noted T r.2.2) w := by
      intro i w hJ
      refine (writeCount_frame i nc hdata.idlecb hJ).mono ?_
      rintro r w ⟨hJ, htallied, hnc, -⟩
      exact ⟨hJ, htallied.counted, hnc ▸ hnoted⟩
    refine (hdata.send _).bind hJ fun x w hJ _ => ?_
    cases x with
    | none => exact hcount _ w hJ
    | some x => exact hcount _ w hJ

/-! ## Transfers -/

/-- `J` is kept by the calls that open and close the local file of a transfer. -/
structure FileKeeps (E : Env Op Op.Res W) (ok : Stop Op → W → Prop) (J : W → Prop) : Prop where
  fopen : ∀ localfile mode, Keeps E ok J (.fopen localfile mode)
  fflush : ∀ file, Keeps E ok J (.fflush file)
  fclose : ∀ file, Keeps E ok J (.fclose file)
  unlink : ∀ localfile, Keeps E ok J (.unlink localfile)

/-- `J` is kept by the calls that read and write it. -/
structure CopyKeeps (E : Env Op Op.Res W) (ok : Stop Op → W → Prop) (J : W → Prop) : Prop where
  malloc : ∀ size, Keeps E ok J (.malloc size)
  fread : ∀ file size, Keeps E ok J (.fread file size)
  fwrite : ∀ file data, Keeps E ok J (.fwrite file data)

theorem xferUpload_frame {nData : NetBuf} (file : File) (nControl : NetBuf)
    (hdata : DataKeeps E ok J T nData.handle) (hfread : ∀ size, Keeps E ok J (.fread file size))
    (hJ : J w) :
    wp E ok (xferUpload file nData nControl)
      (fun r w => J w ∧ nData.Counted r.2.1 ∧ nControl.Noted T r.2.2) w := by
  refine wp_forever (fun s w => J w ∧ nData.Counted s.1 ∧ nControl.Noted T s.2)
    ⟨hJ, .refl _, .refl _⟩ ?_
  rintro ⟨d, nc⟩ w ⟨hJ, hcounted, hnoted⟩
  dsimp only at hcounted hnoted ⊢
  refine (hfread _).bind hJ fun chunk w hJ _ => ?_
  split
  · have hdata' : DataKeeps E ok J T d.handle := by
      rw [hcounted.handle_eq]
      exact hdata
    have hwrite := writeFtpClient_frame chunk.data.1 nc hdata' hJ
    refine hwrite.bind ?_
    rintro ⟨c, d', nc'⟩ w ⟨hJ, hcounted', hnoted'⟩
    refine wp_ret.mpr ?_
    split
    · exact ⟨hJ, hcounted.trans hcounted', hnoted.trans hnoted'⟩
    · exact ⟨hJ, hcounted.trans hcounted', hnoted.trans hnoted'⟩
  · exact wp_ret.mpr ⟨hJ, hcounted, hnoted⟩

theorem xferDownload_frame {nData : NetBuf} (file : File) (dbuf : Buffer BUFFER_SIZE)
    (nControl : NetBuf) (hdata : DataKeeps E ok J T nData.handle)
    (hfwrite : ∀ data, Keeps E ok J (.fwrite file data)) (hJ : J w) :
    wp E ok (xferDownload file dbuf nData nControl)
      (fun r w => J w ∧ nData.Counted r.2.1 ∧ nControl.Noted T r.2.2) w := by
  refine wp_forever (fun s w => J w ∧ nData.Counted s.2.1 ∧ nControl.Noted T s.2.2)
    ⟨hJ, .refl _, .refl _⟩ ?_
  rintro ⟨b, d, nc⟩ w ⟨hJ, hcounted, hnoted⟩
  dsimp only at hcounted hnoted ⊢
  have hdata' : DataKeeps E ok J T d.handle := by
    rw [hcounted.handle_eq]
    exact hdata
  have hread := readFtpClient_frame b nc hdata' hJ
  refine hread.bind ?_
  rintro r w ⟨hJ, hcounted', hnoted'⟩
  split
  · refine (hfwrite _).bind hJ fun x w hJ _ => wp_ret.mpr ?_
    split
    · exact ⟨hJ, hcounted.trans hcounted', hnoted.trans hnoted'⟩
    · exact ⟨hJ, hcounted.trans hcounted', hnoted.trans hnoted'⟩
  · exact wp_ret.mpr ⟨hJ, hcounted.trans hcounted', hnoted.trans hnoted'⟩

theorem xferData_frame {nData : NetBuf} (file : File) (typ : Typ) (nControl : NetBuf)
    (hdata : DataKeeps E ok J T nData.handle) (hcopy : CopyKeeps E ok J) (hJ : J w) :
    wp E ok (xferData file typ nData nControl)
      (fun r w => J w ∧ nData.Counted r.2.1 ∧ nControl.Noted T r.2.2) w := by
  rw [xferData]
  refine (hcopy.malloc _).bind hJ fun dbuf w hJ _ => ?_
  cases dbuf with
  | none => exact wp_ret.mpr ⟨hJ, .refl _, .refl _⟩
  | some dbuf =>
    dsimp only
    split
    · exact xferUpload_frame file nControl hdata (hcopy.fread file) hJ
    · exact xferDownload_frame file dbuf nControl hdata (hcopy.fwrite file) hJ

/-- The local file is closed, and may be removed. -/
theorem fclose_frame (file : File) (name : Bytes) (removes : Prop) [Decidable removes]
    (hfile : FileKeeps E ok J) (hJ : J w) :
    wp E ok (do
      let _ ← Sys.fclose file
      if removes then
        let _ ← Sys.unlink name
        return ()
      else return ()) (fun _ w => J w) w := by
  refine (hfile.fclose _).bind hJ fun _ w hJ _ => ?_
  split
  · exact (hfile.unlink _).bind hJ fun _ _ hJ _ => wp_ret.mpr hJ
  · exact wp_ret.mpr hJ

theorem xferClose_frame (localfile : Option Bytes) (file : File) (typ : Typ) (rv : Int)
    (hfile : FileKeeps E ok J) (hJ : J w) :
    wp E ok (xferClose localfile file typ rv) (fun _ w => J w) w := by
  rw [xferClose.eq_def]
  refine (hfile.fflush _).bind hJ fun _ w hJ _ => ?_
  split
  · exact wp_ret.mpr hJ
  · exact fclose_frame file _ _ hfile hJ

theorem xferDiscard_frame (localfile : Option Bytes) (file : File) (typ : Typ)
    (hfile : FileKeeps E ok J) (hJ : J w) :
    wp E ok (xferDiscard localfile file typ) (fun _ w => J w) w := by
  rw [xferDiscard.eq_def]
  split
  · exact wp_ret.mpr hJ
  · exact fclose_frame file _ _ hfile hJ

end Ftp
