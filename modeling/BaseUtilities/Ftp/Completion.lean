import BaseUtilities.Ftp.Hearing
import BaseUtilities.Ftp.Transfers

/-!
# The completion reply

A transfer that has come to its end has read three replies: to `TYPE`, to `PASV` or `PORT`, and to its own
command.  So the one that `closeFtpClient` reads is the fourth on the control connection.
-/

open Effects Mem

namespace Ftp

/-! ## Opening a data connection -/

section

variable {W : Type} {E : Env Op Op.Res W} {control k : Nat} {heard : W → Heard}
  {response₀ : Buffer RESPONSE_BUFFER_SIZE} {u₀ : Bytes} {nControl : NetBuf} {w : W}

/-- The descriptors do not matter here. -/
theorem anyRules (E : Env Op Op.Res W) (control : Nat) :
    SocketRules E (fun _ _ => True) control (fun _ _ => True) (fun _ => True) fun _ _ => True where
  setup _ _ _ := ⟨fun _ _ => trivial, fun _ _ _ _ _ => trivial⟩
  recv _ _ := ⟨fun _ _ => trivial, fun _ _ _ _ _ => trivial⟩
  send _ _ := ⟨fun _ _ => trivial, fun _ _ _ _ _ => trivial⟩
  fault _ _ _ := trivial
  socket_asks _ _ _ := trivial
  opened _ _ _ _ _ _ := ⟨trivial, trivial⟩
  refused _ _ _ _ _ := trivial
  listens _ _ _ _ _ _ := trivial
  unnamed _ _ _ _ _ _ _ := trivial
  close_asks _ _ _ _ := trivial
  closed _ _ _ _ _ _ _ := trivial
  shutdown _ _ := ⟨fun _ _ => trivial, fun _ _ _ _ _ => trivial⟩
  wait _ _ := ⟨fun _ _ => trivial, fun _ _ _ _ _ => trivial⟩
  gaveUp _ _ _ _ _ _ _ _ := trivial
  accept_asks _ _ _ _ := trivial
  accepted _ _ _ _ _ _ _ _ := ⟨trivial, trivial⟩
  unaccepted _ _ _ _ _ _ _ := trivial

variable (hE : Listens E control heard)

include hE

/-- Only `recv` on the control connection is heard. -/
theorem Listens.keeps {op : Op} (hop : ∀ h r, Heard.after control h ⟨op, r⟩ = h) :
    Keeps E (fun _ _ => True) (Heeded control heard response₀ u₀ k nControl) op where
  asks _ _ := trivial
  keeps _ _ _ h hstep := h.congr ((hE.after _ _ _ _ hstep).trans (hop _ _))

/-- A command that has got its expected answer has got one reply more. -/
theorem sendCommand_replied (cmd : Bytes) (c : UInt8)
    (h : Heeded control heard response₀ u₀ k nControl w) :
    wp E (fun _ _ => True) (sendCommand cmd c nControl)
      (fun r w' => r.1 ≠ 0 → Heeded control heard response₀ u₀ (k + 1) r.2 w' ∧
        nControl.Same r.2 ∧ r.2.response.first = c) w := by
  have hread : wp E (fun _ _ => True) (sendCommand cmd c nControl)
      (fun r w' => r.1 ≠ 0 → Heeded control heard response₀ u₀ (k + 1) r.2 w') w := by
    apply sendCommand_hears cmd c h
    · exact fun hrv => absurd rfl hrv
    · exact fun _ _ _ _ hrv => absurd rfl hrv
    · intro x w' _ hstep
      refine (readResponse_hears hE c (h.congr (hE.after _ _ _ _ hstep))).mono ?_
      intro r w' hreply hrv
      cases hreply with
      | replied h' => exact h'
      | broken _ _ => exact absurd rfl hrv
  have hr := anyRules E nControl.handle
  have hframe : wp E (fun _ _ => True) (sendCommand cmd c nControl)
      (fun r _ => True ∧ nControl.Same r.2 ∧ (r.1 = 0 ∨ r.1 = 1 ∧ r.2.response.first = c)) w :=
    sendCommand_frame cmd c (hr.recv 0) (hr.send 0) (hr.fault 0) trivial
  refine (hread.and hframe).mono ?_
  rintro r w' ⟨hread, -, hsame, hfirst⟩ hrv
  exact ⟨hread hrv, hsame, (hfirst.resolve_left hrv).2⟩

/-- How many replies have been read once the address is known, where there were `k` before. -/
def NetBuf.addressed (nControl : NetBuf) (k : Nat) : Nat :=
  match nControl.cmode with
  | .passive => k + 1
  | .active => k

theorem portAddress_hears (h : Heeded control heard response₀ u₀ k nControl w) :
    wp E (fun _ _ => True) (portAddress nControl)
      (fun r w' => r.2.isSome → nControl.Same r.1 ∧
        Heeded control heard response₀ u₀ (nControl.addressed k) r.1 w') w := by
  rw [portAddress]
  split
  · next hmode =>
    have haddressed : nControl.addressed k = k + 1 := by rw [NetBuf.addressed, hmode]
    rw [haddressed]
    refine (sendCommand_replied hE _ _ h).bind ?_
    rintro ⟨rv, nc⟩ w hreply
    dsimp only at hreply ⊢
    split
    · exact wp_ret.mpr (by simp)
    next hrv =>
    obtain ⟨h, hsame, -⟩ := hreply hrv
    refine wp_bind.mpr (wp_ofOption.mpr ⟨fun _ => trivial, fun text _ => ?_⟩)
    split
    · exact wp_ret.mpr (by simp)
    · exact (hE.keeps fun _ _ => rfl).bind h fun _ _ h _ => wp_ret.mpr fun _ => ⟨hsame, h⟩
  · next hmode =>
    have haddressed : nControl.addressed k = k := by rw [NetBuf.addressed, hmode]
    rw [haddressed]
    exact (hE.keeps fun _ _ => rfl).bind h fun _ _ h _ => wp_ret.mpr fun _ => ⟨.refl _, h⟩

theorem portConnect_hears (sData : Nat) (sa : SockAddr)
    (h : Heeded control heard response₀ u₀ (nControl.addressed k) nControl w) :
    wp E (fun _ _ => True) (portConnect nControl sData sa)
      (fun r w' => r.2 = true → nControl.Same r.1 ∧ Heeded control heard response₀ u₀ (k + 1) r.1 w') w := by
  have hclose : ∀ nc w, wp E (fun _ _ => True) (do Sys.closesocket sData; return (nc, false))
      (fun r w' => r.2 = true → nControl.Same r.1 ∧ Heeded control heard response₀ u₀ (k + 1) r.1 w') w :=
    fun nc w => (wp_trivial _ w).bind fun _ _ _ => wp_ret.mpr (by simp)
  rw [NetBuf.addressed] at h
  rw [portConnect]
  split
  · next hmode =>
    rw [hmode] at h
    refine (hE.keeps fun _ _ => rfl).bind h fun connected w h _ => ?_
    split
    · exact wp_ret.mpr fun _ => ⟨.refl _, h⟩
    · exact hclose _ _
  next hmode =>
  rw [hmode] at h
  refine (hE.keeps fun _ _ => rfl).bind h fun bound w h _ => ?_
  dsimp only
  split
  · exact hclose _ _
  refine (hE.keeps fun _ _ => rfl).bind h fun listening w h _ => ?_
  split
  · exact hclose _ _
  refine (hE.keeps fun _ _ => rfl).bind h fun sa w h _ => ?_
  cases sa with
  | none => exact wp_ret.mpr (by simp)
  | some sa =>
    -- The reply that passive mode has read by now is the one to `PORT` in active mode.
    refine (sendCommand_replied hE _ _ h).bind ?_
    rintro ⟨rv, nc⟩ w hreply
    dsimp only at hreply ⊢
    split
    · exact hclose _ _
    · next hrv =>
      obtain ⟨h, hsame, -⟩ := hreply hrv
      exact wp_ret.mpr fun _ => ⟨hsame, h⟩

theorem portData_hears (sData : Nat) (mode : Mode) (dir : Dir)
    (h : Heeded control heard response₀ u₀ k nControl w) :
    wp E (fun _ _ => True) (portData nControl sData mode dir)
      (fun r w' => r.isSome → Heeded control heard response₀ u₀ k nControl w') w := by
  have hclose : ∀ w, wp E (fun _ _ => True) (do Sys.closesocket sData; return (none : Option NetBuf))
      (fun r w' => r.isSome → Heeded control heard response₀ u₀ k nControl w') w :=
    fun w => (wp_trivial _ w).bind fun _ _ _ => wp_ret.mpr (by simp)
  rw [portData]
  refine (hE.keeps fun _ _ => rfl).bind h fun allocated w h _ => ?_
  split
  · exact hclose _
  split
  · refine (hE.keeps fun _ _ => rfl).bind h fun buf w h _ => ?_
    cases buf with
    | none => exact hclose _
    | some buf => exact wp_ret.mpr fun _ => h
  · exact wp_ret.mpr fun _ => h

/-- A data connection has cost one reply, whichever side connects. -/
theorem openPort_hears (mode : Mode) (dir : Dir) (h : Heeded control heard response₀ u₀ k nControl w) :
    wp E (fun _ _ => True) (openPort nControl mode dir)
      (fun r w' => r.2.isSome → Heeded control heard response₀ u₀ (k + 1) r.1 w') w := by
  rw [openPort]
  split
  · exact wp_ret.mpr (by simp)
  split
  · exact (wp_trivial _ w).bind fun _ _ _ => wp_ret.mpr (by simp)
  split
  · exact (wp_trivial _ w).bind fun _ _ _ => wp_ret.mpr (by simp)
  refine (portAddress_hears hE h).bind ?_
  rintro ⟨nc, sa⟩ w haddress
  cases sa with
  | none => exact wp_ret.mpr (by simp)
  | some sa =>
    obtain ⟨hsame, h⟩ := haddress rfl
    have haddressed : nc.addressed k = nControl.addressed k := by
      rw [NetBuf.addressed, NetBuf.addressed, hsame.cmode_eq]
    rw [← haddressed] at h
    refine (hE.keeps fun _ _ => rfl).bind h fun sData w h _ => ?_
    cases sData with
    | none => exact wp_ret.mpr (by simp)
    | some sData =>
      refine (portConnect_hears hE sData sa h).bind ?_
      rintro ⟨nc', connected⟩ w hconnected
      cases connected with
      | false => exact wp_ret.mpr (by simp)
      | true =>
        obtain ⟨-, h⟩ := hconnected rfl
        exact (portData_hears hE sData mode dir h).bind fun _ _ h => wp_ret.mpr h

/-- The server's connection is accepted without a further reply. -/
theorem acceptConnection_hears (nData : NetBuf) (h : Heeded control heard response₀ u₀ k nControl w) :
    wp E (fun _ _ => True) (acceptConnection nData nControl)
      (fun r w' => r.1 ≠ 0 → Heeded control heard response₀ u₀ k r.2.2 w') w := by
  rw [acceptConnection]
  refine (hE.keeps fun _ _ => rfl).bind h fun r w h _ => ?_
  cases r with
  | error text => exact (wp_trivial _ w).bind fun _ _ _ => wp_ret.mpr (by simp)
  | timeout =>
    exact (wp_trivial _ w).bind fun _ w _ => (wp_trivial _ w).bind fun _ _ _ => wp_ret.mpr (by simp)
  | ready data control =>
    cases data with
    | true =>
      refine (hE.keeps fun _ _ => rfl).bind h fun r w h _ => (hE.keeps fun _ _ => rfl).bind h fun _ w h _ => ?_
      -- The server's connection has come about only with a descriptor other than 0.
      obtain ⟨_ | _ | fd, text⟩ := r
      · exact wp_ret.mpr (by simp)
      · exact wp_ret.mpr (by simp)
      · exact wp_ret.mpr fun _ => h
    | false =>
      cases control with
      | true =>
        exact (wp_trivial _ w).bind fun _ w _ => (wp_trivial _ w).bind fun _ _ _ => wp_ret.mpr (by simp)
      | false => exact wp_ret.mpr (by simp)

/-- With a data connection, three more replies have been read: to `TYPE`, to `PASV` or `PORT`, and to the
command of the transfer. -/
theorem accessFtpClient_hears (path : Option Bytes) (typ : Typ) (mode : Mode)
    (h : Heeded control heard response₀ u₀ k nControl w) :
    wp E (fun _ _ => True) (accessFtpClient path typ mode nControl)
      (fun r w' => r.2.isSome → Heeded control heard response₀ u₀ (k + 3) r.1 w') w := by
  rw [accessFtpClient]
  split
  · exact (wp_trivial _ w).bind fun _ _ _ => wp_ret.mpr (by simp)
  refine (sendCommand_replied hE _ _ h).bind ?_
  rintro ⟨rv, nc⟩ w hreply
  dsimp only at hreply ⊢
  split
  · exact wp_ret.mpr (by simp)
  next hrv =>
  obtain ⟨h, -⟩ := hreply hrv
  split
  · exact (wp_trivial _ w).bind fun _ _ _ => wp_ret.mpr (by simp)
  split
  · exact wp_ret.mpr (by simp)
  refine (openPort_hears hE mode _ h).bind ?_
  rintro ⟨nc, nData⟩ w hopened
  cases nData with
  | none => exact wp_ret.mpr (by simp)
  | some nData =>
    refine (sendCommand_replied hE _ _ (hopened rfl)).bind ?_
    rintro ⟨rv, nc⟩ w hreply
    dsimp only at hreply ⊢
    split
    · exact (wp_trivial _ w).bind fun _ _ _ => wp_ret.mpr (by simp)
    next hrv =>
    obtain ⟨h, -⟩ := hreply hrv
    split
    · exact wp_ret.mpr fun _ => h
    refine (acceptConnection_hears hE nData h).bind ?_
    rintro ⟨rv, nData, nc⟩ w haccepted
    dsimp only at haccepted ⊢
    split
    · exact (wp_trivial _ w).bind fun _ _ _ => wp_ret.mpr (by simp)
    · next hrv => exact wp_ret.mpr fun _ => haccepted hrv

/-! ## Closing it -/

/-- `closeFtpClient` has read a completion reply, and it begins with `2`. -/
def Accepted (closed : Int) (nControl : NetBuf) : Prop :=
  closed = 1 ∧ nControl.response.first = 50

/-- The next reply decides what `closeFtpClient` returns behind a transfer that was accepted. -/
theorem closeFtpClient_hears (nData : NetBuf) (hfirst : nControl.response.first = 49)
    (h : Heeded control heard response₀ u₀ k nControl w) :
    wp E (fun _ _ => True) (closeFtpClient nData nControl)
      (fun r w' => Accepted r.1 r.2 ↔
        ∃ p ∈ takeReplies (k + 1) response₀ ((heard w').lines u₀), p.1.first = 50) w := by
  rw [closeFtpClient]
  refine (hE.keeps fun _ _ => rfl).bind h fun _ w h _ => (hE.keeps fun _ _ => rfl).bind h fun _ w h _ => ?_
  rw [if_pos (by rw [hfirst]; decide)]
  refine (readResponse_hears hE 50 h).mono ?_
  intro r w' hreply
  cases hreply with
  | @replied nc _ h' =>
    obtain ⟨rest, htakes⟩ := h'.takes
    rw [htakes, Accepted]
    simp
  | broken hnone _ =>
    rw [hnone, Accepted]
    simp

end

end Ftp
