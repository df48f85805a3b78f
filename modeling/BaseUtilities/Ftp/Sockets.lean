import BaseUtilities.Ftp.Frame
import BaseUtilities.Ftp.Session
import Mathlib.Data.Multiset.AddSub

/-!
# The descriptors that the client owns

`SocketRules` says how a predicate `J` that is indexed by the descriptors in the client's hands
follows the calls that open and close them.  Each function of the client is then specified by what it
adds to that collection and takes from it, whatever the predicate says about the world.
-/

open Effects Mem

namespace Ftp

/-- The calls with which connections are set up and that no rule below is about. -/
def Op.isSetup : Op → Bool
  | .connect _ _ | .bind _ _ | .listen _ | .getsockname _ | .inetAddr _ | .gethostbyname _
  | .malloc _ | .calloc | .uninit => true
  | _ => false

/-- The descriptor that a call returns. -/
def broughtFd : FtpEvent → Option Nat
  | ⟨.socket, fd⟩ => fd
  | ⟨.accept _, r⟩ => r.1
  | _ => none

/-- The answers of `select` on which `acceptConnection` gives its socket up. -/
def WaitAccept.gaveUp : WaitAccept → Bool
  | .error _ | .timeout => true
  | .ready data control => !data && control

/-- `J owned` is followed through the calls of a client whose control connection is `control`.
`New` holds of the descriptors that `socket` and `accept` return, `Listens` of a socket after a
successful `listen`. -/
structure SocketRules {W : Type} (E : Env Op Op.Res W) (ok : Stop Op → W → Prop) (control : Nat)
    (J : Multiset Nat → W → Prop) (New : Nat → Prop) (Listens : Nat → W → Prop) : Prop where
  setup : ∀ owned op, op.isSetup → Keeps E ok (J owned) op
  recv : ∀ owned len, Keeps E ok (J owned) (.recv control len)
  send : ∀ owned data, Keeps E ok (J owned) (.send control data)
  fault : ∀ owned w, J owned w → ok .fault w
  socket_asks : ∀ owned w, J owned w → ok (.asking .socket) w
  opened : ∀ owned w fd w', J owned w → E w .socket (some fd) w' → J (fd ::ₘ owned) w' ∧ New fd
  refused : ∀ owned w w', J owned w → E w .socket none w' → J owned w'
  listens : ∀ owned w fd w', J owned w → E w (.listen fd) true w' → Listens fd w'
  unnamed : ∀ owned w fd w', J (fd ::ₘ owned) w → Listens fd w → E w (.getsockname fd) none w' →
    J owned w'
  close_asks : ∀ owned w fd, J (fd ::ₘ owned) w → ok (.asking (.closesocket fd)) w
  closed : ∀ owned w fd r w', J (fd ::ₘ owned) w → E w (.closesocket fd) r w' → J owned w'
  shutdown : ∀ owned fd, Keeps E ok (J (fd ::ₘ owned)) (.shutdown fd)
  wait : ∀ owned fd, Keeps E ok (J owned) (.selectAccept control fd)
  gaveUp : ∀ owned w fd r w', J owned w → E w (.selectAccept control fd) r w' → r.gaveUp →
    J (0 ::ₘ owned) w'
  accept_asks : ∀ owned w fd, J owned w → ok (.asking (.accept fd)) w
  accepted : ∀ owned w listening fd text w', J owned w →
    E w (.accept listening) (some fd, text) w' → J (fd ::ₘ owned) w' ∧ New fd
  unaccepted : ∀ owned w listening text w', J owned w → E w (.accept listening) (none, text) w' →
    J (0 ::ₘ owned) w'

variable {W : Type} {E : Env Op Op.Res W} {ok : Stop Op → W → Prop} {J : Multiset Nat → W → Prop}
  {New : Nat → Prop} {Listens : Nat → W → Prop} {w : W} {owned : Multiset Nat} {nControl : NetBuf}

theorem NetBuf.Same.rules {c c' : NetBuf} (h : c.Same c')
    (hr : SocketRules E ok c.handle J New Listens) : SocketRules E ok c'.handle J New Listens := by
  rwa [h.handle_eq]

theorem SocketRules.close {control : Nat} (hr : SocketRules E ok control J New Listens) {fd : Nat}
    (hJ : J (fd ::ₘ owned) w) :
    wp E ok (Prog.perform (.closesocket fd)) (fun _ w => J owned w) w :=
  wp_perform.mpr ⟨hr.close_asks _ _ _ hJ, fun _ _ h => hr.closed _ _ _ _ _ hJ h⟩

theorem SocketRules.sendCommand (hr : SocketRules E ok nControl.handle J New Listens) (cmd : Bytes)
    (expresp : UInt8) (hJ : J owned w) :
    wp E ok (sendCommand cmd expresp nControl)
      (fun r w => J owned w ∧ nControl.Same r.2 ∧
        (r.1 = 0 ∨ r.1 = 1 ∧ r.2.response.first = expresp)) w :=
  sendCommand_frame cmd expresp (hr.recv _) (hr.send _) (hr.fault _) hJ

theorem SocketRules.readResponse (hr : SocketRules E ok nControl.handle J New Listens) (c : UInt8)
    (hdir : nControl.dir = .control) (hJ : J owned w) :
    wp E ok (readResponse c nControl)
      (fun r w => J owned w ∧ nControl.Same r.2 ∧ (r.1 = 0 ∨ r.1 = 1 ∧ r.2.response.first = c)) w :=
  readResponse_frame c hdir (hr.recv _) (hr.fault _) hJ

theorem SocketRules.report (hr : SocketRules E ok nControl.handle J New Listens) (text : Bytes)
    (hJ : J owned w) :
    wp E ok (nControl.report text) (fun nc w => J owned w ∧ nControl.Same nc) w :=
  wp_bind.mpr (wp_ofOption.mpr ⟨fun _ => hr.fault _ _ hJ, fun _ _ =>
    wp_ret.mpr ⟨hJ, (NetBuf.Same.refl _).respond _⟩⟩)

/-! ## Data connections -/

theorem newData_same {c c' : NetBuf} (h : c.Same c') (fd : Nat)
    (buf : Option (Buffer BUFFER_SIZE)) (dir : Dir) : newData c' fd buf dir = newData c fd buf dir := by
  obtain ⟨_, _, _, _, _, _, rfl⟩ := h
  rfl

theorem portAddress_spec (hr : SocketRules E ok nControl.handle J New Listens) (hJ : J owned w) :
    wp E ok (portAddress nControl) (fun r w => J owned w ∧ nControl.Same r.1) w := by
  rw [portAddress]
  split
  · refine (hr.sendCommand _ _ hJ).bind ?_
    rintro ⟨rv, nc⟩ w ⟨hJ, hsame, -⟩
    dsimp only at hsame ⊢
    split
    · exact wp_ret.mpr ⟨hJ, hsame⟩
    refine wp_bind.mpr (wp_ofOption.mpr ⟨fun _ => hr.fault _ _ hJ, fun text _ => ?_⟩)
    split
    · exact wp_ret.mpr ⟨hJ, hsame⟩
    · exact (hr.setup _ _ rfl).bind hJ fun _ _ hJ _ => wp_ret.mpr ⟨hJ, hsame⟩
  · exact (hr.setup _ _ rfl).bind hJ fun _ _ hJ _ => wp_ret.mpr ⟨hJ, .refl _⟩

theorem portConnect_spec (hr : SocketRules E ok nControl.handle J New Listens) (sData : Nat)
    (sa : SockAddr) (hJ : J (sData ::ₘ owned) w) :
    wp E ok (portConnect nControl sData sa)
      (fun r w => J (if r.2 then sData ::ₘ owned else owned) w ∧ nControl.Same r.1) w := by
  -- Every way out after the socket was opened closes it, but for a failed `getsockname`.
  have hclose : ∀ nc w, J (sData ::ₘ owned) w → nControl.Same nc →
      wp E ok (do Sys.closesocket sData; return (nc, false))
        (fun r w => J (if r.2 then sData ::ₘ owned else owned) w ∧ nControl.Same r.1) w :=
    fun nc w hJ hsame => (hr.close hJ).bind fun _ _ hJ => wp_ret.mpr ⟨hJ, hsame⟩
  rw [portConnect]
  split
  · refine (hr.setup _ _ rfl).bind hJ fun connected w hJ _ => ?_
    split
    · exact wp_ret.mpr ⟨hJ, .refl _⟩
    · exact hclose _ _ hJ (.refl _)
  · refine (hr.setup _ _ rfl).bind hJ fun bound w hJ _ => ?_
    dsimp only
    split
    · exact hclose _ _ hJ (.refl _)
    refine (hr.setup _ _ rfl).bind hJ fun listening w' hJ' hlisten => ?_
    cases listening with
    | false => exact hclose _ _ hJ' (.refl _)
    | true =>
      have hlistens := hr.listens _ _ _ _ hJ hlisten
      refine (hr.setup _ _ rfl).bind hJ' fun sa w hJ hname => ?_
      cases sa with
      -- The source returns without closing the socket; the rule `unnamed` says what that costs.
      | none => exact wp_ret.mpr ⟨hr.unnamed _ _ _ _ hJ' hlistens hname, .refl _⟩
      | some sa =>
        refine (hr.sendCommand _ _ hJ).bind ?_
        rintro ⟨rv, nc⟩ w ⟨hJ, hsame, -⟩
        dsimp only at hsame ⊢
        split
        · exact hclose _ _ hJ hsame
        · exact wp_ret.mpr ⟨hJ, hsame⟩

/-- A new data connection for a transfer in `mode` and in the direction `dir`. -/
def Opened (New : Nat → Prop) (nControl : NetBuf) (mode : Mode) (dir : Dir) (nData : NetBuf) : Prop :=
  ∃ fd buf, nData = newData nControl fd buf dir ∧ (buf.isSome = true ↔ mode = .ascii) ∧ New fd

theorem portData_spec (hr : SocketRules E ok nControl.handle J New Listens) (sData : Nat)
    (mode : Mode) (dir : Dir) (hnew : New sData) (hJ : J (sData ::ₘ owned) w) :
    wp E ok (portData nControl sData mode dir)
      (fun r w => match r with
        | none => J owned w
        | some nData => J (nData.handle ::ₘ owned) w ∧ Opened New nControl mode dir nData) w := by
  rw [portData]
  refine (hr.setup _ _ rfl).bind hJ fun allocated w hJ _ => ?_
  split
  · exact (hr.close hJ).bind fun _ _ hJ => wp_ret.mpr hJ
  split
  · next hmode =>
    refine (hr.setup _ _ rfl).bind hJ fun buf w hJ _ => ?_
    cases buf with
    | none => exact (hr.close hJ).bind fun _ _ hJ => wp_ret.mpr hJ
    | some buf => exact wp_ret.mpr ⟨hJ, _, _, rfl, by simp [hmode], hnew⟩
  · next hmode => exact wp_ret.mpr ⟨hJ, _, _, rfl, by simp [hmode], hnew⟩

/-- What opening a data connection leaves to the caller. -/
def DataPost (J : Multiset Nat → W → Prop) (New : Nat → Prop) (owned : Multiset Nat)
    (nControl : NetBuf) (mode : Mode) (dir : Dir) (r : NetBuf × Option NetBuf) (w : W) : Prop :=
  nControl.Same r.1 ∧
    match r.2 with
    | none => J owned w
    | some nData => J (nData.handle ::ₘ owned) w ∧ Opened New nControl mode dir nData

theorem openPort_spec (hr : SocketRules E ok nControl.handle J New Listens) (mode : Mode) (dir : Dir)
    (hJ : J owned w) :
    wp E ok (openPort nControl mode dir) (DataPost J New owned nControl mode dir) w := by
  rw [openPort]
  -- The first three ways out are refusals before any socket exists.
  split
  · exact wp_ret.mpr ⟨.refl _, hJ⟩
  split
  · exact (hr.report _ hJ).bind fun _ _ h => wp_ret.mpr ⟨h.2, h.1⟩
  split
  · exact (hr.report _ hJ).bind fun _ _ h => wp_ret.mpr ⟨h.2, h.1⟩
  refine (portAddress_spec hr hJ).bind ?_
  rintro ⟨nc, sa⟩ w ⟨hJ, hsame⟩
  cases sa with
  | none => exact wp_ret.mpr ⟨hsame, hJ⟩
  | some sa =>
    refine wp_bind.mpr (wp_perform.mpr ⟨hr.socket_asks _ _ hJ, fun sData w' hsocket => ?_⟩)
    cases sData with
    | none => exact wp_ret.mpr ⟨hsame, hr.refused _ _ _ hJ hsocket⟩
    | some sData =>
      obtain ⟨hJ, hnew⟩ := hr.opened _ _ _ _ hJ hsocket
      refine (portConnect_spec (hsame.rules hr) sData sa hJ).bind ?_
      rintro ⟨nc', connected⟩ w ⟨hJ, hsame'⟩
      replace hsame := hsame.trans hsame'
      cases connected with
      | false => exact wp_ret.mpr ⟨hsame, hJ⟩
      | true =>
        refine (portData_spec (hsame.rules hr) sData mode dir hnew hJ).bind ?_
        -- The socket becomes the handle of the data connection; without memory for one it is closed.
        rintro nData w hpost
        cases nData with
        | none => exact wp_ret.mpr ⟨hsame, hpost⟩
        | some nData =>
          obtain ⟨hJ, fd, buf, rfl, hmode, hnew⟩ := hpost
          exact wp_ret.mpr ⟨hsame, hJ, fd, buf, newData_same hsame .., hmode, hnew⟩

/-- `acceptConnection` trades the listening socket for the accepted one. -/
theorem acceptConnection_spec (hr : SocketRules E ok nControl.handle J New Listens) (nData : NetBuf)
    (hdir : nControl.dir = .control) (hJ : J (nData.handle ::ₘ owned) w) :
    wp E ok (acceptConnection nData nControl)
      (fun r w => nControl.Same r.2.2 ∧ J (r.2.1.handle ::ₘ owned) w ∧
        (r.1 = 0 ∨ r.2.2 = nControl ∧ ∃ fd, r.2.1 = { nData with handle := fd } ∧ New fd)) w := by
  -- On failure the listening socket is closed and the handle is 0, which the caller closes in turn: so
  -- a 0 is held as well.
  have hgiven : ∀ nc w, J (0 ::ₘ nData.handle ::ₘ owned) w → nControl.Same nc →
      wp E ok (do
          Sys.closesocket nData.handle
          return ((0 : Int), { nData with handle := 0 }, nc))
        (fun r w => nControl.Same r.2.2 ∧ J (r.2.1.handle ::ₘ owned) w ∧
          (r.1 = 0 ∨ r.2.2 = nControl ∧ ∃ fd, r.2.1 = { nData with handle := fd } ∧ New fd)) w := by
    intro nc w hJ hsame
    rw [Multiset.cons_swap] at hJ
    exact (hr.close hJ).bind fun _ _ hJ => wp_ret.mpr ⟨hsame, hJ, .inl rfl⟩
  rw [acceptConnection]
  refine (hr.wait _ _).bind hJ fun r w' hJ' hwait => ?_
  have hup := hr.gaveUp _ _ _ _ _ hJ hwait
  cases r with
  | error text => exact hgiven _ _ (hup rfl) ((NetBuf.Same.refl _).respond _)
  | timeout =>
    refine (hr.report _ (hup rfl)).bind ?_
    rintro nc w ⟨hJ, hsame⟩
    exact hgiven _ _ hJ hsame
  | ready data control =>
    cases data with
    | true =>
      refine wp_bind.mpr (wp_perform.mpr ⟨hr.accept_asks _ _ _ hJ', ?_⟩)
      rintro ⟨sData, text⟩ w haccept
      match sData with
      | none =>
        have := hgiven { nControl with response := nControl.response.strncpy text } w
          (hr.unaccepted _ _ _ _ _ hJ' haccept) ((NetBuf.Same.refl _).respond _)
        exact this
      -- A descriptor 0 is refused by the source, though it was opened.
      | some 0 =>
        have := hgiven { nControl with response := nControl.response.strncpy text } w
          (hr.accepted _ _ _ _ _ _ hJ' haccept).1 ((NetBuf.Same.refl _).respond _)
        exact this
      | some (fd + 1) =>
        obtain ⟨hJ, hnew⟩ := hr.accepted _ _ _ _ _ _ hJ' haccept
        rw [Multiset.cons_swap] at hJ
        refine (hr.close hJ).bind fun _ _ hJ => wp_ret.mpr ⟨.refl _, hJ, .inr ⟨rfl, _, rfl, hnew⟩⟩
    | false =>
      cases control with
      | true =>
        have hJ := hup rfl
        rw [Multiset.cons_swap] at hJ
        refine (hr.close hJ).bind fun _ w hJ => ?_
        refine (hr.readResponse _ hdir hJ).bind ?_
        -- The server answered instead of connecting.
        rintro ⟨_, nc⟩ w ⟨hJ, hsame, -⟩
        exact wp_ret.mpr ⟨hsame, hJ, .inl rfl⟩
      | false => exact wp_ret.mpr ⟨.refl _, hJ', .inl rfl⟩

theorem closeFtpClient_spec (hr : SocketRules E ok nControl.handle J New Listens) (nData : NetBuf)
    (hdir : nControl.dir = .control) (hJ : J (nData.handle ::ₘ owned) w) :
    wp E ok (closeFtpClient nData nControl)
      (fun r w => nControl.Same r.2 ∧ J owned w) w := by
  rw [closeFtpClient]
  refine (hr.shutdown _ _).bind hJ fun _ w hJ _ => (hr.close hJ).bind fun _ w hJ => ?_
  split
  · exact (hr.readResponse _ hdir hJ).mono fun _ _ h => ⟨h.2.1, h.1⟩
  · exact wp_ret.mpr ⟨.refl _, hJ⟩

/-- The direction of a transfer's data. -/
def Typ.dataDir (typ : Typ) : Dir := if typ = .fileWrite then .write else .read

theorem Typ.command_dir {typ : Typ} {verb : Bytes} {dir : Dir} (h : typ.command = some (verb, dir)) :
    dir = typ.dataDir := by
  cases typ <;> simp_all [Typ.command, Typ.dataDir]

/-- `accessFtpClient` opens one data connection or none; with one, the last reply has the first
character `1`. -/
theorem accessFtpClient_spec (hr : SocketRules E ok nControl.handle J New Listens)
    (path : Option Bytes) (typ : Typ) (mode : Mode) (hdir : nControl.dir = .control)
    (hJ : J owned w) :
    wp E ok (accessFtpClient path typ mode nControl)
      (fun r w => DataPost J New owned nControl mode typ.dataDir r w ∧
        (r.2.isSome → r.1.response.first = 49)) w := by
  -- Both late ways out close the data connection and read the reply that comes with it.
  have hclose : ∀ nData nc w, nControl.Same nc → J (nData.handle ::ₘ owned) w →
      wp E ok (closeFtpClient nData nc >>= fun r => .ret (r.2, none))
        (fun r w => DataPost J New owned nControl mode typ.dataDir r w ∧
          (r.2.isSome → r.1.response.first = 49)) w := by
    intro nData nc w hsame hJ
    refine (closeFtpClient_spec (hsame.rules hr) nData (hsame.dir_eq.trans hdir) hJ).bind ?_
    rintro ⟨_, nc'⟩ w ⟨hsame', hJ⟩
    exact wp_ret.mpr ⟨⟨hsame.trans hsame', hJ⟩, by simp⟩
  rw [accessFtpClient]
  split
  · exact (hr.report _ hJ).bind fun _ _ h => wp_ret.mpr ⟨⟨h.2, h.1⟩, by simp⟩
  refine (hr.sendCommand _ _ hJ).bind ?_
  rintro ⟨rv, nc⟩ w ⟨hJ, hsame, -⟩
  dsimp only at hsame ⊢
  -- The transfer type was refused.
  split
  · exact wp_ret.mpr ⟨⟨hsame, hJ⟩, by simp⟩
  cases hcmd : typ.command with
  | none =>
    exact ((hsame.rules hr).report _ hJ).bind fun _ _ h =>
      wp_ret.mpr ⟨⟨hsame.trans h.2, h.1⟩, by simp⟩
  | some command =>
    obtain ⟨verb, dir⟩ := command
    obtain rfl := Typ.command_dir hcmd
    dsimp only
    cases transferCommand verb path with
    | none => exact wp_ret.mpr ⟨⟨hsame, hJ⟩, by simp⟩
    | some cmd =>
      refine (openPort_spec (hsame.rules hr) mode typ.dataDir hJ).bind ?_
      rintro ⟨nc', nData⟩ w ⟨hsame', hpost⟩
      have hnew := newData_same hsame
      replace hsame := hsame.trans hsame'
      cases nData with
      | none => exact wp_ret.mpr ⟨⟨hsame, hpost⟩, by simp⟩
      | some nData =>
        obtain ⟨hJ, fd, buf, rfl, hmode, hfd⟩ := hpost
        have hopened : Opened New nControl mode typ.dataDir (newData nc fd buf typ.dataDir) :=
          ⟨fd, buf, hnew .., hmode, hfd⟩
        refine ((hsame.rules hr).sendCommand _ _ hJ).bind ?_
        rintro ⟨rv, nc''⟩ w ⟨hJ, hsame'', hfirst⟩
        replace hsame := hsame.trans hsame''
        dsimp only at hsame ⊢
        split
        · exact hclose _ _ w hsame hJ
        -- An accepted transfer answers with 1, and nothing is read between this reply and the return.
        next hrv =>
        have hfirst : nc''.response.first = 49 := (hfirst.resolve_left hrv).2
        split
        · exact wp_ret.mpr ⟨⟨hsame, hJ, hopened⟩, fun _ => hfirst⟩
        refine (acceptConnection_spec (hsame.rules hr) _ (hsame.dir_eq.trans hdir) hJ).bind ?_
        rintro ⟨rv, nData, nc₃⟩ w ⟨hsame₃, hJ, haccepted⟩
        dsimp only at hsame₃ haccepted ⊢
        split
        · exact hclose _ _ w (hsame.trans hsame₃) hJ
        · next hrv =>
          obtain ⟨rfl, fd', rfl, hfd'⟩ := haccepted.resolve_left hrv
          refine wp_ret.mpr ⟨⟨hsame, hJ, fd', buf, ?_, hmode, hfd'⟩, fun _ => hfirst⟩
          exact hnew fd' buf typ.dataDir

/-! ## Transfers and commands -/

section

variable {T : Bytes → Prop} (hr : SocketRules E ok nControl.handle J New Listens)
  (hdata : ∀ owned fd, DataKeeps E ok (J owned) T fd) (hfile : ∀ owned, FileKeeps E ok (J owned))
  (hcopy : ∀ owned, CopyKeeps E ok (J owned))

include hr hdata hfile hcopy in
theorem xfer_spec (localfile path : Option Bytes) (typ : Typ) (mode : Mode)
    (hdir : nControl.dir = .control) (hJ : J owned w) :
    wp E ok (xfer localfile path nControl typ mode)
      (fun r w => nControl.Same r.2 ∧ J owned w) w := by
  -- From here on the local file is open or is not needed.
  have hopened : ∀ localfile file w, J owned w →
      wp E ok (xferOpened localfile file path nControl typ mode)
        (fun e w => nControl.Same e.nControl ∧ J owned w) w := by
    intro localfile file w hJ
    rw [xferOpened]
    refine (accessFtpClient_spec hr path typ mode hdir hJ).bind ?_
    rintro ⟨nc, nData⟩ w ⟨⟨hsame, hpost⟩, -⟩
    cases nData with
    | none =>
      exact (xferDiscard_frame localfile file typ (hfile _) hpost).bind fun _ _ hJ =>
        wp_ret.mpr ⟨hsame, hJ⟩
    | some nData =>
      obtain ⟨hJ, -⟩ := hpost
      refine (xferData_frame file typ nc (hdata _ _) (hcopy _) hJ).bind ?_
      rintro ⟨rv, nData', nc'⟩ w ⟨hJ, hcounted, hnoted⟩
      replace hsame : nControl.Same nc' := hsame.trans hnoted.same
      refine (xferClose_frame localfile file typ rv (hfile _) hJ).bind fun _ w hJ => ?_
      rw [← hcounted.handle_eq] at hJ
      refine (closeFtpClient_spec (hsame.rules hr) nData' (hsame.dir_eq.trans hdir) hJ).bind ?_
      rintro ⟨_, nc''⟩ w ⟨hsame', hJ⟩
      exact wp_ret.mpr ⟨hsame.trans hsame', hJ⟩
  rw [xfer]
  refine wp.bind (Q := fun e w => nControl.Same e.nControl ∧ J owned w) ?_
    fun _ _ h => wp_ret.mpr h
  rw [xferEnd.eq_def]
  -- Without a name the source reads or writes the standard streams.
  cases localfile with
  | none => exact hopened _ _ w hJ
  | some name =>
    refine ((hfile owned).fopen _ _).bind hJ fun r w hJ _ => ?_
    cases r with
    | error text => exact wp_ret.mpr ⟨(NetBuf.Same.refl _).respond _, hJ⟩
    | ok u => exact hopened _ _ w hJ

end

/-- `R`, of the control connection and the world, is kept when a command line of `P` is sent and its
reply read. -/
structure SendKeeps (E : Env Op Op.Res W) (ok : Stop Op → W → Prop) (R : NetBuf → W → Prop)
    (P : Bytes → Prop) : Prop where
  send : ∀ cmd expresp nc w, P cmd → R nc w →
    wp E ok (sendCommand cmd expresp nc) (fun r w => R r.2 w) w
  fault : ∀ nc w, R nc w → ok .fault w

/-- The command lines that a command may send. -/
def Command.lines : Command → List Bytes
  | login user pass => [ascii "USER " ++ user, ascii "PASS " ++ pass]
  | site cmd => [ascii "SITE " ++ cmd]
  | pwd _ _ => [ascii "PWD"]
  | changeDir path => [ascii "CWD " ++ path]
  | changeDirUp => [ascii "CDUP"]
  | makeDir path => [ascii "MKD " ++ path]
  | removeDir path => [ascii "RMD " ++ path]
  | deleteData fnm => [ascii "DELE " ++ fnm]
  | rename src dst => [ascii "RNFR " ++ src, ascii "RNTO " ++ dst]
  | fileSize path _ mode => [typeCommand mode, ascii "SIZE " ++ path]
  | sysType _ _ => [ascii "SYST"]
  | modDate _ path _ => [ascii "MDTM " ++ path]

section

variable {R : NetBuf → W → Prop} {P : Bytes → Prop} {α : Type} (hs : SendKeeps E ok R P)

include hs

theorem SendKeeps.verb (verb : Bytes) (slack : Nat) (arg : Bytes) (hP : P (verb ++ arg))
    (hR : R nControl w) :
    wp E ok (verbCommand verb slack arg nControl) (fun r w => R r.2 w) w := by
  rw [verbCommand]
  split
  · exact wp_ret.mpr hR
  · exact hs.send _ _ _ _ hP hR

/-- A part of the response that a command needs. -/
theorem SendKeeps.ofOption {o : Option α} {β : Type} {f : α → Client β} {Q : β → W → Prop}
    (hR : R nControl w) (hf : ∀ a, wp E ok (f a) Q w) : wp E ok (Prog.ofOption o >>= f) Q w :=
  wp_bind.mpr (wp_ofOption.mpr ⟨fun _ => hs.fault _ _ hR, fun a _ => hf a⟩)

theorem loginFtpClient_keeps {user pass : Bytes} (huser : P (ascii "USER " ++ user))
    (hpass : P (ascii "PASS " ++ pass)) (hR : R nControl w) :
    wp E ok (loginFtpClient user pass nControl) (fun r w => R r.2 w) w := by
  rw [loginFtpClient]
  split
  · exact wp_ret.mpr hR
  refine (hs.send _ _ _ _ huser hR).bind fun ⟨rv, nc⟩ w hR => ?_
  dsimp only at hR ⊢
  split
  · split
    · exact wp_ret.mpr hR
    · exact wp_ret.mpr hR
  · exact hs.send _ _ _ _ hpass hR

theorem renameFtpClient_keeps {src dst : Bytes} (hsrc : P (ascii "RNFR " ++ src))
    (hdst : P (ascii "RNTO " ++ dst)) (hR : R nControl w) :
    wp E ok (renameFtpClient src dst nControl) (fun r w => R r.2 w) w := by
  rw [renameFtpClient]
  split
  · exact wp_ret.mpr hR
  refine (hs.send _ _ _ _ hsrc hR).bind fun ⟨rv, nc⟩ w hR => ?_
  dsimp only at hR ⊢
  split
  · exact wp_ret.mpr hR
  · exact hs.send _ _ _ _ hdst hR

theorem getSysTypeFtpClient_keeps {max : Nat} (buf : Buffer max) (hP : P (ascii "SYST"))
    (hR : R nControl w) :
    wp E ok (getSysTypeFtpClient buf nControl) (fun r w => R r.2.2 w) w := by
  rw [getSysTypeFtpClient]
  refine (hs.send _ _ _ _ hP hR).bind fun ⟨rv, nc⟩ w hR => ?_
  dsimp only at hR ⊢
  split
  · exact wp_ret.mpr hR
  · exact hs.ofOption hR fun text => hs.ofOption hR fun b => wp_ret.mpr hR

theorem pwdFtpClient_keeps {max : Nat} (path : Buffer max) (hP : P (ascii "PWD"))
    (hR : R nControl w) :
    wp E ok (pwdFtpClient path nControl) (fun r w => R r.2.2 w) w := by
  rw [pwdFtpClient]
  refine (hs.send _ _ _ _ hP hR).bind fun ⟨rv, nc⟩ w hR => ?_
  dsimp only at hR ⊢
  split
  · exact wp_ret.mpr hR
  refine hs.ofOption hR fun response => ?_
  split
  · exact wp_ret.mpr hR
  · exact hs.ofOption hR fun text => hs.ofOption hR fun b => wp_ret.mpr hR

theorem getModDateFtpClient_keeps {max : Nat} {path : Bytes} (dt : Buffer max)
    (hP : P (ascii "MDTM " ++ path)) (hR : R nControl w) :
    wp E ok (getModDateFtpClient path dt nControl) (fun r w => R r.2.2 w) w := by
  rw [getModDateFtpClient]
  split
  · exact wp_ret.mpr hR
  refine (hs.send _ _ _ _ hP hR).bind fun ⟨rv, nc⟩ w hR => ?_
  dsimp only at hR ⊢
  split
  · exact wp_ret.mpr hR
  · exact hs.ofOption hR fun b => wp_ret.mpr hR

theorem getFileSizeFtpClient_keeps {path : Bytes} (size : UInt32) {mode : UInt8}
    (htype : P (typeCommand mode)) (hsize : P (ascii "SIZE " ++ path)) (hR : R nControl w) :
    wp E ok (getFileSizeFtpClient path size mode nControl) (fun r w => R r.2.2 w) w := by
  rw [getFileSizeFtpClient]
  split
  · exact wp_ret.mpr hR
  refine (hs.send _ _ _ _ htype hR).bind fun ⟨rv, nc⟩ w hR => ?_
  dsimp only at hR ⊢
  split
  · exact wp_ret.mpr hR
  refine (hs.send _ _ _ _ hsize hR).bind fun ⟨rv, nc⟩ w hR => ?_
  dsimp only at hR ⊢
  split
  · exact wp_ret.mpr hR
  refine hs.ofOption hR fun response => ?_
  split
  · exact wp_ret.mpr hR
  · exact wp_ret.mpr hR

/-- A command keeps what its command lines keep. -/
theorem Command.run_keeps (c : Command) (hP : ∀ line ∈ c.lines, P line) (hR : R nControl w) :
    wp E ok (c.run nControl) R w := by
  have hret : ∀ {α : Type} {p : Client α} {f : α → NetBuf}, wp E ok p (fun r w => R (f r) w) w →
      wp E ok (p >>= fun r => pure (f r)) R w := fun h => h.bind fun _ _ hR => wp_ret.mpr hR
  cases c with
  | login user pass =>
    exact hret (loginFtpClient_keeps hs (hP _ (by simp [lines])) (hP _ (by simp [lines])) hR)
  | site cmd => exact hret (hs.verb _ _ _ (hP _ (by simp [lines])) hR)
  | pwd _ path => exact hret (pwdFtpClient_keeps hs path (hP _ (by simp [lines])) hR)
  | changeDir path => exact hret (hs.verb _ _ _ (hP _ (by simp [lines])) hR)
  | changeDirUp => exact hret (hs.send _ _ _ _ (hP _ (by simp [lines])) hR)
  | makeDir path => exact hret (hs.verb _ _ _ (hP _ (by simp [lines])) hR)
  | removeDir path => exact hret (hs.verb _ _ _ (hP _ (by simp [lines])) hR)
  | deleteData fnm => exact hret (hs.verb _ _ _ (hP _ (by simp [lines])) hR)
  | rename src dst =>
    exact hret (renameFtpClient_keeps hs (hP _ (by simp [lines])) (hP _ (by simp [lines])) hR)
  | fileSize path size mode =>
    exact hret (getFileSizeFtpClient_keeps hs size (hP _ (by simp [lines])) (hP _ (by simp [lines])) hR)
  | sysType _ buf => exact hret (getSysTypeFtpClient_keeps hs buf (hP _ (by simp [lines])) hR)
  | modDate _ path dt => exact hret (getModDateFtpClient_keeps hs dt (hP _ (by simp [lines])) hR)

end

/-- The calls with which data connections are opened, accepted and closed. -/
def Op.isData : Op → Bool
  | .socket | .connect _ _ | .bind _ _ | .listen _ | .getsockname _ | .accept _ | .selectAccept _ _
  | .shutdown _ | .closesocket _ | .malloc _ | .calloc | .uninit => true
  | _ => false

/-- What a command line of `P` keeps is kept by the calls that open data connections, too, and does not
depend on `response`. -/
structure OpenKeeps (E : Env Op Op.Res W) (ok : Stop Op → W → Prop) (R : NetBuf → W → Prop)
    (P : Bytes → Prop) : Prop extends SendKeeps E ok R P where
  call : ∀ nc op, op.isData → Keeps E ok (R nc) op
  respond : ∀ nc w response, R nc w → R { nc with response } w

section

variable {R : NetBuf → W → Prop} {P : Bytes → Prop} (ho : OpenKeeps E ok R P)

include ho

theorem OpenKeeps.report (text : Bytes) (hR : R nControl w) :
    wp E ok (nControl.report text) (fun nc w => R nc w) w :=
  wp_bind.mpr (wp_ofOption.mpr ⟨fun _ => ho.fault _ _ hR, fun _ _ => wp_ret.mpr (ho.respond _ _ _ hR)⟩)

theorem portAddress_keeps (hpasv : P (ascii "PASV")) (hR : R nControl w) :
    wp E ok (portAddress nControl) (fun r w => R r.1 w) w := by
  rw [portAddress]
  split
  · refine (ho.send _ _ _ _ hpasv hR).bind fun ⟨rv, nc⟩ w hR => ?_
    dsimp only at hR ⊢
    split
    · exact wp_ret.mpr hR
    refine ho.ofOption hR fun text => ?_
    split
    · exact wp_ret.mpr hR
    · exact (ho.call _ _ rfl).bind hR fun _ _ hR _ => wp_ret.mpr hR
  · exact (ho.call _ _ rfl).bind hR fun _ _ hR _ => wp_ret.mpr hR

theorem portConnect_keeps (sData : Nat) (sa : SockAddr) (hport : ∀ sa, P (portCommand sa))
    (hR : R nControl w) :
    wp E ok (portConnect nControl sData sa) (fun r w => R r.1 w) w := by
  -- The relation is kept by every call, so the order of the calls does not matter here.
  have hclose : ∀ nc w, R nc w →
      wp E ok (do Sys.closesocket sData; return (nc, false)) (fun r w => R r.1 w) w :=
    fun nc w hR => (ho.call _ _ rfl).bind hR fun _ _ hR _ => wp_ret.mpr hR
  rw [portConnect]
  split
  · refine (ho.call _ _ rfl).bind hR fun connected w hR _ => ?_
    split
    · exact wp_ret.mpr hR
    · exact hclose _ _ hR
  refine (ho.call _ _ rfl).bind hR fun bound w hR _ => ?_
  dsimp only
  split
  · exact hclose _ _ hR
  refine (ho.call _ _ rfl).bind hR fun listening w hR _ => ?_
  split
  · exact hclose _ _ hR
  refine (ho.call _ _ rfl).bind hR fun name w hR _ => ?_
  cases name with
  | none => exact wp_ret.mpr hR
  | some sa =>
    refine (ho.send _ _ _ _ (hport sa) hR).bind fun ⟨rv, nc⟩ w hR => ?_
    dsimp only at hR ⊢
    split
    · exact hclose _ _ hR
    · exact wp_ret.mpr hR

theorem portData_keeps (sData : Nat) (mode : Mode) (dir : Dir) (hR : R nControl w) :
    wp E ok (portData nControl sData mode dir) (fun _ w => R nControl w) w := by
  have hclose : ∀ w, R nControl w →
      wp E ok (do Sys.closesocket sData; return (none : Option NetBuf)) (fun _ w => R nControl w) w :=
    fun w hR => (ho.call _ _ rfl).bind hR fun _ _ hR _ => wp_ret.mpr hR
  rw [portData]
  refine (ho.call _ _ rfl).bind hR fun allocated w hR _ => ?_
  split
  · exact hclose _ hR
  split
  · refine (ho.call _ _ rfl).bind hR fun buf w hR _ => ?_
    cases buf with
    | none => exact hclose _ hR
    | some buf => exact wp_ret.mpr hR
  · exact wp_ret.mpr hR

theorem openPort_keeps (mode : Mode) (dir : Dir) (hpasv : P (ascii "PASV")) (hport : ∀ sa, P (portCommand sa))
    (hR : R nControl w) :
    wp E ok (openPort nControl mode dir) (fun r w => R r.1 w) w := by
  rw [openPort]
  split
  · exact wp_ret.mpr hR
  split
  · exact (ho.report _ hR).bind fun _ _ hR => wp_ret.mpr hR
  split
  · exact (ho.report _ hR).bind fun _ _ hR => wp_ret.mpr hR
  refine (portAddress_keeps ho hpasv hR).bind fun ⟨nc, sa⟩ w hR => ?_
  cases sa with
  | none => exact wp_ret.mpr hR
  | some sa =>
    refine (ho.call _ _ rfl).bind hR fun sData w hR _ => ?_
    cases sData with
    | none => exact wp_ret.mpr hR
    | some sData =>
      refine (portConnect_keeps ho sData sa hport hR).bind fun ⟨nc, connected⟩ w hR => ?_
      cases connected with
      | false => exact wp_ret.mpr hR
      | true => exact (portData_keeps ho sData mode dir hR).bind fun _ _ hR => wp_ret.mpr hR

/-- There is no data connection in a mode that is neither of the two. -/
theorem openPort_refuses {mode : Mode} (dir : Dir) (hmode : mode ≠ .ascii ∧ mode ≠ .image)
    (hR : R nControl w) :
    wp E ok (openPort nControl mode dir) (fun r w => R r.1 w ∧ r.2 = none) w := by
  rw [openPort]
  split
  · exact wp_ret.mpr ⟨hR, rfl⟩
  split
  · exact (ho.report _ hR).bind fun _ _ hR => wp_ret.mpr ⟨hR, rfl⟩
  exact (ho.report _ hR).bind fun _ _ hR => wp_ret.mpr ⟨hR, rfl⟩

variable (hreply : ∀ c nc w, R nc w → wp E ok (readResponse c nc) (fun r w => R r.2 w) w)

include hreply

theorem closeFtpClient_keeps (nData : NetBuf) (hR : R nControl w) :
    wp E ok (closeFtpClient nData nControl) (fun r w => R r.2 w) w := by
  rw [closeFtpClient]
  refine (ho.call _ _ rfl).bind hR fun _ w hR _ => (ho.call _ _ rfl).bind hR fun _ w hR _ => ?_
  split
  · exact hreply _ _ _ hR
  · exact wp_ret.mpr hR

theorem acceptConnection_keeps (nData : NetBuf) (hR : R nControl w) :
    wp E ok (acceptConnection nData nControl) (fun r w => R r.2.2 w) w := by
  have hclose : ∀ (rv : Int) (nData' : NetBuf) nc w, R nc w →
      wp E ok (do Sys.closesocket nData.handle; return (rv, nData', nc)) (fun r w => R r.2.2 w) w :=
    fun rv nData' nc w hR => (ho.call _ _ rfl).bind hR fun _ _ hR _ => wp_ret.mpr hR
  rw [acceptConnection]
  refine (ho.call _ _ rfl).bind hR fun r w hR _ => ?_
  match r with
  | .error text => exact hclose _ _ _ _ (ho.respond _ _ _ hR)
  | .timeout => exact (ho.report _ hR).bind fun nc w hR => hclose _ _ _ _ hR
  | .ready true control =>
    refine (ho.call _ _ rfl).bind hR fun r w hR _ => (ho.call _ _ rfl).bind hR fun _ w hR _ => ?_
    match r with
    | (some (fd + 1), text) => exact wp_ret.mpr hR
    | (some 0, text) => exact wp_ret.mpr (ho.respond _ _ _ hR)
    | (none, text) => exact wp_ret.mpr (ho.respond _ _ _ hR)
  | .ready false true =>
    refine (ho.call _ _ rfl).bind hR fun _ w hR _ => ?_
    exact (hreply _ _ _ hR).bind fun _ _ hR => wp_ret.mpr hR
  | .ready false false => exact wp_ret.mpr hR

/-- `accessFtpClient` keeps what its command lines keep, where it comes to them. -/
theorem accessFtpClient_keeps (path : Option Bytes) (typ : Typ) (mode : Mode)
    (htype : P (typeCommand mode.char))
    (htransfer : ∀ verb dir cmd, typ.command = some (verb, dir) → transferCommand verb path = some cmd →
      (mode = .ascii ∨ mode = .image) → P (ascii "PASV") ∧ (∀ sa, P (portCommand sa)) ∧ P cmd)
    (hR : R nControl w) :
    wp E ok (accessFtpClient path typ mode nControl) (fun r w => R r.1 w) w := by
  have hclose : ∀ nData nc w, R nc w →
      wp E ok (closeFtpClient nData nc >>= fun r => .ret (r.2, (none : Option NetBuf)))
        (fun r w => R r.1 w) w :=
    fun nData nc w hR => (closeFtpClient_keeps ho hreply nData hR).bind fun _ _ hR => wp_ret.mpr hR
  rw [accessFtpClient]
  split
  · exact (ho.report _ hR).bind fun _ _ hR => wp_ret.mpr hR
  refine (ho.send _ _ _ _ htype hR).bind ?_
  rintro ⟨rv, nc⟩ w hR
  dsimp only at hR ⊢
  split
  · exact wp_ret.mpr hR
  cases hcmd : typ.command with
  | none => exact (ho.report _ hR).bind fun _ _ hR => wp_ret.mpr hR
  | some command =>
    obtain ⟨verb, dir⟩ := command
    dsimp only
    cases hpath : transferCommand verb path with
    | none => exact wp_ret.mpr hR
    | some cmd =>
      -- A mode the source does not know is refused in `openPort`, before `PASV` or `PORT`.
      by_cases hmode : mode = .ascii ∨ mode = .image
      · obtain ⟨hpasv, hport, hP⟩ := htransfer _ _ _ hcmd hpath hmode
        refine (openPort_keeps ho mode dir hpasv hport hR).bind ?_
        rintro ⟨nc, nData⟩ w hR
        cases nData with
        | none => exact wp_ret.mpr hR
        | some nData =>
          refine (ho.send _ _ _ _ hP hR).bind ?_
          rintro ⟨rv, nc⟩ w hR
          dsimp only at hR ⊢
          split
          · exact hclose _ _ _ hR
          split
          · exact wp_ret.mpr hR
          refine (acceptConnection_keeps ho hreply nData hR).bind ?_
          rintro ⟨rv, nData, nc⟩ w hR
          dsimp only at hR ⊢
          split
          · exact hclose _ _ _ hR
          · exact wp_ret.mpr hR
      · rw [not_or] at hmode
        refine (openPort_refuses ho dir hmode hR).bind ?_
        rintro ⟨nc, nData⟩ w ⟨hR, rfl⟩
        exact wp_ret.mpr hR

end

/-- Commands leave the descriptors as they were, and the same control connection. -/
theorem SocketRules.sendKeeps (hr : SocketRules E ok nControl.handle J New Listens)
    (owned : Multiset Nat) :
    SendKeeps E ok (fun nc w => nControl.Same nc ∧ J owned w) (fun _ => True) where
  send cmd expresp _ _ _ h := ((h.1.rules hr).sendCommand cmd expresp h.2).mono fun _ _ h' =>
    ⟨h.1.trans h'.2.1, h'.1⟩
  fault _ _ h := hr.fault _ _ h.2

/-! ## The control connection -/

theorem connectTo_spec (hr : ∀ control, SocketRules E ok control J New Listens) (sa : SockAddr)
    (hJ : J owned w) :
    wp E ok (connectTo sa)
      (fun r w => match r with
        | none => J owned w
        | some nControl => J (nControl.handle ::ₘ owned) w ∧ nControl.dir = .control) w := by
  rw [connectTo]
  refine wp_bind.mpr (wp_perform.mpr ⟨(hr 0).socket_asks _ _ hJ, fun sControl w' hsocket => ?_⟩)
  cases sControl with
  | none => exact wp_ret.mpr ((hr 0).refused _ _ _ hJ hsocket)
  | some sControl =>
    have hr := hr sControl
    obtain ⟨hJ, -⟩ := hr.opened _ _ _ _ hJ hsocket
    refine (hr.setup _ _ rfl).bind hJ fun connected w hJ _ => ?_
    dsimp only
    -- Every failure from here on closes the socket.
    split
    · exact (hr.close hJ).bind fun _ _ hJ => wp_ret.mpr hJ
    refine (hr.setup _ _ rfl).bind hJ fun allocated w hJ _ => ?_
    split
    · exact (hr.close hJ).bind fun _ _ hJ => wp_ret.mpr hJ
    refine (hr.setup _ _ rfl).bind hJ fun buf w hJ _ => ?_
    cases buf with
    | none => exact (hr.close hJ).bind fun _ _ hJ => wp_ret.mpr hJ
    | some buf =>
      have hr : SocketRules E ok (newControl sControl buf).handle J New Listens := hr
      have hreply := hr.readResponse 50 rfl hJ
      refine hreply.bind ?_
      rintro ⟨rv, nc⟩ w ⟨hJ, hsame, -⟩
      dsimp only at hsame ⊢
      split
      · exact (hr.close hJ).bind fun _ _ hJ => wp_ret.mpr hJ
      · refine wp_ret.mpr ⟨?_, hsame.dir_eq⟩
        rw [hsame.handle_eq]
        exact hJ

theorem connectFtpClient_spec (hr : ∀ control, SocketRules E ok control J New Listens) (host : Bytes)
    (port : UInt16) (hJ : J owned w) :
    wp E ok (connectFtpClient host port)
      (fun r w => match r with
        | none => J owned w
        | some nControl => J (nControl.handle ::ₘ owned) w ∧ nControl.dir = .control) w := by
  rw [connectFtpClient]
  refine ((hr 0).setup _ _ rfl).bind hJ fun addr w hJ _ => ?_
  split
  · refine ((hr 0).setup _ _ rfl).bind hJ fun addr w hJ _ => ?_
    cases addr with
    | none => exact wp_ret.mpr hJ
    | some addr => exact connectTo_spec hr _ hJ
  · exact connectTo_spec hr _ hJ

theorem quitFtpClient_spec (hr : SocketRules E ok nControl.handle J New Listens)
    (hdir : nControl.dir = .control) (hJ : J (nControl.handle ::ₘ owned) w) :
    wp E ok (quitFtpClient nControl) (fun _ w => J owned w) w := by
  rw [quitFtpClient, if_neg (not_not.mpr hdir)]
  refine (hr.sendCommand _ _ hJ).bind ?_
  rintro ⟨rv, nc⟩ w ⟨hJ, hsame, -⟩
  rw [← hsame.handle_eq] at hJ
  exact (hsame.rules hr).close hJ

end Ftp
