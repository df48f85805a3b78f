import BaseUtilities.Ftp.Arrays
import BaseUtilities.Ftp.OneReply
import BaseUtilities.Ftp.Sockets

/-!
# Command lines on the wire

What the operations that build commands put on the control connection: each call of `sendCommand` sends one
command line, whole and before it waits for the reply, or sends nothing and returns 0.  The arguments are
not looked at, and a `send` that takes a part of a line is taken for one that takes all of it; the
operations with neither are the ones that are framed.
-/

open Effects Mem

namespace Ftp

/-! ## Operations -/

/-- The operations that build a command from what their caller passes. -/
inductive Building where
  | site (cmd : CString)
  | fileSize (path : CString) (size : UInt32) (mode : UInt8)
  | modDate (max : Nat) (path : CString) (dt : Buffer max)
  | login (user pass : CString)
  | changeDir (path : CString)
  | makeDir (path : CString)
  | removeDir (path : CString)
  | deleteData (fnm : CString)
  | rename (src dst : CString)
  | access (path : Option CString) (typ : Typ) (mode : Mode)

namespace Building

def run (stack : Local.Stack) (nControl : NetBuf) : Building → Local.Call NetBuf
  | site cmd => do return (← Local.siteFtpClient stack cmd nControl).2
  | fileSize path size mode => do return (← Local.getFileSizeFtpClient stack path size mode nControl).2.2
  | modDate _ path dt => do return (← Local.getModDateFtpClient stack path dt nControl).2.2
  | login user pass => do return (← Local.loginFtpClient stack user pass nControl).2
  | changeDir path => do return (← Local.changeDirFtpClient stack path nControl).2
  | makeDir path => do return (← Local.makeDirFtpClient stack path nControl).2
  | removeDir path => do return (← Local.removeDirFtpClient stack path nControl).2
  | deleteData fnm => do return (← Local.deleteDataFtpClient stack fnm nControl).2
  | rename src dst => do return (← Local.renameFtpClient stack src dst nControl).2
  | access path typ mode => do return (← Local.accessFtpClient stack path typ mode nControl).1

/-- The operation with strings for its local arrays. -/
def onStrings (nControl : NetBuf) : Building → Client NetBuf
  | site cmd => (Command.site cmd).run nControl
  | fileSize path size mode => (Command.fileSize path size mode).run nControl
  | modDate max path dt => (Command.modDate max path dt).run nControl
  | login user pass => (Command.login user pass).run nControl
  | changeDir path => (Command.changeDir path).run nControl
  | makeDir path => (Command.makeDir path).run nControl
  | removeDir path => (Command.removeDir path).run nControl
  | deleteData fnm => (Command.deleteData fnm).run nControl
  | rename src dst => (Command.rename src dst).run nControl
  | access path typ mode => do return (← accessFtpClient (path.map Subtype.val) typ mode nControl).1

theorem run_eq (stack : Local.Stack) (nControl : NetBuf) (o : Building) :
    o.run stack nControl = monadLift (o.onStrings nControl) := by
  have hret : ∀ {α : Type} {p : Local.Call α} {q : Client α} (f : α → NetBuf), p = monadLift q →
      (do return f (← p)) = (monadLift (do return f (← q) : Client NetBuf) : Local.Call NetBuf) := by
    intro α p q f h
    rw [h, monadLift_bind]
    rfl
  have hverb := fun verb slack hzero hslack arg =>
    hret Prod.snd (Local.verbCommand_eq stack verb slack hzero hslack arg nControl)
  cases o with
  | site cmd => exact hverb _ _ (by decide) (by decide) cmd
  | changeDir path => exact hverb _ _ (by decide) (by decide) path
  | makeDir path => exact hverb _ _ (by decide) (by decide) path
  | removeDir path => exact hverb _ _ (by decide) (by decide) path
  | deleteData fnm => exact hverb _ _ (by decide) (by decide) fnm
  | fileSize path size mode =>
    exact hret (·.2.2) (Local.getFileSizeFtpClient_eq stack path size mode nControl)
  | modDate max path dt => exact hret (·.2.2) (Local.getModDateFtpClient_eq stack path dt nControl)
  | login user pass => exact hret Prod.snd (Local.loginFtpClient_eq stack user pass nControl)
  | rename src dst => exact hret Prod.snd (Local.renameFtpClient_eq stack src dst nControl)
  | access path typ mode => exact hret Prod.fst (Local.accessFtpClient_eq stack path typ mode nControl)

/-- The command lines of an operation whose arguments have a length that it accepts. -/
def Line : Building → Bytes → Prop
  | site cmd, line => line = ascii "SITE " ++ cmd
  | fileSize path _ mode, line =>
    path.1.length + 7 ≤ TEMP_BUFFER_SIZE ∧ (line = typeCommand mode ∨ line = ascii "SIZE " ++ path)
  | modDate _ path _, line => line = ascii "MDTM " ++ path
  | login user pass, line =>
    (user.1.length + 7 ≤ 64 ∧ pass.1.length + 7 ≤ 64) ∧
      (line = ascii "USER " ++ user ∨ line = ascii "PASS " ++ pass)
  | changeDir path, line => line = ascii "CWD " ++ path
  | makeDir path, line => line = ascii "MKD " ++ path
  | removeDir path, line => line = ascii "RMD " ++ path
  | deleteData fnm, line => line = ascii "DELE " ++ fnm
  | rename src dst, line =>
    -- `sendCommand` takes less than `renameFtpClient` accepts
    (src.1.length + 8 ≤ TEMP_BUFFER_SIZE ∧ dst.1.length + 7 ≤ TEMP_BUFFER_SIZE) ∧
      (line = ascii "RNFR " ++ src ∨ line = ascii "RNTO " ++ dst)
  | access path typ mode, line =>
    ¬(path = none ∧ (typ = .fileWrite ∨ typ = .fileRead)) ∧
      (line = typeCommand mode.char ∨
        ∃ verb dir cmd, typ.command = some (verb, dir) ∧
          transferCommand verb (path.map Subtype.val) = some cmd ∧ (mode = .ascii ∨ mode = .image) ∧
          (line = ascii "PASV" ∨ (∃ sa, line = portCommand sa) ∨ line = cmd))

/-- The command lines that an operation can come to send. -/
def Sends (o : Building) (line : Bytes) : Prop := o.Line line ∧ line.length + 3 ≤ TEMP_BUFFER_SIZE

end Building

/-! ## The wire -/

/-- The bytes that a call puts on the connection `fd`. -/
def putOn (fd : Nat) : FtpEvent → Bytes
  | ⟨.send fd' data, some sent⟩ => if fd' = fd then data.take sent.1 else []
  | _ => []

def onWire (fd : Nat) (t : FtpTrace) : Bytes := t.flatMap (putOn fd)

def Op.sendsOn (fd : Nat) : Op → Bool
  | .send fd' _ => fd' = fd
  | _ => false

def Op.waits : Op → Bool
  | .recv _ _ => true
  | _ => false

/-- A call of `send` fails, or takes all of the data, or nothing; `takes data n` says that it may take
the first `n` bytes alone. -/
def Posix (takes : Bytes → Nat → Prop) : FtpEvent → Prop
  | ⟨.send _ data, some sent⟩ => sent.1 = 0 ∨ sent.1 = data.length ∨ takes data sent.1
  | _ => True

/-- A system that keeps a record of the calls. -/
def posix (takes : Bytes → Nat → Prop) : Env Op Op.Res FtpTrace :=
  watching (fun _ e => Posix takes e) fun t e => t ++ [e]

/-- What a call of `sendCommand` has come to with the calls that it has made: nothing is put on the control
connection, it does not wait, and where it returns it returns 0; or it has first put one of `lines` with
CR LF on the connection, whole, and puts nothing else there. -/
inductive Framing (lines : Bytes → Prop) (control : Nat) :
    Outcome Op (Except Local.Overflow (Int × NetBuf)) → FtpTrace → Prop where
  | nothing {out es} : onWire control es = [] → (∀ e ∈ es, e.1.waits = false) →
      (∀ op, out = .stopped (.asking op) → op.waits = false) →
      (∀ r, out = .returned r → ∃ nControl, r = .ok (0, nControl)) → Framing lines control out es
  | line {out es line} : lines line → CR ∉ line → LF ∉ line → onWire control es = [] →
      Framing lines control out
        (⟨.send control (line ++ [CR, LF]), some ⟨(line ++ [CR, LF]).length, Nat.le_refl _⟩⟩ :: es)

/-- A record of calls of `sendCommand` that are framed, and of other calls, none of which sends on the
control connection.  A call of `sendCommand` that is refused is in no record: `sendCommand_refused` says
what it returns. -/
inductive Exchanges (takes : Bytes → Nat → Prop) (stack : Local.Stack) (lines : Bytes → Prop)
    (control : Nat) :
    FtpTrace → Prop where
  | start : Exchanges takes stack lines control []
  | other {t e} : Exchanges takes stack lines control t → e.1.sendsOn control = false →
      Exchanges takes stack lines control (t ++ [e])
  | sendCommand {t es cmd expresp nControl out} : Exchanges takes stack lines control t →
      nControl.handle = control →
      Exec (posix takes) (Local.sendCommand stack cmd expresp nControl).run t out (t ++ es) →
      Framing lines control out es → Exchanges takes stack lines control (t ++ es)

/-- No run of the operation leaves a local array, and at every point of a run each call of `sendCommand` so
far is framed. -/
def Building.Framed (takes : Bytes → Nat → Prop) (o : Building) : Prop :=
  ∀ stack nControl,
    wp (posix takes) (fun _ t => Exchanges takes stack o.Sends nControl.handle t)
      (o.run stack nControl).run
      (fun r t => r ≠ .error .overflow ∧ Exchanges takes stack o.Sends nControl.handle t) []

/-! ## Calls of `sendCommand` -/

section

variable {takes : Bytes → Nat → Prop} {stack : Local.Stack} {lines : Bytes → Prop} {control : Nat}
  {nControl : NetBuf} {t : FtpTrace}

theorem onWire_append (fd : Nat) (t t' : FtpTrace) : onWire fd (t ++ t') = onWire fd t ++ onWire fd t' :=
  List.flatMap_append

/-- Waiting for a reply puts nothing on the wire. -/
theorem readResponse_wire (c : UInt8) (hdir : nControl.dir = .control) (fd : Nat) (t : FtpTrace) :
    wp (posix takes) (fun _ t' => ∃ es, t' = t ++ es ∧ onWire fd es = []) (readResponse c nControl)
      (fun r t' => (∃ es, t' = t ++ es ∧ onWire fd es = []) ∧ nControl.Same r.2) t := by
  have hrecv : ∀ len, Keeps (posix takes) (fun _ t' => ∃ es, t' = t ++ es ∧ onWire fd es = [])
      (fun t' => ∃ es, t' = t ++ es ∧ onWire fd es = []) (.recv nControl.handle len) := by
    intro len
    refine ⟨fun _ h => h, fun t' r t'' h hr => ?_⟩
    obtain ⟨es, rfl, hes⟩ := h
    obtain ⟨-, rfl⟩ := hr
    refine ⟨es ++ [⟨.recv nControl.handle len, r⟩], List.append_assoc .., ?_⟩
    rw [onWire_append, hes]
    rfl
  refine (readResponse_frame c hdir hrecv (fun _ h => h) ⟨[], (List.append_nil t).symm, rfl⟩).mono ?_
  intro r t' h
  exact ⟨h.1, h.2.1⟩

/-- A string without a line end in it, on a system that takes it as a line whole or not at all. -/
def Framable (takes : Bytes → Nat → Prop) (line : Bytes) : Prop :=
  CR ∉ line ∧ LF ∉ line ∧
    ∀ sent, takes (line ++ [CR, LF]) sent → sent = 0 ∨ (line ++ [CR, LF]).length ≤ sent

/-- What is not a control connection, and a command without room for its line end, is refused. -/
theorem sendCommand_refused {cmd : Bytes} (expresp : UInt8)
    (h : nControl.dir ≠ .control ∨ cmd.length + 3 > TEMP_BUFFER_SIZE) :
    sendCommand cmd expresp nControl = .ret (0, nControl) := by
  unfold sendCommand
  by_cases hdir : nControl.dir ≠ .control
  · rw [if_pos hdir]
    rfl
  rw [if_neg hdir, if_pos (h.resolve_left hdir)]
  rfl

/-- A call with a good line is framed. -/
theorem sendCommand_framing (expresp : UInt8) {cmd : Bytes}
    (hcmd : cmd.length + 3 ≤ TEMP_BUFFER_SIZE → lines cmd ∧ Framable takes cmd) (t : FtpTrace) :
    wp (posix takes) (fun s t' => ∃ es, t' = t ++ es ∧ Framing lines nControl.handle (.stopped s) es)
      (sendCommand cmd expresp nControl)
      (fun r t' => nControl.Same r.2 ∧
        ∃ es, t' = t ++ es ∧ Framing lines nControl.handle (.returned (.ok r)) es) t := by
  -- A call that sends nothing and returns at once is framed by the empty record.
  have hrefused : ∀ es, onWire nControl.handle es = [] → (∀ e ∈ es, e.1.waits = false) →
      Framing lines nControl.handle (.returned (.ok (0, nControl))) es := by
    intro es hwire hwaits
    refine .nothing hwire hwaits (fun op hop => ?_) (fun r hr => ⟨nControl, ?_⟩)
    · cases hop
    · exact (Outcome.returned.inj hr).symm
  by_cases hrefuse : nControl.dir ≠ .control ∨ cmd.length + 3 > TEMP_BUFFER_SIZE
  · rw [sendCommand_refused expresp hrefuse]
    exact wp_ret.mpr ⟨.refl _, [], (List.append_nil t).symm, hrefused [] rfl (by simp)⟩
  obtain ⟨hdir, hlong⟩ := not_or.mp hrefuse
  unfold sendCommand
  rw [if_neg hdir, if_neg hlong]
  obtain ⟨hline, hcr, hlf, htakes⟩ := hcmd (Nat.le_of_not_lt hlong)
  refine wp_ask ?_ ?_
  -- While it asks to send, nothing is on the wire yet.
  · refine ⟨[], (List.append_nil t).symm, .nothing rfl (by simp) (fun op hop => ?_) (fun r hr => ?_)⟩
    · cases hop
      rfl
    · cases hr
  intro sent t' hr
  obtain ⟨hposix, rfl⟩ := hr
  cases sent with
  | none => exact wp_ret.mpr ⟨.refl _, _, rfl, hrefused _ rfl (by simp [Op.waits])⟩
  | some sent =>
    dsimp only
    -- Zero bytes taken: the source gives up here, with an empty wire.
    by_cases hzero : sent.1 = 0
    · rw [if_pos hzero]
      refine wp_ret.mpr ⟨.refl _, _, rfl, hrefused _ ?_ (by simp [Op.waits])⟩
      simp [onWire, putOn, hzero]
    · rw [if_neg hzero]
      -- A good line is taken whole or not at all, so what `send` reports is all of it.
      have hwhole : sent.1 = (cmd ++ [CR, LF]).length := by
        rcases hposix with h | h | h
        · exact absurd h hzero
        · exact h
        · exact Nat.le_antisymm sent.2 ((htakes _ h).resolve_left hzero)
      obtain rfl : sent = ⟨(cmd ++ [CR, LF]).length, Nat.le_refl _⟩ := Subtype.ext hwhole
      have hread := @readResponse_wire takes nControl expresp (not_not.mp hdir) nControl.handle
        (t ++ [⟨.send nControl.handle (cmd ++ [CR, LF]), some ⟨_, Nat.le_refl _⟩⟩])
      refine (hread.weaken fun s t' h => ?_).mono fun r t' h => ?_
      · obtain ⟨es, rfl, hes⟩ := h
        rw [List.append_assoc]
        exact ⟨_, rfl, .line hline hcr hlf hes⟩
      · obtain ⟨⟨es, rfl, hes⟩, hsame⟩ := h
        rw [List.append_assoc]
        exact ⟨hsame, _, rfl, .line hline hcr hlf hes⟩

/-- Good lines keep a record framed. -/
theorem exchanges_sendCommand (expresp : UInt8) {cmd : Bytes} (hzero : (0 : UInt8) ∉ cmd)
    (hcmd : cmd.length + 3 ≤ TEMP_BUFFER_SIZE → lines cmd ∧ Framable takes cmd)
    (ht : Exchanges takes stack lines nControl.handle t) :
    wp (posix takes) (fun _ t => Exchanges takes stack lines nControl.handle t)
      (sendCommand cmd expresp nControl)
      (fun r t => nControl.Same r.2 ∧ Exchanges takes stack lines nControl.handle t) t := by
  intro out t' hrun
  have hframing := sendCommand_framing expresp hcmd t out t' hrun
  have hlift := Local.sendCommand_eq stack hzero expresp nControl
  cases out with
  | returned r =>
    obtain ⟨hsame, es, rfl, hframing⟩ := hframing
    have hcall := Local.lift_returned hrun
    rw [← hlift] at hcall
    exact ⟨hsame, ht.sendCommand rfl hcall hframing⟩
  | stopped s =>
    obtain ⟨es, rfl, hframing⟩ := hframing
    have hcall := Local.lift_stopped hrun
    rw [← hlift] at hcall
    exact ht.sendCommand rfl hcall hframing

/-- A call that does not send on the control connection keeps a record framed. -/
theorem exchanges_keeps {op : Op} (hop : op.sendsOn control = false) :
    Keeps (posix takes) (fun _ t => Exchanges takes stack lines control t)
      (Exchanges takes stack lines control) op where
  asks _ h := h
  keeps t r t' h hr := by
    rw [hr.2]
    exact h.other hop

/-- A control connection that `nControl` has become, and a framed record. -/
def InFrame (takes : Bytes → Nat → Prop) (stack : Local.Stack) (lines : Bytes → Prop) (nControl nc : NetBuf)
    (t : FtpTrace) : Prop :=
  nControl.Same nc ∧ Exchanges takes stack lines nControl.handle t

theorem framed_openKeeps (nControl : NetBuf) :
    OpenKeeps (posix takes) (fun _ t => Exchanges takes stack lines nControl.handle t)
      (InFrame takes stack lines nControl)
      (fun cmd => (0 : UInt8) ∉ cmd ∧
        (cmd.length + 3 ≤ TEMP_BUFFER_SIZE → lines cmd ∧ Framable takes cmd)) where
  send cmd expresp nc t hP h := by
    obtain ⟨hsame, ht⟩ := h
    rw [← hsame.handle_eq] at ht ⊢
    refine (exchanges_sendCommand expresp hP.1 hP.2 ht).mono fun r t' h => ⟨hsame.trans h.1, ?_⟩
    rw [← hsame.handle_eq]
    exact h.2
  fault _ _ h := h.2
  call nc op hop := by
    have hsends : op.sendsOn nControl.handle = false := by
      cases op with
      | send fd data => cases hop
      | _ => rfl
    have hkeeps := @exchanges_keeps takes stack lines nControl.handle op hsends
    exact ⟨fun t h => hkeeps.asks t h.2, fun t r t' h hr => ⟨h.1, hkeeps.keeps t r t' h.2 hr⟩⟩
  respond _ _ response h := ⟨h.1.respond response, h.2⟩

theorem framed_reply (hdir : nControl.dir = .control) (c : UInt8) (nc : NetBuf) (t : FtpTrace)
    (h : InFrame takes stack lines nControl nc t) :
    wp (posix takes) (fun _ t => Exchanges takes stack lines nControl.handle t) (readResponse c nc)
      (fun r t => InFrame takes stack lines nControl r.2 t) t := by
  obtain ⟨hsame, ht⟩ := h
  refine (readResponse_frame c (hsame.dir_eq.trans hdir) (fun len => exchanges_keeps rfl)
    (fun _ h => h) ht).mono ?_
  intro r t' h
  exact ⟨hsame.trans h.2.1, h.1⟩

end

/-! ## Operations whose lines are good -/

namespace Building

section

variable {takes : Bytes → Nat → Prop} (stack : Local.Stack) {nControl : NetBuf}

/-- The command lines of an operation are kept framed. -/
theorem line_kept {o : Building} (hgood : ∀ line, o.Sends line → Framable takes line) {line : Bytes}
    (hline : o.Line line) (hzero : (0 : UInt8) ∉ line) :
    (0 : UInt8) ∉ line ∧ (line.length + 3 ≤ TEMP_BUFFER_SIZE → o.Sends line ∧ Framable takes line) :=
  ⟨hzero, fun hfits => ⟨⟨hline, hfits⟩, hgood line ⟨hline, hfits⟩⟩⟩

theorem command_keeps {o : Building} (hgood : ∀ line, o.Sends line → Framable takes line) (c : Command)
    (hlines : ∀ line ∈ c.lines, o.Line line ∧ (0 : UInt8) ∉ line) :
    wp (posix takes) (fun _ t => Exchanges takes stack o.Sends nControl.handle t) (c.run nControl)
      (InFrame takes stack o.Sends nControl) [] :=
  Command.run_keeps (framed_openKeeps nControl).toSendKeeps c
    (fun line hmem => line_kept hgood (hlines line hmem).1 (hlines line hmem).2) ⟨.refl _, .start⟩

theorem access_keeps (path : Option CString) (typ : Typ) (mode : Mode)
    (hgood : ∀ line, (access path typ mode).Sends line → Framable takes line) :
    wp (posix takes) (fun _ t => Exchanges takes stack (access path typ mode).Sends nControl.handle t)
      (accessFtpClient (path.map Subtype.val) typ mode nControl)
      (fun r t => InFrame takes stack (access path typ mode).Sends nControl r.1 t) [] := by
  have ho := @framed_openKeeps takes stack (access path typ mode).Sends nControl
  have hstart : InFrame takes stack (access path typ mode).Sends nControl nControl [] := ⟨.refl _, .start⟩
  by_cases hpath : path = none ∧ (typ = .fileWrite ∨ typ = .fileRead)
  · rw [accessFtpClient, if_pos (by simpa using hpath)]
    exact (ho.report _ hstart).bind fun _ _ h => wp_ret.mpr h
  by_cases hdir : nControl.dir = .control
  · have htype := line_kept hgood (o := access path typ mode) ⟨hpath, .inl rfl⟩
      (Local.typeCommand_text mode.char)
    refine accessFtpClient_keeps ho (framed_reply hdir) _ typ mode htype ?_ hstart
    intro verb dir cmd hcmd htransfer hmode
    have hverb : (0 : UInt8) ∉ verb ∧ verb.length < TEMP_BUFFER_SIZE := by
      cases typ <;> cases hcmd <;> decide
    have hkept : ∀ line, (line = ascii "PASV" ∨ (∃ sa, line = portCommand sa) ∨ line = cmd) →
        (0 : UInt8) ∉ line → _ :=
      fun line hline => line_kept hgood (o := access path typ mode)
        ⟨hpath, .inr ⟨verb, dir, cmd, hcmd, htransfer, hmode, hline⟩⟩
    exact ⟨hkept _ (.inl rfl) (by decide),
      fun sa => hkept _ (.inr (.inl ⟨sa, rfl⟩)) (Local.portCommand_text sa).2,
      hkept _ (.inr (.inr rfl)) (Local.transferCommand_text hverb.1 hverb.2 htransfer).1⟩
  · rw [accessFtpClient, if_neg (by simpa using hpath), sendCommand_refused _ (.inl hdir)]
    exact wp_ret.mpr hstart

/-- An operation whose lines are good keeps its record framed. -/
theorem onStrings_keeps (o : Building) (hgood : ∀ line, o.Sends line → Framable takes line) :
    wp (posix takes) (fun _ t => Exchanges takes stack o.Sends nControl.handle t) (o.onStrings nControl)
      (InFrame takes stack o.Sends nControl) [] := by
  have hone : ∀ {o : Building} (verb : Bytes) (arg : CString), o.Line (verb ++ arg) → (0 : UInt8) ∉ verb →
      ∀ l ∈ [verb ++ arg.1], o.Line l ∧ (0 : UInt8) ∉ l := by
    intro o verb arg hline hverb l hl
    obtain rfl := List.mem_singleton.mp hl
    exact ⟨hline, CString.text verb hverb arg⟩
  have htwo : ∀ {o : Building} {line line' : Bytes}, o.Line line ∧ (0 : UInt8) ∉ line →
      o.Line line' ∧ (0 : UInt8) ∉ line' → ∀ l ∈ [line, line'], o.Line l ∧ (0 : UInt8) ∉ l := by
    intro o line line' h h' l hl
    rcases List.mem_pair.mp hl with rfl | rfl
    · exact h
    · exact h'
  have hstart : InFrame takes stack o.Sends nControl nControl [] := ⟨.refl _, .start⟩
  cases o with
  | site cmd => exact command_keeps stack hgood (.site cmd) (hone (ascii "SITE ") cmd rfl (by decide))
  | changeDir path =>
    exact command_keeps stack hgood (.changeDir path) (hone (ascii "CWD ") path rfl (by decide))
  | makeDir path =>
    exact command_keeps stack hgood (.makeDir path) (hone (ascii "MKD ") path rfl (by decide))
  | removeDir path =>
    exact command_keeps stack hgood (.removeDir path) (hone (ascii "RMD ") path rfl (by decide))
  | deleteData fnm =>
    exact command_keeps stack hgood (.deleteData fnm) (hone (ascii "DELE ") fnm rfl (by decide))
  | modDate max path dt =>
    exact command_keeps stack hgood (.modDate max path dt) (hone (ascii "MDTM ") path rfl (by decide))
  | fileSize path size mode =>
    by_cases hlong : path.1.length + 7 > TEMP_BUFFER_SIZE
    · unfold onStrings Command.run
      dsimp only
      rw [getFileSizeFtpClient, if_pos hlong]
      exact wp_ret.mpr hstart
    have hfits := Nat.le_of_not_lt hlong
    exact command_keeps stack hgood (.fileSize path size mode)
      (htwo ⟨⟨hfits, .inl rfl⟩, Local.typeCommand_text mode⟩
      ⟨⟨hfits, .inr rfl⟩, CString.text _ (by decide) path⟩)
  | login user pass =>
    by_cases hlong : user.1.length + 7 > 64 ∨ pass.1.length + 7 > 64
    · unfold onStrings Command.run
      dsimp only
      rw [loginFtpClient, if_pos hlong]
      exact wp_ret.mpr hstart
    rw [not_or] at hlong
    have hfits : user.1.length + 7 ≤ 64 ∧ pass.1.length + 7 ≤ 64 := by omega
    exact command_keeps stack hgood (.login user pass)
      (htwo ⟨⟨hfits, .inl rfl⟩, CString.text _ (by decide) user⟩
      ⟨⟨hfits, .inr rfl⟩, CString.text _ (by decide) pass⟩)
  | rename src dst =>
    by_cases hlong : src.1.length + 7 > TEMP_BUFFER_SIZE ∨ dst.1.length + 7 > TEMP_BUFFER_SIZE
    · unfold onStrings Command.run
      dsimp only
      rw [renameFtpClient, if_pos hlong]
      exact wp_ret.mpr hstart
    by_cases hsrc : src.1.length + 8 > TEMP_BUFFER_SIZE
    · -- accepted, but refused by `sendCommand`
      have hfive : (ascii "RNFR ").length = 5 := rfl
      unfold onStrings Command.run
      dsimp only
      rw [renameFtpClient, if_neg hlong, sendCommand_refused _ (.inr (by rw [List.length_append]; omega))]
      exact wp_ret.mpr hstart
    rw [not_or] at hlong
    have hfits : src.1.length + 8 ≤ TEMP_BUFFER_SIZE ∧ dst.1.length + 7 ≤ TEMP_BUFFER_SIZE := by omega
    exact command_keeps stack hgood (.rename src dst)
      (htwo ⟨⟨hfits, .inl rfl⟩, CString.text _ (by decide) src⟩
      ⟨⟨hfits, .inr rfl⟩, CString.text _ (by decide) dst⟩)
  | access path typ mode => exact (access_keeps stack path typ mode hgood).bind fun _ _ h => wp_ret.mpr h

/-- No operation leaves a local array, whatever its arguments hold and the system answers. -/
theorem run_within {W : Type} {E : Env Op Op.Res W} (stack : Local.Stack) (nControl : NetBuf) (o : Building)
    (w : W) : wp E (fun _ _ => True) (o.run stack nControl).run (fun r _ => r ≠ .error .overflow) w := by
  rw [run_eq, Local.wp_lift]
  intro out w' _
  cases out with
  | returned nc => exact fun hoverflow => by cases hoverflow
  | stopped s => trivial

theorem framed_of_good (o : Building) (hgood : ∀ line, o.Sends line → Framable takes line) :
    o.Framed takes := by
  intro stack nControl
  have hframed : wp (posix takes) (fun _ t => Exchanges takes stack o.Sends nControl.handle t)
      (o.run stack nControl).run (fun _ t => Exchanges takes stack o.Sends nControl.handle t) [] := by
    rw [run_eq, Local.wp_lift]
    exact (onStrings_keeps stack o hgood).mono fun nc t h => h.2
  exact (hframed.and_returned (run_within stack nControl o [])).mono fun r t h => ⟨h.2, h.1⟩

end

end Building

/-! ## Lines that are sent -/

/-- Where nothing has been received, `readResponse` waits. -/
theorem readResponse_asks {W : Type} {E : Env Op Op.Res W} {ok : Stop Op → W → Prop} {nControl : NetBuf}
    {c : UInt8} {Q : Int × NetBuf → W → Prop} {w : W} (hdir : nControl.dir = .control)
    (hunread : nControl.Unread []) (h : wp E ok (readResponse c nControl) Q w) :
    ok (.asking (.recv nControl.handle BUFFER_SIZE)) w := by
  have hwait : socketWait nControl nControl = .ret (1, nControl) := by
    rw [socketWait, hdir]
    rfl
  have hline := wp_bind.mp (wp_bind.mp h)
  have hbisim := readLine_bisim nControl.response nControl (by decide) (by simp [hdir]) hunread
  have hfetch := wp_loop_unfold.mp (hbisim.back.wp hline)
  have hroom : ([] ++ [] : Bytes).length + 1 < RESPONSE_BUFFER_SIZE := by decide
  rw [fetchBody_more List.not_mem_nil hroom rfl hwait] at hfetch
  exact (wp_call.mp hfetch).1

section

variable {takes : Bytes → Nat → Prop} {stack : Local.Stack} {lines : Bytes → Prop} {control : Nat}
  {nControl : NetBuf} {t : FtpTrace}

theorem not_mem_of_onWire {es : FtpTrace} (h : onWire control es = []) {data : Bytes}
    {sent : { sent : Nat // sent ≤ data.length }} (hsent : sent.1 ≠ 0) :
    (⟨.send control data, some sent⟩ : FtpEvent) ∉ es := by
  intro hmem
  have hput := List.flatMap_eq_nil_iff.mp h _ hmem
  rw [putOn, if_pos rfl, List.take_eq_nil_iff] at hput
  rcases hput with hzero | hnil
  · exact hsent hzero
  · have hle := sent.2
    have hlen := congrArg List.length hnil
    rw [List.length_nil] at hlen
    omega

/-- What a framed record says of a `send` that took something. -/
theorem Exchanges.sends (h : Exchanges takes stack lines control t) {data : Bytes}
    {sent : { sent : Nat // sent ≤ data.length }} (hsent : sent.1 ≠ 0)
    (hmem : (⟨.send control data, some sent⟩ : FtpEvent) ∈ t) :
    ∃ line, CR ∉ line ∧ LF ∉ line ∧ data = line ++ [CR, LF] ∧ sent.1 = data.length := by
  induction h with
  | start => cases hmem
  | @other t e _ hquiet ih =>
    rcases List.mem_append.mp hmem with hmem | hmem
    · exact ih hmem
    · rw [← List.mem_singleton.mp hmem] at hquiet
      simp [Op.sendsOn] at hquiet
  | sendCommand _ _ _ hframing ih =>
    rcases List.mem_append.mp hmem with hmem | hmem
    · exact ih hmem
    cases hframing with
    | nothing hwire _ _ _ => exact absurd hmem (not_mem_of_onWire hwire hsent)
    | @line es line _ hcr hlf hwire =>
      rcases List.mem_cons.mp hmem with heq | hmem
      · cases heq
        exact ⟨line, hcr, hlf, rfl, rfl⟩
      · exact absurd hmem (not_mem_of_onWire hwire hsent)

/-- A control connection on which nothing waits to be read. -/
structure Ready (control : Nat) (nControl : NetBuf) : Prop where
  dir_eq : nControl.dir = .control
  handle_eq : nControl.handle = control
  unread : nControl.Unread []

/-- A command that is sent in framed records is a good line. -/
theorem good_of_sent {cmd : Bytes} {c : UInt8} {Q : Int × NetBuf → FtpTrace → Prop}
    (hready : Ready control nControl) (hfits : cmd.length + 3 ≤ TEMP_BUFFER_SIZE)
    (h : wp (posix takes) (fun _ t => Exchanges takes stack lines control t)
      (sendCommand cmd c nControl) Q t) :
    Framable takes cmd := by
  obtain ⟨hdir, rfl, hunread⟩ := hready
  unfold sendCommand at h
  rw [if_neg (not_not.mpr hdir), if_neg (by omega)] at h
  -- If some of the line is taken, the next question of the reply is asked in a record that must be
  -- framed: what was sent there is one whole line.
  have key : ∀ sent : { sent : Nat // sent ≤ (cmd ++ [CR, LF]).length }, sent.1 ≠ 0 →
      sent.1 = (cmd ++ [CR, LF]).length ∨ takes (cmd ++ [CR, LF]) sent.1 →
      CR ∉ cmd ∧ LF ∉ cmd ∧ sent.1 = (cmd ++ [CR, LF]).length := by
    intro sent hzero hsent
    have hposix : Posix takes ⟨.send nControl.handle (cmd ++ [CR, LF]), some sent⟩ := .inr hsent
    have hread := wp_answer h (r := some sent) ⟨hposix, rfl⟩
    dsimp only at hread
    rw [if_neg hzero] at hread
    have hframed := readResponse_asks hdir hunread hread
    obtain ⟨line, hcr, hlf, hdata, hwhole⟩ := hframed.sends hzero
      (List.mem_append_right _ (List.mem_singleton_self _))
    obtain rfl := List.append_cancel_right hdata
    exact ⟨hcr, hlf, hwhole⟩
  have hpos : (cmd ++ [CR, LF]).length ≠ 0 := by simp
  -- That the system takes everything is always allowed, and already excludes line ends.
  obtain ⟨hcr, hlf, -⟩ := key ⟨_, Nat.le_refl _⟩ hpos (.inl rfl)
  refine ⟨hcr, hlf, fun sent hsent => ?_⟩
  by_cases hzero : sent = 0
  · exact .inl hzero
  by_cases hle : (cmd ++ [CR, LF]).length ≤ sent
  · exact .inr hle
  · exact .inr (Nat.le_of_eq (key ⟨sent, by omega⟩ hzero (.inr hsent)).2.2.symm)

/-- A command that is sent can be answered as it expects. -/
theorem sendCommand_accepted {cmd : Bytes} {c : UInt8} (hready : Ready control nControl)
    (hfits : cmd.length + 3 ≤ TEMP_BUFFER_SIZE) (hc : 48 ≤ c ∧ c ≤ 57) (t : FtpTrace) :
    ∃ nc t', Exec (posix takes) (sendCommand cmd c nControl) t (.returned (1, nc)) t' ∧
      Ready control nc ∧ nControl.Same nc := by
  obtain ⟨hdir, rfl, hunread⟩ := hready
  -- Any server may answer with the digit that is waited for: `c00`.
  have hwell : (FtpReply.line [c, 48, 48] []).WellFormed := by
    refine ⟨rfl, ?_, by simp [FtpReply.texts], by simp [FtpReply.more]⟩
    intro b hb
    simp only [FtpReply.code, List.mem_cons, List.not_mem_nil, or_false] at hb
    rcases hb with rfl | rfl | rfl
    · exact hc
    · decide
    · decide
  have hunbroken : (FtpReply.line [c, 48, 48] []).Unbroken := by
    have hlf : LF ≠ c := by
      rintro rfl
      exact absurd hc.1 (by decide)
    simp [FtpReply.Unbroken, FtpReply.texts, hlf]
    decide
  have harriving : Arriving nControl.handle ((FtpReply.line [c, 48, 48] []).bytes ++ []) nControl
      [(FtpReply.line [c, 48, 48] []).bytes] :=
    ⟨hdir, rfl, by simp [FtpReply.bytes, FtpReply.texts, show 6 ≤ BUFFER_SIZE by decide], [],
    hunread, by simp⟩
  obtain ⟨nc, pieces', hread, hleft, -⟩ := readResponse_run c hwell hunbroken harriving
  -- What the server sends is one of the answers that POSIX allows, so the run is one of `posix` too.
  have hanswers : ∀ pieces (t : FtpTrace) op r pieces', True →
      delivering nControl.handle pieces op r pieces' →
      ∃ t', posix takes t op r t' ∧ True := by
    rintro pieces t op r pieces' - h
    refine ⟨t ++ [⟨op, r⟩], ⟨?_, rfl⟩, trivial⟩
    cases op with
    | recv fd len => trivial
    | _ => exact h.elim
  obtain ⟨t', hrun, -⟩ := hread.follow (R := fun _ _ => True) hanswers trivial
    (v := t ++ [⟨.send nControl.handle (cmd ++ [CR, LF]), some ⟨_, Nat.le_refl _⟩⟩])
  have hcall : Exec (posix takes) (sendCommand cmd c nControl) t (.returned (1, nc)) t' := by
    unfold sendCommand
    rw [if_neg (not_not.mpr hdir), if_neg (by omega)]
    have hposix : Posix takes ⟨.send nControl.handle (cmd ++ [CR, LF]), some ⟨_, Nat.le_refl _⟩⟩ :=
      .inr (.inl rfl)
    refine Exec.call (r := some ⟨_, Nat.le_refl _⟩) ⟨hposix, rfl⟩ ?_
    -- The reply begins with `c`, so the command has succeeded.
    have hfirst : (FtpReply.line [c, 48, 48] []).bytes.headD 0 = c := rfl
    rw [if_pos hfirst] at hrun
    show Exec (posix takes) (if (cmd ++ [CR, LF]).length = 0 then _ else readResponse c nControl) _ _ t'
    rw [if_neg (by simp)]
    exact hrun
  refine ⟨nc, t', hcall, ?_, ?_⟩
  · obtain ⟨u, hu, hnil⟩ := hleft.stream
    rw [(List.append_eq_nil_iff.mp hnil).1] at hu
    exact ⟨hleft.dir_eq, hleft.handle_eq, hu⟩
  · exact ((readResponse_wire c hdir 0 _).returned hrun).2

/-- Behind a command that has been accepted. -/
theorem wp_accepted {α : Type} {ok : Stop Op → FtpTrace → Prop} {cmd : Bytes} {c : UInt8}
    {f : Int × NetBuf → Client α} {Q : α → FtpTrace → Prop} (hready : Ready control nControl)
    (hfits : cmd.length + 3 ≤ TEMP_BUFFER_SIZE) (hc : 48 ≤ c ∧ c ≤ 57)
    (h : wp (posix takes) ok (sendCommand cmd c nControl >>= f) Q t) :
    ∃ nc t', Ready control nc ∧ nc.cmode = nControl.cmode ∧ wp (posix takes) ok (f (1, nc)) Q t' := by
  obtain ⟨nc, t', hrun, hnext, hsame⟩ := sendCommand_accepted hready hfits hc t
  exact ⟨nc, t', hnext, hsame.cmode_eq, (wp_bind.mp h).returned hrun⟩

end

/-! ## Operations that are framed -/

namespace Building

section

variable {takes : Bytes → Nat → Prop} {stack : Local.Stack} {lines : Bytes → Prop} {control : Nat}
  {nControl : NetBuf} {t : FtpTrace}

/-- The lines of a command that sends one after another. -/
theorem good_of_two {α : Type} {cmd : Bytes} {c : UInt8} {f : Int × NetBuf → Client α}
    {Q : α → FtpTrace → Prop} (cmd' : Bytes) (c' : UInt8) (hready : Ready control nControl)
    (hc : 48 ≤ c ∧ c ≤ 57)
    (hfits : cmd.length + 3 ≤ TEMP_BUFFER_SIZE)
    (hnext : ∀ nc t, wp (posix takes) (fun _ t => Exchanges takes stack lines control t) (f (1, nc)) Q t →
      ∃ Q', wp (posix takes) (fun _ t => Exchanges takes stack lines control t) (sendCommand cmd' c' nc) Q' t)
    (h : wp (posix takes) (fun _ t => Exchanges takes stack lines control t)
      (sendCommand cmd c nControl >>= f) Q t) :
    Framable takes cmd ∧ (cmd'.length + 3 ≤ TEMP_BUFFER_SIZE → Framable takes cmd') := by
  refine ⟨good_of_sent hready hfits (wp_bind.mp h), fun hfits' => ?_⟩
  obtain ⟨nc, t', hready', -, hrest⟩ := wp_accepted hready hfits hc h
  obtain ⟨Q', hsecond⟩ := hnext nc t' hrest
  exact good_of_sent hready' hfits' hsecond

theorem good_of_verb {verb arg : Bytes} {slack : Nat} {Q : Int × NetBuf → FtpTrace → Prop}
    (hready : Ready control nControl) (hslack : slack ≤ verb.length + 3)
    (hfits : (verb ++ arg).length + 3 ≤ TEMP_BUFFER_SIZE)
    (h : wp (posix takes) (fun _ t => Exchanges takes stack lines control t)
      (verbCommand verb slack arg nControl) Q t) : Framable takes (verb ++ arg) := by
  have hlen := @List.length_append _ verb arg
  rw [verbCommand, if_neg (by omega)] at h
  exact good_of_sent hready hfits h

/-- An active data connection is named to the server, and can be accepted. -/
theorem good_of_portConnect {sData : Nat} {sa : SockAddr} {R : NetBuf × Bool → FtpTrace → Prop}
    (hready : Ready control nControl) (hactive : nControl.cmode = .active)
    (h : wp (posix takes) (fun _ t => Exchanges takes stack lines control t)
      (portConnect nControl sData sa) R t) :
    (∀ sa, Framable takes (portCommand sa)) ∧ ∃ nc t', Ready control nc ∧ R (nc, true) t' := by
  have hfits : ∀ sa, (portCommand sa).length + 3 ≤ TEMP_BUFFER_SIZE := by
    intro sa
    have hlen := (Local.portCommand_text sa).1
    have hsize : TEMP_BUFFER_SIZE = 1024 := rfl
    omega
  rw [portConnect, hactive] at h
  have hlistens := wp_answer (wp_answer h (r := true) ⟨trivial, rfl⟩) (r := true) ⟨trivial, rfl⟩
  have hnamed := fun sa => wp_answer hlistens (r := some sa) ⟨trivial, rfl⟩
  refine ⟨fun sa => good_of_sent hready (hfits sa) (wp_bind.mp (hnamed sa)), ?_⟩
  obtain ⟨nc, t', hready', -, hconnected⟩ := wp_accepted hready (hfits sa) (by decide) (hnamed sa)
  exact ⟨nc, t', hready', wp_ret.mp hconnected⟩

theorem portData_opens {ok : Stop Op → FtpTrace → Prop} {sData : Nat} {mode : Mode} {dir : Dir}
    {R : Option NetBuf → FtpTrace → Prop} (h : wp (posix takes) ok (portData nControl sData mode dir) R t) :
    ∃ nData t', R (some nData) t' := by
  rw [portData] at h
  have hallocated := wp_answer h (r := true) ⟨trivial, rfl⟩
  simp only [Bool.not_true, Bool.false_eq_true, if_false] at hallocated
  by_cases hmode : mode = .ascii
  · rw [if_pos hmode] at hallocated
    have hbuf := wp_answer hallocated (r := some (.zeroed _)) ⟨trivial, rfl⟩
    exact ⟨_, _, wp_ret.mp hbuf⟩
  · rw [if_neg hmode] at hallocated
    exact ⟨_, _, wp_ret.mp hallocated⟩

theorem typeCommand_fits (mode : UInt8) : (typeCommand mode).length + 3 ≤ TEMP_BUFFER_SIZE := by
  have hsize : TEMP_BUFFER_SIZE = 1024 := rfl
  have hfive : (ascii "TYPE ").length = 5 := rfl
  rw [typeCommand, List.length_append]
  split
  · rw [List.length_nil]
    omega
  · rw [List.length_singleton]
    omega

/-- The lines of a transfer. -/
theorem good_of_access {path : Option Bytes} {typ : Typ} {mode : Mode}
    {Q : NetBuf × Option NetBuf → FtpTrace → Prop}
    (hready : Ready control nControl) (hpath : ¬(path = none ∧ (typ = .fileWrite ∨ typ = .fileRead)))
    (h : wp (posix takes) (fun _ t => Exchanges takes stack lines control t)
      (accessFtpClient path typ mode nControl) Q t) :
    Framable takes (typeCommand mode.char) ∧
      ∀ verb dir cmd, typ.command = some (verb, dir) → transferCommand verb path = some cmd →
        (mode = .ascii ∨ mode = .image) →
        (nControl.cmode = .passive → Framable takes (ascii "PASV")) ∧
        (nControl.cmode = .active → (∀ sa, Framable takes (portCommand sa)) ∧
          (cmd.length + 3 ≤ TEMP_BUFFER_SIZE → Framable takes cmd)) := by
  have htype := typeCommand_fits mode.char
  -- Only calls that come after accepted commands are reached, and `wp_accepted` says that each is.
  rw [accessFtpClient, if_neg hpath] at h
  refine ⟨good_of_sent hready htype (wp_bind.mp h), fun verb dir cmd hcmd htransfer hmode => ?_⟩
  obtain ⟨nc, t', hready', hcmode, h⟩ := wp_accepted hready htype (by decide) h
  dsimp only at h
  rw [if_neg Int.one_ne_zero, hcmd] at h
  dsimp only at h
  rw [htransfer] at h
  have hdir : dir ≠ .control := by
    cases typ <;> cases hcmd <;> decide
  have hmode' : ¬(mode ≠ .ascii ∧ mode ≠ .image) := fun hno => hmode.elim hno.1 hno.2
  have hopen := wp_bind.mp h
  rw [openPort, if_neg (not_not.mpr hready'.dir_eq), if_neg hdir, if_neg hmode', portAddress, hcmode] at hopen
  constructor
  · intro hpassive
    rw [hpassive] at hopen
    exact good_of_sent hready' (by decide) (wp_bind.mp (wp_bind.mp hopen))
  intro hactive
  rw [hactive] at hcmode hopen
  -- Any address of the control connection will do, and any new descriptor.
  have hnamed := wp_answer (wp_bind.mp hopen) (r := some #v[0, 0, 0, 0, 0, 0]) ⟨trivial, rfl⟩
  have haddress := wp_ret.mp hnamed
  dsimp only at haddress
  have hsocket := wp_answer haddress (r := some 4) ⟨trivial, rfl⟩
  obtain ⟨hport, nc', t'', hready'', hconnected⟩ := good_of_portConnect hready' hcmode (wp_bind.mp hsocket)
  refine ⟨hport, fun hfits => ?_⟩
  obtain ⟨nData, t₃, hopened⟩ := portData_opens (wp_bind.mp hconnected)
  have hsent := wp_ret.mp hopened
  dsimp only at hsent
  exact good_of_sent hready'' hfits (wp_bind.mp hsent)

/-- The commands that an operation in whose runs every call is framed can come to send are good lines. -/
theorem good_of_framed {o : Building} (h : o.Framed takes) (line : Bytes) (hline : o.Sends line) :
    Framable takes line := by
  have hrun : ∀ nControl, wp (posix takes)
      (fun _ t => Exchanges takes (fun n => .zeroed n) o.Sends nControl.handle t) (o.onStrings nControl)
      (fun _ _ => True) [] := by
    intro nControl
    have hwp := h (fun n => .zeroed n) nControl
    rw [run_eq, Local.wp_lift] at hwp
    exact hwp.mono fun _ _ _ => trivial
  -- A new connection, in either mode; 3 is an arbitrary descriptor.
  have hready : ∀ cmode, Ready 3 { newControl 3 (.zeroed _) with cmode } := by
    intro cmode
    have hunread := newControl_unread 3 (.zeroed _)
    exact ⟨rfl, rfl, hunread.1, hunread.2, hunread.3⟩
  have hnew := hrun { newControl 3 (.zeroed _) with cmode := .passive }
  obtain ⟨hline, hfits⟩ := hline
  -- One case for each function that builds commands. Most send one line; those with two lines go
  -- through `good_of_two`, and `access` sends its port or its path only in a mode of its own.
  cases o with
  | site cmd =>
    obtain rfl := hline
    exact good_of_verb (hready _) (by decide) hfits (wp_bind.mp hnew)
  | changeDir path =>
    obtain rfl := hline
    exact good_of_verb (hready _) (by decide) hfits (wp_bind.mp hnew)
  | makeDir path =>
    obtain rfl := hline
    exact good_of_verb (hready _) (by decide) hfits (wp_bind.mp hnew)
  | removeDir path =>
    obtain rfl := hline
    exact good_of_verb (hready _) (by decide) hfits (wp_bind.mp hnew)
  | deleteData fnm =>
    obtain rfl := hline
    exact good_of_verb (hready _) (by decide) hfits (wp_bind.mp hnew)
  | modDate max path dt =>
    obtain rfl := hline
    have hlen := @List.length_append _ (ascii "MDTM ") path.1
    have hfive : (ascii "MDTM ").length = 5 := rfl
    have hcall := wp_bind.mp hnew
    rw [getModDateFtpClient, if_neg (by omega)] at hcall
    exact good_of_sent (hready _) hfits (wp_bind.mp hcall)
  | fileSize path size mode =>
    obtain ⟨hlong, hline⟩ := hline
    have hcall := wp_bind.mp hnew
    rw [getFileSizeFtpClient, if_neg (by omega)] at hcall
    obtain ⟨htype, hsize⟩ := good_of_two (ascii "SIZE " ++ path.1) 50 (hready _) (by decide)
      (typeCommand_fits mode) (fun nc t h => by
        dsimp only at h
        rw [if_neg Int.one_ne_zero] at h
        exact ⟨_, wp_bind.mp h⟩) hcall
    rcases hline with rfl | rfl
    · exact htype
    · exact hsize hfits
  | login user pass =>
    obtain ⟨⟨huser, hpass⟩, hline⟩ := hline
    have hfive : (ascii "USER ").length = 5 := rfl
    have hsize : TEMP_BUFFER_SIZE = 1024 := rfl
    have hcall := wp_bind.mp hnew
    rw [loginFtpClient, if_neg (by omega)] at hcall
    obtain ⟨hfirst, hsecond⟩ := good_of_two (ascii "PASS " ++ pass.1) 50 (hready _) (by decide)
      (by rw [List.length_append]; omega) (fun nc t h => by
        dsimp only at h
        rw [if_neg Int.one_ne_zero] at h
        exact ⟨_, h⟩) hcall
    rcases hline with rfl | rfl
    · exact hfirst
    · exact hsecond hfits
  | rename src dst =>
    obtain ⟨⟨hsrc, hdst⟩, hline⟩ := hline
    have hfive : (ascii "RNFR ").length = 5 := rfl
    have hcall := wp_bind.mp hnew
    rw [renameFtpClient, if_neg (by omega)] at hcall
    obtain ⟨hfirst, hsecond⟩ := good_of_two (ascii "RNTO " ++ dst.1) 50 (hready _) (by decide)
      (by rw [List.length_append]; omega) (fun nc t h => by
        dsimp only at h
        rw [if_neg Int.one_ne_zero] at h
        exact ⟨_, h⟩) hcall
    rcases hline with rfl | rfl
    · exact hfirst
    · exact hsecond hfits
  | access path typ mode =>
    obtain ⟨hpath, hline⟩ := hline
    have hpath' : ¬(path.map Subtype.val = none ∧ (typ = .fileWrite ∨ typ = .fileRead)) := by
      simpa using hpath
    -- The record of the passive run bounds `PASV`, the one of the active run `PORT` and the transfer.
    obtain ⟨htype, hpassive⟩ := good_of_access (hready .passive) hpath' (wp_bind.mp hnew)
    obtain ⟨-, hactive⟩ := good_of_access (hready .active) hpath'
      (wp_bind.mp (hrun { newControl 3 (.zeroed _) with cmode := .active }))
    rcases hline with rfl | ⟨verb, dir, cmd, hcmd, htransfer, hmode, hline⟩
    · exact htype
    obtain ⟨hport, hdata⟩ := (hactive verb dir cmd hcmd htransfer hmode).2 rfl
    rcases hline with rfl | ⟨sa, rfl⟩ | rfl
    · exact (hpassive verb dir cmd hcmd htransfer hmode).1 rfl
    · exact hport sa
    · exact hdata hfits

end

/-- An operation is framed exactly where no command line that it can come to send has a CR or a LF within
it, and the system takes none of them in part. -/
theorem framed_iff (takes : Bytes → Nat → Prop) (o : Building) :
    o.Framed takes ↔ ∀ line, o.Sends line → Framable takes line :=
  ⟨fun h line hline => good_of_framed h line hline, framed_of_good o⟩

/-- A line end in an argument makes two commands of one, and a part of a command is taken for all of it. -/
theorem not_framed :
    ¬(deleteData ⟨ascii "a\r\nDELE b", by decide⟩).Framed (fun _ _ => False) ∧
      ¬(deleteData ⟨ascii "a", by decide⟩).Framed (fun _ _ => True) := by
  constructor
  · intro h
    have hgood := good_of_framed h (ascii "DELE a\r\nDELE b") ⟨by rfl, by decide⟩
    exact absurd hgood.1 (by decide)
  · intro h
    have hgood := good_of_framed h (ascii "DELE a") ⟨by rfl, by decide⟩
    exact absurd (hgood.2.2 3 trivial) (by decide)

end Building

end Ftp
