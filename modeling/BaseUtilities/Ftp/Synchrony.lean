import BaseUtilities.Ftp.Server
import BaseUtilities.Ftp.Transfers

/-!
# Synchrony of the control connection

Between two calls of a caller nothing is owed on the control connection, or, while a data connection is
open, the final reply of its transfer.
-/

open Effects Mem

namespace Ftp

section

variable {control : Nat} {nControl : NetBuf} {w w₀ : Server} {plays : Bytes → Replies → Prop}
  {may : Server → FtpEvent → Prop}

/-- The calls that use the control connection. -/
def Op.talks (control : Nat) : Op → Bool
  | .recv fd _ | .send fd _ => fd = control
  | _ => false

theorem silent_step {op : Op} {r : Op.Res op} {w' : Server} (hop : op.talks control = false)
    (h : w.Step control plays ⟨op, r⟩ w') : w' = w := by
  cases op with
  | send fd data =>
    have hfd : fd ≠ control := by simpa [Op.talks] using hop
    cases r with
    | none => exact h.2
    | some sent =>
      rw [Server.Step, if_neg hfd] at h
      exact h
  | recv fd len =>
    have hfd : fd ≠ control := by simpa [Op.talks] using hop
    rw [Server.Step, if_neg hfd] at h
    exact h
  | _ => exact h.2

theorem silent_keeps {op : Op} (hop : op.talks control = false) :
    Keeps (ftpServer control plays may) (Awaits control) (· = w₀) op where
  asks w _ := by
    cases op with
    | recv fd len => exact fun hfd => by simp [Op.talks, hfd] at hop
    | _ => exact trivial
  keeps _ _ _ hw h := (silent_step hop h.1).trans hw

/-- A call besides the control connection. -/
theorem wp_silent {α : Type} {op : Op} {f : Op.Res op → Client α} {Q : α → Server → Prop}
    (hop : op.talks control = false)
    (hf : ∀ r, may w ⟨op, r⟩ → wp (ftpServer control plays may) (Awaits control) (f r) Q w) :
    wp (ftpServer control plays may) (Awaits control) (Prog.perform op >>= f) Q w := by
  refine (silent_keeps hop).bind rfl fun r w' hw hr => ?_
  obtain rfl := hw
  exact hf r hr.2

/-- The descriptors of the client, besides what happens on the control connection. -/
theorem server_rules : SocketRules (ftpServer control plays may) (fun _ _ => True) control
    (fun _ _ => True) (· ≠ control) (fun _ _ => True) where
  setup _ _ _ := ⟨fun _ _ => trivial, fun _ _ _ _ _ => trivial⟩
  recv _ _ := ⟨fun _ _ => trivial, fun _ _ _ _ _ => trivial⟩
  send _ _ := ⟨fun _ _ => trivial, fun _ _ _ _ _ => trivial⟩
  fault _ _ _ := trivial
  socket_asks _ _ _ := trivial
  opened _ _ _ _ _ h := ⟨trivial, fun hfd => h.1.1 (congrArg some hfd)⟩
  refused _ _ _ _ _ := trivial
  listens _ _ _ _ _ _ := trivial
  unnamed _ _ _ _ _ _ _ := trivial
  close_asks _ _ _ _ := trivial
  closed _ _ _ _ _ _ _ := trivial
  shutdown _ _ := ⟨fun _ _ => trivial, fun _ _ _ _ _ => trivial⟩
  wait _ _ := ⟨fun _ _ => trivial, fun _ _ _ _ _ => trivial⟩
  gaveUp _ _ _ _ _ _ _ _ := trivial
  accept_asks _ _ _ _ := trivial
  accepted _ _ _ _ _ _ _ h := ⟨trivial, fun hfd => h.1.1 (congrArg some hfd)⟩
  unaccepted _ _ _ _ _ _ _ := trivial

end

/-! ## Opening and closing a data connection -/

/-- The final reply of the transfer is owed, and `response` cannot be taken for a refusal. -/
structure Pending (control : Nat) (nControl : NetBuf) (w : Server) : Prop where
  owed : ∃ r ∈ w.last, (50 ≤ r.digit ∧ r.digit ≤ 53) ∧ r.Short ∧ Owed control r.bytes nControl w
  response : nControl.response.first ≠ 52 ∧ nControl.response.first ≠ 53

/-- The server has refused the transfer and owes nothing. -/
structure Refused (control : Nat) (nControl : NetBuf) (w : Server) : Prop where
  owed : Owed control [] nControl w
  response : nControl.response.first = 52 ∨ nControl.response.first = 53

section

variable {control : Nat} {nControl : NetBuf} {w : Server} {plays : Bytes → Replies → Prop}
  {may : Server → FtpEvent → Prop}

theorem Pending.respond (h : Pending control nControl w) {response : Buffer RESPONSE_BUFFER_SIZE}
    (hresponse : response.first ≠ 52 ∧ response.first ≠ 53) :
    Pending control { nControl with response } w := by
  obtain ⟨r, hr, hfinal, hshort, howed⟩ := h.owed
  exact ⟨⟨r, hr, hfinal, hshort, howed.respond _⟩, hresponse⟩

theorem Pending.text (h : Pending control nControl w) {text : Bytes} (htext : Harmless text) :
    Pending control { nControl with response := nControl.response.strncpy text } w := by
  refine h.respond ?_
  rw [Buffer.strncpy_first]
  exact htext

theorem Pending.noted (h : Pending control nControl w) {nc : NetBuf} (hnoted : nControl.Noted Harmless nc) :
    Pending control nc w := by
  rcases hnoted with rfl | ⟨text, htext, rfl⟩
  · exact h
  · exact h.text htext

/-- Where a transfer has ended, its reply is read unless that has been done. -/
theorem closeFtpClient_quiet (nData : NetBuf) (h : Pending control nControl w ∨ Refused control nControl w) :
    wp (ftpServer control Orderly (Steady control)) (Awaits control) (closeFtpClient nData nControl)
      (fun r w' => Owed control [] r.2 w') w := by
  rw [closeFtpClient]
  refine wp_silent rfl fun _ _ => wp_silent rfl fun _ _ => ?_
  rcases h with h | h
  · obtain ⟨r, -, -, hshort, howed⟩ := h.owed
    rw [← List.append_nil r.bytes] at howed
    rw [if_pos h.response]
    exact (readResponse_takes 50 hshort howed).mono fun _ _ hpost => hpost.2.1
  · rw [if_neg fun hne => h.response.elim hne.1 hne.2]
    exact wp_ret.mpr h.owed

/-- The reply to a command that begins a transfer is behind the preliminary one, or it is a refusal. -/
theorem pending_of_answer {a : Replies} {nc : NetBuf} {cmd : Bytes} (ht : beginsTransfer cmd)
    (hto : a.To cmd) (horderly : Orderly cmd a) (hlast : w.last = some a.final)
    (howed : Owed control a.behind nc w) (hfirst : nc.response.first = a.lead.digit) :
    if a.lead.digit = 49 then Pending control nc w else Refused control nc w := by
  rw [Replies.lead] at hfirst ⊢
  rw [Replies.behind] at howed
  cases hp : a.prelim with
  | none =>
    rw [hp] at hfirst howed
    have hrefuses := horderly.refuses ht hp
    have hne : ¬a.final.digit = 49 := by
      rcases hrefuses with h | h <;> rw [h] <;> decide
    rw [Option.getD_none, if_neg hne]
    rw [Option.getD_none] at hfirst
    exact ⟨howed, by rw [hfirst]; exact hrefuses⟩
  | some r =>
    rw [hp] at hfirst howed
    have hdigit := (hto.prelim r hp).1
    rw [Option.getD_some, if_pos hdigit]
    rw [Option.getD_some, hdigit] at hfirst
    exact ⟨⟨a.final, hlast, hto.final, horderly.final, howed⟩, by rw [hfirst]; decide⟩

theorem acceptConnection_pending (nData : NetBuf) (h : Pending control nControl w) :
    wp (ftpServer control Orderly (Steady control)) (Awaits control) (acceptConnection nData nControl)
      (fun r w' => Pending control r.2.2 w' ∨ r.1 = 0 ∧ Refused control r.2.2 w') w := by
  rw [acceptConnection]
  refine wp_silent rfl fun r hr => ?_
  -- However the wait ends, the final reply of the transfer stays owed, except where it is read here.
  cases r with
  | error text => exact wp_silent rfl fun _ _ => wp_ret.mpr (.inl (h.text hr))
  | timeout =>
    refine wp_bind.mpr (wp_bind.mpr (wp_ofOption.mpr ⟨fun _ => trivial, fun response hresponse => ?_⟩))
    refine wp_ret.mpr (wp_silent rfl fun _ _ => wp_ret.mpr (.inl (h.respond ?_)))
    rw [Buffer.strcpy?_first hresponse]
    decide
  | ready data control' =>
    cases data with
    | true =>
      refine wp_silent rfl fun r htext => wp_silent rfl fun _ _ => ?_
      obtain ⟨sData, text⟩ := r
      cases sData with
      | none => exact wp_ret.mpr (.inl (h.text htext))
      | some sData =>
        cases sData with
        | zero => exact wp_ret.mpr (.inl (h.text htext))
        | succ sData => exact wp_ret.mpr (.inl h)
    | false =>
      cases control' with
      | false => exact wp_ret.mpr (.inl h)
      | true =>
        refine wp_silent rfl fun _ _ => ?_
        -- The server would not connect: its final reply is read at once, and is a refusal.
        obtain ⟨r, hlast, -, hshort, howed⟩ := h.owed
        rw [← List.append_nil r.bytes] at howed
        refine (readResponse_takes 50 hshort howed).bind ?_
        rintro res w' ⟨-, howed, -, hfirst, -⟩
        refine wp_ret.mpr (.inr ⟨rfl, howed, ?_⟩)
        dsimp only
        rw [hfirst]
        exact hr r hlast

theorem typeCommand_oneLine (mode : UInt8) :
    OneLine (typeCommand mode) ∧ ¬beginsTransfer (typeCommand mode) := by
  rw [typeCommand]
  split
  · exact ⟨by decide, by decide⟩
  · refine ⟨(OneLine.singleton mode).append (by decide), ?_⟩
    rw [beginsTransfer, List.take_append_of_le_length (by decide)]
    decide

theorem decimal_cr (n : Nat) : CR ∉ decimal n := by
  intro hmem
  have hdigit : isdigit CR = true := (decimal_number n).isdigit CR hmem
  exact absurd hdigit (by decide)

theorem portCommand_oneLine (sa : SockAddr) :
    OneLine (portCommand sa) ∧ ¬beginsTransfer (portCommand sa) := by
  constructor
  · refine .of_not_mem ?_
    simp only [portCommand, List.mem_append, decimal_cr, or_false]
    decide
  · rw [beginsTransfer, portCommand]
    simp only [List.append_assoc]
    rw [List.take_append_of_le_length (by decide)]
    decide

/-- Command lines that do not begin a transfer leave nothing owed, and neither do the calls between
them. -/
theorem owed_openKeeps : OpenKeeps (ftpServer control Orderly (Steady control)) (Awaits control)
    (Owed control []) (fun cmd => OneLine cmd ∧ ¬beginsTransfer cmd) where
  send _ c _ _ hP h := (sendCommand_quiet c hP.1 hP.2 h).mono fun _ _ hpost => hpost.2
  fault _ _ _ := trivial
  call nc op hop := by
    have hsilent : op.talks control = false := by
      cases op with
      | recv fd len => cases hop
      | send fd data => cases hop
      | _ => rfl
    have hkeeps : ∀ w, Keeps (ftpServer control Orderly (Steady control)) (Awaits control) (· = w) op :=
      fun _ => silent_keeps hsilent
    refine ⟨fun w _ => (hkeeps w).asks w rfl, fun w r w' h hr => ?_⟩
    rw [(hkeeps w).keeps w r w' rfl hr]
    exact h
  respond _ _ response h := h.respond response

/-- A path that makes one line, and not the one that `accessFtpClient` accepts and `sendCommand` does
not. -/
def PathFits (path : Option Bytes) : Prop := ∀ p ∈ path, OneLine p ∧ p.length ≠ 1017

theorem transferCommand_fits {typ : Typ} {verb cmd : Bytes} {dir : Dir} {path : Option Bytes}
    (htyp : typ.command = some (verb, dir)) (hcmd : transferCommand verb path = some cmd)
    (hpath : PathFits path) :
    OneLine cmd ∧ beginsTransfer cmd ∧ cmd.length + 3 ≤ TEMP_BUFFER_SIZE := by
  have hverb : OneLine verb ∧ beginsTransfer verb ∧ verb.length = 4 ∧ CR ∉ verb ++ [32] := by
    cases typ <;> cases htyp <;> decide
  obtain ⟨hone, hbegins, hlen, hcr⟩ := hverb
  cases path with
  | none =>
    cases hcmd
    exact ⟨hone, hbegins, by rw [hlen]; decide⟩
  | some p =>
    rw [transferCommand] at hcmd
    split at hcmd
    · cases hcmd
    · next hfits =>
      cases hcmd
      obtain ⟨hp, hne⟩ := hpath p rfl
      refine ⟨hp.append hcr, ?_, ?_⟩
      · rw [List.append_assoc]
        exact beginsTransfer_append hbegins _
      · have hsize : TEMP_BUFFER_SIZE = 1024 := rfl
        simp only [List.length_append, List.length_singleton]
        omega

/-- What `accessFtpClient` leaves: the final reply of the transfer if there is one, and nothing
otherwise. -/
theorem accessFtpClient_pending (typ : Typ) (mode : Mode) {path : Option Bytes} (hpath : PathFits path)
    (h : Owed control [] nControl w) :
    wp (ftpServer control Orderly (Steady control)) (Awaits control)
      (accessFtpClient path typ mode nControl)
      (fun r w' => match r.2 with
        | none => Owed control [] r.1 w'
        | some _ => Pending control r.1 w') w := by
  rw [accessFtpClient]
  split
  · exact (owed_openKeeps.report _ h).bind fun _ _ h => wp_ret.mpr h
  obtain ⟨hline, hno⟩ := typeCommand_oneLine mode.char
  refine (sendCommand_quiet 50 hline hno h).bind ?_
  rintro ⟨rv, nc⟩ w' ⟨-, h⟩
  dsimp only at h ⊢
  split
  · exact wp_ret.mpr h
  cases htyp : typ.command with
  | none => exact (owed_openKeeps.report _ h).bind fun _ _ h => wp_ret.mpr h
  | some command =>
    obtain ⟨verb, dir⟩ := command
    dsimp only
    cases hcmd : transferCommand verb path with
    | none => exact wp_ret.mpr h
    | some cmd =>
      obtain ⟨hline, hbegins, hfits⟩ := transferCommand_fits htyp hcmd hpath
      refine (openPort_keeps owed_openKeeps mode dir (by decide) portCommand_oneLine h).bind ?_
      rintro ⟨nc, nData⟩ w' h
      cases nData with
      | none => exact wp_ret.mpr h
      | some nData =>
        -- Closing the data connection reads the final reply, or finds it was read.
        have hclose : ∀ (nData nc : NetBuf) w, Pending control nc w ∨ Refused control nc w →
            wp (ftpServer control Orderly (Steady control)) (Awaits control)
              (closeFtpClient nData nc >>= fun r => pure (r.2, none))
              (fun r w' => match r.2 with
                | none => Owed control [] r.1 w'
                | some (_ : NetBuf) => Pending control r.1 w') w :=
          fun nData nc w h => (closeFtpClient_quiet nData h).bind fun _ _ h => wp_ret.mpr h
        refine (sendCommand_answered 49 hline h).bind ?_
        -- A command that fits cannot be left unsent.
        rintro ⟨rv, nc⟩ w' ⟨-, ⟨-, -, hlong⟩ | ⟨a, hto, horderly, hlast, howed, hfirst, hrv⟩⟩
        · have := hlong hbegins
          omega
        have hpost := pending_of_answer hbegins hto horderly hlast howed hfirst
        dsimp only at hrv ⊢
        subst hrv
        -- An accepted transfer leaves its final reply owed; a refused one has none.
        split at hpost
        · next hdigit =>
          rw [if_pos hdigit, if_neg Int.one_ne_zero]
          split
          · exact wp_ret.mpr hpost
          · refine (acceptConnection_pending nData hpost).bind ?_
            rintro ⟨rv, nData', nc'⟩ w'' hpost
            dsimp only at hpost ⊢
            split
            · exact hclose _ _ _ (hpost.imp_right And.right)
            · next hrv => exact wp_ret.mpr (hpost.resolve_right fun h => hrv h.1)
        · next hdigit =>
          rw [if_neg hdigit, if_pos rfl]
          exact hclose _ _ _ (.inr hpost)

end

/-! ## Transfers -/

section

variable {control : Nat} {nControl : NetBuf} {w w₀ : Server}

theorem steady_dataKeeps {fd : Nat} (hfd : fd ≠ control) :
    DataKeeps (ftpServer control Orderly (Steady control)) (Awaits control) (· = w₀) Harmless fd where
  recv _ := silent_keeps (by simpa [Op.talks] using hfd)
  send _ := silent_keeps (by simpa [Op.talks] using hfd)
  select _ _ := silent_keeps rfl
  text _ _ _ _ _ _ h := h.2
  idlecb _ _ _ := silent_keeps rfl
  fault _ _ := trivial

theorem steady_fileKeeps :
    FileKeeps (ftpServer control Orderly (Steady control)) (Awaits control) (· = w₀) where
  fopen _ _ := silent_keeps rfl
  fflush _ := silent_keeps rfl
  fclose _ := silent_keeps rfl
  unlink _ := silent_keeps rfl

theorem steady_copyKeeps :
    CopyKeeps (ftpServer control Orderly (Steady control)) (Awaits control) (· = w₀) where
  malloc _ := silent_keeps rfl
  fread _ _ := silent_keeps rfl
  fwrite _ _ := silent_keeps rfl

/-- Behind `accessFtpClient` a data connection is open, and its reply is owed, or neither. -/
theorem accessFtpClient_open (typ : Typ) (mode : Mode) {path : Option Bytes} (hpath : PathFits path)
    (h : Owed control [] nControl w) :
    wp (ftpServer control Orderly (Steady control)) (Awaits control)
      (accessFtpClient path typ mode nControl)
      (fun r w' => match r.2 with
        | none => Owed control [] r.1 w'
        | some nData => Pending control r.1 w' ∧ nData.handle ≠ control) w := by
  have hhandle := h.handle_eq
  have hrules := @server_rules control Orderly (Steady control)
  rw [← hhandle] at hrules
  have hspec := @accessFtpClient_spec _ _ _ _ _ _ w 0 _ hrules path typ mode h.dir_eq trivial
  rw [hhandle] at hspec
  refine ((accessFtpClient_pending typ mode hpath h).and_returned hspec).mono ?_
  rintro ⟨nc, nData⟩ w' ⟨hpost, ⟨-, hdata⟩, -⟩
  cases nData with
  | none => exact hpost
  | some nData =>
    obtain ⟨-, fd, buf, rfl, -, hfd⟩ := hdata
    exact ⟨hpost, hfd⟩

theorem xfer_quiet (localfile : Option Bytes) {path : Option Bytes} (hpath : PathFits path) (typ : Typ)
    (mode : Mode) (h : Owed control [] nControl w) :
    wp (ftpServer control Orderly (Steady control)) (Awaits control)
      (xfer localfile path nControl typ mode) (fun r w' => Owed control [] r.2 w') w := by
  -- Whatever is copied in between, closing takes the one reply that is still owed.
  have hopened : ∀ localfile file w, Owed control [] nControl w →
      wp (ftpServer control Orderly (Steady control)) (Awaits control)
        (xferOpened localfile file path nControl typ mode)
        (fun e w' => Owed control [] e.nControl w') w := by
    intro localfile file w h
    rw [xferOpened]
    refine (accessFtpClient_open typ mode hpath h).bind ?_
    rintro ⟨nc, nData⟩ w' hpost
    cases nData with
    | none =>
      refine (xferDiscard_frame localfile file typ steady_fileKeeps rfl).bind ?_
      rintro _ w rfl
      exact wp_ret.mpr hpost
    | some nData =>
      obtain ⟨hpending, hfd⟩ := hpost
      refine (xferData_frame file typ nc (steady_dataKeeps hfd) steady_copyKeeps rfl).bind ?_
      rintro ⟨rv, nData', nc'⟩ w ⟨rfl, -, hnoted⟩
      refine (xferClose_frame localfile file typ rv steady_fileKeeps rfl).bind ?_
      rintro _ w rfl
      exact (closeFtpClient_quiet nData' (.inl (hpending.noted hnoted))).bind fun _ _ h => wp_ret.mpr h
  rw [xfer]
  refine wp.bind (Q := fun e w => Owed control [] e.nControl w) ?_ fun _ _ h => wp_ret.mpr h
  rw [xferEnd.eq_def]
  cases localfile with
  | none => exact hopened _ _ w h
  | some name =>
    refine wp_silent rfl fun r _ => ?_
    cases r with
    | error text => exact wp_ret.mpr (h.respond _)
    | ok u => exact hopened _ _ w h

end

/-! ## Sessions -/

/-- The path of a transfer. -/
def Transfer.path : Transfer → Option Bytes
  | get _ path _ => path
  | put _ path _ => path
  | dir _ path => path
  | nlst _ path => path
  | mlsd _ path => path

/-- The operations on a connected control connection. -/
def Request.Operates : Request → Prop
  | .connect _ _ | .quit => False
  | _ => True

/-- The calls of a caller that opens one data connection at a time and sends no command while it is
open, with arguments that each make one command line. -/
def Calls (s : Handles) : Request → Prop
  | .connect _ _ | .quit => False
  | .command c => s.datas = [] ∧ ∀ line ∈ c.lines, OneLine line
  | .transfer t => s.datas = [] ∧ PathFits t.path
  | .access path _ _ => s.datas = [] ∧ PathFits path
  | _ => True

/-- A caller that makes calls as `calls` says. -/
def caller (calls : Handles → Request → Prop) : Session Op Op.Res Request Handles Server where
  run := Request.run
  may s _ r := calls s r

/-- No reply is left unread but the final one of the open transfer. -/
def InStep (s : Handles) (w : Server) : Prop :=
  ∀ c ∈ s.control, ∃ u, c.Unread u ∧
    match s.datas with
    | [] => u ++ w.wire = []
    | [_] => ∃ r ∈ w.last, (50 ≤ r.digit ∧ r.digit ≤ 53) ∧ u ++ w.wire = r.bytes
    | _ => False

/-- The states between two calls. -/
inductive Synced (control : Nat) : Handles → Server → Prop where
  | idle {c : NetBuf} {w : Server} (howed : Owed control [] c w) : Synced control ⟨some c, []⟩ w
  | busy {c d : NetBuf} {w : Server} (hpending : Pending control c w) (hfd : d.handle ≠ control) :
      Synced control ⟨some c, [d]⟩ w

theorem Command.lines_begin (c : Command) : ∀ line ∈ c.lines, ¬beginsTransfer line := by
  have hverb : ∀ {verb : Bytes} (arg : Bytes), 4 ≤ verb.length → ¬beginsTransfer verb →
      ¬beginsTransfer (verb ++ arg) := by
    intro verb arg hlen hno
    rwa [beginsTransfer, List.take_append_of_le_length hlen]
  intro line hline
  cases c with
  | login user pass | rename src dst =>
    simp only [lines, List.mem_cons, List.not_mem_nil, or_false] at hline
    rcases hline with rfl | rfl
    · exact hverb _ (by decide) (by decide)
    · exact hverb _ (by decide) (by decide)
  | fileSize path size mode =>
    simp only [lines, List.mem_cons, List.not_mem_nil, or_false] at hline
    rcases hline with rfl | rfl
    · exact (typeCommand_oneLine mode).2
    · exact hverb _ (by decide) (by decide)
  | pwd _ path | changeDirUp | sysType _ buf =>
    obtain rfl := List.mem_singleton.mp hline
    decide
  | site cmd | changeDir path | makeDir path | removeDir path | deleteData fnm | modDate _ path dt =>
    obtain rfl := List.mem_singleton.mp hline
    exact hverb _ (by decide) (by decide)

section

variable {control : Nat} {nControl : NetBuf} {s : Handles} {w : Server}

theorem command_sendKeeps :
    SendKeeps (ftpServer control Orderly (Steady control)) (Awaits control) (Owed control [])
      (fun line => OneLine line ∧ ¬beginsTransfer line) where
  send _ c _ _ hP h := (sendCommand_quiet c hP.1 hP.2 h).mono fun _ _ hpost => hpost.2
  fault _ _ _ := trivial

/-- The options have nothing to do with what is owed. -/
theorem Configure.apply_options (c : Configure) (nControl : NetBuf) :
    ∃ cmode idletime idlecb idlearg cbbytes, c.apply nControl =
      { nControl with
        cmode := cmode, idletime := idletime, idlecb := idlecb, idlearg := idlearg
        cbbytes := cbbytes } := by
  cases c with
  | setOptions opt =>
    cases opt with
    | connmode cmode => cases cmode <;> exact ⟨_, _, _, _, _, rfl⟩
    | _ => exact ⟨_, _, _, _, _, rfl⟩
  | setCallback opt => exact ⟨_, _, _, _, _, rfl⟩
  | clearCallback => exact ⟨_, _, _, _, _, rfl⟩

theorem Owed.configure {bytes : Bytes} (h : Owed control bytes nControl w) (c : Configure) :
    Owed control bytes (c.apply nControl) w := by
  obtain ⟨u, hunread, hstream⟩ := h.stream
  obtain ⟨_, _, _, _, _, happly⟩ := c.apply_options nControl
  rw [happly]
  exact ⟨h.dir_eq, h.handle_eq, h.inbox_eq, u, ⟨hunread.1, hunread.2, hunread.3⟩, hstream⟩

theorem Pending.configure (h : Pending control nControl w) (c : Configure) :
    Pending control (c.apply nControl) w := by
  obtain ⟨r, hr, hfinal, hshort, howed⟩ := h.owed
  refine ⟨⟨r, hr, hfinal, hshort, howed.configure c⟩, ?_⟩
  obtain ⟨_, _, _, _, _, happly⟩ := c.apply_options nControl
  rw [happly]
  exact h.response

theorem onData_synced (h : Synced control s w) (i : Nat)
    (f : NetBuf → NetBuf → Client (NetBuf × NetBuf))
    (hf : ∀ nData nc, nData.handle ≠ control →
      wp (ftpServer control Orderly (Steady control)) (Awaits control) (f nData nc)
        (fun r w' => w' = w ∧ nData.Counted r.1 ∧ nc.Noted Harmless r.2) w) :
    wp (ftpServer control Orderly (Steady control)) (Awaits control) (Request.onData s i f)
      (Synced control) w := by
  rw [Request.onData]
  cases h with
  | idle howed => exact wp_ret.mpr (.idle howed)
  | @busy c d _ hpending hfd =>
    cases i with
    | zero =>
      refine (hf d c hfd).bind ?_
      rintro ⟨d', nc⟩ w ⟨rfl, hcounted, hnoted⟩
      refine wp_ret.mpr (.busy (hpending.noted hnoted) ?_)
      rw [hcounted.handle_eq]
      exact hfd
    | succ i => exact wp_ret.mpr (.busy hpending hfd)

theorem run_synced (r : Request) (h : Synced control s w) (hcalls : Calls s r) :
    wp (ftpServer control Orderly (Steady control)) (Awaits control) (r.run s) (Synced control) w := by
  -- One case for each request; those that need the control connection come only while it is idle.
  cases r with
  | connect host port => exact hcalls.elim
  | quit => exact hcalls.elim
  | configure conf =>
    cases h with
    | idle howed => exact wp_ret.mpr (.idle (howed.configure conf))
    | busy hpending hfd => exact wp_ret.mpr (.busy (hpending.configure conf) hfd)
  | command cmd =>
    obtain ⟨hidle, hlines⟩ := hcalls
    cases h with
    | busy => cases hidle
    | idle howed =>
      have hP : ∀ line ∈ cmd.lines, OneLine line ∧ ¬beginsTransfer line :=
        fun line hline => ⟨hlines line hline, cmd.lines_begin line hline⟩
      exact (cmd.run_keeps command_sendKeeps hP howed).bind fun _ _ h => wp_ret.mpr (.idle h)
  | transfer t =>
    obtain ⟨hidle, hpath⟩ := hcalls
    cases h with
    | busy => cases hidle
    | @idle c _ howed =>
      have hrun : wp (ftpServer control Orderly (Steady control)) (Awaits control) (t.run c)
          (fun c' w' => Owed control [] c' w') w := by
        cases t <;> exact (xfer_quiet _ hpath _ _ howed).bind fun _ _ h => wp_ret.mpr h
      exact hrun.bind fun _ _ h => wp_ret.mpr (.idle h)
  | access path typ mode =>
    obtain ⟨hidle, hpath⟩ := hcalls
    cases h with
    | busy => cases hidle
    | idle howed =>
      refine (accessFtpClient_open typ mode hpath howed).bind ?_
      rintro ⟨nc, nData⟩ w' hpost
      cases nData with
      | none => exact wp_ret.mpr (.idle hpost)
      | some nData => exact wp_ret.mpr (.busy hpost.1 hpost.2)
  | read i max buf =>
    rw [Request.run]
    refine onData_synced h i _ fun nData nc hfd => ?_
    refine (readFtpClient_frame buf nc (steady_dataKeeps hfd) rfl).bind fun _ _ h => wp_ret.mpr h
  | write i buf =>
    rw [Request.run]
    refine onData_synced h i _ fun nData nc hfd => ?_
    refine (writeFtpClient_frame buf nc (steady_dataKeeps hfd) rfl).bind fun _ _ h => wp_ret.mpr h
  | close i =>
    cases h with
    | idle howed => exact wp_ret.mpr (.idle howed)
    -- Closing the data connection takes the final reply, and the client is idle again.
    | @busy c d _ hpending hfd =>
      cases i with
      | zero => exact (closeFtpClient_quiet d (.inl hpending)).bind fun _ _ h => wp_ret.mpr (.idle h)
      | succ i => exact wp_ret.mpr (.busy hpending hfd)

theorem Synced.inStep (h : Synced control s w) : InStep s w := by
  cases h with
  | idle howed =>
    rintro _ ⟨⟩
    obtain ⟨u, hunread, hstream⟩ := howed.stream
    exact ⟨u, hunread, hstream⟩
  | busy hpending hfd =>
    rintro _ ⟨⟩
    obtain ⟨r, hr, hfinal, -, howed⟩ := hpending.owed
    obtain ⟨u, hunread, hstream⟩ := howed.stream
    exact ⟨u, hunread, r, hr, hfinal, hstream⟩

end

/-- A caller that calls as `Calls` says, on a system and with a server that the client keeps up with, is
in step with the server. -/
theorem inStep_of_steady {nControl : NetBuf} (hdir : nControl.dir = .control)
    (hunread : nControl.Unread []) :
    (caller Calls).Sound
      (ftpServer nControl.handle Orderly (Steady nControl.handle)) (Awaits nControl.handle) InStep
      ⟨some nControl, []⟩ ⟨[], [], none⟩ :=
  Session.sound (Synced nControl.handle) (.idle ⟨hdir, rfl, rfl, [], hunread, rfl⟩)
    (fun _ _ r h hcalls => run_synced r h hcalls) fun _ _ h => h.inStep

theorem inStep_of_steady_example :
    (caller Calls).Sound (ftpServer 3 Orderly (Steady 3)) (Awaits 3) InStep
      ⟨some exampleControl, []⟩ ⟨[], [], none⟩ :=
  inStep_of_steady (rfl : exampleControl.dir = .control) ⟨rfl, rfl, _, rfl, rfl⟩

/-! ## A transfer command that is not sent -/

/-- A reply of one line. -/
def Reply.single (text : Bytes) (h : LF ∉ text ∧ 0 ∉ text ∧ 3 < text.length)
    (hsingle : ¬multiLine (chomp (text ++ [LF]))) :
    Reply where
  first := text ++ [LF]
  more := []
  lines := by
    rintro l hl
    obtain rfl := List.mem_singleton.mp hl
    exact ⟨text, rfl, h.1, fun hnil => by simp [hnil] at h, h.2.1⟩
  code := by
    rw [List.length_append]
    omega
  whole := by rw [afterReply, if_neg hsingle]

def typeReply : Reply := .single (ascii "200 ok\r") (by decide) (by decide)

def passiveReply : Reply := .single (ascii "227 (10,0,0,1,4,0)\r") (by decide) (by decide)

/-- A command line and its reply, received in one piece. -/
def answered (cmd : Bytes) (r : Reply) : FtpTrace :=
  [sendsAll 3 (cmd ++ [CR, LF]),
    ⟨.recv 3 BUFFER_SIZE, some ⟨r.bytes.take BUFFER_SIZE, List.length_take_le ..⟩⟩]

theorem answered_path {cmd : Bytes} {r : Reply} {last : Option Reply} (hline : OneLine cmd)
    (hfinal : 50 ≤ r.digit ∧ r.digit ≤ 53) (hlen : r.bytes.length ≤ BUFFER_SIZE) :
    Path (ftpServer 3 (fun _ _ => True) fun _ _ => True) ⟨[], [], last⟩ (answered cmd r)
      ⟨[], [], some r⟩ := by
  have htake : r.bytes.take BUFFER_SIZE = r.bytes := List.take_of_length_le hlen
  have hreceive : Path (ftpServer 3 (fun _ _ => True) fun _ _ => True) ⟨[], r.bytes, some r⟩
      [⟨.recv 3 BUFFER_SIZE, some ⟨r.bytes.take BUFFER_SIZE, List.length_take_le ..⟩⟩]
      ⟨[], [], some r⟩ := by
    refine .cons ⟨⟨_, rfl, ?_, [], by simp [htake], rfl⟩, trivial⟩ .nil
    dsimp only
    rw [htake]
    intro hnil
    have hcode := r.code
    simp only [Reply.bytes, List.flatten_cons, List.append_eq_nil_iff] at hnil
    simp [hnil.1] at hcode
  refine .cons ⟨⟨[⟨none, r⟩], ?_, ?_⟩, trivial⟩ hreceive
  · rw [List.take_length, List.nil_append, hline]
    exact .cons ⟨⟨hfinal, fun _ hmem => by cases hmem⟩, trivial⟩ .nil
  · rw [List.take_length, List.nil_append, hline]
    simp [Replies.bytes, Replies.lead, Replies.behind]

theorem passiveAddress_size : #[(4 : UInt8), 0, 10, 0, 0, 1].size = 6 := rfl

/-- The data connection 4 is set up, and the command line of the transfer cannot be sent. -/
def unsentTransfer : FtpTrace :=
  answered (typeCommand 73) typeReply ++ answered (ascii "PASV") passiveReply ++
    [⟨.uninit, .replicate 6 0⟩,
      ⟨.socket, some 4⟩,
      ⟨.connect 4 ⟨#[4, 0, 10, 0, 0, 1], passiveAddress_size⟩, true⟩,
      ⟨.calloc, true⟩,
      ⟨.send 3 (ascii "RETR g\r\n"), none⟩,
      ⟨.shutdown 4, ()⟩,
      ⟨.closesocket 4, ()⟩]

theorem unsentTransfer_path : Path (ftpServer 3 (fun _ _ => True) fun _ _ => True) ⟨[], [], none⟩
    unsentTransfer ⟨[], [], some passiveReply⟩ := by
  have hsilent : ∀ {op : Op} {r : Op.Res op} {es : FtpTrace} {w w' : Server},
      w.Step 3 (fun _ _ => True) ⟨op, r⟩ w →
      Path (ftpServer 3 (fun _ _ => True) fun _ _ => True) w es w' →
      Path (ftpServer 3 (fun _ _ => True) fun _ _ => True) w (⟨op, r⟩ :: es) w' :=
    fun h hes => .cons ⟨h, trivial⟩ hes
  refine Path.append (Path.append (answered_path (by decide) (by decide) (by decide))
    (answered_path (by decide) (by decide) (by decide))) ?_
  refine hsilent ⟨nofun, rfl⟩ (hsilent ⟨by decide, rfl⟩ (hsilent ⟨nofun, rfl⟩ (hsilent ⟨nofun, rfl⟩ ?_)))
  exact hsilent ⟨nofun, rfl⟩ (hsilent ⟨nofun, rfl⟩ (hsilent ⟨nofun, rfl⟩ .nil))

/-- When the command line of a transfer cannot be sent, the client waits for a reply to it. -/
theorem not_inStep : ¬∀ nControl : NetBuf, nControl.dir = .control → nControl.Unread [] →
    (caller fun _ r => r.Operates).Sound
      (ftpServer nControl.handle (fun _ _ => True) fun _ _ => True) (Awaits nControl.handle) InStep
      ⟨some nControl, []⟩ ⟨[], [], none⟩ := by
  intro h
  have hsound := (h exampleControl rfl ⟨rfl, rfl, _, rfl, rfl⟩ _ _ .start).2
    (.access (some (ascii "g")) .fileRead .image) trivial
  have hreplay : (Request.run (.access (some (ascii "g")) .fileRead .image)
      ⟨some exampleControl, []⟩).replays 4 unsentTransfer
        (Outcome.asks fun op => op = .recv 3 BUFFER_SIZE) = true := by decide +kernel
  obtain ⟨op, hexec, hout⟩ := Prog.replays_asking hreplay unsentTransfer_path
  obtain rfl := of_decide_eq_true hout
  exact hsound.stopped hexec rfl rfl

end Ftp
