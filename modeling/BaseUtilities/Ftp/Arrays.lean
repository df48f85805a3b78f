import BaseUtilities.Ftp.Commands

/-!
# Local arrays

The functions that build commands, with the arrays in which they put them together.  `Data` and
`Commands` pass the commands on as strings; here every string is formatted in an array of its function
and read back from it, and a call that leaves an array ends there.
-/

open Effects Mem

namespace Ftp

/-- A string that a caller passes, up to its NUL. -/
abbrev CString := { s : Bytes // (0 : UInt8) ∉ s }

theorem CString.text (verb : Bytes) (hverb : (0 : UInt8) ∉ verb) (arg : CString) :
    (0 : UInt8) ∉ verb ++ arg.1 := by
  rw [List.mem_append, not_or]
  exact ⟨hverb, arg.2⟩

namespace Local

/-- A write or a read outside a local array. -/
inductive Overflow where
  | overflow
  deriving DecidableEq, Repr

/-- A call with its local arrays, at its end where it leaves one of them. -/
abbrev Call (α : Type) := ExceptT Overflow Client α

/-- What the local arrays of each size hold before they are written. -/
abbrev Stack := (n : Nat) → Buffer n

variable {n : Nat} {α : Type}

/-- The result of an access that stays in its array. -/
def within : Option α → Call α
  | some a => return a
  | none => throw .overflow

/-- Bytes written at `buf[off]`. -/
def store (buf : Buffer n) (off : Nat) (bytes : Bytes) : Call (Buffer n) := within (buf.store? off bytes)

/-- `sprintf(buf, ...)` and `strcpy(buf, ...)`, with the text that they write. -/
def sprintf (buf : Buffer n) (text : Bytes) : Call (Buffer n) := within (buf.strcpy? text)

/-- The string in an array. -/
def str (buf : Buffer n) : Call Bytes := within buf.cstr?

variable (stack : Stack)

/-- `sendCommand` -/
def sendCommand (cmd : Bytes) (expresp : UInt8) (nControl : NetBuf) : Call (Int × NetBuf) := do
  let buf := stack TEMP_BUFFER_SIZE
  if nControl.dir ≠ .control then
    return (0, nControl)
  else if cmd.length + 3 > TEMP_BUFFER_SIZE then
    return (0, nControl)
  else
    let buf ← sprintf buf (cmd ++ [CR, LF])
    let line ← str buf
    match ← Sys.send nControl.handle line with
    | none => return (0, nControl)
    | some sent =>
      if sent.1 = 0 then return (0, nControl)
      else readResponse expresp nControl

/-! ## Commands with a verb and an argument -/

def verbCommand (verb : Bytes) (slack : Nat) (arg : CString) (nControl : NetBuf) : Call (Int × NetBuf) := do
  let buf := stack TEMP_BUFFER_SIZE
  if arg.1.length + slack > TEMP_BUFFER_SIZE then
    return (0, nControl)
  else
    let buf ← sprintf buf (verb ++ arg)
    sendCommand stack (← str buf) 50 nControl

def siteFtpClient (cmd : CString) (nControl : NetBuf) : Call (Int × NetBuf) :=
  verbCommand stack (ascii "SITE ") 7 cmd nControl

def changeDirFtpClient (path : CString) (nControl : NetBuf) : Call (Int × NetBuf) :=
  verbCommand stack (ascii "CWD ") 6 path nControl

def makeDirFtpClient (path : CString) (nControl : NetBuf) : Call (Int × NetBuf) :=
  verbCommand stack (ascii "MKD ") 6 path nControl

def removeDirFtpClient (path : CString) (nControl : NetBuf) : Call (Int × NetBuf) :=
  verbCommand stack (ascii "RMD ") 6 path nControl

def deleteDataFtpClient (fnm : CString) (nControl : NetBuf) : Call (Int × NetBuf) :=
  verbCommand stack (ascii "DELE ") 7 fnm nControl

/-- `getModDateFtpClient` -/
def getModDateFtpClient {max : Nat} (path : CString) (dt : Buffer max) (nControl : NetBuf) :
    Call (Int × Buffer max × NetBuf) := do
  let buf := stack TEMP_BUFFER_SIZE
  if path.1.length + 7 > TEMP_BUFFER_SIZE then
    return (0, dt, nControl)
  else
    let buf ← sprintf buf (ascii "MDTM " ++ path)
    let (rv, nControl) ← sendCommand stack (← str buf) 50 nControl
    if rv = 0 then
      return (0, dt, nControl)
    else
      let dt ← (Prog.ofOption (copyBounded dt (nControl.response.bytes.drop 4)) : Client (Buffer max))
      return (1, dt, nControl)

/-- `getFileSizeFtpClient`: both commands are put together in the same array. -/
def getFileSizeFtpClient (path : CString) (size : UInt32) (mode : UInt8) (nControl : NetBuf) :
    Call (Int × UInt32 × NetBuf) := do
  let cmd := stack TEMP_BUFFER_SIZE
  if path.1.length + 7 > TEMP_BUFFER_SIZE then
    return (0, size, nControl)
  else
    let cmd ← sprintf cmd (ascii "TYPE " ++ [mode])
    let (rv, nControl) ← sendCommand stack (← str cmd) 50 nControl
    if rv = 0 then
      return (0, size, nControl)
    else
      let cmd ← sprintf cmd (ascii "SIZE " ++ path)
      let (rv, nControl) ← sendCommand stack (← str cmd) 50 nControl
      if rv = 0 then
        return (0, size, nControl)
      else
        let response ← (Prog.ofOption nControl.response.cstr? : Client Bytes)
        match scanSize response with
        | some sz => return (1, sz, nControl)
        | none => return (0, size, nControl)

/-- `renameFtpClient` -/
def renameFtpClient (src dst : CString) (nControl : NetBuf) : Call (Int × NetBuf) := do
  let cmd := stack TEMP_BUFFER_SIZE
  if src.1.length + 7 > TEMP_BUFFER_SIZE ∨ dst.1.length + 7 > TEMP_BUFFER_SIZE then
    return (0, nControl)
  else
    let cmd ← sprintf cmd (ascii "RNFR " ++ src)
    let (rv, nControl) ← sendCommand stack (← str cmd) 51 nControl
    if rv = 0 then
      return (0, nControl)
    else
      let cmd ← sprintf cmd (ascii "RNTO " ++ dst)
      sendCommand stack (← str cmd) 50 nControl

/-- `loginFtpClient` -/
def loginFtpClient (user pass : CString) (nControl : NetBuf) : Call (Int × NetBuf) := do
  let tempbuf := stack 64
  if user.1.length + 7 > 64 ∨ pass.1.length + 7 > 64 then
    return (0, nControl)
  else
    let tempbuf ← sprintf tempbuf (ascii "USER " ++ user)
    let (rv, nControl) ← sendCommand stack (← str tempbuf) 51 nControl
    if rv = 0 then
      if nControl.response.first = 50 then return (1, nControl) else return (0, nControl)
    else
      let tempbuf ← sprintf tempbuf (ascii "PASS " ++ pass)
      sendCommand stack (← str tempbuf) 50 nControl

/-! ## Transfers -/

/-- `openPort`, up to `socket` -/
def portAddress (nControl : NetBuf) : Call (NetBuf × Option SockAddr) := do
  match nControl.cmode with
  | .passive =>
    let (rv, nControl) ← sendCommand stack (ascii "PASV") 50 nControl
    if rv = 0 then
      return (nControl, none)
    else
      let text ← (Prog.ofOption nControl.response.cstr? : Client Bytes)
      match strchr 40 text with
      | none => return (nControl, none)
      | some cp =>
        let v ← Sys.uninit
        let v := scanFields [2, 3, 4, 5, 0, 1] (cp.drop 1) v
        return (nControl, some (v.map UInt32.toUInt8))
  | .active =>
    let sa ← Sys.getsockname nControl.handle
    return (nControl, sa)

/-- `openPort`, from `socket` on -/
def portConnect (nControl : NetBuf) (sData : Nat) (sa : SockAddr) : Call (NetBuf × Bool) := do
  match nControl.cmode with
  | .passive =>
    if ← Sys.connect sData sa then
      return (nControl, true)
    else
      Sys.closesocket sData
      return (nControl, false)
  | .active =>
    let sa := (sa.set 0 0 sinPort_high).set 1 0 sinPort_low
    if !(← Sys.bind sData sa) then
      Sys.closesocket sData
      return (nControl, false)
    else if !(← Sys.listen sData) then
      Sys.closesocket sData
      return (nControl, false)
    else
      match ← Sys.getsockname sData with
      | none => return (nControl, false)
      | some sa =>
        let buf ← sprintf (stack TEMP_BUFFER_SIZE) (portCommand sa)
        let (rv, nControl) ← sendCommand stack (← str buf) 50 nControl
        if rv = 0 then
          Sys.closesocket sData
          return (nControl, false)
        else
          return (nControl, true)

/-- `openPort` -/
def openPort (nControl : NetBuf) (mode : Mode) (dir : Dir) : Call (NetBuf × Option NetBuf) := do
  if nControl.dir ≠ .control then
    return (nControl, none)
  else if dir = .control then
    let nControl ← nControl.report (ascii "Invalid direction 0\n")
    return (nControl, none)
  else if mode ≠ .ascii ∧ mode ≠ .image then
    let nControl ← nControl.report (ascii "Invalid mode " ++ [mode.char] ++ ascii "\n")
    return (nControl, none)
  else
    let (nControl, sa) ← portAddress stack nControl
    match sa with
    | none => return (nControl, none)
    | some sa =>
      match ← Sys.socket with
      | none => return (nControl, none)
      | some sData =>
        let (nControl, ok) ← portConnect stack nControl sData sa
        if !ok then
          return (nControl, none)
        else
          let nData ← portData nControl sData mode dir
          return (nControl, nData)

/-- The part of `accessFtpClient` that puts the path behind the verb in `buf`; there is no array where
the path does not fit. -/
def appendPath (buf : Buffer TEMP_BUFFER_SIZE) : Option CString → Call (Option (Buffer TEMP_BUFFER_SIZE))
  | none => return some buf
  | some path => do
    let i := (← str buf).length
    let buf ← store buf i [32]
    let i := i + 1
    if path.1.length + i + 1 ≥ TEMP_BUFFER_SIZE then
      return none
    else
      return some (← store buf i (path.1 ++ [0]))

/-- `accessFtpClient`: the type and the transfer command are put together in the same array. -/
def accessFtpClient (path : Option CString) (typ : Typ) (mode : Mode) (nControl : NetBuf) :
    Call (NetBuf × Option NetBuf) := do
  if path = none ∧ (typ = .fileWrite ∨ typ = .fileRead) then
    let nControl ← nControl.report (ascii "Missing path argument for file transfer\n")
    return (nControl, none)
  else
    -- One array for both commands: the verb is written over `TYPE`, whose tail stays behind it.
    let buf ← sprintf (stack TEMP_BUFFER_SIZE) (ascii "TYPE " ++ [mode.char])
    let (rv, nControl) ← sendCommand stack (← str buf) 50 nControl
    if rv = 0 then
      return (nControl, none)
    else
      match typ.command with
      | none =>
        let nControl ← nControl.report (ascii "Invalid open type " ++ decimalInt typ.number ++ ascii "\n")
        return (nControl, none)
      | some (verb, dir) =>
        let buf ← sprintf buf verb
        match ← appendPath buf path with
        | none => return (nControl, none)
        | some buf =>
          let (nControl, nData) ← openPort stack nControl mode dir
          match nData with
          | none => return (nControl, none)
          | some nData =>
            let (rv, nControl) ← sendCommand stack (← str buf) 49 nControl
            if rv = 0 then
              let (_, nControl) ← closeFtpClient nData nControl
              return (nControl, none)
            else
              match nControl.cmode with
              | .passive => return (nControl, some nData)
              | .active =>
                let (rv, nData, nControl) ← acceptConnection nData nControl
                if rv = 0 then
                  let (_, nControl) ← closeFtpClient nData nControl
                  return (nControl, none)
                else
                  return (nControl, some nData)

/-! ## Strings in arrays -/

theorem sprintf_eq (buf : Buffer n) {text : Bytes} (h : text.length < n) :
    sprintf buf text = pure (buf.overlay (text ++ [0])) := by
  have hfits : (text ++ [0]).length ≤ n := by
    rw [List.length_append, List.length_singleton]
    omega
  rw [sprintf, Buffer.strcpy?, buf.store?_zero hfits, within]

/-- A string that has been written is read back. -/
theorem str_overlay (buf : Buffer n) {text rest : Bytes} (hzero : (0 : UInt8) ∉ text)
    (h : (text ++ 0 :: rest).length ≤ n) : str (buf.overlay (text ++ 0 :: rest)) = pure text := by
  rw [str, buf.overlay_cstr? hzero h, within]

/-- A string is formatted in an array that it fits. -/
theorem format_bind (buf : Buffer n) {text : Bytes} (hzero : (0 : UInt8) ∉ text) (h : text.length < n)
    (f : Buffer n → Bytes → Call α) :
    (do let buf ← sprintf buf text; f buf (← str buf)) = f (buf.overlay (text ++ [0])) text := by
  have hfits : (text ++ [0]).length ≤ n := by
    rw [List.length_append, List.length_singleton]
    omega
  rw [sprintf_eq buf h, pure_bind, str_overlay buf hzero hfits, pure_bind]

theorem sendCommand_eq {cmd : Bytes} (hzero : (0 : UInt8) ∉ cmd) (expresp : UInt8) (nControl : NetBuf) :
    sendCommand stack cmd expresp nControl = monadLift (Ftp.sendCommand cmd expresp nControl) := by
  unfold sendCommand Ftp.sendCommand
  by_cases hdir : nControl.dir ≠ .control
  · rw [if_pos hdir, if_pos hdir]
    rfl
  rw [if_neg hdir, if_neg hdir]
  by_cases hlong : cmd.length + 3 > TEMP_BUFFER_SIZE
  · rw [if_pos hlong, if_pos hlong]
    rfl
  rw [if_neg hlong, if_neg hlong]
  have hzero' : (0 : UInt8) ∉ cmd ++ [CR, LF] := by
    rw [List.mem_append, not_or]
    exact ⟨hzero, by decide⟩
  have hfits : (cmd ++ [CR, LF]).length < TEMP_BUFFER_SIZE := by
    rw [List.length_append, List.length_cons, List.length_singleton]
    omega
  refine (format_bind _ hzero' hfits _).trans ?_
  rw [monadLift_bind]
  refine bind_congr fun sent => ?_
  cases sent with
  | none => rfl
  | some sent =>
    dsimp only
    split
    · rfl
    · rfl

theorem verbCommand_eq (verb : Bytes) (slack : Nat) (hverb : (0 : UInt8) ∉ verb)
    (hslack : verb.length < slack)
    (arg : CString) (nControl : NetBuf) :
    verbCommand stack verb slack arg nControl = monadLift (Ftp.verbCommand verb slack arg nControl) := by
  unfold verbCommand Ftp.verbCommand
  by_cases hlong : arg.1.length + slack > TEMP_BUFFER_SIZE
  · rw [if_pos hlong, if_pos hlong]
    rfl
  rw [if_neg hlong, if_neg hlong]
  have hzero : (0 : UInt8) ∉ verb ++ arg.1 := by
    rw [List.mem_append, not_or]
    exact ⟨hverb, arg.2⟩
  have hfits : (verb ++ arg.1).length < TEMP_BUFFER_SIZE := by
    rw [List.length_append]
    omega
  refine (format_bind _ hzero hfits _).trans ?_
  exact sendCommand_eq stack hzero 50 nControl

theorem getModDateFtpClient_eq {max : Nat} (path : CString) (dt : Buffer max) (nControl : NetBuf) :
    getModDateFtpClient stack path dt nControl = monadLift (Ftp.getModDateFtpClient path dt nControl) := by
  unfold getModDateFtpClient Ftp.getModDateFtpClient
  by_cases hlong : path.1.length + 7 > TEMP_BUFFER_SIZE
  · rw [if_pos hlong, if_pos hlong]
    rfl
  rw [if_neg hlong, if_neg hlong]
  have hzero : (0 : UInt8) ∉ ascii "MDTM " ++ path.1 := by
    rw [List.mem_append, not_or]
    exact ⟨by decide, path.2⟩
  have hfits : (ascii "MDTM " ++ path.1).length < TEMP_BUFFER_SIZE := by
    rw [List.length_append]
    have : (ascii "MDTM ").length = 5 := rfl
    omega
  refine (format_bind _ hzero hfits _).trans ?_
  rw [sendCommand_eq stack hzero, monadLift_bind]
  refine bind_congr fun r => ?_
  obtain ⟨rv, nc⟩ := r
  dsimp only
  split
  · rfl
  · rw [monadLift_bind]
    rfl


/-- The string behind `sprintf(buf, "TYPE %c", mode)`. -/
theorem format_type (buf : Buffer n) (mode : UInt8) (h : 7 ≤ n) (f : Buffer n → Bytes → Call α) :
    (do let buf ← sprintf buf (ascii "TYPE " ++ [mode]); f buf (← str buf)) =
      f (buf.overlay (ascii "TYPE " ++ [mode] ++ [0])) (typeCommand mode) := by
  have hlen : (ascii "TYPE " ++ [mode]).length < n := h
  rw [sprintf_eq buf hlen, pure_bind, typeCommand]
  by_cases hmode : mode = 0
  · subst hmode
    have hfits : (ascii "TYPE " ++ 0 :: [0]).length ≤ n := h
    rw [List.append_assoc, List.singleton_append, str_overlay buf (by decide) hfits, pure_bind, if_pos rfl,
      List.append_nil]
  · have hzero : (0 : UInt8) ∉ ascii "TYPE " ++ [mode] := by
      rw [List.mem_append, List.mem_singleton, not_or]
      exact ⟨by decide, Ne.symm hmode⟩
    have hfits : (ascii "TYPE " ++ [mode] ++ 0 :: []).length ≤ n := h
    rw [str_overlay buf hzero hfits, pure_bind, if_neg hmode]

theorem typeCommand_text (mode : UInt8) : (0 : UInt8) ∉ typeCommand mode := by
  rw [typeCommand, List.mem_append, not_or]
  refine ⟨by decide, ?_⟩
  split
  · exact List.not_mem_nil
  · next hmode =>
    rw [List.mem_singleton]
    exact Ne.symm hmode

theorem getFileSizeFtpClient_eq (path : CString) (size : UInt32) (mode : UInt8) (nControl : NetBuf) :
    getFileSizeFtpClient stack path size mode nControl =
      monadLift (Ftp.getFileSizeFtpClient path size mode nControl) := by
  unfold getFileSizeFtpClient Ftp.getFileSizeFtpClient
  -- The check of the length comes first in both and is the same one.
  by_cases hlong : path.1.length + 7 > TEMP_BUFFER_SIZE
  · rw [if_pos hlong, if_pos hlong]
    rfl
  rw [if_neg hlong, if_neg hlong]
  have hzero := CString.text (ascii "SIZE ") (by decide) path
  have hfits : (ascii "SIZE " ++ path.1).length < TEMP_BUFFER_SIZE := by
    rw [List.length_append]
    have : (ascii "SIZE ").length = 5 := rfl
    omega
  -- The array is overwritten twice, and each time read back as far as the NUL just written.
  refine (format_type _ mode (by decide) _).trans ?_
  rw [sendCommand_eq stack (typeCommand_text mode), monadLift_bind]
  refine bind_congr fun r => ?_
  obtain ⟨rv, nc⟩ := r
  dsimp only
  split
  · rfl
  refine (format_bind _ hzero hfits _).trans ?_
  rw [sendCommand_eq stack hzero, monadLift_bind]
  refine bind_congr fun r => ?_
  obtain ⟨rv, nc⟩ := r
  dsimp only
  split
  · rfl
  rw [monadLift_bind]
  refine bind_congr fun response => ?_
  cases scanSize response with
  | none => rfl
  | some sz => rfl

theorem renameFtpClient_eq (src dst : CString) (nControl : NetBuf) :
    renameFtpClient stack src dst nControl = monadLift (Ftp.renameFtpClient src dst nControl) := by
  unfold renameFtpClient Ftp.renameFtpClient
  by_cases hlong : src.1.length + 7 > TEMP_BUFFER_SIZE ∨ dst.1.length + 7 > TEMP_BUFFER_SIZE
  · rw [if_pos hlong, if_pos hlong]
    rfl
  rw [if_neg hlong, if_neg hlong]
  have hsrc := CString.text (ascii "RNFR ") (by decide) src
  have hdst := CString.text (ascii "RNTO ") (by decide) dst
  have hfits : ∀ {verb : Bytes} {arg : CString}, verb.length = 5 → ¬arg.1.length + 7 > TEMP_BUFFER_SIZE →
      (verb ++ arg.1).length < TEMP_BUFFER_SIZE := by
    intro verb arg hverb harg
    rw [List.length_append]
    omega
  rw [not_or] at hlong
  refine (format_bind _ hsrc (hfits rfl hlong.1) _).trans ?_
  rw [sendCommand_eq stack hsrc, monadLift_bind]
  refine bind_congr fun r => ?_
  obtain ⟨rv, nc⟩ := r
  dsimp only
  split
  · rfl
  refine (format_bind _ hdst (hfits rfl hlong.2) _).trans ?_
  exact sendCommand_eq stack hdst 50 nc

theorem loginFtpClient_eq (user pass : CString) (nControl : NetBuf) :
    loginFtpClient stack user pass nControl = monadLift (Ftp.loginFtpClient user pass nControl) := by
  unfold loginFtpClient Ftp.loginFtpClient
  by_cases hlong : user.1.length + 7 > 64 ∨ pass.1.length + 7 > 64
  · rw [if_pos hlong, if_pos hlong]
    rfl
  rw [if_neg hlong, if_neg hlong]
  have huser := CString.text (ascii "USER ") (by decide) user
  have hpass := CString.text (ascii "PASS ") (by decide) pass
  have hfits : ∀ {verb : Bytes} {arg : CString}, verb.length = 5 → ¬arg.1.length + 7 > 64 →
      (verb ++ arg.1).length < 64 := by
    intro verb arg hverb harg
    rw [List.length_append]
    omega
  rw [not_or] at hlong
  refine (format_bind _ huser (hfits rfl hlong.1) _).trans ?_
  rw [sendCommand_eq stack huser, monadLift_bind]
  refine bind_congr fun r => ?_
  obtain ⟨rv, nc⟩ := r
  dsimp only
  split
  · split
    · rfl
    · rfl
  refine (format_bind _ hpass (hfits rfl hlong.2) _).trans ?_
  exact sendCommand_eq stack hpass 50 nc

theorem portAddress_eq (nControl : NetBuf) :
    portAddress stack nControl = monadLift (Ftp.portAddress nControl) := by
  unfold portAddress Ftp.portAddress
  cases nControl.cmode with
  | passive =>
    dsimp only
    rw [sendCommand_eq stack (by decide), monadLift_bind]
    refine bind_congr fun r => ?_
    obtain ⟨rv, nc⟩ := r
    dsimp only
    split
    · rfl
    rw [monadLift_bind]
    refine bind_congr fun text => ?_
    cases strchr 40 text with
    | none => rfl
    | some cp =>
      dsimp only
      rw [monadLift_bind]
      rfl
  | active =>
    dsimp only
    rw [monadLift_bind]
    rfl

theorem portCommand_text (sa : SockAddr) :
    (portCommand sa).length ≤ 28 ∧ (0 : UInt8) ∉ portCommand sa := by
  have hbyte := decimal_byte
  have hcomma : (ascii ",").length = 1 ∧ (0 : UInt8) ∉ ascii "," := by decide
  have hverb : (ascii "PORT ").length = 5 ∧ (0 : UInt8) ∉ ascii "PORT " := by decide
  rw [portCommand]
  constructor
  · simp only [List.length_append, hcomma.1, hverb.1]
    have h0 := (hbyte sa[0]).1
    have h1 := (hbyte sa[1]).1
    have h2 := (hbyte sa[2]).1
    have h3 := (hbyte sa[3]).1
    have h4 := (hbyte sa[4]).1
    have h5 := (hbyte sa[5]).1
    omega
  · simp only [List.mem_append, (hbyte _).2, hcomma.2, hverb.2, or_self, not_false_eq_true]


theorem portConnect_eq (nControl : NetBuf) (sData : Nat) (sa : SockAddr) :
    portConnect stack nControl sData sa = monadLift (Ftp.portConnect nControl sData sa) := by
  -- The socket is closed on both ways out, for a failed `connect` and for a failed `bind` or `listen`.
  have hclose : (do
      let _ ← (monadLift (Sys.closesocket sData) : Call Unit)
      return (nControl, false)) =
        monadLift (do Sys.closesocket sData; return (nControl, false) : Client _) := by
    rw [monadLift_bind]
    rfl
  unfold portConnect Ftp.portConnect
  cases nControl.cmode with
  | passive =>
    dsimp only
    rw [monadLift_bind]
    refine bind_congr fun connected => ?_
    cases connected with
    | false => exact hclose
    | true => rfl
  | active =>
    dsimp only
    rw [monadLift_bind]
    refine bind_congr fun bound => ?_
    cases bound with
    | false => exact hclose
    | true =>
    simp only [Bool.not_true, Bool.false_eq_true, if_false]
    rw [monadLift_bind]
    refine bind_congr fun listening => ?_
    cases listening with
    | false => exact hclose
    | true =>
    simp only [Bool.not_true, Bool.false_eq_true, if_false]
    rw [monadLift_bind]
    refine bind_congr fun sa => ?_
    cases sa with
    | none => rfl
    | some sa =>
      -- `PORT` prints six numbers of at most three digits: it fits, and it holds no NUL.
      obtain ⟨hlen, hzero⟩ := portCommand_text sa
      refine (format_bind _ hzero (Nat.lt_of_le_of_lt hlen (by decide)) _).trans ?_
      dsimp only
      rw [sendCommand_eq stack hzero, monadLift_bind]
      refine bind_congr fun r => ?_
      obtain ⟨rv, nc⟩ := r
      dsimp only
      split
      · rw [monadLift_bind]
        rfl
      · rfl

theorem openPort_eq (nControl : NetBuf) (mode : Mode) (dir : Dir) :
    openPort stack nControl mode dir = monadLift (Ftp.openPort nControl mode dir) := by
  unfold openPort Ftp.openPort
  -- The first three branches only report an error; the rest is the address and then the connection.
  split
  · rfl
  split
  · rw [monadLift_bind]
    rfl
  split
  · rw [monadLift_bind]
    rfl
  rw [portAddress_eq, monadLift_bind]
  refine bind_congr fun r => ?_
  obtain ⟨nc, sa⟩ := r
  cases sa with
  | none => rfl
  | some sa =>
    dsimp only
    rw [monadLift_bind]
    refine bind_congr fun sData => ?_
    cases sData with
    | none => rfl
    | some sData =>
      dsimp only
      rw [portConnect_eq, monadLift_bind]
      refine bind_congr fun r => ?_
      obtain ⟨nc, ok⟩ := r
      cases ok with
      | false => rfl
      | true =>
        simp only [Bool.not_true, Bool.false_eq_true, if_false]
        rw [monadLift_bind]
        rfl

theorem appendPath_eq (buf : Buffer TEMP_BUFFER_SIZE) {verb : Bytes} (hverb : (0 : UInt8) ∉ verb)
    (hlen : verb.length + 2 ≤ TEMP_BUFFER_SIZE) (path : Option CString) :
    appendPath (buf.overlay (verb ++ [0])) path =
      pure ((transferCommand verb (path.map Subtype.val)).map fun cmd => buf.overlay (cmd ++ [0])) := by
  cases path with
  | none => rfl
  | some path =>
    -- `strlen(buf)` finds the NUL that `sprintf` left behind the verb.
    have hread : str (buf.overlay (verb ++ [0])) = pure verb :=
      str_overlay buf hverb (by rw [List.length_append, List.length_singleton]; omega)
    have hblank : store (buf.overlay (verb ++ [0])) verb.length [32] = pure (buf.overlay (verb ++ [32])) := by
      rw [store, Buffer.overlay_store? buf verb [0] [32] (Nat.le_refl _)
        (by rw [List.length_singleton]; omega), within]
    unfold appendPath
    dsimp only
    rw [hread, pure_bind, hblank, pure_bind, Option.map_some, transferCommand]
    -- The blank is written before the comparison; a path that does not fit ends the call there.
    by_cases hlong : path.1.length + (verb.length + 1) + 1 ≥ TEMP_BUFFER_SIZE
    · rw [if_pos hlong, if_pos hlong]
      rfl
    rw [if_neg hlong, if_neg hlong]
    have hpath : store (buf.overlay (verb ++ [32])) (verb.length + 1) (path.1 ++ [0]) =
        pure (buf.overlay (verb ++ [32] ++ path.1 ++ [0])) := by
      have hstore := Buffer.overlay_store? buf (verb ++ [32]) [] (path.1 ++ [0]) (Nat.zero_le _) (by
        simp only [List.length_append, List.length_singleton]
        omega)
      rw [List.append_nil, List.length_append, List.length_singleton, ← List.append_assoc] at hstore
      rw [store, hstore, within]
    rw [hpath]
    rfl

theorem transferCommand_text {verb cmd : Bytes} (hverb : (0 : UInt8) ∉ verb) {path : Option CString}
    (hlen : verb.length < TEMP_BUFFER_SIZE) (h : transferCommand verb (path.map Subtype.val) = some cmd) :
    (0 : UInt8) ∉ cmd ∧ cmd.length < TEMP_BUFFER_SIZE := by
  cases path with
  | none =>
    cases h
    exact ⟨hverb, hlen⟩
  | some path =>
    rw [Option.map_some, transferCommand] at h
    split at h
    · cases h
    next hfits =>
    cases h
    refine ⟨?_, ?_⟩
    · simp [hverb, path.2]
    · simp only [List.length_append, List.length_singleton]
      omega

theorem accessFtpClient_eq (path : Option CString) (typ : Typ) (mode : Mode) (nControl : NetBuf) :
    accessFtpClient stack path typ mode nControl =
      monadLift (Ftp.accessFtpClient (path.map Subtype.val) typ mode nControl) := by
  -- A refused command and a refused connection are left in the same way.
  have hclose : ∀ nData nc, (do
      let (_, nc) ← (monadLift (closeFtpClient nData nc) : Call _)
      return (nc, none)) = monadLift (do
        let (_, nc) ← closeFtpClient nData nc
        return (nc, (none : Option NetBuf)) : Client _) := by
    intro nData nc
    rw [monadLift_bind]
    rfl
  unfold accessFtpClient Ftp.accessFtpClient
  by_cases hnone : path = none ∧ (typ = .fileWrite ∨ typ = .fileRead)
  · rw [if_pos hnone, if_pos (by simpa using hnone), monadLift_bind]
    rfl
  rw [if_neg hnone, if_neg (by simpa using hnone)]
  refine (format_type _ mode.char (by decide) _).trans ?_
  rw [sendCommand_eq stack (typeCommand_text mode.char), monadLift_bind]
  refine bind_congr fun r => ?_
  obtain ⟨rv, nc⟩ := r
  dsimp only
  split
  · rfl
  cases hcmd : typ.command with
  | none =>
    dsimp only
    rw [monadLift_bind]
    rfl
  | some command =>
    obtain ⟨verb, dir⟩ := command
    -- Every verb of the table is four letters long, which is what the offsets below rest on.
    have hverb : (0 : UInt8) ∉ verb ∧ verb.length = 4 := by
      cases typ <;> cases hcmd <;> decide
    dsimp only
    rw [sprintf_eq _ (by rw [hverb.2]; decide), pure_bind, appendPath_eq _ hverb.1 (by rw [hverb.2]; decide),
      pure_bind]
    cases hpath : transferCommand verb (path.map Subtype.val) with
    | none => rfl
    | some cmd =>
      obtain ⟨hzero, hlen⟩ := transferCommand_text hverb.1 (by rw [hverb.2]; decide) hpath
      simp only [Option.map_some]
      rw [openPort_eq, monadLift_bind]
      refine bind_congr fun r => ?_
      obtain ⟨nc, nData⟩ := r
      cases nData with
      | none => rfl
      | some nData =>
        dsimp only
        rw [str_overlay _ hzero (by rw [List.length_append, List.length_singleton]; omega), pure_bind,
          sendCommand_eq stack hzero, monadLift_bind]
        refine bind_congr fun r => ?_
        obtain ⟨rv, nc⟩ := r
        dsimp only
        split
        · exact hclose nData nc
        cases nc.cmode with
        | passive => rfl
        | active =>
          dsimp only
          rw [monadLift_bind]
          refine bind_congr fun r => ?_
          obtain ⟨rv, nData, nc⟩ := r
          dsimp only
          split
          · exact hclose nData nc
          · rfl

/-! ## Runs -/

/-- What a program on strings does, as a call. -/
theorem wp_lift {W α : Type} {E : Env Op Op.Res W} {ok : Stop Op → W → Prop} {p : Client α}
    {Q : Except Overflow α → W → Prop} {w : W} :
    wp E ok (monadLift p : Call α).run Q w ↔ wp E ok p (fun a w => Q (.ok a) w) w := by
  show wp E ok (p >>= fun a => Prog.ret (Except.ok a)) Q w ↔ _
  rw [wp_bind]
  simp only [wp_ret]

theorem lift_returned {W α : Type} {E : Env Op Op.Res W} {p : Client α} {a : α} {w w' : W}
    (h : Exec E p w (.returned a) w') :
    Exec E (monadLift p : Call α).run w (.returned (.ok a)) w' :=
  h.bind Exec.ret

theorem lift_stopped {W α : Type} {E : Env Op Op.Res W} {p : Client α} {s : Stop Op} {w w' : W}
    (h : Exec E p w (.stopped s) w') : Exec E (monadLift p : Call α).run w (.stopped s) w' :=
  exec_bind.mpr ⟨_, _, h, rfl, rfl⟩

end Local

end Ftp
