import BaseUtilities.Ftp.Addresses

/-!
# Commands of the control connection

The functions of the `FtpClient` table that send commands, and those that open, configure and close
the control connection.
-/

open Effects Mem

namespace Ftp

/-- A command that is a verb and an argument: the argument is refused when it leaves less than
`slack` bytes of the local buffer. -/
def verbCommand (verb : Bytes) (slack : Nat) (arg : Bytes) (nControl : NetBuf) :
    Client (Int × NetBuf) :=
  if arg.length + slack > TEMP_BUFFER_SIZE then return (0, nControl)
  else sendCommand (verb ++ arg) 50 nControl

def siteFtpClient (cmd : Bytes) (nControl : NetBuf) : Client (Int × NetBuf) :=
  verbCommand (ascii "SITE ") 7 cmd nControl

def changeDirFtpClient (path : Bytes) (nControl : NetBuf) : Client (Int × NetBuf) :=
  verbCommand (ascii "CWD ") 6 path nControl

def makeDirFtpClient (path : Bytes) (nControl : NetBuf) : Client (Int × NetBuf) :=
  verbCommand (ascii "MKD ") 6 path nControl

def removeDirFtpClient (path : Bytes) (nControl : NetBuf) : Client (Int × NetBuf) :=
  verbCommand (ascii "RMD ") 6 path nControl

def deleteDataFtpClient (fnm : Bytes) (nControl : NetBuf) : Client (Int × NetBuf) :=
  verbCommand (ascii "DELE ") 7 fnm nControl

def changeDirUpFtpClient (nControl : NetBuf) : Client (Int × NetBuf) :=
  sendCommand (ascii "CDUP") 50 nControl

/-- `while ((--l) && ...) *b++ = *s++`: at most `l` bytes, as long as they are to be kept; there is
no value when the loop runs off the end of the source. -/
def copyField (keep : UInt8 → Bool) : Nat → Bytes → Option Bytes
  | 0, _ => some []
  | _ + 1, [] => none
  | l + 1, b :: s => if keep b then (copyField keep l s).map (b :: ·) else some []

/-- `getSysTypeFtpClient`: the remote system type, in the caller's array of `max` bytes. -/
def getSysTypeFtpClient {max : Nat} (buf : Buffer max) (nControl : NetBuf) :
    Client (Int × Buffer max × NetBuf) := do
  let (rv, nControl) ← sendCommand (ascii "SYST") 50 nControl
  if rv = 0 then
    return (0, buf, nControl)
  else
    let text ← Prog.ofOption (copyField (· ≠ 32) (max - 1) (nControl.response.bytes.drop 4))
    return (1, ← Prog.ofOption (buf.strcpy? text), nControl)

/-- `pwdFtpClient`: the working directory at the remote, in the caller's array of `max` bytes. -/
def pwdFtpClient {max : Nat} (path : Buffer max) (nControl : NetBuf) :
    Client (Int × Buffer max × NetBuf) := do
  let (rv, nControl) ← sendCommand (ascii "PWD") 50 nControl
  if rv = 0 then
    return (0, path, nControl)
  else
    let response ← Prog.ofOption nControl.response.cstr?
    match strchr 34 response with
    | none => return (0, path, nControl)
    | some s =>
      let start := response.length - s.length + 1
      let text ← Prog.ofOption
        (copyField (fun b => b ≠ 0 && b ≠ 34) (max - 1) (nControl.response.bytes.drop start))
      return (1, ← Prog.ofOption (path.strcpy? text), nControl)

/-- `strncpy(dt, s, max)`: no terminator is written behind `max` bytes; there is no value when the
copy runs off the end of the source. -/
def copyBounded {max : Nat} (dt : Buffer max) (s : Bytes) : Option (Buffer max) :=
  if max ≤ s.length ∨ 0 ∈ s then some (dt.strncpy (s.takeWhile (· ≠ 0))) else none

/-- `getModDateFtpClient`: the modification date of a remote file, in the caller's array of `max`
bytes. -/
def getModDateFtpClient {max : Nat} (path : Bytes) (dt : Buffer max) (nControl : NetBuf) :
    Client (Int × Buffer max × NetBuf) := do
  if path.length + 7 > TEMP_BUFFER_SIZE then
    return (0, dt, nControl)
  else
    let (rv, nControl) ← sendCommand (ascii "MDTM " ++ path) 50 nControl
    if rv = 0 then
      return (0, dt, nControl)
    else
      return (1, ← Prog.ofOption (copyBounded dt (nControl.response.bytes.drop 4)), nControl)

/-- `sscanf(response, "%d %u", &resp, &sz) == 2` -/
def scanSize (response : Bytes) : Option UInt32 := do
  let (_, _, s) ← scanNumber response
  let (sz, _) ← scanUnsigned s
  some sz

/-- `getFileSizeFtpClient`: determine the size of a remote file; the size is set when the result
is 1. -/
def getFileSizeFtpClient (path : Bytes) (size : UInt32) (mode : UInt8) (nControl : NetBuf) :
    Client (Int × UInt32 × NetBuf) := do
  if path.length + 7 > TEMP_BUFFER_SIZE then
    return (0, size, nControl)
  else
    let (rv, nControl) ← sendCommand (typeCommand mode) 50 nControl
    if rv = 0 then
      return (0, size, nControl)
    else
      let (rv, nControl) ← sendCommand (ascii "SIZE " ++ path) 50 nControl
      if rv = 0 then
        return (0, size, nControl)
      else
        match scanSize (← Prog.ofOption nControl.response.cstr?) with
        | some sz => return (1, sz, nControl)
        | none => return (0, size, nControl)

/-- `renameFtpClient`: rename a file at remote. -/
def renameFtpClient (src dst : Bytes) (nControl : NetBuf) : Client (Int × NetBuf) := do
  if src.length + 7 > TEMP_BUFFER_SIZE ∨ dst.length + 7 > TEMP_BUFFER_SIZE then
    return (0, nControl)
  else
    let (rv, nControl) ← sendCommand (ascii "RNFR " ++ src) 51 nControl
    if rv = 0 then
      return (0, nControl)
    else
      sendCommand (ascii "RNTO " ++ dst) 50 nControl

/-- `loginFtpClient`: log in to remote server. -/
def loginFtpClient (user pass : Bytes) (nControl : NetBuf) : Client (Int × NetBuf) := do
  if user.length + 7 > 64 ∨ pass.length + 7 > 64 then
    return (0, nControl)
  else
    let (rv, nControl) ← sendCommand (ascii "USER " ++ user) 51 nControl
    if rv = 0 then
      if nControl.response.first = 50 then return (1, nControl) else return (0, nControl)
    else
      sendCommand (ascii "PASS " ++ pass) 50 nControl

/-! ## File transfers -/

def getDataFtpClient (outputfile path : Option Bytes) (mode : Mode) (nControl : NetBuf) :
    Client (Int × NetBuf) :=
  xfer outputfile path nControl .fileRead mode

def putDataFtpClient (inputfile path : Option Bytes) (mode : Mode) (nControl : NetBuf) :
    Client (Int × NetBuf) :=
  xfer inputfile path nControl .fileWrite mode

def dirFtpClient (outputfile path : Option Bytes) (nControl : NetBuf) : Client (Int × NetBuf) :=
  xfer outputfile path nControl .dirVerbose .ascii

def nlstFtpClient (outputfile path : Option Bytes) (nControl : NetBuf) : Client (Int × NetBuf) :=
  xfer outputfile path nControl .dir .ascii

def mlsdFtpClient (outputfile path : Option Bytes) (nControl : NetBuf) : Client (Int × NetBuf) :=
  xfer outputfile path nControl .mlsd .ascii

/-! ## The control connection -/

/-- An option of `setOptionsFtpClient` with its value. -/
inductive Setting where
  /-- A number that is neither of the modes is ignored. -/
  | connmode (cmode : Option ConnMode)
  | callback (idlecb : Option Callback)
  | idletime (milliseconds : Int)
  | callbackarg (idlearg : Nat)
  | callbackbytes (bytes : Int)
  | other
  deriving DecidableEq, Repr

/-- `setOptionsFtpClient`: change connection options. -/
def setOptionsFtpClient (opt : Setting) (nControl : NetBuf) : Int × NetBuf :=
  match opt with
  | .connmode none => (0, nControl)
  | .connmode (some cmode) => (1, { nControl with cmode })
  | .callback idlecb => (1, { nControl with idlecb })
  | .idletime v => (1, { nControl with idletime := ⟨v.tdiv 1000, v.tmod 1000 * 1000⟩ })
  | .callbackarg idlearg => (1, { nControl with idlearg })
  | .callbackbytes v => (1, { nControl with cbbytes := UInt32.ofInt v })
  | .other => (0, nControl)

/-- `FtpClientCallbackOptions_t` -/
structure CallbackOptions where
  cbFunc : Option Callback
  cbArg : Nat
  bytesXferred : UInt32
  idleTime : UInt32
  deriving DecidableEq, Repr

def setCallbackFtpClient (opt : CallbackOptions) (nControl : NetBuf) : Int × NetBuf :=
  (1, { nControl with
    idlecb := opt.cbFunc
    idlearg := opt.cbArg
    idletime := ⟨opt.idleTime.toNat / 1000, opt.idleTime.toNat % 1000 * 1000⟩
    cbbytes := opt.bytesXferred })

def clearCallbackFtpClient (nControl : NetBuf) : Int × NetBuf :=
  (1, { nControl with idlecb := none, idlearg := 0, idletime := ⟨0, 0⟩, cbbytes := 0 })

/-- The control connection of `connectFtpClient`, as `calloc` and the assignments make it. -/
def newControl (sControl : Nat) (buf : Buffer BUFFER_SIZE) : NetBuf where
  cput := 0
  cget := 0
  handle := sControl
  cavail := 0
  cleft := 0
  buf := some buf
  dir := .control
  cmode := .passive
  idletime := ⟨0, 0⟩
  idlecb := none
  idlearg := 0
  xfered := 0
  cbbytes := 0
  xfered1 := 0
  response := .zeroed _

/-- `connectFtpClient`, once the address is known. -/
def connectTo (sa : SockAddr) : Client (Option NetBuf) := do
  match ← Sys.socket with
  | none => return none
  | some sControl =>
    if !(← Sys.connect sControl sa) then
      Sys.closesocket sControl
      return none
    else if !(← Sys.calloc) then
      Sys.closesocket sControl
      return none
    else
      match ← Sys.malloc BUFFER_SIZE with
      | none =>
        Sys.closesocket sControl
        return none
      | some buf =>
        let (rv, ctrl) ← readResponse 50 (newControl sControl buf)
        if rv = 0 then
          Sys.closesocket sControl
          return none
        else
          return some ctrl

/-- `connectFtpClient`: connect to remote server; no connection stands for the return value 0. -/
def connectFtpClient (host : Bytes) (port : UInt16) : Client (Option NetBuf) := do
  let addr ← Sys.inetAddr host
  if addr = #v[255, 255, 255, 255] then
    match ← Sys.gethostbyname host with
    | none => return none
    | some addr => connectTo (sockAddr port addr)
  else
    connectTo (sockAddr port addr)

/-- `quitFtpClient`: disconnect from remote. -/
def quitFtpClient (nControl : NetBuf) : Client Unit := do
  if nControl.dir ≠ .control then
    return ()
  else
    let (_, nControl) ← sendCommand (ascii "QUIT") 50 nControl
    Sys.closesocket nControl.handle

end Ftp
