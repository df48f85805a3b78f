import BaseUtilities.Effects.Session
import BaseUtilities.Ftp.Commands

/-!
# Sessions of the client

What a caller can do with the functions of the `FtpClient` table: open and close the control
connection, send commands on it, transfer files, and open, read, write and close data connections.
-/

open Effects Mem

namespace Ftp

/-- The calls that change the options of the control connection. -/
inductive Configure where
  | setOptions (opt : Setting)
  | setCallback (opt : CallbackOptions)
  | clearCallback

def Configure.apply (nControl : NetBuf) : Configure → NetBuf
  | setOptions opt => (setOptionsFtpClient opt nControl).2
  | setCallback opt => (setCallbackFtpClient opt nControl).2
  | clearCallback => (clearCallbackFtpClient nControl).2

/-- The calls that exchange commands and replies and open no data connection. -/
inductive Command where
  | login (user pass : Bytes)
  | site (cmd : Bytes)
  | pwd (max : Nat) (path : Buffer max)
  | changeDir (path : Bytes)
  | changeDirUp
  | makeDir (path : Bytes)
  | removeDir (path : Bytes)
  | deleteData (fnm : Bytes)
  | rename (src dst : Bytes)
  | fileSize (path : Bytes) (size : UInt32) (mode : UInt8)
  | sysType (max : Nat) (buf : Buffer max)
  | modDate (max : Nat) (path : Bytes) (dt : Buffer max)

def Command.run (nControl : NetBuf) : Command → Client NetBuf
  | login user pass => do return (← loginFtpClient user pass nControl).2
  | site cmd => do return (← siteFtpClient cmd nControl).2
  | pwd _ path => do return (← pwdFtpClient path nControl).2.2
  | changeDir path => do return (← changeDirFtpClient path nControl).2
  | changeDirUp => do return (← changeDirUpFtpClient nControl).2
  | makeDir path => do return (← makeDirFtpClient path nControl).2
  | removeDir path => do return (← removeDirFtpClient path nControl).2
  | deleteData fnm => do return (← deleteDataFtpClient fnm nControl).2
  | rename src dst => do return (← renameFtpClient src dst nControl).2
  | fileSize path size mode => do return (← getFileSizeFtpClient path size mode nControl).2.2
  | sysType _ buf => do return (← getSysTypeFtpClient buf nControl).2.2
  | modDate _ path dt => do return (← getModDateFtpClient path dt nControl).2.2

/-- The calls that transfer a file or a listing. -/
inductive Transfer where
  | get (outputfile path : Option Bytes) (mode : Mode)
  | put (inputfile path : Option Bytes) (mode : Mode)
  | dir (outputfile path : Option Bytes)
  | nlst (outputfile path : Option Bytes)
  | mlsd (outputfile path : Option Bytes)

def Transfer.run (nControl : NetBuf) : Transfer → Client NetBuf
  | get outputfile path mode => do return (← getDataFtpClient outputfile path mode nControl).2
  | put inputfile path mode => do return (← putDataFtpClient inputfile path mode nControl).2
  | dir outputfile path => do return (← dirFtpClient outputfile path nControl).2
  | nlst outputfile path => do return (← nlstFtpClient outputfile path nControl).2
  | mlsd outputfile path => do return (← mlsdFtpClient outputfile path nControl).2

/-- The calls of the client's functions; a data connection is named by its place in the caller's
list. -/
inductive Request where
  | connect (host : Bytes) (port : UInt16)
  | quit
  | configure (c : Configure)
  | command (c : Command)
  | transfer (t : Transfer)
  | access (path : Option Bytes) (typ : Typ) (mode : Mode)
  | read (i max : Nat) (buf : Buffer max)
  | write (i : Nat) (buf : Bytes)
  | close (i : Nat)

/-- What a caller holds: the control connection, and the data connections that `accessFtpClient`
returned and that are not closed. -/
structure Handles where
  control : Option NetBuf
  datas : List NetBuf

def Handles.fresh : Handles := ⟨none, []⟩

namespace Request

/-- The control connection of a data connection; behind the freed one that `quit` leaves there is
no record, and what is written to it is lost. -/
def controlOf (s : Handles) : NetBuf := s.control.getD (newControl 0 (.zeroed _))

/-- `read` and `write`: an operation on the `i`-th data connection and its control connection. -/
def onData (s : Handles) (i : Nat) (f : NetBuf → NetBuf → Client (NetBuf × NetBuf)) :
    Client Handles := do
  match s.datas[i]? with
  | none => return s
  | some nData =>
    let (nData, nControl) ← f nData (controlOf s)
    return ⟨s.control.map fun _ => nControl, s.datas.set i nData⟩

/-- Behind `quit` a data connection's `ctrl` dangles. -/
def closeData (s : Handles) (i : Nat) : Client Handles := do
  match s.datas[i]? with
  | none => return s
  | some nData =>
    match s.control with
    | none =>
      Sys.shutdown nData.handle
      Sys.closesocket nData.handle
      Prog.fault
    | some nControl =>
      let (_, nControl) ← closeFtpClient nData nControl
      return ⟨some nControl, s.datas.eraseIdx i⟩

/-- The calls that need the control connection; without one there is nothing to call. -/
def onControl (nControl : NetBuf) (s : Handles) : Request → Client Handles
  | quit => do
    quitFtpClient nControl
    return ⟨.none, s.datas⟩
  | configure c => return { s with control := c.apply nControl }
  | command c => do return { s with control := ← c.run nControl }
  | transfer t => do return { s with control := ← t.run nControl }
  | access path typ mode => do
    let (nControl, nData) ← accessFtpClient path typ mode nControl
    return ⟨nControl, s.datas ++ nData.toList⟩
  | _ => return s

/-- A caller makes a call and keeps what it returns. -/
def run (r : Request) (s : Handles) : Client Handles :=
  match r, s.control with
  | read i _ buf, _ => onData s i fun nData nControl => do
      let r ← readFtpClient buf nData nControl
      return (r.nData, r.nControl)
  | write i buf, _ => onData s i fun nData nControl => do
      let (_, nData, nControl) ← writeFtpClient buf nData nControl
      return (nData, nControl)
  | close i, _ => closeData s i
  | connect host port, none =>
    -- a caller with open data connections has not done with the old control connection
    if s.datas = [] then do return { s with control := ← connectFtpClient host port } else return s
  | r, some nControl => onControl nControl s r
  | _, none => return s

end Request

end Ftp
