import BaseUtilities.Ftp.Control
import BaseUtilities.Memory.Text

/-!
# Data connections

Opening a data connection in passive or active mode, reading, writing and closing it, and the whole
transfer of a local file: `openPort`, `writeLine`, `acceptConnection`, `accessFtpClient`,
`readFtpClient`, `writeFtpClient`, `closeFtpClient` and `xfer` of `FtpClient.c`.
-/

open Effects Mem

namespace Ftp

/-! ## Text -/

-- The numbers of an address are indexed by literals; this is the instance behind all of them.
instance neZeroSix : @NeZero Nat Zero.ofOfNat0 6 := ⟨by decide⟩

/-- `sscanf(s, "%u,...,%u", &v[i], ...)` for the indices `is`: the conversions stop at the first
mismatch and leave the other elements as they were. -/
def scanFields : List (Fin 6) → Bytes → Vector UInt32 6 → Vector UInt32 6
  | [], _, v => v
  | i :: is, s, v =>
    match scanUnsigned s with
    | none => v
    | some (x, s) =>
      let v := v.set i x
      match s with
      | 44 :: s => scanFields is s v
      | _ => v

theorem scanFields_more {digits rest : Bytes} {b : UInt8} (hdigits : Number digits b.toNat) (i : Fin 6)
    (is : List (Fin 6)) (v : Vector UInt32 6) :
    scanFields (i :: is) (digits ++ 44 :: rest) v =
      scanFields is rest (v.set i (UInt32.ofNat b.toNat) i.isLt) := by
  have hends : Ends (44 :: rest) := fun c hc => Option.some.inj hc ▸ rfl
  rw [scanFields, scanUnsigned_digits hdigits hends]
  rfl

theorem scanFields_last {digits rest : Bytes} {b : UInt8} (hdigits : Number digits b.toNat)
    (hrest : Ends rest) (i : Fin 6) (v : Vector UInt32 6) :
    scanFields [i] (digits ++ rest) v = v.set i (UInt32.ofNat b.toNat) i.isLt := by
  rw [scanFields, scanUnsigned_digits hdigits hrest]
  dsimp only
  split
  · rfl
  · rfl

/-- The command that names the address and port to connect to. -/
def portCommand (sa : SockAddr) : Bytes :=
  let comma := ascii ","
  ascii "PORT " ++ decimal sa[2].toNat ++ comma ++ decimal sa[3].toNat ++ comma ++
    decimal sa[4].toNat ++ comma ++ decimal sa[5].toNat ++ comma ++ decimal sa[0].toNat ++ comma ++
    decimal sa[1].toNat

/-- The two bytes of `sin_port` are in the array. -/
theorem sinPort_high : 0 < 6 := by decide
theorem sinPort_low : 1 < 6 := by decide

/-! ## Opening -/

/-- The message of a failed check, left in the response buffer. -/
def NetBuf.report (nControl : NetBuf) (text : Bytes) : Client NetBuf := do
  let response ← Prog.ofOption (nControl.response.strcpy? text)
  return { nControl with response }

/-- `openPort`, up to `socket`: the address to connect to, or to bind. -/
def portAddress (nControl : NetBuf) : Client (NetBuf × Option SockAddr) := do
  match nControl.cmode with
  | .passive =>
    let (rv, nControl) ← sendCommand (ascii "PASV") 50 nControl
    if rv = 0 then
      return (nControl, none)
    else
      let text ← Prog.ofOption nControl.response.cstr?
      match strchr 40 text with
      | none => return (nControl, none)
      | some cp =>
        let v ← Sys.uninit
        let v := scanFields [2, 3, 4, 5, 0, 1] (cp.drop 1) v
        return (nControl, some (v.map UInt32.toUInt8))
  | .active =>
    return (nControl, ← Sys.getsockname nControl.handle)

/-- `openPort`, from `socket` on: connect the new socket, or listen on it and name it to the server;
the flag is false where `openPort` returns -1. -/
def portConnect (nControl : NetBuf) (sData : Nat) (sa : SockAddr) : Client (NetBuf × Bool) := do
  match nControl.cmode with
  | .passive =>
    if ← Sys.connect sData sa then
      return (nControl, true)
    else
      Sys.closesocket sData
      return (nControl, false)
  | .active =>
    let sa := (sa.set 0 0).set 1 0
    if !(← Sys.bind sData sa) then
      Sys.closesocket sData
      return (nControl, false)
    else if !(← Sys.listen sData) then
      Sys.closesocket sData
      return (nControl, false)
    else
      match ← Sys.getsockname sData with
      -- the one exit that does not close the socket
      | none => return (nControl, false)
      | some sa =>
        let (rv, nControl) ← sendCommand (portCommand sa) 50 nControl
        if rv = 0 then
          Sys.closesocket sData
          return (nControl, false)
        else
          return (nControl, true)

/-- The new data connection; `cmode` and `response` are not used on it. -/
def newData (nControl : NetBuf) (sData : Nat) (buf : Option (Buffer BUFFER_SIZE)) (dir : Dir) :
    NetBuf where
  cput := 0
  cget := 0
  handle := sData
  cavail := 0
  cleft := 0
  buf := buf
  dir := dir
  cmode := .passive
  idletime := nControl.idletime
  idlecb :=
    if nControl.idletime.tv_sec ≠ 0 ∨ nControl.idletime.tv_usec ≠ 0 ∨ nControl.cbbytes ≠ 0 then
      nControl.idlecb
    else none
  idlearg := nControl.idlearg
  xfered := 0
  cbbytes := nControl.cbbytes
  xfered1 := 0
  response := .zeroed _

/-- `openPort`, the allocations at its end.  Only ASCII mode uses a buffer. -/
def portData (nControl : NetBuf) (sData : Nat) (mode : Mode) (dir : Dir) :
    Client (Option NetBuf) := do
  if !(← Sys.calloc) then
    Sys.closesocket sData
    return none
  else if mode = .ascii then
    match ← Sys.malloc BUFFER_SIZE with
    | none =>
      Sys.closesocket sData
      return none
    | some buf => return some (newData nControl sData (some buf) dir)
  else
    return some (newData nControl sData none dir)

/-- `openPort`: set up the data connection; no connection stands for the return value -1. -/
def openPort (nControl : NetBuf) (mode : Mode) (dir : Dir) : Client (NetBuf × Option NetBuf) := do
  if nControl.dir ≠ .control then
    return (nControl, none)
  else if dir = .control then
    return (← nControl.report (ascii "Invalid direction 0\n"), none)
  else if mode ≠ .ascii ∧ mode ≠ .image then
    return (← nControl.report (ascii "Invalid mode " ++ [mode.char] ++ ascii "\n"), none)
  else
    let (nControl, sa) ← portAddress nControl
    match sa with
    | none => return (nControl, none)
    | some sa =>
      match ← Sys.socket with
      | none => return (nControl, none)
      | some sData =>
        let (nControl, ok) ← portConnect nControl sData sa
        if !ok then
          return (nControl, none)
        else
          return (nControl, ← portData nControl sData mode dir)

/-- `acceptConnection`: accept the server's connection; the control connection is `nControl`. -/
def acceptConnection (nData nControl : NetBuf) : Client (Int × NetBuf × NetBuf) := do
  match ← Sys.selectAccept nControl.handle nData.handle with
  | .error text =>
    Sys.closesocket nData.handle
    return (0, { nData with handle := 0 },
      { nControl with response := nControl.response.strncpy text })
  | .timeout =>
    let nControl ← nControl.report
      (ascii "FTP Client accept connection timed out waiting for connection")
    Sys.closesocket nData.handle
    return (0, { nData with handle := 0 }, nControl)
  | .ready data control =>
    if data then
      let (sData, text) ← Sys.accept nData.handle
      Sys.closesocket nData.handle
      match sData with
      | some (sData + 1) => return (1, { nData with handle := sData + 1 }, nControl)
      -- -1, or the descriptor 0
      | _ =>
        return (0, { nData with handle := 0 },
          { nControl with response := nControl.response.strncpy text })
    else if control then
      Sys.closesocket nData.handle
      let (_, nControl) ← readResponse 50 nControl
      return (0, { nData with handle := 0 }, nControl)
    else
      return (0, nData, nControl)

/-- `closeFtpClient` of a data connection. -/
def closeFtpClient (nData nControl : NetBuf) : Client (Int × NetBuf) := do
  Sys.shutdown nData.handle
  Sys.closesocket nData.handle
  if nControl.response.first ≠ 52 ∧ nControl.response.first ≠ 53 then
    readResponse 50 nControl
  else
    return (1, nControl)

/-- The transfer command of a type code, and the direction of its data. -/
def Typ.command : Typ → Option (Bytes × Dir)
  | .dir => some (ascii "NLST", .read)
  | .dirVerbose => some (ascii "LIST", .read)
  | .fileRead => some (ascii "RETR", .read)
  | .fileWrite => some (ascii "STOR", .write)
  | .mlsd => some (ascii "MLSD", .read)
  | .other _ _ => none

def Typ.number : Typ → Int
  | .dir => 1
  | .dirVerbose => 2
  | .fileRead => 3
  | .fileWrite => 4
  | .mlsd => 5
  | .other typ _ => typ

/-- The command line of a transfer; a path that does not fit the local buffer has none. -/
def transferCommand (verb : Bytes) : Option Bytes → Option Bytes
  | none => some verb
  | some path =>
    if path.length + (verb.length + 1) + 1 ≥ TEMP_BUFFER_SIZE then none
    else some (verb ++ [32] ++ path)

/-- `sprintf(buf, "TYPE %c", mode)`: the string ends at a NUL. -/
def typeCommand (mode : UInt8) : Bytes := ascii "TYPE " ++ if mode = 0 then [] else [mode]

/-- `accessFtpClient`: open a data stream; no connection stands for the return value 0. -/
def accessFtpClient (path : Option Bytes) (typ : Typ) (mode : Mode) (nControl : NetBuf) :
    Client (NetBuf × Option NetBuf) := do
  -- Only a file needs a path; a listing without one is of the working directory.
  if path = none ∧ (typ = .fileWrite ∨ typ = .fileRead) then
    return (← nControl.report (ascii "Missing path argument for file transfer\n"), none)
  else
    let (rv, nControl) ← sendCommand (typeCommand mode.char) 50 nControl
    if rv = 0 then
      return (nControl, none)
    else
      match typ.command with
      | none =>
        return (← nControl.report
          (ascii "Invalid open type " ++ decimalInt typ.number ++ ascii "\n"), none)
      | some (verb, dir) =>
        match transferCommand verb path with
        | none => return (nControl, none)
        | some cmd =>
          let (nControl, nData) ← openPort nControl mode dir
          match nData with
          | none => return (nControl, none)
          | some nData =>
            let (rv, nControl) ← sendCommand cmd 49 nControl
            if rv = 0 then
              -- Refused by the server: the data connection was opened before the command and is closed here.
              let (_, nControl) ← closeFtpClient nData nControl
              return (nControl, none)
            else
              match nControl.cmode with
              | .passive => return (nControl, some nData)
              -- In active mode the server connects, and only after its first answer.
              | .active =>
                let (rv, nData, nControl) ← acceptConnection nData nControl
                if rv = 0 then
                  let (_, nControl) ← closeFtpClient nData nControl
                  return (nControl, none)
                else
                  return (nControl, some nData)

/-! ## Reading -/

/-- The byte counts of a data connection after `i` more bytes, and what the user's callback answered
when it was called because the count passed its limit. -/
def NetBuf.account (nData : NetBuf) (i : Nat) : Client (NetBuf × Option Int) := do
  let nData := { nData with xfered := nData.xfered + UInt32.ofNat i }
  match nData.idlecb with
  | none => return (nData, none)
  | some idlecb =>
    if nData.cbbytes = 0 then
      return (nData, none)
    else
      let nData := { nData with xfered1 := nData.xfered1 + UInt32.ofNat i }
      if nData.xfered1 > nData.cbbytes then
        return (nData, some (← Sys.idlecb idlecb nData.xfered nData.idlearg))
      else
        return (nData, none)

/-- What `readFtpClient` returns and leaves in its arguments. -/
structure ReadResult (max : Nat) where
  retval : Int
  buf : Buffer max
  nData : NetBuf
  nControl : NetBuf

/-- The end of `readFtpClient`, after `i` bytes were read. -/
def readCount {max : Nat} (i : Int) (buf : Buffer max) (nData nControl : NetBuf) :
    Client (ReadResult max) := do
  if i = -1 then
    return ⟨0, buf, nData, nControl⟩
  else
    let (nData, called) ← nData.account i.toNat
    match called with
    | none => return ⟨i, buf, nData, nControl⟩
    | some rv =>
      if rv = 0 then return ⟨0, buf, nData, nControl⟩
      else return ⟨i, buf, { nData with xfered1 := 0 }, nControl⟩

/-- `readFtpClient`: read from a data connection into `buf`, an array of `max` bytes. -/
def readFtpClient {max : Nat} (buf : Buffer max) (nData nControl : NetBuf) :
    Client (ReadResult max) := do
  if nData.dir ≠ .read then
    return ⟨0, buf, nData, nControl⟩
  else if nData.buf.isSome then
    let r ← readLine buf nData nControl
    readCount r.retval r.buffer r.ctl r.nControl
  else
    let (i, nControl) ← socketWait nData nControl
    if i ≠ 1 then
      return ⟨0, buf, nData, nControl⟩
    else
      match ← Sys.recv nData.handle max with
      | none => readCount (-1) buf nData nControl
      | some x => readCount x.1.length (buf.overlay x.1) nData nControl

/-! ## Writing -/

/-- `writeLine`, one of its sends of a full or a last buffer of `nb` bytes.  The result is the value
that `writeLine` returns at that place, or none when it goes on; `aborted` is its value when
`socketWait` returns 0. -/
def writeFlush (nData nControl : NetBuf) (nbp : Buffer BUFFER_SIZE) (nb : Nat) (aborted : Int) :
    Client (Option Int × NetBuf) := do
  let (ready, nControl) ← socketWait nData nControl
  if ready = 0 then
    return (some aborted, nControl)
  else
    match ← Sys.send nData.handle (nbp.bytes.take nb) with
    | none => return (some (-1), nControl)
    | some w => return (if w.1 ≠ nb then some (-1) else none, nControl)

/-- The variables of `writeLine`: its output buffer and the last byte copied. -/
structure WriteState where
  nbp : Buffer BUFFER_SIZE
  nb : Nat
  lc : UInt8

def WriteState.put (s : WriteState) (b : UInt8) : Option WriteState := do
  let nbp ← s.nbp.store? s.nb [b]
  some { s with nbp, nb := s.nb + 1 }

/-- `if (nb == FTP_CLIENT_BUFFER_SIZE)`: send the buffer when it is full. -/
def writeIfFull (nData nControl : NetBuf) (s : WriteState) (x : Nat) :
    Client (Option Int × NetBuf × WriteState) := do
  if s.nb = BUFFER_SIZE then
    let (rv, nControl) ← writeFlush nData nControl s.nbp BUFFER_SIZE x
    return (rv, nControl, { s with nb := 0 })
  else
    return (none, nControl, s)

/-- `if ((*ubp == '\n') && (lc != '\r'))`: put a CR in front of the line end `c`. -/
def writeCR (nData nControl : NetBuf) (s : WriteState) (c : UInt8) (x : Nat) :
    Client (Option Int × NetBuf × WriteState) := do
  if c = LF ∧ s.lc ≠ CR then
    let (rv, nControl, s) ← writeIfFull nData nControl s x
    match rv with
    | some rv => return (some rv, nControl, s)
    | none => return (none, nControl, ← Prog.ofOption (s.put CR))
  else
    return (none, nControl, s)

/-- The loop of `writeLine` from the index `x` on, where `buf` is the part not yet copied. -/
def writeLineLoop (nData : NetBuf) : Bytes → Nat → NetBuf → WriteState →
    Client (Option Int × NetBuf × WriteState)
  | [], _, nControl, s => return (none, nControl, s)
  | c :: buf, x, nControl, s => do
    let (rv, nControl, s) ← writeCR nData nControl s c x
    match rv with
    | some rv => return (some rv, nControl, s)
    | none =>
      let (rv, nControl, s) ← writeIfFull nData nControl s x
      match rv with
      | some rv => return (some rv, nControl, s)
      | none =>
        let s ← Prog.ofOption (s.put c)
        writeLineLoop nData buf (x + 1) nControl { s with lc := c }

/-- `writeLine`: write lines of text. -/
def writeLine (buf : Bytes) (nData nControl : NetBuf) : Client (Int × NetBuf × NetBuf) := do
  if nData.dir ≠ .write then
    return (-1, nData, nControl)
  else
    let nbp ← Prog.ofOption nData.buf
    let (rv, nControl, s) ← writeLineLoop nData buf 0 nControl ⟨nbp, 0, 0⟩
    let nData := { nData with buf := some s.nbp }
    match rv with
    | some rv => return (rv, nData, nControl)
    | none =>
      if s.nb ≠ 0 then
        let (rv, nControl) ← writeFlush nData nControl s.nbp s.nb buf.length
        return (rv.getD buf.length, nData, nControl)
      else
        return (buf.length, nData, nControl)

/-- The end of `writeFtpClient`, after `i` bytes were written. -/
def writeCount (i : Int) (nData nControl : NetBuf) : Client (Int × NetBuf × NetBuf) := do
  if i = -1 then
    return (0, nData, nControl)
  else
    let (nData, called) ← nData.account i.toNat
    match called with
    | none => return (i, nData, nControl)
    -- what the callback answered is dropped
    | some _ => return (i, { nData with xfered1 := 0 }, nControl)

/-- `writeFtpClient`: write to a data connection. -/
def writeFtpClient (buf : Bytes) (nData nControl : NetBuf) : Client (Int × NetBuf × NetBuf) := do
  if nData.dir ≠ .write then
    return (0, nData, nControl)
  else if nData.buf.isSome then
    let (i, nData, nControl) ← writeLine buf nData nControl
    writeCount i nData nControl
  else
    -- what `socketWait` returns is dropped
    let (_, nControl) ← socketWait nData nControl
    match ← Sys.send nData.handle buf with
    | none => writeCount (-1) nData nControl
    | some i => writeCount i.1 nData nControl

/-! ## Transfers -/

/-- `xfer`, the loop of an upload; the result is `rv`. -/
def xferUpload (file : File) (nData nControl : NetBuf) : Client (Int × NetBuf × NetBuf) :=
  Prog.forever (nData, nControl) fun (nData, nControl) => do
    let chunk ← Sys.fread file BUFFER_SIZE
    let dbuf := chunk.data.1
    if dbuf.length > 0 then
      let (c, nData, nControl) ← writeFtpClient dbuf nData nControl
      return if c < dbuf.length then .done (0, nData, nControl) else .next (nData, nControl)
    else
      return .done (1, nData, nControl)

/-- `xfer`, the loop of a download; the result is `rv`. -/
def xferDownload (file : File) (dbuf : Buffer BUFFER_SIZE) (nData nControl : NetBuf) :
    Client (Int × NetBuf × NetBuf) :=
  Prog.forever (dbuf, nData, nControl) fun (dbuf, nData, nControl) => do
    let r ← readFtpClient dbuf nData nControl
    if r.retval > 0 then
      let written ← Sys.fwrite file (r.buf.bytes.take r.retval.toNat)
      return if written.1 = 0 then .done (0, r.nData, r.nControl)
        else .next (r.buf, r.nData, r.nControl)
    else
      return .done (1, r.nData, r.nControl)

/-- `xfer`, the part between `malloc` and `free`; the result is `rv`. -/
def xferData (file : File) (typ : Typ) (nData nControl : NetBuf) :
    Client (Int × NetBuf × NetBuf) := do
  match ← Sys.malloc BUFFER_SIZE with
  | none => return (0, nData, nControl)
  | some dbuf =>
    if typ = .fileWrite then xferUpload file nData nControl
    else xferDownload file dbuf nData nControl

/-- `xfer`, the end of the local file after a transfer with the result `rv`; the source drops what its
calls return. -/
def xferClose (localfile : Option Bytes) (file : File) (typ : Typ) (rv : Int) : Client Unit := do
  let _ ← Sys.fflush file
  match localfile with
  | none => return ()
  | some localfile =>
    let _ ← Sys.fclose file
    if rv ≠ 1 ∧ typ = .fileRead then
      let _ ← Sys.unlink localfile
      return ()
    else return ()

/-- `xfer`, the end of the local file where there was no transfer. -/
def xferDiscard (localfile : Option Bytes) (file : File) (typ : Typ) : Client Unit := do
  match localfile with
  | none => return ()
  | some localfile =>
    let _ ← Sys.fclose file
    if typ = .fileRead then
      let _ ← Sys.unlink localfile
      return ()
    else return ()

/-- The end of `xfer`: its result, and what `closeFtpClient` returned, which `xfer` drops (none when
there was no data connection to close). -/
structure XferEnd where
  rv : Int
  closed : Option Int
  nControl : NetBuf

/-- `fopen`'s mode: `r` or `w`, and `b` in image mode. -/
def fopenMode (typ : Typ) (mode : Mode) : Bytes :=
  (if typ = .fileWrite then ascii "r" else ascii "w") ++ (if mode = .image then ascii "b" else [])

/-- `xfer`, once the local file is open. -/
def xferOpened (localfile : Option Bytes) (file : File) (path : Option Bytes) (nControl : NetBuf)
    (typ : Typ) (mode : Mode) : Client XferEnd := do
  let (nControl, nData) ← accessFtpClient path typ mode nControl
  match nData with
  | none =>
    xferDiscard localfile file typ
    return ⟨0, none, nControl⟩
  | some nData =>
    let (rv, nData, nControl) ← xferData file typ nData nControl
    xferClose localfile file typ rv
    let (closed, nControl) ← closeFtpClient nData nControl
    return ⟨rv, some closed, nControl⟩

/-- `xfer` with the result of its `closeFtpClient`. -/
def xferEnd (localfile path : Option Bytes) (nControl : NetBuf) (typ : Typ) (mode : Mode) :
    Client XferEnd := do
  match localfile with
  | none =>
    xferOpened none (if typ = .fileWrite then .stdin else .stdout) path nControl typ mode
  | some name =>
    match ← Sys.fopen name (fopenMode typ mode) with
    | .error text =>
      return ⟨0, none, { nControl with response := nControl.response.strncpy text }⟩
    | .ok () => xferOpened localfile (.named name) path nControl typ mode

/-- `xfer`: issue a command and transfer data. -/
def xfer (localfile path : Option Bytes) (nControl : NetBuf) (typ : Typ) (mode : Mode) :
    Client (Int × NetBuf) := do
  let e ← xferEnd localfile path nControl typ mode
  return (e.rv, e.nControl)

end Ftp
