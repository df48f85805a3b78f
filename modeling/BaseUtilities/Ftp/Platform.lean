import BaseUtilities.Effects.Trace
import BaseUtilities.Memory.Buffer

/-!
# The FTP client's platform

The data of `FtpClient.h` and the library calls of `FtpClient.c`: sockets, the local file, the heap
and the user's callback.  The type of an answer holds what POSIX promises of the call alone, such as
that `recv` returns no more bytes than it was asked for.
-/

open Effects Mem

namespace Ftp

abbrev BUFFER_SIZE : Nat := 4096
abbrev RESPONSE_BUFFER_SIZE : Nat := 1024
abbrev TEMP_BUFFER_SIZE : Nat := 1024

/-- `FtpAccess()` type codes. -/
inductive Typ where
  | dir
  | dirVerbose
  | fileRead
  | fileWrite
  | mlsd
  /-- A number that is none of the codes. -/
  | other (typ : Int) (h : ¬ (1 ≤ typ ∧ typ ≤ 5))
  deriving DecidableEq

/-- `FtpAccess()` mode codes, characters in the source. -/
inductive Mode where
  | ascii
  | image
  /-- A character that is none of the codes. -/
  | other (mode : UInt8) (h : mode ≠ 65 ∧ mode ≠ 73)
  deriving DecidableEq

def Mode.char : Mode → UInt8
  | .ascii => 65
  | .image => 73
  | .other mode _ => mode

/-- Connection modes. -/
inductive ConnMode where
  | passive
  | active
  deriving DecidableEq, Repr

/-- What a `NetBuf` is for. -/
inductive Dir where
  | control
  | read
  | write
  deriving DecidableEq, Repr

structure Timeval where
  tv_sec : Int
  tv_usec : Int
  deriving DecidableEq, Repr

/-- The user's callback, a function pointer. -/
structure Callback where
  address : Nat
  deriving DecidableEq, Repr

/-- The six bytes of `sa_data` in use: the port in `sa_data[0..1]`, the address in `sa_data[2..5]`. -/
abbrev SockAddr := Vector UInt8 6

/-- A connection.  `cput` and `cget` are offsets into `buf` (a fresh connection's null pointers are
offset 0: they are compared with each other only).  The pointers `ctrl` and `data` have no field: a
function that follows one takes the record it points to as an argument and returns it. -/
structure NetBuf where
  cput : Nat
  cget : Nat
  handle : Nat
  cavail : Nat
  cleft : Nat
  buf : Option (Buffer BUFFER_SIZE)
  dir : Dir
  cmode : ConnMode
  idletime : Timeval
  idlecb : Option Callback
  idlearg : Nat
  xfered : UInt32
  cbbytes : UInt32
  xfered1 : UInt32
  response : Buffer RESPONSE_BUFFER_SIZE
  deriving DecidableEq

/-- The stream that `xfer` reads from or writes to. -/
inductive File where
  | named (localfile : Bytes)
  | stdin
  | stdout
  deriving DecidableEq, Repr

/-- Why a `select` for one descriptor returned; an error carries the text of `strerror(errno)`. -/
inductive Wait where
  | error (text : Bytes)
  | timeout
  | ready
  deriving DecidableEq, Repr

/-- Why the `select` of `acceptConnection` returned, with the descriptors left in the mask. -/
inductive WaitAccept where
  | error (text : Bytes)
  | timeout
  | ready (data control : Bool)
  deriving DecidableEq, Repr

/-- The library calls. -/
inductive Op where
  | socket
  | connect (fd : Nat) (sa : SockAddr)
  | bind (fd : Nat) (sa : SockAddr)
  | listen (fd : Nat)
  | getsockname (fd : Nat)
  | accept (fd : Nat)
  | recv (fd : Nat) (len : Nat)
  | send (fd : Nat) (data : Bytes)
  | select (fd : Nat) (dir : Dir) (timeout : Timeval)
  | selectAccept (control data : Nat)
  | shutdown (fd : Nat)
  | closesocket (fd : Nat)
  | inetAddr (host : Bytes)
  | gethostbyname (host : Bytes)
  | malloc (size : Nat)
  | calloc
  /-- The indeterminate contents of `unsigned int v[6]`. -/
  | uninit
  | fopen (localfile : Bytes) (mode : Bytes)
  | fread (file : File) (size : Nat)
  | fwrite (file : File) (data : Bytes)
  | fflush (file : File)
  | fclose (file : File)
  | unlink (localfile : Bytes)
  | idlecb (cb : Callback) (xfered : UInt32) (arg : Nat)
  deriving DecidableEq

/-- Bytes read into an array of `n`. -/
abbrev Chunk (n : Nat) := { bytes : Bytes // bytes.length ≤ n }

/-- What `fread` delivers; `failed` is the stream's error indicator, which the client does not ask
for. -/
structure FileChunk (n : Nat) where
  data : Chunk n
  failed : Bool

/-- What `fflush` and `fclose` do with the bytes that `fwrite` has taken: all of them are in the file then,
or `EOF` is returned and the last `lost` of them never get there. -/
inductive Flushed where
  | done
  | failed (lost : Nat)
  deriving DecidableEq, Repr

/-- What a call answers; `none` is the return value -1, or a null pointer. -/
abbrev Op.Res : Op → Type
  | .socket => Option Nat
  | .connect _ _ => Bool
  | .bind _ _ => Bool
  | .listen _ => Bool
  | .getsockname _ => Option SockAddr
  -- the descriptor and `strerror(errno)`
  | .accept _ => Option Nat × Bytes
  | .recv _ len => Option (Chunk len)
  | .send _ data => Option { sent : Nat // sent ≤ data.length }
  | .select _ _ _ => Wait
  | .selectAccept _ _ => WaitAccept
  | .shutdown _ => Unit
  | .closesocket _ => Unit
  | .inetAddr _ => Vector UInt8 4
  | .gethostbyname _ => Option (Vector UInt8 4)
  | .malloc size => Option (Buffer size)
  | .calloc => Bool
  | .uninit => Vector UInt32 6
  | .fopen _ _ => Except Bytes Unit
  | .fread _ size => FileChunk size
  | .fwrite _ data => { written : Nat // written ≤ data.length }
  | .fflush _ => Flushed
  | .fclose _ => Flushed
  | .unlink _ => Bool
  | .idlecb _ _ _ => Int

/-- A program of the client. -/
abbrev Client (α : Type) := Prog Op Op.Res α

abbrev FtpEvent := Event Op Op.Res

abbrev FtpTrace := Trace Op Op.Res

namespace Sys

abbrev socket : Client (Option Nat) := Prog.perform Op.socket
abbrev connect (fd : Nat) (sa : SockAddr) : Client Bool := Prog.perform (Op.connect fd sa)
abbrev bind (fd : Nat) (sa : SockAddr) : Client Bool := Prog.perform (Op.bind fd sa)
abbrev listen (fd : Nat) : Client Bool := Prog.perform (Op.listen fd)
abbrev getsockname (fd : Nat) : Client (Option SockAddr) := Prog.perform (Op.getsockname fd)
abbrev accept (fd : Nat) : Client (Option Nat × Bytes) := Prog.perform (Op.accept fd)
abbrev recv (fd len : Nat) : Client (Option (Chunk len)) := Prog.perform (Op.recv fd len)
abbrev send (fd : Nat) (data : Bytes) : Client (Option { sent : Nat // sent ≤ data.length }) :=
  Prog.perform (Op.send fd data)
abbrev select (fd : Nat) (dir : Dir) (timeout : Timeval) : Client Wait :=
  Prog.perform (Op.select fd dir timeout)
abbrev selectAccept (control data : Nat) : Client WaitAccept :=
  Prog.perform (Op.selectAccept control data)
abbrev shutdown (fd : Nat) : Client Unit := Prog.perform (Op.shutdown fd)
abbrev closesocket (fd : Nat) : Client Unit := Prog.perform (Op.closesocket fd)
abbrev inetAddr (host : Bytes) : Client (Vector UInt8 4) := Prog.perform (Op.inetAddr host)
abbrev gethostbyname (host : Bytes) : Client (Option (Vector UInt8 4)) :=
  Prog.perform (Op.gethostbyname host)
abbrev malloc (size : Nat) : Client (Option (Buffer size)) := Prog.perform (Op.malloc size)
abbrev calloc : Client Bool := Prog.perform Op.calloc
abbrev uninit : Client (Vector UInt32 6) := Prog.perform Op.uninit
abbrev fopen (localfile mode : Bytes) : Client (Except Bytes Unit) :=
  Prog.perform (Op.fopen localfile mode)
abbrev fread (file : File) (size : Nat) : Client (FileChunk size) := Prog.perform (Op.fread file size)
abbrev fwrite (file : File) (data : Bytes) : Client { written : Nat // written ≤ data.length } :=
  Prog.perform (Op.fwrite file data)
abbrev fflush (file : File) : Client Flushed := Prog.perform (Op.fflush file)
abbrev fclose (file : File) : Client Flushed := Prog.perform (Op.fclose file)
abbrev unlink (localfile : Bytes) : Client Bool := Prog.perform (Op.unlink localfile)
abbrev idlecb (cb : Callback) (xfered : UInt32) (arg : Nat) : Client Int :=
  Prog.perform (Op.idlecb cb xfered arg)

end Sys

end Ftp
