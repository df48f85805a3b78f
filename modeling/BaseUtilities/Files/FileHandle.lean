import BaseUtilities.Effects.Session
import BaseUtilities.Memory.Buffer

/-!
# File handles

The class `FileHandle` over the file calls of the system.  The flags of `fcntl.h` are those of newlib.
-/

open Effects Mem

namespace Files

/-- `FileHandle::SeekOrigin` -/
inductive SeekOrigin where
  | begin
  | current
  | end_
  deriving DecidableEq, Repr

inductive Op where
  /-- `::open`, with the permissions where it is given them. -/
  | open_ (path : Bytes) (flags : UInt32) (perm : Option UInt32)
  | close (fd : Int)
  /-- `::fstat`, for the size of a file. -/
  | fstat (fd : Int)
  | lseek (fd : Int) (offset : Int) (origin : SeekOrigin)
  | fsync (fd : Int)
  | read (fd : Int) (count : Nat)
  | write (fd : Int) (data : Bytes)
  deriving DecidableEq

abbrev Op.Res : Op → Type
  | .open_ _ _ _ => Int
  | .close _ => Int
  | .fstat _ => Option Int
  | .lseek _ _ _ => Int
  | .fsync _ => Int
  | .read _ count => Option { data : Bytes // data.length ≤ count }
  | .write _ data => Option { n : Nat // n ≤ data.length }

abbrev Code (α : Type) := Prog Op Op.Res α

abbrev FileEvent := Event Op Op.Res

namespace Sys

abbrev open_ (path : Bytes) (flags : UInt32) (perm : Option UInt32) : Code Int :=
  Prog.perform (Op.open_ path flags perm)
abbrev close (fd : Int) : Code Int := Prog.perform (Op.close fd)
abbrev fstat (fd : Int) : Code (Option Int) := Prog.perform (Op.fstat fd)
abbrev lseek (fd offset : Int) (origin : SeekOrigin) : Code Int :=
  Prog.perform (Op.lseek fd offset origin)
abbrev fsync (fd : Int) : Code Int := Prog.perform (Op.fsync fd)
abbrev read (fd : Int) (count : Nat) : Code (Option { data : Bytes // data.length ≤ count }) :=
  Prog.perform (Op.read fd count)
abbrev write (fd : Int) (data : Bytes) : Code (Option { n : Nat // n ≤ data.length }) :=
  Prog.perform (Op.write fd data)

end Sys

/-! ## Flags -/

def O_RDONLY : UInt32 := 0
def O_WRONLY : UInt32 := 1
def O_RDWR : UInt32 := 2
def O_APPEND : UInt32 := 0x0008
def O_CREAT : UInt32 := 0x0200
def O_TRUNC : UInt32 := 0x0400
def O_EXCL : UInt32 := 0x0800

/-- The flags that `open` takes from its mode, one `OpenMode` after another. -/
def openFlags (mode : UInt32) : UInt32 :=
  [O_RDONLY, O_WRONLY, O_RDWR, O_CREAT, O_TRUNC, O_APPEND, O_EXCL].foldl
    (fun flags bit => if mode &&& bit ≠ 0 then flags ||| bit else flags) 0

/-! ## `FileHandle` -/

structure FileHandle where
  m_fd : Int
  deriving DecidableEq, Repr

namespace FileHandle

/-- `FileHandle::FileHandle` -/
def constructed : FileHandle := ⟨-1⟩

/-- `FileHandle::is_open` -/
def is_open (self : FileHandle) : Bool := 0 ≤ self.m_fd

/-- `FileHandle::close` -/
def close (self : FileHandle) : Code FileHandle := do
  if self.is_open then
    let _ ← Sys.close self.m_fd
    return ⟨-1⟩
  else
    return self

/-- `FileHandle::open` -/
def open_ (self : FileHandle) (path : Bytes) (mode perm : UInt32) : Code (Bool × FileHandle) := do
  let _ ← self.close
  let flags := openFlags mode
  let m_fd ← Sys.open_ path flags (if flags &&& O_CREAT ≠ 0 then some perm else none)
  return (is_open ⟨m_fd⟩, ⟨m_fd⟩)

/-- The constructor that opens a file. -/
def constructedOpen (path : Bytes) (mode : UInt32) : Code FileHandle := do
  let (_, self) ← open_ ⟨-1⟩ path mode 0o644
  return self

/-- `~FileHandle` -/
def destroy (self : FileHandle) : Code Unit := do
  let _ ← self.close
  return ()

/-- The move constructor: the new handle and the old one. -/
def moveConstruct (other : FileHandle) : FileHandle × FileHandle := (⟨other.m_fd⟩, ⟨-1⟩)

/-- The move assignment from another handle: this one and the other. -/
def moveAssign (self other : FileHandle) : Code (FileHandle × FileHandle) := do
  let _ ← self.close
  return (⟨other.m_fd⟩, ⟨-1⟩)

/-- `FileHandle::size` -/
def size (self : FileHandle) : Code Int := do
  if self.is_open then
    let st_size ← Sys.fstat self.m_fd
    return st_size.getD (-1)
  else
    return -1

/-- `FileHandle::seek` -/
def seek (self : FileHandle) (offset : Int) (origin : SeekOrigin) : Code Int := do
  if self.is_open then
    Sys.lseek self.m_fd offset origin
  else
    return -1

/-- `FileHandle::sync` -/
def sync (self : FileHandle) : Code Bool := do
  if self.is_open then
    let r ← Sys.fsync self.m_fd
    return r = 0
  else
    return false

/-- `FileHandle::read`: the bytes, where it does not fail. -/
def read (self : FileHandle) (count : Nat) : Code (Option Bytes) := do
  if self.is_open then
    let data ← Sys.read self.m_fd count
    return data.map (·.1)
  else
    return none

/-- `FileHandle::write`: the number of bytes, where it does not fail. -/
def write (self : FileHandle) (data : Bytes) : Code (Option Nat) := do
  if self.is_open then
    let n ← Sys.write self.m_fd data
    return n.map (·.1)
  else
    return none

/-- A pass of `getline`: a byte, and the result where it is the last one. -/
def getlineLoop (self : FileHandle) (delimiter : UInt8) (line : Bytes) :
    Code (Iter Bytes (Bool × Bytes)) := do
  let c ← self.read 1
  match c with
  | some [c] =>
    if c = delimiter then
      return .done (true, line)
    else
      return .next (line ++ [c])
  -- At the end of the file, and after a failure, only an unfinished line counts.
  | _ => return .done (!line.isEmpty, line)

/-- `FileHandle::getline`: whether there is a line, and the string that it leaves. -/
def getline (self : FileHandle) (line : Bytes) (delimiter : UInt8) : Code (Bool × Bytes) := do
  if self.is_open then
    let size ← self.size
    if size ≤ 0 then
      return (false, line)
    else
      Prog.forever [] (self.getlineLoop delimiter)
  else
    return (false, line)

/-- `FileHandle::read_all` -/
def read_all (self : FileHandle) : Code Bytes := do
  if self.is_open then
    let file_size ← self.size
    if file_size ≤ 0 then
      return []
    else
      let _ ← self.seek 0 .begin
      let content ← self.read file_size.toNat
      return content.getD []
  else
    return []

/-- A number of bytes as a `ssize_t`: -1 where there is none. -/
def ssize : Option Nat → Int
  | some n => n
  | none => -1

/-- `FileHandle::write_string` -/
def write_string (self : FileHandle) (str : Bytes) : Code (Option Nat) := self.write str

/-- `FileHandle::newline` -/
def newline (self : FileHandle) : Code (Option Nat) := self.write [LF]

/-- `FileHandle::writeline` -/
def writeline (self : FileHandle) (str : Bytes) : Code Int := do
  let n ← self.write_string str
  if ssize n < 0 then
    return ssize n
  else
    let nl ← self.newline
    return ssize n + ssize nl

/-- `operator>>` for a value of `n` bytes: what the read leaves of it. -/
def shiftRight {n : Nat} (self : FileHandle) (value : Buffer n) : Code (Buffer n) := do
  let data ← self.read n
  return value.overlay (data.getD [])

/-- `operator<<` for a value of `n` bytes. -/
def shiftLeft {n : Nat} (self : FileHandle) (value : Buffer n) : Code Unit := do
  let _ ← self.write value.bytes
  return ()

end FileHandle

end Files
