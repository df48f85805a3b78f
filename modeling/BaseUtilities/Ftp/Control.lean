import BaseUtilities.Ftp.Platform

/-!
# Reading lines and replies

`socketWait`, `readLine`, `readResponse` and `sendCommand` of `FtpClient.c`.  A connection that a
function changes is an argument and part of its result.  `FTP_CLIENT_DEBUG` is 0.
-/

open Effects Mem

namespace Ftp

/-- `socketWait`: wait for the socket to receive or flush data.  `nControl` is `*ctl->ctrl`. -/
def socketWait (ctl nControl : NetBuf) : Client (Int × NetBuf) :=
  match ctl.dir, ctl.idlecb with
  | .control, _ => return (1, nControl)
  | _, none => return (1, nControl)
  | dir, some idlecb =>
    Prog.forever () fun _ => do
      match ← Sys.select ctl.handle dir ctl.idletime with
      | .error text =>
        return .done (0, { nControl with response := nControl.response.strncpy text })
      | .ready => return .done (1, nControl)
      | .timeout =>
        let rv ← Sys.idlecb idlecb ctl.xfered ctl.idlearg
        return if rv ≠ 0 then .next () else .done (0, nControl)

/-- `socketWait` keeps what its calls keep. -/
theorem socketWait_rule {W : Type} {E : Env Op Op.Res W} {ok : Stop Op → W → Prop} {w : W} (I : W → Prop)
    (ctl nControl : NetBuf) (hselect : ∀ fd dir timeout, Keeps E ok I (.select fd dir timeout))
    (hidlecb : ∀ cb xfered arg, Keeps E ok I (.idlecb cb xfered arg)) (hw : I w) :
    wp E ok (socketWait ctl nControl) (fun _ w => I w) w := by
  unfold socketWait
  split
  · exact wp_ret.mpr hw
  · exact wp_ret.mpr hw
  · refine wp_forever (fun _ w => I w) hw fun _ w hw => ?_
    refine (hselect _ _ _).bind hw fun r w hw _ => ?_
    cases r with
    | error text => exact wp_ret.mpr hw
    | ready => exact wp_ret.mpr hw
    | timeout =>
      refine (hidlecb _ _ _).bind hw fun rv w hw _ => wp_ret.mpr ?_
      split
      · exact hw
      · exact hw

/-- `memccpy`: the bytes copied, up to and including the first `c`, and whether there was one. -/
def memccpy (c : UInt8) : Bytes → Bytes × Bool
  | [] => ([], false)
  | b :: src => if b = c then ([b], true) else ((b :: (memccpy c src).1), (memccpy c src).2)

/-- The variables of `readLine`. -/
structure LineState (n : Nat) where
  buffer : Buffer n
  bp : Nat
  max : Nat
  retval : Nat
  eof : Bool
  ctl : NetBuf
  nControl : NetBuf

/-- What `readLine` returns and leaves in its arguments. -/
structure LineResult (n : Nat) where
  retval : Int
  buffer : Buffer n
  ctl : NetBuf
  nControl : NetBuf

variable {n : Nat}

def LineState.result (s : LineState n) (retval : Int) : LineResult n :=
  ⟨retval, s.buffer, s.ctl, s.nControl⟩

/-- Copy buffered bytes to the line; the flag says that `memccpy` met a line end (`end != NULL`). -/
def LineState.copy (s : LineState n) : Option (LineState n × Bool) :=
  if s.ctl.cavail = 0 then some (s, false)
  -- `max - 1` is negative: `memccpy` is given `SIZE_MAX`
  else if s.max = 0 then none
  else do
    let x := if s.max ≥ s.ctl.cavail then s.ctl.cavail else s.max - 1
    let src ← (← s.ctl.buf).load? s.ctl.cget x
    let (copied, found) := memccpy LF src
    let x := copied.length
    let buffer ← s.buffer.store? s.bp copied
    let bp := s.bp + x
    let buffer ← buffer.store? bp [0]
    some ({ s with
      buffer, bp
      max := s.max - x
      retval := s.retval + x
      ctl := { s.ctl with cget := s.ctl.cget + x, cavail := s.ctl.cavail - x } }, found)

/-- Look back from the end of a line and turn its CR LF into LF. -/
def LineState.chop (s : LineState n) : Option (LineState n) :=
  -- `bp -= 2` leaves the buffer
  if s.bp < 2 then none
  else do
    let bp := s.bp - 2
    if (← s.buffer.load? bp 3) = [CR, LF, 0] then
      let buffer ← s.buffer.store? bp [LF, 0]
      some { s with buffer, retval := s.retval - 1 }
    else some s

/-- Start again at the front of an empty receive buffer. -/
def NetBuf.rewind (ctl : NetBuf) : NetBuf :=
  if ctl.cput = ctl.cget then
    { ctl with cput := 0, cget := 0, cavail := 0, cleft := BUFFER_SIZE }
  else ctl

/-- The bytes that `recv` has put at `cput`. -/
def NetBuf.receive (ctl : NetBuf) (bytes : Bytes) : Option NetBuf := do
  let buf ← (← ctl.buf).store? ctl.cput bytes
  some { ctl with
    buf := some buf
    cleft := ctl.cleft - bytes.length
    cavail := ctl.cavail + bytes.length
    cput := ctl.cput + bytes.length }

/-- One pass through the loop of `readLine`. -/
def readLineBody (s : LineState n) : Client (Iter (LineState n) (LineResult n)) := do
  let (s, found) ← Prog.ofOption s.copy
  if found then
    let s ← Prog.ofOption s.chop
    return .done (s.result s.retval)
  else if s.max = 1 then
    let buffer ← Prog.ofOption (s.buffer.store? 0 [0])
    return .done ({ s with buffer }.result s.retval)
  else
    let s := { s with ctl := s.ctl.rewind }
    if s.eof then
      return .done (s.result (if s.retval = 0 then -1 else s.retval))
    else
      let (ready, nControl) ← socketWait s.ctl s.nControl
      let s := { s with nControl }
      if ready = 0 then
        return .done (s.result s.retval)
      else
        match ← Sys.recv s.ctl.handle s.ctl.cleft with
        | none => return .done (s.result (-1))
        | some x =>
          let ctl ← Prog.ofOption (s.ctl.receive x.1)
          return .next { s with ctl, eof := x.1.isEmpty }

/-- `readLine`: read a line of text into `buffer`, an array of `max` bytes.  `nControl` is
`*ctl->ctrl`, which only a data connection has. -/
def readLine {max : Nat} (buffer : Buffer max) (ctl nControl : NetBuf) : Client (LineResult max) :=
  if ctl.dir = .write then return ⟨-1, buffer, ctl, nControl⟩
  else if max = 0 then return ⟨0, buffer, ctl, nControl⟩
  else Prog.forever ⟨buffer, 0, max, 0, false, ctl, nControl⟩ readLineBody

/-- `readLine` into the connection's own `response`. -/
def readResponseLine (nControl : NetBuf) : Client (Int × NetBuf) := do
  let r ← readLine nControl.response nControl nControl
  return (r.retval, { r.ctl with response := r.buffer })

/-- `strncmp(response, match, 4)` is zero, where `match` is the first three bytes of the reply's
first line, a blank and a NUL.  The bytes are compared up to the first NUL. -/
def matches4 : Nat → Bytes → Bytes → Bool
  | 0, _, _ => true
  | k + 1, a :: as, b :: bs => a = b && (a = 0 || matches4 k as bs)
  | _ + 1, _, _ => false

/-- `strncpy(match, response, 3); match[3] = ' '; match[4] = '\0'` -/
def replyMatch (response : Buffer RESPONSE_BUFFER_SIZE) : Bytes :=
  let code := (response.bytes.take 3).takeWhile (· ≠ 0)
  code ++ List.replicate (3 - code.length) 0 ++ [32, 0]

/-- `readResponse`: read a response from the server; 1 if its first character is `c`. -/
def readResponse (c : UInt8) (nControl : NetBuf) : Client (Int × NetBuf) := do
  let (rv, nControl) ← readResponseLine nControl
  if rv = -1 then
    return (0, nControl)
  else
    let verdict (nControl : NetBuf) : Int := if nControl.response.first = c then 1 else 0
    if nControl.response.bytes[3]? = some 45 then
      let code := replyMatch nControl.response
      Prog.forever nControl fun nControl => do
        let (rv, nControl) ← readResponseLine nControl
        if rv = -1 then
          return .done (0, nControl)
        else if matches4 4 nControl.response.bytes code then
          return .done (verdict nControl, nControl)
        else
          return .next nControl
    else
      return (verdict nControl, nControl)

/-- `sendCommand`: send a command and wait for the expected response. -/
def sendCommand (cmd : Bytes) (expresp : UInt8) (nControl : NetBuf) : Client (Int × NetBuf) := do
  if nControl.dir ≠ .control then
    return (0, nControl)
  else if cmd.length + 3 > TEMP_BUFFER_SIZE then
    return (0, nControl)
  else
    match ← Sys.send nControl.handle (cmd ++ [CR, LF]) with
    | none => return (0, nControl)
    | some sent =>
      if sent.1 = 0 then return (0, nControl)
      else readResponse expresp nControl

end Ftp
