import BaseUtilities.Ftp.Control

/-!
# What reading a line does

The purpose of `readLine`: take bytes from what is unread and then from the socket until a line end,
a full array or the end of the stream.  `fetchLine` says so on byte strings, without the receive
buffer's offsets and the running pointers, and `readLine_bisim` says that `readLine` is that.
-/

open Effects Mem

namespace Ftp

/-! ## Line ends -/

theorem memccpy_length_le (c : UInt8) (src : Bytes) : (memccpy c src).1.length ≤ src.length := by
  induction src with
  | nil => simp [memccpy]
  | cons b src ih =>
    rw [memccpy]
    split
    · simp
    · simpa using ih

theorem memccpy_append_drop (c : UInt8) (src : Bytes) :
    (memccpy c src).1 ++ src.drop (memccpy c src).1.length = src := by
  induction src with
  | nil => rfl
  | cons b src ih =>
    rw [memccpy]
    split
    · next h => simp
    · simpa using ih

theorem memccpy_found {c : UInt8} {src : Bytes} (h : (memccpy c src).2 = true) :
    ∃ init, (memccpy c src).1 = init ++ [c] ∧ c ∉ init := by
  induction src with
  | nil => simp [memccpy] at h
  | cons b src ih =>
    rw [memccpy] at h ⊢
    split
    · next hb => exact ⟨[], by simp [hb], by simp⟩
    · next hb =>
      rw [if_neg hb] at h
      obtain ⟨init, hinit, hc⟩ := ih h
      refine ⟨b :: init, by simp [hinit], ?_⟩
      simp only [List.mem_cons, not_or]
      exact ⟨fun hcb => hb hcb.symm, hc⟩

theorem memccpy_missing {c : UInt8} {src : Bytes} (h : (memccpy c src).2 = false) :
    (memccpy c src).1 = src ∧ c ∉ src := by
  induction src with
  | nil => exact ⟨rfl, by simp⟩
  | cons b src ih =>
    rw [memccpy] at h ⊢
    split
    · next hb => simp [hb] at h
    · next hb =>
      rw [if_neg hb] at h
      obtain ⟨hcopy, hc⟩ := ih h
      refine ⟨by simp [hcopy], ?_⟩
      simp only [List.mem_cons, not_or]
      exact ⟨fun hcb => hb hcb.symm, hc⟩

/-- A line with CR LF at its end turned into LF. -/
def chomp (text : Bytes) : Bytes :=
  if text.drop (text.length - 2) = [CR, LF] then text.take (text.length - 2) ++ [LF] else text

theorem chomp_crlf (init : Bytes) : chomp (init ++ [CR, LF]) = init ++ [LF] := by
  simp [chomp]

theorem chomp_of_ne {text : Bytes} (h : text.drop (text.length - 2) ≠ [CR, LF]) :
    chomp text = text :=
  if_neg h

/-! ## Lines -/

/-- Why the reading of a line ended: at a line end, because the array was full, at the end of the
stream, because `socketWait` gave up, or because `recv` failed. -/
inductive LineEnd where
  | newline
  | full
  | eof
  | aborted
  | error
  deriving DecidableEq, Repr

/-- A line as it was read: the bytes taken for it and those left unread behind it. -/
structure Line where
  ending : LineEnd
  text : Bytes
  rest : Bytes
  nControl : NetBuf

/-- The string that a line leaves in the caller's array.  The first byte of a line that does not fit
is lost. -/
def Line.content (l : Line) : Bytes :=
  match l.ending with
  | .newline => chomp l.text
  | .full => l.text.set 0 0
  | _ => l.text

/-- The value that `readLine` returns for a line. -/
def Line.retval (l : Line) : Int :=
  match l.ending with
  | .newline => (chomp l.text).length
  | .full => l.text.length
  | .eof => if l.text = [] then -1 else l.text.length
  | .aborted => l.text.length
  | .error => -1

/-- The zeros behind a line's string: a shortened line end leaves a second one. -/
def Line.padding (l : Line) : Bytes :=
  0 :: List.replicate (l.text.length - l.content.length) 0

/-- The caller's array behind a line; without a byte of text it is left as it was. -/
def Line.shown {n : Nat} (l : Line) (buffer : Buffer n) : Buffer n :=
  if l.text = [] ∧ l.ending ≠ .full then buffer else buffer.overlay (l.content ++ l.padding)

/-- A line in the course of being read, with the bytes that `recv` has delivered. -/
structure Reading where
  text : Bytes
  rest : Bytes
  eof : Bool
  nControl : NetBuf

/-- How many unread bytes are offered to `memccpy`. -/
def Reading.offered (n : Nat) (s : Reading) : Nat :=
  if s.rest.length ≤ n - s.text.length then s.rest.length else n - s.text.length - 1

/-- Take bytes for a line from those that are unread. -/
def Reading.take (n : Nat) (s : Reading) : Reading :=
  let copied := (memccpy LF (s.rest.take (s.offered n))).1
  { s with text := s.text ++ copied, rest := s.rest.drop copied.length }

def Reading.found (n : Nat) (s : Reading) : Bool := (memccpy LF (s.rest.take (s.offered n))).2

/-- One pass of reading a line for an array of `n` bytes. -/
def fetchBody (n : Nat) (ctl : NetBuf) (s : Reading) : Client (Iter Reading Line) :=
  let t := s.take n
  -- no room for the terminator
  if s.rest ≠ [] ∧ n ≤ t.text.length then Prog.fault
  else if s.found n then
    -- a line end alone: the look back leaves the array
    if t.text.length < 2 then Prog.fault
    else return .done ⟨.newline, t.text, t.rest, t.nControl⟩
  else if t.text.length + 1 = n then return .done ⟨.full, t.text, t.rest, t.nControl⟩
  else if t.eof then return .done ⟨.eof, t.text, t.rest, t.nControl⟩
  else do
    let (ready, nControl) ← socketWait ctl t.nControl
    if ready = 0 then
      return .done ⟨.aborted, t.text, t.rest, nControl⟩
    else
      match ← Sys.recv ctl.handle BUFFER_SIZE with
      | none => return .done ⟨.error, t.text, t.rest, nControl⟩
      | some x => return .next ⟨t.text, x.1, x.1.isEmpty, nControl⟩

/-- Read a line for an array of `n` bytes, where `unread` bytes wait in the receive buffer. -/
def fetchLine (n : Nat) (ctl : NetBuf) (unread : Bytes) (nControl : NetBuf) : Client Line :=
  Prog.forever ⟨[], unread, false, nControl⟩ (fetchBody n ctl)

/-! ## The receive buffer -/

/-- `u` is what the receive buffer of `ctl` holds unread. -/
structure NetBuf.Unread (ctl : NetBuf) (u : Bytes) : Prop where
  length_eq : u.length = ctl.cavail
  cput_eq : ctl.cput = ctl.cget + ctl.cavail
  loaded : ∃ b, ctl.buf = some b ∧ b.load? ctl.cget ctl.cavail = some u

/-- Two states of a connection that differ in its receive buffer only. -/
def NetBuf.Moved (ctl ctl' : NetBuf) : Prop :=
  ∃ cput cget cavail cleft buf,
    ctl' = { ctl with cput := cput, cget := cget, cavail := cavail, cleft := cleft, buf := buf }

theorem NetBuf.Moved.refl (ctl : NetBuf) : ctl.Moved ctl := ⟨_, _, _, _, _, rfl⟩

theorem NetBuf.Moved.trans {c₁ c₂ c₃ : NetBuf} (h : c₁.Moved c₂) (h' : c₂.Moved c₃) :
    c₁.Moved c₃ := by
  obtain ⟨_, _, _, _, _, rfl⟩ := h
  obtain ⟨_, _, _, _, _, rfl⟩ := h'
  exact ⟨_, _, _, _, _, rfl⟩

theorem NetBuf.Moved.handle_eq {c₁ c₂ : NetBuf} (h : c₁.Moved c₂) : c₂.handle = c₁.handle := by
  obtain ⟨_, _, _, _, _, rfl⟩ := h
  rfl

theorem NetBuf.Moved.socketWait_eq {c₁ c₂ : NetBuf} (h : c₁.Moved c₂) (nControl : NetBuf) :
    socketWait c₂ nControl = socketWait c₁ nControl := by
  obtain ⟨_, _, _, _, _, rfl⟩ := h
  rfl

/-- Taking bytes from the receive buffer. -/
theorem NetBuf.Unread.advance {ctl : NetBuf} {u : Bytes} (h : ctl.Unread u) {k : Nat}
    (hk : k ≤ u.length) :
    { ctl with cget := ctl.cget + k, cavail := ctl.cavail - k : NetBuf }.Unread (u.drop k) := by
  obtain ⟨hlen, hput, b, hb, hload⟩ := h
  refine ⟨?_, ?_, b, hb, (Buffer.load?_drop hload (by omega)).2⟩
  · simp only [List.length_drop]
    omega
  · dsimp only
    omega

theorem NetBuf.Unread.rewind_nil {ctl : NetBuf} (h : ctl.Unread []) :
    ctl.rewind = { ctl with cput := 0, cget := 0, cavail := 0, cleft := BUFFER_SIZE } := by
  have hcavail : ctl.cavail = 0 := h.length_eq.symm
  have hput := h.cput_eq
  rw [NetBuf.rewind, if_pos (by omega)]

theorem NetBuf.Unread.rewind_unread {ctl : NetBuf} (h : ctl.Unread []) :
    ctl.rewind.Unread [] := by
  rw [h.rewind_nil]
  obtain ⟨-, -, b, hb, -⟩ := h
  exact ⟨rfl, rfl, b, hb, by simp [Buffer.load?]⟩

theorem NetBuf.rewind_moved (ctl : NetBuf) : ctl.Moved ctl.rewind := by
  rw [NetBuf.rewind]
  split
  · exact ⟨_, _, _, _, _, rfl⟩
  · exact .refl ctl

/-- Receiving into an empty buffer. -/
theorem NetBuf.Unread.receive {ctl : NetBuf} (h : ctl.Unread []) {bytes : Bytes}
    (hlen : bytes.length ≤ BUFFER_SIZE) :
    ∃ ctl', ctl.rewind.receive bytes = some ctl' ∧ ctl'.Unread bytes ∧ ctl.Moved ctl' := by
  rw [h.rewind_nil]
  obtain ⟨-, -, b, hb, -⟩ := h
  refine ⟨{ ctl with
    cput := bytes.length, cget := 0, cavail := bytes.length, cleft := BUFFER_SIZE - bytes.length
    buf := some (b.overlay bytes) }, ?_, ⟨rfl, by simp, _, rfl, ?_⟩, ⟨_, _, _, _, _, rfl⟩⟩
  · simp [NetBuf.receive, hb, b.store?_zero hlen]
  · have := b.overlay_load? [] bytes [] (by simpa using hlen)
    simpa using this

/-! ## `readLine` reads lines -/

variable {n : Nat}

/-- The variables of `readLine`, its array apart, for a line that is being read. -/
structure Fetches (ctl : NetBuf) (s : LineState n) (r : Reading) : Prop where
  bp_eq : s.bp = r.text.length
  max_eq : s.max = n - r.text.length
  retval_eq : s.retval = r.text.length
  eof_eq : s.eof = r.eof
  nControl_eq : s.nControl = r.nControl
  room : r.text.length < n
  moved : ctl.Moved s.ctl
  unread : s.ctl.Unread r.rest

/-- The array behind a text without a line end. -/
def shownText (buffer : Buffer n) (text : Bytes) : Buffer n :=
  if text = [] then buffer else buffer.overlay (text ++ [0])

/-- The head of the loop: there is room for a byte and a terminator, or nothing is taken yet. -/
structure AtHead (buffer : Buffer n) (ctl : NetBuf) (s : LineState n) (r : Reading) : Prop
    extends Fetches ctl s r where
  more : r.text = [] ∨ r.text.length + 1 < n
  buffer_eq : s.buffer = shownText buffer r.text

theorem Reading.take_nil {s : Reading} (h : s.rest = []) : s.take n = s ∧ s.found n = false := by
  obtain ⟨text, rest, eof, nControl⟩ := s
  obtain rfl : rest = [] := h
  simp [Reading.take, Reading.found, memccpy]

theorem Reading.copied_length (s : Reading) :
    (memccpy LF (s.rest.take (s.offered n))).1.length ≤ s.offered n := by
  have := memccpy_length_le LF (s.rest.take (s.offered n))
  rw [List.length_take] at this
  omega

theorem Reading.copied_nil {s : Reading} (h : (memccpy LF (s.rest.take (s.offered n))).1 = [])
    (hrest : s.rest ≠ []) : s.offered n = 0 := by
  cases hs : s.rest with
  | nil => exact absurd hs hrest
  | cons b rest =>
    cases ho : s.offered n with
    | zero => rfl
    | succ k =>
      rw [hs, ho, List.take_succ_cons, memccpy] at h
      split at h <;> simp at h

/-- The array takes the copied bytes and a terminator behind the text. -/
theorem AtHead.store {buffer : Buffer n} {ctl : NetBuf} {s : LineState n} {r : Reading}
    (h : AtHead buffer ctl s r) {copied : Bytes} (hne : copied = [] → r.text = [])
    (hroom : r.text.length + copied.length < n) :
    ∃ b, s.buffer.store? s.bp copied = some b ∧
      b.store? (s.bp + copied.length) [0] = some (buffer.overlay (r.text ++ copied ++ [0])) := by
  rw [h.bp_eq, h.buffer_eq, shownText]
  by_cases htext : r.text = []
  · refine ⟨buffer.overlay copied, ?_, ?_⟩
    · rw [if_pos htext, htext]
      exact buffer.store?_zero (by omega)
    · have := buffer.overlay_store? copied [] [0] (by simp) (by simp; omega)
      simpa [htext] using this
  · have hcopied : 0 < copied.length := List.length_pos_iff.mpr fun hc => htext (hne hc)
    refine ⟨buffer.overlay (r.text ++ copied), ?_, ?_⟩
    · rw [if_neg htext]
      exact buffer.overlay_store? r.text [0] copied hcopied (by omega)
    · have := buffer.overlay_store? (r.text ++ copied) [] [0] (by simp) (by simp; omega)
      simpa using this

/-- What the copying leaves in the array. -/
def Copied (buffer : Buffer n) (s : LineState n) (text : Bytes) : Prop :=
  s.buffer = shownText buffer text ∨ n = 1 ∧ text = [] ∧ s.buffer = buffer.overlay [0]

/-- The state that `copy` returns once its accesses have succeeded. -/
def LineState.taken (s : LineState n) (x : Nat) (buffer : Buffer n) : LineState n :=
  { s with
    buffer, bp := s.bp + x, max := s.max - x, retval := s.retval + x
    ctl := { s.ctl with cget := s.ctl.cget + x, cavail := s.ctl.cavail - x } }

theorem AtHead.copy_eq {buffer : Buffer n} {ctl : NetBuf} {s : LineState n} {r : Reading}
    (h : AtHead buffer ctl s r) (hrest : r.rest ≠ []) {copied : Bytes}
    (hcopied : (memccpy LF (r.rest.take (r.offered n))).1 = copied) :
    s.copy = (s.buffer.store? s.bp copied).bind fun b =>
      (b.store? (s.bp + copied.length) [0]).map fun b =>
        (s.taken copied.length b, r.found n) := by
  have hcavail := h.unread.length_eq
  have hpos : 0 < r.rest.length := List.length_pos_iff.mpr hrest
  have hmax := h.max_eq
  have hroom := h.room
  have hle : r.offered n ≤ r.rest.length := by
    rw [Reading.offered]
    split <;> omega
  have hoffer : (if s.max ≥ s.ctl.cavail then s.ctl.cavail else s.max - 1) = r.offered n := by
    rw [Reading.offered, hmax, ← hcavail]
  obtain ⟨-, -, buf, hbuf, hload⟩ := h.unread
  obtain ⟨hload, -⟩ := Buffer.load?_drop hload (k := r.offered n) (by omega)
  rw [LineState.copy, if_neg (by omega), if_neg (by omega), hoffer]
  simp only [hbuf, Option.bind_eq_bind, Option.bind_some, hload]
  subst hcopied
  cases s.buffer.store? s.bp (memccpy LF (r.rest.take (r.offered n))).1 with
  | none => rfl
  | some b =>
    simp only [Option.bind_some, LineState.taken, hbuf]
    cases b.store? (s.bp + (memccpy LF (r.rest.take (r.offered n))).1.length) [0] with
    | none => rfl
    | some b' => rfl

theorem AtHead.copy {buffer : Buffer n} {ctl : NetBuf} {s : LineState n} {r : Reading}
    (h : AtHead buffer ctl s r) (hroom : ¬(r.rest ≠ [] ∧ n ≤ (r.take n).text.length)) :
    ∃ s', s.copy = some (s', r.found n) ∧ Fetches ctl s' (r.take n) ∧
      Copied buffer s' (r.take n).text := by
  -- With an empty buffer the source skips the copy.
  by_cases hrest : r.rest = []
  · obtain ⟨htake, hfound⟩ := Reading.take_nil (n := n) hrest
    have hzero : s.ctl.cavail = 0 := by rw [← h.unread.length_eq, hrest]; rfl
    refine ⟨s, by rw [LineState.copy, if_pos hzero, hfound], by rw [htake]; exact h.toFetches, ?_⟩
    rw [htake]
    exact .inl h.buffer_eq
  · obtain ⟨copied, hcopied⟩ : ∃ copied, (memccpy LF (r.rest.take (r.offered n))).1 = copied :=
      ⟨_, rfl⟩
    have htext : (r.take n).text = r.text ++ copied := by rw [← hcopied]; rfl
    have hrest' : (r.take n).rest = r.rest.drop copied.length := by rw [← hcopied]; rfl
    have hle : copied.length ≤ r.rest.length := by
      rw [← hcopied]
      exact Nat.le_trans (memccpy_length_le _ _) (List.length_take_le' _ _)
    have hlen : r.text.length + copied.length < n := by
      rw [htext, List.length_append] at hroom
      exact Nat.not_le.mp fun hn => hroom ⟨hrest, hn⟩
    -- Nothing is copied from a buffer that is not empty only where no byte may be written.
    have hnone : copied = [] → n = 1 ∧ r.text = [] := by
      intro hc
      have hoffer := Reading.copied_nil (hcopied.trans hc) hrest
      have hpos : 0 < r.rest.length := List.length_pos_iff.mpr hrest
      rw [Reading.offered] at hoffer
      rcases h.more with ht | ht
      · simp only [ht, List.length_nil] at hoffer hlen
        refine ⟨?_, ht⟩
        split at hoffer <;> omega
      · split at hoffer <;> omega
    -- The terminator behind the copied bytes is inside of the array by `hroom`.
    obtain ⟨b, hb, hb'⟩ := h.store (fun hc => (hnone hc).2) hlen
    refine ⟨s.taken copied.length (buffer.overlay (r.text ++ copied ++ [0])), ?_, ⟨?_, ?_, ?_,
      h.eof_eq, h.nControl_eq, ?_, ?_, ?_⟩, ?_⟩
    · rw [h.copy_eq hrest hcopied, hb, Option.bind_some, hb', Option.map_some]
    · rw [htext, List.length_append, ← h.bp_eq]; rfl
    · rw [htext, List.length_append, ← Nat.sub_sub, ← h.max_eq]; rfl
    · rw [htext, List.length_append, ← h.retval_eq]; rfl
    · rwa [htext, List.length_append]
    · exact h.moved.trans ⟨_, _, _, _, _, rfl⟩
    · rw [hrest']
      exact h.unread.advance hle
    · rw [htext]
      -- An empty text shows nothing but its NUL, which `shownText` leaves out.
      by_cases hnil : r.text ++ copied = []
      · obtain ⟨ht, hc⟩ := List.append_eq_nil_iff.mp hnil
        exact .inr ⟨(hnone hc).1, hnil, by rw [hnil]; rfl⟩
      · exact .inl (by rw [shownText, if_neg hnil]; rfl)

theorem AtHead.copy_none {buffer : Buffer n} {ctl : NetBuf} {s : LineState n} {r : Reading}
    (h : AtHead buffer ctl s r) (hrest : r.rest ≠ []) (hroom : n ≤ (r.take n).text.length) :
    s.copy = none := by
  obtain ⟨copied, hcopied⟩ : ∃ copied, (memccpy LF (r.rest.take (r.offered n))).1 = copied :=
    ⟨_, rfl⟩
  have htext : (r.take n).text = r.text ++ copied := by rw [← hcopied]; rfl
  rw [htext, List.length_append, ← h.bp_eq] at hroom
  rw [h.copy_eq hrest hcopied]
  cases s.buffer.store? s.bp copied with
  | none => rfl
  | some b =>
    rw [Option.bind_some, Buffer.store?_eq_none (by simpa using by omega)]
    rfl

/-- What a line's reader hands to its caller. -/
structure LineResult.Returns (buffer : Buffer n) (ctl : NetBuf) (res : LineResult n) (l : Line) :
    Prop where
  retval_eq : res.retval = l.retval
  buffer_eq : res.buffer = l.shown buffer
  nControl_eq : res.nControl = l.nControl
  moved : ctl.Moved res.ctl
  unread : res.ctl.Unread l.rest

/-- A text of two bytes or more, taken apart at the place where `readLine` looks for CR. -/
theorem exists_last_two {text : Bytes} (h : 2 ≤ text.length) :
    ∃ pre a b, text = pre ++ [a, b] ∧ pre.length = text.length - 2 := by
  refine ⟨text.take (text.length - 2), ?_⟩
  have hlen : (text.drop (text.length - 2)).length = 2 := by
    rw [List.length_drop]
    omega
  obtain ⟨a, b, hab⟩ := List.length_eq_two.mp hlen
  refine ⟨a, b, ?_, ?_⟩
  · rw [← hab, List.take_append_drop]
  · rw [List.length_take]
    omega

/-- A line end: the look back turns CR LF into LF. -/
theorem Fetches.chop {buffer : Buffer n} {ctl : NetBuf} {s : LineState n} {r : Reading}
    (h : Fetches ctl s r) (hbuffer : s.buffer = buffer.overlay (r.text ++ [0]))
    (hlen : 2 ≤ r.text.length) :
    ∃ s', s.chop = some s' ∧
      (s'.result s'.retval).Returns buffer ctl ⟨.newline, r.text, r.rest, r.nControl⟩ := by
  obtain ⟨pre, a, b, htext, hpre⟩ := exists_last_two hlen
  have hroom := h.room
  have hne : r.text ≠ [] := by rw [htext]; simp
  have hbp : s.bp - 2 = pre.length := by rw [h.bp_eq, hpre]
  -- The source compares three bytes, the terminator included, as a string.
  have hload : s.buffer.load? pre.length 3 = some [a, b, 0] := by
    have := buffer.overlay_load? pre [a, b, 0] [] (by simp; omega)
    simpa [hbuffer, htext] using this
  -- CR LF becomes LF and a second NUL; any other ending stays as it is.
  by_cases hab : a = CR ∧ b = LF
  · obtain ⟨rfl, rfl⟩ := hab
    have hstore : s.buffer.store? pre.length [LF, 0] =
        some (buffer.overlay (pre ++ [LF, 0] ++ [0])) := by
      have := buffer.overlay_patch pre [CR, LF] [LF, 0] [0] rfl (by simp; omega)
      simpa [hbuffer, htext] using this
    have hchomp : chomp r.text = pre ++ [LF] := by rw [htext, chomp_crlf]
    refine ⟨{ s with buffer := buffer.overlay (pre ++ [LF, 0] ++ [0]), retval := s.retval - 1 },
      ?_, ⟨?_, ?_, h.nControl_eq, h.moved, h.unread⟩⟩
    · rw [LineState.chop, if_neg (by rw [h.bp_eq]; omega), hbp]
      simp [hload, hstore]
    · have hlen' : r.text.length = pre.length + 2 := by omega
      simp only [LineState.result, Line.retval, hchomp, h.retval_eq, hlen', List.length_append,
        List.length_cons, List.length_nil]
      omega
    · simp only [LineState.result, Line.shown, Line.content, Line.padding, hchomp, hne, false_and,
        if_false]
      rw [htext]
      simp
  · have hchomp : chomp r.text = r.text := by
      apply chomp_of_ne
      rw [← hpre, htext, List.drop_left' rfl]
      simpa using hab
    refine ⟨s, ?_, ⟨?_, ?_, h.nControl_eq, h.moved, h.unread⟩⟩
    · rw [LineState.chop, if_neg (by rw [h.bp_eq]; omega), hbp]
      simp [hload, hab]
    · simp only [LineState.result, Line.retval, hchomp, h.retval_eq]
    · simp only [LineState.result, Line.shown, Line.content, Line.padding, hchomp, hne, false_and,
        if_false, hbuffer, Nat.sub_self, List.replicate_zero]

/-- A full array: its first byte is cleared. -/
theorem Fetches.clear {buffer : Buffer n} {ctl : NetBuf} {s : LineState n} {r : Reading}
    (h : Fetches ctl s r) (hbuffer : Copied buffer s r.text) (hfull : r.text.length + 1 = n) :
    ∃ b, s.buffer.store? 0 [0] = some b ∧
      ({ s with buffer := b }.result s.retval).Returns buffer ctl
        ⟨.full, r.text, r.rest, r.nControl⟩ := by
  have hstore : s.buffer.store? 0 [0] = some (buffer.overlay (r.text.set 0 0 ++ [0])) := by
    rcases hbuffer with hb | ⟨-, htext, hb⟩
    · rw [hb, shownText]
      cases htext : r.text with
      | nil => exact buffer.store?_zero (by simp; omega)
      | cons c t =>
        have := buffer.overlay_patch [] [c] [0] (t ++ [0]) rfl
          (by rw [htext] at hfull; simp at hfull ⊢; omega)
        simpa using this
    · rw [hb, htext]
      exact buffer.overlay_patch [] [0] [0] [] rfl (by simp; omega)
  refine ⟨_, hstore, ⟨?_, ?_, h.nControl_eq, h.moved, h.unread⟩⟩
  · simp only [LineState.result, Line.retval, h.retval_eq]
  · simp [LineState.result, Line.shown, Line.content, Line.padding]

/-- Without a line end and with room left, everything unread was taken. -/
theorem Reading.take_rest {r : Reading} (hroom : r.text.length < n) (hfound : r.found n = false)
    (hmore : (r.take n).text.length + 1 ≠ n) : (r.take n).rest = [] := by
  obtain ⟨hcopied, -⟩ := memccpy_missing hfound
  have htext : (r.take n).text.length = r.text.length + min (r.offered n) r.rest.length := by
    rw [Reading.take]
    simp only [hcopied, List.length_append, List.length_take]
  have hrest : (r.take n).rest = r.rest.drop (min (r.offered n) r.rest.length) := by
    rw [Reading.take]
    simp only [hcopied, List.length_take]
  rw [hrest]
  apply List.drop_of_length_le
  rw [Reading.offered] at htext ⊢
  split
  · omega
  · next hlt =>
    rw [if_neg hlt] at htext
    omega

theorem Line.shown_unended (buffer : Buffer n) (l : Line) (hline : l.ending ≠ .newline)
    (hfull : l.ending ≠ .full) : l.shown buffer = shownText buffer l.text := by
  have hcontent : l.content = l.text := by
    rw [Line.content]
    split
    · next h => exact absurd h hline
    · next h => exact absurd h hfull
    · rfl
  simp only [Line.shown, Line.padding, shownText, hcontent, hfull, ne_eq, not_false_eq_true,
    and_true, Nat.sub_self, List.replicate_zero]

theorem readLineBody_bisim {buffer : Buffer n} {ctl : NetBuf} {s : LineState n} {r : Reading}
    (h : AtHead buffer ctl s r) :
    Bisim (Iter.Rel (AtHead buffer ctl) (LineResult.Returns buffer ctl)) (readLineBody s)
      (fetchBody n ctl r) := by
  rw [fetchBody, readLineBody]
  -- Step by step: the bisimulation follows the branches of the source's loop in their order.
  dsimp only
  split
  · next hfault =>
    rw [h.copy_none hfault.1 hfault.2, Prog.ofOption_none, Prog.fault_bind]
    exact bisim_fault
  · next hroom =>
    obtain ⟨s', hcopy, hfetch, hbuffer⟩ := h.copy hroom
    rw [hcopy, Prog.ofOption_some, Prog.ret_bind]
    -- Both ask whether a line end was copied.
    dsimp only
    generalize hfound : r.found n = found
    have hlen := hfetch.room
    cases found with
    | true =>
      simp only [if_true]
      split
      · next hshort =>
        rw [LineState.chop, if_pos (by rw [hfetch.bp_eq]; exact hshort), Prog.ofOption_none,
          Prog.fault_bind]
        exact bisim_fault
      · next hlong =>
        have hne : (r.take n).text ≠ [] := fun h => by simp [h] at hlong
        have hshown : s'.buffer = buffer.overlay ((r.take n).text ++ [0]) := by
          rcases hbuffer with hb | ⟨-, ht, -⟩
          · rwa [shownText, if_neg hne] at hb
          · exact absurd ht hne
        obtain ⟨s'', hchop, hres⟩ := hfetch.chop hshown (by omega)
        rw [hchop]
        exact bisim_ret (.done hres)
    | false =>
      simp only [Bool.false_eq_true, if_false]
      by_cases hfull : (r.take n).text.length + 1 = n
      · rw [if_pos hfull, if_pos (by rw [hfetch.max_eq]; omega)]
        obtain ⟨b, hb, hres⟩ := hfetch.clear hbuffer hfull
        rw [hb]
        exact bisim_ret (.done hres)
      · rw [if_neg hfull, if_neg (by rw [hfetch.max_eq]; omega), hfetch.eof_eq]
        have hrest := Reading.take_rest h.room hfound hfull
        have hunread : s'.ctl.Unread [] := hrest ▸ hfetch.unread
        have hshown : s'.buffer = shownText buffer (r.take n).text := by
          rcases hbuffer with hb | ⟨h1, ht, -⟩
          · exact hb
          · exact absurd (by rw [ht, h1]; rfl) hfull
        -- From here on the buffer is empty, and the source rewinds it before it reads again.
        have hmoved : ctl.Moved s'.ctl.rewind := hfetch.moved.trans s'.ctl.rewind_moved
        by_cases heof : (r.take n).eof = true
        · rw [if_pos heof, if_pos heof]
          refine bisim_ret (.done ⟨?_, ?_, hfetch.nControl_eq, hmoved, ?_⟩)
          · have := hfetch.retval_eq
            simp only [LineState.result, Line.retval, this, List.length_eq_zero_iff]
          · rw [Line.shown_unended _ _ (by simp) (by simp)]
            exact hshown
          · rw [hrest]
            exact hunread.rewind_unread
        · rw [if_neg heof, if_neg heof]
          simp only [hmoved.socketWait_eq, hfetch.nControl_eq]
          refine bisim_bind (bisim_refl (R := Eq) (fun _ => rfl) _) ?_
          rintro _ ⟨ready, nControl⟩ rfl
          dsimp only
          -- Where no line end was found and the array is not full, all endings show the same bytes.
          have hunended : ∀ ending, ending ≠ .newline → ending ≠ .full →
              s'.buffer = Line.shown ⟨ending, (r.take n).text, (r.take n).rest, nControl⟩ buffer :=
            fun _ h h' => by rw [Line.shown_unended _ _ h h']; exact hshown
          split
          · refine bisim_ret (.done ⟨?_, hunended _ (by simp) (by simp), rfl, hmoved, ?_⟩)
            · exact congrArg _ hfetch.retval_eq
            · rw [hrest]
              exact hunread.rewind_unread
          · rw [hmoved.handle_eq, hunread.rewind_nil]
            refine bisim_call fun x => ?_
            cases x with
            | none =>
              refine bisim_ret (.done ⟨rfl, hunended _ (by simp) (by simp), rfl, ?_, ?_⟩)
              · rw [← hunread.rewind_nil]
                exact hmoved
              · rw [hrest, LineState.result, ← hunread.rewind_nil]
                exact hunread.rewind_unread
            | some x =>
              obtain ⟨ctl', hreceive, hunread', hmoved'⟩ := hunread.receive x.2
              rw [hunread.rewind_nil] at hreceive
              simp only [Prog.bind, hreceive]
              have hmore : (r.take n).text.length + 1 < n := by omega
              exact bisim_ret (.next ⟨⟨hfetch.bp_eq, hfetch.max_eq, hfetch.retval_eq, rfl, rfl, hlen,
                hfetch.moved.trans hmoved', hunread'⟩, .inr hmore, hshown⟩)

/-- `readLine` makes the calls of `fetchLine`, and leaves the line in the caller's array. -/
theorem readLine_bisim (buffer : Buffer n) {ctl : NetBuf} {unread : Bytes} (nControl : NetBuf)
    (hn : 0 < n) (hdir : ctl.dir ≠ .write) (hunread : ctl.Unread unread) :
    Bisim (LineResult.Returns buffer ctl) (readLine buffer ctl nControl)
      (fetchLine n ctl unread nControl) := by
  rw [readLine, if_neg hdir, if_neg (by omega), fetchLine]
  refine bisim_forever (S := AtHead buffer ctl) ⟨⟨rfl, rfl, rfl, rfl, rfl, hn, .refl ctl, hunread⟩,
    .inl rfl, rfl⟩ fun s r h => readLineBody_bisim h

end Ftp
