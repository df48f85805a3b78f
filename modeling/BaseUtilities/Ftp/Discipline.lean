import BaseUtilities.Ftp.Stream

/-!
# The buffers of `readLine`

Which accesses `readLine` makes to the array of its caller and to the receive buffer, for every stream
and every way in which it arrives.  The offsets of the receive buffer stay in step, and `recv` is asked
for a whole buffer; but a line end alone, and a line that fills the array as it arrives, take `readLine`
out of the array.
-/

open Effects Mem

namespace Ftp

/-! ## The receive buffer -/

/-- The offsets and the counts of a receive buffer agree. -/
structure NetBuf.Framed (ctl : NetBuf) : Prop where
  cavail_eq : ctl.cput = ctl.cget + ctl.cavail
  cleft_eq : ctl.cput + ctl.cleft = BUFFER_SIZE

/-- The pointers are still null. -/
structure NetBuf.Fresh (ctl : NetBuf) : Prop where
  cput_eq : ctl.cput = 0
  cget_eq : ctl.cget = 0
  cavail_eq : ctl.cavail = 0

/-- A state of the connection `ctl` in which its offsets agree, or with which nothing has been done. -/
def NetBuf.Kept (ctl ctl' : NetBuf) : Prop := ctl'.Framed ∨ ctl' = ctl ∧ ctl.Fresh

theorem NetBuf.Kept.cput_eq {ctl ctl' : NetBuf} (h : ctl.Kept ctl') :
    ctl'.cput = ctl'.cget + ctl'.cavail := by
  rcases h with h | ⟨rfl, h⟩
  · exact h.cavail_eq
  · rw [h.cput_eq, h.cget_eq, h.cavail_eq]

/-- Taking bytes moves the one offset and the one count. -/
theorem NetBuf.Kept.advance {ctl ctl' : NetBuf} (h : ctl.Kept ctl') {x : Nat} (hx : x ≤ ctl'.cavail) :
    ctl.Kept { ctl' with cget := ctl'.cget + x, cavail := ctl'.cavail - x } := by
  rcases h with h | ⟨rfl, h⟩
  · refine .inl ⟨?_, h.cleft_eq⟩
    have := h.cavail_eq
    dsimp only
    omega
  · have hzero : x = 0 := by
      have := h.cavail_eq
      omega
    rw [hzero]
    exact .inr ⟨rfl, h⟩

/-- Nothing is left to take before the buffer is used again from its front. -/
theorem NetBuf.Kept.rewind {ctl ctl' : NetBuf} (h : ctl.Kept ctl') : ctl'.rewind.Framed := by
  unfold NetBuf.rewind
  split
  · exact ⟨rfl, rfl⟩
  · next hne =>
    rcases h with h | ⟨rfl, h⟩
    · exact h
    · exact absurd (h.cput_eq.trans h.cget_eq.symm) hne

theorem NetBuf.Framed.receive {ctl ctl' : NetBuf} (h : ctl.Framed) {bytes : Bytes}
    (hbytes : bytes.length ≤ ctl.cleft) (hreceive : ctl.receive bytes = some ctl') : ctl'.Framed := by
  simp only [NetBuf.receive, Option.bind_eq_bind, Option.bind_eq_some_iff, Option.some.injEq] at hreceive
  obtain ⟨_, _, _, _, rfl⟩ := hreceive
  have := h.cavail_eq
  have := h.cleft_eq
  constructor
  · dsimp only
    omega
  · dsimp only
    omega

/-! ## The array of the caller -/

section

variable {n : Nat}

/-- The count that a pass gives to `memccpy`. -/
def LineState.count (l : LineState n) : Int :=
  if l.max ≥ l.ctl.cavail then l.ctl.cavail else l.max - 1

/-- The head of the loop: the offsets agree, `max` is the space left behind `bp`, and the count for
`memccpy` is not more than that. -/
structure LineState.Good (ctl : NetBuf) (l : LineState n) : Prop where
  kept : ctl.Kept l.ctl
  space : l.bp + l.max = n
  room : 2 ≤ l.max

theorem LineState.Good.count {ctl : NetBuf} {l : LineState n} (h : l.Good ctl) :
    0 ≤ l.count ∧ l.count ≤ l.max := by
  have := h.room
  unfold LineState.count
  split
  · omega
  · omega

/-- What the copying does to the running variables. -/
theorem LineState.copy_spec {l l' : LineState n} {found : Bool} (h : l.copy = some (l', found)) :
    ∃ x, x ≤ l.ctl.cavail ∧ x ≤ l.max ∧ l'.bp = l.bp + x ∧ l'.max = l.max - x ∧
      l'.ctl = { l.ctl with cget := l.ctl.cget + x, cavail := l.ctl.cavail - x } ∧
      (l.bp + l.max = n → 0 < l.max → 0 < l'.max) := by
  unfold LineState.copy at h
  split at h
  · next hcavail =>
    cases h
    exact ⟨0, Nat.zero_le _, Nat.zero_le _, rfl, rfl, rfl, fun _ h => h⟩
  split at h
  · cases h
  simp only [Option.bind_eq_bind, Option.bind_eq_some_iff, Option.some.injEq, Prod.mk.injEq] at h
  obtain ⟨buf, -, src, hload, b, -, b', hstore, rfl, -⟩ := h
  have hsrc := Buffer.load?_length_le hload
  have hcopied := memccpy_length_le LF src
  have hle : (memccpy LF src).1.length ≤ l.ctl.cavail ∧ (memccpy LF src).1.length ≤ l.max := by
    split at hsrc
    · omega
    · omega
  refine ⟨_, hle.1, hle.2, rfl, rfl, rfl, fun hspace hmax => ?_⟩
  rw [Buffer.store?] at hstore
  split at hstore
  · next hfits =>
    rw [List.length_singleton] at hfits
    dsimp only
    omega
  · cases hstore

variable {W : Type} {E : Env Op Op.Res W} {w : W} {ctl : NetBuf}

/-- A pass keeps the offsets and the space in step, in any environment. -/
theorem readLineBody_good {l : LineState n} (h : l.Good ctl) :
    wp E (fun _ _ => True) (readLineBody l)
      (Iter.post (fun l _ => l.Good ctl) fun r _ => ctl.Kept r.ctl) w := by
  unfold readLineBody
  -- The copy moves the cursor by the bytes it took: the buffer is still one that was read up to there.
  refine wp_bind.mpr (wp_ofOption.mpr ⟨fun _ => trivial, ?_⟩)
  intro ⟨l', found⟩ hcopy
  obtain ⟨x, hcavail, hmax, hbp', hmax', hctl', hleft⟩ := LineState.copy_spec hcopy
  have hkept : ctl.Kept l'.ctl := by
    rw [hctl']
    exact h.kept.advance hcavail
  dsimp only
  -- A line end was found: `chop` changes the caller's array and leaves the connection alone.
  split
  · refine wp_bind.mpr (wp_ofOption.mpr ⟨fun _ => trivial, fun l'' hchop => ?_⟩)
    obtain ⟨hctl'', -⟩ := LineState.chop_frame hchop
    rw [← hctl''] at hkept
    exact wp_ret.mpr hkept
  -- The array is full: its first byte is cleared.
  split
  · exact wp_bind.mpr (wp_ofOption.mpr ⟨fun _ => trivial, fun b _ => wp_ret.mpr hkept⟩)
  next hone =>
  -- From here on everything is consumed, and the buffer is rewound before `recv` writes to it.
  have hframed : l'.ctl.rewind.Framed := hkept.rewind
  split
  · exact wp_ret.mpr (.inl hframed)
  refine wp_bind.mpr (wp.mono (Q := fun _ _ => True) (fun out _ _ => by cases out <;> trivial) ?_)
  intro ⟨ready, nc⟩ w _
  dsimp only
  split
  · exact wp_ret.mpr (.inl hframed)
  refine wp_ask trivial fun x w _ => ?_
  cases x with
  | none => exact wp_ret.mpr (.inl hframed)
  | some x =>
    refine wp_bind.mpr (wp_ofOption.mpr ⟨fun _ => trivial, fun ctl' hreceive => ?_⟩)
    have hspace := h.space
    have hroom := h.room
    -- The line goes on, so the array still has room for a byte and its terminator.
    have := hleft hspace (by omega)
    exact wp_ret.mpr ⟨.inl (hframed.receive x.2 hreceive), by dsimp only; omega, by dsimp only; omega⟩

end

/-! ## Streams that arrive -/

/-- The bytes that a call delivers. -/
def arrived : FtpEvent → Bytes
  | ⟨.recv _ _, some x⟩ => x.1
  | _ => []

/-- `recv` delivers the next bytes of a stream, as many as it likes, or fails; a connection may end
before its stream.  All other calls answer as they like. -/
def arriving : Env Op Op.Res Bytes := fun s op r s' => s = arrived ⟨op, r⟩ ++ s'

/-- Nothing is accessed outside of the arrays, and `recv` is not called without room. -/
def InBounds : Stop Op → Prop
  | .asking (.recv _ len) => 0 < len
  | .asking _ => True
  | .fault => False

/-- A stream that can take `readLine` out of an array of `n` bytes, where `k` of its bytes have been
received before: a line end alone, or `n` bytes of which none but the last is a line end and that can
all be taken. -/
def Leaves (n k : Nat) (t : Bytes) : Prop :=
  t.head? = some LF ∨ n ≤ t.length ∧ LF ∉ t.take (n - 1) ∧ k ≤ n ∧ k ≠ n - 1

instance (n k : Nat) (t : Bytes) : Decidable (Leaves n k t) := inferInstanceAs (Decidable (_ ∨ _))

theorem overruns_append {n : Nat} {v : Bytes} (h : Overruns n v) (s : Bytes) : Overruns n (v ++ s) := by
  rcases h with hhead | ⟨hlen, hline⟩
  · cases v with
    | nil => cases hhead
    | cons b v => exact .inl hhead
  · refine .inr ⟨?_, ?_⟩
    · rw [List.length_append]
      omega
    · rwa [List.take_append_of_le_length (by omega)]

section

variable {n : Nat} {ctl nControl : NetBuf} {s t u : Bytes} {ok : Stop Op → Bytes → Prop} {α : Type}

/-- Waiting for a socket changes nothing of the stream. -/
theorem socketWait_arriving (ctl nControl : NetBuf) (s : Bytes) :
    wp arriving (fun stop _ => InBounds stop) (socketWait ctl nControl) (fun _ s' => s' = s) s := by
  have hsame : ∀ w w', w = s → w = w' → w' = s := fun w w' hw hw' => hw'.symm.trans hw
  refine socketWait_rule (fun s' => s' = s) ctl nControl (fun _ _ _ => ?_) (fun _ _ _ => ?_) rfl
  · exact ⟨fun _ _ => trivial, fun w _ w' => hsame w w'⟩
  · exact ⟨fun _ _ => trivial, fun w _ w' => hsame w w'⟩

/-- A line in the course of being read, in front of the rest of the stream `t`. -/
structure Arrives (n : Nat) (t : Bytes) (r : Reading) (s : Bytes) : Prop where
  line : LF ∉ r.text
  room : r.text.length < n
  split : r.text ++ r.rest ++ s = t

theorem fetchBody_harmless {r : Reading} (hgood : ¬Overruns n t) (h : Arrives n t r s) :
    wp arriving (fun stop _ => InBounds stop) (fetchBody n ctl r)
      (Iter.post (Arrives n t) fun _ _ => True) s := by
  -- What is in the array and in the buffer is the start of the stream, and so overruns no sooner.
  have hsafe : ¬Overruns n (r.text ++ r.rest) := fun hbad => hgood (h.split ▸ overruns_append hbad s)
  unfold fetchBody
  dsimp only
  split
  -- The two faults of the step are the two ways of `Overruns`.
  · next hfault => exact absurd (Reading.overruns h.line rfl (.inl hfault.2)) hsafe
  next hroom =>
  split
  · next hfound =>
    split
    · next hshort => exact absurd (Reading.overruns h.line rfl (.inr ⟨hfound, hshort⟩)) hsafe
    · exact wp_ret.mpr trivial
  next hmissing =>
  have hmissing : r.found n = false := by simpa using hmissing
  split
  · exact wp_ret.mpr trivial
  next hmore =>
  -- No line end and no full array: all that was there has been taken.
  have hrest : (r.take n).rest = [] := Reading.take_rest h.room hmissing hmore
  split
  · exact wp_ret.mpr trivial
  refine (socketWait_arriving ctl _ s).bind fun waited s' heq => ?_
  subst heq
  split
  · exact wp_ret.mpr trivial
  refine wp_ask (show 0 < BUFFER_SIZE by decide) fun x s'' hx => ?_
  cases x with
  | none => exact wp_ret.mpr trivial
  | some x =>
    have harrived : s' = x.1 ++ s'' := hx
    have hsplit := Reading.take_append (n := n) r
    rw [hrest, List.append_nil] at hsplit
    -- The next piece of the stream waits in the buffer, and the text has no line end yet.
    refine wp_ret.mpr ⟨Reading.take_missing h.line hmissing, ?_, ?_⟩
    · by_cases hnil : r.rest = []
      · rw [(Reading.take_nil hnil).1]
        exact h.room
      · exact Nat.lt_of_not_le fun hfull => hroom ⟨hnil, hfull⟩
    · rw [← h.split, harrived, ← hsplit, List.append_assoc]

/-- Where `n - 1` bytes have been received, or more than `n`, and none is a line end, the array is
full at once. -/
theorem fetchLine_full (hn : 2 ≤ n) (hline : LF ∉ u.take (n - 1)) (hlen : u.length = n - 1 ∨ n < u.length) :
    wp arriving (fun stop _ => InBounds stop) (fetchLine n ctl u nControl) (fun _ _ => True) s := by
  have hoffered : Reading.offered n ⟨[], u, false, nControl⟩ = n - 1 := by
    unfold Reading.offered
    dsimp only [List.length_nil]
    split
    · omega
    · omega
  obtain ⟨htake, hfound⟩ := Reading.take_missing_eq (n := n) (r := ⟨[], u, false, nControl⟩)
    (by rw [hoffered]; exact hline)
  have hlength : ((Reading.take n ⟨[], u, false, nControl⟩).text).length = n - 1 := by
    rw [htake, hoffered]
    dsimp only
    rw [List.nil_append, List.length_take]
    omega
  refine wp_loop_unfold.mpr ?_
  rw [fetchBody]
  dsimp only
  rw [hfound, if_neg (by omega), if_neg Bool.false_ne_true, if_pos (by omega)]
  exact wp_ret.mpr (wp_ret.mpr trivial)

theorem fetchLine_harmless (hn : 2 ≤ n) (hgood : ¬Leaves n u.length (u ++ s)) :
    wp arriving (fun stop _ => InBounds stop) (fetchLine n ctl u nControl) (fun _ _ => True) s := by
  by_cases hover : Overruns n (u ++ s)
  · -- the bytes in the receive buffer fill the array before any others arrive
    unfold Leaves at hgood
    rw [not_or] at hgood
    obtain ⟨hlen, hline⟩ := hover.resolve_left hgood.1
    have hlong : u.length = n - 1 ∨ n < u.length := by
      by_contra hshort
      exact hgood.2 ⟨hlen, hline, by omega, by omega⟩
    rw [List.take_append_of_le_length (by omega)] at hline
    exact fetchLine_full hn hline hlong
  · exact wp_forever (Arrives n (u ++ s)) ⟨by simp, by dsimp only [List.length_nil]; omega, rfl⟩ fun _ _ h =>
      fetchBody_harmless hover h

/-! ## Runs that leave the array -/

/-- A pass that leaves the array. -/
theorem fetchLoop_fault {r : Reading} {Q : Line → Bytes → Prop} {P : Stop Op → Bytes → Prop}
    (hbad : r.rest ≠ [] ∧ n ≤ (r.take n).text.length ∨ r.found n = true ∧ (r.take n).text.length < 2)
    (h : wp arriving P (Prog.forever r (fetchBody n ctl)) Q s) : P .fault s := by
  have hbody := wp_loop_unfold.mp h
  rw [fetchBody] at hbody
  dsimp only at hbody
  by_cases hfull : r.rest ≠ [] ∧ n ≤ (r.take n).text.length
  · rw [if_pos hfull] at hbody
    exact wp_fault.mp hbody
  · obtain ⟨hfound, hshort⟩ := hbad.resolve_left hfull
    rw [if_neg hfull, if_pos hfound, if_pos hshort] at hbody
    exact wp_fault.mp hbody

/-- The socket may be ready at once. -/
theorem socketWait_ready {f : Int × NetBuf → Client α} {Q : α → Bytes → Prop} {P : Stop Op → Bytes → Prop}
    (h : wp arriving P (socketWait ctl nControl >>= f) Q s) : wp arriving P (f (1, nControl)) Q s := by
  have hwait := wp_bind.mp h
  unfold socketWait at hwait
  split at hwait
  · exact hwait.returned Exec.ret
  · exact hwait.returned Exec.ret
  · have hselect := (wp_call.mp (wp_loop_unfold.mp hwait)).2 .ready s rfl
    have hdone : wp arriving P (.ret (1, nControl)) (fun a w => wp arriving P (f a) Q w) s :=
      hselect.returned Exec.ret
    exact hdone.returned Exec.ret

/-- A pass that takes everything without a line end and without filling the array goes on with the
bytes that arrive next. -/
theorem fetchLoop_next {r : Reading} {x : Chunk BUFFER_SIZE} {Q : Line → Bytes → Prop}
    {P : Stop Op → Bytes → Prop} (hline : LF ∉ r.rest) (hlen : (r.text ++ r.rest).length + 1 < n)
    (heof : r.eof = false) (h : wp arriving P (Prog.forever r (fetchBody n ctl)) Q (x.1 ++ s)) :
    wp arriving P
      (Prog.forever ⟨r.text ++ r.rest, x.1, x.1.isEmpty, r.nControl⟩ (fetchBody n ctl)) Q s := by
  obtain ⟨htake, hfound⟩ := Reading.take_all (n := n) hline (by omega)
  have hbody := wp_loop_unfold.mp h
  rw [fetchBody, htake, hfound] at hbody
  dsimp only at hbody
  rw [if_neg (by omega), if_neg Bool.false_ne_true, if_neg (by omega), heof,
    if_neg Bool.false_ne_true] at hbody
  have hready := socketWait_ready hbody
  dsimp only at hready
  rw [if_neg Int.one_ne_zero] at hready
  have hrecv := (wp_call.mp hready).2 (some x) s rfl
  have hnext := wp_ret.mp hrecv
  exact hnext

/-- Bytes that fill the array to its end, of which none but the last is a line end. -/
theorem Reading.take_fills {r : Reading} (hlen : r.text.length + r.rest.length = n)
    (hline : LF ∉ r.rest.dropLast) : n ≤ (r.take n).text.length := by
  have hoffered : r.offered n = r.rest.length := by
    unfold Reading.offered
    rw [if_pos (by omega)]
  obtain ⟨found, hcopy⟩ := memccpy_whole hline
  unfold Reading.take
  rw [hoffered, List.take_length, hcopy]
  dsimp only
  rw [List.length_append]
  omega

/-- A stream without a line end that arrives byte by byte, but for the two that fill the array. -/
theorem fetchLoop_overruns {ok : Stop Op → Prop} {Q : Line → Bytes → Prop} (k : Nat) {r : Reading}
    {d : Bytes} (hlen : (r.text ++ r.rest).length + k + 2 = n) (hrest : LF ∉ r.rest) (heof : r.eof = false)
    (hd : d.length = k + 2) (hline : LF ∉ d.dropLast)
    (h : wp arriving (fun stop _ => ok stop) (Prog.forever r (fetchBody n ctl)) Q (d ++ s)) : ok .fault := by
  induction k generalizing r d with
  | zero =>
    have hnext := fetchLoop_next (x := ⟨d, by rw [hd]; decide⟩) hrest (by omega) heof h
    refine fetchLoop_fault (.inl ⟨?_, ?_⟩) hnext
    · exact List.ne_nil_of_length_pos (by dsimp only; omega)
    · exact Reading.take_fills (by dsimp only; omega) hline
  | succ k ih =>
    obtain ⟨b, d, rfl⟩ := List.exists_cons_of_length_pos (by omega : 0 < d.length)
    rw [List.length_cons] at hd
    have hne : d ≠ [] := List.ne_nil_of_length_pos (by omega)
    rw [List.dropLast_cons_of_ne_nil hne, List.mem_cons, not_or] at hline
    have hone : [b].length ≤ BUFFER_SIZE := by
      rw [List.length_singleton]
      decide
    have hnext := fetchLoop_next (x := ⟨[b], hone⟩) hrest (by omega) heof h
    refine ih (r := ⟨r.text ++ r.rest, [b], false, r.nControl⟩) ?_ ?_ rfl (by omega) hline.2 hnext
    · dsimp only
      rw [List.length_append, List.length_singleton]
      omega
    · simpa using hline.1

/-- A line end alone, received before or arriving now. -/
theorem fetchLoop_line_end {ok : Stop Op → Prop} {Q : Line → Bytes → Prop} {rest : Bytes} (hn : 2 ≤ n)
    (h : wp arriving (fun stop _ => ok stop)
      (Prog.forever ⟨[], LF :: rest, false, nControl⟩ (fetchBody n ctl)) Q s) :
    ok .fault := by
  refine fetchLoop_fault (.inr ?_) h
  have hoffered : ∃ k, Reading.offered n ⟨[], LF :: rest, false, nControl⟩ = k + 1 := by
    apply Nat.exists_eq_add_one.mpr
    unfold Reading.offered
    dsimp only [List.length_nil, List.length_cons]
    split
    · omega
    · omega
  obtain ⟨k, hk⟩ := hoffered
  unfold Reading.found Reading.take
  rw [hk]
  simp [memccpy]

theorem fetchLine_leaves {ok : Stop Op → Prop} {Q : Line → Bytes → Prop} (hn : 2 ≤ n)
    (hbad : Leaves n u.length (u ++ s))
    (h : wp arriving (fun stop _ => ok stop) (fetchLine n ctl u nControl) Q s) : ok .fault := by
  rcases hbad with hhead | ⟨hlen, hline, hle, hne⟩
  · cases u with
    | cons b u =>
      obtain rfl : b = LF := Option.some.inj hhead
      exact fetchLoop_line_end hn h
    | nil =>
      cases s with
      | nil => cases hhead
      | cons b s =>
        obtain rfl : b = LF := Option.some.inj hhead
        have hnext := fetchLoop_next (s := s) (x := ⟨[LF], by decide⟩) (by simp) hn rfl h
        exact fetchLoop_line_end hn hnext
  · by_cases hfull : u.length = n
    · rw [List.take_append_of_le_length (by omega), ← hfull, ← List.dropLast_eq_take] at hline
      refine fetchLoop_fault (.inl ⟨?_, ?_⟩) h
      · exact List.ne_nil_of_length_pos (by dsimp only; omega)
      · exact Reading.take_fills (by dsimp only [List.length_nil]; omega) hline
    · -- the next `n - u.length` bytes of the stream fill the array
      rw [List.length_append] at hlen
      rw [List.take_append, List.take_of_length_le (by omega), List.mem_append, not_or] at hline
      have hdrop : (s.take (n - u.length)).dropLast = s.take (n - 1 - u.length) := by
        rw [List.dropLast_eq_take, List.length_take, List.take_take]
        congr 1
        omega
      rw [← List.take_append_drop (n - u.length) s] at h
      refine fetchLoop_overruns (n - u.length - 2) (d := s.take (n - u.length)) ?_ hline.1 rfl ?_ ?_ h
      · dsimp only
        rw [List.nil_append]
        omega
      · rw [List.length_take]
        omega
      · rw [hdrop]
        exact hline.2

/-! ## The discipline -/

/-- What is asked of one call of `readLine` and the stream `s` behind what has been received: in
every run no access leaves an array and `recv` always has room, the offsets of the receive buffer agree
at every head of the loop and on return, and each count for `memccpy` is between 0 and the space that is
left. -/
structure Disciplined (buffer : Buffer n) (ctl nControl : NetBuf) (s : Bytes) : Prop where
  safe : wp arriving (fun stop _ => InBounds stop) (readLine buffer ctl nControl)
    (fun r _ => ctl.Kept r.ctl) s
  heads : ctl.dir ≠ .write → ∀ l s',
    Heads arriving readLineBody ⟨buffer, 0, n, 0, false, ctl, nControl⟩ s l s' →
      l.Good ctl ∧ 0 ≤ l.count ∧ l.count ≤ l.max

theorem kept_self : ctl.Kept ctl ↔ ctl.Framed ∨ ctl.Fresh := by
  constructor
  · intro h
    exact h.imp_right And.right
  · intro h
    exact h.imp_right fun h => ⟨rfl, h⟩

theorem readLine_write (buffer : Buffer n) (hdir : ctl.dir = .write) :
    readLine buffer ctl nControl = .ret ⟨-1, buffer, ctl, nControl⟩ := if_pos hdir

/-- The buffers are in order for every way in which a stream arrives exactly where the offsets agree, or
nothing has been received yet, and the stream does not leave the array. -/
theorem readLine_disciplined_iff (buffer : Buffer n) (ctl nControl : NetBuf) (s u : Bytes) (hn : 2 ≤ n)
    (hunread : ctl.Unread u) :
    Disciplined buffer ctl nControl s ↔
      (ctl.Framed ∨ ctl.Fresh) ∧ (ctl.dir = .write ∨ ¬Leaves n u.length (u ++ s)) := by
  -- A connection that writes is turned away before anything is read.
  by_cases hdir : ctl.dir = .write
  · constructor
    · intro h
      have hsafe := h.safe
      rw [readLine_write buffer hdir] at hsafe
      exact ⟨kept_self.mp (hsafe.returned Exec.ret), .inl hdir⟩
    · intro ⟨hframed, _⟩
      refine ⟨?_, fun hnot => absurd hdir hnot⟩
      rw [readLine_write buffer hdir]
      exact wp_ret.mpr (kept_self.mpr hframed)
  -- Both directions go through `fetchLine`, where leaving the array is a fault of one step.
  · have hbisim := readLine_bisim buffer nControl (by omega) hdir hunread
    constructor
    · intro h
      refine ⟨kept_self.mp (h.heads hdir _ _ .start).1.kept, .inr fun hbad => ?_⟩
      exact fetchLine_leaves hn hbad (hbisim.back.wp h.safe)
    · intro ⟨hframed, hgood⟩
      have hstart : LineState.Good ctl ⟨buffer, 0, n, 0, false, ctl, nControl⟩ :=
        ⟨kept_self.mpr hframed, Nat.zero_add n, hn⟩
      constructor
      · have hsafe := hbisim.forth.wp (fetchLine_harmless hn (hgood.resolve_left hdir))
        have hkept : wp arriving (fun _ _ => True) (readLine buffer ctl nControl)
            (fun r _ => ctl.Kept r.ctl) s := by
          unfold readLine
          rw [if_neg hdir, if_neg (by omega)]
          exact wp_forever (fun l _ => l.Good ctl) hstart fun l s h => readLineBody_good h
        exact (hsafe.and_returned hkept).mono fun r s h => h.2
      · intro _ l s' hhead
        have hl : l.Good ctl :=
          hhead.invariant (fun l _ => l.Good ctl) hstart fun l s h => readLineBody_good h
        exact ⟨hl, hl.count⟩

/-- The first reply on a new connection. -/
theorem readLine_disciplined_iff_example :
    Disciplined (.zeroed 8) (newControl 3 (.zeroed _)) (newControl 3 (.zeroed _)) (ascii "220 \r\n") :=
  (readLine_disciplined_iff (.zeroed 8) (newControl 3 (.zeroed _)) (newControl 3 (.zeroed _)) _ [] (by decide)
    (newControl_unread 3 _)).mpr ⟨.inr ⟨rfl, rfl, rfl⟩, .inr (by decide)⟩

/-- A line end alone, and a line that fills the array. -/
theorem readLine_undisciplined :
    ¬Disciplined (.zeroed 8) (newControl 3 (.zeroed _)) (newControl 3 (.zeroed _)) (ascii "\n") ∧
      ¬Disciplined (.zeroed 8) (newControl 3 (.zeroed _)) (newControl 3 (.zeroed _)) (ascii "220 text") := by
  have hleaves : ∀ s, Leaves 8 0 s →
      ¬Disciplined (.zeroed 8) (newControl 3 (.zeroed _)) (newControl 3 (.zeroed _)) s := by
    intro s hbad h
    have hbisim := readLine_bisim (.zeroed 8) (newControl 3 (.zeroed _)) (by decide)
      (by decide) (newControl_unread 3 (.zeroed _))
    exact fetchLine_leaves (by decide) hbad (hbisim.back.wp h.safe)
  exact ⟨hleaves _ (by decide), hleaves _ (by decide)⟩

end

end Ftp
