import BaseUtilities.Ftp.Image
import BaseUtilities.Ftp.Stream

/-!
# Downloads in ASCII mode

What a download in ASCII mode writes where nothing fails.  Lines of less than a buffer, none of them an
LF alone, are written with LF for CR LF; other lines are cut with their first byte cleared, or make
`readLine` leave the buffer.
-/

open Effects Mem

namespace Ftp

/-! ## Two streams -/

/-- A stream with LF for CR LF. -/
def toLF : Bytes → Bytes
  | c :: d :: s => if c = CR ∧ d = LF then LF :: toLF s else c :: toLF (d :: s)
  | s => s

/-- A stream of lines that fit `readLine`'s array: no line is an LF alone, each is shorter than the
array, and so is what stands behind the last LF; of that the array's length less one is right when its
first byte is zero. -/
inductive LinesFit : Bytes → Prop where
  | last {s : Bytes} (hline : LF ∉ s) (hlen : s.length + 1 < BUFFER_SIZE) : LinesFit s
  | cleared {s : Bytes} (hline : LF ∉ s) (hlen : s.length + 1 = BUFFER_SIZE) (hhead : s.set 0 0 = s) :
      LinesFit s
  | line {l s : Bytes} (hline : LF ∉ l) (hne : l ≠ []) (hlen : l.length + 1 < BUFFER_SIZE)
      (h : LinesFit s) : LinesFit (l ++ LF :: s)

theorem toLF_cons_ne {c : UInt8} {s : Bytes} (h : ¬(c = CR ∧ s.head? = some LF)) :
    toLF (c :: s) = c :: toLF s := by
  cases s with
  | nil => rfl
  | cons d s =>
    rw [toLF, if_neg]
    simpa using h

theorem toLF_of_not_mem {s : Bytes} (h : LF ∉ s) : toLF s = s := by
  induction s with
  | nil => rfl
  | cons c s ih =>
    rw [List.mem_cons, not_or] at h
    rw [toLF_cons_ne, ih h.2]
    rintro ⟨-, hhead⟩
    exact h.2 (List.mem_of_mem_head? hhead)

theorem chomp_cons {c : UInt8} {text : Bytes} (h : 2 ≤ text.length) :
    chomp (c :: text) = c :: chomp text := by
  obtain ⟨k, hk⟩ : ∃ k, text.length = k + 2 := ⟨text.length - 2, by omega⟩
  have hdrop : (c :: text).drop ((c :: text).length - 2) = text.drop (text.length - 2) := by
    rw [List.length_cons, hk]
    rfl
  have htake : (c :: text).take ((c :: text).length - 2) = c :: text.take (text.length - 2) := by
    rw [List.length_cons, hk]
    rfl
  rw [chomp, chomp, hdrop, htake]
  split <;> rfl

/-- The first line of a stream. -/
theorem toLF_line {init : Bytes} (hne : init ≠ []) (h : LF ∉ init) (s : Bytes) :
    toLF (init ++ LF :: s) = chomp (init ++ [LF]) ++ toLF s := by
  induction init with
  | nil => exact absurd rfl hne
  | cons c init ih =>
    rw [List.mem_cons, not_or] at h
    cases init with
    | nil =>
      have hlf : toLF (LF :: s) = LF :: toLF s := toLF_cons_ne (by rintro ⟨h, -⟩; cases h)
      by_cases hc : c = CR
      · subst hc
        simp [toLF, chomp]
      · rw [List.singleton_append, toLF_cons_ne (by simp [hc]), hlf]
        simp [chomp, hc]
    | cons d init =>
      have hd : d ≠ LF := fun hd => h.2 (by simp [hd])
      rw [List.cons_append, toLF_cons_ne (by simp [hd]), ih (by simp) h.2]
      rw [List.cons_append (a := c), chomp_cons (by simp)]
      rfl

theorem toLF_length_le (s : Bytes) : (toLF s).length ≤ s.length := by
  fun_induction toLF s with
  | case1 c d s h ih =>
    simp only [List.length_cons]
    omega
  | case2 c d s h ih =>
    simp only [List.length_cons] at ih ⊢
    omega
  | case3 s => exact Nat.le_refl _

theorem chomp_ne_nil (init : Bytes) : chomp (init ++ [LF]) ≠ [] := by
  rw [chomp]
  split <;> simp

/-! ## Streams that fit -/

theorem LinesFit.tail {l s : Bytes} (h : LinesFit (l ++ LF :: s)) (hl : LF ∉ l) : LinesFit s := by
  generalize hS : l ++ LF :: s = S at h
  cases h with
  | last hline => exact absurd (by simp [← hS]) hline
  | cleared hline => exact absurd (by simp [← hS]) hline
  | line hline hne hlen h =>
    obtain ⟨-, rfl⟩ := line_unique hl hline hS
    exact h

/-- On a stream that fits `readLine` does not leave its array, however far it has come. -/
theorem LinesFit.not_overruns {S p : Bytes} (h : LinesFit S) (hp : p <+: S) :
    ¬Overruns BUFFER_SIZE p := by
  obtain ⟨r, rfl⟩ := hp
  -- Two ways out of the array: a line end that stands alone, and a line with no end in the array.
  rintro (hhead | ⟨hlen, hmem⟩)
  · obtain ⟨p, rfl⟩ : ∃ p', p = LF :: p' := by
      cases p with
      | nil => cases hhead
      | cons c p => exact ⟨p, by rw [Option.some.inj hhead]⟩
    generalize hS : LF :: p ++ r = S at h
    cases h with
    | last hline => exact hline (by simp [← hS])
    | cleared hline => exact hline (by simp [← hS])
    | @line l s hline hne hlen h =>
      cases l with
      | nil => exact hne rfl
      | cons c l =>
        exact hline (List.mem_cons.mpr (.inl (List.cons.inj hS).1))
  · generalize hS : p ++ r = S at h
    have hle : p.length ≤ S.length := by
      rw [← hS, List.length_append]
      omega
    cases h with
    | last hline hshort => omega
    | cleared hline hshort => omega
    | @line l s hline hne hshort h =>
      have htake : p.take (BUFFER_SIZE - 1) = (l ++ LF :: s).take (BUFFER_SIZE - 1) := by
        rw [← hS, List.take_append_of_le_length (by omega)]
      rw [htake] at hmem
      refine hmem (List.mem_take_iff_getElem.mpr ⟨l.length, ?_, ?_⟩)
      · rw [List.length_append, List.length_cons]
        omega
      · simp

/-- A cut line is the whole stream. -/
theorem LinesFit.full {text r : Bytes} (h : LinesFit (text ++ r)) (hline : LF ∉ text)
    (hlen : text.length + 1 = BUFFER_SIZE) : r = [] ∧ text.set 0 0 = text := by
  generalize hS : text ++ r = S at h
  have hSlen := congrArg List.length hS
  rw [List.length_append] at hSlen
  cases h with
  | last _ hshort => omega
  | cleared _ hfull hhead =>
    obtain rfl : r = [] := List.length_eq_zero_iff.mp (by omega)
    rw [List.append_nil] at hS
    exact ⟨rfl, hS ▸ hhead⟩
  | @line l s _ hne hshort h =>
    refine absurd ?_ hline
    have hget : (text ++ r)[l.length]? = some LF := by
      rw [hS]
      simp
    rw [List.getElem?_append_left (by omega)] at hget
    exact List.mem_of_getElem? hget

/-! ## The download -/

/-- `recv` delivers the stream `S` in nonempty pieces and then its end, and `fwrite` writes all it is
given. -/
def Serves (control : Nat) (S : Bytes) (t : FtpTrace) : FtpEvent → Prop
  | ⟨.recv fd _, r⟩ => fd ≠ control → ∃ x, r = some x ∧ x.1 <+: S.drop (received t).length ∧
      (x.1 = [] → S.drop (received t).length = [])
  | ⟨.fwrite _ data, x⟩ => x.1 = data.length
  | _ => True

/-- The stream was written with LF for CR LF and `xfer` returns 1, or the download has not begun and `xfer`
returns 0. -/
def Downloaded (S : Bytes) (rv : Int) (t : FtpTrace) : Prop :=
  rv = 1 ∧ written t = toLF S ∨ rv = 0 ∧ t = []

/-- The download comes to an end: its calls are bounded by the stream, and only before and after it can there
be a fault. -/
def DownloadStops (control : Nat) (S : Bytes) : Stop Op → FtpTrace → Prop
  | .asking op, t => op.isTransfer control → t.length ≤ 2 * S.length + 1
  | .fault, t => t = [] ∨ written t = toLF S

/-- `xfer` downloads `S` faithfully, in whatever pieces it comes, and uses every data connection for it. -/
def Downloads (S : Bytes) : Prop :=
  ∀ (nControl : NetBuf) (localfile path : Option Bytes) (typ : Typ),
    nControl.dir = .control → nControl.idlecb = none → typ ≠ .fileWrite →
    wp (transfers nControl.handle (Serves nControl.handle S)) (DownloadStops nControl.handle S)
      (xfer localfile path nControl typ .ascii) (fun r t => Downloaded S r.1 t) [] ∧
    ∀ nc nData t, Exec (transfers nControl.handle (Serves nControl.handle S))
        (accessFtpClient path typ .ascii nControl) [] (.returned (nc, some nData)) t →
      ∀ file dbuf, wp (transfers nControl.handle (Serves nControl.handle S))
        (DownloadStops nControl.handle S) (xferDownload file dbuf nData nc)
        (fun r t => r.1 = 1 ∧ written t = toLF S) t

variable {control : Nat} {S u rem : Bytes} {t : FtpTrace}

/-- The stream up to `rem` was received, and `out` written; `left` is to be written. -/
structure Delivered (S out left rem : Bytes) (t : FtpTrace) : Prop where
  received_eq : received t ++ rem = S
  written_eq : written t = out
  length_le : t.length ≤ (received t).length + out.length + if left = [] then 1 else 0

/-- Between two lines: `u` is received and not yet read, and `rem` is to be received. -/
structure DownloadAt (S u rem : Bytes) (t : FtpTrace) : Prop where
  delivered : Delivered S (written t) (u ++ rem) rem t
  translated : written t ++ toLF (u ++ rem) = toLF S

theorem DownloadAt.start (S : Bytes) : DownloadAt S [] S [] :=
  ⟨⟨rfl, rfl, Nat.zero_le _⟩, rfl⟩

/-- The end of the stream was met with `rem` received and not yet written. -/
structure Ended (S out left : Bytes) (t : FtpTrace) : Prop where
  received_eq : received t = S
  written_eq : written t = out
  length_le : t.length ≤ S.length + out.length + (if left = [] then 1 else 0) + 1

theorem received_recv (fd len : Nat) (x : Chunk len) : received [⟨.recv fd len, some x⟩] = x.1 := by
  simp [received]

theorem written_recv (fd len : Nat) (x : Option (Chunk len)) : written [⟨.recv fd len, x⟩] = [] := rfl

/-- The bytes of a line are received in front of those that remain. -/
theorem serves_feeds {fd : Nat} (hfd : fd ≠ control) (hfit : LinesFit (u ++ rem)) {out : Bytes}
    (hout : out.length ≤ S.length) :
    Feeds (transfers control (Serves control S)) (DownloadStops control S) BUFFER_SIZE fd u
      (fun d t => ∃ rem', d ++ rem' = rem ∧ Delivered S out (u ++ rem) rem' t)
      (fun d t => d = rem ∧ Ended S out (u ++ rem) t) (fun _ _ => False) where
  -- The bound on the calls leaves room for one more, whatever is still unread.
  asks := by
    rintro d t ⟨rem', -, h⟩ - - -
    have hlen := congrArg List.length h.received_eq
    have hle := h.length_le
    rw [List.length_append] at hlen
    split at hle <;> omega
  -- Bytes of the stream come in its order: they are a prefix of what remains.
  more := by
    rintro d t x _ ⟨rem', rfl, h⟩ ⟨⟨-, hmay⟩, rfl⟩ hx
    obtain ⟨_, hr, ⟨rem'', hrem⟩, -⟩ := hmay hfd
    obtain rfl := Option.some.inj hr
    rw [← h.received_eq, List.drop_left' rfl] at hrem
    refine ⟨rem'', by rw [List.append_assoc, hrem], ?_⟩
    rw [record_of (by simpa [Op.isTransfer] using hfd)]
    refine ⟨?_, ?_, ?_⟩
    · rw [received_append, received_recv, List.append_assoc, hrem, h.received_eq]
    · rw [written_append, written_recv, List.append_nil, h.written_eq]
    · have hpos := List.length_pos_iff.mpr hx
      have hle := h.length_le
      rw [received_append, received_recv]
      simp only [List.length_append, List.length_singleton]
      omega
  -- An empty answer ends the stream: the server has nothing left to send.
  eof := by
    rintro d t x _ ⟨rem', rfl, h⟩ ⟨⟨-, hmay⟩, rfl⟩ hx
    obtain ⟨_, hr, -, hend⟩ := hmay hfd
    obtain rfl := Option.some.inj hr
    have hrem : rem' = [] := by
      have := hend hx
      rwa [← h.received_eq, List.drop_left' rfl] at this
    subst hrem
    have hreceived := h.received_eq
    rw [List.append_nil] at hreceived
    refine ⟨(List.append_nil d).symm, ?_⟩
    rw [record_of (by simpa [Op.isTransfer] using hfd)]
    refine ⟨?_, ?_, ?_⟩
    · rw [received_append, received_recv, hx, List.append_nil, hreceived]
    · rw [written_append, written_recv, List.append_nil, h.written_eq]
    · have hle := h.length_le
      rw [hreceived] at hle
      rw [List.length_append, List.length_singleton]
      omega
  error := by
    rintro d t _ - ⟨⟨-, hmay⟩, -⟩
    obtain ⟨_, hr, -⟩ := hmay hfd
    cases hr
  -- The fault of `readLine` needs a line that does not fit.
  fault := by
    rintro d t ⟨rem', rfl, -⟩ hover
    rw [← List.append_assoc] at hfit
    exact absurd hover (hfit.not_overruns (List.prefix_append _ _))

/-- The count of the bytes of a line. -/
theorem Reads.readCount {n : Nat} {nData : NetBuf} (h : Reads control nData u) (l : Line)
    (buf : Buffer n) (nControl : NetBuf) :
    ∃ nData', Reads control nData' u ∧
      readCount l.retval buf nData nControl = .ret ⟨l.count, buf, nData', nControl⟩ := by
  rw [Ftp.readCount, Line.count]
  split
  · exact ⟨nData, h, rfl⟩
  · rw [account_none _ h.idlecb_eq, Prog.ret_bind]
    exact ⟨{ nData with xfered := nData.xfered + UInt32.ofNat l.retval.toNat },
      h.counted ⟨_, _, _, _, _, _, _, rfl⟩ ⟨h.unread.1, h.unread.2, h.unread.3⟩, rfl⟩

/-- The branch of `readFtpClient` that reads lines. -/
theorem Reads.readFtpClient_eq {n : Nat} {nData : NetBuf} (h : Reads control nData u) (buf : Buffer n)
    (nControl : NetBuf) :
    readFtpClient buf nData nControl =
      readLine buf nData nControl >>= fun r => Ftp.readCount r.retval r.buffer r.ctl r.nControl := by
  have hbuf : nData.buf.isSome = true := by
    obtain ⟨b, hb, -⟩ := h.unread.loaded
    simp [hb]
  rw [readFtpClient, if_neg (not_not.mpr h.dir_eq), if_pos hbuf]

/-- `readFtpClient` reads a line. -/
theorem readFtpClient_line {W : Type} {E : Env Op Op.Res W} {ok : Stop Op → W → Prop} {n : Nat}
    {nData : NetBuf} {G Eof Err : Bytes → W → Prop} {w : W} (buf : Buffer n) (nControl : NetBuf)
    (hn : 0 < n) (h : Reads control nData u) (hfeeds : Feeds E ok n nData.handle u G Eof Err)
    (hG : G [] w) :
    wp E ok (readFtpClient buf nData nControl)
      (fun r w => ∃ l, Took n u G Eof Err nControl l w ∧ Reads control r.nData l.rest ∧
        r.retval = l.count ∧ r.buf = l.shown buf ∧ r.nControl = l.nControl) w := by
  have hline := (readLine_bisim buf nControl hn (by simp [h.dir_eq]) h.unread).forth.wp
    (fetchLine_rule hn (socketWait_none nControl h.idlecb_eq) hfeeds hG)
  rw [h.readFtpClient_eq]
  refine hline.bind ?_
  rintro r w ⟨l, hr, hl⟩
  have hreads : Reads control r.ctl l.rest := h.counted (.of_moved hr.moved) hr.unread
  obtain ⟨d, hd, hcount⟩ := hreads.readCount l r.buffer r.nControl
  rw [hr.retval_eq, hcount]
  exact wp_ret.mpr ⟨l, hl, hd, rfl, hr.buffer_eq, hr.nControl_eq⟩

theorem DownloadAt.written_length_le (h : DownloadAt S u rem t) : (written t).length ≤ S.length := by
  have hlen := congrArg List.length h.translated
  have hle := toLF_length_le S
  rw [List.length_append] at hlen
  omega

/-- What a line of the stream `left` leaves to be done. -/
structure LineLeft (S : Bytes) (l : Line) (t : FtpTrace) (rem : Bytes) : Prop where
  bound : t.length ≤ 2 * S.length + 1
  fits : LinesFit (l.rest ++ rem)
  next : ∀ (file : File) (k : { written : Nat // written ≤ l.content.length }),
    k.1 = l.content.length → DownloadAt S l.rest rem (t ++ [⟨.fwrite file l.content, k⟩])

theorem lineLeft {out rem' : Bytes} {l : Line} (hreceived : received t ++ rem' = S)
    (hwritten : written t = out)
    (hle : t.length ≤ (received t).length + out.length + if l.rest ++ rem' = [] then 1 else 0)
    (hout : out ++ toLF (u ++ rem) = toLF S) (hfit : LinesFit (l.rest ++ rem'))
    (hsplit : toLF (u ++ rem) = l.content ++ toLF (l.rest ++ rem')) (hcontent : l.content ≠ []) :
    LineLeft S l t rem' := by
  subst hwritten
  have hpos := List.length_pos_iff.mpr hcontent
  have hlen := congrArg List.length hout
  have hreceivedLen := congrArg List.length hreceived
  have htoLF := toLF_length_le S
  rw [List.length_append] at hlen hreceivedLen
  have hnone : ∀ file (k : { written : Nat // written ≤ l.content.length }),
      received [⟨.fwrite file l.content, k⟩] = [] := fun _ _ => rfl
  have hall : ∀ file (k : { written : Nat // written ≤ l.content.length }),
      k.1 = l.content.length → written [⟨.fwrite file l.content, k⟩] = l.content := by
    intro file k hk
    simp [written, hk]
  refine ⟨by split at hle <;> omega, hfit, fun file k hk => ⟨⟨?_, rfl, ?_⟩, ?_⟩⟩
  · rw [received_append, hnone, List.append_nil, hreceived]
  · rw [received_append, written_append, hnone, hall file k hk, List.append_nil]
    simp only [List.length_append, List.length_singleton]
    omega
  · rw [written_append, hall file k hk, List.append_assoc, ← hsplit, hout]

theorem Delivered.lineLeft {rem' : Bytes} {l : Line} {t' : FtpTrace} (h : DownloadAt S u rem t)
    (hd : Delivered S (written t) (u ++ rem) rem' t') (hne : u ++ rem ≠ [])
    (hfit : LinesFit (l.rest ++ rem')) (hsplit : toLF (u ++ rem) = l.content ++ toLF (l.rest ++ rem'))
    (hcontent : l.content ≠ []) : LineLeft S l t' rem' := by
  have hle := hd.length_le
  rw [if_neg hne] at hle
  exact Ftp.lineLeft hd.received_eq hd.written_eq (Nat.le_trans hle (Nat.le_add_right _ _)) h.translated
    hfit hsplit hcontent

theorem linesFit_nil : LinesFit [] := .last (by simp) (by decide)

/-- A line of a stream that fits: there was nothing left, or its content is the next to be written. -/
theorem DownloadAt.took {t' : FtpTrace} {nControl : NetBuf} {l : Line} (h : DownloadAt S u rem t)
    (hfit : LinesFit (u ++ rem))
    (hl : Took BUFFER_SIZE u
      (fun d t' => ∃ rem', d ++ rem' = rem ∧ Delivered S (written t) (u ++ rem) rem' t')
      (fun d t' => d = rem ∧ Ended S (written t) (u ++ rem) t') (fun _ _ => False) nControl l t') :
    l.content = [] ∧ written t' = toLF S ∨ l.content ≠ [] ∧ ∃ rem', LineLeft S l t' rem' := by
  -- One case for each way in which `readLine` returns; the error is excluded by the server.
  cases hl with
  | @newline d init rest _ hG hsplit hline hne hlen =>
    obtain ⟨rem', rfl, hdelivered⟩ := hG
    have hleft : u ++ (d ++ rem') = init ++ LF :: (rest ++ rem') := by
      rw [← List.append_assoc, ← hsplit, List.append_assoc, List.cons_append]
    refine .inr ⟨chomp_ne_nil init, rem', hdelivered.lineLeft h (by simp [hleft]) ?_ ?_
      (chomp_ne_nil init)⟩
    · rw [hleft] at hfit
      exact hfit.tail hline
    · rw [hleft]
      exact toLF_line hne hline _
  -- A full array without a line end: by `hfit` the stream ends exactly there.
  | @full d text rest _ hG hsplit hline hlen =>
    obtain ⟨rem', rfl, hdelivered⟩ := hG
    have hleft : u ++ (d ++ rem') = text ++ (rest ++ rem') := by
      rw [← List.append_assoc, ← hsplit, List.append_assoc]
    obtain ⟨hrest, hhead⟩ := LinesFit.full (hleft ▸ hfit) hline hlen
    have htext : text ≠ [] := by
      rintro rfl
      exact absurd hlen (by decide)
    have hcontent : Line.content ⟨.full, text, rest, nControl⟩ = text := hhead
    have hne : Line.content ⟨.full, text, rest, nControl⟩ ≠ [] := by rwa [hcontent]
    refine .inr ⟨hne, rem', hdelivered.lineLeft h (by simp [hleft, htext]) ?_ ?_ hne⟩
    · rw [hrest]
      exact linesFit_nil
    · rw [hcontent, hleft, hrest, List.append_nil, toLF_of_not_mem hline]
      exact (List.append_nil text).symm
  -- The end of the file: with nothing left the copy is complete, else the rest is a last line.
  | @eof d _ hG hline hlen =>
    obtain ⟨rfl, hended⟩ := hG
    by_cases hleft : u ++ d = []
    · refine .inl ⟨hleft, ?_⟩
      have := h.translated
      rw [hleft] at this
      rw [hended.written_eq, ← this]
      exact (List.append_nil _).symm
    · have hle := hended.length_le
      rw [if_neg hleft, ← hended.received_eq] at hle
      refine .inr ⟨hleft, [], Ftp.lineLeft ((List.append_nil _).trans hended.received_eq)
        hended.written_eq hle h.translated linesFit_nil ?_ hleft⟩
      rw [toLF_of_not_mem hline]
      exact (List.append_nil _).symm
  | error h => exact h.elim

theorem xferDownload_fit {nData : NetBuf} (file : File) (dbuf : Buffer BUFFER_SIZE) (nControl : NetBuf)
    (hfit : LinesFit S) (h : Reads control nData []) :
    wp (transfers control (Serves control S)) (DownloadStops control S)
      (xferDownload file dbuf nData nControl)
      (fun r t => (r.1 = 1 ∧ written t = toLF S) ∧ r.2.2 = nControl) [] := by
  refine wp_forever (fun s t => s.2.2 = nControl ∧ ∃ u rem, Reads control s.2.1 u ∧
    LinesFit (u ++ rem) ∧ DownloadAt S u rem t) ⟨rfl, [], S, h, hfit, .start S⟩ ?_
  rintro ⟨b, d, nc⟩ t ⟨rfl, u, rem, hreads, hfit, hat⟩
  dsimp only at hreads ⊢
  have hread := readFtpClient_line b nc (by decide) hreads
    (serves_feeds hreads.handle_ne hfit hat.written_length_le) ⟨rem, rfl, hat.delivered⟩
  refine hread.bind ?_
  rintro ⟨k, b', d', nc'⟩ t' ⟨l, htook, hreads', hcount, hb, hnc⟩
  obtain ⟨hk, hshown⟩ := htook.count_eq b
  obtain rfl : nc' = nc := hnc.trans (by cases htook <;> rfl)
  dsimp only at hcount hb ⊢
  rw [hcount, hk, hb, Int.toNat_natCast, hshown]
  rcases hat.took hfit htook with ⟨hnil, hwritten⟩ | ⟨hne, rem', hleft⟩
  · rw [hnil]
    exact wp_ret.mpr ⟨⟨rfl, hwritten⟩, rfl⟩
  · have hpos := List.length_pos_iff.mpr hne
    rw [if_pos (by omega)]
    refine wp_record rfl (fun _ => hleft.bound) fun x hx => wp_ret.mpr ?_
    have hx : x.1 = l.content.length := hx
    rw [if_neg (by omega)]
    exact ⟨rfl, l.rest, rem', hreads', hleft.fits, hleft.next file x hx⟩

theorem newData_unread (nControl : NetBuf) (fd : Nat) (b : Buffer BUFFER_SIZE) (dir : Dir) :
    (newData nControl fd (some b) dir).Unread [] :=
  ⟨rfl, rfl, b, rfl, by simp [newData, Buffer.load?]⟩

/-- The data connection of a download in ASCII mode. -/
theorem Opened.reads {nControl nData : NetBuf} {typ : Typ} (hcb : nControl.idlecb = none)
    (htyp : typ ≠ .fileWrite) (h : Opened (· ≠ control) nControl .ascii typ.dataDir nData) :
    Reads control nData [] := by
  obtain ⟨fd, buf, rfl, hmode, hfd⟩ := h
  obtain ⟨b, rfl⟩ := Option.isSome_iff_exists.mp (hmode.mpr rfl)
  exact ⟨if_neg htyp, newData_idlecb hcb .., hfd, newData_unread ..⟩

theorem downloads_of_linesFit (hfit : LinesFit S) : Downloads S := by
  intro nControl localfile path typ hdir hcb htyp
  constructor
  · refine wp.bind (Q := fun e t => Downloaded S e.rv t) ?_ fun _ _ h => wp_ret.mpr h
    refine xferEnd_record ?_ (.inl rfl) localfile path typ .ascii hdir (fun _ => .inr ⟨rfl, rfl⟩) ?_
    · intro op t hop hop'
      rw [hop] at hop'
      cases hop'
    · intro file nData nc hopened hsame _
      refine wp.mono (Q := fun r t => Downloaded S r.1 t ∧ r.2.2 = nc) ?_ ?_
      · apply xferData_record (fun h => absurd h Bool.false_ne_true) ⟨.inr ⟨rfl, rfl⟩, rfl⟩
        · intro hwrite
          exact absurd hwrite htyp
        · intro _ dbuf
          exact (xferDownload_fit file dbuf nc hfit (hopened.reads hcb htyp)).mono fun _ _ h => ⟨.inl h.1, h.2⟩
      · rintro ⟨rv, d, nc'⟩ t ⟨hdownloaded, rfl⟩
        have hfault : t = [] ∨ written t = toLF S := by
          rcases hdownloaded with ⟨-, h⟩ | ⟨-, h⟩
          · exact .inr h
          · exact .inl h
        exact ⟨hfault, hsame, fun _ _ => hdownloaded⟩
  · intro nc nData t haccess file dbuf
    obtain ⟨rfl, -, hopened, -⟩ := accessFtpClient_run hdir haccess
    exact (xferDownload_fit file dbuf nc hfit (hopened.reads hcb htyp)).mono fun _ _ h => h.1

/-! ## Streams that do not fit -/

theorem toLF_ne_nil {s : Bytes} (h : s ≠ []) : toLF s ≠ [] := by
  cases s with
  | nil => exact absurd rfl h
  | cons c s =>
    cases s with
    | nil => simp [toLF]
    | cons d s =>
      rw [toLF]
      split <;> simp

/-- `readFtpClient` reads no more than a line. -/
theorem wp_readFtpClient_line {W : Type} {E : Env Op Op.Res W} {ok : Stop Op → W → Prop} {n : Nat}
    {nData nControl : NetBuf} {buf : Buffer n} {Q : ReadResult n → W → Prop} {w : W}
    (hw : wp E ok (readFtpClient buf nData nControl) Q w) (hn : 0 < n) (h : Reads control nData u) :
    wp E ok (fetchLine n nData u nControl) (fun l w => ∃ nData', Reads control nData' l.rest ∧
      Q ⟨l.count, l.shown buf, nData', l.nControl⟩ w) w := by
  rw [h.readFtpClient_eq] at hw
  have hline := (readLine_bisim buf nControl hn (by simp [h.dir_eq]) h.unread).back.wp (wp_bind.mp hw)
  refine hline.mono ?_
  rintro l w ⟨r, hr, hcount⟩
  have hreads : Reads control r.ctl l.rest := h.counted (.of_moved hr.moved) hr.unread
  obtain ⟨d, hd, hret⟩ := hreads.readCount l r.buffer r.nControl
  rw [hr.retval_eq, hret, hr.buffer_eq, hr.nControl_eq] at hcount
  exact ⟨d, hd, wp_ret.mp hcount⟩

section

variable {file : File} {nData nControl : NetBuf} {b : Buffer BUFFER_SIZE} {left : Bytes}

/-- What is left of a download that always ends well. -/
def EndsWell (control : Nat) (S : Bytes) (file : File) (nControl : NetBuf) (b : Buffer BUFFER_SIZE)
    (nData : NetBuf) (t : FtpTrace) : Prop :=
  wp (transfers control (Serves control S)) (DownloadStops control S)
    (xferDownload file b nData nControl) (fun _ t => written t = toLF S) t

theorem serve {left : Bytes} (h : received t ++ left = S) {fd : Nat} (hfd : fd ≠ control)
    {x : Chunk BUFFER_SIZE}
    (hx : x.1 <+: left) (hnil : x.1 = [] → left = []) :
    transfers control (Serves control S) t (.recv fd BUFFER_SIZE) (some x)
      (t ++ [⟨.recv fd BUFFER_SIZE, some x⟩]) := by
  have hdrop : S.drop (received t).length = left := by
    rw [← h, List.drop_left' rfl]
  refine ⟨⟨by simp [broughtFd], fun _ => ⟨x, rfl, ?_, ?_⟩⟩, ?_⟩
  · rwa [hdrop]
  · rwa [hdrop]
  · rw [record_of (by simpa [Op.isTransfer] using hfd)]

/-- What is left of such a download behind the line `l`. -/
def GoesOn (control : Nat) (S : Bytes) (file : File) (nControl : NetBuf) (b : Buffer BUFFER_SIZE)
    (l : Line) (t : FtpTrace) : Prop :=
  ∃ nData, Reads control nData l.rest ∧
    (l.count ≤ 0 → written t = toLF S) ∧
    (0 < l.count → l.nControl = nControl → (l.shown b).bytes.take l.count.toNat = l.content →
      l.content ≠ [] → ∃ k : { written : Nat // written ≤ l.content.length },
        k.1 = l.content.length ∧
        EndsWell control S file nControl (l.shown b) nData (t ++ [⟨.fwrite file l.content, k⟩]))

theorem EndsWell.line (hw : EndsWell control S file nControl b nData t) (h : Reads control nData []) :
    wp (transfers control (Serves control S)) (DownloadStops control S)
      (fetchLine BUFFER_SIZE nData [] nControl) (GoesOn control S file nControl b) t := by
  have hbody := wp_loop_unfold.mp hw
  have hline := wp_readFtpClient_line (wp_bind.mp hbody) (by decide) h
  refine hline.mono ?_
  rintro l t ⟨d, hd, hrest⟩
  refine ⟨d, hd, ?_, ?_⟩
  · intro hnone
    rw [if_neg (by simpa using hnone)] at hrest
    have hdone := wp_ret.mp (wp_ret.mp hrest :)
    exact hdone
  · rintro hpos rfl htake hne
    dsimp only at hrest
    rw [if_pos hpos, htake] at hrest
    have hcall := (wp_call.mp hrest).2 ⟨_, Nat.le_refl _⟩ _ ⟨⟨by simp [broughtFd], rfl⟩, rfl⟩
    have hlen := List.length_pos_iff.mpr hne
    dsimp only [Prog.bind] at hcall
    rw [if_neg (by omega)] at hcall
    have hnext := wp_ret.mp hcall
    rw [record_of rfl] at hnext
    exact ⟨_, rfl, hnext⟩

/-- A line that was read without an error is written. -/
theorem GoesOn.wrote {u : Bytes} {G Eof : Bytes → FtpTrace → Prop} {l : Line}
    (h : GoesOn control S file nControl b l t) (hl : Took BUFFER_SIZE u G Eof (fun _ _ => False) nControl l t)
    (hne : l.content ≠ []) :
    ∃ nData t', Reads control nData l.rest ∧ received t' = received t ∧
      written t' = written t ++ l.content ∧ EndsWell control S file nControl (l.shown b) nData t' := by
  obtain ⟨hcount, htake⟩ := hl.count_eq b
  have hpos := List.length_pos_iff.mpr hne
  have hnc : l.nControl = nControl := by cases hl <;> rfl
  obtain ⟨d, hd, -, hnext⟩ := h
  obtain ⟨k, hk, hw⟩ := hnext (by omega) hnc (by rw [hcount, Int.toNat_natCast, htake]) hne
  refine ⟨d, _, hd, ?_, ?_, hw⟩
  · rw [received_append]
    exact List.append_nil _
  · rw [written_append]
    simp [written, hk]

theorem EndsWell.ended (hw : EndsWell control S file nControl b nData t) (h : Reads control nData [])
    (hall : received t = S) : written t = toLF S := by
  have hend := wp_fetchLine_end (x := ⟨[], Nat.zero_le _⟩) (hw.line h) (by decide)
    (socketWait_none _ h.idlecb_eq) rfl
    (serve ((List.append_nil _).trans hall) h.handle_ne (List.nil_prefix) fun _ => rfl)
  obtain ⟨-, -, hdone, -⟩ := hend
  simpa [written_recv] using hdone (by simp [Line.count, Line.retval])

/-- What a piece of the stream does that is received at the start of a line. -/
theorem EndsWell.piece (hw : EndsWell control S file nControl b nData t) (h : Reads control nData [])
    (hreceived : received t ++ left = S) {piece : Bytes} (hlen : piece.length ≤ BUFFER_SIZE)
    (hne : piece ≠ []) (hpiece : piece <+: left) {found : Bool}
    (hcopy : memccpy LF piece = (piece, found)) :
    ∃ t', received t' = received t ++ piece ∧ written t' = written t ∧ t' ≠ [] ∧
      if BUFFER_SIZE ≤ piece.length ∨ found = true ∧ piece.length < 2 then t' = [] ∨ written t' = toLF S
      else if found = true then GoesOn control S file nControl b ⟨.newline, piece, [], nControl⟩ t'
      else piece.length + 1 = BUFFER_SIZE →
        GoesOn control S file nControl b ⟨.full, piece, [], nControl⟩ t' :=
  ⟨_, by rw [received_append, received_recv], by rw [written_append, written_recv, List.append_nil],
    by simp, wp_fetchLine_piece (x := ⟨piece, hlen⟩) (hw.line h) (by decide)
      (socketWait_none _ h.idlecb_eq) hne hlen hcopy
      (serve hreceived h.handle_ne hpiece fun hnil => absurd hnil hne)⟩

/-- No piece makes `readLine` leave its array. -/
theorem EndsWell.not_overruns (hw : EndsWell control S file nControl b nData t)
    (h : Reads control nData []) (hreceived : received t ++ left = S)
    (hwritten : written t ++ toLF left = toLF S) {piece : Bytes} (hlen : piece.length ≤ BUFFER_SIZE)
    (hne : piece ≠ []) (hpiece : piece <+: left) {found : Bool}
    (hcopy : memccpy LF piece = (piece, found)) :
    ¬(BUFFER_SIZE ≤ piece.length ∨ found = true ∧ piece.length < 2) := by
  intro hbad
  obtain ⟨t', -, hw', ht', hfault⟩ := hw.piece h hreceived hlen hne hpiece hcopy
  rw [if_pos hbad] at hfault
  have hnothing := hfault.resolve_left ht'
  rw [hw', ← hwritten] at hnothing
  have hnil : toLF left = [] := by simpa using hnothing
  refine toLF_ne_nil ?_ hnil
  rintro rfl
  exact hne (List.prefix_nil.mp hpiece)

/-- A line that fits, and the rest of the stream behind it. -/
theorem EndsWell.next (hw : EndsWell control S file nControl b nData t) (h : Reads control nData [])
    {l s : Bytes} (hreceived : received t ++ (l ++ LF :: s) = S)
    (hwritten : written t ++ toLF (l ++ LF :: s) = toLF S) (hline : LF ∉ l)
    (hlen : l.length + 1 < BUFFER_SIZE) :
    l ≠ [] ∧ ∃ nData' b' t', Reads control nData' [] ∧ received t' ++ s = S ∧
      written t' ++ toLF s = toLF S ∧ EndsWell control S file nControl b' nData' t' := by
  have hlen' : (l ++ [LF]).length ≤ BUFFER_SIZE := by
    rw [List.length_append, List.length_singleton]
    omega
  have hprefix : l ++ [LF] <+: l ++ LF :: s := ⟨s, by simp⟩
  have hcopy := memccpy_line hline
  have hgood := hw.not_overruns h hreceived hwritten hlen' (by simp) hprefix hcopy
  obtain ⟨t₁, hreceived₁, hwritten₁, -, hgoes⟩ := hw.piece h hreceived hlen' (by simp) hprefix hcopy
  rw [if_neg hgood, if_pos rfl] at hgoes
  have hne : l ≠ [] := by
    rintro rfl
    exact hgood (.inr ⟨rfl, by simp⟩)
  have htook : Took BUFFER_SIZE [] (fun _ _ => True) (fun _ _ => True) (fun _ _ => False) nControl
      ⟨.newline, l ++ [LF], [], nControl⟩ t₁ :=
    .newline (d := l ++ [LF]) trivial (by simp) hline hne hlen
  obtain ⟨d, t₂, hd, hreceived₂, hwritten₂, hw₂⟩ := hgoes.wrote htook (chomp_ne_nil l)
  refine ⟨hne, d, _, t₂, hd, ?_, ?_, hw₂⟩
  · rw [hreceived₂, hreceived₁, ← hreceived]
    simp
  · rw [hwritten₂, hwritten₁, ← hwritten, toLF_line hne hline, List.append_assoc]
    rfl

/-- A last line that just does not fit is right when clearing its first byte does not change it. -/
theorem EndsWell.cleared (hw : EndsWell control S file nControl b nData t) (h : Reads control nData [])
    (hreceived : received t ++ left = S) (hwritten : written t ++ toLF left = toLF S)
    (hline : LF ∉ left) (hlen : left.length + 1 = BUFFER_SIZE) : left.set 0 0 = left := by
  have hne : left ≠ [] := by
    rintro rfl
    exact absurd hlen (by decide)
  have hshort : ¬(BUFFER_SIZE ≤ left.length ∨ false = true ∧ left.length < 2) := by
    rintro (hfull | ⟨hfound, -⟩)
    · omega
    · cases hfound
  obtain ⟨t₁, hreceived₁, hwritten₁, -, hgoes⟩ := hw.piece h hreceived (by omega) hne
    (List.prefix_refl left) (memccpy_of_not_mem hline)
  rw [if_neg hshort, if_neg Bool.false_ne_true] at hgoes
  have htook : Took BUFFER_SIZE [] (fun _ _ => True) (fun _ _ => True) (fun _ _ => False) nControl
      ⟨.full, left, [], nControl⟩ t₁ :=
    .full (d := left) trivial (by simp) hline hlen
  have hcontent : Line.content ⟨.full, left, [], nControl⟩ ≠ [] := by
    simpa [Line.content] using hne
  obtain ⟨d, t₂, hd, hreceived₂, hwritten₂, hw₂⟩ := (hgoes hlen).wrote htook hcontent
  have hall := hw₂.ended hd (by rw [hreceived₂, hreceived₁, hreceived])
  rw [hwritten₂, hwritten₁, ← hwritten, toLF_of_not_mem hline] at hall
  exact List.append_cancel_left hall

theorem EndsWell.linesFit (hw : EndsWell control S file nControl b nData t) (h : Reads control nData [])
    (hreceived : received t ++ left = S) (hwritten : written t ++ toLF left = toLF S) :
    LinesFit left := by
  -- On the length left: each line is shown to be taken off by a run that ends as well as before.
  induction hk : left.length using Nat.strong_induction_on generalizing left t b nData with
  | _ k ih =>
    -- A line that overruns the array would stop this run with a fault.
    by_cases hlong : BUFFER_SIZE ≤ left.length ∧ LF ∉ left.take (BUFFER_SIZE - 1)
    · have hlen : (left.take BUFFER_SIZE).length = BUFFER_SIZE := by
        rw [List.length_take, Nat.min_eq_left hlong.1]
      have hlast : (left.take BUFFER_SIZE).dropLast = left.take (BUFFER_SIZE - 1) := by
        rw [List.dropLast_eq_take, hlen, List.take_take, Nat.min_eq_left (Nat.sub_le _ _)]
      obtain ⟨found, hcopy⟩ := memccpy_whole (hlast ▸ hlong.2)
      refine absurd (.inl (Nat.le_of_eq hlen.symm)) (hw.not_overruns h hreceived hwritten
        (Nat.le_of_eq hlen) ?_ (List.take_prefix _ _) hcopy)
      intro hnil
      rw [hnil] at hlen
      exact absurd hlen (by decide)
    by_cases hmem : LF ∈ left
    · obtain ⟨l, s, rfl, hline⟩ := List.eq_append_cons_of_mem hmem
      rw [List.length_append, List.length_cons] at hlong hk
      have hlen : l.length + 1 < BUFFER_SIZE := by
        by_contra hlen
        refine hlong ⟨by omega, ?_⟩
        rw [List.take_append_of_le_length (by omega)]
        exact fun hmem => hline (List.mem_of_mem_take hmem)
      obtain ⟨hne, d, b', t', hd, hreceived', hwritten', hw'⟩ :=
        hw.next h hreceived hwritten hline hlen
      exact .line hline hne hlen (ih s.length (by omega) hw' hd hreceived' hwritten' rfl)
    · have hlen : left.length < BUFFER_SIZE := by
        by_contra hlen
        exact hlong ⟨by omega, fun hin => hmem (List.mem_of_mem_take hin)⟩
      -- A last line that fills the array exactly has its first byte cleared by the code: that the copy is
      -- right all the same says that the byte was 0.
      by_cases hfull : left.length + 1 = BUFFER_SIZE
      · exact .cleared hmem hfull (hw.cleared h hreceived hwritten hmem hfull)
      · exact .last hmem (by omega)

end

/-- A stream that is always downloaded faithfully consists of lines that fit. -/
theorem linesFit_of_downloads (h : Downloads S) : LinesFit S := by
  have hmay : ∀ t (e : FtpEvent), e.1.isTransfer 3 = false → Serves 3 S t e := by
    rintro t ⟨op, r⟩ hop
    cases op <;> first | exact trivial | exact fun hfd => by simp [Op.isTransfer, hfd] at hop | cases hop
  obtain ⟨nc, nData, haccess, -, hopened, -⟩ :=
    example_access hmay (rfl : exampleControl.dir = .control) rfl .fileRead .ascii
      (ascii "RETR g") (by decide +kernel) (by decide +kernel)
  have hdownload := (h exampleControl none (some (ascii "g")) .fileRead rfl rfl (by decide)).2
    nc nData [] haccess .stdout (.zeroed _)
  have hends : EndsWell 3 S .stdout nc (.zeroed _) nData [] := hdownload.mono fun _ _ h => h.2
  exact hends.linesFit (hopened.reads rfl (by decide)) rfl rfl

/-- A stream is downloaded faithfully, in whatever pieces it comes, just when its lines fit. -/
theorem downloads_iff (S : Bytes) : Downloads S ↔ LinesFit S :=
  ⟨linesFit_of_downloads, downloads_of_linesFit⟩

/-- Of a last line that just does not fit the first byte is lost. -/
theorem not_downloads : ¬∀ S, Downloads S := by
  intro h
  have hmem : ∀ b ∈ List.replicate (BUFFER_SIZE - 1) (97 : UInt8), b = 97 := fun b hb =>
    List.eq_of_mem_replicate hb
  have hfit := linesFit_of_downloads (h (List.replicate (BUFFER_SIZE - 1) 97))
  generalize hS : List.replicate (BUFFER_SIZE - 1) (97 : UInt8) = S at hmem hfit
  cases hfit with
  | last _ hlen =>
    rw [← hS, List.length_replicate] at hlen
    exact absurd hlen (by decide)
  | cleared _ _ hhead =>
    rw [← hS] at hhead
    exact absurd (congrArg List.head? hhead) (by decide)
  | line => exact absurd (hmem LF (by simp)) (by decide)

end Ftp
