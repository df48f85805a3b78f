import BaseUtilities.Effects.Runs
import BaseUtilities.Ftp.Newlines
import BaseUtilities.Ftp.Transfers

/-!
# What `writeLine` sends of one buffer

On a platform whose waits succeed and whose sends accept all they are given, `writeLine` returns, and
what it has sent is its input with a CR in front of every LF that follows no CR, in pieces of one byte
to one buffer.
-/

open Effects Mem

namespace Ftp

/-- The byte `c` behind the byte `before`, with a CR in between where it is an LF that follows no CR. -/
def crlfByte (before : Option UInt8) (c : UInt8) : Bytes := if c = LF ∧ before ≠ some CR then [CR, c] else [c]

/-- `F` with a CR in front of every LF that does not follow a CR immediately. -/
def crlf (F : Bytes) : Bytes := (List.zipWith crlfByte (none :: F.map some) F).flatten

/-- The platform that answers a call as `f` says, in view of all calls before it. -/
def platform (f : FtpTrace → (op : Op) → Option (Op.Res op)) : Env Op Op.Res FtpTrace :=
  answering fun t op => (f t op).map fun r => (r, t ++ [⟨op, r⟩])

theorem length_le_self (data : Bytes) : data.length ≤ data.length := Nat.le_refl _

/-- `send` accepts all of `data`. -/
def allOf (data : Bytes) : { sent : Nat // sent ≤ data.length } := ⟨data.length, length_le_self data⟩

/-- A platform that sends all it is given on the descriptor `fd`. -/
def Accepts (f : FtpTrace → (op : Op) → Option (Op.Res op)) (fd : Nat) : Prop :=
  ∀ t data, f t (.send fd data) = some (some (allOf data))

/-- A send is of one byte to one buffer on the descriptor `fd`, and nothing is stored outside of the
output buffer. -/
def Pieces (fd : Nat) : Stop Op → FtpTrace → Prop
  | .asking (.send fd' data), _ => fd' = fd ∧ 1 ≤ data.length ∧ data.length ≤ BUFFER_SIZE
  | .asking _, _ => True
  | .fault, _ => False

/-! ## The translation -/

theorem crlfFrom_zipWith {before : Option UInt8} {lc : UInt8} (hlc : before = some CR ↔ lc = CR)
    (F : Bytes) : crlfFrom lc F = (List.zipWith crlfByte (before :: F.map some) F).flatten := by
  -- On the input; the byte in front of it is a byte of it in the next step.
  induction F generalizing before lc with
  | nil => rfl
  | cons c F ih =>
    have hrest : crlfFrom c F = (List.zipWith crlfByte (some c :: F.map some) F).flatten :=
      ih Option.some_inj
    rw [crlfFrom, List.map_cons, List.zipWith_cons_cons, List.flatten_cons, ← hrest, crlfByte]
    by_cases hc : c = LF ∧ lc ≠ CR
    · rw [if_pos hc, if_pos ⟨hc.1, fun h => hc.2 (hlc.mp h)⟩]
      rfl
    · rw [if_neg hc, if_neg fun h => hc ⟨h.1, fun hcr => h.2 (hlc.mpr hcr)⟩]
      rfl

theorem crlfFrom_zero_eq (F : Bytes) : crlfFrom 0 F = crlf F :=
  crlfFrom_zipWith (by decide) F

section

variable {f : FtpTrace → (op : Op) → Option (Op.Res op)} {nData : NetBuf} {buf : Bytes}

theorem platform_step {t t' : FtpTrace} {op : Op} {r : Op.Res op} :
    platform f t op r t' ↔ f t op = some r ∧ t' = t ++ [⟨op, r⟩] := by
  constructor
  · intro h
    obtain ⟨r', hr', heq⟩ := Option.map_eq_some_iff.mp h
    obtain ⟨rfl, rfl⟩ := Prod.mk.inj heq
    exact ⟨hr', rfl⟩
  · rintro ⟨hr, rfl⟩
    exact Option.map_eq_some_iff.mpr ⟨r, hr, rfl⟩

/-! ## Runs that end -/

/-- A send ends where the wait in front of it does. -/
theorem writeFlush_ends (hwait : ∀ nc t, Ends (platform f) (socketWait nData nc) t)
    (hsend : Accepts f nData.handle) (nControl : NetBuf) (nbp : Buffer BUFFER_SIZE) (nb : Nat) (aborted : Int)
    (t : FtpTrace) : Ends (platform f) (writeFlush nData nControl nbp nb aborted) t := by
  refine (hwait nControl t).bind fun r t => ?_
  dsimp only
  split
  · exact .ret
  · refine (Ends.perform (platform_step.mpr ⟨hsend t _, rfl⟩)).bind fun w t => ?_
    cases w with
    | none => exact .ret
    | some w => exact .ret

theorem writeIfFull_ends (hwait : ∀ nc t, Ends (platform f) (socketWait nData nc) t)
    (hsend : Accepts f nData.handle) (nControl : NetBuf) (s : WriteState) (x : Nat) (t : FtpTrace) :
    Ends (platform f) (writeIfFull nData nControl s x) t := by
  unfold writeIfFull
  split
  · exact (writeFlush_ends hwait hsend nControl _ _ _ t).bind fun _ _ => .ret
  · exact .ret

theorem writeCR_ends (hwait : ∀ nc t, Ends (platform f) (socketWait nData nc) t)
    (hsend : Accepts f nData.handle) (nControl : NetBuf) (s : WriteState) (c : UInt8) (x : Nat)
    (t : FtpTrace) : Ends (platform f) (writeCR nData nControl s c x) t := by
  unfold writeCR
  split
  · refine (writeIfFull_ends hwait hsend nControl s x t).bind fun r t => ?_
    obtain ⟨rv, nc, s⟩ := r
    cases rv with
    | some rv => exact .ret
    | none => exact Ends.ofOption.bind fun _ _ => .ret
  · exact .ret

theorem writeLineLoop_ends (hwait : ∀ nc t, Ends (platform f) (socketWait nData nc) t)
    (hsend : Accepts f nData.handle) (buf : Bytes) (x : Nat) (nControl : NetBuf) (s : WriteState)
    (t : FtpTrace) :
    Ends (platform f) (writeLineLoop nData buf x nControl s) t := by
  induction buf generalizing x nControl s t with
  | nil => exact .ret
  | cons c buf ih =>
    refine (writeCR_ends hwait hsend nControl s c x t).bind fun r t => ?_
    obtain ⟨rv, nc, s⟩ := r
    cases rv with
    | some rv => exact .ret
    | none =>
      refine (writeIfFull_ends hwait hsend nc s x t).bind fun r t => ?_
      obtain ⟨rv, nc, s⟩ := r
      cases rv with
      | some rv => exact .ret
      | none => exact Ends.ofOption.bind fun s t => ih (x + 1) nc { s with lc := c } t

theorem writeLine_ends (hwait : ∀ nc t, Ends (platform f) (socketWait nData nc) t)
    (hsend : Accepts f nData.handle) (buf : Bytes) (nControl : NetBuf) (t : FtpTrace) :
    Ends (platform f) (writeLine buf nData nControl) t := by
  unfold writeLine
  split
  · exact .ret
  · refine Ends.ofOption.bind fun nbp t => ?_
    refine (writeLineLoop_ends hwait hsend buf 0 nControl _ t).bind fun r t => ?_
    obtain ⟨rv, nc, s⟩ := r
    cases rv with
    | some rv => exact .ret
    | none =>
      dsimp only
      split
      -- The wait does not look at the buffer, which is the only thing that has changed.
      · have hflush : Ends (platform f)
            (writeFlush { nData with buf := some s.nbp } nc s.nbp s.nb buf.length) t :=
          writeFlush_ends hwait hsend nc s.nbp s.nb buf.length t
        exact hflush.bind fun _ _ => .ret
      · exact .ret

/-! ## What is sent -/

/-- A wait sends nothing. -/
theorem socketWait_sends (nData nControl : NetBuf) (fd : Nat) (t : FtpTrace) :
    wp (platform f) (Pieces fd) (socketWait nData nControl) (fun _ t' => sent t' = sent t) t := by
  have hkeeps : ∀ op, (∀ t, Pieces fd (.asking op) t) → (∀ r, sent [⟨op, r⟩] = []) →
      Keeps (platform f) (Pieces fd) (fun t' => sent t' = sent t) op := by
    intro op hasks hquiet
    refine ⟨fun t' _ => hasks t', fun t' r t'' hsame hstep => ?_⟩
    obtain ⟨-, rfl⟩ := platform_step.mp hstep
    rw [sent_append, hquiet, List.append_nil, hsame]
  refine socketWait_rule (fun t' => sent t' = sent t) nData nControl ?_ ?_ rfl
  · exact fun fd dir timeout => hkeeps _ (fun _ => trivial) fun _ => rfl
  · exact fun cb xfered arg => hkeeps _ (fun _ => trivial) fun _ => rfl

/-- A send of the first `nb` bytes of the buffer, in front of `rest`. -/
theorem writeFlush_sends_all {nbp : Buffer BUFFER_SIZE} {nb : Nat} {rest : Bytes} {t : FtpTrace}
    (hwait : ∀ t nc, Returns (platform f) (socketWait nData nc) (fun r _ => r.1 = 1) t)
    (hsend : Accepts f nData.handle)
    (hpos : 0 < nb) (hnb : nb ≤ BUFFER_SIZE) (nControl : NetBuf) (aborted : Int)
    (hJ : sent t ++ (nbp.bytes.take nb ++ rest) = crlfFrom 0 buf) :
    wp (platform f) (Pieces nData.handle) (writeFlush nData nControl nbp nb aborted)
      (fun r t => r.1 = none ∧ sent t ++ rest = crlfFrom 0 buf) t := by
  have hlen := nbp.take_length hnb
  -- The wait returns 1 by assumption, and has sent nothing by itself.
  have hready : wp (platform f) (Pieces nData.handle) (socketWait nData nControl)
      (fun r t' => sent t' = sent t ∧ r.1 = 1) t := by
    obtain ⟨a, t', hyields, ha⟩ := hwait t nControl
    refine (socketWait_sends nData nControl nData.handle t).and_returned ?_
    refine (hyields.only.weaken fun _ _ _ => trivial).mono ?_
    rintro r t' ⟨rfl, -⟩
    exact ha
  refine hready.bind ?_
  rintro ⟨ready, nc⟩ t' ⟨hsame, hone⟩
  dsimp only at hone ⊢
  rw [if_neg (by omega)]
  refine wp_ask ⟨rfl, by omega, by omega⟩ fun w t'' hstep => ?_
  obtain ⟨hw, rfl⟩ := platform_step.mp hstep
  obtain rfl : w = some (allOf (nbp.bytes.take nb)) := Option.some.inj (hw.symm.trans (hsend t' _))
  refine wp_ret.mpr ⟨if_neg (not_not.mpr hlen), ?_⟩
  have hpiece : sent [⟨.send nData.handle (nbp.bytes.take nb), some (allOf (nbp.bytes.take nb))⟩] =
      nbp.bytes.take nb := by
    show (nbp.bytes.take nb).take (nbp.bytes.take nb).length ++ [] = _
    rw [List.append_nil, List.take_length]
  rw [sent_append, hpiece, hsame, List.append_assoc, hJ]

/-- What `writeLine` sends, in every run. -/
theorem writeLine_pieces {nbp : Buffer BUFFER_SIZE} (hdir : nData.dir = .write) (hbuf : nData.buf = some nbp)
    (hwait : ∀ t nc, Returns (platform f) (socketWait nData nc) (fun r _ => r.1 = 1) t)
    (hsend : Accepts f nData.handle)
    (buf : Bytes) (nControl : NetBuf) :
    wp (platform f) (Pieces nData.handle) (writeLine buf nData nControl)
      (fun r t => r.1 = buf.length ∧ sent t = crlf buf) [] := by
  -- The invariant of all sends: what has been sent and what is still to be sent are the translation.
  have hrule : wp (platform f) (Pieces nData.handle) (writeLine buf nData nControl) _ [] :=
    writeLine_rule (J := fun rest _ t => sent t ++ rest = crlfFrom 0 buf) (K := fun _ _ _ => False)
      hdir hbuf ?_ ?_ rfl
  · refine hrule.mono ?_
    rintro r t ⟨-, ⟨hlen, hsent⟩ | hfalse⟩
    · rw [List.append_nil, crlfFrom_zero_eq] at hsent
      exact ⟨hlen, hsent⟩
    · exact hfalse.elim
  · -- a full buffer
    intro nbp rest nc x t _ _ hJ
    have htake := nbp.take_all
    rw [← htake] at hJ
    refine (writeFlush_sends_all hwait hsend (by decide) (Nat.le_refl _) nc x hJ).mono ?_
    rintro ⟨rv, nc'⟩ t' ⟨rfl, hsent⟩
    exact hsent
  · -- the last piece
    intro s nc t hpos hnb hJ
    rw [WriteState.out, ← List.append_nil (s.nbp.bytes.take s.nb)] at hJ
    have hflush : wp (platform f) (Pieces nData.handle)
        (writeFlush { nData with buf := some s.nbp } nc s.nbp s.nb buf.length)
        (fun r t => r.1 = none ∧ sent t ++ [] = crlfFrom 0 buf) t :=
      writeFlush_sends_all hwait hsend hpos hnb nc buf.length hJ
    refine hflush.mono ?_
    rintro ⟨rv, nc'⟩ t' ⟨rfl, hsent⟩
    exact hsent

/-- Where waits succeed and sends accept all they are given, `writeLine` returns the length of its input
and has sent its translation, in pieces of one byte to one buffer. -/
theorem writeLine_translates (f : FtpTrace → (op : Op) → Option (Op.Res op)) (nData nControl : NetBuf)
    (nbp : Buffer BUFFER_SIZE) (hdir : nData.dir = .write) (hbuf : nData.buf = some nbp)
    (hwait : ∀ t nc, Returns (platform f) (socketWait nData nc) (fun r _ => r.1 = 1) t)
    (hsend : Accepts f nData.handle) (buf : Bytes) :
    wp (platform f) (Pieces nData.handle) (writeLine buf nData nControl) (fun _ _ => True) [] ∧
      Returns (platform f) (writeLine buf nData nControl) (fun r t => r.1 = buf.length ∧ sent t = crlf buf)
        [] := by
  have hpieces := writeLine_pieces hdir hbuf hwait hsend buf nControl
  have hends : Ends (platform f) (writeLine buf nData nControl) [] := by
    refine writeLine_ends (fun nc t => ?_) hsend buf nControl []
    obtain ⟨a, t', hyields, -⟩ := hwait t nc
    exact ⟨.returned a, t', hyields.run, fun _ => nofun⟩
  refine ⟨hpieces.mono fun _ _ _ => trivial, ?_⟩
  exact (answering_deterministic _).returns hends hpieces fun _ hfault => hfault

/-- A platform where sockets are ready at once. -/
def readyPlatform (_ : FtpTrace) : (op : Op) → Option (Op.Res op)
  | .select _ _ _ => some .ready
  | .send _ data => some (some (allOf data))
  | _ => none

/-- A data connection for an upload in ASCII mode, with a callback. -/
def waitingData : NetBuf :=
  { newData exampleControl 4 (some (.zeroed _)) .write with idlecb := some ⟨0⟩ }

theorem socketWait_readyPlatform (nControl : NetBuf) (t : FtpTrace) :
    Returns (platform readyPlatform) (socketWait waitingData nControl) (fun r _ => r.1 = 1) t := by
  have hrun : ∃ t', Exec (platform readyPlatform) (socketWait waitingData nControl) t
      (.returned (1, nControl)) t' :=
    ⟨_, Exec.loop_done (Exec.call (r := Wait.ready) rfl .ret) .ret⟩
  obtain ⟨t', hrun⟩ := hrun
  exact ((answering_deterministic _).returns_iff hrun).mpr rfl

theorem writeLine_translates_ready :
    wp (platform readyPlatform) (Pieces 4) (writeLine (ascii "a\n") waitingData exampleControl)
        (fun _ _ => True) [] ∧
      Returns (platform readyPlatform) (writeLine (ascii "a\n") waitingData exampleControl)
        (fun r t => r.1 = (ascii "a\n").length ∧ sent t = crlf (ascii "a\n")) [] :=
  writeLine_translates readyPlatform waitingData exampleControl (.zeroed _) rfl rfl
    (fun t nc => socketWait_readyPlatform nc t) (fun _ _ => rfl) (ascii "a\n")

end

end Ftp
