import BaseUtilities.Ftp.Data

/-!
# Line ends on upload

`writeLine` sends its input with a CR in front of every LF that follows no CR, in pieces of one
buffer.  The rules below follow what is still to be sent, in any environment.
-/

open Effects Mem

namespace Ftp

/-- `F` with a CR in front of every LF that follows no CR, where `lc` is the byte in front of `F`. -/
def crlfFrom (lc : UInt8) : Bytes → Bytes
  | [] => []
  | c :: F => if c = LF ∧ lc ≠ CR then CR :: c :: crlfFrom c F else c :: crlfFrom c F

/-- What `writeLine` has in its buffer. -/
def WriteState.out (s : WriteState) : Bytes := s.nbp.bytes.take s.nb

theorem WriteState.put_some {s : WriteState} (h : s.nb < BUFFER_SIZE) (b : UInt8) :
    ∃ s', s.put b = some s' ∧ s'.nb = s.nb + 1 ∧ s'.out = s.out ++ [b] ∧ s'.lc = s.lc := by
  obtain ⟨nbp, hnbp, hbytes⟩ := s.nbp.store?_eq_some s.nb [b] h
  refine ⟨{ s with nbp, nb := s.nb + 1 }, ?_, rfl, ?_, rfl⟩
  · rw [WriteState.put, hnbp]
    rfl
  · have hlen : (s.nbp.bytes.take s.nb ++ [b]).length = s.nb + 1 := by
      rw [List.length_append, s.nbp.take_length (Nat.le_of_lt h), List.length_singleton]
    simp only [WriteState.out]
    rw [hbytes, List.take_left' hlen]

section

variable {W : Type} {E : Env Op Op.Res W} {ok : Stop Op → W → Prop}
  {J : Bytes → NetBuf → W → Prop} {K : Int → NetBuf → W → Prop} {nData : NetBuf} {total : Nat} {w : W}

/-- What the send of a full buffer has to keep: where `J` holds of the buffer and the bytes behind it,
it holds of these after the send, and `K` holds of a result. -/
def FullFlush (E : Env Op Op.Res W) (ok : Stop Op → W → Prop) (nData : NetBuf) (total : Nat)
    (J : Bytes → NetBuf → W → Prop) (K : Int → NetBuf → W → Prop) : Prop :=
  ∀ (nbp : Buffer BUFFER_SIZE) rest nControl (x : Nat) w, rest ≠ [] → x < total →
    J (nbp.bytes ++ rest) nControl w →
    wp E ok (writeFlush nData nControl nbp BUFFER_SIZE x)
      (fun r w => match r.1 with
        | none => J rest r.2 w
        | some v => K v r.2 w) w

theorem writeIfFull_rule (hflush : FullFlush E ok nData total J K) {s : WriteState} {rest : Bytes}
    {x : Nat} {nControl : NetBuf} (hnb : s.nb ≤ BUFFER_SIZE) (hrest : rest ≠ []) (hx : x < total)
    (hJ : J (s.out ++ rest) nControl w) :
    wp E ok (writeIfFull nData nControl s x)
      (fun r w => match r.1 with
        | none => J (r.2.2.out ++ rest) r.2.1 w ∧ r.2.2.nb < BUFFER_SIZE ∧ r.2.2.lc = s.lc
        | some v => K v r.2.1 w) w := by
  rw [writeIfFull]
  split
  · next hfull =>
    have hout : s.out = s.nbp.bytes := by
      rw [WriteState.out, hfull]
      exact s.nbp.take_all
    rw [hout] at hJ
    refine (hflush s.nbp rest nControl x w hrest hx hJ).bind ?_
    rintro ⟨rv, nc⟩ w hpost
    cases rv with
    | none => exact wp_ret.mpr ⟨by simpa [WriteState.out] using hpost, Nat.zero_lt_succ _, rfl⟩
    | some v => exact wp_ret.mpr hpost
  · next hfull => exact wp_ret.mpr ⟨hJ, Nat.lt_of_le_of_ne hnb hfull, rfl⟩

theorem writeCR_rule (hflush : FullFlush E ok nData total J K) {s : WriteState} {c : UInt8}
    {buf : Bytes} {x : Nat} {nControl : NetBuf} (hnb : s.nb ≤ BUFFER_SIZE) (hx : x < total)
    (hJ : J (s.out ++ crlfFrom s.lc (c :: buf)) nControl w) :
    wp E ok (writeCR nData nControl s c x)
      (fun r w => match r.1 with
        | none => J (r.2.2.out ++ c :: crlfFrom c buf) r.2.1 w ∧ r.2.2.nb ≤ BUFFER_SIZE
        | some v => K v r.2.1 w) w := by
  rw [writeCR]
  rw [crlfFrom] at hJ
  split
  · next hc =>
    rw [if_pos hc] at hJ
    refine (writeIfFull_rule hflush hnb (by simp) hx hJ).bind ?_
    rintro ⟨rv, nc, s'⟩ w hpost
    cases rv with
    | none =>
      obtain ⟨hJ, hnb', -⟩ := hpost
      obtain ⟨s'', hput, hnb'', hout, -⟩ := WriteState.put_some hnb' CR
      simp only [hput, Prog.ofOption_some, Prog.ret_bind]
      refine wp_ret.mpr ⟨?_, Nat.le_trans (Nat.le_of_eq hnb'') hnb'⟩
      simpa [hout] using hJ
    | some v => exact wp_ret.mpr hpost
  · next hc =>
    rw [if_neg hc] at hJ
    exact wp_ret.mpr ⟨hJ, hnb⟩

theorem writeLineLoop_rule (hflush : FullFlush E ok nData total J K) {buf : Bytes} {x : Nat}
    {nControl : NetBuf} {s : WriteState} (hnb : s.nb ≤ BUFFER_SIZE) (hx : x + buf.length = total)
    (hJ : J (s.out ++ crlfFrom s.lc buf) nControl w) :
    wp E ok (writeLineLoop nData buf x nControl s)
      (fun r w => match r.1 with
        | none => J r.2.2.out r.2.1 w ∧ r.2.2.nb ≤ BUFFER_SIZE
        | some v => K v r.2.1 w) w := by
  -- On the bytes left, with what is to be sent as the invariant: in the buffer, then translated.
  induction buf generalizing x nControl s w with
  | nil => exact wp_ret.mpr ⟨by simpa [crlfFrom] using hJ, hnb⟩
  | cons c buf ih =>
    rw [List.length_cons] at hx
    rw [writeLineLoop]
    refine (writeCR_rule hflush hnb (by omega) hJ).bind ?_
    rintro ⟨rv, nc, s₁⟩ w hpost
    cases rv with
    | some v => exact wp_ret.mpr hpost
    | none =>
      refine (writeIfFull_rule hflush hpost.2 (by simp) (by omega) hpost.1).bind ?_
      rintro ⟨rv, nc', s₂⟩ w hpost
      cases rv with
      | some v => exact wp_ret.mpr hpost
      | none =>
        obtain ⟨hJ, hnb₂, -⟩ := hpost
        -- After a flush, if one was needed, the buffer has room for the byte.
        obtain ⟨s₃, hput, hnb₃, hout, -⟩ := WriteState.put_some hnb₂ c
        simp only [hput, Prog.ofOption_some, Prog.ret_bind]
        refine ih (s := { s₃ with lc := c }) (Nat.le_trans (Nat.le_of_eq hnb₃) hnb₂) (by omega) ?_
        · have : ({ s₃ with lc := c } : WriteState).out = s₃.out := rfl
          simpa [this, hout] using hJ

/-- `writeLine` sends the translation of its input, its last piece with the send `hlast`. -/
theorem writeLine_rule {buf : Bytes} {nControl : NetBuf} {nbp : Buffer BUFFER_SIZE}
    (hdir : nData.dir = .write) (hnbp : nData.buf = some nbp)
    (hflush : FullFlush E ok nData buf.length J K)
    (hlast : ∀ (s : WriteState) nc w, 0 < s.nb → s.nb ≤ BUFFER_SIZE → J s.out nc w →
      wp E ok (writeFlush { nData with buf := some s.nbp } nc s.nbp s.nb buf.length)
        (fun r w => match r.1 with
          | none => J [] r.2 w
          | some v => K v r.2 w) w)
    (hJ : J (crlfFrom 0 buf) nControl w) :
    wp E ok (writeLine buf nData nControl)
      (fun r w => (∃ nbp', r.2.1 = { nData with buf := some nbp' }) ∧
        (r.1 = buf.length ∧ J [] r.2.2 w ∨ K r.1 r.2.2 w)) w := by
  rw [writeLine, if_neg (not_not.mpr hdir), hnbp, Prog.ofOption_some, Prog.ret_bind]
  have hloop := writeLineLoop_rule (s := ⟨nbp, 0, 0⟩) (x := 0) hflush (Nat.zero_le _) (Nat.zero_add _)
    (by simpa [WriteState.out] using hJ)
  refine hloop.bind ?_
  rintro ⟨rv, nc, s⟩ w hpost
  -- A flush that failed in the loop has set the result already.
  cases rv with
  | some v => exact wp_ret.mpr ⟨⟨_, rfl⟩, .inr hpost⟩
  | none =>
    obtain ⟨hJ, hnb⟩ := hpost
    dsimp only
    -- The last flush is of what is left, and is skipped where nothing is.
    split
    · next hne =>
      refine (hlast s nc w (Nat.pos_of_ne_zero hne) hnb hJ).bind ?_
      rintro ⟨rv, nc'⟩ w hpost
      cases rv with
      | none => exact wp_ret.mpr ⟨⟨_, rfl⟩, .inl ⟨rfl, hpost⟩⟩
      | some v => exact wp_ret.mpr ⟨⟨_, rfl⟩, .inr hpost⟩
    · next hzero =>
      have hzero : s.nb = 0 := not_not.mp hzero
      refine wp_ret.mpr ⟨⟨_, rfl⟩, .inl ⟨rfl, ?_⟩⟩
      simpa [WriteState.out, hzero] using hJ

end

/-! ## Texts that fit the buffer -/

theorem writeIfFull_room (nData nControl : NetBuf) (x : Nat) {s : WriteState}
    (h : s.nb < BUFFER_SIZE) : writeIfFull nData nControl s x = .ret (none, nControl, s) :=
  if_neg (Nat.ne_of_lt h)

theorem writeCR_fits (nData nControl : NetBuf) (c : UInt8) (buf : Bytes) (x : Nat) {s : WriteState}
    (h : s.nb + (crlfFrom s.lc (c :: buf)).length ≤ BUFFER_SIZE) :
    ∃ s', writeCR nData nControl s c x = .ret (none, nControl, s') ∧
      s'.nb + (c :: crlfFrom c buf).length = s.nb + (crlfFrom s.lc (c :: buf)).length ∧
      s'.out ++ c :: crlfFrom c buf = s.out ++ crlfFrom s.lc (c :: buf) := by
  rw [crlfFrom] at h ⊢
  rw [writeCR]
  split
  · next hc =>
    rw [if_pos hc] at h
    simp only [List.length_cons] at h ⊢
    obtain ⟨s', hput, hnb, hout, -⟩ := s.put_some (by omega) CR
    refine ⟨s', ?_, by omega, by rw [hout, List.append_assoc, List.singleton_append]⟩
    rw [writeIfFull_room nData nControl x (by omega)]
    simp only [Prog.ret_bind, hput, Prog.ofOption_some, Prog.pure_eq]
  · next hc => exact ⟨s, rfl, rfl, rfl⟩

/-- A text whose translation fits the buffer behind what is in it makes no call. -/
theorem writeLineLoop_fits (nData nControl : NetBuf) (buf rest : Bytes) (x : Nat) (s : WriteState)
    (h : s.nb + (crlfFrom s.lc buf).length ≤ BUFFER_SIZE) :
    ∃ s', writeLineLoop nData (buf ++ rest) x nControl s =
        writeLineLoop nData rest (x + buf.length) nControl s' ∧
      s'.nb = s.nb + (crlfFrom s.lc buf).length ∧ s'.out = s.out ++ crlfFrom s.lc buf := by
  induction buf generalizing x s with
  | nil => exact ⟨s, rfl, by simp [crlfFrom], by simp [crlfFrom]⟩
  | cons c buf ih =>
    obtain ⟨s₁, hcr, hnb₁, hout₁⟩ := writeCR_fits nData nControl c buf x h
    rw [← hnb₁] at h ⊢
    rw [← hout₁]
    simp only [List.length_cons] at h ⊢
    obtain ⟨s₂, hput, hnb₂, hout₂, -⟩ := s₁.put_some (by omega) c
    obtain ⟨s', hrun, hnb, hout⟩ := ih (x := x + 1) (s := { s₂ with lc := c }) (by dsimp only; omega)
    refine ⟨s', ?_, by dsimp only at hnb; omega, ?_⟩
    · rw [List.cons_append, writeLineLoop, hcr, Prog.ret_bind]
      dsimp only
      rw [writeIfFull_room nData nControl x (by omega), Prog.ret_bind]
      simp only [hput, Prog.ofOption_some, Prog.ret_bind, hrun]
      rw [Nat.add_assoc, Nat.add_comm 1]
    · have hlc : ({ s₂ with lc := c } : WriteState).out = s₂.out := rfl
      rw [hout, hlc, hout₂, List.append_assoc, List.singleton_append]

/-- A text whose translation fits the buffer is sent in one piece. -/
theorem writeLine_fits {nData : NetBuf} (nControl : NetBuf) {buf : Bytes} {nbp : Buffer BUFFER_SIZE}
    (hdir : nData.dir = .write) (hnbp : nData.buf = some nbp) (hbuf : buf ≠ [])
    (h : (crlfFrom 0 buf).length ≤ BUFFER_SIZE) :
    ∃ nbp', writeLine buf nData nControl =
      (do
        let (rv, nControl) ← writeFlush { nData with buf := some nbp' } nControl nbp'
          (crlfFrom 0 buf).length buf.length
        return (rv.getD buf.length, { nData with buf := some nbp' }, nControl)) ∧
      nbp'.bytes.take (crlfFrom 0 buf).length = crlfFrom 0 buf := by
  obtain ⟨s, hrun, hnb, hout⟩ := writeLineLoop_fits nData nControl buf [] 0 ⟨nbp, 0, 0⟩
    (by simpa using h)
  rw [List.append_nil] at hrun
  have hnb : s.nb = (crlfFrom 0 buf).length := by simpa using hnb
  have hne : s.nb ≠ 0 := by
    rw [hnb]
    cases buf with
    | nil => exact absurd rfl hbuf
    | cons c buf =>
      rw [crlfFrom]
      split <;> simp
  refine ⟨s.nbp, ?_, ?_⟩
  · rw [writeLine, if_neg (not_not.mpr hdir), hnbp, Prog.ofOption_some, Prog.ret_bind, hrun,
      writeLineLoop, Prog.pure_eq, Prog.ret_bind]
    dsimp only
    rw [if_pos hne, hnb]
  · rw [← hnb]
    simpa [WriteState.out] using hout

end Ftp
