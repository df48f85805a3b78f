import BaseUtilities.Ftp.Passive
import Mathlib.Data.List.TakeWhile

/-!
# Fields of a reply

What `pwdFtpClient`, `getSysTypeFtpClient` and `getModDateFtpClient` copy from an accepted reply to the
caller's array.  The response buffer holds the text of the reply, its NUL, and behind that what earlier
replies have left; a function that would do the same with an array that ends with the NUL reads nothing
of that.
-/

open Effects Mem

namespace Ftp

/-! ## What the fields are -/

/-- A quote. -/
abbrev quotes : UInt8 := 34

/-- A name behind its first quote: two quotes stand for one, a single one or the end of the text ends
the name. -/
def unquote : Bytes → Bytes
  | [] => []
  | [b] => if b = quotes then [] else [b]
  | b :: c :: s =>
    if b = quotes then
      if c = quotes then quotes :: unquote s else []
    else
      b :: unquote (c :: s)

/-- The quotes of a name doubled. -/
def doubled (name : Bytes) : Bytes := name.flatMap fun b => if b = quotes then [quotes, quotes] else [b]

/-- The name that a reply to `PWD` quotes. -/
def quotedName (text : Bytes) : Option Bytes := (strchr quotes text).map fun s => unquote (s.drop 1)

/-- The system type: the text up to its first blank. -/
def systemType (text : Bytes) : Bytes := (text.drop 4).takeWhile (· ≠ 32)

/-- The modification date. -/
def modificationDate (text : Bytes) : Bytes := text.drop 4

/-- The name has a doubled quote behind fewer than `n` of its bytes. -/
def DoublesQuote (n : Nat) (text : Bytes) : Prop :=
  ∃ name rest, strchr quotes text = some (quotes :: (name ++ quotes :: quotes :: rest)) ∧
    quotes ∉ name ∧ name.length < n

/-! ## What the functions copy -/

section

variable {max : Nat}

/-- The copy of `getSysTypeFtpClient` from the response. -/
def sysTypeField (buf : Buffer max) (response : Bytes) : Option (Option (Buffer max)) := do
  let text ← copyField (· ≠ 32) (max - 1) (response.drop 4)
  some (some (← buf.strcpy? text))

/-- The copy of `pwdFtpClient`, where the response has a quote. -/
def pwdField (path : Buffer max) (response : Bytes) : Option (Option (Buffer max)) := do
  let text ← if 0 ∈ response then some (response.takeWhile (· ≠ 0)) else none
  match strchr quotes text with
  | none => some none
  | some s =>
    let start := text.length - s.length + 1
    let text ← copyField (fun b => b ≠ 0 && b ≠ quotes) (max - 1) (response.drop start)
    some (some (← path.strcpy? text))

/-- The copy of `getModDateFtpClient`. -/
def modDateField (dt : Buffer max) (response : Bytes) : Option (Option (Buffer max)) := do
  some (some (← copyBounded dt (response.drop 4)))

/-- The end of a function that has copied a field: undefined where the copy has left the response, 0
where there was no field. -/
def copied (out : Buffer max) (nControl : NetBuf) :
    Option (Option (Buffer max)) → Client (Int × Buffer max × NetBuf)
  | none => .fault
  | some none => return (0, out, nControl)
  | some (some out) => return (1, out, nControl)

/-- What a function does once its command has been sent and the reply accepted or not. -/
def copying (out : Buffer max) (field : Buffer max → Bytes → Option (Option (Buffer max)))
    (r : Int × NetBuf) : Client (Int × Buffer max × NetBuf) :=
  if r.1 = 0 then return (0, out, r.2) else copied out r.2 (field out r.2.response.bytes)

theorem getSysTypeFtpClient_eq (buf : Buffer max) (nControl : NetBuf) :
    getSysTypeFtpClient buf nControl =
      sendCommand (ascii "SYST") 50 nControl >>= copying buf sysTypeField := by
  unfold getSysTypeFtpClient
  congr 1
  funext r
  unfold copying sysTypeField
  dsimp only
  split
  · rfl
  · cases copyField (· ≠ 32) (max - 1) (r.2.response.bytes.drop 4) with
    | none => rfl
    | some text => cases hout : buf.strcpy? text with
      | none => simp [copied, hout]
      | some out => simp [copied, hout]

theorem pwdFtpClient_eq (path : Buffer max) (nControl : NetBuf) :
    pwdFtpClient path nControl = sendCommand (ascii "PWD") 50 nControl >>= copying path pwdField := by
  unfold pwdFtpClient
  congr 1
  funext r
  unfold copying pwdField Buffer.cstr?
  dsimp only
  split
  · rfl
  · split
    · simp only [Prog.ofOption_some, Prog.ret_bind, Option.bind_eq_bind, Option.bind_some]
      cases strchr 34 (r.2.response.bytes.takeWhile (· ≠ 0)) with
      | none => rfl
      | some s =>
        dsimp only
        cases copyField (fun b => b ≠ 0 && b ≠ 34) (max - 1) (r.2.response.bytes.drop
            ((r.2.response.bytes.takeWhile (· ≠ 0)).length - s.length + 1)) with
        | none => rfl
        | some text => cases hout : path.strcpy? text with
          | none => simp [copied, hout]
          | some out => simp [copied, hout]
    · rfl

theorem getModDateFtpClient_eq (path : Bytes) (dt : Buffer max) (nControl : NetBuf) :
    getModDateFtpClient path dt nControl =
      if path.length + 7 > TEMP_BUFFER_SIZE then return (0, dt, nControl)
      else sendCommand (ascii "MDTM " ++ path) 50 nControl >>= copying dt modDateField := by
  unfold getModDateFtpClient
  split
  · rfl
  · congr 1
    funext r
    unfold copying modDateField
    dsimp only
    split
    · rfl
    · cases hout : copyBounded dt (r.2.response.bytes.drop 4) with
      | none => simp [copied]
      | some out => simp [copied]

end

/-! ## The copying loop -/

section

variable {keep : UInt8 → Bool} {s : Bytes} {c : UInt8}

/-- The loop stops at a byte that it does not keep. -/
theorem copyField_stop (l : Nat) (rest : Bytes) (hs : ∀ b ∈ s, keep b = true) (hc : keep c = false) :
    copyField keep l (s ++ c :: rest) = some (s.take l) := by
  induction s generalizing l with
  | nil =>
    cases l with
    | zero => rfl
    | succ l =>
      rw [List.nil_append, copyField, hc]
      rfl
  | cons b s ih =>
    cases l with
    | zero => rfl
    | succ l =>
      have hb : keep b = true := hs b List.mem_cons_self
      rw [List.cons_append, copyField, if_pos hb, ih l fun b' hb' => hs b' (List.mem_cons_of_mem _ hb')]
      rfl

/-- Where it keeps all bytes it runs to its limit. -/
theorem copyField_run (l : Nat) (hs : ∀ b ∈ s, keep b = true) :
    copyField keep l s = if l ≤ s.length then some (s.take l) else none := by
  induction s generalizing l with
  | nil =>
    cases l with
    | zero => rfl
    | succ l => rfl
  | cons b s ih =>
    cases l with
    | zero => rfl
    | succ l =>
      have hb : keep b = true := hs b List.mem_cons_self
      rw [copyField, if_pos hb, ih l fun b' hb' => hs b' (List.mem_cons_of_mem _ hb'), List.length_cons]
      by_cases hle : l ≤ s.length
      · rw [if_pos hle, if_pos (by omega)]
        rfl
      · rw [if_neg hle, if_neg (by omega)]
        rfl

/-- A copy that stays in front of `rest` does not depend on it. -/
theorem copyField_append {l : Nat} {u : Bytes} (rest : Bytes) (h : copyField keep l s = some u) :
    copyField keep l (s ++ rest) = some u := by
  induction s generalizing l u with
  | nil =>
    cases l with
    | zero => exact h
    | succ l => cases h
  | cons b s ih =>
    cases l with
    | zero => exact h
    | succ l =>
      rw [copyField] at h
      rw [List.cons_append, copyField]
      split
      · next hb =>
        rw [if_pos hb, Option.map_eq_some_iff] at h
        obtain ⟨v, hv, rfl⟩ := h
        rw [ih hv]
        rfl
      · next hb =>
        rw [if_neg hb] at h
        exact h

end

section

variable {max : Nat} {text stale : Bytes}

/-- What has been copied and its NUL are read back up to the first NUL. -/
theorem strcpy?_reads (out : Buffer max) {src rest : Bytes} (hsrc : src ++ [0] = text ++ 0 :: rest)
    (hzero : (0 : UInt8) ∉ text) (h : src.length < max) :
    ∃ out', out.strcpy? src = some out' ∧ out'.cstr? = some text := by
  have hlen : (src ++ [0]).length ≤ max := by
    rw [List.length_append, List.length_singleton]
    omega
  refine ⟨out.overlay (src ++ [0]), ?_, ?_⟩
  · unfold Buffer.strcpy?
    exact out.store?_zero hlen
  · rw [hsrc] at hlen ⊢
    exact out.overlay_cstr? hzero hlen

/-! ## What a field is to be -/

/-- The function copies the first `max - 1` bytes of the field `value` of the reply `text` to the
caller's array, with a NUL behind them, and reads nothing behind the reply; without a field it copies
nothing. -/
def Extracts (field : Bytes → Option (Option (Buffer max))) (text stale : Bytes)
    (value : Option Bytes) : Prop :=
  ∃ out, field (text ++ 0 :: stale) = some out ∧ field (text ++ [0]) = some out ∧
    out.map Buffer.cstr? = value.map fun s => some (s.take (max - 1))

/-- A field that is copied, with what is needed to read it back. -/
theorem extracts_of_copy (out : Buffer max) {field : Bytes → Option (Option (Buffer max))}
    {src value rest : Bytes} (hsrc : src ++ [0] = value.take (max - 1) ++ 0 :: rest)
    (hzero : (0 : UInt8) ∉ value) (hlen : src.length < max)
    (hfield : field (text ++ 0 :: stale) = (out.strcpy? src).map some)
    (hreply : field (text ++ [0]) = (out.strcpy? src).map some) :
    Extracts field text stale (some value) := by
  have hzero' : (0 : UInt8) ∉ value.take (max - 1) := fun h => hzero (List.mem_of_mem_take h)
  obtain ⟨out', hout, hcstr⟩ := strcpy?_reads out hsrc hzero' hlen
  rw [hout] at hfield hreply
  exact ⟨some out', hfield, hreply, congrArg some hcstr⟩

theorem not_extracts_of_none {field : Bytes → Option (Option (Buffer max))} {value : Option Bytes}
    (h : field (text ++ [0]) = none) : ¬Extracts field text stale value := by
  intro hextracts
  obtain ⟨out, -, hreply, -⟩ := hextracts
  rw [h] at hreply
  cases hreply

/-! ## The system type -/

theorem sysTypeField_eq (buf : Buffer max) (response : Bytes) :
    sysTypeField buf response =
      (copyField (· ≠ 32) (max - 1) (response.drop 4)).bind fun src => (buf.strcpy? src).map some := by
  unfold sysTypeField
  cases copyField (· ≠ 32) (max - 1) (response.drop 4) with
  | none => rfl
  | some src => cases hout : buf.strcpy? src <;> simp [hout]

theorem kept_of_not_mem {c : UInt8} {s : Bytes} (h : c ∉ s) : ∀ b ∈ s, decide (b ≠ c) = true := by
  intro b hb
  rw [decide_eq_true_iff]
  rintro rfl
  exact h hb

theorem drop_text (h : 4 ≤ text.length) (rest : Bytes) : (text ++ rest).drop 4 = text.drop 4 ++ rest :=
  List.drop_append_of_le_length h

theorem systemType_zero (hzero : (0 : UInt8) ∉ text) : (0 : UInt8) ∉ systemType text :=
  fun h => hzero (List.mem_of_mem_drop (List.takeWhile_subset _ h))

/-- The loop stops at the blank. -/
theorem sysType_blank (buf : Buffer max) (hmax : 1 ≤ max) (hzero : (0 : UInt8) ∉ text)
    (hfour : 4 ≤ text.length) (hblank : (32 : UInt8) ∈ text.drop 4) :
    Extracts (sysTypeField buf) text stale (some (systemType text)) := by
  obtain ⟨a, rest, ha, hnot⟩ := List.eq_append_cons_of_mem hblank
  have hkeep := kept_of_not_mem hnot
  have htype : systemType text = a := by
    unfold systemType
    rw [ha, List.takeWhile_append_of_pos hkeep, List.takeWhile_cons_of_neg (by decide), List.append_nil]
  have hcopy : ∀ tail, sysTypeField buf (text ++ tail) = (buf.strcpy? (a.take (max - 1))).map some := by
    intro tail
    rw [sysTypeField_eq, drop_text hfour, ha, List.append_assoc, List.cons_append,
      copyField_stop _ _ hkeep (by decide)]
    rfl
  have hlen : (a.take (max - 1)).length < max := by
    rw [List.length_take]
    omega
  have hvalue := systemType_zero hzero
  rw [htype] at hvalue ⊢
  exact extracts_of_copy buf rfl hvalue hlen (hcopy _) (hcopy _)

/-- Without a blank the loop copies the NUL as well and goes on behind it, up to the limit. -/
theorem sysType_unblanked (buf : Buffer max) (hmax : 1 ≤ max) (hzero : (0 : UInt8) ∉ text)
    (hfour : 4 ≤ text.length) (hblank : (32 : UInt8) ∉ text.drop 4) :
    Extracts (sysTypeField buf) text stale (some (systemType text)) ↔ max + 2 ≤ text.length := by
  have htype : systemType text = text.drop 4 :=
    List.takeWhile_eq_self_iff.mpr (kept_of_not_mem hblank)
  have hkeep : ∀ b ∈ text.drop 4 ++ [0], decide (b ≠ 32) = true := by
    apply kept_of_not_mem
    rw [List.mem_append, List.mem_singleton]
    exact fun h => hblank (h.resolve_right (by decide))
  have hrun := copyField_run (max - 1) hkeep
  have hlength : (text.drop 4 ++ [0]).length = text.length - 3 := by
    rw [List.length_append, List.length_drop, List.length_singleton]
    omega
  rw [hlength] at hrun
  constructor
  · intro h
    by_contra hlong
    rw [if_neg (by omega)] at hrun
    refine not_extracts_of_none ?_ h
    rw [sysTypeField_eq, drop_text hfour, hrun]
    rfl
  · intro hlong
    rw [if_pos (by omega)] at hrun
    have hreply : sysTypeField buf (text ++ [0]) =
        (buf.strcpy? ((text.drop 4 ++ [0]).take (max - 1))).map some := by
      rw [sysTypeField_eq, drop_text hfour, hrun]
      rfl
    have hfield : sysTypeField buf (text ++ 0 :: stale) =
        (buf.strcpy? ((text.drop 4 ++ [0]).take (max - 1))).map some := by
      rw [sysTypeField_eq, drop_text hfour, ← List.singleton_append, ← List.append_assoc,
        copyField_append stale hrun]
      rfl
    have hlen : ((text.drop 4 ++ [0]).take (max - 1)).length < max := by
      rw [List.length_take]
      omega
    have hvalue := systemType_zero hzero
    rw [htype] at hvalue ⊢
    by_cases hfits : max - 1 ≤ (text.drop 4).length
    · have hsrc : (text.drop 4 ++ [0]).take (max - 1) ++ [0] =
          (text.drop 4).take (max - 1) ++ 0 :: [] := by
        rw [List.take_append_of_le_length hfits]
      exact extracts_of_copy buf hsrc hvalue hlen hfield hreply
    · -- the NUL itself is the last byte copied
      have hlast : max - 1 = (text.drop 4 ++ [0]).length := by
        rw [List.length_drop] at hfits
        omega
      have hsrc : (text.drop 4 ++ [0]).take (max - 1) ++ [0] =
          (text.drop 4).take (max - 1) ++ 0 :: [0] := by
        rw [hlast, List.take_length, List.take_of_length_le (by simp)]
        simp
      exact extracts_of_copy buf hsrc hvalue hlen hfield hreply

/-- Nothing lies at the offset of a reply that is shorter, but for what stands behind its NUL. -/
theorem drop_short (h : text.length < 4) : (text ++ [0]).drop 4 = [] := by
  apply List.drop_of_length_le
  rw [List.length_append, List.length_singleton]
  omega

/-- The text up to the NUL. -/
theorem takeWhile_text (hzero : (0 : UInt8) ∉ text) (rest : Bytes) :
    (text ++ 0 :: rest).takeWhile (· ≠ 0) = text := by
  rw [List.takeWhile_append_of_pos (kept_of_not_mem hzero), List.takeWhile_cons_of_neg (by decide),
    List.append_nil]

/-- Where the reply is shorter than the offset, the first byte that is read is behind the NUL. -/
theorem not_sysType_short (buf : Buffer max) (hmax : 2 ≤ max) (hfour : text.length < 4) :
    ¬Extracts (sysTypeField buf) text stale (some (systemType text)) := by
  apply not_extracts_of_none
  rw [sysTypeField_eq, drop_short hfour, copyField_run _ (fun b hb => absurd hb List.not_mem_nil), if_neg]
  · rfl
  · rw [List.length_nil]
    omega

/-- `getSysTypeFtpClient` extracts the type where a blank ends it, or the limit does. -/
theorem sysType_extracts_iff (buf : Buffer max) (hmax : 1 ≤ max) (hzero : (0 : UInt8) ∉ text) :
    Extracts (sysTypeField buf) text stale (some (systemType text)) ↔
      max = 1 ∨ 4 ≤ text.length ∧ ((32 : UInt8) ∈ text.drop 4 ∨ max + 2 ≤ text.length) := by
  by_cases hone : max = 1
  · -- nothing is copied but the NUL
    subst hone
    have hcopy : ∀ response, sysTypeField buf response = (buf.strcpy? []).map some := fun response => by
      rw [sysTypeField_eq]
      rfl
    exact iff_of_true
      (extracts_of_copy buf rfl (systemType_zero hzero) Nat.one_pos (hcopy _) (hcopy _)) (.inl rfl)
  · rw [or_iff_right hone]
    by_cases hfour : 4 ≤ text.length
    · rw [and_iff_right hfour]
      by_cases hblank : (32 : UInt8) ∈ text.drop 4
      · exact iff_of_true (sysType_blank buf hmax hzero hfour hblank) (.inl hblank)
      · rw [or_iff_right hblank]
        exact sysType_unblanked buf hmax hzero hfour hblank
    · exact iff_of_false (not_sysType_short buf (by omega) (by omega)) fun h => hfour h.1

/-! ## The modification date -/

theorem modDateField_eq (dt : Buffer max) (hfour : 4 ≤ text.length) (hzero : (0 : UInt8) ∉ text)
    (rest : Bytes) :
    modDateField dt (text ++ 0 :: rest) = some (some (dt.strncpy (modificationDate text))) := by
  have hkeep := kept_of_not_mem fun h : (0 : UInt8) ∈ text.drop 4 => hzero (List.mem_of_mem_drop h)
  have hcopy : copyBounded dt (text.drop 4 ++ 0 :: rest) = some (dt.strncpy (modificationDate text)) := by
    unfold copyBounded modificationDate
    rw [if_pos (.inr (List.mem_append_right _ List.mem_cons_self)), List.takeWhile_append_of_pos hkeep,
      List.takeWhile_cons_of_neg (by decide), List.append_nil]
  unfold modDateField
  rw [drop_text hfour, hcopy]
  rfl

/-- `strncpy` writes a terminator where the string is shorter than the array. -/
theorem strncpy_cstr? (dt : Buffer max) {src : Bytes} (hzero : (0 : UInt8) ∉ src) :
    (dt.strncpy src).cstr? = if src.length < max then some src else none := by
  show (if 0 ∈ (src ++ List.replicate max 0).take max then
    some (((src ++ List.replicate max 0).take max).takeWhile (· ≠ 0)) else none) = _
  by_cases hfits : src.length < max
  · have hbytes : (src ++ List.replicate max 0).take max = src ++ List.replicate (max - src.length) 0 := by
      rw [List.take_append, List.take_of_length_le (Nat.le_of_lt hfits), List.take_replicate, Nat.min_eq_left]
      omega
    obtain ⟨k, hk⟩ : ∃ k, max - src.length = k + 1 := ⟨max - src.length - 1, by omega⟩
    rw [hbytes, hk, List.replicate_succ, if_pos (List.mem_append_right _ List.mem_cons_self),
      List.takeWhile_append_of_pos (kept_of_not_mem hzero), List.takeWhile_cons_of_neg (by decide),
      List.append_nil, if_pos hfits]
  · rw [List.take_append_of_le_length (by omega), if_neg, if_neg hfits]
    exact fun h => hzero (List.mem_of_mem_take h)

/-- `getModDateFtpClient` extracts the date where that and its NUL fit the caller's array. -/
theorem modDate_extracts_iff (dt : Buffer max) (hmax : 1 ≤ max) (hzero : (0 : UInt8) ∉ text) :
    Extracts (modDateField dt) text stale (some (modificationDate text)) ↔
      4 ≤ text.length ∧ text.length < max + 4 := by
  have hdate : (0 : UInt8) ∉ modificationDate text := fun h => hzero (List.mem_of_mem_drop h)
  have hlength : (modificationDate text).length = text.length - 4 := List.length_drop
  -- A reply shorter than its code and a blank: the copy begins behind its NUL, in stale bytes.
  by_cases hfour : 4 ≤ text.length
  · have hcstr := strncpy_cstr? dt hdate
    constructor
    · intro h
      obtain ⟨out, -, hreply, hout⟩ := h
      rw [modDateField_eq dt hfour hzero] at hreply
      obtain rfl := Option.some.inj hreply
      refine ⟨hfour, ?_⟩
      -- A date of `max` bytes or more is copied without a terminator, and no text can be read back.
      by_contra hlong
      rw [if_neg (by omega)] at hcstr
      rw [Option.map_some, hcstr] at hout
      cases hout
    · intro h
      rw [if_pos (by omega)] at hcstr
      refine ⟨_, modDateField_eq dt hfour hzero stale, modDateField_eq dt hfour hzero [], ?_⟩
      rw [Option.map_some, Option.map_some, hcstr, List.take_of_length_le (by omega)]
  · refine iff_of_false (not_extracts_of_none ?_) fun h => hfour h.1
    -- Without stale bytes nothing lies behind the NUL, so what was copied was not the reply's.
    have hempty : (text ++ [0]).drop 4 = [] := drop_short (Nat.lt_of_not_le hfour)
    have hcopy : copyBounded dt [] = none := by
      unfold copyBounded
      apply if_neg
      rw [List.length_nil]
      exact fun h => h.elim (fun hle => absurd hmax (by omega)) List.not_mem_nil
    unfold modDateField
    rw [hempty, hcopy]
    rfl

/-! ## The working directory -/

theorem strchr_some {c : UInt8} {s u : Bytes} (h : strchr c s = some u) :
    ∃ pre v, s = pre ++ c :: v ∧ u = c :: v := by
  induction s with
  | nil => cases h
  | cons b s ih =>
    rw [strchr] at h
    split at h
    · next hb =>
      subst hb
      exact ⟨[], s, rfl, (Option.some.inj h).symm⟩
    · obtain ⟨pre, v, rfl, hu⟩ := ih h
      exact ⟨b :: pre, v, rfl, hu⟩

theorem unquote_cons {b : UInt8} (hb : b ≠ quotes) (s : Bytes) : unquote (b :: s) = b :: unquote s := by
  cases s with
  | nil => exact if_neg hb
  | cons c s => rw [unquote, if_neg hb]

/-- Bytes that are no quotes stand for themselves. -/
theorem unquote_append {name : Bytes} (hname : quotes ∉ name) (s : Bytes) :
    unquote (name ++ s) = name ++ unquote s := by
  induction name with
  | nil => rfl
  | cons b name ih =>
    have hb : b ≠ quotes := fun h => hname (h ▸ List.mem_cons_self)
    rw [List.cons_append, unquote_cons hb, ih fun h => hname (List.mem_cons_of_mem _ h), List.cons_append]

theorem unquote_single {s : Bytes} (hs : s.head? ≠ some quotes) : unquote (quotes :: s) = [] := by
  cases s with
  | nil => rfl
  | cons c s =>
    have hc : c ≠ quotes := fun h => hs (congrArg some h)
    rw [unquote, if_pos rfl, if_neg hc]

theorem unquote_doubled (name : Bytes) {rest : Bytes} (hrest : rest.head? ≠ some quotes) :
    unquote (doubled name ++ quotes :: rest) = name := by
  induction name with
  | nil => exact unquote_single hrest
  | cons b name ih =>
    have hcons : doubled (b :: name) =
        (if b = quotes then [quotes, quotes] else [b]) ++ doubled name := List.flatMap_cons
    rw [hcons]
    by_cases hb : b = quotes
    · subst hb
      rw [if_pos rfl]
      show unquote (quotes :: quotes :: (doubled name ++ quotes :: rest)) = _
      rw [unquote, if_pos rfl, if_pos rfl, ih]
    · rw [if_neg hb]
      show unquote (b :: (doubled name ++ quotes :: rest)) = _
      rw [unquote_cons hb, ih]

/-- A reply with a quoted name yields the name. -/
theorem quotedName_reply (name : Bytes) {code rest : Bytes} (hcode : quotes ∉ code)
    (hrest : rest.head? ≠ some quotes) :
    quotedName (code ++ quotes :: (doubled name ++ quotes :: rest)) = some name := by
  have hchr : ∀ s, strchr quotes (code ++ quotes :: s) = some (quotes :: s) := by
    intro s
    induction code with
    | nil => rfl
    | cons b code ih =>
      have hb : b ≠ quotes := fun h => hcode (h ▸ List.mem_cons_self)
      rw [List.cons_append, strchr, if_neg hb]
      exact ih fun h => hcode (List.mem_cons_of_mem _ h)
  unfold quotedName
  rw [hchr]
  exact congrArg some (unquote_doubled name hrest)

/-- Behind the first quote: a name that the text ends, or another quote. -/
theorem name_or_quote (v : Bytes) : ∃ name tail, v = name ++ tail ∧ quotes ∉ name ∧
    (tail = [] ∨ ∃ rest, tail = quotes :: rest) := by
  by_cases hmem : quotes ∈ v
  · obtain ⟨name, rest, hv, hname⟩ := List.eq_append_cons_of_mem hmem
    exact ⟨name, quotes :: rest, hv, hname, .inr ⟨rest, rfl⟩⟩
  · exact ⟨v, [], (List.append_nil v).symm, hmem, .inl rfl⟩

/-- `pwdFtpClient` copies the bytes behind the first quote up to the next one, or to the NUL. -/
theorem pwdField_eq (path : Buffer max) {name tail : Bytes} (hzero : (0 : UInt8) ∉ text)
    (hchr : strchr quotes text = some (quotes :: (name ++ tail))) (hname : quotes ∉ name)
    (htail : tail = [] ∨ ∃ rest, tail = quotes :: rest) (rest : Bytes) :
    pwdField path (text ++ 0 :: rest) = (path.strcpy? (name.take (max - 1))).map some := by
  have htext := takeWhile_text hzero rest
  obtain ⟨pre, v, htext', hv⟩ := strchr_some hchr
  obtain rfl : name ++ tail = v := (List.cons.inj hv).2
  -- The source walks a pointer; here it is the offset just behind the first quote.
  have hstart : text.length - (quotes :: (name ++ tail)).length + 1 = (pre ++ [quotes]).length := by
    rw [htext']
    simp only [List.length_append, List.length_cons, List.length_nil]
    omega
  have hdrop : (text ++ 0 :: rest).drop (pre ++ [quotes]).length = name ++ tail ++ 0 :: rest := by
    have hsplit : text ++ 0 :: rest = pre ++ [quotes] ++ (name ++ tail ++ 0 :: rest) := by
      rw [htext']
      simp
    rw [hsplit, List.drop_left]
  have hkeep : ∀ b ∈ name, (b ≠ 0 && b ≠ quotes) = true := by
    intro b hb
    have hmem : b ∈ text := by
      rw [htext']
      exact List.mem_append_right _ (List.mem_cons_of_mem _ (List.mem_append_left _ hb))
    rw [Bool.and_eq_true]
    exact ⟨kept_of_not_mem hzero b hmem, kept_of_not_mem hname b hb⟩
  have hcopy : copyField (fun b => b ≠ 0 && b ≠ quotes) (max - 1) (name ++ tail ++ 0 :: rest) =
      some (name.take (max - 1)) := by
    -- The copy stops at the NUL of the reply or at the next quote, whichever comes first.
    rcases htail with rfl | ⟨tail, rfl⟩
    · rw [List.append_nil]
      exact copyField_stop _ _ hkeep rfl
    · rw [List.append_assoc]
      exact copyField_stop _ _ hkeep rfl
  unfold pwdField
  rw [if_pos (List.mem_append_right _ List.mem_cons_self), htext]
  simp only [Option.bind_eq_bind, Option.bind_some]
  rw [hchr]
  dsimp only
  rw [hstart, hdrop, hcopy]
  cases hout : path.strcpy? (name.take (max - 1)) <;> simp [hout]

theorem pwdField_none (path : Buffer max) (hzero : (0 : UInt8) ∉ text)
    (hchr : strchr quotes text = none) (rest : Bytes) :
    pwdField path (text ++ 0 :: rest) = some none := by
  have htext := takeWhile_text hzero rest
  unfold pwdField
  rw [if_pos (List.mem_append_right _ List.mem_cons_self), htext]
  simp only [Option.bind_eq_bind, Option.bind_some]
  rw [hchr]

/-- The name up to a quote is the name that is quoted, as far as the limit, where no quote is doubled
in front of that. -/
theorem take_unquote_iff {name tail : Bytes} (n : Nat) (hname : quotes ∉ name)
    (htail : tail = [] ∨ ∃ rest, tail = quotes :: rest) :
    name.take n = (unquote (name ++ tail)).take n ↔
      ∀ rest, tail = quotes :: quotes :: rest → n ≤ name.length := by
  rw [unquote_append hname]
  -- A doubled quote is the only place where `unquote` goes on and the source's loop stops.
  by_cases hdouble : ∃ rest, tail = quotes :: quotes :: rest
  · obtain ⟨rest, rfl⟩ := hdouble
    have htwo : unquote (quotes :: quotes :: rest) = quotes :: unquote rest := by
      rw [unquote, if_pos rfl, if_pos rfl]
    rw [htwo]
    constructor
    · intro h _ _
      -- Equal prefixes have one length: either the name alone fills `n`, or the quote is missing.
      have hlen := congrArg List.length h
      simp only [List.length_take, List.length_append, List.length_cons] at hlen
      omega
    · intro h
      rw [List.take_append_of_le_length (h rest rfl)]
  · have hempty : unquote tail = [] := by
      rcases htail with rfl | ⟨rest, rfl⟩
      · rfl
      · apply unquote_single
        intro hhead
        cases rest with
        | nil => cases hhead
        | cons c rest =>
          obtain rfl : c = quotes := Option.some.inj hhead
          exact hdouble ⟨rest, rfl⟩
    rw [hempty, List.append_nil]
    exact iff_of_true rfl fun rest h => absurd ⟨rest, h⟩ hdouble

theorem takeWhile_name {name tail : Bytes} (hname : quotes ∉ name)
    (htail : tail = [] ∨ ∃ rest, tail = quotes :: rest) :
    (name ++ tail).takeWhile (· ≠ quotes) = name := by
  rw [List.takeWhile_append_of_pos (kept_of_not_mem hname)]
  rcases htail with rfl | ⟨rest, rfl⟩
  · rw [List.takeWhile_nil, List.append_nil]
  · rw [List.takeWhile_cons_of_neg (by decide), List.append_nil]

/-- `pwdFtpClient` extracts the name where it has no doubled quote in front of the limit. -/
theorem pwd_extracts_iff (path : Buffer max) (hmax : 1 ≤ max) (hzero : (0 : UInt8) ∉ text) :
    Extracts (pwdField path) text stale (quotedName text) ↔ ¬DoublesQuote (max - 1) text := by
  -- Without any quote the function returns 0, and the reply names nothing.
  cases hchr : strchr quotes text with
  | none =>
    have hname : quotedName text = none := by
      unfold quotedName
      rw [hchr]
      rfl
    rw [hname]
    refine iff_of_true ⟨none, pwdField_none path hzero hchr _, pwdField_none path hzero hchr _, rfl⟩ ?_
    intro hdouble
    obtain ⟨name, rest, hsome, -⟩ := hdouble
    rw [hchr] at hsome
    cases hsome
  | some s =>
    obtain ⟨pre, v, htext, rfl⟩ := strchr_some hchr
    -- The field up to the next quote is what the loop copies; `tail` is what it leaves.
    obtain ⟨name, tail, rfl, hname, htail⟩ := name_or_quote v
    have hvalue : quotedName text = some (unquote (name ++ tail)) := by
      unfold quotedName
      rw [hchr]
      rfl
    have hzero' : (0 : UInt8) ∉ name.take (max - 1) := by
      intro h
      rw [htext] at hzero
      exact hzero (List.mem_append_right _ (List.mem_cons_of_mem _ (List.mem_append_left _
        (List.mem_of_mem_take h))))
    have hlen : (name.take (max - 1)).length < max := by
      rw [List.length_take]
      omega
    have hsrc : name.take (max - 1) ++ [0] = name.take (max - 1) ++ 0 :: [] := rfl
    obtain ⟨out, hout, hcstr⟩ := strcpy?_reads path hsrc hzero' hlen
    have hfield : ∀ rest, pwdField path (text ++ 0 :: rest) = some (some out) := fun rest => by
      rw [pwdField_eq path hzero hchr hname htail, hout]
      rfl
    -- Nothing stale is read, so extracting is a matter of the text alone.
    have hextracts : Extracts (pwdField path) text stale (quotedName text) ↔
        name.take (max - 1) = (unquote (name ++ tail)).take (max - 1) := by
      rw [hvalue]
      constructor
      · intro h
        obtain ⟨out', hsome, -, hread⟩ := h
        rw [hfield] at hsome
        obtain rfl := Option.some.inj hsome
        rw [Option.map_some, hcstr] at hread
        exact Option.some.inj (Option.some.inj hread)
      · intro h
        refine ⟨some out, hfield stale, hfield [], ?_⟩
        rw [Option.map_some, hcstr, h]
        rfl
    -- A doubled quote behind the name counts only where the array still has room for it.
    have hdoubles : DoublesQuote (max - 1) text ↔
        ∃ rest, tail = quotes :: quotes :: rest ∧ name.length < max - 1 := by
      constructor
      · intro h
        obtain ⟨name', rest, hsome, hname', hlt⟩ := h
        have heq : name ++ tail = name' ++ quotes :: quotes :: rest :=
          (List.cons.inj (Option.some.inj (hchr.symm.trans hsome))).2
        have hsame : name = name' := by
          rw [← takeWhile_name hname htail, heq]
          exact takeWhile_name hname' (.inr ⟨_, rfl⟩)
        subst hsame
        exact ⟨rest, List.append_cancel_left heq, hlt⟩
      · intro h
        obtain ⟨rest, rfl, hlt⟩ := h
        exact ⟨name, rest, hchr, hname, hlt⟩
    rw [hextracts, take_unquote_iff _ hname htail, hdoubles]
    constructor
    · intro h hno
      obtain ⟨rest, heq, hlt⟩ := hno
      have := h rest heq
      omega
    · intro h rest heq
      by_contra hlt
      exact h ⟨rest, heq, by omega⟩

end

/-! ## The three functions -/

/-- Each of the three functions sends its command and copies a field of the accepted reply; and for
every reply it extracts what it should exactly where no quote is doubled in front of the limit, where a
blank or the limit ends the system type, and where the date and its NUL fit the caller's array. -/
theorem fields_extracted_iff {max : Nat} (hmax : 1 ≤ max) (out : Buffer max) :
    (∀ nControl, pwdFtpClient out nControl =
        sendCommand (ascii "PWD") 50 nControl >>= copying out pwdField) ∧
    (∀ nControl, getSysTypeFtpClient out nControl =
        sendCommand (ascii "SYST") 50 nControl >>= copying out sysTypeField) ∧
    (∀ path nControl, getModDateFtpClient path out nControl =
        if path.length + 7 > TEMP_BUFFER_SIZE then return (0, out, nControl)
        else sendCommand (ascii "MDTM " ++ path) 50 nControl >>= copying out modDateField) ∧
    (∀ text stale, (0 : UInt8) ∉ text →
      (Extracts (pwdField out) text stale (quotedName text) ↔ ¬DoublesQuote (max - 1) text) ∧
      (Extracts (sysTypeField out) text stale (some (systemType text)) ↔
        max = 1 ∨ 4 ≤ text.length ∧ ((32 : UInt8) ∈ text.drop 4 ∨ max + 2 ≤ text.length)) ∧
      (Extracts (modDateField out) text stale (some (modificationDate text)) ↔
        4 ≤ text.length ∧ text.length < max + 4)) ∧
    ∀ name rest, rest.head? ≠ some quotes →
      quotedName (ascii "257 " ++ quotes :: (doubled name ++ quotes :: rest)) = some name :=
  ⟨pwdFtpClient_eq out, getSysTypeFtpClient_eq out, fun path => getModDateFtpClient_eq path out,
    fun _ _ hzero => ⟨pwd_extracts_iff out hmax hzero, sysType_extracts_iff out hmax hzero,
      modDate_extracts_iff out hmax hzero⟩,
    fun name _ hrest => quotedName_reply name (by decide) hrest⟩

theorem fields_extracted_iff_unix :
    Extracts (sysTypeField (.zeroed 8)) (ascii "215 UNIX Type: L8\n") [97]
      (some (systemType (ascii "215 UNIX Type: L8\n"))) := by
  have hfields := (fields_extracted_iff (by decide : 1 ≤ 8) (.zeroed 8)).2.2.2.1
    (ascii "215 UNIX Type: L8\n") [97] (by decide)
  exact hfields.2.1.mpr (.inr (by decide))

/-- A system type without a blank behind it is copied with what follows the reply. -/
theorem not_fields_extracted : ¬∀ (max : Nat) (out : Buffer max) (text stale : Bytes), 1 ≤ max →
    (0 : UInt8) ∉ text → text.head? = some 50 → text.length + 1 + stale.length = RESPONSE_BUFFER_SIZE →
    Extracts (sysTypeField out) text stale (some (systemType text)) := by
  intro h
  have hextracts := h 64 (.zeroed 64) (ascii "215 UNIX\n") (List.replicate 1014 97) (by decide) (by decide)
    rfl (by decide +kernel)
  exact absurd ((sysType_extracts_iff (.zeroed 64) (by decide) (by decide)).mp hextracts) (by decide)

end Ftp
