import BaseUtilities.Ftp.Stream
import Mathlib.Data.List.TakeWhile

/-!
# Replies

The lines of the control stream and the replies that they make up: a reply is a line that begins with a
three-digit code, or, where a `-` follows the code, all lines up to one with the code and a blank.
`readResponse` tells them apart by what a line leaves in `response`.
-/

open Effects Mem

namespace Ftp

/-! ## Reply lines -/

/-- A `-` follows the code: the reply has more lines. -/
def multiLine (l : Bytes) : Prop := l[3]? = some 45

instance (l : Bytes) : Decidable (multiLine l) := inferInstanceAs (Decidable (_ = _))

/-- The last line of a reply whose first line is `first`: its code, and a blank. -/
def closing (first l : Bytes) : Prop := l.take 4 = first.take 3 ++ [32]

instance (first l : Bytes) : Decidable (closing first l) := inferInstanceAs (Decidable (_ = _))

/-- The first character of a line. -/
def digit (l : Bytes) : UInt8 := (chomp l).headD 0

/-- What stands behind the last line of a reply that begins with `first`. -/
def afterClosing (first : Bytes) : List Bytes → Option (List Bytes)
  | [] => none
  | l :: ls => if closing (chomp first) (chomp l) then some ls else afterClosing first ls

/-- What stands behind the first reply. -/
def afterReply : List Bytes → Option (List Bytes)
  | [] => none
  | l :: ls => if multiLine (chomp l) then afterClosing l ls else some ls

theorem closing_digit {first l : Bytes} (hmulti : multiLine (chomp first))
    (h : closing (chomp first) (chomp l)) : digit l = digit first := by
  have hlen : 3 < (chomp first).length := (List.getElem?_eq_some_iff.mp hmulti).1
  rw [closing] at h
  rw [digit, digit]
  cases hf : chomp first with
  | nil => simp [hf] at hlen
  | cons a as =>
    rw [hf] at h
    cases hl : chomp l with
    | nil => simp [hl] at h
    | cons b bs =>
      rw [hl] at h
      simp only [List.take_succ_cons, List.cons_append, List.cons.injEq] at h
      exact h.1

/-! ## What `response` shows -/

section

variable {response : Buffer RESPONSE_BUFFER_SIZE} {content : Bytes}

/-- `response` holds the string `content`. -/
def Shows (response : Buffer RESPONSE_BUFFER_SIZE) (content : Bytes) : Prop :=
  ∃ rest, response.bytes = content ++ 0 :: rest

theorem Shows.first (h : Shows response content) : response.first = content.headD 0 := by
  obtain ⟨rest, hbytes⟩ := h
  rw [Buffer.first, hbytes]
  cases content <;> rfl

theorem chomp_eq {text : Bytes} (h : LF ∉ text) : chomp text = text := by
  apply chomp_of_ne
  intro hdrop
  refine h (List.mem_of_mem_drop (i := text.length - 2) ?_)
  rw [hdrop]
  simp

theorem mem_chomp {b : UInt8} {l : Bytes} (hb : b ≠ LF) (h : b ∈ chomp l) : b ∈ l := by
  rw [chomp] at h
  split at h
  · rw [List.mem_append, List.mem_singleton] at h
    exact List.mem_of_mem_take (h.resolve_right hb)
  · exact h

/-- `matches4` compares with a string that has no NUL. -/
theorem matches4_iff {k : Nat} {code tail bytes : Bytes} (hlen : code.length = k)
    (hcode : (0 : UInt8) ∉ code) : matches4 k bytes (code ++ tail) = true ↔ bytes.take k = code := by
  induction k generalizing bytes code with
  | zero => simp [matches4, List.length_eq_zero_iff.mp hlen]
  | succ k ih =>
    cases code with
    | nil => cases hlen
    | cons b code =>
      rw [List.mem_cons, not_or] at hcode
      cases bytes with
      | nil => simp [matches4]
      | cons a bytes =>
        have htail := @ih code bytes (by simpa using hlen) hcode.2
        simp only [List.cons_append, matches4, List.take_succ_cons, List.cons.injEq, Bool.and_eq_true,
          decide_eq_true_eq, Bool.or_eq_true, htail]
        constructor
        · intro ⟨hab, hmatch⟩
          exact ⟨hab, hmatch.resolve_left fun ha => hcode.1 (ha.symm.trans hab)⟩
        · intro ⟨hab, hmatch⟩
          exact ⟨hab, .inr hmatch⟩

theorem Shows.take_iff {k : Nat} {code : Bytes} (h : Shows response content) (hlen : code.length = k)
    (hcode : (0 : UInt8) ∉ code) : response.bytes.take k = code ↔ content.take k = code := by
  obtain ⟨rest, hbytes⟩ := h
  rw [hbytes]
  by_cases hlong : k ≤ content.length
  · rw [List.take_append_of_le_length hlong]
  · constructor
    · intro heq
      refine absurd ?_ hcode
      rw [← heq, List.take_append, show k - content.length = (k - content.length - 1) + 1 by omega,
        List.take_succ_cons]
      simp
    · intro heq
      rw [← heq, List.length_take] at hlen
      omega

/-- The code that `readResponse` looks for behind the first line of a longer reply. -/
theorem Shows.replyMatch_eq (h : Shows response content) (hcode : (0 : UInt8) ∉ content.take 3)
    (hmulti : multiLine content) : replyMatch response = content.take 3 ++ [32] ++ [0] := by
  have hlen : 3 < content.length := (List.getElem?_eq_some_iff.mp hmulti).1
  have hthree : (content.take 3).length = 3 := by
    rw [List.length_take]
    omega
  have htake : response.bytes.take 3 = content.take 3 := (h.take_iff hthree hcode).mpr rfl
  have hall : (content.take 3).takeWhile (· ≠ 0) = content.take 3 := by
    rw [List.takeWhile_eq_self_iff]
    intro b hb
    have hne : b ≠ 0 := fun hb0 => hcode (hb0 ▸ hb)
    simpa using hne
  rw [replyMatch, htake, hall, hthree]
  simp

/-- A line closes a reply as `readResponse` compares it. -/
theorem Shows.closing_iff {first : Bytes} (h : Shows response content)
    (hfirst : (0 : UInt8) ∉ first.take 3) (hmulti : multiLine first) :
    matches4 4 response.bytes (first.take 3 ++ [32] ++ [0]) = true ↔ closing first content := by
  have hlen : 3 < first.length := (List.getElem?_eq_some_iff.mp hmulti).1
  have hfour : (first.take 3 ++ [32]).length = 4 := by
    rw [List.length_append, List.length_take, List.length_singleton]
    omega
  have hcode : (0 : UInt8) ∉ first.take 3 ++ [32] := by
    rw [List.mem_append, not_or]
    exact ⟨hfirst, by decide⟩
  rw [matches4_iff hfour hcode, h.take_iff hfour hcode]
  rfl

end

/-- A complete line of three bytes or more is told from its fourth byte. -/
theorem shown_third {n : Nat} {init rest : Bytes} {nControl : NetBuf} (buffer : Buffer n)
    (hlen : (init ++ [LF]).length < n) (hthree : 3 ≤ (init ++ [LF]).length) :
    (Line.shown ⟨.newline, init ++ [LF], rest, nControl⟩ buffer).bytes[3]? = some 45 ↔
      multiLine (chomp (init ++ [LF])) := by
  have hle := chomp_length_le (init ++ [LF])
  have hshown : Line.shown ⟨.newline, init ++ [LF], rest, nControl⟩ buffer =
      buffer.overlay (chomp (init ++ [LF]) ++ 0 :: List.replicate
        ((init ++ [LF]).length - (chomp (init ++ [LF])).length) 0) := by
    rw [Line.shown, if_neg (by simp)]
    rfl
  rw [hshown, Buffer.overlay_bytes (by
    simp only [List.length_append, List.length_cons, List.length_replicate] at hlen hle ⊢
    omega), multiLine]
  by_cases hlong : 3 < (chomp (init ++ [LF])).length
  · rw [List.append_assoc, List.getElem?_append_left hlong]
  · have hnone : (chomp (init ++ [LF]))[3]? = none := List.getElem?_eq_none (by omega)
    rw [hnone, List.append_assoc, List.getElem?_append_right (by omega), List.cons_append]
    cases hk : 3 - (chomp (init ++ [LF])).length with
    | zero => simp
    | succ k =>
      rw [List.getElem?_cons_succ, List.getElem?_append_left (by rw [List.length_replicate]; omega),
        List.getElem?_replicate_of_lt (by omega)]
      simp

end Ftp
