import BaseUtilities.Memory.Buffer
import Mathlib.Algebra.Group.Int.Defs
import Mathlib.Algebra.Group.Nat.Defs
import Mathlib.Data.List.TakeWhile

/-!
# Text

The C library's searches and conversions of strings: what `%d` prints and what `%d` and `%u` read, with
decimal numbers as a grammar of their own, and the lines of a text.
-/

namespace Mem

/-! ## Conversions -/

/-- `%d` of a value that is not negative. -/
def decimal (n : Nat) : Bytes := (Nat.toDigits 10 n).map fun c => UInt8.ofNat c.toNat

def decimalInt : Int → Bytes
  | .ofNat n => decimal n
  | .negSucc n => 45 :: decimal (n + 1)

/-- `strchr`: the string from the first `c` on. -/
def strchr (c : UInt8) : Bytes → Option Bytes
  | [] => none
  | b :: s => if b = c then some (b :: s) else strchr c s

def isspace (b : UInt8) : Bool := b = 32 || (9 ≤ b && b ≤ 13)

def isdigit (b : UInt8) : Bool := 48 ≤ b && b ≤ 57

/-- The value of a string of decimal digits. -/
def digitsValue (s : Bytes) : Nat := s.foldl (fun v b => 10 * v + (b.toNat - 48)) 0

/-- The input of the conversions `%d` and `%u`: blanks, an optional sign and digits.  The result is
the sign, the value of the digits and the rest of the input. -/
def scanNumber (s : Bytes) : Option (Bool × Nat × Bytes) :=
  let s := s.dropWhile isspace
  let (negative, s) := match s with
    | 45 :: s => (true, s)
    | 43 :: s => (false, s)
    | s => (false, s)
  match s.takeWhile isdigit with
  | [] => none
  | digits => some (negative, digitsValue digits, s.dropWhile isdigit)

/-- The conversion `%u`; a value above `UINT_MAX` saturates. -/
def scanUnsigned (s : Bytes) : Option (UInt32 × Bytes) :=
  (scanNumber s).map fun (negative, value, s) =>
    let x := UInt32.ofNat (if value < 2 ^ 32 then value else 2 ^ 32 - 1)
    (if negative && value < 2 ^ 32 then -x else x, s)

/-- The conversion `%d`; a value that is no `int` saturates. -/
def scanInt (s : Bytes) : Option (Int × Bytes) :=
  (scanNumber s).map fun (negative, value, s) =>
    (if negative then max (-2 ^ 31) (-value) else min (2 ^ 31 - 1) value, s)

/-- `snprintf(buf, size, ..)` of a text: the string that is then in `buf`. -/
def snprintf (size : Nat) (text : Bytes) : Bytes := text.take (size - 1)

/-! ## Decimal numbers -/

/-- `digits` is a decimal number of value `n`. -/
structure Number (digits : Bytes) (n : Nat) : Prop where
  ne_nil : digits ≠ []
  isdigit : ∀ b ∈ digits, isdigit b = true
  value_eq : digitsValue digits = n

/-- No digit follows. -/
def Ends (rest : Bytes) : Prop := ∀ b ∈ rest.head?, isdigit b = false

/-! ## What the conversions read -/

theorem Ends.scan {rest : Bytes} (h : Ends rest) :
    rest.takeWhile isdigit = [] ∧ rest.dropWhile isdigit = rest := by
  cases rest with
  | nil => exact ⟨rfl, rfl⟩
  | cons b rest =>
    have hb : ¬isdigit b = true := by
      rw [h b rfl]
      exact Bool.false_ne_true
    exact ⟨List.takeWhile_cons_of_neg hb, List.dropWhile_cons_of_neg hb⟩

/-- A digit is neither a blank nor a sign. -/
theorem isdigit_spec {b : UInt8} (h : isdigit b = true) : isspace b = false ∧ b ≠ 45 ∧ b ≠ 43 := by
  unfold isdigit at h
  unfold isspace
  grind

/-! ## Signed numbers -/

/-- An optional sign. -/
def Sign (sign : Bytes) (negative : Bool) : Prop :=
  sign = [45] ∧ negative = true ∨ (sign = [43] ∨ sign = []) ∧ negative = false

/-- What `%d` and `%u` take for a number: blanks, an optional sign, and a decimal number. -/
structure Signed (text : Bytes) (negative : Bool) (n : Nat) : Prop where
  parts : ∃ blanks sign digits, (∀ b ∈ blanks, isspace b = true) ∧ Sign sign negative ∧
    Number digits n ∧ text = blanks ++ (sign ++ digits)

/-- The number that `%d` reads there: one that is no `int` saturates. -/
def IntText (text : Bytes) (x : Int) : Prop :=
  ∃ negative n, Signed text negative n ∧
    x = if negative then max (-2 ^ 31) (-(n : Int)) else min (2 ^ 31 - 1) (n : Int)

/-- The digits that a conversion reads behind a sign. -/
def scanDigits (negative : Bool) (s : Bytes) : Option (Bool × Nat × Bytes) :=
  match s.takeWhile isdigit with
  | [] => none
  | digits => some (negative, digitsValue digits, s.dropWhile isdigit)

theorem scanNumber_eq (s : Bytes) :
    scanNumber s = match s.dropWhile isspace with
      | 45 :: u => scanDigits true u
      | 43 :: u => scanDigits false u
      | u => scanDigits false u := by
  have hdigits : ∀ p : Bool × Bytes, (match p.2.takeWhile isdigit with
      | [] => none
      | digits => some (p.1, digitsValue digits, p.2.dropWhile isdigit)) = scanDigits p.1 p.2 :=
    fun _ => rfl
  unfold scanNumber
  dsimp only
  rw [hdigits]
  split <;> rfl

theorem scanDigits_number {digits rest : Bytes} {n : Nat} (negative : Bool) (hdigits : Number digits n)
    (hrest : Ends rest) : scanDigits negative (digits ++ rest) = some (negative, n, rest) := by
  have htake : (digits ++ rest).takeWhile isdigit = digits := by
    rw [List.takeWhile_append_of_pos hdigits.isdigit, hrest.scan.1, List.append_nil]
  have hdrop : (digits ++ rest).dropWhile isdigit = rest := by
    rw [List.dropWhile_append_of_pos hdigits.isdigit, hrest.scan.2]
  unfold scanDigits
  rw [htake, hdrop]
  split
  · exact absurd rfl hdigits.ne_nil
  · rw [hdigits.value_eq]

theorem ends_dropWhile (s : Bytes) : Ends (s.dropWhile isdigit) := by
  intro b hb
  have hnot := List.head?_dropWhile_not isdigit s
  rw [hb] at hnot
  simpa using hnot

/-- What is read is a decimal number that no digit follows. -/
theorem scanDigits_some {negative negative' : Bool} {s rest : Bytes} {n : Nat}
    (h : scanDigits negative s = some (negative', n, rest)) :
    negative' = negative ∧ ∃ digits, Number digits n ∧ s = digits ++ rest ∧ Ends rest := by
  unfold scanDigits at h
  split at h
  · cases h
  · next hne =>
    cases h
    refine ⟨rfl, s.takeWhile isdigit, ⟨hne, ?_, rfl⟩, List.takeWhile_append_dropWhile.symm,
      ends_dropWhile s⟩
    intro b hb
    exact List.mem_takeWhile_imp hb

/-- A number that no digit follows is read in full. -/
theorem scanNumber_signed {text rest : Bytes} {negative : Bool} {n : Nat} (h : Signed text negative n)
    (hrest : Ends rest) : scanNumber (text ++ rest) = some (negative, n, rest) := by
  obtain ⟨blanks, sign, digits, hblanks, hsign, hdigits, rfl⟩ := h.parts
  have hskip : ∀ b u, isspace b = false →
      (blanks ++ (b :: u)).dropWhile isspace = b :: u := by
    intro b u hb
    rw [List.dropWhile_append_of_pos hblanks]
    apply List.dropWhile_cons_of_neg
    rw [hb]
    exact Bool.false_ne_true
  rw [scanNumber_eq]
  rcases hsign with ⟨rfl, rfl⟩ | ⟨rfl | rfl, rfl⟩
  · -- a minus
    have hdrop : (blanks ++ ([45] ++ digits) ++ rest).dropWhile isspace = 45 :: (digits ++ rest) := by
      rw [List.append_assoc]
      exact hskip 45 _ (by decide)
    rw [hdrop]
    exact scanDigits_number true hdigits hrest
  · -- a plus
    have hdrop : (blanks ++ ([43] ++ digits) ++ rest).dropWhile isspace = 43 :: (digits ++ rest) := by
      rw [List.append_assoc]
      exact hskip 43 _ (by decide)
    rw [hdrop]
    exact scanDigits_number false hdigits hrest
  · -- no sign: the first digit is none
    obtain ⟨b, ds, rfl⟩ := List.exists_cons_of_ne_nil hdigits.ne_nil
    obtain ⟨hspace, hminus, hplus⟩ := isdigit_spec (hdigits.isdigit b List.mem_cons_self)
    have hdrop : (blanks ++ ([] ++ b :: ds) ++ rest).dropWhile isspace = b :: (ds ++ rest) := by
      rw [List.append_assoc]
      exact hskip b _ hspace
    rw [hdrop]
    have hread := scanDigits_number false hdigits hrest
    rw [List.cons_append] at hread
    split
    · next heq => exact absurd (List.cons.inj heq).1 hminus
    · next heq => exact absurd (List.cons.inj heq).1 hplus
    · exact hread

/-- Nothing else is read for a number. -/
theorem scanNumber_some {s rest : Bytes} {negative : Bool} {n : Nat}
    (h : scanNumber s = some (negative, n, rest)) :
    ∃ text, Signed text negative n ∧ s = text ++ rest ∧ Ends rest := by
  have hblanks : ∀ b ∈ s.takeWhile isspace, isspace b = true := by
    intro b hb
    exact List.mem_takeWhile_imp hb
  have hs : s = s.takeWhile isspace ++ s.dropWhile isspace := List.takeWhile_append_dropWhile.symm
  have hfound : ∀ sign u negative', Sign sign negative' → s.dropWhile isspace = sign ++ u →
      scanDigits negative' u = some (negative, n, rest) →
      ∃ text, Signed text negative n ∧ s = text ++ rest ∧ Ends rest := by
    intro sign u negative' hsign hdrop hscan
    obtain ⟨rfl, digits, hdigits, rfl, hrest⟩ := scanDigits_some hscan
    refine ⟨s.takeWhile isspace ++ (sign ++ digits), ⟨_, _, _, hblanks, hsign, hdigits, rfl⟩, ?_, hrest⟩
    rw [List.append_assoc, List.append_assoc, ← hdrop]
    exact hs
  rw [scanNumber_eq] at h
  split at h
  · next u heq => exact hfound [45] u true (.inl ⟨rfl, rfl⟩) heq h
  · next u heq => exact hfound [43] u false (.inr ⟨.inl rfl, rfl⟩) heq h
  · exact hfound [] _ false (.inr ⟨.inr rfl, rfl⟩) rfl h

theorem scanNumber_digits {digits rest : Bytes} {n : Nat} (hdigits : Number digits n)
    (hrest : Ends rest) : scanNumber (digits ++ rest) = some (false, n, rest) :=
  scanNumber_signed ⟨[], [], digits, nofun, .inr ⟨.inr rfl, rfl⟩, hdigits, rfl⟩ hrest

theorem scanUnsigned_digits {digits rest : Bytes} {b : UInt8} (hdigits : Number digits b.toNat)
    (hrest : Ends rest) : scanUnsigned (digits ++ rest) = some (UInt32.ofNat b.toNat, rest) := by
  have hb : b.toNat < 2 ^ 32 := Nat.lt_trans b.toNat_lt (by decide)
  unfold scanUnsigned
  rw [scanNumber_digits hdigits hrest]
  simp only [Option.map_some, Bool.false_and, if_pos hb]
  rfl

theorem scanInt_digits {digits rest : Bytes} {n : Nat} (hdigits : Number digits n) (hrest : Ends rest)
    (hn : n < 2 ^ 31) : scanInt (digits ++ rest) = some ((n : Int), rest) := by
  unfold scanInt
  rw [scanNumber_digits hdigits hrest]
  have hmin : min (2 ^ 31 - 1) (n : Int) = n := by omega
  simp only [Option.map_some, Bool.false_eq_true, if_false, hmin]

/-- `%d` reads the numbers of its grammar and nothing else. -/
theorem scanInt_iff {s rest : Bytes} {x : Int} :
    scanInt s = some (x, rest) ↔ ∃ text, IntText text x ∧ s = text ++ rest ∧ Ends rest := by
  unfold scanInt
  constructor
  · intro h
    obtain ⟨⟨negative, n, rest'⟩, hscan, heq⟩ := Option.map_eq_some_iff.mp h
    cases heq
    obtain ⟨text, hsigned, hs, hrest⟩ := scanNumber_some hscan
    exact ⟨text, ⟨negative, n, hsigned, rfl⟩, hs, hrest⟩
  · intro h
    obtain ⟨text, ⟨negative, n, hsigned, rfl⟩, rfl, hrest⟩ := h
    rw [scanNumber_signed hsigned hrest]
    rfl

/-! ## What `%d` prints -/

theorem digit_byte {c : Char} (h : c.isDigit = true) :
    isdigit (UInt8.ofNat c.toNat) = true ∧ (UInt8.ofNat c.toNat).toNat = c.toNat := by
  have hrange : 48 ≤ c.toNat ∧ c.toNat ≤ 57 := by
    unfold Char.isDigit at h
    simp only [Bool.and_eq_true, decide_eq_true_eq] at h
    exact ⟨h.1, h.2⟩
  have hnat : (UInt8.ofNat c.toNat).toNat = c.toNat := by
    rw [UInt8.toNat_ofNat']
    omega
  refine ⟨?_, hnat⟩
  unfold isdigit
  simp only [Bool.and_eq_true, decide_eq_true_eq, UInt8.le_iff_toNat_le, hnat]
  exact hrange

theorem digitsValue_map {cs : List Char} (h : ∀ c ∈ cs, c.isDigit = true) :
    digitsValue (cs.map fun c => UInt8.ofNat c.toNat) = Nat.ofDigitChars 10 cs 0 := by
  unfold digitsValue Nat.ofDigitChars
  rw [List.foldl_map]
  apply List.foldl_ext
  intro v c hc
  rw [(digit_byte (h c hc)).2]
  rfl

/-- What `%d` prints is a decimal number. -/
theorem decimal_number (n : Nat) : Number (decimal n) n := by
  have hdigits : ∀ c ∈ Nat.toDigits 10 n, c.isDigit = true := fun c hc =>
    Nat.isDigit_of_mem_toDigits (by decide) (by decide) hc
  refine ⟨?_, fun b hb => ?_, ?_⟩
  · unfold decimal
    simp [Nat.toDigits_ne_nil]
  · obtain ⟨c, hc, rfl⟩ := List.mem_map.mp hb
    exact (digit_byte (hdigits c hc)).1
  · unfold decimal
    rw [digitsValue_map hdigits, Nat.ofDigitChars_ten_toDigits]

theorem decimal_byte (b : UInt8) : (decimal b.toNat).length ≤ 3 ∧ (0 : UInt8) ∉ decimal b.toNat := by
  have hall : ∀ k : Fin 256, (decimal k.1).length ≤ 3 ∧ (0 : UInt8) ∉ decimal k.1 := by decide +kernel
  exact hall ⟨b.toNat, b.toNat_lt⟩

/-! ## Lines -/

section

variable {α : Type} [DecidableEq α] (d : α)

/-- The lines of a text: the pieces between the delimiters, less an empty piece behind the last. -/
def linesOf (s : List α) : List (List α) :=
  if (s.splitOn d).getLast? = some [] then (s.splitOn d).dropLast else s.splitOn d

@[simp] theorem linesOf_nil : linesOf d [] = [] := by simp [linesOf]

/-- A last line that no delimiter ends. -/
theorem linesOf_unended {l : List α} (h : d ∉ l) (hne : l ≠ []) : linesOf d l = [l] := by
  unfold linesOf
  rw [List.splitOn_eq_singleton h, if_neg]
  simpa using hne

theorem linesOf_ended {l : List α} (h : d ∉ l) (s : List α) :
    linesOf d (l ++ d :: s) = l :: linesOf d s := by
  have hpieces := List.splitOn_ne_nil d s
  have hlast : (l :: s.splitOn d).getLast? = (s.splitOn d).getLast? := by
    rw [List.getLast?_cons, List.getLast?_eq_some_getLast hpieces]
    rfl
  unfold linesOf
  rw [List.splitOn_append_cons_self_of_not_mem h, hlast, List.dropLast_cons_of_ne_nil hpieces]
  split <;> rfl

/-- Induction over the lines of a text. -/
theorem lines_induction {P : List α → Prop} (nil : P [])
    (unended : ∀ l, d ∉ l → l ≠ [] → P l) (ended : ∀ l s, d ∉ l → P s → P (l ++ d :: s))
    (s : List α) : P s := by
  induction hn : s.length using Nat.strong_induction_on generalizing s with
  | _ n ih =>
    by_cases hd : d ∈ s
    · obtain ⟨l, t, rfl, hl⟩ := List.eq_append_cons_of_mem hd
      have hlt : t.length < n := by
        rw [← hn, List.length_append, List.length_cons]
        omega
      exact ended l t hl (ih t.length hlt t rfl)
    · by_cases hs : s = []
      · rw [hs]
        exact nil
      · exact unended s hd hs

theorem linesOf_eq_nil {s : List α} : linesOf d s = [] ↔ s = [] := by
  induction s using lines_induction d with
  | nil => simp
  | unended l hl hne => simp [linesOf_unended d hl hne, hne]
  | ended l s hl ih => simp [linesOf_ended d hl]

/-- The lines, joined by the delimiter, are the text up to a delimiter at its end. -/
theorem linesOf_joined (s : List α) :
    [d].intercalate (linesOf d s) = s ∨ [d].intercalate (linesOf d s) ++ [d] = s := by
  induction s using lines_induction d with
  | nil => exact .inl (by simp)
  | unended l hl hne =>
    rw [linesOf_unended d hl hne]
    exact .inl List.intercalate_singleton
  | ended l s hl ih =>
    rw [linesOf_ended d hl]
    by_cases hs : s = []
    · rw [hs, linesOf_nil, List.intercalate_singleton]
      exact .inr rfl
    · have hcons : [d].intercalate (l :: linesOf d s) = l ++ d :: [d].intercalate (linesOf d s) := by
        rw [List.intercalate_cons_of_ne_nil (mt (linesOf_eq_nil d).mp hs), List.append_assoc,
          List.singleton_append]
      cases ih with
      | inl ih => exact .inl (by rw [hcons, ih])
      | inr ih => exact .inr (by rw [hcons, List.append_assoc, List.cons_append, ih])

/-- Lines that are each ended are the lines of the text that they make. -/
theorem linesOf_flatMap {ls : List (List α)} (h : ∀ l ∈ ls, d ∉ l) :
    linesOf d (ls.flatMap fun l => l ++ [d]) = ls := by
  induction ls with
  | nil => exact linesOf_nil d
  | cons l ls ih =>
    have hl : d ∉ l := h l List.mem_cons_self
    have hls : ∀ l' ∈ ls, d ∉ l' := fun l' hl' => h l' (List.mem_cons_of_mem l hl')
    rw [List.flatMap_cons, List.append_assoc, List.singleton_append, linesOf_ended d hl, ih hls]

end

end Mem
