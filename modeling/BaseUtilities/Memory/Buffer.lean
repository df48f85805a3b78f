import Mathlib.Data.List.Basic

/-!
# Byte arrays of a fixed size

A C array of `n` bytes.  Loads and stores outside the array have no value; the string functions of
the C library that write to an array are total where they cannot leave it.
-/

namespace Mem

abbrev Bytes := List UInt8

/-- The bytes of a string of ASCII characters. -/
def ascii (s : String) : Bytes := s.toList.map fun c => UInt8.ofNat c.toNat

def CR : UInt8 := 13
def LF : UInt8 := 10

structure Buffer (n : Nat) where
  bytes : Bytes
  size_eq : bytes.length = n
  deriving DecidableEq

namespace Buffer

variable {n : Nat}

instance : Repr (Buffer n) := ⟨fun b prec => reprPrec b.bytes prec⟩

/-- An array of zero bytes, as `calloc` returns it. -/
def zeroed (n : Nat) : Buffer n := ⟨List.replicate n 0, List.length_replicate⟩

@[ext] theorem ext {b c : Buffer n} (h : b.bytes = c.bytes) : b = c := by
  cases b; cases c; cases h; rfl

/-- The array of these bytes, where there are `n` of them. -/
def ofBytes? (n : Nat) (bytes : Bytes) : Option (Buffer n) :=
  if h : bytes.length = n then some ⟨bytes, h⟩ else none

def load? (b : Buffer n) (off len : Nat) : Option Bytes :=
  if off + len ≤ n then some ((b.bytes.drop off).take len) else none

def store? (b : Buffer n) (off : Nat) (src : Bytes) : Option (Buffer n) :=
  if h : off + src.length ≤ n then
    some ⟨b.bytes.take off ++ src ++ b.bytes.drop (off + src.length), by
      have := b.size_eq
      simp only [List.length_append, List.length_take, List.length_drop]
      omega⟩
  else none

/-- The first byte of an array of at least one byte. -/
def first (b : Buffer n) : UInt8 := b.bytes.headD 0

/-- The C string at the start of the array, when it is terminated within the array. -/
def cstr? (b : Buffer n) : Option Bytes :=
  if 0 ∈ b.bytes then some (b.bytes.takeWhile (· ≠ 0)) else none

/-- `strncpy(b, src, n)`: zeros fill the array behind a shorter string. -/
def strncpy (_ : Buffer n) (src : Bytes) : Buffer n :=
  ⟨(src ++ List.replicate n 0).take n, by
    simp only [List.length_take, List.length_append, List.length_replicate]
    omega⟩

/-- `strcpy(b, src)`, and `sprintf` with that result: the string and its terminator. -/
def strcpy? (b : Buffer n) (src : Bytes) : Option (Buffer n) := b.store? 0 (src ++ [0])

/-! ## Overlays: an array after a write at its start -/

/-- The array with `src` written over its first bytes. -/
def overlay (b : Buffer n) (src : Bytes) : Buffer n :=
  ⟨(src ++ b.bytes.drop src.length).take n, by
    have := b.size_eq
    simp only [List.length_take, List.length_append, List.length_drop]
    omega⟩

theorem overlay_bytes {b : Buffer n} {src : Bytes} (h : src.length ≤ n) :
    (b.overlay src).bytes = src ++ b.bytes.drop src.length := by
  have := b.size_eq
  exact List.take_of_length_le (by simp only [List.length_append, List.length_drop]; omega)

/-- An overlay changes nothing exactly where its bytes are those of the array. -/
theorem overlay_eq_self (b : Buffer n) {src : Bytes} (h : src.length ≤ n) :
    b.overlay src = b ↔ src <+: b.bytes := by
  constructor
  · intro heq
    have hbytes := overlay_bytes (b := b) h
    rw [heq] at hbytes
    exact ⟨b.bytes.drop src.length, hbytes.symm⟩
  · rintro ⟨tail, htail⟩
    apply ext
    rw [overlay_bytes h, ← htail, List.drop_left]

/-- What an overlay gives does not depend on the array exactly where it covers all of it. -/
theorem overlay_forall {src : Bytes} (h : src.length ≤ n) (v : Buffer n) :
    (∀ b : Buffer n, b.overlay src = v) ↔ src = v.bytes := by
  constructor
  · intro hall
    have hdrop : ∀ b : Buffer n, src ++ b.bytes.drop src.length = v.bytes := fun b => by
      rw [← overlay_bytes h, hall b]
    -- Two arrays without a byte in common agree behind `src`, so nothing is behind it.
    have hzero := hdrop ⟨List.replicate n 0, List.length_replicate⟩
    have hone := hdrop ⟨List.replicate n 1, List.length_replicate⟩
    have heq := List.append_cancel_left (hzero.trans hone.symm)
    rw [List.drop_replicate, List.drop_replicate, List.replicate_inj] at heq
    have hlen : n - src.length = 0 := heq.2.resolve_right (by decide)
    rw [List.drop_replicate, hlen, List.replicate_zero, List.append_nil] at hzero
    exact hzero
  · rintro rfl b
    apply ext
    rw [overlay_bytes h, v.size_eq, List.drop_of_length_le (Nat.le_of_eq b.size_eq), List.append_nil]

theorem ofBytes?_bytes (b : Buffer n) : ofBytes? n b.bytes = some b := dif_pos b.size_eq

theorem store?_eq_some (b : Buffer n) (off : Nat) (src : Bytes) (h : off + src.length ≤ n) :
    ∃ c, b.store? off src = some c ∧
      c.bytes = b.bytes.take off ++ src ++ b.bytes.drop (off + src.length) := by
  rw [store?, dif_pos h]
  exact ⟨_, rfl, rfl⟩

theorem store?_eq_none {b : Buffer n} {off : Nat} {src : Bytes} (h : n < off + src.length) :
    b.store? off src = none :=
  dif_neg (by omega)

theorem load?_eq_some {b : Buffer n} {off len : Nat} (h : off + len ≤ n) :
    b.load? off len = some ((b.bytes.drop off).take len) :=
  if_pos h

theorem load?_length_le {b : Buffer n} {off len : Nat} {u : Bytes} (h : b.load? off len = some u) :
    u.length ≤ len := by
  unfold load? at h
  split at h
  · rw [← Option.some.inj h]
    exact List.length_take_le _ _
  · cases h

theorem load?_drop {b : Buffer n} {off len k : Nat} {u : Bytes} (h : b.load? off len = some u)
    (hk : k ≤ len) :
    b.load? off k = some (u.take k) ∧ b.load? (off + k) (len - k) = some (u.drop k) := by
  have hle : off + len ≤ n := by
    by_contra hn
    simp [load?, hn] at h
  rw [load?_eq_some hle] at h
  obtain rfl := Option.some.inj h
  constructor
  · rw [load?_eq_some (by omega), List.take_take, Nat.min_eq_left hk]
  · rw [load?_eq_some (by omega), List.drop_take, List.drop_drop]

theorem store?_zero (b : Buffer n) {src : Bytes} (h : src.length ≤ n) :
    b.store? 0 src = some (b.overlay src) := by
  obtain ⟨c, hc, hbytes⟩ := b.store?_eq_some 0 src (by omega)
  rw [hc]
  congr 1
  apply Buffer.ext
  rw [hbytes, overlay_bytes h, List.take_zero, List.nil_append, Nat.zero_add]

/-- A write at the end of what an overlay has written, possibly over its last bytes. -/
theorem overlay_store? (b : Buffer n) (pre old src : Bytes) (hold : old.length ≤ src.length)
    (h : pre.length + src.length ≤ n) :
    (b.overlay (pre ++ old)).store? pre.length src = some (b.overlay (pre ++ src)) := by
  have hle : (pre ++ old).length ≤ n := by rw [List.length_append]; omega
  have hle' : (pre ++ src).length ≤ n := by rw [List.length_append]; omega
  obtain ⟨c, hc, hbytes⟩ :=
    (b.overlay (pre ++ old)).store?_eq_some pre.length src (by omega)
  rw [hc]
  congr 1
  apply Buffer.ext
  rw [hbytes, overlay_bytes hle, overlay_bytes hle', List.append_assoc pre old,
    List.take_left' rfl, List.drop_append, List.drop_of_length_le (by omega : pre.length ≤ _),
    List.nil_append, Nat.add_sub_cancel_left, List.drop_append,
    List.drop_of_length_le hold, List.nil_append, List.drop_drop]
  congr 2
  simp only [List.length_append]
  omega

/-- A write inside what an overlay has written. -/
theorem overlay_patch (b : Buffer n) (pre old src post : Bytes) (hold : old.length = src.length)
    (h : pre.length + src.length + post.length ≤ n) :
    (b.overlay (pre ++ old ++ post)).store? pre.length src =
      some (b.overlay (pre ++ src ++ post)) := by
  have hle : (pre ++ old ++ post).length ≤ n := by simp only [List.length_append]; omega
  have hle' : (pre ++ src ++ post).length ≤ n := by simp only [List.length_append]; omega
  obtain ⟨c, hc, hbytes⟩ :=
    (b.overlay (pre ++ old ++ post)).store?_eq_some pre.length src (by omega)
  rw [hc]
  congr 1
  apply Buffer.ext
  have hlen : (pre ++ old).length = pre.length + src.length := by
    rw [List.length_append, hold]
  rw [hbytes, overlay_bytes hle, overlay_bytes hle', ← hlen, List.append_assoc (pre ++ old),
    List.drop_left' rfl, List.append_assoc pre old, List.take_left' rfl]
  simp only [List.append_assoc, List.length_append, hold]

/-- Bytes that an overlay has written are read back. -/
theorem overlay_load? (b : Buffer n) (pre mid post : Bytes)
    (h : pre.length + mid.length + post.length ≤ n) :
    (b.overlay (pre ++ mid ++ post)).load? pre.length mid.length = some mid := by
  rw [load?_eq_some (by omega), overlay_bytes (by simp only [List.length_append]; omega),
    List.append_assoc, List.append_assoc, List.drop_left' rfl, List.take_left' rfl]

theorem take_length (b : Buffer n) {k : Nat} (h : k ≤ n) : (b.bytes.take k).length = k := by
  rw [List.length_take, b.size_eq, Nat.min_eq_left h]

theorem take_all (b : Buffer n) : b.bytes.take n = b.bytes :=
  List.take_of_length_le (Nat.le_of_eq b.size_eq)

theorem overlay_take (b : Buffer n) (src : Bytes) (h : src.length ≤ n) :
    (b.overlay src).bytes.take src.length = src := by
  rw [overlay_bytes h, List.take_left' rfl]

/-- A string that an overlay has written is read back. -/
theorem overlay_cstr? (b : Buffer n) {text rest : Bytes} (hzero : (0 : UInt8) ∉ text)
    (h : (text ++ 0 :: rest).length ≤ n) : (b.overlay (text ++ 0 :: rest)).cstr? = some text := by
  have hall : ∀ c ∈ text, decide (c ≠ 0) = true := by
    intro c hc
    rw [decide_eq_true_iff]
    intro hnul
    exact hzero (hnul ▸ hc)
  have hmem : (0 : UInt8) ∈ text ++ 0 :: rest ++ b.bytes.drop (text ++ 0 :: rest).length := by simp
  rw [cstr?, overlay_bytes h, if_pos hmem, List.append_assoc, List.takeWhile_append_of_pos hall,
    List.cons_append, List.takeWhile_cons_of_neg (by decide), List.append_nil]

theorem strncpy_first (b : Buffer (n + 1)) (src : Bytes) : (b.strncpy src).first = src.headD 0 := by
  cases src <;> rfl

theorem strcpy?_first {b b' : Buffer n} {c : UInt8} {src : Bytes} (h : b.strcpy? (c :: src) = some b') :
    b'.first = c := by
  rw [strcpy?, store?] at h
  split at h
  · cases h
    rfl
  · cases h

end Buffer

end Mem
