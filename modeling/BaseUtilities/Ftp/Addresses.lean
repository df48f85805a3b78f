import BaseUtilities.Ftp.Data

/-!
# Addresses as text

What the reply to `PASV` says, as a grammar of its text: behind the first `(` six decimal numbers with
commas between them.  `sscanf` reads from such a text the address that it names, and the numbers of a
`PORT` command are such a text.
-/

open Effects Mem

namespace Ftp

/-- `sin_port` in network byte order, and the four bytes of `sin_addr`. -/
def sockAddr (port : UInt16) (addr : Vector UInt8 4) : SockAddr :=
  #v[(port / 256).toUInt8, port.toUInt8, addr[0], addr[1], addr[2], addr[3]]

/-! ## The grammar -/

/-- `Fields s ns`: `s` begins with decimal numbers of the values `ns`, with commas between them. -/
inductive Fields : Bytes → List Nat → Prop where
  | last {digits rest : Bytes} {n : Nat} (hdigits : Number digits n) (hrest : Ends rest) :
      Fields (digits ++ rest) [n]
  | more {digits rest : Bytes} {n : Nat} {ns : List Nat} (hdigits : Number digits n)
      (hrest : Fields rest ns) : Fields (digits ++ 44 :: rest) (n :: ns)

/-- The text names an address and a port: its first `(` is followed by the four numbers of the address
and two of the port, each in a byte. -/
def Names (text : Bytes) (addr : Vector UInt8 4) (port : UInt16) : Prop :=
  ∃ cp, strchr 40 text = some (40 :: cp) ∧ ∃ p₁ p₂ : UInt8, port.toNat = 256 * p₁.toNat + p₂.toNat ∧
    Fields cp [addr[0].toNat, addr[1].toNat, addr[2].toNat, addr[3].toNat, p₁.toNat, p₂.toNat]

/-! ## What `sscanf` makes of them -/

/-- The order that `openPort` fills its array in leaves no element as it was. -/
theorem set_fields (v : Vector UInt32 6) (a₀ a₁ a₂ a₃ p₁ p₂ : UInt32) :
    (((((v.set 2 a₀ (by decide)).set 3 a₁ (by decide)).set 4 a₂ (by decide)).set 5 a₃ (by decide)).set 0 p₁
      (by decide)).set 1 p₂ (by decide) = #v[p₁, p₂, a₀, a₁, a₂, a₃] := by
  apply Vector.ext
  intro i hi
  have hcases : i = 0 ∨ i = 1 ∨ i = 2 ∨ i = 3 ∨ i = 4 ∨ i = 5 := by omega
  simp only [Vector.getElem_set]
  obtain rfl | rfl | rfl | rfl | rfl | rfl := hcases
  · rfl
  · rfl
  · rfl
  · rfl
  · rfl
  · rfl

/-- The six numbers of a text are what `openPort` reads from it, whatever its array held. -/
theorem scanFields_fields {cp : Bytes} {addr : Vector UInt8 4} {p₁ p₂ : UInt8}
    (h : Fields cp [addr[0].toNat, addr[1].toNat, addr[2].toNat, addr[3].toNat, p₁.toNat, p₂.toNat])
    (v : Vector UInt32 6) :
    (scanFields [2, 3, 4, 5, 0, 1] cp v).map UInt32.toUInt8 =
      #v[p₁, p₂, addr[0], addr[1], addr[2], addr[3]] := by
  cases h with
  | more h₀ h =>
  cases h with
  | more h₁ h =>
  cases h with
  | more h₂ h =>
  cases h with
  | more h₃ h =>
  cases h with
  | more h₄ h =>
  cases h with
  | more _ h => cases h
  | last h₅ hrest =>
    have hnarrow (b : UInt8) : (UInt32.ofNat b.toNat).toUInt8 = b := by simp
    rw [scanFields_more h₀, scanFields_more h₁, scanFields_more h₂, scanFields_more h₃,
      scanFields_more h₄, scanFields_last h₅ hrest]
    refine (congrArg (Vector.map _) (set_fields v _ _ _ _ _ _)).trans ?_
    simp only [Vector.map_mk, List.map_toArray, List.map_cons, List.map_nil, hnarrow]

theorem sockAddr_eq {addr : Vector UInt8 4} {port : UInt16} {p₁ p₂ : UInt8}
    (h : port.toNat = 256 * p₁.toNat + p₂.toNat) :
    sockAddr port addr = #v[p₁, p₂, addr[0], addr[1], addr[2], addr[3]] := by
  have h₁ : (port / 256).toUInt8 = p₁ := by
    apply UInt8.toNat_inj.mp
    simp
    have := p₁.toNat_lt
    have := p₂.toNat_lt
    omega
  have h₂ : port.toUInt8 = p₂ := by
    apply UInt8.toNat_inj.mp
    simp
    have := p₂.toNat_lt
    omega
  rw [sockAddr, h₁, h₂]

theorem Names.scanned {text cp : Bytes} {addr : Vector UInt8 4} {port : UInt16} (h : Names text addr port)
    (hcp : strchr 40 text = some cp) (v : Vector UInt32 6) :
    (scanFields [2, 3, 4, 5, 0, 1] (cp.drop 1) v).map UInt32.toUInt8 = sockAddr port addr := by
  obtain ⟨cp', htext, p₁, p₂, hport, hfields⟩ := h
  obtain rfl : 40 :: cp' = cp := Option.some.inj (htext.symm.trans hcp)
  rw [sockAddr_eq hport]
  exact scanFields_fields hfields v

/-! ## What `PORT` prints -/

/-- A comma. -/
abbrev comma : UInt8 := 44

/-- The numbers of a `PORT` command, in parentheses or at the end of a text, name its address. -/
theorem names_portCommand (addr : Vector UInt8 4) (port : UInt16) {rest : Bytes} (hrest : Ends rest) :
    Names (40 :: (portCommand (sockAddr port addr)).drop 5 ++ rest) addr port := by
  refine ⟨_, rfl, (port / 256).toUInt8, port.toUInt8, ?_, ?_⟩
  · have hlt := port.toNat_lt
    simp
    omega
  · have hdrop : (portCommand (sockAddr port addr)).drop 5 ++ rest =
        decimal addr[0].toNat ++ comma :: (decimal addr[1].toNat ++ comma :: (decimal addr[2].toNat ++
          comma :: (decimal addr[3].toNat ++ comma :: (decimal (port / 256).toUInt8.toNat ++
            comma :: (decimal port.toUInt8.toNat ++ rest))))) := by
      simp [portCommand, sockAddr, ascii, comma]
    show Fields ((portCommand (sockAddr port addr)).drop 5 ++ rest) _
    rw [hdrop]
    exact .more (decimal_number _) (.more (decimal_number _) (.more (decimal_number _)
      (.more (decimal_number _) (.more (decimal_number _) (.last (decimal_number _) hrest)))))

end Ftp
