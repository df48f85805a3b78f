import BaseUtilities.Effects.Total

/-!
# Dialogues

A server answers requests one after another, each by a program that changes its state.  An abstract server is a
relation between a state, a request, a reply and a next state; `Converses` is what it may reply to a list of
requests.  A server whose every reply is one of the abstract server refines it over all lists of requests.
-/

namespace Effects

variable {Op Q R S M W : Type} {Res : Op → Type}

/-- Requests, answered one after another. -/
def serveAll (serve : Q → S → Prog Op Res (R × S)) : List Q → S → Prog Op Res (List R × S)
  | [], s => return ([], s)
  | q :: qs, s => do
    let (r, s) ← serve q s
    let (rs, s) ← serveAll serve qs s
    return (r :: rs, s)

/-- What an abstract server may reply to requests, and the state that it is in then. -/
inductive Converses (answers : M → Q → R → M → Prop) : M → List Q → List R → M → Prop where
  | nil {m} : Converses answers m [] [] m
  | cons {m m₁ m₂ q qs r rs} : answers m q r m₁ → Converses answers m₁ qs rs m₂ →
      Converses answers m (q :: qs) (r :: rs) m₂

/-- What the server keeps between its state and the abstract one it keeps over all requests. -/
theorem Total.serveAll {E : Env Op Res W} {ok : Stop Op → W → Prop} {serve : Q → S → Prog Op Res (R × S)}
    {answers : M → Q → R → M → Prop} {may : Q → Prop} (I : M → S → W → Prop)
    (hserve : ∀ q m s w, may q → I m s w →
      Total E ok (serve q s) (fun r w' => ∃ m', answers m q r.1 m' ∧ I m' r.2 w') w)
    {qs : List Q} {m : M} {s : S} {w : W} (hmay : ∀ q ∈ qs, may q) (h : I m s w) :
    Total E ok (Effects.serveAll serve qs s) (fun r w' => ∃ m', Converses answers m qs r.1 m' ∧ I m' r.2 w') w := by
  induction qs generalizing m s w with
  | nil => exact Total.ret ⟨m, .nil, h⟩
  | cons q qs ih =>
    refine (hserve q m s w (hmay q List.mem_cons_self) h).bind ?_
    rintro ⟨r, s₁⟩ w₁ ⟨m₁, hanswer, hI⟩
    refine (ih (fun q' hq' => hmay q' (List.mem_cons_of_mem _ hq')) hI).bind ?_
    rintro ⟨rs, s₂⟩ w₂ ⟨m₂, hrest, hI₂⟩
    exact Total.ret ⟨m₂, .cons hanswer hrest, hI₂⟩

end Effects
