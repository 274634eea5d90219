/-!
Vectors given by a function of the position. They are built from a list, so that looking up one
entry of a closed vector does not compute the others.
-/

namespace Chip8

/-- The vector whose entry at each position is the value of a function there. -/
def tabulate {α : Type} {n : Nat} (entry : Fin n → α) : Vector α n :=
  ⟨⟨List.ofFn entry⟩, by simp⟩

@[simp] theorem getElem_tabulate {α : Type} {n : Nat} (entry : Fin n → α) (position : Nat)
    (h : position < n)
    : (tabulate entry)[position] = entry ⟨position, h⟩ := by
  simp [tabulate]

/-- The vector with another entry at a position. -/
def replaceAt {α : Type} {n : Nat} (entries : Vector α n) (position : Fin n) (entry : α)
    : Vector α n :=
  entries.set position entry

end Chip8
