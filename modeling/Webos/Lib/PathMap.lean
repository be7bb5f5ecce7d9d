/- digest: Maps from paths whose directories are the prefixes of what is bound or held. -/

import Mathlib.Data.List.Infix
import Mathlib.Data.Set.Finite.Basic
import Mathlib.Data.Set.Finite.Range

namespace Webos.Lib

/-- Values bound to paths, and the directories that are held although nothing may be below. -/
structure PathMap (K V : Type) where
  file : List K → Option V
  held : List K → Prop

namespace PathMap

variable {K V : Type} (m : PathMap K V)

/-- The directories: the root, what leads to a bound path, and what leads to a held one. -/
def IsDir (p : List K) : Prop :=
  p = [] ∨ (∃ q, m.file q ≠ none ∧ p <+: q ∧ p ≠ q) ∨ ∃ d, m.held d ∧ p <+: d

/-- Finitely many paths are bound, and none of them is a directory: no bound path leads to another
one, or to a held one. -/
structure PrefixFree : Prop where
  finite : {p | m.file p ≠ none}.Finite
  apart : ∀ p, m.file p ≠ none → ¬m.IsDir p

open Classical in
noncomputable def missing (p : List K) : Nat := p.inits.countP fun q => ¬m.IsDir q

variable {m}

theorem IsDir.above {p q : List K} (dir : m.IsDir p) (front : q <+: p) : m.IsDir q := by
  rcases dir with rfl | ⟨r, bound, below, proper⟩ | ⟨d, held, below⟩
  · exact Or.inl (List.prefix_nil.mp front)
  · refine Or.inr (Or.inl ⟨r, bound, front.trans below, ?_⟩)
    rintro rfl
    exact proper (below.eq_of_length (le_antisymm below.length_le front.length_le))
  · exact Or.inr (Or.inr ⟨d, held, front.trans below⟩)

end PathMap

end Webos.Lib
