/- digest: Deterministic partial machines read event logs; invariants follow accepted logs. -/

import Mathlib.Data.List.Induction

namespace Webos.Lib.Monitor

variable {S E : Type}

/-- Read a log from a state; `none` when some event is not allowed where it stands. -/
def accepts (step : S → E → Option S) (s : S) (log : List E) : Option S :=
  log.foldlM step s

variable {step : S → E → Option S}

variable {s u : S}

theorem accepts_append {t : S} {a b : List E} (first : accepts step s a = some t)
    (second : accepts step t b = some u) : accepts step s (a ++ b) = some u := by
  simp only [accepts, List.foldlM_append] at *
  rw [first]
  exact second

theorem accepts_split {a b : List E} (whole : accepts step s (a ++ b) = some u) :
    ∃ t, accepts step s a = some t ∧ accepts step t b = some u := by
  simp only [accepts, List.foldlM_append] at *
  cases part : List.foldlM step s a with
  | none => rw [part] at whole; cases whole
  | some t => rw [part] at whole; exact ⟨t, rfl, whole⟩

theorem accepts_cons {e : E} {log : List E} (whole : accepts step s (e :: log) = some u) :
    ∃ t, step s e = some t ∧ accepts step t log = some u := by
  obtain ⟨t, head, tail⟩ := accepts_split (a := [e]) (b := log) whole
  refine ⟨t, ?_, tail⟩
  simpa [accepts] using head

theorem accepts_one {t : S} {e : E} (allowed : step s e = some t) :
    accepts step s [e] = some t := by
  simpa [accepts] using allowed

/-- A relation between the log read so far and the machine's state holds along every
accepted log once each allowed event keeps it. -/
theorem accepts_invariant (P : List E → S → Prop) (start : P [] s)
    (keep : ∀ log t e u, P log t → step t e = some u → P (log ++ [e]) u) {log : List E}
    (run : accepts step s log = some u) : P log u := by
  induction log using List.reverseRecOn generalizing u with
  | nil =>
    cases run
    exact start
  | append_singleton log e ih =>
    obtain ⟨t, before, last⟩ := accepts_split run
    obtain ⟨v, allowed, rest⟩ := accepts_cons last
    cases rest
    exact keep log t e u (ih before) allowed

end Webos.Lib.Monitor
