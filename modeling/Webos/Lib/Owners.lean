/- digest: A table of records, each held by at most one live owner, and every live owner by one. -/

import Mathlib.Logic.Function.Basic

namespace Webos.Lib.Owners

variable {ι S : Type} {owner : ι → Option S} {live live' : S → Prop}

structure Matched (owner : ι → Option S) (live : S → Prop) : Prop where
  sound : ∀ i s, owner i = some s → live s
  unique : ∀ i j s, owner i = some s → owner j = some s → i = j
  complete : ∀ s, live s → ∃ i, owner i = some s

theorem Matched.empty (free : ∀ i, owner i = none) (dead : ∀ s, ¬ live s) : Matched owner live :=
  ⟨fun i _ held => (nomatch (free i).symm.trans held),
    fun i _ _ held _ => (nomatch (free i).symm.trans held), fun s alive => absurd alive (dead s)⟩

theorem Matched.absent (matched : Matched owner live) {s : S} (dead : ¬ live s) (i : ι) :
    owner i ≠ some s :=
  fun held => dead (matched.sound i s held)

theorem Matched.congr (matched : Matched owner live) (same : ∀ s, live' s ↔ live s) :
    Matched owner live' :=
  ⟨fun i s held => (same s).mpr (matched.sound i s held), matched.unique,
    fun s alive => matched.complete s ((same s).mp alive)⟩

section Update

variable [DecidableEq ι]

private theorem held_cases {o : Option S} {i j : ι} {t : S}
    (held : Function.update owner i o j = some t) :
    j = i ∧ o = some t ∨ j ≠ i ∧ owner j = some t := by
  by_cases here : j = i
  · rw [here, Function.update_self] at held
    exact .inl ⟨here, held⟩
  · rw [Function.update_of_ne here] at held
    exact .inr ⟨here, held⟩

theorem Matched.claim (matched : Matched owner live) {i : ι} {s : S} (free : owner i = none)
    (fresh : ¬ live s) (grown : ∀ t, live' t ↔ t = s ∨ live t) :
    Matched (Function.update owner i (some s)) live' := by
  refine ⟨fun j t held => ?_, fun j k t first second => ?_, fun t alive => ?_⟩
  · rcases held_cases held with ⟨-, ⟨⟩⟩ | ⟨-, old⟩
    · exact (grown _).mpr (.inl rfl)
    · exact (grown t).mpr (.inr (matched.sound j t old))
  · rcases held_cases first with ⟨rfl, ⟨⟩⟩ | ⟨-, old⟩
    · rcases held_cases second with ⟨rfl, -⟩ | ⟨-, old⟩
      · rfl
      · exact absurd old (matched.absent fresh k)
    · rcases held_cases second with ⟨-, ⟨⟩⟩ | ⟨-, old'⟩
      · exact absurd old (matched.absent fresh j)
      · exact matched.unique j k t old old'
  · rcases (grown t).mp alive with rfl | old
    · exact ⟨i, Function.update_self i _ _⟩
    · obtain ⟨j, held⟩ := matched.complete t old
      refine ⟨j, ?_⟩
      rw [Function.update_of_ne]
      · exact held
      · rintro rfl
        exact nomatch free.symm.trans held

theorem Matched.free (matched : Matched owner live) {i : ι} {s : S} (held : owner i = some s)
    (shrunk : ∀ t, live' t ↔ live t ∧ t ≠ s) : Matched (Function.update owner i none) live' := by
  have elsewhere {j : ι} {t : S} (stays : Function.update owner i none j = some t) :
      j ≠ i ∧ owner j = some t := (held_cases stays).resolve_left fun gone => nomatch gone.2
  refine ⟨fun j t stays => ?_, fun j k t first second => ?_, fun t alive => ?_⟩
  · obtain ⟨other, old⟩ := elsewhere stays
    refine (shrunk t).mpr ⟨matched.sound j t old, ?_⟩
    rintro rfl
    exact other (matched.unique j i t old held)
  · exact matched.unique j k t (elsewhere first).2 (elsewhere second).2
  · obtain ⟨old, other⟩ := (shrunk t).mp alive
    obtain ⟨j, stays⟩ := matched.complete t old
    refine ⟨j, ?_⟩
    rw [Function.update_of_ne]
    · exact stays
    · rintro rfl
      exact other (Option.some.inj (stays.symm.trans held))

end Update

end Webos.Lib.Owners
