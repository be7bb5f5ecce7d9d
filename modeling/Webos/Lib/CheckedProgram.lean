/- digest: Routines with steps that may be undefined, and when one does what a total one does. -/

import Webos.Lib.Program

namespace Webos.Lib.Program

variable {C : Type} {R : C → Type} {α β δ σ : Type}

/-- A routine whose steps may be undefined. From the first such step on it has no result. -/
def Attempt (σ C : Type) (R : C → Type) (α : Type) : Type := σ → Prog C R (Option (α × σ))

instance attemptMonad : Monad (Attempt σ C R) where
  pure a := fun s => .done (some (a, s))
  bind m f := fun s => (m s).bind fun x => x.elim (.done none) fun y => f y.1 y.2

def Attempt.read : Attempt σ C R σ := fun s => .done (some (s, s))

def Attempt.update (f : σ → Option σ) : Attempt σ C R Unit :=
  fun s => .done ((f s).map fun t => ((), t))

def Attempt.of (x : Option α) : Attempt σ C R α := fun s => .done (x.map fun a => (a, s))

def Routine.whole (m : Routine σ C R α) : Attempt σ C R α :=
  fun s => (m s).bind fun out => .done (some out)

private theorem Prog.Meets.bind_congr {P : C → Prop} {Q : α → Prop} {p : Prog C R α}
    {f g : α → Prog C R β} (meets : p.Meets P Q) (same : ∀ a, Q a → f a = g a) :
    p.bind f = p.bind g := by
  induction p with
  | done a => exact same a meets
  | call c next ih => exact congrArg (Prog.call c) (funext fun x => ih x (meets.2 x))

private theorem Prog.bind_assoc (p : Prog C R α) (f : α → Prog C R β) (g : β → Prog C R δ) :
    (p.bind f).bind g = p.bind fun a => (f a).bind g := by
  induction p with
  | done a => rfl
  | call c next ih => exact congrArg (Prog.call c) (funext fun x => ih x)

/-- From a state in `pre` every step of `a` is defined and `a` does what `m` does, which ends in
`post`. -/
structure Attempt.Succeeds (pre : σ → Prop) (post : α → σ → Prop) (a : Attempt σ C R α)
    (m : Routine σ C R α) : Prop where
  same : ∀ s, pre s → a s = m.whole s
  ensures : m.Ensures pre post

namespace Attempt.Succeeds

variable {pre : σ → Prop} {post : α → σ → Prop} {m : Routine σ C R α}

theorem whole (ensures : m.Ensures pre post) :
    Succeeds pre post m.whole m := ⟨fun _ _ => rfl, ensures⟩

theorem pure {x : α} (holds : ∀ s, pre s → post x s) :
    Succeeds pre post (Pure.pure x : Attempt σ C R α) (Pure.pure x) :=
  ⟨fun _ _ => rfl, .pure holds⟩

theorem bind {a : Attempt σ C R β} {m : Routine σ C R β} {f : β → Attempt σ C R α}
    {g : β → Routine σ C R α} (mid : β → σ → Prop) (first : Succeeds pre mid a m)
    (rest : ∀ b, Succeeds (mid b) post (f b) (g b)) :
    Succeeds pre post (a >>= f) (m >>= g) := by
  refine ⟨fun s holds => ?_, .bind mid first.ensures fun b => (rest b).ensures⟩
  have next := (first.ensures s holds).bind_congr fun out reached =>
    (rest out.1).same out.2 reached
  show (a s).bind (fun x => x.elim (.done none) fun y => f y.1 y.2) =
    ((m s).bind fun x => g x.1 x.2).bind fun out => .done (some out)
  rw [first.same s holds, Routine.whole, Prog.bind_assoc, Prog.bind_assoc]
  exact next

theorem update {f : σ → Option σ} {g : σ → σ} {post : Unit → σ → Prop}
    (defined : ∀ s, pre s → f s = some (g s)) (holds : ∀ s, pre s → post () (g s)) :
    Succeeds pre post (Attempt.update f : Attempt σ C R Unit) (Routine.update g) := by
  refine ⟨fun s given => ?_, .update holds⟩
  unfold Attempt.update
  rw [defined s given]
  rfl

theorem read {f : σ → Attempt σ C R α} {g : σ → Routine σ C R α}
    (rest : ∀ s, pre s → Succeeds (· = s) post (f s) (g s)) :
    Succeeds pre post (Attempt.read >>= f) (Routine.read >>= g) :=
  ⟨fun s holds => (rest s holds).same s rfl, .read fun s holds => (rest s holds).ensures⟩

theorem of {x : Option δ} {v : δ} {f : δ → Attempt σ C R α} (defined : x = some v)
    (rest : Succeeds pre post (f v) m) : Succeeds pre post (Attempt.of x >>= f) m := by
  subst defined
  exact ⟨rest.same, rest.ensures⟩

theorem value {x : Option α} {v : α} (defined : x = some v) (holds : ∀ s, pre s → post v s) :
    Succeeds pre post (Attempt.of x : Attempt σ C R α) (Pure.pure v) := by
  subst defined
  exact ⟨fun _ _ => rfl, .pure holds⟩

variable {a : Attempt σ C R α}

theorem ite {p : Prop} [Decidable p] {b : Attempt σ C R α} {n : Routine σ C R α}
    (yes : p → Succeeds pre post a m) (no : ¬p → Succeeds pre post b n) :
    Succeeds pre post (if p then a else b) (if p then m else n) := by
  split
  · exact yes ‹p›
  · exact no ‹¬p›

theorem weaken {pre' : σ → Prop} {post' : α → σ → Prop} (succeeds : Succeeds pre post a m)
    (less : ∀ s, pre' s → pre s) (more : ∀ x s, post x s → post' x s) : Succeeds pre' post' a m :=
  ⟨fun s holds => succeeds.same s (less s holds), succeeds.ensures.weaken less more⟩

theorem start (succeeds : Succeeds pre post a m) {s : σ} (holds : pre s) :
    Succeeds (· = s) post a m :=
  ⟨fun _ same => succeeds.same _ (same ▸ holds), succeeds.ensures.start holds⟩

theorem returns {a : Attempt σ C R β} {m : Routine σ C R β} {x : α}
    (first : Succeeds pre (fun _ => post x) a m) :
    Succeeds pre post (a >>= fun _ => Pure.pure x) (m >>= fun _ => Pure.pure x) :=
  first.bind _ fun _ => pure fun _ => id

end Attempt.Succeeds

end Webos.Lib.Program
