/- digest: Programs that call their environment, with handlers, private state and run rules. -/

import Mathlib.Data.List.Basic

namespace Webos.Lib.Program

/-- A computation that asks its environment for replies: `R c` is what call `c` returns. -/
inductive Prog (C : Type) (R : C → Type) (α : Type) where
  | done (a : α)
  | call (c : C) (next : R c → Prog C R α)

/-- An environment with state `ρ` that answers every call. -/
abbrev Handler (C : Type) (R : C → Type) (ρ : Type) := (c : C) → ρ → R c × ρ

variable {C : Type} {R : C → Type} {α β ρ σ : Type}

def Prog.bind : Prog C R α → (α → Prog C R β) → Prog C R β
  | .done a, f => f a
  | .call c next, f => .call c (fun x => (next x).bind f)

def Prog.run (h : Handler C R ρ) : Prog C R α → ρ → α × ρ
  | .done a, r => (a, r)
  | .call c next, r => (next (h c r).1).run h (h c r).2

variable (h : Handler C R ρ)

theorem run_bind (p : Prog C R α) (f : α → Prog C R β) (r : ρ) :
    (p.bind f).run h r = (f (p.run h r).1).run h (p.run h r).2 := by
  induction p generalizing r with
  | done a => rfl
  | call c next ih => exact ih (h c r).1 (h c r).2

/-- Whatever it is answered, a program only makes calls in `P` and ends with a result in `Q`. -/
def Prog.Meets (P : C → Prop) (Q : α → Prop) : Prog C R α → Prop
  | .done a => Q a
  | .call c next => P c ∧ ∀ x, (next x).Meets P Q

section Meets

variable {P : C → Prop} {Q : α → Prop} {p : Prog C R α}

theorem Prog.Meets.bind {Q' : β → Prop} {f : α → Prog C R β} (first : p.Meets P Q)
    (rest : ∀ a, Q a → (f a).Meets P Q') : (p.bind f).Meets P Q' := by
  induction p with
  | done a => exact rest a first
  | call c next ih => exact ⟨first.1, fun x => ih x (first.2 x)⟩

theorem Prog.Meets.mono {P' : C → Prop} {Q' : α → Prop} (meets : p.Meets P Q)
    (calls : ∀ c, P c → P' c) (results : ∀ a, Q a → Q' a) : p.Meets P' Q' := by
  induction p with
  | done a => exact results a meets
  | call c next ih => exact ⟨calls c meets.1, fun x => ih x (meets.2 x)⟩

theorem Prog.Meets.result (meets : p.Meets P Q) (h : Handler C R ρ) (r : ρ) :
    Q (p.run h r).1 := by
  induction p generalizing r with
  | done a => exact meets
  | call c next ih => exact ih (h c r).1 (meets.2 _) (h c r).2

theorem Prog.Meets.related (meets : p.Meets P Q) (h : Handler C R ρ) (Rel : ρ → ρ → Prop)
    (start : ∀ r, Rel r r) (join : ∀ r s t, Rel r s → Rel s t → Rel r t)
    (step : ∀ c r, P c → Rel r (h c r).2) (r : ρ) : Rel r (p.run h r).2 := by
  induction p generalizing r with
  | done a => exact start r
  | call c next ih => exact join _ _ _ (step c r meets.1) (ih (h c r).1 (meets.2 _) (h c r).2)

end Meets

inductive Prog.Ends : Prog C R α → α → Prop where
  | done (a : α) : Prog.Ends (.done a) a
  | call {c : C} {next : R c → Prog C R α} {a : α} (x : R c) : Prog.Ends (next x) a →
    Prog.Ends (.call c next) a

section Ends

variable {P : C → Prop} {Q : α → Prop} {p : Prog C R α} {a : α}

theorem Prog.Meets.ends (meets : p.Meets P Q) (ends : p.Ends a) : Q a := by
  induction ends with
  | done a => exact meets
  | call x _ ih => exact ih (meets.2 x)

theorem Prog.Ends.of_bind {p : Prog C R β} {f : β → Prog C R α} (ends : (p.bind f).Ends a) :
    ∃ b, p.Ends b ∧ (f b).Ends a := by
  induction p with
  | done b => exact ⟨b, .done b, ends⟩
  | call c next ih =>
    cases ends with
    | call x later =>
      obtain ⟨b, first, second⟩ := ih x later
      exact ⟨b, .call x first, second⟩

theorem Prog.meets_ends (p : Prog C R α) : p.Meets (fun _ => True) p.Ends := by
  induction p with
  | done a => exact .done a
  | call c next ih => exact ⟨trivial, fun x => (ih x).mono (fun _ => id) fun _ => .call x⟩

end Ends

theorem run_related (Rel : ρ → ρ → Prop) (start : ∀ r, Rel r r)
    (join : ∀ r s t, Rel r s → Rel s t → Rel r t) (step : ∀ c r, Rel r (h c r).2) (p : Prog C R α)
    (r : ρ) : Rel r (p.run h r).2 :=
  p.meets_ends.related h Rel start join (fun c r _ => step c r) r

theorem Prog.Meets.simulated {ρ' : Type} {P : C → Prop} {Q : α → Prop} {p : Prog C R α}
    (meets : p.Meets P Q) (h : Handler C R ρ) (h' : Handler C R ρ') (Sim : ρ → ρ' → Prop)
    (step : ∀ c r r', P c → Sim r r' →
      (h c r).1 = (h' c r').1 ∧ Sim (h c r).2 (h' c r').2) (r : ρ) (r' : ρ') (sim : Sim r r') :
    (p.run h r).1 = (p.run h' r').1 ∧ Sim (p.run h r).2 (p.run h' r').2 := by
  induction p generalizing r r' with
  | done a => exact ⟨rfl, sim⟩
  | call c next ih =>
    obtain ⟨reply, after⟩ := step c r r' meets.1 sim
    simp only [Prog.run]
    rw [← reply]
    exact ih (h c r).1 (meets.2 _) (h c r).2 (h' c r').2 after

theorem run_simulated {ρ' : Type} (h' : Handler C R ρ') (Sim : ρ → ρ' → Prop)
    (step : ∀ c r r', Sim r r' → (h c r).1 = (h' c r').1 ∧ Sim (h c r).2 (h' c r').2)
    (p : Prog C R α) (r : ρ) (r' : ρ') (sim : Sim r r') :
    (p.run h r).1 = (p.run h' r').1 ∧ Sim (p.run h r).2 (p.run h' r').2 :=
  p.meets_ends.simulated h h' Sim (fun c r r' _ => step c r r') r r' sim

/-- A program with a private state `σ` of its own. -/
def Routine (σ C : Type) (R : C → Type) (α : Type) : Type := σ → Prog C R (α × σ)

instance : Monad (Routine σ C R) where
  pure a := fun s => .done (a, s)
  bind m f := fun s => (m s).bind (fun x => f x.1 x.2)

def Routine.read : Routine σ C R σ := fun s => .done (s, s)

def Routine.update (f : σ → σ) : Routine σ C R Unit := fun s => .done ((), f s)

def Routine.step (f : σ → α × σ) : Routine σ C R α := fun s => .done (f s)

def Routine.ask (c : C) : Routine σ C R (R c) := fun s => .call c (fun x => .done (x, s))

def Routine.exec (h : Handler C R ρ) (m : Routine σ C R α) (s : σ) (r : ρ) : α × σ × ρ :=
  let x := (m s).run h r
  (x.1.1, x.1.2, x.2)

section Exec

variable (h : Handler C R ρ) (s : σ) (r : ρ)

@[simp] theorem exec_pure (a : α) : (pure a : Routine σ C R α).exec h s r = (a, s, r) := rfl

@[simp] theorem exec_bind (m : Routine σ C R α) (f : α → Routine σ C R β) :
    (m >>= f).exec h s r = (f (m.exec h s r).1).exec h (m.exec h s r).2.1 (m.exec h s r).2.2 := by
  simp only [Routine.exec, bind, run_bind]

@[simp] theorem exec_read : (Routine.read : Routine σ C R σ).exec h s r = (s, s, r) := rfl

@[simp] theorem exec_update (f : σ → σ) :
    (Routine.update f : Routine σ C R Unit).exec h s r = ((), f s, r) := rfl

@[simp] theorem exec_step (f : σ → α × σ) :
    (Routine.step f : Routine σ C R α).exec h s r = ((f s).1, (f s).2, r) := rfl

@[simp] theorem exec_ask (c : C) :
    (Routine.ask c : Routine σ C R (R c)).exec h s r = ((h c r).1, s, (h c r).2) := rfl

@[simp] theorem exec_read_bind (f : σ → Routine σ C R β) :
    (Routine.read >>= f).exec h s r = (f s).exec h s r := rfl

@[simp] theorem exec_update_bind (g : σ → σ) (f : Unit → Routine σ C R β) :
    (Routine.update g >>= f).exec h s r = (f ()).exec h (g s) r := rfl

@[simp] theorem exec_step_bind (g : σ → α × σ) (f : α → Routine σ C R β) :
    (Routine.step g >>= f).exec h s r = (f (g s).1).exec h (g s).2 r := rfl

@[simp] theorem exec_ite (p : Prop) [Decidable p] (m n : Routine σ C R α) :
    (if p then m else n).exec h s r = if p then m.exec h s r else n.exec h s r := by
  split <;> rfl

end Exec

/-- Whatever it is answered, a routine only makes calls in `P` and keeps `inv` of its state. -/
def Routine.Keeps (P : C → Prop) (inv : σ → Prop) (m : Routine σ C R α) : Prop :=
  ∀ s, inv s → (m s).Meets P (fun out => inv out.2)

namespace Routine.Keeps

variable {P : C → Prop} {inv : σ → Prop}

theorem pure (a : α) : Keeps P inv (Pure.pure a : Routine σ C R α) := fun _ holds => holds

variable {m : Routine σ C R α}

theorem bind {f : α → Routine σ C R β} (first : Keeps P inv m) (rest : ∀ a, Keeps P inv (f a)) :
    Keeps P inv (m >>= f) :=
  fun s holds => (first s holds).bind fun out kept => rest out.1 out.2 kept

theorem update {g : σ → σ} (kept : ∀ s, inv s → inv (g s)) :
    Keeps P inv (Routine.update g : Routine σ C R Unit) := kept

theorem step {g : σ → α × σ} (kept : ∀ s, inv s → inv (g s).2) :
    Keeps P inv (Routine.step g : Routine σ C R α) := kept

theorem read {f : σ → Routine σ C R α} (rest : ∀ s, inv s → Keeps P inv (f s)) :
    Keeps P inv (Routine.read >>= f) := fun s holds => rest s holds s holds

theorem ask {c : C} (allowed : P c) : Keeps P inv (Routine.ask c : Routine σ C R (R c)) :=
  fun _ holds => ⟨allowed, fun _ => holds⟩

theorem ite {p : Prop} [Decidable p] {n : Routine σ C R α} (yes : Keeps P inv m)
    (no : Keeps P inv n) : Keeps P inv (if p then m else n) := by
  split
  · exact yes
  · exact no

end Routine.Keeps

/-- Whatever it is answered, a routine started in `pre` ends in `post`. -/
def Routine.Ensures (pre : σ → Prop) (post : α → σ → Prop) (m : Routine σ C R α) : Prop :=
  ∀ s, pre s → (m s).Meets (fun _ => True) (fun out => post out.1 out.2)

namespace Routine.Ensures

variable {pre : σ → Prop} {post : α → σ → Prop}

theorem pure {a : α} (holds : ∀ s, pre s → post a s) :
    Ensures pre post (Pure.pure a : Routine σ C R α) := holds

theorem bind {m : Routine σ C R β} {f : β → Routine σ C R α} (mid : β → σ → Prop)
    (first : Ensures pre mid m) (rest : ∀ b, Ensures (mid b) post (f b)) :
    Ensures pre post (m >>= f) :=
  fun s holds => (first s holds).bind fun out reached => rest out.1 out.2 reached

theorem update {g : σ → σ} {post : Unit → σ → Prop} (holds : ∀ s, pre s → post () (g s)) :
    Ensures pre post (Routine.update g : Routine σ C R Unit) := holds

theorem step {g : σ → α × σ} (holds : ∀ s, pre s → post (g s).1 (g s).2) :
    Ensures pre post (Routine.step g : Routine σ C R α) := holds

theorem read {f : σ → Routine σ C R α} (rest : ∀ s, pre s → Ensures (· = s) post (f s)) :
    Ensures pre post (Routine.read >>= f) := fun s holds => rest s holds s rfl

theorem sets {g : σ → σ} {s : σ} {f : Unit → Routine σ C R α}
    (rest : Ensures (· = g s) post (f ())) :
    Ensures (· = s) post (Routine.update g >>= f) := fun _ same => rest _ (congrArg g same)

theorem ask {c : C} {post : R c → σ → Prop} (holds : ∀ s, pre s → ∀ x, post x s) :
    Ensures pre post (Routine.ask c : Routine σ C R (R c)) :=
  fun s given => ⟨trivial, fun x => holds s given x⟩

variable {m : Routine σ C R α}

theorem ite {p : Prop} [Decidable p] {n : Routine σ C R α} (yes : p → Ensures pre post m)
    (no : ¬p → Ensures pre post n) : Ensures pre post (if p then m else n) := by
  split
  · exact yes ‹p›
  · exact no ‹¬p›

theorem weaken {pre' : σ → Prop} {post' : α → σ → Prop} (ensures : Ensures pre post m)
    (less : ∀ s, pre' s → pre s) (more : ∀ a s, post a s → post' a s) : Ensures pre' post' m :=
  fun s holds => (ensures s (less s holds)).mono (fun _ => id) fun out => more out.1 out.2

theorem start (ensures : Ensures pre post m) {s : σ} (holds : pre s) :
    Ensures (· = s) post m := fun _ same => ensures _ (same ▸ holds)

theorem narrow {pre' : σ → Prop} (ensures : Ensures pre post m) (less : ∀ s, pre' s → pre s) :
    Ensures pre' post m := fun s holds => ensures s (less s holds)

theorem returns {m : Routine σ C R β} {a : α} (first : Ensures pre (fun _ => post a) m) :
    Ensures pre post (m >>= fun _ => Pure.pure a) := first.bind _ fun _ => pure fun _ => id

end Routine.Ensures

end Webos.Lib.Program
