/- digest: Trees of linked nodes with sorted siblings are maps from paths. -/

import Mathlib.Data.List.Sort
import Mathlib.Data.List.Induction
import Mathlib.Data.Finset.Card
import Mathlib.Logic.Function.Basic

namespace Webos.Lib.LinkedTree

variable {A K : Type} [Ord K]

section Siblings

variable (key : A → K)

def Ascending (l : List A) : Prop := l.Pairwise fun a b => compare (key a) (key b) = .lt

def search (k : K) : List A → Option A
  | [] => none
  | a :: rest =>
    match compare (key a) k with
    | .eq => some a
    | .gt => none
    | .lt => search k rest

def place (a : A) (l : List A) : List A :=
  l.orderedInsert (fun x y => compare (key x) (key y) = .lt) a

variable {key} {l : List A}

theorem search_congr {other : A → K} (same : ∀ a ∈ l, key a = other a) (k : K) :
    search key k l = search other k l := by
  induction l with
  | nil => rfl
  | cons b rest ih =>
    rw [search, search, same b List.mem_cons_self,
      ih fun a member => same a (List.mem_cons_of_mem b member)]

theorem ascending_congr {other : A → K} (same : ∀ a ∈ l, key a = other a)
    (sorted : Ascending key l) :
    Ascending other l := by
  refine List.Pairwise.imp_of_mem ?_ sorted
  intro a b first second before
  rwa [← same a first, ← same b second]

theorem mem_place {a b : A} : b ∈ place key a l ↔ b = a ∨ b ∈ l :=
  List.mem_orderedInsert _

theorem Ascending.find?_least {p : A → Bool} {a c : A} (sorted : Ascending key l)
    (found : l.find? p = some c) (member : a ∈ l) (passes : p a = true) :
    a = c ∨ compare (key c) (key a) = .lt := by
  obtain ⟨-, before, behind, rfl, refused⟩ := List.find?_eq_some_iff_append.mp found
  rcases List.mem_append.mp member with front | back
  · have no := refused a front
    rw [passes] at no
    cases no
  · rcases List.mem_cons.mp back with same | later
    · exact Or.inl same
    · exact Or.inr ((List.pairwise_cons.mp (List.pairwise_append.mp sorted).2.1).1 a later)

end Siblings

section Ordered

variable [Std.LawfulEqOrd K] {key : A → K} {l : List A}

theorem search_eq_some (sorted : Ascending key l) (k : K) (a : A) :
    search key k l = some a ↔ a ∈ l ∧ key a = k := by
  induction l with
  | nil => simp [search]
  | cons b rest ih =>
    obtain ⟨front, tail⟩ := List.pairwise_cons.mp sorted
    have later : ∀ c ∈ rest, key c = k → compare (key b) k = .lt := by
      rintro c member rfl
      exact front c member
    unfold search
    cases order : compare (key b) k with
    | lt =>
      rw [ih tail, List.mem_cons]
      constructor
      · rintro ⟨member, same⟩
        exact ⟨Or.inr member, same⟩
      · rintro ⟨rfl | member, same⟩
        · rw [same, Std.compare_self] at order
          cases order
        · exact ⟨member, same⟩
    | eq =>
      have here : key b = k := Std.LawfulEqCmp.eq_of_compare order
      constructor
      · rintro found
        cases found
        exact ⟨List.mem_cons_self, here⟩
      · rintro ⟨member, same⟩
        rcases List.mem_cons.mp member with rfl | member
        · rfl
        · rw [later a member same] at order
          cases order
    | gt =>
      constructor
      · intro found
        cases found
      · rintro ⟨member, same⟩
        rcases List.mem_cons.mp member with rfl | member
        · rw [same, Std.compare_self] at order
          cases order
        · rw [later a member same] at order
          cases order

theorem search_eq_none (sorted : Ascending key l) {k : K} :
    search key k l = none ↔ ∀ a ∈ l, key a ≠ k := by
  constructor
  · intro missing a member same
    rw [(search_eq_some sorted k a).mpr ⟨member, same⟩] at missing
    cases missing
  · intro absent
    cases found : search key k l with
    | none => rfl
    | some a =>
      obtain ⟨member, same⟩ := (search_eq_some sorted k a).mp found
      exact absurd same (absent a member)

theorem ascending_nodup (sorted : Ascending key l) : l.Nodup := by
  refine sorted.imp ?_
  rintro a b before rfl
  rw [Std.compare_self] at before
  cases before

variable [Std.TransOrd K]

theorem ascending_place {a : A} (sorted : Ascending key l) (absent : ∀ b ∈ l, key b ≠ key a) :
    Ascending key (place key a l) := by
  induction l with
  | nil => exact List.pairwise_singleton _ _
  | cons b rest ih =>
    obtain ⟨front, tail⟩ := List.pairwise_cons.mp sorted
    unfold place
    rw [List.orderedInsert_cons]
    split_ifs with before
    · refine List.pairwise_cons.mpr ⟨?_, sorted⟩
      intro c member
      rcases List.mem_cons.mp member with rfl | member
      · exact before
      · exact Std.TransCmp.lt_trans before (front c member)
    · have after : compare (key b) (key a) = .lt := by
        cases order : compare (key b) (key a) with
        | lt => rfl
        | eq => exact absurd (Std.LawfulEqCmp.eq_of_compare order) (absent b List.mem_cons_self)
        | gt => exact absurd (Std.OrientedCmp.lt_of_gt order) before
      refine List.pairwise_cons.mpr ⟨?_, ?_⟩
      · intro c member
        rcases mem_place.mp member with rfl | member
        · exact after
        · exact front c member
      · exact ih tail fun c member => absent c (List.mem_cons_of_mem b member)

end Ordered

/-- The links of a set of nodes: what is allocated, and each node's name and neighbours. -/
@[ext] structure Links (A K : Type) where
  root : A
  live : Finset A
  children : A → List A
  parent : A → Option A
  name : A → K

namespace Links

variable (t : Links A K)

def child (a : A) (k : K) : Option A := search t.name k (t.children a)

def walk (a : A) (p : List K) : Option A := p.foldlM t.child a

def node (p : List K) : Option A := t.walk t.root p

/-- The links form one tree: a child knows its parent, siblings are in strict order, and every
allocated node can be reached. -/
structure Linked : Prop where
  rooted : t.root ∈ t.live
  top : t.parent t.root = none
  child : ∀ a ∈ t.live, ∀ c ∈ t.children a, c ∈ t.live ∧ t.parent c = some a
  sorted : ∀ a ∈ t.live, Ascending t.name (t.children a)
  reached : ∀ a ∈ t.live, ∃ p, t.node p = some a

variable {t}

@[simp] theorem walk_cons (a : A) (k : K) (p : List K) :
    t.walk a (k :: p) = (t.child a k).bind fun c => t.walk c p := rfl

theorem walk_append (a : A) (p q : List K) :
    t.walk a (p ++ q) = (t.walk a p).bind fun b => t.walk b q := by
  simp only [walk, List.foldlM_append]
  rfl

theorem node_append (p q : List K) : t.node (p ++ q) = (t.node p).bind fun a => t.walk a q :=
  walk_append t.root p q

theorem node_snoc (p : List K) (k : K) :
    t.node (p ++ [k]) = (t.node p).bind fun a => t.child a k := by
  rw [node_append]
  cases t.node p with
  | none => rfl
  | some a =>
    rw [Option.bind_some, Option.bind_some, walk_cons]
    cases t.child a k <;> rfl

theorem node_of_append {p q : List K} {b : A} (found : t.node (p ++ q) = some b) :
    ∃ a, t.node p = some a ∧ t.walk a q = some b := by
  rw [node_append] at found
  exact Option.bind_eq_some_iff.mp found

namespace Linked

variable [Std.LawfulEqOrd K] (linked : t.Linked)

include linked

variable {a : A}

theorem child_eq_some {c : A} {k : K} (alive : a ∈ t.live) :
    t.child a k = some c ↔ c ∈ t.children a ∧ t.name c = k :=
  search_eq_some (linked.sorted a alive) k c

variable {p : List K}

theorem walk_live {b : A} (alive : a ∈ t.live) (found : t.walk a p = some b) : b ∈ t.live := by
  induction p generalizing a with
  | nil =>
    cases found
    exact alive
  | cons k p ih =>
    obtain ⟨c, step, rest⟩ := Option.bind_eq_some_iff.mp found
    have member := ((linked.child_eq_some alive).mp step).1
    exact ih (linked.child a alive c member).1 rest

theorem node_live (found : t.node p = some a) : a ∈ t.live :=
  linked.walk_live linked.rooted found

theorem node_snoc_iff {k : K} {c : A} :
    t.node (p ++ [k]) = some c ↔ ∃ a, t.node p = some a ∧ c ∈ t.children a ∧ t.name c = k := by
  rw [node_snoc]
  constructor
  · intro found
    obtain ⟨a, before, step⟩ := Option.bind_eq_some_iff.mp found
    exact ⟨a, before, (linked.child_eq_some (linked.node_live before)).mp step⟩
  · rintro ⟨a, before, step⟩
    rw [before]
    exact (linked.child_eq_some (linked.node_live before)).mpr step

theorem parent_of_snoc {k : K} {c : A} (found : t.node (p ++ [k]) = some c) :
    t.parent c = t.node p := by
  obtain ⟨a, before, member, -⟩ := linked.node_snoc_iff.mp found
  rw [before]
  exact (linked.child a (linked.node_live before) c member).2

theorem node_eq_root (found : t.node p = some t.root) : p = [] := by
  rcases List.eq_nil_or_concat' p with rfl | ⟨p, k, rfl⟩
  · rfl
  · obtain ⟨a, before, member, -⟩ := linked.node_snoc_iff.mp found
    have known := (linked.child a (linked.node_live before) _ member).2
    rw [linked.top] at known
    cases known

theorem node_injective {q : List K} (first : t.node p = some a) (second : t.node q = some a) :
    p = q := by
  induction p using List.reverseRecOn generalizing q a with
  | nil =>
    cases first
    exact (linked.node_eq_root second).symm
  | append_singleton p k ih =>
    obtain ⟨b, before, member, named⟩ := linked.node_snoc_iff.mp first
    have known := (linked.child b (linked.node_live before) a member).2
    rcases List.eq_nil_or_concat' q with rfl | ⟨q, j, rfl⟩
    · cases second
      rw [linked.top] at known
      cases known
    · obtain ⟨c, before', member', named'⟩ := linked.node_snoc_iff.mp second
      have known' := (linked.child c (linked.node_live before') a member').2
      rw [known] at known'
      cases known'
      rw [ih before before', ← named, ← named']

theorem length_lt_card (found : t.node p = some a) : p.length < t.live.card := by
  have reach (i : Nat) : ∃ b, t.node (p.take i) = some b := by
    rw [← List.take_append_drop i p] at found
    obtain ⟨b, before, -⟩ := node_of_append found
    exact ⟨b, before⟩
  choose way before using reach
  have inside : Set.MapsTo way (Finset.range (p.length + 1)) t.live :=
    fun i _ => linked.node_live (before i)
  have distinct : Set.InjOn way (Finset.range (p.length + 1)) := by
    intro i first j second same
    have whole := linked.node_injective (before i) (same ▸ before j)
    have sizes := congrArg List.length whole
    simp only [Finset.coe_range, Set.mem_Iio] at first second
    rw [List.length_take, List.length_take] at sizes
    omega
  have card := Finset.card_le_card_of_injOn way inside distinct
  rw [Finset.card_range] at card
  omega

end Linked

section Graft

variable [DecidableEq A]

variable (t) in
def graft (a c : A) (k : K) : Links A K where
  root := t.root
  live := insert c t.live
  children := Function.update (Function.update t.children c [])
    a (place (Function.update t.name c k) c (t.children a))
  parent := Function.update t.parent c (some a)
  name := Function.update t.name c k

theorem children_graft_self (a c : A) (k : K) :
    (t.graft a c k).children a = place (t.graft a c k).name c (t.children a) :=
  Function.update_self _ _ _

variable (linked : t.Linked) {a c : A} {k : K} (fresh : c ∉ t.live)

include linked fresh

theorem name_graft {b x : A} (alive : b ∈ t.live) (member : x ∈ t.children b) :
    t.name x = (t.graft a c k).name x := by
  have live := (linked.child b alive x member).1
  have distinct : x ≠ c := by
    rintro rfl
    exact fresh live
  exact (Function.update_of_ne distinct _ _).symm

theorem child_graft_other {b : A} (alive : b ∈ t.live) (apart : b ≠ a) (j : K) :
    (t.graft a c k).child b j = t.child b j := by
  have distinct : b ≠ c := fun same => fresh (same ▸ alive)
  have kept : (t.graft a c k).children b = t.children b := by
    simp only [graft, Function.update_of_ne apart, Function.update_of_ne distinct]
  rw [child, kept]
  exact (search_congr (fun x member => name_graft linked fresh alive member) j).symm

variable [Std.TransOrd K] [Std.LawfulEqOrd K]

theorem ascending_graft (alive : a ∈ t.live) (vacant : t.child a k = none) :
    Ascending (t.graft a c k).name ((t.graft a c k).children a) := by
  have absent := (search_eq_none (linked.sorted a alive)).mp vacant
  have same := fun x member => name_graft (a := a) (k := k) linked fresh alive (x := x) member
  rw [children_graft_self]
  apply ascending_place (ascending_congr same (linked.sorted a alive))
  intro x member
  rw [← same x member, show (t.graft a c k).name c = k from Function.update_self _ _ _]
  exact absent x member

theorem child_graft_self (alive : a ∈ t.live) (vacant : t.child a k = none) (j : K) (x : A) :
    (t.graft a c k).child a j = some x ↔ (x = c ∧ j = k) ∨ t.child a j = some x := by
  have named : (t.graft a c k).name c = k := Function.update_self _ _ _
  rw [child, search_eq_some (ascending_graft linked fresh alive vacant),
    linked.child_eq_some alive, children_graft_self, mem_place]
  constructor
  · rintro ⟨rfl | member, same⟩
    · exact Or.inl ⟨rfl, same.symm.trans named⟩
    · exact Or.inr ⟨member, (name_graft linked fresh alive member).trans same⟩
  · rintro (⟨rfl, rfl⟩ | ⟨member, same⟩)
    · exact ⟨Or.inl rfl, named⟩
    · exact ⟨Or.inr member, (name_graft linked fresh alive member).symm.trans same⟩

theorem node_graft [DecidableEq K] {p : List K} (here : t.node p = some a)
    (vacant : t.child a k = none) (q : List K) :
    (t.graft a c k).node q = if q = p ++ [k] then some c else t.node q := by
  have alive := linked.node_live here
  have distinct : c ≠ a := fun same => fresh (same ▸ alive)
  have unused : t.node (p ++ [k]) = none := by
    rw [node_snoc, here]
    exact vacant
  induction q using List.reverseRecOn with
  | nil => rw [if_neg (by simp)]; rfl
  | append_singleton q j ih =>
    rw [node_snoc, ih]
    split_ifs with new long long
    · subst new
      simp at long
    · subst new
      rw [node_snoc, unused, Option.bind_none, Option.bind_some, child,
        show (t.graft a c k).children c = [] by
          simp only [graft, Function.update_of_ne distinct, Function.update_self]]
      rfl
    · obtain ⟨rfl, last⟩ := List.append_inj' long rfl
      cases last
      rw [here, Option.bind_some]
      exact (child_graft_self linked fresh alive vacant k c).mpr (Or.inl ⟨rfl, rfl⟩)
    · rw [node_snoc]
      cases found : t.node q with
      | none => rfl
      | some b =>
        rw [Option.bind_some, Option.bind_some]
        by_cases apart : b = a
        · subst apart
          have same := linked.node_injective found here
          subst same
          have other : j ≠ k := fun same => long (by rw [same])
          ext x
          rw [child_graft_self linked fresh alive vacant]
          simp [other]
        · exact child_graft_other linked fresh (linked.node_live found) apart j

theorem linked_graft {p : List K} (here : t.node p = some a) (vacant : t.child a k = none) :
    (t.graft a c k).Linked := by
  have alive := linked.node_live here
  have distinct : c ≠ a := fun same => fresh (same ▸ alive)
  classical
  have paths := node_graft linked fresh here vacant
  have old {b : A} (live : b ∈ t.live) : b ≠ c := fun same => fresh (same ▸ live)
  have leaf : (t.graft a c k).children c = [] := by
    simp only [graft, Function.update_of_ne distinct, Function.update_self]
  have kept {b : A} (live : b ∈ t.live) (apart : b ≠ a) :
      (t.graft a c k).children b = t.children b := by
    simp only [graft, Function.update_of_ne apart, Function.update_of_ne (old live)]
  have known {b : A} (live : b ∈ t.live) : (t.graft a c k).parent b = t.parent b :=
    Function.update_of_ne (old live) _ _
  constructor
  · exact Finset.mem_insert_of_mem linked.rooted
  · exact (known linked.rooted).trans linked.top
  · intro b within x member
    rcases Finset.mem_insert.mp within with rfl | live
    · rw [leaf] at member
      cases member
    · by_cases apart : b = a
      · subst apart
        rw [children_graft_self] at member
        rcases mem_place.mp member with rfl | member
        · exact ⟨Finset.mem_insert_self _ _, Function.update_self _ _ _⟩
        · obtain ⟨there, parent⟩ := linked.child b live x member
          exact ⟨Finset.mem_insert_of_mem there, (known there).trans parent⟩
      · rw [kept live apart] at member
        obtain ⟨there, parent⟩ := linked.child b live x member
        exact ⟨Finset.mem_insert_of_mem there, (known there).trans parent⟩
  · intro b within
    rcases Finset.mem_insert.mp within with rfl | live
    · rw [leaf]
      exact List.Pairwise.nil
    · by_cases apart : b = a
      · subst apart
        exact ascending_graft linked fresh live vacant
      · rw [kept live apart]
        exact ascending_congr (fun x member => name_graft linked fresh live member)
          (linked.sorted b live)
  · intro b within
    rcases Finset.mem_insert.mp within with rfl | live
    · exact ⟨p ++ [k], by rw [paths, if_pos rfl]⟩
    · obtain ⟨q, found⟩ := linked.reached b live
      refine ⟨q, ?_⟩
      rw [paths, if_neg, found]
      rintro rfl
      rw [node_snoc, here, Option.bind_some, vacant] at found
      cases found

end Graft

section Cut

variable [DecidableEq A]

variable (t) in
/-- A leaf taken out from under its parent. -/
def cut (a c : A) : Links A K where
  root := t.root
  live := t.live.erase c
  children := Function.update t.children a ((t.children a).erase c)
  parent := Function.update t.parent c none
  name := t.name

variable [Std.LawfulEqOrd K] (linked : t.Linked) {a c : A} {p : List K} {k : K}
  (here : t.node p = some a)

include linked here

theorem child_cut (found : t.node (p ++ [k]) = some c) (b : A) (alive : b ∈ t.live) (j : K)
    (x : A) : (t.cut a c).child b j = some x ↔ t.child b j = some x ∧ x ≠ c := by
  obtain ⟨a', here', member', -⟩ := linked.node_snoc_iff.mp found
  cases here.symm.trans here'
  by_cases apart : b = a
  · subst apart
    have kept : (t.cut b c).children b = (t.children b).erase c := Function.update_self _ _ _
    have sorted := linked.sorted b alive
    rw [child, kept, show (t.cut b c).name = t.name from rfl,
      search_eq_some (sorted.sublist List.erase_sublist), linked.child_eq_some alive,
      (ascending_nodup sorted).mem_erase_iff]
    constructor
    · rintro ⟨⟨other, member⟩, same⟩
      exact ⟨⟨member, same⟩, other⟩
    · rintro ⟨⟨member, same⟩, other⟩
      exact ⟨⟨other, member⟩, same⟩
  · have kept : (t.cut a c).children b = t.children b := Function.update_of_ne apart _ _
    rw [child, kept]
    constructor
    · intro step
      refine ⟨step, ?_⟩
      rintro rfl
      have member := ((linked.child_eq_some alive).mp step).1
      have one := (linked.child b alive _ member).2
      rw [(linked.child a (linked.node_live here) _ member').2] at one
      cases one
      exact apart rfl
    · rintro ⟨step, -⟩
      exact step

theorem node_cut [DecidableEq K] (found : t.node (p ++ [k]) = some c) (leaf : t.children c = [])
    (q : List K) :
    (t.cut a c).node q = if q = p ++ [k] then none else t.node q := by
  induction q using List.reverseRecOn with
  | nil => rw [if_neg (by simp)]; rfl
  | append_singleton q j ih =>
    rw [node_snoc, ih]
    split_ifs with old long long
    · rfl
    · subst old
      rw [Option.bind_none, node_snoc, found, Option.bind_some, child, leaf]
      rfl
    · obtain ⟨rfl, last⟩ := List.append_inj' long rfl
      cases last
      rw [here, Option.bind_some, Option.eq_none_iff_forall_ne_some]
      intro x step
      obtain ⟨step, other⟩ := (child_cut linked here found a (linked.node_live here) k x).mp step
      rw [node_snoc, here, Option.bind_some, step] at found
      cases found
      exact other rfl
    · rw [node_snoc]
      cases there : t.node q with
      | none => rfl
      | some b =>
        rw [Option.bind_some, Option.bind_some]
        ext x
        rw [child_cut linked here found b (linked.node_live there) j x]
        constructor
        · exact fun both => both.1
        · intro step
          refine ⟨step, ?_⟩
          rintro rfl
          apply long
          apply linked.node_injective _ found
          rw [node_snoc, there]
          exact step

theorem linked_cut (found : t.node (p ++ [k]) = some c) (leaf : t.children c = []) :
    (t.cut a c).Linked := by
  classical
  have paths := node_cut linked here found leaf
  have old : c ≠ t.root := by
    rintro rfl
    exact absurd (linked.node_eq_root found) (by simp)
  have inner {b x : A} (live : b ∈ t.live) (member : x ∈ (t.cut a c).children b) :
      x ∈ t.children b ∧ x ≠ c := by
    have step : (t.cut a c).child b (t.name x) = some x := by
      rw [child, search_eq_some]
      · exact ⟨member, rfl⟩
      · by_cases apart : b = a
        · subst apart
          rw [show (t.cut b c).children b = _ from Function.update_self _ _ _]
          exact (linked.sorted b live).sublist List.erase_sublist
        · rw [show (t.cut a c).children b = _ from Function.update_of_ne apart _ _]
          exact linked.sorted b live
    obtain ⟨step, other⟩ := (child_cut linked here found b live _ x).mp step
    exact ⟨((linked.child_eq_some live).mp step).1, other⟩
  constructor
  · exact Finset.mem_erase.mpr ⟨old.symm, linked.rooted⟩
  · exact (Function.update_of_ne old.symm _ _).trans linked.top
  · intro b within x member
    obtain ⟨-, live⟩ := Finset.mem_erase.mp within
    obtain ⟨member, other⟩ := inner live member
    obtain ⟨there, parent⟩ := linked.child b live x member
    exact ⟨Finset.mem_erase.mpr ⟨other, there⟩, (Function.update_of_ne other _ _).trans parent⟩
  · intro b within
    obtain ⟨-, live⟩ := Finset.mem_erase.mp within
    by_cases apart : b = a
    · subst apart
      rw [show (t.cut b c).children b = _ from Function.update_self _ _ _]
      exact (linked.sorted b live).sublist List.erase_sublist
    · rw [show (t.cut a c).children b = _ from Function.update_of_ne apart _ _]
      exact linked.sorted b live
  · intro b within
    obtain ⟨other, live⟩ := Finset.mem_erase.mp within
    obtain ⟨q, there⟩ := linked.reached b live
    refine ⟨q, ?_⟩
    rw [paths, if_neg, there]
    rintro rfl
    rw [found] at there
    cases there
    exact other rfl

end Cut

end Links

end Webos.Lib.LinkedTree
