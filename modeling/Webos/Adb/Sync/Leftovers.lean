/- digest: The staging files on the disk are those that some sync context still has to remove. -/

import Webos.Adb.Sync.Residue

namespace Webos.Adb.Sync

open Webos.Lib.Files Webos.Lib.Program

variable {cfg : Config} {φ : Type}

section Tables

variable {old : Set Path} {now now' : Ledger Path} {nonce nonce' : UInt32}
  {contexts : Slot cfg → SyncContext cfg} {i : Slot cfg} {c : SyncContext cfg}

def othersOf (contexts : Slot cfg → SyncContext cfg) (i : Slot cfg) : Set Path :=
  { p | ∃ j, j ≠ i ∧ (contexts j).temporaryLive = true ∧ p = (contexts j).temporary }

def takenOf (contexts : Slot cfg → SyncContext cfg) (i : Slot cfg) : Set Path :=
  { p | ∃ j, j ≠ i ∧ (contexts j).state.sending = true ∧ p = (contexts j).temporary }

/-- The staging names in use are those from before and the live temporaries, one for each. -/
structure Tracked (old : Set Path) (now : Ledger Path) (nonce : UInt32)
    (contexts : Slot cfg → SyncContext cfg) : Prop where
  counted : nonce.toNat ≤ now.looks
  exact : ∀ p, staging p → (p ∈ now.files ↔ p ∈ old ∨
    ∃ i, (contexts i).temporaryLive = true ∧ p = (contexts i).temporary)
  parked : ∀ i, (contexts i).temporaryLive = true → (contexts i).state.sending = true
  own : ∀ i, (contexts i).state.sending = true → Own old (takenOf contexts i) nonce (contexts i)
  free : ∀ i, (contexts i).stream = none → (contexts i).temporaryLive = false

theorem Tracked.enter (tracked : Tracked old now nonce contexts) (i : Slot cfg) :
    Tidy old (othersOf contexts i) (takenOf contexts i) now nonce (contexts i) := by
  refine ⟨tracked.counted, ?_, ?_, fun p mark => ?_, tracked.parked i, tracked.own i⟩
  · rintro p ⟨j, other, live, rfl⟩
    exact ⟨j, other, tracked.parked j live, rfl⟩
  · rintro p ⟨j, -, sending, rfl⟩
    obtain ⟨token, below, temporary, -⟩ := (tracked.own j sending).named
    exact ⟨_, token, below, temporary⟩
  · rw [tracked.exact p mark]
    refine or_congr_right ⟨?_, ?_⟩
    · rintro ⟨j, live, rfl⟩
      by_cases same : j = i
      · exact Or.inr (same ▸ ⟨live, rfl⟩)
      · exact Or.inl ⟨j, same, live, rfl⟩
    · rintro (⟨j, -, live, rfl⟩ | ⟨live, rfl⟩)
      · exact ⟨j, live, rfl⟩
      · exact ⟨i, live, rfl⟩

theorem Own.beside {j : Slot cfg} (own : Own old (takenOf contexts j) nonce (contexts j))
    (other : j ≠ i) (sending : (contexts j).state.sending = true)
    (tidy : Tidy old (othersOf contexts i) (takenOf contexts i) now' nonce' c) :
    Own old (takenOf (Function.update contexts i c) j) nonce' (contexts j) := by
  obtain ⟨token, -, temporary, backup⟩ := own.named
  have held : (contexts j).temporary ∈ takenOf contexts i := ⟨j, other, sending, rfl⟩
  obtain ⟨q, token', below, same⟩ := tidy.drawn _ held
  obtain ⟨-, rfl⟩ := partName_inj (temporary.symm.trans same)
  refine ⟨own.visible, ⟨token, below, temporary, backup⟩, own.fresh.1, ?_, own.fresh.2.2⟩
  rintro ⟨k, away, busy, equal⟩
  by_cases here : k = i
  · subst here
    rw [Function.update_self] at busy equal
    exact (tidy.own busy).fresh.2.1 (equal ▸ held)
  · rw [Function.update_of_ne here] at busy equal
    exact own.fresh.2.1 ⟨k, away, busy, equal⟩

theorem Tracked.leave (tracked : Tracked old now nonce contexts)
    (tidy : Tidy old (othersOf contexts i) (takenOf contexts i) now' nonce' c)
    (free : c.stream = none → c.temporaryLive = false) :
    Tracked old now' nonce' (Function.update contexts i c) := by
  refine ⟨tidy.counted, fun p mark => ?_, fun j => ?_, fun j => ?_, fun j => ?_⟩
  · rw [tidy.exact p mark]
    refine or_congr_right ⟨?_, ?_⟩
    · rintro (⟨j, other, live, rfl⟩ | ⟨live, rfl⟩)
      · refine ⟨j, ?_⟩
        rw [Function.update_of_ne other]
        exact ⟨live, rfl⟩
      · refine ⟨i, ?_⟩
        rw [Function.update_self]
        exact ⟨live, rfl⟩
    · rintro ⟨j, live, rfl⟩
      by_cases same : j = i
      · subst same
        rw [Function.update_self] at live ⊢
        exact Or.inr ⟨live, rfl⟩
      · rw [Function.update_of_ne same] at live ⊢
        exact Or.inl ⟨j, same, live, rfl⟩
  all_goals by_cases same : j = i
  · subst same
    rw [Function.update_self]
    exact tidy.parked
  · rw [Function.update_of_ne same]
    exact tracked.parked j
  · subst same
    rw [Function.update_self]
    have others : takenOf (Function.update contexts j c) j = takenOf contexts j := by
      ext p
      refine exists_congr fun k => and_congr_right fun other => ?_
      rw [Function.update_of_ne other]
    rw [others]
    exact tidy.own
  · rw [Function.update_of_ne same]
    exact fun sending => (tracked.own j sending).beside same sending tidy
  · subst same
    rw [Function.update_self]
    exact free
  · rw [Function.update_of_ne same]
    exact tracked.free j

end Tables

section Runs

/-- The states that the callbacks of the service lead to from power on, whatever the router answers
them. -/
inductive Attended (fs : FileSystem Path (Slot cfg) UInt8 φ) (disk : φ) : Statics cfg φ → Prop where
  | boot : Attended fs disk ⟨fun _ => SyncContext.zero cfg, 0, disk⟩
  | opened {st st' : Statics cfg φ} {stream : Slot cfg} {suffix : List UInt8} {ret : Int} :
    Attended fs disk st → (syncOpen st stream suffix).Ends (ret, st') → Attended fs disk st'
  | wrote {st st' : Statics cfg φ} {stream : Slot cfg} {data : List UInt8} {ret : Int} :
    Attended fs disk st → (syncWrite fs st stream data).Ends (ret, st') → Attended fs disk st'
  | closed {st : Statics cfg φ} (stream : Slot cfg) : Attended fs disk st →
    Attended fs disk (syncClose fs st stream)

variable {fine : φ → Prop} {view : φ → Ledger Path} {old : Set Path}

def Settled (fine : φ → Prop) (view : φ → Ledger Path) (old : Set Path) (st : Statics cfg φ) :
    Prop :=
  fine st.disk → Tracked old (view st.disk) st.sideNonce st.contexts

variable {fs : FileSystem Path (Slot cfg) UInt8 φ} {st st' : Statics cfg φ} {stream : Slot cfg}

/-- A callback has worked on one context. What it keeps for any names of the others it also keeps
for an impossible account, so that all was fine before. -/
theorem Settled.leave (settled : Settled fine view old st) {i : Slot cfg} {l : Local cfg φ}
    (clean : ∀ others taken, Clean ⟨fine, view, old, others, taken⟩ (st.enter i) →
      Clean ⟨fine, view, old, others, taken⟩ l)
    (free : fine l.disk → l.ctx.stream = none → l.ctx.temporaryLive = false) :
    Settled fine view old (st.leave i l) := by
  intro good
  have before : fine st.disk := by
    by_contra bad
    exact (clean Set.univ ∅ (fun good => absurd good bad) good).inside (Set.mem_univ [])
  have tracked := settled before
  exact tracked.leave (clean _ _ (fun _ => tracked.enter i) good) (free good)

theorem Settled.opened (settled : Settled fine view old st) {suffix : List UInt8} {ret : Int}
    (ends : (syncOpen st stream suffix).Ends (ret, st')) : Settled fine view old st' := by
  unfold syncOpen at ends
  split_ifs at ends
  · cases ends
    exact settled
  · cases free : st.first fun c => c.stream.isNone with
    | none =>
      rw [free] at ends
      cases ends
      exact settled
    | some i =>
      rw [free] at ends
      cases ends
      have unused : (st.contexts i).stream = none := by
        have test := List.find?_some free
        simpa using test
      refine settled.leave (l := ⟨{ SyncContext.zero cfg with stream := some stream }, st.sideNonce,
        st.disk⟩) (fun others taken clean good => ?_) fun _ _ => rfl
      exact clean.over ((settled good).free i unused) rfl rfl rfl rfl good

variable (guarded : Guarded fs partMarked fine view) (few : ∀ x, fine x → (view x).looks < 2 ^ 32)

include guarded

theorem Settled.closed (settled : Settled fine view old st) (stream : Slot cfg) :
    Settled fine view old (syncClose fs st stream) := by
  unfold syncClose
  cases found : findContext st stream with
  | none => exact settled
  | some i =>
    refine settled.leave (fun others taken clean => ?_) fun _ _ => rfl
    have gone : (cleanupPartial fs i (st.enter i)).ctx.temporaryLive = false := by
      rw [cleanupPartial_ctx]
    exact (clean.cleanupPartial guarded).over gone rfl rfl rfl rfl

include few

theorem Settled.wrote (settled : Settled fine view old st) {data : List UInt8} {ret : Int}
    (ends : (syncWrite fs st stream data).Ends (ret, st')) : Settled fine view old st' := by
  unfold syncWrite at ends
  cases found : findContext st stream with
  | none =>
    rw [found] at ends
    cases ends
    exact settled
  | some i =>
    rw [found] at ends
    obtain ⟨out, called, last⟩ := ends.of_bind
    cases last
    have mine : out.2.ctx.stream = some stream :=
      (syncLoop_owned _ data (st.enter i) (findContext_stream found)).ends called
    refine settled.leave (fun others taken clean => ?_) fun _ unused => ?_
    · exact (syncLoop_ensures guarded few _ data (st.enter i) clean).ends called
    · cases unused.symm.trans mine

theorem Attended.settled {disk : φ} (attended : Attended fs disk st) :
    Settled fine view (view disk).files st := by
  induction attended with
  | boot =>
    refine fun _ => ⟨Nat.zero_le _, fun p _ => ⟨Or.inl, ?_⟩, (fun _ no => nomatch no),
      (fun _ no => nomatch no), fun _ _ => rfl⟩
    rintro (before | ⟨_, no, -⟩)
    · exact before
    · cases no
  | opened _ ends settled => exact settled.opened ends
  | wrote _ ends settled => exact settled.wrote guarded few ends
  | closed stream _ settled => exact settled.closed guarded stream

end Runs

end Webos.Adb.Sync
