/- digest: Stream ids are distinct while fewer are drawn in the life of a stream than there are. -/

import Mathlib.Data.List.Induction
import Webos.Adb.Framing
import Webos.Adb.Router.Gate

namespace Webos.Adb

open Webos.Lib.Bytes Webos.Lib.Program Webos.Lib.RingQueue

variable {cfg : Config} {σ π : Type} {env : Env cfg σ π}

/-- The id that the stream of each slot holds, and how many ids were drawn since. -/
abbrev Ages (cfg : Config) := Slot cfg → Option (UInt32 × Nat)

def Event.age (e : Event cfg) (ages : Ages cfg) : Ages cfg :=
  match e with
  | .drawn _ => fun s => (ages s).map fun held => (held.1, held.2 + 1)
  | .allocated s localId _ => Function.update ages s (some (localId, 0))
  | .released s => Function.update ages s none
  | _ => ages

def ages (log : List (Event cfg)) : Ages cfg := log.foldl (fun ages e => e.age ages) fun _ => none

/-- The stream table as the record tells it. The counter has gone on from the id of each stream by
as many draws as the stream is old, and no two streams are equally old. -/
structure Identified (w : World cfg σ π) : Prop where
  table : ∀ s, (ages w.log s).map Prod.fst =
    if (w.streams s).used then some (w.streams s).localId else none
  nonzero : ∀ s, (w.streams s).used = true → (w.streams s).localId ≠ 0
  counter : w.nextLocalId ≠ 0
  count : ∀ s id n, ages w.log s = some (id, n) → w.nextLocalId = nextId^[n + 1] id
  apart : ∀ s t id id' n, ages w.log s = some (id, n) → ages w.log t = some (id', n) → s = t

section Invariant

theorem ages_append (log : List (Event cfg)) (e : Event cfg) :
    ages (log ++ [e]) = e.age (ages log) := by
  rw [ages, List.foldl_append]
  rfl

theorem ages_quiet (log : List (Event cfg)) {e : Event cfg} (quiet : e.quiet = true) :
    ages (log ++ [e]) = ages log := by
  rw [ages_append]
  cases e with
  | drawn id => cases quiet
  | allocated s localId remoteId => cases quiet
  | released s => cases quiet
  | _ => rfl

variable {w v : World cfg σ π}

theorem Identified.keep (identified : Identified w) (same : ∀ s, (w.streams s).Same (v.streams s))
    (counter : v.nextLocalId = w.nextLocalId) (log : ages v.log = ages w.log) : Identified v := by
  refine ⟨fun s => ?_, fun s used => ?_, ?_, ?_, ?_⟩
  · rw [log, (same s).used, (same s).localId]
    exact identified.table s
  · rw [(same s).localId]
    rw [(same s).used] at used
    exact identified.nonzero s used
  · rw [counter]
    exact identified.counter
  · rw [log, counter]
    exact identified.count
  · rw [log]
    exact identified.apart

theorem Identified.still (identified : Identified w) (streams : v.streams = w.streams)
    (counter : v.nextLocalId = w.nextLocalId) (log : ages v.log = ages w.log) : Identified v :=
  identified.keep (fun _ => streams ▸ .refl _) counter log

theorem identified_release (s : Slot cfg) (identified : Identified w) :
    Identified (releaseStream env s w) := by
  have ids := releaseStream_nextLocalId env s w
  have streams := releaseStream_streams env s w
  have log := releaseStream_log env s w
  split_ifs at streams log with used
  · have before {t : Slot cfg} {held : UInt32 × Nat} (here : ages (w.log ++ [.released s]) t =
        some held) : ages w.log t = some held := by
      rw [ages_append, Event.age] at here
      by_cases same : t = s
      · rw [same, Function.update_self] at here
        cases here
      · rwa [Function.update_of_ne same] at here
    refine ⟨fun t => ?_, fun t here => ?_, ids ▸ identified.counter, fun t id n here => ?_,
      fun t t' id id' n here there => ?_⟩
    · rw [streams, log, ages_append, Event.age]
      by_cases same : t = s
      · subst same
        simp [Stream.zero]
      · simp only [Function.update_of_ne same]
        exact identified.table t
    · rw [streams] at here ⊢
      by_cases same : t = s
      · subst same
        rw [Function.update_self] at here
        cases here
      · rw [Function.update_of_ne same] at here ⊢
        exact identified.nonzero t here
    · rw [ids]
      rw [log] at here
      exact identified.count t id n (before here)
    · rw [log] at here there
      exact identified.apart t t' id id' n (before here) (before there)
  · exact identified.still streams ids (by rw [log])

theorem identifiedSends (env : Env cfg σ π) :
    Sends env (fun w v => Identified w → Identified v) where
  refl _ := id
  trans _ _ _ first second := second ∘ first
  note w _ quiet identified := identified.still rfl rfl (ages_quiet w.log quiet)
  control _ _ identified := identified.still rfl rfl rfl
  transmit _ _ _ _ _ _ _ identified := identified.still rfl rfl rfl
  mark w s st same identified := by
    refine identified.keep (fun t => ?_) rfl rfl
    by_cases at_s : t = s
    · subst at_s
      rw [setStream_streams, Function.update_self]
      exact same
    · rw [setStream_streams, Function.update_of_ne at_s]
      exact .refl _
  release _ s identified := identified_release s identified

theorem ages_drawn {log : List (Event cfg)} {s : Slot cfg} {id drawn : UInt32} {n : Nat}
    (here : ages (log ++ [.drawn drawn]) s = some (id, n)) :
    ∃ m, n = m + 1 ∧ ages log s = some (id, m) := by
  rw [ages_append, Event.age] at here
  dsimp only at here
  cases before : ages log s with
  | none =>
    rw [before] at here
    cases here
  | some held =>
    rw [before] at here
    cases here
    exact ⟨_, rfl, rfl⟩

theorem identified_draw (identified : Identified w) : Identified (allocateLocalId w).2 := by
  refine ⟨fun s => ?_, identified.nonzero, nextId_ne_zero _, fun s id n here => ?_,
    fun s t id id' n here there => ?_⟩
  · refine Eq.trans ?_ (identified.table s)
    change Option.map Prod.fst (ages (w.log ++ [.drawn w.nextLocalId]) s) = _
    rw [ages_append]
    exact Option.map_map _ _ _
  · obtain ⟨m, rfl, before⟩ := ages_drawn here
    rw [Function.iterate_succ_apply', ← identified.count s id m before]
    rfl
  · obtain ⟨m, rfl, before⟩ := ages_drawn here
    obtain ⟨m', same, before'⟩ := ages_drawn there
    cases same
    exact identified.apart s t id id' m before before'

theorem identified_allocate {remoteId : UInt32} {kind : ServiceKind} {s : Slot cfg}
    (allocated : allocateStream remoteId kind w = (some s, v)) (identified : Identified w) :
    Identified v := by
  have drawn := identified_draw identified
  have log := allocateStream_log allocated
  have shape := (allocateStream_some allocated).2
  have streams : v.streams = Function.update w.streams s { Stream.zero cfg with
      used := true, localId := w.nextLocalId, remoteId := remoteId
      generation := w.nextStreamGeneration, ops := some kind } := by rw [shape]; rfl
  have counter : v.nextLocalId = nextId w.nextLocalId := by rw [shape]; rfl
  have placed {t : Slot cfg} {held : UInt32 × Nat} (here : ages v.log t = some held) :
      t = s ∧ held = (w.nextLocalId, 0) ∨
        t ≠ s ∧ ages (w.log ++ [.drawn w.nextLocalId]) t = some held := by
    rw [log, ages_append, Event.age] at here
    by_cases same : t = s
    · subst same
      rw [Function.update_self] at here
      exact Or.inl ⟨rfl, (Option.some.inj here).symm⟩
    · rw [Function.update_of_ne same] at here
      exact Or.inr ⟨same, here⟩
  refine ⟨fun t => ?_, fun t used => ?_, counter ▸ nextId_ne_zero _, fun t id n here => ?_,
    fun t t' id id' n here there => ?_⟩
  · rw [log, ages_append, streams, Event.age]
    by_cases here : t = s
    · subst here
      simp
    · simp only [Function.update_of_ne here]
      exact drawn.table t
  · rw [streams] at used ⊢
    by_cases here : t = s
    · subst here
      rw [Function.update_self]
      exact identified.counter
    · rw [Function.update_of_ne here] at used ⊢
      exact identified.nonzero t used
  · rw [counter]
    rcases placed here with ⟨rfl, same⟩ | ⟨-, before⟩
    · cases same
      rfl
    · exact drawn.count t id n before
  · -- Every other stream has seen the draw of the id that the new one got.
    rcases placed here with ⟨rfl, same⟩ | ⟨other, before⟩ <;>
      rcases placed there with ⟨rfl, same'⟩ | ⟨other', before'⟩
    · rfl
    · cases same
      obtain ⟨m, no, -⟩ := ages_drawn before'
      cases no
    · cases same'
      obtain ⟨m, no, -⟩ := ages_drawn before
      cases no
    · exact drawn.apart t t' id id' n before before'

theorem identified_callback (env : Env cfg σ π) {α : Type} (program : Callback cfg σ α)
    (identified : Identified w) : Identified (callback env program w).2 :=
  (identifiedSends env).callback program w
    (fun _ _ identified => identified.still rfl rfl rfl) identified

theorem identifiedHandles (env : Env cfg σ π) :
    Handles env (fun w v => Identified w → Identified v) where
  toSends := identifiedSends env
  takeId w _ identified := identified_draw identified
  reboot w _ identified := by
    unfold webosAdbRebootRequest
    dsimp only
    split_ifs
    · exact identified.still rfl rfl rfl
    · exact identified.still rfl rfl (ages_append _ _)
  opened w v s remoteId kind suffix _ _ allocated identified := by
    have called := identified_callback env ((env.ops kind).openOp v.services s suffix)
      (identified_allocate allocated identified)
    unfold settleOpen
    split_ifs
    · exact identified_release s called
    · exact called
  wrote _ _ _ _ _ _ _ _ _ identified := identified_callback env _ identified
  readied _ _ _ _ _ _ _ _ identified := identified_callback env _ identified

theorem identified_restart (identified : Identified w) (gone : ∀ s, (w.streams s).used = false)
    (streams : v.streams = w.streams) (counter : v.nextLocalId ≠ 0)
    (log : ages v.log = ages w.log) : Identified v := by
  have empty (s : Slot cfg) : ages w.log s = none := by
    have table := identified.table s
    rw [gone s] at table
    exact Option.map_eq_none_iff.mp table
  refine ⟨fun s => ?_, fun s used => ?_, counter, fun s id n here => ?_,
    fun s t id id' n here there => ?_⟩
  · rw [log, streams]
    exact identified.table s
  · rw [streams, gone s] at used
    cases used
  · rw [log, empty s] at here
    cases here
  · rw [log, empty s] at here
    cases here

theorem identified_connect (identified : Identified w) : Identified (handleConnect env w).2 := by
  have closed : Identified (closeAllStreams env { w with online := false }) :=
    (identifiedSends env).closeAllStreams _ (identified.still rfl rfl rfl)
  have restarted : Identified (restartSession env w) :=
    identified_restart closed (closeAllStreams_unused env _) rfl (show (1 : UInt32) ≠ 0 by decide)
      (ages_append _ _)
  exact (identifiedSends env).connect (fun _ => restarted)
    (fun _ kept => kept.still rfl rfl (ages_append _ _)) identified

theorem identified_reset (identified : Identified w) :
    Identified (protocolResetUnlocked env w) := by
  have closed : Identified (closeAllStreams env (resetRx w)) :=
    (identifiedSends env).closeAllStreams _ (identified.still rfl rfl rfl)
  exact identified_restart closed (closeAllStreams_unused env _) rfl
    (show (1 : UInt32) ≠ 0 by decide) (ages_append _ _)

theorem identifiedEnters (env : Env cfg σ π) :
    Enters env (fun w v => Identified w → Identified v) where
  toHandles := identifiedHandles env
  receiver _ _ identified := identified.still rfl rfl rfl
  allocated _ _ identified := identified.still rfl rfl (ages_append _ _)
  connect _ _ identified := identified_connect identified
  dispatched _ _ identified := identified.still rfl rfl (ages_append _ _)
  dispatching _ _ identified := identified.still rfl rfl rfl
  reset _ identified := identified_reset identified

theorem visited_identified (visited : Visited env w) : Identified w := by
  induction visited with
  | boot services platform =>
    refine identified_reset ⟨fun s => rfl, fun s used => ?_, (show (1 : UInt32) ≠ 0 by decide),
      fun s id n here => ?_, fun s t id id' n here there => ?_⟩
    · cases used
    · cases here
    · cases here
  | input input _ identified => exact (identifiedEnters env).input input _ identified
  | enter _ identified => exact identified.still rfl rfl rfl
  | pass data _ dispatching identified =>
    exact ((identifiedEnters env).receives.receivePass data _ dispatching).1 identified

end Invariant

def openPacket (remoteId : UInt32) (destination : String) (short : destination.length < 256) :
    WirePacket where
  command := ADB_COMMAND_OPEN
  arg0 := remoteId
  arg1 := 0
  dataCheck := adbChecksum (ascii destination ++ [0])
  payload := ascii destination ++ [0]
  short := by
    simp only [ascii, List.length_append, List.length_map, List.length_singleton,
      String.length_toList]
    omega

def connectPacket : WirePacket := ⟨ADB_COMMAND_CNXN, ADB_VERSION, 4096, 0, [], by decide⟩

def trackPacket : WirePacket := openPacket 9 "track-jdwp" (by decide)

def shellPacket : WirePacket := openPacket 7 "shell:" (by decide)

def syncPacket : WirePacket := openPacket 7 "sync:" (by decide)

section Distinct

/-- While a stream lives, fewer ids are drawn than there are. -/
def FewDraws (log : List (Event cfg)) : Prop :=
  ∀ pre post, log = pre ++ post → ∀ s id n, ages pre s = some (id, n) → n < 2 ^ 32 - 1

theorem nextId_toNat {id : UInt32} (nonzero : id ≠ 0) :
    (nextId id).toNat = id.toNat % (2 ^ 32 - 1) + 1 := by
  have bound := id.toNat_lt
  have positive : id.toNat ≠ 0 := fun zero => nonzero (UInt32.toNat_inj.mp zero)
  have sum : (id + 1).toNat = (id.toNat + 1) % 2 ^ 32 := UInt32.toNat_add id 1
  unfold nextId
  split_ifs with wraps
  · rw [wraps] at sum
    have last : id.toNat = 2 ^ 32 - 1 := by
      change 0 = (id.toNat + 1) % 2 ^ 32 at sum
      omega
    rw [last]
    rfl
  · have inside : id.toNat < 2 ^ 32 - 1 := by
      by_contra outside
      have last : id.toNat = 2 ^ 32 - 1 := by omega
      rw [last] at sum
      exact wraps (UInt32.toNat_inj.mp sum)
    rw [sum, Nat.mod_eq_of_lt inside, Nat.mod_eq_of_lt (by omega)]

theorem iterate_nextId_ne_zero {id : UInt32} (nonzero : id ≠ 0) (n : Nat) : nextId^[n] id ≠ 0 := by
  cases n with
  | zero => exact nonzero
  | succ n =>
    rw [Function.iterate_succ_apply']
    exact nextId_ne_zero _

theorem iterate_nextId_toNat {id : UInt32} (nonzero : id ≠ 0) (n : Nat) :
    (nextId^[n] id).toNat = (id.toNat - 1 + n) % (2 ^ 32 - 1) + 1 := by
  have bound := id.toNat_lt
  have positive : id.toNat ≠ 0 := fun zero => nonzero (UInt32.toNat_inj.mp zero)
  induction n with
  | zero =>
    rw [Function.iterate_zero_apply, Nat.add_zero, Nat.mod_eq_of_lt (by omega)]
    omega
  | succ n ih =>
    rw [Function.iterate_succ_apply', nextId_toNat (iterate_nextId_ne_zero nonzero n), ih]
    omega

theorem iterate_nextId_inj {id : UInt32} (nonzero : id ≠ 0) {n m : Nat} (few : n < 2 ^ 32 - 1)
    (few' : m < 2 ^ 32 - 1) (same : nextId^[n + 1] id = nextId^[m + 1] id) : n = m := by
  have equal := congrArg UInt32.toNat same
  rw [iterate_nextId_toNat nonzero, iterate_nextId_toNat nonzero] at equal
  have bound := id.toNat_lt
  omega

/-- Stream ids are unambiguous as long as fewer than 2^32 - 1 ids are drawn while a stream lives:
those of the used streams are nonzero and distinct, so at most one stream matches a received
pair. -/
theorem stream_ids_unambiguous {w : World cfg σ π} (visited : Visited env w)
    (few : FewDraws w.log) :
    (∀ s, (ages w.log s).map Prod.fst =
      if (w.streams s).used then some (w.streams s).localId else none) ∧
    (∀ s, (w.streams s).used = true → (w.streams s).localId ≠ 0) ∧
    (∀ s t, (w.streams s).used = true → (w.streams t).used = true →
      (w.streams s).localId = (w.streams t).localId → s = t) := by
  have identified := visited_identified visited
  refine ⟨identified.table, identified.nonzero, fun s t used used' same => ?_⟩
  have age {s : Slot cfg} (used : (w.streams s).used = true) :
      ∃ n, ages w.log s = some ((w.streams s).localId, n) ∧ n < 2 ^ 32 - 1 := by
    have table := identified.table s
    rw [if_pos used] at table
    obtain ⟨⟨id, n⟩, here, rfl⟩ := Option.map_eq_some_iff.mp table
    exact ⟨n, here, few w.log [] (List.append_nil _).symm s _ n here⟩
  obtain ⟨n, here, young⟩ := age used
  obtain ⟨m, there, young'⟩ := age used'
  have count := (identified.count s _ n here).symm.trans (identified.count t _ m there)
  rw [← same] at count
  obtain rfl := iterate_nextId_inj (identified.nonzero s used) young young' count
  exact identified.apart s t _ _ n here there

theorem age_le_length {log : List (Event cfg)} {s : Slot cfg} {id : UInt32} {n : Nat}
    (here : ages log s = some (id, n)) : n ≤ log.length := by
  induction log using List.reverseRecOn generalizing s id n with
  | nil => cases here
  | append_singleton log e ih =>
    rw [List.length_append, List.length_singleton]
    cases e with
    | drawn _ =>
      obtain ⟨m, rfl, before⟩ := ages_drawn here
      exact Nat.succ_le_succ (ih before)
    | allocated a localId remoteId =>
      rw [ages_append, Event.age] at here
      by_cases same : s = a
      · rw [same, Function.update_self] at here
        cases here
        exact Nat.zero_le _
      · rw [Function.update_of_ne same] at here
        exact Nat.le_succ_of_le (ih here)
    | released a =>
      rw [ages_append, Event.age] at here
      by_cases same : s = a
      · rw [same, Function.update_self] at here
        cases here
      · rw [Function.update_of_ne same] at here
        exact Nat.le_succ_of_le (ih here)
    | _ =>
      rw [ages_append] at here
      exact Nat.le_succ_of_le (ih here)

theorem FewDraws.of_length {log : List (Event cfg)} (short : log.length < 2 ^ 32 - 1) :
    FewDraws log := by
  rintro pre post rfl s id n here
  have young := age_le_length here
  rw [List.length_append] at short
  omega

theorem stream_ids_unambiguous_two :
    let env := Env.ideal Config.project
    let w := World.inputs env (protocolResetUnlocked env (World.boot _ () ()))
      [.receive connectPacket.bytes, .receive syncPacket.bytes, .receive syncPacket.bytes]
    (∀ s, (w.streams s).used = true ∧ (w.streams s).remoteId = 7) ∧
    (∀ s t, (w.streams s).used = true → (w.streams t).used = true →
      (w.streams s).localId = (w.streams t).localId → s = t) := by
  intro env w
  have visited : Visited env w := .inputs _ (.boot () ())
  have few : FewDraws w.log := .of_length (by decide +kernel)
  have unambiguous := stream_ids_unambiguous visited few
  exact ⟨by decide +kernel, unambiguous.2.2⟩

end Distinct

end Webos.Adb
