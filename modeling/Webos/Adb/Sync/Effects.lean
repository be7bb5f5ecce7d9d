/- digest: What one pass of the sync loop does to its upload, to the disk and to the responses. -/

import Webos.Adb.Sync.Staging

namespace Webos.Adb.Sync

open Webos.Lib.Files Webos.Lib.Program

variable {cfg : Config} {φ ρ : Type}

def recording (h : Host cfg ρ) : Host cfg (ρ × List (List UInt8))
  | .write stream generation data, r =>
    let reply := h (.write stream generation data) r.1
    (reply.1, reply.2, if reply.1 = 0 then r.2 ++ [data] else r.2)
  | .close stream generation, r => ((), (h (.close stream generation) r.1).2, r.2)
  | .generation stream, r =>
    ((h (.generation stream) r.1).1, (h (.generation stream) r.1).2, r.2)
  | .maxPayload stream, r =>
    ((h (.maxPayload stream) r.1).1, (h (.maxPayload stream) r.1).2, r.2)

theorem exec_recording {α : Type} (m : Run cfg φ α) (h : Host cfg ρ) (l : Local cfg φ) (r : ρ)
    (told : List (List UInt8)) :
    (m.exec h l r).1 = (m.exec (recording h) l (r, told)).1 ∧
      (m.exec h l r).2.1 = (m.exec (recording h) l (r, told)).2.1 := by
  have same := (run_simulated h (recording h) (fun r r' => r = r'.1) (fun c r r' here => by
    subst here
    cases c <;> exact ⟨rfl, rfl⟩) (m l) r (r, told) rfl).1
  exact ⟨congrArg Prod.fst same, congrArg Prod.snd same⟩

/-- A response is taken and the pass goes on, or it is refused and the call is over. -/
inductive Replied (h : Host cfg ρ) (response : List UInt8) (told : List (List UInt8)) :
    Option Int → List (List UInt8) → Prop where
  | taken : Replied h response told none (told ++ [response])
  | refused {ret : Int} (bad : ret ≠ 0)
      (busy : ∃ stream r, (h (.write stream 0 response) r).1 ≠ 0) :
      Replied h response told (some ret) told

structure Holding (d : Storage cfg) (i : Slot cfg) (c : SyncContext cfg) (received : List UInt8) :
    Prop where
  staged : c.state.sending = true → Staged d i c received
  idle : c.state.sending = false → c.fileOpen = false ∧ c.temporaryLive = false

theorem Staged.holding {d : Storage cfg} {i : Slot cfg} {c : SyncContext cfg} {stored : List UInt8}
    (staged : Staged d i c stored) (sending : c.state.sending = true) : Holding d i c stored :=
  ⟨fun _ => staged, fun idle => absurd sending (Bool.eq_false_iff.mp idle)⟩

structure Released (c c' : SyncContext cfg) : Prop where
  stream : c'.stream = c.stream
  closed : c'.fileOpen = false
  gone : c'.temporaryLive = false

/-- A request names only files of `N`. -/
def Request.Within (N : Set Path) : Request → Prop
  | .stat path => path ∈ N
  | .send s => ∀ path mode, splitSpec s.spec = some (path, mode) → namesOf path ⊆ N

theorem Request.within_univ (q : Request) : q.Within Set.univ := by
  cases q with
  | stat path => trivial
  | send s => exact fun _ _ _ => Set.subset_univ _

def SyncContext.stagingNames (c : SyncContext cfg) : List Path :=
  if c.state.sending then [c.temporary] else []

def SyncContext.installNames (c : SyncContext cfg) : List Path := [c.temporary, c.backup, c.path]

section Effect

variable (view : φ → Storage cfg) (i : Slot cfg) (h : Host cfg ρ) (l : Local cfg φ)
variable (data future : List UInt8) (told : List (List UInt8))

inductive Effect : List Request → Bool → List UInt8 →
    (Option Int × List UInt8) × Local cfg φ × ρ × List (List UInt8) → Prop where
  | quiet {todo todo' : List Request} {paid paid' : Bool} {received received' rest : List UInt8}
      {m : Local cfg φ} {r : ρ} (shorter : rest.length < data.length)
      (same : SameUpload l.ctx m.ctx) (disk : m.disk = l.disk)
      (expects : Expects m.ctx (rest ++ future) todo' paid' received')
      (owed : due todo' paid' = due todo paid) (suffix : todo' <:+ todo)
      (working : m.ctx.state.sending = l.ctx.state.sending)
      (holding : Holding (view m.disk) i m.ctx received') :
      Effect todo paid received ((none, rest), m, r, told)
  | stat {path : List UInt8} {entry : Option Entry} {later : List Request} {exit : Option Int}
      {rest : List UInt8} {m : Local cfg φ} {r : ρ} {told' : List (List UInt8)}
      (shorter : rest.length < data.length) (released : Released l.ctx m.ctx)
      (replied : Replied h (statRecord entry) told exit told')
      (touches : Touches i [] (view l.disk) (view m.disk))
      (expects : Expects m.ctx (rest ++ future) later false [])
      (holding : Holding (view m.disk) i m.ctx []) :
      Effect (.stat path :: later) false [] ((exit, rest), m, r, told')
  | began {s : Send} {later : List Request} {mode rest : List UInt8} {m : Local cfg φ} {r : ρ}
      (shorter : rest.length < data.length) (stream : m.ctx.stream = l.ctx.stream)
      (spec : splitSpec s.spec = some (m.ctx.path, mode))
      (touches : Touches i [m.ctx.temporary] (view l.disk) (view m.disk))
      (free : (view l.disk).failures = (view m.disk).failures →
        (view l.disk).node m.ctx.temporary = none)
      (expects : Expects m.ctx (rest ++ future) (.send s :: later) false [])
      (sending : m.ctx.state.sending = true) (staged : Staged (view m.disk) i m.ctx []) :
      Effect (.send s :: later) false [] ((none, rest), m, r, told)
  | stored {s : Send} {later : List Request} {received chunk rest : List UInt8} {m : Local cfg φ}
      {r : ρ} (shorter : rest.length < data.length) (before : l.ctx.state.sending = true)
      (same : SameUpload l.ctx m.ctx)
      (touches : Touches i [l.ctx.temporary] (view l.disk) (view m.disk))
      (expects : Expects m.ctx (rest ++ future) (.send s :: later) false (received ++ chunk))
      (sending : m.ctx.state.sending = true)
      (staged : Staged (view m.disk) i m.ctx (received ++ chunk)) :
      Effect (.send s :: later) false received ((none, rest), m, r, told)
  | failed {s : Send} {later : List Request} {received received' reason rest : List UInt8}
      {exit : Option Int} {m : Local cfg φ} {r : ρ} {told' : List (List UInt8)}
      (shorter : rest.length < data.length) (released : Released l.ctx m.ctx)
      (replied : Replied h (statusRecord SYNC_ID_FAIL reason) told exit told')
      (touches : Touches i l.ctx.stagingNames (view l.disk) (view m.disk))
      (cause : ¬goodSpec cfg s.spec ∨
        (opensUpload l.ctx data s.spec ∧ ∃ path mode, splitSpec s.spec = some (path, mode) ∧
          namesTaken (view l.disk).node path 32 l.sideNonce) ∨
        (∃ path mode, splitSpec s.spec = some (path, mode) ∧ (view l.disk).node path = some .dir) ∨
        (view l.disk).failures < (view m.disk).failures)
      (expects : exit = none → Expects m.ctx (rest ++ future) (.send s :: later) true received')
      (idle : exit = none → m.ctx.state.sending = false) :
      Effect (.send s :: later) false received ((exit, rest), m, r, told')
  | installed {s : Send} {later : List Request} {timestamp : UInt32} {rest : List UInt8}
      {exit : Option Int} {m : Local cfg φ} {r : ρ} {told' : List (List UInt8)}
      (shorter : rest.length < data.length) (before : l.ctx.state.sending = true)
      (finale : s.finale = .done timestamp) (released : Released l.ctx m.ctx)
      (replied : Replied h (statusRecord SYNC_ID_OKAY []) told exit told')
      (touches : Touches i l.ctx.installNames (view l.disk) (view m.disk))
      (node : (view m.disk).node l.ctx.path = some (.file s.contents))
      (bytes : rest ++ future = wires later)
      (expects : exit = none → Expects m.ctx (rest ++ future) later false [])
      (idle : exit = none → m.ctx.state.sending = false) :
      Effect (.send s :: later) false s.contents ((exit, rest), m, r, told')
  | misplaced {s : Send} {later : List Request} {timestamp : UInt32} {reason rest : List UInt8}
      {exit : Option Int} {m : Local cfg φ} {r : ρ} {told' : List (List UInt8)}
      (shorter : rest.length < data.length) (before : l.ctx.state.sending = true)
      (finale : s.finale = .done timestamp) (released : Released l.ctx m.ctx)
      (replied : Replied h (statusRecord SYNC_ID_FAIL reason) told exit told')
      (touches : Touches i l.ctx.installNames (view l.disk) (view m.disk))
      (node : (view m.disk).node l.ctx.path = (view l.disk).node l.ctx.path ∨
        (view l.disk).failures + 2 ≤ (view m.disk).failures)
      (failed : (view l.disk).failures < (view m.disk).failures)
      (bytes : rest ++ future = wires later) :
      Effect (.send s :: later) false s.contents ((exit, rest), m, r, told')
  | refused {q : Request} {later : List Request} {reason rest : List UInt8} {exit : Option Int}
      {m : Local cfg φ} {r : ρ} {told' : List (List UInt8)} (shorter : rest.length < data.length)
      (unbounded : ¬boundedText cfg q.text) (released : Released l.ctx m.ctx)
      (disk : m.disk = l.disk)
      (replied : Replied h (statusRecord SYNC_ID_FAIL reason) told exit told')
      (discarding : exit = none → m.ctx.state = .discardAndClose ∧ m.ctx.remaining = 0) :
      Effect (q :: later) false [] ((exit, rest), m, r, told')
  | broken {s : Send} {later : List Request} {id value : UInt32} {received reason rest : List UInt8}
      {exit : Option Int} {m : Local cfg φ} {r : ρ} {told' : List (List UInt8)}
      (shorter : rest.length < data.length) (finale : s.finale = .broken id value)
      (released : Released l.ctx m.ctx)
      (replied : Replied h (statusRecord SYNC_ID_FAIL reason) told exit told')
      (touches : Touches i l.ctx.stagingNames (view l.disk) (view m.disk))
      (bytes : rest ++ future = wires later) :
      Effect (.send s :: later) false received ((exit, rest), m, r, told')
  | lost {s : Send} {later : List Request} {id value : UInt32} {received rest : List UInt8}
      {m : Local cfg φ} {r : ρ} (shorter : rest.length < data.length)
      (finale : s.finale = .broken id value) (released : Released l.ctx m.ctx)
      (disk : m.disk = l.disk) (bytes : rest ++ future = wires later) :
      Effect (.send s :: later) true received ((none, rest), m, r, told)

end Effect

section Replies

variable {h : Host cfg ρ} {response rest : List UInt8} {told told' : List (List UInt8)}
variable {exit : Option Int}

theorem Replied.proceed (replied : Replied h response told exit told') :
    proceed (exit.getD 0) rest = (exit, rest) := by
  cases replied with
  | taken => rfl
  | refused bad busy => exact if_pos bad

theorem Replied.eio (replied : Replied h response told exit told') :
    ∃ exit', Replied h response told exit' told' ∧ (exit' = none ↔ exit = none) ∧
      (if exit.getD 0 ≠ 0 then - EIO else 0) = exit'.getD 0 := by
  have eio : - EIO ≠ 0 := by decide
  cases replied with
  | taken => exact ⟨none, .taken, Iff.rfl, rfl⟩
  | refused bad busy => exact ⟨some (- EIO), .refused eio busy, by simp, if_pos bad⟩

theorem recording_write (h : Host cfg ρ) (stream : Option (Slot cfg))
    (response : List UInt8) (r : ρ)
    (told : List (List UInt8)) :
    ∃ exit r' told', recording h (.write stream 0 response) (r, told) = (exit.getD 0, r', told') ∧
      Replied h response told exit told' := by
  by_cases accepted : (h (.write stream 0 response) r).1 = 0
  · refine ⟨none, (h (.write stream 0 response) r).2, told ++ [response], ?_, .taken⟩
    simp only [recording, accepted, ↓reduceIte]
    rfl
  · refine ⟨some (h (.write stream 0 response) r).1, (h (.write stream 0 response) r).2, told, ?_,
      .refused accepted ⟨stream, r, accepted⟩⟩
    simp only [recording, accepted, ↓reduceIte]
    rfl

theorem recording_close (h : Host cfg ρ) (stream : Option (Slot cfg)) (r : ρ)
    (told : List (List UInt8)) :
    (recording h (.close stream 0) (r, told)).2 = ((h (.close stream 0) r).2, told) := rfl

theorem failTransfer_replied (fs : FileSystem Path (Slot cfg) UInt8 φ) (i : Slot cfg)
    (h : Host cfg ρ) (reason : List UInt8) (drain : SyncState) (m : Local cfg φ) (r : ρ)
    (told : List (List UInt8)) :
    ∃ exit m' r' told', (failTransfer fs i reason drain).exec (recording h) m (r, told) =
        (exit.getD 0, m', r', told') ∧
      Replied h (statusRecord SYNC_ID_FAIL reason) told exit told' ∧
      m'.disk = (cleanupPartial fs i m).disk ∧
      m'.ctx = { m.ctx with
        fileOpen := false
        temporaryLive := false
        state := if exit = none then drain else m.ctx.state } := by
  obtain ⟨exit, r', told', host, replied⟩ :=
    recording_write h m.ctx.stream (statusRecord SYNC_ID_FAIL reason) r told
  have ctx := cleanupPartial_ctx fs i m
  rw [exec_failTransfer, host]
  cases replied with
  | taken =>
    refine ⟨none, _, _, _, rfl, .taken, rfl, ?_⟩
    dsimp only [Local.set]
    rw [ctx]
    rfl
  | refused bad busy =>
    dsimp only [Option.getD_some]
    rw [if_pos bad]
    exact ⟨some _, _, _, _, rfl, .refused bad busy, rfl, ctx⟩

end Replies

section Passes

variable {fs : FileSystem Path (Slot cfg) UInt8 φ} {view : φ → Storage cfg} {N : Set Path}
variable (atomic : AtomicOn N fs view) {i : Slot cfg} {h : Host cfg ρ} {l : Local cfg φ} {r : ρ}
variable {data future rest : List UInt8} {told : List (List UInt8)} {c : SyncContext cfg}
variable {s : Send} {later : List Request}

include atomic

private theorem effect_start (asked : (Request.send s).Within N)
    (hands : Hands fs i l data (startSend fs i) c rest)
    (same : SameUpload l.ctx c) (opening : opensUpload l.ctx data s.spec)
    (flags : l.ctx.fileOpen = false ∧ l.ctx.temporaryLive = false) (fresh : c.header = [])
    (spec : c.spec = s.spec) (bounded : ∀ data ∈ s.records, data.length ≤ cfg.syncDataMax)
    (bytes : rest ++ future = recordsWire s.records s.finale ++ wires later) :
    Effect view i h l data future told (.send s :: later) false []
      ((syncPass fs i data).exec (recording h) l (r, told)) := by
  rw [hands.2, exec_startSend]
  have prepared := prepareSend_prepared atomic i { l with ctx := c } (spec ▸ asked)
  have parse := prepareSend_parse fs i { l with ctx := c }
  have begun := prepareSend_begun fs i { l with ctx := c }
  generalize prepareSend fs i { l with ctx := c } = out at prepared parse begun ⊢
  cases prepared with
  | @refused reason m touches fileOpen live cause =>
    obtain ⟨exit, m', r', told', run, replied, disk, ctx⟩ :=
      failTransfer_replied fs i h reason .drainHeader m r told
    have closed : m.ctx.fileOpen = false := fileOpen.trans (same.fileOpen.trans flags.1)
    have gone : m.ctx.temporaryLive = false := live.trans (same.temporaryLive.trans flags.2)
    rw [cleanupPartial_idle i m closed gone] at disk
    dsimp only
    rw [run]
    rw [replied.proceed]
    rw [← disk] at touches cause
    have names : l.ctx.stagingNames = [] := by
      unfold SyncContext.stagingNames
      rw [opening.1]
      rfl
    have state (taken : exit = none) : m'.ctx.state = .drainHeader := by
      rw [ctx, if_pos taken]
    refine .failed hands.1 ⟨?_, ?_, ?_⟩ replied ?_ ?_ (fun taken => .started true (state taken) ?_
      bounded bytes) (fun taken => by rw [state taken]; rfl)
    · rw [ctx]
      exact parse.stream.trans same.stream
    · rw [ctx]
    · rw [ctx]
    · rw [names]
      exact touches
    · rw [show ({ l with ctx := c } : Local cfg φ).ctx.spec = s.spec from spec] at cause
      exact cause.imp_right (Or.imp_left fun taken => ⟨opening, taken⟩)
    · rw [ctx]
      exact parse.header.trans fresh
  | @begun mode m split touches staged free =>
    have state : m.ctx.state = .sendHeader := begun rfl
    rw [show ({ l with ctx := c } : Local cfg φ).ctx.spec = s.spec from spec] at split
    refine .began hands.1 (parse.stream.trans same.stream) split touches free
      (.started false state (parse.header.trans fresh) bounded bytes) ?_ staged
    rw [state]
    rfl

variable {received : List UInt8}

private theorem effect_chunk {chunk part : List UInt8} {records : List (List UInt8)}
    (hands : Hands fs i l data (storeData fs i chunk part.length) l.ctx rest)
    (sending : l.ctx.state = .sendData) (fresh : l.ctx.header = [])
    (staged : Staged (view l.disk) i l.ctx received)
    (bytes : rest ++ future = part ++ (recordsWire records s.finale ++ wires later))
    (left : s.Left cfg (received ++ chunk) part records) :
    Effect view i h l data future told (.send s :: later) false received
      ((syncPass fs i data).exec (recording h) l (r, told)) := by
  have before : l.ctx.state.sending = true := by
    rw [sending]
    rfl
  have names : l.ctx.stagingNames = [l.ctx.temporary] := if_pos before
  rw [hands.2, exec_storeData]
  rcases write_cases atomic i l chunk staged.handle staged.node with
    ⟨stored, whole⟩ | ⟨⟨piece, -, lost⟩, short⟩
  · rw [if_neg (not_not.mpr whole)]
    have touches := store_touches i l.ctx.temporary (received ++ chunk) (view l.disk)
    have after := staged.store (received ++ chunk)
    rw [← stored] at touches after
    by_cases full : part.length = 0
    · rw [if_pos full]
      refine .stored hands.1 before ⟨rfl, rfl, rfl, rfl, rfl, rfl⟩ touches
        (.stored false ?_ fresh rfl bytes left) rfl
        (after.same ⟨rfl, rfl, rfl, rfl, rfl, rfl⟩)
      rw [if_pos full]
      rfl
    · rw [if_neg full]
      refine .stored hands.1 before ⟨rfl, rfl, rfl, rfl, rfl, rfl⟩ touches
        (.stored false ?_ fresh rfl bytes left) before
        (after.same ⟨rfl, rfl, rfl, rfl, rfl, rfl⟩)
      rw [if_neg full]
      exact sending
  · rw [if_pos short]
    obtain ⟨exit, m', r', told', run, replied, disk, ctx⟩ := failTransfer_replied fs i h
      (ascii "write failed") (if part.length = 0 then .drainHeader else .drainData)
      ((l.write fs i chunk).2.set fun c => { c with remaining := part.length }) r told
    obtain ⟨exit', replied', same, code⟩ := replied.eio
    rw [run]
    dsimp only
    rw [code, replied'.proceed]
    have file : (view (l.write fs i chunk).2.disk).node l.ctx.temporary =
        some (.file (received ++ piece)) := by
      rw [lost]
      exact (staged.store _).node
    have written : Touches i [l.ctx.temporary] (view l.disk)
      (view (l.write fs i chunk).2.disk) := by
      rw [lost]
      have touches := store_touches i l.ctx.temporary (received ++ piece) (view l.disk)
      exact ⟨touches.node, touches.handle, Nat.le_succ _⟩
    have grown : (view l.disk).failures < (view (l.write fs i chunk).2.disk).failures := by
      rw [lost]
      exact Nat.lt_succ_self _
    have cleaned := cleanupPartial_touches atomic i
      ((l.write fs i chunk).2.set fun c => { c with remaining := part.length })
      (fun _ => ⟨_, file⟩)
    have state (taken : exit' = none) : m'.ctx.state =
        if part.length = 0 then .drainHeader else .drainData := by
      rw [ctx, if_pos (same.mp taken)]
    rw [← disk] at cleaned
    refine .failed hands.1 ⟨?_, ?_, ?_⟩ replied' ?_
      (Or.inr (Or.inr (Or.inr (Nat.lt_of_lt_of_le grown cleaned.failures))))
      (fun taken => .stored true (state taken) ?_ ?_ bytes left) (fun taken => ?_)
    · rw [ctx]
      rfl
    · rw [ctx]
    · rw [ctx]
    · rw [names]
      exact written.trans cleaned
    · rw [ctx]
      exact fresh
    · rw [ctx]
      rfl
    · rw [state taken]
      split_ifs <;> rfl

private theorem effect_finish {timestamp : UInt32} (known : namesOf l.ctx.path ⊆ N)
    (hands : Hands fs i l data (finishSend fs i) c rest) (same : SameUpload l.ctx c)
    (before : l.ctx.state.sending = true) (fresh : c.header = [])
    (staged : Staged (view l.disk) i l.ctx s.contents)
    (target : (view l.disk).node l.ctx.path ≠ some .dir) (finale : s.finale = .done timestamp)
    (bytes : rest ++ future = wires later) :
    Effect view i h l data future told (.send s :: later) false s.contents
      ((syncPass fs i data).exec (recording h) l (r, told)) := by
  have here : (view l.disk).node c.path ≠ some .dir := by
    rw [same.path]
    exact target
  have replaced := replaceDestination_replaced atomic i { l with ctx := c } (same.path ▸ known)
    (staged.same same) here
  have names : l.ctx.installNames = c.installNames := by
    unfold SyncContext.installNames
    rw [same.temporary, same.backup, same.path]
  rw [hands.2, exec_finishSend]
  generalize replaceDestination fs i { l with ctx := c } = out at replaced ⊢
  cases replaced with
  | @installed m touches node ctx =>
    obtain ⟨exit, r', told', host, replied⟩ :=
      recording_write h c.stream (statusRecord SYNC_ID_OKAY []) r told
    rw [if_neg (not_not.mpr rfl), host]
    dsimp only
    rw [replied.proceed]
    have zero : exit.getD 0 = 0 ↔ exit = none := by
      cases replied with
      | taken => simp
      | refused bad busy => simpa using bad
    have final : (if exit.getD 0 = 0 then m.set fun c =>
      { c with state := .requestHeader } else m) =
        m.set fun c => { c with state := if exit = none then .requestHeader else c.state } := by
      by_cases taken : exit = none
      · rw [if_pos (zero.mpr taken)]
        simp [taken]
      · rw [if_neg fun none => taken (zero.mp none)]
        simp only [taken, ↓reduceIte]
        rfl
    rw [final]
    refine .installed hands.1 before finale ⟨?_, ?_, ?_⟩ replied ?_ ?_ bytes
      (fun taken => .idle ?_ ?_ ?_) (fun taken => ?_)
    · show m.ctx.stream = l.ctx.stream
      rw [ctx]
      exact same.stream
    · show m.ctx.fileOpen = false
      rw [ctx]
    · show m.ctx.temporaryLive = false
      rw [ctx]
    · rw [names]
      exact touches
    · rw [← same.path]
      exact node
    · exact if_pos taken
    · show m.ctx.header.length < SYNC_HEADER_SIZE
      rw [ctx]
      rw [fresh]
      exact header_pos
    · show m.ctx.header ++ (rest ++ future) = wires later
      rw [ctx]
      rw [fresh]
      exact bytes
    · show (if exit = none then SyncState.requestHeader else m.ctx.state).sending = false
      rw [if_pos taken]
      rfl
  | @kept ret m bad touches node failed here ctx =>
    obtain ⟨exit, m', r', told', run, replied, disk, ctx'⟩ := failTransfer_replied fs i h
      (ascii "cannot install completed file") .drainHeader m r told
    have cleaned := cleanupPartial_touches atomic i m
      (fun _ => ⟨s.contents, by rw [ctx]; exact here⟩)
    rw [← disk, ctx] at cleaned
    have path : c.path ∉ [c.temporary] := fun inside =>
      (staged.same same).temporary_ne (allowed_visible (staged.same same).allowed)
        (List.mem_singleton.mp inside)
    have kept := cleaned.node _ path
    have grown := cleaned.failures
    rw [if_pos bad, run]
    rw [replied.proceed]
    refine .misplaced hands.1 before finale ⟨?_, ?_, ?_⟩ replied ?_ ?_
      (Nat.lt_of_lt_of_le failed grown) bytes
    · rw [ctx', ctx]
      exact same.stream
    · rw [ctx']
    · rw [ctx']
    · rw [names]
      exact touches.trans (cleaned.mono (by simp))
    · rw [← same.path]
      rcases node with unchanged | twice
      · exact Or.inl (kept.trans unchanged)
      · exact Or.inr (Nat.le_trans twice grown)

private theorem effect_broken {id value : UInt32}
    (hands : Hands fs i l data (processRecord fs i id value) c rest) (same : SameUpload l.ctx c)
    (before : l.ctx.state.sending = true) (staged : Staged (view l.disk) i l.ctx received)
    (finale : s.finale = .broken id value) (bad : id ≠ SYNC_ID_DONE ∧ badRecord cfg id value)
    (bytes : rest ++ future = wires later) :
    Effect view i h l data future told (.send s :: later) false received
      ((syncPass fs i data).exec (recording h) l (r, told)) := by
  obtain ⟨exit, m', r', told', run, replied, disk, ctx⟩ := failTransfer_replied fs i h
    (ascii "invalid or oversized DATA") .discardAndClose { l with ctx := c } r told
  have cleaned := cleanupPartial_touches atomic i { l with ctx := c }
    (fun _ => ⟨received, (staged.same same).node⟩)
  have names : l.ctx.stagingNames = [c.temporary] := by
    rw [same.temporary]
    exact if_pos before
  rw [hands.2]
  simp only [processRecord, bad.1, bad.2, ↓reduceIte]
  rw [exec_bind, run, exec_bind, exec_hangUp]
  rw [exec_pure, recording_close]
  rw [replied.proceed]
  refine .broken hands.1 finale ⟨?_, ?_, ?_⟩ replied ?_ bytes
  · rw [ctx]
    exact same.stream
  · rw [ctx]
  · rw [ctx]
  · rw [names, disk]
    exact cleaned

omit atomic in
private theorem effect_refuse {q : Request}
    (hands : Hands fs i l data (processRequest q.id (UInt32.ofNat q.text.length)) c rest)
    (same : SameUpload l.ctx c) (flags : l.ctx.fileOpen = false ∧ l.ctx.temporaryLive = false)
    (short : q.text.length < 2 ^ 32) (unbounded : ¬boundedText cfg q.text) :
    Effect view i h l data future told (q :: later) false []
      ((syncPass fs i data).exec (recording h) l (r, told)) := by
  have size : (UInt32.ofNat q.text.length).toNat = q.text.length := UInt32.toNat_ofNat_of_lt' short
  have serves : ¬((q.id = SYNC_ID_SEND ∨ q.id = SYNC_ID_STAT) ∧ UInt32.ofNat q.text.length ≠ 0 ∧
      (UInt32.ofNat q.text.length).toNat < specCapacity cfg) := by
    rintro ⟨-, filled, bounded⟩
    refine unbounded ⟨fun empty => filled ?_, by rwa [size] at bounded⟩
    rw [empty]
    rfl
  have quits : ¬(q.id = SYNC_ID_QUIT ∧ UInt32.ofNat q.text.length = 0) := by
    rintro ⟨quit, -⟩
    cases q with
    | stat path => exact absurd quit (show ¬SYNC_ID_STAT = SYNC_ID_QUIT by decide)
    | send s => exact absurd quit (show ¬SYNC_ID_SEND = SYNC_ID_QUIT by decide)
  obtain ⟨exit, r', told', host, replied⟩ := recording_write h c.stream
    (statusRecord SYNC_ID_FAIL (ascii "only bounded STAT and SEND are supported")) r told
  rw [hands.2]
  simp only [processRequest, if_neg quits, if_neg serves]
  rw [exec_bind, exec_sendStatus, exec_respond, host, exec_ite]
  have closed := same.fileOpen.trans flags.1
  have gone := same.temporaryLive.trans flags.2
  cases replied with
  | taken =>
    exact .refused hands.1 unbounded ⟨same.stream, closed, gone⟩ rfl .taken fun _ => ⟨rfl, rfl⟩
  | refused bad busy =>
    have eio : - EIO ≠ 0 := by decide
    simp only [Option.getD_some, if_pos bad, exec_pure, proceed, if_pos eio]
    exact .refused hands.1 unbounded ⟨same.stream, closed, gone⟩ rfl (.refused eio busy)
      fun taken => absurd taken (Option.some_ne_none _)

private theorem effect_stat {path : List UInt8} (asked : path ∈ N) (spec : c.spec = path)
    (hands : Hands fs i l data (sendStat fs) c rest)
    (same : SameUpload l.ctx c) (flags : l.ctx.fileOpen = false ∧ l.ctx.temporaryLive = false)
    (fresh : c.header = []) (bytes : rest ++ future = wires later) :
    Effect view i h l data future told (.stat path :: later) false []
      ((syncPass fs i data).exec (recording h) l (r, told)) := by
  have found : Touches i [] (view l.disk) (view (findEntry fs { l with ctx := c }).2.disk) := by
    unfold findEntry
    split_ifs
    · exact stat_touches atomic i { l with ctx := c } (spec ▸ asked)
    · exact Touches.refl _ _ _
  have ctx : (findEntry fs { l with ctx := c }).2.ctx = c := by
    unfold findEntry
    split_ifs <;> rfl
  obtain ⟨exit, r', told', host, replied⟩ := recording_write h c.stream
    (statRecord (findEntry fs { l with ctx := c }).1) r told
  rw [hands.2, exec_sendStat]
  dsimp only
  rw [host]
  rw [replied.proceed]
  have closed : c.fileOpen = false := same.fileOpen.trans flags.1
  have gone : c.temporaryLive = false := same.temporaryLive.trans flags.2
  dsimp only [Local.set]
  rw [ctx]
  refine .stat hands.1 ⟨same.stream, closed, gone⟩ replied found (.idle rfl ?_ ?_)
    ⟨fun sending => (nomatch sending), fun _ => ⟨closed, gone⟩⟩
  · rw [fresh]
    exact header_pos
  · rw [fresh]
    exact bytes

omit atomic in
private theorem effect_lost {id value : UInt32}
    (hands : Hands fs i l data (processDrain id value) c rest) (same : SameUpload l.ctx c)
    (flags : l.ctx.fileOpen = false ∧ l.ctx.temporaryLive = false)
    (finale : s.finale = .broken id value) (bad : id ≠ SYNC_ID_DONE ∧ badRecord cfg id value)
    (bytes : rest ++ future = wires later) :
    Effect view i h l data future told (.send s :: later) true received
      ((syncPass fs i data).exec (recording h) l (r, told)) := by
  rw [hands.2]
  simp only [processDrain, bad.1, bad.2, ↓reduceIte]
  exact .lost hands.1 finale
    ⟨same.stream, same.fileOpen.trans flags.1, same.temporaryLive.trans flags.2⟩ rfl bytes

theorem pass_effect {todo : List Request} {paid : Bool}
    (expects : Expects l.ctx (data ++ future) todo paid received)
    (formed : ∀ q ∈ todo, q.Formed cfg) (asked : ∀ q ∈ todo, q.Within N)
    (known : l.ctx.state.sending = true → namesOf l.ctx.path ⊆ N)
    (holding : Holding (view l.disk) i l.ctx received)
    (target : l.ctx.state.sending = true → (view l.disk).node l.ctx.path ≠ some .dir)
    (more : data ≠ []) :
    Effect view i h l data future told todo paid received
      ((syncPass fs i data).exec (recording h) l (r, told)) := by
  cases turn fs i expects more with
  | quiet hands same expects' owed suffix working kept =>
    rw [hands.2, exec_pure]
    refine .quiet hands.1 same rfl expects' owed suffix working ⟨fun sending => ?_, fun idle => ?_⟩
    · have sending := working.symm.trans sending
      rw [kept sending]
      exact (holding.staged sending).same same
    · have flags := holding.idle (working.symm.trans idle)
      exact ⟨same.fileOpen.trans flags.1, same.temporaryLive.trans flags.2⟩
  | refuse hands same idle unbounded =>
    have flags := holding.idle (by rw [idle]; rfl)
    exact effect_refuse hands same flags (formed _ List.mem_cons_self).1 unbounded
  | stat hands same idle fresh spec bytes =>
    have flags := holding.idle (by rw [idle]; rfl)
    exact effect_stat atomic (asked _ List.mem_cons_self) spec hands same flags fresh bytes
  | start hands same opening fresh spec bytes =>
    have flags := holding.idle (by rw [opening.1]; rfl)
    exact effect_start atomic (asked _ List.mem_cons_self) hands same opening flags fresh spec
      (formed _ List.mem_cons_self).2.1 bytes
  | chunk hands sending fresh bytes left =>
    have staged := holding.staged (by rw [sending]; rfl)
    exact effect_chunk atomic hands sending fresh staged bytes left
  | finish hands same sending fresh finale bytes closing =>
    have before : l.ctx.state.sending = true := by
      rw [sending]
      rfl
    exact effect_finish atomic (known before) hands same before fresh (holding.staged before)
      (target before)
      finale bytes
  | broken hands same sending finale bytes =>
    have before : l.ctx.state.sending = true := by
      rw [sending]
      rfl
    have bad := (formed _ List.mem_cons_self).2.2
    rw [finale] at bad
    exact effect_broken atomic hands same before (holding.staged before) finale bad bytes
  | lost hands same draining finale bytes =>
    have flags := holding.idle (by rw [draining]; rfl)
    have bad := (formed _ List.mem_cons_self).2.2
    rw [finale] at bad
    exact effect_lost hands same flags finale bad bytes

end Passes

end Webos.Adb.Sync
