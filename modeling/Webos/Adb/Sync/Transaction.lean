/- digest: However a push ends, its destination is as before or holds the whole upload. -/

import Webos.Adb.Sync.Boundaries
import Webos.Adb.Sync.Effects

namespace Webos.Adb.Sync

open Webos.Lib.Bytes Webos.Lib.Files Webos.Lib.Fragment Webos.Lib.Program

variable {cfg : Config} {φ ρ : Type}

/-- `sync_write` for every chunk in turn. After an error the router writes no more. -/
def writeAll (fs : FileSystem Path (Slot cfg) UInt8 φ) (h : Host cfg ρ) (stream : Slot cfg) :
    List (List UInt8) → Statics cfg φ → ρ → Statics cfg φ × ρ
  | [], st, r => (st, r)
  | chunk :: chunks, st, r =>
    let out := (syncWrite fs st stream chunk).run h r
    if out.1.1 = 0 then writeAll fs h stream chunks out.1.2 out.2 else (out.1.2, out.2)

theorem okay_ne_fail (reason : List UInt8) :
    statusRecord SYNC_ID_OKAY [] ≠ statusRecord SYNC_ID_FAIL reason := by
  intro same
  have ids : putLe32 SYNC_ID_OKAY = putLe32 SYNC_ID_FAIL := congrArg (List.take 4) same
  exact absurd ids (by decide)

section Transaction

variable (s : Send) (path : Path) (old : Option (Node UInt8)) (base : Nat) (unsent : List UInt8)

inductive Verdict (d : Storage cfg) (told : List (List UInt8)) : Prop where
  | kept (node : d.node path = old)
      (fails : ∀ response ∈ told, ∃ reason, response = statusRecord SYNC_ID_FAIL reason)
  | installed (timestamp : UInt32) (finale : s.finale = .done timestamp) (all : unsent = [])
      (node : d.node path = some (.file s.contents))
      (okays : ∀ response ∈ told, response = statusRecord SYNC_ID_OKAY [])
  | twice (failures : base + 2 ≤ d.failures)

structure Ended (c : SyncContext cfg) (d : Storage cfg) (told : List (List UInt8)) : Prop where
  closed : c.fileOpen = false
  gone : c.temporaryLive = false
  verdict : Verdict s path old base unsent d told

inductive Progress (i : Slot cfg) (c : SyncContext cfg) (d : Storage cfg)
    (told : List (List UInt8)) (rest : List UInt8) : Prop where
  | working {paid : Bool} {received : List UInt8}
      (expects : Expects c rest [.send s] paid received) (holding : Holding d i c received)
      (here : c.state.sending = true → c.path = path) (node : d.node path = old)
      (fails : ∀ response ∈ told, ∃ reason, response = statusRecord SYNC_ID_FAIL reason)
      (unpaid : paid = false → told = []) (failures : base ≤ d.failures)
  | complete (bytes : rest = []) (ended : Ended s path old base unsent c d told)
  | discarding (state : c.state = .discardAndClose) (drained : c.remaining = 0)
      (ended : Ended s path old base unsent c d told)

variable {s path old base unsent}
variable {fs : FileSystem Path (Slot cfg) UInt8 φ} {view : φ → Storage cfg}
variable {i : Slot cfg} {h : Host cfg ρ} {told told' : List (List UInt8)} {exit : Option Int}

private theorem replied_fails {reason : List UInt8}
    (fails : ∀ response ∈ told, ∃ reason, response = statusRecord SYNC_ID_FAIL reason)
    (replied : Replied h (statusRecord SYNC_ID_FAIL reason) told exit told') :
    ∀ response ∈ told', ∃ reason, response = statusRecord SYNC_ID_FAIL reason := by
  cases replied with
  | taken =>
    intro response member
    rcases List.mem_append.mp member with before | now
    · exact fails response before
    · exact ⟨reason, List.mem_singleton.mp now⟩
  | refused bad busy => exact fails

private theorem replied_okays (replied : Replied h (statusRecord SYNC_ID_OKAY []) [] exit told') :
    ∀ response ∈ told', response = statusRecord SYNC_ID_OKAY [] := by
  cases replied with
  | taken => exact fun response member => List.mem_singleton.mp member
  | refused bad busy => exact fun response member => nomatch member

variable {paid : Bool}

private theorem due_single {q : Request} {paid' : Bool} (owed : due [q] paid' = due [q] paid) :
    paid' = paid := by
  cases paid <;> cases paid' <;> first | rfl | cases owed

variable {rest : List UInt8} {received : List UInt8}

private theorem expects_nil {c : SyncContext cfg} (expects : Expects c rest [] paid received) :
    rest = [] ∧ c.state = .requestHeader := by
  cases expects with
  | idle state short bytes => exact ⟨(List.append_eq_nil_iff.mp bytes).2, state⟩

def Goes (view : φ → Storage cfg) (s : Send) (path : Path) (old : Option (Node UInt8)) (base : Nat)
    (unsent : List UInt8) (i : Slot cfg) (stream : Slot cfg) (data future : List UInt8)
    (out : (Option Int × List UInt8) × Local cfg φ × ρ × List (List UInt8)) : Prop :=
  out.2.1.ctx.stream = some stream ∧
    match out with
    | ((none, rest), m, _, told) => rest.length < data.length ∧
        Progress s path old base unsent i m.ctx (view m.disk) told (rest ++ future)
    | ((some ret, _), m, _, told) => Ended s path old base unsent m.ctx (view m.disk) told ∧
        (ret = 0 → m.ctx.state = .discardAndClose ∧ m.ctx.remaining = 0)

variable {l : Local cfg φ} {future data : List UInt8}

private theorem goes_replied {stream : Slot cfg} {response : List UInt8} {m : Local cfg φ} {r : ρ}
    (replied : Replied h response told exit told') (released : Released l.ctx m.ctx)
    (bound : l.ctx.stream = some stream) (shorter : rest.length < data.length)
    (verdict : Verdict s path old base unsent (view m.disk) told')
    (goes : exit = none → Ended s path old base unsent m.ctx (view m.disk) told' →
      Progress s path old base unsent i m.ctx (view m.disk) told' (rest ++ future)) :
    Goes view s path old base unsent i stream data future ((exit, rest), m, r, told') := by
  have here := released.stream.trans bound
  have ended : Ended s path old base unsent m.ctx (view m.disk) told' :=
    ⟨released.closed, released.gone, verdict⟩
  cases replied with
  | taken => exact ⟨here, shorter, goes rfl ended⟩
  | refused bad busy => exact ⟨here, ended, fun zero => absurd zero bad⟩

private theorem effect_goes {mode : List UInt8} {stream : Slot cfg}
    {out : (Option Int × List UInt8) × Local cfg φ × ρ × List (List UInt8)}
    (split : splitSpec s.spec = some (path, mode)) (last : future = [] → unsent = [])
    (bound : l.ctx.stream = some stream) (holding : Holding (view l.disk) i l.ctx received)
    (here : l.ctx.state.sending = true → l.ctx.path = path) (node : (view l.disk).node path = old)
    (fails : ∀ response ∈ told, ∃ reason, response = statusRecord SYNC_ID_FAIL reason)
    (unpaid : paid = false → told = []) (failures : base ≤ (view l.disk).failures)
    (effect : Effect view i h l data future told [.send s] paid received out) :
    Goes view s path old base unsent i stream data future out := by
  have apart (sending : l.ctx.state.sending = true) : path ≠ l.ctx.temporary := by
    have staged := holding.staged sending
    rw [← here sending]
    exact staged.temporary_ne (allowed_visible staged.allowed)
  have outside : path ∉ l.ctx.stagingNames := by
    unfold SyncContext.stagingNames
    split_ifs with sending
    · exact fun inside => apart sending (List.mem_singleton.mp inside)
    · exact List.not_mem_nil
  cases effect with
  | quiet shorter same disk expects owed suffix working holding' =>
    refine ⟨same.stream.trans bound, shorter, ?_⟩
    rw [disk] at holding' ⊢
    rcases List.suffix_cons_iff.mp suffix with rfl | empty
    · obtain rfl := due_single owed
      exact .working expects holding'
        (fun sending => same.path.trans (here (working.symm.trans sending))) node fails
          unpaid failures
    · obtain rfl := List.suffix_nil.mp empty
      obtain ⟨bytes, state⟩ := expects_nil expects
      obtain ⟨closed, gone⟩ := holding'.idle (by rw [state]; rfl)
      exact .complete bytes ⟨closed, gone, .kept node fails⟩
  | @began _ _ _ _ m _ shorter stream' spec touches free expects sending staged =>
    obtain rfl : path = m.ctx.path := by
      rw [split] at spec
      exact congrArg Prod.fst (Option.some.inj spec)
    have visible : m.ctx.path ∉ [m.ctx.temporary] := fun inside =>
      staged.temporary_ne (allowed_visible staged.allowed) (List.mem_singleton.mp inside)
    exact ⟨stream'.trans bound, shorter, .working expects (staged.holding sending)
      (fun _ => rfl) ((touches.node _ visible).trans node) fails unpaid
      (Nat.le_trans failures touches.failures)⟩
  | stored shorter before same touches expects sending staged =>
    have visible : path ∉ [l.ctx.temporary] := fun inside =>
      apart before (List.mem_singleton.mp inside)
    exact ⟨same.stream.trans bound, shorter, .working expects (staged.holding sending)
      (fun _ => same.path.trans (here before)) ((touches.node _ visible).trans node) fails unpaid
      (Nat.le_trans failures touches.failures)⟩
  | failed shorter released replied touches cause expects idle =>
    have kept := (touches.node _ outside).trans node
    have fails' := replied_fails fails replied
    refine goes_replied replied released bound shorter (.kept kept fails') (fun taken _ => ?_)
    refine .working (expects taken) ⟨fun sending => ?_, fun _ => ⟨released.closed, released.gone⟩⟩
      (fun sending => ?_) kept fails' (fun unpaid => nomatch unpaid)
      (Nat.le_trans failures touches.failures)
    all_goals
      rw [idle taken] at sending
      cases sending
  | installed shorter before finale released replied touches node' bytes expects idle =>
    obtain ⟨-, all⟩ := List.append_eq_nil_iff.mp bytes
    rw [unpaid rfl] at replied
    rw [here before] at node'
    exact goes_replied replied released bound shorter
      (.installed _ finale (last all) node' (replied_okays replied))
      (fun _ ended => .complete bytes ended)
  | misplaced shorter before finale released replied touches node' failed bytes =>
    rw [here before] at node'
    refine goes_replied replied released bound shorter ?_ (fun _ ended => .complete bytes ended)
    rcases node' with same | twice
    · exact .kept (same.trans node) (replied_fails fails replied)
    · exact .twice (by omega)
  | refused shorter unbounded released disk replied discarding =>
    refine goes_replied replied released bound shorter (.kept ?_ (replied_fails fails replied))
      (fun taken ended => .discarding (discarding taken).1 (discarding taken).2 ended)
    rw [disk]
    exact node
  | broken shorter finale released replied touches bytes =>
    exact goes_replied replied released bound shorter
      (.kept ((touches.node _ outside).trans node) (replied_fails fails replied))
      (fun _ ended => .complete bytes ended)
  | lost shorter finale released disk bytes =>
    refine ⟨released.stream.trans bound, shorter, .complete bytes
      ⟨released.closed, released.gone, .kept ?_ fails⟩⟩
    rw [disk]
    exact node

private theorem discard_pass (state : l.ctx.state = .discardAndClose)
    (drained : l.ctx.remaining = 0) (h : Host cfg ρ) (data : List UInt8) (r : ρ) :
    (syncPass fs i data).exec h l r = ((some 0, data), l, r) := by
  simp [syncPass, state, drained]

variable {mode : List UInt8} {stream : Slot cfg}

private theorem pass_goes (atomic : Atomic fs view) (formed : (Request.send s).Formed cfg)
    (split : splitSpec s.spec = some (path, mode)) (regular : old ≠ some .dir)
    (last : future = [] → unsent = []) (more : data ≠ []) {w : Local cfg φ × ρ × List (List UInt8)}
    (bound : w.1.ctx.stream = some stream)
    (progress : Progress s path old base unsent i w.1.ctx (view w.1.disk) w.2.2 (data ++ future)) :
    Goes view s path old base unsent i stream data future
      ((syncPass fs i data).exec (recording h) w.1 w.2) := by
  cases progress with
  | working expects holding here node fails unpaid failures =>
    refine effect_goes split last bound holding here node fails unpaid failures
      (pass_effect atomic expects (fun q member => ?_) (fun q _ => q.within_univ)
        (fun _ => Set.subset_univ _) holding (fun sending => ?_) more)
    · rw [List.mem_singleton.mp member]
      exact formed
    · rw [here sending, node]
      exact regular
  | complete bytes ended => exact absurd (List.append_eq_nil_iff.mp bytes).1 more
  | discarding state drained ended =>
    rw [discard_pass state drained]
    exact ⟨bound, ended, fun _ => ⟨state, drained⟩⟩

private theorem call_goes (atomic : Atomic fs view) (formed : (Request.send s).Formed cfg)
    (split : splitSpec s.spec = some (path, mode)) (regular : old ≠ some .dir) {chunk : List UInt8}
    (last : future = [] → unsent = []) {r : ρ} (bound : l.ctx.stream = some stream)
    (progress : Progress s path old base unsent i l.ctx (view l.disk) told (chunk ++ future)) :
    let out := (syncLoop fs i (chunk.length + 1) chunk).exec (recording h) l (r, told)
    out.2.1.ctx.stream = some stream ∧ (out.1 = 0 →
        Progress s path old base unsent i out.2.1.ctx (view out.2.1.disk) out.2.2.2 future) ∧
      (out.1 ≠ 0 → Ended s path old base unsent out.2.1.ctx (view out.2.1.disk) out.2.2.2) := by
  have final := loop_invariant (servePass fs i (recording h))
    (fun data (w : Local cfg φ × ρ × List (List UInt8)) => w.1.ctx.stream = some stream ∧
      Progress s path old base unsent i w.1.ctx (view w.1.disk) w.2.2 (data ++ future))
    (fun ret w => w.1.ctx.stream = some stream ∧
      Ended s path old base unsent w.1.ctx (view w.1.disk) w.2.2 ∧
      (ret = 0 → w.1.ctx.state = .discardAndClose ∧ w.1.ctx.remaining = 0))
    (fun data w more inv => by
      have goes := pass_goes (h := h) atomic formed split regular last more inv.1 inv.2
      unfold Advances servePass
      generalize (syncPass fs i data).exec (recording h) w.1 w.2 = out at goes
      obtain ⟨⟨_ | ret, rest⟩, m, r, told⟩ := out
      · exact ⟨goes.2.1, goes.1, goes.2.2⟩
      · exact ⟨goes.1, goes.2.1, goes.2.2⟩)
    (Nat.le_succ chunk.length) (w := (l, r, told)) ⟨bound, progress⟩
  dsimp only
  rw [exec_syncLoop]
  generalize loop (servePass fs i (recording h)) (chunk.length + 1) chunk (l, r, told) =
    out at final
  obtain ⟨_ | ret, m, r, told⟩ := out
  · exact ⟨final.1, fun _ => final.2, fun bad => absurd rfl bad⟩
  · refine ⟨final.1, fun zero => ?_, fun _ => final.2.1⟩
    obtain ⟨state, drained⟩ := final.2.2 zero
    exact .discarding state drained final.2.1

private theorem progress_verdict (atomic : Atomic fs view)
    (progress : Progress s path old base unsent i l.ctx (view l.disk) told rest) :
    Verdict s path old base unsent (view l.disk) told ∧
      Verdict s path old base unsent (view (cleanupPartial fs i l).disk) told := by
  cases progress with
  | working expects holding here node fails unpaid failures =>
    refine ⟨.kept node fails, ?_⟩
    cases sending : l.ctx.state.sending with
    | true =>
      have staged := holding.staged sending
      have touches := cleanupPartial_touches atomic i l (fun _ => ⟨_, staged.node⟩)
      refine .kept ((touches.node _ fun inside => ?_).trans node) fails
      rw [← here sending] at inside
      exact staged.temporary_ne (allowed_visible staged.allowed) (List.mem_singleton.mp inside)
    | false =>
      rw [cleanupPartial_idle i l (holding.idle sending).1 (holding.idle sending).2]
      exact .kept node fails
  | complete bytes ended =>
    rw [cleanupPartial_idle i l ended.closed ended.gone]
    exact ⟨ended.verdict, ended.verdict⟩
  | discarding state drained ended =>
    rw [cleanupPartial_idle i l ended.closed ended.gone]
    exact ⟨ended.verdict, ended.verdict⟩

private theorem writeAll_verdict (atomic : Atomic fs view) (formed : (Request.send s).Formed cfg)
    (split : splitSpec s.spec = some (path, mode)) (regular : old ≠ some .dir)
    {chunks : List (List UInt8)} {st : Statics cfg φ} {r : ρ}
    (found : findContext st stream = some i)
    (progress : Progress s path old base unsent i (st.contexts i) (view st.disk) told
      (chunks.flatten ++ unsent)) : let out := writeAll fs (recording h) stream chunks st (r, told)
    Verdict s path old base unsent (view out.1.disk) out.2.2 ∧
      Verdict s path old base unsent (view (syncClose fs out.1 stream).disk) out.2.2 := by
  induction chunks generalizing st r told with
  | nil =>
    have verdict := progress_verdict (l := st.enter i) atomic progress
    dsimp only [writeAll]
    rw [syncClose_disk fs found]
    exact verdict
  | cons chunk chunks ih =>
    rw [List.flatten_cons, List.append_assoc] at progress
    have goes := call_goes (h := h) (r := r) (l := st.enter i) atomic formed split regular
      (fun empty => (List.append_eq_nil_iff.mp empty).2) (findContext_stream found) progress
    dsimp only [writeAll] at goes ⊢
    rw [run_syncWrite fs (recording h) found]
    generalize (syncLoop fs i (chunk.length + 1) chunk).exec (recording h) (st.enter i)
      (r, told) = out
      at goes ⊢
    obtain ⟨ret, m, r', told'⟩ := out
    have found' : findContext (st.leave i m) stream = some i := by
      rw [findContext_leave (goes.1.trans (findContext_stream found).symm)]
      exact found
    have ctx : (st.leave i m).enter i = m := leave_enter m
    dsimp only at goes ⊢
    split_ifs with zero
    · refine ih found' ?_
      have progress' := goes.2.1 zero
      rw [← ctx] at progress'
      exact progress'
    · have ended := goes.2.2 zero
      rw [syncClose_disk fs found', ctx, cleanupPartial_idle i m ended.closed ended.gone]
      exact ⟨ended.verdict, ended.verdict⟩

end Transaction

/-- A push is a transaction. Wherever the host stops, closes or breaks the record format, and
whichever single file operation fails, the destination is as before or holds the whole upload, and
it is what the status sent says. -/
theorem push_keeps_or_replaces {fs : FileSystem Path (Slot cfg) UInt8 φ} {view : φ → Storage cfg}
    (atomic : Atomic fs view) (h : Host cfg ρ) (r : ρ) {st : Statics cfg φ} {stream i : Slot cfg}
    (found : findContext st stream = some i) (idle : (st.contexts i).state = .requestHeader)
    (fresh : (st.contexts i).headerUsed = 0) (closed : (st.contexts i).fileOpen = false)
    (gone : (st.contexts i).temporaryLive = false) {s : Send}
    (formed : (Request.send s).Formed cfg) {path mode : List UInt8}
    (spec : s.spec = path ++ ','.toUInt8 :: mode) (plain : ','.toUInt8 ∉ mode)
    (regular : (view st.disk).node path ≠ some .dir) {chunks : List (List UInt8)}
    {unsent : List UInt8} (bytes : chunks.flatten ++ unsent = (Request.send s).wire) :
    let out := writeAll fs (recording h) stream chunks st (r, [])
    ∀ disk, disk = out.1.disk ∨ disk = (syncClose fs out.1 stream).disk →
      (view disk).failures ≤ (view st.disk).failures + 1 →
      ((view disk).node path = (view st.disk).node path ∨
        (unsent = [] ∧ (∃ timestamp, s.finale = .done timestamp) ∧
          (view disk).node path = some (.file s.contents))) ∧
      (statusRecord SYNC_ID_OKAY [] ∈ out.2.2 → (view disk).node path = some (.file s.contents)) ∧
      ∀ reason, statusRecord SYNC_ID_FAIL reason ∈ out.2.2 →
        (view disk).node path = (view st.disk).node path := by
  have empty : (st.contexts i).header = [] := List.length_eq_zero_iff.mp fresh
  have split : splitSpec s.spec = some (path, mode) := by
    rw [spec]
    exact splitSpec_comma path mode plain
  have waiting : Expects (st.contexts i) (chunks.flatten ++ unsent) [.send s] false [] := by
    refine .idle idle ?_ ?_
    · rw [empty]
      exact header_pos
    · rw [empty, bytes]
      simp
  have start : Progress s path ((view st.disk).node path) (view st.disk).failures unsent i
      (st.contexts i) (view st.disk) [] (chunks.flatten ++ unsent) := by
    refine .working waiting ⟨fun sending => ?_, fun _ => ⟨closed, gone⟩⟩ (fun sending => ?_) rfl
      (fun response member => nomatch member) (fun _ => rfl) (Nat.le_refl _)
    all_goals
      rw [idle] at sending
      cases sending
  have verdicts := writeAll_verdict (h := h) (r := r) atomic formed split regular found start
  intro out disk final single
  have verdict : Verdict s path ((view st.disk).node path) (view st.disk).failures unsent
      (view disk) out.2.2 := by
    rcases final with rfl | rfl
    · exact verdicts.1
    · exact verdicts.2
  cases verdict with
  | kept node fails =>
    refine ⟨Or.inl node, fun okay => ?_, fun _ _ => node⟩
    obtain ⟨reason, same⟩ := fails _ okay
    exact absurd same (okay_ne_fail reason)
  | installed timestamp finale all node okays =>
    refine ⟨Or.inr ⟨all, ⟨timestamp, finale⟩, node⟩, fun _ => node, fun reason fail => ?_⟩
    exact absurd (okays _ fail).symm (okay_ne_fail reason)
  | twice failures => omega

section Samples

def openStatics (disk : SampleDisk) : Statics Config.project SampleDisk :=
  let unused := SyncContext.zero Config.project
  ⟨fun j => if j = firstSlot then { unused with stream := some firstSlot } else unused, 0, disk⟩

def samplePath : Path := ascii "/STORAGE:/a"

def samplePush : Send := ⟨ascii "/STORAGE:/a,33188", [[1, 2], [3]], .done 0⟩

def olderFile : SampleDisk := (blank.put (ascii "/STORAGE:/") (some .dir)).put samplePath
  (some (.file [9]))

theorem push_keeps_or_replaces_cut :
    let wire := (Request.send samplePush).wire
    let out := writeAll memory (recording (obliging _)) firstSlot [wire.take 30, wire.drop 30]
      (openStatics olderFile) ((), [])
    ∀ disk : SampleDisk, disk = out.1.disk ∨ disk = (syncClose memory out.1 firstSlot).disk →
      disk.failures ≤ 1 →
      (disk.node samplePath = some (.file [9]) ∨
        (([] : List UInt8) = [] ∧ (∃ timestamp, samplePush.finale = .done timestamp) ∧
          disk.node samplePath = some (.file [1, 2, 3]))) ∧
      (statusRecord SYNC_ID_OKAY [] ∈ out.2.2 → disk.node samplePath = some (.file [1, 2, 3])) ∧
      ∀ reason, statusRecord SYNC_ID_FAIL reason ∈ out.2.2 →
        disk.node samplePath = some (.file [9]) := by
  intro wire
  have found : findContext (openStatics olderFile) firstSlot = some firstSlot := by
    decide +kernel
  have formed : (Request.send samplePush).Formed Config.project := ⟨by decide, by decide, trivial⟩
  have spec : samplePush.spec = samplePath ++ ','.toUInt8 :: ascii "33188" := rfl
  have regular : (id (openStatics olderFile).disk).node samplePath ≠ some .dir := by
    decide +kernel
  have bytes : [wire.take 30, wire.drop 30].flatten ++ [] = wire := by decide +kernel
  exact push_keeps_or_replaces memory_atomic (obliging _) () found rfl rfl rfl rfl formed spec
    (by decide) regular bytes

end Samples

end Webos.Adb.Sync
