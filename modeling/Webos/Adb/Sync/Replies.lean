/- digest: Every pass over well-formed requests is silent or answers exactly the oldest open one. -/

import Webos.Adb.Sync.Parser

namespace Webos.Adb.Sync

open Webos.Lib.Bytes Webos.Lib.Files Webos.Lib.Program

variable {cfg : Config} {φ ρ : Type} (fs : FileSystem Path (Slot cfg) UInt8 φ) (i : Slot cfg)

section Contexts

variable (l : Local cfg φ)

theorem cleanupPartial_ctx :
    (cleanupPartial fs i l).ctx = { l.ctx with fileOpen := false, temporaryLive := false } := by
  obtain ⟨⟨stream, state, header, remaining, spec, path, temporary, backup, opened, live⟩, nonce,
    disk⟩ := l
  cases opened <;> cases live <;> rfl

theorem cleanupPartial_stream : (cleanupPartial fs i l).ctx.stream = l.ctx.stream := by
  rw [cleanupPartial_ctx]

theorem findEntry_stream : (findEntry fs l).2.ctx.stream = l.ctx.stream := by
  unfold findEntry
  split_ifs <;> rfl

structure SameParse (c c' : SyncContext cfg) : Prop where
  stream : c'.stream = c.stream
  header : c'.header = c.header
  remaining : c'.remaining = c.remaining

theorem chooseAttempts_parse (attempts : Nat) :
    SameParse l.ctx (chooseAttempts fs attempts l).2.ctx := by
  induction attempts generalizing l with
  | zero => exact ⟨rfl, rfl, rfl⟩
  | succ attempts ih =>
    unfold chooseAttempts
    dsimp only
    split_ifs
    · exact ⟨rfl, rfl, rfl⟩
    · exact ⟨rfl, rfl, rfl⟩
    iterate 2
      · exact ⟨(ih _).stream, (ih _).header, (ih _).remaining⟩
    · exact ⟨rfl, rfl, rfl⟩

theorem stageSend_parse : SameParse l.ctx (stageSend fs i l).2.ctx := by
  have chosen := chooseAttempts_parse fs l 32
  unfold stageSend
  dsimp only
  split_ifs <;> exact ⟨chosen.stream, chosen.header, chosen.remaining⟩

theorem stageSend_begun (begun : (stageSend fs i l).1 = none) :
    (stageSend fs i l).2.ctx.state = .sendHeader := by
  unfold stageSend at begun ⊢
  dsimp only at begun ⊢
  split_ifs at begun ⊢
  rfl

theorem prepareSend_parse : SameParse l.ctx (prepareSend fs i l).2.ctx := by
  unfold prepareSend
  split_ifs
  · exact ⟨rfl, rfl, rfl⟩
  · split
    · exact ⟨rfl, rfl, rfl⟩
    · rename_i path mode _
      have staged := stageSend_parse fs i ((l.set fun c => { c with spec := path ++ 0 :: mode }).set
        fun c => { c with path })
      split_ifs
      iterate 4
        · exact ⟨rfl, rfl, rfl⟩
      · exact ⟨staged.stream, staged.header, staged.remaining⟩

theorem prepareSend_begun (begun : (prepareSend fs i l).1 = none) :
    (prepareSend fs i l).2.ctx.state = .sendHeader := by
  unfold prepareSend at begun ⊢
  split_ifs at begun ⊢
  split at begun
  · cases begun
  · split_ifs at begun ⊢
    exact stageSend_begun fs i _ begun

theorem replaceDestination_parse : SameParse l.ctx (replaceDestination fs i l).2.ctx := by
  unfold replaceDestination swapIn
  dsimp only
  split_ifs <;> exact ⟨rfl, rfl, rfl⟩

theorem replaceDestination_released (done : (replaceDestination fs i l).1 = 0) :
    (replaceDestination fs i l).2.ctx.fileOpen = false ∧
      (replaceDestination fs i l).2.ctx.temporaryLive = false := by
  unfold replaceDestination swapIn at done ⊢
  dsimp only at done ⊢
  split_ifs at done ⊢ <;> first | exact ⟨rfl, rfl⟩ | contradiction

/-- The file system accepts what an upload asks of it at its DONE: the close, the rename that
makes room and the rename that installs. -/
def Local.installs : Prop :=
  let closed := fs.close i l.disk
  let found := fs.stat l.ctx.path closed.2
  let aside := if found.1.isSome then fs.rename l.ctx.path l.ctx.backup found.2 else (0, found.2)
  closed.1 = 0 ∧ aside.1 = 0 ∧ (fs.rename l.ctx.temporary l.ctx.path aside.2).1 = 0

instance : Decidable (l.installs fs i) := inferInstanceAs (Decidable (_ ∧ _ ∧ _))

theorem replaceDestination_installs : (replaceDestination fs i l).1 = 0 ↔ l.installs fs i := by
  unfold replaceDestination swapIn Local.installs
  dsimp only [Local.close, Local.stat, Local.rename, Local.set]
  split_ifs <;> simp_all

end Contexts

section Exec

variable (h : Host cfg ρ) (l : Local cfg φ) (r : ρ)

theorem exec_failTransfer (reason : List UInt8) (drain : SyncState) :
    (failTransfer fs i reason drain).exec h l r =
      let m := cleanupPartial fs i l
      let reply := h (.write l.ctx.stream 0 (statusRecord SYNC_ID_FAIL reason)) r
      if reply.1 ≠ 0 then (reply.1, m, reply.2)
      else (0, m.set fun c => { c with state := drain }, reply.2) := by
  simp only [failTransfer, exec_update_bind]
  rw [exec_bind, exec_sendStatus, exec_respond, cleanupPartial_stream, exec_ite]
  split_ifs <;> rfl

theorem exec_sendStat :
    (sendStat fs).exec h l r =
      let found := findEntry fs l
      let reply := h (.write l.ctx.stream 0 (statRecord found.1)) r
      (reply.1, found.2.set fun c => { c with state := .requestHeader }, reply.2) := by
  have stream := findEntry_stream fs l
  simp only [sendStat, exec_step_bind]
  rw [exec_bind, exec_goTo, exec_respond]
  dsimp only [Local.set]
  rw [stream]

theorem exec_startSend :
    (startSend fs i).exec h l r =
      match prepareSend fs i l with
      | (some reason, m) => (failTransfer fs i reason .drainHeader).exec h m r
      | (none, m) => (0, m, r) := by
  simp only [startSend, exec_step_bind]
  rcases prepareSend fs i l with ⟨_ | reason, m⟩ <;> rfl

theorem exec_finishSend :
    (finishSend fs i).exec h l r =
      let out := replaceDestination fs i l
      if out.1 ≠ 0 then
        (failTransfer fs i (ascii "cannot install completed file") .drainHeader).exec h out.2 r
      else
        let reply := h (.write l.ctx.stream 0 (statusRecord SYNC_ID_OKAY [])) r
        (reply.1, if reply.1 = 0 then out.2.set fun c =>
          { c with state := .requestHeader } else out.2,
          reply.2) := by
  have stream := (replaceDestination_parse fs i l).stream
  simp only [finishSend, exec_step_bind, exec_ite]
  by_cases failed : (replaceDestination fs i l).1 ≠ 0
  · rw [if_pos failed, if_pos failed]
  · rw [if_neg failed, if_neg failed, exec_bind, exec_sendStatus, exec_respond, stream, exec_ite]
    split_ifs <;> rfl

theorem exec_storeData (chunk : List UInt8) (left : Nat) :
    (storeData fs i chunk left).exec h l r =
      let out := l.write fs i chunk
      let m := out.2.set fun c => { c with remaining := left }
      if out.1 ≠ chunk.length then
        let failed := (failTransfer fs i (ascii "write failed")
          (if left = 0 then .drainHeader else .drainData)).exec h m r
        (if failed.1 ≠ 0 then - EIO else 0, failed.2)
      else (0, if left = 0 then m.set fun c => { c with state := .sendHeader } else m, r) := by
  simp only [storeData, exec_step_bind, exec_update_bind, exec_ite]
  by_cases bad : (l.write fs i chunk).1 ≠ chunk.length
  · rw [if_pos bad, if_pos bad, exec_bind, exec_ite]
    split_ifs <;> rfl
  · rw [if_neg bad, if_neg bad]
    split_ifs <;> rfl

end Exec

section Served

variable (h : Host cfg ρ) (l : Local cfg φ) (r : ρ) (data future : List UInt8)
variable (todo : List Request) (paid : Bool)

/-- The outcome of a pass over well-formed requests: it is silent, or it answers the oldest
request without an answer and goes on exactly when the router takes the response. -/
inductive Served : (Option Int × List UInt8) × Local cfg φ × ρ → Prop where
  | quiet {todo' : List Request} {paid' : Bool} {received rest : List UInt8} {m : Local cfg φ}
      (shorter : rest.length < data.length) (stream : m.ctx.stream = l.ctx.stream)
      (expects : Expects m.ctx (rest ++ future) todo' paid' received)
      (owed : due todo' paid' = due todo paid) (suffix : todo' <:+ todo) :
      Served ((none, rest), m, r)
  | answered {q : Request} {todo' : List Request} {paid' : Bool}
    {response received rest : List UInt8}
      {m : Local cfg φ} (shorter : rest.length < data.length)
      (stream : m.ctx.stream = l.ctx.stream) (answers : Answers q response)
      (accepted : (h (.write l.ctx.stream 0 response) r).1 = 0)
      (expects : Expects m.ctx (rest ++ future) todo' paid' received)
      (owed : due todo paid = q :: due todo' paid') (suffix : todo' <:+ todo) :
      Served ((none, rest), m, (h (.write l.ctx.stream 0 response) r).2)
  | refused {q : Request} {later : List Request} {ret : Int} {response rest : List UInt8}
      {m : Local cfg φ} (answers : Answers q response) (owed : due todo paid = q :: later)
      (busy : (h (.write l.ctx.stream 0 response) r).1 ≠ 0) (bad : ret ≠ 0) :
      Served ((some ret, rest), m, (h (.write l.ctx.stream 0 response) r).2)

variable {h l r data future todo paid} {rest : List UInt8}

private theorem served_reply {q : Request} {todo' : List Request} {paid' : Bool}
    {response : List UInt8} {ret : Int} {m : Local cfg φ} {r' : ρ} (received : List UInt8)
    (shorter : rest.length < data.length) (answers : Answers q response)
    (host : r' = (h (.write l.ctx.stream 0 response) r).2)
    (code : ret = 0 ↔ (h (.write l.ctx.stream 0 response) r).1 = 0)
    (owed : due todo paid = q :: due todo' paid') (suffix : todo' <:+ todo)
    (stream : m.ctx.stream = l.ctx.stream) (good : (h (.write l.ctx.stream 0 response) r).1 = 0 →
      Expects m.ctx (rest ++ future) todo' paid' received) :
    Served h l r data future todo paid (proceed ret rest, m, r') := by
  subst host
  by_cases accepted : (h (.write l.ctx.stream 0 response) r).1 = 0
  · have zero : ret = 0 := code.mpr accepted
    simp only [proceed, zero, ne_eq, not_true_eq_false, ↓reduceIte]
    exact .answered shorter stream answers accepted (good accepted) owed suffix
  · have bad : ret ≠ 0 := fun zero => accepted (code.mp zero)
    simp only [proceed, bad, ne_eq, not_false_eq_true, ↓reduceIte]
    exact .refused answers owed accepted bad

variable {later : List Request} {received : List UInt8} {s : Send}

private theorem served_fail {reason : List UInt8} {drain : SyncState} {m : Local cfg φ} {ret : Int}
    (shorter : rest.length < data.length) (stream : m.ctx.stream = l.ctx.stream)
    (code : ret = 0 ↔ ((failTransfer fs i reason drain).exec h m r).1 = 0)
    (expects : Expects { m.ctx with fileOpen := false, temporaryLive := false, state := drain }
      (rest ++ future) (.send s :: later) true received) :
    Served h l r data future (.send s :: later) false
      (proceed ret rest, ((failTransfer fs i reason drain).exec h m r).2) := by
  have ctx := cleanupPartial_ctx fs i m
  rw [exec_failTransfer, stream] at code ⊢
  have owed : due (.send s :: later) false = .send s :: due (.send s :: later) true := rfl
  have fail : Answers (.send s) (statusRecord SYNC_ID_FAIL reason) := Or.inr ⟨reason, rfl⟩
  by_cases busy : (h (.write l.ctx.stream 0 (statusRecord SYNC_ID_FAIL reason)) r).1 ≠ 0
  · rw [if_pos busy] at code ⊢
    refine served_reply received shorter fail rfl code owed List.suffix_rfl ?_
      (fun taken => absurd taken busy)
    rw [ctx]
    exact stream
  · rw [if_neg busy] at code ⊢
    have taken := not_not.mp busy
    refine served_reply received shorter fail rfl (code.trans ⟨fun _ => taken, fun _ => rfl⟩) owed
      List.suffix_rfl ?_ (fun _ => ?_)
    · dsimp only [Local.set]
      rw [ctx]
      exact stream
    · dsimp only [Local.set]
      rw [ctx]
      exact expects

variable {c : SyncContext cfg}

private theorem served_start (hands : Hands fs i l data (startSend fs i) c rest)
    (stream : c.stream = l.ctx.stream) (fresh : c.header = [])
    (bounded : ∀ data ∈ s.records, data.length ≤ cfg.syncDataMax)
    (bytes : rest ++ future = recordsWire s.records s.finale ++ wires later) :
    Served h l r data future (.send s :: later) false ((syncPass fs i data).exec h l r) := by
  rw [hands.2, exec_startSend]
  have parse := prepareSend_parse fs i { l with ctx := c }
  have begun := prepareSend_begun fs i { l with ctx := c }
  generalize prepareSend fs i { l with ctx := c } = out at parse begun ⊢
  obtain ⟨_ | reason, m⟩ := out
  · exact .quiet hands.1 (parse.stream.trans stream)
      (.started false (begun rfl) (parse.header.trans fresh) bounded bytes) rfl List.suffix_rfl
  · exact served_fail fs i hands.1 (parse.stream.trans stream) Iff.rfl
      (.started true rfl (parse.header.trans fresh) bounded bytes)

private theorem eio_code (x : Int) : (if x ≠ 0 then - EIO else 0) = 0 ↔ x = 0 := by
  have eio : - EIO ≠ 0 := by decide
  split_ifs with failed
  · exact ⟨fun zero => absurd zero eio, fun zero => absurd zero failed⟩
  · exact ⟨fun _ => not_not.mp failed, fun _ => rfl⟩

private theorem served_chunk {chunk part : List UInt8} {records : List (List UInt8)}
    (hands : Hands fs i l data (storeData fs i chunk part.length) l.ctx rest)
    (sending : l.ctx.state = .sendData) (fresh : l.ctx.header = [])
    (bytes : rest ++ future = part ++ (recordsWire records s.finale ++ wires later))
    (left : s.Left cfg (received ++ chunk) part records) :
    Served h l r data future (.send s :: later) false ((syncPass fs i data).exec h l r) := by
  rw [hands.2, exec_storeData]
  by_cases bad : (Local.write fs i { l with ctx := l.ctx } chunk).1 ≠ chunk.length
  · rw [if_pos bad]
    exact served_fail fs i hands.1 rfl (eio_code _)
      (.stored true rfl fresh rfl bytes left)
  · rw [if_neg bad]
    by_cases full : part.length = 0
    · rw [if_pos full]
      refine .quiet hands.1 rfl (.stored false ?_ fresh rfl bytes left) rfl
        List.suffix_rfl
      rw [if_pos full]
      rfl
    · rw [if_neg full]
      refine .quiet hands.1 rfl (.stored false ?_ fresh rfl bytes left) rfl
        List.suffix_rfl
      rw [if_neg full]
      exact sending

private theorem served_finish (hands : Hands fs i l data (finishSend fs i) c rest)
    (same : SameUpload l.ctx c) (fresh : c.header = []) (installs : l.installs fs i)
    (bytes : rest ++ future = wires later) :
    Served h l r data future (.send s :: later) false ((syncPass fs i data).exec h l r) := by
  have parse := replaceDestination_parse fs i { l with ctx := c }
  have done : (replaceDestination fs i { l with ctx := c }).1 = 0 := by
    rw [replaceDestination_installs]
    unfold Local.installs at installs ⊢
    rwa [same.path, same.backup, same.temporary]
  have okay : Answers (.send s) (statusRecord SYNC_ID_OKAY []) := Or.inl rfl
  have owed : due (.send s :: later) false = .send s :: due later false := rfl
  rw [hands.2, exec_finishSend]
  rw [if_neg (not_not.mpr done), same.stream]
  refine served_reply [] hands.1 okay rfl Iff.rfl owed (List.suffix_cons _ _) ?_ (fun taken => ?_)
  · split_ifs
    all_goals exact parse.stream.trans same.stream
  · rw [if_pos taken]
    refine .idle rfl ?_ ?_
    · simp only [Local.set, parse.header, fresh]
      exact header_pos
    · simp only [Local.set, parse.header, fresh]
      exact bytes

private theorem served_stat {path : List UInt8} (hands : Hands fs i l data (sendStat fs) c rest)
    (stream : c.stream = l.ctx.stream) (fresh : c.header = [])
    (bytes : rest ++ future = wires later) :
    Served h l r data future (.stat path :: later) false ((syncPass fs i data).exec h l r) := by
  have parse : SameParse c (findEntry fs { l with ctx := c }).2.ctx := by
    unfold findEntry
    split_ifs <;> exact ⟨rfl, rfl, rfl⟩
  rw [hands.2, exec_sendStat]
  rw [stream]
  have owed : due (.stat path :: later) false = .stat path :: due later false := rfl
  have answer : Answers (.stat path) (statRecord (findEntry fs { l with ctx := c }).1) := ⟨_, rfl⟩
  refine served_reply [] hands.1 answer rfl Iff.rfl owed (List.suffix_cons _ _)
    (parse.stream.trans stream) (fun _ => .idle rfl ?_ ?_)
  · simp only [Local.set, parse.header, fresh]
    exact header_pos
  · simp only [Local.set, parse.header, fresh]
    exact bytes

theorem serve (expects : Expects l.ctx (data ++ future) todo paid received)
    (formed : ∀ q ∈ todo, q.WellFormed cfg) (more : data ≠ [])
    (installs : closesUpload l.ctx data → l.installs fs i) :
    Served h l r data future todo paid ((syncPass fs i data).exec h l r) := by
  cases turn fs i expects more with
  | quiet hands same expects' owed suffix working kept =>
    rw [hands.2]
    exact .quiet hands.1 same.stream expects' owed suffix
  | refuse hands same idle unbounded =>
    exact absurd (formed _ List.mem_cons_self).2.1 unbounded
  | stat hands same idle fresh spec bytes => exact served_stat fs i hands same.stream fresh bytes
  | start hands same opening fresh spec bytes =>
    exact served_start fs i hands same.stream fresh (formed _ List.mem_cons_self).1.2.1 bytes
  | chunk hands sending fresh bytes left =>
    exact served_chunk fs i hands sending fresh bytes left
  | finish hands same sending fresh finale bytes closing =>
    exact served_finish fs i hands same fresh (installs closing) bytes
  | broken hands same sending finale bytes =>
    obtain ⟨timestamp, done⟩ := (formed _ List.mem_cons_self).2.2
    rw [done] at finale
    cases finale
  | lost hands same draining finale bytes =>
    obtain ⟨timestamp, done⟩ := (formed _ List.mem_cons_self).2.2
    rw [done] at finale
    cases finale

end Served

end Webos.Adb.Sync
