/- digest: What a sync session still does after it has asked for its stream to be closed. -/

import Webos.Adb.Sync.Boundaries
import Webos.Adb.Sync.Ownership

namespace Webos.Adb.Sync

open Webos.Lib.Bytes Webos.Lib.Files Webos.Lib.Program

variable {cfg : Config} {φ ρ : Type}

section Logs

inductive FileOp where
  | stat (path : Path)
  | create (path : Path)
  | write (data : List UInt8)
  | close
  | rename (a b : Path)
  | unlink (path : Path)
  deriving DecidableEq

def logging (fs : FileSystem Path (Slot cfg) UInt8 φ) :
    FileSystem Path (Slot cfg) UInt8 (φ × List FileOp) where
  stat path d := ((fs.stat path d.1).1, (fs.stat path d.1).2, d.2 ++ [.stat path])
  create i path d := ((fs.create i path d.1).1, (fs.create i path d.1).2, d.2 ++ [.create path])
  write i data d := ((fs.write i data d.1).1, (fs.write i data d.1).2, d.2 ++ [.write data])
  close i d := ((fs.close i d.1).1, (fs.close i d.1).2, d.2 ++ [.close])
  rename a b d := ((fs.rename a b d.1).1, (fs.rename a b d.1).2, d.2 ++ [.rename a b])
  unlink path d := ((fs.unlink path d.1).1, (fs.unlink path d.1).2, d.2 ++ [.unlink path])

/-- What a session has told the router: its responses, and that its stream be closed. -/
structure Told where
  responses : List (List UInt8)
  closed : Bool

def listening (h : Host cfg ρ) : Host cfg (ρ × Told)
  | .write stream generation data, r =>
    ((h (.write stream generation data) r.1).1, (h (.write stream generation data) r.1).2,
      { r.2 with responses := r.2.responses ++ [data] })
  | .close stream generation, r =>
    ((), (h (.close stream generation) r.1).2, { r.2 with closed := true })
  | .generation stream, r => ((h (.generation stream) r.1).1, (h (.generation stream) r.1).2, r.2)
  | .maxPayload stream, r => ((h (.maxPayload stream) r.1).1, (h (.maxPayload stream) r.1).2, r.2)

end Logs

section Sessions

variable (fs : FileSystem Path (Slot cfg) UInt8 φ) (i : Slot cfg) (h : Host cfg ρ)

/-- A session between two passes of its loop: what it works on, the router, the bytes of the
current WRTE that are left, and whether its stream is released. -/
structure Sitting (cfg : Config) (φ ρ : Type) where
  loc : Local cfg (φ × List FileOp)
  host : ρ × Told
  unread : List UInt8
  released : Bool

/-- A WRTE arrives, the loop of `sync_write` makes a pass, the stream is released, or others use
the file system and the router. -/
inductive SittingStep (cfg : Config) (φ ρ : Type) where
  | arrive (data : List UInt8)
  | pass
  | release
  | others (nonce : UInt32) (disk : φ) (host : ρ)

def Sitting.step (s : Sitting cfg φ ρ) : SittingStep cfg φ ρ → Sitting cfg φ ρ
  | .arrive data => if s.unread = [] ∧ s.released = false then { s with unread := data } else s
  | .pass =>
    if s.unread = [] ∨ s.released = true then s
    else
      match servePass (logging fs) i (listening h) s.unread (s.loc, s.host) with
      | (exit, rest, loc, host) =>
        { s with loc := loc, host := host, unread := if exit.isSome then [] else rest }
  | .release =>
    if s.unread = [] then
      { s with loc := cleanupPartial (logging fs) i s.loc, released := true } else s
  | .others nonce disk host =>
    { s with
      loc := { s.loc with sideNonce := nonce, disk := (disk, s.loc.disk.2) }
      host := (host, s.host.2) }

def Sitting.run (s : Sitting cfg φ ρ) (steps : List (SittingStep cfg φ ρ)) : Sitting cfg φ ρ :=
  steps.foldl (Sitting.step fs i h) s

def Sitting.opened (stream : Slot cfg) (nonce : UInt32) (disk : φ)
    (host : ρ) : Sitting cfg φ ρ where
  loc := ⟨{ SyncContext.zero cfg with stream := some stream }, nonce, disk, []⟩
  host := (host, ⟨[], false⟩)
  unread := []
  released := false

variable (s : Sitting cfg φ ρ)

theorem step_pass (busy : s.unread ≠ []) (live : s.released = false) :
    s.step fs i h .pass =
      let out := servePass (logging fs) i (listening h) s.unread (s.loc, s.host)
      { s with
        loc := out.2.2.1
        host := out.2.2.2
        unread := if out.1.isSome then [] else out.2.1 } :=
  if_neg (by simp [busy, live])

theorem run_idle (empty : s.unread = []) (passes : Nat) :
    s.run fs i h (List.replicate passes .pass) = s := by
  induction passes with
  | zero => rfl
  | succ passes ih =>
    have stays : s.step fs i h .pass = s := if_pos (.inl empty)
    rw [List.replicate_succ, Sitting.run, List.foldl_cons, stays]
    exact ih

theorem run_passes (live : s.released = false) (passes : Nat) :
    (s.run fs i h (List.replicate passes .pass)).loc =
        ((syncLoop (logging fs) i passes s.unread).exec (listening h) s.loc s.host).2.1 ∧
      (s.run fs i h (List.replicate passes .pass)).host =
        ((syncLoop (logging fs) i passes s.unread).exec (listening h) s.loc s.host).2.2 := by
  rw [exec_syncLoop]
  induction passes generalizing s with
  | zero => exact ⟨rfl, rfl⟩
  | succ passes ih =>
    by_cases empty : s.unread = []
    · rw [run_idle fs i h s empty]
      simp [Webos.Lib.Fragment.loop, empty]
    · rw [List.replicate_succ, Sitting.run, List.foldl_cons, step_pass fs i h s empty live]
      simp only [Webos.Lib.Fragment.loop, empty, ↓reduceIte]
      rcases servePass (logging fs) i (listening h) s.unread (s.loc, s.host) with
        ⟨_ | ret, rest, loc, host⟩
      · exact ih { s with loc := loc, host := host, unread := rest } live
      · have idle := run_idle fs i h { s with loc := loc, host := host, unread := [] } rfl passes
        exact ⟨congrArg Sitting.loc idle, congrArg Sitting.host idle⟩

/-- The id and the value of the record header that the next pass completes. -/
def Sitting.record (s : Sitting cfg φ ρ) : Option (UInt32 × UInt32) :=
  let count := min s.unread.length (SYNC_HEADER_SIZE - s.loc.ctx.headerUsed)
  let header := s.loc.ctx.header ++ s.unread.take count
  if s.loc.ctx.headerUsed + count = SYNC_HEADER_SIZE then
    some (getLe32 header, getLe32 (header.drop 4))
  else none

/-- The next pass asks for the close but not for the rest to be discarded: it reads a QUIT, a bad
record behind a refused upload, or one in an upload whose FAIL response the stream refuses. -/
def Sitting.Slips (s : Sitting cfg φ ρ) : Prop :=
  ∃ id value, s.record = some (id, value) ∧
    match s.loc.ctx.state with
    | .requestHeader => id = SYNC_ID_QUIT ∧ value = 0
    | .drainHeader => id ≠ SYNC_ID_DONE ∧ badRecord cfg id value
    | .sendHeader => (id ≠ SYNC_ID_DONE ∧ badRecord cfg id value) ∧
      (h (.write s.loc.ctx.stream 0
        (statusRecord SYNC_ID_FAIL (ascii "invalid or oversized DATA"))) s.host.1).1 ≠ 0
    | _ => False

def Sitting.Serves (s : Sitting cfg φ ρ) : SittingStep cfg φ ρ → Prop
  | .pass => s.unread ≠ [] ∧ s.released = false
  | _ => False

/-- No bytes are served behind those on which a pass slips. -/
def Sitting.Heeds : Prop → Sitting cfg φ ρ → List (SittingStep cfg φ ρ) → Prop
  | _, _, [] => True
  | slipped, s, step :: later => (slipped → ¬s.Serves step) ∧
    Sitting.Heeds (slipped ∨ s.Serves step ∧ s.Slips h) (s.step fs i h step) later

def Discards (l : Local cfg (φ × List FileOp)) (r : ρ × Told) : Prop :=
  r.2.closed = true → l.ctx.state = .discardAndClose

section Exits

def Speaks : StreamCall cfg → Prop
  | .close _ _ => False
  | _ => True

variable {fs i h}

theorem Talks.told {α : Type} {m : Run cfg (φ × List FileOp) α} {l : Local cfg (φ × List FileOp)}
    {r : ρ × Told} (talks : Talks Speaks l.ctx.stream m) (opened : r.2.closed = false) :
    Discards (m.exec (listening h) l r).2.1 (m.exec (listening h) l r).2.2 := by
  have same : (m.exec (listening h) l r).2.2.2.closed = r.2.closed :=
    (talks l rfl).related (listening h) (fun a b => b.2.closed = a.2.closed) (fun _ => rfl)
      (fun _ _ _ first second => second.trans first)
      (fun c r speaks => by cases c <;> first | exact speaks.elim | rfl) r
  intro closed
  rw [same, opened] at closed
  cases closed

theorem speaks_writes {stream : Option (Slot cfg)} (response : List UInt8) :
    Speaks (.write stream 0 response) := trivial

variable {l : Local cfg (φ × List FileOp)} {r : ρ × Told} {id value : UInt32}

theorem request_discards (opened : r.2.closed = false) (stays : ¬(id = SYNC_ID_QUIT ∧ value = 0)) :
    Discards ((processRequest id value).exec (listening h) l r).2.1
      ((processRequest id value).exec (listening h) l r).2.2 := by
  rw [processRequest, if_neg stays]
  by_cases bounded : (id = SYNC_ID_SEND ∨ id = SYNC_ID_STAT) ∧ value ≠ 0 ∧
      value.toNat < specCapacity cfg
  · rw [if_pos bounded]
    exact Talks.told (.bind (.update fun _ mine => mine) fun _ => .pure 0) opened
  · rw [if_neg bounded, exec_bind, exec_sendStatus, exec_respond, exec_ite]
    split_ifs
    · intro closed
      cases opened.symm.trans closed
    · exact fun _ => rfl

theorem drain_discards (opened : r.2.closed = false)
    (stays : ¬(id ≠ SYNC_ID_DONE ∧ badRecord cfg id value)) :
    Discards ((processDrain id value).exec (listening h) l r).2.1
      ((processDrain id value).exec (listening h) l r).2.2 := by
  refine Talks.told ?_ opened
  unfold processDrain
  split_ifs with done bad
  · exact .bind (.update fun _ mine => mine) fun _ => .pure 0
  · exact absurd ⟨done, bad⟩ stays
  · exact .bind (.update fun _ mine => mine) fun _ => .pure 0

theorem record_discards {fs : FileSystem Path (Slot cfg) UInt8 φ} (opened : r.2.closed = false)
    (stays : ¬((id ≠ SYNC_ID_DONE ∧ badRecord cfg id value) ∧
      (h (.write l.ctx.stream 0
        (statusRecord SYNC_ID_FAIL (ascii "invalid or oversized DATA"))) r.1).1 ≠ 0)) :
    Discards ((processRecord (logging fs) i id value).exec (listening h) l r).2.1
      ((processRecord (logging fs) i id value).exec (listening h) l r).2.2 := by
  unfold processRecord
  split_ifs with done bad
  · exact Talks.told (finishSend_talks speaks_writes) opened
  · have taken : ¬(listening h (.write l.ctx.stream 0
        (statusRecord SYNC_ID_FAIL (ascii "invalid or oversized DATA"))) r).1 ≠ 0 :=
      fun refused => stays ⟨⟨done, bad⟩, refused⟩
    rw [exec_bind, exec_failTransfer]
    simp only [if_neg taken]
    exact fun _ => rfl
  · exact Talks.told (.bind (.update fun _ mine => mine) fun _ => .pure 0) opened

end Exits

/-- Between two states of a session nothing was answered, and no file was touched but its own
staging file, to close and remove it. -/
structure Silent (s s' : Sitting cfg φ ρ) : Prop where
  responses : s'.host.2.responses = s.host.2.responses
  temporary : s'.loc.ctx.temporary = s.loc.ctx.temporary
  cleanup : ∃ calls, s'.loc.disk.2 = s.loc.disk.2 ++ calls ∧
    ∀ op ∈ calls, op = .close ∨ op = .unlink s.loc.ctx.temporary

theorem Silent.refl : Silent s s :=
  ⟨rfl, rfl, [], (List.append_nil _).symm, fun _ member => nomatch member⟩

theorem Silent.trans {s t u : Sitting cfg φ ρ} (first : Silent s t) (second : Silent t u) :
    Silent s u := by
  obtain ⟨calls, log, own⟩ := first.cleanup
  obtain ⟨more, log', own'⟩ := second.cleanup
  refine ⟨second.responses.trans first.responses, second.temporary.trans first.temporary,
    calls ++ more, by rw [log', log, List.append_assoc], ?_⟩
  intro op member
  rcases List.mem_append.mp member with old | new
  · exact own op old
  · rw [← first.temporary]
    exact own' op new

theorem discarding_pass (data : List UInt8) (l : Local cfg (φ × List FileOp)) (r : ρ × Told)
    (discarding : l.ctx.state = .discardAndClose) :
    let out := servePass (logging fs) i (listening h) data (l, r)
    out.2.2.1.ctx.state = .discardAndClose ∧ out.2.2.1.disk = l.disk ∧
      out.2.2.1.ctx.temporary = l.ctx.temporary ∧ out.2.2.2.2.responses = r.2.responses ∧
      (r.2.closed = true → out.2.2.2.2.closed = true) := by
  unfold servePass syncPass
  simp only [exec_read_bind, discarding, exec_ite, exec_pure, drainPass, exec_update_bind,
    ↓reduceIte]
  split_ifs with none left
  · exact ⟨discarding, rfl, rfl, rfl, id⟩
  · simp only [exec_bind, exec_hangUp, exec_pure]
    exact ⟨discarding, rfl, rfl, rfl, fun _ => rfl⟩
  · exact ⟨discarding, rfl, rfl, rfl, id⟩

theorem header_discards {s : Sitting cfg φ ρ} (opened : s.host.2.closed = false)
    (next : ∀ id value, s.record = some (id, value) → ∀ m : Local cfg (φ × List FileOp),
      m.ctx.stream = s.loc.ctx.stream →
      let out := (processIn (logging fs) i s.loc.ctx.state id value).exec (listening h) m s.host
      Discards out.2.1 out.2.2) :
    let out := (headerPass (logging fs) i s.unread).exec (listening h) s.loc s.host
    Discards out.2.1 out.2.2 := by
  rw [exec_headerPass (logging fs) i _ _ _ _ _ rfl]
  by_cases full : s.loc.ctx.headerUsed +
      min s.unread.length (SYNC_HEADER_SIZE - s.loc.ctx.headerUsed) = SYNC_HEADER_SIZE
  · simp only [if_pos full, processHeader, exec_read_bind, exec_update_bind]
    exact next _ _ (if_pos full) _ rfl
  · simp only [if_neg full]
    intro closed
    cases opened.symm.trans closed

/-- A pass that does not slip goes to SYNC_DISCARD_AND_CLOSE when it asks for the close, and stays
there. -/
theorem pass_discards {s : Sitting cfg φ ρ} (discards : Discards s.loc s.host)
    (stays : ¬s.Slips h) :
    let out := servePass (logging fs) i (listening h) s.unread (s.loc, s.host)
    Discards out.2.2.1 out.2.2.2 := by
  by_cases discarding : s.loc.ctx.state = .discardAndClose
  · exact fun _ => (discarding_pass fs i h s.unread s.loc s.host discarding).1
  have opened : s.host.2.closed = false := by
    cases known : s.host.2.closed with
    | false => rfl
    | true => exact absurd (discards known) discarding
  have slips {id value : UInt32} (record : s.record = some (id, value)) := fun slip =>
    stays ⟨id, value, record, slip⟩
  unfold servePass syncPass
  simp only [exec_read_bind]
  cases state : s.loc.ctx.state with
  | requestHeader =>
    refine header_discards fs i h opened fun id value record m _ => ?_
    rw [state] at slips ⊢
    exact request_discards opened (slips record)
  | drainHeader =>
    refine header_discards fs i h opened fun id value record m _ => ?_
    rw [state] at slips ⊢
    exact drain_discards opened (slips record)
  | sendHeader =>
    refine header_discards fs i h opened fun id value record m stream => ?_
    rw [state] at slips ⊢
    exact record_discards opened (stream ▸ slips record)
  | requestSpec => exact Talks.told (specPass_talks speaks_writes s.unread) opened
  | statPath => exact Talks.told (specPass_talks speaks_writes s.unread) opened
  | sendData => exact Talks.told (dataPass_talks speaks_writes s.unread) opened
  | drainData =>
    rw [exec_drainPass (listening h) s.loc s.host s.unread _ rfl state]
    intro closed
    cases opened.symm.trans closed
  | discardAndClose => exact absurd state discarding

theorem step_discards {s : Sitting cfg φ ρ} {step : SittingStep cfg φ ρ}
    (discards : Discards s.loc s.host) (stays : ¬(s.Serves step ∧ s.Slips h)) :
    Discards (s.step fs i h step).loc (s.step fs i h step).host := by
  cases step with
  | arrive data =>
    simp only [Sitting.step]
    split_ifs <;> exact discards
  | pass =>
    by_cases idle : s.unread = [] ∨ s.released = true
    · have unchanged : s.step fs i h .pass = s := if_pos idle
      rw [unchanged]
      exact discards
    · have serves : s.Serves .pass :=
        ⟨(not_or.mp idle).1, Bool.eq_false_of_not_eq_true (not_or.mp idle).2⟩
      rw [step_pass fs i h s serves.1 serves.2]
      exact pass_discards fs i h discards fun slips => stays ⟨serves, slips⟩
  | release =>
    simp only [Sitting.step]
    split_ifs
    · show Discards (cleanupPartial (logging fs) i s.loc) s.host
      rw [Discards, cleanupPartial_ctx]
      exact discards
    · exact discards
  | others nonce disk host => exact discards

theorem Sitting.Heeds.run {s : Sitting cfg φ ρ} {before after : List (SittingStep cfg φ ρ)}
    {slipped : Prop} (heeds : Sitting.Heeds fs i h slipped s (before ++ after))
    (sound : slipped ∨ Discards s.loc s.host) :
    ∃ slipped, Sitting.Heeds fs i h slipped (s.run fs i h before) after ∧
      (slipped ∨ Discards (s.run fs i h before).loc (s.run fs i h before).host) := by
  induction before generalizing s slipped with
  | nil => exact ⟨slipped, heeds, sound⟩
  | cons step before ih =>
    refine ih heeds.2 ?_
    by_cases slips : s.Serves step ∧ s.Slips h
    · exact .inl (.inr slips)
    · exact sound.imp .inl fun discards => step_discards fs i h discards slips

theorem cleanup_calls (l : Local cfg (φ × List FileOp)) :
    (cleanupPartial (logging fs) i l).ctx.temporary = l.ctx.temporary ∧
      ∃ calls, (cleanupPartial (logging fs) i l).disk.2 = l.disk.2 ++ calls ∧
        ∀ op ∈ calls, op = .close ∨ op = .unlink l.ctx.temporary := by
  have closing : (closePartial (logging fs) i l).ctx.temporary = l.ctx.temporary ∧
      ∃ calls, (closePartial (logging fs) i l).disk.2 = l.disk.2 ++ calls ∧
        ∀ op ∈ calls, op = FileOp.close := by
    unfold closePartial
    split_ifs
    · exact ⟨rfl, [.close], rfl, fun op member => List.mem_singleton.mp member⟩
    · exact ⟨rfl, [], (List.append_nil _).symm, fun _ member => nomatch member⟩
  obtain ⟨name, calls, log, own⟩ := closing
  unfold cleanupPartial unlinkPartial
  split_ifs
  · refine ⟨name, calls ++ [.unlink l.ctx.temporary], ?_, ?_⟩
    · show (closePartial (logging fs) i l).disk.2 ++ [.unlink _] = _
      rw [log, name, List.append_assoc]
    · intro op member
      rcases List.mem_append.mp member with old | new
      · exact .inl (own op old)
      · exact .inr (List.mem_singleton.mp new)
  · exact ⟨name, calls, log, fun op member => .inl (own op member)⟩

theorem silent_step {s : Sitting cfg φ ρ} {step : SittingStep cfg φ ρ}
    (closed : s.host.2.closed = true)
    (discards : s.Serves step → s.loc.ctx.state = .discardAndClose) :
    Silent s (s.step fs i h step) ∧ (s.step fs i h step).host.2.closed = true := by
  cases step with
  | arrive data =>
    simp only [Sitting.step]
    split_ifs
    · exact ⟨⟨rfl, rfl, (Silent.refl s).cleanup⟩, closed⟩
    · exact ⟨Silent.refl s, closed⟩
  | pass =>
    by_cases idle : s.unread = [] ∨ s.released = true
    · have stays : s.step fs i h .pass = s := if_pos idle
      rw [stays]
      exact ⟨Silent.refl s, closed⟩
    · have serves : s.Serves .pass :=
        ⟨(not_or.mp idle).1, Bool.eq_false_of_not_eq_true (not_or.mp idle).2⟩
      obtain ⟨-, disk, temporary, responses, still⟩ :=
        discarding_pass fs i h s.unread s.loc s.host (discards serves)
      rw [step_pass fs i h s serves.1 serves.2]
      refine ⟨⟨responses, temporary, [], ?_, fun _ member => nomatch member⟩, still closed⟩
      rw [List.append_nil]
      exact congrArg Prod.snd disk
  | release =>
    simp only [Sitting.step]
    split_ifs
    · obtain ⟨temporary, cleanup⟩ := cleanup_calls fs i s.loc
      exact ⟨⟨rfl, temporary, cleanup⟩, closed⟩
    · exact ⟨Silent.refl s, closed⟩
  | others nonce disk host => exact ⟨⟨rfl, rfl, (Silent.refl s).cleanup⟩, closed⟩

theorem silent_run {s : Sitting cfg φ ρ} {steps : List (SittingStep cfg φ ρ)} {slipped : Prop}
    (closed : s.host.2.closed = true) (heeds : Sitting.Heeds fs i h slipped s steps)
    (sound : slipped ∨ Discards s.loc s.host) : Silent s (s.run fs i h steps) := by
  induction steps generalizing s slipped with
  | nil => exact Silent.refl s
  | cons step later ih =>
    obtain ⟨silent, still⟩ := silent_step fs i h closed fun serves =>
      sound.elim (fun gone => absurd serves (heeds.1 gone)) fun discards => discards closed
    have split : Sitting.Heeds fs i h slipped s ([step] ++ later) := heeds
    obtain ⟨slipped', heeds', sound'⟩ := split.run fs i h sound
    exact silent.trans (ih still heeds' sound')

/-- Once a session has asked for its stream to be closed, it answers nothing more and calls the
file system only to clean up its own staging file, in every run in which the host sends nothing
behind a QUIT or a bad record while draining and the stream takes the FAIL for a bad DATA record. -/
theorem closed_session_silent (fs : FileSystem Path (Slot cfg) UInt8 φ) (i : Slot cfg)
    (h : Host cfg ρ) (stream : Slot cfg) (nonce : UInt32) (disk : φ) (host : ρ)
    (before after : List (SittingStep cfg φ ρ))
    (heeds : Sitting.Heeds fs i h False (Sitting.opened stream nonce disk host) (before ++ after))
    (closed : ((Sitting.opened stream nonce disk host).run fs i h before).host.2.closed = true) :
    let then' := (Sitting.opened stream nonce disk host).run fs i h before
    let now := (Sitting.opened stream nonce disk host).run fs i h (before ++ after)
    now.host.2.responses = then'.host.2.responses ∧
      ∃ calls, now.loc.disk.2 = then'.loc.disk.2 ++ calls ∧
        ∀ op ∈ calls, op = .close ∨ op = .unlink then'.loc.ctx.temporary := by
  obtain ⟨slipped, later, sound⟩ := heeds.run fs i h (.inr fun no => by cases no)
  have silent := silent_run fs i h closed later sound
  have joined : (Sitting.opened stream nonce disk host).run fs i h (before ++ after) =
      ((Sitting.opened stream nonce disk host).run fs i h before).run fs i h after :=
    List.foldl_append
  rw [joined]
  exact ⟨silent.responses, silent.cleanup⟩

end Sessions

section Samples

def sampleSitting : Sitting Config.project SampleDisk Unit :=
  Sitting.opened firstSlot 0 ⟨fun _ => none, fun _ => none, 0⟩ ()

def unknownRequest : List UInt8 := recordHeader SYNC_ID_DATA 0 ++ ascii "STAT"

theorem heeds_cons {s : Sitting Config.project SampleDisk Unit}
    {step : SittingStep Config.project SampleDisk Unit}
    {later : List (SittingStep Config.project SampleDisk Unit)}
    (stays : ¬(s.Serves step ∧ s.Slips (obliging _)))
    (heeds : Sitting.Heeds memory firstSlot (obliging _) False
      (s.step memory firstSlot (obliging _) step) later) :
    Sitting.Heeds memory firstSlot (obliging _) False s (step :: later) := by
  refine ⟨False.elim, ?_⟩
  rw [false_or, eq_false stays]
  exact heeds

theorem unknown_heeds : Sitting.Heeds memory firstSlot (obliging _) False sampleSitting
    ([.arrive unknownRequest, .pass] ++ [.pass, .release]) := by
  have asked : (sampleSitting.step memory firstSlot (obliging _) (.arrive unknownRequest)).record =
      some (SYNC_ID_DATA, 0) := by decide +kernel
  have discarding :
    ((sampleSitting.step memory firstSlot (obliging _) (.arrive unknownRequest)).step
      memory firstSlot (obliging _) .pass).loc.ctx.state = .discardAndClose := by decide +kernel
  refine heeds_cons And.left (heeds_cons ?_ (heeds_cons ?_ (heeds_cons And.left trivial)))
  · rintro ⟨-, id, value, record, quit, -⟩
    rw [asked, quit] at record
    have same : SYNC_ID_DATA = SYNC_ID_QUIT := congrArg Prod.fst (Option.some.inj record)
    exact absurd same (by decide)
  · rintro ⟨-, id, value, -, slips⟩
    rw [discarding] at slips
    exact slips

theorem closed_session_silent_unknown :
    let asked := sampleSitting.run memory firstSlot (obliging _) [.arrive unknownRequest, .pass]
    let later := sampleSitting.run memory firstSlot (obliging _)
      ([.arrive unknownRequest, .pass] ++ [.pass, .release])
    asked.host.2.closed = true ∧ later.host.2.responses = asked.host.2.responses := by
  have closed : (sampleSitting.run memory firstSlot (obliging _)
      [.arrive unknownRequest, .pass]).host.2.closed = true := by decide +kernel
  exact ⟨closed, (closed_session_silent memory firstSlot (obliging _) firstSlot 0 _ ()
    [.arrive unknownRequest, .pass] [.pass, .release] unknown_heeds closed).1⟩

def quitThenStat : List UInt8 :=
  recordHeader SYNC_ID_QUIT 0 ++ (recordHeader SYNC_ID_STAT 11 ++ ascii "/STORAGE:/a")

theorem quit_then_stat_answered :
    let quit := sampleSitting.run memory firstSlot (obliging _) [.arrive quitThenStat, .pass]
    let later := quit.run memory firstSlot (obliging _) [.pass, .pass]
    quit.host.2.closed = true ∧ quit.host.2.responses = [] ∧ quit.loc.disk.2 = [] ∧
      later.host.2.responses = [statRecord none] ∧
      later.loc.disk.2 = [.stat (ascii "/STORAGE:/a")] := by
  decide +kernel

end Samples

end Webos.Adb.Sync
