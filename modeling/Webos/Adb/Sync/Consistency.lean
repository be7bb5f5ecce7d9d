/- digest: Between calls the record parser is consistent, and every pass makes progress. -/

import Webos.Adb.Sync.Boundaries

namespace Webos.Adb.Sync

open Webos.Lib.Files Webos.Lib.Fragment Webos.Lib.Program

variable {cfg : Config} {φ ρ : Type}

/-- What `remaining` counts in each state. -/
def SyncContext.Sized (c : SyncContext cfg) : Prop :=
  match c.state with
  | .requestSpec | .statPath => 0 < c.remaining ∧ c.spec.length + c.remaining < specCapacity cfg
  | .sendData | .drainData => 0 < c.remaining ∧ c.remaining ≤ cfg.syncDataMax
  | .sendHeader | .discardAndClose => c.remaining = 0
  | .requestHeader | .drainHeader => True

structure Consistent (c : SyncContext cfg) : Prop where
  header : c.headerUsed < SYNC_HEADER_SIZE
  sized : c.Sized
  opened : c.fileOpen = c.state.sending
  live : c.temporaryLive = c.state.sending

def Poised (ret : Int) (l : Local cfg φ) : Prop := ret = 0 → Consistent l.ctx

section Handlers

variable (fs : FileSystem Path (Slot cfg) UInt8 φ) (i : Slot cfg)

private theorem failTransfer_poised (reason : List UInt8) {drain : SyncState}
    (idle : drain.sending = false) :
    Routine.Ensures (fun l : Local cfg φ => l.ctx.headerUsed < SYNC_HEADER_SIZE ∧
      { l.ctx with state := drain }.Sized) Poised (failTransfer fs i reason drain) := by
  refine .bind (fun _ l => l.ctx.headerUsed < SYNC_HEADER_SIZE ∧
    { l.ctx with state := drain }.Sized ∧ l.ctx.fileOpen = false ∧ l.ctx.temporaryLive = false)
    (.update fun l held => ?_) fun _ => ?_
  · rw [cleanupPartial_ctx]
    exact ⟨held.1, held.2, rfl, rfl⟩
  · refine .bind _ (respond_ensures _ _) fun ret =>
      .ite (fun bad => .pure fun l _ zero => absurd zero bad) fun _ => ?_
    refine .returns (.update fun l held _ => ?_)
    exact ⟨held.1, held.2.1, held.2.2.1.trans idle.symm, held.2.2.2.trans idle.symm⟩

private theorem processRequest_poised (id value : UInt32) :
    Routine.Ensures (fun l : Local cfg φ => Consistent l.ctx ∧ l.ctx.state = .requestHeader) Poised
      (processRequest id value) := by
  refine .ite (fun _ => ?_) fun _ => .ite (fun bounded => ?_) fun _ => ?_
  · exact .bind _ (hangUp_ensures _) fun _ => .pure fun l held _ => held.1
  · refine .returns (.update fun l held _ => ?_)
    obtain ⟨⟨header, -, opened, live⟩, state⟩ := held
    rw [state] at opened live
    have positive : 0 < value.toNat := Nat.pos_of_ne_zero fun zero =>
      bounded.2.1 (UInt32.toNat.inj zero)
    have fits : ([] : List UInt8).length + value.toNat < specCapacity cfg := by
      rw [List.length_nil, Nat.zero_add]
      exact bounded.2.2
    by_cases send : id = SYNC_ID_SEND
    all_goals
      simp only [Local.set, send, ↓reduceIte]
      exact ⟨header, ⟨positive, fits⟩, opened, live⟩
  · refine .bind _ (respond_ensures _ _) fun ret => .ite (fun _ => .pure fun l _ zero => ?_)
      fun _ => ?_
    · exact absurd zero (show - EIO ≠ 0 by decide)
    · refine .bind (fun _ l => Consistent l.ctx) (.update fun l held => ?_)
        fun _ => .bind _ (hangUp_ensures _) fun _ => .pure fun l held _ => held
      obtain ⟨⟨header, -, opened, live⟩, state⟩ := held
      rw [state] at opened live
      exact ⟨header, rfl, opened, live⟩

private theorem beginData_poised {id value : UInt32} (good : ¬badRecord cfg id value)
    {next data : SyncState} (pair : next = .sendHeader ∧ data = .sendData ∨
      next = .drainHeader ∧ data = .drainData) :
    Routine.Ensures (fun l : Local cfg φ => Consistent l.ctx ∧ l.ctx.state = next)
      (fun _ l => Consistent l.ctx) (beginData value next data) := by
  refine .update fun l held => ?_
  obtain ⟨⟨header, -, opened, live⟩, state⟩ := held
  have short : value.toNat ≤ cfg.syncDataMax := by
    by_contra long
    exact good (Or.inr (Nat.lt_of_not_le long))
  rw [state] at opened live
  by_cases empty : value = 0
  · simp only [Local.set, empty, ↓reduceIte]
    rcases pair with ⟨rfl, rfl⟩ | ⟨rfl, rfl⟩
    · exact ⟨header, rfl, opened, live⟩
    · exact ⟨header, trivial, opened, live⟩
  · have positive : 0 < value.toNat := Nat.pos_of_ne_zero fun zero => empty (UInt32.toNat.inj zero)
    simp only [Local.set, empty, ↓reduceIte]
    rcases pair with ⟨rfl, rfl⟩ | ⟨rfl, rfl⟩
    all_goals exact ⟨header, ⟨positive, short⟩, opened, live⟩

private theorem processDrain_poised (id value : UInt32) :
    Routine.Ensures (fun l : Local cfg φ => Consistent l.ctx ∧ l.ctx.state = .drainHeader) Poised
      (processDrain id value) := by
  refine .ite (fun _ => ?_) fun _ => .ite (fun _ => ?_) fun good => ?_
  · refine .returns (.update fun l held _ => ?_)
    obtain ⟨⟨header, -, opened, live⟩, state⟩ := held
    rw [state] at opened live
    exact ⟨header, trivial, opened, live⟩
  · exact .bind _ (hangUp_ensures _) fun _ => .pure fun l held _ => held.1
  · exact .bind _ (beginData_poised good (Or.inr ⟨rfl, rfl⟩)) fun _ => .pure fun l held _ => held

private theorem finishSend_poised :
    Routine.Ensures (fun l : Local cfg φ => Consistent l.ctx ∧ l.ctx.state = .sendHeader) Poised
      (finishSend fs i) := by
  refine .bind (fun ret l => l.ctx.headerUsed < SYNC_HEADER_SIZE ∧
    (ret = 0 → l.ctx.fileOpen = false ∧ l.ctx.temporaryLive = false)) (.step fun l held => ?_)
    fun ret => .ite (fun _ => ?_) fun done => ?_
  · have parse := replaceDestination_parse fs i l
    refine ⟨?_, replaceDestination_released fs i l⟩
    unfold SyncContext.headerUsed
    rw [parse.header]
    exact held.1.header
  · exact (failTransfer_poised fs i _ rfl).narrow (fun l held => ⟨held.1, trivial⟩)
  · refine .bind _ (respond_ensures _ _) fun ret' => .ite (fun _ => ?_)
      fun bad => .pure fun l _ zero => absurd zero bad
    refine .returns (.update fun l held _ => ?_)
    obtain ⟨header, released⟩ := held
    obtain ⟨opened, live⟩ := released (not_not.mp done)
    exact ⟨header, trivial, opened, live⟩

private theorem processRecord_poised (id value : UInt32) :
    Routine.Ensures (fun l : Local cfg φ => Consistent l.ctx ∧ l.ctx.state = .sendHeader) Poised
      (processRecord fs i id value) := by
  refine .ite (fun _ => finishSend_poised fs i) fun _ => .ite (fun _ => ?_) fun good => ?_
  · refine .bind Poised ((failTransfer_poised fs i _ rfl).narrow (fun l held => ?_))
      fun ret => .returns (hangUp_ensures _)
    have sized := held.1.sized
    unfold SyncContext.Sized at sized
    rw [held.2] at sized
    exact ⟨held.1.header, sized⟩
  · exact .bind _ (beginData_poised good (Or.inl ⟨rfl, rfl⟩)) fun _ => .pure fun l held _ => held

private theorem sendStat_poised :
    Routine.Ensures (fun l : Local cfg φ => l.ctx.headerUsed < SYNC_HEADER_SIZE ∧
      l.ctx.fileOpen = false ∧ l.ctx.temporaryLive = false) Poised (sendStat fs) := by
  refine .bind (fun _ l => l.ctx.headerUsed < SYNC_HEADER_SIZE ∧ l.ctx.fileOpen = false ∧
    l.ctx.temporaryLive = false) (.step fun l held => ?_) fun entry => ?_
  · unfold findEntry
    split_ifs
    all_goals exact held
  · refine .bind (fun _ l => Consistent l.ctx) (.update fun l held => ?_)
      fun _ => (respond_ensures _ _).weaken (fun _ => id) fun ret l held _ => held
    exact ⟨held.1, trivial, held.2.1, held.2.2⟩

private theorem prepareSend_opens (l : Local cfg φ) (begun : (prepareSend fs i l).1 = none) :
    (prepareSend fs i l).2.ctx.fileOpen = true ∧
      (prepareSend fs i l).2.ctx.temporaryLive = true := by
  unfold prepareSend at begun ⊢
  split_ifs at begun ⊢
  split at begun
  · cases begun
  · unfold stageSend at begun ⊢
    dsimp only at begun ⊢
    split_ifs at begun ⊢
    exact ⟨rfl, rfl⟩

private theorem startSend_poised :
    Routine.Ensures (fun l : Local cfg φ => l.ctx.headerUsed < SYNC_HEADER_SIZE ∧
      l.ctx.remaining = 0) Poised (startSend fs i) := by
  refine .bind (fun refused l => l.ctx.headerUsed < SYNC_HEADER_SIZE ∧
    (refused = none → Consistent l.ctx)) (.step fun l held => ?_) fun refused => ?_
  · have parse := prepareSend_parse fs i l
    have header : (prepareSend fs i l).2.ctx.headerUsed < SYNC_HEADER_SIZE := by
      unfold SyncContext.headerUsed
      rw [parse.header]
      exact held.1
    refine ⟨header, fun begun => ?_⟩
    have state := prepareSend_begun fs i l begun
    obtain ⟨opened, live⟩ := prepareSend_opens fs i l begun
    refine ⟨header, ?_, ?_, ?_⟩
    · unfold SyncContext.Sized
      rw [state]
      exact parse.remaining.trans held.2
    · rw [opened, state]
      rfl
    · rw [live, state]
      rfl
  · cases refused with
    | none => exact .pure fun l held _ => held.2 rfl
    | some reason =>
      exact (failTransfer_poised fs i reason rfl).narrow (fun l held => ⟨held.1, trivial⟩)

private theorem storeData_poised (chunk : List UInt8) {left : Nat}
    (short : left ≤ cfg.syncDataMax) :
    Routine.Ensures (fun l : Local cfg φ => Consistent l.ctx ∧ l.ctx.state = .sendData) Poised
      (storeData fs i chunk left) := by
  refine .bind (fun _ l => Consistent l.ctx ∧ l.ctx.state = .sendData) (.step fun l held => held)
    fun written => .bind (fun _ l => l.ctx.headerUsed < SYNC_HEADER_SIZE ∧ l.ctx.remaining = left ∧
      l.ctx.state = .sendData ∧ l.ctx.fileOpen = true ∧ l.ctx.temporaryLive = true)
      (.update fun l held => ?_) fun _ => .ite (fun _ => ?_) fun _ => .ite (fun last => ?_)
        fun more => ?_
  · obtain ⟨⟨header, -, opened, live⟩, state⟩ := held
    rw [state] at opened live
    exact ⟨header, rfl, state, opened, live⟩
  · refine .bind _ ((failTransfer_poised fs i _ (by split_ifs <;> rfl)).narrow (fun l held => ?_))
      fun ret => .ite (fun _ => .pure fun l _ zero => ?_)
        fun taken => .pure fun l poised _ => poised (not_not.mp taken)
    · refine ⟨held.1, ?_⟩
      unfold SyncContext.Sized
      by_cases last : left = 0
      · simp [last]
      · simp only [last, ↓reduceIte, held.2.1]
        exact ⟨Nat.pos_of_ne_zero last, short⟩
    · exact absurd zero (show - EIO ≠ 0 by decide)
  · refine .returns (.update fun l held _ => ?_)
    obtain ⟨header, remaining, -, opened, live⟩ := held
    exact ⟨header, remaining.trans last, opened, live⟩
  · refine .pure fun l held _ => ?_
    obtain ⟨header, remaining, state, opened, live⟩ := held
    refine ⟨header, ?_, ?_, ?_⟩
    · unfold SyncContext.Sized
      rw [state, remaining]
      exact ⟨Nat.pos_of_ne_zero more, short⟩
    · rw [opened, state]
      rfl
    · rw [live, state]
      rfl

private def Stepped (data : List UInt8) (out : Option Int × List UInt8) (l : Local cfg φ) : Prop :=
  match out.1 with
  | none => out.2.length < data.length ∧ Consistent l.ctx
  | some ret => Poised ret l

variable {data : List UInt8}

private theorem Poised.stepped {ret : Int} {l : Local cfg φ} (poised : Poised ret l)
    {rest : List UInt8} (shorter : rest.length < data.length) :
    Stepped data (proceed ret rest) l := by
  unfold proceed Stepped
  by_cases bad : ret ≠ 0
  · rw [if_pos bad]
    exact poised
  · rw [if_neg bad]
    exact ⟨shorter, poised (not_not.mp bad)⟩

private theorem shorter_drop (more : data ≠ []) {room : Nat} (left : 0 < room) :
    (data.drop (min data.length room)).length < data.length := by
  have some := List.length_pos_iff.mpr more
  rw [List.length_drop]
  omega

private theorem processHeader_poised {state : SyncState} (headed : state = .requestHeader ∨
      state = .sendHeader ∨ state = .drainHeader) :
    Routine.Ensures (fun l : Local cfg φ => Consistent { l.ctx with header := [] } ∧
      l.ctx.state = state) Poised (processHeader fs i) := by
  refine .read fun l held => .sets ?_
  rw [held.2]
  rcases headed with rfl | rfl | rfl
  · exact (processRequest_poised _ _).start held
  · exact (processRecord_poised fs i _ _).start held
  · exact (processDrain_poised _ _).start held

private theorem headerPass_stepped (more : data ≠ []) {state : SyncState}
    (headed : state = .requestHeader ∨ state = .sendHeader ∨ state = .drainHeader) :
    Routine.Ensures (fun l : Local cfg φ => Consistent l.ctx ∧ l.ctx.state = state) (Stepped data)
      (headerPass fs i data) := by
  refine .read fun l held => ?_
  obtain ⟨⟨header, sized, opened, live⟩, rfl⟩ := held
  have shorter := shorter_drop more (Nat.sub_pos_of_lt header)
  -- the counter and the file are not the header's business
  have cleared : Consistent { l.ctx with header := [] } := ⟨header_pos, sized, opened, live⟩
  refine .sets (.ite (fun _ => ?_) fun part => .pure fun t same => ?_)
  · exact .bind Poised ((processHeader_poised fs i headed).start ⟨cleared, rfl⟩)
      fun ret => .pure fun t poised => poised.stepped shorter
  · subst same
    refine ⟨shorter, ?_, sized, opened, live⟩
    unfold SyncContext.headerUsed at header part ⊢
    simp only [Local.set, List.length_append, List.length_take]
    omega

private theorem specPass_stepped (more : data ≠ []) :
    Routine.Ensures (fun l : Local cfg φ => Consistent l.ctx ∧
      (l.ctx.state = .requestSpec ∨ l.ctx.state = .statPath)) (Stepped data)
      (specPass fs i data) := by
  refine .read fun l held => ?_
  obtain ⟨⟨header, sized, opened, live⟩, state⟩ := held
  have idle : l.ctx.state.sending = false := by rcases state with state | state <;>
    rw [state] <;> rfl
  have room : 0 < l.ctx.remaining ∧ l.ctx.spec.length + l.ctx.remaining < specCapacity cfg := by
    unfold SyncContext.Sized at sized
    rcases state with state | state <;> rw [state] at sized <;> exact sized
  have shorter := shorter_drop more room.1
  refine .sets (.ite (fun whole => .ite (fun _ => ?_) fun _ => ?_) fun part =>
    .pure fun t same => ?_)
  · exact .bind Poised ((sendStat_poised fs).start ⟨header, opened.trans idle, live.trans idle⟩)
      fun ret => .pure fun t poised => poised.stepped shorter
  · exact .bind Poised ((startSend_poised fs i).start ⟨header, whole⟩)
      fun ret => .pure fun t poised => poised.stepped shorter
  · subst same
    refine ⟨shorter, header, ?_, opened, live⟩
    have left : 0 < l.ctx.remaining - min data.length l.ctx.remaining ∧
        (l.ctx.spec ++ data.take (min data.length l.ctx.remaining)).length +
          (l.ctx.remaining - min data.length l.ctx.remaining) < specCapacity cfg := by
      rw [List.length_append, List.length_take]
      omega
    rcases state with state | state <;> simp only [Local.set, state] <;> exact left

private theorem dataPass_stepped (more : data ≠ []) :
    Routine.Ensures (fun l : Local cfg φ => Consistent l.ctx ∧ l.ctx.state = .sendData)
      (Stepped data) (dataPass fs i data) := by
  refine .read fun l held => ?_
  have room : 0 < l.ctx.remaining ∧ l.ctx.remaining ≤ cfg.syncDataMax := by
    have sized := held.1.sized
    unfold SyncContext.Sized at sized
    rwa [held.2] at sized
  exact .bind Poised ((storeData_poised fs i _ ((Nat.sub_le _ _).trans room.2)).start held)
    fun ret => .pure fun t poised => poised.stepped (shorter_drop more room.1)

omit fs i in
private theorem drainPass_stepped (more : data ≠ []) :
    Routine.Ensures (fun l : Local cfg φ => Consistent l.ctx ∧ l.ctx.state = .drainData)
      (Stepped data) (drainPass data) := by
  refine .read fun l held => ?_
  obtain ⟨⟨header, sized, opened, live⟩, state⟩ := held
  have room : 0 < l.ctx.remaining ∧ l.ctx.remaining ≤ cfg.syncDataMax := by
    unfold SyncContext.Sized at sized
    rwa [state] at sized
  rw [state] at opened live
  have shorter := shorter_drop more room.1
  refine .sets (.ite (fun _ => .ite (fun closing => ?_) fun _ => ?_) fun part =>
    .pure fun t same => ?_)
  · exact absurd (state.symm.trans closing) (by decide)
  · refine .sets (.pure fun t same => ⟨shorter, ?_⟩)
    subst same
    exact ⟨header, trivial, opened, live⟩
  · subst same
    refine ⟨shorter, header, ?_, opened.trans (state ▸ rfl), live.trans (state ▸ rfl)⟩
    simp only [Local.set, state]
    exact ⟨Nat.pos_of_ne_zero part, (Nat.sub_le _ _).trans room.2⟩

private theorem syncPass_stepped (more : data ≠ []) :
    Routine.Ensures (fun l : Local cfg φ => Consistent l.ctx) (Stepped data)
      (syncPass fs i data) := by
  refine .read fun l held => ?_
  cases state : l.ctx.state with
  | requestHeader => exact (headerPass_stepped fs i more (Or.inl rfl)).start ⟨held, state⟩
  | sendHeader => exact (headerPass_stepped fs i more (Or.inr (Or.inl rfl))).start ⟨held, state⟩
  | drainHeader => exact (headerPass_stepped fs i more (Or.inr (Or.inr rfl))).start ⟨held, state⟩
  | requestSpec => exact (specPass_stepped fs i more).start ⟨held, Or.inl state⟩
  | statPath => exact (specPass_stepped fs i more).start ⟨held, Or.inr state⟩
  | sendData => exact (dataPass_stepped fs i more).start ⟨held, state⟩
  | drainData => exact (drainPass_stepped more).start ⟨held, state⟩
  | discardAndClose =>
    have none : l.ctx.remaining = 0 := by
      have sized := held.sized
      unfold SyncContext.Sized at sized
      rwa [state] at sized
    simp only [none, ↓reduceIte]
    exact .pure fun t same _ => same ▸ held

end Handlers

section Calls

variable (fs : FileSystem Path (Slot cfg) UInt8 φ) (i : Slot cfg) (h : Host cfg ρ)

def openedContext (stream : Slot cfg) : SyncContext cfg :=
  { SyncContext.zero cfg with stream := some stream }

def contextAfter : SyncContext cfg → List (Call φ ρ) → SyncContext cfg
  | c, [] => c
  | c, call :: calls => contextAfter (call.run fs i h c).2.1.ctx calls

theorem openedContext_consistent (stream : Slot cfg) : Consistent (openedContext stream) :=
  ⟨header_pos, trivial, rfl, rfl⟩

private theorem servePass_advances {data : List UInt8} {w : Local cfg φ × ρ} (more : data ≠ [])
    (held : Consistent w.1.ctx) :
    Advances (servePass fs i h) (fun _ v => Consistent v.1.ctx) (fun ret v => Poised ret v.1)
      data w := by
  have stepped := (syncPass_stepped fs i more w.1 held).result h w.2
  unfold Advances servePass Routine.exec
  generalize (syncPass fs i data w.1).run h w.2 = out at stepped ⊢
  obtain ⟨⟨⟨_ | ret, rest⟩, l⟩, r⟩ := out
  all_goals exact stepped

private theorem call_consistent {c : SyncContext cfg} (held : Consistent c) (call : Call φ ρ) :
    (∀ m ∈ moments (servePass fs i h) (call.data.length + 1) call.data (call.start c, call.host),
      Consistent m.2.1.ctx) ∧
    ((call.run fs i h c).1 = 0 → Consistent (call.run fs i h c).2.1.ctx) := by
  obtain ⟨every, final⟩ := loop_rule
    (fun data w more held (_ : True) => servePass_advances fs i h more held)
    (Nat.le_succ call.data.length) (w := (call.start c, call.host)) held fun _ _ => trivial
  refine ⟨every, ?_⟩
  unfold Call.run
  rw [exec_syncLoop]
  generalize loop (servePass fs i h) (call.data.length + 1) call.data
    (call.start c, call.host) = out
    at final ⊢
  obtain ⟨_ | ret, l, r⟩ := out
  · exact fun _ => final.1
  · exact final

private theorem calls_consistent {c : SyncContext cfg} (held : Consistent c)
    {calls : List (Call φ ρ)} (accepted : ∀ ret ∈ callReturns fs i h c calls, ret = 0) :
    Consistent (contextAfter fs i h c calls) := by
  induction calls generalizing c with
  | nil => exact held
  | cons call calls ih =>
    have first := (call_consistent fs i h held call).2 (accepted _ List.mem_cons_self)
    exact ih first fun ret member => accepted ret (List.mem_cons_of_mem _ member)

/-- Between two calls, and between two passes of one, the counters and the file suit the state.
Whatever was stored of a path or a specification leaves room for its terminator, and a pass takes
a byte or ends the call. -/
theorem sync_parser_consistent {stream : Slot cfg} {calls : List (Call φ ρ)}
    (accepted : ∀ ret ∈ callReturns fs i h (openedContext stream) calls, ret = 0) :
    let c := contextAfter fs i h (openedContext stream) calls
    Consistent c ∧
      ∀ call : Call φ ρ, ∀ m ∈ moments (servePass fs i h) (call.data.length + 1) call.data
        (call.start c, call.host),
        Consistent m.2.1.ctx ∧
        (m.2.1.ctx.state = .requestSpec ∨ m.2.1.ctx.state = .statPath →
          m.2.1.ctx.spec.length + min m.1.length m.2.1.ctx.remaining < specCapacity cfg) ∧
        (m.1 ≠ [] → (servePass fs i h m.1 m.2).1 ≠ none ∨
          (servePass fs i h m.1 m.2).2.1.length < m.1.length) := by
  intro c
  have start : Consistent c := calls_consistent fs i h (openedContext_consistent stream) accepted
  refine ⟨start, fun call m member => ?_⟩
  have held := (call_consistent fs i h start call).1 m member
  refine ⟨held, fun reading => ?_, fun more => ?_⟩
  · have room := held.sized
    unfold SyncContext.Sized at room
    rcases reading with state | state
    all_goals
      rw [state] at room
      omega
  · have advances := servePass_advances fs i h more held
    unfold Advances at advances
    generalize servePass fs i h m.1 m.2 = out at advances ⊢
    obtain ⟨_ | ret, rest, v⟩ := out
    · exact Or.inr advances.1
    · exact Or.inl (Option.some_ne_none ret)

end Calls

theorem sync_parser_consistent_upload :
    let calls := sampleCalls memory
    let c := contextAfter memory firstSlot (obliging _) (openedContext firstSlot) calls
    (∀ ret ∈ callReturns memory firstSlot (obliging _) (openedContext firstSlot) calls, ret = 0) ∧
      Consistent c := by
  intro calls c
  have accepted : ∀ ret ∈ callReturns memory firstSlot (obliging _) (openedContext firstSlot)
      calls, ret = 0 := by
    decide +kernel
  exact ⟨accepted, (sync_parser_consistent memory firstSlot (obliging _) accepted).1⟩

end Webos.Adb.Sync
