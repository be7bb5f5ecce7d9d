/- digest: What one pass of the sync loop does on requests cut anywhere, once and for all proofs. -/

import Webos.Adb.Sync.Wire
import Webos.Lib.Fragment

namespace Webos.Adb.Sync

open Webos.Lib.Bytes Webos.Lib.Files Webos.Lib.Program

variable {cfg : Config} {φ ρ : Type}

abbrev Host (cfg : Config) (ρ : Type) := Handler (StreamCall cfg) StreamCall.Reply ρ

theorem respond_ensures (I : Local cfg φ → Prop) (response : List UInt8) :
    Routine.Ensures I (fun _ => I) (respond response : Run cfg φ Int) :=
  .read fun _ holds _ same => ⟨trivial, fun _ => same ▸ holds⟩

theorem hangUp_ensures (I : Local cfg φ → Prop) :
    Routine.Ensures I (fun _ => I) (hangUp : Run cfg φ Unit) :=
  .read fun _ holds _ same => ⟨trivial, fun _ => same ▸ holds⟩

section Exec

variable (fs : FileSystem Path (Slot cfg) UInt8 φ) (i : Slot cfg) (h : Host cfg ρ)
variable (l : Local cfg φ) (r : ρ)

@[simp] theorem exec_respond (response : List UInt8) :
    (respond response).exec h l r =
      ((h (.write l.ctx.stream 0 response) r).1, l, (h (.write l.ctx.stream 0 response) r).2) := by
  simp only [respond, exec_read_bind, exec_ask]

@[simp] theorem exec_sendStatus (id : UInt32) (message : List UInt8) :
    (sendStatus id message).exec h l r = (respond (statusRecord id message)).exec h l r := rfl

@[simp] theorem exec_hangUp :
    (hangUp : Run cfg φ Unit).exec h l r = ((), l, (h (.close l.ctx.stream 0) r).2) := by
  simp only [hangUp, exec_read_bind, exec_ask]

@[simp] theorem exec_goTo (state : SyncState) :
    (goTo state : Run cfg φ Unit).exec h l r = ((), l.set fun c => { c with state }, r) := rfl

variable (data : List UInt8) (count : Nat)

theorem exec_headerPass (counted : count = min data.length (SYNC_HEADER_SIZE - l.ctx.headerUsed)) :
    (headerPass fs i data).exec h l r =
      let l' := l.set fun c => { c with header := c.header ++ data.take count }
      if l.ctx.headerUsed + count = SYNC_HEADER_SIZE then
        let out := (processHeader fs i).exec h l' r
        (proceed out.1 (data.drop count), out.2)
      else ((none, data.drop count), l', r) := by
  subst counted
  simp only [headerPass, exec_read_bind, exec_update_bind, exec_ite]
  split_ifs <;> simp only [exec_bind, exec_pure]

theorem exec_specPass (counted : count = min data.length l.ctx.remaining) :
    (specPass fs i data).exec h l r =
      let l' := l.set fun c =>
        { c with spec := c.spec ++ data.take count, remaining := c.remaining - count }
      if l.ctx.remaining - count = 0 then
        let out := (if l.ctx.state = .statPath then sendStat fs else startSend fs i).exec h l' r
        (proceed out.1 (data.drop count), out.2)
      else ((none, data.drop count), l', r) := by
  subst counted
  simp only [specPass, exec_read_bind, exec_update_bind, exec_ite]
  split_ifs <;> simp only [exec_bind, exec_pure]

theorem exec_dataPass (counted : count = min data.length l.ctx.remaining) :
    (dataPass fs i data).exec h l r =
      let out := (storeData fs i (data.take count) (l.ctx.remaining - count)).exec h l r
      (proceed out.1 (data.drop count), out.2) := by
  subst counted
  simp only [dataPass, exec_read_bind]
  simp only [exec_bind, exec_pure]

theorem exec_drainPass (counted : count = min data.length l.ctx.remaining)
    (draining : l.ctx.state = .drainData) :
    (drainPass data).exec h l r = ((none, data.drop count), l.set fun c =>
        { c with
          remaining := c.remaining - count
          state := if c.remaining - count = 0 then .drainHeader else c.state }, r) := by
  subst counted
  simp only [drainPass, exec_read_bind, exec_update_bind, exec_ite, draining, reduceCtorEq,
    ↓reduceIte]
  split_ifs with done
  · simp [exec_bind, exec_pure, exec_goTo, Local.set, done]
  · simp [exec_pure, Local.set, done]

def servePass : Webos.Lib.Fragment.Pass UInt8 (Local cfg φ × ρ) Int := fun data w =>
  let out := (syncPass fs i data).exec h w.1 w.2
  (out.1.1, out.1.2, out.2)

theorem exec_syncLoop (passes : Nat) (data : List UInt8) :
    (syncLoop fs i passes data).exec h l r =
      let out := Webos.Lib.Fragment.loop (servePass fs i h) passes data (l, r)
      (out.1.getD 0, out.2) := by
  induction passes generalizing data l r with
  | zero => rfl
  | succ passes ih =>
    simp only [syncLoop, exec_ite, exec_pure, exec_bind, Webos.Lib.Fragment.loop, servePass]
    by_cases empty : data = []
    · simp only [empty, ↓reduceIte, Option.getD_none]
    · simp only [empty, ↓reduceIte]
      rcases (syncPass fs i data).exec h l r with ⟨⟨_ | ret, rest⟩, l', r'⟩
      · exact ih l' r' rest
      · rfl

end Exec

/-- The record of a context that a callback may change without touching its upload. -/
structure SameUpload (c c' : SyncContext cfg) : Prop where
  stream : c'.stream = c.stream
  path : c'.path = c.path
  temporary : c'.temporary = c.temporary
  backup : c'.backup = c.backup
  fileOpen : c'.fileOpen = c.fileOpen
  temporaryLive : c'.temporaryLive = c.temporaryLive

def SyncState.sending : SyncState → Bool
  | .sendHeader | .sendData => true
  | _ => false

def Request.textState : Request → SyncState
  | .stat _ => .statPath
  | .send _ => .requestSpec

/-- What is left of an upload: a part of a DATA record and the records behind it. -/
structure Send.Left (cfg : Config) (s : Send) (received part : List UInt8)
    (records : List (List UInt8)) : Prop where
  contents : received ++ (part ++ records.flatten) = s.contents
  bounded : ∀ data ∈ records, data.length ≤ cfg.syncDataMax
  inside : (part ++ recordsWire records s.finale).length ≤ (Request.send s).tail.length

/-- Where a context stands in a list of requests of which `rest` is still to come. `todo` starts
with the request being read, `paid` tells whether it has been answered already and `received` is
what its DATA records have brought so far. -/
inductive Expects (c : SyncContext cfg) (rest : List UInt8) :
    List Request → Bool → List UInt8 → Prop where
  | idle {todo : List Request} (state : c.state = .requestHeader)
      (short : c.header.length < SYNC_HEADER_SIZE) (bytes : c.header ++ rest = wires todo) :
      Expects c rest todo false []
  | text {q : Request} {later : List Request} (state : c.state = q.textState)
    (fresh : c.header = [])
      (more : 0 < c.remaining) (size : c.spec.length + c.remaining = q.text.length)
      (bounded : boundedText cfg q.text)
      (bytes : c.spec ++ rest = q.text ++ (q.tail ++ wires later)) :
      Expects c rest (q :: later) false []
  | record {s : Send} {later : List Request} {records : List (List UInt8)} {paid : Bool}
      {received : List UInt8} (state : c.state = if paid then .drainHeader else .sendHeader)
      (short : c.header.length < SYNC_HEADER_SIZE)
      (bytes : c.header ++ rest = recordsWire records s.finale ++ wires later)
      (left : s.Left cfg received [] records) :
      Expects c rest (.send s :: later) paid received
  | data {s : Send} {later : List Request} {part : List UInt8} {records : List (List UInt8)}
      {paid : Bool} {received : List UInt8}
      (state : c.state = if paid then .drainData else .sendData)
      (fresh : c.header = []) (more : part ≠ []) (size : c.remaining = part.length)
      (bytes : rest = part ++ (recordsWire records s.finale ++ wires later))
      (left : s.Left cfg received part records) :
      Expects c rest (.send s :: later) paid received

theorem header_pos : 0 < SYNC_HEADER_SIZE := by decide

variable {c : SyncContext cfg} {rest : List UInt8}

theorem Expects.started {s : Send} {later : List Request} (paid : Bool)
    (state : c.state = if paid then .drainHeader else .sendHeader) (fresh : c.header = [])
    (bounded : ∀ data ∈ s.records, data.length ≤ cfg.syncDataMax)
    (bytes : rest = recordsWire s.records s.finale ++ wires later) :
    Expects c rest (.send s :: later) paid [] := by
  refine .record state ?_ ?_ ⟨rfl, bounded, Nat.le_refl _⟩
  · rw [fresh]
    exact header_pos
  · rw [fresh]
    exact bytes

variable {received : List UInt8}

theorem Expects.stored {part : List UInt8} {s : Send} {later : List Request}
    {records : List (List UInt8)} (paid : Bool)
    (state : c.state = if part.length = 0 then (if paid then .drainHeader else .sendHeader)
      else (if paid then .drainData else .sendData)) (fresh : c.header = [])
    (size : c.remaining = part.length)
    (bytes : rest = part ++ (recordsWire records s.finale ++ wires later))
    (left : s.Left cfg received part records) :
    Expects c rest (.send s :: later) paid received := by
  by_cases empty : part = []
  · subst empty
    refine .record state ?_ ?_ left
    · rw [fresh]
      exact header_pos
    · rw [fresh]
      exact bytes
  · refine .data ?_ fresh empty size bytes left
    rw [state, if_neg fun zero => empty (List.length_eq_zero_iff.mp zero)]

theorem Expects.span {todo : List Request} {paid : Bool}
    (expects : Expects c rest todo paid received) :
    (∀ q later, todo = q :: later → (wires later).length < rest.length) ∧
      ((c.state = .requestHeader ∧ c.header.length + rest.length = (wires todo).length) ∨
        rest.length + 8 ≤ (wires todo).length) := by
  cases expects with
  | idle state short bytes =>
    have total := congrArg List.length bytes
    rw [List.length_append] at total
    refine ⟨fun q later here => ?_, Or.inl ⟨state, total⟩⟩
    have longer := length_wire q
    rw [here, wires_cons, List.length_append] at total
    unfold SYNC_HEADER_SIZE at short
    omega
  | @text q later state fresh more size bounded bytes =>
    have total := congrArg List.length bytes
    have longer := length_wire q
    simp only [List.length_append] at total
    refine ⟨fun q' later' here => ?_, Or.inr ?_⟩
    · cases here
      omega
    · rw [wires_cons, List.length_append]
      omega
  | @record s later records paid received state short bytes left =>
    have total := congrArg List.length bytes
    have inside := left.inside
    rw [List.nil_append] at inside
    have longer := length_wire (.send s)
    have enough : 8 ≤ (recordsWire records s.finale).length := by
      cases records with
      | nil => simp [recordsWire]
      | cons data records => simp [recordsWire]
    unfold SYNC_HEADER_SIZE at short
    simp only [List.length_append] at total
    refine ⟨fun q' later' here => ?_, Or.inr ?_⟩
    · cases here
      omega
    · rw [wires_cons, List.length_append]
      omega
  | @data s later part records paid received state fresh more size bytes left =>
    have total := congrArg List.length bytes
    have inside := left.inside
    have longer := length_wire (.send s)
    have filled : 0 < part.length := List.length_pos_iff.mpr more
    simp only [List.length_append] at total inside
    refine ⟨fun q' later' here => ?_, Or.inr ?_⟩
    · cases here
      omega
    · rw [wires_cons, List.length_append]
      omega

/-- The next pass over `data` completes the DONE of an upload. -/
def closesUpload (c : SyncContext cfg) (data : List UInt8) : Prop :=
  c.state = .sendHeader ∧ ∃ timestamp,
    c.header ++ data.take (SYNC_HEADER_SIZE - c.headerUsed) = recordHeader SYNC_ID_DONE timestamp

/-- The next pass over `data` completes the text `spec` of a SEND. -/
def opensUpload (c : SyncContext cfg) (data spec : List UInt8) : Prop :=
  c.state = .requestSpec ∧ c.remaining ≤ data.length ∧ c.spec ++ data.take c.remaining = spec

def due (todo : List Request) (paid : Bool) : List Request := if paid then todo.tail else todo

section Turns

variable (fs : FileSystem Path (Slot cfg) UInt8 φ) (i : Slot cfg) (l : Local cfg φ)
variable (data future : List UInt8)

/-- A pass consumes something, leaves `rest` and does what `m` does from the context `c`. -/
def Hands (m : Run cfg φ Int) (c : SyncContext cfg) (rest : List UInt8) : Prop :=
  rest.length < data.length ∧ ∀ (ρ : Type) (h : Host cfg ρ) (r : ρ),
    (syncPass fs i data).exec h l r =
      (proceed (m.exec h { l with ctx := c } r).1 rest, (m.exec h { l with ctx := c } r).2)

inductive Turn : List Request → Bool → List UInt8 → Prop where
  | quiet {todo todo' : List Request} {paid paid' : Bool} {received received' : List UInt8}
      {c : SyncContext cfg} {rest : List UInt8} (hands : Hands fs i l data (pure 0) c rest)
      (same : SameUpload l.ctx c) (expects : Expects c (rest ++ future) todo' paid' received')
      (owed : due todo' paid' = due todo paid) (suffix : todo' <:+ todo)
      (working : c.state.sending = l.ctx.state.sending)
      (kept : l.ctx.state.sending = true → received' = received) :
      Turn todo paid received
  | refuse {q : Request} {later : List Request} {c : SyncContext cfg} {rest : List UInt8}
      (hands : Hands fs i l data (processRequest q.id (UInt32.ofNat q.text.length)) c rest)
      (same : SameUpload l.ctx c) (idle : l.ctx.state = .requestHeader)
      (unbounded : ¬boundedText cfg q.text) : Turn (q :: later) false []
  | stat {path : List UInt8} {later : List Request} {c : SyncContext cfg} {rest : List UInt8}
      (hands : Hands fs i l data (sendStat fs) c rest) (same : SameUpload l.ctx c)
      (idle : l.ctx.state = .statPath) (fresh : c.header = [])
      (spec : c.spec = path) (bytes : rest ++ future = wires later) :
      Turn (.stat path :: later) false []
  | start {s : Send} {later : List Request} {c : SyncContext cfg} {rest : List UInt8}
      (hands : Hands fs i l data (startSend fs i) c rest) (same : SameUpload l.ctx c)
      (opening : opensUpload l.ctx data s.spec) (fresh : c.header = []) (spec : c.spec = s.spec)
      (bytes : rest ++ future = recordsWire s.records s.finale ++ wires later) :
      Turn (.send s :: later) false []
  | chunk {s : Send} {later : List Request} {received chunk part : List UInt8}
      {records : List (List UInt8)} {rest : List UInt8}
      (hands : Hands fs i l data (storeData fs i chunk part.length) l.ctx rest)
      (sending : l.ctx.state = .sendData) (fresh : l.ctx.header = [])
      (bytes : rest ++ future = part ++ (recordsWire records s.finale ++ wires later))
      (left : s.Left cfg (received ++ chunk) part records) :
      Turn (.send s :: later) false received
  | finish {s : Send} {later : List Request} {timestamp : UInt32} {c : SyncContext cfg}
      {rest : List UInt8} (hands : Hands fs i l data (finishSend fs i) c rest)
      (same : SameUpload l.ctx c) (sending : l.ctx.state = .sendHeader) (fresh : c.header = [])
      (finale : s.finale = .done timestamp) (bytes : rest ++ future = wires later)
      (closing : closesUpload l.ctx data) : Turn (.send s :: later) false s.contents
  | broken {s : Send} {later : List Request} {id value : UInt32} {received : List UInt8}
      {c : SyncContext cfg} {rest : List UInt8}
      (hands : Hands fs i l data (processRecord fs i id value) c rest)
      (same : SameUpload l.ctx c) (sending : l.ctx.state = .sendHeader)
      (finale : s.finale = .broken id value) (bytes : rest ++ future = wires later) :
      Turn (.send s :: later) false received
  | lost {s : Send} {later : List Request} {id value : UInt32} {received : List UInt8}
      {c : SyncContext cfg} {rest : List UInt8}
      (hands : Hands fs i l data (processDrain id value) c rest)
      (same : SameUpload l.ctx c) (draining : l.ctx.state = .drainHeader)
      (finale : s.finale = .broken id value) (bytes : rest ++ future = wires later) :
      Turn (.send s :: later) true received

variable {l data future}

theorem Hands.settle {fs : FileSystem Path (Slot cfg) UInt8 φ} {i : Slot cfg}
    {m : Run cfg φ Int} {c c' : SyncContext cfg} {rest : List UInt8}
    (hands : Hands fs i l data m c rest)
    (still : ∀ (ρ : Type) (h : Host cfg ρ) (r : ρ),
      m.exec h { l with ctx := c } r = (0, { l with ctx := c' }, r)) :
    Hands fs i l data (pure 0) c' rest := by
  refine ⟨hands.1, fun ρ h r => ?_⟩
  rw [hands.2 ρ h r, still ρ h r]
  rfl

theorem header_turn {id value : UInt32} {tail : List UInt8}
    (headed : l.ctx.state = .requestHeader ∨ l.ctx.state = .sendHeader ∨ l.ctx.state = .drainHeader)
    (short : l.ctx.header.length < SYNC_HEADER_SIZE) (more : data ≠ [])
    (bytes : l.ctx.header ++ (data ++ future) = recordHeader id value ++ tail) :
    (Hands fs i l data (pure 0) { l.ctx with header := l.ctx.header ++ data } [] ∧
      (l.ctx.header ++ data).length < SYNC_HEADER_SIZE) ∨
    ∃ rest, Hands fs i l data (processIn fs i l.ctx.state id value)
      { l.ctx with header := [] } rest ∧
      rest ++ future = tail ∧
      l.ctx.header ++ data.take (SYNC_HEADER_SIZE - l.ctx.headerUsed) = recordHeader id value := by
  have pass (ρ : Type) (h : Host cfg ρ) (r : ρ) :
      (syncPass fs i data).exec h l r = (headerPass fs i data).exec h l r := by
    rcases headed with state | state | state <;>
      simp only [syncPass, exec_read_bind, state]
  have some : 0 < data.length := List.length_pos_iff.mpr more
  generalize counted : min data.length (SYNC_HEADER_SIZE - l.ctx.headerUsed) = count
  have used : l.ctx.headerUsed = l.ctx.header.length := rfl
  by_cases full : l.ctx.headerUsed + count = SYNC_HEADER_SIZE
  · right
    obtain ⟨header, rest⟩ := fill_complete bytes (by omega : count ≤ data.length) full
    have enough : SYNC_HEADER_SIZE - l.ctx.headerUsed = count := by omega
    rw [enough]
    refine ⟨data.drop count, ⟨by rw [List.length_drop]; omega, fun ρ h r => ?_⟩, rest, header⟩
    rw [pass, exec_headerPass fs i h l r data count counted.symm]
    simp [full, processHeader, Local.set, header, recordHeader_id, recordHeader_value]
  · left
    have whole : count = data.length := by omega
    refine ⟨⟨some, fun ρ h r => ?_⟩, ?_⟩
    · rw [pass, exec_headerPass fs i h l r data count counted.symm]
      simp only [full, ↓reduceIte]
      rw [whole, List.take_length, List.drop_length]
      rfl
    · rw [List.length_append]
      omega

theorem text_turn {text tail : List UInt8}
    (reading : l.ctx.state = .requestSpec ∨ l.ctx.state = .statPath) (left : 0 < l.ctx.remaining)
    (more : data ≠ []) (size : l.ctx.spec.length + l.ctx.remaining = text.length)
    (bytes : l.ctx.spec ++ (data ++ future) = text ++ tail) :
    (Hands fs i l data (pure 0) { l.ctx with
          spec := l.ctx.spec ++ data
          remaining := l.ctx.remaining - data.length } [] ∧ data.length < l.ctx.remaining) ∨
    ∃ rest, Hands fs i l data (if l.ctx.state = .statPath then sendStat fs else startSend fs i)
        { l.ctx with spec := text, remaining := 0 } rest ∧ rest ++ future = tail ∧
      l.ctx.remaining ≤ data.length ∧ l.ctx.spec ++ data.take l.ctx.remaining = text := by
  have pass (ρ : Type) (h : Host cfg ρ) (r : ρ) :
      (syncPass fs i data).exec h l r = (specPass fs i data).exec h l r := by
    rcases reading with state | state <;> simp only [syncPass, exec_read_bind, state]
  have some : 0 < data.length := List.length_pos_iff.mpr more
  generalize counted : min data.length l.ctx.remaining = count
  by_cases full : l.ctx.remaining - count = 0
  · right
    have whole : count = l.ctx.remaining := by omega
    obtain ⟨spec, rest⟩ := fill_complete bytes (by omega : count ≤ data.length) (by omega)
    refine ⟨data.drop count, ⟨by rw [List.length_drop]; omega, fun ρ h r => ?_⟩, rest, by omega,
      by rw [← whole]; exact spec⟩
    rw [pass, exec_specPass fs i h l r data count counted.symm]
    simp [full, Local.set, spec]
  · left
    have whole : count = data.length := by omega
    refine ⟨⟨some, fun ρ h r => ?_⟩, by omega⟩
    rw [pass, exec_specPass fs i h l r data count counted.symm]
    simp only [full, ↓reduceIte]
    rw [whole, List.take_length, List.drop_length]
    rfl

private theorem exec_processRequest_bounded {q : Request} (bounded : boundedText cfg q.text)
    (h : Host cfg ρ) (m : Local cfg φ) (r : ρ) :
    (processRequest q.id (UInt32.ofNat q.text.length) : Run cfg φ Int).exec h m r =
      (0, m.set fun c => { c with
        remaining := q.text.length, spec := [], state := q.textState }, r) := by
  have size := toNat_ofNat_length (specCapacity_lt cfg) (Nat.le_of_lt bounded.2)
  have filled : UInt32.ofNat q.text.length ≠ 0 := by
    intro zero
    rw [zero] at size
    exact bounded.1 (List.length_eq_zero_iff.mp size.symm)
  have known : q.id = SYNC_ID_SEND ∨ q.id = SYNC_ID_STAT := by
    cases q
    · exact Or.inr rfl
    · exact Or.inl rfl
  have next : (if q.id = SYNC_ID_SEND then SyncState.requestSpec else .statPath) = q.textState := by
    cases q <;> rfl
  have short : (UInt32.ofNat q.text.length).toNat < specCapacity cfg := by
    rw [size]
    exact bounded.2
  rw [processRequest, if_neg fun quit => filled quit.2, if_pos ⟨known, filled, short⟩,
    exec_update_bind, exec_pure, next, size]

private theorem good_record {chunk : List UInt8} (short : chunk.length ≤ cfg.syncDataMax) :
    ¬badRecord cfg SYNC_ID_DATA (UInt32.ofNat chunk.length) := by
  rintro (other | long)
  · exact other rfl
  · rw [toNat_ofNat_length (syncDataMax_lt cfg) short] at long
    omega

private theorem turn_idle {todo : List Request}
    (state : l.ctx.state = .requestHeader) (short : l.ctx.header.length < SYNC_HEADER_SIZE)
    (bytes : l.ctx.header ++ (data ++ future) = wires todo) (more : data ≠ []) :
    Turn fs i l data future todo false [] := by
  cases todo with
  | nil => simp [more] at bytes
  | cons q later =>
    have split : l.ctx.header ++ (data ++ future) =
        recordHeader q.id (UInt32.ofNat q.text.length) ++ (q.text ++ (q.tail ++ wires later)) := by
      rw [bytes, wires_cons, Request.wire, Request.head]
      simp
    rcases header_turn fs i (Or.inl state) short more split with
      ⟨hands, still⟩ | ⟨rest, hands, after, -⟩
    · refine .quiet hands ⟨rfl, rfl, rfl, rfl, rfl, rfl⟩ (.idle state still ?_) rfl
        List.suffix_rfl rfl fun _ => rfl
      rw [← bytes]
      simp
    · rw [state] at hands
      by_cases bounded : boundedText cfg q.text
      · refine .quiet (hands.settle fun ρ h r => exec_processRequest_bounded bounded h _ r)
          ⟨rfl, rfl, rfl, rfl, rfl, rfl⟩ (.text rfl rfl ?_ ?_ bounded after) rfl List.suffix_rfl ?_
          fun _ => rfl
        · exact List.length_pos_iff.mpr bounded.1
        · simp
        · rw [state]
          cases q <;> rfl
      · exact .refuse hands ⟨rfl, rfl, rfl, rfl, rfl, rfl⟩ state bounded

variable {later : List Request}

private theorem turn_text {q : Request} (state : l.ctx.state = q.textState)
    (fresh : l.ctx.header = []) (left : 0 < l.ctx.remaining)
    (size : l.ctx.spec.length + l.ctx.remaining = q.text.length) (bounded : boundedText cfg q.text)
    (bytes : l.ctx.spec ++ (data ++ future) = q.text ++ (q.tail ++ wires later))
    (more : data ≠ []) : Turn fs i l data future (q :: later) false [] := by
  have reading : l.ctx.state = .requestSpec ∨ l.ctx.state = .statPath := by
    rw [state]
    cases q
    · exact Or.inr rfl
    · exact Or.inl rfl
  rcases text_turn fs i reading left more size bytes with
    ⟨hands, still⟩ | ⟨rest, hands, after, enough, text⟩
  · refine .quiet hands ⟨rfl, rfl, rfl, rfl, rfl, rfl⟩ (.text state fresh ?_ ?_ bounded ?_) rfl
      List.suffix_rfl rfl fun _ => rfl
    · exact Nat.sub_pos_of_lt still
    · simp only [List.length_append]
      omega
    · rw [← bytes]
      simp
  · rw [state] at hands
    cases q with
    | stat path => exact .stat hands ⟨rfl, rfl, rfl, rfl, rfl, rfl⟩ state fresh rfl after
    | send s =>
      exact .start hands ⟨rfl, rfl, rfl, rfl, rfl, rfl⟩ ⟨state, enough, text⟩ fresh rfl after

variable {paid : Bool}

private theorem exec_beginData {chunk : List UInt8} (short : chunk.length ≤ cfg.syncDataMax)
    (h : Host cfg ρ) (m : Local cfg φ) (r : ρ) :
    (processIn fs i (if paid then .drainHeader else .sendHeader) SYNC_ID_DATA
        (UInt32.ofNat chunk.length)).exec h m r =
      (0, m.set fun c => { c with
        remaining := chunk.length
        state := if chunk = [] then (if paid then .drainHeader else .sendHeader)
          else (if paid then .drainData else .sendData) }, r) := by
  have size := toNat_ofNat_length (syncDataMax_lt cfg) short
  have zero : UInt32.ofNat chunk.length = 0 ↔ chunk = [] := by
    constructor
    · intro none
      rw [none] at size
      exact List.length_eq_zero_iff.mp size.symm
    · rintro rfl
      rfl
  have other : ¬SYNC_ID_DATA = SYNC_ID_DONE := by decide
  cases paid with
  | false =>
    simp [processIn, processRecord, other, good_record short, beginData, size, zero]
  | true =>
    simp [processIn, processDrain, other, good_record short, beginData, size, zero]

variable {received : List UInt8} {records : List (List UInt8)}

private theorem turn_record {s : Send}
    (state : l.ctx.state = if paid then .drainHeader else .sendHeader)
    (short : l.ctx.header.length < SYNC_HEADER_SIZE)
    (bytes : l.ctx.header ++ (data ++ future) = recordsWire records s.finale ++ wires later)
    (left : s.Left cfg received [] records) (more : data ≠ []) :
    Turn fs i l data future (.send s :: later) paid received := by
  have headed : l.ctx.state = .requestHeader ∨ l.ctx.state = .sendHeader ∨
      l.ctx.state = .drainHeader := by
    rw [state]
    cases paid
    · exact Or.inr (Or.inl rfl)
    · exact Or.inr (Or.inr rfl)
  have wait (hands : Hands fs i l data (pure 0) { l.ctx with header := l.ctx.header ++ data } [])
      (still : (l.ctx.header ++ data).length < SYNC_HEADER_SIZE) :
      Turn fs i l data future (.send s :: later) paid received := by
    refine .quiet hands ⟨rfl, rfl, rfl, rfl, rfl, rfl⟩ (.record state still ?_ left) rfl
      List.suffix_rfl rfl fun _ => rfl
    rw [← bytes]
    simp
  cases records with
  | nil =>
    obtain rfl : received = s.contents := (List.append_nil _).symm.trans left.contents
    cases finale : s.finale with
    | done timestamp =>
      rw [finale] at bytes
      rcases header_turn fs i headed short more bytes with
        ⟨hands, still⟩ | ⟨rest, hands, after, header⟩
      · exact wait hands still
      · rw [state] at hands
        cases paid with
        | false =>
          exact .finish hands ⟨rfl, rfl, rfl, rfl, rfl, rfl⟩ state rfl finale after
            ⟨state, timestamp, header⟩
        | true =>
          refine .quiet (hands.settle fun ρ h r => rfl) ⟨rfl, rfl, rfl, rfl, rfl, rfl⟩
            (.idle rfl header_pos after) rfl (List.suffix_cons _ _) ?_ ?_
          · rw [state]
            rfl
          · rw [state]
            exact fun sending => nomatch sending
    | broken id value =>
      rw [finale] at bytes
      rcases header_turn fs i headed short more bytes with
        ⟨hands, still⟩ | ⟨rest, hands, after, -⟩
      · exact wait hands still
      · rw [state] at hands
        cases paid with
        | false => exact .broken hands ⟨rfl, rfl, rfl, rfl, rfl, rfl⟩ state finale after
        | true => exact .lost hands ⟨rfl, rfl, rfl, rfl, rfl, rfl⟩ state finale after
  | cons chunk records =>
    rw [recordsWire, List.append_assoc, List.append_assoc] at bytes
    rcases header_turn fs i headed short more bytes with
      ⟨hands, still⟩ | ⟨rest, hands, after, -⟩
    · exact wait hands still
    · rw [state] at hands
      have fits := left.bounded chunk List.mem_cons_self
      have later' : s.Left cfg received chunk records := by
        refine ⟨left.contents, fun data member => left.bounded data (.tail chunk member), ?_⟩
        have inside := left.inside
        simp only [recordsWire, List.nil_append, List.length_append] at inside ⊢
        omega
      refine .quiet (hands.settle fun ρ h r => exec_beginData fs i fits h _ r)
        ⟨rfl, rfl, rfl, rfl, rfl, rfl⟩ ?_ rfl List.suffix_rfl ?_ fun _ => rfl
      · refine .stored paid ?_ rfl rfl after later'
        simp
      · rw [state]
        cases paid <;> simp only [Bool.false_eq_true, ↓reduceIte] <;> split <;> rfl

private theorem turn_data {s : Send} {part : List UInt8}
    (state : l.ctx.state = if paid then .drainData else .sendData) (fresh : l.ctx.header = [])
    (some : part ≠ []) (size : l.ctx.remaining = part.length)
    (bytes : data ++ future = part ++ (recordsWire records s.finale ++ wires later))
    (left : s.Left cfg received part records) (more : data ≠ []) :
    Turn fs i l data future (.send s :: later) paid received := by
  generalize counted : min data.length l.ctx.remaining = count
  have filled : 0 < data.length := List.length_pos_iff.mpr more
  have wanted : 0 < part.length := List.length_pos_iff.mpr some
  obtain ⟨chunk, rest⟩ := cut_common bytes (by omega : count ≤ data.length) (by omega)
  have consumed : (data.drop count).length < data.length := by
    rw [List.length_drop]
    omega
  have remaining : l.ctx.remaining - count = (part.drop count).length := by
    rw [List.length_drop, size]
  have after : s.Left cfg (received ++ data.take count) (part.drop count) records := by
    refine ⟨?_, left.bounded, ?_⟩
    · rw [chunk, List.append_assoc, ← List.append_assoc (part.take count), List.take_append_drop]
      exact left.contents
    · have inside := left.inside
      simp only [List.length_append, List.length_drop] at inside ⊢
      omega
  cases paid with
  | false =>
    refine .chunk ⟨consumed, fun ρ h r => ?_⟩ state fresh rest after
    simp only [syncPass, exec_read_bind, state, Bool.false_eq_true, ↓reduceIte]
    rw [exec_dataPass fs i h l r data count counted.symm, remaining]
  | true =>
    have state' : l.ctx.state = .drainData := state
    have hands : Hands fs i l data (pure 0) { l.ctx with
          remaining := l.ctx.remaining - count
          state := if l.ctx.remaining - count = 0 then .drainHeader else l.ctx.state }
        (data.drop count) := by
      refine ⟨consumed, fun ρ h r => ?_⟩
      have pass : (syncPass fs i data).exec h l r = (drainPass data).exec h l r := by
        simp only [syncPass, exec_read_bind, state']
      rw [pass, exec_drainPass h l r data count counted.symm state']
      rfl
    rw [state', remaining] at hands
    refine .quiet hands ⟨rfl, rfl, rfl, rfl, rfl, rfl⟩
      (.stored true rfl fresh rfl rest after) rfl List.suffix_rfl ?_ ?_
    · rw [state']
      split_ifs <;> rfl
    · rw [state']
      exact fun sending => nomatch sending

theorem turn {todo : List Request} (expects : Expects l.ctx (data ++ future) todo paid received)
    (more : data ≠ []) : Turn fs i l data future todo paid received := by
  cases expects with
  | idle state short bytes => exact turn_idle fs i state short bytes more
  | text state fresh left size bounded bytes =>
    exact turn_text fs i state fresh left size bounded bytes more
  | record state short bytes left => exact turn_record fs i state short bytes left more
  | data state fresh some size bytes left =>
    exact turn_data fs i state fresh some size bytes left more

end Turns

end Webos.Adb.Sync
