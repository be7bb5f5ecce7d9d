/- digest: Interleaved pushes on any number of streams install exactly the bytes sent. -/

import Webos.Adb.Sync.Uploads

namespace Webos.Adb.Sync

open Webos.Lib.Files Webos.Lib.Fragment Webos.Lib.Program

variable {cfg : Config} {φ ρ : Type}

section Runs

/-- A run of `sync_write` calls: the service, the router, the bytes each stream has brought and the
uploads completed so far, in that order. -/
structure Pushing (cfg : Config) (φ ρ : Type) where
  st : Statics cfg φ
  host : ρ
  seen : Slot cfg → Nat
  log : List (Upload cfg)

def Pushing.logAfter (uploads : Slot cfg → List (Upload cfg)) (w : Pushing cfg φ ρ)
    (stream : Slot cfg) (count : Nat) : List (Upload cfg) :=
  w.log ++ (complete (uploads stream) (w.seen stream + count)).drop
    (complete (uploads stream) (w.seen stream)).length

def Pushing.advance (uploads : Slot cfg → List (Upload cfg)) (w : Pushing cfg φ ρ)
    (stream i : Slot cfg) (l : Local cfg φ) (r : ρ) (count : Nat) : Pushing cfg φ ρ :=
  ⟨w.st.leave i l, r, Function.update w.seen stream (w.seen stream + count),
    w.logAfter uploads stream count⟩

theorem complete_mono (uploads : List (Upload cfg)) {count more : Nat} (le : count ≤ more) :
    complete uploads count <+: complete uploads more := by
  induction uploads generalizing count more with
  | nil => exact List.prefix_rfl
  | cons u later ih =>
    unfold complete
    split_ifs with here there
    · exact List.prefix_cons_inj u |>.mpr (ih (by omega))
    · omega
    all_goals exact List.nil_prefix

private theorem drop_trans {α : Type} {a b c : List α} (first : a <+: b) (second : b <+: c) :
    b.drop a.length ++ c.drop b.length = c.drop a.length := by
  obtain ⟨x, rfl⟩ := first
  obtain ⟨y, rfl⟩ := second
  simp

variable {uploads : Slot cfg → List (Upload cfg)} {w : Pushing cfg φ ρ} {stream i : Slot cfg}

theorem advance_advance (l m : Local cfg φ) (r r' : ρ) (a b : Nat) :
    (w.advance uploads stream i l r a).advance uploads stream i m r' b =
      w.advance uploads stream i m r' (a + b) := by
  have log : (w.advance uploads stream i l r a).logAfter uploads stream b =
      w.logAfter uploads stream (a + b) := by
    simp only [Pushing.logAfter, Pushing.advance, Function.update_self, List.append_assoc]
    rw [drop_trans (complete_mono _ (by omega)) (complete_mono _ (by omega)), Nat.add_assoc]
  unfold Pushing.advance at log ⊢
  rw [log]
  simp only [Statics.leave, Function.update_idem, Function.update_self, Nat.add_assoc]

theorem advance_zero : w.advance uploads stream i (w.st.enter i) w.host 0 = w := by
  simp [Pushing.advance, Pushing.logAfter, Statics.leave, Statics.enter]

/-- What holds between any two passes. Every context holds the files of its own upload only, and
the files that are not staging files are those of the completed uploads. -/
structure Steady (view : φ → Storage cfg) (uploads : Slot cfg → List (Upload cfg))
    (base : Path → Option (Node UInt8)) (ahead : Slot cfg → List UInt8) (w : Pushing cfg φ ρ)
    (todo : Slot cfg → List (Upload cfg)) (received : Slot cfg → List UInt8) : Prop where
  holding : ∀ j, Holding (view w.st.disk) j (w.st.contexts j) (received j)
  apart : ∀ j k, j ≠ k → (w.st.contexts j).state.sending = true →
    (w.st.contexts k).state.sending = true →
      (w.st.contexts j).temporary ≠ (w.st.contexts k).temporary
  position : ∀ stream j, findContext w.st stream = some j →
    Position (w.st.contexts j) (ahead stream) (todo j) (received j)
  read : ∀ stream j, findContext w.st stream = some j → ∃ front, uploads stream = front ++ todo j
  total : ∀ stream, w.seen stream + (ahead stream).length = (uploadsWire (uploads stream)).length
  logged : ∀ u ∈ w.log, ∃ stream, u ∈ uploads stream
  visible : ∀ p, ¬staging p → (view w.st.disk).node p = installed id base w.log p

variable {view : φ → Storage cfg} {base : Path → Option (Node UInt8)}
variable {ahead : Slot cfg → List UInt8} {todo : Slot cfg → List (Upload cfg)}
variable {received : Slot cfg → List UInt8}

private theorem found_unique {st : Statics cfg φ} {other : Slot cfg}
    (found : findContext st stream = some i) (found' : findContext st other = some i) :
    other = stream := by
  have first := findContext_stream found
  rw [findContext_stream found'] at first
  exact Option.some.inj first

variable {m : Local cfg φ}

private theorem Steady.holdings (steady : Steady view uploads base ahead w todo received)
    {stored : List UInt8} (holding : Holding (view m.disk) i m.ctx stored)
    (spares : Spares view i (w.st.enter i) m) (j : Slot cfg) :
    Holding (view m.disk) j ((w.st.leave i m).contexts j)
      (Function.update received i stored j) := by
  by_cases here : j = i
  · subst here
    have ctx : (w.st.leave j m).contexts j = m.ctx := Function.update_self _ _ _
    rw [ctx, Function.update_self]
    exact holding
  · rw [leave_other here, Function.update_of_ne here]
    refine ⟨fun sending => ?_, (steady.holding j).idle⟩
    exact (spares j _ _ here ((steady.holding j).staged sending) fun other =>
      steady.apart j i here sending other).1

private theorem Steady.aparts (steady : Steady view uploads base ahead w todo received)
    (spares : Spares view i (w.st.enter i) m) (j k : Slot cfg) (other : j ≠ k)
    (first : ((w.st.leave i m).contexts j).state.sending = true)
    (second : ((w.st.leave i m).contexts k).state.sending = true) :
    ((w.st.leave i m).contexts j).temporary ≠ ((w.st.leave i m).contexts k).temporary := by
  have ctx : (w.st.leave i m).contexts i = m.ctx := Function.update_self _ _ _
  have clear (j : Slot cfg) (away : j ≠ i) (sending : (w.st.contexts j).state.sending = true)
      (here : m.ctx.state.sending = true) : (w.st.contexts j).temporary ≠ m.ctx.temporary :=
    (spares j _ _ away ((steady.holding j).staged sending) fun before =>
      steady.apart j i away sending before).2 here
  by_cases jHere : j = i
  · subst jHere
    rw [ctx] at first ⊢
    rw [leave_other other.symm] at second ⊢
    exact (clear k other.symm second first).symm
  · rw [leave_other jHere] at first ⊢
    by_cases kHere : k = i
    · subst kHere
      rw [ctx] at second ⊢
      exact clear j jHere first second
    · rw [leave_other kHere] at second ⊢
      exact steady.apart j k other first second

variable {data future : List UInt8}

private theorem Steady.move (steady : Steady view uploads base ahead w todo received)
    (found : findContext w.st stream = some i) {rest stored : List UInt8}
    (here : ahead stream = data ++ future) (r : ρ) (shorter : rest.length < data.length)
    (same : m.ctx.stream = (w.st.contexts i).stream) {front next : List (Upload cfg)}
    (read : uploads stream = front ++ next) (position : Position m.ctx (rest ++ future) next stored)
    (holding : Holding (view m.disk) i m.ctx stored) (spares : Spares view i (w.st.enter i) m)
    (logged : ∀ u ∈ w.logAfter uploads stream (data.length - rest.length), ∃ stream,
      u ∈ uploads stream)
    (visible : ∀ p, ¬staging p → (view m.disk).node p =
      installed id base (w.logAfter uploads stream (data.length - rest.length)) p) :
    Steady view uploads base (Function.update ahead stream (rest ++ future))
      (w.advance uploads stream i m r (data.length - rest.length)) (Function.update todo i next)
      (Function.update received i stored) where
  holding := steady.holdings holding spares
  apart := steady.aparts spares
  position := by
    intro other j found'
    have before : findContext w.st other = some j := (findContext_leave same).symm.trans found'
    by_cases own : j = i
    · subst own
      obtain rfl := found_unique found before
      have ctx : (w.st.leave j m).contexts j = m.ctx := Function.update_self _ _ _
      rw [Function.update_self, Function.update_self, Function.update_self]
      exact ctx ▸ position
    · have away : other ≠ stream := by
        rintro rfl
        exact own (Option.some.inj (before.symm.trans found))
      have ctx : (w.st.leave i m).contexts j = w.st.contexts j := leave_other own m
      rw [Function.update_of_ne own, Function.update_of_ne own, Function.update_of_ne away]
      exact ctx ▸ steady.position other j before
  read := by
    intro other j found'
    have before : findContext w.st other = some j := (findContext_leave same).symm.trans found'
    by_cases own : j = i
    · subst own
      obtain rfl := found_unique found before
      rw [Function.update_self]
      exact ⟨front, read⟩
    · rw [Function.update_of_ne own]
      exact steady.read other j before
  total := by
    intro other
    have count := steady.total other
    by_cases own : other = stream
    · subst own
      simp only [Pushing.advance, Function.update_self]
      rw [here, List.length_append] at count
      rw [List.length_append]
      omega
    · simp only [Pushing.advance, Function.update_of_ne own]
      exact count
  logged := logged
  visible := visible

theorem Steady.step (steady : Steady view uploads base ahead w todo received)
    (found : findContext w.st stream = some i) {rest : List UInt8}
    (here : ahead stream = data ++ future) (r : ρ) (shorter : rest.length < data.length)
    (same : m.ctx.stream = (w.st.contexts i).stream)
    (pushed : Pushed view i (w.st.enter i) future (todo i) rest m)
    (spares : Spares view i (w.st.enter i) m) :
    ∃ todo' received', Steady view uploads base (Function.update ahead stream (rest ++ future))
      (w.advance uploads stream i m r (data.length - rest.length)) todo' received' := by
  obtain ⟨front, read⟩ := steady.read stream i found
  have count := steady.total stream
  have now : complete (uploads stream) (w.seen stream) = front := by
    rw [read] at count ⊢
    exact (steady.position stream i found).complete count
  rw [here, List.length_append] at count
  have count' : w.seen stream + (data.length - rest.length) + (rest ++ future).length =
      (uploadsWire (uploads stream)).length := by
    rw [List.length_append]
    omega
  cases pushed with
  | on position holding visible =>
    have log : w.logAfter uploads stream (data.length - rest.length) = w.log := by
      rw [read] at count'
      unfold Pushing.logAfter
      rw [now, read, position.complete count', List.drop_length, List.append_nil]
    refine ⟨_, _, steady.move found here r shorter same read position holding spares
      (log ▸ steady.logged) fun p shown => ?_⟩
    rw [log, visible p shown]
    exact steady.visible p shown
  | @done u later next position holding visible =>
    have read' : uploads stream = (front ++ [u]) ++ later := by
      rw [read, next, List.append_assoc]
      rfl
    have log : w.logAfter uploads stream (data.length - rest.length) = w.log ++ [u] := by
      rw [read'] at count'
      unfold Pushing.logAfter
      rw [now, read', position.complete count', List.drop_left]
    have logged : ∀ v ∈ w.log ++ [u], ∃ stream, v ∈ uploads stream := by
      intro v member
      rcases List.mem_append.mp member with before | now
      · exact steady.logged v before
      · rw [List.mem_singleton.mp now]
        exact ⟨stream, by rw [read']; simp⟩
    refine ⟨_, _, steady.move found here r shorter same read' position holding spares
      (log ▸ logged) fun p shown => ?_⟩
    rw [log, visible p shown, installed_snoc]
    by_cases target : p = u.path
    · rw [target, id_eq, Function.update_self, Function.update_self]
    · rw [id_eq, Function.update_of_ne target, Function.update_of_ne target]
      exact steady.visible p shown

variable (fs : FileSystem Path (Slot cfg) UInt8 φ) (h : Host cfg ρ)

def Pushing.write (uploads : Slot cfg → List (Upload cfg)) (w : Pushing cfg φ ρ) (stream : Slot cfg)
    (chunk : List UInt8) : Int × Pushing cfg φ ρ :=
  let out := (syncWrite fs w.st stream chunk).run h w.host
  (out.1.1, ⟨out.1.2, out.2, Function.update w.seen stream (w.seen stream + chunk.length),
    w.logAfter uploads stream chunk.length⟩)

/-- A moment between two passes of a call: what the call still holds, what the callback works on
and the uploads whose last byte has been read. -/
structure PushMoment (cfg : Config) (φ : Type) where
  left : List UInt8
  now : Local cfg φ
  log : List (Upload cfg)

def Pushing.writeMoments (uploads : Slot cfg → List (Upload cfg)) (w : Pushing cfg φ ρ)
    (stream : Slot cfg) (chunk : List UInt8) : List (PushMoment cfg φ) :=
  match findContext w.st stream with
  | none => []
  | some i =>
    (moments (servePass fs i h) (chunk.length + 1) chunk (w.st.enter i, w.host)).map fun m =>
      ⟨m.1, m.2.1, w.logAfter uploads stream (chunk.length - m.1.length)⟩

def pushAll (uploads : Slot cfg → List (Upload cfg)) :
    List (Slot cfg × List UInt8) → Pushing cfg φ ρ → List Int × Pushing cfg φ ρ
  | [], w => ([], w)
  | call :: calls, w =>
    let out := w.write fs h uploads call.1 call.2
    let later := pushAll uploads calls out.2
    (out.1 :: later.1, later.2)

def pushMoments (uploads : Slot cfg → List (Upload cfg)) :
    List (Slot cfg × List UInt8) → Pushing cfg φ ρ → List (PushMoment cfg φ)
  | [], _ => []
  | call :: calls, w =>
    w.writeMoments fs h uploads call.1 call.2 ++
      pushMoments uploads calls (w.write fs h uploads call.1 call.2).2

def sentOn (calls : List (Slot cfg × List UInt8)) (stream : Slot cfg) : List UInt8 :=
  ((calls.filter fun call => call.1 = stream).map Prod.snd).flatten

def destination (c : SyncContext cfg) (data : List UInt8) : Option Path :=
  if c.state = .requestSpec ∧ c.remaining ≤ data.length then
    (splitSpec (c.spec ++ data.take c.remaining)).map Prod.fst
  else none

/-- No file operation has failed, and an upload about to start finds a free pair of names. -/
def Smooth {κ : Type} (key : Path → κ) (view : φ → Disk κ (Slot cfg) UInt8) (failures : Nat)
    (left : List UInt8) (l : Local cfg φ) : Prop :=
  (view l.disk).failures = failures ∧ ∀ path ∈ destination l.ctx left,
    ¬namesTaken (fun p => (view l.disk).node (key p)) path 32 l.sideNonce

theorem destination_opens {c : SyncContext cfg} {u : Upload cfg}
    (opening : opensUpload c data u.send.spec) : u.path ∈ destination c data := by
  unfold destination
  rw [if_pos ⟨opening.1, opening.2.1⟩, opening.2.2, u.splits]
  rfl

instance decidableNamesTaken (node : Path → Option (Node UInt8)) (path : Path) :
    ∀ attempts nonce, Decidable (namesTaken node path attempts nonce)
  | 0, _ => isTrue trivial
  | attempts + 1, nonce =>
    have := decidableNamesTaken node path attempts (nonce + 1)
    inferInstanceAs (Decidable (_ ∧ _))

instance {κ : Type} (key : Path → κ) (view : φ → Disk κ (Slot cfg) UInt8) (failures : Nat)
    (left : List UInt8) (l : Local cfg φ) : Decidable (Smooth key view failures left l) :=
  inferInstanceAs (Decidable (_ ∧ _))

variable {fs h} {chunk : List UInt8}

private theorem write_advance (found : findContext w.st stream = some i) :
    w.write fs h uploads stream chunk =
      let out := (syncLoop fs i (chunk.length + 1) chunk).exec h (w.st.enter i) w.host
      (out.1, w.advance uploads stream i out.2.1 out.2.2 chunk.length) := by
  unfold Pushing.write
  rw [run_syncWrite fs h found]
  rfl

def Tells (view : φ → Storage cfg) (uploads : Slot cfg → List (Upload cfg))
    (base : Path → Option (Node UInt8)) (disk : φ) (log : List (Upload cfg)) : Prop :=
  (∀ u ∈ log, ∃ stream, u ∈ uploads stream) ∧
    ∀ p, ¬staging p → (view disk).node p = installed id base log p

def Amid (view : φ → Storage cfg) (uploads : Slot cfg → List (Upload cfg))
    (base : Path → Option (Node UInt8)) (ahead : Slot cfg → List UInt8) (w : Pushing cfg φ ρ)
    (stream i : Slot cfg) (failures : Nat) (chunk future data : List UInt8)
    (v : Local cfg φ × ρ) : Prop :=
  data.length ≤ chunk.length ∧ v.1.ctx.stream = (w.st.contexts i).stream ∧
    ((view v.1.disk).failures = failures → ∃ todo received, Steady view uploads base
      (Function.update ahead stream (data ++ future))
      (w.advance uploads stream i v.1 v.2 (chunk.length - data.length)) todo received)

variable {N : Set Path} (atomic : AtomicOn N fs view)
variable (known : ∀ stream, ∀ u ∈ uploads stream, namesOf u.path ⊆ N)
variable (queued : ∀ stream generation data r, (h (.write stream generation data) r).1 = 0)
variable (regular : ∀ stream, ∀ u ∈ uploads stream, base u.path ≠ some .dir)

include atomic known queued regular

private theorem pass_steady (steady : Steady view uploads base ahead w todo received)
    (found : findContext w.st stream = some i) (here : ahead stream = data ++ future)
    (more : data ≠ []) (names : ∀ path ∈ destination (w.st.contexts i) data,
      ¬namesTaken (view w.st.disk).node path 32 w.st.sideNonce)
    {out : (Option Int × List UInt8) × Local cfg φ × ρ} {r : ρ}
    (run : (syncPass fs i data).exec h (w.st.enter i) r = out) :
    out.1.1 = none ∧ out.1.2.length < data.length ∧ out.2.1.ctx.stream = (w.st.contexts i).stream ∧
      ((view out.2.1.disk).failures = (view w.st.disk).failures →
        ∃ todo received, Steady view uploads base (Function.update ahead stream (out.1.2 ++ future))
          (w.advance uploads stream i out.2.1 out.2.2 (data.length - out.1.2.length)) todo
            received) := by
  have position := steady.position stream i found
  rw [here] at position
  obtain ⟨front, read⟩ := steady.read stream i found
  have ours {u : Upload cfg} (member : u ∈ todo i) : u ∈ uploads stream := by
    rw [read]
    exact List.mem_append_right _ member
  have target : ∀ u ∈ todo i, (view (w.st.enter i).disk).node u.path ≠ some .dir := by
    intro u member
    have shown := steady.visible u.path (allowed_visible u.allowed)
    rw [show (view (w.st.enter i).disk).node u.path = _ from shown]
    exact installed_regular (regular stream u (ours member)) w.log
  have advanced := push_pass (l := w.st.enter i) atomic
    (fun u member => known stream u (ours member)) queued position (steady.holding i) target
    (fun u _ opening => names u.path (destination_opens opening)) more r
  rw [run] at advanced
  refine ⟨advanced.goes, advanced.shorter, advanced.stream, fun same => ?_⟩
  obtain ⟨pushed, spares⟩ := advanced.pushed same
  exact steady.step found here out.2.2 advanced.shorter advanced.stream pushed spares

variable {failures : Nat}

private theorem pass_amid (found : findContext w.st stream = some i) {v : Local cfg φ × ρ}
    (more : data ≠ []) (amid : Amid view uploads base ahead w stream i failures chunk future data v)
    (smooth : Smooth id view failures data v.1) :
    Advances (servePass fs i h) (Amid view uploads base ahead w stream i failures chunk future)
      (fun _ _ => False) data v := by
  obtain ⟨l, r⟩ := v
  obtain ⟨within, same, steady⟩ := amid
  obtain ⟨todo, received, steady⟩ := steady smooth.1
  have enter : (w.advance uploads stream i l r (chunk.length - data.length)).st.enter i = l :=
    leave_enter l
  have found' : findContext (w.advance uploads stream i l r
    (chunk.length - data.length)).st stream =
      some i := (findContext_leave same).trans found
  unfold Advances servePass
  generalize run : (syncPass fs i data).exec h l r = out
  have run' : (syncPass fs i data).exec h
      ((w.advance uploads stream i l r (chunk.length - data.length)).st.enter i) r = out := by
    rw [enter]
    exact run
  have names := smooth.2
  rw [← enter] at names
  have next := pass_steady atomic known queued regular steady found'
    (Function.update_self _ _ _) more
    names run'
  obtain ⟨⟨exit, rest⟩, m, r'⟩ := out
  obtain ⟨rfl, shorter, stream', advanced⟩ := next
  dsimp only at shorter stream' advanced ⊢
  have ctx : (w.advance uploads stream i l r (chunk.length - data.length)).st.contexts i = l.ctx :=
    congrArg Local.ctx enter
  rw [ctx] at stream'
  refine ⟨shorter, by omega, stream'.trans same, fun failed => ?_⟩
  obtain ⟨todo', received', steady'⟩ := advanced (failed.trans smooth.1.symm)
  rw [advance_advance, Function.update_idem] at steady'
  have count : chunk.length - data.length + (data.length - rest.length) =
      chunk.length - rest.length := by omega
  rw [count] at steady'
  exact ⟨todo', received', steady'⟩

private theorem call_steady (steady : Steady view uploads base ahead w todo received)
    (found : findContext w.st stream = some i) (here : ahead stream = chunk ++ future)
    (smooth : ∀ m ∈ w.writeMoments fs h uploads stream chunk,
    Smooth id view failures m.left m.now) :
    (∀ m ∈ w.writeMoments fs h uploads stream chunk, Tells view uploads base m.now.disk m.log) ∧
    (w.write fs h uploads stream chunk).1 = 0 ∧
    (∀ other, findContext (w.write fs h uploads stream chunk).2.st other = findContext w.st other) ∧
    ∃ todo received, Steady view uploads base (Function.update ahead stream future)
      (w.write fs h uploads stream chunk).2 todo received := by
  have list : w.writeMoments fs h uploads stream chunk =
      (moments (servePass fs i h) (chunk.length + 1) chunk (w.st.enter i, w.host)).map fun m =>
        ⟨m.1, m.2.1, w.logAfter uploads stream (chunk.length - m.1.length)⟩ := by
    unfold Pushing.writeMoments
    rw [found]
  rw [list] at smooth ⊢
  have start : Amid view uploads base ahead w stream i failures chunk future chunk
      (w.st.enter i, w.host) := by
    refine ⟨Nat.le_refl _, rfl, fun _ => ⟨todo, received, ?_⟩⟩
    rw [Nat.sub_self, advance_zero, ← here, Function.update_eq_self]
    exact steady
  have allowed : ∀ m ∈ moments (servePass fs i h) (chunk.length + 1) chunk (w.st.enter i, w.host),
      Smooth id view failures m.1 m.2.1 := fun m member =>
    smooth ⟨m.1, m.2.1, w.logAfter uploads stream (chunk.length - m.1.length)⟩
      (List.mem_map.mpr ⟨m, member, rfl⟩)
  obtain ⟨every, final⟩ := loop_rule
    (fun data v more amid smooth => pass_amid atomic known queued regular found more amid smooth)
    (Nat.le_succ _) start allowed
  refine ⟨fun m member => ?_, ?_⟩
  · obtain ⟨m, inside, rfl⟩ := List.mem_map.mp member
    obtain ⟨-, -, steady⟩ := every m inside
    obtain ⟨todo, received, steady⟩ := steady (allowed m inside).1
    exact ⟨steady.logged, steady.visible⟩
  · rw [write_advance found, exec_syncLoop]
    generalize loop (servePass fs i h) (chunk.length + 1) chunk (w.st.enter i, w.host) =
      out at final ⊢
    obtain ⟨_ | ret, l, r⟩ := out
    · obtain ⟨⟨-, same, steady⟩, smooth⟩ := final
      exact ⟨rfl, fun other => findContext_leave same, steady smooth.1⟩
    · exact absurd final not_false

omit atomic known queued regular in
private theorem sentOn_self (stream : Slot cfg) (chunk : List UInt8)
    (calls : List (Slot cfg × List UInt8)) :
    sentOn ((stream, chunk) :: calls) stream = chunk ++ sentOn calls stream := by
  simp [sentOn]

omit atomic known queued regular in
private theorem sentOn_other {other stream : Slot cfg} (away : other ≠ stream) (chunk : List UInt8)
    (calls : List (Slot cfg × List UInt8)) :
    sentOn ((stream, chunk) :: calls) other = sentOn calls other := by
  simp [sentOn, away.symm]

private theorem run_steady {calls : List (Slot cfg × List UInt8)} {unsent : Slot cfg → List UInt8}
    (steady : Steady view uploads base (fun stream => sentOn calls stream ++ unsent stream) w todo
      received) (opened : ∀ call ∈ calls, ∃ i, findContext w.st call.1 = some i)
    (smooth : ∀ m ∈ pushMoments fs h uploads calls w, Smooth id view failures m.left m.now) :
    (∀ ret ∈ (pushAll fs h uploads calls w).1, ret = 0) ∧
    (∀ m ∈ pushMoments fs h uploads calls w, Tells view uploads base m.now.disk m.log) ∧
    Tells view uploads base (pushAll fs h uploads calls w).2.st.disk
      (pushAll fs h uploads calls w).2.log := by
  induction calls generalizing w todo received with
  | nil =>
    exact ⟨fun _ member => (nomatch member), fun _ member => (nomatch member), steady.logged,
      steady.visible⟩
  | cons call calls ih =>
    obtain ⟨stream, chunk⟩ := call
    obtain ⟨i, found⟩ := opened _ List.mem_cons_self
    have here : sentOn ((stream, chunk) :: calls) stream ++ unsent stream =
        chunk ++ (sentOn calls stream ++ unsent stream) := by
      rw [sentOn_self, List.append_assoc]
    obtain ⟨shown, zero, contexts, todo', received', steady'⟩ :=
      call_steady atomic known queued regular
      steady found here fun m member => smooth m (List.mem_append_left _ member)
    have ahead : Function.update
        (fun other => sentOn ((stream, chunk) :: calls) other ++ unsent other) stream
        (sentOn calls stream ++ unsent stream) = fun other =>
          sentOn calls other ++ unsent other := by
      funext other
      by_cases own : other = stream
      · rw [own, Function.update_self]
      · rw [Function.update_of_ne own, sentOn_other own]
    rw [ahead] at steady'
    obtain ⟨returns, later, final⟩ := ih steady' (fun call member => by
        obtain ⟨j, bound⟩ := opened call (List.mem_cons_of_mem _ member)
        exact ⟨j, (contexts call.1).trans bound⟩)
      (fun m member => smooth m (List.mem_append_right _ member))
    refine ⟨fun ret member => ?_, fun m member => ?_, final⟩
    · rcases List.mem_cons.mp member with rfl | member
      · exact zero
      · exact returns ret member
    · rcases List.mem_append.mp member with now | after
      · exact shown m now
      · exact later m after

end Runs

section Volume

variable (uploads : Slot cfg → List (Upload cfg))

/-- The names that the uploads may use: their destinations and the staging names of these. -/
def namesInUse : Set Path := { p | ∃ stream, ∃ u ∈ uploads stream, p ∈ namesOf u.path }

def stagingInUse : Set Path :=
  { p | ∃ stream, ∃ u ∈ uploads stream, p ∈ namesOf u.path ∧ p ≠ u.path }

variable {κ : Type} {key : Path → κ} {uploads}

/-- A file that is no staging file in use is one of the destinations or apart from all names. -/
theorem namesInUse_insert (apart : Set.InjOn key (namesInUse uploads)) {p : Path}
    (shown : key p ∉ key '' stagingInUse uploads) : (∃ stream, ∃ u ∈ uploads stream,
      key p = key u.path) ∨ Set.InjOn key (insert p (namesInUse uploads)) := by
  by_cases met : key p ∈ key '' namesInUse uploads
  · obtain ⟨q, ⟨stream, u, member, inside⟩, same⟩ := met
    by_cases own : q = u.path
    · exact Or.inl ⟨stream, u, member, own ▸ same.symm⟩
    · exact absurd ⟨q, ⟨stream, u, member, inside, own⟩, same⟩ shown
  · have fresh : p ∉ namesInUse uploads := fun inside => met ⟨p, inside, rfl⟩
    exact Or.inr ((Set.injOn_insert fresh).mpr ⟨apart, met⟩)

end Volume

section Pull

variable {κ : Type} [DecidableEq κ] {key : Path → κ} {view : φ → Disk κ (Slot cfg) UInt8}
variable {N : Set Path} {uploads : Slot cfg → List (Upload cfg)}

omit [DecidableEq κ] in
private theorem pull_smooth {failures : Nat} {left : List UInt8} {l : Local cfg φ}
    (smooth : Smooth key view failures left l) :
    Smooth id (fun x => (view x).pull key N) failures left l := by
  refine ⟨smooth.1, fun path here taken =>
    smooth.2 path here (namesTaken_mono (fun p found => ?_) taken)⟩
  obtain ⟨n, found⟩ := Option.ne_none_iff_exists'.mp found
  have there : (view l.disk).node (key p) = some n := (pull_node_some found).2
  rw [there]
  exact Option.some_ne_none n

variable {start disk : φ} {log : List (Upload cfg)}

private theorem tells_at (apart : Set.InjOn key N) (more : namesInUse uploads ⊆ N)
    (tells : Tells (fun x => (view x).pull key N) uploads ((view start).pull key N).node disk log)
    {p : Path} (inside : p ∈ N) (visible : ¬staging p) :
    (view disk).node (key p) = installed key (view start).node log (key p) := by
  have known : ∀ u ∈ log, u.path ∈ N := by
    intro u member
    obtain ⟨stream, member⟩ := tells.1 u member
    exact more ⟨stream, u, member, path_mem _⟩
  rw [← pull_node inside, ← installed_pull apart (fun q known => pull_node known) known inside]
  exact tells.2 p visible

private theorem tells_volume (apart : Set.InjOn key (namesInUse uploads))
    (tells : ∀ {N}, Set.InjOn key N → namesInUse uploads ⊆ N →
      Tells (fun x => (view x).pull key N) uploads ((view start).pull key N).node disk log)
    {p : Path} (visible : ¬staging p) (shown : key p ∉ key '' stagingInUse uploads) :
    (view disk).node (key p) = installed key (view start).node log (key p) := by
  rcases namesInUse_insert apart shown with ⟨stream, u, member, same⟩ | wide
  · rw [same]
    exact tells_at apart subset_rfl (tells apart subset_rfl) ⟨stream, u, member, path_mem _⟩
      (allowed_visible u.allowed)
  · exact tells_at wide (Set.subset_insert _ _) (tells wide (Set.subset_insert _ _))
      (Set.mem_insert _ _) visible

end Pull

private theorem idle_steady {st : Statics cfg φ} (view : φ → Storage cfg) (r : ρ)
    (idle : ∀ i, (st.contexts i).state = .requestHeader ∧ (st.contexts i).headerUsed = 0 ∧
      (st.contexts i).fileOpen = false ∧ (st.contexts i).temporaryLive = false)
    {uploads : Slot cfg → List (Upload cfg)} {calls : List (Slot cfg × List UInt8)}
    {unsent : Slot cfg → List UInt8}
    (bytes : ∀ stream, sentOn calls stream ++ unsent stream = uploadsWire (uploads stream)) :
    Steady view uploads (view st.disk).node (fun stream => sentOn calls stream ++ unsent stream)
      (⟨st, r, fun _ => 0, []⟩ : Pushing cfg φ ρ)
      (fun i => ((st.contexts i).stream.map uploads).getD []) (fun _ => []) := by
  have rest (i : Slot cfg) : (st.contexts i).state.sending = false := by
    rw [(idle i).1]
    rfl
  have own {stream i : Slot cfg} (found : findContext st stream = some i) :
      ((st.contexts i).stream.map uploads).getD [] = uploads stream := by
    rw [findContext_stream found]
    rfl
  refine ⟨fun j => ⟨fun sending => ?_, fun _ => (idle j).2.2⟩, fun j k _ sending => ?_,
    fun stream j found => ⟨.idle (idle j).1 ?_ ?_, fun sending => ?_⟩,
    fun stream j found => ⟨[], (own found).symm⟩, fun stream => ?_,
    fun u member => (nomatch member), fun p _ => rfl⟩
  · rw [rest] at sending
    cases sending
  · rw [rest] at sending
    cases sending
  · rw [show (st.contexts j).header.length = 0 from (idle j).2.1]
    exact header_pos
  · rw [List.length_eq_zero_iff.mp (idle j).2.1, own found]
    exact bytes stream
  · rw [rest] at sending
    cases sending
  · rw [← bytes]
    exact Nat.zero_add _

/-- Pushes install exactly the bytes sent, however the uploads of any number of streams are cut and
interleaved: at every moment each file that is not a staging file is what the uploads completed so
far have made of it. The volume may take several names for one file (`key`), but not two of the
names in use. -/
theorem pushes_install_contents {κ : Type} [DecidableEq κ] {key : Path → κ}
    {fs : FileSystem κ (Slot cfg) UInt8 φ} {view : φ → Disk κ (Slot cfg) UInt8}
    (atomic : Atomic fs view) {h : Host cfg ρ}
    (queued : ∀ stream generation data r, (h (.write stream generation data) r).1 = 0)
    {st : Statics cfg φ} (r : ρ)
    (idle : ∀ i, (st.contexts i).state = .requestHeader ∧ (st.contexts i).headerUsed = 0 ∧
      (st.contexts i).fileOpen = false ∧ (st.contexts i).temporaryLive = false)
    {uploads : Slot cfg → List (Upload cfg)} (apart : Set.InjOn key (namesInUse uploads))
    {calls : List (Slot cfg × List UInt8)} {unsent : Slot cfg → List UInt8}
    (opened : ∀ call ∈ calls, ∃ i, findContext st call.1 = some i)
    (bytes : ∀ stream, sentOn calls stream ++ unsent stream = uploadsWire (uploads stream))
    (regular : ∀ stream, ∀ u ∈ uploads stream, (view st.disk).node (key u.path) ≠ some .dir)
    (smooth : ∀ m ∈ pushMoments (fs.comap key) h uploads calls ⟨st, r, fun _ => 0, []⟩,
      Smooth key view (view st.disk).failures m.left m.now) :
    let out := pushAll (fs.comap key) h uploads calls ⟨st, r, fun _ => 0, []⟩
    (∀ ret ∈ out.1, ret = 0) ∧
    (∀ m ∈ pushMoments (fs.comap key) h uploads calls ⟨st, r, fun _ => 0, []⟩,
      (∀ p, ¬staging p → key p ∉ key '' stagingInUse uploads → (view m.now.disk).node (key p) =
        installed key (view st.disk).node m.log (key p)) ∧
      ∀ log u, m.log = log ++ [u] →
        (view m.now.disk).node (key u.path) = some (.file u.contents)) ∧
    ∀ p, ¬staging p → key p ∉ key '' stagingInUse uploads → (view out.2.st.disk).node (key p) =
      installed key (view st.disk).node out.2.log (key p) := by
  -- the run as the names of any set tell it that holds those in use and is apart
  have seen {N : Set Path} (apart : Set.InjOn key N) (more : namesInUse uploads ⊆ N) :=
    run_steady (AtomicOn.pull atomic apart)
      (fun stream u member p inside => more ⟨stream, u, member, inside⟩) queued
      (fun stream u member => by
        rw [pull_node (more ⟨stream, u, member, path_mem _⟩)]
        exact regular stream u member)
      (idle_steady (fun x => (view x).pull key N) r idle bytes) opened
      (fun m member => pull_smooth (smooth m member))
  refine ⟨(seen apart subset_rfl).1, fun m member => ⟨fun p visible shown => ?_,
    fun log u last => ?_⟩, fun p visible shown => ?_⟩
  · exact tells_volume apart (fun apart more => (seen apart more).2.1 m member) visible shown
  · have tells := (seen apart subset_rfl).2.1 m member
    obtain ⟨stream, ours⟩ := tells.1 u (by rw [last]; simp)
    rw [tells_at apart subset_rfl tells ⟨stream, u, ours, path_mem _⟩ (allowed_visible u.allowed),
      last, installed_snoc, Function.update_self]
  · exact tells_volume apart (fun apart more => (seen apart more).2.2) visible shown

section Samples

def pairStatics (disk : SampleDisk) : Statics Config.project SampleDisk :=
  ⟨fun j => { SyncContext.zero Config.project with stream := some j }, 0, disk⟩

def sampleUpload (records : List (List UInt8))
    (short : ∀ data ∈ records, data.length ≤ Config.project.syncDataMax) :
    Upload Config.project where
  path := samplePath
  mode := ascii "33188"
  records := records
  timestamp := 0
  allowed := by decide +kernel
  filled := by decide
  plain := by decide
  parsed := by decide +kernel
  regular := by decide +kernel
  text := by decide
  bounded := by decide
  short := short

def firstUpload : Upload Config.project := sampleUpload [[1, 2], [3]] (by decide)
def secondUpload : Upload Config.project := sampleUpload [[4]] (by decide)

def rivalUploads (stream : Slot Config.project) : List (Upload Config.project) :=
  if stream = firstSlot then [firstUpload] else [secondUpload]

def rivalCalls : List (Slot Config.project × List UInt8) :=
  let first := uploadsWire [firstUpload]
  let second := uploadsWire [secondUpload]
  [(firstSlot, first.take 30), (secondSlot, second.take 27), (firstSlot, first.drop 30),
    (secondSlot, second.drop 27)]

def pairStart (disk : SampleDisk) : Pushing Config.project SampleDisk Unit :=
  ⟨pairStatics disk, (), fun _ => 0, []⟩

def olderVolume : SampleDisk :=
  (blank.put (foldCase (ascii "/STORAGE:/")) (some .dir)).put (foldCase samplePath)
    (some (.file [9]))

theorem pushes_install_contents_rivals :
    let fs := memory.comap foldCase
    let out := pushAll fs (obliging _) rivalUploads rivalCalls (pairStart olderVolume)
    (∀ ret ∈ out.1, ret = 0) ∧
    (∀ m ∈ pushMoments fs (obliging _) rivalUploads rivalCalls (pairStart olderVolume),
      (∀ p, ¬staging p → foldCase p ∉ foldCase '' stagingInUse rivalUploads →
        m.now.disk.node (foldCase p) = installed foldCase olderVolume.node m.log (foldCase p)) ∧
      ∀ log u, m.log = log ++ [u] → m.now.disk.node (foldCase u.path) = some (.file u.contents)) ∧
    ∀ p, ¬staging p → foldCase p ∉ foldCase '' stagingInUse rivalUploads →
      out.2.st.disk.node (foldCase p) =
        installed foldCase olderVolume.node out.2.log (foldCase p) := by
  have idle : ∀ i, ((pairStatics olderVolume).contexts i).state = .requestHeader ∧
      ((pairStatics olderVolume).contexts i).headerUsed = 0 ∧
      ((pairStatics olderVolume).contexts i).fileOpen = false ∧
      ((pairStatics olderVolume).contexts i).temporaryLive = false := fun _ => ⟨rfl, rfl, rfl, rfl⟩
  have apart : Set.InjOn foldCase (namesInUse rivalUploads) := by
    refine (foldCase_injOn samplePath).mono ?_
    rintro p ⟨stream, u, member, inside⟩
    have path : ∀ stream, ∀ u ∈ rivalUploads stream, u.path = samplePath := by decide +kernel
    exact path stream u member ▸ inside
  have opened : ∀ call ∈ rivalCalls, ∃ i, findContext (pairStatics olderVolume) call.1 =
    some i := by
    decide +kernel
  have bytes : ∀ stream, sentOn rivalCalls stream ++ [] = uploadsWire (rivalUploads stream) := by
    decide +kernel
  have regular : ∀ stream, ∀ u ∈ rivalUploads stream,
      (id (pairStatics olderVolume).disk).node (foldCase u.path) ≠ some .dir := by decide +kernel
  have smooth : ∀ m ∈ pushMoments (memory.comap foldCase) (obliging _) rivalUploads rivalCalls
      (pairStart olderVolume), Smooth foldCase id 0 m.left m.now := by decide +kernel
  have queued : ∀ stream generation data r,
      ((obliging Config.project) (.write stream generation data) r).1 = 0 := fun _ _ _ _ => rfl
  have result := pushes_install_contents memory_atomic queued () idle apart opened bytes regular
    smooth
  simp only [id_eq] at result
  dsimp only [pairStart, SampleDisk]
  exact result

def crowded : SampleDisk :=
  { blank with node := fun p =>
      if p ∈ (List.range 32).map fun k => partName samplePath (UInt32.ofNat (k + 1))
        then some (.file []) else none }

/-- With 32 staging names taken a push is drained to its end and installs nothing, although every
file operation succeeds and every status is taken. -/
theorem crowded_names_drain_push :
    let uploads := fun stream => if stream = firstSlot then [firstUpload] else []
    let start := pairStart crowded
    let calls := [(firstSlot, uploadsWire [firstUpload])]
    let out := pushAll memory (obliging _) uploads calls start
    (∀ stream generation data r,
        ((obliging Config.project) (.write stream generation data) r).1 = 0) ∧
      (∀ stream, sentOn calls stream = uploadsWire (uploads stream)) ∧
      crowded.node firstUpload.path = none ∧
      (∀ m ∈ pushMoments memory (obliging _) uploads calls start, m.now.disk.failures = 0) ∧
      out.1 = [0] ∧ out.2.log.map Upload.path = [firstUpload.path] ∧
      out.2.st.disk.node firstUpload.path = none := by
  refine ⟨fun _ _ _ _ => rfl, ?_⟩
  decide +kernel

end Samples

end Webos.Adb.Sync
