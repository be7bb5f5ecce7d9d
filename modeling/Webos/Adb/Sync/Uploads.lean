/- digest: Uploads as pushed, how many bytes complete them and what one pass does to them. -/

import Webos.Adb.Sync.Transaction

namespace Webos.Adb.Sync

open Webos.Lib.Files Webos.Lib.Fragment Webos.Lib.Program

variable {cfg : Config} {φ ρ : Type}

/-- An upload in the format, to a path and with a mode that the service accepts. -/
structure Upload (cfg : Config) where
  path : Path
  mode : List UInt8
  records : List (List UInt8)
  timestamp : UInt32
  allowed : syncPathAllowed cfg path = true
  filled : mode ≠ []
  plain : ','.toUInt8 ∉ mode
  parsed : modeParsed mode = true
  regular : modeRegular mode = true
  text : 0 ∉ path ++ ','.toUInt8 :: mode
  bounded : (path ++ ','.toUInt8 :: mode).length < specCapacity cfg
  short : ∀ data ∈ records, data.length ≤ cfg.syncDataMax

namespace Upload

variable (u : Upload cfg)

def send : Send := ⟨u.path ++ ','.toUInt8 :: u.mode, u.records, .done u.timestamp⟩

def request : Request := .send u.send

def contents : List UInt8 := u.records.flatten

theorem splits : splitSpec u.send.spec = some (u.path, u.mode) := splitSpec_comma _ _ u.plain

theorem wellFormed : u.request.WellFormed cfg := by
  have small := specCapacity_lt cfg
  have bounded := u.bounded
  refine ⟨⟨?_, u.short, trivial⟩, ⟨?_, bounded⟩, u.timestamp, rfl⟩
  · exact Nat.lt_trans bounded small
  · exact List.append_ne_nil_of_right_ne_nil _ (List.cons_ne_nil _ _)

theorem good : goodSpec cfg u.send.spec := by
  have root : u.path ≠ [] := by
    intro empty
    have allowed := u.allowed
    rw [empty] at allowed
    exact absurd allowed (by simp [syncPathAllowed])
  exact ⟨u.text, u.path, u.mode, u.splits, root, u.filled, u.parsed, u.regular, u.allowed⟩

end Upload

section Installed

variable {κ : Type} [DecidableEq κ] (key : Path → κ) (d : κ → Option (Node UInt8))

/-- What the uploads make of a volume on which `p` names the file `key p`. -/
def installed (log : List (Upload cfg)) : κ → Option (Node UInt8) :=
  log.foldl (fun d u => Function.update d (key u.path) (some (.file u.contents))) d

theorem installed_snoc (log : List (Upload cfg)) (u : Upload cfg) :
    installed key d (log ++ [u]) =
      Function.update (installed key d log) (key u.path) (some (.file u.contents)) := by
  simp [installed]

variable {key d}

theorem installed_regular {k : κ} (regular : d k ≠ some .dir) (log : List (Upload cfg)) :
    installed key d log k ≠ some .dir := by
  induction log using List.reverseRecOn with
  | nil => exact regular
  | append_singleton log u ih =>
    rw [installed_snoc]
    by_cases same : k = key u.path
    · rw [same, Function.update_self]
      exact fun dir => nomatch dir
    · rw [Function.update_of_ne same]
      exact ih

/-- Where the names are apart for the volume, its files and the names tell the same. -/
theorem installed_pull {N : Set Path} (apart : Set.InjOn key N) {node : Path → Option (Node UInt8)}
    (same : ∀ p ∈ N, node p = d (key p)) {log : List (Upload cfg)}
    (known : ∀ u ∈ log, u.path ∈ N) {p : Path} (inside : p ∈ N) :
    installed id node log p = installed key d log (key p) := by
  induction log using List.reverseRecOn with
  | nil => exact same p inside
  | append_singleton log u ih =>
    have own := known u (by simp)
    rw [installed_snoc, installed_snoc]
    by_cases here : p = u.path
    · rw [here, id_eq, Function.update_self, Function.update_self]
    · rw [id_eq, Function.update_of_ne here,
        Function.update_of_ne fun met => here (apart inside own met)]
      exact ih fun u member => known u (List.mem_append_left _ member)

end Installed

def uploadsWire (uploads : List (Upload cfg)) : List UInt8 := wires (uploads.map Upload.request)

/-- The uploads whose last byte is one of the first `count` bytes. -/
def complete : List (Upload cfg) → Nat → List (Upload cfg)
  | [], _ => []
  | u :: later, count =>
    if u.request.wire.length ≤ count then
      u :: complete later (count - u.request.wire.length) else []

variable {front todo : List (Upload cfg)}

theorem complete_eq {count : Nat} (read : (uploadsWire front).length ≤ count)
    (open' : ∀ u later, todo = u :: later → count < (uploadsWire (front ++ [u])).length) :
    complete (front ++ todo) count = front := by
  induction front generalizing count with
  | nil =>
    cases todo with
    | nil => rfl
    | cons u later =>
      have short := open' u later rfl
      simp only [uploadsWire, List.nil_append, List.map_cons, List.map_nil, wires_cons, wires_nil,
        List.append_nil] at short
      rw [List.nil_append, complete, if_neg (Nat.not_le.mpr short)]
  | cons v front ih =>
    simp only [uploadsWire, List.map_cons, wires_cons, List.length_append] at read
    rw [List.cons_append, complete, if_pos (by omega)]
    congr 1
    refine ih (by unfold uploadsWire; omega) fun u later next => ?_
    have short := open' u later next
    simp only [uploadsWire, List.cons_append, List.map_cons, wires_cons, List.length_append]
      at short ⊢
    omega

structure Position (c : SyncContext cfg) (rest : List UInt8) (todo : List (Upload cfg))
    (received : List UInt8) : Prop where
  expects : Expects c rest (todo.map Upload.request) false received
  here : c.state.sending = true → ∃ u later, todo = u :: later ∧ c.path = u.path

theorem Position.complete {c : SyncContext cfg} {rest received : List UInt8} {count : Nat}
    (position : Position c rest todo received)
    (total : count + rest.length = (uploadsWire (front ++ todo)).length) :
    complete (front ++ todo) count = front := by
  have split : (uploadsWire (front ++ todo)).length =
      (uploadsWire front).length + (uploadsWire todo).length := by
    simp [uploadsWire, wires]
  obtain ⟨open', start⟩ := position.expects.span
  have within : rest.length ≤ (uploadsWire todo).length := by
    unfold uploadsWire
    rcases start with ⟨-, all⟩ | inner <;> omega
  refine complete_eq (by omega) fun u later next => ?_
  subst next
  have started := open' _ _ rfl
  simp only [uploadsWire, List.map_append, List.map_cons, List.map_nil, wires, List.flatten_append,
    List.flatten_cons, List.flatten_nil, List.append_nil, List.length_append] at total started ⊢
  omega

section Pass

variable (view : φ → Storage cfg) (i : Slot cfg) (l : Local cfg φ) (future : List UInt8)

def Spares (m : Local cfg φ) : Prop :=
  ∀ j c stored, j ≠ i → Staged (view l.disk) j c stored →
    (l.ctx.state.sending = true → c.temporary ≠ l.ctx.temporary) →
    Staged (view m.disk) j c stored ∧ (m.ctx.state.sending = true → c.temporary ≠ m.ctx.temporary)

inductive Pushed (todo : List (Upload cfg)) (rest : List UInt8) (m : Local cfg φ) : Prop where
  | on {received : List UInt8} (position : Position m.ctx (rest ++ future) todo received)
      (holding : Holding (view m.disk) i m.ctx received)
      (visible : ∀ p, ¬staging p → (view m.disk).node p = (view l.disk).node p)
  | done {u : Upload cfg} {later : List (Upload cfg)} (next : todo = u :: later)
      (position : Position m.ctx (rest ++ future) later [])
      (holding : Holding (view m.disk) i m.ctx [])
      (visible : ∀ p, ¬staging p → (view m.disk).node p =
        Function.update (view l.disk).node u.path (some (.file u.contents)) p)

variable {view i l future}

private theorem spares_touches {m : Local cfg φ} {names : List Path}
    (touches : Touches i names (view l.disk) (view m.disk))
    (outside : ∀ j c stored, j ≠ i → Staged (view l.disk) j c stored →
      (l.ctx.state.sending = true → c.temporary ≠ l.ctx.temporary) →
      c.temporary ∉ names ∧ (m.ctx.state.sending = true → c.temporary ≠ m.ctx.temporary)) :
    Spares view i l m := by
  intro j c stored other staged apart
  obtain ⟨free, fresh⟩ := outside j c stored other staged apart
  exact ⟨staged.frame touches other free, fresh⟩

variable {c : SyncContext cfg} {received : List UInt8}

private theorem unpaid_quiet {rest : List UInt8} {todo todo' : List Request} {paid : Bool}
    (expects : Expects c rest todo' paid received) (owed : due todo' paid = due todo false)
    (suffix : todo' <:+ todo) : todo' = todo ∧ paid = false := by
  cases paid with
  | false => exact ⟨owed, rfl⟩
  | true =>
    have size := suffix.length_le
    have tail : todo'.tail = todo := owed
    have shorter : todo'.length - 1 = todo.length := by rw [← List.length_tail, tail]
    have empty : todo' = [] := List.length_eq_zero_iff.mp (by omega)
    subst empty
    cases expects

variable {todo : List (Upload cfg)}

private theorem request_cons {s : Send} {later : List Request}
    (requests : todo.map Upload.request = .send s :: later) :
    ∃ u todo', todo = u :: todo' ∧ u.send = s ∧ todo'.map Upload.request = later := by
  obtain ⟨u, todo', rfl, same, rest⟩ := List.map_eq_cons_iff.mp requests
  exact ⟨u, todo', rfl, Request.send.inj same, rest⟩

variable {h : Host cfg ρ} {told : List (List UInt8)}

private theorem Replied.goes {response : List UInt8} {told' : List (List UInt8)} {exit : Option Int}
    (queued : ∀ stream generation data r, (h (.write stream generation data) r).1 = 0)
    (replied : Replied h response told exit told') : exit = none := by
  cases replied with
  | taken => rfl
  | refused bad busy =>
    obtain ⟨stream, r, busy⟩ := busy
    exact absurd (queued _ _ _ _) busy

private theorem staging_temporary {d : Storage cfg} {j : Slot cfg} {stored : List UInt8}
    (staged : Staged d j c stored) : staging c.temporary := by
  obtain ⟨token, temporary, -⟩ := staged.names
  rw [temporary]
  exact partName_staging _ _

private theorem temporary_ne_backup {d d' : Storage cfg} {i j : Slot cfg} {c' : SyncContext cfg}
    {stored stored' : List UInt8} (staged : Staged d i c stored) (other : Staged d' j c' stored') :
    c'.temporary ≠ c.backup := by
  obtain ⟨token, -, backup⟩ := staged.names
  obtain ⟨token', temporary, -⟩ := other.names
  rw [backup, temporary]
  exact partName_ne_oldName _ _ _ _

private theorem spares_install {m : Local cfg φ} (staged : Staged (view l.disk) i l.ctx received)
    (before : l.ctx.state.sending = true)
    (touches : Touches i l.ctx.installNames (view l.disk) (view m.disk))
    (idle : m.ctx.state.sending = false) : Spares view i l m := by
  refine spares_touches touches fun j c stored other staged' apart => ⟨?_, fun sending => ?_⟩
  · simp only [SyncContext.installNames, List.mem_cons, List.not_mem_nil, or_false, not_or]
    refine ⟨apart before, temporary_ne_backup staged staged', fun same => ?_⟩
    have hidden := staging_temporary staged'
    rw [same] at hidden
    exact allowed_visible staged.allowed hidden
  · rw [idle] at sending
    cases sending

/-- A pass goes on whatever the file system does; where it does everything, the upload does too. -/
structure Advanced (view : φ → Storage cfg) (i : Slot cfg) (l : Local cfg φ)
    (data future : List UInt8) (todo : List (Upload cfg))
    (out : (Option Int × List UInt8) × Local cfg φ) : Prop where
  goes : out.1.1 = none
  shorter : out.1.2.length < data.length
  stream : out.2.ctx.stream = l.ctx.stream
  pushed : (view out.2.disk).failures = (view l.disk).failures →
    Pushed view i l future todo out.1.2 out.2 ∧ Spares view i l out.2

private theorem effect_advanced {data : List UInt8}
    {out : (Option Int × List UInt8) × Local cfg φ × ρ × List (List UInt8)}
    (queued : ∀ stream generation data r, (h (.write stream generation data) r).1 = 0)
    (here : l.ctx.state.sending = true → ∃ u later, todo = u :: later ∧ l.ctx.path = u.path)
    (holding : Holding (view l.disk) i l.ctx received)
    (regular : ∀ u ∈ todo, (view l.disk).node u.path ≠ some .dir)
    (names : ∀ u ∈ todo, opensUpload l.ctx data u.send.spec →
      ¬namesTaken (view l.disk).node u.path 32 l.sideNonce)
    (effect : Effect view i h l data future told (todo.map Upload.request) false received out) :
    Advanced view i l data future todo (out.1, out.2.1) := by
  generalize requests : todo.map Upload.request = pending at effect
  cases effect with
  | @quiet _ _ _ _ _ _ rest m r shorter same disk expects owed suffix working holding' =>
    obtain ⟨rfl, rfl⟩ := unpaid_quiet expects owed suffix
    refine ⟨rfl, shorter, same.stream, fun _ => ⟨.on ⟨?_, fun sending => ?_⟩ holding' ?_, ?_⟩⟩
    · rw [requests]
      exact expects
    · obtain ⟨u, later, next, path⟩ := here (working.symm.trans sending)
      exact ⟨u, later, next, same.path.trans path⟩
    · intro p visible
      rw [disk]
    · have still : Touches i [] (view l.disk) (view m.disk) := by
        rw [disk]
        exact Touches.refl _ _ _
      refine spares_touches still fun j c stored other staged apart =>
        ⟨List.not_mem_nil, fun sending => ?_⟩
      rw [same.temporary]
      exact apart (working.symm.trans sending)
  | stat shorter released replied touches expects holding' =>
    cases todo with
    | nil => cases requests
    | cons u todo => cases requests
  | @began s later mode rest m r shorter stream spec touches free expects sending staged =>
    obtain ⟨u, todo, rfl, rfl, rfl⟩ := request_cons requests
    have path : m.ctx.path = u.path := by
      rw [u.splits] at spec
      exact (congrArg Prod.fst (Option.some.inj spec)).symm
    refine ⟨rfl, shorter, stream, fun same => ⟨.on ⟨expects, fun _ => ⟨u, todo, rfl, path⟩⟩
      (staged.holding sending) fun p visible => ?_, ?_⟩⟩
    · exact touches.node _ fun inside => staged.temporary_ne visible (List.mem_singleton.mp inside)
    · refine spares_touches touches fun j c stored other staged' apart => ?_
      have fresh : c.temporary ≠ m.ctx.temporary := by
        intro taken
        have file := staged'.node
        rw [taken, free same.symm] at file
        cases file
      exact ⟨fun inside => fresh (List.mem_singleton.mp inside), fun _ => fresh⟩
  | stored shorter before same touches expects sending staged =>
    obtain ⟨u, todo, rfl, rfl, rfl⟩ := request_cons requests
    obtain ⟨u', later, next, path⟩ := here before
    refine ⟨rfl, shorter, same.stream, fun _ => ⟨.on ⟨expects,
      fun _ => ⟨u', later, next, same.path.trans path⟩⟩ (staged.holding sending)
      fun p visible => ?_, ?_⟩⟩
    · exact touches.node _ fun inside =>
        (holding.staged before).temporary_ne visible (List.mem_singleton.mp inside)
    · refine spares_touches touches fun j c stored other staged' apart =>
        ⟨fun inside => apart before (List.mem_singleton.mp inside), fun _ => ?_⟩
      rw [same.temporary]
      exact apart before
  | failed shorter released replied touches cause expects idle =>
    obtain ⟨u, todo, rfl, rfl, rfl⟩ := request_cons requests
    refine ⟨replied.goes queued, shorter, released.stream, fun same => absurd cause ?_⟩
    rintro (bad | ⟨opening, path, mode, spec, taken⟩ | ⟨path, mode, spec, dir⟩ | failed)
    · exact bad u.good
    · rw [u.splits] at spec
      cases spec
      exact names u List.mem_cons_self opening taken
    · rw [u.splits] at spec
      cases spec
      exact regular u List.mem_cons_self dir
    · exact absurd same (Nat.ne_of_gt failed)
  | @installed s later timestamp rest exit m r told' shorter before finale released replied touches
      node bytes expects idle =>
    obtain ⟨u, todo, rfl, rfl, rfl⟩ := request_cons requests
    obtain ⟨u', later, next, path⟩ := here before
    cases next
    have staged := holding.staged before
    have goes := replied.goes queued
    refine ⟨goes, shorter, released.stream, fun _ => ⟨.done rfl ⟨expects goes, fun sending => ?_⟩
      ⟨fun sending => ?_, fun _ => ⟨released.closed, released.gone⟩⟩ fun p visible => ?_,
      spares_install staged before touches (idle goes)⟩⟩
    · rw [idle goes] at sending
      cases sending
    · rw [idle goes] at sending
      cases sending
    · by_cases target : p = u.path
      · rw [target, Function.update_self, ← path]
        exact node
      · rw [Function.update_of_ne target]
        refine touches.node _ ?_
        simp only [SyncContext.installNames, List.mem_cons, List.not_mem_nil, or_false, not_or]
        exact ⟨staged.temporary_ne visible, staged.backup_ne visible, by rw [path]; exact target⟩
  | misplaced shorter before finale released replied touches node failed bytes =>
    exact ⟨replied.goes queued, shorter, released.stream,
      fun same => absurd same (Nat.ne_of_gt failed)⟩
  | refused shorter unbounded released disk replied discarding =>
    cases todo with
    | nil => cases requests
    | cons u todo =>
      cases requests
      exact absurd u.wellFormed.2.1 unbounded
  | broken shorter finale released replied touches bytes =>
    obtain ⟨u, todo, rfl, rfl, rfl⟩ := request_cons requests
    cases finale

theorem push_pass {fs : FileSystem Path (Slot cfg) UInt8 φ} {N : Set Path}
    (atomic : AtomicOn N fs view) (known : ∀ u ∈ todo, namesOf u.path ⊆ N)
    (queued : ∀ stream generation data r, (h (.write stream generation data) r).1 = 0)
    {data : List UInt8} (position : Position l.ctx (data ++ future) todo received)
    (holding : Holding (view l.disk) i l.ctx received)
    (regular : ∀ u ∈ todo, (view l.disk).node u.path ≠ some .dir)
    (names : ∀ u ∈ todo, opensUpload l.ctx data u.send.spec →
      ¬namesTaken (view l.disk).node u.path 32 l.sideNonce) (more : data ≠ []) (r : ρ) :
    Advanced view i l data future todo
      (((syncPass fs i data).exec h l r).1, ((syncPass fs i data).exec h l r).2.1) := by
  obtain ⟨result, local'⟩ := exec_recording (syncPass fs i data) h l r []
  rw [result, local']
  refine effect_advanced queued position.here holding regular names
    (pass_effect atomic position.expects (fun q member => ?_) (fun q member => ?_)
      (fun sending => ?_) holding (fun sending => ?_) more)
  · obtain ⟨u, -, rfl⟩ := List.mem_map.mp member
    exact u.wellFormed.1
  · obtain ⟨u, inside, rfl⟩ := List.mem_map.mp member
    intro path mode split
    rw [u.splits] at split
    cases split
    exact known u inside
  · obtain ⟨u, later, rfl, path⟩ := position.here sending
    rw [path]
    exact known u List.mem_cons_self
  · obtain ⟨u, later, rfl, path⟩ := position.here sending
    rw [path]
    exact regular u List.mem_cons_self

end Pass

end Webos.Adb.Sync
