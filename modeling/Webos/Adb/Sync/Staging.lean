/- digest: What staging, storing, cleaning up and installing an upload do to the disk. -/

import Webos.Adb.Sync.Replies

namespace Webos.Adb.Sync

open Webos.Lib.Files Webos.Lib.Program

variable {cfg : Config} {φ : Type}

abbrev Storage (cfg : Config) : Type := Disk Path (Slot cfg) UInt8

structure Touches (i : Slot cfg) (names : List Path) (d d' : Storage cfg) : Prop where
  node : ∀ p, p ∉ names → d'.node p = d.node p
  handle : ∀ f, f ≠ i → d'.handle f = d.handle f
  failures : d.failures ≤ d'.failures

theorem Touches.refl (i : Slot cfg) (names : List Path) (d : Storage cfg) : Touches i names d d :=
  ⟨fun _ _ => rfl, fun _ _ => rfl, Nat.le_refl _⟩

variable {d : Storage cfg} {i : Slot cfg} {names : List Path} {d' : Storage cfg}

theorem Touches.trans {d'' : Storage cfg} (first : Touches i names d d')
    (second : Touches i names d' d'') : Touches i names d d'' :=
  ⟨fun p outside => (second.node p outside).trans (first.node p outside),
    fun f other => (second.handle f other).trans (first.handle f other),
    Nat.le_trans first.failures second.failures⟩

theorem Touches.mono {more : List Path} (touches : Touches i names d d') (inside : names ⊆ more) :
    Touches i more d d' :=
  ⟨fun p outside => touches.node p fun member => outside (inside member), touches.handle,
    touches.failures⟩

structure Staged (d : Storage cfg) (i : Slot cfg) (c : SyncContext cfg) (stored : List UInt8) :
    Prop where
  fileOpen : c.fileOpen = true
  live : c.temporaryLive = true
  names : ∃ token, c.temporary = partName c.path token ∧ c.backup = oldName c.path token
  allowed : syncPathAllowed cfg c.path = true
  node : d.node c.temporary = some (.file stored)
  handle : d.handle i = some (c.temporary, stored.length)

variable {c : SyncContext cfg} {stored : List UInt8}

theorem Staged.temporary_ne (staged : Staged d i c stored) {p : Path} (visible : ¬staging p) :
    p ≠ c.temporary := by
  obtain ⟨token, temporary, -⟩ := staged.names
  rintro rfl
  rw [temporary] at visible
  exact visible (partName_staging _ _)

theorem Staged.backup_ne (staged : Staged d i c stored) {p : Path} (visible : ¬staging p) :
    p ≠ c.backup := by
  obtain ⟨token, -, backup⟩ := staged.names
  rintro rfl
  rw [backup] at visible
  exact visible (oldName_staging _ _)

theorem Staged.backup_ne_temporary (staged : Staged d i c stored) : c.temporary ≠ c.backup := by
  obtain ⟨token, temporary, backup⟩ := staged.names
  rw [temporary, backup]
  exact partName_ne_oldName _ _ _ _

theorem Staged.same {c' : SyncContext cfg} (staged : Staged d i c stored) (same : SameUpload c c') :
    Staged d i c' stored where
  fileOpen := same.fileOpen.trans staged.fileOpen
  live := same.temporaryLive.trans staged.live
  names := by
    rw [same.temporary, same.backup, same.path]
    exact staged.names
  allowed := by
    rw [same.path]
    exact staged.allowed
  node := by
    rw [same.temporary]
    exact staged.node
  handle := by
    rw [same.temporary]
    exact staged.handle

theorem Staged.frame {j : Slot cfg} (staged : Staged d j c stored) (touches : Touches i names d d')
    (other : j ≠ i) (outside : c.temporary ∉ names) : Staged d' j c stored :=
  { staged with
    node := (touches.node _ outside).trans staged.node
    handle := (touches.handle j other).trans staged.handle }

theorem store_touches (i : Slot cfg) (p : Path) (contents : List UInt8) (d : Storage cfg) :
    Touches i [p] d (d.store i p contents) :=
  ⟨fun _ outside => put_other (fun same => outside (List.mem_singleton.mpr same)) _,
    fun _ other => attach_other other _, Nat.le_refl _⟩

theorem Staged.store (staged : Staged d i c stored) (contents : List UInt8) :
    Staged (d.store i c.temporary contents) i c contents :=
  { staged with
    node := put_self _ _
    handle := attach_self _ _ }

/-- The names that an upload to `path` may use: its own and the staging names of any token. -/
def namesOf (path : Path) : Set Path :=
  { p | p = path ∨ ∃ token, p = partName path token ∨ p = oldName path token }

theorem path_mem (path : Path) : path ∈ namesOf path := Or.inl rfl

theorem part_mem (path : Path) (token : UInt32) : partName path token ∈ namesOf path :=
  Or.inr ⟨token, Or.inl rfl⟩

theorem old_mem (path : Path) (token : UInt32) : oldName path token ∈ namesOf path :=
  Or.inr ⟨token, Or.inr rfl⟩

/-- A volume that does not tell upper case from lower case tells the names of an upload apart. -/
theorem foldCase_injOn (path : Path) : Set.InjOn foldCase (namesOf path) := by
  have tail {p : Path} (inside : p ∈ namesOf path) : ∃ rest, p = path ++ rest ∧
      foldCase rest = rest := by
    obtain rfl | ⟨token, rfl | rfl⟩ := inside
    · exact ⟨[], (List.append_nil _).symm, rfl⟩
    · refine ⟨partMark ++ hex8 token, List.append_assoc .., ?_⟩
      rw [foldCase, List.map_append]
      exact congrArg (partMark ++ ·) (foldCase_hex8 token)
    · refine ⟨oldMark ++ hex8 token, List.append_assoc .., ?_⟩
      rw [foldCase, List.map_append]
      exact congrArg (oldMark ++ ·) (foldCase_hex8 token)
  intro p inside q inside' same
  obtain ⟨rest, rfl, low⟩ := tail inside
  obtain ⟨rest', rfl, low'⟩ := tail inside'
  simp only [foldCase, List.map_append] at same low low'
  rw [low, low'] at same
  rw [List.append_cancel_left same]

section Effects

variable {fs : FileSystem Path (Slot cfg) UInt8 φ} {view : φ → Storage cfg} {N : Set Path}
variable (atomic : AtomicOn N fs view) (i : Slot cfg) (l : Local cfg φ)

include atomic

variable {p : Path}

theorem stat_touches (inside : p ∈ N) : Touches i [] (view l.disk) (view (l.stat fs p).2.disk) := by
  dsimp only [Local.stat]
  rcases atomic.stat p inside l.disk with ⟨same, -⟩ | ⟨failed, -⟩
  · rw [same]
    exact Touches.refl _ _ _
  · rw [failed]
    exact ⟨fun _ _ => rfl, fun _ _ => rfl, Nat.le_succ _⟩

theorem stat_tells (inside : p ∈ N) :
    (l.stat fs p).1 = ((view l.disk).node p).map Node.entry ∨
      ((l.stat fs p).1 = none ∧ (view l.disk).failures < (view (l.stat fs p).2.disk).failures) := by
  dsimp only [Local.stat]
  rcases atomic.stat p inside l.disk with ⟨-, truth⟩ | ⟨failed, nothing⟩
  · exact Or.inl truth
  · refine Or.inr ⟨nothing, ?_⟩
    rw [failed]
    exact Nat.lt_succ_self _

theorem create_cases (inside : p ∈ N) :
    (view (l.create fs i p).2.disk = (view l.disk).create i p ∧ (l.create fs i p).1 = 0) ∨
      (view (l.create fs i p).2.disk = (view l.disk).fail ∧ (l.create fs i p).1 ≠ 0) :=
  atomic.create i p inside l.disk

variable {contents : List UInt8}

theorem write_cases (chunk : List UInt8)
    (opened : (view l.disk).handle i = some (p, contents.length))
    (here : (view l.disk).node p = some (.file contents)) :
    (view (l.write fs i chunk).2.disk = (view l.disk).store i p (contents ++ chunk) ∧
      (l.write fs i chunk).1 = chunk.length) ∨
    ((∃ part, part <+: chunk ∧
      view (l.write fs i chunk).2.disk = ((view l.disk).store i p (contents ++ part)).fail) ∧
      (l.write fs i chunk).1 ≠ chunk.length) :=
  atomic.write i chunk l.disk p contents opened here

theorem close_cases :
    (view (l.close fs i).2.disk = (view l.disk).attach i none ∧ (l.close fs i).1 = 0) ∨
      (view (l.close fs i).2.disk = (view l.disk).fail ∧ (l.close fs i).1 ≠ 0) :=
  atomic.close i l.disk

theorem rename_cases {a b : Path} (inside : b ∈ N)
    (here : (view l.disk).node a = some (.file contents)) :
    (view (l.rename fs a b).2.disk = (view l.disk).rename a b ∧ (l.rename fs a b).1 = 0) ∨
      (view (l.rename fs a b).2.disk = (view l.disk).fail ∧ (l.rename fs a b).1 ≠ 0) :=
  atomic.rename a b inside l.disk contents here

theorem unlink_cases (here : (view l.disk).node p = some (.file contents)) :
    (view (l.unlink fs p).2.disk = (view l.disk).put p none ∧ (l.unlink fs p).1 = 0) ∨
      (view (l.unlink fs p).2.disk = (view l.disk).fail ∧ (l.unlink fs p).1 ≠ 0) :=
  atomic.unlink p l.disk contents here

structure Chosen (i : Slot cfg) (view : φ → Storage cfg) (l : Local cfg φ)
    (out : Int × Local cfg φ) : Prop where
  touches : Touches i [] (view l.disk) (view out.2.disk)
  path : out.2.ctx.path = l.ctx.path
  fileOpen : out.2.ctx.fileOpen = l.ctx.fileOpen
  live : out.2.ctx.temporaryLive = l.ctx.temporaryLive
  names : out.1 = 0 → ∃ token, out.2.ctx.temporary = partName l.ctx.path token ∧
    out.2.ctx.backup = oldName l.ctx.path token
  free : out.1 = 0 → (view l.disk).failures = (view out.2.disk).failures →
    (view l.disk).node out.2.ctx.temporary = none

variable {m : Local cfg φ}

omit atomic in
theorem Chosen.after {l : Local cfg φ} {out : Int × Local cfg φ} {view : φ → Storage cfg}
    (touches : Touches i [] (view l.disk) (view m.disk)) (path : m.ctx.path = l.ctx.path)
    (fileOpen : m.ctx.fileOpen = l.ctx.fileOpen) (live : m.ctx.temporaryLive = l.ctx.temporaryLive)
    (chosen : Chosen i view m out) : Chosen i view l out  where
  touches := touches.trans chosen.touches
  path := chosen.path.trans path
  fileOpen := chosen.fileOpen.trans fileOpen
  live := chosen.live.trans live
  names := fun zero => by
    rw [← path]
    exact chosen.names zero
  free := fun zero same => by
    have first := touches.failures
    have second := chosen.touches.failures
    rw [← touches.node _ List.not_mem_nil]
    exact chosen.free zero (by omega)

theorem chooseAttempts_chosen (attempts : Nat) (short : l.ctx.path.length < cfg.syncPathMax)
    (known : namesOf l.ctx.path ⊆ N) :
    Chosen i view l (chooseAttempts fs attempts l) := by
  induction attempts generalizing l with
  | zero =>
    have exist : -EEXIST ≠ 0 := by decide
    exact ⟨Touches.refl _ _ _, rfl, rfl, rfl, fun zero => absurd zero exist,
      fun zero => absurd zero exist⟩
  | succ attempts ih =>
    have part := partName_length short (l.sideNonce + 1)
    have old := oldName_length short (l.sideNonce + 1)
    have partWhole : (partName l.ctx.path (l.sideNonce + 1)).take
        (cfg.syncPathMax + SYNC_SIDE_SUFFIX_LEN - 1) = partName l.ctx.path (l.sideNonce + 1) :=
      List.take_of_length_le (by omega)
    have oldWhole : (oldName l.ctx.path (l.sideNonce + 1)).take
        (cfg.syncPathMax + SYNC_SIDE_SUFFIX_LEN - 1) = oldName l.ctx.path (l.sideNonce + 1) :=
      List.take_of_length_le (by omega)
    unfold chooseAttempts
    dsimp only
    rw [if_neg (Nat.not_le.mpr part), if_neg (Nat.not_le.mpr old), partWhole, oldWhole]
    set m : Local cfg φ := Local.set (Local.set { l with sideNonce := l.sideNonce + 1 }
      fun c => { c with temporary := partName l.ctx.path (l.sideNonce + 1) })
      fun c => { c with backup := oldName l.ctx.path (l.sideNonce + 1) }
    have part : m.ctx.temporary ∈ N := known (part_mem _ _)
    have old : m.ctx.backup ∈ N := known (old_mem _ _)
    have first := stat_touches atomic i m part
    have tells := stat_tells atomic m part
    have second := stat_touches atomic i (m.stat fs m.ctx.temporary).2 old
    split_ifs with taken taken'
    · exact Chosen.after i first rfl rfl rfl (ih _ short known)
    · exact Chosen.after i (first.trans second) rfl rfl rfl (ih _ short known)
    · refine ⟨first.trans second, rfl, rfl, rfl, fun _ => ⟨_, rfl, rfl⟩,
        fun _ same => ?_⟩
      have one := first.failures
      have two := second.failures
      rcases tells with truth | ⟨-, failed⟩
      · rw [truth] at taken
        cases here : (view l.disk).node (partName l.ctx.path (l.sideNonce + 1)) with
        | none => exact here
        | some n =>
          rw [show (view m.disk).node m.ctx.temporary = some n from here] at taken
          exact absurd rfl taken
      · have base : (view m.disk).failures = (view l.disk).failures := rfl
        dsimp only [Local.stat] at same one two failed
        omega

def namesTaken (node : Path → Option (Node UInt8)) (path : Path) : Nat → UInt32 → Prop
  | 0, _ => True
  | attempts + 1, nonce =>
    (node (partName path (nonce + 1)) ≠ none ∨ node (oldName path (nonce + 1)) ≠ none) ∧
      namesTaken node path attempts (nonce + 1)

variable {d : Storage cfg}

omit atomic in
theorem namesTaken_mono {node node' : Path → Option (Node UInt8)} {path : Path} {attempts : Nat}
    {nonce : UInt32} (more : ∀ p, node' p ≠ none → node p ≠ none)
    (taken : namesTaken node' path attempts nonce) : namesTaken node path attempts nonce := by
  induction attempts generalizing nonce with
  | zero => trivial
  | succ attempts ih => exact ⟨taken.1.imp (more _) (more _), ih taken.2⟩

private theorem stat_node (inside : p ∈ N) :
    (view (l.stat fs p).2.disk).node = (view l.disk).node := by
  unfold Local.stat
  rcases atomic.stat p inside l.disk with ⟨same, -⟩ | ⟨failed, -⟩
  · rw [same]
  · rw [failed]
    rfl

private theorem stat_found (inside : p ∈ N) (found : (l.stat fs p).1.isSome = true) :
    (view l.disk).node p ≠ none := by
  intro empty
  rcases stat_tells atomic l inside with truth | ⟨nothing, -⟩
  · rw [truth, empty] at found
    cases found
  · rw [nothing] at found
    cases found

theorem chooseAttempts_taken (attempts : Nat) (short : l.ctx.path.length < cfg.syncPathMax)
    (known : namesOf l.ctx.path ⊆ N) (failed : (chooseAttempts fs attempts l).1 ≠ 0) :
    namesTaken (view l.disk).node l.ctx.path attempts l.sideNonce := by
  induction attempts generalizing l with
  | zero => trivial
  | succ attempts ih =>
    have part := partName_length short (l.sideNonce + 1)
    have old := oldName_length short (l.sideNonce + 1)
    unfold chooseAttempts at failed
    dsimp only at failed
    rw [if_neg (Nat.not_le.mpr part), if_neg (Nat.not_le.mpr old),
      List.take_of_length_le (by omega), List.take_of_length_le (by omega)] at failed
    set m : Local cfg φ := Local.set (Local.set { l with sideNonce := l.sideNonce + 1 }
      fun c => { c with temporary := partName l.ctx.path (l.sideNonce + 1) })
      fun c => { c with backup := oldName l.ctx.path (l.sideNonce + 1) }
    have part : m.ctx.temporary ∈ N := known (part_mem _ _)
    have old : m.ctx.backup ∈ N := known (old_mem _ _)
    have first := stat_node atomic m part
    have second := stat_node atomic (m.stat fs m.ctx.temporary).2 old
    split_ifs at failed with taken taken'
    · have later := ih (m.stat fs m.ctx.temporary).2 short known failed
      rw [first] at later
      exact ⟨Or.inl (stat_found atomic m part taken), later⟩
    · have later := ih ((m.stat fs m.ctx.temporary).2.stat fs m.ctx.backup).2 short known failed
      have found := stat_found atomic _ old taken'
      rw [second, first] at later
      rw [first] at found
      exact ⟨Or.inr found, later⟩
    · exact absurd rfl failed

def goodSpec (cfg : Config) (spec : List UInt8) : Prop :=
  0 ∉ spec ∧ ∃ path mode, splitSpec spec = some (path, mode) ∧ path ≠ [] ∧ mode ≠ [] ∧
    modeParsed mode = true ∧ modeRegular mode = true ∧ syncPathAllowed cfg path = true

inductive Prepared (i : Slot cfg) (view : φ → Storage cfg) (l : Local cfg φ) :
    Option (List UInt8) × Local cfg φ → Prop where
  | refused {reason : List UInt8} {m : Local cfg φ}
      (touches : Touches i [] (view l.disk) (view m.disk))
      (fileOpen : m.ctx.fileOpen = l.ctx.fileOpen)
      (live : m.ctx.temporaryLive = l.ctx.temporaryLive)
      (cause : ¬goodSpec cfg l.ctx.spec ∨ (∃ path mode, splitSpec l.ctx.spec = some (path, mode) ∧
          namesTaken (view l.disk).node path 32 l.sideNonce) ∨
        (∃ path mode, splitSpec l.ctx.spec = some (path, mode) ∧
          (view l.disk).node path = some .dir) ∨
        (view l.disk).failures < (view m.disk).failures) :
      Prepared i view l (some reason, m)
  | begun {mode : List UInt8} {m : Local cfg φ}
      (spec : splitSpec l.ctx.spec = some (m.ctx.path, mode))
      (touches : Touches i [m.ctx.temporary] (view l.disk) (view m.disk))
      (staged : Staged (view m.disk) i m.ctx [])
      (free : (view l.disk).failures = (view m.disk).failures →
        (view l.disk).node m.ctx.temporary = none) :
      Prepared i view l (none, m)

omit atomic in
private theorem refused_early {l : Local cfg φ} {view : φ → Storage cfg} {reason : List UInt8}
    (bad : ¬goodSpec cfg l.ctx.spec) : Prepared i view l (some reason, l) :=
  .refused (Touches.refl _ _ _) rfl rfl (Or.inl bad)

omit atomic in
private theorem refused_cut {l : Local cfg φ} {view : φ → Storage cfg} {reason : List UInt8}
    (spec : List UInt8) (bad : ¬goodSpec cfg l.ctx.spec) :
    Prepared i view l (some reason, l.set fun c => { c with spec }) :=
  .refused (Touches.refl _ _ _) rfl rfl (Or.inl bad)

variable {path mode : List UInt8}

private theorem create_prepared (inside : m.ctx.temporary ∈ N)
    (spec : splitSpec l.ctx.spec = some (path, mode))
    (allowed : syncPathAllowed cfg path = true) (here : m.ctx.path = path)
    (names : ∃ token, m.ctx.temporary = partName path token ∧ m.ctx.backup = oldName path token)
    (touches : Touches i [] (view l.disk) (view m.disk))
    (fileOpen : m.ctx.fileOpen = l.ctx.fileOpen) (live : m.ctx.temporaryLive = l.ctx.temporaryLive)
    (free : (view l.disk).failures = (view m.disk).failures →
      (view l.disk).node m.ctx.temporary = none) :
    Prepared i view l (if (m.create fs i m.ctx.temporary).1 ≠ 0
        then (some (ascii "cannot create partial file"), (m.create fs i m.ctx.temporary).2)
        else (none, (m.create fs i m.ctx.temporary).2.set fun c =>
          { c with fileOpen := true, temporaryLive := true, state := .sendHeader })) := by
  subst here
  have base := touches.failures
  rcases create_cases atomic i m inside with ⟨created, zero⟩ | ⟨lost, bad⟩
  · rw [if_neg (not_not.mpr zero)]
    refine .begun spec ?_ ⟨rfl, rfl, names, allowed, ?_, ?_⟩ ?_
    · refine (touches.mono (List.nil_subset _)).trans ⟨fun p outside => ?_, fun f other => ?_, ?_⟩
      · show (view (m.create fs i m.ctx.temporary).2.disk).node p = _
        rw [created]
        exact Function.update_of_ne (fun same => outside
          (by simp [same, Local.set, Local.create])) _ _
      · show (view (m.create fs i m.ctx.temporary).2.disk).handle f = _
        rw [created]
        exact Function.update_of_ne other _ _
      · show _ ≤ (view (m.create fs i m.ctx.temporary).2.disk).failures
        rw [created]
        exact Nat.le_refl _
    · show (view (m.create fs i m.ctx.temporary).2.disk).node m.ctx.temporary = _
      rw [created]
      exact Function.update_self _ _ _
    · show (view (m.create fs i m.ctx.temporary).2.disk).handle i = _
      rw [created]
      exact Function.update_self _ _ _
    · intro same
      have after : (view (m.create fs i m.ctx.temporary).2.disk).failures =
          (view m.disk).failures := by
        rw [created]
        rfl
      exact free (same.trans after)
  · rw [if_pos bad]
    have grown : (view m.disk).failures <
        (view (m.create fs i m.ctx.temporary).2.disk).failures := by
      rw [lost]
      exact Nat.lt_succ_self _
    refine .refused (touches.trans ?_) fileOpen live
      (Or.inr (Or.inr (Or.inr (Nat.lt_of_le_of_lt base grown))))
    rw [lost]
    exact ⟨fun _ _ => rfl, fun _ _ => rfl, Nat.le_succ _⟩

omit atomic in
private theorem bad_spec {spec : List UInt8} (split : splitSpec spec = some (path, mode))
    (bad : path = [] ∨ mode = [] ∨ modeParsed mode = false ∨ modeRegular mode = false ∨
      syncPathAllowed cfg path = false) : ¬goodSpec cfg spec := by
  rintro ⟨-, path', mode', split', filled, some, parsed, regular, allowed⟩
  rw [split] at split'
  cases split'
  rcases bad with bad | bad | bad | bad | bad
  · exact filled bad
  · exact some bad
  · rw [bad] at parsed
    cases parsed
  · rw [bad] at regular
    cases regular
  · rw [bad] at allowed
    cases allowed

omit atomic in
private theorem dir_of_entry {n : Option (Node UInt8)} {e : Entry}
    (found : n.map Node.entry = some e)
    (isDir : e.isDir = true) : n = some .dir := by
  cases n with
  | none => cases found
  | some n =>
    cases n with
    | dir => rfl
    | file contents =>
      cases found
      cases isDir

private theorem stageSend_prepared {start : Local cfg φ}
    (spec : splitSpec l.ctx.spec = some (path, mode)) (allowed : syncPathAllowed cfg path = true)
    (same : start = (l.set fun c => { c with spec := path ++ 0 :: mode }).set
      fun c => { c with path }) (known : namesOf path ⊆ N) :
    Prepared i view l (stageSend fs i start) := by
  have given : start.ctx.path = path := by rw [same]; rfl
  have chosen : Chosen i view start (chooseSidePaths fs start) :=
    chooseAttempts_chosen atomic i _ 32 (given ▸ allowed_short allowed) (given ▸ known)
  unfold stageSend
  have taken : (chooseSidePaths fs start).1 ≠ 0 →
      namesTaken (view start.disk).node start.ctx.path 32 start.sideNonce :=
    chooseAttempts_taken atomic start 32 (given ▸ allowed_short allowed) (given ▸ known)
  generalize chooseSidePaths fs start = out at chosen taken ⊢
  subst same
  obtain ⟨ret, m⟩ := out
  have here : m.ctx.path = path := chosen.path
  have own : m.ctx.path ∈ N := here ▸ known (path_mem path)
  have stat := stat_touches atomic i m own
  have touches := chosen.touches.trans stat
  dsimp only
  by_cases failed : ret ≠ 0
  · rw [if_pos failed]
    exact .refused chosen.touches chosen.fileOpen chosen.live
      (Or.inr (Or.inl ⟨path, mode, spec, taken failed⟩))
  · rw [if_neg failed]
    by_cases found : (m.stat fs m.ctx.path).1.any Entry.isDir = true
    · rw [if_pos found]
      refine .refused touches chosen.fileOpen chosen.live
        (Or.inr (Or.inr (Or.inl ⟨path, mode, spec, ?_⟩)))
      rcases stat_tells atomic m own with truth | ⟨nothing, -⟩
      · rw [truth, chosen.touches.node _ List.not_mem_nil, here] at found
        obtain ⟨e, entry, isDir⟩ := (Option.any_eq_true _ _).mp found
        exact dir_of_entry entry isDir
      · rw [nothing] at found
        cases found
    · rw [if_neg found]
      obtain ⟨token, temporary, backup⟩ := chosen.names (not_not.mp failed)
      refine create_prepared atomic i l (temporary ▸ known (part_mem path token)) spec allowed here
        ⟨token, temporary, backup⟩ touches chosen.fileOpen chosen.live fun same =>
          chosen.free (not_not.mp failed) ?_
      have first := chosen.touches.failures
      have second := stat.failures
      exact Nat.le_antisymm first (second.trans (Nat.le_of_eq same.symm))

theorem prepareSend_prepared (known : ∀ path mode, splitSpec l.ctx.spec = some (path, mode) →
    namesOf path ⊆ N) : Prepared i view l (prepareSend fs i l) := by
  unfold prepareSend
  split_ifs with nul
  · exact refused_early i fun good => good.1 nul
  · split
    · rename_i none
      refine refused_early i ?_
      rintro ⟨-, path, mode, split, -⟩
      rw [none] at split
      cases split
    · rename_i path mode split
      split_ifs with empty unparsed irregular outside
      · exact refused_early i (bad_spec split (empty.imp id Or.inl))
      · refine refused_cut i _ (bad_spec split (Or.inr (Or.inr (Or.inl ?_))))
        simpa using unparsed
      · refine refused_cut i _ (bad_spec split (Or.inr (Or.inr (Or.inr (Or.inl ?_)))))
        simpa using irregular
      · refine refused_cut i _ (bad_spec split (Or.inr (Or.inr (Or.inr (Or.inr ?_)))))
        by_contra allowed
        have short := allowed_short (Bool.not_eq_false _ ▸ allowed)
        simp only [Bool.not_eq_false] at allowed
        simp only [allowed, Bool.not_true, Bool.false_or, ge_iff_le, decide_eq_true_eq] at outside
        omega
      · refine stageSend_prepared atomic i l split ?_ rfl (known path mode split)
        by_contra refused
        simp [refused] at outside

theorem closePartial_touches : Touches i [] (view l.disk) (view (closePartial fs i l).disk) := by
  unfold closePartial
  split_ifs
  · rcases close_cases atomic i l with ⟨closed, -⟩ | ⟨failed, -⟩
    · dsimp only [Local.set]
      rw [closed]
      exact ⟨fun _ _ => rfl, fun _ other => attach_other other _, Nat.le_refl _⟩
    · dsimp only [Local.set]
      rw [failed]
      exact ⟨fun _ _ => rfl, fun _ _ => rfl, Nat.le_succ _⟩
  · exact Touches.refl _ _ _

theorem cleanupPartial_touches (file : l.ctx.temporaryLive = true →
      ∃ contents, (view l.disk).node l.ctx.temporary = some (.file contents)) :
    Touches i [l.ctx.temporary] (view l.disk) (view (cleanupPartial fs i l).disk) := by
  have closed := closePartial_touches atomic i l
  have ctx : (closePartial fs i l).ctx.temporaryLive = l.ctx.temporaryLive ∧
      (closePartial fs i l).ctx.temporary = l.ctx.temporary := by
    unfold closePartial
    split_ifs <;> exact ⟨rfl, rfl⟩
  refine (closed.mono (List.nil_subset _)).trans ?_
  unfold cleanupPartial unlinkPartial
  rw [ctx.1, ctx.2]
  split_ifs with live
  · obtain ⟨contents, here⟩ := file live
    rw [← closed.node _ List.not_mem_nil] at here
    rcases unlink_cases atomic (closePartial fs i l) here with
      ⟨gone, -⟩ | ⟨failed, -⟩
    · dsimp only [Local.set]
      rw [gone]
      refine ⟨fun p outside => put_other (fun same => outside ?_) _, fun _ _ => rfl, Nat.le_refl _⟩
      rw [same]
      exact List.mem_singleton_self _
    · dsimp only [Local.set]
      rw [failed]
      exact ⟨fun _ _ => rfl, fun _ _ => rfl, Nat.le_succ _⟩
  · exact Touches.refl _ _ _

omit atomic in
theorem cleanupPartial_idle (closed : l.ctx.fileOpen = false) (gone : l.ctx.temporaryLive = false) :
    cleanupPartial fs i l = l := by
  simp [cleanupPartial, closePartial, unlinkPartial, closed, gone]

inductive Replaced (i : Slot cfg) (view : φ → Storage cfg) (d : Storage cfg) (c : SyncContext cfg)
    (stored : List UInt8) : Int × Local cfg φ → Prop where
  | installed {m : Local cfg φ}
      (touches : Touches i [c.temporary, c.backup, c.path] d (view m.disk))
      (node : (view m.disk).node c.path = some (.file stored))
      (ctx : m.ctx = { c with temporaryLive := false }) : Replaced i view d c stored (0, m)
  | kept {ret : Int} {m : Local cfg φ} (bad : ret ≠ 0)
      (touches : Touches i [c.temporary, c.backup, c.path] d (view m.disk))
      (node : (view m.disk).node c.path = d.node c.path ∨ d.failures + 2 ≤ (view m.disk).failures)
      (failed : d.failures < (view m.disk).failures)
      (staged : (view m.disk).node c.temporary = some (.file stored)) (ctx : m.ctx = c) :
      Replaced i view d c stored (ret, m)

omit atomic in
private theorem rename_touches {names : List Path} {a b : Path} (first : a ∈ names)
    (second : b ∈ names) : Touches i names d (d.rename a b) :=
  ⟨fun _ outside => rename_other (fun same => outside (same ▸ first))
    (fun same => outside (same ▸ second)), fun _ _ => rfl, Nat.le_refl _⟩

omit atomic in
private theorem fail_touches (names : List Path) : Touches i names d d.fail :=
  ⟨fun _ _ => rfl, fun _ _ => rfl, Nat.le_succ _⟩

variable {stored : List UInt8}

omit atomic in
private theorem Replaced.refuse {c : SyncContext cfg} {ret : Int} {m : Local cfg φ} (bad : ret ≠ 0)
    (failed : view m.disk = d.fail) (node : d.node c.temporary = some (.file stored))
    (ctx : m.ctx = c) : Replaced i view d c stored (ret, m) := by
  refine .kept bad ?_ (Or.inl ?_) ?_ ?_ ctx
  all_goals rw [failed]
  · exact fail_touches i _
  · rfl
  · exact Nat.lt_succ_self _
  · exact node

private theorem swapIn_fresh (inside : l.ctx.path ∈ N)
    (node : (view l.disk).node l.ctx.temporary = some (.file stored))
    (apart : l.ctx.path ≠ l.ctx.temporary) :
    Replaced i view (view l.disk) l.ctx stored (swapIn fs false l) := by
  unfold swapIn
  simp only [Bool.false_eq_true, ↓reduceIte, ne_eq, not_true_eq_false]
  rcases rename_cases atomic l inside node with ⟨moved, zero⟩ | ⟨failed, bad⟩
  · rw [if_neg (not_not.mpr zero)]
    refine .installed ?_ ?_ rfl
    all_goals
      dsimp only [Local.set]
      rw [moved]
    · exact rename_touches i (by simp) (by simp)
    · rw [rename_target apart, node]
  · rw [if_pos bad]
    exact .refuse i bad failed node rfl

private theorem swapIn_aside {old : List UInt8} (inside : m.ctx.path ∈ N)
    (here : d.node m.ctx.path = some (.file old))
    (node : d.node m.ctx.temporary = some (.file stored)) (apart : m.ctx.path ≠ m.ctx.temporary)
    (spare : m.ctx.path ≠ m.ctx.backup) (other : m.ctx.temporary ≠ m.ctx.backup)
    (aside : view m.disk = d.rename m.ctx.path m.ctx.backup) :
    Replaced i view d m.ctx stored (if (m.rename fs m.ctx.temporary m.ctx.path).1 ≠ 0 then
        ((m.rename fs m.ctx.temporary m.ctx.path).1,
          (Local.rename fs (m.rename fs m.ctx.temporary m.ctx.path).2 m.ctx.backup m.ctx.path).2)
      else
        (0, (Local.unlink fs ((m.rename fs m.ctx.temporary m.ctx.path).2.set fun c =>
          { c with temporaryLive := false }) m.ctx.backup).2)) := by
  have first : Touches i [m.ctx.temporary, m.ctx.backup, m.ctx.path] d (view m.disk) := by
    rw [aside]
    exact rename_touches i (by simp) (by simp)
  have staged : (view m.disk).node m.ctx.temporary = some (.file stored) := by
    rw [aside, rename_other (Ne.symm apart) other]
    exact node
  have saved : (view m.disk).node m.ctx.backup = some (.file old) := by
    rw [aside, rename_target (Ne.symm spare)]
    exact here
  have base : (view m.disk).failures = d.failures := by
    rw [aside]
    rfl
  rcases rename_cases atomic m inside staged with ⟨moved, zero⟩ | ⟨failed, bad⟩
  · rw [if_neg (not_not.mpr zero)]
    have second : Touches i [m.ctx.temporary, m.ctx.backup, m.ctx.path] (view m.disk)
        (view (m.rename fs m.ctx.temporary m.ctx.path).2.disk) := by
      rw [moved]
      exact rename_touches i (by simp) (by simp)
    have installed : (view (m.rename fs m.ctx.temporary m.ctx.path).2.disk).node m.ctx.path =
        some (.file stored) := by
      rw [moved, rename_target apart]
      exact staged
    have there : (view (m.rename fs m.ctx.temporary m.ctx.path).2.disk).node m.ctx.backup =
        some (.file old) := by
      rw [moved, rename_other (Ne.symm other) (Ne.symm spare)]
      exact saved
    rcases unlink_cases atomic ((m.rename fs m.ctx.temporary m.ctx.path).2.set fun c =>
        { c with temporaryLive := false }) there with ⟨gone, -⟩ | ⟨lost, -⟩
    · refine .installed ((first.trans second).trans ?_) ?_ rfl
      · rw [gone]
        refine ⟨fun p outside => put_other (fun same => outside ?_) _,
          fun _ _ => rfl, Nat.le_refl _⟩
        simp [same]
      · rw [gone, put_other spare]
        exact installed
    · refine .installed ((first.trans second).trans ?_) ?_ rfl
      · rw [lost]
        exact fail_touches i _
      · rw [lost]
        exact installed
  · rw [if_pos bad]
    have second : Touches i [m.ctx.temporary, m.ctx.backup, m.ctx.path] (view m.disk)
        (view (m.rename fs m.ctx.temporary m.ctx.path).2.disk) := by
      rw [failed]
      exact fail_touches i _
    have still : (view (m.rename fs m.ctx.temporary m.ctx.path).2.disk).node m.ctx.backup =
        some (.file old) := by
      rw [failed]
      exact saved
    have count : (view (m.rename fs m.ctx.temporary m.ctx.path).2.disk).failures =
        d.failures + 1 := by
      rw [failed, ← base]
      rfl
    rcases rename_cases atomic (m.rename fs m.ctx.temporary m.ctx.path).2 inside
        still with ⟨restored, -⟩ | ⟨lost, -⟩
    · refine .kept bad ((first.trans second).trans ?_) (Or.inl ?_) ?_ ?_ rfl
      all_goals rw [restored]
      · exact rename_touches i (by simp) (by simp)
      · rw [rename_target spare, still, here]
      · exact Nat.lt_of_lt_of_eq (Nat.lt_succ_self _) count.symm
      · rw [rename_other other (Ne.symm apart), failed]
        exact staged
    · refine .kept bad ((first.trans second).trans ?_) (Or.inr ?_) ?_ ?_ rfl
      all_goals rw [lost]
      · exact fail_touches i _
      · show d.failures + 2 ≤ _ + 1
        rw [count]
      · show d.failures < _ + 1
        omega
      · rw [failed]
        exact staged

private theorem swapIn_over {old : List UInt8} (inside : l.ctx.path ∈ N)
    (aside : l.ctx.backup ∈ N)
    (here : (view l.disk).node l.ctx.path = some (.file old))
    (node : (view l.disk).node l.ctx.temporary = some (.file stored))
    (apart : l.ctx.path ≠ l.ctx.temporary) (spare : l.ctx.path ≠ l.ctx.backup)
    (other : l.ctx.temporary ≠ l.ctx.backup) :
    Replaced i view (view l.disk) l.ctx stored (swapIn fs true l) := by
  unfold swapIn
  simp only [↓reduceIte]
  rcases rename_cases atomic l aside here with ⟨aside, zero⟩ | ⟨failed, bad⟩
  · rw [if_neg (not_not.mpr zero)]
    exact swapIn_aside atomic i (m := (l.rename fs l.ctx.path l.ctx.backup).2)
      (d := view l.disk) inside here node apart spare other aside
  · rw [if_pos bad]
    exact .refuse i bad failed node rfl

/-- Installing a staged upload succeeds, or leaves the destination as it was; only two failures in
a row can lose it. -/
theorem replaceDestination_replaced (known : namesOf l.ctx.path ⊆ N)
    (staged : Staged (view l.disk) i l.ctx stored)
    (target : (view l.disk).node l.ctx.path ≠ some .dir) :
    Replaced i view (view l.disk) { l.ctx with fileOpen := false } stored
      (replaceDestination fs i l) := by
  have visible := allowed_visible staged.allowed
  have apart := staged.temporary_ne visible
  have spare := staged.backup_ne visible
  have other := staged.backup_ne_temporary
  obtain ⟨token, -, backup⟩ := staged.names
  have saved : l.ctx.backup ∈ N := backup ▸ known (old_mem l.ctx.path token)
  unfold replaceDestination
  dsimp only
  rcases close_cases atomic i l with ⟨closed, zero⟩ | ⟨failed, bad⟩
  · rw [if_neg (not_not.mpr zero)]
    set m := (l.close fs i).2.set fun c => { c with fileOpen := false }
    have first : Touches i [] (view l.disk) (view m.disk) := by
      show Touches i [] (view l.disk) (view (l.close fs i).2.disk)
      rw [closed]
      exact ⟨fun _ _ => rfl, fun _ different => attach_other different _, Nat.le_refl _⟩
    have own : m.ctx.path ∈ N := known (path_mem _)
    have second := stat_touches atomic i m own
    have touches := first.trans second
    have node : (view (m.stat fs m.ctx.path).2.disk).node l.ctx.temporary =
        some (.file stored) := by
      rw [touches.node _ List.not_mem_nil]
      exact staged.node
    have lift {out : Int × Local cfg φ}
        (replaced : Replaced i view (view (m.stat fs m.ctx.path).2.disk)
          { l.ctx with fileOpen := false } stored out) :
        Replaced i view (view l.disk) { l.ctx with fileOpen := false } stored out := by
      have wide := touches.mono (List.nil_subset [l.ctx.temporary, l.ctx.backup, l.ctx.path])
      have more := touches.failures
      cases replaced with
      | installed within node ctx => exact .installed (wide.trans within) node ctx
      | kept bad within node failed staged ctx =>
        refine .kept bad (wide.trans within) ?_ (Nat.lt_of_le_of_lt more failed) staged ctx
        rcases node with same | lost
        · exact Or.inl (same.trans (touches.node _ List.not_mem_nil))
        · exact Or.inr (Nat.le_trans (Nat.add_le_add_right more 2) lost)
    apply lift
    rcases stat_tells atomic m own with truth | ⟨nothing, -⟩
    · cases found : (m.stat fs m.ctx.path).1 with
      | none => exact swapIn_fresh atomic i (m.stat fs m.ctx.path).2 own node apart
      | some entry =>
        rw [found, first.node _ List.not_mem_nil] at truth
        obtain ⟨old, here⟩ : ∃ old, (view l.disk).node l.ctx.path = some (.file old) := by
          cases inside : (view l.disk).node l.ctx.path with
          | none =>
            rw [show (view l.disk).node m.ctx.path = none from inside] at truth
            cases truth
          | some n =>
            cases n with
            | dir => exact absurd inside target
            | file old => exact ⟨old, rfl⟩
        have there := (touches.node _ List.not_mem_nil).trans here
        exact swapIn_over atomic i (m.stat fs m.ctx.path).2 own saved there node apart spare
          other
    · rw [nothing]
      exact swapIn_fresh atomic i (m.stat fs m.ctx.path).2 own node apart
  · rw [if_pos bad]
    exact .refuse i bad failed staged.node rfl

end Effects

end Webos.Adb.Sync
