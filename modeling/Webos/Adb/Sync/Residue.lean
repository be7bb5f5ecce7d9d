/- digest: What each part of the sync service leaves of the staging names in use. -/

import Webos.Adb.Sync.Boundaries
import Webos.Adb.Sync.Ownership

namespace Webos.Adb.Sync

open Webos.Lib.Files Webos.Lib.Program

variable {cfg : Config} {φ : Type}

/-- The names of an upload: those of a token drawn by now, free when the token was drawn, and held
by no other context. -/
structure Own (old taken : Set Path) (nonce : UInt32) (c : SyncContext cfg) : Prop where
  visible : ¬staging c.path
  named : ∃ token, token.toNat ≤ nonce.toNat ∧ c.temporary = partName c.path token ∧
    c.backup = oldName c.path token
  fresh : c.temporary ∉ old ∧ c.temporary ∉ taken ∧ c.backup ∉ old

/-- A context and the names in use: of the staging names these are the ones from before, the live
ones of the other contexts, and its own temporary while that is live. The contexts of the other
uploads hold the names `taken`, also where the file is gone. -/
structure Tidy (old others taken : Set Path) (now : Ledger Path) (nonce : UInt32)
    (c : SyncContext cfg) : Prop where
  counted : nonce.toNat ≤ now.looks
  inside : others ⊆ taken
  drawn : ∀ p ∈ taken, ∃ q token, token.toNat ≤ nonce.toNat ∧ p = partName q token
  exact : ∀ p, staging p →
    (p ∈ now.files ↔ p ∈ old ∨ p ∈ others ∨ c.temporaryLive = true ∧ p = c.temporary)
  parked : c.temporaryLive = true → c.state.sending = true
  own : c.state.sending = true → Own old taken nonce c

section Contexts

variable {old others taken : Set Path} {now now' : Ledger Path} {nonce nonce' : UInt32}
  {c c' : SyncContext cfg}

theorem Own.temporary_staging (own : Own old taken nonce c) : staging c.temporary := by
  obtain ⟨token, -, temporary, -⟩ := own.named
  exact temporary ▸ partName_staging _ _

theorem Own.temporary_ne (own : Own old taken nonce c) : c.temporary ≠ c.path :=
  fun same => own.visible (same ▸ own.temporary_staging)

theorem Own.backup_ne (own : Own old taken nonce c) : c.path ≠ c.backup := by
  obtain ⟨token, -, -, backup⟩ := own.named
  exact fun same => own.visible (same ▸ backup ▸ oldName_staging _ _)

theorem Own.apart (own : Own old taken nonce c) : c.temporary ≠ c.backup := by
  obtain ⟨token, -, temporary, backup⟩ := own.named
  rw [temporary, backup]
  exact partName_ne_oldName _ _ _ _

theorem Tidy.gone (tidy : Tidy old others taken now nonce c) (still : c.state.sending = false) :
    c.temporaryLive = false := by
  by_contra live
  cases still.symm.trans (tidy.parked (Bool.not_eq_false _ ▸ live))

theorem Tidy.known (tidy : Tidy old others taken now nonce c) (gone : c.temporaryLive = false)
    (p : Path) (mark : staging p) : p ∈ now.files ↔ p ∈ old ∨ p ∈ others := by
  have whole := tidy.exact p mark
  simpa only [gone, Bool.false_eq_true, false_and, or_false] using whole

theorem Tidy.missing (tidy : Tidy old others taken now nonce c) (sending : c.state.sending = true)
    (gone : c.temporaryLive = false) : c.temporary ∉ now.files := by
  have own := tidy.own sending
  intro inside
  rcases (tidy.known gone _ own.temporary_staging).mp inside with left | left
  · exact own.fresh.1 left
  · exact own.fresh.2.1 (tidy.inside left)

theorem Tidy.looked (tidy : Tidy old others taken now nonce c) (files : now'.files = now.files)
    (more : now.looks ≤ now'.looks) : Tidy old others taken now' nonce c :=
  { tidy with
    counted := tidy.counted.trans more
    exact := files ▸ tidy.exact }

theorem Tidy.moved (tidy : Tidy old others taken now nonce c)
    (live : c'.temporaryLive = c.temporaryLive) (temporary : c'.temporary = c.temporary)
    (path : c'.path = c.path) (backup : c'.backup = c.backup)
    (sending : c'.state.sending = c.state.sending) : Tidy old others taken now nonce c' := by
  refine ⟨tidy.counted, tidy.inside, tidy.drawn, ?_, ?_, fun busy => ?_⟩
  · rw [live, temporary]
    exact tidy.exact
  · rw [live, sending]
    exact tidy.parked
  · obtain ⟨visible, named, fresh⟩ := tidy.own (sending.symm.trans busy)
    refine ⟨path ▸ visible, ?_, ?_⟩
    · rw [temporary, path, backup]
      exact named
    · rw [temporary, backup]
      exact fresh

theorem Tidy.rest (tidy : Tidy old others taken now nonce c) (gone : c.temporaryLive = false)
    (files : now'.files = now.files) (later : nonce.toNat ≤ nonce'.toNat)
    (counted : nonce'.toNat ≤ now'.looks) (gone' : c'.temporaryLive = false)
    (still' : c'.state.sending = false) : Tidy old others taken now' nonce' c' := by
  refine ⟨counted, tidy.inside, fun p inside => ?_, fun p mark => ?_, fun live => ?_,
    fun busy => ?_⟩
  · obtain ⟨q, token, below, same⟩ := tidy.drawn p inside
    exact ⟨q, token, below.trans later, same⟩
  · rw [files, tidy.known gone p mark]
    simp only [gone', Bool.false_eq_true, false_and, or_false]
  · cases gone'.symm.trans live
  · cases still'.symm.trans busy

theorem Tidy.removed (tidy : Tidy old others taken now nonce c) (live : c.temporaryLive = true) :
    Tidy old others taken ⟨now.files \ {c.temporary}, now.looks⟩ nonce
      { c with temporaryLive := false } := by
  have own := tidy.own (tidy.parked live)
  refine ⟨tidy.counted, tidy.inside, tidy.drawn, fun p mark => ?_, (fun no => nomatch no),
    fun _ => ⟨own.visible, own.named, own.fresh⟩⟩
  have known := tidy.exact p mark
  simp only [live, true_and] at known
  simp only [Bool.false_eq_true, false_and, or_false, Set.mem_sdiff, Set.mem_singleton_iff, known]
  constructor
  · rintro ⟨left | left | same, other⟩
    · exact Or.inl left
    · exact Or.inr left
    · exact absurd same other
  · rintro (left | left)
    · exact ⟨Or.inl left, fun same => own.fresh.1 (same ▸ left)⟩
    · exact ⟨Or.inr (Or.inl left), fun same => own.fresh.2.1 (tidy.inside (same ▸ left))⟩

theorem Tidy.created (tidy : Tidy old others taken now nonce c) (gone : c.temporaryLive = false)
    (own : Own old taken nonce c') (live : c'.temporaryLive = true)
    (sending : c'.state.sending = true) :
    Tidy old others taken ⟨insert c'.temporary now.files, now.looks⟩ nonce c' := by
  refine ⟨tidy.counted, tidy.inside, tidy.drawn, fun p mark => ?_, fun _ => sending, fun _ => own⟩
  rw [Set.mem_insert_iff, tidy.known gone p mark, live]
  constructor
  · rintro (same | left | left)
    · exact Or.inr (Or.inr ⟨rfl, same⟩)
    · exact Or.inl left
    · exact Or.inr (Or.inl left)
  · rintro (left | left | ⟨-, same⟩)
    · exact Or.inr (Or.inl left)
    · exact Or.inr (Or.inr left)
    · exact Or.inl same

theorem Tidy.installed (tidy : Tidy old others taken now nonce c) (live : c.temporaryLive = true)
    (looks : now'.looks = now.looks) (after : ∀ p, p ≠ c.path → p ≠ c.backup →
      (p ∈ now'.files ↔ p ∈ now.files ∧ p ≠ c.temporary))
    (removed : c.backup ∈ now'.files → c.backup ∈ now.files) :
    Tidy old others taken now' nonce { c with temporaryLive := false } := by
  have less := tidy.removed live
  have own := tidy.own (tidy.parked live)
  obtain ⟨token, -, temporary, backup⟩ := own.named
  have mark' : staging c.backup := backup ▸ oldName_staging _ _
  have free : c.backup ∉ now.files := by
    intro inside
    rcases (tidy.exact _ mark').mp inside with left | left | ⟨-, same⟩
    · exact own.fresh.2.2 left
    · obtain ⟨q, t, -, part⟩ := tidy.drawn _ (tidy.inside left)
      exact partName_ne_oldName q c.path t token (part.symm.trans backup)
    · exact own.apart same.symm
  refine { less with counted := looks ▸ tidy.counted, exact := fun p mark => ?_ }
  rw [← less.exact p mark, Set.mem_sdiff, Set.mem_singleton_iff]
  by_cases there : p = c.backup
  · subst there
    exact ⟨fun inside => absurd (removed inside) free, fun inside => absurd inside.1 free⟩
  · exact after p (fun same => own.visible (same ▸ mark)) there

end Contexts

def partMarked (p : Path) : Bool := decide (partMark <:+: p)

section Calls

/-- What the files are judged by: when all is fine with the disk, what it holds, the names in use
before, and the live and the held names of the other contexts. -/
structure Account (φ : Type) where
  fine : φ → Prop
  view : φ → Ledger Path
  old : Set Path
  others : Set Path
  taken : Set Path

/-- The same of what a callback works on, as long as all is fine with the disk. -/
def Clean (a : Account φ) (l : Local cfg φ) : Prop :=
  a.fine l.disk → Tidy a.old a.others a.taken (a.view l.disk) l.sideNonce l.ctx

variable {a : Account φ} {fs : FileSystem Path (Slot cfg) UInt8 φ} {i : Slot cfg}
  {l l' : Local cfg φ}

theorem Clean.moved (clean : Clean a l) (disk : l'.disk = l.disk)
    (nonce : l'.sideNonce = l.sideNonce) (live : l'.ctx.temporaryLive = l.ctx.temporaryLive)
    (temporary : l'.ctx.temporary = l.ctx.temporary) (path : l'.ctx.path = l.ctx.path)
    (backup : l'.ctx.backup = l.ctx.backup)
    (sending : l'.ctx.state.sending = l.ctx.state.sending) :
    Clean a l' := by
  intro good
  rw [disk] at good ⊢
  rw [nonce]
  exact (clean good).moved live temporary path backup sending

theorem Clean.over (clean : Clean a l)
    (gone : l.ctx.temporaryLive = false) (disk : l'.disk = l.disk)
    (nonce : l'.sideNonce = l.sideNonce) (gone' : l'.ctx.temporaryLive = false)
    (still' : l'.ctx.state.sending = false) : Clean a l' := by
  intro good
  rw [disk] at good ⊢
  rw [nonce]
  exact (clean good).rest gone rfl le_rfl (clean good).counted gone' still'

theorem Clean.still (clean : Clean a l)
    (still : l.ctx.state.sending = false) (disk : l'.disk = l.disk)
    (nonce : l'.sideNonce = l.sideNonce) (live : l'.ctx.temporaryLive = l.ctx.temporaryLive)
    (still' : l'.ctx.state.sending = false) : Clean a l' := by
  intro good
  have gone := (clean (disk ▸ good)).gone still
  exact clean.over gone disk nonce (live.trans gone) still' good

variable (guarded : Guarded fs partMarked a.fine a.view)

include guarded

theorem Clean.stat (clean : Clean a l) (p : Path) :
    Clean a (l.stat fs p).2 := by
  intro good
  obtain ⟨before, files, looks, -⟩ := guarded.stat p l.disk good
  exact (clean before).looked files ((Nat.le_add_right _ _).trans_eq looks.symm)

theorem Clean.close (clean : Clean a l) :
    Clean a ((l.close fs i).2.set fun c => { c with fileOpen := false }) := by
  intro good
  obtain ⟨before, -, same⟩ := guarded.close i l.disk good
  show Tidy a.old a.others a.taken (a.view (fs.close i l.disk).2) l.sideNonce _
  rw [same]
  exact (clean before).moved rfl rfl rfl rfl rfl

theorem Clean.closePartial (clean : Clean a l) :
    Clean a (closePartial fs i l) := by
  unfold Sync.closePartial
  split_ifs
  · exact clean.close guarded
  · exact clean

theorem Clean.unlinkPartial (clean : Clean a l) :
    Clean a (unlinkPartial fs l) := by
  unfold Sync.unlinkPartial
  split_ifs with live
  · intro good
    obtain ⟨before, looks, files⟩ := guarded.unlink l.ctx.temporary l.disk good
    exact ((clean before).removed live).looked files looks.ge
  · exact clean

theorem Clean.cleanupPartial (clean : Clean a l) :
    Clean a (cleanupPartial fs i l) :=
  (clean.closePartial guarded).unlinkPartial guarded

/-- What the search for staging names leaves: the same files, and two free names with a new token
if it succeeds. -/
structure Picked (a : Account φ) (l : Local cfg φ) (out : Int × Local cfg φ) : Prop where
  before : a.fine l.disk
  files : (a.view out.2.disk).files = (a.view l.disk).files
  path : out.2.ctx.path = l.ctx.path
  live : out.2.ctx.temporaryLive = l.ctx.temporaryLive
  state : out.2.ctx.state = l.ctx.state
  later : l.sideNonce.toNat ≤ (a.view l.disk).looks →
    l.sideNonce.toNat ≤ out.2.sideNonce.toNat ∧ out.2.sideNonce.toNat ≤ (a.view out.2.disk).looks
  free : l.sideNonce.toNat ≤ (a.view l.disk).looks → out.1 = 0 → ∃ token,
    l.sideNonce.toNat < token.toNat ∧ token.toNat ≤ out.2.sideNonce.toNat ∧
    out.2.ctx.temporary = partName l.ctx.path token ∧ out.2.ctx.backup = oldName l.ctx.path token ∧
    out.2.ctx.temporary ∉ (a.view l.disk).files ∧ out.2.ctx.backup ∉ (a.view l.disk).files

omit guarded in
theorem Picked.later_than {out : Int × Local cfg φ} (picked : Picked a l' out)
    (before : a.fine l.disk) (files : (a.view l'.disk).files = (a.view l.disk).files)
    (path : l'.ctx.path = l.ctx.path) (live : l'.ctx.temporaryLive = l.ctx.temporaryLive)
    (state : l'.ctx.state = l.ctx.state) (drawn : l.sideNonce.toNat ≤ (a.view l.disk).looks →
      l.sideNonce.toNat < l'.sideNonce.toNat ∧ l'.sideNonce.toNat ≤ (a.view l'.disk).looks) :
    Picked a l out := by
  refine ⟨before, picked.files.trans files, picked.path.trans path, picked.live.trans live,
    picked.state.trans state, fun counted => ?_, fun counted zero => ?_⟩
  · obtain ⟨more, counted'⟩ := drawn counted
    obtain ⟨later, final⟩ := picked.later counted'
    exact ⟨more.le.trans later, final⟩
  · obtain ⟨more, counted'⟩ := drawn counted
    obtain ⟨token, new, names⟩ := picked.free counted' zero
    rw [← files, ← path]
    exact ⟨token, more.trans new, names⟩

variable (few : ∀ x, a.fine x → (a.view x).looks < 2 ^ 32)

include few

theorem draw_counted {p : Path} (marked : partMarked p = true) (good : a.fine (fs.stat p l.disk).2)
    (counted : l.sideNonce.toNat ≤ (a.view l.disk).looks) :
    (l.sideNonce + 1).toNat = l.sideNonce.toNat + 1 ∧
      (l.sideNonce + 1).toNat ≤ (a.view (fs.stat p l.disk).2).looks := by
  have bound := few _ good
  obtain ⟨-, -, looks, -⟩ := guarded.stat p l.disk good
  rw [marked] at looks
  change _ = _ + 1 at looks
  have sum : (l.sideNonce + 1).toNat = l.sideNonce.toNat + 1 := by
    rw [UInt32.toNat_add]
    exact Nat.mod_eq_of_lt (by change l.sideNonce.toNat + 1 < 2 ^ 32; omega)
  exact ⟨sum, by omega⟩

theorem chooseAttempts_picked (attempts : Nat) (short : l.ctx.path.length < cfg.syncPathMax)
    (good : a.fine (chooseAttempts fs attempts l).2.disk) :
    Picked a l (chooseAttempts fs attempts l) := by
  induction attempts generalizing l with
  | zero =>
    exact ⟨good, rfl, rfl, rfl, rfl, fun counted => ⟨le_rfl, counted⟩,
      fun _ no => absurd no (show ¬-EEXIST = 0 by decide)⟩
  | succ attempts ih =>
    have fits := partName_length short (l.sideNonce + 1)
    have fits' := oldName_length short (l.sideNonce + 1)
    have whole := List.take_of_length_le (Nat.le_sub_one_of_lt fits)
    have whole' := List.take_of_length_le (Nat.le_sub_one_of_lt fits')
    have marked : partMarked (partName l.ctx.path (l.sideNonce + 1)) = true :=
      decide_eq_true ⟨l.ctx.path, hex8 _, rfl⟩
    unfold chooseAttempts at good ⊢
    dsimp only [Local.set] at good ⊢
    rw [if_neg (Nat.not_le.mpr fits), if_neg (Nat.not_le.mpr fits'), whole, whole'] at good ⊢
    -- the disk after the first look and after both
    generalize part : partName l.ctx.path (l.sideNonce + 1) = temporary at good marked ⊢
    generalize old : oldName l.ctx.path (l.sideNonce + 1) = backup at good ⊢
    have first (good : a.fine (fs.stat temporary l.disk).2) := guarded.stat temporary l.disk good
    have second (good : a.fine (fs.stat backup (fs.stat temporary l.disk).2).2) :=
      guarded.stat backup (fs.stat temporary l.disk).2 good
    have drawn (good : a.fine (fs.stat temporary l.disk).2) :=
      draw_counted (l := l) guarded few marked good
    split_ifs at good ⊢ with taken taken'
    · have picked := ih (by exact short) good
      obtain ⟨before, files, -, -⟩ := first picked.before
      refine picked.later_than before files rfl rfl rfl fun counted => ?_
      obtain ⟨sum, counted'⟩ := drawn picked.before counted
      exact ⟨(Nat.lt_succ_self _).trans_eq sum.symm, counted'⟩
    · have picked := ih (by exact short) good
      obtain ⟨between, files', looks', -⟩ := second picked.before
      obtain ⟨before, files, -, -⟩ := first between
      refine picked.later_than before (files'.trans files) rfl rfl rfl fun counted => ?_
      obtain ⟨sum, counted'⟩ := drawn between counted
      exact ⟨(Nat.lt_succ_self _).trans_eq sum.symm, counted'.trans
        ((Nat.le_add_right _ _).trans_eq looks'.symm)⟩
    · obtain ⟨between, files', looks', free'⟩ := second good
      obtain ⟨before, files, -, free⟩ := first between
      refine ⟨before, files'.trans files, rfl, rfl, rfl, fun counted => ?_, fun counted _ => ?_⟩
      all_goals obtain ⟨sum, counted'⟩ := drawn between counted
      · exact ⟨(Nat.le_succ _).trans_eq sum.symm, counted'.trans
          ((Nat.le_add_right _ _).trans_eq looks'.symm)⟩
      · refine ⟨l.sideNonce + 1, by omega, le_rfl, part.symm, old.symm,
          free (Bool.not_eq_true _ ▸ taken), files ▸ free' (Bool.not_eq_true _ ▸ taken')⟩

theorem stageSend_clean (clean : Clean a l)
    (still : l.ctx.state.sending = false) (allowed : syncPathAllowed cfg l.ctx.path = true) :
    Clean a (stageSend fs i l).2 := by
  have picked := chooseAttempts_picked guarded few 32 (allowed_short allowed)
  unfold stageSend chooseSidePaths
  generalize chooseAttempts fs 32 l = out at picked
  obtain ⟨ret, m⟩ := out
  have clean' : Clean a m := by
    intro good
    have picked := picked good
    have tidy := clean picked.before
    have gone := tidy.gone still
    obtain ⟨later, counted⟩ := picked.later tidy.counted
    exact tidy.rest gone picked.files later counted (picked.live.trans gone) (picked.state ▸ still)
  have looked := clean'.stat guarded m.ctx.path
  dsimp only
  by_cases failed : ret ≠ 0
  · rw [if_pos failed]
    exact clean'
  · rw [if_neg failed]
    split_ifs with isDir refused
    · exact looked
    all_goals
      intro good
      obtain ⟨before, looks, made⟩ :=
        guarded.create i m.ctx.temporary (m.stat fs m.ctx.path).2.disk good
    · exact (looked before).looked (made.trans (if_neg refused)) looks.ge
    · have files := made.trans (if_pos (not_not.mp refused))
      obtain ⟨between, -⟩ := guarded.stat m.ctx.path m.disk before
      have picked := picked between
      have tidy := clean picked.before
      have gone := tidy.gone still
      obtain ⟨token, new, below, temporary, backup, free, free'⟩ :=
        picked.free tidy.counted (not_not.mp failed)
      have mark : staging m.ctx.temporary := temporary ▸ partName_staging _ _
      have mark' : staging m.ctx.backup := backup ▸ oldName_staging _ _
      have own : Own a.old a.taken m.sideNonce
          { m.ctx with fileOpen := true, temporaryLive := true, state := .sendHeader } := by
        refine ⟨?_, ⟨token, below, ?_, ?_⟩, fun left => ?_, fun left => ?_, fun left => ?_⟩
        · exact picked.path ▸ allowed_visible allowed
        · exact temporary.trans (congrArg (partName · token) picked.path.symm)
        · exact backup.trans (congrArg (oldName · token) picked.path.symm)
        · exact free ((tidy.known gone _ mark).mpr (Or.inl left))
        · obtain ⟨q, t, drawn, same⟩ := tidy.drawn _ left
          obtain ⟨-, rfl⟩ := partName_inj (temporary.symm.trans same)
          omega
        · exact free' ((tidy.known gone _ mark').mpr (Or.inl left))
      exact ((looked before).created (picked.live.trans gone) own rfl rfl).looked files looks.ge

theorem prepareSend_clean (clean : Clean a l)
    (still : l.ctx.state.sending = false) :
    Clean a (prepareSend fs i l).2 := by
  unfold prepareSend
  split_ifs
  · exact clean
  · split
    · exact clean
    · rename_i path mode _
      have cut : Clean a
          (l.set fun c => { c with spec := path ++ 0 :: mode }) :=
        clean.still still rfl rfl rfl still
      split_ifs with empty unparsed irregular outside
      · exact clean
      · exact cut
      · exact cut
      · exact cut
      · refine stageSend_clean guarded few (cut.still still rfl rfl rfl still) still ?_
        simp only [Bool.or_eq_true, Bool.not_eq_true', not_or, Bool.not_eq_false] at outside
        exact outside.1

omit few

theorem swapIn_clean (clean : Clean a l)
    (sending : l.ctx.state.sending = true) (hadDestination : Bool) :
    Clean a (swapIn fs hadDestination l).2 := by
  unfold swapIn
  cases hadDestination with
  | false =>
    simp only [Bool.false_eq_true, ↓reduceIte, ne_eq, not_true_eq_false]
    split_ifs with done
    all_goals
      intro good
      obtain ⟨before, zero, looks, moved⟩ := guarded.rename l.ctx.temporary l.ctx.path l.disk good
    · have tidy := clean before
      have own := tidy.own sending
      obtain ⟨there, files⟩ := moved own.temporary_ne
      have live : l.ctx.temporaryLive = true := by
        by_contra gone
        exact tidy.missing sending (Bool.not_eq_true _ ▸ gone) there
      refine tidy.installed live looks (fun p other _ => ?_) fun inside => ?_
      · refine (Set.ext_iff.mp files p).trans ?_
        simp [other]
      · rcases (Set.ext_iff.mp files l.ctx.backup).mp inside with same | inside
        · exact absurd same.symm own.backup_ne
        · exact inside.1
    · exact absurd zero done
  | true =>
    simp only [↓reduceIte]
    split_ifs with aside failed
    all_goals intro good
    · exact absurd (guarded.rename l.ctx.path l.ctx.backup l.disk good).2.1 aside
    · obtain ⟨between, -⟩ := guarded.rename _ _ _ good
      exact absurd (guarded.rename _ _ _ between).2.1 failed
    · obtain ⟨second, looks'', less⟩ := guarded.unlink _ _ good
      obtain ⟨first, -, looks', moved⟩ := guarded.rename _ _ _ second
      obtain ⟨before, -, looks, saved⟩ := guarded.rename _ _ _ first
      have tidy := clean before
      have own := tidy.own sending
      obtain ⟨-, files⟩ := saved own.backup_ne
      obtain ⟨there, files'⟩ := moved own.temporary_ne
      have live : l.ctx.temporaryLive = true := by
        by_contra gone
        rcases (Set.ext_iff.mp files l.ctx.temporary).mp there with same | inside
        · exact own.apart same
        · exact tidy.missing sending (Bool.not_eq_true _ ▸ gone) inside.1
      have final := less.trans (congrArg (· \ {l.ctx.backup}) (files'.trans
        (congrArg (fun s => insert l.ctx.path (s \ {l.ctx.temporary})) files)))
      refine tidy.installed live (looks''.trans (looks'.trans looks)) (fun p other other' => ?_)
        fun inside => ?_
      · refine (Set.ext_iff.mp final p).trans ?_
        simp [other, other']
      · exact absurd rfl ((Set.ext_iff.mp final l.ctx.backup).mp inside).2

theorem replaceDestination_clean (clean : Clean a l)
    (sending : l.ctx.state.sending = true) :
    Clean a (replaceDestination fs i l).2 := by
  have closed := clean.close guarded (i := i)
  unfold replaceDestination
  dsimp only
  split_ifs
  · exact closed
  · exact swapIn_clean guarded (closed.stat guarded l.ctx.path) sending _

end Calls

section Passes

variable {a : Account φ} {fs : FileSystem Path (Slot cfg) UInt8 φ} {i : Slot cfg}

def Resting (a : Account φ) (l : Local cfg φ) : Prop := Clean a l ∧ l.ctx.state.sending = false

def Uploading (a : Account φ) (l : Local cfg φ) : Prop := Clean a l ∧ l.ctx.state.sending = true

variable {l l' : Local cfg φ}

theorem Resting.moved (resting : Resting a l) (disk : l'.disk = l.disk)
    (nonce : l'.sideNonce = l.sideNonce) (live : l'.ctx.temporaryLive = l.ctx.temporaryLive)
    (still : l'.ctx.state.sending = false) : Resting a l' :=
  ⟨resting.1.still resting.2 disk nonce live still, still⟩

theorem processRequest_ensures (id value : UInt32) : Routine.Ensures (Resting a)
    (fun _ => Resting a) (processRequest id value : Run cfg φ Int) := by
  refine .ite (fun _ => ?_) fun _ => .ite (fun _ => ?_) fun _ => ?_
  · exact .returns (hangUp_ensures _)
  · refine .returns (.update fun l resting => resting.moved rfl rfl rfl ?_)
    split_ifs <;> rfl
  · refine .bind _ (respond_ensures _ _) fun ret => .ite (fun _ => .pure fun _ held => held)
      fun _ => ?_
    exact .bind (fun _ => Resting a) (.update fun l resting => resting.moved rfl rfl rfl rfl)
      fun _ => .returns (hangUp_ensures _)

theorem processDrain_ensures (id value : UInt32) : Routine.Ensures (Resting a)
    (fun _ => Resting a) (processDrain id value : Run cfg φ Int) := by
  refine .ite (fun _ => ?_) fun _ => .ite (fun _ => ?_) fun _ => ?_
  · exact .returns (.update fun l resting => resting.moved rfl rfl rfl rfl)
  · exact .returns (hangUp_ensures _)
  · refine .returns (.update fun l resting => resting.moved rfl rfl rfl ?_)
    split_ifs <;> rfl

variable (data : List UInt8)

theorem drainPass_ensures : Routine.Ensures (Resting a) (fun _ => Resting a)
    (drainPass data : Run cfg φ _) := by
  refine .read fun l held => .bind (fun _ => Resting a) (.update fun t same => ?_) fun _ =>
    .ite (fun _ => .ite (fun _ => ?_) fun _ => ?_) fun _ => .pure fun _ => id
  · subst same
    exact held.moved rfl rfl rfl held.2
  · exact .returns (hangUp_ensures _)
  · exact .returns (.update fun l resting => resting.moved rfl rfl rfl rfl)

variable (guarded : Guarded fs partMarked a.fine a.view)

include guarded

theorem failTransfer_ensures (reason : List UInt8) {drainState : SyncState}
    (drains : drainState.sending = false) :
    Routine.Ensures (Clean a) (fun _ => Clean a) (failTransfer fs i reason drainState) := by
  refine .bind (fun _ l => Clean a l ∧ l.ctx.temporaryLive = false)
    (.update fun l clean => ⟨clean.cleanupPartial guarded, ?_⟩) fun _ => ?_
  · rw [cleanupPartial_ctx]
  · refine .bind _ (respond_ensures _ _) fun ret => .ite (fun _ => .pure fun l kept => kept.1)
      fun _ => .returns (.update fun l kept => ?_)
    exact kept.1.over kept.2 rfl rfl kept.2 drains

theorem sendStat_ensures :
    Routine.Ensures (Resting a) (fun _ => Clean a) (sendStat fs : Run cfg φ Int) := by
  refine .bind (fun _ => Resting a) (.step fun l resting => ?_) fun entry => ?_
  · unfold findEntry
    split_ifs
    · exact ⟨resting.1.stat guarded _, resting.2⟩
    · exact resting
  · exact .bind (fun _ => Resting a) (.update fun l resting => resting.moved rfl rfl rfl rfl)
      fun _ => (respond_ensures _ _).narrow fun _ resting => resting.1

theorem finishSend_ensures :
    Routine.Ensures (Uploading a) (fun _ => Clean a) (finishSend fs i) := by
  refine .bind (fun ret l => Clean a l ∧ (ret = 0 → l.ctx.temporaryLive = false))
    (.step fun l uploading => ?_) fun ret => .ite (fun failed => ?_) fun done => ?_
  · exact ⟨replaceDestination_clean guarded uploading.1 uploading.2,
      fun done => (replaceDestination_released fs i l done).2⟩
  · exact (failTransfer_ensures guarded _ rfl).narrow fun l kept => kept.1
  · refine .bind _ (respond_ensures _ _) fun ret' => .ite (fun _ => ?_) fun _ =>
      .pure fun l kept => kept.1
    refine .returns (.update fun l kept => ?_)
    have gone := kept.2 (not_not.mp done)
    exact kept.1.over gone rfl rfl gone rfl

theorem processRecord_ensures (id value : UInt32) :
    Routine.Ensures (Uploading a) (fun _ => Clean a) (processRecord fs i id value) := by
  refine .ite (fun _ => finishSend_ensures guarded) fun _ => .ite (fun _ => ?_) fun _ => ?_
  · exact .bind (fun _ => Clean a)
      ((failTransfer_ensures guarded _ rfl).narrow fun l uploading => uploading.1)
      fun ret => .returns (hangUp_ensures _)
  · refine .returns (.update fun l uploading => uploading.1.moved rfl rfl rfl rfl rfl rfl ?_)
    rw [uploading.2]
    split_ifs <;> rfl

theorem storeData_ensures (chunk : List UInt8) (left : Nat) :
    Routine.Ensures (Uploading a) (fun _ => Clean a) (storeData fs i chunk left) := by
  refine .bind (fun _ => Uploading a) (.step fun l uploading => ⟨fun good => ?_, uploading.2⟩)
    fun written => .bind (fun _ => Uploading a) (.update fun l uploading => ?_)
      fun _ => .ite (fun _ => ?_) fun _ => .ite (fun _ => ?_) fun _ => ?_
  · obtain ⟨before, same⟩ := guarded.write i chunk l.disk good
    show Tidy a.old a.others a.taken (a.view (fs.write i chunk l.disk).2) l.sideNonce l.ctx
    rw [same]
    exact uploading.1 before
  · exact ⟨uploading.1.moved rfl rfl rfl rfl rfl rfl rfl, uploading.2⟩
  · refine .bind (fun _ => Clean a) ((failTransfer_ensures guarded _ ?_).narrow
      fun l uploading => uploading.1) fun ret => .ite (fun _ => .pure fun _ => id)
        fun _ => .pure fun _ => id
    split_ifs <;> rfl
  · refine .returns (.update fun l uploading => ?_)
    exact uploading.1.moved rfl rfl rfl rfl rfl rfl uploading.2.symm
  · exact .pure fun l uploading => uploading.1

variable (few : ∀ x, a.fine x → (a.view x).looks < 2 ^ 32)

include few

theorem startSend_ensures :
    Routine.Ensures (Resting a) (fun _ => Clean a) (startSend fs i) := by
  refine .bind (fun _ => Clean a)
    (.step fun l resting => prepareSend_clean guarded few resting.1 resting.2) fun refused => ?_
  cases refused with
  | some reason => exact failTransfer_ensures guarded reason rfl
  | none => exact .pure fun _ => id

theorem specPass_ensures :
    Routine.Ensures (Resting a) (fun _ => Clean a) (specPass fs i data) := by
  refine .read fun l held => .bind (fun _ => Resting a) (.update fun t same => ?_) fun _ =>
    .ite (fun _ => .ite (fun _ => ?_) fun _ => ?_) fun _ => .pure fun l resting => resting.1
  · subst same
    exact held.moved rfl rfl rfl held.2
  · exact .bind _ (sendStat_ensures guarded) fun _ => .pure fun _ => id
  · exact .bind _ (startSend_ensures guarded few) fun _ => .pure fun _ => id

omit few in
theorem headerPass_ensures {state : SyncState}
    (header : state = .requestHeader ∨ state = .sendHeader ∨ state = .drainHeader) :
    Routine.Ensures (fun l => Clean a l ∧ l.ctx.state = state) (fun _ => Clean a)
      (headerPass fs i data) := by
  have processed : Routine.Ensures (fun l => Clean a l ∧ l.ctx.state = state) (fun _ => Clean a)
      (processHeader fs i) := by
    refine .read fun l held => .sets ?_
    have clean : Clean a (l.set fun c => { c with header := [] }) :=
      held.1.moved rfl rfl rfl rfl rfl rfl rfl
    rw [held.2]
    rcases header with rfl | rfl | rfl
    · exact ((processRequest_ensures _ _).weaken (fun _ => id) fun _ _ resting =>
        resting.1).start ⟨clean, congrArg SyncState.sending held.2⟩
    · exact (processRecord_ensures guarded _ _).start ⟨clean, congrArg SyncState.sending held.2⟩
    · exact ((processDrain_ensures _ _).weaken (fun _ => id) fun _ _ resting =>
        resting.1).start ⟨clean, congrArg SyncState.sending held.2⟩
  refine .read fun l held => .sets (.ite (fun _ => ?_) fun _ => .pure fun t same => ?_)
  · exact .bind _ (processed.start ⟨held.1.moved rfl rfl rfl rfl rfl rfl rfl, held.2⟩)
      fun _ => .pure fun _ => id
  · subst same
    exact held.1.moved rfl rfl rfl rfl rfl rfl rfl

theorem syncPass_ensures :
    Routine.Ensures (Clean a) (fun _ => Clean a) (syncPass fs i data) := by
  have drain : Routine.Ensures (Resting a) (fun _ => Clean a) (drainPass data : Run cfg φ _) :=
    (drainPass_ensures data).weaken (fun _ => id) fun _ _ resting => resting.1
  refine .read fun l clean => ?_
  cases state : l.ctx.state with
  | requestHeader => exact (headerPass_ensures data guarded (.inl rfl)).start ⟨clean, state⟩
  | sendHeader => exact (headerPass_ensures data guarded (.inr (.inl rfl))).start ⟨clean, state⟩
  | drainHeader => exact (headerPass_ensures data guarded (.inr (.inr rfl))).start ⟨clean, state⟩
  | requestSpec => exact (specPass_ensures data guarded few).start ⟨clean, state ▸ rfl⟩
  | statPath => exact (specPass_ensures data guarded few).start ⟨clean, state ▸ rfl⟩
  | sendData =>
    exact .read fun _ same => .bind _ ((storeData_ensures guarded _ _).start
      (same ▸ ⟨clean, state ▸ rfl⟩)) fun _ => .pure fun _ => id
  | drainData => exact drain.start ⟨clean, state ▸ rfl⟩
  | discardAndClose =>
    exact .ite (fun _ => .pure fun t same => same ▸ clean) fun _ => drain.start ⟨clean, state ▸ rfl⟩

theorem syncLoop_ensures (passes : Nat) (data : List UInt8) :
    Routine.Ensures (Clean a) (fun _ => Clean a) (syncLoop fs i passes data) := by
  induction passes generalizing data with
  | zero => exact .pure fun _ => id
  | succ passes ih =>
    refine .ite (fun _ => .pure fun _ => id) fun _ => .bind _ (syncPass_ensures data guarded few)
      fun out => ?_
    obtain ⟨_ | ret, rest⟩ := out
    · exact ih rest
    · exact .pure fun _ => id

end Passes

end Webos.Adb.Sync
