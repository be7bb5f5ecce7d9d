/- digest: Request boundaries follow from the wire alone as long as completed uploads install. -/

import Webos.Adb.Sync.Replies

namespace Webos.Adb.Sync

open Webos.Lib.Files Webos.Lib.Fragment Webos.Lib.Program

variable {cfg : Config} {φ ρ : Type}

/-- A call of `sync_write` for one context: the data, and the token counter, the file system and
the router as the rest of the device has left them since the call before. -/
structure Call (φ ρ : Type) where
  sideNonce : UInt32
  disk : φ
  host : ρ
  data : List UInt8

/-- A moment between two passes: what the call still holds, what later calls bring, and the
service. -/
structure Moment (cfg : Config) (φ : Type) where
  left : List UInt8
  ahead : List UInt8
  now : Local cfg φ

section Calls

variable (fs : FileSystem Path (Slot cfg) UInt8 φ) (i : Slot cfg) (h : Host cfg ρ)

def Call.start (call : Call φ ρ) (c : SyncContext cfg) : Local cfg φ :=
  ⟨c, call.sideNonce, call.disk⟩

def Call.run (call : Call φ ρ) (c : SyncContext cfg) : Int × Local cfg φ × ρ :=
  (syncLoop fs i (call.data.length + 1) call.data).exec h (call.start c) call.host

def sent (calls : List (Call φ ρ)) : List UInt8 := (calls.map Call.data).flatten

def callReturns : SyncContext cfg → List (Call φ ρ) → List Int
  | _, [] => []
  | c, call :: calls =>
    (call.run fs i h c).1 :: callReturns (call.run fs i h c).2.1.ctx calls

def callMoments : SyncContext cfg → List (Call φ ρ) → List (Moment cfg φ)
  | _, [] => []
  | c, call :: calls =>
    (moments (servePass fs i h) (call.data.length + 1) call.data (call.start c, call.host)).map
        (fun m => ⟨m.1, sent calls, m.2.1⟩) ++
      callMoments (call.run fs i h c).2.1.ctx calls

end Calls

section Boundaries

variable {fs : FileSystem Path (Slot cfg) UInt8 φ} {i : Slot cfg} {h : Host cfg ρ}
variable {requests : List Request}

def Reads (requests : List Request) (c : SyncContext cfg) (rest : List UInt8) : Prop :=
  ∃ todo paid received, Expects c rest todo paid received ∧ todo <:+ requests

private theorem pass_reads (queued : ∀ stream generation data r,
      (h (.write stream generation data) r).1 = 0)
    (formed : ∀ q ∈ requests, q.WellFormed cfg) (future : List UInt8) {data : List UInt8}
    {w : Local cfg φ × ρ} (more : data ≠ []) (reads : Reads requests w.1.ctx (data ++ future))
    (installs : closesUpload w.1.ctx data → w.1.installs fs i) :
    Advances (servePass fs i h) (fun data w => Reads requests w.1.ctx (data ++ future))
      (fun _ _ => False) data w := by
  obtain ⟨todo, paid, received, expects, suffix⟩ := reads
  have served := serve (h := h) (r := w.2) fs i expects
    (fun q member => formed q (suffix.subset member)) more installs
  unfold Advances servePass
  generalize (syncPass fs i data).exec h w.1 w.2 = out at served
  cases served with
  | quiet shorter stream expects' owed inside =>
    exact ⟨shorter, _, _, _, expects', inside.trans suffix⟩
  | answered shorter stream answers accepted expects' owed inside =>
    exact ⟨shorter, _, _, _, expects', inside.trans suffix⟩
  | refused answers owed busy bad => exact absurd (queued _ _ _ _) busy

variable {c : SyncContext cfg}

private theorem call_reads
    (queued : ∀ stream generation data r, (h (.write stream generation data) r).1 = 0)
    (formed : ∀ q ∈ requests, q.WellFormed cfg) {future : List UInt8} {call : Call φ ρ}
    (reads : Reads requests c (call.data ++ future))
    (installs : ∀ m ∈ moments (servePass fs i h) (call.data.length + 1) call.data
      (call.start c, call.host), closesUpload m.2.1.ctx m.1 → m.2.1.installs fs i) :
    (∀ m ∈ moments (servePass fs i h) (call.data.length + 1) call.data (call.start c, call.host),
      Reads requests m.2.1.ctx (m.1 ++ future)) ∧
    (call.run fs i h c).1 = 0 ∧ Reads requests (call.run fs i h c).2.1.ctx future := by
  obtain ⟨every, final⟩ := loop_rule
    (fun data w more reads installs => pass_reads queued formed future more reads installs)
    (Nat.le_succ _) reads installs
  refine ⟨every, ?_⟩
  unfold Call.run
  rw [exec_syncLoop]
  generalize loop (servePass fs i h) (call.data.length + 1) call.data
    (call.start c, call.host) = out
    at final ⊢
  obtain ⟨_ | ret, l, r⟩ := out
  · exact ⟨rfl, final.1⟩
  · exact absurd final not_false

private theorem wires_apart {a b : List Request} {q : Request} (first : a <:+ requests)
    (second : q :: b <:+ requests) :
    (wires a).length ≤ (wires b).length ∨ (wires (q :: b)).length ≤ (wires a).length := by
  have grows {x y : List Request} (suffix : x <:+ y) : (wires x).length ≤ (wires y).length := by
    obtain ⟨front, rfl⟩ := suffix
    simp [wires]
  rcases List.suffix_or_suffix_of_suffix first second with inside | inside
  · rcases List.suffix_cons_iff.mp inside with same | inside
    · rw [same]
      exact Or.inr (Nat.le_refl _)
    · exact Or.inl (grows inside)
  · exact Or.inr (grows inside)

private theorem reads_boundary {rest : List UInt8} {later : List Request}
    (reads : Reads requests c rest) (suffix : later <:+ requests) (whole : rest = wires later) :
    c.state = .requestHeader ∧ c.headerUsed = 0 := by
  obtain ⟨todo, paid, received, expects, inside⟩ := reads
  obtain ⟨open', start⟩ := expects.span
  have ahead : (wires todo).length ≤ rest.length := by
    cases todo with
    | nil => exact Nat.zero_le _
    | cons q todo =>
      have started := open' q todo rfl
      rw [whole] at started ⊢
      rcases wires_apart suffix inside with before | after
      · omega
      · exact after
  rcases start with ⟨state, total⟩ | inner
  · exact ⟨state, by unfold SyncContext.headerUsed; omega⟩
  · omega

private theorem calls_read
    (queued : ∀ stream generation data r, (h (.write stream generation data) r).1 = 0)
    (formed : ∀ q ∈ requests, q.WellFormed cfg) (unsent : List UInt8) {calls : List (Call φ ρ)}
    (reads : Reads requests c (sent calls ++ unsent)) (installs : ∀ m ∈ callMoments fs i h c calls,
      closesUpload m.now.ctx m.left → m.now.installs fs i) :
    (∀ ret ∈ callReturns fs i h c calls, ret = 0) ∧ ∀ m ∈ callMoments fs i h c calls,
        Reads requests m.now.ctx (m.left ++ m.ahead ++ unsent) := by
  induction calls generalizing c with
  | nil => exact ⟨fun ret member => (nomatch member), fun m member => (nomatch member)⟩
  | cons call calls ih =>
    have split : Reads requests c (call.data ++ (sent calls ++ unsent)) := by
      rw [← List.append_assoc]
      exact reads
    obtain ⟨during, ret, after⟩ := call_reads queued formed split fun m member =>
      installs ⟨m.1, sent calls, m.2.1⟩ (List.mem_append_left _ (List.mem_map.mpr ⟨m, member, rfl⟩))
    obtain ⟨returns, later⟩ := ih after fun m member => installs m (List.mem_append_right _ member)
    refine ⟨fun x member => ?_, fun m member => ?_⟩
    · rcases List.mem_cons.mp member with rfl | member
      · exact ret
      · exact returns x member
    · rcases List.mem_append.mp member with here | there
      · obtain ⟨m, inside, rfl⟩ := List.mem_map.mp here
        rw [List.append_assoc]
        exact during m inside
      · exact later m there

/-- Requests keep their boundaries: as long as the file system accepts the close and the renames
with which a completed upload is installed, every call returns 0, and whenever whole requests have
been read the context waits for the header of the next one. -/
theorem requests_keep_boundaries (queued : ∀ stream generation data r,
      (h (.write stream generation data) r).1 = 0)
    {c : SyncContext cfg} (idle : c.state = .requestHeader) (fresh : c.headerUsed = 0)
    (formed : ∀ q ∈ requests, q.WellFormed cfg) {calls : List (Call φ ρ)} {unsent : List UInt8}
    (bytes : sent calls ++ unsent = wires requests)
    (installs : ∀ m ∈ callMoments fs i h c calls,
      closesUpload m.now.ctx m.left → m.now.installs fs i) :
    (∀ ret ∈ callReturns fs i h c calls, ret = 0) ∧
      ∀ m ∈ callMoments fs i h c calls, ∀ later, later <:+ requests →
        m.left ++ m.ahead ++ unsent = wires later →
        m.now.ctx.state = .requestHeader ∧ m.now.ctx.headerUsed = 0 := by
  have empty : c.header = [] := List.length_eq_zero_iff.mp fresh
  have start : Reads requests c (sent calls ++ unsent) := by
    refine ⟨requests, false, [], .idle idle ?_ ?_, List.suffix_rfl⟩
    · rw [empty]
      exact header_pos
    · rw [empty]
      exact bytes
  obtain ⟨returns, reads⟩ := calls_read queued formed unsent start installs
  exact ⟨returns, fun m member later suffix whole =>
    reads_boundary (reads m member) suffix whole⟩

end Boundaries

section Samples

def obliging (cfg : Config) : Host cfg Unit
  | .write _ _ _, r => (0, r)
  | .close _ _, r => ((), r)
  | .generation _, r => (0, r)
  | .maxPayload _, r => (0, r)

def pushThenStat : List Request :=
  [.send ⟨ascii "/STORAGE:/a,33188", [[1, 2], [3]], .done 0⟩, .stat (ascii "/STORAGE:/")]

theorem pushThenStat_formed : ∀ q ∈ pushThenStat, q.WellFormed Config.project := by
  intro q member
  simp only [pushThenStat, List.mem_cons, List.not_mem_nil, or_false] at member
  rcases member with rfl | rfl
  · exact ⟨⟨by decide, by decide, trivial⟩, by decide, 0, rfl⟩
  · exact ⟨⟨by decide, trivial⟩, by decide, trivial⟩

abbrev SampleDisk : Type := Disk Path (Slot Config.project) UInt8

def blank : SampleDisk := ⟨fun _ => none, fun _ => none, 0⟩

/-- The requests in two calls with nothing in between, the first one ending inside the DONE. -/
def sampleCalls (fs : FileSystem Path (Slot Config.project) UInt8 SampleDisk) :
    List (Call SampleDisk Unit) :=
  let first : Call SampleDisk Unit := ⟨0, blank, (), (wires pushThenStat).take 48⟩
  let out := first.run fs firstSlot (obliging _) (SyncContext.zero _)
  [first, ⟨out.2.1.sideNonce, out.2.1.disk, (), (wires pushThenStat).drop 48⟩]

theorem requests_keep_boundaries_cut :
    let calls := sampleCalls memory
    let c := SyncContext.zero Config.project
    (∀ ret ∈ callReturns memory firstSlot (obliging _) c calls, ret = 0) ∧
      ∀ m ∈ callMoments memory firstSlot (obliging _) c calls, ∀ later, later <:+ pushThenStat →
        m.left ++ m.ahead ++ [] = wires later →
        m.now.ctx.state = .requestHeader ∧ m.now.ctx.headerUsed = 0 := by
  intro calls c
  have installs : ∀ m ∈ callMoments memory firstSlot (obliging _) c calls,
      m.now.ctx.state = .sendHeader → m.now.installs memory firstSlot := by decide +kernel
  exact requests_keep_boundaries (fun _ _ _ _ => rfl) rfl rfl pushThenStat_formed
    (by decide +kernel) fun m member closing => installs m member closing.1

def frozenNames : FileSystem Path (Slot Config.project) UInt8 SampleDisk :=
  { memory with rename := fun _ _ d => (- EIO, d.fail) }

/-- Where the install fails, the context is left in the middle of an upload that is over: the
header of the STAT that follows is read as one of its records. -/
theorem failed_install_shifts_boundary :
    (∀ q ∈ pushThenStat, q.WellFormed Config.project) ∧
      (∀ stream generation data r,
      ((obliging Config.project) (.write stream generation data) r).1 = 0) ∧
      sent (sampleCalls frozenNames) = wires pushThenStat ∧
      ∃ m ∈ callMoments frozenNames firstSlot (obliging _) (SyncContext.zero _)
        (sampleCalls frozenNames),
        m.left ++ m.ahead = wires [.stat (ascii "/STORAGE:/")] ∧
        m.now.ctx.state = .drainHeader := by
  refine ⟨pushThenStat_formed, fun _ _ _ _ => rfl, ?_⟩
  decide +kernel

end Samples

end Webos.Adb.Sync
