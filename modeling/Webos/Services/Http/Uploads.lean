/- digest: What a firmware upload does to the flash, callback by callback. -/

import Webos.Services.Http.Handlers

namespace Webos.Services.Http

open Webos.Adb (ENODEV)

variable {σ : Type}

def OtaStatics.boot (device : σ) : OtaStatics σ := ⟨⟨device, false, false⟩, .zeroed 96⟩

def OtaStatics.logged (s : OtaStatics σ) : OtaStatics (σ × List (FlashEvent σ)) :=
  ⟨⟨(s.ota.flashCtx, []), s.ota.active, s.ota.rebootScheduled⟩, s.response⟩

def after (dev : FlashImg σ) (callbacks : List Callback) (s : OtaStatics σ) :
    OtaStatics (σ × List (FlashEvent σ)) :=
  (serve (otaHandler dev.logged) callbacks s.logged).2

def events (dev : FlashImg σ) (callbacks : List Callback) (s : OtaStatics σ) :
    List (FlashEvent σ) :=
  (after dev callbacks s).ota.flashCtx.2

def Callback.carriesData (callback : Callback) : Bool :=
  callback.status == .dataMore || callback.status == .dataFinal

section Callbacks

variable (dev : FlashImg σ)

inductive Began : Bool → σ → List (FlashEvent σ) → σ → Prop where
  | already (d : σ) : Began true d [] d
  | init {d : σ} (ok : (dev.init d).1 = 0) : Began false d [⟨.init, d, 0⟩] (dev.init d).2

inductive Wrote (callback : Callback) : σ → List (FlashEvent σ) → Int → σ → Prop where
  | nothing {d : σ} (empty : callback.request.data = []) : Wrote callback d [] 0 d
  | write {d : σ} (data : callback.request.data ≠ []) :
      Wrote callback d [⟨.write callback.request.data (callback.status == .dataFinal), d,
          (dev.bufferedWrite d callback.request.data (callback.status == .dataFinal)).1⟩]
        (dev.bufferedWrite d callback.request.data (callback.status == .dataFinal)).1
        (dev.bufferedWrite d callback.request.data (callback.status == .dataFinal)).2

/-- A data callback: whether an upload is active before and after it, and its flash calls. -/
inductive Taken (callback : Callback) :
    Bool → σ → List (FlashEvent σ) → Bool → σ → Prop where
  | refused {d : σ} (fails : (dev.init d).1 ≠ 0) :
      Taken callback false d [⟨.init, d, (dev.init d).1⟩] false (dev.init d).2
  | failed {active : Bool} {d d' d'' : σ} {first second : List (FlashEvent σ)} {ret : Int}
      (began : Began dev active d first d') (wrote : Wrote dev callback d' second ret d'')
      (fails : ret ≠ 0) : Taken callback active d (first ++ second) false d''
  | stored {active : Bool} {d d' d'' : σ} {first second : List (FlashEvent σ)}
      (began : Began dev active d first d') (wrote : Wrote dev callback d' second 0 d'')
      (more : callback.status ≠ .dataFinal) : Taken callback active d (first ++ second) true d''
  | finished {active : Bool} {d d' d'' : σ} {first second : List (FlashEvent σ)}
      (began : Began dev active d first d') (wrote : Wrote dev callback d' second 0 d'')
      (final : callback.status = .dataFinal) :
      Taken callback active d
        (first ++ second ++ [⟨.upgrade, d'', (dev.requestUpgrade d'').1⟩]) false
        (dev.requestUpgrade d'').2

variable {dev}

def Follows (dev : FlashImg σ) (callback : Callback) (active : Bool) (d : σ)
    (log : List (FlashEvent σ)) (t : OtaStatics (σ × List (FlashEvent σ))) : Prop :=
  ∃ new, Taken dev callback active d new t.ota.active t.ota.flashCtx.1 ∧
    t.ota.flashCtx.2 = log ++ new

variable {callback : Callback} {active : Bool} {d d' d'' : σ}
  {log first second : List (FlashEvent σ)} {ret : Int} {s : OtaStatics (σ × List (FlashEvent σ))}

theorem otaConclude_follows (began : Began dev active d first d')
    (wrote : Wrote dev callback d' second ret d'')
    (flash : s.ota.flashCtx = (d'', log ++ (first ++ second))) (live : s.ota.active = true) :
    Follows dev callback active d log (otaConclude dev.logged callback ret s).state := by
  obtain ⟨⟨ctx, active', reboot⟩, response⟩ := s
  cases flash
  cases live
  unfold otaConclude
  by_cases fails : ret = 0
  · subst fails
    by_cases final : callback.status = .dataFinal
    · rw [if_pos ⟨rfl, final⟩]
      refine ⟨_, .finished began wrote final, ?_⟩
      exact List.append_assoc _ _ _
    · rw [if_neg fun both => final both.2, if_neg fun no => no rfl]
      exact ⟨first ++ second, .stored began wrote final, rfl⟩
  · rw [if_neg fun both => fails both.1, if_pos fails]
    exact ⟨first ++ second, .failed began wrote fails, rfl⟩

theorem otaWrite_follows (began : Began dev active d first d')
    (flash : s.ota.flashCtx = (d', log ++ first)) (live : s.ota.active = true) :
    Follows dev callback active d log (if callback.request.data.length > 0 then
        otaConclude dev.logged callback
          (s.ota.otaWrite dev.logged callback.request.data (callback.status == .dataFinal)).1
          { s with ota := (s.ota.otaWrite dev.logged callback.request.data
            (callback.status == .dataFinal)).2 }
      else otaConclude dev.logged callback 0 s).state := by
  obtain ⟨⟨ctx, active', reboot⟩, response⟩ := s
  cases flash
  cases live
  by_cases some' : callback.request.data.length > 0
  · have data : callback.request.data ≠ [] := List.ne_nil_of_length_pos some'
    have write : (Ota.mk (d', log ++ first) true reboot).otaWrite dev.logged callback.request.data
        (callback.status == .dataFinal) =
        ((dev.bufferedWrite d' callback.request.data (callback.status == .dataFinal)).1,
          ⟨((dev.bufferedWrite d' callback.request.data (callback.status == .dataFinal)).2,
            log ++ first ++ [⟨.write callback.request.data (callback.status == .dataFinal), d',
              (dev.bufferedWrite d' callback.request.data (callback.status == .dataFinal)).1⟩]),
            true, reboot⟩) := by
      unfold Ota.otaWrite
      rw [if_neg (Nat.ne_of_gt some')]
      rfl
    rw [if_pos some', write]
    refine otaConclude_follows began (.write data) ?_ rfl
    rw [← List.append_assoc]
  · have empty : callback.request.data = [] := List.eq_nil_of_length_eq_zero (by omega)
    rw [if_neg some']
    refine otaConclude_follows began (.nothing empty) ?_ rfl
    rw [List.append_nil]

theorem otaHandler_follows (data : callback.carriesData = true) :
    Follows dev callback s.ota.active s.ota.flashCtx.1 s.ota.flashCtx.2
      (otaHandler dev.logged callback s).state := by
  have running : callback.status ≠ .aborted ∧ callback.status ≠ .complete := by
    constructor
    all_goals
      intro status
      rw [Callback.carriesData, status] at data
      cases data
  obtain ⟨ota, response⟩ := s
  obtain ⟨⟨d, log⟩, active, reboot⟩ := ota
  unfold otaHandler
  rw [if_neg running.1, if_neg running.2]
  cases active with
  | true =>
    exact otaWrite_follows (s := ⟨⟨(d, log), true, reboot⟩, response⟩) (.already d)
      (by rw [List.append_nil]) rfl
  | false =>
    by_cases ok : (dev.init d).1 = 0
    · have begun : (Ota.mk (d, log) false reboot).otaBegin dev.logged =
          (0, ⟨((dev.init d).2, log ++ [⟨.init, d, 0⟩]), true, reboot⟩) := by
        simp [Ota.otaBegin, FlashImg.logged, ok]
      rw [begun]
      exact otaWrite_follows (.init ok) rfl rfl
    · have begun : (Ota.mk (d, log) false reboot).otaBegin dev.logged =
          ((dev.init d).1, ⟨((dev.init d).2, log ++ [⟨.init, d, (dev.init d).1⟩]), false,
            reboot⟩) := by
        simp [Ota.otaBegin, FlashImg.logged, ok]
      rw [begun]
      dsimp only
      rw [if_pos ok]
      exact ⟨_, .refused ok, rfl⟩

end Callbacks

section Closing

variable (dev : FlashImg σ) {s : OtaStatics σ} (callback : Callback)

theorem otaHandler_closing (closing : callback.carriesData = false) :
    (otaHandler dev callback s).state.ota.flashCtx = s.ota.flashCtx ∧
      (s.ota.active = false → (otaHandler dev callback s).state.ota.active = false) := by
  unfold otaHandler
  cases status : callback.status with
  | aborted => exact ⟨rfl, fun _ => rfl⟩
  | complete => exact ⟨rfl, id⟩
  | dataMore =>
    rw [Callback.carriesData, status] at closing
    cases closing
  | dataFinal =>
    rw [Callback.carriesData, status] at closing
    cases closing

theorem otaHandler_aborted (aborted : callback.status = .aborted) :
    (otaHandler dev callback s).state.ota.active = false := by
  unfold otaHandler
  rw [if_pos aborted]
  rfl

theorem otaHandler_final (final : callback.status = .dataFinal) :
    (otaHandler dev callback s).state.ota.active = false := by
  have concluded (ret : Int) (s : OtaStatics σ) :
      (otaConclude dev callback ret s).state.ota.active = false := by
    unfold otaConclude
    by_cases fails : ret = 0
    · rw [if_pos ⟨fails, final⟩]
      rfl
    · rw [if_neg fun both => fails both.1, if_pos fails]
      rfl
  unfold otaHandler
  rw [if_neg (by rw [final]; decide), if_neg (by rw [final]; decide)]
  dsimp only
  by_cases began : (s.ota.otaBegin dev).1 = 0
  · rw [if_neg (not_not.mpr began)]
    split_ifs
    all_goals exact concluded _ _
  · rw [if_pos began]
    unfold Ota.otaBegin at began ⊢
    dsimp only at began ⊢
    split_ifs at began ⊢ with active fails
    · exact absurd rfl began
    · exact eq_false_of_ne_true active
    · exact absurd rfl began

theorem serve_request_inactive (r : Request) :
    (serve (otaHandler dev) r.callbacks s).2.ota.active = false := by
  obtain ⟨more, ending⟩ := r
  unfold Request.callbacks
  rw [serve_append]
  cases ending with
  | aborted request =>
    exact otaHandler_aborted dev ⟨.aborted, request⟩ rfl
  | final last completed request =>
    have inactive : (serve (otaHandler dev) (more.map (Callback.mk .dataMore) ++
        [⟨.dataFinal, last⟩]) s).2.ota.active = false := by
      rw [serve_append]
      exact otaHandler_final dev ⟨.dataFinal, last⟩ rfl
    cases completed with
    | false => exact (otaHandler_closing dev ⟨.aborted, request⟩ rfl).2 inactive
    | true => exact (otaHandler_closing dev ⟨.complete, request⟩ rfl).2 inactive

theorem serveAll_inactive (requests : List Request) (idle : s.ota.active = false) :
    (serveAll (otaHandler dev) requests s).2.ota.active = false := by
  induction requests generalizing s with
  | nil => exact idle
  | cons r requests ih =>
    rw [serveAll_cons]
    exact ih (serve_request_inactive dev r)

end Closing

section Events

variable {dev : FlashImg σ} {s : OtaStatics σ}

def Request.data (r : Request) : List Callback :=
  r.more.map (Callback.mk .dataMore) ++ r.last.map (Callback.mk .dataFinal)

theorem after_append (callbacks : List Callback) (callback : Callback) :
    after dev (callbacks ++ [callback]) s =
      (otaHandler dev.logged callback (after dev callbacks s)).state := by
  unfold after
  rw [serve_append]
  rfl

theorem events_request (r : Request) : events dev r.callbacks s = events dev r.data s := by
  have one (callback : Callback) (closing : callback.carriesData = false)
      (callbacks : List Callback) :
      events dev (callbacks ++ [callback]) s = events dev callbacks s := by
    unfold events
    rw [after_append, (otaHandler_closing _ callback closing).1]
  obtain ⟨more, ending⟩ := r
  cases ending with
  | aborted request => exact one _ rfl _
  | final last completed request =>
    cases completed with
    | false => exact one _ rfl _
    | true => exact one _ rfl _

theorem taken_append (callbacks : List Callback) {callback : Callback}
    (data : callback.carriesData = true) :
    ∃ new, Taken dev callback (after dev callbacks s).ota.active
        (after dev callbacks s).ota.flashCtx.1 new
        (after dev (callbacks ++ [callback]) s).ota.active
        (after dev (callbacks ++ [callback]) s).ota.flashCtx.1 ∧
      events dev (callbacks ++ [callback]) s = events dev callbacks s ++ new := by
  unfold events
  rw [after_append]
  exact otaHandler_follows data

end Events

section Failures

variable {dev : FlashImg σ} {s : OtaStatics σ}

def writes (callbacks : List Callback) : List FlashCall :=
  (callbacks.filter fun c => c.request.data ≠ []).map fun c =>
    .write c.request.data (c.status == .dataFinal)

inductive Progress (callbacks : List Callback) : Bool → List (FlashEvent σ) → Prop where
  | idle (none' : callbacks = []) : Progress callbacks false []
  | going {log : List (FlashEvent σ)} (fine : ∀ e ∈ log, e.ret = 0)
      (calls : log.map FlashEvent.call = .init :: writes callbacks) : Progress callbacks true log
  | broken {log : List (FlashEvent σ)} {e : FlashEvent σ} (fine : ∀ e ∈ log, e.ret = 0)
      (writing : ∀ e ∈ log, e.call ≠ .upgrade) (failed : e.Failed) :
      Progress callbacks false (log ++ [e])
  | installed {log : List (FlashEvent σ)} {e : FlashEvent σ} (fine : ∀ e ∈ log, e.ret = 0)
      (calls : log.map FlashEvent.call = .init :: writes callbacks) (upgrade : e.call = .upgrade) :
      Progress callbacks false (log ++ [e])

variable {new : List (FlashEvent σ)} {callback : Callback} {d' : σ} {d : σ}

theorem Wrote.calls {ret : Int} (wrote : Wrote dev callback d new ret d') :
    new.map FlashEvent.call = writes [callback] ∧ ∀ e ∈ new, e.ret = ret := by
  cases wrote with
  | nothing empty => simp [writes, empty]
  | write data => simp [writes, data]

theorem writes_append (callbacks : List Callback) (callback : Callback) :
    writes (callbacks ++ [callback]) = writes callbacks ++ writes [callback] := by
  unfold writes
  rw [List.filter_append, List.map_append]

theorem upgrade_notMem_writes (callbacks : List Callback) : .upgrade ∉ writes callbacks := by
  intro member
  obtain ⟨c, -, no⟩ := List.mem_map.mp member
  cases no

variable {active : Bool}

theorem Began.no_upgrade {d'' : σ} {first second : List (FlashEvent σ)} {ret : Int}
    (began : Began dev active d first d') (wrote : Wrote dev callback d' second ret d'') :
    ∀ e ∈ first ++ second, e.call ≠ .upgrade := by
  intro e member upgrade
  rcases List.mem_append.mp member with started | written
  · cases began with
    | already => cases started
    | init ok =>
      rw [List.mem_singleton.mp started] at upgrade
      cases upgrade
  · have inside := List.mem_map_of_mem (f := FlashEvent.call) written
    rw [wrote.calls.1, upgrade] at inside
    exact upgrade_notMem_writes _ inside

theorem Taken.no_upgrade {active' : Bool} (taken : Taken dev callback active d new active' d')
    (more : callback.status ≠ .dataFinal) : ∀ e ∈ new, e.call ≠ .upgrade := by
  cases taken with
  | refused fails =>
    intro e member upgrade
    rw [List.mem_singleton.mp member] at upgrade
    cases upgrade
  | failed began wrote fails => exact began.no_upgrade wrote
  | stored began wrote more => exact began.no_upgrade wrote
  | finished began wrote final => exact absurd final more

variable {log : List (FlashEvent σ)} {callbacks : List Callback}

theorem Began.calls (began : Began dev active d new d') (progress : Progress callbacks active log)
    (unbroken : ∀ e ∈ log, ¬e.Failed) (running : ∀ e ∈ log, e.call ≠ .upgrade) :
    (∀ e ∈ log ++ new, e.ret = 0) ∧
      (log ++ new).map FlashEvent.call = .init :: writes callbacks := by
  cases began with
  | already =>
    cases progress with
    | going fine calls =>
      rw [List.append_nil]
      exact ⟨fine, calls⟩
  | init ok =>
    cases progress with
    | idle none' =>
      subst none'
      refine ⟨?_, rfl⟩
      intro e member
      rw [List.nil_append, List.mem_singleton] at member
      rw [member]
    | broken fine writing failed =>
      exact absurd failed (unbroken _ List.mem_concat_self)
    | installed fine calls upgrade =>
      exact absurd upgrade (running _ List.mem_concat_self)

theorem Progress.append {active' : Bool} (progress : Progress callbacks active log)
    (unbroken : ∀ e ∈ log, ¬e.Failed) (running : ∀ e ∈ log, e.call ≠ .upgrade)
    (taken : Taken dev callback active d new active' d') :
    Progress (callbacks ++ [callback]) active' (log ++ new) := by
  cases taken with
  | refused fails =>
    have fine : ∀ e ∈ log, e.ret = 0 := by
      intro e member
      by_contra bad
      exact unbroken e member ⟨bad, running e member⟩
    exact .broken fine running ⟨fails, fun no => nomatch no⟩
  | failed began wrote fails =>
    rename_i first second ret
    obtain ⟨fine, calls⟩ := began.calls progress unbroken running
    have writing : ∀ e ∈ log ++ first, e.call ≠ .upgrade := by
      intro e member upgrade
      have inside := List.mem_map_of_mem (f := FlashEvent.call) member
      rw [calls, upgrade, List.mem_cons] at inside
      rcases inside with no | inside
      · cases no
      · exact upgrade_notMem_writes _ inside
    cases wrote with
    | nothing empty => exact absurd rfl fails
    | write data =>
      rw [← List.append_assoc]
      exact .broken fine writing ⟨fails, fun no => nomatch no⟩
  | stored began wrote more =>
    obtain ⟨fine, calls⟩ := began.calls progress unbroken running
    obtain ⟨added, zero⟩ := wrote.calls
    rw [← List.append_assoc]
    refine .going ?_ ?_
    · intro e member
      rcases List.mem_append.mp member with old | new
      · exact fine e old
      · exact zero e new
    · rw [List.map_append, calls, added, writes_append]
      rfl
  | finished began wrote final =>
    obtain ⟨fine, calls⟩ := began.calls progress unbroken running
    obtain ⟨added, zero⟩ := wrote.calls
    rw [← List.append_assoc, ← List.append_assoc]
    refine .installed ?_ ?_ rfl
    · intro e member
      rcases List.mem_append.mp member with old | new
      · exact fine e old
      · exact zero e new
    · rw [List.map_append, calls, added, writes_append]
      rfl

/-- No data callback of the run comes after a flash call that failed. -/
def Prompt (dev : FlashImg σ) (callbacks : List Callback) (s : OtaStatics σ) : Prop :=
  ∀ before callback rest, callbacks = before ++ callback :: rest → callback.carriesData = true →
    ∀ e ∈ events dev before s, ¬e.Failed

theorem Prompt.of_append {first second : List Callback} (prompt : Prompt dev (first ++ second) s) :
    Prompt dev first s := by
  intro before callback rest split
  apply prompt before callback (rest ++ second)
  rw [split, List.append_assoc]
  rfl

theorem events_after {rest : List Callback} (prompt : Prompt dev (callbacks ++ callback :: rest) s)
    (data : callback.carriesData = true) : ∀ e ∈ events dev callbacks s, ¬e.Failed :=
  prompt callbacks callback rest rfl data

theorem progress_more (idle : s.ota.active = false) (more : List RequestCtx)
    (prompt : Prompt dev (more.map (Callback.mk .dataMore)) s) :
    Progress (more.map (Callback.mk .dataMore))
        (after dev (more.map (Callback.mk .dataMore)) s).ota.active
        (events dev (more.map (Callback.mk .dataMore)) s) ∧
      ∀ e ∈ events dev (more.map (Callback.mk .dataMore)) s, e.call ≠ .upgrade := by
  induction more using List.reverseRecOn with
  | nil =>
    refine ⟨?_, fun e no => nomatch no⟩
    have inactive : (after dev [] s).ota.active = false := idle
    rw [List.map_nil, inactive]
    exact .idle rfl
  | append_singleton more request ih =>
    rw [List.map_append, List.map_singleton] at prompt ⊢
    obtain ⟨progress, running⟩ := ih prompt.of_append
    have data : (Callback.mk .dataMore request).carriesData = true := rfl
    obtain ⟨new, taken, added⟩ := taken_append (s := s) (more.map (Callback.mk .dataMore)) data
    have unbroken := events_after prompt data
    have next := progress.append unbroken running taken
    rw [added]
    refine ⟨next, ?_⟩
    intro e member
    rcases List.mem_append.mp member with old | fresh
    · exact running e old
    · exact taken.no_upgrade (fun no => nomatch no) e fresh

theorem progress_request (idle : s.ota.active = false) (r : Request)
    (prompt : Prompt dev r.callbacks s) :
    ∃ active, Progress r.data active (events dev r.callbacks s) := by
  rw [events_request]
  have prompt : Prompt dev r.data s := prompt.of_append
  obtain ⟨more, ending⟩ := r
  obtain ⟨progress, running⟩ := progress_more idle more prompt.of_append
  cases ending with
  | aborted request =>
    have data : Request.data ⟨more, .aborted request⟩ = more.map (Callback.mk .dataMore) :=
      List.append_nil _
    rw [data]
    exact ⟨_, progress⟩
  | final last completed request =>
    have data : (Callback.mk .dataFinal last).carriesData = true := rfl
    obtain ⟨new, taken, added⟩ := taken_append (s := s) (more.map (Callback.mk .dataMore)) data
    have next := progress.append (events_after prompt data) running taken
    rw [← added] at next
    exact ⟨_, next⟩

/-- An upload that failed starts no other and is not installed; one that is installed was written
whole and in order. -/
structure Safe (r : Request) (log : List (FlashEvent σ)) : Prop where
  stays : ∀ before e later, log = before ++ e :: later → e.Failed →
    ∀ e' ∈ later, ¬(e'.call = .init ∧ e'.ret = 0) ∧ e'.call ≠ .upgrade
  once : (log.filter (·.call = .upgrade)).length ≤ 1
  complete : ∀ before e later, log = before ++ e :: later → e.call = .upgrade →
    (∀ e' ∈ before, e'.ret = 0) ∧ before.map FlashEvent.call = .init :: writes r.data

theorem upgrade_notMem_calls (calls : log.map FlashEvent.call = .init :: writes callbacks) :
    ∀ e ∈ log, e.call ≠ .upgrade := by
  intro e member upgrade
  have inside := List.mem_map_of_mem (f := FlashEvent.call) member
  rw [calls, upgrade, List.mem_cons] at inside
  rcases inside with no | inside
  · cases no
  · exact upgrade_notMem_writes _ inside

theorem split_last {before later : List (FlashEvent σ)} {e last : FlashEvent σ}
    (split : log ++ [last] = before ++ e :: later) (other : e ∉ log) :
    before = log ∧ e = last ∧ later = [] := by
  rcases List.eq_nil_or_concat' later with rfl | ⟨front, x, rfl⟩
  · obtain ⟨same, lasts⟩ := List.append_inj' split rfl
    cases lasts
    exact ⟨same.symm, rfl, rfl⟩
  · have cut : log = before ++ e :: front := by
      rw [← List.cons_append, ← List.append_assoc] at split
      exact (List.append_inj' split rfl).1
    exact absurd (by rw [cut]; simp) other

theorem Progress.safe {r : Request} (progress : Progress r.data active log) : Safe r log := by
  have none' {log : List (FlashEvent σ)} (writing : ∀ e ∈ log, e.call ≠ .upgrade) :
      log.filter (·.call = .upgrade) = [] := by
    rw [List.filter_eq_nil_iff]
    intro e member upgrade
    exact writing e member (of_decide_eq_true upgrade)
  cases progress with
  | idle =>
    refine ⟨?_, Nat.zero_le _, ?_⟩
    all_goals
      intro before e later split
      cases before with
      | nil => cases split
      | cons _ _ => cases split
  | going fine calls =>
    have writing := upgrade_notMem_calls calls
    refine ⟨?_, ?_, ?_⟩
    · intro before e later split failed
      exact absurd (fine e (by rw [split]; simp)) failed.1
    · rw [none' writing]
      exact Nat.zero_le _
    · intro before e later split upgrade
      exact absurd upgrade (writing e (by rw [split]; simp))
  | broken fine writing failed =>
    refine ⟨?_, ?_, ?_⟩
    · intro before e later split broken
      obtain ⟨-, -, rfl⟩ := split_last split fun inside => broken.1 (fine e inside)
      exact fun e' no => nomatch no
    · rw [List.filter_append, none' writing, List.nil_append]
      exact List.length_filter_le _ _
    · intro before e later split upgrade
      obtain ⟨-, rfl, -⟩ := split_last split fun inside => writing e inside upgrade
      exact absurd upgrade failed.2
  | installed fine calls upgrade =>
    have writing := upgrade_notMem_calls calls
    refine ⟨?_, ?_, ?_⟩
    · intro before e later split broken
      obtain ⟨-, rfl, -⟩ := split_last split fun inside => broken.1 (fine e inside)
      exact absurd upgrade broken.2
    · rw [List.filter_append, none' writing, List.nil_append]
      exact List.length_filter_le _ _
    · intro before e later split upgrade'
      obtain ⟨rfl, -, -⟩ := split_last split fun inside => writing e inside upgrade'
      exact ⟨fine, calls⟩

/-- After any requests, a request whose data stops at the first failure is safe. -/
theorem failed_upload_not_installed (dev : FlashImg σ) (device : σ) (earlier : List Request)
    (r : Request)
    (prompt : Prompt dev r.callbacks (serveAll (otaHandler dev) earlier (.boot device)).2) :
    Safe r (events dev r.callbacks (serveAll (otaHandler dev) earlier (.boot device)).2) := by
  obtain ⟨active, progress⟩ := progress_request (serveAll_inactive dev earlier rfl) r prompt
  exact progress.safe

/-- A flash whose first write fails; it counts its writes. -/
def flakyFlash : FlashImg Nat where
  init := fun n => (0, n)
  bufferedWrite := fun n _ _ => (if n = 0 then -ENODEV else 0, n + 1)
  bytesWritten := id
  requestUpgrade := fun n => (0, n)

def uploadCtx (data : List UInt8) : RequestCtx := ⟨data, [], ⟨0, 0, []⟩⟩

def twoChunks : Request :=
  ⟨[uploadCtx [1]], .final (uploadCtx [2]) true (uploadCtx [])⟩

/-- The chunk after the one that failed starts an image of its own, which is installed. -/
theorem failed_upload_installed :
    ((events flakyFlash twoChunks.callbacks (.boot 0)).map fun e => (e.call, e.ret) :
        List (FlashCall × Int)) =
      [(.init, 0), (.write [1] false, -ENODEV), (.init, 0), (.write [2] true, 0),
        (.upgrade, 0)] := by
  decide

/-- With a flash that works both chunks are installed, in order. -/
theorem failed_upload_not_installed_ok :
    ∃ before e, events flakyFlash twoChunks.callbacks (.boot 1) = before ++ [e] ∧
      e.call = .upgrade ∧ (∀ e' ∈ before, e'.ret = 0) ∧
      before.map FlashEvent.call = [.init, .write [1] false, .write [2] true] := by
  have safe := failed_upload_not_installed flakyFlash 1 [] twoChunks ?_
  · obtain ⟨fine, calls⟩ := safe.complete
      [⟨.init, 1, 0⟩, ⟨.write [1] false, 1, 0⟩, ⟨.write [2] true, 2, 0⟩] ⟨.upgrade, 3, 0⟩ [] rfl rfl
    exact ⟨_, _, rfl, rfl, fine, calls⟩
  · intro before callback rest split data e member failed
    match before, split with
    | [], _ => cases member
    | [_], split =>
      cases split
      have fine : ∀ e ∈ events flakyFlash [⟨.dataMore, uploadCtx [1]⟩] (.boot 1), e.ret = 0 := by
        decide
      exact failed.1 (fine e member)
    | [_, _], split =>
      cases split
      cases data
    | _ :: _ :: _ :: front, split =>
      have sizes : 3 = (front ++ callback :: rest).length + 3 := congrArg List.length split
      rw [List.length_append, List.length_cons] at sizes
      omega

end Failures

section Images

variable {block : ℕ+} {s : OtaStatics Image}

def Stored (block : ℕ+) (chunks : List (List UInt8)) (active : Bool) (image : Image) : Prop :=
  (active = false ∧ chunks = []) ∨ (active = true ∧ image = .holding block chunks.flatten)

variable {new : List (FlashEvent Image)} {d : Image}

theorem Began.holding {chunks : List (List UInt8)} {active : Bool} {image : Image}
    (stored : Stored block chunks active image)
    (began : Began (blockFlash block) active image new d) : d = .holding block chunks.flatten := by
  cases began with
  | already =>
    rcases stored with ⟨no, -⟩ | ⟨-, here⟩
    · cases no
    · exact here
  | init ok =>
    rcases stored with ⟨-, none'⟩ | ⟨no, -⟩
    · rw [none', Image.holding, List.flatten_nil, List.take_nil, List.drop_nil]
      rfl
    · cases no

theorem Wrote.holding {callback : Callback} {before : List UInt8} {ret : Int}
    (more : callback.status ≠ .dataFinal)
    (wrote : Wrote (blockFlash block) callback (.holding block before) new ret d) :
    d = .holding block (before ++ callback.request.data) := by
  cases wrote with
  | nothing empty => rw [empty, List.append_nil]
  | write data =>
    have keeps : (callback.status == .dataFinal) = false := beq_false_of_ne more
    rw [keeps]
    exact Image.bufferedWrite_holding block before callback.request.data

theorem Wrote.ret {callback : Callback} {d' : Image} {ret : Int}
    (wrote : Wrote (blockFlash block) callback d new ret d') : ret = 0 := by
  cases wrote with
  | nothing empty => rfl
  | write data => rfl

theorem stored_more (idle : s.ota.active = false) (more : List RequestCtx) :
    (∀ e ∈ events (blockFlash block) (more.map (Callback.mk .dataMore)) s, e.call ≠ .upgrade) ∧
      Stored block (more.map RequestCtx.data)
        (after (blockFlash block) (more.map (Callback.mk .dataMore)) s).ota.active
        (after (blockFlash block) (more.map (Callback.mk .dataMore)) s).ota.flashCtx.1 := by
  induction more using List.reverseRecOn with
  | nil => exact ⟨(fun e no => nomatch no), Or.inl ⟨idle, rfl⟩⟩
  | append_singleton more request ih =>
    have data : (Callback.mk .dataMore request).carriesData = true := rfl
    have more' : (Callback.mk .dataMore request).status ≠ .dataFinal := fun no => nomatch no
    obtain ⟨new, taken, added⟩ := taken_append (s := s) (more.map (Callback.mk .dataMore)) data
    obtain ⟨quiet, stored⟩ := ih
    rw [List.map_append, List.map_append, List.map_singleton, List.map_singleton, added]
    refine ⟨?_, ?_⟩
    · intro e member
      rcases List.mem_append.mp member with old | fresh
      · exact quiet e old
      · exact taken.no_upgrade more' e fresh
    · generalize (after (blockFlash block) (more.map (Callback.mk .dataMore)) s).ota.active = active
        at stored taken
      generalize (after (blockFlash block) (more.map (Callback.mk .dataMore) ++
        [⟨.dataMore, request⟩]) s).ota.active = active' at taken ⊢
      generalize (after (blockFlash block) (more.map (Callback.mk .dataMore) ++
        [⟨.dataMore, request⟩]) s).ota.flashCtx.1 = image' at taken ⊢
      cases taken with
      | refused fails => exact absurd rfl fails
      | failed began wrote fails => exact absurd wrote.ret fails
      | stored began wrote _ =>
        have here := began.holding stored
        subst here
        refine Or.inr ⟨rfl, ?_⟩
        rw [wrote.holding more', List.flatten_append, List.flatten_singleton]
      | finished began wrote final => exact absurd final more'

/-- What is installed is the whole body if and only if there is data to flush in the last data
callback, or nothing was waiting for a flush. -/
theorem upgrade_stored_iff (block : ℕ+) (device : Image) (earlier : List Request) (r : Request) :
    (∀ e ∈ events (blockFlash block) r.callbacks
        (serveAll (otaHandler (blockFlash block)) earlier (.boot device)).2,
      e.call = .upgrade → e.before.slot = r.body ∧ e.before.buffer = []) ↔
    ∀ last ∈ r.last, last.data ≠ [] ∨
      (block : ℕ) ∣ (r.more.map RequestCtx.data).flatten.length := by
  have idle := serveAll_inactive (blockFlash block) (s := .boot device) earlier rfl
  generalize (serveAll (otaHandler (blockFlash block)) earlier (.boot device)).2 = s at idle ⊢
  rw [events_request]
  obtain ⟨more, ending⟩ := r
  obtain ⟨quiet, stored⟩ : _ ∧ Stored block _ _ _ := stored_more idle more
  cases ending with
  | aborted request =>
    have data : Request.data ⟨more, .aborted request⟩ = more.map (Callback.mk .dataMore) :=
      List.append_nil _
    rw [data]
    refine iff_of_true ?_ fun last no => nomatch no
    intro e member upgrade
    exact absurd upgrade (quiet e member)
  | final last completed request =>
    have carries : (Callback.mk .dataFinal last).carriesData = true := rfl
    obtain ⟨new, taken, added⟩ := taken_append (s := s) (more.map (Callback.mk .dataMore)) carries
    have body : Request.body ⟨more, .final last completed request⟩ =
        (more.map RequestCtx.data).flatten ++ last.data := by
      simp [Request.body, Request.chunks, Request.last]
    change (∀ e ∈ events (blockFlash block) (more.map (Callback.mk .dataMore) ++
      [⟨.dataFinal, last⟩]) s, e.call = .upgrade → _) ↔ ∀ last' ∈ [last], _
    rw [added, body]
    generalize (after (blockFlash block) (more.map (Callback.mk .dataMore)) s).ota.active = active
      at stored taken
    generalize (after (blockFlash block) (more.map (Callback.mk .dataMore)) s).ota.flashCtx.1 =
      image at stored taken
    generalize (after (blockFlash block) (more.map (Callback.mk .dataMore) ++
      [⟨.dataFinal, last⟩]) s).ota.active = active' at taken
    generalize (after (blockFlash block) (more.map (Callback.mk .dataMore) ++
      [⟨.dataFinal, last⟩]) s).ota.flashCtx.1 = image' at taken
    cases taken with
    | refused fails => exact absurd rfl fails
    | failed began wrote fails => exact absurd wrote.ret fails
    | stored began wrote more' => exact absurd rfl more'
    | @finished active image d' d'' first second began wrote final =>
      have writing := began.no_upgrade wrote
      have here := began.holding stored
      subst here
      have only : (∀ e ∈ events (blockFlash block) (more.map (Callback.mk .dataMore)) s ++
          (first ++ second ++ [⟨.upgrade, d'', ((blockFlash block).requestUpgrade d'').1⟩]),
          e.call = .upgrade → e.before.slot = (more.map RequestCtx.data).flatten ++ last.data ∧
            e.before.buffer = []) ↔
          d''.slot = (more.map RequestCtx.data).flatten ++ last.data ∧ d''.buffer = [] := by
        constructor
        · intro all
          exact all ⟨.upgrade, d'', 0⟩ (by simp [blockFlash]) rfl
        · intro whole e member upgrade
          rcases List.mem_append.mp member with old | new
          · exact absurd upgrade (quiet e old)
          · rcases List.mem_append.mp new with old | new
            · exact absurd upgrade (writing e old)
            · rw [List.mem_singleton.mp new]
              exact whole
      rw [only]
      simp only [List.mem_singleton, forall_eq]
      cases wrote with
      | nothing empty =>
        have empty : last.data = [] := empty
        rw [empty, List.append_nil, Image.holding_complete_iff]
        simp
      | write data =>
        have flushed : ((blockFlash block).bufferedWrite
            (.holding block (more.map RequestCtx.data).flatten) last.data true).2 =
            ⟨(more.map RequestCtx.data).flatten ++ last.data, []⟩ :=
          Image.bufferedWrite_flush block _ _
        refine iff_of_true ?_ (Or.inl data)
        change ((blockFlash block).bufferedWrite _ last.data true).2.slot = _ ∧
          ((blockFlash block).bufferedWrite _ last.data true).2.buffer = []
        rw [flushed]
        exact ⟨rfl, rfl⟩

def emptyLast : Request :=
  ⟨[uploadCtx [1, 2]], .final (uploadCtx []) true (uploadCtx [])⟩

/-- With blocks of four bytes the upgrade is requested while both bytes are still in the buffer. -/
theorem truncated_image_booted :
    ((events (blockFlash 4) emptyLast.callbacks (.boot ⟨[], []⟩)).map
        fun e => (e.call, e.before.slot, e.before.buffer) :
        List (FlashCall × List UInt8 × List UInt8)) =
      [(.init, [], []), (.write [1, 2] false, [], []), (.upgrade, [], [1, 2])] := by
  decide

end Images

end Webos.Services.Http
