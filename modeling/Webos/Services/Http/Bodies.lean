/- digest: A handler acts on the whole body of a request, or not at all. -/

import Webos.Services.Http.Handlers

namespace Webos.Services.Http

open Webos.Adb (ascii)
open Webos.Lib.Format
open Webos.Utils

namespace Request

variable (r : Request)

def whole : Option (List UInt8) :=
  if r.last ≠ [] ∧ r.body.length < WEBOS_HTTP_BODY_MAX then some r.body else none

/-- Before the last data callback the request is still below the limit. -/
def Contained : Prop :=
  r.last ≠ [] → (r.more.map RequestCtx.data).flatten.length < WEBOS_HTTP_BODY_MAX

end Request

variable (body : List UInt8)

theorem accumulate_more (request : RequestCtx) :
    accumulate body ⟨.dataMore, request⟩ =
      if body.length + request.data.length ≥ WEBOS_HTTP_BODY_MAX then (.tooLarge, [])
      else (.more, body ++ request.data) := by
  simp [accumulate]

theorem accumulate_final (request : RequestCtx) :
    accumulate body ⟨.dataFinal, request⟩ =
      if body.length + request.data.length ≥ WEBOS_HTTP_BODY_MAX then (.tooLarge, [])
      else (.whole (body ++ request.data), []) := by
  simp [accumulate]

section Collects

variable {S E C : Type}

/-- A handler that collects a body in `body`, notes something about the callbacks in `ctx`, and acts
on both at the end. -/
structure Collects (handler : Callback → S → Outcome S E) (body : S → List UInt8) (ctx : S → C)
    (start : C) (note : C → RequestCtx → C) (act : C → List UInt8 → List E) : Prop where
  keeps : ∀ callback s, body (handler callback s).state = (accumulate (body s) callback).2
  notes : ∀ callback s, ctx (handler callback s).state =
    match (accumulate (body s) callback).1 with
    | .more => note (ctx s) callback.request
    | _ => start
  acts : ∀ callback s, (handler callback s).effects =
    match (accumulate (body s) callback).1 with
    | .whole all => act (note (ctx s) callback.request) all
    | _ => []

namespace Collects

variable {handler : Callback → S → Outcome S E} {body : S → List UInt8} {ctx : S → C} {start : C}
  {note : C → RequestCtx → C} {act : C → List UInt8 → List E}
  (collects : Collects handler body ctx start note act)

omit collects in
theorem of_each (each : ∀ callback s, body (handler callback s).state =
      (accumulate (body s) callback).2 ∧
    (ctx (handler callback s).state = match (accumulate (body s) callback).1 with
      | .more => note (ctx s) callback.request
      | _ => start) ∧
    (handler callback s).effects = match (accumulate (body s) callback).1 with
      | .whole all => act (note (ctx s) callback.request) all
      | _ => []) : Collects handler body ctx start note act :=
  ⟨fun c s => (each c s).1, fun c s => (each c s).2.1, fun c s => (each c s).2.2⟩

def Fresh (body : S → List UInt8) (ctx : S → C) (start : C) (s : S) : Prop :=
  body s = [] ∧ ctx s = start

include collects

theorem ended {callback : Callback} {s : S}
    (stops : callback.status = .aborted ∨ callback.status = .complete) :
    (handler callback s).effects = [] ∧ Fresh body ctx start (handler callback s).state := by
  have phase : accumulate (body s) callback = (.ended, []) := if_pos stops
  refine ⟨?_, ?_, ?_⟩
  · rw [collects.acts, phase]
  · rw [collects.keeps, phase]
  · rw [collects.notes, phase]

theorem effects_more (request : RequestCtx) (s : S) :
    (handler ⟨.dataMore, request⟩ s).effects = [] := by
  rw [collects.acts, accumulate_more]
  split_ifs
  · rfl
  · rfl

theorem serve_more_effects (more : List RequestCtx) (s : S) :
    (serve handler (more.map (Callback.mk .dataMore)) s).1 = [] := by
  induction more generalizing s with
  | nil => rfl
  | cons request more ih =>
    rw [List.map_cons, serve_cons, collects.effects_more, ih]
    rfl

theorem serve_more (more : List RequestCtx) (s : S)
    (below : (body s).length + (more.map RequestCtx.data).flatten.length < WEBOS_HTTP_BODY_MAX) :
    body (serve handler (more.map (Callback.mk .dataMore)) s).2 =
        body s ++ (more.map RequestCtx.data).flatten ∧
      ctx (serve handler (more.map (Callback.mk .dataMore)) s).2 = more.foldl note (ctx s) := by
  induction more generalizing s with
  | nil => exact ⟨(List.append_nil _).symm, rfl⟩
  | cons request more ih =>
    rw [List.map_cons, List.flatten_cons, List.length_append] at below
    have phase : accumulate (body s) ⟨.dataMore, request⟩ = (.more, body s ++ request.data) := by
      rw [accumulate_more, if_neg (by omega)]
    have next := collects.keeps ⟨.dataMore, request⟩ s
    have noted := collects.notes ⟨.dataMore, request⟩ s
    rw [phase] at next noted
    obtain ⟨bodies, ctxs⟩ := ih (handler ⟨.dataMore, request⟩ s).state (by
      rw [next, List.length_append]
      omega)
    rw [List.map_cons, serve_cons]
    refine ⟨?_, ?_⟩
    · rw [bodies, next, List.map_cons, List.flatten_cons, List.append_assoc]
    · rw [ctxs, noted]
      rfl

theorem serve_closing (r : Request) (s : S) :
    (serve handler r.closing s).1 = [] ∧ Fresh body ctx start (serve handler r.closing s).2 := by
  have one {callback : Callback}
      (stops : callback.status = .aborted ∨ callback.status = .complete) :
      (serve handler [callback] s).1 = [] ∧
        Fresh body ctx start (serve handler [callback] s).2 := by
    obtain ⟨effects, fresh⟩ := collects.ended (s := s) stops
    rw [serve_cons, effects]
    exact ⟨rfl, fresh⟩
  unfold Request.closing
  cases r.ending with
  | aborted request => exact one (Or.inl rfl)
  | final last completed request =>
    cases completed with
    | false => exact one (Or.inl rfl)
    | true => exact one (Or.inr rfl)

theorem effects_final (request : RequestCtx) (s : S) :
    (handler ⟨.dataFinal, request⟩ s).effects =
      if (body s).length + request.data.length < WEBOS_HTTP_BODY_MAX then
        act (note (ctx s) request) (body s ++ request.data)
      else [] := by
  rw [collects.acts, accumulate_final]
  by_cases below : (body s).length + request.data.length < WEBOS_HTTP_BODY_MAX
  · rw [if_pos below, if_neg (Nat.not_le.mpr below)]
  · rw [if_neg below, if_pos (Nat.le_of_not_lt below)]

theorem serve_request (r : Request) (contained : r.Contained) {s : S}
    (fresh : Fresh body ctx start s) :
    (serve handler r.callbacks s).1 = r.whole.elim [] (act ((r.more ++ r.last).foldl note start)) ∧
      Fresh body ctx start (serve handler r.callbacks s).2 := by
  obtain ⟨more, ending⟩ := r
  obtain ⟨closed, clean⟩ := collects.serve_closing ⟨more, ending⟩ (serve handler
    (more.map (Callback.mk .dataMore) ++
      (Request.last ⟨more, ending⟩).map (Callback.mk .dataFinal)) s).2
  unfold Request.callbacks
  rw [serve_append, closed, List.append_nil]
  refine ⟨?_, clean⟩
  rw [serve_append, collects.serve_more_effects, List.nil_append]
  cases ending with
  | aborted request =>
    rfl
  | final last completed request =>
    have below := contained (List.cons_ne_nil _ _)
    obtain ⟨bodies, ctxs⟩ := collects.serve_more more s (by
      rw [fresh.1, List.length_nil, Nat.zero_add]
      exact below)
    rw [fresh.1, List.nil_append] at bodies
    rw [fresh.2] at ctxs
    have all : Request.body ⟨more, .final last completed request⟩ =
        (more.map RequestCtx.data).flatten ++ last.data := by
      simp [Request.body, Request.chunks, Request.last]
    have noted : (more ++ [last]).foldl note start = note (more.foldl note start) last := by
      rw [List.foldl_append]
      rfl
    change ((serve handler [⟨.dataFinal, last⟩] _).1 : List E) = _
    rw [serve_cons, serve_nil, List.append_nil, collects.effects_final, bodies, ctxs,
      ← List.length_append, ← all, ← noted, Request.whole]
    by_cases small : (Request.body ⟨more, .final last completed request⟩).length <
        WEBOS_HTTP_BODY_MAX
    · rw [if_pos small, if_pos ⟨List.cons_ne_nil _ _, small⟩]
      rfl
    · rw [if_neg small, if_neg fun both => small both.2]
      rfl

theorem serveAll_effects (requests : List Request) (contained : ∀ r ∈ requests, r.Contained) {s : S}
    (fresh : Fresh body ctx start s) :
    (serveAll handler requests s).1 = requests.flatMap fun r =>
      r.whole.elim [] (act ((r.more ++ r.last).foldl note start)) := by
  induction requests generalizing s with
  | nil => rfl
  | cons r requests ih =>
    obtain ⟨effects, clean⟩ := collects.serve_request r (contained r List.mem_cons_self) fresh
    have rest := ih (fun r' member => contained r' (List.mem_cons_of_mem _ member)) clean
    rw [serveAll_cons, effects, rest, List.flatMap_cons]

end Collects

end Collects

def Push.boot : Push := ⟨[], .zeroed 96⟩

def Pushbin.boot : Pushbin := ⟨[], [], .zeroed 96⟩

instance : NeZero (CONFIG_SHELL_BACKEND_DUMMY_BUF_SIZE * 2 + 96) := ⟨by decide⟩

instance : NeZero (CONFIG_SHELL_BACKEND_DUMMY_BUF_SIZE * 2) := ⟨by decide⟩

def Shell.boot : Shell := ⟨[], .zeroed _, .zeroed _⟩

def pushEffects (body : List UInt8) : List Effect :=
  match pushTarget body with
  | .error _ => []
  | .ok (path, file) => [.writeFile path file]

def pushbinEffects (path body : List UInt8) : List Effect :=
  match pushbinTarget path body with
  | .error _ => []
  | .ok (path, data) => [.writeFile path data]

def shellEffects (body : List UInt8) : List Effect := (shellTarget body).toOption.toList

def notePath (path : List UInt8) (request : RequestCtx) : List UInt8 :=
  if path = [] then headerPath request.headers else path

namespace Request

variable (r : Request)

/-- What a request may do at most, given its body and the path in its headers. -/
def pushed : List Effect := r.whole.elim [] pushEffects

def pushedBin : List Effect :=
  r.whole.elim [] (pushbinEffects ((r.more ++ r.last).foldl notePath []))

def executed : List Effect := r.whole.elim [] shellEffects

end Request

theorem pushHandler_collects : Collects pushHandler Push.body (fun _ => ()) () (fun _ _ => ())
    fun _ => pushEffects := by
  refine .of_each fun callback s => ?_
  unfold pushHandler
  obtain ⟨phase, body⟩ := accumulate s.body callback
  cases phase with
  | ended => exact ⟨rfl, rfl, rfl⟩
  | tooLarge => exact ⟨rfl, rfl, rfl⟩
  | more => exact ⟨rfl, rfl, rfl⟩
  | whole all =>
    dsimp only
    unfold pushEffects
    cases pushTarget all with
    | error ret => exact ⟨rfl, rfl, rfl⟩
    | ok target => exact ⟨rfl, rfl, rfl⟩

theorem shellHandler_collects : Collects shellHandler Shell.body (fun _ => ()) () (fun _ _ => ())
    fun _ => shellEffects := by
  refine .of_each fun callback s => ?_
  unfold shellHandler
  obtain ⟨phase, body⟩ := accumulate s.body callback
  cases phase with
  | ended => exact ⟨rfl, rfl, rfl⟩
  | tooLarge => exact ⟨rfl, rfl, rfl⟩
  | more => exact ⟨rfl, rfl, rfl⟩
  | whole all => exact ⟨rfl, rfl, rfl⟩

theorem text_headerPath (headers : List Header) :
    text (headerPath headers) = headerPath headers := by
  apply text_eq_self
  unfold headerPath
  split
  · intro zero
    exact zero_notMem_text _ (List.mem_of_mem_take zero)
  · exact List.not_mem_nil

theorem text_capturePath (path : List UInt8) (request : RequestCtx) :
    text (capturePath path request) = notePath (text path) request := by
  unfold capturePath notePath
  split_ifs
  · exact text_headerPath _
  · rfl

theorem pushbinTarget_text (path : List UInt8) :
    pushbinTarget (text path) body = pushbinTarget path body := by
  unfold pushbinTarget
  rw [text_eq_self (zero_notMem_text path)]

theorem pushbinHandler_collects : Collects pushbinHandler Pushbin.body (fun s => text s.path) []
    notePath pushbinEffects := by
  refine .of_each fun callback s => ?_
  unfold pushbinHandler
  obtain ⟨phase, body⟩ := accumulate s.body callback
  cases phase with
  | ended => exact ⟨rfl, rfl, rfl⟩
  | tooLarge => exact ⟨rfl, rfl, rfl⟩
  | more => exact ⟨rfl, text_capturePath s.path callback.request, rfl⟩
  | whole all =>
    dsimp only
    unfold pushbinEffects
    rw [← text_capturePath, pushbinTarget_text]
    cases refused : pushbinTarget (capturePath s.path callback.request) all with
    | error e =>
      unfold pushbinTarget at refused
      split_ifs at refused with none'
      exact ⟨rfl, none', rfl⟩
    | ok target => exact ⟨rfl, rfl, rfl⟩

/-- When every request that comes to its end is below the limit until its last data callback, the
handlers act on whole bodies only, each on that of its own request, and on none that reaches the
limit. -/
theorem bodies_acted_on_whole (requests : List Request) (contained : ∀ r ∈ requests, r.Contained) :
    (serveAll pushHandler requests .boot).1 = requests.flatMap Request.pushed ∧
      (serveAll pushbinHandler requests .boot).1 = requests.flatMap Request.pushedBin ∧
      (serveAll shellHandler requests .boot).1 = requests.flatMap Request.executed := by
  refine ⟨?_, ?_, ?_⟩
  · exact pushHandler_collects.serveAll_effects requests contained ⟨rfl, rfl⟩
  · exact pushbinHandler_collects.serveAll_effects requests contained ⟨rfl, rfl⟩
  · exact shellHandler_collects.serveAll_effects requests contained ⟨rfl, rfl⟩

def RequestCtx.of (data : List UInt8) : RequestCtx := ⟨data, [], ⟨0, 0, []⟩⟩

def smallPush : RequestCtx := .of (ascii "\x7b\"path\":\"/STORAGE:/a\",\"file\":\"b\"\x7d")

def oversizedPush : Request :=
  ⟨[.of (List.replicate WEBOS_HTTP_BODY_MAX 32)], .final smallPush true smallPush⟩

/-- The rest of a body that is too large is taken for a body of its own. -/
theorem oversized_push_written :
    WEBOS_HTTP_BODY_MAX ≤ oversizedPush.body.length ∧
      (serveAll pushHandler [oversizedPush] .boot).1 =
        [.writeFile (ascii "/STORAGE:/a") (ascii "b")] := by
  decide +kernel

/-- A request in two chunks, and one that is aborted. -/
theorem bodies_acted_on_whole_split :
    (serveAll pushHandler [⟨[.of (smallPush.data.take 9)],
      .final (.of (smallPush.data.drop 9)) true smallPush⟩, ⟨[smallPush], .aborted smallPush⟩]
      .boot).1 = [.writeFile (ascii "/STORAGE:/a") (ascii "b")] := by
  rw [(bodies_acted_on_whole _ ?_).1]
  · decide +kernel
  · intro r member
    rcases List.mem_cons.mp member with rfl | member
    · exact fun _ => by decide +kernel
    · rw [List.mem_singleton.mp member]
      exact fun no => absurd rfl no

end Webos.Services.Http
