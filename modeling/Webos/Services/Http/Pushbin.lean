/- digest: A binary push with its path in a header and one with its path in the body write alike. -/

import Webos.Services.Http.Bodies

namespace Webos.Services.Http

open Webos.Adb (ascii)
open Webos.Lib.Format

def namedPath (headers : List Header) : Option (List UInt8) :=
  match headers.find? fun h => h.name.map text = some (ascii "X-Webos-Path") ∧ h.value ≠ none with
  | some ⟨_, some value⟩ => some (text value)
  | _ => none

theorem headerPath_eq (headers : List Header) :
    headerPath headers = (namedPath headers).elim [] (List.take 127) := by
  unfold headerPath namedPath
  generalize headers.find? _ = found
  cases found with
  | none => rfl
  | some h =>
    obtain ⟨name, value⟩ := h
    cases value with
    | none => rfl
    | some value => rfl

/-- A request that comes to its end, with its path in a header and the payload as its body. -/
structure Carried (r : Request) (path payload : List UInt8) : Prop where
  ends : r.last ≠ []
  body : r.body = payload
  named : ∃ c ∈ r.more ++ r.last, namedPath c.headers = some path
  only : ∀ c ∈ r.more ++ r.last, namedPath c.headers = none ∨ namedPath c.headers = some path

/-- A request that comes to its end, with its path in the first line of its body. -/
structure Lined (r : Request) (path payload : List UInt8) : Prop where
  ends : r.last ≠ []
  body : r.body = path ++ newline :: payload
  unnamed : ∀ c ∈ r.more ++ r.last, namedPath c.headers = none

section Notes

variable {path : List UInt8} {cs : List RequestCtx}

theorem foldl_notePath_unnamed (unnamed : ∀ c ∈ cs, namedPath c.headers = none) :
    cs.foldl notePath [] = [] := by
  induction cs with
  | nil => rfl
  | cons c cs ih =>
    have first : notePath [] c = [] := by
      simp [notePath, headerPath_eq, unnamed c (by simp)]
    rw [List.foldl_cons, first, ih fun d member => unnamed d (by simp [member])]

theorem foldl_notePath_kept (some' : path ≠ []) : cs.foldl notePath path = path := by
  induction cs with
  | nil => rfl
  | cons c cs ih =>
    rw [List.foldl_cons, notePath, if_neg some', ih]

theorem foldl_notePath_named (some' : path ≠ []) (named : ∃ c ∈ cs, namedPath c.headers = some path)
    (only : ∀ c ∈ cs, namedPath c.headers = none ∨ namedPath c.headers = some path) :
    cs.foldl notePath [] = path.take 127 := by
  have cut : path.take 127 ≠ [] := by
    rw [Ne, List.take_eq_nil_iff, not_or]
    exact ⟨by decide, some'⟩
  induction cs with
  | nil =>
    obtain ⟨c, member, -⟩ := named
    cases member
  | cons c cs ih =>
    rw [List.foldl_cons]
    rcases only c (by simp) with none' | here
    · have first : notePath [] c = [] := by
        simp [notePath, headerPath_eq, none']
      rw [first]
      refine ih ?_ fun d member => only d (by simp [member])
      obtain ⟨d, member, there⟩ := named
      rcases List.mem_cons.mp member with rfl | later
      · rw [none'] at there
        cases there
      · exact ⟨d, later, there⟩
    · have first : notePath [] c = path.take 127 := by
        simp [notePath, headerPath_eq, here]
      rw [first, foldl_notePath_kept cut]

end Notes

theorem serveAll_fresh (requests : List Request) :
    Collects.Fresh Pushbin.body (fun s => text s.path) []
      (serveAll pushbinHandler requests .boot).2 := by
  induction requests using List.reverseRecOn with
  | nil => exact ⟨rfl, rfl⟩
  | append_singleton requests r _ =>
    unfold serveAll
    rw [List.flatMap_append, List.flatMap_singleton, serve_append]
    unfold Request.callbacks
    rw [serve_append]
    exact (pushbinHandler_collects.serve_closing r _).2

theorem firstLine_line {path : List UInt8} (payload : List UInt8) (single : newline ∉ path)
    (nonzero : 0 ∉ path) (short : path.length ≤ 127) :
    firstLine (path ++ newline :: payload) = .ok (path, payload) := by
  have line : (path ++ newline :: payload).takeWhile (· ≠ newline) = path := by
    rw [List.takeWhile_append_of_pos]
    · simp
    · intro c member
      rw [decide_eq_true_eq]
      rintro rfl
      exact single member
  unfold firstLine
  rw [line]
  rw [if_neg (by simp), if_neg (by omega), text_eq_self nonzero]
  simp [List.drop_append]

variable {path payload : List UInt8} {r : Request} (before : List Request)

theorem serve_whole (ends : r.last ≠ []) (small : r.body.length < WEBOS_HTTP_BODY_MAX) :
    (serve pushbinHandler r.callbacks (serveAll pushbinHandler before .boot).2).1 =
      pushbinEffects ((r.more ++ r.last).foldl notePath []) r.body := by
  have contained : r.Contained := by
    intro _
    have split : r.body.length = (r.more.map RequestCtx.data).flatten.length +
        (r.last.map RequestCtx.data).flatten.length := by
      simp [Request.body, Request.chunks]
    omega
  rw [(pushbinHandler_collects.serve_request r contained (serveAll_fresh before)).1,
    Request.whole, if_pos ⟨ends, small⟩]
  rfl

theorem serve_carried (some' : path ≠ []) (nonzero : 0 ∉ path)
    (small : payload.length < WEBOS_HTTP_BODY_MAX) (carried : Carried r path payload) :
    (serve pushbinHandler r.callbacks (serveAll pushbinHandler before .boot).2).1 =
      [.writeFile (path.take 127) payload] := by
  have cut : path.take 127 ≠ [] := by
    rw [Ne, List.take_eq_nil_iff, not_or]
    exact ⟨by decide, some'⟩
  have clean : text (path.take 127) = path.take 127 :=
    text_eq_self fun zero => nonzero (List.mem_of_mem_take zero)
  rw [serve_whole before carried.ends (by rw [carried.body]; exact small), carried.body,
    foldl_notePath_named some' carried.named carried.only]
  simp [pushbinEffects, pushbinTarget, clean, cut]

theorem serve_lined (single : newline ∉ path) (nonzero : 0 ∉ path) (short : path.length ≤ 127)
    (small : path.length + 1 + payload.length < WEBOS_HTTP_BODY_MAX)
    (lined : Lined r path payload) :
    (serve pushbinHandler r.callbacks (serveAll pushbinHandler before .boot).2).1 =
      [.writeFile path payload] := by
  have size : r.body.length < WEBOS_HTTP_BODY_MAX := by
    rw [lined.body, List.length_append, List.length_cons]
    omega
  rw [serve_whole before lined.ends size, lined.body, foldl_notePath_unnamed lined.unnamed]
  simp [pushbinEffects, pushbinTarget, firstLine_line payload single nonzero short, text]

/-- Two requests have the same effect, and what they write is the payload to the path. -/
structure Agrees (path payload : List UInt8) (effects effects' : List Effect) : Prop where
  same : effects = effects'
  exact' : ∀ e ∈ effects ++ effects', e = .writeFile path payload

/-- Both ways to name the target of a binary push agree if and only if the path fits its buffer: a
longer one is cut when it comes in a header and refused when it comes in the body. -/
theorem pushbin_routes_agree_iff {r' : Request} (some' : path ≠ []) (single : newline ∉ path)
    (nonzero : 0 ∉ path) (small : path.length + 1 + payload.length < WEBOS_HTTP_BODY_MAX)
    (before before' : List Request) (carried : Carried r path payload)
    (lined : Lined r' path payload) :
    Agrees path payload
        (serve pushbinHandler r.callbacks (serveAll pushbinHandler before .boot).2).1
        (serve pushbinHandler r'.callbacks (serveAll pushbinHandler before' .boot).2).1 ↔
      path.length ≤ 127 := by
  rw [serve_carried before some' nonzero (by omega) carried]
  constructor
  · intro agrees
    have whole := agrees.exact' (.writeFile (path.take 127) payload) (by simp)
    have same : path.take 127 = path := by
      injection whole
    have length := congrArg List.length same
    rw [List.length_take] at length
    omega
  · intro short
    rw [serve_lined before' single nonzero short small lined, List.take_of_length_le (by omega)]
    exact ⟨rfl, by simp⟩

def carrying (path data : List UInt8) : RequestCtx :=
  ⟨data, [⟨some (ascii "X-Webos-Path"), some path⟩], ⟨0, 0, []⟩⟩

theorem pushbin_routes_agree_short :
    Agrees (ascii "/STORAGE:/a") [0, 255]
      (serve pushbinHandler (Request.callbacks ⟨[carrying (ascii "/STORAGE:/a") [0]],
        .final (carrying (ascii "/STORAGE:/a") [255]) true (.of [])⟩)
        (serveAll pushbinHandler [] .boot).2).1
      (serve pushbinHandler (Request.callbacks ⟨[.of (ascii "/STORAGE:/")],
        .final (.of (ascii "a" ++ [10, 0, 255])) true (.of [])⟩)
        (serveAll pushbinHandler [] .boot).2).1 := by
  refine (pushbin_routes_agree_iff (by decide) (by decide) (by decide) (by decide) [] []
    ⟨?_, ?_, ?_, ?_⟩ ⟨?_, ?_, ?_⟩).mpr (by decide)
  · exact List.cons_ne_nil _ _
  · decide
  · exact ⟨_, List.mem_cons_self, by decide⟩
  · intro c member
    simp only [Request.last, List.cons_append, List.nil_append, List.mem_cons,
      List.not_mem_nil, or_false] at member
    rcases member with rfl | rfl
    · exact Or.inr (by decide)
    · exact Or.inr (by decide)
  · exact List.cons_ne_nil _ _
  · decide
  · intro c member
    simp only [Request.last, List.cons_append, List.nil_append, List.mem_cons,
      List.not_mem_nil, or_false] at member
    rcases member with rfl | rfl
    · rfl
    · rfl

/-- A path of 128 bytes in a header is written to without its last byte; in the body it is
refused. -/
theorem pushbin_path_cut :
    (serve pushbinHandler (Request.callbacks ⟨[],
        .final (carrying (List.replicate 128 97) [1]) true (.of [])⟩) .boot).1 =
      [.writeFile (List.replicate 127 97) [1]] ∧
    (serve pushbinHandler (Request.callbacks ⟨[],
        .final (.of (List.replicate 128 97 ++ [10, 1])) true (.of [])⟩) .boot).1 = [] := by
  decide +kernel

end Webos.Services.Http
