/- digest: The urls that an application may request are those of the origins it was granted. -/

import Webos.Lib.Runs
import Webos.Services.App.Context

namespace Webos.Services.App

open Webos.Adb (ascii)
open Webos.Lib.CString
open Webos.Lib.Runs

/-- `struct webos_app_context`, with the grants for requests. -/
structure HttpContext extends AppContext where
  httpOrigins : Fin WEBOS_APP_MAX_GRANTS → Option (List UInt8)
  httpOriginCount : Nat

def star : List UInt8 := ascii "*"

/-- What may follow an origin in a url: `/`, `?` or `#`. -/
def boundary (c : UInt8) : Bool := c == 47 || c == 63 || c == 35

def starAllows (origin url : List UInt8) : Bool :=
  origin.length == 1 && origin.getD 0 0 == 42 &&
    ((url.length > 7 && url.take 7 == ascii "http://") ||
      (url.length > 8 && url.take 8 == ascii "https://"))

def originAllows (origin url : List UInt8) : Bool :=
  let n := origin.length
  n != 0 && n ≤ url.length && url.take n == origin && (url.length == n || boundary (url.getD n 0))

def HttpContext.origin (context : HttpContext) (i : Fin WEBOS_APP_MAX_GRANTS) :
    Option (List UInt8) :=
  if i < context.httpOriginCount then context.httpOrigins i else none

def webosAppUrlAllowed (context : Option HttpContext) (url : Option (List UInt8)) : Bool :=
  match context, url with
  | some context, some url =>
    url.length != 0 && !url.contains 0 && (List.finRange WEBOS_APP_MAX_GRANTS).any fun i =>
        match context.origin i with
        | none => false
        | some origin => starAllows origin url || originAllows origin url
  | _, _ => false

section Origin

def schemeEnd : List UInt8 := ascii "://"

/-- The scheme and authority of a url: what stands before the first `://`, and what stands behind
it up to a boundary or the end. -/
def originOf (url : List UInt8) : Option (List UInt8 × List UInt8) :=
  (strstr url schemeEnd).map fun rest =>
    (url.take (url.length - rest.length), (rest.drop 3).takeWhile fun c => !boundary c)

structure OriginGrant (grant scheme authority : List UInt8) : Prop where
  shape : grant = scheme ++ schemeEnd ++ authority
  scheme : (58 : UInt8) ∉ scheme
  authority : ∀ c ∈ authority, boundary c = false

variable {grant scheme authority url rest : List UInt8}

theorem originOf_append (free : (58 : UInt8) ∉ scheme)
    (authorityFree : ∀ c ∈ authority, boundary c = false)
    (ends : Stops (fun c => !boundary c) rest) :
    originOf (scheme ++ schemeEnd ++ authority ++ rest) = some (scheme, authority) := by
  have found : strstr (scheme ++ (schemeEnd ++ (authority ++ rest))) schemeEnd =
      some (schemeEnd ++ (authority ++ rest)) :=
    (strstr_append free _ (ascii "//")).trans (strstr_here _ _)
  have drop : (schemeEnd ++ (authority ++ rest)).drop 3 = authority ++ rest := rfl
  have run : (authority ++ rest).takeWhile (fun c => !boundary c) = authority :=
    takeWhile_run (fun c member => by simp [authorityFree c member]) ends
  rw [List.append_assoc, List.append_assoc, originOf, found, Option.map_some, drop, run]
  simp

theorem exists_rest (origin : originOf url = some (scheme, authority)) :
    ∃ rest, url = scheme ++ schemeEnd ++ authority ++ rest ∧ Stops (fun c => !boundary c) rest := by
  unfold originOf at origin
  cases found : strstr url schemeEnd with
  | none =>
    rw [found] at origin
    cases origin
  | some tail =>
    rw [found] at origin
    obtain ⟨⟨front, split⟩, more, begins⟩ := strstr_some found
    rw [Option.map_some, Option.some.injEq, Prod.mk.injEq] at origin
    obtain ⟨first, second⟩ := origin
    have drop : tail.drop 3 = more := by
      rw [← begins]
      rfl
    have take : url.take (url.length - tail.length) = front := by
      rw [← split]
      simp
    rw [take] at first
    rw [drop] at second
    refine ⟨more.dropWhile fun c => !boundary c, ?_, stops_dropWhile more⟩
    rw [← split, ← begins, ← first, ← second, List.append_assoc, List.append_assoc,
      List.takeWhile_append_dropWhile]

theorem originOf_grant (granted : OriginGrant grant scheme authority) :
    originOf grant = some (scheme, authority) := by
  have whole := @originOf_append scheme authority [] granted.scheme granted.authority Stops.nil
  rw [List.append_nil] at whole
  rw [granted.shape, whole]

theorem originAllows_iff (some' : grant ≠ []) : originAllows grant url = true ↔
    ∃ rest, url = grant ++ rest ∧ Stops (fun c => !boundary c) rest := by
  unfold originAllows
  simp only [Bool.and_eq_true, bne_iff_ne, ne_eq, List.length_eq_zero_iff, decide_eq_true_eq,
    beq_iff_eq, Bool.or_eq_true]
  have behind (rest : List UInt8) : (grant ++ rest).getD grant.length 0 = rest.getD 0 0 := by
    rw [List.getD_eq_getElem?_getD, List.getElem?_append_right (Nat.le_refl _), Nat.sub_self,
      ← List.getD_eq_getElem?_getD]
  constructor
  · rintro ⟨⟨-, front⟩, ends⟩
    obtain ⟨rest, rfl⟩ := List.prefix_iff_eq_take.mpr front.symm
    refine ⟨rest, rfl, ?_⟩
    cases rest with
    | nil => exact Stops.nil
    | cons c rest =>
      rw [behind] at ends
      simp only [List.length_append, List.length_cons, Nat.add_eq_left, Nat.add_eq_zero_iff,
        Nat.one_ne_zero, and_false, false_or, List.getD_cons_zero] at ends
      exact Stops.cons (by simp [ends])
  · rintro ⟨rest, rfl, ends⟩
    refine ⟨⟨⟨some', by simp⟩, by simp⟩, ?_⟩
    cases rest with
    | nil => simp
    | cons c rest =>
      simpa using ends.head

theorem originAllows_grant (granted : OriginGrant grant scheme authority) :
    originAllows grant url = true ↔ originOf url = some (scheme, authority) := by
  have some' : grant ≠ [] := by
    rw [granted.shape]
    simp [schemeEnd, ascii]
  rw [originAllows_iff some', granted.shape]
  constructor
  · rintro ⟨rest, rfl, ends⟩
    exact originOf_append granted.scheme granted.authority ends
  · exact exists_rest

theorem starAllows_star : starAllows star url = true ↔
    ∃ rest, rest ≠ [] ∧ (url = ascii "http://" ++ rest ∨ url = ascii "https://" ++ rest) := by
  have front {n : Nat} {s : List UInt8} (size : s.length = n) :
      (n < url.length ∧ url.take n = s) ↔ ∃ rest, rest ≠ [] ∧ url = s ++ rest := by
    constructor
    · rintro ⟨more, same⟩
      obtain ⟨rest, rfl⟩ := List.prefix_iff_eq_take.mpr (size ▸ same.symm)
      refine ⟨rest, ?_, rfl⟩
      rintro rfl
      rw [List.append_nil] at more
      omega
    · rintro ⟨rest, some', rfl⟩
      have positive := List.length_pos_of_ne_nil some'
      rw [List.length_append, ← size]
      exact ⟨by omega, by simp⟩
  have single : (star.length == 1 && star.getD 0 0 == 42) = true := by decide
  unfold starAllows
  rw [single, Bool.true_and, Bool.or_eq_true, Bool.and_eq_true, Bool.and_eq_true,
    decide_eq_true_eq, decide_eq_true_eq, beq_iff_eq, beq_iff_eq]
  rw [front (by decide), front (by decide), ← exists_or]
  simp only [← and_or_left]

theorem starAllows_grant (granted : OriginGrant grant scheme authority) :
    starAllows grant url = false := by
  have long : grant.length ≠ 1 := by
    rw [granted.shape]
    simp [schemeEnd, ascii]
    omega
  simp [starAllows, long]

/-- The url starts with a star as if that was an origin. -/
def StarUrl (url : List UInt8) : Prop :=
  ∃ rest, url = star ++ rest ∧ Stops (fun c => !boundary c) rest

end Origin

def Grant (grant : List UInt8) : Prop :=
  grant = star ∨ ∃ scheme authority, OriginGrant grant scheme authority

/-- What a grant is meant to allow: a star any url of the two schemes, an origin the urls with the
same scheme and authority. -/
def Allows (grant url : List UInt8) : Prop :=
  (grant = star ∧ ∃ rest, rest ≠ [] ∧
      (url = ascii "http://" ++ rest ∨ url = ascii "https://" ++ rest)) ∨
    ∃ origin, originOf url = some origin ∧ originOf grant = some origin

theorem originOf_star : originOf star = none := by decide

/-- The two tests for a grant let through what it allows, and with a star also the star itself. -/
theorem tests_iff {grant url : List UInt8} (form : Grant grant) :
    (starAllows grant url || originAllows grant url) = true ↔
      Allows grant url ∨ (grant = star ∧ StarUrl url) := by
  rw [Bool.or_eq_true]
  rcases form with rfl | ⟨scheme, authority, granted⟩
  · rw [starAllows_star, originAllows_iff (by decide)]
    simp [Allows, originOf_star, StarUrl]
  · have other : grant ≠ star := by
      rintro rfl
      cases originOf_star.symm.trans (originOf_grant granted)
    rw [starAllows_grant granted, originAllows_grant granted]
    simp [Allows, other, originOf_grant granted]

/-- Some grant that counts allows the url. -/
def HttpContext.Granted (context : HttpContext) (url : List UInt8) : Prop :=
  url ≠ [] ∧ 0 ∉ url ∧ ∃ i grant, context.origin i = some grant ∧ Allows grant url

theorem webosAppUrlAllowed_iff (context : HttpContext) (url : List UInt8)
    (forms : ∀ i grant, context.origin i = some grant → Grant grant) :
    webosAppUrlAllowed (some context) (some url) = true ↔ url ≠ [] ∧ 0 ∉ url ∧
      ∃ i grant, context.origin i = some grant ∧
        (Allows grant url ∨ (grant = star ∧ StarUrl url)) := by
  have each (i : Fin WEBOS_APP_MAX_GRANTS) : (match context.origin i with
      | none => false
      | some origin => starAllows origin url || originAllows origin url) = true ↔
      ∃ grant, context.origin i = some grant ∧
        (Allows grant url ∨ (grant = star ∧ StarUrl url)) := by
    cases here : context.origin i with
    | none => simp
    | some grant =>
      rw [tests_iff (forms i grant here)]
      simp
  simp [webosAppUrlAllowed, each, bne_iff_ne, decide_eq_false_iff_not, and_assoc]

/-- `webos_app_url_allowed` follows the grants if and only if no granted star meets a url that
starts with a star of its own. -/
theorem url_allowed_iff (context : HttpContext) (url : List UInt8)
    (forms : ∀ i grant, context.origin i = some grant → Grant grant) :
    (webosAppUrlAllowed (some context) (some url) = true ↔ context.Granted url) ↔
      ((∃ i, context.origin i = some star) → 0 ∉ url → StarUrl url → context.Granted url) := by
  rw [webosAppUrlAllowed_iff context url forms]
  constructor
  · rintro same ⟨i, here⟩ nonzero starUrl
    refine same.mp ⟨?_, nonzero, i, star, here, Or.inr ⟨rfl, starUrl⟩⟩
    obtain ⟨rest, rfl, -⟩ := starUrl
    simp [star, ascii]
  · intro condition
    constructor
    · rintro ⟨some', nonzero, i, grant, here, allows | ⟨rfl, starUrl⟩⟩
      · exact ⟨some', nonzero, i, grant, here, allows⟩
      · exact condition ⟨i, here⟩ nonzero starUrl
    · rintro ⟨some', nonzero, i, grant, here, allows⟩
      exact ⟨some', nonzero, i, grant, here, Or.inl allows⟩

def grantedContext (grant : List UInt8) : HttpContext where
  id := ascii "app"
  version := ascii "1"
  storageRoot := storageRootOf (ascii "app")
  pathGrants := fun _ => none
  pathGrantCount := 0
  maxIoBytes := WEBOS_ABI_MAX_IO_BYTES
  httpOrigins := fun _ => some grant
  httpOriginCount := 1

theorem grantedContext_origin {grant grant' : List UInt8} {i : Fin WEBOS_APP_MAX_GRANTS}
    (here : (grantedContext grant).origin i = some grant') : grant' = grant := by
  unfold HttpContext.origin at here
  split_ifs at here
  cases here
  rfl

theorem url_allowed_near_miss :
    webosAppUrlAllowed (some (grantedContext (ascii "https://api.example")))
        (some (ascii "https://api.example.evil/")) = false ∧
      (webosAppUrlAllowed (some (grantedContext (ascii "https://api.example")))
          (some (ascii "https://api.example.evil/")) = true ↔
        (grantedContext (ascii "https://api.example")).Granted
          (ascii "https://api.example.evil/")) := by
  refine ⟨by decide, (url_allowed_iff _ _ ?_).mpr ?_⟩
  · intro i grant here
    have plain : (ascii "api.example").all (boundary · = false) = true := by decide
    rw [grantedContext_origin here]
    refine Or.inr ⟨ascii "https", ascii "api.example", by decide, by decide, fun c member => ?_⟩
    simpa using List.all_eq_true.mp plain c member
  · rintro ⟨i, here⟩
    exact absurd (grantedContext_origin here) (by decide)

/-- The star is compared like an origin, so that it allows itself as a url. -/
theorem url_allowed_star :
    webosAppUrlAllowed (some (grantedContext star)) (some star) = true ∧
      ¬ (grantedContext star).Granted star := by
  refine ⟨by decide, ?_⟩
  rintro ⟨-, -, i, grant, here, ⟨-, rest, -, http | https⟩ | ⟨origin, no, -⟩⟩
  · exact absurd (congrArg List.head? http) (by simp [star, ascii])
  · exact absurd (congrArg List.head? https) (by simp [star, ascii])
  · cases originOf_star.symm.trans no

end Webos.Services.App
