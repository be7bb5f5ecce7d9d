/- digest: When the length passed with a response is that of the text in its buffer. -/

import Webos.Services.Http.Bodies

namespace Webos.Services.Http

open Webos.Adb (ascii)
open Webos.Lib.Format
open Webos.Utils

/-- The length is that of the string stored in the block. -/
def Response.Exact (r : Response) : Prop := r.bodyLen = (text r.body).length

instance (r : Response) : Decidable r.Exact := inferInstanceAs (Decidable (_ = _))

def Outcome.Exact {S E : Type} (out : Outcome S E) : Prop := ∀ r, out.response = some r → r.Exact

theorem exact_none {S E : Type} (effects : List E) (s : S) :
    (Outcome.mk effects none s).Exact := by
  rintro r no
  cases no

theorem exact_some {S E : Type} {effects : List E} {r : Response} {s : S} :
    (Outcome.mk effects (some r) s).Exact ↔ r.Exact := by
  constructor
  · intro exact'
    exact exact' r rfl
  · rintro exact' r' same
    cases same
    exact exact'

theorem respond_exact_iff {n : Nat} (buffer : Buffer n) (status : Status) {content : List UInt8}
    (nonzero : 0 ∉ content) : (respond buffer status content).1.Exact ↔ content.length < n :=
  buffer.snprintk_exact_iff nonzero

theorem requestTooLarge_exact : requestTooLarge.Exact := by
  decide

section Texts

theorem zero_notMem_okPath {path : List UInt8} (nonzero : 0 ∉ path) : 0 ∉ okPath path := by
  unfold okPath
  simp only [List.mem_append, not_or]
  exact ⟨⟨by decide, nonzero⟩, by decide⟩

theorem length_okPath (path : List UInt8) : (okPath path).length = path.length + 22 := by
  unfold okPath
  rw [List.length_append, List.length_append, show (ascii "\x7b\"ok\":true,\"path\":\"").length = 19
    from rfl, show (ascii "\"\x7d\n").length = 3 from rfl]
  omega

theorem zero_notMem_errorCode (ret : Int) : 0 ∉ errorCode ret := by
  unfold errorCode
  simp only [List.mem_append, not_or]
  exact ⟨⟨by decide, zero_notMem_decimal ret⟩, by decide⟩

theorem length_errorCode {ret : Int} (above : -2 ^ 31 ≤ ret) (below : ret < 2 ^ 31) :
    (errorCode ret).length < 96 := by
  have digits := length_decimal_le above below
  unfold errorCode
  rw [List.length_append, List.length_append, show (ascii "\x7b\"error\":").length = 9 from rfl,
    show (ascii "\x7d\n").length = 2 from rfl]
  omega

theorem zero_notMem_shellResult (ret : Int) {output : List UInt8} (nonzero : 0 ∉ output)
    (attached : Bool) : 0 ∉ shellResult ret output attached := by
  unfold shellResult
  simp only [List.mem_append, not_or]
  refine ⟨⟨⟨⟨⟨⟨by decide, zero_notMem_decimal ret⟩, by decide⟩, nonzero⟩, by decide⟩, ?_⟩,
    by decide⟩
  cases attached with
  | false => decide
  | true => decide

theorem length_shellResult {ret : Int} (above : -2 ^ 31 ≤ ret) (below : ret < 2 ^ 31)
    (output : List UInt8) (attached : Bool) :
    (shellResult ret output attached).length ≤ output.length + 48 := by
  have digits := length_decimal_le above below
  have flag : (ascii (if attached then "true" else "false")).length ≤ 5 := by
    cases attached with
    | false => decide
    | true => decide
  unfold shellResult
  simp only [List.length_append]
  rw [show (ascii "\x7b\"rc\":").length = 6 from rfl,
    show (ascii ",\"output\":\"").length = 11 from rfl,
    show (ascii "\",\"attached\":").length = 13 from rfl,
    show (ascii "\x7d\n").length = 2 from rfl]
  omega

theorem zero_notMem_logMessages {messages : List UInt8} (nonzero : 0 ∉ messages) :
    0 ∉ logMessages messages := by
  unfold logMessages
  simp only [List.mem_append, not_or]
  exact ⟨⟨by decide, nonzero⟩, by decide⟩

theorem length_logMessages (messages : List UInt8) :
    (logMessages messages).length = messages.length + 16 := by
  unfold logMessages
  rw [List.length_append, List.length_append,
    show (ascii "\x7b\"messages\":\"").length = 13 from rfl,
    show (ascii "\"\x7d\n").length = 3 from rfl]
  omega

end Texts

section Errors

variable {ret : Int}

theorem jsonString_error {outLen : Nat} {p out : List UInt8}
    (error : jsonString outLen p out = .error ret) : -2 ^ 31 ≤ ret ∧ ret < 2 ^ 31 := by
  fun_induction jsonString outLen p out with
  | case1 =>
    cases error
    decide
  | case2 => cases error
  | case3 =>
    cases error
    decide
  | case4 =>
    cases error
    decide
  | case5 out full e rest other ih => exact ih error
  | case6 c rest out other full plain ih => exact ih error

theorem jsonGetString_error {json key : List UInt8} {outLen : Nat}
    (error : jsonGetString json key outLen = .error ret) : -2 ^ 31 ≤ ret ∧ ret < 2 ^ 31 := by
  unfold jsonGetString at error
  split at error
  · cases error
    decide
  · split at error
    · cases error
      decide
    · split at error
      · split at error
        · exact jsonString_error error
        · cases error
          decide
      · cases error
        decide

variable {body : List UInt8}

theorem pushTarget_error (error : pushTarget body = .error ret) : -2 ^ 31 ≤ ret ∧ ret < 2 ^ 31 := by
  unfold pushTarget at error
  cases first : jsonGetString (text body) (ascii "path") 128 with
  | error e =>
    rw [first] at error
    cases error
    exact jsonGetString_error first
  | ok path =>
    rw [first] at error
    cases second : jsonGetString (text body) (ascii "file") WEBOS_JSON_VALUE_MAX with
    | error e =>
      rw [second] at error
      cases error
      exact jsonGetString_error second
    | ok file =>
      rw [second] at error
      cases error

theorem pushTarget_ok {path file : List UInt8} (ok : pushTarget body = .ok (path, file)) :
    0 ∉ path := by
  unfold pushTarget at ok
  cases first : jsonGetString (text body) (ascii "path") 128 with
  | error e =>
    rw [first] at ok
    cases ok
  | ok p =>
    rw [first] at ok
    cases second : jsonGetString (text body) (ascii "file") WEBOS_JSON_VALUE_MAX with
    | error e =>
      rw [second] at ok
      cases ok
    | ok f =>
      rw [second] at ok
      cases ok
      exact zero_notMem_jsonGetString (zero_notMem_text body) first

theorem pushbinTarget_ok {path path' data : List UInt8}
    (ok : pushbinTarget path body = .ok (path', data)) : 0 ∉ path' := by
  unfold pushbinTarget at ok
  split_ifs at ok with none'
  · unfold firstLine at ok
    dsimp only at ok
    split_ifs at ok
    cases ok
    exact zero_notMem_text _
  · cases ok
    exact zero_notMem_text _

theorem shellAnswer_range (answers : Answers) (body : List UInt8) :
    -2 ^ 31 ≤ (shellAnswer answers (shellTarget body)).1 ∧
      (shellAnswer answers (shellTarget body)).1 < 2 ^ 31 := by
  have mapped {json key : List UInt8} {f : List UInt8 → Effect} {ret : Int}
      (error : (jsonGetString json key 256).map f = .error ret) :
      -2 ^ 31 ≤ ret ∧ ret < 2 ^ 31 := by
    cases first : jsonGetString json key 256 with
    | error e =>
      rw [first] at error
      cases error
      exact jsonGetString_error first
    | ok value =>
      rw [first] at error
      cases error
  cases target : shellTarget body with
  | error ret =>
    unfold shellTarget at target
    split_ifs at target
    all_goals exact mapped target
  | ok effect =>
    have answer := And.intro answers.shell.le_toInt answers.shell.toInt_lt
    cases effect with
    | writeFile path data => exact answer
    | execute cmd => exact answer
    | pushInput input => exact answer
    | clearOutput => exact (by decide : -2 ^ 31 ≤ (0 : Int) ∧ (0 : Int) < 2 ^ 31)

end Errors

section Handlers

/-- A push that is acknowledged names a path that fits the response. -/
def PathFits (body : List UInt8) (callback : Callback) : Prop :=
  ∀ all path file, (accumulate body callback).1 = .whole all →
    pushTarget all = .ok (path, file) → callback.request.answers.write = 0 → path.length ≤ 73

variable (callback : Callback)

theorem pushHandler_exact_iff (s : Push) :
    (pushHandler callback s).Exact ↔ PathFits s.body callback := by
  unfold pushHandler PathFits
  obtain ⟨phase, body⟩ := accumulate s.body callback
  have idle (other : ∀ all, phase ≠ .whole all) : ∀ all path file, phase = .whole all →
      pushTarget all = .ok (path, file) → callback.request.answers.write = 0 → path.length ≤ 73 :=
    fun all _ _ whole => absurd whole (other all)
  cases phase with
  | ended => exact iff_of_true (exact_none _ _) (idle fun _ no => nomatch no)
  | tooLarge =>
    exact iff_of_true (exact_some.mpr requestTooLarge_exact) (idle fun _ no => nomatch no)
  | more => exact iff_of_true (exact_none _ _) (idle fun _ no => nomatch no)
  | whole all =>
    have refused {ret : Int} (range : -2 ^ 31 ≤ ret ∧ ret < 2 ^ 31) :
        (respond s.response .badRequest (errorCode ret)).1.Exact :=
      (respond_exact_iff _ _ (zero_notMem_errorCode ret)).mpr (length_errorCode range.1 range.2)
    dsimp only
    cases target : pushTarget all with
    | error ret =>
      refine iff_of_true (exact_some.mpr (refused (pushTarget_error target))) ?_
      intro all' path file same ok
      cases same
      rw [target] at ok
      cases ok
    | ok pair =>
      obtain ⟨path, file⟩ := pair
      dsimp only
      rw [exact_some]
      by_cases written : callback.request.answers.write = 0
      · rw [if_pos written, respond_exact_iff _ _ (zero_notMem_okPath (pushTarget_ok target)),
          length_okPath]
        constructor
        · intro short all' path' file' same ok _
          cases same
          rw [target] at ok
          cases ok
          omega
        · intro short
          have := short all path file rfl target written
          omega
      · rw [if_neg written]
        have range := And.intro callback.request.answers.write.le_toInt
          callback.request.answers.write.toInt_lt
        exact iff_of_true (refused range) fun _ _ _ _ _ zero => absurd zero written

/-- A pushed binary is acknowledged, with a path that fits the response, whenever there is a
response at all. -/
def BinAccepted (s : Pushbin) (callback : Callback) : Prop :=
  (accumulate s.body callback).1 ≠ .tooLarge ∧ ∀ all, (accumulate s.body callback).1 = .whole all →
      ∃ path data, pushbinTarget (capturePath s.path callback.request) all = .ok (path, data) ∧
        callback.request.answers.write = 0 ∧ path.length ≤ 73

theorem pushbinHandler_exact_iff (s : Pushbin) :
    (pushbinHandler callback s).Exact ↔ BinAccepted s callback := by
  unfold pushbinHandler BinAccepted
  obtain ⟨phase, body⟩ := accumulate s.body callback
  cases phase with
  | ended =>
    exact iff_of_true (exact_none _ _) ⟨(fun no => nomatch no), fun _ no => nomatch no⟩
  | tooLarge =>
    refine iff_of_false ?_ fun both => both.1 rfl
    rw [exact_some]
    decide
  | more =>
    exact iff_of_true (exact_none _ _) ⟨(fun no => nomatch no), fun _ no => nomatch no⟩
  | whole all =>
    dsimp only
    cases target : pushbinTarget (capturePath s.path callback.request) all with
    | error e =>
      refine iff_of_false ?_ ?_
      · rw [exact_some]
        cases e with
        | noPath => decide
        | badPath => decide
      · rintro ⟨-, accepted⟩
        obtain ⟨path, data, ok, -⟩ := accepted all rfl
        rw [target] at ok
        cases ok
    | ok pair =>
      obtain ⟨path, data⟩ := pair
      dsimp only
      rw [exact_some]
      by_cases written : callback.request.answers.write = 0
      · rw [if_pos written, respond_exact_iff _ _ (zero_notMem_okPath (pushbinTarget_ok target)),
          length_okPath]
        constructor
        · intro short
          refine ⟨(fun no => nomatch no), ?_⟩
          intro all' same
          cases same
          exact ⟨path, data, target, written, by omega⟩
        · rintro ⟨-, accepted⟩
          obtain ⟨path', data', ok, -, short⟩ := accepted all rfl
          rw [target] at ok
          cases ok
          omega
      · rw [if_neg written]
        refine iff_of_false (by decide : ¬pushbinWriteFailed.Exact) ?_
        rintro ⟨-, accepted⟩
        obtain ⟨-, -, -, zero, -⟩ := accepted all rfl
        exact written zero

theorem shellHandler_exact (s : Shell) : (shellHandler callback s).Exact := by
  unfold shellHandler
  obtain ⟨phase, body⟩ := accumulate s.body callback
  cases phase with
  | ended => exact exact_none _ _
  | tooLarge => exact exact_some.mpr requestTooLarge_exact
  | more => exact exact_none _ _
  | whole all =>
    obtain ⟨above, below⟩ := shellAnswer_range callback.request.answers all
    dsimp only
    generalize shellAnswer callback.request.answers (shellTarget all) = answer at above below
    obtain ⟨ret, output⟩ := answer
    dsimp only
    generalize (s.escaped.appendJsonString output).2 = escaped
    have short := escaped.length_text_lt
    rw [exact_some, respond_exact_iff _ _ (zero_notMem_shellResult ret escaped.zero_notMem_text _)]
    refine Nat.lt_of_le_of_lt (length_shellResult above below _ _) ?_
    omega

/-- The log that is read is short enough for the response when it is escaped. -/
def LogFits (s : Log) (callback : Callback) : Prop :=
  ∀ all, (accumulate s.body callback).1 = .whole all →
    (escape (logBufferRead WEBOS_HTTP_BODY_MAX s.log)).length ≤ 4079

theorem logHandler_exact_iff (s : Log) : (logHandler callback s).Exact ↔ LogFits s callback := by
  unfold logHandler LogFits
  obtain ⟨phase, body⟩ := accumulate s.body callback
  cases phase with
  | ended => exact iff_of_true (exact_none _ _) fun _ no => nomatch no
  | tooLarge =>
    exact iff_of_true (exact_some.mpr requestTooLarge_exact) fun _ no => nomatch no
  | more => exact iff_of_true (exact_none _ _) fun _ no => nomatch no
  | whole all =>
    dsimp only
    generalize logBufferRead WEBOS_HTTP_BODY_MAX s.log = messages
    rw [exact_some, respond_exact_iff _ _ (zero_notMem_logMessages (Buffer.zero_notMem_text _)),
      length_logMessages]
    have size : WEBOS_HTTP_BODY_MAX = 4096 := rfl
    by_cases fits : (escape messages).length < WEBOS_HTTP_BODY_MAX * 2
    · rw [s.escaped.text_appendJsonString fits]
      constructor
      · intro short _ _
        omega
      · intro short
        have := short all rfl
        omega
    · -- The block is filled up to an escape, which is too much for the response anyway.
      have long := s.escaped.length_text_appendJsonString (Nat.le_of_not_lt fits)
      refine iff_of_false ?_ ?_
      · omega
      · intro short
        have := short all rfl
        omega

end Handlers

/-- Each handler passes the length of its text exactly when what it answers with fits: for a push
the path, for a pushed binary also that it is accepted, for the log the escaped messages. The
shell's responses always fit. -/
theorem response_lengths_exact_iff (callback : Callback) :
    (∀ s, (pushHandler callback s).Exact ↔ PathFits s.body callback) ∧
      (∀ s, (pushbinHandler callback s).Exact ↔ BinAccepted s callback) ∧
      (∀ s, (shellHandler callback s).Exact) ∧
      ∀ s, (logHandler callback s).Exact ↔ LogFits s callback :=
  ⟨pushHandler_exact_iff callback, pushbinHandler_exact_iff callback, shellHandler_exact callback,
    logHandler_exact_iff callback⟩

/-- A push to a path of 100 bytes below the mount point, where `write_file` may write. -/
def longPathPush : RequestCtx :=
  .of (ascii "\x7b\"path\":\"/STORAGE:/" ++ List.replicate 90 97 ++ ascii "\",\"file\":\"\"\x7d")

/-- The length passed for a long path is larger than the buffer, and the one for a binary without
a path is not that of the text. -/
theorem long_path_discloses :
    (pushHandler ⟨.dataFinal, longPathPush⟩ .boot).effects =
        [.writeFile (ascii "/STORAGE:/" ++ List.replicate 90 97) []] ∧
      (pushHandler ⟨.dataFinal, longPathPush⟩ .boot).response.map
        (fun r => (r.bodyLen, r.body.length, (text r.body).length)) = some (122, 96, 95) ∧
      (pushbinHandler ⟨.dataFinal, .of []⟩ .boot).response.map
        (fun r => (r.bodyLen, (text r.body).length)) = some (19, 20) := by
  decide +kernel

end Webos.Services.Http
