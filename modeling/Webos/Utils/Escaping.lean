/- digest: What is read back of an escaped text, and what a text cut to its block leaves there. -/

import Webos.Utils.Json

namespace Webos.Utils

open Webos.Adb (EINVAL ENOENT ENOMEM ascii)
open Webos.Lib.Bytes
open Webos.Lib.CString
open Webos.Lib.Format

section Decode

/-- What `json_get_string` makes of the escape of a byte: it knows no `\u`, and drops only the
backslash of one. -/
def decoded (c : UInt8) : List UInt8 := if longEscaped c then (longEscape c).tail else [c]

theorem hexDigit_plain {n : Nat} (small : n < 16) :
    hexDigit n ≠ quote ∧ hexDigit n ≠ backslash := by
  have all : ∀ n : Fin 16, hexDigit n ≠ quote ∧ hexDigit n ≠ backslash := by decide
  exact all ⟨n, small⟩

theorem shortEscape_reads {c e : UInt8} (short : shortEscape c = some e) : unescape e = c := by
  unfold shortEscape at short
  split_ifs at short with same newline return' tab
  · cases short
    rcases same with rfl | rfl
    all_goals rfl
  · cases short
    exact newline.symm
  · cases short
    exact return'.symm
  · cases short
    exact tab.symm

theorem shortEscape_none {c : UInt8} (plain : shortEscape c = none) :
    c ≠ quote ∧ c ≠ backslash := by
  unfold shortEscape at plain
  split_ifs at plain with same
  · rw [not_or] at same
    exact ⟨same.2, same.1⟩

section Step

variable {outLen : Nat} {out rest : List UInt8}

theorem jsonString_quote : jsonString outLen (quote :: rest) out = .ok out := by
  rw [jsonString.eq_def]
  simp

theorem jsonString_plain {c : UInt8} (plain : c ≠ quote ∧ c ≠ backslash)
    (room : out.length + 1 < outLen) :
    jsonString outLen (c :: rest) out = jsonString outLen rest (out ++ [c]) := by
  rw [jsonString.eq_def]
  dsimp only
  rw [if_neg plain.1, if_neg (by omega), if_neg plain.2]

theorem jsonString_escape (e : UInt8) (room : out.length + 1 < outLen) :
    jsonString outLen (backslash :: e :: rest) out =
      jsonString outLen rest (out ++ [unescape e]) := by
  rw [jsonString, if_neg (by decide), if_neg (by omega), if_pos rfl]

theorem jsonString_run {s : List UInt8} (plain : ∀ c ∈ s, c ≠ quote ∧ c ≠ backslash)
    (room : out.length + s.length < outLen) :
    jsonString outLen (s ++ rest) out = jsonString outLen rest (out ++ s) := by
  induction s generalizing out with
  | nil => simp
  | cons c s ih =>
    simp only [List.length_cons] at room
    rw [List.cons_append, jsonString_plain (plain c (by simp)) (by omega),
      ih (fun d member => plain d (by simp [member])) (by simp; omega)]
    simp

theorem jsonString_escapeByte (c : UInt8) (room : out.length + (decoded c).length < outLen) :
    jsonString outLen (escapeByte c ++ rest) out = jsonString outLen rest (out ++ decoded c) := by
  by_cases long : longEscaped c
  · have small : c.toNat < 32 := long.2
    have high := hexDigit_plain (n := c.toNat / 16) (by omega)
    have low := hexDigit_plain (n := c.toNat % 16) (by omega)
    have shape : decoded c =
        [117] ++ [48, 48, hexDigit (c.toNat / 16), hexDigit (c.toNat % 16)] := by
      simp [decoded, long, longEscape]
    rw [shape] at room ⊢
    simp only [List.length_append, List.length_cons, List.length_nil] at room
    have first : escapeByte c ++ rest = backslash :: 117 ::
        ([48, 48, hexDigit (c.toNat / 16), hexDigit (c.toNat % 16)] ++ rest) := by
      simp [escapeByte_long long, longEscape]
    rw [first, jsonString_escape _ (by omega), jsonString_run, List.append_assoc]
    · rfl
    · simp [high, low]
      decide
    · simp
      omega
  · have shape : decoded c = [c] := by simp [decoded, long]
    rw [shape] at room ⊢
    cases short : shortEscape c with
    | some e =>
      have first : escapeByte c ++ rest = backslash :: e :: rest := by simp [escapeByte, short]
      rw [first, jsonString_escape _ (by omega), shortEscape_reads short]
    | none =>
      have printable : ¬ c < 32 := fun control => long ⟨short, control⟩
      have first : escapeByte c ++ rest = c :: rest := by simp [escapeByte, short, printable]
      rw [first, jsonString_plain (shortEscape_none short) (by omega)]

theorem jsonString_escape_append (s : List UInt8)
    (room : out.length + (s.flatMap decoded).length < outLen) :
    jsonString outLen (escape s ++ quote :: rest) out = .ok (out ++ s.flatMap decoded) := by
  induction s generalizing out with
  | nil => simp [escape, jsonString_quote]
  | cons c s ih =>
    simp only [List.flatMap_cons, List.length_append] at room
    have first : escape (c :: s) ++ quote :: rest =
        escapeByte c ++ (escape s ++ quote :: rest) := by
      simp [escape]
    rw [first, jsonString_escapeByte c (by omega), ih (by rw [List.length_append]; omega)]
    simp

end Step

theorem length_decoded_le (c : UInt8) : (decoded c).length ≤ (escapeByte c).length := by
  unfold decoded
  split_ifs with long
  · simp [escapeByte_long long]
  · unfold escapeByte
    split
    · simp
    · split_ifs
      · simp [longEscape]
      · simp

theorem length_flatMap_decoded_le (s : List UInt8) :
    (s.flatMap decoded).length ≤ (escape s).length := by
  induction s with
  | nil => simp
  | cons c s ih =>
    have first := length_decoded_le c
    simp only [escape, List.flatMap_cons, List.length_append] at ih ⊢
    omega

theorem flatMap_decoded_eq_self (s : List UInt8) :
    s.flatMap decoded = s ↔ ∀ c ∈ s, ¬ longEscaped c := by
  have grows (t : List UInt8) : t.length ≤ (t.flatMap decoded).length := by
    induction t with
    | nil => simp
    | cons c t ih =>
      have one : 1 ≤ (decoded c).length := by
        unfold decoded
        split_ifs
        · simp [longEscape]
        · simp
      simp only [List.flatMap_cons, List.length_append, List.length_cons]
      omega
  induction s with
  | nil => simp
  | cons c s ih =>
    by_cases long : longEscaped c
    · refine iff_of_false ?_ (fun none => none c (by simp) long)
      intro same
      have lengths := congrArg List.length same
      have tail := grows s
      have five : (decoded c).length = 5 := by simp [decoded, long, longEscape]
      simp only [List.flatMap_cons, List.length_append, List.length_cons] at lengths
      omega
    · have one : decoded c = [c] := by simp [decoded, long]
      rw [List.flatMap_cons, one, List.singleton_append, List.cons_inj_right]
      simp [long, ih]

end Decode

section Encode

/-- What a block of some length holds of a source: the longest front whose escapes take fewer
bytes. -/
def fitting : Nat → List UInt8 → List UInt8
  | _, [] => []
  | room, c :: src =>
    if (escapeByte c).length < room then c :: fitting (room - (escapeByte c).length) src else []

theorem fitting_prefix (room : Nat) (src : List UInt8) : fitting room src <+: src := by
  induction src generalizing room with
  | nil => simp [fitting]
  | cons c src ih =>
    rw [fitting]
    split_ifs
    · exact (List.prefix_cons_inj c).mpr (ih _)
    · exact List.nil_prefix

theorem fitting_whole {room : Nat} {src : List UInt8} (fits : (escape src).length < room) :
    fitting room src = src := by
  induction src generalizing room with
  | nil => rfl
  | cons c src ih =>
    simp only [escape, List.flatMap_cons, List.length_append] at fits ih
    rw [fitting, if_pos (by omega), ih (by omega)]

/-- A byte with the long escape was the last one stored, so that a zero follows it. -/
def EndsLong (front : List UInt8) : Prop := ∃ c ∈ front.getLast?, longEscaped c

theorem endsLong_cons (c : UInt8) (front : List UInt8) :
    EndsLong (c :: front) ↔ (front = [] ∧ longEscaped c) ∨ EndsLong front := by
  unfold EndsLong
  cases front with
  | nil => simp
  | cons d front => simp [List.getLast?_cons_cons]

/-- The state of a block after `append_json_string` with `n` bytes for it, from `pos` on. -/
structure Stored (n pos : Nat) (src dst : List UInt8) (out : Nat × List UInt8) : Prop where
  position : out.1 = pos + (escape (fitting (n - pos) src)).length
  inside : out.1 < n
  size : out.2.length = dst.length
  outside : out.2.drop n = dst.drop n
  content : out.2.take out.1 = dst.take pos ++ escape (fitting (n - pos) src)
  terminated : out.2[out.1]? = some 0 ↔ fitting (n - pos) src = src ∨ out.1 + 1 = n ∨
    EndsLong (fitting (n - pos) src) ∨ dst[out.1]? = some 0

theorem take_memcpy_self (dst src : List UInt8) {pos : Nat} (inside : pos ≤ dst.length) :
    (memcpy dst pos src).take pos = dst.take pos := by
  rw [memcpy, List.append_assoc, List.take_left' (by simp; omega)]

theorem take_memcpy_prefix (dst : List UInt8) (pos : Nat) (src more : List UInt8)
    (inside : pos ≤ dst.length) :
    (memcpy dst pos (src ++ more)).take (pos + src.length) = dst.take pos ++ src := by
  rw [memcpy, ← List.append_assoc, List.append_assoc]
  exact List.take_left' (by simp; omega)

theorem drop_memcpy_of_le {dst src : List UInt8} {pos n : Nat} (fits : pos + src.length ≤ n)
    (inside : pos ≤ dst.length) : (memcpy dst pos src).drop n = dst.drop n := by
  have behind := drop_memcpy dst pos (n - (pos + src.length)) src inside
  rwa [show pos + src.length + (n - (pos + src.length)) = n by omega] at behind

theorem stored_ended {n pos : Nat} {src dst : List UInt8} (here : pos < n) (within : n ≤ dst.length)
    (done : fitting (n - pos) src = src ∨ pos + 1 = n)
    (empty : fitting (n - pos) src = []) : Stored n pos src dst (pos, memcpy dst pos [0]) where
  position := by simp [empty, escape]
  inside := here
  size := length_memcpy dst pos [0] (by simp; omega)
  outside := drop_memcpy_of_le (by simp; omega) (by omega)
  content := by simp [empty, escape, take_memcpy_self dst [0] (show pos ≤ dst.length by omega)]
  terminated := by
    have zero : (memcpy dst pos [0])[pos]? = some 0 := by
      rw [getElem?_memcpy dst [0] pos (by simp; omega), if_pos (by simp)]
      simp
    exact iff_of_true zero (done.elim Or.inl fun full => Or.inr (Or.inl full))

theorem escape_ne_nil {c : UInt8} {src : List UInt8} : 0 < (escape (c :: src)).length := by
  have one : 0 < (escapeByte c).length := by
    unfold escapeByte
    split
    · simp
    · split_ifs
      · simp [longEscape]
      · simp
  simp only [escape, List.flatMap_cons, List.length_append]
  omega

/-- Behind a byte and what was stored after it stands a zero if the byte brought one and nothing
came after it, and else what stood there before. -/
theorem getElem?_behind {dst : List UInt8} {c : UInt8} {front : List UInt8} {pos : Nat}
    (within : pos + (escapeByte c).length < dst.length) :
    (memcpy dst pos (escapeByte c ++ if longEscaped c then [0] else []))[pos +
        (escapeByte c).length + (escape front).length]? = some 0 ↔
      (front = [] ∧ longEscaped c) ∨
        dst[pos + (escapeByte c).length + (escape front).length]? = some 0 := by
  have fits : pos + (escapeByte c ++ if longEscaped c then [0] else []).length ≤ dst.length := by
    split_ifs
    · simp only [List.length_append, List.length_cons, List.length_nil]
      omega
    · simp only [List.append_nil]
      omega
  rw [getElem?_memcpy _ _ _ fits]
  cases front with
  | nil =>
    by_cases long : longEscaped c
    all_goals simp [long, escape]
  | cons d front =>
    have more := @escape_ne_nil d front
    have short : (escapeByte c ++ if longEscaped c then [0] else []).length ≤
        (escapeByte c).length + 1 := by
      split_ifs
      all_goals simp
    rw [if_neg (by omega)]
    simp

theorem appendJson_stored {n : Nat} (src : List UInt8) {pos : Nat} {dst : List UInt8}
    (here : pos < n) (within : n ≤ dst.length) :
    Stored n pos src dst (appendJson n src pos dst) := by
  induction src generalizing pos dst with
  | nil =>
    exact stored_ended here within (Or.inl rfl) rfl
  | cons c src ih =>
    by_cases room : pos + (escapeByte c).length < n
    · have front : fitting (n - pos) (c :: src) =
          c :: fitting (n - (pos + (escapeByte c).length)) src := by
        rw [fitting, if_pos (by omega), Nat.sub_sub]
      have fits : pos + (escapeByte c ++ if longEscaped c then [0] else []).length ≤ n := by
        split_ifs
        · simp only [List.length_append, List.length_cons, List.length_nil]
          omega
        · simp only [List.append_nil]
          omega
      have behind := @getElem?_behind dst c (fitting (n - (pos + (escapeByte c).length)) src) pos
        (by omega)
      have held := take_memcpy_prefix dst pos (escapeByte c) (if longEscaped c then [0] else [])
        (by omega)
      have size := length_memcpy dst pos _ (Nat.le_trans fits within)
      have rest := @ih _ (memcpy dst pos _) room (by rw [size]; exact within)
      rw [appendJson_stores room]
      refine ⟨?_, rest.inside, rest.size.trans size,
        rest.outside.trans (drop_memcpy_of_le fits (by omega)), ?_, ?_⟩
      · rw [rest.position, front]
        simp only [escape, List.flatMap_cons, List.length_append]
        omega
      · rw [rest.content, held, front]
        simp [escape]
      · rw [rest.terminated, front, endsLong_cons, List.cons_inj_right, rest.position, behind]
        refine or_congr_right (or_congr_right ?_)
        rw [or_assoc, or_left_comm]
    · have none : fitting (n - pos) (c :: src) = [] := by
        rw [fitting, if_neg (by omega)]
      rw [appendJson_stops (Nat.not_lt.mp room)]
      split_ifs with more
      · refine ⟨by simp [none, escape], here, rfl, rfl, by simp [none, escape], ?_⟩
        have notLong : ¬ EndsLong ([] : List UInt8) := by simp [EndsLong]
        rw [none]
        simp [notLong]
        omega
      · exact stored_ended here within (Or.inr (by omega)) none

end Encode

/-- A call of `append_json_string` with `n` bytes for the result kept to its block and left there a
terminated string of complete escapes. -/
structure CutCleanly (n : Nat) (src dst : List UInt8) (out : Nat × List UInt8) : Prop where
  size : out.2.length = dst.length
  outside : out.2.drop n = dst.drop n
  inside : out.1 < n
  terminated : out.2[out.1]? = some 0
  complete : ∃ front, front <+: src ∧ out.2.take out.1 = escape front

/-- The string is terminated if the whole source was stored, the block is full, the last escape
brought its own zero, or a zero happened to stand there. -/
theorem append_json_cut_cleanly_iff {n : Nat} {src dst : List UInt8} (positive : 1 ≤ n)
    (within : n ≤ dst.length) : CutCleanly n src dst (appendJson n src 0 dst) ↔
      fitting n src = src ∨ (escape (fitting n src)).length + 1 = n ∨ EndsLong (fitting n src) ∨
        dst[(escape (fitting n src)).length]? = some 0 := by
  have stored := appendJson_stored src (by omega : 0 < n) within
  have position := stored.position
  have terminated := stored.terminated
  have content := stored.content
  rw [Nat.sub_zero, Nat.zero_add] at position
  rw [Nat.sub_zero, position] at terminated
  constructor
  · intro clean
    have zero := clean.terminated
    rw [position] at zero
    exact terminated.mp zero
  · intro condition
    refine ⟨stored.size, stored.outside, stored.inside, ?_, fitting n src, fitting_prefix n src,
      content⟩
    rw [position]
    exact terminated.mpr condition

theorem append_json_cut_cleanly_line :
    CutCleanly 4 (ascii "a\n") (ascii "stale") (appendJson 4 (ascii "a\n") 0 (ascii "stale")) :=
  (append_json_cut_cleanly_iff (by decide) (by decide)).mpr (Or.inl (by decide))

/-- A line end that does not fit leaves the text of an earlier call. -/
theorem append_json_leaves_stale :
    ¬ CutCleanly 2 (ascii "\n") (ascii "ok") (appendJson 2 (ascii "\n") 0 (ascii "ok")) := by
  intro clean
  have zero := clean.terminated
  revert zero
  decide

section RoundTrip

/-- The bytes that `append_json_string` has produced when it returns. -/
def encoded (dst src : List UInt8) : List UInt8 :=
  (appendJsonString dst src).2.take (appendJsonString dst src).1

theorem encoded_eq {dst src : List UInt8} (room : (escape src).length < dst.length) :
    encoded dst src = escape src := by
  have content := (appendJson_stored src (by omega : 0 < dst.length) (Nat.le_refl _)).content
  rw [Nat.sub_zero, fitting_whole room, List.take_zero, List.nil_append] at content
  exact content

def objectText (key value : List UInt8) : List UInt8 :=
  123 :: quote :: key ++ quote :: 58 :: quote :: value ++ [quote, 125]

theorem jsonGetString_objectText {key : List UInt8} (short : key.length ≤ 29)
    (value : List UInt8) (outLen : Nat) :
    jsonGetString (objectText key value) key outLen =
      jsonString outLen (value ++ [quote, 125]) [] := by
  have pattern : keyPattern key = some (quote :: key ++ [quote]) := by
    simp [keyPattern]
    omega
  have found : strstr (objectText key value) (quote :: key ++ [quote]) =
      some ((quote :: key ++ [quote]) ++ (58 :: quote :: value ++ [quote, 125])) := by
    have split : objectText key value =
        [123] ++ ((quote :: key ++ [quote]) ++ (58 :: quote :: value ++ [quote, 125])) := by
      simp [objectText]
    rw [split]
    exact (strstr_append (by decide) _ (key ++ [quote])).trans (strstr_here _ _)
  rw [jsonGetString, pattern]
  dsimp only
  rw [found]
  dsimp only
  rw [List.drop_left]
  rfl

theorem longEscaped_iff (c : UInt8) : longEscaped c ↔ c < 32 ∧ c ≠ 9 ∧ c ≠ 10 ∧ c ≠ 13 := by
  revert c
  apply Lib.Bytes.forall_byte
  decide +kernel

/-- What `append_json_string` has escaped, `json_get_string` reads back if and only if the text has
no control characters but tabs and line ends. -/
theorem json_decode_encode_iff {s key dst : List UInt8} {outLen : Nat} (short : key.length ≤ 29)
    (room : (escape s).length < dst.length) (outRoom : (escape s).length < outLen) :
    jsonGetString (objectText key (encoded dst s)) key outLen = .ok s ↔
      ∀ c ∈ s, 32 ≤ c ∨ c = 9 ∨ c = 10 ∨ c = 13 := by
  have bound := length_flatMap_decoded_le s
  have reads := @jsonString_escape_append outLen [] [125] s (by simp only [List.length_nil]; omega)
  rw [jsonGetString_objectText short, encoded_eq room, reads, List.nil_append,
    Except.ok.injEq, flatMap_decoded_eq_self]
  refine forall₂_congr fun c _ => ?_
  rw [longEscaped_iff, UInt8.not_lt.symm]
  tauto

theorem json_decode_encode_quoted : jsonGetString (objectText (ascii "k")
    (encoded (List.replicate 16 88) (ascii "a\"\\\n"))) (ascii "k") 16 = .ok (ascii "a\"\\\n") :=
  (json_decode_encode_iff (by decide) (by decide) (by decide)).mpr (by simp [ascii])

/-- A control character comes back as the text of its escape. -/
theorem json_decode_encode_control : jsonGetString (objectText (ascii "k")
    (encoded (List.replicate 16 0) [1])) (ascii "k") 16 = .ok (ascii "u0001") ∧
      ascii "u0001" ≠ [1] := by
  decide

end RoundTrip

end Webos.Utils
