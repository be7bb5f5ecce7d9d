/- digest: The header lines that an application may add to a request. -/

import Webos.Adb.Config
import Webos.Lib.CString
import Webos.Lib.Runs

namespace Webos.Services.HttpClient

open Webos.Adb (EINVAL ascii)
open Webos.Lib.CString
open Webos.Lib.Runs

def WEB_HTTP_MAX_HEADER_LINES : Nat := 16

def crlf : List UInt8 := [13, 10]

def forbidden : List (List UInt8) :=
  [ascii "host", ascii "content-length", ascii "connection", ascii "transfer-encoding"]

def isForbiddenHeader (name : List UInt8) : Bool :=
  forbidden.any fun f => f.length == name.length && strncasecmp name f name.length == .eq

def nameChar (c : UInt8) : Bool :=
  (97 ≤ c && c ≤ 122) || (65 ≤ c && c ≤ 90) || (48 ≤ c && c ≤ 57) || c == 45

def valueChar (c : UInt8) : Bool := !((c < 0x20 && c != 9) || c == 0x7f)

/-- The checks of `validate_headers` on the text of a line, from the search for its colon on. -/
def validateLine (line : List UInt8) : Bool :=
  let name := line.takeWhile (· != 58)
  line.contains 58 && !name.isEmpty && !isForbiddenHeader name && name.all nameChar &&
    (line.drop (name.length + 1)).all valueChar

/-- The loop of `validate_headers`, with the number of lines that may still come. -/
def validateLines : Nat → List UInt8 → Int
  | _, [] => 0
  | 0, _ :: _ => -EINVAL
  | left + 1, c :: rest =>
    match strstr (c :: rest) crlf with
    | none => -EINVAL
    | some tail =>
      let line := (c :: rest).take ((c :: rest).length - tail.length)
      if line.isEmpty || !validateLine line then -EINVAL else validateLines left (tail.drop 2)

def validateHeaders : Option (List UInt8) → Int
  | none => 0
  | some headers => validateLines WEB_HTTP_MAX_HEADER_LINES headers

structure HeaderName (name : List UInt8) : Prop where
  some' : name ≠ []
  chars : ∀ c ∈ name, nameChar c = true
  free : name.map tolower ∉ forbidden

/-- A line: a name, a colon and a value. -/
def HeaderLine (line : List UInt8) : Prop :=
  ∃ name value, line = name ++ 58 :: value ∧ HeaderName name ∧ ∀ c ∈ value, valueChar c = true

theorem isForbiddenHeader_iff (name : List UInt8) :
    isForbiddenHeader name = true ↔ name.map tolower ∈ forbidden := by
  have lower : ∀ f ∈ forbidden, f.map tolower = f := by decide
  unfold isForbiddenHeader strncasecmp
  simp only [List.any_eq_true, Bool.and_eq_true, beq_iff_eq, List.take_length]
  constructor
  · rintro ⟨f, member, size, same⟩
    rw [← size, List.take_length, lower f member] at same
    rw [Std.LawfulEqOrd.compare_eq_iff_eq.mp same]
    exact member
  · intro member
    refine ⟨_, member, by simp, ?_⟩
    rw [show name.length = (name.map tolower).length by simp, List.take_length, lower _ member]
    exact Std.LawfulEqOrd.compare_eq_iff_eq.mpr rfl

theorem nameChar_ne {c : UInt8} (allowed : nameChar c = true) : c ≠ 58 ∧ c ≠ 13 ∧ c ≠ 10 := by
  refine ⟨?_, ?_, ?_⟩
  all_goals
    rintro rfl
    revert allowed
    decide

theorem valueChar_ne {c : UInt8} (allowed : valueChar c = true) : c ≠ 13 ∧ c ≠ 10 := by
  constructor
  all_goals
    rintro rfl
    revert allowed
    decide

theorem validateLine_split {name : List UInt8} (first : (58 : UInt8) ∉ name)
    (value : List UInt8) : validateLine (name ++ 58 :: value) = true ↔
      HeaderName name ∧ ∀ c ∈ value, valueChar c = true := by
  have front : (name ++ 58 :: value).takeWhile (· != 58) = name := by
    refine takeWhile_run (fun c member => ?_) (Stops.cons (by decide))
    rw [bne_iff_ne]
    rintro rfl
    exact first member
  have back : (name ++ 58 :: value).drop (name.length + 1) = value := by
    simp [List.drop_append]
  have free := isForbiddenHeader_iff name
  unfold validateLine
  rw [front]
  dsimp only
  rw [back]
  simp only [List.contains_eq_mem, Bool.and_eq_true, Bool.not_eq_true', List.isEmpty_eq_false_iff,
    List.all_eq_true, decide_eq_true_eq]
  constructor
  · rintro ⟨⟨⟨⟨-, some'⟩, allowed⟩, chars⟩, values⟩
    refine ⟨⟨some', chars, fun no => ?_⟩, values⟩
    rw [free.mpr no] at allowed
    cases allowed
  · rintro ⟨named, values⟩
    refine ⟨⟨⟨⟨by simp, named.some'⟩, ?_⟩, named.chars⟩, values⟩
    rw [Bool.eq_false_iff]
    exact fun no => named.free (free.mp no)

theorem HeaderName.colon {name : List UInt8} (named : HeaderName name) : (58 : UInt8) ∉ name :=
  fun member => (nameChar_ne (named.chars 58 member)).1 rfl

theorem validateLine_iff (line : List UInt8) : validateLine line = true ↔ HeaderLine line := by
  constructor
  · intro valid
    have colon : (58 : UInt8) ∈ line := by
      by_contra none
      simp [validateLine, none] at valid
    obtain ⟨name, value, rfl, first⟩ := List.eq_append_cons_of_mem colon
    exact ⟨name, value, rfl, (validateLine_split first value).mp valid⟩
  · rintro ⟨name, value, rfl, named, values⟩
    exact (validateLine_split named.colon value).mpr ⟨named, values⟩

theorem HeaderLine.unbroken {line : List UInt8} (header : HeaderLine line) :
    line ≠ [] ∧ (13 : UInt8) ∉ line ∧ (10 : UInt8) ∉ line := by
  obtain ⟨name, value, rfl, named, values⟩ := header
  refine ⟨by simp, ?_, ?_⟩
  · intro member
    rcases List.mem_append.mp member with inName | inValue
    · exact (nameChar_ne (named.chars 13 inName)).2.1 rfl
    · rcases List.mem_cons.mp inValue with no | inValue
      · exact absurd no (by decide)
      · exact (valueChar_ne (values 13 inValue)).1 rfl
  · intro member
    rcases List.mem_append.mp member with inName | inValue
    · exact (nameChar_ne (named.chars 10 inName)).2.2 rfl
    · rcases List.mem_cons.mp inValue with no | inValue
      · exact absurd no (by decide)
      · exact (valueChar_ne (values 10 inValue)).2 rfl

def block (lines : List (List UInt8)) : List UInt8 := lines.flatMap (· ++ crlf)

theorem validateLines_block {left : Nat} {lines : List (List UInt8)} (few : lines.length ≤ left)
    (headers : ∀ line ∈ lines, HeaderLine line) : validateLines left (block lines) = 0 := by
  induction lines generalizing left with
  | nil =>
    unfold validateLines
    rfl
  | cons line lines ih =>
    obtain ⟨left, rfl⟩ : ∃ n, left = n + 1 := ⟨left - 1, by simp at few; omega⟩
    have header := headers line (by simp)
    obtain ⟨some', unbroken, -⟩ := header.unbroken
    have shape : block (line :: lines) = line ++ (crlf ++ block lines) := by
      simp [block]
    have found : strstr (line ++ (crlf ++ block lines)) crlf = some (crlf ++ block lines) :=
      (strstr_append unbroken _ [10]).trans (strstr_here _ _)
    have rest := ih (by simpa using few) fun l member => headers l (by simp [member])
    rw [shape]
    cases whole : line ++ (crlf ++ block lines) with
    | nil =>
      rw [List.append_eq_nil_iff] at whole
      exact absurd whole.1 some'
    | cons c more =>
      have front : (c :: more).take ((c :: more).length - (crlf ++ block lines).length) = line := by
        rw [← whole]
        simp
      rw [whole] at found
      rw [validateLines, found]
      dsimp only
      rw [front, (validateLine_iff line).mpr header]
      simpa [some', crlf] using rest

theorem exists_block {left : Nat} {text : List UInt8} (valid : validateLines left text = 0) :
    ∃ lines, text = block lines ∧ lines.length ≤ left ∧ ∀ line ∈ lines, HeaderLine line := by
  fun_induction validateLines left text with
  | case1 left => exact ⟨[], rfl, by simp, by simp⟩
  | case2 => cases valid
  | case3 => cases valid
  | case4 => cases valid
  | case5 left c rest tail found line checked ih =>
    obtain ⟨lines, split, few, headers⟩ := ih valid
    obtain ⟨⟨front, whole⟩, more, begins⟩ := strstr_some found
    rw [Bool.or_eq_true, not_or, Bool.not_eq_true', Bool.not_eq_false] at checked
    have text : line = front := by
      simp only [line]
      rw [← whole]
      simp
    have behind : tail.drop 2 = more := by
      rw [← begins]
      rfl
    rw [behind] at split
    refine ⟨line :: lines, ?_, by simpa using few, ?_⟩
    · rw [← whole, ← begins, text, split]
      simp [block]
    · intro l member
      rcases List.mem_cons.mp member with rfl | later
      · exact (validateLine_iff _).mp checked.2
      · exact headers l later

/-- `validate_headers` accepts nothing but up to 16 whole header lines; what it accepts has no line
end inside a line and no empty line. -/
theorem validate_headers_exact (headers : List UInt8) :
    (validateHeaders (some headers) = 0 ↔ headers = [] ∨
      ∃ lines : List (List UInt8), 1 ≤ lines.length ∧ lines.length ≤ 16 ∧
        headers = lines.flatMap (· ++ crlf) ∧ ∀ line ∈ lines, HeaderLine line) ∧
    (validateHeaders (some headers) = 0 → ∃ lines : List (List UInt8),
      headers = lines.flatMap (· ++ crlf) ∧ ∀ line ∈ lines, line ≠ [] ∧ (13 : UInt8) ∉ line ∧
        (10 : UInt8) ∉ line) := by
  refine ⟨⟨fun valid => ?_, ?_⟩, fun valid => ?_⟩
  · obtain ⟨lines, split, few, all⟩ := exists_block valid
    cases lines with
    | nil => exact Or.inl split
    | cons line lines => exact Or.inr ⟨line :: lines, by simp, few, split, all⟩
  · rintro (rfl | ⟨lines, -, few, rfl, all⟩)
    · exact @validateLines_block 16 [] (by decide) (by simp)
    · exact validateLines_block few all
  · obtain ⟨lines, split, -, all⟩ := exists_block valid
    exact ⟨lines, split, fun line member => (all line member).unbroken⟩

end Webos.Services.HttpClient
