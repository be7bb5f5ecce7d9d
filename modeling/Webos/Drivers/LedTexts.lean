/- digest: The texts that the colour file of an LED takes, and the colours that they denote. -/

import Webos.Drivers.RgbLed

namespace Webos.Drivers.RgbLed

open Webos.Adb (EINVAL ascii)
open Webos.Lib.CString
open Webos.Lib.Format
open Webos.Lib.Runs
open Webos.Lib.Tokens

section Triples

def Separators (s : List UInt8) : Prop := s ≠ [] ∧ ∀ c ∈ s, delimiter c = true

instance (s : List UInt8) : Decidable (Separators s) :=
  decidable_of_iff ((!s.isEmpty && s.all delimiter) = true) (by simp [Separators])

/-- Three numerals with separators between them. -/
structure Triple where
  first : List UInt8
  gap : List UInt8
  second : List UInt8
  gap' : List UInt8
  third : List UInt8
  numerals : Numeral first ∧ Numeral second ∧ Numeral third
  gaps : Separators gap ∧ Separators gap'

def Triple.text (t : Triple) : List UInt8 := t.first ++ t.gap ++ t.second ++ t.gap' ++ t.third

def Triple.Bounded (t : Triple) : Prop :=
  digitsValue t.first ≤ 255 ∧ digitsValue t.second ≤ 255 ∧ digitsValue t.third ≤ 255

def Triple.color (t : Triple) : Color :=
  ⟨UInt8.ofNat (digitsValue t.first), UInt8.ofNat (digitsValue t.second),
    UInt8.ofNat (digitsValue t.third)⟩

theorem isdigit_plain {c : UInt8} (digit : isdigit c = true) :
    delimiter c = false ∧ isspace c = false ∧ c ≠ hash := by
  revert c
  apply Lib.Bytes.forall_byte
  decide +kernel

theorem delimiter_plain {c : UInt8} (separator : delimiter c = true) :
    hexNibble c = none ∧ isdigit c = false ∧ c ≠ hash := by
  revert c
  apply Lib.Bytes.forall_byte
  decide +kernel

variable {s : List UInt8}

theorem Separators.stops (separators : Separators s) (rest : List UInt8) :
    Stops (!delimiter ·) (s ++ rest) := by
  obtain ⟨some', all⟩ := separators
  cases s with
  | nil => exact absurd rfl some'
  | cons c s => exact Stops.cons (by simp [all c (by simp)])

theorem tokens_numeral (numeral : Numeral s) {rest : List UInt8}
    (stops : Stops (!delimiter ·) rest) :
    tokens delimiter (s ++ rest) = s :: tokens delimiter rest :=
  tokens_run numeral.1 (fun c member => (isdigit_plain (numeral.2 c member)).1) stops

theorem Triple.tokens_text (t : Triple) :
    tokens delimiter t.text = [t.first, t.second, t.third] := by
  have last := tokens_numeral t.numerals.2.2 (Stops.nil : Stops (!delimiter ·) [])
  rw [List.append_nil, tokens_nil] at last
  rw [Triple.text, List.append_assoc, List.append_assoc, List.append_assoc,
    tokens_numeral t.numerals.1 (t.gaps.1.stops _), tokens_separators t.gaps.1.2,
    tokens_numeral t.numerals.2.1 (t.gaps.2.stops _), tokens_separators t.gaps.2.2, last]

theorem strtol_bounded (numeral : Numeral s) : InRange s ↔ digitsValue s ≤ 255 := by
  rw [InRange, strtol_numeral LONG_MAX numeral]
  unfold LONG_MAX
  omega

theorem byte_strtol (numeral : Numeral s) (small : digitsValue s ≤ 255) :
    byte (strtol LONG_MAX s) = UInt8.ofNat (digitsValue s) := by
  have value : strtol LONG_MAX s = (digitsValue s : Int) := by
    rw [strtol_numeral LONG_MAX numeral]
    unfold LONG_MAX
    omega
  rw [byte, value, Int.toNat_natCast]

theorem parseRgbColor_triple (t : Triple) (bounded : t.Bounded) :
    parseRgbColor t.text = some t.color := by
  rw [parseRgbColor_eq_some]
  refine ⟨_, _, _, t.tokens_text, ?_, ?_, ?_, ?_⟩
  · exact (strtol_bounded t.numerals.1).mpr bounded.1
  · exact (strtol_bounded t.numerals.2.1).mpr bounded.2.1
  · exact (strtol_bounded t.numerals.2.2).mpr bounded.2.2
  · rw [byte_strtol t.numerals.1 bounded.1, byte_strtol t.numerals.2.1 bounded.2.1,
      byte_strtol t.numerals.2.2 bounded.2.2]
    rfl

theorem Triple.length_text (t : Triple) : 5 ≤ t.text.length := by
  have one {s : List UInt8} (some' : s ≠ []) : 1 ≤ s.length := List.length_pos_of_ne_nil some'
  have a := one t.numerals.1.1
  have b := one t.numerals.2.1.1
  have c := one t.numerals.2.2.1
  have d := one t.gaps.1.1
  have e := one t.gaps.2.1
  simp only [Triple.text, List.length_append]
  omega

theorem Triple.text_stops (t : Triple) {p : UInt8 → Bool}
    (digits : ∀ c, isdigit c = true → p c = false) :
    Stops p t.text ∧ Stops p t.text.reverse := by
  have one {s : List UInt8} (numeral : Numeral s) : Stops p s := by
    intro c first
    exact digits c (numeral.2 c (List.mem_of_mem_head? first))
  constructor
  · have front := (one t.numerals.1).append_right t.numerals.1.1
      (b := t.gap ++ t.second ++ t.gap' ++ t.third)
    simpa [Triple.text] using front
  · have back : Numeral t.third.reverse := by
      refine ⟨by simpa using t.numerals.2.2.1, fun c member => ?_⟩
      exact t.numerals.2.2.2 c (by simpa using member)
    have front := (one back).append_right back.1
      (b := (t.first ++ t.gap ++ t.second ++ t.gap').reverse)
    simpa [Triple.text] using front

end Triples

section Strip

theorem strip_surrounded {lead core trail : List UInt8} (before : ∀ c ∈ lead, isspace c = true)
    (after : ∀ c ∈ trail, isspace c = true) (some' : core ≠ [])
    (ends : Stops isspace core ∧ Stops isspace core.reverse) :
    strip (lead ++ core ++ trail) = core := by
  have back : (lead ++ core ++ trail).rdropWhile isspace = lead ++ core := by
    rw [List.rdropWhile, List.reverse_append]
    rw [dropWhile_run (fun c member => after c (by simpa using member)), List.reverse_reverse]
    rw [List.reverse_append]
    exact ends.2.append_right (by simpa using some')
  rw [strip, back]
  exact dropWhile_run before ends.1

end Strip

section Names

theorem strcmp_eq_iff (a b : List UInt8) : strcmp a b = .eq ↔ a = b :=
  Std.LawfulEqOrd.compare_eq_iff_eq

variable {s : List UInt8}

theorem find_name {color : Color} (named : (s, color) ∈ names) : parseStripped s = some color := by
  have all : ∀ p ∈ names, parseStripped p.1 = some p.2 := by decide +kernel
  exact all (s, color) named

theorem parseStripped_unnamed (unnamed : ∀ color, (s, color) ∉ names) :
    parseStripped s =
      if s.getD 0 0 = hash ∨ s.length = 6 then parseHexColor s else parseRgbColor s := by
  have none : names.find? (fun n => strcmp s n.1 = .eq) = none := by
    rw [List.find?_eq_none]
    rintro ⟨n, color⟩ member same
    rw [decide_eq_true_eq, strcmp_eq_iff] at same
    subst same
    exact unnamed color member
  rw [parseStripped, none]

theorem named_plain {color : Color} (named : (s, color) ∈ names) :
    (∀ c ∈ s, delimiter c = false) ∧ s.getD 0 0 ≠ hash := by
  have all : ∀ p ∈ names, (p.1.all (!delimiter ·)) = true ∧ p.1.getD 0 0 ≠ hash := by
    decide +kernel
  obtain ⟨plain, head⟩ := all (s, color) named
  refine ⟨fun c member => ?_, head⟩
  simpa using List.all_eq_true.mp plain c member

theorem Triple.delimiter_mem (t : Triple) : ∃ c ∈ t.text, delimiter c = true := by
  obtain ⟨some', all⟩ := t.gaps.1
  obtain ⟨c, member⟩ := List.exists_mem_of_ne_nil t.gap some'
  exact ⟨c, by simp [Triple.text, member], all c member⟩

theorem Triple.unnamed (t : Triple) (color : Color) : (t.text, color) ∉ names := by
  intro named
  obtain ⟨c, member, separator⟩ := t.delimiter_mem
  rw [(named_plain named).1 c member] at separator
  cases separator

theorem Triple.not_hash (t : Triple) : t.text.getD 0 0 ≠ hash := by
  have stops := (t.text_stops (p := (· == hash)) fun c digit => by
    simpa using (isdigit_plain digit).2.2).1
  have long := t.length_text
  cases shape : t.text with
  | nil => simp [shape] at long
  | cons c s =>
    rw [shape] at stops
    simpa using stops.head

end Names

section Hex

def hexValue (c : UInt8) : Nat := (hexNibble c).getD 0

def hexColor (h : List UInt8) : Color :=
  ⟨UInt8.ofNat (16 * hexValue (h.getD 0 0) + hexValue (h.getD 1 0)),
    UInt8.ofNat (16 * hexValue (h.getD 2 0) + hexValue (h.getD 3 0)),
    UInt8.ofNat (16 * hexValue (h.getD 4 0) + hexValue (h.getD 5 0))⟩

theorem hexNibble_cases (c : UInt8) : (isxdigit c = true ∧ hexNibble c = some (hexValue c) ∧
    hexValue c < 16) ∨ (isxdigit c = false ∧ hexNibble c = none) := by
  revert c
  apply Lib.Bytes.forall_byte
  decide +kernel

theorem nibbles_eq {a b : Nat} (small : b < 16) : nibbles a b = UInt8.ofNat (16 * a + b) := by
  rw [nibbles, ← Nat.shiftLeft_add_eq_or_of_lt small, Nat.shiftLeft_eq, Nat.mul_comm]

theorem sixNibbles_short {buf : List UInt8} (short : buf.length < 6) : sixNibbles buf = none := by
  have gone : hexNibble (buf.getD buf.length 0) = none := by
    rw [List.getD_eq_getElem?_getD, List.getElem?_eq_none (Nat.le_refl _)]
    decide
  generalize buf.length = k at gone short
  obtain rfl | rfl | rfl | rfl | rfl | rfl : k = 0 ∨ k = 1 ∨ k = 2 ∨ k = 3 ∨ k = 4 ∨ k = 5 := by
    omega
  all_goals simp only [sixNibbles, gone, Option.bind_eq_bind, Option.bind_none,
    Option.bind_fun_none]

theorem sixNibbles_other {a b c d e f : UInt8} {rest : List UInt8}
    (other : (∃ x ∈ [a, b, c, d, e, f], isxdigit x = false) ∨ ¬ Stops isxdigit rest) :
    sixNibbles (a :: b :: c :: d :: e :: f :: rest) = none := by
  rcases other with ⟨x, member, no⟩ | seventh
  · have gone : hexNibble x = none := by
      rcases hexNibble_cases x with ⟨yes, -⟩ | ⟨-, gone⟩
      · rw [yes] at no
        cases no
      · exact gone
    simp only [List.mem_cons, List.not_mem_nil, or_false] at member
    rcases member with rfl | rfl | rfl | rfl | rfl | rfl
    all_goals simp [sixNibbles, gone]
  · cases rest with
    | nil => exact absurd Stops.nil seventh
    | cons x rest =>
      have digit : isxdigit x = true := by
        by_contra no
        exact seventh (Stops.cons (by simpa using no))
      simp [sixNibbles, digit]

theorem sixNibbles_digits {a b c d e f : UInt8} {rest : List UInt8}
    (digits : ∀ x ∈ [a, b, c, d, e, f], isxdigit x = true) (stops : Stops isxdigit rest) :
    sixNibbles (a :: b :: c :: d :: e :: f :: rest) = some (hexColor [a, b, c, d, e, f]) := by
  have value : ∀ x ∈ [a, b, c, d, e, f], hexNibble x = some (hexValue x) ∧ hexValue x < 16 := by
    intro x member
    rcases hexNibble_cases x with ⟨-, value⟩ | ⟨no, -⟩
    · exact value
    · rw [digits x member] at no
      cases no
  have last : isxdigit (rest.getD 0 0) = false := by
    cases rest with
    | nil => decide
    | cons x rest => exact stops.head
  simp only [List.mem_cons, List.not_mem_nil, or_false, forall_eq_or_imp, forall_eq] at value
  obtain ⟨⟨va, -⟩, ⟨vb, sb⟩, ⟨vc, -⟩, ⟨vd, sd⟩, ⟨ve, -⟩, ⟨vf, sf⟩⟩ := value
  simp only [sixNibbles, List.getD_cons_zero, List.getD_cons_succ, va, vb, vc, vd, ve, vf, last,
    Option.bind_eq_bind, Option.bind_some, Bool.false_eq_true, if_false, hexColor,
    nibbles_eq sb, nibbles_eq sd, nibbles_eq sf]

theorem sixNibbles_eq_some {buf : List UInt8} {color : Color} : sixNibbles buf = some color ↔
    ∃ h rest, buf = h ++ rest ∧ h.length = 6 ∧ (∀ c ∈ h, isxdigit c = true) ∧
      Stops isxdigit rest ∧ color = hexColor h := by
  constructor
  · intro found
    rcases buf with - | ⟨a, - | ⟨b, - | ⟨c, - | ⟨d, - | ⟨e, - | ⟨f, rest⟩⟩⟩⟩⟩⟩
    iterate 6
      · rw [sixNibbles_short (by simp)] at found
        cases found
    by_cases digits : ∀ x ∈ [a, b, c, d, e, f], isxdigit x = true
    · by_cases stops : Stops isxdigit rest
      · rw [sixNibbles_digits digits stops] at found
        cases found
        exact ⟨[a, b, c, d, e, f], rest, rfl, rfl, digits, stops, rfl⟩
      · rw [sixNibbles_other (Or.inr stops)] at found
        cases found
    · simp only [not_forall, exists_prop, Bool.not_eq_true] at digits
      obtain ⟨x, member, no⟩ := digits
      rw [sixNibbles_other (Or.inl ⟨x, member, no⟩)] at found
      cases found
  · rintro ⟨h, rest, rfl, size, digits, stops, rfl⟩
    match h, size with
    | [a, b, c, d, e, f], _ => exact sixNibbles_digits digits stops

end Hex

section RoundTrip

theorem Triple.parseHexColor_none (t : Triple) (six : t.text.length = 6) :
    parseHexColor t.text = none := by
  rw [parseHexColor, if_neg t.not_hash]
  cases found : sixNibbles t.text with
  | none => rfl
  | some color =>
    obtain ⟨h, rest, split, size, digits, -⟩ := sixNibbles_eq_some.mp found
    have whole : rest = [] := by
      rw [split, List.length_append, size] at six
      exact List.length_eq_zero_iff.mp (by omega)
    rw [whole, List.append_nil] at split
    obtain ⟨c, member, separator⟩ := t.delimiter_mem
    rw [split] at member
    rcases hexNibble_cases c with ⟨-, value, -⟩ | ⟨no, -⟩
    · cases value.symm.trans (delimiter_plain separator).1
    · cases no.symm.trans (digits c member)

theorem parseColor_triple {lead trail : List UInt8} (before : ∀ c ∈ lead, isspace c = true)
    (after : ∀ c ∈ trail, isspace c = true) (t : Triple) (bounded : t.Bounded) :
    parseColor (lead ++ t.text ++ trail) =
      if t.text.length = 6 then .error (-EINVAL) else .ok t.color := by
  have long := t.length_text
  have some' : t.text ≠ [] := by
    intro none
    rw [none] at long
    exact absurd long (by decide)
  have stripped := strip_surrounded before after some'
    (t.text_stops fun c digit => (isdigit_plain digit).2.1)
  rw [parseColor, stripped, parseStripped_unnamed t.unnamed]
  split_ifs with hex six six
  · rw [t.parseHexColor_none six]
  · exact absurd hex (not_or.mpr ⟨t.not_hash, six⟩)
  · exact absurd (Or.inr six) hex
  · rw [parseRgbColor_triple t bounded]

variable {maxPixels : Nat} {update : List Color → Int}

def Takes (maxPixels : Nat) (update : List Color → Int) (led : Led) (src : List UInt8)
    (color : Color) : Prop :=
  (webosRgbledWrite maxPixels update led src).1 = src.length ∧
    (webosRgbledWrite maxPixels update led src).2.color = color

theorem webosRgbledWrite_parsed (led : Led) {src : List UInt8} (some' : src ≠ [])
    (notOff : src ≠ [0]) (notRaw : src.length = 3 → src = ascii "red" ∨ src = ascii "off") :
    webosRgbledWrite maxPixels update led src =
      storeParsed maxPixels update led src.length (parseColor (text (src.take 31))) := by
  have off : ¬ (src.length = 1 ∧ src.getD 0 0 = 0) := by
    rintro ⟨one, zero⟩
    obtain ⟨c, rfl⟩ := List.length_eq_one_iff.mp one
    rw [List.getD_cons_zero] at zero
    exact notOff (by rw [zero])
  have raw : ¬ (src.length = 3 ∧ src ≠ ascii "red" ∧ src ≠ ascii "off") := by
    rintro ⟨three, red, off⟩
    exact (notRaw three).elim red off
  rw [webosRgbledWrite, if_neg (by simpa using some'), if_neg off, if_neg raw]

theorem storeColor_shown (shown : ∀ pixels, 0 ≤ update pixels) (led : Led) (color : Color)
    (n : Nat) :
    storeColor maxPixels update led color n = ((n : Int), { led with color := color }) := by
  simp [storeColor, webosRgbledShow, not_lt.mpr (shown _)]

theorem isspace_ne_zero {c : UInt8} (space : isspace c = true) : c ≠ 0 := by
  rintro rfl
  exact absurd space (by decide)

theorem Triple.zero_notMem (t : Triple) : 0 ∉ t.text := by
  have digit {s : List UInt8} (numeral : Numeral s) : 0 ∉ s := fun zero =>
    absurd (numeral.2 0 zero) (by decide)
  have gap {s : List UInt8} (separators : Separators s) : 0 ∉ s := fun zero =>
    absurd (separators.2 0 zero) (by decide)
  simp [Triple.text, digit t.numerals.1, digit t.numerals.2.1, digit t.numerals.2.2,
    gap t.gaps.1, gap t.gaps.2]

theorem takes_triple_iff (shown : ∀ pixels, 0 ≤ update pixels) (led : Led)
    {lead trail : List UInt8} (before : ∀ c ∈ lead, isspace c = true)
    (after : ∀ c ∈ trail, isspace c = true) (t : Triple) (bounded : t.Bounded)
    (short : (lead ++ t.text ++ trail).length ≤ 31) :
    Takes maxPixels update led (lead ++ t.text ++ trail) t.color ↔ t.text.length ≠ 6 := by
  have long := t.length_text
  have size : 5 ≤ (lead ++ t.text ++ trail).length := by
    simp only [List.length_append]
    omega
  have nonzero : 0 ∉ lead ++ t.text ++ trail := by
    rw [List.mem_append, List.mem_append]
    rintro ((zero | zero) | zero)
    · exact isspace_ne_zero (before 0 zero) rfl
    · exact t.zero_notMem zero
    · exact isspace_ne_zero (after 0 zero) rfl
  have written : webosRgbledWrite maxPixels update led (lead ++ t.text ++ trail) =
      storeParsed maxPixels update led (lead ++ t.text ++ trail).length
        (parseColor (lead ++ t.text ++ trail)) := by
    have whole := @webosRgbledWrite_parsed maxPixels update led (lead ++ t.text ++ trail)
      (fun none => by rw [none] at size; exact absurd size (by decide))
      (fun one => by rw [one] at size; exact absurd size (by decide))
      (fun three => by omega)
    rwa [List.take_of_length_le short, text_eq_self nonzero] at whole
  rw [parseColor_triple before after t bounded] at written
  unfold Takes
  rw [written]
  split_ifs with six
  · refine iff_of_false (fun taken => ?_) (fun other => other six)
    have error : -EINVAL = ((lead ++ t.text ++ trail).length : Int) := taken.1
    unfold EINVAL at error
    omega
  · rw [storeParsed, storeColor_shown shown]
    exact iff_of_true ⟨rfl, rfl⟩ six

theorem decimal_byte (b : UInt8) : Numeral (decimal b.toNat) ∧
    digitsValue (decimal b.toNat) = b.toNat ∧ (decimal b.toNat).length ≤ 3 := by
  revert b
  apply Lib.Bytes.forall_byte
  decide +kernel

def readTriple (color : Color) : Triple where
  first := decimal color.red.toNat
  gap := ascii ","
  second := decimal color.green.toNat
  gap' := ascii ","
  third := decimal color.blue.toNat
  numerals := ⟨(decimal_byte _).1, (decimal_byte _).1, (decimal_byte _).1⟩
  gaps := by
    have comma : Separators (ascii ",") := by decide
    exact ⟨comma, comma⟩

theorem readTriple_color (color : Color) : (readTriple color).color = color := by
  have value (b : UInt8) : UInt8.ofNat (digitsValue (decimal b.toNat)) = b := by
    rw [(decimal_byte b).2.1, UInt8.ofNat_toNat]
  unfold Triple.color readTriple
  rw [value, value, value]

theorem readTriple_bounded (color : Color) : (readTriple color).Bounded := by
  have small (b : UInt8) : digitsValue (decimal b.toNat) ≤ 255 := by
    rw [(decimal_byte b).2.1]
    have := b.toNat_lt
    omega
  exact ⟨small _, small _, small _⟩

def digitCount (color : Color) : Nat :=
  (decimal color.red.toNat).length + (decimal color.green.toNat).length +
    (decimal color.blue.toNat).length

theorem length_readTriple (color : Color) :
    (readTriple color).text.length = digitCount color + 2 := by
  have comma : (ascii ",").length = 1 := by decide
  simp only [Triple.text, readTriple, List.length_append, comma, digitCount]
  omega

theorem webosRgbledRead_whole (led : Led) {n : Nat} (room : 12 ≤ n) :
    (webosRgbledRead led ⟨false⟩ n).2.1 = [] ++ (readTriple led.color).text ++ [10] := by
  have shape : colorText led.color = [] ++ (readTriple led.color).text ++ [10] := by
    simp [colorText, Triple.text, readTriple]
    decide
  have size : ([] ++ (readTriple led.color).text ++ [10]).length ≤ n := by
    have length := length_readTriple led.color
    have red := (decimal_byte led.color.red).2.2
    have green := (decimal_byte led.color.green).2.2
    have blue := (decimal_byte led.color.blue).2.2
    unfold digitCount at length
    simp only [List.nil_append, List.length_append, List.length_singleton]
    omega
  rw [webosRgbledRead, if_neg (by omega), if_neg (by simp)]
  rw [shape, List.take_of_length_le size]

/-- The text read of a colour can be written back if and only if its numbers do not have four digits
together; three numbers up to 255 are understood if and only if they are not six bytes long without
the white space around them. -/
theorem led_texts_taken_iff (maxPixels : Nat) (update : List Color → Int)
    (shown : ∀ pixels, 0 ≤ update pixels) :
    (∀ (led led' : Led) (n : Nat), 12 ≤ n → (Takes maxPixels update led'
        (webosRgbledRead led ⟨false⟩ n).2.1 led.color ↔ digitCount led.color ≠ 4)) ∧
    ∀ (led : Led) (lead trail : List UInt8) (t : Triple), (∀ c ∈ lead, isspace c = true) →
      (∀ c ∈ trail, isspace c = true) → t.Bounded → (lead ++ t.text ++ trail).length ≤ 31 →
      (Takes maxPixels update led (lead ++ t.text ++ trail) t.color ↔ t.text.length ≠ 6) := by
  refine ⟨fun led led' n room => ?_, fun led lead trail t before after bounded short =>
    takes_triple_iff shown led before after t bounded short⟩
  have count := length_readTriple led.color
  have short : ([] ++ (readTriple led.color).text ++ [10] : List UInt8).length ≤ 31 := by
    have red := (decimal_byte led.color.red).2.2
    have green := (decimal_byte led.color.green).2.2
    have blue := (decimal_byte led.color.blue).2.2
    unfold digitCount at count
    simp only [List.nil_append, List.length_append, List.length_singleton]
    omega
  have taken := @takes_triple_iff maxPixels update shown led' [] [10] (by simp) (by simp [isspace])
    (readTriple led.color) (readTriple_bounded _) short
  rw [readTriple_color] at taken
  rw [webosRgbledRead_whole led room, taken, count]
  omega

theorem led_texts_taken_white : Takes 8 (fun _ => 0) ⟨1, ⟨0, 0, 0⟩⟩
    (webosRgbledRead ⟨1, ⟨255, 255, 255⟩⟩ ⟨false⟩ 16).2.1 ⟨255, 255, 255⟩ :=
  ((led_texts_taken_iff 8 (fun _ => 0) (fun _ => by decide)).1 ⟨1, ⟨255, 255, 255⟩⟩
    ⟨1, ⟨0, 0, 0⟩⟩ 16 (by decide)).mpr (by decide)

/-- A colour whose text has six bytes is refused when it is written back. -/
theorem led_text_refused : webosRgbledWrite 8 (fun _ => 0) ⟨1, ⟨0, 0, 0⟩⟩
    (webosRgbledRead ⟨1, ⟨10, 0, 0⟩⟩ ⟨false⟩ 16).2.1 = (-EINVAL, ⟨1, ⟨0, 0, 0⟩⟩) := by
  decide +kernel

end RoundTrip

section Grammar

inductive Denotes : List UInt8 → Color → Prop where
  | name {s : List UInt8} {color : Color} (named : (s, color) ∈ names) : Denotes s color
  | hex {h : List UInt8} (six : h.length = 6) (digits : ∀ c ∈ h, isxdigit c = true) :
      Denotes h (hexColor h)
  | hashed {h : List UInt8} (six : h.length = 6) (digits : ∀ c ∈ h, isxdigit c = true) :
      Denotes (hash :: h) (hexColor h)
  | triple (t : Triple) (bounded : t.Bounded) : Denotes t.text t.color

def Readable (s : List UInt8) : Prop :=
  (∃ color, (s, color) ∈ names) ∨
    (∃ h, h.length = 6 ∧ (∀ c ∈ h, isxdigit c = true) ∧ (s = h ∨ s = hash :: h)) ∨
    ∃ t : Triple, s = t.text

variable {s : List UInt8} {color : Color}

theorem Denotes.readable (denotes : Denotes s color) : Readable s := by
  cases denotes with
  | name named => exact Or.inl ⟨color, named⟩
  | hex six digits => exact Or.inr (Or.inl ⟨s, six, digits, Or.inl rfl⟩)
  | @hashed h six digits => exact Or.inr (Or.inl ⟨h, six, digits, Or.inr rfl⟩)
  | triple t bounded => exact Or.inr (Or.inr ⟨t, rfl⟩)

/-- Nothing stands behind six digits with a hash but another digit, which is an error. -/
def HashClear (s : List UInt8) : Prop :=
  ∀ h rest, s = hash :: h ++ rest → h.length = 6 → (∀ c ∈ h, isxdigit c = true) → rest ≠ [] →
    ∃ c ∈ rest.head?, isxdigit c = true

/-- Three tokens that are numbers in range for `strtol` are numerals, and the text has no comma or
space at its ends. -/
def TokensClear (s : List UInt8) : Prop :=
  s.getD 0 0 ≠ hash → s.length ≠ 6 → (∀ color, (s, color) ∉ names) →
    ∀ a b c, tokens delimiter s = [a, b, c] → InRange a → InRange b → InRange c →
      (Numeral a ∧ Numeral b ∧ Numeral c) ∧ Stops delimiter s ∧ Stops delimiter s.reverse

theorem hash_head (head : s.getD 0 0 = hash) : ∃ s', s = hash :: s' := by
  cases s with
  | nil => exact absurd head (by decide)
  | cons c s' => exact ⟨s', by rw [← head]; rfl⟩

theorem exists_triple {a b c : List UInt8} (split : tokens delimiter s = [a, b, c])
    (numerals : Numeral a ∧ Numeral b ∧ Numeral c)
    (ends : Stops delimiter s ∧ Stops delimiter s.reverse) :
    ∃ t : Triple, s = t.text ∧ t.first = a ∧ t.second = b ∧ t.third = c := by
  obtain ⟨lead, rest, rfl, before, someA, -, stopsA, split⟩ := exists_token split
  obtain ⟨gap, rest', rfl, between, someB, insideB, stopsB, split⟩ := exists_token split
  obtain ⟨gap', trail, rfl, between', someC, insideC, -, split⟩ := exists_token split
  have after := all_of_tokens split
  have noLead : lead = [] := by
    cases lead with
    | nil => rfl
    | cons d lead => cases (before d (by simp)).symm.trans ends.1.head
  have noTrail : trail = [] := by
    cases shape : trail.reverse with
    | nil => simpa using shape
    | cons d back =>
      have member : d ∈ trail := by
        rw [← List.mem_reverse, shape]
        simp
      have last := ends.2
      simp only [List.reverse_append, shape, List.cons_append, List.append_assoc] at last
      cases (after d member).symm.trans last.head
  -- A token ends at a separator, so that there is one between two tokens.
  have separated {gap next more : List UInt8} (some' : next ≠ [])
      (inside : ∀ c ∈ next, delimiter c = false)
      (stops : Stops (!delimiter ·) (gap ++ next ++ more)) : gap ≠ [] := by
    rintro rfl
    cases next with
    | nil => exact some' rfl
    | cons d next =>
      have head := stops.head
      simp [inside d (by simp)] at head
  subst noLead noTrail
  exact ⟨⟨a, gap, b, gap', c, numerals, ⟨separated someB insideB stopsA, between⟩,
    ⟨separated someC insideC stopsB, between'⟩⟩, by simp [Triple.text], rfl, rfl, rfl⟩

theorem parseHexColor_denotes (form : s.getD 0 0 = hash ∨ s.length = 6)
    (found : parseHexColor s = some color) (clear : HashClear s) : Denotes s color := by
  unfold parseHexColor at found
  by_cases head : s.getD 0 0 = hash
  · rw [if_pos head, sixNibbles_eq_some] at found
    obtain ⟨s', rfl⟩ := hash_head head
    obtain ⟨h, rest, split, six, digits, stops, rfl⟩ := found
    subst split
    have none : rest = [] := by
      by_contra some'
      obtain ⟨c, first, digit⟩ := clear h rest rfl six digits some'
      rw [stops c first] at digit
      cases digit
    rw [none, List.append_nil]
    exact .hashed six digits
  · rw [if_neg head, sixNibbles_eq_some] at found
    obtain ⟨h, rest, rfl, six, digits, stops, rfl⟩ := found
    have none : rest = [] := by
      have length := form.resolve_left head
      rw [List.length_append, six] at length
      exact List.length_eq_zero_iff.mp (by omega)
    rw [none, List.append_nil]
    exact .hex six digits

theorem parseStripped_denotes (found : parseStripped s = some color) (hashClear : HashClear s)
    (tokensClear : TokensClear s) : Denotes s color := by
  by_cases named : ∃ color', (s, color') ∈ names
  · obtain ⟨color', named⟩ := named
    rw [find_name named] at found
    cases found
    exact .name named
  · rw [not_exists] at named
    rw [parseStripped_unnamed named] at found
    split_ifs at found with form
    · exact parseHexColor_denotes form found hashClear
    · rw [not_or] at form
      obtain ⟨a, b, c, split, inA, inB, inC, rfl⟩ := parseRgbColor_eq_some.mp found
      obtain ⟨numerals, ends⟩ := tokensClear form.1 form.2 named a b c split inA inB inC
      obtain ⟨t, rfl, rfl, rfl, rfl⟩ := exists_triple split numerals ends
      have bounded : t.Bounded := ⟨(strtol_bounded numerals.1).mp inA,
        (strtol_bounded numerals.2.1).mp inB, (strtol_bounded numerals.2.2).mp inC⟩
      rw [byte_strtol numerals.1 bounded.1, byte_strtol numerals.2.1 bounded.2.1,
        byte_strtol numerals.2.2 bounded.2.2]
      exact .triple t bounded

theorem hashClear_of_denotes (sound : ∀ color, parseStripped s = some color → Denotes s color) :
    HashClear s := by
  rintro h rest rfl six digits some'
  by_contra no
  have stops : Stops isxdigit rest := by
    intro c first
    by_contra digit
    exact no ⟨c, first, by simpa using digit⟩
  have unnamed : ∀ color, (hash :: h ++ rest, color) ∉ names :=
    fun color named => (named_plain named).2 rfl
  have head : (hash :: h ++ rest).getD 0 0 = hash := rfl
  have found : parseStripped (hash :: h ++ rest) = some (hexColor h) := by
    rw [parseStripped_unnamed unnamed, if_pos (Or.inl head), parseHexColor, if_pos head]
    exact sixNibbles_eq_some.mpr ⟨h, rest, rfl, six, digits, stops, rfl⟩
  have long : 8 ≤ (hash :: h ++ rest).length := by
    have positive := List.length_pos_of_ne_nil some'
    simp only [List.length_append, List.length_cons]
    omega
  have denotes := sound _ found
  generalize hexColor h = color at denotes
  generalize hash :: h ++ rest = s at denotes long unnamed head
  cases denotes with
  | name named => exact unnamed _ named
  | hex six' _ => omega
  | hashed six' _ =>
    simp only [List.length_cons] at long
    omega
  | triple t _ => exact t.not_hash head

theorem tokensClear_of_denotes (sound : ∀ color, parseStripped s = some color → Denotes s color) :
    TokensClear s := by
  intro notHash notSix unnamed a b c split inA inB inC
  have found : parseStripped s = some ⟨byte (strtol LONG_MAX a), byte (strtol LONG_MAX b),
      byte (strtol LONG_MAX c)⟩ := by
    rw [parseStripped_unnamed unnamed, if_neg (not_or.mpr ⟨notHash, notSix⟩)]
    exact parseRgbColor_eq_some.mpr ⟨a, b, c, split, inA, inB, inC, rfl⟩
  have denotes := sound _ found
  generalize Color.mk (byte (strtol LONG_MAX a)) (byte (strtol LONG_MAX b))
    (byte (strtol LONG_MAX c)) = color at denotes
  cases denotes with
  | name named => exact absurd named (unnamed _)
  | hex six _ => exact absurd six notSix
  | hashed _ _ => exact absurd rfl notHash
  | triple t _ =>
    rw [t.tokens_text] at split
    cases split
    exact ⟨t.numerals, t.text_stops fun c digit => (isdigit_plain digit).1⟩

/-- `parse_color` takes a text only for the colour that it denotes, and a text of no form leaves the
LED as it is. -/
structure Strict (buf : List UInt8) : Prop where
  sound : ∀ color, parseColor buf = .ok color → Denotes (strip buf) color
  rejects : ¬ Readable (strip buf) → parseColor buf = .error (-EINVAL)
  keeps : ¬ Readable (strip buf) → ∀ maxPixels update led src, src ≠ [] → src ≠ [0] →
    (src.length = 3 → src = ascii "red" ∨ src = ascii "off") → text (src.take 31) = buf →
    webosRgbledWrite maxPixels update led src = (-EINVAL, led)

theorem parseColor_eq_ok {buf : List UInt8} :
    parseColor buf = .ok color ↔ parseStripped (strip buf) = some color := by
  unfold parseColor
  cases parseStripped (strip buf) with
  | none => simp
  | some color' => simp

theorem Strict.clear {buf : List UInt8} (strict : Strict buf) :
    HashClear (strip buf) ∧ TokensClear (strip buf) := by
  have sound : ∀ color, parseStripped (strip buf) = some color → Denotes (strip buf) color :=
    fun color found => strict.sound color (parseColor_eq_ok.mpr found)
  exact ⟨hashClear_of_denotes sound, tokensClear_of_denotes sound⟩

/-- `parse_color` is strict on a text if and only if it does not go on behind a hexadecimal colour,
and what `strtol` takes for three numbers are three numerals and nothing else. -/
theorem parse_color_strict_iff (buf : List UInt8) :
    Strict buf ↔ HashClear (strip buf) ∧ TokensClear (strip buf) := by
  refine ⟨Strict.clear, ?_⟩
  rintro ⟨hashClear, tokensClear⟩
  have sound : ∀ color, parseColor buf = .ok color → Denotes (strip buf) color :=
    fun color found => parseStripped_denotes (parseColor_eq_ok.mp found) hashClear tokensClear
  have rejects : ¬ Readable (strip buf) → parseColor buf = .error (-EINVAL) := by
    intro unreadable
    have none : parseStripped (strip buf) = none := by
      cases found : parseStripped (strip buf) with
      | none => rfl
      | some color =>
        exact absurd (sound color (parseColor_eq_ok.mpr found)).readable unreadable
    rw [parseColor, none]
  refine ⟨sound, rejects, ?_⟩
  intro unreadable maxPixels update led src some' notOff notRaw same
  rw [webosRgbledWrite_parsed led some' notOff notRaw, same, rejects unreadable]
  rfl

/-- Words between commas are taken for three zeros, and anything may follow a colour in
hexadecimal. -/
theorem parse_color_lenient : ¬ Strict (ascii "on,and,on") ∧ ¬ Strict (ascii "#112233zz") := by
  constructor
  · intro strict
    have unnamed : ∀ color, (strip (ascii "on,and,on"), color) ∉ names := by
      intro color named
      exact absurd (List.mem_map_of_mem (f := Prod.fst) named)
        (show strip (ascii "on,and,on") ∉ names.map Prod.fst by decide +kernel)
    have range : InRange (ascii "on") ∧ InRange (ascii "and") := by
      unfold InRange
      decide +kernel
    have clear := strict.clear.2 (by decide +kernel) (by decide +kernel) unnamed (ascii "on")
      (ascii "and") (ascii "on") (by decide +kernel) range.1 range.2 range.1
    exact absurd clear.1.1 (by decide)
  · intro strict
    have same : strip (ascii "#112233zz") = hash :: ascii "112233" ++ ascii "zz" := by
      decide +kernel
    have digits : (ascii "112233").all isxdigit = true := by decide
    obtain ⟨c, first, digit⟩ := strict.clear.1 (ascii "112233") (ascii "zz") same (by decide)
      (List.all_eq_true.mp digits) (by decide)
    have z : c = 122 := by
      cases first
      rfl
    rw [z] at digit
    exact absurd digit (by decide)

end Grammar

end Webos.Drivers.RgbLed
