/- digest: The grammar of the one-shot commands, and the numbers that strtoul lets in besides. -/

import Webos.Adb.Shell.Paths
import Webos.Lib.Runs

namespace Webos.Adb.Shell

open Webos.Adb.Sync (isSpace splitSign digitValue)
open Webos.Lib.Runs

private abbrev blank : UInt8 := ' '.toUInt8

def isBlank (c : UInt8) : Bool := c == blank
def isDigit (c : UInt8) : Bool := decide (digitValue c < 10)

def Blanks (text : List UInt8) : Prop := ∀ c ∈ text, isBlank c = true
def Digits (text : List UInt8) : Prop := text ≠ [] ∧ ∀ c ∈ text, isDigit c = true

def decimalOf (digits : List UInt8) : Nat := digits.foldl (fun n c => n * 10 + digitValue c) 0

section Commands

def ReadArguments (arguments : List UInt8) : Prop :=
  ∃ path gap count rest trailing, arguments = path ++ gap ++ count ++ rest ++ trailing ∧
    safePath path true = true ∧ (gap ≠ [] ∧ Blanks gap) ∧
    (Digits count ∧ 1 ≤ decimalOf count ∧ decimalOf count ≤ 256) ∧
    (rest = [] ∨ ∃ gap offset, rest = gap ++ offset ∧ (gap ≠ [] ∧ Blanks gap) ∧
      Digits offset ∧ decimalOf offset ≤ 2 ^ 32 - 1) ∧
    Blanks trailing

/-- The commands of `adb shell` that take no terminal. -/
def OneShot (command : List UInt8) : Prop :=
  command = ascii "kernel uptime" ∨ command = ascii "fs ls" ∨
    (∃ path, command = ascii "fs ls " ++ path ∧ safePath path false = true) ∨
    ∃ arguments, command = ascii "fs read " ++ arguments ∧ ReadArguments arguments

end Commands

section Numerals

/-- What `strtoul` takes for a number: white space, a sign and digits. -/
structure Numeral where
  white : List UInt8
  sign : List UInt8
  digits : List UInt8
  spaces : ∀ c ∈ white, isSpace c = true
  signed : sign = [] ∨ sign = ascii "-" ∨ sign = ascii "+"
  decimal : Digits digits

@[ext] theorem Numeral.ext_parts {n m : Numeral} (white : n.white = m.white)
  (sign : n.sign = m.sign)
    (digits : n.digits = m.digits) : n = m := by
  cases n
  cases m
  cases white
  cases sign
  cases digits
  rfl

def Numeral.text (n : Numeral) : List UInt8 := n.white ++ n.sign ++ n.digits

/-- The value of `strtoul`: too large a number saturates, and a minus wraps around. -/
def Numeral.value (n : Numeral) : UInt32 :=
  if decimalOf n.digits ≥ 2 ^ 32 then UInt32.ofNat (2 ^ 32 - 1)
  else if n.sign = ascii "-" then -UInt32.ofNat (decimalOf n.digits)
  else UInt32.ofNat (decimalOf n.digits)

def Numeral.Plain (n : Numeral) : Prop := n.white = [] ∧ n.sign = []

variable {c : UInt8}

theorem digit_apart (digit : isDigit c = true) :
    isSpace c = false ∧ isBlank c = false ∧ c ≠ 0x2d ∧ c ≠ 0x2b := by
  revert c
  apply Lib.Bytes.forall_byte
  decide +kernel

theorem blank_apart (white : isBlank c = true) : isDigit c = false := by
  cases digit : isDigit c with
  | false => rfl
  | true => exact absurd white (Bool.eq_false_iff.mp (digit_apart digit).2.1)

theorem Blanks.stops {text : List UInt8} (blanks : Blanks text) : Stops isDigit text := by
  intro c first
  exact blank_apart (blanks c (List.mem_of_mem_head? first))

theorem Digits.stops {digits rest : List UInt8} (some_digit : Digits digits) {p : UInt8 → Bool}
    (other : ∀ c, isDigit c = true → p c = false) : Stops p (digits ++ rest) := by
  obtain ⟨full, all⟩ := some_digit
  cases digits with
  | nil => exact absurd rfl full
  | cons c digits => exact Stops.cons (other c (all c List.mem_cons_self))

theorem splitSign_other (minus : c ≠ 0x2d) (plus : c ≠ 0x2b) (rest : List UInt8) :
    splitSign (c :: rest) = (false, c :: rest) := by
  unfold splitSign
  split
  · rename_i same
    cases same
    exact absurd rfl minus
  · rename_i same
    cases same
    exact absurd rfl plus
  · rfl

theorem splitSign_parts (body : List UInt8) : ∃ sign,
    (sign = [] ∨ sign = ascii "-" ∨ sign = ascii "+") ∧ body = sign ++ (splitSign body).2 := by
  unfold splitSign
  split
  · exact ⟨ascii "-", Or.inr (Or.inl rfl), rfl⟩
  · exact ⟨ascii "+", Or.inr (Or.inr rfl), rfl⟩
  · exact ⟨[], Or.inl rfl, rfl⟩

namespace Numeral

variable (n : Numeral) {rest : List UInt8}

theorem splitSign_text : splitSign (n.sign ++ (n.digits ++ rest)) =
    (decide (n.sign = ascii "-"), n.digits ++ rest) := by
  rcases n.signed with none | minus | plus
  · rw [none, List.nil_append]
    obtain ⟨full, all⟩ := n.decimal
    obtain ⟨c, digits, cut⟩ := List.exists_cons_of_ne_nil full
    have digit := digit_apart (all c (cut ▸ List.mem_cons_self))
    rw [cut, List.cons_append, splitSign_other digit.2.2.1 digit.2.2.2]
    rfl
  · rw [minus]
    rfl
  · rw [plus]
    rfl

theorem stops_body : Stops isSpace (n.sign ++ (n.digits ++ rest)) := by
  rcases n.signed with none | minus | plus
  · rw [none, List.nil_append]
    exact n.decimal.stops fun c digit => (digit_apart digit).1
  · rw [minus]
    exact Stops.cons (by decide)
  · rw [plus]
    exact Stops.cons (by decide)

theorem text_append : n.text ++ rest = n.white ++ (n.sign ++ (n.digits ++ rest)) := by
  rw [text, List.append_assoc, List.append_assoc]

theorem strtoulDecimal_text (stops : Stops isDigit rest) :
    strtoulDecimal (n.text ++ rest) = (n.value, rest) := by
  have body : Stops isSpace (n.sign ++ (n.digits ++ rest)) := n.stops_body
  have front := dropWhile_run n.spaces body
  have digits : (n.digits ++ rest).takeWhile (fun c => decide (digitValue c < 10)) = n.digits :=
    takeWhile_run n.decimal.2 stops
  have sum : n.digits.foldl (fun n c => n * 10 + digitValue c) 0 = decimalOf n.digits := rfl
  rw [text_append, strtoulDecimal, front, splitSign_text]
  simp only [digits, if_neg n.decimal.1, List.drop_left, sum, decide_eq_true_eq]
  rw [value]
  split_ifs <;> rfl

theorem text_inj {n m : Numeral} {rest rest' : List UInt8} (stops : Stops isDigit rest)
    (stops' : Stops isDigit rest') (same : n.text ++ rest = m.text ++ rest') :
    n = m ∧ rest = rest' := by
  rw [text_append, text_append] at same
  obtain ⟨white, body⟩ := run_inj n.spaces n.stops_body m.spaces m.stops_body same
  have behind := congrArg (fun text => (splitSign text).2) body
  simp only [splitSign_text] at behind
  obtain ⟨digits, rests⟩ := run_inj n.decimal.2 stops m.decimal.2 stops' behind
  rw [behind] at body
  exact ⟨Numeral.ext_parts white (List.append_cancel_right body) digits, rests⟩

theorem text_ne_nil : n.text ≠ [] := by
  intro empty
  rw [text, List.append_eq_nil_iff] at empty
  exact n.decimal.1 empty.2

theorem toNat_value_le : n.value.toNat ≤ 2 ^ 32 - 1 := Nat.le_pred_of_lt n.value.toNat_lt

end Numeral

theorem strtoulDecimal_cases (text : List UInt8) : strtoulDecimal text = (0, text) ∨
    ∃ (n : Numeral) (rest : List UInt8), text = n.text ++ rest ∧ Stops isDigit rest := by
  obtain ⟨sign, signed, body⟩ := splitSign_parts (text.dropWhile isSpace)
  by_cases run : (splitSign (text.dropWhile isSpace)).2.takeWhile isDigit = []
  · left
    exact if_pos run
  · right
    refine ⟨⟨text.takeWhile isSpace, sign, _, run_of_takeWhile, signed, run, run_of_takeWhile⟩,
      (splitSign (text.dropWhile isSpace)).2.dropWhile isDigit, ?_, stops_dropWhile _⟩
    rw [Numeral.text_append, List.takeWhile_append_dropWhile, ← body,
      List.takeWhile_append_dropWhile]

end Numerals

section Offsets

def offsetText : Option (List UInt8 × Numeral) → List UInt8
  | none => []
  | some (gap, n) => gap ++ n.text

/-- The blanks in front of an offset are all of them, and without any the count ends there. -/
def Taken (offset : Option (List UInt8 × Numeral)) : Prop :=
  ∀ gap n, offset = some (gap, n) →
    Blanks gap ∧ Stops isBlank n.text ∧ (gap = [] → Stops isDigit n.text)

def offsetAllowed (tail : List UInt8) : Bool :=
  let tail := skipBlanks tail
  if tail = [] then true
  else
    let (offset, tail) := strtoulDecimal tail
    if decide (offset.toNat > 2 ^ 32 - 1) then false else skipBlanks tail == []

theorem skipBlanks_run {gap rest : List UInt8} (blanks : Blanks gap) (stops : Stops isBlank rest) :
    skipBlanks (gap ++ rest) = rest := dropWhile_run blanks stops

theorem skipBlanks_eq_nil {text : List UInt8} : skipBlanks text = [] ↔ Blanks text :=
  List.dropWhile_eq_nil_iff

variable {offset : Option (List UInt8 × Numeral)} {trailing : List UInt8}

theorem Taken.stops (taken : Taken offset) (blanks : Blanks trailing) :
    Stops isDigit (offsetText offset ++ trailing) := by
  refine Stops.append ?_ blanks.stops
  rcases offset with _ | ⟨gap, n⟩
  · exact Stops.nil
  · obtain ⟨gap_blanks, -, merged⟩ := taken gap n rfl
    cases gap with
    | nil => exact merged rfl
    | cons c gap => exact Stops.cons (blank_apart (gap_blanks c List.mem_cons_self))

theorem offsetAllowed_text (taken : Taken offset) (blanks : Blanks trailing) :
    offsetAllowed (offsetText offset ++ trailing) = true := by
  rw [offsetAllowed]
  rcases offset with _ | ⟨gap, n⟩
  · exact if_pos (skipBlanks_eq_nil.mpr blanks)
  · obtain ⟨gap_blanks, flush, -⟩ := taken gap n rfl
    have stops : Stops isBlank (n.text ++ trailing) := flush.append_right n.text_ne_nil
    rw [offsetText, List.append_assoc, skipBlanks_run gap_blanks stops]
    rw [if_neg (List.append_ne_nil_of_left_ne_nil n.text_ne_nil _),
      n.strtoulDecimal_text blanks.stops]
    simp only []
    rw [skipBlanks_eq_nil.mpr blanks, if_neg]
    · rfl
    · rw [decide_eq_true_eq]
      exact Nat.not_lt_of_le n.toNat_value_le

theorem offsetAllowed_iff {tail : List UInt8} (stops : Stops isDigit tail) :
    offsetAllowed tail = true ↔
      ∃ offset trailing, tail = offsetText offset ++ trailing ∧ Taken offset ∧ Blanks trailing := by
  constructor
  · intro allowed
    rw [offsetAllowed] at allowed
    by_cases ended : skipBlanks tail = []
    · exact ⟨none, tail, rfl, (fun _ _ no => nomatch no), skipBlanks_eq_nil.mp ended⟩
    · rw [if_neg ended] at allowed
      rcases strtoulDecimal_cases (skipBlanks tail) with still | ⟨n, rest, cut, rest_stops⟩
      · rw [still] at allowed
        simp only [] at allowed
        have nothing : Blanks [] := fun c no => nomatch no
        have again : skipBlanks (skipBlanks tail) = skipBlanks tail :=
          skipBlanks_run nothing (stops_dropWhile tail)
        rw [again] at allowed
        exact absurd (beq_iff_eq.mp allowed) ended
      · rw [cut, n.strtoulDecimal_text rest_stops] at allowed
        have blanks : Blanks rest := by
          simp only [] at allowed
          split_ifs at allowed
          exact skipBlanks_eq_nil.mp (beq_iff_eq.mp allowed)
        have whole : tail = tail.takeWhile isBlank ++ (n.text ++ rest) := by
          rw [← cut]
          exact List.takeWhile_append_dropWhile.symm
        have flush : Stops isBlank (n.text ++ rest) := by
          rw [← cut]
          exact stops_dropWhile tail
        refine ⟨some (tail.takeWhile isBlank, n), rest, ?_, ?_, blanks⟩
        · rw [offsetText, List.append_assoc]
          exact whole
        · rintro _ _ ⟨⟩
          refine ⟨run_of_takeWhile, flush.of_append, fun none => ?_⟩
          rw [none, List.nil_append] at whole
          rw [whole] at stops
          exact stops.of_append
  · rintro ⟨offset, trailing, rfl, taken, blanks⟩
    exact offsetAllowed_text taken blanks

end Offsets

section Reading

/-- The pieces of read arguments, with the numbers as `strtoul` takes them. -/
structure Arguments where
  path : List UInt8
  gap : List UInt8
  count : Numeral
  offset : Option (List UInt8 × Numeral)
  trailing : List UInt8

namespace Arguments

def text (a : Arguments) : List UInt8 :=
  a.path ++ (a.gap ++ (a.count.text ++ (offsetText a.offset ++ a.trailing)))

structure Accepted (a : Arguments) : Prop where
  path : safePath a.path true = true
  gap : a.gap ≠ [] ∧ Blanks a.gap
  flush : Stops isBlank a.count.text
  count : 1 ≤ a.count.value.toNat ∧ a.count.value.toNat ≤ 256
  taken : Taken a.offset
  trailing : Blanks a.trailing

def Regular (a : Arguments) : Prop :=
  a.count.Plain ∧ ∀ gap n, a.offset = some (gap, n) →
    gap ≠ [] ∧ n.Plain ∧ decimalOf n.digits ≤ 2 ^ 32 - 1

end Arguments

def countAllowed (numbers : List UInt8) : Bool :=
  let (count, tail) := strtoulDecimal numbers
  if tail.length == numbers.length || count == 0 || decide (count > 256) then false
  else offsetAllowed tail

theorem readCommandAllowed_eq (arguments : List UInt8) : readCommandAllowed arguments =
    let path := arguments.takeWhile (fun c => c != ' '.toUInt8)
    let separator := arguments.drop path.length
    if separator = [] || !safePath path true then false
    else if skipBlanks separator = [] then false
    else countAllowed (skipBlanks separator) := rfl

theorem countAllowed_text {n : Numeral} {tail : List UInt8} (stops : Stops isDigit tail) :
    countAllowed (n.text ++ tail) = true ↔
      (1 ≤ n.value.toNat ∧ n.value.toNat ≤ 256) ∧ offsetAllowed tail = true := by
  have moved : (tail.length == (n.text ++ tail).length) = false := by
    have length := List.length_pos_of_ne_nil n.text_ne_nil
    rw [List.length_append, beq_eq_false_iff_ne]
    omega
  have range : (n.value == 0 || decide (n.value > 256)) = true ↔
      ¬(1 ≤ n.value.toNat ∧ n.value.toNat ≤ 256) := by
    rw [Bool.or_eq_true, beq_iff_eq, decide_eq_true_eq, ← UInt32.toNat_inj, gt_iff_lt,
      UInt32.lt_iff_toNat_lt]
    show n.value.toNat = 0 ∨ 256 < n.value.toNat ↔ _
    omega
  rw [countAllowed, n.strtoulDecimal_text stops]
  simp only [moved, Bool.false_or]
  split_ifs with outside
  · exact iff_of_false not_false fun inside => range.mp outside inside.1
  · exact ⟨fun allowed => ⟨not_not.mp (mt range.mpr outside), allowed⟩, fun allowed => allowed.2⟩

theorem countAllowed_iff {numbers : List UInt8} : countAllowed numbers = true ↔
    ∃ (count : Numeral) (offset : _) (trailing : List UInt8),
      numbers = count.text ++ (offsetText offset ++ trailing) ∧
      (1 ≤ count.value.toNat ∧ count.value.toNat ≤ 256) ∧ Taken offset ∧ Blanks trailing := by
  constructor
  · intro allowed
    rcases strtoulDecimal_cases numbers with still | ⟨n, rest, rfl, stops⟩
    · rw [countAllowed, still] at allowed
      simp only [beq_self_eq_true, Bool.true_or] at allowed
      cases allowed
    · obtain ⟨range, allowed⟩ := (countAllowed_text stops).mp allowed
      obtain ⟨offset, trailing, rfl, taken, blanks⟩ := (offsetAllowed_iff stops).mp allowed
      exact ⟨n, offset, trailing, rfl, range, taken, blanks⟩
  · rintro ⟨n, offset, trailing, rfl, range, taken, blanks⟩
    exact (countAllowed_text (taken.stops blanks)).mpr ⟨range, offsetAllowed_text taken blanks⟩

theorem safePath_notBlank {path : List UInt8} {storageOnly : Bool}
    (safe : safePath path storageOnly = true) : ∀ c ∈ path, (c != ' '.toUInt8) = true := by
  intro c member
  rw [bne_iff_ne]
  rintro rfl
  exact absurd ((safePath_iff.mp safe).1 _ member) (by decide)

theorem readCommandAllowed_text {path rest : List UInt8}
    (whole : ∀ c ∈ path, (c != ' '.toUInt8) = true)
    (stops : Stops (fun c => c != ' '.toUInt8) rest) :
    readCommandAllowed (path ++ rest) = true ↔
      rest ≠ [] ∧ safePath path true = true ∧ skipBlanks rest ≠ [] ∧
        countAllowed (skipBlanks rest) = true := by
  rw [readCommandAllowed_eq]
  simp only [takeWhile_run whole stops, List.drop_left, Bool.or_eq_true, decide_eq_true_eq,
    Bool.not_eq_true']
  split_ifs with refused ended
  · refine iff_of_false not_false ?_
    rintro ⟨full, safe, -⟩
    rcases refused with empty | insecure
    · exact full empty
    · rw [safe] at insecure
      cases insecure
  · exact iff_of_false not_false fun allowed => allowed.2.2.1 ended
  · rw [not_or, Bool.not_eq_false] at refused
    exact ⟨fun allowed => ⟨refused.1, refused.2, ended, allowed⟩, fun allowed => allowed.2.2.2⟩

theorem Arguments.Accepted.stops_path {a : Arguments} (accepted : a.Accepted)
    (rest : List UInt8) : Stops (fun c => c != ' '.toUInt8) (a.gap ++ rest) := by
  obtain ⟨full, blanks⟩ := accepted.gap
  obtain ⟨c, gap, cut⟩ := List.exists_cons_of_ne_nil full
  have first : c = ' '.toUInt8 := beq_iff_eq.mp (blanks c (cut ▸ List.mem_cons_self))
  rw [cut, List.cons_append]
  refine Stops.cons ?_
  rw [first]
  rfl

theorem readCommandAllowed_iff {arguments : List UInt8} : readCommandAllowed arguments = true ↔
    ∃ a : Arguments, arguments = a.text ∧ a.Accepted := by
  constructor
  · intro allowed
    have parts : arguments = arguments.takeWhile (fun c => c != ' '.toUInt8) ++
      arguments.dropWhile (fun c => c != ' '.toUInt8) := List.takeWhile_append_dropWhile.symm
    have whole := run_of_takeWhile (p := fun c : UInt8 => c != ' '.toUInt8) (l := arguments)
    have stops := stops_dropWhile (p := fun c : UInt8 => c != ' '.toUInt8) arguments
    generalize arguments.takeWhile (fun c => c != ' '.toUInt8) = path at parts whole
    generalize arguments.dropWhile (fun c => c != ' '.toUInt8) = rest at parts stops
    subst parts
    obtain ⟨full, safe, -, counted⟩ := (readCommandAllowed_text whole stops).mp allowed
    obtain ⟨count, offset, trailing, cut, range, taken, blanks⟩ := countAllowed_iff.mp counted
    have behind : rest = rest.takeWhile isBlank ++ skipBlanks rest :=
      List.takeWhile_append_dropWhile.symm
    have flush : Stops isBlank (skipBlanks rest) := stops_dropWhile rest
    refine ⟨⟨path, rest.takeWhile isBlank, count, offset, trailing⟩, ?_, ?_⟩
    · rw [Arguments.text, ← cut, ← behind]
    · rw [cut] at flush
      refine ⟨safe, ⟨?_, run_of_takeWhile⟩, flush.of_append, range, taken, blanks⟩
      obtain ⟨c, rest', rfl⟩ := List.exists_cons_of_ne_nil full
      have first : isBlank c = true := by
        have other := stops.head
        rw [bne_eq_false_iff_eq] at other
        rw [other]
        rfl
      rw [List.takeWhile_cons_of_pos first]
      exact List.cons_ne_nil _ _
  · rintro ⟨a, rfl, accepted⟩
    have numbers : Stops isBlank (a.count.text ++ (offsetText a.offset ++ a.trailing)) :=
      accepted.flush.append_right a.count.text_ne_nil
    have counted := countAllowed_iff.mpr
      ⟨a.count, a.offset, a.trailing, rfl, accepted.count, accepted.taken, accepted.trailing⟩
    rw [Arguments.text, readCommandAllowed_text (safePath_notBlank accepted.path)
      (accepted.stops_path _), skipBlanks_run accepted.gap.2 numbers]
    exact ⟨List.append_ne_nil_of_left_ne_nil accepted.gap.1 _, accepted.path,
      List.append_ne_nil_of_left_ne_nil a.count.text_ne_nil _, counted⟩

variable {trailing : List UInt8}

theorem not_blanks_offset {gap : List UInt8} {n : Numeral} :
    ¬Blanks (offsetText (some (gap, n)) ++ trailing) := by
  intro blanks
  obtain ⟨c, digits, cut⟩ := List.exists_cons_of_ne_nil n.decimal.1
  have digit := n.decimal.2 c (cut ▸ List.mem_cons_self)
  have member : c ∈ offsetText (some (gap, n)) ++ trailing := by
    rw [offsetText, Numeral.text, cut]
    simp
  exact absurd (blanks c member) (Bool.eq_false_iff.mp (digit_apart digit).2.1)

theorem offsetText_inj {offset offset' : Option (List UInt8 × Numeral)} {trailing' : List UInt8}
    (taken : Taken offset) (blanks : Blanks trailing) (taken' : Taken offset')
    (blanks' : Blanks trailing')
    (same : offsetText offset ++ trailing = offsetText offset' ++ trailing') :
    offset = offset' ∧ trailing = trailing' := by
  rcases offset with _ | ⟨gap, n⟩ <;> rcases offset' with _ | ⟨gap', m⟩
  · exact ⟨rfl, same⟩
  · rw [offsetText, List.nil_append] at same
    rw [same] at blanks
    exact absurd blanks not_blanks_offset
  · rw [offsetText.eq_1, List.nil_append] at same
    rw [← same] at blanks'
    exact absurd blanks' not_blanks_offset
  · obtain ⟨gap_blanks, flush, -⟩ := taken gap n rfl
    obtain ⟨gap_blanks', flush', -⟩ := taken' gap' m rfl
    rw [offsetText, offsetText, List.append_assoc, List.append_assoc] at same
    obtain ⟨rfl, behind⟩ := run_inj gap_blanks (flush.append_right n.text_ne_nil) gap_blanks'
      (flush'.append_right m.text_ne_nil) same
    obtain ⟨rfl, ends⟩ := Numeral.text_inj blanks.stops blanks'.stops behind
    exact ⟨rfl, ends⟩

theorem Arguments.Accepted.unique {a b : Arguments} (accepted : a.Accepted) (accepted' : b.Accepted)
    (same : a.text = b.text) : a = b := by
  obtain ⟨path, same⟩ := run_inj (safePath_notBlank accepted.path) (accepted.stops_path _)
    (safePath_notBlank accepted'.path) (accepted'.stops_path _) same
  obtain ⟨gap, same⟩ := run_inj accepted.gap.2
    (accepted.flush.append_right a.count.text_ne_nil) accepted'.gap.2
    (accepted'.flush.append_right b.count.text_ne_nil) same
  obtain ⟨count, same⟩ := Numeral.text_inj (accepted.taken.stops accepted.trailing)
    (accepted'.taken.stops accepted'.trailing) same
  obtain ⟨offset, trailing⟩ := offsetText_inj accepted.taken accepted.trailing accepted'.taken
    accepted'.trailing same
  cases a
  cases b
  cases path
  cases gap
  cases count
  cases offset
  cases trailing
  rfl

end Reading

section Exactness

def Numeral.ofDigits (digits : List UInt8) (decimal : Digits digits) : Numeral where
  white := []
  sign := []
  digits := digits
  spaces := fun _ no => nomatch no
  signed := Or.inl rfl
  decimal := decimal

namespace Numeral.Plain

variable {n : Numeral}

theorem text (plain : n.Plain) : n.text = n.digits := by
  rw [Numeral.text, plain.1, plain.2, List.nil_append, List.nil_append]

theorem stops (plain : n.Plain) : Stops isBlank n.text := by
  have front : Stops isBlank (n.digits ++ []) :=
    n.decimal.stops fun c digit => (digit_apart digit).2.1
  rw [List.append_nil] at front
  rw [plain.text]
  exact front

theorem range (plain : n.Plain) : 1 ≤ n.value.toNat ∧ n.value.toNat ≤ 256 ↔
    1 ≤ decimalOf n.digits ∧ decimalOf n.digits ≤ 256 := by
  rw [Numeral.value]
  split_ifs with large minus
  · refine iff_of_false (by decide) fun inside => ?_
    omega
  · rw [plain.2] at minus
    cases minus
  · rw [UInt32.toNat_ofNat_of_lt' (Nat.lt_of_not_le large)]

end Numeral.Plain

theorem readArguments_iff {arguments : List UInt8} : ReadArguments arguments ↔
    ∃ a : Arguments, arguments = a.text ∧ a.Accepted ∧ a.Regular := by
  constructor
  · rintro ⟨path, gap, count, rest, trailing, rfl, safe, gaps, ⟨digits, range⟩, rests, blanks⟩
    have plain : (Numeral.ofDigits count digits).Plain := ⟨rfl, rfl⟩
    rcases rests with rfl | ⟨gap', offset, rfl, gaps', digits', small⟩
    · refine ⟨⟨path, gap, Numeral.ofDigits count digits, none, trailing⟩, ?_,
        ⟨safe, gaps, plain.stops, plain.range.mpr range, (fun _ _ no => nomatch no), blanks⟩,
        plain, (fun _ _ no => nomatch no)⟩
      rw [Arguments.text, plain.text]
      simp [offsetText, Numeral.ofDigits]
    · have plain' : (Numeral.ofDigits offset digits').Plain := ⟨rfl, rfl⟩
      refine ⟨⟨path, gap, Numeral.ofDigits count digits,
          some (gap', Numeral.ofDigits offset digits'), trailing⟩, ?_,
        ⟨safe, gaps, plain.stops, plain.range.mpr range, ?_, blanks⟩, plain, ?_⟩
      · rw [Arguments.text, plain.text, offsetText, plain'.text]
        simp [Numeral.ofDigits]
      · rintro _ _ ⟨⟩
        exact ⟨gaps'.2, plain'.stops, fun none => absurd none gaps'.1⟩
      · rintro _ _ ⟨⟩
        exact ⟨gaps'.1, plain', small⟩
  · rintro ⟨⟨path, gap, count, offset, trailing⟩, rfl, accepted, plain, regular⟩
    have range := plain.range.mp accepted.count
    refine ⟨path, gap, count.digits, offsetText offset, trailing, ?_, accepted.path, accepted.gap,
      ⟨count.decimal, range⟩, ?_, accepted.trailing⟩
    · rw [Arguments.text, plain.text]
      simp
    · rcases offset with _ | ⟨gap', n⟩
      · exact Or.inl rfl
      · obtain ⟨some_blank, plain', small⟩ := regular gap' n rfl
        right
        refine ⟨gap', n.digits, ?_, ⟨some_blank, (accepted.taken gap' n rfl).1⟩, n.decimal, small⟩
        rw [offsetText, plain'.text]

/-- A read command that passes with a number the grammar does not have: one with a sign or with
white space other than blanks, an offset that follows the count at once, or one beyond 32 bits. -/
def Loose (command : List UInt8) : Prop :=
  ∃ a : Arguments, command = ascii "fs read " ++ a.text ∧ a.Accepted ∧ ¬a.Regular

section Forms

variable {path arguments : List UInt8}

theorem ls_ne_read : ascii "fs ls " ++ path ≠ ascii "fs read " ++ arguments := by
  intro same
  have third : some 'l'.toUInt8 = some 'r'.toUInt8 := congrArg (fun text => text[3]?) same
  exact absurd third (by decide)

theorem fixed_ne_read : ¬(ascii "fs read " ++ arguments = ascii "kernel uptime" ∨
    ascii "fs read " ++ arguments = ascii "fs ls") := by
  rintro (same | same)
  · have first : some 'f'.toUInt8 = some 'k'.toUInt8 := congrArg (fun text => text[0]?) same
    exact absurd first (by decide)
  · have third : some 'r'.toUInt8 = some 'l'.toUInt8 := congrArg (fun text => text[3]?) same
    exact absurd third (by decide)

theorem oneShot_read : OneShot (ascii "fs read " ++ arguments) ↔ ReadArguments arguments := by
  constructor
  · rintro (same | same | ⟨path, same, -⟩ | ⟨arguments', same, read⟩)
    · exact absurd (Or.inl same) fixed_ne_read
    · exact absurd (Or.inr same) fixed_ne_read
    · exact absurd same.symm ls_ne_read
    · rw [List.append_cancel_left same]
      exact read
  · intro read
    exact Or.inr (Or.inr (Or.inr ⟨arguments, rfl, read⟩))

end Forms

variable {command : List UInt8}

theorem commandAllowed_iff : commandAllowed command = true ↔
    command = ascii "kernel uptime" ∨ command = ascii "fs ls" ∨
      (∃ path, command = ascii "fs ls " ++ path ∧ safePath path false = true) ∨
      ∃ arguments, command = ascii "fs read " ++ arguments ∧
        readCommandAllowed arguments = true := by
  rw [commandAllowed]
  simp only [Bool.or_eq_true, beq_iff_eq, Bool.not_eq_true', ← Bool.not_eq_true,
    List.isPrefixOf_iff_prefix]
  split_ifs with fixed read other
  · refine iff_of_true rfl ?_
    rcases fixed with uptime | list
    · exact Or.inl uptime
    · exact Or.inr (Or.inl list)
  · obtain ⟨arguments, rfl⟩ := read
    constructor
    · intro allowed
      exact Or.inr (Or.inr (Or.inr ⟨arguments, rfl, allowed⟩))
    · rintro (same | same | ⟨path, same, -⟩ | ⟨arguments', same, allowed⟩)
      · exact absurd (Or.inl same) fixed
      · exact absurd (Or.inr same) fixed
      · exact absurd same.symm ls_ne_read
      · rw [List.append_cancel_left same]
        exact allowed
  · obtain ⟨path, rfl⟩ := other
    constructor
    · intro safe
      exact Or.inr (Or.inr (Or.inl ⟨path, rfl, safe⟩))
    · rintro (same | same | ⟨path', same, safe⟩ | ⟨arguments, same, -⟩)
      · exact absurd (Or.inl same) fixed
      · exact absurd (Or.inr same) fixed
      · rw [List.append_cancel_left same]
        exact safe
      · exact absurd same ls_ne_read
  · refine iff_of_false not_false ?_
    rintro (same | same | ⟨path, rfl, -⟩ | ⟨arguments, rfl, -⟩)
    · exact fixed (Or.inl same)
    · exact fixed (Or.inr same)
    · exact other (List.prefix_append _ _)
    · exact read (List.prefix_append _ _)

theorem Loose.allowed (loose : Loose command) : commandAllowed command = true := by
  obtain ⟨a, rfl, accepted, -⟩ := loose
  exact readCommandAllowed_iff.mpr ⟨a, rfl, accepted⟩

theorem Loose.not_oneShot (loose : Loose command) : ¬OneShot command := by
  obtain ⟨a, rfl, accepted, irregular⟩ := loose
  intro listed
  obtain ⟨b, same, accepted', regular⟩ := readArguments_iff.mp (oneShot_read.mp listed)
  rw [accepted.unique accepted' same] at irregular
  exact irregular regular

/-- The allowlist is the grammar of one-shot commands, except for loose numbers. -/
theorem command_allowed_exact (command : List UInt8) :
    (commandAllowed command = true ↔ OneShot command) ↔ ¬Loose command := by
  constructor
  · intro exactly loose
    exact loose.not_oneShot (exactly.mp loose.allowed)
  · intro tight
    rw [commandAllowed_iff, OneShot]
    refine or_congr_right (or_congr_right (or_congr_right (exists_congr fun arguments => ?_)))
    refine and_congr_right fun same => ?_
    rw [readCommandAllowed_iff, readArguments_iff]
    constructor
    · rintro ⟨a, rfl, accepted⟩
      refine ⟨a, rfl, accepted, ?_⟩
      by_contra irregular
      exact tight ⟨a, same, accepted, irregular⟩
    · rintro ⟨a, rfl, accepted, -⟩
      exact ⟨a, rfl, accepted⟩

def wrapped : Arguments where
  path := ascii "/STORAGE:/a"
  gap := ascii " "
  count :=
    { white := []
      sign := ascii "-"
      digits := ascii "4294967295"
      spaces := fun _ no => nomatch no
      signed := Or.inr (Or.inl rfl)
      decimal := ⟨by decide +kernel, by decide +kernel⟩ }
  offset := none
  trailing := []

theorem wrapped_accepted : wrapped.Accepted where
  path := by decide +kernel
  gap := by
    refine ⟨by decide, fun c member => ?_⟩
    rw [List.mem_singleton.mp member]
    rfl
  flush := Stops.cons (by decide)
  count := by decide +kernel
  taken := fun _ _ no => nomatch no
  trailing := fun _ no => nomatch no

theorem wrapped_count_allowed :
    (ascii "fs read /STORAGE:/a -4294967295").length < Config.project.shellCommandSize ∧
      0 ∉ ascii "fs read /STORAGE:/a -4294967295" ∧
      commandAllowed (ascii "fs read /STORAGE:/a -4294967295") = true ∧
      ¬OneShot (ascii "fs read /STORAGE:/a -4294967295") := by
  have loose : Loose (ascii "fs read /STORAGE:/a -4294967295") := by
    refine ⟨wrapped, by decide +kernel, wrapped_accepted, ?_⟩
    rintro ⟨⟨-, no⟩, -⟩
    cases no
  exact ⟨by decide, by decide, loose.allowed, loose.not_oneShot⟩

end Exactness

end Webos.Adb.Shell
