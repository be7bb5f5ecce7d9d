/- digest: The paths of one-shot commands are lists of plain components below a known root. -/

import Mathlib.Data.List.GetD
import Webos.Adb.Shell.Policy
import Webos.Lib.Bytes
import Webos.Lib.Segments

namespace Webos.Adb.Shell

open Webos.Lib.Segments

def slash : UInt8 := '/'.toUInt8

def pathBytes : List UInt8 :=
  ascii "ABCDEFGHIJKLMNOPQRSTUVWXYZabcdefghijklmnopqrstuvwxyz0123456789/:._-"

/-- A component that names one entry of its directory. -/
def Plain (component : List UInt8) : Prop :=
  component ≠ [] ∧ component ≠ ascii "." ∧ component ≠ ascii ".."

/-- A path of plain components below a root; `storageOnly` asks for the storage and for at least
one component below it. -/
def PlainPath (storageOnly : Bool) (path : List UInt8) : Prop :=
  (∀ c ∈ path, c ∈ pathBytes) ∧ ∃ root components, path.splitOn slash = [] :: root :: components ∧
    (root = ascii "STORAGE:" ∨ (storageOnly = false ∧ root = ascii "dev")) ∧
    (∀ component ∈ components, Plain component) ∧ (storageOnly = true → components ≠ [])

section Segments

theorem safePathChar_iff (c : UInt8) : safePathChar c = true ↔ c ∈ pathBytes := by
  revert c
  apply Lib.Bytes.forall_byte
  decide +kernel

variable {path rest : List UInt8}

theorem ite_plain {segment : List UInt8} {safe : Bool} :
    (if segment == [] || segment == ascii "." || segment == ascii ".." then false
      else safe) = true ↔
      Plain segment ∧ safe = true := by
  unfold Plain
  rw [ite_eq_iff]
  simp [and_assoc]

theorem segmentsSafe_iff {passes : Nat} (enough : rest.length ≤ passes)
    (noTrailing : rest.getLast? ≠ some slash) : segmentsSafe passes rest = true ↔
      rest = [] ∨ ∀ component ∈ rest.splitOn slash, Plain component := by
  induction passes generalizing rest with
  | zero =>
    rw [List.eq_nil_of_length_eq_zero (Nat.le_zero.mp enough)]
    exact iff_of_true rfl (Or.inl rfl)
  | succ passes ih =>
    rw [segmentsSafe]
    by_cases empty : rest = []
    · rw [if_pos empty]
      exact iff_of_true rfl (Or.inl empty)
    · rw [if_neg empty, or_iff_right empty]
      dsimp only
      by_cases cut : slash ∈ rest
      · obtain ⟨segment, tail, rfl, whole⟩ := List.eq_append_cons_of_mem cut
        have first : (segment ++ slash :: tail).takeWhile (fun c => c != '/'.toUInt8) = segment :=
          takeWhile_ne_append_sep whole tail
        have last : tail.getLast? ≠ some slash := by
          intro ends
          refine noTrailing ?_
          rw [List.getLast?_append, List.getLast?_cons, ends]
          rfl
        have left : tail ≠ [] := by
          rintro rfl
          exact noTrailing (by rw [List.getLast?_concat])
        have shorter : tail.length ≤ passes := by
          rw [List.length_append, List.length_cons] at enough
          omega
        have behind : (segment ++ slash :: tail).drop (segment.length + 1) = tail := by
          rw [← List.drop_drop, List.drop_left' rfl]
          rfl
        rw [first, splitOn_append_sep whole, behind, List.forall_mem_cons, ite_plain,
          ih shorter last, or_iff_right left]
      · have first : rest.takeWhile (fun c => c != '/'.toUInt8) = rest :=
          takeWhile_ne_of_notMem cut
        have behind : rest.drop (rest.length + 1) = [] := List.drop_eq_nil_of_le (Nat.le_succ _)
        have done : segmentsSafe passes [] = true := by cases passes <;> rfl
        rw [first, splitOn_of_notMem cut, behind, List.forall_mem_singleton, ite_plain, done]
        exact and_iff_left rfl

theorem segmentsFrom_iff {first : Nat} : segmentsFrom first path = true ↔
    (∀ c ∈ path, c ∈ pathBytes) ∧ segmentsSafe path.length (path.drop first) = true ∧
      path.getLast? ≠ some slash := by
  unfold segmentsFrom
  rw [Bool.and_eq_true, Bool.and_eq_true, List.all_eq_true, bne_iff_ne, and_assoc]
  simp only [safePathChar_iff]
  rfl

theorem segmentsFrom_below {front : List UInt8} :
    segmentsFrom (front.length + 1) (front ++ slash :: rest) = true ↔
      (∀ c ∈ front ++ slash :: rest, c ∈ pathBytes) ∧
        ∀ component ∈ rest.splitOn slash, Plain component := by
  have behind : (front ++ slash :: rest).drop (front.length + 1) = rest := by
    rw [← List.drop_drop, List.drop_left' rfl]
    rfl
  rw [segmentsFrom_iff, behind]
  refine and_congr_right fun _ => ?_
  by_cases empty : rest = []
  · subst empty
    refine iff_of_false (fun both => both.2 (by rw [List.getLast?_concat])) fun plain => ?_
    exact (plain [] List.mem_cons_self).1 rfl
  · have last : (front ++ slash :: rest).getLast? = rest.getLast? := by
      rw [List.getLast?_append_of_ne_nil _ (List.cons_ne_nil _ _),
        List.getLast?_cons_of_ne_nil empty]
    have enough : rest.length ≤ (front ++ slash :: rest).length := by
      rw [List.length_append, List.length_cons]
      omega
    rw [last]
    constructor
    · rintro ⟨safe, noTrailing⟩
      exact ((segmentsSafe_iff enough noTrailing).mp safe).resolve_left empty
    · intro plain
      have noTrailing : rest.getLast? ≠ some slash :=
        ((tail_splitOn_ne_nil_iff rest).mp
          fun component member => (plain component (List.mem_of_mem_tail member)).1).2
      exact ⟨(segmentsSafe_iff enough noTrailing).mpr (Or.inr plain), noTrailing⟩

end Segments

section Roots

variable {path : List UInt8} {storageOnly : Bool}

def Root (storageOnly : Bool) (front : List UInt8) : Prop :=
  front = storage ∨ (storageOnly = false ∧ front = ascii "/dev")

theorem plainPath_iff : PlainPath storageOnly path ↔ (∀ c ∈ path, c ∈ pathBytes) ∧
    ∃ front, Root storageOnly front ∧ ((storageOnly = false ∧ path = front) ∨
      ∃ rest, path = front ++ slash :: rest ∧
        ∀ component ∈ rest.splitOn slash, Plain component) := by
  unfold PlainPath Root
  refine and_congr_right fun _ => ⟨?_, ?_⟩
  · rintro ⟨root, components, cut, isRoot, plain, some'⟩
    obtain ⟨behind, rfl, -, cut⟩ := splitOn_eq_cons_cons.mp cut
    refine ⟨slash :: root, ?_, ?_⟩
    · rcases isRoot with rfl | ⟨all, rfl⟩
      · exact Or.inl rfl
      · exact Or.inr ⟨all, rfl⟩
    · cases components with
      | nil =>
        left
        refine ⟨?_, ?_⟩
        · cases storageOnly with
          | false => rfl
          | true => exact absurd rfl (some' rfl)
        · rw [(splitOn_eq_singleton.mp cut).1]
          rfl
      | cons first others =>
        right
        obtain ⟨rest, rfl, -, cut⟩ := splitOn_eq_cons_cons.mp cut
        exact ⟨rest, rfl, cut ▸ plain⟩
  · rintro ⟨front, isRoot, place⟩
    obtain ⟨root, rfl, whole, isRoot⟩ : ∃ root, front = slash :: root ∧ slash ∉ root ∧
        (root = ascii "STORAGE:" ∨ (storageOnly = false ∧ root = ascii "dev")) := by
      rcases isRoot with rfl | ⟨all, rfl⟩
      · exact ⟨ascii "STORAGE:", rfl, by decide +kernel, Or.inl rfl⟩
      · exact ⟨ascii "dev", rfl, by decide +kernel, Or.inr ⟨all, rfl⟩⟩
    rcases place with ⟨all, rfl⟩ | ⟨rest, rfl, plain⟩
    · refine ⟨root, [], ?_, isRoot, (fun _ no => nomatch no), fun only => ?_⟩
      · rw [splitOn_sep, splitOn_of_notMem whole]
      · exact nomatch all.symm.trans only
    · refine ⟨root, rest.splitOn slash, ?_, isRoot, plain, fun _ => List.splitOnP_ne_nil _ _⟩
      rw [List.cons_append, splitOn_sep, splitOn_append_sep whole]

theorem below_iff {front : List UInt8} : (path.take front.length = front ∧
    path.getD front.length 0 = slash) ↔ ∃ rest, path = front ++ slash :: rest := by
  constructor
  · rintro ⟨begins, next⟩
    obtain ⟨behind, rfl⟩ : front <+: path := begins ▸ List.take_prefix _ _
    rw [List.getD_append_right _ _ _ _ (Nat.le_refl _), Nat.sub_self] at next
    cases behind with
    | nil => cases next
    | cons c rest =>
      rw [List.getD_cons_zero] at next
      subst next
      exact ⟨rest, rfl⟩
  · rintro ⟨rest, rfl⟩
    rw [List.take_left' rfl, List.getD_append_right _ _ _ _ (Nat.le_refl _), Nat.sub_self]
    exact ⟨rfl, rfl⟩

theorem belowStorage_iff : belowStorage path = true ↔ ∃ rest, path = storage ++ slash :: rest := by
  rw [← below_iff]
  unfold belowStorage
  rw [Bool.and_eq_true, Bool.and_eq_true, decide_eq_true_eq, beq_iff_eq, beq_iff_eq]
  constructor
  · rintro ⟨⟨-, begins⟩, next⟩
    exact ⟨begins, next⟩
  · rintro ⟨begins, next⟩
    refine ⟨⟨?_, begins⟩, next⟩
    obtain ⟨rest, rfl⟩ := below_iff.mp ⟨begins, next⟩
    rw [List.length_append, List.length_cons]
    omega

theorem atDev_iff : (decide (path.length ≥ 4) && path.take 4 == ascii "/dev" &&
    (path.length == 4 || path.getD 4 0 == '/'.toUInt8)) = true ↔
      path = ascii "/dev" ∨ ∃ rest, path = ascii "/dev" ++ slash :: rest := by
  rw [Bool.and_eq_true, Bool.and_eq_true, Bool.or_eq_true, decide_eq_true_eq, beq_iff_eq,
    beq_iff_eq, beq_iff_eq]
  constructor
  · rintro ⟨⟨long, begins⟩, whole | next⟩
    · rw [← whole, List.take_length] at begins
      exact Or.inl begins
    · exact Or.inr (below_iff.mp ⟨begins, next⟩)
  · rintro (rfl | below)
    · decide
    · obtain ⟨begins, next⟩ := below_iff.mpr below
      obtain ⟨rest, rfl⟩ := below
      refine ⟨⟨?_, begins⟩, Or.inr next⟩
      rw [List.length_append, List.length_cons]
      have length : (ascii "/dev").length = 4 := by decide
      omega

theorem safePath_storage : safePath path true = true ↔ PlainPath true path := by
  unfold safePath
  rw [if_pos rfl, Bool.and_eq_true, belowStorage_iff, plainPath_iff]
  constructor
  · rintro ⟨⟨rest, rfl⟩, safe⟩
    obtain ⟨bytes, plain⟩ := segmentsFrom_below.mp safe
    exact ⟨bytes, storage, Or.inl rfl, Or.inr ⟨rest, rfl, plain⟩⟩
  · rintro ⟨bytes, front, rfl | ⟨no, -⟩, place⟩
    · rcases place with ⟨no, -⟩ | ⟨rest, rfl, plain⟩
      · cases no
      · exact ⟨⟨rest, rfl⟩, segmentsFrom_below.mpr ⟨bytes, plain⟩⟩
    · cases no

theorem dev_apart {rest : List UInt8} : ascii "/dev" ++ slash :: rest ≠ storage ∧
    ¬∃ behind, ascii "/dev" ++ slash :: rest = storage ++ slash :: behind := by
  have apart : ¬( 'd'.toUInt8 = 'S'.toUInt8) := by decide
  refine ⟨fun same => ?_, fun ⟨behind, same⟩ => ?_⟩
  all_goals exact apart (congrArg (fun path => path.getD 1 0) same)

theorem safePath_any : safePath path false = true ↔ PlainPath false path := by
  have known : ∀ c ∈ storage, c ∈ pathBytes := by decide +kernel
  have known' : ∀ c ∈ ascii "/dev", c ∈ pathBytes := by decide +kernel
  have long (rest : List UInt8) : (ascii "/dev" ++ slash :: rest).length ≠ 4 := by
    rw [List.length_append, List.length_cons]
    have length : (ascii "/dev").length = 4 := by decide
    omega
  rw [plainPath_iff]
  constructor
  · intro safe
    unfold safePath at safe
    rw [if_neg (by decide)] at safe
    split_ifs at safe with same below dev short
    · rw [beq_iff_eq] at same
      exact ⟨same ▸ known, storage, Or.inl rfl, Or.inl ⟨rfl, same⟩⟩
    · obtain ⟨rest, rfl⟩ := belowStorage_iff.mp below
      obtain ⟨bytes, plain⟩ := segmentsFrom_below.mp safe
      exact ⟨bytes, storage, Or.inl rfl, Or.inr ⟨rest, rfl, plain⟩⟩
    · rcases atDev_iff.mp dev with rfl | ⟨rest, rfl⟩
      · exact ⟨known', _, Or.inr ⟨rfl, rfl⟩, Or.inl ⟨rfl, rfl⟩⟩
      · exact absurd short (long rest)
    · rcases atDev_iff.mp dev with rfl | ⟨rest, rfl⟩
      · exact absurd rfl short
      · obtain ⟨bytes, plain⟩ := segmentsFrom_below.mp safe
        exact ⟨bytes, _, Or.inr ⟨rfl, rfl⟩, Or.inr ⟨rest, rfl, plain⟩⟩
  · rintro ⟨bytes, front, rfl | ⟨-, rfl⟩, ⟨-, rfl⟩ | ⟨rest, rfl, plain⟩⟩
    · decide
    · unfold safePath
      rw [if_neg (by decide)]
      split_ifs with same below
      · rfl
      · exact segmentsFrom_below.mpr ⟨bytes, plain⟩
      all_goals exact absurd (belowStorage_iff.mpr ⟨rest, rfl⟩) below
    · decide
    · unfold safePath
      rw [if_neg (by decide), if_neg (by rw [beq_iff_eq]; exact dev_apart.1),
        if_neg (fun no => dev_apart.2 (belowStorage_iff.mp no)),
        if_pos (atDev_iff.mpr (Or.inr ⟨rest, rfl⟩)), if_neg (long rest)]
      exact segmentsFrom_below.mpr ⟨bytes, plain⟩

theorem safePath_iff : safePath path storageOnly = true ↔ PlainPath storageOnly path := by
  cases storageOnly with
  | false => exact safePath_any
  | true => exact safePath_storage

end Roots

section Reads

def andRead (a : Bool) (b : Option Bool) : Option Bool := if a then b else some false

/-- `memcmp(path, text, n) == 0`, which may read all `n` bytes; `none` is a read behind the end. -/
def memcmpZero (path text : List UInt8) : Option Bool :=
  if text.length ≤ path.length then some (path.take text.length == text) else none

def equalsAt (path : List UInt8) (i : Nat) (c : UInt8) : Option Bool := path[i]?.map (· == c)

/-- `len > storage_len && memcmp(path, storage, storage_len) == 0 && path[storage_len] == '/'`. -/
def belowStorageReads (path : List UInt8) : Option Bool :=
  andRead (decide (path.length > storage.length)) ((memcmpZero path storage).bind fun same =>
    andRead same (equalsAt path storage.length '/'.toUInt8))

/-- The branches of `safe_path` that find its first segment, or return at once. -/
def firstSegment (path : List UInt8) (storageOnly : Bool) : Option (Except Bool Nat) :=
  if storageOnly then
    (belowStorageReads path).map fun below =>
      if below then .ok (storage.length + 1) else .error false
  else
    (andRead (path.length == storage.length) (memcmpZero path storage)).bind fun whole =>
      if whole then some (.error true)
      else (belowStorageReads path).bind fun below =>
        if below then some (.ok (storage.length + 1))
        else (andRead (decide (path.length ≥ 4)) ((memcmpZero path (ascii "/dev")).bind fun same =>
            andRead same (if path.length == 4 then some true
              else equalsAt path 4 '/'.toUInt8))).map fun dev =>
          if dev then .ok (if path.length = 4 then path.length else 5) else .error false

def bytesLoop (path : List UInt8) : Nat → Option Bool
  | 0 => some true
  | left + 1 => path[path.length - (left + 1)]?.bind fun c =>
    if safePathChar c then bytesLoop path left else some false

def segmentEnd (path : List UInt8) : Nat → Nat → Option Nat
  | 0, i => some i
  | passes + 1, i =>
    if i < path.length then path[i]?.bind fun c =>
      if c != '/'.toUInt8 then segmentEnd path passes (i + 1) else some i
    else some i

def segmentsLoop (path : List UInt8) : Nat → Nat → Option Bool
  | 0, _ => some true
  | passes + 1, start =>
    if start < path.length then (segmentEnd path path.length start).bind fun stop =>
      if stop == start then some false
      else (andRead (stop - start == 1) (equalsAt path start '.'.toUInt8)).bind fun here =>
        if here then some false
        else (andRead (stop - start == 2) ((equalsAt path start '.'.toUInt8).bind fun first =>
            andRead first (equalsAt path (start + 1) '.'.toUInt8))).bind fun above =>
          if above then some false else segmentsLoop path passes (stop + 1)
    else some true

/-- `safe_path` with every read of its path. -/
def safePathReads (path : List UInt8) (storageOnly : Bool) : Option Bool :=
  (firstSegment path storageOnly).bind fun
    | .error result => some result
    | .ok first => (bytesLoop path path.length).bind fun bytes =>
      if !bytes then some false
      else (segmentsLoop path path.length first).bind fun segments =>
        if !segments then some false else path[path.length - 1]?.map (· != '/'.toUInt8)

variable {path : List UInt8}

theorem bytesLoop_eq {left : Nat} (inside : left ≤ path.length) :
    bytesLoop path left = some ((path.drop (path.length - left)).all safePathChar) := by
  induction left with
  | zero => rw [bytesLoop, Nat.sub_zero, List.drop_length, List.all_nil]
  | succ left ih =>
    have here : path.length - (left + 1) < path.length := by omega
    rw [bytesLoop, List.getElem?_eq_getElem here, Option.bind_some, List.drop_eq_getElem_cons here,
      List.all_cons, ih (by omega), show path.length - (left + 1) + 1 = path.length - left by omega]
    split_ifs with safe
    · rw [safe, Bool.true_and]
    · rw [Bool.not_eq_true] at safe
      rw [safe, Bool.false_and]

theorem segmentEnd_eq {passes i : Nat} (inside : i ≤ path.length)
    (enough : path.length ≤ i + passes) : segmentEnd path passes i =
      some (i + ((path.drop i).takeWhile (fun c => c != '/'.toUInt8)).length) := by
  induction passes generalizing i with
  | zero =>
    have past : path.length ≤ i := enough
    rw [segmentEnd, List.drop_eq_nil_of_le past]
    rfl
  | succ passes ih =>
    rw [segmentEnd]
    by_cases here : i < path.length
    · rw [if_pos here, List.getElem?_eq_getElem here, Option.bind_some,
        List.drop_eq_getElem_cons here, List.takeWhile_cons]
      split_ifs with other
      · rw [ih here (by omega), List.length_cons]
        congr 1
        rw [Nat.succ_eq_add_one]
        omega
      · rfl
    · rw [if_neg here, List.drop_eq_nil_of_le (Nat.le_of_not_lt here)]
      rfl

theorem equalsAt_eq {i : Nat} (c : UInt8) (inside : i < path.length) :
    equalsAt path i c = some (path.getD i 0 == c) := by
  rw [equalsAt, List.getElem?_eq_getElem inside, Option.map_some, List.getD_eq_getElem _ _ inside]

theorem memcmpZero_eq {text : List UInt8} (inside : text.length ≤ path.length) :
    memcmpZero path text = some (path.take text.length == text) := if_pos inside

theorem belowStorageReads_eq : belowStorageReads path = some (belowStorage path) := by
  rw [belowStorageReads, belowStorage, andRead]
  split_ifs with long
  · rw [decide_eq_true_eq] at long
    rw [memcmpZero_eq (Nat.le_of_lt long), Option.bind_some, andRead, equalsAt_eq _ long,
      decide_eq_true long, Bool.true_and]
    cases path.take storage.length == storage <;> rfl
  · rw [Bool.not_eq_true] at long
    rw [long, Bool.false_and, Bool.false_and]

theorem whole_reads : andRead (path.length == storage.length) (memcmpZero path storage) =
    some (path == storage) := by
  rw [andRead]
  split_ifs with same
  · rw [beq_iff_eq] at same
    rw [memcmpZero_eq (Nat.le_of_eq same.symm), ← same, List.take_length]
  · have other : path ≠ storage := fun equal => same (by rw [equal, beq_self_eq_true])
    rw [beq_eq_false_iff_ne.mpr other]

theorem dev_reads : andRead (decide (path.length ≥ 4))
    ((memcmpZero path (ascii "/dev")).bind fun same =>
      andRead same (if path.length == 4 then some true else equalsAt path 4 '/'.toUInt8)) =
    some (decide (path.length ≥ 4) && path.take 4 == ascii "/dev" &&
      (path.length == 4 || path.getD 4 0 == '/'.toUInt8)) := by
  rw [andRead]
  split_ifs with long exact
  · rw [decide_eq_true_eq] at long
    have room : (ascii "/dev").length ≤ path.length := long
    rw [memcmpZero_eq room, decide_eq_true long, exact, Bool.true_or]
    show andRead (path.take 4 == ascii "/dev") (some true) = _
    cases path.take 4 == ascii "/dev" <;> rfl
  · rw [decide_eq_true_eq] at long
    have longer : 4 < path.length := by
      rw [beq_iff_eq] at exact
      omega
    have room : (ascii "/dev").length ≤ path.length := long
    rw [Bool.not_eq_true] at exact
    rw [memcmpZero_eq room, decide_eq_true long, equalsAt_eq _ longer, exact, Bool.false_or]
    show andRead (path.take 4 == ascii "/dev") _ = _
    cases path.take 4 == ascii "/dev" <;> rfl
  · rw [Bool.not_eq_true] at long
    rw [long, Bool.false_and, Bool.false_and]

section Dots

variable {start : Nat} {segment tail : List UInt8}

theorem equalsAt_segment {k : Nat} (c : UInt8) (parts : path.drop start = segment ++ tail)
    (inside : k < segment.length) : equalsAt path (start + k) c = equalsAt segment k c := by
  rw [equalsAt, equalsAt, ← List.getElem?_drop, parts, List.getElem?_append_left inside]

theorem dot_reads (parts : path.drop start = segment ++ tail) :
    andRead (start + segment.length - start == 1) (equalsAt path start '.'.toUInt8) =
      some (segment == ascii ".") := by
  have dot : ascii "." = ['.'.toUInt8] := rfl
  rw [Nat.add_sub_cancel_left, andRead, dot]
  rcases segment with _ | ⟨a, _ | ⟨b, rest⟩⟩
  · rfl
  · have here := equalsAt_segment (k := 0) '.'.toUInt8 parts Nat.one_pos
    rw [Nat.add_zero] at here
    rw [here]
    simp [equalsAt]
  · simp

theorem dots_reads (parts : path.drop start = segment ++ tail) :
    andRead (start + segment.length - start == 2)
      ((equalsAt path start '.'.toUInt8).bind fun first =>
        andRead first (equalsAt path (start + 1) '.'.toUInt8)) = some (segment == ascii "..") := by
  have dots : ascii ".." = ['.'.toUInt8, '.'.toUInt8] := rfl
  rw [Nat.add_sub_cancel_left, andRead, dots]
  rcases segment with _ | ⟨a, _ | ⟨b, _ | ⟨c, rest⟩⟩⟩
  · rfl
  · simp
  · have here := equalsAt_segment (k := 0) '.'.toUInt8 parts Nat.two_pos
    have next := equalsAt_segment (k := 1) '.'.toUInt8 parts Nat.one_lt_two
    rw [Nat.add_zero] at here
    rw [here, next]
    by_cases first : a = '.'.toUInt8 <;> simp [andRead, equalsAt, first]
  · simp

end Dots

theorem segmentsLoop_eq (passes start : Nat) :
    segmentsLoop path passes start = some (segmentsSafe passes (path.drop start)) := by
  induction passes generalizing start with
  | zero => rfl
  | succ passes ih =>
    rw [segmentsLoop, segmentsSafe]
    by_cases here : start < path.length
    · have more : path.drop start ≠ [] := by
        rw [Ne, List.drop_eq_nil_iff]
        omega
      rw [if_pos here, segmentEnd_eq (Nat.le_of_lt here) (Nat.le_add_left _ _), Option.bind_some,
        if_neg more]
      have parts := (List.takeWhile_append_dropWhile
        (p := fun c : UInt8 => c != '/'.toUInt8) (l := path.drop start)).symm
      simp only []
      generalize List.takeWhile (fun c : UInt8 => c != '/'.toUInt8) (path.drop start) = segment
        at parts ⊢
      rw [dot_reads parts, dots_reads parts, Option.bind_some, Option.bind_some, ih, List.drop_drop,
        show start + segment.length + 1 = start + (segment.length + 1) from rfl]
      have empty : (start + segment.length == start) = (segment == []) := by
        cases segment <;> simp
      rw [empty]
      cases segment == []
      · cases segment == ascii "."
        · cases segment == ascii ".." <;> rfl
        · rfl
      · rfl
    · rw [if_neg here, if_pos (List.drop_eq_nil_of_le (Nat.le_of_not_lt here))]

theorem firstSegment_long {first : Nat} {storageOnly : Bool}
    (found : firstSegment path storageOnly = some (.ok first)) : 0 < path.length := by
  rcases path with _ | ⟨c, rest⟩
  · cases storageOnly <;> cases found
  · exact Nat.succ_pos _

theorem firstSegment_storageOnly : firstSegment path true =
    some (if belowStorage path then .ok (storage.length + 1) else .error false) := by
  rw [firstSegment, if_pos rfl, belowStorageReads_eq, Option.map_some]

theorem firstSegment_any : firstSegment path false = some (
    if path == storage then .error true
    else if belowStorage path then .ok (storage.length + 1)
    else if decide (path.length ≥ 4) && path.take 4 == ascii "/dev" &&
      (path.length == 4 || path.getD 4 0 == '/'.toUInt8) then
      .ok (if path.length = 4 then path.length else 5)
    else .error false) := by
  rw [firstSegment, if_neg Bool.false_ne_true, belowStorageReads_eq, whole_reads, dev_reads,
    Option.bind_some, Option.bind_some, Option.map_some]
  cases path == storage
  · cases belowStorage path <;> rfl
  · rfl

theorem checks_reads (first : Nat) (some_byte : 0 < path.length) :
    ((bytesLoop path path.length).bind fun bytes =>
      if !bytes then some false
      else (segmentsLoop path path.length first).bind fun segments =>
        if !segments then some false else path[path.length - 1]?.map (· != '/'.toUInt8)) =
      some (segmentsFrom first path) := by
  have last : path[path.length - 1]? = path.getLast? := List.getLast?_eq_getElem?.symm
  rw [bytesLoop_eq (Nat.le_refl _), Nat.sub_self, List.drop_zero, segmentsLoop_eq,
    Option.bind_some, Option.bind_some, last, segmentsFrom]
  rw [List.getLast?_eq_some_getLast (List.ne_nil_of_length_pos some_byte), Option.map_some]
  cases path.all safePathChar
  · rfl
  · cases segmentsSafe path.length (path.drop first)
    all_goals rfl

theorem safePathReads_eq (storageOnly : Bool) :
    safePathReads path storageOnly = some (safePath path storageOnly) := by
  have checked : ∀ first, firstSegment path storageOnly = some (.ok first) →
      safePathReads path storageOnly = some (segmentsFrom first path) := by
    intro first found
    rw [safePathReads, found, Option.bind_some]
    exact checks_reads first (firstSegment_long found)
  have returned : ∀ result, firstSegment path storageOnly = some (.error result) →
      safePathReads path storageOnly = some result := by
    intro result found
    rw [safePathReads, found, Option.bind_some]
  rw [safePath]
  cases storageOnly with
  | true =>
    rw [firstSegment_storageOnly] at checked returned
    cases below : belowStorage path
    · rw [below] at returned
      exact returned false rfl
    · rw [below] at checked
      exact checked _ rfl
  | false =>
    rw [firstSegment_any] at checked returned
    rw [if_neg Bool.false_ne_true]
    split_ifs at checked returned ⊢
    · exact returned true rfl
    · exact checked _ rfl
    · exact checked _ rfl
    · exact checked _ rfl
    · exact returned false rfl

/-- `safe_path` reads no byte outside its path, and accepts what the grammar derives. -/
theorem safe_path_exact (storageOnly : Bool) :
    (safePathReads path storageOnly = some true ↔ PlainPath storageOnly path) ∧
      safePathReads path storageOnly ≠ none := by
  rw [safePathReads_eq]
  constructor
  · rw [Option.some_inj]
    exact safePath_iff
  · exact Option.some_ne_none _

end Reads

end Webos.Adb.Shell
