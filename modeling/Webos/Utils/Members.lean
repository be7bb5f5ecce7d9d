/- digest: The search for a quoted key takes the first text between two quotes for it. -/

import Mathlib.Data.List.Basic
import Webos.Lib.Runs
import Webos.Utils.Escaping

namespace Webos.Utils

open Webos.Adb (EINVAL ENOENT ENOMEM ascii)
open Webos.Lib.CString
open Webos.Lib.Runs

def Blank (s : List UInt8) : Prop := ∀ c ∈ s, jsonSpace c = true

/-- Printable text that needs no escape. -/
def Plain (s : List UInt8) : Prop := ∀ c ∈ s, 32 ≤ c ∧ c ≤ 126 ∧ c ≠ quote ∧ c ≠ backslash

instance (s : List UInt8) : Decidable (Blank s) :=
  decidable_of_iff (s.all jsonSpace = true) (by simp [Blank])

instance (s : List UInt8) : Decidable (Plain s) :=
  decidable_of_iff (s.all (fun c => 32 ≤ c && c ≤ 126 && c != quote && c != backslash) = true)
    (by simp [Plain, and_assoc])

structure Member where
  lead : List UInt8
  key : List UInt8
  beforeColon : List UInt8
  afterColon : List UInt8
  value : List UInt8
  trail : List UInt8
  blank : Blank lead ∧ Blank beforeColon ∧ Blank afterColon ∧ Blank trail
  plain : Plain key ∧ Plain value

def Member.colon (m : Member) : List UInt8 := m.beforeColon ++ 58 :: m.afterColon

def Member.text (m : Member) : List UInt8 :=
  m.lead ++ quote :: m.key ++ quote :: m.colon ++ quote :: m.value ++ quote :: m.trail

/-- A flat object, whose members have different keys. -/
structure FlatObject where
  before : List UInt8
  inside : List UInt8
  members : List Member
  after : List UInt8
  blank : Blank before ∧ Blank inside ∧ Blank after
  distinct : (members.map Member.key).Nodup

def FlatObject.text (o : FlatObject) : List UInt8 :=
  o.before ++ 123 :: o.inside ++ List.intercalate [44] (o.members.map Member.text) ++ 125 :: o.after

/-- What stands between two quotes of the text that follow each other: keys, values, and the
punctuation between them. -/
def pieces : List Member → List (List UInt8)
  | [] => []
  | [m] => [m.key, m.colon, m.value]
  | m :: n :: rest => m.key :: m.colon :: m.value :: (m.trail ++ 44 :: n.lead) :: pieces (n :: rest)

def joined (last : List UInt8) : List (List UInt8) → List UInt8
  | [] => quote :: last
  | p :: ps => quote :: p ++ joined last ps

def Quoteless (s : List UInt8) : Prop := ∀ c ∈ s, c ≠ quote ∧ c ≠ backslash

variable {s : List UInt8}

theorem Quoteless.notMem (quoteless : Quoteless s) : quote ∉ s :=
  fun member => (quoteless quote member).1 rfl

theorem Quoteless.append {t : List UInt8} (left : Quoteless s) (right : Quoteless t) :
    Quoteless (s ++ t) := by
  intro c member
  rcases List.mem_append.mp member with first | second
  · exact left c first
  · exact right c second

theorem Quoteless.cons {c : UInt8} (other : c ≠ quote ∧ c ≠ backslash) (rest : Quoteless s) :
    Quoteless (c :: s) := by
  intro d member
  rcases List.mem_cons.mp member with rfl | later
  · exact other
  · exact rest d later

theorem Blank.quoteless (blank : Blank s) : Quoteless s := by
  intro c member
  have space := blank c member
  constructor
  all_goals
    rintro rfl
    revert space
    decide

theorem Plain.quoteless (plain : Plain s) : Quoteless s :=
  fun c member => (plain c member).2.2

theorem Member.colon_quoteless (m : Member) : Quoteless m.colon :=
  m.blank.2.1.quoteless.append (.cons (by decide) m.blank.2.2.1.quoteless)

theorem pieces_quoteless (ms : List Member) : ∀ p ∈ pieces ms, Quoteless p := by
  have own (m : Member) (p : List UInt8) (member : p ∈ [m.key, m.colon, m.value]) :
      Quoteless p := by
    simp only [List.mem_cons, List.not_mem_nil, or_false] at member
    rcases member with rfl | rfl | rfl
    · exact m.plain.1.quoteless
    · exact m.colon_quoteless
    · exact m.plain.2.quoteless
  fun_induction pieces ms with
  | case1 => simp
  | case2 m => exact own m
  | case3 m n rest ih =>
    intro p member
    have split : p ∈ [m.key, m.colon, m.value] ++
        (m.trail ++ 44 :: n.lead) :: pieces (n :: rest) := member
    rcases List.mem_append.mp split with here | there
    · exact own m p here
    · rcases List.mem_cons.mp there with rfl | later
      · exact m.blank.2.2.2.quoteless.append (.cons (by decide) n.blank.1.quoteless)
      · exact ih p later

def trailing : List Member → List UInt8
  | [] => []
  | [m] => m.trail
  | _ :: n :: rest => trailing (n :: rest)

theorem trailing_blank (ms : List Member) : Blank (trailing ms) := by
  fun_induction trailing ms with
  | case1 => simp [Blank]
  | case2 m => exact m.blank.2.2.2
  | case3 m n rest ih => exact ih

theorem intercalate_members (m : Member) (ms : List Member) (closing : List UInt8) :
    List.intercalate [44] ((m :: ms).map Member.text) ++ closing =
      m.lead ++ joined (trailing (m :: ms) ++ closing) (pieces (m :: ms)) := by
  induction ms generalizing m with
  | nil => simp [Member.text, pieces, joined, trailing]
  | cons n ms ih =>
    have rest := ih n
    rw [List.map_cons] at rest
    rw [List.map_cons, List.map_cons, List.intercalate_cons_cons, List.append_assoc,
      List.append_assoc, rest]
    simp [Member.text, pieces, joined, trailing]

section Search

variable {key last : List UInt8}

theorem joined_head (last : List UInt8) (ps : List (List UInt8)) :
    ∃ rest, joined last ps = quote :: rest := by
  cases ps with
  | nil => exact ⟨_, rfl⟩
  | cons p ps => exact ⟨_, rfl⟩

theorem quoted_prefix_iff {p rest : List UInt8} (left : quote ∉ key) (right : quote ∉ p) :
    (quote :: key ++ [quote]).isPrefixOf (quote :: p ++ quote :: rest) = true ↔ p = key := by
  rw [List.isPrefixOf_iff_prefix, List.cons_append, List.cons_append, List.prefix_cons_inj]
  constructor
  · rintro ⟨more, same⟩
    induction key generalizing p with
    | nil =>
      cases p with
      | nil => rfl
      | cons c p =>
        simp only [List.nil_append, List.cons_append, List.cons.injEq] at same
        exact absurd (List.mem_cons.mpr (Or.inl same.1)) right
    | cons d key ih =>
      rw [List.mem_cons, not_or] at left
      cases p with
      | nil =>
        simp only [List.nil_append, List.cons_append, List.cons.injEq] at same
        exact absurd same.1.symm left.1
      | cons c p =>
        rw [List.mem_cons, not_or] at right
        simp only [List.cons_append, List.cons.injEq] at same
        rw [same.1, ih left.2 right.2 same.2]
  · rintro rfl
    exact ⟨rest, by simp⟩

theorem strstr_joined_none {ps : List (List UInt8)} (plain : quote ∉ key) (ended : quote ∉ last)
    (others : ∀ p ∈ ps, quote ∉ p) (absent : key ∉ ps) :
    strstr (joined last ps) (quote :: key ++ [quote]) = none := by
  induction ps with
  | nil =>
    have skip := strstr_append ended [] (key ++ [quote])
    rw [List.append_nil] at skip
    have other : ¬ (quote :: key ++ [quote]).isPrefixOf (quote :: last) = true := by
      rw [List.isPrefixOf_iff_prefix, List.cons_append, List.prefix_cons_inj]
      intro front
      exact ended (front.subset (by simp))
    rw [joined, strstr_cons, if_neg other]
    exact skip
  | cons p ps ih =>
    simp only [List.mem_cons, not_or, forall_eq_or_imp] at absent others
    obtain ⟨rest, head⟩ := joined_head last ps
    have other : ¬ (quote :: key ++ [quote]).isPrefixOf (quote :: p ++ joined last ps) = true := by
      rw [head, quoted_prefix_iff plain others.1]
      exact fun same => absent.1 same.symm
    rw [joined, List.cons_append, strstr_cons, ← List.cons_append, if_neg other]
    exact (strstr_append others.1 _ (key ++ [quote])).trans (ih others.2 absent.2)

theorem strstr_joined_some {before after : List (List UInt8)} (plain : quote ∉ key)
    (others : ∀ p ∈ before, quote ∉ p) (first : key ∉ before) :
    strstr (joined last (before ++ key :: after)) (quote :: key ++ [quote]) =
      some (quote :: key ++ joined last after) := by
  induction before with
  | nil =>
    obtain ⟨rest, head⟩ := joined_head last after
    have here :
        (quote :: key ++ [quote]).isPrefixOf (quote :: key ++ joined last after) = true := by
      rw [head, quoted_prefix_iff plain plain]
    rw [List.nil_append, joined, List.cons_append, strstr_cons, ← List.cons_append, if_pos here]
  | cons p before ih =>
    simp only [List.mem_cons, not_or, forall_eq_or_imp] at first others
    obtain ⟨rest, head⟩ := joined_head last (before ++ key :: after)
    have other : ¬ (quote :: key ++ [quote]).isPrefixOf
        (quote :: p ++ joined last (before ++ key :: after)) = true := by
      rw [head, quoted_prefix_iff plain others.1]
      exact fun same => first.1 same.symm
    rw [List.cons_append, joined, List.cons_append, strstr_cons, ← List.cons_append, if_neg other]
    exact (strstr_append others.1 _ (key ++ [quote])).trans (ih others.2 first.2)

end Search

section Value

variable {outLen : Nat} {b rest : List UInt8}

def Colon (s : List UInt8) : Prop := ∃ u v, s = u ++ 58 :: v ∧ Blank u ∧ Blank v

/-- `json_get_string` behind the key that it has found. -/
def afterKey (outLen : Nat) (p : List UInt8) : Except Int (List UInt8) :=
  match p.dropWhile jsonSpace with
  | 58 :: p =>
    match p.dropWhile jsonSpace with
    | 34 :: p => jsonString outLen p []
    | _ => .error (-EINVAL)
  | _ => .error (-EINVAL)

theorem jsonGetString_eq {json key : List UInt8} (short : key.length ≤ 29) :
    jsonGetString json key outLen =
      match strstr json (quote :: key ++ [quote]) with
      | none => .error (-ENOENT)
      | some p => afterKey outLen (p.drop (key.length + 2)) := by
  have pattern : keyPattern key = some (quote :: key ++ [quote]) := by
    simp [keyPattern]
    omega
  have size : (quote :: key ++ [quote]).length = key.length + 2 := by simp
  rw [jsonGetString, pattern]
  dsimp only
  rw [size]
  rfl

theorem afterKey_colon (colon : Colon b) :
    afterKey outLen (b ++ quote :: rest) = jsonString outLen rest [] := by
  obtain ⟨u, v, rfl, before, after⟩ := colon
  have first :
      (u ++ 58 :: v ++ quote :: rest).dropWhile jsonSpace = 58 :: (v ++ quote :: rest) := by
    rw [List.append_assoc]
    exact dropWhile_run before (Stops.cons (by decide))
  have second : (v ++ quote :: rest).dropWhile jsonSpace = quote :: rest :=
    dropWhile_run after (Stops.cons (by decide))
  rw [afterKey, first]
  change (match (v ++ quote :: rest).dropWhile jsonSpace with
    | 34 :: p => jsonString outLen p []
    | _ => .error (-EINVAL)) = _
  rw [second]
  rfl

theorem exists_blank (s : List UInt8) : ∃ u v, s = u ++ v ∧ Blank u ∧ Stops jsonSpace v :=
  ⟨s.takeWhile jsonSpace, s.dropWhile jsonSpace, (List.takeWhile_append_dropWhile).symm,
    run_of_takeWhile, stops_dropWhile s⟩

theorem afterKey_other (quoteless : quote ∉ b) (other : ¬ Colon b)
    (ends : rest = [] ∨ ∃ more, rest = quote :: more) :
    afterKey outLen (b ++ rest) = .error (-EINVAL) := by
  have stops : Stops jsonSpace rest := by
    rcases ends with rfl | ⟨more, rfl⟩
    · exact Stops.nil
    · exact Stops.cons (by decide)
  obtain ⟨u, w, rfl, before, stopped⟩ := exists_blank b
  have first : (u ++ w ++ rest).dropWhile jsonSpace = w ++ rest := by
    rw [List.append_assoc]
    exact dropWhile_run before (stopped.append stops)
  rw [afterKey, first]
  cases w with
  | nil =>
    rcases ends with rfl | ⟨more, rfl⟩
    all_goals rfl
  | cons c w =>
    by_cases colon : c = 58
    · subst colon
      obtain ⟨v, x, rfl, after, stopped'⟩ := exists_blank w
      have second : (v ++ x ++ rest).dropWhile jsonSpace = x ++ rest := by
        rw [List.append_assoc]
        exact dropWhile_run after (stopped'.append stops)
      change (match (v ++ x ++ rest).dropWhile jsonSpace with
        | 34 :: p => jsonString outLen p []
        | _ => .error (-EINVAL)) = _
      rw [second]
      cases x with
      | nil =>
        refine absurd ⟨u, v, ?_, before, after⟩ other
        rw [List.append_nil]
      | cons d x =>
        have notQuote : d ≠ 34 := by
          rintro rfl
          exact quoteless (by simp [quote])
        split
        · rename_i same
          cases same
          exact absurd rfl notQuote
        · rfl
    · split
      · rename_i same
        cases same
        exact absurd rfl colon
      · rfl

theorem jsonString_ok {a out v : List UInt8} (quoteless : Quoteless a)
    (ok : jsonString outLen (a ++ quote :: rest) out = .ok v) : v = out ++ a := by
  induction a generalizing out with
  | nil =>
    rw [List.nil_append, jsonString_quote] at ok
    cases ok
    simp
  | cons c a ih =>
    have plain := quoteless c (by simp)
    by_cases room : out.length + 1 < outLen
    · rw [List.cons_append, jsonString_plain plain room] at ok
      rw [ih (fun d member => quoteless d (by simp [member])) ok]
      simp
    · rw [List.cons_append, jsonString.eq_def] at ok
      dsimp only at ok
      rw [if_neg plain.1, if_pos (by omega)] at ok
      cases ok

theorem jsonString_open {a out v : List UInt8} (quoteless : Quoteless a) :
    jsonString outLen a out ≠ .ok v := by
  induction a generalizing out with
  | nil =>
    intro no
    cases no
  | cons c a ih =>
    have plain := quoteless c (by simp)
    rw [jsonString.eq_def]
    dsimp only
    rw [if_neg plain.1, if_neg plain.2]
    split_ifs
    · intro no
      cases no
    · exact ih (fun d member => quoteless d (by simp [member]))

end Value

section Lookup

variable {o : FlatObject} {key v : List UInt8} {outLen : Nat}

/-- What follows the last quote. -/
def FlatObject.last (o : FlatObject) : List UInt8 := trailing o.members ++ 125 :: o.after

theorem FlatObject.last_quoteless (o : FlatObject) : Quoteless o.last :=
  (trailing_blank _).quoteless.append (.cons (by decide) o.blank.2.2.quoteless)

theorem FlatObject.last_other (o : FlatObject) : ¬ Colon o.last := by
  rintro ⟨u, w, same, before, after⟩
  have brace : (125 : UInt8) ∈ u ++ 58 :: w := by
    rw [← same]
    simp [FlatObject.last]
  rw [List.mem_append, List.mem_cons] at brace
  rcases brace with front | colon | back
  · exact absurd (before 125 front) (by decide)
  · exact absurd colon (by decide)
  · exact absurd (after 125 back) (by decide)

theorem FlatObject.text_eq (o : FlatObject) : (o.members = [] ∧ Quoteless o.text) ∨
    ∃ front, Quoteless front ∧ o.text = front ++ joined o.last (pieces o.members) := by
  cases shape : o.members with
  | nil =>
    refine Or.inl ⟨rfl, ?_⟩
    have text : o.text = o.before ++ 123 :: o.inside ++ 125 :: o.after := by
      simp [FlatObject.text, shape]
    rw [text]
    exact (o.blank.1.quoteless.append (.cons (by decide) o.blank.2.1.quoteless)).append
      (.cons (by decide) o.blank.2.2.quoteless)
  | cons m ms =>
    refine Or.inr ⟨o.before ++ 123 :: o.inside ++ m.lead, ?_, ?_⟩
    · exact (o.blank.1.quoteless.append (.cons (by decide) o.blank.2.1.quoteless)).append
        m.blank.1.quoteless
    · rw [FlatObject.text, shape, List.append_assoc, intercalate_members, ← List.append_assoc,
        FlatObject.last, shape]

theorem strstr_text_none (plain : Plain key) (absent : key ∉ pieces o.members) :
    strstr o.text (quote :: key ++ [quote]) = none := by
  rcases o.text_eq with ⟨-, quoteless⟩ | ⟨front, quoteless, text⟩
  · have skip := strstr_append quoteless.notMem [] (key ++ [quote])
    rw [List.append_nil] at skip
    exact skip
  · rw [text]
    exact (strstr_append quoteless.notMem _ _).trans (strstr_joined_none plain.quoteless.notMem
      o.last_quoteless.notMem (fun p member => (pieces_quoteless _ p member).notMem) absent)

variable {before after : List (List UInt8)}

theorem strstr_text_some (plain : Plain key) (split : pieces o.members = before ++ key :: after)
    (first : key ∉ before) :
    strstr o.text (quote :: key ++ [quote]) = some (quote :: key ++ joined o.last after) := by
  have others : ∀ p ∈ before, quote ∉ p := fun p member =>
    (pieces_quoteless o.members p (by rw [split]; exact List.mem_append_left _ member)).notMem
  rcases o.text_eq with ⟨empty, -⟩ | ⟨front, quoteless, text⟩
  · rw [empty] at split
    cases before with
    | nil => cases split
    | cons p before => cases split
  · rw [text, split]
    exact (strstr_append quoteless.notMem _ _).trans
      (strstr_joined_some plain.quoteless.notMem others first)

/-- The first piece that equals the key is followed by a colon and then by the value. -/
def Leads (ps : List (List UInt8)) (key v : List UInt8) : Prop :=
  ∃ before colon after, ps = before ++ key :: colon :: v :: after ∧ key ∉ before ∧ Colon colon

theorem exists_first {ps : List (List UInt8)} (present : key ∈ ps) :
    ∃ before after, ps = before ++ key :: after ∧ key ∉ before := by
  induction ps with
  | nil => cases present
  | cons p ps ih =>
    by_cases here : key = p
    · exact ⟨[], ps, by rw [here]; rfl, List.not_mem_nil⟩
    · obtain ⟨before, after, split, first⟩ := ih ((List.mem_cons.mp present).resolve_left here)
      exact ⟨p :: before, after, by rw [split]; rfl, by simp [here, first]⟩

theorem jsonGetString_absent (plain : Plain key) (short : key.length ≤ 29)
    (absent : key ∉ pieces o.members) : jsonGetString o.text key outLen = .error (-ENOENT) := by
  rw [jsonGetString_eq short, strstr_text_none plain absent]

theorem jsonGetString_present (plain : Plain key) (short : key.length ≤ 29)
    (split : pieces o.members = before ++ key :: after) (first : key ∉ before) :
    jsonGetString o.text key outLen = afterKey outLen (joined o.last after).tail := by
  obtain ⟨rest, head⟩ := joined_head o.last after
  have behind : (quote :: key ++ joined o.last after).drop (key.length + 2) =
      (joined o.last after).tail := by
    simp [List.drop_append]
  rw [jsonGetString_eq short, strstr_text_some plain split first]
  dsimp only
  rw [behind]

theorem jsonGetString_leads (plain : Plain key) (short : key.length ≤ 29)
    (leads : Leads (pieces o.members) key v) (room : v.length < outLen) :
    jsonGetString o.text key outLen = .ok v := by
  obtain ⟨before, colon, after, split, first, form⟩ := leads
  have quoteless : Quoteless v := pieces_quoteless o.members v (by rw [split]; simp)
  obtain ⟨rest, head⟩ := joined_head o.last after
  have tail :
      (joined o.last (colon :: v :: after)).tail = colon ++ quote :: (v ++ quote :: rest) := by
    simp [joined, head]
  rw [jsonGetString_present plain short split first, tail, afterKey_colon form,
    jsonString_run quoteless (by simpa using room), jsonString_quote, List.nil_append]

theorem leads_of_jsonGetString (plain : Plain key) (short : key.length ≤ 29)
    (present : key ∈ pieces o.members) (ok : jsonGetString o.text key outLen = .ok v) :
    Leads (pieces o.members) key v := by
  obtain ⟨before, after, split, first⟩ := exists_first present
  have quoteless : ∀ p ∈ after, Quoteless p := fun p member =>
    pieces_quoteless o.members p (by rw [split]; simp [member])
  rw [jsonGetString_present plain short split first] at ok
  cases after with
  | nil =>
    have no := @afterKey_other outLen o.last [] o.last_quoteless.notMem o.last_other (Or.inl rfl)
    rw [List.append_nil] at no
    cases no.symm.trans ok
  | cons colon after =>
    obtain ⟨rest, head⟩ := joined_head o.last after
    have tail : (joined o.last (colon :: after)).tail = colon ++ joined o.last after := rfl
    rw [tail] at ok
    by_cases form : Colon colon
    · cases after with
      | nil =>
        rw [joined, afterKey_colon form] at ok
        exact absurd ok (jsonString_open o.last_quoteless)
      | cons a after =>
        obtain ⟨rest, head⟩ := joined_head o.last after
        rw [joined, head, List.cons_append, afterKey_colon form] at ok
        have same := jsonString_ok (quoteless a (by simp)) ok
        subst same
        exact ⟨before, colon, after, split, first, form⟩
    · have no := @afterKey_other outLen colon _ (quoteless colon (by simp)).notMem form
        (Or.inr ⟨rest, head⟩)
      cases no.symm.trans ok

theorem mem_pieces_of_key {ms : List Member} {m : Member} (member : m ∈ ms) :
    m.key ∈ pieces ms := by
  fun_induction pieces ms with
  | case1 => cases member
  | case2 n =>
    rw [List.mem_singleton.mp member]
    simp
  | case3 n n' rest ih =>
    rcases List.mem_cons.mp member with rfl | later
    · simp
    · simp [ih later]

theorem jsonHasKey_iff (plain : Plain key) (short : key.length ≤ 29) :
    jsonHasKey o.text key = true ↔ key ∈ pieces o.members := by
  have pattern : keyPattern key = some (quote :: key ++ [quote]) := by
    simp [keyPattern]
    omega
  rw [jsonHasKey, pattern]
  dsimp only
  by_cases present : key ∈ pieces o.members
  · obtain ⟨before, after, split, first⟩ := exists_first present
    rw [strstr_text_some plain split first]
    exact iff_of_true rfl present
  · rw [strstr_text_none plain present]
    exact iff_of_false (by decide) present

/-- A lookup gives the member with the key, or says that there is none. -/
structure LooksUp (o : FlatObject) (key : List UInt8) (outLen : Nat) : Prop where
  value : ∀ m ∈ o.members, m.key = key → key.length ≤ 29 → m.value.length < outLen →
    jsonGetString o.text key outLen = .ok m.value
  missing : (∀ m ∈ o.members, m.key ≠ key) → jsonGetString o.text key outLen = .error (-ENOENT)
  has : jsonHasKey o.text key = true ↔ ∃ m ∈ o.members, m.key = key

/-- A lookup is right if and only if the key fits its buffer and is not mistaken: a key that is
absent equals nothing between two quotes, and the first piece that equals one that is present is
followed by a colon and its value. -/
theorem json_lookup_iff (o : FlatObject) {key : List UInt8} (plain : Plain key) (outLen : Nat) :
    LooksUp o key outLen ↔ key.length ≤ 29 ∧
      ((∀ m ∈ o.members, m.key ≠ key) → key ∉ pieces o.members) ∧
      ∀ m ∈ o.members, m.key = key → m.value.length < outLen →
        Leads (pieces o.members) key m.value := by
  constructor
  · intro looksUp
    have short : key.length ≤ 29 := by
      by_contra long
      have pattern : keyPattern key = none := by
        simp [keyPattern]
        omega
      have absent : ∀ m ∈ o.members, m.key ≠ key := by
        intro m member same
        have has := looksUp.has.mpr ⟨m, member, same⟩
        simp [jsonHasKey, pattern] at has
      have missing := looksUp.missing absent
      rw [jsonGetString, pattern] at missing
      cases missing
    refine ⟨short, fun absent present => ?_, fun m member same room => ?_⟩
    · obtain ⟨m, member, same⟩ := looksUp.has.mp ((jsonHasKey_iff plain short).mpr present)
      exact absent m member same
    · exact leads_of_jsonGetString plain short (same ▸ mem_pieces_of_key member)
        (looksUp.value m member same short room)
  · rintro ⟨short, absent, leads⟩
    refine ⟨fun m member same _ room => ?_, fun none => ?_, ?_⟩
    · exact jsonGetString_leads plain short (leads m member same room) room
    · exact jsonGetString_absent plain short (absent none)
    · rw [jsonHasKey_iff plain short]
      constructor
      · intro present
        by_contra none
        exact absent (fun m member same => none ⟨m, member, same⟩) present
      · rintro ⟨m, member, rfl⟩
        exact mem_pieces_of_key member

def denseMember (key value : List UInt8) (plain : Plain key ∧ Plain value) : Member where
  lead := []
  key := key
  beforeColon := []
  afterColon := []
  value := value
  trail := []
  blank := by simp [Blank]
  plain := plain

/-- The object `{"input":"...","cmd":"ls"}` that types a word before a command. -/
def typedObject (typed : List UInt8) (plain : Plain typed) : FlatObject where
  before := []
  inside := []
  members := [denseMember (ascii "input") typed ⟨by decide, plain⟩,
    denseMember (ascii "cmd") (ascii "ls") (by decide)]
  after := []
  blank := by simp [Blank]
  distinct := show [ascii "input", ascii "cmd"].Nodup from by decide

theorem json_lookup_command :
    LooksUp (typedObject (ascii "help") (by decide)) (ascii "cmd") 256 ∧
      jsonGetString (typedObject (ascii "help") (by decide)).text (ascii "cmd") 256 =
        .ok (ascii "ls") := by
  have looksUp : LooksUp (typedObject (ascii "help") (by decide)) (ascii "cmd") 256 := by
    refine (json_lookup_iff _ (by decide) 256).mpr ⟨by decide, ?_, ?_⟩
    · intro absent
      exact absurd rfl (absent _ (List.mem_cons_of_mem _ List.mem_cons_self))
    · intro m member same _
      simp only [typedObject, List.mem_cons, List.not_mem_nil, or_false] at member
      rcases member with rfl | rfl
      · exact absurd same (by decide)
      · exact ⟨[ascii "input", [58], ascii "help", [44]], [58], [], rfl, by decide, [], [], rfl,
          by decide, by decide⟩
  exact ⟨looksUp, looksUp.value _ (List.mem_cons_of_mem _ List.mem_cons_self) rfl
    (by decide) (by decide)⟩

/-- A value that equals the key of a later member hides it. -/
theorem json_lookup_hidden :
    jsonGetString (typedObject (ascii "cmd") (by decide)).text (ascii "cmd") 256 =
      .error (-EINVAL) := by
  decide

end Lookup

end Webos.Utils
