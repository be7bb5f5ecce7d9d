/- digest: The paths and modes a sync request may name, and the staging names next to them. -/

import Mathlib.Algebra.Group.Nat.Defs
import Mathlib.Data.List.Infix
import Webos.Adb.Config

namespace Webos.Adb.Sync

/-- A C string, without its terminator. -/
abbrev Path := List UInt8

def SYNC_ROOT : Path := ascii "/STORAGE:/"
def SYNC_SIDE_SUFFIX_LEN : Nat := 20

def partMark : Path := ascii ".adb-part-"
def oldMark : Path := ascii ".adb-old-"

/-- A name that `choose_side_paths` could have made: it contains one of the two marks. -/
def staging (path : Path) : Prop := partMark <:+: path ∨ oldMark <:+: path

instance (path : Path) : Decidable (staging path) := inferInstanceAs (Decidable (_ ∨ _))

/-- The loop over the characters after the root. `closed` also refuses a final slash; `start` is
the source's test for the first character of a component. -/
def componentsAllowed (closed : Bool) : Bool → Path → Bool
  | _, [] => true
  | start, c :: rest =>
    if c < 0x20 || c == '\\'.toUInt8 || c == ':'.toUInt8 ||
        (c == '/'.toUInt8 && (rest.head? == some '/'.toUInt8 || (closed && rest.isEmpty)))
          then false
    else if start && (c :: rest == ascii "." || (ascii "./").isPrefixOf (c :: rest) ||
        c :: rest == ascii ".." || (ascii "../").isPrefixOf (c :: rest)) then false
    else componentsAllowed closed (c == '/'.toUInt8) rest

def syncPathAllowed (cfg : Config) (path : Path) : Bool :=
  if path.length ≤ SYNC_ROOT.length || path.length ≥ cfg.syncPathMax ||
      !SYNC_ROOT.isPrefixOf path || path.getLast? == some '/'.toUInt8 ||
      decide (partMark <:+: path) || decide (oldMark <:+: path) then false
  else componentsAllowed true true (path.drop SYNC_ROOT.length)

def syncStatPathAllowed (cfg : Config) (path : Path) : Bool :=
  if path.length < SYNC_ROOT.length || path.length ≥ cfg.syncPathMax ||
      !SYNC_ROOT.isPrefixOf path then false
  else componentsAllowed false true (path.drop SYNC_ROOT.length)

section Names

def hex8 (token : UInt32) : List UInt8 :=
  (List.range 8).map fun k =>
    let digit := token.toNat / 16 ^ (7 - k) % 16
    UInt8.ofNat (if digit < 10 then 48 + digit else 87 + digit)

@[simp] theorem length_hex8 (token : UInt32) : (hex8 token).length = 8 := by
  simp [hex8]

def partName (path : Path) (token : UInt32) : Path := path ++ partMark ++ hex8 token
def oldName (path : Path) (token : UInt32) : Path := path ++ oldMark ++ hex8 token

theorem partName_staging (path : Path) (token : UInt32) : staging (partName path token) :=
  Or.inl ⟨path, hex8 token, rfl⟩

theorem oldName_staging (path : Path) (token : UInt32) : staging (oldName path token) :=
  Or.inr ⟨path, hex8 token, rfl⟩

theorem partName_ne_oldName (p q : Path) (a b : UInt32) : partName p a ≠ oldName q b := by
  intro same
  have marks : p ++ partMark = q ++ oldMark :=
    (List.append_inj' same (by simp)).1
  have tails : (p ++ ascii ".adb-par") ++ ascii "t-" = (q ++ ascii ".adb-ol") ++ ascii "d-" := by
    rw [List.append_assoc, List.append_assoc]
    exact marks
  have last := (List.append_inj' tails rfl).2
  exact absurd last (by decide)

def lower (b : UInt8) : UInt8 := if 65 ≤ b ∧ b ≤ 90 then b + 32 else b

/-- A path for a volume that does not tell upper case from lower case. -/
def foldCase (path : Path) : Path := path.map lower

theorem foldCase_hex8 (token : UInt32) : foldCase (hex8 token) = hex8 token := by
  have digits : ∀ d < 16, lower (UInt8.ofNat (if d < 10 then 48 + d else 87 + d)) =
      UInt8.ofNat (if d < 10 then 48 + d else 87 + d) := by decide
  unfold foldCase hex8
  rw [List.map_map]
  exact List.map_congr_left fun k _ => digits _ (Nat.mod_lt _ (by decide))

theorem hex8_inj {a b : UInt32} (same : hex8 a = hex8 b) : a = b := by
  have digits : ∀ d < 16, ∀ e < 16, UInt8.ofNat (if d < 10 then 48 + d else 87 + d) =
      UInt8.ofNat (if e < 10 then 48 + e else 87 + e) → d = e := by decide
  have equal (k : Nat) (below : k < 8) :
      a.toNat / 16 ^ (7 - k) % 16 = b.toNat / 16 ^ (7 - k) % 16 :=
    digits _ (Nat.mod_lt _ (by decide)) _ (Nat.mod_lt _ (by decide))
      (List.map_inj_left.mp same k (List.mem_range.mpr below))
  have bound := a.toNat_lt
  have bound' := b.toNat_lt
  have e0 := equal 0 (by decide)
  have e1 := equal 1 (by decide)
  have e2 := equal 2 (by decide)
  have e3 := equal 3 (by decide)
  have e4 := equal 4 (by decide)
  have e5 := equal 5 (by decide)
  have e6 := equal 6 (by decide)
  have e7 := equal 7 (by decide)
  apply UInt32.toNat_inj.mp
  simp only [Nat.reduceSub, Nat.reducePow] at *
  omega

theorem partName_inj {p q : Path} {a b : UInt32} (same : partName p a = partName q b) :
    p = q ∧ a = b := by
  obtain ⟨front, token⟩ := List.append_inj' same (by simp)
  exact ⟨List.append_cancel_right front, hex8_inj token⟩

theorem partName_length {cfg : Config} {path : Path} (short : path.length < cfg.syncPathMax)
    (token : UInt32) : (partName path token).length < cfg.syncPathMax + SYNC_SIDE_SUFFIX_LEN := by
  have mark : partMark.length = 10 := rfl
  simp only [partName, List.length_append, length_hex8, mark, SYNC_SIDE_SUFFIX_LEN]
  omega

theorem oldName_length {cfg : Config} {path : Path} (short : path.length < cfg.syncPathMax)
    (token : UInt32) : (oldName path token).length < cfg.syncPathMax + SYNC_SIDE_SUFFIX_LEN := by
  have mark : oldMark.length = 9 := rfl
  simp only [oldName, List.length_append, length_hex8, mark, SYNC_SIDE_SUFFIX_LEN]
  omega

end Names

theorem allowed_short {cfg : Config} {path : Path} (allowed : syncPathAllowed cfg path = true) :
    path.length < cfg.syncPathMax := by
  unfold syncPathAllowed at allowed
  split_ifs at allowed with refused
  simp only [Bool.or_eq_true, decide_eq_true_eq, not_or] at refused
  omega

theorem allowed_visible {cfg : Config} {path : Path} (allowed : syncPathAllowed cfg path = true) :
    ¬staging path := by
  unfold syncPathAllowed at allowed
  split_ifs at allowed with refused
  simp only [Bool.or_eq_true, decide_eq_true_eq, not_or] at refused
  rintro (part | old)
  · exact refused.1.2 part
  · exact refused.2 old

def splitSpec (spec : List UInt8) : Option (Path × List UInt8) :=
  let mode := (spec.reverse.takeWhile (fun c => c != ','.toUInt8)).reverse
  if mode.length = spec.length then none
  else some (spec.take (spec.length - mode.length - 1), mode)

theorem splitSpec_comma (path mode : List UInt8) (plain : ','.toUInt8 ∉ mode) :
    splitSpec (path ++ ','.toUInt8 :: mode) = some (path, mode) := by
  have whole : ∀ c ∈ mode.reverse, (c != ','.toUInt8) = true := by
    intro c member
    simp only [bne_iff_ne, ne_eq]
    rintro rfl
    exact plain (List.mem_reverse.mp member)
  have tail : ((path ++ ','.toUInt8 :: mode).reverse.takeWhile (fun c => c != ','.toUInt8)) =
      mode.reverse := by
    rw [List.reverse_append, List.reverse_cons, List.append_assoc,
      List.takeWhile_append_of_pos whole]
    simp
  simp only [splitSpec, tail, List.reverse_reverse, List.length_append, List.length_cons]
  rw [if_neg (by omega), show path.length + (mode.length + 1) - mode.length - 1 =
    path.length by omega,
    List.take_left' rfl]

section Mode

def isSpace (c : UInt8) : Bool := c == 0x20 || (0x09 ≤ c && c ≤ 0x0d)

def digitValue (c : UInt8) : Nat :=
  if 48 ≤ c && c ≤ 57 then c.toNat - 48
  else if 97 ≤ c && c ≤ 122 then c.toNat - 87
  else if 65 ≤ c && c ≤ 90 then c.toNat - 55
  else 36

def splitSign : List UInt8 → Bool × List UInt8
  | 0x2d :: rest => (true, rest)
  | 0x2b :: rest => (false, rest)
  | text => (false, text)

def splitBase : List UInt8 → Nat × List UInt8
  | 0x30 :: x :: y :: rest =>
    if (x == 0x78 || x == 0x58) && decide (digitValue y < 16) then (16, y :: rest)
    else (8, 0x30 :: x :: y :: rest)
  | 0x30 :: rest => (8, 0x30 :: rest)
  | text => (10, text)

/-- `strtoul(text, &end, 0)` with a 32-bit `unsigned long`: the value, whether `errno` was set and
the text at `end`. -/
def strtoul (text : List UInt8) : UInt32 × Bool × List UInt8 :=
  let (negative, unsigned) := splitSign (text.dropWhile isSpace)
  let (base, digits) := splitBase unsigned
  let run := digits.takeWhile (fun c => decide (digitValue c < base))
  let value := run.foldl (fun n c => n * base + digitValue c) 0
  if run = [] then (0, false, text)
  else if value ≥ 2 ^ 32 then (UInt32.ofNat (2 ^ 32 - 1), true, digits.drop run.length)
  else (if negative then -UInt32.ofNat value else UInt32.ofNat value, false, digits.drop run.length)

def S_IFMT : UInt32 := 0o170000
def S_IFREG : UInt32 := 0o100000

def modeParsed (text : List UInt8) : Bool :=
  let (_, errno, rest) := strtoul text
  !errno && rest.isEmpty

def modeRegular (text : List UInt8) : Bool :=
  (strtoul text).1 &&& S_IFMT == 0 || (strtoul text).1 &&& S_IFMT == S_IFREG

/-- `adb push` sends the mode in decimal. -/
example : modeParsed (ascii "33188") && modeRegular (ascii "33188") = true := by decide

end Mode

end Webos.Adb.Sync
