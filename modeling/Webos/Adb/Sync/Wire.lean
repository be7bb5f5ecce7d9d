/- digest: The requests a host sends on a sync stream, byte by byte, and their answers. -/

import Webos.Adb.Sync.Service

namespace Webos.Adb.Sync

open Webos.Lib.Bytes

def recordHeader (id value : UInt32) : List UInt8 := putLe32 id ++ putLe32 value

@[simp] theorem length_recordHeader (id value : UInt32) : (recordHeader id value).length = 8 := rfl

@[simp] theorem recordHeader_id (id value : UInt32) : getLe32 (recordHeader id value) = id :=
  getLe32_putLe32 id (putLe32 value)

@[simp] theorem recordHeader_value (id value : UInt32) :
    getLe32 ((recordHeader id value).drop 4) = value := by
  have tail : (recordHeader id value).drop 4 = putLe32 value ++ [] := rfl
  rw [tail, getLe32_putLe32]

/-- How the records of a SEND end: with DONE, or with a header that is no record. -/
inductive Finale where
  | done (timestamp : UInt32)
  | broken (id value : UInt32)
  deriving DecidableEq, Repr

def Finale.wire : Finale → List UInt8
  | .done timestamp => recordHeader SYNC_ID_DONE timestamp
  | .broken id value => recordHeader id value

/-- A SEND: the text after its header, the payloads of its DATA records and what ends them. -/
structure Send where
  spec : List UInt8
  records : List (List UInt8)
  finale : Finale
  deriving DecidableEq, Repr

def Send.contents (s : Send) : List UInt8 := s.records.flatten

inductive Request where
  | stat (path : List UInt8)
  | send (s : Send)
  deriving DecidableEq, Repr

def recordsWire : List (List UInt8) → Finale → List UInt8
  | [], finale => finale.wire
  | data :: records, finale =>
    recordHeader SYNC_ID_DATA (UInt32.ofNat data.length) ++ (data ++ recordsWire records finale)

def Request.text : Request → List UInt8
  | .stat path => path
  | .send s => s.spec

def Request.id : Request → UInt32
  | .stat _ => SYNC_ID_STAT
  | .send _ => SYNC_ID_SEND

def Request.head (q : Request) : List UInt8 := recordHeader q.id (UInt32.ofNat q.text.length)

def Request.tail : Request → List UInt8
  | .stat _ => []
  | .send s => recordsWire s.records s.finale

def Request.wire (q : Request) : List UInt8 := q.head ++ (q.text ++ q.tail)

def wires (requests : List Request) : List UInt8 := (requests.map Request.wire).flatten

@[simp] theorem wires_nil : wires [] = [] := rfl

@[simp] theorem wires_cons (q : Request) (rest : List Request) :
    wires (q :: rest) = q.wire ++ wires rest := rfl

def boundedText (cfg : Config) (text : List UInt8) : Prop :=
  text ≠ [] ∧ text.length < specCapacity cfg

instance (cfg : Config) (text : List UInt8) : Decidable (boundedText cfg text) :=
  inferInstanceAs (Decidable (_ ∧ _))

def Finale.Valid (cfg : Config) : Finale → Prop
  | .done _ => True
  | .broken id value => id ≠ SYNC_ID_DONE ∧ badRecord cfg id value

/-- What a host can say: a text, and for a SEND good DATA records up to what ends them. -/
def Request.Formed (cfg : Config) (q : Request) : Prop :=
  q.text.length < 2 ^ 32 ∧
    match q with
    | .stat _ => True
    | .send s => (∀ data ∈ s.records, data.length ≤ cfg.syncDataMax) ∧ s.finale.Valid cfg

/-- A request in the format: its text is bounded and a SEND ends with DONE. -/
def Request.WellFormed (cfg : Config) (q : Request) : Prop :=
  q.Formed cfg ∧ boundedText cfg q.text ∧
    match q with
    | .stat _ => True
    | .send s => ∃ timestamp, s.finale = .done timestamp

@[simp] theorem length_finale (finale : Finale) : finale.wire.length = 8 := by
  cases finale <;> rfl

theorem length_wire (q : Request) : q.wire.length = 8 + (q.text.length + q.tail.length) := by
  simp [Request.wire, Request.head, length_recordHeader]

def Answers (q : Request) (response : List UInt8) : Prop :=
  match q with
  | .stat _ => ∃ entry, response = statRecord entry
  | .send _ => response = statusRecord SYNC_ID_OKAY [] ∨
      ∃ reason, response = statusRecord SYNC_ID_FAIL reason

section Sizes

theorem syncDataMax_lt (cfg : Config) : cfg.syncDataMax < 2 ^ 32 := by
  have range := cfg.syncDataMax_range
  omega

theorem specCapacity_lt (cfg : Config) : specCapacity cfg < 2 ^ 32 := by
  have range := cfg.syncPathMax_range
  unfold specCapacity
  omega

theorem toNat_ofNat_length {n bound : Nat} (small : bound < 2 ^ 32) (le : n ≤ bound) :
    (UInt32.ofNat n).toNat = n := by
  exact Nat.mod_eq_of_lt (by omega)

end Sizes

end Webos.Adb.Sync
