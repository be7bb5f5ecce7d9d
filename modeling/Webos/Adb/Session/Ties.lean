/- digest: The WRTEs, OKAYs and CLSEs that leave are one for one the events of their streams. -/

import Webos.Adb.Session.Runs

namespace Webos.Adb

open Webos.Lib.Monitor

variable {cfg : Config} {t u : Session cfg} {s : Slot cfg} {e : Event cfg} {p : Packet}
variable {log pre post : List (Event cfg)}

/-- A stream with these ids was opened in the slot and has not been released since. -/
def Lives (log : List (Event cfg)) (s : Slot cfg) (localId remoteId : UInt32) : Prop :=
  ∃ pre mid, log = pre ++ .allocated s localId remoteId :: mid ∧ .released s ∉ mid

theorem Lives.later {localId remoteId : UInt32} (lives : Lives log s localId remoteId)
    (kept : e ≠ .released s) : Lives (log ++ [e]) s localId remoteId := by
  obtain ⟨pre, mid, rfl, alive⟩ := lives
  refine ⟨pre, mid ++ [e], by simp, fun member => ?_⟩
  rcases List.mem_append.mp member with old | new
  · exact alive old
  · exact kept (List.mem_singleton.mp new).symm

private theorem step_lives (lives : ∀ s line, t.lines s = some line →
    Lives log s line.localId line.remoteId) (allowed : t.step e = some u) {line : Line}
    (here : u.lines s = some line) : Lives (log ++ [e]) s line.localId line.remoteId := by
  by_cases gone : e = .released s
  · subst gone
    cases (released_line allowed).symm.trans here
  · cases before : t.lines s with
    | some line₀ =>
      obtain ⟨line₁, next, moves⟩ := step_line allowed before gone
      obtain rfl : line₁ = line := Option.some.inj (next.symm.trans here)
      rw [moves.localId, moves.remoteId]
      exact (lives s line₀ before).later gone
    | none =>
      by_cases opened : ∃ localId remoteId, e = .allocated s localId remoteId
      · obtain ⟨localId, remoteId, rfl⟩ := opened
        cases (opened_line allowed).1.symm.trans here
        exact ⟨log, [], rfl, List.not_mem_nil⟩
      · have absent := step_absent allowed before fun l r same => opened ⟨l, r, same⟩
        cases absent.symm.trans here

theorem lines_live (run : Recorded log t) {line : Line}
    (here : t.lines s = some line) : Lives log s line.localId line.remoteId :=
  accepts_invariant
    (fun log t => ∀ s line, t.lines s = some line → Lives log s line.localId line.remoteId)
    (fun _ _ absent => (by cases absent)) (fun _ _ _ _ lives allowed _ _ =>
    step_lives lives allowed)
    run s line here

private theorem step_spare {id : UInt32} (allowed : t.step e = some u) (spare : u.spare = some id) :
    e = .drawn id ∨ t.spare = some id ∧ ∀ s l r, e ≠ .allocated s l r := by
  rw [(step_owed allowed).2] at spare
  unfold Session.spares at spare
  split at spare
  · cases spare
    exact Or.inl rfl
  · cases spare
  · cases spare
  · cases spare
  · rename_i plain _
    exact Or.inr ⟨spare, fun s l r same => plain s l r same⟩

theorem spare_drawn {id : UInt32} (run : Recorded log t)
    (spare : t.spare = some id) :
    ∃ pre post, log = pre ++ .drawn id :: post ∧ ∀ s l r, .allocated s l r ∉ post := by
  refine accepts_invariant (fun log t => t.spare = some id →
    ∃ pre post, log = pre ++ .drawn id :: post ∧ ∀ s l r, .allocated s l r ∉ post)
    (fun none => (by cases none)) (fun log t e u drawn allowed spare => ?_) run spare
  rcases step_spare allowed spare with rfl | ⟨before, other⟩
  · exact ⟨log, [], rfl, fun _ _ _ => List.not_mem_nil⟩
  · obtain ⟨pre, post, rfl, none⟩ := drawn before
    refine ⟨pre, post ++ [e], by simp, fun s l r member => ?_⟩
    rcases List.mem_append.mp member with old | new
    · exact none s l r old
    · exact other s l r (List.mem_singleton.mp new).symm

section Naming

variable {owed : Owed}

def Owed.name (owed : Owed) (s : Slot cfg) : Event cfg :=
  if owed.packet.command = ADB_COMMAND_WRTE then .wrte s owed.packet.payload owed.answer
  else if owed.packet.command = ADB_COMMAND_OKAY then .okay s
  else .clse s

/-- The event behind a packet that is no longer excused names a stream with the packet's ids. -/
theorem step_named (due : t.due = some owed) (unexcused : owed.excused = false)
    (allowed : t.step e = some u) : ∃ s line, t.lines s = some line ∧
      line.localId = owed.packet.arg0 ∧ line.remoteId = owed.packet.arg1 ∧ e = owed.name s := by
  have open' : ¬Owed.cleared t.due = true := by
    rw [due, Owed.cleared, Option.all_some, unexcused]
    exact Bool.false_ne_true
  have pays : e.pays = true := (act_of_step allowed).1.resolve_right open'
  cases e with
  | wrte s data answer =>
    obtain ⟨-, line, -, here, -, -, -, -, -, -, named⟩ := transmit_cases allowed
    have own := named.resolve_right fun refused => open' refused.2
    obtain rfl := Option.some.inj (due.symm.trans own)
    exact ⟨s, line, here, rfl, rfl, by simp [Owed.name]⟩
  | okay s =>
    obtain ⟨line, owed', here, -, due', packet⟩ := announce_cases allowed
    obtain rfl : owed = owed' := Option.some.inj (due.symm.trans due')
    refine ⟨s, line, here, by rw [packet], by rw [packet], ?_⟩
    simp [Owed.name, packet, ADB_COMMAND_OKAY, ADB_COMMAND_WRTE]
  | clse s =>
    obtain ⟨line, -, here, -, -, -, -, -, owed', due', packet⟩ := finish_cases allowed
    obtain rfl : owed = owed' := Option.some.inj (due.symm.trans due')
    refine ⟨s, line, here, by rw [packet], by rw [packet], ?_⟩
    simp [Owed.name, packet, ADB_COMMAND_CLSE, ADB_COMMAND_WRTE, ADB_COMMAND_OKAY]
  | _ => cases pays

private theorem run_named (run : Recorded (pre ++ e :: post) u)
    (paid : Owed.cleared u.due = true) : ∃ v, Recorded pre v ∧
      ∀ owed, v.owes e = some owed → owed.excused = false →
        ∃ s rest, post = owed.name s :: rest ∧
          Lives (pre ++ [e]) s owed.packet.arg0 owed.packet.arg1 := by
  obtain ⟨v, v', before, allowed, rest⟩ := accepts_middle run
  refine ⟨v, before, fun owed owes unexcused => ?_⟩
  have due : v'.due = some owed := (step_owed allowed).1.trans owes
  cases post with
  | nil =>
    cases rest
    rw [due, Owed.cleared, Option.all_some, unexcused] at paid
    cases paid
  | cons e' post =>
    obtain ⟨v'', next, -⟩ := accepts_cons rest
    obtain ⟨s, line, here, localId, remoteId, rfl⟩ := step_named due unexcused next
    rw [← localId, ← remoteId]
    exact ⟨s, post, rfl, lines_live (accepts_append before (accepts_one allowed)) here⟩

private theorem Lives.earlier {localId remoteId : UInt32}
    (lives : Lives (log ++ [e]) s localId remoteId)
    (other : ∀ l r, e ≠ .allocated s l r) : Lives log s localId remoteId := by
  obtain ⟨pre, mid, same, alive⟩ := lives
  rcases List.eq_nil_or_concat mid with rfl | ⟨mid, last, rfl⟩
  · exact absurd (List.append_inj_right' same rfl) fun eq => other _ _ (List.singleton_inj.mp eq)
  · rw [List.concat_eq_append, ← List.cons_append, ← List.append_assoc] at same
    refine ⟨pre, mid, List.append_inj_left' same rfl, fun member => alive ?_⟩
    rw [List.concat_eq_append]
    exact List.mem_append_left _ member

/-- Each WRTE that is sent is the data of a stream with its ids, which the next event tells. -/
theorem data_named {answer : Int}
    (run : Recorded (pre ++ .send p answer :: post) u)
    (paid : Owed.cleared u.due = true) (data : p.command = ADB_COMMAND_WRTE) :
    ∃ s rest, post = .wrte s p.payload answer :: rest ∧ Lives pre s p.arg0 p.arg1 := by
  obtain ⟨v, -, named⟩ := run_named run paid
  obtain ⟨s, rest, split, lives⟩ := named ⟨p, answer, false⟩ (if_pos data) rfl
  exact ⟨s, rest, by rw [split, Owed.name, if_pos data],
    lives.earlier fun l r same => (by cases same)⟩

/-- Each OKAY that is accepted is a living stream's or has an id drawn for no stream. -/
theorem okay_named
    (run : Recorded (pre ++ .accepted p :: post) u)
    (paid : Owed.cleared u.due = true) (okay : p.command = ADB_COMMAND_OKAY) :
    (∃ s rest, post = .okay s :: rest ∧ Lives pre s p.arg0 p.arg1) ∨
      ∃ v, Recorded pre v ∧ v.spare = some p.arg0 := by
  have plain : p.command ≠ ADB_COMMAND_WRTE := by rw [okay]; decide
  obtain ⟨v, before, named⟩ := run_named run paid
  by_cases spare : v.spare = some p.arg0
  · exact Or.inr ⟨v, before, spare⟩
  · obtain ⟨s, rest, split, lives⟩ := named ⟨p, 0, v.spare == some p.arg0⟩ (if_pos okay)
      (beq_eq_false_iff_ne.mpr spare)
    exact Or.inl ⟨s, rest, by rw [split, Owed.name, if_neg plain, if_pos okay],
      lives.earlier fun l r same => (by cases same)⟩

/-- Each CLSE that is accepted is a living stream's or answers for no stream. -/
theorem close_named
    (run : Recorded (pre ++ .accepted p :: post) u)
    (paid : Owed.cleared u.due = true) (close : p.command = ADB_COMMAND_CLSE) :
    (∃ s rest, post = .clse s :: rest ∧ Lives pre s p.arg0 p.arg1) ∨ p.arg0 = 0 := by
  have plain : p.command ≠ ADB_COMMAND_WRTE ∧ p.command ≠ ADB_COMMAND_OKAY := by
    rw [close]; decide
  obtain ⟨v, -, named⟩ := run_named run paid
  by_cases zero : p.arg0 = 0
  · exact Or.inr zero
  · obtain ⟨s, rest, split, lives⟩ := named ⟨p, 0, p.arg0 == 0⟩
      ((if_neg plain.2).trans (if_pos close)) (beq_eq_false_iff_ne.mpr zero)
    exact Or.inl ⟨s, rest, by rw [split, Owed.name, if_neg plain.1, if_neg plain.2],
      lives.earlier fun l r same => (by cases same)⟩

end Naming

section Payment

private theorem run_due {owed : Owed} (run : Recorded log u) (due : u.due = some owed) :
    ∃ (before : List (Event cfg)) (e : Event cfg) (v : Session cfg),
      log = before ++ [e] ∧ v.owes e = some owed ∧ u.spare = v.spares e := by
  rcases List.eq_nil_or_concat log with rfl | ⟨before, e, rfl⟩
  · cases run
    cases due
  · rw [List.concat_eq_append] at run ⊢
    obtain ⟨v, v', -, allowed, done⟩ := accepts_middle run
    cases done
    obtain ⟨owes, spares⟩ := step_owed allowed
    exact ⟨before, e, v, rfl, owes.symm.trans due, spares⟩

private theorem owes_cases {owed : Owed} (owes : t.owes e = some owed) :
    owed.packet.command = ADB_COMMAND_WRTE ∧ e = .send owed.packet owed.answer ∨
      owed.packet.command ≠ ADB_COMMAND_WRTE ∧ e = .accepted owed.packet := by
  unfold Session.owes at owes
  split at owes
  · split_ifs at owes with data
    cases owes
    exact Or.inl ⟨data, rfl⟩
  · split_ifs at owes with okay close
    · cases owes
      exact Or.inr ⟨by rw [okay]; decide, rfl⟩
    · cases owes
      exact Or.inr ⟨by rw [close]; decide, rfl⟩
  · cases owes

private theorem due_accepted {owed : Owed} (run : Recorded log u) (due : u.due = some owed)
    (plain : owed.packet.command ≠ ADB_COMMAND_WRTE) :
    u.spare = none ∧ ∃ before, log = before ++ [.accepted owed.packet] := by
  obtain ⟨before, e, v, rfl, owes, spare⟩ := run_due run due
  rcases owes_cases owes with ⟨data, -⟩ | ⟨-, rfl⟩
  · exact absurd data plain
  · exact ⟨spare, before, rfl⟩

theorem data_sent {data : List UInt8} (run : Recorded log t)
    (allowed : t.step (.wrte s data 0) = some u) : ∃ line before, t.lines s = some line ∧
      log = before ++ [.send ⟨ADB_COMMAND_WRTE, line.localId, line.remoteId, data⟩ 0] := by
  obtain ⟨-, line, -, here, -, -, -, -, -, -, named⟩ := transmit_cases allowed
  obtain ⟨before, e, v, rfl, owes, -⟩ := run_due run (named.resolve_right fun no => no.1 rfl)
  rcases owes_cases owes with ⟨-, rfl⟩ | ⟨plain, -⟩
  · exact ⟨line, before, here, rfl⟩
  · exact absurd rfl plain

theorem close_accepted (run : Recorded log t) (allowed : t.step (.clse s) = some u) :
    t.spare = none ∧ ∃ line before, t.lines s = some line ∧
      log = before ++ [.accepted ⟨ADB_COMMAND_CLSE, line.localId, line.remoteId, []⟩] := by
  obtain ⟨line, -, here, -, -, -, -, -, owed, due, packet⟩ := finish_cases allowed
  have plain : ADB_COMMAND_CLSE ≠ ADB_COMMAND_WRTE := by decide
  obtain ⟨spare, before, rfl⟩ := due_accepted run due (by rw [packet]; exact plain)
  exact ⟨spare, line, before, here, by rw [packet]⟩

theorem run_spare {id : UInt32} (run : accepts Session.step t log = some u)
    (spare : u.spare = some id) : t.spare = some id ∨ .drawn id ∈ log := by
  induction log generalizing t with
  | nil =>
    cases run
    exact Or.inl spare
  | cons e log ih =>
    obtain ⟨v, allowed, rest⟩ := accepts_cons run
    rcases ih rest with here | later
    · rcases step_spare allowed here with rfl | ⟨start, -⟩
      · exact Or.inr List.mem_cons_self
      · exact Or.inl start
    · exact Or.inr (List.mem_cons_of_mem e later)

end Payment

end Webos.Adb
