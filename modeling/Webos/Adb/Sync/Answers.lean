/- digest: Every request is answered once and in order as long as no response meets a busy slot. -/

import Mathlib.Data.List.Forall2
import Webos.Adb.Router.Uplink
import Webos.Adb.Sync.Boundaries

namespace Webos.Adb.Sync

open Webos.Lib.Bytes Webos.Lib.Files Webos.Lib.Fragment Webos.Lib.Program

variable {cfg : Config} {φ : Type}

section Outboxes

/-- The transmit slot is free and a WRTE packet holds the response. -/
def Takes (u : Uplink cfg) (response : List UInt8) : Prop :=
  u.busy = false ∧ response.length ≤ u.room

instance (u : Uplink cfg) (response : List UInt8) : Decidable (Takes u response) :=
  inferInstanceAs (Decidable (_ ∧ _))

/-- The transmit slot of a sync stream, with every response that the service has offered it, next
to the slot as the response found it, and the responses that it took. -/
structure Outbox (cfg : Config) where
  uplink : Uplink cfg
  offers : List (Uplink cfg × List UInt8)
  taken : List (List UInt8)

def offering : Host cfg (Outbox cfg)
  | .write stream generation data, r =>
    let reply := Uplink.api (.write stream generation data) r.uplink
    (reply.1,
      { uplink := reply.2
        offers := r.offers ++ [(r.uplink, data)]
        taken := if reply.1 = 0 then r.taken ++ [data] else r.taken })
  | .close stream generation, r =>
    ((), { r with uplink := (Uplink.api (.close stream generation) r.uplink).2 })
  | .generation stream, r => (r.uplink.generation stream, r)
  | .maxPayload _, r => (r.uplink.room, r)

theorem api_write_takes (u : Uplink cfg) (s : Slot cfg) (response : List UInt8) :
    (Uplink.api (.write (some s) 0 response) u).1 = 0 ↔ Takes u response := by
  have long : -EMSGSIZE ≠ 0 := by decide
  have busy : -EBUSY ≠ 0 := by decide
  unfold Uplink.api Takes
  dsimp only
  rw [Uplink.current_zero, if_neg (by decide)]
  split_ifs with tooLong held
  · exact ⟨fun zero => absurd zero long, fun fits => absurd fits.2 (by omega)⟩
  · exact ⟨fun zero => absurd zero busy, fun fits => absurd fits.1 (by simp [held])⟩
  · exact ⟨fun _ => ⟨by simpa using held, by omega⟩, fun _ => rfl⟩

theorem api_write_closing (u : Uplink cfg) (stream : Option (Slot cfg)) (generation : UInt32)
    (response : List UInt8) :
    (Uplink.api (.write stream generation response) u).2.closing = u.closing := by
  unfold Uplink.api
  dsimp only
  split_ifs <;> rfl

end Outboxes

/-- What reaches a sync stream: a WRTE packet, with the token counter and the file system as it
finds them, or an OKAY packet for the response that was sent last. -/
inductive Arrival (φ : Type) where
  | write (sideNonce : UInt32) (disk : φ) (payload : List UInt8)
  | acknowledge

def Arrival.bytes : Arrival φ → List UInt8
  | .write _ _ payload => payload
  | .acknowledge => []

def arrived (arrivals : List (Arrival φ)) : List UInt8 := (arrivals.map Arrival.bytes).flatten

/-- A sync stream: the context of the service and the transmit slot of the router. -/
structure Exchange (cfg : Config) where
  ctx : SyncContext cfg
  outbox : Outbox cfg

section Exchanges

variable (fs : FileSystem Path (Slot cfg) UInt8 φ) (i : Slot cfg) (x : Exchange cfg)

def Exchange.call (sideNonce : UInt32) (disk : φ) (payload : List UInt8) :
    Call φ (Outbox cfg) :=
  ⟨sideNonce, disk, x.outbox, payload⟩

/-- A WRTE packet runs `sync_write` and closes the stream if that fails; an OKAY packet frees the
slot, for `sync_tx_ready` does nothing. A stream whose CLSE waits for room still gets packets. -/
def Exchange.next : Arrival φ → Exchange cfg
  | .write sideNonce disk payload =>
    let out := (x.call sideNonce disk payload).run fs i offering x.ctx
    ⟨out.2.1.ctx, { out.2.2 with uplink := out.2.2.uplink.settle out.1 }⟩
  | .acknowledge =>
    { x with outbox := { x.outbox with uplink := { x.outbox.uplink with busy := false } } }

def Exchange.run (arrivals : List (Arrival φ)) : Exchange cfg :=
  arrivals.foldl (Exchange.next fs i) x

def Exchange.InstallsAt : Arrival φ → Prop
  | .write sideNonce disk payload =>
    ∀ m ∈ moments (servePass fs i offering) (payload.length + 1) payload
      ((x.call sideNonce disk payload).start x.ctx, x.outbox),
      closesUpload m.2.1.ctx m.1 → m.2.1.installs fs i
  | .acknowledge => True

def Exchange.Installs : Exchange cfg → List (Arrival φ) → Prop
  | _, [] => True
  | x, arrival :: later =>
    (x.outbox.uplink.closing = false → x.InstallsAt fs i arrival) ∧
      Exchange.Installs (x.next fs i arrival) later

end Exchanges

structure Exchange.Opened (s : Slot cfg) (x : Exchange cfg) : Prop where
  stream : x.ctx.stream = some s
  state : x.ctx.state = .requestHeader
  fresh : x.ctx.header = []
  unclosed : x.outbox.uplink.closing = false
  silent : x.outbox.offers = [] ∧ x.outbox.taken = []

/-- One record for each request, in the order of the requests: every request that has been received
whole has its answer, and only a request that has been begun has one. -/
def Answered (requests : List Request) (received : List UInt8) (records : List (List UInt8)) :
    Prop :=
  ∃ answered, answered <+: requests ∧ List.Forall₂ Answers answered records ∧
    (∀ whole, whole <+: requests → wires whole <+: received → whole <+: answered) ∧
    ∀ begun q, answered = begun ++ [q] → (wires begun).length < received.length

section Answered

variable {fs : FileSystem Path (Slot cfg) UInt8 φ} {i : Slot cfg} {s : Slot cfg}
variable {requests : List Request}

structure InStep (s : Slot cfg) (requests : List Request) (c : SyncContext cfg) (r : Outbox cfg)
    (rest : List UInt8) : Prop where
  position : ∃ todo paid received answered, Expects c rest todo paid received ∧
    todo <:+ requests ∧ answered ++ due todo paid = requests ∧
    List.Forall₂ Answers answered r.taken
  stream : c.stream = some s
  unclosed : r.uplink.closing = false
  free : ∀ offer ∈ r.offers, Takes offer.1 offer.2

def Outbox.Refused (r : Outbox cfg) : Prop := ∃ offer ∈ r.offers, ¬ Takes offer.1 offer.2

private theorem pass_inStep (formed : ∀ q ∈ requests, q.WellFormed cfg) (future : List UInt8)
    {data : List UInt8} {w : Local cfg φ × Outbox cfg} (more : data ≠ [])
    (inStep : InStep s requests w.1.ctx w.2 (data ++ future))
    (installs : closesUpload w.1.ctx data → w.1.installs fs i) :
    Advances (servePass fs i offering)
      (fun data w => InStep s requests w.1.ctx w.2 (data ++ future))
      (fun ret w => ret ≠ 0 ∧ w.2.Refused) data w := by
  obtain ⟨⟨todo, paid, received, answered, expects, suffix, split, records⟩, mine, unclosed,
    free⟩ := inStep
  have served := serve (h := offering) (r := w.2) fs i expects
    (fun q member => formed q (suffix.subset member)) more installs
  have fits (response : List UInt8) : (offering (.write w.1.ctx.stream 0 response) w.2).1 = 0 ↔
      Takes w.2.uplink response := by
    rw [mine]
    exact api_write_takes w.2.uplink s response
  unfold Advances servePass
  generalize (syncPass fs i data).exec offering w.1 w.2 = out at served
  cases served with
  | quiet shorter stream expects' owed inside =>
    refine ⟨shorter, ⟨_, _, _, answered, expects', inside.trans suffix, ?_, records⟩,
      stream.trans mine, unclosed, free⟩
    rw [owed, split]
  | @answered q todo' paid' response received' rest m shorter stream answers accepted expects' owed
      inside =>
    refine ⟨shorter, ⟨todo', paid', received', answered ++ [q], expects', inside.trans suffix, ?_,
      ?_⟩, stream.trans mine, ?_, ?_⟩
    · rw [List.append_assoc, List.singleton_append, ← owed, split]
    · have kept : (offering (.write w.1.ctx.stream 0 response) w.2).2.taken =
          w.2.taken ++ [response] := if_pos accepted
      rw [kept]
      exact List.rel_append records (.cons answers .nil)
    · exact (api_write_closing _ _ _ _).trans unclosed
    · intro offer member
      rcases List.mem_append.mp member with before | now
      · exact free offer before
      · rw [List.mem_singleton.mp now]
        exact (fits response).mp accepted
  | @refused q later ret response rest m answers owed busy bad =>
    refine ⟨bad, (w.2.uplink, response), List.mem_append_right _ (List.mem_singleton_self _), ?_⟩
    exact fun taken => busy ((fits response).mpr taken)

variable {x : Exchange cfg}

private theorem call_inStep (formed : ∀ q ∈ requests, q.WellFormed cfg)
    {future payload : List UInt8} {sideNonce : UInt32} {disk : φ}
    (inStep : InStep s requests x.ctx x.outbox (payload ++ future))
    (installs : x.InstallsAt fs i (.write sideNonce disk payload)) :
    let out := (x.call sideNonce disk payload).run fs i offering x.ctx
    (out.1 = 0 ∧ InStep s requests out.2.1.ctx out.2.2 future) ∨ (out.1 ≠ 0 ∧ out.2.2.Refused) := by
  obtain ⟨-, final⟩ := loop_rule
    (fun data w more inStep installs => pass_inStep formed future more inStep installs)
    (Nat.le_succ _) inStep installs
  intro out
  have ran : out = _ := exec_syncLoop fs i offering ((x.call sideNonce disk payload).start x.ctx)
    x.outbox (payload.length + 1) payload
  rw [ran]
  generalize loop (servePass fs i offering) (payload.length + 1) payload
    ((x.call sideNonce disk payload).start x.ctx, x.outbox) = result at final ⊢
  obtain ⟨_ | ret, l, r⟩ := result
  · exact Or.inl ⟨rfl, final.1⟩
  · exact Or.inr final

structure Overrun (r : Outbox cfg) : Prop where
  closing : r.uplink.closing = true
  refused : r.Refused

private theorem offering_overrun {call : StreamCall cfg} {r : Outbox cfg} (overrun : Overrun r) :
    Overrun (offering call r).2 := by
  obtain ⟨closing, offer, member, unfit⟩ := overrun
  cases call with
  | write stream generation data =>
    exact ⟨(api_write_closing _ _ _ _).trans closing, offer, List.mem_append_left _ member, unfit⟩
  | close stream generation =>
    refine ⟨?_, offer, member, unfit⟩
    unfold offering Uplink.api
    dsimp only
    split_ifs
    · rfl
    · exact closing
  | generation stream => exact ⟨closing, offer, member, unfit⟩
  | maxPayload stream => exact ⟨closing, offer, member, unfit⟩

private theorem settle_overrun {r : Outbox cfg} (overrun : Overrun r) (ret : Int) :
    Overrun { r with uplink := r.uplink.settle ret } := by
  refine ⟨?_, overrun.refused⟩
  unfold Uplink.settle
  split_ifs
  · rfl
  · exact overrun.closing

private theorem next_overrun (overrun : Overrun x.outbox) (arrival : Arrival φ) :
    Overrun (x.next fs i arrival).outbox := by
  cases arrival with
  | write sideNonce disk payload =>
    refine settle_overrun ?_ _
    have ran := run_related offering (fun r r' => Overrun r → Overrun r') (fun _ => id)
      (fun _ _ _ first second => second ∘ first) (fun _ _ => offering_overrun)
      (syncLoop fs i (payload.length + 1) payload ((x.call sideNonce disk payload).start x.ctx))
      x.outbox
    exact ran overrun
  | acknowledge => exact ⟨overrun.closing, overrun.refused⟩

private theorem next_inStep (formed : ∀ q ∈ requests, q.WellFormed cfg) {future : List UInt8}
    {arrival : Arrival φ} (inStep : InStep s requests x.ctx x.outbox (arrival.bytes ++ future))
    (installs : x.outbox.uplink.closing = false → x.InstallsAt fs i arrival) :
    InStep s requests (x.next fs i arrival).ctx (x.next fs i arrival).outbox future ∨
      Overrun (x.next fs i arrival).outbox := by
  cases arrival with
  | write sideNonce disk payload =>
    have ahead : InStep s requests x.ctx x.outbox (payload ++ future) := inStep
    have called := call_inStep formed ahead (installs inStep.unclosed)
    unfold Exchange.next
    dsimp only at called ⊢
    generalize (x.call sideNonce disk payload).run fs i offering x.ctx = out at called ⊢
    obtain ⟨ret, l, r⟩ := out
    rcases called with ⟨good, inStep'⟩ | ⟨bad, refused⟩
    · left
      rw [Uplink.settle, if_neg (not_not.mpr good)]
      exact inStep'
    · right
      refine ⟨?_, refused⟩
      rw [Uplink.settle, if_pos bad]
  | acknowledge => exact Or.inl ⟨inStep.position, inStep.stream, inStep.unclosed, inStep.free⟩

private theorem run_inStep (formed : ∀ q ∈ requests, q.WellFormed cfg) {unsent : List UInt8}
    {arrivals : List (Arrival φ)}
    (start : InStep s requests x.ctx x.outbox (arrived arrivals ++ unsent) ∨ Overrun x.outbox)
    (installs : x.Installs fs i arrivals) :
    InStep s requests (x.run fs i arrivals).ctx (x.run fs i arrivals).outbox unsent ∨
      Overrun (x.run fs i arrivals).outbox := by
  induction arrivals generalizing x with
  | nil => exact start
  | cons arrival later ih =>
    refine ih ?_ installs.2
    rcases start with inStep | overrun
    · refine next_inStep formed ?_ installs.1
      rw [← List.append_assoc]
      exact inStep
    · exact Or.inr (next_overrun overrun arrival)

private theorem length_wires_append (a b : List Request) :
    (wires (a ++ b)).length = (wires a).length + (wires b).length := by
  simp [wires]

variable {c : SyncContext cfg} {received : List UInt8}

private theorem due_ahead {rest : List UInt8} {todo later : List Request} {paid : Bool}
    {q : Request} (expects : Expects c rest todo paid received)
    (owed : due todo paid = q :: later) : (wires later).length < rest.length := by
  obtain ⟨ahead, -⟩ := expects.span
  cases paid with
  | false => exact ahead q later owed
  | true =>
    cases todo with
    | nil => cases owed
    | cons first todo =>
      have behind := ahead first todo rfl
      have same : todo = q :: later := owed
      rw [same, wires_cons, List.length_append] at behind
      omega

private theorem answered_begun {rest : List UInt8} {todo begun : List Request} {paid : Bool}
    {q : Request} (expects : Expects c rest todo paid received) (suffix : todo <:+ requests)
    (split : (begun ++ [q]) ++ due todo paid = requests) :
    (wires begun).length + rest.length < (wires requests).length := by
  have size := length_wire q
  obtain ⟨-, start⟩ := expects.span
  have whole := congrArg (fun list => (wires list).length) split
  simp only [length_wires_append, wires_cons, wires_nil, List.append_nil] at whole
  cases paid with
  | false =>
    have same : due todo false = todo := rfl
    rw [same] at whole
    omega
  | true =>
    obtain ⟨front, rfl⟩ := suffix
    cases todo with
    | nil => cases expects
    | cons first todo =>
      have inside : rest.length + 8 ≤ (wires (first :: todo)).length := by
        rcases start with ⟨idle, -⟩ | inside
        · cases expects with
          | record state => rw [state] at idle; cases idle
          | data state => rw [state] at idle; cases idle
        · exact inside
      have same : begun ++ q :: todo = front ++ first :: todo := by
        rw [← split, List.append_assoc]
        rfl
      obtain ⟨rfl, -⟩ := List.append_inj' same rfl
      rw [length_wires_append]
      omega

private theorem inStep_answered {r : Outbox cfg} {unsent : List UInt8}
    (bytes : received ++ unsent = wires requests) (inStep : InStep s requests c r unsent) :
    Answered requests received r.taken := by
  obtain ⟨todo, paid, collected, answered, expects, suffix, split, records⟩ := inStep.position
  have total : received.length + unsent.length = (wires requests).length := by
    rw [← List.length_append, bytes]
  refine ⟨answered, ⟨_, split⟩, records, fun whole inside covered => ?_, fun begun q last => ?_⟩
  · rcases List.prefix_or_prefix_of_prefix inside ⟨_, split⟩ with short | ⟨extra, rfl⟩
    · exact short
    · cases extra with
      | nil => rw [List.append_nil]
      | cons q extra =>
        obtain ⟨more, rfl⟩ := inside
        rw [List.append_assoc] at split
        have owed : due todo paid = q :: (extra ++ more) := List.append_cancel_left split
        have behind := due_ahead expects owed
        have short := covered.length_le
        simp only [length_wires_append, wires_cons, List.length_append] at total behind short
        omega
  · rw [last] at split
    have start := answered_begun expects suffix split
    omega

/-- A sync stream stays open and answers its requests one by one, in their order, exactly as long
as every response finds the slot free and fits into a packet. -/
theorem sync_requests_answered {x : Exchange cfg} (opened : x.Opened s)
    (formed : ∀ q ∈ requests, q.WellFormed cfg) {arrivals : List (Arrival φ)} {unsent : List UInt8}
    (bytes : arrived arrivals ++ unsent = wires requests) (installs : x.Installs fs i arrivals) :
    ((x.run fs i arrivals).outbox.uplink.closing = false ∧
      Answered requests (arrived arrivals) (x.run fs i arrivals).outbox.taken) ↔
    ∀ offer ∈ (x.run fs i arrivals).outbox.offers, Takes offer.1 offer.2 := by
  have start : InStep s requests x.ctx x.outbox (arrived arrivals ++ unsent) := by
    refine ⟨⟨requests, false, [], [], .idle opened.state ?_ ?_, List.suffix_rfl, rfl, ?_⟩,
      opened.stream, opened.unclosed, ?_⟩
    · rw [opened.fresh]
      exact header_pos
    · rw [opened.fresh]
      exact bytes
    · rw [opened.silent.2]
      exact .nil
    · rw [opened.silent.1]
      exact List.forall_mem_nil _
  rcases run_inStep formed (Or.inl start) installs with inStep | overrun
  · exact ⟨fun _ => inStep.free, fun _ => ⟨inStep.unclosed, inStep_answered bytes inStep⟩⟩
  · obtain ⟨offer, member, unfit⟩ := overrun.refused
    refine ⟨fun kept => ?_, fun free => absurd (free offer member) unfit⟩
    rw [overrun.closing] at kept
    cases kept.1

end Answered

section Samples

def sampleFiles : FileSystem Path (Slot Config.project) UInt8 SampleDisk := memory

def openedSync : Exchange Config.project where
  ctx := { SyncContext.zero Config.project with stream := some firstSlot }
  outbox := ⟨⟨Config.project.txPayloadSize, fun _ => 1, false, false⟩, [], []⟩

theorem openedSync_opened : openedSync.Opened firstSlot :=
  ⟨rfl, rfl, rfl, rfl, rfl, rfl⟩

def pacedArrivals : List (Arrival SampleDisk) :=
  [.write 0 blank ((wires pushThenStat).take 52),
    .write 1 blank (((wires pushThenStat).drop 52).take 4), .acknowledge,
    .write 1 blank ((wires pushThenStat).drop 56)]

theorem sync_requests_answered_paced :
    ((openedSync.run sampleFiles firstSlot pacedArrivals).outbox.uplink.closing = false ∧
      Answered pushThenStat (arrived pacedArrivals)
        (openedSync.run sampleFiles firstSlot pacedArrivals).outbox.taken) ∧
      (openedSync.run sampleFiles firstSlot pacedArrivals).outbox.taken.length = 2 := by
  have pass (x : Exchange Config.project) (sideNonce : UInt32) (payload : List UInt8)
      (all : ∀ m ∈ moments (servePass sampleFiles firstSlot offering) (payload.length + 1) payload
        ((x.call sideNonce blank payload).start x.ctx, x.outbox),
        m.2.1.ctx.state = .sendHeader → m.2.1.installs sampleFiles firstSlot) :
      x.InstallsAt sampleFiles firstSlot (.write sideNonce blank payload) :=
    fun m member closing => all m member closing.1
  have installs : openedSync.Installs sampleFiles firstSlot pacedArrivals :=
    ⟨fun _ => pass _ _ _ (by decide +kernel), fun _ => pass _ _ _ (by decide +kernel),
      fun _ => trivial, fun _ => pass _ _ _ (by decide +kernel), trivial⟩
  have bytes : arrived pacedArrivals ++ [] = wires pushThenStat := by decide +kernel
  have free : ∀ offer ∈ (openedSync.run sampleFiles firstSlot pacedArrivals).outbox.offers,
      Takes offer.1 offer.2 := by decide +kernel
  refine ⟨?_, by decide +kernel⟩
  exact (sync_requests_answered openedSync_opened pushThenStat_formed bytes installs).mpr free

def twoStats : List Request := [.stat (ascii "/STORAGE:/"), .stat (ascii "/STORAGE:/")]

def eagerArrivals : List (Arrival SampleDisk) :=
  [.write 0 blank ((wires twoStats).take 18), .write 0 blank ((wires twoStats).drop 18)]

/-- The second response meets the slot that the first one holds: the service gives up, and the
router closes the stream. -/
theorem eager_host_loses_stream :
    (∀ q ∈ twoStats, q.WellFormed Config.project) ∧ arrived eagerArrivals = wires twoStats ∧
      openedSync.Opened firstSlot ∧
      (openedSync.run sampleFiles firstSlot eagerArrivals).outbox.uplink.finished = true ∧
      (openedSync.run sampleFiles firstSlot eagerArrivals).outbox.taken.length = 1 := by
  refine ⟨?_, ?_⟩
  · intro q member
    simp only [twoStats, List.mem_cons, List.not_mem_nil, or_false, or_self] at member
    rw [member]
    exact ⟨⟨by decide, trivial⟩, by decide, trivial⟩
  · refine ⟨?_, openedSync_opened, ?_⟩ <;> decide +kernel

end Samples

end Webos.Adb.Sync
