/- digest: The router over the USB transport, one lock region of the USB thread at a time. -/

import Webos.Adb.Router.Rules
import Webos.Adb.Usb.Transmit

namespace Webos.Adb.Usb

open Webos.Lib.RingQueue

variable {cfg : UsbConfig} {σ κ : Type}

section Model

variable (cfg : UsbConfig) (k : Kernel κ) (ops : ServiceKind → ServiceOps cfg.adb σ)

def submitOut (u : UsbData κ) : Int × UsbData κ :=
  if !u.enabled || u.resetting then (-ENODEV, u)
  else if u.outEngaged then (-EBUSY, u)
  else
    let (found, kernel) := k.epBufAlloc u.kernel .bulkOut cfg.adb.usbTransferSize
    if !found then (-ENOMEM, { u with kernel })
    else
      let (ret, kernel) := k.epEnqueue kernel .bulkOut
      let buffer := u.buffers
      let u := { u with kernel, buffers := buffer + 1 }
      if ret ≠ 0 then (ret, { u with activeOut := none })
      else
        (0, { u with
          outEngaged := true
          activeOut := some buffer
          outPipe := u.outPipe ++ [buffer] })

/-- The router as `adb.c` wires it: packets go to the USB transport. -/
def linkEnv : Env cfg.adb σ (UsbData κ) where
  transportSend := some (fun u header payload => webosAdbUsbSend cfg k header payload u)
  usbResetTx := webosAdbUsbResetTx cfg
  malloc := fun u size =>
    let (found, kernel) := k.malloc u.kernel size
    (found, { u with kernel })
  workReschedule := fun u =>
    let (ret, kernel) := k.workReschedule u.kernel
    (ret, { u with kernel })
  ops := ops

variable {cfg}

/-- What the callback that runs on the USB thread has still to do. Between two tasks it holds no
lock, so other threads may call the router. -/
inductive Task where
  | protocolReset
  | resetQueues
  | setEnabled
  | setResetting (value : Bool)
  | submitOut
  | submitIfEnabled
  | receive (data : List UInt8)
  | rearm
  | txReady
  deriving DecidableEq, Repr

inductive RxEvent where
  | completed (buffer : Nat) (err : Int) (data : List UInt8)
  | delivered (data : List UInt8)
  | forgot (buffer : Option Nat)
  deriving DecidableEq, Repr

/-- The router, the transport below it and the callback in progress. -/
structure Link (cfg : UsbConfig) (σ κ : Type) where
  world : World cfg.adb σ (UsbData κ)
  todo : List Task
  record : List RxEvent

def Link.boot (services : σ) (kernel : κ) : Link cfg σ κ where
  world := protocolResetUnlocked (linkEnv cfg k ops)
    (World.boot cfg.adb services (UsbData.boot kernel))
  todo := []
  record := []

def Link.usb (l : Link cfg σ κ) : UsbData κ := l.world.platform

def Link.setUsb (l : Link cfg σ κ) (u : UsbData κ) : Link cfg σ κ :=
  { l with world := { l.world with platform := u } }

def Link.note (l : Link cfg σ κ) (e : RxEvent) : Link cfg σ κ :=
  { l with record := l.record ++ [e] }

def InVerdict.tasks : InVerdict → List Task
  | .stale | .nothing => []
  | .notifyProtocol => [.txReady]
  | .resetProtocol => [.protocolReset, .resetQueues, .setResetting false, .submitIfEnabled]

def overflowTasks : List Task :=
  [.setResetting true, .protocolReset, .resetQueues, .setResetting false]

def Link.receive (l : Link cfg σ κ) (data : List UInt8) : Link cfg σ κ :=
  let (ret, world) := webosAdbProtocolReceive (linkEnv cfg k ops) data l.world
  Link.note { l with
    world
    todo := if ret = -ENOBUFS then overflowTasks ++ l.todo else l.todo } (.delivered data)

def Link.perform (l : Link cfg σ κ) : Task → Link cfg σ κ
  | .protocolReset => { l with world := protocolResetUnlocked (linkEnv cfg k ops) l.world }
  | .resetQueues => (l.note (.forgot l.usb.activeOut)).setUsb (resetUsbQueues cfg l.usb)
  | .setEnabled => l.setUsb { l.usb with enabled := true }
  | .setResetting value => l.setUsb { l.usb with resetting := value }
  | .submitOut => l.setUsb (submitOut cfg k l.usb).2
  | .submitIfEnabled => if l.usb.enabled then l.setUsb (submitOut cfg k l.usb).2 else l
  | .receive data => if data ≠ [] ∧ l.usb.resetting = false then l.receive k ops data else l
  | .rearm =>
    if l.usb.enabled && !l.usb.resetting then l.setUsb (submitOut cfg k l.usb).2 else l
  | .txReady => { l with world := webosAdbProtocolTxReady (linkEnv cfg k ops) l.world }

def Link.enable (l : Link cfg σ κ) : Link cfg σ κ :=
  { l with todo := [.resetQueues, .protocolReset, .setEnabled, .submitOut] }

/-- `adb_usb_request` for the oldest IN transfer. -/
def Link.inDone (l : Link cfg σ κ) (err : Int) : Link cfg σ κ :=
  match l.usb.inPipe with
  | [] => l
  | buffer :: pipe =>
    let (verdict, u) := inRequest cfg k buffer err { l.usb with inPipe := pipe }
    { l.setUsb u with todo := verdict.tasks }

/-- `adb_usb_request` for the oldest OUT transfer. -/
def Link.outDone (l : Link cfg σ κ) (err : Int) (data : List UInt8) : Link cfg σ κ :=
  match l.usb.outPipe with
  | [] => l
  | buffer :: pipe =>
    let u := { l.usb with outPipe := pipe }
    let l := l.note (.completed buffer err data)
    if u.activeOut ≠ some buffer then l.setUsb u
    else
      { l.setUsb { u with activeOut := none, outEngaged := false } with
        todo := if err = 0 then [.receive data, .rearm] else [] }

/-- What can happen next: the stack calls the class back, the callback goes on, another thread calls
the router, or the service statics change between callbacks. -/
inductive LinkStep (cfg : UsbConfig) (σ : Type) where
  | enable
  | inDone (err : Int)
  | outDone (err : Int) (data : List UInt8)
  | task
  | call (request : StreamCall cfg.adb)
  | services (services : σ)

/-- The USB thread runs one callback at a time. -/
def Link.step (l : Link cfg σ κ) : LinkStep cfg σ → Link cfg σ κ
  | .enable => if l.todo = [] then l.enable else l
  | .inDone err => if l.todo = [] then l.inDone k err else l
  | .outDone err data => if l.todo = [] then l.outDone err data else l
  | .task =>
    match l.todo with
    | [] => l
    | task :: rest => Link.perform k ops { l with todo := rest } task
  | .call request => { l with world := (streamApi (linkEnv cfg k ops) request l.world).2 }
  | .services services => { l with world := { l.world with services } }

/-- The states of the runs whose steps all meet a condition. -/
inductive Reach (allowed : Link cfg σ κ → LinkStep cfg σ → Prop) : Link cfg σ κ → Prop where
  | boot (services : σ) (kernel : κ) : Reach allowed (Link.boot k ops services kernel)
  | step {l : Link cfg σ κ} (step : LinkStep cfg σ) : Reach allowed l → allowed l step →
    Reach allowed (l.step k ops step)

def Link.run (l : Link cfg σ κ) (steps : List (LinkStep cfg σ)) : Link cfg σ κ :=
  steps.foldl (Link.step k ops) l

def Along (allowed : Link cfg σ κ → LinkStep cfg σ → Prop) :
    Link cfg σ κ → List (LinkStep cfg σ) → Prop
  | _, [] => True
  | l, step :: rest => allowed l step ∧ Along allowed (l.step k ops step) rest

instance Along.decidable (allowed : Link cfg σ κ → LinkStep cfg σ → Prop)
    [∀ l step, Decidable (allowed l step)] :
    ∀ (l : Link cfg σ κ) (steps : List (LinkStep cfg σ)), Decidable (Along k ops allowed l steps)
  | _, [] => .isTrue trivial
  | l, step :: rest =>
    haveI := Along.decidable allowed (l.step k ops step) rest
    inferInstanceAs (Decidable (allowed l step ∧ Along k ops allowed (l.step k ops step) rest))

theorem Reach.run {allowed : Link cfg σ κ → LinkStep cfg σ → Prop} {l : Link cfg σ κ}
    (steps : List (LinkStep cfg σ)) (reach : Reach k ops allowed l)
    (along : Along k ops allowed l steps) : Reach k ops allowed (l.run k ops steps) := by
  induction steps generalizing l with
  | nil => exact reach
  | cons step rest ih => exact ih (.step step reach along.1) along.2

theorem Link.step_rule {P : Link cfg σ κ → Prop} {l : Link cfg σ κ} (step : LinkStep cfg σ)
    (stays : P l) (enable : l.todo = [] → P l.enable)
    (inDone : ∀ err, l.todo = [] → P (l.inDone k err))
    (outDone : ∀ err data, step = .outDone err data → l.todo = [] → P (l.outDone err data))
    (task : ∀ task rest, l.todo = task :: rest → P (Link.perform k ops
    { l with todo := rest } task))
    (call : ∀ request, P { l with world := (streamApi (linkEnv cfg k ops) request l.world).2 })
    (services : ∀ services, P { l with world := { l.world with services } }) :
    P (l.step k ops step) := by
  cases step with
  | call request => exact call request
  | services st => exact services st
  | task =>
    unfold Link.step
    dsimp only
    split
    · exact stays
    · exact task _ _ ‹_›
  | _ =>
    unfold Link.step
    split_ifs with idle
    · first | exact enable idle | exact inDone _ idle | exact outDone _ _ rfl idle
    · exact stays

end Model

structure Kernel.Reliable (k : Kernel κ) : Prop where
  alloc : ∀ kernel endpoint size, (k.epBufAlloc kernel endpoint size).1 = true
  enqueue : ∀ kernel endpoint, (k.epEnqueue kernel endpoint).1 = 0

def Kernel.ideal : Kernel Unit where
  epBufAlloc := fun _ _ _ => (true, ())
  epEnqueue := fun _ _ => (0, ())
  malloc := fun _ _ => (true, ())
  workReschedule := fun _ => (0, ())

theorem Kernel.ideal_reliable : Kernel.ideal.Reliable := ⟨fun _ _ _ => rfl, fun _ _ => rfl⟩

section Frame

variable {k : Kernel κ} {ops : ServiceKind → ServiceOps cfg.adb σ}

/-- What the router leaves alone in the transport: the receive side and the flags. -/
structure Undisturbed (u v : UsbData κ) : Prop where
  classData : v.classData = u.classData
  enabled : v.enabled = u.enabled
  resetting : v.resetting = u.resetting
  outEngaged : v.outEngaged = u.outEngaged
  activeOut : v.activeOut = u.activeOut
  outPipe : v.outPipe = u.outPipe
  buffers : u.buffers ≤ v.buffers

theorem Undisturbed.refl (u : UsbData κ) : Undisturbed u u :=
  ⟨rfl, rfl, rfl, rfl, rfl, rfl, Nat.le_refl _⟩

theorem Undisturbed.trans {u v w : UsbData κ} (first : Undisturbed u v)
    (second : Undisturbed v w) : Undisturbed u w where
  classData := second.classData.trans first.classData
  enabled := second.enabled.trans first.enabled
  resetting := second.resetting.trans first.resetting
  outEngaged := second.outEngaged.trans first.outEngaged
  activeOut := second.activeOut.trans first.activeOut
  outPipe := second.outPipe.trans first.outPipe
  buffers := Nat.le_trans first.buffers second.buffers

theorem reset_undisturbed (cfg : UsbConfig) (u : UsbData κ) :
    Undisturbed u (resetTxQueueUnlocked cfg u) :=
  ⟨rfl, rfl, rfl, rfl, rfl, rfl, Nat.le_refl _⟩

theorem enqueueIn_undisturbed (k : Kernel κ) (data : List UInt8) (u : UsbData κ) :
    Undisturbed u (enqueueIn k data u).2 := by
  unfold enqueueIn
  dsimp only
  split_ifs
  · exact ⟨rfl, rfl, rfl, rfl, rfl, rfl, Nat.le_refl _⟩
  all_goals exact ⟨rfl, rfl, rfl, rfl, rfl, rfl, Nat.le_succ _⟩

theorem start_undisturbed (k : Kernel κ) (u : UsbData κ) :
    Undisturbed u (startTxPacketUnlocked k u).2 := by
  have engaged : Undisturbed u { u with inEngaged := true, txPhase := .header } :=
    ⟨rfl, rfl, rfl, rfl, rfl, rfl, Nat.le_refl _⟩
  have begun := engaged.trans (enqueueIn_undisturbed k u.txQueue.front.header _)
  unfold startTxPacketUnlocked
  dsimp only
  split_ifs
  · exact .refl u
  · exact .refl u
  · exact begun.trans ⟨rfl, rfl, rfl, rfl, rfl, rfl, Nat.le_refl _⟩
  · exact begun

theorem send_undisturbed (cfg : UsbConfig) (k : Kernel κ) (header payload : List UInt8)
    (u : UsbData κ) : Undisturbed u (webosAdbUsbSend cfg k header payload u).2 := by
  have pushed : Undisturbed u
      { u with txQueue := u.txQueue.push cfg.txQueueDepth ⟨header, payload⟩ } :=
    ⟨rfl, rfl, rfl, rfl, rfl, rfl, Nat.le_refl _⟩
  have started := pushed.trans (start_undisturbed k _)
  unfold webosAdbUsbSend settleSend
  dsimp only
  split_ifs
  all_goals first
    | exact .refl u
    | exact started.trans (reset_undisturbed cfg _)
    | exact started.trans ⟨rfl, rfl, rfl, rfl, rfl, rfl, Nat.le_refl _⟩
    | exact pushed.trans ⟨rfl, rfl, rfl, rfl, rfl, rfl, Nat.le_refl _⟩

theorem undisturbedServes (k : Kernel κ) (ops : ServiceKind → ServiceOps cfg.adb σ) :
    Serves (linkEnv cfg k ops) Undisturbed where
  refl := Undisturbed.refl
  trans _ _ _ := Undisturbed.trans
  send u send command arg0 arg1 payload transport := by
    cases transport
    exact send_undisturbed cfg k _ payload u
  resetTx u := reset_undisturbed cfg u
  malloc _ _ := ⟨rfl, rfl, rfl, rfl, rfl, rfl, Nat.le_refl _⟩
  workReschedule _ := ⟨rfl, rfl, rfl, rfl, rfl, rfl, Nat.le_refl _⟩

/-- A locked part leaves the receive side alone, apart from RESETTING. -/
abbrev Spares (u : UsbData κ) (out : InVerdict × UsbData κ) : Prop :=
  Undisturbed u { out.2 with resetting := u.resetting } ∧
    out.2.resetting = (u.resetting || decide (out.1 = .resetProtocol))

theorem Undisturbed.spares {u v : UsbData κ} (same : Undisturbed u v) {verdict : InVerdict}
    (kept : verdict ≠ .resetProtocol) : Spares u (verdict, v) :=
  ⟨⟨same.classData, same.enabled, rfl, same.outEngaged, same.activeOut, same.outPipe, same.buffers⟩,
    by rw [decide_eq_false kept, Bool.or_false]; exact same.resetting⟩

theorem Undisturbed.askReset {u v : UsbData κ} (cfg : UsbConfig) (same : Undisturbed u v) :
    Spares u (askReset cfg v) :=
  ⟨⟨same.classData, same.enabled, rfl, same.outEngaged, same.activeOut, same.outPipe, same.buffers⟩,
    (Bool.or_true _).symm⟩

theorem finish_undisturbed (cfg : UsbConfig) (k : Kernel κ) (u : UsbData κ) :
    Spares u (finishPacket cfg k u) := by
  have popped : Undisturbed u (UsbData.note { u with
      txQueue := u.txQueue.pop cfg.txQueueDepth
      txPhase := .idle
      inEngaged := false } (.finished u.txQueue.front)) :=
    ⟨rfl, rfl, rfl, rfl, rfl, rfl, Nat.le_refl _⟩
  have started := popped.trans (start_undisturbed k _)
  unfold finishPacket
  dsimp only
  split_ifs
  · exact started.askReset cfg
  · exact started.spares (by decide)
  · exact popped.spares (by decide)

theorem inRequest_undisturbed (cfg : UsbConfig) (k : Kernel κ) (buffer : Nat) (err : Int)
    (u : UsbData κ) : Spares u (inRequest cfg k buffer err u) := by
  have returned : Undisturbed u (UsbData.note { u with activeIn := none } (.returned buffer)) :=
    ⟨rfl, rfl, rfl, rfl, rfl, rfl, Nat.le_refl _⟩
  have moved : Undisturbed u
      { UsbData.note { u with activeIn := none } (.returned buffer) with txPhase := .payload } :=
    ⟨rfl, rfl, rfl, rfl, rfl, rfl, Nat.le_refl _⟩
  have continued := moved.trans (enqueueIn_undisturbed k u.txQueue.front.payload _)
  unfold inRequest
  dsimp only
  split_ifs
  · exact (Undisturbed.refl u).spares (by decide)
  · exact returned.askReset cfg
  · exact continued.askReset cfg
  · exact continued.spares (by decide)
  · obtain ⟨finished, resetting⟩ := finish_undisturbed cfg k
      (UsbData.note { u with activeIn := none } (.returned buffer))
    exact ⟨returned.trans finished, resetting⟩
  · exact returned.spares (by decide)

theorem api_undisturbed (k : Kernel κ) (ops : ServiceKind → ServiceOps cfg.adb σ)
    (request : StreamCall cfg.adb) (w : World cfg.adb σ (UsbData κ)) :
    Undisturbed w.platform (streamApi (linkEnv cfg k ops) request w).2.platform := by
  have rule := (undisturbedServes k ops).sends
  cases request with
  | write stream generation data => exact rule.streamWriteLocked stream generation data w
  | close stream generation => exact rule.streamCloseLocked stream generation w
  | generation stream => exact .refl _
  | maxPayload stream => exact .refl _

end Frame

end Webos.Adb.Usb
