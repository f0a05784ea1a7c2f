import Probectl.Bus.Topics

/-! The in-process bus, `internal/bus/memory.go`, as a step machine. Every
critical section and every channel operation is a step of its own, so a list of
labels is one interleaving of publishers, subscriber loops and flushes. Calls
are named by their position: a record is the number of the `Publish` call that
carries it, a channel the number of the `Subscribe` call that made it. -/
namespace Probectl.Bus

def defaultMemoryBuffer : Nat := 1024
def memoryMaxRedeliver : Nat := 3

structure MemoryGroup where
  topic : Bytes
  group : Bytes
  members : List Nat
  next : Nat
  deriving DecidableEq, Repr

inductive PublishResult where
  | ok | closed | dropped | ctxErr
  deriving DecidableEq, Repr

/-- Where a `Publish` stands in one round of its loop: between rounds, counted
in and offering to a channel, or refused there and still counted in. -/
inductive Sending where
  | idle | offering (c : Nat) | refused (c : Nat)
  deriving DecidableEq, Repr

/-- A `Publish` call. `refusals` is bookkeeping of this model only. -/
structure Pub where
  msg : Message
  chans : List Nat
  pending : List Nat
  sending : Sending
  dropped : Bool
  refusals : List Nat
  result : Option PublishResult
  deriving DecidableEq, Repr

/-- A record in a worker's hands; `returned` is set once `deliver` is back. -/
structure Job where
  pub : Nat
  attempt : Nat
  returned : Bool
  deriving DecidableEq, Repr

/-- `left` is behind `removeSub` and in the drain loop, `gone` has returned. -/
inductive SubStatus where
  | serving | cancelled | left | gone
  deriving DecidableEq, Repr

/-- A `Subscribe` call: its channel, idle workers, busy workers, and whether its
drain loop holds a record that it has not counted out yet. -/
structure Sub where
  topic : Bytes
  group : Bytes
  chan : List Nat
  status : SubStatus
  idle : Nat
  busy : List Job
  popped : Bool
  deriving DecidableEq, Repr

inductive FlushState where
  | checking | waiting (ch : Nat) | returned (ok : Bool)
  deriving DecidableEq, Repr

structure Flush where
  before : List Nat
  state : FlushState
  deriving DecidableEq, Repr

/-- What `flushMu` guards: the counter, and every `flushWait` channel made so
far, the current one last, with whether it is closed. -/
structure Barrier where
  inFlight : Nat
  waits : List Bool
  deriving DecidableEq, Repr

/-- What became of a record for a channel; no code reads this. -/
structure Outcomes where
  handled : List (Nat × Nat)
  lost : List (Nat × Nat)
  discarded : List (Nat × Nat)
  deriving DecidableEq, Repr

structure Memory where
  groups : List MemoryGroup
  closed : Bool
  bufSize : Nat
  dropOn : Bool
  workers : Nat
  dropped : Nat
  handlerErr : Nat
  handlerLost : Nat
  handlerPanic : Nat
  noSub : Nat
  barrier : Barrier
  subs : List Sub
  pubs : List Pub
  flushes : List Flush
  outcomes : Outcomes
  deriving DecidableEq, Repr

inductive MemoryOption where
  | buffer (n : Int) | overflowDrop | subscribeWorkers (n : Int)
  deriving DecidableEq, Repr

structure MemoryConfig where
  bufSize : Nat
  dropOn : Bool
  workers : Nat
  deriving DecidableEq, Repr

def MemoryOption.apply (cfg : MemoryConfig) : MemoryOption → MemoryConfig
  | .buffer n => if 0 < n then { cfg with bufSize := n.toNat } else cfg
  | .overflowDrop => { cfg with dropOn := true }
  | .subscribeWorkers n => if 1 < n then { cfg with workers := n.toNat } else cfg

def newMemory (opts : List MemoryOption) : Memory :=
  let cfg := opts.foldl MemoryOption.apply ⟨defaultMemoryBuffer, false, 0⟩
  { groups := [], closed := false
    bufSize := cfg.bufSize, dropOn := cfg.dropOn, workers := cfg.workers
    dropped := 0, handlerErr := 0, handlerLost := 0, handlerPanic := 0, noSub := 0
    barrier := ⟨0, [true]⟩, subs := [], pubs := [], flushes := [], outcomes := ⟨[], [], []⟩ }

namespace Barrier

def addInFlight (b : Barrier) : Barrier :=
  ⟨b.inFlight + 1, if b.inFlight = 0 then b.waits ++ [false] else b.waits⟩

def doneInFlight (b : Barrier) : Barrier :=
  if b.inFlight = 0 then b
  else ⟨b.inFlight - 1, if b.inFlight = 1 then b.waits.dropLast ++ [true] else b.waits⟩

end Barrier

namespace MemoryGroup

/-- `g.members[g.next%len(g.members)]`, nothing for an empty group. -/
def pick (g : MemoryGroup) : Option Nat := g.members[g.next % g.members.length]?

def advance (g : MemoryGroup) : MemoryGroup :=
  if g.members = [] then g else { g with next := (g.next + 1) % g.members.length }

end MemoryGroup

/-- The members `Publish` selects; Go's map order is chosen by the label. -/
def selected (groups : List MemoryGroup) (topic : Bytes) : List Nat :=
  (groups.filter (fun g => g.topic = topic)).filterMap MemoryGroup.pick

def advanced (groups : List MemoryGroup) (topic : Bytes) : List MemoryGroup :=
  groups.map (fun g => if g.topic = topic then g.advance else g)

def joined (topic group : Bytes) (c : Nat) : List MemoryGroup → List MemoryGroup
  | [] => [⟨topic, group, [c], 0⟩]
  | g :: rest =>
    if g.topic = topic ∧ g.group = group then { g with members := g.members ++ [c] } :: rest
    else g :: joined topic group c rest

/-- `removeSub`: an emptied group goes with its cursor. -/
def removeSub (groups : List MemoryGroup) (topic group : Bytes) (c : Nat) : List MemoryGroup :=
  (groups.map fun g =>
    if g.topic = topic ∧ g.group = group then { g with members := g.members.erase c } else g).filter
      fun g => decide (¬ (g.topic = topic ∧ g.group = group) ∨ g.members ≠ [])

namespace Pub

def offer (P : Pub) : Option Pub :=
  match P.result, P.sending, P.pending with
  | none, .idle, c :: rest => some { P with pending := rest, sending := .offering c }
  | _, _, _ => none

def offered (P : Pub) : Option Nat :=
  match P.result, P.sending with
  | none, .offering c => some c
  | _, _ => none

/-- `doneInFlight` after a refusal: the drop policy goes on to the next channel,
the block policy returns the context's error. -/
def undo (dropOn : Bool) (P : Pub) : Option Pub :=
  match P.result, P.sending with
  | none, .refused c =>
    if dropOn then some { P with sending := .idle, refusals := c :: P.refusals, dropped := true }
    else some { P with sending := .idle, refusals := c :: P.refusals, result := some .ctxErr }
  | _, _ => none

def finish (P : Pub) : Option Pub :=
  match P.result, P.sending, P.pending with
  | none, .idle, [] => some { P with result := some (if P.dropped then .dropped else .ok) }
  | _, _, _ => none

end Pub

namespace Sub

def receive (C : Sub) : Option Sub :=
  match C.idle, C.chan with
  | n + 1, p :: rest => some { C with idle := n, chan := rest, busy := C.busy ++ [⟨p, 0, false⟩] }
  | _, _ => none

def running (C : Sub) (j : Nat) : Option Job := (C.busy[j]?).filter (fun b => !b.returned)

def setJob (C : Sub) (j : Nat) (b : Job) : Sub := { C with busy := C.busy.set j b }

def gives (C : Sub) (b : Job) : Bool :=
  decide (memoryMaxRedeliver ≤ b.attempt) || decide (C.status ≠ .serving)

/-- `doneInFlight` behind `deliver`; the worker is idle again. -/
def finish (j : Nat) (C : Sub) : Option Sub :=
  match (C.busy[j]?).filter (fun b => b.returned) with
  | some _ => some { C with busy := C.busy.eraseIdx j, idle := C.idle + 1 }
  | none => none

def cancel (C : Sub) : Option Sub :=
  if C.status = .serving then some { C with status := .cancelled } else none

def exit (C : Sub) : Option Sub :=
  match C.status, C.idle with
  | .cancelled, n + 1 => some { C with idle := n }
  | _, _ => none

def leave (C : Sub) : Option Sub :=
  if C.status = .cancelled ∧ C.idle = 0 ∧ C.busy = [] then some { C with status := .left } else none

def pop (C : Sub) : Option (Nat × Sub) :=
  match C.status, C.popped, C.chan with
  | .left, false, p :: rest => some (p, { C with chan := rest, popped := true })
  | _, _, _ => none

def discard (C : Sub) : Option Sub :=
  if C.popped then some { C with popped := false } else none

def drained (C : Sub) : Option Sub :=
  if C.status = .left ∧ C.popped = false ∧ C.chan = [] then some { C with status := .gone } else none

end Sub

namespace Memory

inductive Label where
  | subscribe (topic group : Bytes)
  | publish (msg : Message) (order : List Nat)
  | offer (p : Nat) | send (p : Nat) | refuse (p : Nat) | undo (p : Nat) | finishPublish (p : Nat)
  | receive (c : Nat) | succeed (c j : Nat) | fail (c j : Nat) (panicked : Bool) | finish (c j : Nat)
  | cancel (c : Nat) | exit (c : Nat) | leave (c : Nat)
  | pop (c : Nat) | discard (c : Nat) | drained (c : Nat)
  | flush | check (f : Nat) | wake (f : Nat) | expire (f : Nat)
  | close
  deriving DecidableEq, Repr

def onPub (m : Memory) (p : Nat) (f : Pub → Option Pub) : Option Memory :=
  (m.pubs[p]?).bind fun P => (f P).map fun Q => { m with pubs := m.pubs.set p Q }

def onSub (m : Memory) (c : Nat) (f : Sub → Option Sub) : Option Memory :=
  (m.subs[c]?).bind fun C => (f C).map fun D => { m with subs := m.subs.set c D }

def subscribe (m : Memory) (topic group : Bytes) : Memory :=
  if m.closed then m
  else
    { m with
      groups := joined topic group m.subs.length m.groups
      subs := m.subs ++ [⟨topic, group, [], .serving, if 1 < m.workers then m.workers else 1, [], false⟩] }

def publish (m : Memory) (msg : Message) (order : List Nat) : Option Memory :=
  if m.closed then some { m with pubs := m.pubs ++ [⟨msg, [], [], .idle, false, [], some .closed⟩] }
  else if order.isPerm (selected m.groups msg.topic) then
    let m := { m with groups := advanced m.groups msg.topic }
    if order = [] then
      some { m with noSub := m.noSub + 1
                    pubs := m.pubs ++ [⟨msg, [], [], .idle, false, [], some .ok⟩] }
    else some { m with pubs := m.pubs ++ [⟨msg, order, order, .idle, false, [], none⟩] }
  else none

def send (m : Memory) (p : Nat) : Option Memory :=
  (m.pubs[p]?).bind fun P => P.offered.bind fun c => (m.subs[c]?).bind fun C =>
    if C.chan.length < m.bufSize then
      some { m with pubs := m.pubs.set p { P with sending := .idle }
                    subs := m.subs.set c { C with chan := C.chan ++ [p] } }
    else none

/-- `default` under the drop policy, `<-ctx.Done()` under the block policy. -/
def refuse (m : Memory) (p : Nat) : Option Memory :=
  (m.pubs[p]?).bind fun P => P.offered.bind fun c => (m.subs[c]?).bind fun C =>
    if m.dropOn ∧ C.chan.length < m.bufSize then none
    else some { m with pubs := m.pubs.set p { P with sending := .refused c } }

def succeed (m : Memory) (c j : Nat) : Option Memory :=
  (m.subs[c]?).bind fun C => (C.running j).map fun b =>
    { m with subs := m.subs.set c (C.setJob j { b with returned := true })
             outcomes := { m.outcomes with handled := m.outcomes.handled ++ [(b.pub, c)] } }

/-- One failed attempt in `deliver`: again, or counted lost. -/
def fail (m : Memory) (c j : Nat) (panicked : Bool) : Option Memory :=
  (m.subs[c]?).bind fun C => (C.running j).map fun b =>
    let m := { m with handlerErr := m.handlerErr + 1
                      handlerPanic := m.handlerPanic + if panicked then 1 else 0 }
    if C.gives b then
      { m with subs := m.subs.set c (C.setJob j { b with returned := true })
               handlerLost := m.handlerLost + 1
               outcomes := { m.outcomes with lost := m.outcomes.lost ++ [(b.pub, c)] } }
    else { m with subs := m.subs.set c (C.setJob j { b with attempt := b.attempt + 1 }) }

def leave (m : Memory) (c : Nat) : Option Memory :=
  (m.subs[c]?).bind fun C => C.leave.map fun D =>
    { m with subs := m.subs.set c D, groups := removeSub m.groups C.topic C.group c }

def pop (m : Memory) (c : Nat) : Option Memory :=
  (m.subs[c]?).bind fun C => C.pop.map fun (p, D) =>
    { m with subs := m.subs.set c D
             outcomes := { m.outcomes with discarded := m.outcomes.discarded ++ [(p, c)] } }

def addInFlight (m : Memory) : Memory := { m with barrier := m.barrier.addInFlight }
def doneInFlight (m : Memory) : Memory := { m with barrier := m.barrier.doneInFlight }

def accepted (m : Memory) (p : Nat) : Bool :=
  (m.pubs[p]?).any fun P => decide (P.result = some .ok) && decide (P.chans ≠ [])

def flush (m : Memory) : Memory :=
  { m with flushes := m.flushes ++ [⟨(List.range m.pubs.length).filter m.accepted, .checking⟩] }

def onFlush (m : Memory) (f : Nat) (g : Flush → Option FlushState) : Option Memory :=
  (m.flushes[f]?).bind fun F => (g F).map fun state =>
    { m with flushes := m.flushes.set f { F with state := state } }

def check (b : Barrier) (F : Flush) : Option FlushState :=
  match F.state with
  | .checking => some (if b.inFlight = 0 then .returned true else .waiting (b.waits.length - 1))
  | _ => none

def wake (b : Barrier) (F : Flush) : Option FlushState :=
  match F.state with
  | .waiting ch => if b.waits[ch]? = some true then some .checking else none
  | _ => none

def expire (F : Flush) : Option FlushState :=
  match F.state with
  | .waiting _ => some (.returned false)
  | _ => none

def step (m : Memory) : Label → Option Memory
  | .subscribe topic group => some (m.subscribe topic group)
  | .publish msg order => m.publish msg order
  | .offer p => (m.onPub p Pub.offer).map addInFlight
  | .send p => m.send p
  | .refuse p => m.refuse p
  | .undo p =>
    (m.onPub p (Pub.undo m.dropOn)).map fun m =>
      { m.doneInFlight with dropped := m.dropped + if m.dropOn then 1 else 0 }
  | .finishPublish p => m.onPub p Pub.finish
  | .receive c => m.onSub c Sub.receive
  | .succeed c j => m.succeed c j
  | .fail c j panicked => m.fail c j panicked
  | .finish c j => (m.onSub c (Sub.finish j)).map doneInFlight
  | .cancel c => m.onSub c Sub.cancel
  | .exit c => m.onSub c Sub.exit
  | .leave c => m.leave c
  | .pop c => m.pop c
  | .discard c => (m.onSub c Sub.discard).map doneInFlight
  | .drained c => m.onSub c Sub.drained
  | .flush => some m.flush
  | .check f => m.onFlush f (check m.barrier)
  | .wake f => m.onFlush f (wake m.barrier)
  | .expire f => m.onFlush f expire
  | .close => some { m with closed := true }

end Memory
end Probectl.Bus
