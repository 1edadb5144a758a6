import PortfolioHub.LivePositions
import PortfolioHub.Transition

namespace PortfolioHub

inductive SseEvent where
  | snapshot (data : String)
  | positions (data : String)
  | heartbeat
deriving DecidableEq, Repr

/-- Where a client's generator is suspended. -/
inductive Phase where
  /-- At a `yield`; `captured` is what `last_hashes` holds once it is resumed. -/
  | yielded (event : SseEvent) (captured : OrderedDict PositionKey String)
  /-- In `self._changed.wait()`, the event clear. -/
  | waiting
  /-- The event has been set and the task is scheduled, but has not run yet. -/
  | woken
  /-- In the sleep of the throttle. -/
  | throttled
deriving DecidableEq, Repr

structure Client where
  lastHashes : OrderedDict PositionKey String
  lastEmit : ℚ
  phase : Phase
deriving DecidableEq, Repr

/-- The arguments of `stream_events` besides the store. -/
structure StreamConfig where
  renderRows : List Position → Except Python.Error String
  minInterval : ℚ

/-- One store and the clients that stream it. -/
structure StreamState where
  live : LivePositions
  clients : OrderedDict ℕ Client

inductive StreamStep where
  | mutate (m : Mutation)
  | connect (client : ℕ)
  /-- The consumer asks for the next event, or the woken task runs; `emitted` and
  `now` are the two readings of the clock. -/
  | resume (client : ℕ) (emitted now : ℚ)
  | slept (client : ℕ) (now : ℚ)
  /-- `heartbeat_interval` runs out. -/
  | timeout (client : ℕ)
  | close (client : ℕ)
deriving DecidableEq, Repr

/-- `new_hashes != last_hashes`. -/
def hasNews (live : LivePositions) (c : Client) : Prop := ¬ live.hashes.Same c.lastHashes

instance (live : LivePositions) (c : Client) : Decidable (hasNews live c) :=
  inferInstanceAs (Decidable (¬ _))

/-- The yield of a delta; a renderer that raises ends the generator. -/
def emitPositions (config : StreamConfig) (live : LivePositions) (c : Client) : Option Client :=
  match config.renderRows live.getAll with
  | .ok data => some { c with phase := .yielded (.positions data) live.hashes }
  | .error _ => none

/-- Behind a wait that has cleared the event: the throttle, then the comparison. -/
def afterWait (config : StreamConfig) (now : ℚ) (live : LivePositions) (c : Client) :
    Option Client :=
  if now - c.lastEmit < config.minInterval then some { c with phase := .throttled }
  else if hasNews live c then emitPositions config live c
  else some { c with phase := .waiting }

/-- The head of the loop: `wait()` returns at once when the event is set. -/
def loopHead (config : StreamConfig) (now : ℚ) (live : LivePositions) (c : Client) :
    LivePositions × Option Client :=
  if live.changed then (live.clear, afterWait config now live.clear c)
  else (live, some { c with phase := .waiting })

def afterSleep (config : StreamConfig) (now : ℚ) (live : LivePositions) (c : Client) :
    LivePositions × Option Client :=
  if hasNews live c then (live, emitPositions config live c) else loopHead config now live c

/-- Behind a yield the hashes and, except for a heartbeat, the time of the emit are kept. -/
def afterYield (config : StreamConfig) (emitted now : ℚ) (live : LivePositions) (c : Client)
    (event : SseEvent) (captured : OrderedDict PositionKey String) :
    LivePositions × Option Client :=
  loopHead config now live
    { c with
      lastHashes := captured
      lastEmit := if event = .heartbeat then c.lastEmit else emitted }

/-- `Event.set()` completes the future of every waiter. -/
def wake (c : Client) : Client := if c.phase = .waiting then { c with phase := .woken } else c

namespace StreamState

/-- The client's entry after its turn; a generator that has ended is gone. -/
def settle (s : StreamState) (client : ℕ) (r : LivePositions × Option Client) : StreamState :=
  match r.2 with
  | some c => ⟨r.1, s.clients.insert client c⟩
  | none => ⟨r.1, s.clients.filterKeys (· ≠ client)⟩

def mutate (s : StreamState) (m : Mutation) : StreamState :=
  let live := s.live.apply m
  if live.changed ∧ ¬ s.live.changed then ⟨live, s.clients.mapValues wake⟩ else ⟨live, s.clients⟩

def connect (config : StreamConfig) (s : StreamState) (client : ℕ) : StreamState :=
  match config.renderRows s.live.getAll with
  | .ok data =>
    ⟨s.live, s.clients.insert client
      ⟨s.live.hashes, 0, .yielded (.snapshot data) s.live.hashes⟩⟩
  | .error _ => s

/-- One step of the event loop; `none` where the step cannot happen. -/
def step (config : StreamConfig) (s : StreamState) : StreamStep → Option StreamState
  | .mutate m => some (s.mutate m)
  | .connect client =>
    match s.clients.get? client with
    | some _ => none
    | none => some (s.connect config client)
  | .resume client emitted now =>
    match s.clients.get? client with
    | some c =>
      match c.phase with
      | .yielded event captured =>
        some (s.settle client (afterYield config emitted now s.live c event captured))
      | .woken =>
        some (s.settle client (s.live.clear, afterWait config now s.live.clear c))
      | _ => none
    | none => none
  | .slept client now =>
    match s.clients.get? client with
    | some c =>
      if c.phase = .throttled then some (s.settle client (afterSleep config now s.live c)) else none
    | none => none
  | .timeout client =>
    match s.clients.get? client with
    | some c =>
      if c.phase = .waiting ∨ c.phase = .woken then
        some (s.settle client (s.live, some { c with phase := .yielded .heartbeat c.lastHashes }))
      else none
    | none => none
  | .close client => some ⟨s.live, s.clients.filterKeys (· ≠ client)⟩

end StreamState

end PortfolioHub
