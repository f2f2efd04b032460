import GoSse.Runtime

/-!
# `Joe.start`: the engine loop of `joe.go`, case by case

The state of a running `Joe` (`Joe`) and one function per case of the loop's `select`, written
as `joe.go` writes them:

* `publish` -- `case msg := <-j.message`: `Put`, then the two nested `range`s with their `seen`
  set (`rangeTopics`, `rangeTopic`, `dispatch`); a failed sink gets its error and leaves
  (`removeSubscriber`);
* `subscribe` -- `case sub := <-j.subscription`: `Replay`, then either the error on the handle and
  its close, or the handle written under every topic (`register`, that is `j.topic(t)[done] = c`);
* `removeSubscriber` -- `case sub := <-j.unsubscription`;
* `gcSignal`, `collected` -- `case <-gcSignal`, cut at the call of `gcFn`: the ticker's goroutine
  runs while `gcFn` does, and that is where a tick can arrive;
* `deferred` -- the three deferred calls (`stopGCSignal`, `closeSubscribers`, `close(j.closed)`),
  run when a case returns or panics (`step`).

What the engine cannot decide itself -- what `Put`, `Replay`, `GC`, `Send` and `Flush` do, and the
order of every `range` over a map -- comes in an `Answers` record, one per case. A panic is not
an exception of the model: the case stops where it panicked, keeping every write it made before,
and `step` runs the deferred calls on that state, as Go unwinds.

One field is a ghost, not in `joe.go`: `log`, the calls into code `Joe` does not own, in order.
-/

namespace GoSse

/-! ## 1. The values the engine moves -/

/-- A topic identifier; `DefaultTopic` is `""`. -/
abbrev Topic := String

/-- A `subscriber` (`chan<- error`), by the identity of the channel one `Subscribe` call makes. -/
abbrev Subscriber := Nat

/-- A `MessageWriter`, by identity: the engine never looks inside a sink. -/
abbrev MessageWriter := Nat

/-- A `*Message`, by identity: the engine never looks inside a message. -/
abbrev Message := Nat

/-- The `error` values that reach a caller: the two sentinels, a context's `ctx.Err()`, and any
    error a sink, `Replay` or `GC` returns. A nil `error` is `none`. -/
inductive Error where
  | providerClosed
  | noTopic
  | contextDone
  | other (n : Nat)
  deriving DecidableEq, Repr

/-- A `Subscription`, with the fields the engine reads. -/
structure Subscription where
  Client : MessageWriter
  Topics : List Topic
  deriving DecidableEq, Repr

/-- `subscribers`: handle to sink. -/
abbrev Subscribers := GoMap Subscriber MessageWriter

/-- The type of `j.topics`: topic to `subscribers`. -/
abbrev Topics := GoMap Topic Subscribers

/-- The keys a `range` over `j.topics[topic]` meets: none for a missing topic, a nil map. -/
def subsKeys (tbl : Topics) (topic : Topic) : List Subscriber :=
  ((tbl.get topic).map (·.keys)).getD []

/-- The sink of `done` under `topic`, if `done` is registered there. -/
def entry (tbl : Topics) (topic : Topic) (done : Subscriber) : Option MessageWriter :=
  (tbl.get topic).bind (·.get done)

@[simp] theorem entry_mapVal_delete (tbl : Topics) (t : Topic) (h h' : Subscriber) :
    entry (tbl.mapVal (·.delete h)) t h' = if h' = h then none else entry tbl t h' := by
  unfold entry
  rw [GoMap.get_mapVal]
  cases tbl.get t <;> by_cases e : h' = h <;> simp [e]

theorem subsKeys_nodup (tbl : Topics) (t : Topic) : (subsKeys tbl t).Nodup := by
  unfold subsKeys
  cases tbl.get t
  · exact List.nodup_nil
  · exact GoMap.nodup _

theorem mem_subsKeys {tbl : Topics} {t : Topic} {h : Subscriber} :
    h ∈ subsKeys tbl t ↔ (entry tbl t h).isSome := by
  unfold subsKeys entry
  cases tbl.get t <;> simp [GoMap.mem_keys]

/-! ## 2. What a case is given, and what it records -/

/-- The case the loop's `select` takes, or -- `collected` -- the return of the `gcFn` call a
    tick started. -/
inductive Event where
  | message (m : Message) (topics : List Topic)
  | subscription (done : Subscriber) (s : Subscription)
  | unsubscription (done : Subscriber)
  | gcSignal
  | collected
  | done
  deriving DecidableEq, Repr

/-- What the world answers to the calls of one case: `Put`, `Replay`, `GC`; each sink's `Send`
    and `Flush`, by handle (a handle meets at most one of each per case); and the order of every
    `range` over a map: the `i`th topic's map in a publish case (`order i`), and `j.topics` and
    its `i`th map in `closeSubscribers` (`topicOrder`, `closeOrder i`). -/
structure Answers where
  put : Outcome Message
  replay : Outcome (Option Error)
  gc : Outcome (Option Error)
  send : Subscriber → Outcome (Option Error)
  flush : Subscriber → Outcome (Option Error)
  order : Nat → List Subscriber → List Subscriber
  topicOrder : List Topic → List Topic
  closeOrder : Nat → List Subscriber → List Subscriber

/-- A call the loop makes into code it does not own, as the ghost `log` records it. -/
inductive Call where
  | put (m : Message) (topics : List Topic)
  | replay (done : Subscriber)
  | send (done : Subscriber) (c : MessageWriter) (m : Message)
  | flush (done : Subscriber) (c : MessageWriter)
  | gc
  deriving DecidableEq, Repr

/-- Why the loop panicked. -/
inductive Fault where
  /-- A panic out of `Put`, `Replay`, `GC`, `Send` or `Flush`. -/
  | panic
  | closeOfClosed
  | sendOnClosed
  /-- A call of the nil `gcFn`. -/
  | nilGC
  deriving DecidableEq, Repr

/-- Where the engine's goroutine stands. -/
inductive Phase where
  /-- `j.init()` has not run: there is no engine yet. -/
  | unstarted
  /-- At the loop's `select`, or inside the case it took. -/
  | running
  /-- Inside the `gcFn` call a tick started. -/
  | collecting
  /-- `return` (`none`) or a panic: the deferred calls run next. -/
  | leaving (f : Option Fault)
  /-- Parked on `done <- err` into a full buffer, for good. -/
  | blocked
  /-- The deferred calls ran: `j.closed` is closed. -/
  | exited (f : Option Fault)
  deriving DecidableEq, Repr

/-- The state of a `Joe` the engine reads and writes: its table, the handles it holds (the
    channels the `Subscribe` calls made, by identity), `j.done`, the ticker, and its goroutine. -/
structure Joe where
  topics : Topics
  handles : Subscriber → Chan Error
  /-- `j.done` is closed. -/
  done : Bool
  /-- The ticker runs: `stopGCSignal` has not been called. -/
  gcOn : Bool
  /-- A tick waits in `gcSignal`'s one-slot buffer. -/
  gcTick : Bool
  phase : Phase
  log : List Call

namespace Joe

/-- A `Joe{}` before `j.init()`; no handle has been made. -/
def zero : Joe where
  topics := ∅
  handles _ := .make
  done := false
  gcOn := false
  gcTick := false
  phase := .unstarted
  log := []

/-! ## 3. The pieces of a case -/

/-- A panic: the case stops here, keeping what it wrote. -/
def unwind (f : Fault) (j : Joe) : Joe := { j with phase := .leaving (some f) }

/-- A call into code `Joe` does not own, recorded. -/
def call (c : Call) (j : Joe) : Joe := { j with log := j.log ++ [c] }

/-- `close(h)`. -/
def close (h : Subscriber) (j : Joe) : Joe :=
  match (j.handles h).close with
  | .done ch => { j with handles := Function.update j.handles h ch }
  | _ => j.unwind .closeOfClosed

/-- `h <- err`, then `k`. -/
def sendErr (h : Subscriber) (err : Error) (k : Joe → Joe) (j : Joe) : Joe :=
  match (j.handles h).send err with
  | .done ch => k { j with handles := Function.update j.handles h ch }
  | .waits => { j with phase := .blocked }
  | .panics => j.unwind .sendOnClosed

/-- `j.removeSubscriber(sub)`: out of every topic's map, then `close(sub)`. -/
def removeSubscriber (sub : Subscriber) (j : Joe) : Joe :=
  close sub { j with topics := j.topics.mapVal (·.delete sub) }

/-- `j.topic(t)[done] = c`: `topic` puts an empty map under a missing topic and returns the map,
    which Go holds by reference, so the write lands in the table. -/
def register (tbl : Topics) (t : Topic) (done : Subscriber) (c : MessageWriter) : Topics :=
  tbl.set t (((tbl.get t).getD ∅).set done c)

/-- `err := c.Send(m); if err == nil { err = c.Flush() }`. -/
def sendFlush (a : Answers) (done : Subscriber) (c : MessageWriter) (m : Message) (j : Joe) :
    Joe × Outcome (Option Error) :=
  let j := j.call (.send done c m)
  match a.send done with
  | .returns none => (j.call (.flush done c), a.flush done)
  | r => (j, r)

/-- The body of the inner `range` of the publish case, at the key `done` of `j.topics[topic]`.
    A key deleted since the range began is not produced. -/
def dispatch (a : Answers) (m : Message) (topic : Topic) :
    Joe × List Subscriber → Subscriber → Joe × List Subscriber
  | (j, seen), done =>
    if done ∈ seen then (j, seen)
    else match entry j.topics topic done with
      | none => (j, seen)
      | some c =>
        match sendFlush a done c m j with
        | (j, .returns none) => (j, done :: seen)
        | (j, .returns (some err)) => (j.sendErr done err (removeSubscriber done), seen)
        | (j, .panics) => (j.unwind .panic, seen)

/-- `for done, c := range j.topics[topic] { ... }`, over the keys `keys` in that order; a panic
    ends it. -/
def rangeTopic (a : Answers) (m : Message) (topic : Topic) :
    List Subscriber → Joe × List Subscriber → Joe × List Subscriber
  | [], st => st
  | done :: keys, st =>
    if st.1.phase = .running then rangeTopic a m topic keys (dispatch a m topic st done) else st

/-- `for _, topic := range msg.topics { ... }`, the `i`th topic's map ranged in the order
    `a.order i`. -/
def rangeTopics (a : Answers) (m : Message) :
    Nat → List Topic → Joe × List Subscriber → Joe × List Subscriber
  | _, [], st => st
  | i, topic :: topics, st =>
    rangeTopics a m (i + 1) topics
      (rangeTopic a m topic (a.order i (subsKeys st.1.topics topic)) st)

/-- `case msg := <-j.message`. -/
def publish (a : Answers) (m : Message) (topics : List Topic) (j : Joe) : Joe :=
  let j := j.call (.put m topics)
  match a.put with
  | .returns toDispatch => (rangeTopics a toDispatch 0 topics (j, [])).1
  | .panics => j.unwind .panic

/-- `case sub := <-j.subscription`. -/
def subscribe (a : Answers) (done : Subscriber) (s : Subscription) (j : Joe) : Joe :=
  let j := j.call (.replay done)
  match a.replay with
  | .returns none => { j with topics := s.Topics.foldl (fun tbl t => register tbl t done s.Client) j.topics }
  | .returns (some err) => j.sendErr done err (close done)
  | .panics => j.unwind .panic

/-- `case <-gcSignal`, up to the call of `gcFn` (`gcFn` tells whether it is non-nil): the tick
    leaves the ticker's buffer. -/
def gcSignal (gcFn : Bool) (j : Joe) : Joe :=
  let j := { j with gcTick := false }
  if gcFn then { j.call .gc with phase := .collecting } else j.unwind .nilGC

/-- `if err := gcFn(); err != nil { stopGCSignal() }`, once `gcFn` returns. -/
def collected (a : Answers) (j : Joe) : Joe :=
  match a.gc with
  | .returns none => { j with phase := .running }
  | .returns (some _) => { j with gcOn := false, phase := .running }
  | .panics => j.unwind .panic

/-- The keys `closeSubscribers` meets, in order: `j.topics` ranged in `a.topicOrder`, its `i`th
    map in `a.closeOrder i`. The loop writes no map, so the nested ranges read as one list. -/
def closeKeys (a : Answers) (tbl : Topics) : Nat → List Topic → List Subscriber
  | _, [] => []
  | i, t :: ts => a.closeOrder i (subsKeys tbl t) ++ closeKeys a tbl (i + 1) ts

/-- The body of `closeSubscribers` over the keys `keys`, with its `seen` set: the handles after,
    and `false` if a `close` panicked, which ends it. -/
def closeEach : List Subscriber → List Subscriber → (Subscriber → Chan Error) →
    (Subscriber → Chan Error) × Bool
  | [], _, hs => (hs, true)
  | sub :: keys, seen, hs =>
    if sub ∈ seen then closeEach keys seen hs
    else match (hs sub).close with
      | .done ch => closeEach keys (sub :: seen) (Function.update hs sub ch)
      | _ => (hs, false)

/-- `j.closeSubscribers()`. -/
def closeSubscribers (a : Answers) (j : Joe) : (Subscriber → Chan Error) × Bool :=
  closeEach (closeKeys a j.topics 0 (a.topicOrder j.topics.keys)) [] j.handles

/-- The deferred calls, last deferred first: `stopGCSignal()`, `j.closeSubscribers()`,
    `close(j.closed)`. A panic in `closeSubscribers` still lets `close(j.closed)` run. -/
def deferred (a : Answers) (f : Option Fault) (j : Joe) : Joe :=
  let r := closeSubscribers a j
  { j with gcOn := false, handles := r.1,
           phase := .exited (if r.2 then f else some .closeOfClosed) }

/-- The case `ev` of the loop, up to its `continue`, its end, its `return` or a panic. -/
def case (gcFn : Bool) (a : Answers) : Event → Joe → Joe
  | .message m topics => publish a m topics
  | .subscription done s => subscribe a done s
  | .unsubscription done => removeSubscriber done
  | .gcSignal => gcSignal gcFn
  | .collected => collected a
  | .done => fun j => { j with phase := .leaving none }

/-- The deferred calls, if the case left the loop. -/
def finish (a : Answers) (j : Joe) : Joe :=
  match j.phase with
  | .leaving f => deferred a f j
  | _ => j

/-- One step of the engine's goroutine: the case `ev`, then the deferred calls if it left the
    loop. -/
def step (gcFn : Bool) (a : Answers) (ev : Event) (j : Joe) : Joe :=
  finish a (case gcFn a ev j)

end Joe

end GoSse
