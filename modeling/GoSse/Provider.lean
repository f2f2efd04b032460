import GoSse.Joe
import Mathlib.Logic.Relation

/-!
# The `Provider` methods of `Joe`, and the program they run in

`joe.go` is a protocol between goroutines: the engine (`Joe.start`), one goroutine per call of
`Publish`, `Subscribe` and `Shutdown`, and the ticker's. They meet on unbuffered channels
(`j.message`, `j.subscription`, `j.unsubscription`), on the one-slot handle of each `Subscribe`,
and on the close of `j.done` and `j.closed`. This file is that protocol:

* `Config`, `Joe.init` -- the fields `ReplayProvider` and `ReplayGCInterval`, and `init`'s
  choice of `gcFn` and of the ticker (`ticker`);
* `Answers.Valid` -- what the world may answer: every `range` meets its map's keys, each once, in
  SOME order; `noopReplayProvider` returns its message from `Put` and replays nothing;
* `Thread`, `Pc` -- a call's goroutine and where it stands in its method's body;
* `Step` -- one atomic step of the program. A `select` is one rule per case, guarded by that
  case being ready, so every choice Go's `select` may make is a step. A send of a caller that
  meets the engine's receive is ONE step that runs the engine's whole case: while it runs, the
  caller waits on the rendezvous, and nothing else the case touches is shared, except a handle's
  buffer, which its caller only reads after the case;
* `Reachable` -- the worlds a run from `World.init` reaches.

The ticker is Go's before 1.23: a one-slot channel, a tick dropped when the slot is full, and
`Stop` that sends no more ticks but leaves a waiting one where it is.

A panic the engine does not recover ends the Go program once the deferred calls ran. The model
lets the other goroutines go on after it, so it has more runs than the program: what is proved
here of every run holds of the program's, and a run that shows a fault stops at the panic.
-/

namespace GoSse

/-! ## 1. Configuration and `init` -/

/-- The replay provider a `Joe` is given: nil, and `init` then uses `noopReplayProvider`; or a
    provider, which implements `ReplayProviderWithGC` or not. -/
inductive ReplayConfig where
  | nil
  | provider (withGC : Bool)
  deriving DecidableEq, Repr

/-- The configuration fields of `Joe`. -/
structure Config where
  ReplayProvider : ReplayConfig
  ReplayGCInterval : Int
  deriving DecidableEq, Repr

namespace Config

/-- `provider, hasGC := replay.(ReplayProviderWithGC)`; `gcFn` is non-nil exactly then. -/
def hasGC (cfg : Config) : Bool := cfg.ReplayProvider = .provider true

/-- `replayGCInterval` as `init` leaves it: zero when the provider has no `GC`. -/
def replayGCInterval (cfg : Config) : Int := if cfg.hasGC then cfg.ReplayGCInterval else 0

end Config

/-- `ticker(duration)`: a running ticker when `duration` is positive; otherwise a nil channel,
    which no `select` takes, and a no-op stop. -/
def ticker (duration : Int) : Bool := decide (0 < duration)

/-- `j.init()`: the first call starts the engine and the ticker; later calls do nothing. -/
def Joe.init (cfg : Config) (j : Joe) : Joe :=
  if j.phase = .unstarted then { j with phase := .running, gcOn := ticker cfg.replayGCInterval }
  else j

/-- The ticker runs only for a provider with `GC` and a positive interval. -/
theorem ticker_replayGCInterval {cfg : Config} (h : ticker cfg.replayGCInterval = true) :
    cfg.hasGC ∧ 0 < cfg.ReplayGCInterval := by
  unfold ticker Config.replayGCInterval at h
  split at h <;> simp_all

namespace Joe

variable {cfg : Config} {j : Joe}

theorem init_of_unstarted (h : j.phase = .unstarted) :
    j.init cfg = { j with phase := .running, gcOn := ticker cfg.replayGCInterval } := by
  simp [init, h]

theorem init_of_started (h : j.phase ≠ .unstarted) : j.init cfg = j := by
  simp [init, h]

@[simp] theorem topics_init : (j.init cfg).topics = j.topics := by unfold init; split <;> rfl

@[simp] theorem handles_init : (j.init cfg).handles = j.handles := by unfold init; split <;> rfl

@[simp] theorem done_init : (j.init cfg).done = j.done := by unfold init; split <;> rfl

@[simp] theorem gcTick_init : (j.init cfg).gcTick = j.gcTick := by unfold init; split <;> rfl

@[simp] theorem log_init : (j.init cfg).log = j.log := by unfold init; split <;> rfl

end Joe

/-- The answers the world may give to the case `ev`: every `range` meets its map's keys, each
    once, in some order; and `noopReplayProvider`, the provider when `ReplayProvider` is nil,
    returns its message from `Put` and replays nothing. -/
structure Answers.Valid (cfg : Config) (ev : Event) (a : Answers) : Prop where
  order : ∀ i l, (a.order i l).Perm l
  topicOrder : ∀ l, (a.topicOrder l).Perm l
  closeOrder : ∀ i l, (a.closeOrder i l).Perm l
  put : cfg.ReplayProvider = .nil → ∀ m ts, ev = .message m ts → a.put = .returns m
  replay : cfg.ReplayProvider = .nil → a.replay = .returns none

/-- The answers of a world where every call returns nil, `Put` returns `m`, and every `range`
    meets its map's keys in the order they are listed. -/
def Answers.quiet (m : Message) : Answers where
  put := .returns m
  replay := .returns none
  gc := .returns none
  send _ := .returns none
  flush _ := .returns none
  order _ l := l
  topicOrder l := l
  closeOrder _ l := l

/-- The quiet answers are valid for any provider, `Put` returning the message published. -/
theorem Answers.valid_quiet (cfg : Config) (m : Message) {ev : Event}
    (hev : ∀ m' ts, ev = .message m' ts → m' = m) : (Answers.quiet m).Valid cfg ev :=
  ⟨fun _ _ => .refl _, fun _ => .refl _, fun _ _ => .refl _,
    fun _ m' ts he => by rw [hev m' ts he]; rfl, fun _ => rfl⟩

/-- Under a configured provider, answers whose `range`s meet the keys in the order they are
    listed are valid, whatever the calls do. -/
theorem Answers.valid_listed {cfg : Config} {ev : Event} {a : Answers}
    (hp : cfg.ReplayProvider ≠ .nil) (ho : ∀ i l, a.order i l = l) (ht : ∀ l, a.topicOrder l = l)
    (hc : ∀ i l, a.closeOrder i l = l) : a.Valid cfg ev :=
  ⟨fun i l => by rw [ho], fun l => by rw [ht], fun i l => by rw [hc], fun h => absurd h hp,
    fun h => absurd h hp⟩

/-! ## 2. The calls -/

/-- A call of one of `Joe`'s methods. -/
inductive Method where
  | Publish (msg : Message) (topics : List Topic)
  | Subscribe (sub : Subscription)
  | Shutdown
  deriving DecidableEq, Repr

/-- Where a call stands in its method's body. -/
inductive Pc where
  /-- Entered; `j.init()` is next. -/
  | start
  /-- `Publish`'s `select`. -/
  | publishing
  /-- `Subscribe`'s first `select`; its handle `done` is made. -/
  | subscribing (done : Subscriber)
  /-- `Subscribe`'s second `select`. -/
  | waiting (done : Subscriber)
  /-- `Subscribe`'s third `select`. -/
  | unsubscribing (done : Subscriber)
  /-- `Shutdown`'s `close(j.done)`. -/
  | closing
  /-- `Shutdown`'s `select` on `j.closed` and `ctx.Done()`. -/
  | draining
  | returned (r : Option Error)
  deriving DecidableEq, Repr

/-- The goroutine of one call: its method, whether its context is done, where it stands. -/
structure Thread where
  method : Method
  ctxDone : Bool
  pc : Pc
  deriving DecidableEq, Repr

/-- The program: a `Joe`, the calls made of it (call `i` is the `i`th made), the identity the
    next `make(chan error, 1)` hands out, and -- a ghost -- every case the engine took, with its
    answers. -/
structure World where
  joe : Joe
  threads : Nat → Option Thread
  spawned : Nat
  next : Subscriber
  hist : List (Event × Answers)

namespace World

/-- A `Joe{}` no method has been called on. -/
def init : World := ⟨Joe.zero, fun _ => none, 0, 0, []⟩

/-- A new call of `m`. -/
def spawn (m : Method) (w : World) : World :=
  { w with threads := Function.update w.threads w.spawned (some ⟨m, false, .start⟩),
           spawned := w.spawned + 1 }

/-- The call `i` with `t` in place of its goroutine. -/
def setThread (i : Nat) (t : Thread) (w : World) : World :=
  { w with threads := Function.update w.threads i (some t) }

/-- The joe of `w` replaced. -/
def setJoe (j : Joe) (w : World) : World := { w with joe := j }

/-- The engine's goroutine takes the case `ev` with the answers `a`. -/
def engine (cfg : Config) (a : Answers) (ev : Event) (w : World) : World :=
  { w with joe := w.joe.step cfg.hasGC a ev, hist := w.hist ++ [(ev, a)] }

variable (w : World) (i : Nat) (t : Thread)

@[simp] theorem spawn_joe (m : Method) : (w.spawn m).joe = w.joe := rfl
@[simp] theorem spawn_hist (m : Method) : (w.spawn m).hist = w.hist := rfl
@[simp] theorem spawn_next (m : Method) : (w.spawn m).next = w.next := rfl
@[simp] theorem spawn_spawned (m : Method) : (w.spawn m).spawned = w.spawned + 1 := rfl
@[simp] theorem spawn_threads (m : Method) :
    (w.spawn m).threads = Function.update w.threads w.spawned (some ⟨m, false, .start⟩) := rfl

@[simp] theorem setThread_joe : (w.setThread i t).joe = w.joe := rfl
@[simp] theorem setThread_hist : (w.setThread i t).hist = w.hist := rfl
@[simp] theorem setThread_next : (w.setThread i t).next = w.next := rfl
@[simp] theorem setThread_spawned : (w.setThread i t).spawned = w.spawned := rfl
@[simp] theorem setThread_threads :
    (w.setThread i t).threads = Function.update w.threads i (some t) := rfl

theorem setThread_self : (w.setThread i t).threads i = some t := Function.update_same _ _ _

@[simp] theorem setJoe_joe (j : Joe) : (w.setJoe j).joe = j := rfl
@[simp] theorem setJoe_hist (j : Joe) : (w.setJoe j).hist = w.hist := rfl
@[simp] theorem setJoe_next (j : Joe) : (w.setJoe j).next = w.next := rfl
@[simp] theorem setJoe_spawned (j : Joe) : (w.setJoe j).spawned = w.spawned := rfl
@[simp] theorem setJoe_threads (j : Joe) : (w.setJoe j).threads = w.threads := rfl

variable (cfg : Config) (a : Answers) (ev : Event)

@[simp] theorem engine_joe : (w.engine cfg a ev).joe = w.joe.step cfg.hasGC a ev := rfl
@[simp] theorem engine_hist : (w.engine cfg a ev).hist = w.hist ++ [(ev, a)] := rfl
@[simp] theorem engine_next : (w.engine cfg a ev).next = w.next := rfl
@[simp] theorem engine_spawned : (w.engine cfg a ev).spawned = w.spawned := rfl
@[simp] theorem engine_threads : (w.engine cfg a ev).threads = w.threads := rfl

end World

/-! ## 3. The steps of the program -/

/-- One atomic step of the program (see the header for the grain). `t` is always the call's
    goroutine before the step. -/
inductive Step (cfg : Config) : World → World → Prop
  /-- A new call of `Publish`, `Subscribe` or `Shutdown`. -/
  | spawn (w : World) (m : Method) : Step cfg w (w.spawn m)
  /-- The context of call `i` is done: cancelled, or past its deadline. -/
  | cancel {w : World} {i : Nat} {t : Thread} (ht : w.threads i = some t) :
      Step cfg w (w.setThread i { t with ctxDone := true })
  /-- The ticker sends a tick into `gcSignal`; a full slot drops it. -/
  | tick {w : World} (hon : w.joe.gcOn = true) :
      Step cfg w (w.setJoe { w.joe with gcTick := true })
  /-- `Publish`: `if len(topics) == 0 { return ErrNoTopic }`. -/
  | publishNoTopic {w : World} {i : Nat} {t : Thread} {msg : Message}
      (ht : w.threads i = some t) (hm : t.method = .Publish msg []) (hpc : t.pc = .start) :
      Step cfg w (w.setThread i { t with pc := .returned (some .noTopic) })
  /-- `Publish`: `j.init()`. -/
  | publishInit {w : World} {i : Nat} {t : Thread} {msg : Message} {topics : List Topic}
      (ht : w.threads i = some t) (hm : t.method = .Publish msg topics) (hpc : t.pc = .start)
      (hne : topics ≠ []) :
      Step cfg w ((w.setJoe (w.joe.init cfg)).setThread i { t with pc := .publishing })
  /-- `Publish`: `case j.message <- ...: return nil`, the engine running the publish case. -/
  | publishSend {w : World} {i : Nat} {t : Thread} {msg : Message} {topics : List Topic}
      {a : Answers} (ht : w.threads i = some t) (hm : t.method = .Publish msg topics)
      (hpc : t.pc = .publishing) (hr : w.joe.phase = .running)
      (ha : a.Valid cfg (.message msg topics)) :
      Step cfg w ((w.engine cfg a (.message msg topics)).setThread i
        { t with pc := .returned none })
  /-- `Publish`: `case <-j.done: return ErrProviderClosed`. -/
  | publishClosed {w : World} {i : Nat} {t : Thread} {msg : Message} {topics : List Topic}
      (ht : w.threads i = some t) (hm : t.method = .Publish msg topics)
      (hpc : t.pc = .publishing) (hd : w.joe.done = true) :
      Step cfg w (w.setThread i { t with pc := .returned (some .providerClosed) })
  /-- `Subscribe`: `j.init()`, then `done := make(chan error, 1)`. -/
  | subscribeInit {w : World} {i : Nat} {t : Thread} {sub : Subscription}
      (ht : w.threads i = some t) (hm : t.method = .Subscribe sub) (hpc : t.pc = .start) :
      Step cfg w ({ (w.setJoe (w.joe.init cfg)).setThread i { t with pc := .subscribing w.next }
        with next := w.next + 1 })
  /-- `Subscribe`: `case <-j.done: return ErrProviderClosed`. -/
  | subscribeClosed {w : World} {i : Nat} {t : Thread} {sub : Subscription} {h : Subscriber}
      (ht : w.threads i = some t) (hm : t.method = .Subscribe sub) (hpc : t.pc = .subscribing h)
      (hd : w.joe.done = true) :
      Step cfg w (w.setThread i { t with pc := .returned (some .providerClosed) })
  /-- `Subscribe`: `case j.subscription <- ...`, the engine running the subscribe case. -/
  | subscribeSend {w : World} {i : Nat} {t : Thread} {sub : Subscription} {h : Subscriber}
      {a : Answers} (ht : w.threads i = some t) (hm : t.method = .Subscribe sub)
      (hpc : t.pc = .subscribing h) (hr : w.joe.phase = .running)
      (ha : a.Valid cfg (.subscription h sub)) :
      Step cfg w ((w.engine cfg a (.subscription h sub)).setThread i { t with pc := .waiting h })
  /-- `Subscribe`: `case err := <-done: return err`, in its second or third `select`. -/
  | subscribeRecv {w : World} {i : Nat} {t : Thread} {sub : Subscription} {h : Subscriber}
      {r : Option Error} {ch : Chan Error} (ht : w.threads i = some t)
      (hm : t.method = .Subscribe sub) (hpc : t.pc = .waiting h ∨ t.pc = .unsubscribing h)
      (hrecv : (w.joe.handles h).recv? = some (r, ch)) :
      Step cfg w ((w.setJoe { w.joe with handles := Function.update w.joe.handles h ch }).setThread
        i { t with pc := .returned r })
  /-- `Subscribe`: `case <-ctx.Done():`, on to the third `select`. -/
  | subscribeCancel {w : World} {i : Nat} {t : Thread} {sub : Subscription} {h : Subscriber}
      (ht : w.threads i = some t) (hm : t.method = .Subscribe sub) (hpc : t.pc = .waiting h)
      (hc : t.ctxDone = true) :
      Step cfg w (w.setThread i { t with pc := .unsubscribing h })
  /-- `Subscribe`: `case j.unsubscription <- done: return nil`, the engine running the
      unsubscription case. -/
  | unsubscribeSend {w : World} {i : Nat} {t : Thread} {sub : Subscription} {h : Subscriber}
      {a : Answers} (ht : w.threads i = some t) (hm : t.method = .Subscribe sub)
      (hpc : t.pc = .unsubscribing h) (hr : w.joe.phase = .running)
      (ha : a.Valid cfg (.unsubscription h)) :
      Step cfg w ((w.engine cfg a (.unsubscription h)).setThread i { t with pc := .returned none })
  /-- `Shutdown`: `j.init()`. -/
  | shutdownInit {w : World} {i : Nat} {t : Thread} (ht : w.threads i = some t)
      (hm : t.method = .Shutdown) (hpc : t.pc = .start) :
      Step cfg w ((w.setJoe (w.joe.init cfg)).setThread i { t with pc := .closing })
  /-- `Shutdown`: `close(j.done)`. -/
  | shutdownClose {w : World} {i : Nat} {t : Thread} (ht : w.threads i = some t)
      (hm : t.method = .Shutdown) (hpc : t.pc = .closing) (hd : w.joe.done = false) :
      Step cfg w ((w.setJoe { w.joe with done := true }).setThread i { t with pc := .draining })
  /-- `Shutdown`: `close(j.done)` of a closed channel panics, and the deferred `recover` returns
      `ErrProviderClosed`. -/
  | shutdownRecover {w : World} {i : Nat} {t : Thread} (ht : w.threads i = some t)
      (hm : t.method = .Shutdown) (hpc : t.pc = .closing) (hd : w.joe.done = true) :
      Step cfg w (w.setThread i { t with pc := .returned (some .providerClosed) })
  /-- `Shutdown`: `case <-j.closed:`, nil. -/
  | shutdownClosed {w : World} {i : Nat} {t : Thread} {f : Option Fault}
      (ht : w.threads i = some t) (hm : t.method = .Shutdown) (hpc : t.pc = .draining)
      (hx : w.joe.phase = .exited f) :
      Step cfg w (w.setThread i { t with pc := .returned none })
  /-- `Shutdown`: `case <-ctx.Done(): err = ctx.Err()`. -/
  | shutdownCtx {w : World} {i : Nat} {t : Thread} (ht : w.threads i = some t)
      (hm : t.method = .Shutdown) (hpc : t.pc = .draining) (hc : t.ctxDone = true) :
      Step cfg w (w.setThread i { t with pc := .returned (some .contextDone) })
  /-- The engine: `case <-gcSignal:`, up to the call of `gcFn`. -/
  | gcSignal {w : World} {a : Answers} (hr : w.joe.phase = .running) (htk : w.joe.gcTick = true)
      (ha : a.Valid cfg .gcSignal) : Step cfg w (w.engine cfg a .gcSignal)
  /-- The engine: `gcFn` returns. -/
  | collected {w : World} {a : Answers} (hc : w.joe.phase = .collecting)
      (ha : a.Valid cfg .collected) : Step cfg w (w.engine cfg a .collected)
  /-- The engine: `case <-j.done: return`. -/
  | stop {w : World} {a : Answers} (hr : w.joe.phase = .running) (hd : w.joe.done = true)
      (ha : a.Valid cfg .done) : Step cfg w (w.engine cfg a .done)

/-- The worlds a run of the program reaches. -/
def Reachable (cfg : Config) (w : World) : Prop := Relation.ReflTransGen (Step cfg) World.init w

end GoSse
