import GoSse.Collect
import GoSse.Errors

/-!
# What the calls return, and that they can

`Publish`, `Subscribe` and `Shutdown` wait on the engine in `select`s: `Publish` until the engine
takes its message or `j.done` is closed; `Subscribe` until the engine takes its request or
`j.done` is closed, then until its handle can be received from or, once its context is done,
the engine takes its unsubscription; `Shutdown` until the loop has exited and closed `j.closed`.
Over every reachable world:

* `CallInv` -- each call stands at a place of its method's body; no call is past `j.init()`
  before the engine started (a `Publish` with no topic returns before it); the loop returned
  without a panic only once `j.done` was closed; a `Subscribe` past its first `select` holds the
  handle of its own request; a `Replay` that panicked left the engine exited from a panic; and
  each `Publish` did what `PublishDid` says;
* `publish_returns` -- a `Publish` call returns `ErrNoTopic` exactly when it has no topic, nil
  only once the engine took its message, `ErrProviderClosed` only once `j.done` is closed;
* `publish_can_return` -- a `Publish` call can always return, unless the engine panicked (which,
  unrecovered, ends the Go program);
* `subscribe_can_return` -- so can a `Subscribe` call for a subscription with a topic, its
  context cancelled if need be: once the engine exited, the handle of such a request is closed;
* `shutdown_can_return` -- a `Shutdown` call can always return without its context done,
  whatever the engine did (`CanShutDown`): a second `close(j.done)` returns `ErrProviderClosed`,
  and after the first the loop, at its `select` or in `GC`, can always take its
  `case <-j.done`, run its deferred calls and close `j.closed`.

The last three say that a run exists -- the engine's steps, with every call into the provider
returning nil -- in which the call returns: no interleaving leaves it stuck for good. The topic is
needed: `stuck_never_returns` -- once the engine exited, a `Subscribe` on an open, empty handle
never returns; `no_topic_subscribe_never_returns` is a run in which a request with no topic,
taken by the engine, has its context cancelled only after a `Shutdown` returned, and is left so.
-/
namespace GoSse

/-- The places of its method's body a call stands at. -/
def Thread.Fits (t : Thread) : Prop :=
  match t.method, t.pc with
  | _, .start | _, .returned _ => True
  | .Publish _ _, .publishing => True
  | .Subscribe _, .subscribing _ | .Subscribe _, .waiting _ | .Subscribe _, .unsubscribing _ => True
  | .Shutdown, .closing | .Shutdown, .draining => True
  | _, _ => False

/-- A `Subscribe` past its first `select` holds the handle of its own request: the engine took
    the subscription `sub` on it. -/
def Thread.Own (hist : List (Event × Answers)) (t : Thread) : Prop :=
  ∀ sub h, t.method = .Subscribe sub → (t.pc = .waiting h ∨ t.pc = .unsubscribing h) →
    ∃ a, (Event.subscription h sub, a) ∈ hist

/-- What a `Publish` of `msg` to `ts` standing at `pc` has done: past `j.init()` it has a topic;
    it returned `ErrNoTopic` for no topic, nil once the engine took its message, and
    `ErrProviderClosed` once `j.done` was closed, and nothing else. -/
def PublishDid (hist : List (Event × Answers)) (done : Bool) (msg : Message) (ts : List Topic) :
    Pc → Prop
  | .start => True
  | .publishing => ts ≠ []
  | .returned none => ts ≠ [] ∧ ∃ a, (Event.message msg ts, a) ∈ hist
  | .returned (some .noTopic) => ts = []
  | .returned (some .providerClosed) => ts ≠ [] ∧ done = true
  | _ => False

/-- A `Publish` call has done what `PublishDid` says. -/
def Thread.PubDid (hist : List (Event × Answers)) (done : Bool) (t : Thread) : Prop :=
  ∀ msg ts, t.method = .Publish msg ts → PublishDid hist done msg ts t.pc

/-- **The calls and the engine.** -/
structure CallInv (w : World) : Prop where
  fits : ∀ i t, w.threads i = some t → t.Fits
  start : w.joe.phase = .unstarted → ∀ i t, w.threads i = some t →
    t.pc = .start ∨ t.pc = .returned (some .noTopic)
  done : w.joe.phase = .exited none → w.joe.done = true
  own : ∀ i t, w.threads i = some t → t.Own w.hist
  replay : ∀ h s a, (Event.subscription h s, a) ∈ w.hist → a.replay = .panics →
    ∃ f, w.joe.phase = .exited (some f)
  publish : ∀ i t, w.threads i = some t → t.PubDid w.hist w.joe.done

variable {cfg : Config} {w w' : World}

/-! ## 1. The loop returns without a panic only from `case <-j.done` -/

namespace Joe

variable {a : Answers} {j : Joe} {gcFn : Bool} {ev : Event}

/-- A case other than `case <-j.done` ends back in the loop, or unwinding from a panic. -/
theorem case_of_ne_done (hto : TableOpen j)
    (hr : j.phase = .running ∨ (j.phase = .collecting ∧ ev = .collected))
    (hm : ∀ x s, ev = .subscription x s → j.handles x = .make) (hev : ev ≠ .done) :
    (case gcFn a ev j).phase.inLoop ∨ ∃ f, (case gcFn a ev j).phase = .leaving (some f) := by
  have hrun : ev ≠ .collected → j.phase = .running := fun hne =>
    hr.resolve_right fun ⟨_, he⟩ => hne he
  have hback : ∀ {p : Phase}, p = j.phase ∨ (∃ f, p = .leaving (some f)) →
      p.inLoop ∨ ∃ f, p = .leaving (some f) := fun hp => by
    rcases hp with rfl | hp
    · rcases hr with hr | ⟨hr, -⟩ <;> rw [hr] <;> exact .inl rfl
    · exact .inr hp
  cases ev with
  | message m ts =>
    have hpub : TableOpen (publish a m ts j) ∧ _ := publish_open ts hto (hrun nofun)
    rcases hpub.2 with hp | ⟨hp, -⟩
    · exact .inl (by simp only [case, hp]; rfl)
    · exact .inr ⟨_, hp⟩
  | subscription x s => exact hback ((subscribe_phase (hm x s rfl)).imp_right fun hp => ⟨_, hp⟩)
  | unsubscription x => exact hback (removeSubscriber_phase.imp_right fun hp => ⟨_, hp⟩)
  | gcSignal =>
    simp only [case, gcSignal]
    split
    · exact .inl rfl
    · exact .inr ⟨_, rfl⟩
  | collected =>
    simp only [case, collected]
    split
    · exact .inl rfl
    · exact .inl rfl
    · exact .inr ⟨_, rfl⟩
  | done => exact absurd rfl hev

/-- **The loop exits without a panic only from `case <-j.done`.** -/
theorem step_ne_exited_none (hto : TableOpen j)
    (hr : j.phase = .running ∨ (j.phase = .collecting ∧ ev = .collected))
    (hm : ∀ x s, ev = .subscription x s → j.handles x = .make) (hev : ev ≠ .done) :
    (j.step gcFn a ev).phase ≠ .exited none := by
  have hc : (case gcFn a ev j).phase.inLoop ∨ ∃ f, (case gcFn a ev j).phase = .leaving (some f) :=
    case_of_ne_done hto hr hm hev
  unfold step finish
  split
  · rename_i f hf
    rcases hc with hl | ⟨f', hf'⟩
    · rw [hf] at hl; cases hl
    · rw [hf] at hf'
      cases hf'
      simp only [deferred]
      split <;> nofun
  · rcases hc with hl | ⟨f', hf'⟩
    · intro hx; rw [hx] at hl; cases hl
    · intro hx; rw [hx] at hf'; cases hf'

/-- A `Replay` that panics ends the loop from a panic. -/
theorem step_replay_panics (hr : a.replay = .panics) {x : Subscriber} {s : Subscription} :
    ∃ f, (j.step gcFn a (.subscription x s)).phase = .exited (some f) := by
  simp only [step, case, subscribe_of_panics hr, finish, unwind, deferred]
  split <;> exact ⟨_, rfl⟩

/-- A subscribe case whose `Replay` returns nil is back at the `select`. -/
theorem step_quiet_subscription (hr : j.phase = .running) {m : Message} {x : Subscriber}
    {s : Subscription} : (j.step gcFn (Answers.quiet m) (.subscription x s)).phase = .running := by
  simp only [step, case, subscribe_of_nil (rfl : (Answers.quiet m).replay = _), finish, call, hr]

end Joe

/-! ## 2. The calls and the engine, over every run -/

theorem Thread.fits_start (m : Method) (c : Bool) : (⟨m, c, .start⟩ : Thread).Fits := by
  cases m <;> trivial

theorem Thread.fits_returned (t : Thread) (r : Option Error) : { t with pc := .returned r }.Fits := by
  cases t.method <;> trivial

/-- A call at a place that holds no handle past the first `select`. -/
theorem Thread.own_of_pc {t : Thread} (hist : List (Event × Answers))
    (hpc : ∀ h, t.pc ≠ .waiting h ∧ t.pc ≠ .unsubscribing h) : t.Own hist :=
  fun _ h _ hp => (hp.elim (hpc h).1 (hpc h).2).elim

theorem Thread.Own.append {t : Thread} {hist : List (Event × Answers)} (ho : t.Own hist)
    (x : Event × Answers) : t.Own (hist ++ [x]) := fun sub h hm hp =>
  let ⟨a, ha⟩ := ho sub h hm hp
  ⟨a, List.mem_append_left _ ha⟩

section

variable {hist hist' : List (Event × Answers)} {done done' : Bool}

/-- What a `Publish` did stays done: cases are only added, and `j.done` is never reopened. -/
theorem PublishDid.mono {msg : Message} {ts : List Topic} {pc : Pc} (hh : ∀ x, x ∈ hist → x ∈ hist')
    (hd : done = true → done' = true) (h : PublishDid hist done msg ts pc) :
    PublishDid hist' done' msg ts pc :=
  match pc, h with
  | .start, _ => trivial
  | .publishing, h => h
  | .returned none, ⟨hne, a, ha⟩ => ⟨hne, a, hh _ ha⟩
  | .returned (some .noTopic), h => h
  | .returned (some .providerClosed), ⟨hne, hd'⟩ => ⟨hne, hd hd'⟩

theorem Thread.PubDid.mono {t : Thread} (h : t.PubDid hist done) (hh : ∀ x, x ∈ hist → x ∈ hist')
    (hd : done = true → done' = true) : t.PubDid hist' done' := fun msg ts hm =>
  (h msg ts hm).mono hh hd

theorem Thread.pubDid_subscribe {t : Thread} {sub : Subscription} (hm : t.method = .Subscribe sub) :
    t.PubDid hist done := fun _ _ h => Method.noConfusion (hm.symm.trans h)

theorem Thread.pubDid_shutdown {t : Thread} (hm : t.method = .Shutdown) : t.PubDid hist done :=
  fun _ _ h => Method.noConfusion (hm.symm.trans h)

end

theorem callInv_init : CallInv World.init :=
  ⟨fun _ _ h => (by cases h), fun _ _ _ h => (by cases h), nofun, fun _ _ h => (by cases h),
    fun _ _ _ h => (by cases h), fun _ _ h => (by cases h)⟩

/-- A call past `j.init()` shows the engine started. -/
theorem CallInv.started (hs : CallInv w) {i : Nat} {t : Thread} (ht : w.threads i = some t)
    (hpc : t.pc ≠ .start ∧ t.pc ≠ .returned (some .noTopic)) : w.joe.phase ≠ .unstarted :=
  fun hu => (hs.start hu i t ht).elim hpc.1 hpc.2

theorem CallInv.setThread (hs : CallInv w) {i : Nat} {t' : Thread} (hfit : t'.Fits)
    (hst : w.joe.phase = .unstarted → t'.pc = .start ∨ t'.pc = .returned (some .noTopic))
    (hown : t'.Own w.hist) (hpub : t'.PubDid w.hist w.joe.done) : CallInv (w.setThread i t') := by
  refine ⟨fun i₁ t₁ h₁ => ?_, fun hu i₁ t₁ h₁ => ?_, hs.done, fun i₁ t₁ h₁ => ?_, hs.replay,
    fun i₁ t₁ h₁ => ?_⟩
  all_goals rcases thread_update h₁ with ⟨-, rfl⟩ | ⟨-, h₁⟩
  · exact hfit
  · exact hs.fits i₁ t₁ h₁
  · exact hst hu
  · exact hs.start hu i₁ t₁ h₁
  · exact hown
  · exact hs.own i₁ t₁ h₁
  · exact hpub
  · exact hs.publish i₁ t₁ h₁

/-- A call moving on from a place past `j.init()`. -/
theorem CallInv.move (hs : CallInv w) {i : Nat} {t t' : Thread} (ht : w.threads i = some t)
    (hpc : t.pc ≠ .start ∧ t.pc ≠ .returned (some .noTopic)) (hfit : t'.Fits)
    (hown : t'.Own w.hist) (hpub : t'.PubDid w.hist w.joe.done) : CallInv (w.setThread i t') :=
  hs.setThread hfit (fun hu => absurd hu (hs.started ht hpc)) hown hpub

/-- A call returning from a place past `j.init()`. -/
theorem CallInv.ret (hs : CallInv w) {i : Nat} {t : Thread} (ht : w.threads i = some t)
    (hpc : t.pc ≠ .start ∧ t.pc ≠ .returned (some .noTopic)) {r : Option Error}
    (hpub : { t with pc := .returned r }.PubDid w.hist w.joe.done) :
    CallInv (w.setThread i { t with pc := .returned r }) :=
  hs.move ht hpc (Thread.fits_returned _ _) (Thread.own_of_pc _ fun _ => ⟨nofun, nofun⟩) hpub

/-- A write of the engine's state that keeps its phase, and `j.done` closed once it is. -/
theorem CallInv.setJoe (hs : CallInv w) {j : Joe} (hp : j.phase = w.joe.phase)
    (hd : w.joe.done = true → j.done = true) : CallInv (w.setJoe j) :=
  ⟨hs.fits, fun hu => hs.start (hp ▸ hu), fun hx => hd (hs.done (hp ▸ hx)), hs.own,
    fun h s a hm hpan => hp ▸ hs.replay h s a hm hpan,
    fun i t ht => (hs.publish i t ht).mono (fun _ => id) hd⟩

/-- `j.init()` leaves the engine started, and exited only as it was. -/
theorem CallInv.init (hs : CallInv w) (hu : w.joe.phase = .unstarted → w.hist = []) :
    CallInv (w.setJoe (w.joe.init cfg)) ∧ (w.joe.init cfg).phase ≠ .unstarted := by
  by_cases hu' : w.joe.phase = .unstarted
  · rw [Joe.init_of_unstarted hu']
    have hnil := hu hu'
    refine ⟨⟨hs.fits, nofun, nofun, hs.own, fun _ _ _ hm => ?_, hs.publish⟩, nofun⟩
    simp only [World.setJoe_hist, hnil, List.not_mem_nil] at hm
  · rw [Joe.init_of_started hu']
    exact ⟨hs.setJoe rfl id, hu'⟩

/-- A case of the engine, taken from the loop. -/
theorem CallInv.engine (hs : CallInv w) {a : Answers} {ev : Event} (hl : w.joe.phase.inLoop)
    (hu : (w.engine cfg a ev).joe.phase ≠ .unstarted)
    (hd : (w.engine cfg a ev).joe.phase = .exited none → w.joe.done = true)
    (hrep : ∀ x s, ev = .subscription x s → a.replay = .panics →
      ∃ f, (w.engine cfg a ev).joe.phase = .exited (some f)) :
    CallInv (w.engine cfg a ev) := by
  refine ⟨hs.fits, fun h => absurd h hu, fun h => Joe.done_step.trans (hd h),
    fun i t ht => (hs.own i t ht).append _, fun h s a' hm hpan => ?_,
    fun i t ht => (hs.publish i t ht).mono (fun _ => List.mem_append_left _)
      fun h => Joe.done_step.trans h⟩
  rcases List.mem_append.1 hm with hm | hm
  · obtain ⟨f, hf⟩ := hs.replay h s a' hm hpan
    rw [hf] at hl
    cases hl
  · obtain ⟨he, rfl⟩ := Prod.mk.inj (List.mem_singleton.1 hm)
    exact hrep h s he.symm hpan

/-- **Every rule keeps the calls and the engine as `CallInv` says.** -/
theorem CallInv.step (hs : CallInv w) (hw : WorldInv cfg w) (hw' : WorldInv cfg w')
    (hstep : Step cfg w w') : CallInv w' := by
  -- a case of the engine other than `case <-j.done`, from the loop, does not return
  have hcase : ∀ {a : Answers} {ev : Event},
      (w.joe.phase = .running ∨ (w.joe.phase = .collecting ∧ ev = .collected)) →
      (∀ x s, ev = .subscription x s → w.joe.handles x = .make) → ev ≠ .done →
      (w.engine cfg a ev).joe.phase = .exited none → w.joe.done = true := fun hr hm hev hx =>
    absurd hx (Joe.step_ne_exited_none (tableOpen_of_inv hw.engine.handle
      (by rcases hr with hr | ⟨hr, -⟩ <;> rw [hr] <;> rfl)) hr hm hev)
  -- after a case of the engine, the history is not empty, so the engine started
  have hu : ∀ x, w'.hist = w.hist ++ [x] → w'.joe.phase ≠ .unstarted := fun x hx hu => by
    simpa [hx] using hw'.engine.unstarted hu
  have hrun : w.joe.phase = .running → w.joe.phase.inLoop := fun hr => by rw [hr]; rfl
  have hnil := hw.engine.unstarted
  -- the `Publish` a rule moves had a topic if it was past `j.init()`
  have htopic : ∀ {i t msg ts}, w.threads i = some t → t.method = .Publish msg ts →
      t.pc = .publishing → ts ≠ [] := fun ht hm hpc => by
    simpa only [hpc] using hs.publish _ _ ht _ _ hm
  cases hstep with
  | spawn m =>
    refine ⟨fun i t ht => ?_, fun hu i t ht => ?_, hs.done, fun i t ht => ?_, hs.replay,
      fun i t ht => ?_⟩
    all_goals rcases thread_update ht with ⟨-, rfl⟩ | ⟨-, ht⟩
    · exact Thread.fits_start m false
    · exact hs.fits i t ht
    · exact .inl rfl
    · exact hs.start hu i t ht
    · exact Thread.own_of_pc _ fun _ => ⟨nofun, nofun⟩
    · exact hs.own i t ht
    · exact fun _ _ _ => trivial
    · exact hs.publish i t ht
  | cancel ht =>
    exact hs.setThread (hs.fits _ _ ht :) (fun hu => (hs.start hu _ _ ht :)) (hs.own _ _ ht :)
      (hs.publish _ _ ht :)
  | tick => exact hs.setJoe rfl id
  | publishNoTopic ht hm =>
    exact hs.setThread (Thread.fits_returned _ _) (fun _ => .inr rfl)
      (Thread.own_of_pc _ fun _ => ⟨nofun, nofun⟩)
      fun _ _ hm' => (Method.Publish.inj (hm.symm.trans hm')).2.symm
  | publishInit ht hm _ hne =>
    exact (hs.init hnil).1.setThread (by simp [Thread.Fits, hm])
      (fun hu' => absurd hu' (hs.init hnil).2) (Thread.own_of_pc _ fun _ => ⟨nofun, nofun⟩)
      fun _ _ hm' => (Method.Publish.inj (hm.symm.trans hm')).2 ▸ hne
  | publishSend ht hm hpc hr =>
    exact (hs.engine (hrun hr) (hu _ rfl) (hcase (.inl hr) nofun nofun) nofun).setThread
      (Thread.fits_returned _ _) (fun hu' => absurd hu' (hu _ rfl))
      (Thread.own_of_pc _ fun _ => ⟨nofun, nofun⟩) fun _ _ hm' => by
        obtain ⟨rfl, rfl⟩ := Method.Publish.inj (hm.symm.trans hm')
        exact ⟨htopic ht hm hpc, _, List.mem_append_right _ (List.mem_singleton_self _)⟩
  | publishClosed ht hm hpc hd =>
    exact hs.ret ht (by rw [hpc]; exact ⟨nofun, nofun⟩) fun _ _ hm' => by
      obtain ⟨rfl, rfl⟩ := Method.Publish.inj (hm.symm.trans hm')
      exact ⟨htopic ht hm hpc, hd⟩
  | @subscribeInit i t _ ht hm =>
    have hi : CallInv ((w.setJoe (w.joe.init cfg)).setThread i { t with pc := .subscribing w.next }) :=
      (hs.init hnil).1.setThread (by simp [Thread.Fits, hm]) (fun hu' => absurd hu' (hs.init hnil).2)
        (Thread.own_of_pc _ fun _ => ⟨nofun, nofun⟩) (Thread.pubDid_subscribe hm)
    exact ⟨hi.fits, hi.start, hi.done, hi.own, hi.replay, hi.publish⟩
  | subscribeClosed ht hm hpc =>
    exact hs.ret ht (by rw [hpc]; exact ⟨nofun, nofun⟩) (Thread.pubDid_subscribe hm)
  | @subscribeSend i t sub h a ht hm hpc hr =>
    have hfresh : ¬Accepted w.hist h := ((hw.holds i t ht h (by rw [hpc]; rfl)).2).1 hpc
    have hmake : w.joe.handles h = .make := ((hw.engine.handle h).fresh hfresh).1
    have hown : Thread.Own (w.hist ++ [(Event.subscription h sub, a)]) { t with pc := .waiting h } :=
      fun sub' h' hm' hp => by
        obtain rfl : sub' = sub := Method.Subscribe.inj (hm'.symm.trans hm)
        rcases hp with hp | hp <;> cases hp
        exact ⟨a, List.mem_append_right _ (List.mem_singleton_self _)⟩
    exact (hs.engine (hrun hr) (hu _ rfl)
      (hcase (.inl hr) (fun x s he => by cases he; exact hmake) nofun)
      (fun x s he hpan => by cases he; exact Joe.step_replay_panics hpan)).setThread
      (by simp [Thread.Fits, hm]) (fun hu' => absurd hu' (hu _ rfl)) hown
      (Thread.pubDid_subscribe hm)
  | @subscribeRecv _ _ _ h _ ch ht hm hpc =>
    have hs' : CallInv (w.setJoe { w.joe with handles := Function.update w.joe.handles h ch }) :=
      hs.setJoe rfl id
    exact hs'.ret ht (by rcases hpc with hpc | hpc <;> rw [hpc] <;> exact ⟨nofun, nofun⟩)
      (Thread.pubDid_subscribe hm)
  | @subscribeCancel i t sub h ht hm hpc =>
    exact hs.move ht (by rw [hpc]; exact ⟨nofun, nofun⟩) (by simp [Thread.Fits, hm])
      (fun sub' h' hm' hp => hs.own i t ht sub' h' hm'
        (.inl (by rcases hp with hp | hp <;> cases hp; exact hpc)))
      (Thread.pubDid_subscribe hm)
  | unsubscribeSend ht hm hpc hr =>
    exact (hs.engine (hrun hr) (hu _ rfl) (hcase (.inl hr) nofun nofun) nofun).setThread
      (Thread.fits_returned _ _) (fun hu' => absurd hu' (hu _ rfl))
      (Thread.own_of_pc _ fun _ => ⟨nofun, nofun⟩) (Thread.pubDid_subscribe hm)
  | shutdownInit ht hm =>
    exact (hs.init hnil).1.setThread (by simp [Thread.Fits, hm])
      (fun hu' => absurd hu' (hs.init hnil).2) (Thread.own_of_pc _ fun _ => ⟨nofun, nofun⟩)
      (Thread.pubDid_shutdown hm)
  | shutdownClose ht hm hpc =>
    have hs' : CallInv (w.setJoe { w.joe with done := true }) := hs.setJoe rfl fun _ => rfl
    exact hs'.move ht (by rw [hpc]; exact ⟨nofun, nofun⟩) (by simp [Thread.Fits, hm])
      (Thread.own_of_pc _ fun _ => ⟨nofun, nofun⟩) (Thread.pubDid_shutdown hm)
  | shutdownRecover ht hm hpc | shutdownClosed ht hm hpc | shutdownCtx ht hm hpc =>
    exact hs.ret ht (by rw [hpc]; exact ⟨nofun, nofun⟩) (Thread.pubDid_shutdown hm)
  | gcSignal hr => exact hs.engine (hrun hr) (hu _ rfl) (hcase (.inl hr) nofun nofun) nofun
  | collected hc =>
    exact hs.engine (by rw [hc]; rfl) (hu _ rfl) (hcase (.inr ⟨hc, rfl⟩) nofun nofun) nofun
  | stop hr hd => exact hs.engine (hrun hr) (hu _ rfl) (fun _ => hd) nofun

theorem callInv_reachable (hw : Reachable cfg w) : CallInv w := by
  induction hw with
  | refl => exact callInv_init
  | tail hr hstep ih => exact ih.step (worldInv_reachable hr) (worldInv_reachable (hr.tail hstep)) hstep

/-- **What a `Publish` call returns**: `ErrNoTopic` exactly when it has no topic; nil only once
    the engine took its message; `ErrProviderClosed` only once `j.done` is closed; nothing
    else. -/
theorem publish_returns (hr : Reachable cfg w) {i : Nat} {t : Thread} {msg : Message}
    {ts : List Topic} {r : Option Error} (ht : w.threads i = some t)
    (hm : t.method = .Publish msg ts) (hpc : t.pc = .returned r) :
    r = some .noTopic ∧ ts = [] ∨ r = none ∧ ts ≠ [] ∧ (∃ a, (Event.message msg ts, a) ∈ w.hist) ∨
      r = some .providerClosed ∧ ts ≠ [] ∧ w.joe.done = true := by
  have h := (callInv_reachable hr).publish i t ht msg ts hm
  rw [hpc] at h
  match r, h with
  | none, h => exact .inr (.inl ⟨rfl, h⟩)
  | some .noTopic, h => exact .inl ⟨rfl, h⟩
  | some .providerClosed, h => exact .inr (.inr ⟨rfl, h⟩)

/-! ## 3. Runs in which a call returns -/

/-- A run from `w` at whose end call `i` has returned. -/
def CanReturn (cfg : Config) (w : World) (i : Nat) : Prop :=
  ∃ w' t r, Relation.ReflTransGen (Step cfg) w w' ∧ w'.threads i = some t ∧ t.pc = .returned r

section

variable {i : Nat} {t : Thread}

theorem CanReturn.head {w₁ : World} (hc : CanReturn cfg w₁ i) (hs : Step cfg w w₁) :
    CanReturn cfg w i :=
  let ⟨w', t', r, hr, ht, hpc⟩ := hc
  ⟨w', t', r, .head hs hr, ht, hpc⟩

/-- A step in which call `i` returns. -/
theorem canReturn_step {w₁ : World} {r : Option Error} (hs : Step cfg w (w₁.setThread i t))
    (hpc : t.pc = .returned r) : CanReturn cfg w i :=
  ⟨_, t, r, .single hs, World.setThread_self _ _ _, hpc⟩

/-- In `GC`, `gcFn` can return nil, and the loop is back at its `select`. -/
theorem collected_quiet (hc : w.joe.phase = .collecting) :
    Step cfg w (w.engine cfg (Answers.quiet 0) .collected) ∧
      (w.engine cfg (Answers.quiet 0) .collected).joe.phase = .running :=
  ⟨.collected hc (Answers.valid_quiet _ _ (by nofun)), rfl⟩

theorem init_not_faulted (hnp : ∀ f, w.joe.phase ≠ .exited (some f)) (f : Fault) :
    (w.joe.init cfg).phase ≠ .exited (some f) := by
  by_cases hu : w.joe.phase = .unstarted
  · rw [Joe.init_of_unstarted hu]; nofun
  · rw [Joe.init_of_started hu]; exact hnp _

/-- A `Subscribe` at its third `select` can return, unless the engine panicked: it receives from
    its handle, or the engine, back from `GC` if it is there, takes its unsubscription. Once the
    engine exited, the handle of a request with a topic is closed. -/
theorem subscribe_from_unsubscribing (hw : WorldInv cfg w) (hs : CallInv w)
    (hnp : ∀ f, w.joe.phase ≠ .exited (some f)) {sub : Subscription} {h : Subscriber}
    (ht : w.threads i = some t) (hm : t.method = .Subscribe sub) (htop : sub.Topics ≠ [])
    (hpc : t.pc = .unsubscribing h) : CanReturn cfg w i := by
  cases hrecv : (w.joe.handles h).recv? with
  | some p => exact canReturn_step (.subscribeRecv ht hm (.inr hpc) hrecv) rfl
  | none =>
    have hsend : ∀ w₁ : World, w₁.threads i = some t → w₁.joe.phase = .running →
        CanReturn cfg w₁ i := fun _ ht₁ hr => canReturn_step
      (.unsubscribeSend ht₁ hm hpc hr (Answers.valid_quiet _ 0 (by nofun))) rfl
    match hp : w.joe.phase, hw.engine.settled with
    | .running, _ => exact hsend w ht hp
    | .collecting, _ =>
      exact (hsend (w.engine cfg (Answers.quiet 0) .collected) ht (collected_quiet hp).2).head
        (collected_quiet hp).1
    | .exited none, _ =>
      obtain ⟨a, ha⟩ := hs.own i t ht sub h hm (.inr hpc)
      have hrep : a.replay ≠ .panics := fun hpan => by
        obtain ⟨f, hf⟩ := hs.replay h sub a ha hpan
        rw [hp] at hf
        cases hf
      have hcl : (w.joe.handles h).closed = true :=
        (hw.engine.handle h).exit (by rw [hp]; rfl) ⟨sub, a, ha, hrep, htop⟩
      have hready := Chan.recv?_isSome_of_closed hcl
      rw [hrecv] at hready
      cases hready
    | .exited (some f), _ => exact absurd hp (hnp f)
    | .unstarted, _ => exact absurd hp (hs.started ht (by rw [hpc]; exact ⟨nofun, nofun⟩))
    | .leaving _, hb => exact hb.elim
    | .blocked, hb => exact hb.elim

/-- A `Subscribe` at its second `select` can return: its context done, it moves on to the
    third. -/
theorem subscribe_from_waiting (hw : WorldInv cfg w) (hs : CallInv w)
    (hnp : ∀ f, w.joe.phase ≠ .exited (some f)) {sub : Subscription} {h : Subscriber}
    (ht : w.threads i = some t) (hm : t.method = .Subscribe sub) (htop : sub.Topics ≠ [])
    (hpc : t.pc = .waiting h) : CanReturn cfg w i := by
  have s₁ : Step cfg w _ := Step.cancel ht
  have s₂ : Step cfg (w.setThread i { t with ctxDone := true }) _ :=
    Step.subscribeCancel (World.setThread_self _ _ _) hm hpc rfl
  have hw₁ := hw.step s₁
  have hw₂ := hw₁.step s₂
  exact ((subscribe_from_unsubscribing hw₂ ((hs.step hw hw₁ s₁).step hw₁ hw₂ s₂) hnp
    (World.setThread_self _ _ _) hm htop rfl).head s₂).head s₁

/-- A `Subscribe` at its first `select` can return, unless the engine panicked: the engine, back
    from `GC` if it is there, takes its request, or `j.done` is closed. -/
theorem subscribe_from_subscribing (hw : WorldInv cfg w) (hs : CallInv w)
    (hnp : ∀ f, w.joe.phase ≠ .exited (some f)) {sub : Subscription} {h : Subscriber}
    (ht : w.threads i = some t) (hm : t.method = .Subscribe sub) (htop : sub.Topics ≠ [])
    (hpc : t.pc = .subscribing h) : CanReturn cfg w i := by
  cases hd : w.joe.done
  case true => exact canReturn_step (.subscribeClosed ht hm hpc hd) rfl
  case false =>
    -- the engine at its `select` takes the request, and `Replay` returns nil
    have hsend : ∀ w₁ : World, WorldInv cfg w₁ → CallInv w₁ → w₁.threads i = some t →
        w₁.joe.phase = .running → CanReturn cfg w₁ i := fun w₁ hw₁ hs₁ ht₁ hr => by
      have s : Step cfg w₁ _ := Step.subscribeSend ht₁ hm hpc hr (Answers.valid_quiet _ 0 (by nofun))
      have hr' : (w₁.joe.step cfg.hasGC (Answers.quiet 0) (.subscription h sub)).phase = .running :=
        Joe.step_quiet_subscription hr
      exact (subscribe_from_waiting (hw₁.step s) (hs₁.step hw₁ (hw₁.step s) s)
        (fun f hf => absurd (hr'.symm.trans hf) (by nofun)) (World.setThread_self _ _ _) hm htop
        rfl).head s
    match hp : w.joe.phase, hw.engine.settled with
    | .running, _ => exact hsend w hw hs ht hp
    | .collecting, _ =>
      have s₁ : Step cfg w _ := (collected_quiet hp).1
      exact (hsend _ (hw.step s₁) (hs.step hw (hw.step s₁) s₁) ht (collected_quiet hp).2).head s₁
    | .unstarted, _ => exact absurd hp (hs.started ht (by rw [hpc]; exact ⟨nofun, nofun⟩))
    | .exited none, _ => exact absurd (hs.done hp) (by rw [hd]; nofun)
    | .exited (some f), _ => exact absurd hp (hnp f)
    | .leaving _, hb => exact hb.elim
    | .blocked, hb => exact hb.elim

/-- **Every `Subscribe` call for a subscription with a topic can return**, unless the engine
    panicked: the run cancels its context if need be. -/
theorem subscribe_can_return (hr : Reachable cfg w) (hnp : ∀ f, w.joe.phase ≠ .exited (some f))
    {sub : Subscription} (ht : w.threads i = some t) (hm : t.method = .Subscribe sub)
    (htop : sub.Topics ≠ []) : CanReturn cfg w i := by
  have hw := worldInv_reachable hr
  have hs := callInv_reachable hr
  have hfit := hs.fits i t ht
  match hpc : t.pc with
  | .start =>
    have s₁ : Step cfg w _ := Step.subscribeInit ht hm hpc
    exact (subscribe_from_subscribing (hw.step s₁) (hs.step hw (hw.step s₁) s₁)
      (init_not_faulted hnp) (World.setThread_self _ _ _) hm htop rfl).head s₁
  | .subscribing _ => exact subscribe_from_subscribing hw hs hnp ht hm htop hpc
  | .waiting _ => exact subscribe_from_waiting hw hs hnp ht hm htop hpc
  | .unsubscribing _ => exact subscribe_from_unsubscribing hw hs hnp ht hm htop hpc
  | .returned r => exact ⟨w, t, r, .refl, ht, hpc⟩
  | .publishing | .closing | .draining => simp [Thread.Fits, hm, hpc] at hfit

/-- A `Subscribe` of sink 7 to `"a"`, taken by the engine; a `Shutdown` then returned, and the
    engine exited. The `Subscribe` waits at its second `select`; it can return. -/
theorem subscribe_can_return_after_shutdown : ∃ w, Reachable plainConfig w ∧
    w.joe.phase = .exited none ∧ w.threads 0 = some ⟨.Subscribe ⟨7, ["a"]⟩, false, .waiting 0⟩ ∧
    CanReturn plainConfig w 0 := by
  have r0 : Reachable plainConfig World.init := .refl
  have r1 := r0.tail (Step.spawn _ (.Subscribe ⟨7, ["a"]⟩))
  have r2 := r1.tail (@Step.subscribeInit plainConfig _ 0 _ ⟨7, ["a"]⟩ rfl rfl rfl)
  have r3 := r2.tail (@Step.subscribeSend plainConfig _ 0 _ ⟨7, ["a"]⟩ 0 (Answers.quiet 0)
    rfl rfl rfl rfl (Answers.valid_quiet _ 0 nofun))
  have r4 := r3.tail (Step.spawn _ .Shutdown)
  have r5 := r4.tail (@Step.shutdownInit plainConfig _ 1 _ rfl rfl rfl)
  have r6 := r5.tail (@Step.shutdownClose plainConfig _ 1 _ rfl rfl rfl rfl)
  have r7 := r6.tail (@Step.stop plainConfig _ (Answers.quiet 0) rfl rfl
    (Answers.valid_quiet _ 0 nofun))
  suffices hrun : ∀ w, Reachable plainConfig w → w.joe.phase = .exited none →
      w.threads 0 = some ⟨.Subscribe ⟨7, ["a"]⟩, false, .waiting 0⟩ → _ from hrun _ r7 rfl rfl
  intro w hw hx ht
  exact ⟨w, hw, hx, ht, subscribe_can_return hw (fun _ h => by rw [hx] at h; cases h) ht rfl
    (by nofun)⟩

/-- A run from `w` at whose end the `Shutdown` call `i` has returned other than through its
    context: `ErrProviderClosed` from a `close(j.done)` that panicked, or nil once the loop
    exited. -/
def CanShutDown (cfg : Config) (w : World) (i : Nat) : Prop :=
  ∃ w' t r, Relation.ReflTransGen (Step cfg) w w' ∧ w'.threads i = some t ∧ t.pc = .returned r ∧
    (r = some .providerClosed ∨ r = none ∧ w'.joe.phase.isExited)

theorem CanShutDown.head {w₁ : World} (hc : CanShutDown cfg w₁ i) (hs : Step cfg w w₁) :
    CanShutDown cfg w i :=
  let ⟨w', t', r, hr, ht, hpc, hres⟩ := hc
  ⟨w', t', r, .head hs hr, ht, hpc, hres⟩

/-- A step in which the `Shutdown` call `i` takes `case <-j.closed` once the loop exited. -/
theorem canShutDown_closed {w₁ : World} (hs : Step cfg w (w₁.setThread i { t with pc := .returned none }))
    (hx : w₁.joe.phase.isExited) : CanShutDown cfg w i :=
  ⟨_, _, none, .single hs, World.setThread_self _ _ _, rfl, .inr ⟨rfl, hx⟩⟩

/-- A `Shutdown` past `close(j.done)` can return nil: the loop, back from `GC` if it is there,
    takes `case <-j.done` and runs its deferred calls, and `j.closed` is closed. -/
theorem shutdown_from_draining (hw : WorldInv cfg w) (hs : CallInv w) (ht : w.threads i = some t)
    (hm : t.method = .Shutdown) (hpc : t.pc = .draining) : CanShutDown cfg w i := by
  have hd : w.joe.done = true := hw.closer.2 ⟨i, t, ht, hm, .inl hpc⟩
  have hstop : ∀ w₁ : World, w₁.threads i = some t → w₁.joe.phase = .running →
      w₁.joe.done = true → CanShutDown cfg w₁ i := fun w₁ ht₁ hr hd₁ =>
    have ht₂ : (w₁.engine cfg (Answers.quiet 0) .done).threads i = some t := ht₁
    (canShutDown_closed (.shutdownClosed ht₂ hm hpc rfl) rfl).head
      (.stop hr hd₁ (Answers.valid_quiet _ 0 (by nofun)))
  match hp : w.joe.phase, hw.engine.settled with
  | .exited _, _ => exact canShutDown_closed (.shutdownClosed ht hm hpc hp) (by rw [hp]; rfl)
  | .running, _ => exact hstop w ht hp hd
  | .collecting, _ =>
    exact (hstop (w.engine cfg (Answers.quiet 0) .collected) ht (collected_quiet hp).2
      (Joe.done_step.trans hd)).head (collected_quiet hp).1
  | .unstarted, _ => exact absurd hp (hs.started ht (by rw [hpc]; exact ⟨nofun, nofun⟩))
  | .leaving _, hb => exact hb.elim
  | .blocked, hb => exact hb.elim

/-- A `Shutdown` at its `close(j.done)` can return: `ErrProviderClosed` if `j.done` is closed,
    else nil once it closed it. -/
theorem shutdown_from_closing (hw : WorldInv cfg w) (hs : CallInv w) (ht : w.threads i = some t)
    (hm : t.method = .Shutdown) (hpc : t.pc = .closing) : CanShutDown cfg w i := by
  cases hd : w.joe.done
  case true =>
    exact ⟨_, _, _, .single (.shutdownRecover ht hm hpc hd), World.setThread_self _ _ _, rfl,
      .inl rfl⟩
  case false =>
    have s₁ : Step cfg w _ := Step.shutdownClose ht hm hpc hd
    exact (shutdown_from_draining (hw.step s₁) (hs.step hw (hw.step s₁) s₁)
      (World.setThread_self _ _ _) hm rfl).head s₁

/-- **Every `Shutdown` call can return without its context done**, whatever the engine did: a
    second `close(j.done)` is recovered as `ErrProviderClosed`; after the first, the loop, at its
    `select` or in `GC`, can always take `case <-j.done` and run its deferred calls, which close
    `j.closed`, and the call returns nil. -/
theorem shutdown_can_return (hr : Reachable cfg w) (ht : w.threads i = some t)
    (hm : t.method = .Shutdown) (hpc : ∀ r, t.pc ≠ .returned r) : CanShutDown cfg w i := by
  have hw := worldInv_reachable hr
  have hs := callInv_reachable hr
  have hfit := hs.fits i t ht
  match hpc' : t.pc with
  | .start =>
    have s₁ : Step cfg w _ := Step.shutdownInit ht hm hpc'
    exact (shutdown_from_closing (hw.step s₁) (hs.step hw (hw.step s₁) s₁)
      (World.setThread_self _ _ _) hm rfl).head s₁
  | .closing => exact shutdown_from_closing hw hs ht hm hpc'
  | .draining => exact shutdown_from_draining hw hs ht hm hpc'
  | .returned r => exact absurd hpc' (hpc r)
  | .publishing | .subscribing _ | .waiting _ | .unsubscribing _ =>
    simp [Thread.Fits, hm, hpc'] at hfit

/-- A `Shutdown` past `close(j.done)` while the engine is in `GC`, with a `Publish` waiting: it
    can return nil, the loop exited. -/
theorem shutdown_can_return_in_gc : ∃ w, Reachable gcConfig w ∧ w.joe.phase = .collecting ∧
    w.threads 1 = some ⟨.Shutdown, false, .draining⟩ ∧ CanShutDown gcConfig w 1 := by
  have r0 : Reachable gcConfig World.init := .refl
  have r1 := r0.tail (Step.spawn _ (.Publish 5 ["a"]))
  have r2 := r1.tail (@Step.publishInit gcConfig _ 0 _ 5 ["a"] rfl rfl rfl nofun)
  have r3 := r2.tail (@Step.tick gcConfig _ rfl)
  have r4 := r3.tail (@Step.gcSignal gcConfig _ _ rfl rfl (Answers.valid_quiet _ 0 nofun))
  have r5 := r4.tail (Step.spawn _ .Shutdown)
  have r6 := r5.tail (@Step.shutdownInit gcConfig _ 1 _ rfl rfl rfl)
  have r7 := r6.tail (@Step.shutdownClose gcConfig _ 1 _ rfl rfl rfl rfl)
  exact ⟨_, r7, rfl, rfl, shutdown_can_return r7 rfl rfl fun _ h => by cases h⟩

end

/-! ## 4. A call that never returns -/

/-- A `Subscribe` past its first `select`, on an open, empty handle, once the engine exited. -/
structure Stuck (w : World) (i : Nat) (h : Subscriber) : Prop where
  exited : w.joe.phase.isExited
  handle : w.joe.handles h = .make
  spawned : i < w.spawned
  waits : ∃ t, w.threads i = some t ∧ (t.pc = .waiting h ∨ t.pc = .unsubscribing h)

section

variable {i : Nat} {h : Subscriber}

theorem Stuck.pc (hs : Stuck w i h) {t : Thread} (ht : w.threads i = some t) :
    t.pc = .waiting h ∨ t.pc = .unsubscribing h := by
  obtain ⟨t', ht', hpc⟩ := hs.waits
  rw [ht] at ht'
  cases ht'
  exact hpc

/-- No case of the engine is taken once it exited. -/
theorem Stuck.not_inLoop (hs : Stuck w i h) : w.joe.phase.inLoop = false := by
  have hx := hs.exited
  revert hx
  cases w.joe.phase <;> simp [Phase.isExited, Phase.inLoop]

theorem Stuck.setThread (hs : Stuck w i h) {j : Nat} {t : Thread}
    (hj : j = i → t.pc = .waiting h ∨ t.pc = .unsubscribing h) : Stuck (w.setThread j t) i h := by
  refine ⟨hs.exited, hs.handle, hs.spawned, ?_⟩
  by_cases hji : j = i
  · exact ⟨t, hji ▸ World.setThread_self _ _ _, hj hji⟩
  · obtain ⟨t', ht', hpc⟩ := hs.waits
    exact ⟨t', by simp [Function.update_noteq (Ne.symm hji), ht'], hpc⟩

/-- A call at another place of its body than the handle's `select`s moves on. -/
theorem Stuck.move (hs : Stuck w i h) {j : Nat} {t t' : Thread} (ht : w.threads j = some t)
    (hpc : ∀ x, t.pc ≠ .waiting x ∧ t.pc ≠ .unsubscribing x) : Stuck (w.setThread j t') i h :=
  hs.setThread fun hji => ((hs.pc (hji ▸ ht)).elim (hpc h).1 (hpc h).2).elim

theorem Stuck.setJoe (hs : Stuck w i h) {j : Joe} (hx : j.phase = w.joe.phase)
    (hh : j.handles h = w.joe.handles h) : Stuck (w.setJoe j) i h :=
  ⟨hx ▸ hs.exited, hh.trans hs.handle, hs.spawned, hs.waits⟩

/-- `j.init()` does nothing once the engine exited. -/
theorem Stuck.init (hs : Stuck w i h) : Stuck (w.setJoe (w.joe.init cfg)) i h := by
  have hx := hs.exited
  rw [Joe.init_of_started fun hu => by rw [hu] at hx; cases hx]
  exact hs.setJoe rfl rfl

/-- **Every rule keeps such a call where it is**: only a receive from its handle ends it, and
    nothing writes or closes the handle once the engine exited. -/
theorem Stuck.step (hs : Stuck w i h) (hstep : Step cfg w w') : Stuck w' i h := by
  have hl := hs.not_inLoop
  have hrun : w.joe.phase ≠ .running := fun hr => by rw [hr] at hl; cases hl
  cases hstep with
  | spawn m =>
    refine ⟨hs.exited, hs.handle, Nat.lt_succ_of_lt hs.spawned, ?_⟩
    obtain ⟨t, ht, hpc⟩ := hs.waits
    exact ⟨t, by simp [Function.update_noteq (Nat.ne_of_lt hs.spawned), ht], hpc⟩
  | cancel ht => exact hs.setThread fun hji => by subst hji; exact (hs.pc ht :)
  | tick => exact hs.setJoe rfl rfl
  | publishNoTopic ht _ hpc | publishClosed ht _ hpc | subscribeClosed ht _ hpc
    | shutdownRecover ht _ hpc | shutdownClosed ht _ hpc | shutdownCtx ht _ hpc =>
    exact hs.move ht fun _ => by rw [hpc]; exact ⟨nofun, nofun⟩
  | publishInit ht _ hpc | shutdownInit ht _ hpc =>
    exact hs.init.move ht fun _ => by rw [hpc]; exact ⟨nofun, nofun⟩
  | publishSend _ _ _ hr | subscribeSend _ _ _ hr | unsubscribeSend _ _ _ hr | gcSignal hr
    | stop hr => exact absurd hr hrun
  | @subscribeInit j t _ ht _ hpc =>
    have hs' : Stuck ((w.setJoe (w.joe.init cfg)).setThread j { t with pc := .subscribing w.next }) i h :=
      hs.init.move ht fun _ => by rw [hpc]; exact ⟨nofun, nofun⟩
    exact ⟨hs'.exited, hs'.handle, hs'.spawned, hs'.waits⟩
  | @subscribeRecv _ _ _ h' _ ch ht _ hpc hrecv =>
    -- the receive is from another handle, and by another call
    have hne : h' ≠ h := fun he => by subst he; rw [hs.handle] at hrecv; cases hrecv
    have hs' : Stuck (w.setJoe { w.joe with handles := Function.update w.joe.handles h' ch }) i h :=
      hs.setJoe rfl (Function.update_noteq hne.symm _ _)
    exact hs'.setThread fun hji => by
      subst hji
      exfalso
      rcases hs.pc ht with hp | hp <;> rcases hpc with hp' | hp' <;> rw [hp] at hp' <;> cases hp' <;>
        exact hne rfl
  | subscribeCancel ht _ hpc =>
    exact hs.setThread fun hji => by
      subst hji
      rcases hs.pc ht with hp | hp <;> rw [hp] at hpc <;> cases hpc
      exact .inr rfl
  | shutdownClose ht _ hpc =>
    have hs' : Stuck (w.setJoe { w.joe with done := true }) i h := hs.setJoe rfl rfl
    exact hs'.move ht fun _ => by rw [hpc]; exact ⟨nofun, nofun⟩
  | collected hc => rw [hc] at hl; cases hl

theorem Stuck.run (hs : Stuck w i h) (hr : Relation.ReflTransGen (Step cfg) w w') : Stuck w' i h := by
  induction hr with
  | refl => exact hs
  | tail _ hstep ih => exact ih.step hstep

/-- **Once the engine exited, a `Subscribe` on an open, empty handle never returns**, in any run:
    whether its context is done or not, no one will receive its unsubscription or close its
    handle. -/
theorem stuck_never_returns (hs : Stuck w i h) : ¬CanReturn cfg w i := fun ⟨_, _, _, hr, ht, hpc⟩ => by
  rcases (hs.run hr).pc ht with hp | hp <;> rw [hpc] at hp <;> cases hp

/-- A `Joe{}`: a `Subscribe` of sink 7 to no topic, taken by the engine; a `Shutdown` returned nil,
    and the call's context was cancelled. It is at its third `select`, and never returns. -/
theorem no_topic_subscribe_never_returns : ∃ w, Reachable plainConfig w ∧
    w.threads 0 = some ⟨.Subscribe ⟨7, []⟩, true, .unsubscribing 0⟩ ∧ ¬CanReturn plainConfig w 0 := by
  have r0 : Reachable plainConfig World.init := .refl
  have r1 := r0.tail (Step.spawn _ (.Subscribe ⟨7, []⟩))
  have r2 := r1.tail (@Step.subscribeInit plainConfig _ 0 _ ⟨7, []⟩ rfl rfl rfl)
  have r3 := r2.tail (@Step.subscribeSend plainConfig _ 0 _ ⟨7, []⟩ 0 (Answers.quiet 0) rfl rfl
    rfl rfl (Answers.valid_quiet _ _ nofun))
  have r4 := r3.tail (Step.spawn _ .Shutdown)
  have r5 := r4.tail (@Step.shutdownInit plainConfig _ 1 _ rfl rfl rfl)
  have r6 := r5.tail (@Step.shutdownClose plainConfig _ 1 _ rfl rfl rfl rfl)
  have r7 := r6.tail (@Step.stop plainConfig _ (Answers.quiet 0) rfl rfl
    (Answers.valid_quiet _ _ nofun))
  have r8 := r7.tail (@Step.shutdownClosed plainConfig _ 1 _ none rfl rfl rfl rfl)
  have r9 := r8.tail (@Step.cancel plainConfig _ 0 _ rfl)
  have r10 := r9.tail (@Step.subscribeCancel plainConfig _ 0 _ ⟨7, []⟩ 0 rfl rfl rfl rfl)
  exact ⟨_, r10, rfl, stuck_never_returns ⟨rfl, rfl, by decide, _, rfl, .inr rfl⟩⟩

end

end GoSse
