import GoSse.Refinement

/-!
# `Shutdown`, and the calls after it

`Shutdown` closes `j.done` and waits for `j.closed`; a second `close(j.done)` panics, and the
deferred `recover` turns the panic into `ErrProviderClosed`. Over every reachable world
(`shutdown_once`):

* one `Shutdown` call at most is past its `close` (`Thread.Closer`), and `j.done` is closed
  exactly when one is; every other `Shutdown` that returned, returned `ErrProviderClosed`, and
  one at its `close` once `j.done` is closed can always return so;
* once a `Shutdown` returned nil, the engine has exited (`AfterShutdown`): from then on no case
  is taken and no call is made into the provider or a sink, and every `Publish` with a topic and
  every `Subscribe` made later returns `ErrProviderClosed` if it returns, and always can.
-/

namespace GoSse

/-- A call that would reach the engine: a `Publish` with a topic, or a `Subscribe`. -/
def Method.Engaging : Method → Prop
  | .Publish _ ts => ts ≠ []
  | .Subscribe _ => True
  | .Shutdown => False

/-- A call that has not reached the engine: before or in its `select`, or returned
    `ErrProviderClosed`. -/
def Thread.Outside (t : Thread) : Prop :=
  match t.method with
  | .Publish _ ts => ts ≠ [] →
    t.pc = .start ∨ t.pc = .publishing ∨ t.pc = .returned (some .providerClosed)
  | .Subscribe _ =>
    t.pc = .start ∨ (∃ h, t.pc = .subscribing h) ∨ t.pc = .returned (some .providerClosed)
  | .Shutdown => True

/-- **The program after a `Shutdown` returned nil in `w₀`**: the engine exited, `j.done` is
    closed, no case was taken and no call made since, and every call made since is outside. -/
structure AfterShutdown (w₀ w : World) : Prop where
  exited : w.joe.phase.isExited
  done : w.joe.done = true
  hist : w.hist = w₀.hist
  log : w.joe.log = w₀.joe.log
  spawned : w₀.spawned ≤ w.spawned
  outside : ∀ i t, w₀.spawned ≤ i → w.threads i = some t → t.Outside

variable {cfg : Config} {w₀ w w' : World}

theorem AfterShutdown.setThread (ha : AfterShutdown w₀ w) {i : Nat} {t' : Thread}
    (hout : w₀.spawned ≤ i → t'.Outside) : AfterShutdown w₀ (w.setThread i t') := by
  refine ⟨ha.exited, ha.done, ha.hist, ha.log, ha.spawned, fun i₁ t₁ hi h₁ => ?_⟩
  rcases thread_update h₁ with ⟨rfl, rfl⟩ | ⟨-, h₁⟩
  · exact hout hi
  · exact ha.outside i₁ t₁ hi h₁

theorem AfterShutdown.setJoe (ha : AfterShutdown w₀ w) {j : Joe} (hx : j.phase.isExited)
    (hd : j.done = true) (hl : j.log = w.joe.log) : AfterShutdown w₀ (w.setJoe j) :=
  ⟨hx, hd, ha.hist, hl.trans ha.log, ha.spawned, ha.outside⟩

/-- `j.init()` does nothing once the engine exited. -/
theorem AfterShutdown.init (ha : AfterShutdown w₀ w) : w.joe.init cfg = w.joe :=
  Joe.init_of_started fun hu => by
    have := ha.exited
    rw [hu] at this
    cases this

/-- No case of the engine is taken after it exited. -/
theorem AfterShutdown.not_inLoop (ha : AfterShutdown w₀ w) : w.joe.phase.inLoop = false := by
  have := ha.exited
  revert this
  cases w.joe.phase <;> simp [Phase.inLoop, Phase.isExited]

/-- A call waiting on its handle is not one made after `w₀`. -/
theorem AfterShutdown.old_of_waiting (ha : AfterShutdown w₀ w) {i : Nat} {t : Thread}
    {sub : Subscription} {h : Subscriber} (ht : w.threads i = some t) (hm : t.method = .Subscribe sub)
    (hpc : t.pc = .waiting h ∨ t.pc = .unsubscribing h) : ¬w₀.spawned ≤ i := fun hi => by
  have hout := ha.outside i t hi ht
  simp only [Thread.Outside, hm] at hout
  rcases hpc with hpc | hpc <;> rw [hpc] at hout <;> simp at hout

/-- **Every rule keeps the program as a `Shutdown` that returned nil left it.** -/
theorem AfterShutdown.step (ha : AfterShutdown w₀ w) (hs : Step cfg w w') : AfterShutdown w₀ w' := by
  have hrun : w.joe.phase ≠ .running := fun hr => by
    have := ha.not_inLoop; rw [hr] at this; cases this
  cases hs with
  | spawn m =>
    refine ⟨ha.exited, ha.done, ha.hist, ha.log, Nat.le_succ_of_le ha.spawned, fun i t hi ht => ?_⟩
    rcases thread_update ht with ⟨-, rfl⟩ | ⟨-, ht⟩
    · cases m <;> simp [Thread.Outside]
    · exact ha.outside i t hi ht
  | @cancel i t ht => exact ha.setThread fun hi => ha.outside i t hi ht
  | tick _ => exact ha.setJoe ha.exited ha.done rfl
  | publishNoTopic _ hm _ => exact ha.setThread fun _ => by simp [Thread.Outside, hm]
  | publishInit _ hm _ _ =>
    rw [ha.init]
    exact (ha.setJoe ha.exited ha.done rfl).setThread fun _ => by simp [Thread.Outside, hm]
  | publishSend _ _ _ hr _ => exact absurd hr hrun
  | publishClosed _ hm _ _ => exact ha.setThread fun _ => by simp [Thread.Outside, hm]
  | subscribeInit _ hm _ =>
    rw [ha.init]
    exact ⟨ha.exited, ha.done, ha.hist, ha.log, ha.spawned,
      ((ha.setJoe ha.exited ha.done rfl).setThread fun _ => by simp [Thread.Outside, hm]).outside⟩
  | subscribeClosed _ hm _ _ => exact ha.setThread fun _ => by simp [Thread.Outside, hm]
  | subscribeSend _ _ _ hr _ => exact absurd hr hrun
  | subscribeRecv ht hm hpc _ =>
    refine AfterShutdown.setThread ?_ fun hi => absurd hi (ha.old_of_waiting ht hm hpc)
    exact ha.setJoe ha.exited ha.done rfl
  | subscribeCancel ht hm hpc _ =>
    exact ha.setThread fun hi => absurd hi (ha.old_of_waiting ht hm (.inl hpc))
  | unsubscribeSend _ _ _ hr _ => exact absurd hr hrun
  | shutdownInit _ hm _ =>
    rw [ha.init]
    exact (ha.setJoe ha.exited ha.done rfl).setThread fun _ => by simp [Thread.Outside, hm]
  | shutdownClose _ _ _ hd => exact absurd ha.done (by rw [hd]; nofun)
  | shutdownRecover _ hm _ _ => exact ha.setThread fun _ => by simp [Thread.Outside, hm]
  | shutdownClosed _ hm _ _ => exact ha.setThread fun _ => by simp [Thread.Outside, hm]
  | shutdownCtx _ hm _ _ => exact ha.setThread fun _ => by simp [Thread.Outside, hm]
  | gcSignal hr _ _ => exact absurd hr hrun
  | collected hc _ =>
    have := ha.not_inLoop; rw [hc] at this; cases this
  | stop hr _ _ => exact absurd hr hrun

theorem AfterShutdown.run (ha : AfterShutdown w₀ w) (hr : Relation.ReflTransGen (Step cfg) w w') :
    AfterShutdown w₀ w' := by
  induction hr with
  | refl => exact ha
  | tail _ hs ih => exact ih.step hs

/-- **A call made after the engine exited returns `ErrProviderClosed`**, in at most two steps
    of its own. -/
theorem AfterShutdown.leaves (ha : AfterShutdown w₀ w) {i : Nat} {t : Thread} (hi : w₀.spawned ≤ i)
    (ht : w.threads i = some t) (he : t.method.Engaging) :
    ∃ w'', Relation.ReflTransGen (Step cfg) w w'' ∧
      w''.threads i = some { t with pc := .returned (some .providerClosed) } := by
  have hout := ha.outside i t hi ht
  obtain ⟨m, c, pc⟩ := t
  cases m with
  | Publish msg ts =>
    rcases (hout he : pc = .start ∨ pc = .publishing ∨ pc = .returned (some .providerClosed)) with
      rfl | rfl | rfl
    · -- `j.init()` does nothing, then `case <-j.done`
      have s₁ : Step cfg w _ := Step.publishInit ht rfl rfl he
      exact ⟨_, .tail (.single s₁)
        (Step.publishClosed (World.setThread_self _ _ _) rfl rfl (ha.step s₁).done),
        World.setThread_self _ _ _⟩
    · exact ⟨_, .single (Step.publishClosed ht rfl rfl ha.done), World.setThread_self _ _ _⟩
    · exact ⟨w, .refl, ht⟩
  | Subscribe sub =>
    rcases (hout : pc = .start ∨ (∃ h, pc = .subscribing h) ∨
      pc = .returned (some .providerClosed)) with rfl | ⟨h, rfl⟩ | rfl
    · -- `j.init()` does nothing, `make(chan error, 1)`, then `case <-j.done`
      have s₁ : Step cfg w _ := Step.subscribeInit ht rfl rfl
      exact ⟨_, .tail (.single s₁)
        (Step.subscribeClosed (World.setThread_self _ _ _) rfl rfl (ha.step s₁).done),
        World.setThread_self _ _ _⟩
    · exact ⟨_, .single (Step.subscribeClosed ht rfl rfl ha.done), World.setThread_self _ _ _⟩
    · exact ⟨w, .refl, ht⟩
  | Shutdown => exact he.elim

/-- A `Shutdown` that returned nil left the program so. -/
theorem afterShutdown_of (hw : WorldInv cfg w) {i : Nat} {t : Thread} (ht : w.threads i = some t)
    (hm : t.method = .Shutdown) (hp : t.pc = .returned none) : AfterShutdown w w where
  exited := hw.drained i t ht hm hp
  done := hw.closer.2 ⟨i, t, ht, hm, .inr (.inl hp)⟩
  hist := rfl
  log := rfl
  spawned := le_rfl
  outside j _ hj h₁ := by rw [hw.spawned j hj] at h₁; cases h₁

/-- **`Shutdown` closes `j.done` once, and closes the provider for good.** In every reachable
    world: at most one `Shutdown` call is past its `close`, and `j.done` is closed exactly when
    one is; every other `Shutdown` that returned, returned `ErrProviderClosed`, and one at its
    `close` once `j.done` is closed can return so at once. Once a `Shutdown` returned nil, the
    engine has exited, and in every run on it stays so, takes no case and calls nothing in the
    provider or a sink; every `Publish` with a topic and every `Subscribe` made since stays
    outside the engine and can always return `ErrProviderClosed`. -/
theorem shutdown_once (hw : Reachable cfg w) :
    (∀ i i' t t', w.threads i = some t → w.threads i' = some t' → t.Closer → t'.Closer → i = i') ∧
      (w.joe.done = true ↔ ∃ i t, w.threads i = some t ∧ t.Closer) ∧
      (∀ i t r, w.threads i = some t → t.method = .Shutdown → t.pc = .returned r →
        r = some .providerClosed ∨ t.Closer) ∧
      (∀ i t, w.threads i = some t → t.method = .Shutdown → t.pc = .closing → w.joe.done = true →
        Step cfg w (w.setThread i { t with pc := .returned (some .providerClosed) })) ∧
      ((∃ i t, w.threads i = some t ∧ t.method = .Shutdown ∧ t.pc = .returned none) →
        ∀ w', Relation.ReflTransGen (Step cfg) w w' → w'.joe.phase.isExited ∧ w'.hist = w.hist ∧
          w'.joe.log = w.joe.log ∧
          ∀ j t', w.spawned ≤ j → w'.threads j = some t' → t'.Outside ∧
            (t'.method.Engaging → ∃ w'', Relation.ReflTransGen (Step cfg) w' w'' ∧
              w''.threads j = some { t' with pc := .returned (some .providerClosed) })) := by
  have hi := worldInv_reachable hw
  refine ⟨hi.closerOnce, hi.closer, hi.returns, fun i t ht hm hpc hd => .shutdownRecover ht hm hpc hd,
    fun ⟨i, t, ht, hm, hp⟩ w' hr => ?_⟩
  have ha := (afterShutdown_of hi ht hm hp).run hr
  exact ⟨ha.exited, ha.hist, ha.log, fun j t' hj ht' => ⟨ha.outside j t' hj ht', ha.leaves hj ht'⟩⟩

/-- A `Joe{}`: a `Shutdown` that returns nil, then a `Publish` made after it. -/
theorem shutdown_once_run : ∃ w, Reachable plainConfig w ∧
    w.threads 0 = some ⟨.Shutdown, false, .returned none⟩ ∧
    w.threads 1 = some ⟨.Publish 5 ["a"], false, .start⟩ ∧
    ((∀ i i' t t', w.threads i = some t → w.threads i' = some t' → t.Closer → t'.Closer → i = i') ∧
      (w.joe.done = true ↔ ∃ i t, w.threads i = some t ∧ t.Closer) ∧
      (∀ i t r, w.threads i = some t → t.method = .Shutdown → t.pc = .returned r →
        r = some .providerClosed ∨ t.Closer) ∧
      (∀ i t, w.threads i = some t → t.method = .Shutdown → t.pc = .closing → w.joe.done = true →
        Step plainConfig w (w.setThread i { t with pc := .returned (some .providerClosed) })) ∧
      ((∃ i t, w.threads i = some t ∧ t.method = .Shutdown ∧ t.pc = .returned none) →
        ∀ w', Relation.ReflTransGen (Step plainConfig) w w' → w'.joe.phase.isExited ∧
          w'.hist = w.hist ∧ w'.joe.log = w.joe.log ∧
          ∀ j t', w.spawned ≤ j → w'.threads j = some t' → t'.Outside ∧
            (t'.method.Engaging → ∃ w'', Relation.ReflTransGen (Step plainConfig) w' w'' ∧
              w''.threads j = some { t' with pc := .returned (some .providerClosed) }))) := by
  have r0 : Reachable plainConfig World.init := .refl
  have r1 := r0.tail (Step.spawn _ .Shutdown)
  have r2 := r1.tail (@Step.shutdownInit plainConfig _ 0 _ rfl rfl rfl)
  have r3 := r2.tail (@Step.shutdownClose plainConfig _ 0 _ rfl rfl rfl rfl)
  have r4 := r3.tail (@Step.stop plainConfig _ (Answers.quiet 0) rfl rfl
    (Answers.valid_quiet _ _ nofun))
  have r5 := r4.tail (@Step.shutdownClosed plainConfig _ 0 _ none rfl rfl rfl rfl)
  have r6 := r5.tail (Step.spawn _ (.Publish 5 ["a"]))
  exact ⟨_, r6, rfl, rfl, shutdown_once r6⟩

end GoSse
