import GoSse.Invariant

/-!
# What every reachable world satisfies

The invariant of the whole program (`WorldInv`), proved of `World.init` and kept by every rule
of `Step`, so of every reachable world (`worldInv_reachable`). It has two parts:

* `EngineInv` -- the engine and its history: every handle's `HandleInv`, a phase that is never
  parked on a full handle nor unwound by an error send (`Phase.Settled`), one subscribe case per
  handle, and a ticker that runs only when `init` started one;
* the calls' goroutines -- each `Subscribe` holds its own handle, made before `next`, taken by a
  subscribe case exactly once it has sent it (`Thread.Holds`, `owner`, `fresh`); `j.done` is
  closed exactly when one `Shutdown` call is past its `close` (`closer`, `closerOnce`); a
  `Shutdown` returns `ErrProviderClosed` unless it is that call (`returns`), and returns nil
  only once the engine exited (`drained`).

Every rule that only moves one goroutine keeps the invariant by `WorldInv.setThread`; the rules
that run a case of the engine by `WorldInv.engineStep` (and `WorldInv.subscribeSend`, the one that
makes a handle taken).
-/

namespace GoSse

/-! ## 1. The engine's step, outside the handles -/

namespace Joe

variable {a : Answers} {j : Joe} {gcFn : Bool} {ev : Event}

/-- The ticker is on, a tick waits, or `GC` was called. -/
def GcActive (j : Joe) : Prop := j.gcOn ∨ j.gcTick ∨ Call.gc ∈ j.log

theorem gcActive_of_frame {j' : Joe} (hf : j'.frame = j.frame) : j'.GcActive ↔ j.GcActive := by
  simp only [frame, Prod.mk.injEq] at hf
  obtain ⟨-, h1, h2, h3⟩ := hf
  simp only [GcActive, h1, h2, ← List.count_pos_iff, h3]

theorem done_finish : (finish a j).done = j.done := by unfold finish; split <;> rfl

theorem gcActive_finish (h : (finish a j).GcActive) : j.GcActive := by
  unfold finish at h
  split at h
  · simp only [GcActive, deferred, Bool.false_eq_true, false_or] at h
    exact .inr h
  · exact h

theorem done_step : (j.step gcFn a ev).done = j.done := by
  unfold step
  rw [done_finish]
  cases ev with
  | message m ts => exact congrArg Prod.fst (frame_publish ts)
  | subscription x s => exact congrArg Prod.fst frame_subscribe
  | unsubscription x => exact congrArg Prod.fst frame_removeSubscriber
  | gcSignal => unfold case gcSignal; split <;> rfl
  | collected => unfold case collected; split <;> rfl
  | done => rfl

/-- **A step calls `GC` or leaves the ticker on only if the ticker was on, a tick waited, or
    `GC` had been called** (a `gcSignal` case takes a waiting tick). -/
theorem gcActive_step (htick : ev = .gcSignal → j.gcTick = true) (h : (j.step gcFn a ev).GcActive) :
    j.GcActive := by
  have h' := gcActive_finish h
  cases ev with
  | message m ts => exact (gcActive_of_frame (frame_publish ts)).1 h'
  | subscription x s => exact (gcActive_of_frame frame_subscribe).1 h'
  | unsubscription x => exact (gcActive_of_frame frame_removeSubscriber).1 h'
  | gcSignal => exact .inr (.inl (htick rfl))
  | collected =>
    simp only [case, collected] at h'
    split at h' <;> simp_all [GcActive, unwind]
  | done => exact h'

end Joe

/-! ## 2. The engine's invariant -/

/-- **The invariant of the engine and its history.** -/
structure EngineInv (cfg : Config) (j : Joe) (hist : List (Event × Answers)) : Prop where
  handle : ∀ h, HandleInv hist h j.phase (j.view h)
  settled : j.phase.Settled
  unstarted : j.phase = .unstarted → hist = []
  once : ∀ h s s' a a', (Event.subscription h s, a) ∈ hist →
    (Event.subscription h s', a') ∈ hist → s = s'
  gc : j.GcActive → cfg.hasGC ∧ 0 < cfg.ReplayGCInterval
  noNilGC : j.phase ≠ .exited (some .nilGC)

variable {cfg : Config} {j : Joe} {hist : List (Event × Answers)}

theorem engineInv_zero : EngineInv cfg Joe.zero [] where
  handle _ := handleInv_nil rfl (fun _ => rfl) rfl
  settled := trivial
  unstarted _ := rfl
  once _ _ _ _ _ h := by cases h
  gc h := by simp [Joe.GcActive, Joe.zero] at h
  noNilGC := nofun

/-- `j.init()` starts the engine before any case, and the ticker only for a provider with `GC`
    and a positive interval. -/
theorem EngineInv.init (hi : EngineInv cfg j hist) : EngineInv cfg (j.init cfg) hist := by
  by_cases hu : j.phase = .unstarted
  · have hh := hi.unstarted hu
    subst hh
    rw [Joe.init_of_unstarted hu]
    refine ⟨fun h => ?_, trivial, nofun, hi.once, fun hg => ?_, nofun⟩
    · have hi' := hi.handle h
      obtain ⟨hm, he⟩ := hi'.fresh fun ⟨_, _, hm⟩ => by cases hm
      exact handleInv_nil hm he (List.eq_nil_of_prefix_nil (by simpa [owed, owedFrom] using hi'.calls))
    · rcases hg with hg | hg
      · exact ticker_replayGCInterval hg
      · exact hi.gc (.inr hg)
  · rwa [Joe.init_of_started hu]

/-- A state with the same handles' views, phase and ticker keeps the engine's invariant. -/
theorem EngineInv.of_view {j' : Joe} (hi : EngineInv cfg j hist) (hv : ∀ h, j'.view h = j.view h)
    (hp : j'.phase = j.phase) (hg : j'.GcActive → j.GcActive) : EngineInv cfg j' hist :=
  ⟨fun h => hv h ▸ hp ▸ hi.handle h, hp ▸ hi.settled, hp ▸ hi.unstarted, hi.once, hi.gc ∘ hg,
    hp ▸ hi.noNilGC⟩

/-- A receive on an accepted handle takes its waiting value, and never opens it. -/
theorem HandleInv.recv {h : Subscriber} {p : Phase} {v : View} {r : Option Error}
    {ch : Chan Error} (hi : HandleInv hist h p v) (hacc : Accepted hist h)
    (hrecv : v.handle.recv? = some (r, ch)) : HandleInv hist h p { v with handle := ch } := by
  have hcl : ch.closed = v.handle.closed := Chan.recv?_closed hrecv
  refine ⟨fun hn => absurd hacc hn, hi.table, fun hx t c he => ?_, fun hr => ?_,
    fun hx hr => hcl ▸ hi.exit hx hr, hi.calls, hi.callsEq⟩
  · rw [hi.listedOpen hx t c he] at hrecv; cases hrecv
  · rw [hcl]; exact hi.listed hr

theorem EngineInv.recv {h : Subscriber} {r : Option Error} {ch : Chan Error}
    (hi : EngineInv cfg j hist) (hacc : Accepted hist h) (hrecv : (j.handles h).recv? = some (r, ch)) :
    EngineInv cfg { j with handles := Function.update j.handles h ch } hist := by
  refine ⟨fun y => ?_, hi.settled, hi.unstarted, hi.once, hi.gc, hi.noNilGC⟩
  by_cases hy : y = h
  · subst hy
    have hv : Joe.view y { j with handles := Function.update j.handles y ch } =
        { j.view y with handle := ch } := by simp [Joe.view]
    rw [hv]
    exact (hi.handle y).recv hacc hrecv
  · have hv : Joe.view y { j with handles := Function.update j.handles h ch } = j.view y := by
      simp [Joe.view, Function.update_noteq hy]
    rw [hv]
    exact hi.handle y

/-- **One step of the engine keeps the engine's invariant**, from the loop's `select` (or from
    `gcFn`), with a waiting tick for a `gcSignal` case. -/
theorem EngineInv.step {ev : Event} {a : Answers} (hi : EngineInv cfg j hist)
    (hr : j.phase = .running ∨ (j.phase = .collecting ∧ ev = .collected))
    (hadm : ev.Admissible hist) (ha : a.Valid cfg ev) (htick : ev = .gcSignal → j.gcTick = true) :
    EngineInv cfg (j.step cfg.hasGC a ev) (hist ++ [(ev, a)]) := by
  have hph : (j.step cfg.hasGC a ev).phase.inLoop ∨
      ∃ f, (j.step cfg.hasGC a ev).phase = .exited f ∧ Unwinds cfg.hasGC ev f :=
    step_phase hi.handle hr hadm ha
  refine ⟨handleInv_step hi.handle hr hadm ha, ?_, fun hu => ?_, ?_,
    fun hg => hi.gc (Joe.gcActive_step htick hg), fun hx => ?_⟩
  · rcases hph with hl | ⟨f, hf, hne, -⟩
    · revert hl; cases (j.step cfg.hasGC a ev).phase <;> simp [Phase.inLoop, Phase.Settled]
    · rw [hf]; exact hne
  · rcases hph with hl | ⟨f, hf, -⟩
    · rw [hu] at hl; cases hl
    · rw [hu] at hf; cases hf
  · intro h s s' a1 a2 hm1 hm2
    rcases List.mem_append.1 hm1 with h1 | h1 <;> rcases List.mem_append.1 hm2 with h2 | h2
    · exact hi.once h s s' a1 a2 h1 h2
    · obtain ⟨rfl, -⟩ := Prod.mk.inj (List.mem_singleton.1 h2)
      exact absurd ⟨s, a1, h1⟩ (hadm : ¬Accepted hist h)
    · obtain ⟨rfl, -⟩ := Prod.mk.inj (List.mem_singleton.1 h1)
      exact absurd ⟨s', a2, h2⟩ (hadm : ¬Accepted hist h)
    · obtain ⟨e1, -⟩ := Prod.mk.inj (List.mem_singleton.1 h1)
      obtain ⟨e2, -⟩ := Prod.mk.inj (List.mem_singleton.1 h2)
      exact (Event.subscription.inj (e1.trans e2.symm)).2
  · -- a nil `gcFn` is never called: a tick waits only when `init` started the ticker
    rcases hph with hl | ⟨f, hf, -, hnil⟩
    · rw [hx] at hl; cases hl
    · rw [hx] at hf
      obtain ⟨rfl, hg⟩ := hnil (Phase.exited.inj hf).symm
      rw [(hi.gc (.inr (.inl (htick rfl)))).1] at hg
      cases hg

/-! ## 3. The calls' goroutines -/

/-- The handle a `Subscribe` call holds where it stands. -/
def Pc.handle : Pc → Option Subscriber
  | .subscribing h | .waiting h | .unsubscribing h => some h
  | _ => none

/-- A call's goroutine as the engine's history knows it: the handle it holds was made before
    `next`, and a subscribe case has taken it exactly once the call has sent it. -/
def Thread.Holds (hist : List (Event × Answers)) (next : Subscriber) (t : Thread) : Prop :=
  ∀ h, t.pc.handle = some h → h < next ∧ (t.pc = .subscribing h ↔ ¬Accepted hist h)

/-- A `Shutdown` call past its `close(j.done)`. -/
def Thread.Closer (t : Thread) : Prop :=
  t.method = .Shutdown ∧
    (t.pc = .draining ∨ t.pc = .returned none ∨ t.pc = .returned (some .contextDone))

/-- **The invariant of the program.** -/
structure WorldInv (cfg : Config) (w : World) : Prop where
  engine : EngineInv cfg w.joe w.hist
  spawned : ∀ i, w.spawned ≤ i → w.threads i = none
  fresh : ∀ h, w.next ≤ h → ¬Accepted w.hist h
  holds : ∀ i t, w.threads i = some t → t.Holds w.hist w.next
  owner : ∀ i i' t t' h, w.threads i = some t → w.threads i' = some t' →
    t.pc.handle = some h → t'.pc.handle = some h → i = i'
  returns : ∀ i t r, w.threads i = some t → t.method = .Shutdown → t.pc = .returned r →
    r = some .providerClosed ∨ t.Closer
  closer : w.joe.done = true ↔ ∃ i t, w.threads i = some t ∧ t.Closer
  closerOnce : ∀ i i' t t', w.threads i = some t → w.threads i' = some t' → t.Closer →
    t'.Closer → i = i'
  drained : ∀ i t, w.threads i = some t → t.method = .Shutdown → t.pc = .returned none →
    w.joe.phase.isExited

theorem worldInv_init : WorldInv cfg World.init where
  engine := engineInv_zero
  spawned _ _ := rfl
  fresh _ _ := fun ⟨_, _, h⟩ => by cases h
  holds _ _ h := by cases h
  owner _ _ _ _ _ h := by cases h
  returns _ _ _ h := by cases h
  closer := by simp [World.init, Joe.zero]
  closerOnce _ _ _ _ h := by cases h
  drained _ _ h := by cases h

/-- A thread of the world after `setThread i t'`: the new one, or one that was there. -/
theorem thread_update {f : Nat → Option Thread} {i i' : Nat} {t' t₁ : Thread}
    (h : Function.update f i (some t') i' = some t₁) :
    (i' = i ∧ t₁ = t') ∨ (i' ≠ i ∧ f i' = some t₁) := by
  by_cases hi : i' = i
  · subst hi
    rw [Function.update_same, Option.some.injEq] at h
    exact .inl ⟨rfl, h.symm⟩
  · rw [Function.update_noteq hi] at h
    exact .inr ⟨hi, h⟩

theorem accepted_append_of_ne {ev : Event} {a : Answers} {h : Subscriber}
    (hsub : ∀ s, ev ≠ .subscription h s) : Accepted (hist ++ [(ev, a)]) h ↔ Accepted hist h :=
  accepted_append.trans (or_iff_left fun ⟨s, hs⟩ => hsub s hs)

variable {w : World}

theorem WorldInv.lt_spawned (hw : WorldInv cfg w) {i : Nat} {t : Thread}
    (ht : w.threads i = some t) : i < w.spawned :=
  Nat.lt_of_not_le fun hle => by rw [hw.spawned i hle] at ht; cases ht

/-- The goroutines `f` are those of `w`, each holding no handle its predecessor at the same index
    did not hold, and past a `Shutdown`'s `close` exactly when it was. -/
def World.Backs (w : World) (f : Nat → Option Thread) : Prop :=
  ∀ i t, f i = some t → ∃ t₀, w.threads i = some t₀ ∧
    (∀ h, t.pc.handle = some h → t₀.pc.handle = some h) ∧ (t.Closer ↔ t₀.Closer)

theorem backs_update {i : Nat} {t t' : Thread} (ht : w.threads i = some t)
    (hown : t'.pc.handle = none ∨ t'.pc.handle = t.pc.handle) (hcl : t'.Closer ↔ t.Closer) :
    w.Backs (Function.update w.threads i (some t')) := by
  intro i₁ t₁ h₁
  rcases thread_update h₁ with ⟨rfl, rfl⟩ | ⟨-, h₁⟩
  · refine ⟨t, ht, fun h hh => ?_, hcl⟩
    rcases hown with hn | he
    · rw [hn] at hh; cases hh
    · rwa [← he]
  · exact ⟨t₁, h₁, fun _ => id, Iff.rfl⟩

theorem WorldInv.owner_of_backs (hw : WorldInv cfg w) {f : Nat → Option Thread} (hb : w.Backs f)
    {i₁ i₂ : Nat} {t₁ t₂ : Thread} {h : Subscriber} (h₁ : f i₁ = some t₁) (h₂ : f i₂ = some t₂)
    (hh₁ : t₁.pc.handle = some h) (hh₂ : t₂.pc.handle = some h) : i₁ = i₂ := by
  obtain ⟨u₁, g₁, hu₁, -⟩ := hb i₁ t₁ h₁
  obtain ⟨u₂, g₂, hu₂, -⟩ := hb i₂ t₂ h₂
  exact hw.owner i₁ i₂ u₁ u₂ h g₁ g₂ (hu₁ h hh₁) (hu₂ h hh₂)

theorem WorldInv.closerOnce_of_backs (hw : WorldInv cfg w) {f : Nat → Option Thread}
    (hb : w.Backs f) {i₁ i₂ : Nat} {t₁ t₂ : Thread} (h₁ : f i₁ = some t₁) (h₂ : f i₂ = some t₂)
    (c₁ : t₁.Closer) (c₂ : t₂.Closer) : i₁ = i₂ := by
  obtain ⟨u₁, g₁, -, hc₁⟩ := hb i₁ t₁ h₁
  obtain ⟨u₂, g₂, -, hc₂⟩ := hb i₂ t₂ h₂
  exact hw.closerOnce i₁ i₂ u₁ u₂ g₁ g₂ (hc₁.1 c₁) (hc₂.1 c₂)

/-- Moving one goroutine, to a closer exactly when it was one, keeps the set of closers. -/
theorem closer_update {i : Nat} {t t' : Thread} (ht : w.threads i = some t)
    (hcl : t'.Closer ↔ t.Closer) :
    (∃ i₁ t₁, Function.update w.threads i (some t') i₁ = some t₁ ∧ t₁.Closer) ↔
      ∃ i₁ t₁, w.threads i₁ = some t₁ ∧ t₁.Closer := by
  constructor
  · rintro ⟨i₁, t₁, h₁, c₁⟩
    rcases thread_update h₁ with ⟨rfl, rfl⟩ | ⟨-, h₁⟩
    · exact ⟨i₁, t, ht, hcl.1 c₁⟩
    · exact ⟨i₁, t₁, h₁, c₁⟩
  · rintro ⟨i₁, t₁, h₁, c₁⟩
    by_cases hi : i₁ = i
    · subst hi
      rw [ht, Option.some.injEq] at h₁
      subst h₁
      exact ⟨i₁, t', by simp, hcl.2 c₁⟩
    · exact ⟨i₁, t₁, by simp [Function.update_noteq hi, h₁], c₁⟩

theorem WorldInv.spawned_update (hw : WorldInv cfg w) {i : Nat} {t t' : Thread}
    (ht : w.threads i = some t) (i₁ : Nat) (h₁ : w.spawned ≤ i₁) :
    Function.update w.threads i (some t') i₁ = none := by
  have := hw.lt_spawned ht
  simp [Function.update_noteq (show i₁ ≠ i by omega), hw.spawned i₁ h₁]

/-- **A rule that only moves call `i`'s goroutine** keeps the invariant, when the new goroutine
    holds no handle but the old one's, is a `Shutdown` past its `close` exactly when the old one
    was, and returns from `Shutdown` as the invariant says. -/
theorem WorldInv.setThread (hw : WorldInv cfg w) {i : Nat} {t : Thread} (ht : w.threads i = some t)
    (t' : Thread) (hholds : t'.Holds w.hist w.next)
    (hown : t'.pc.handle = none ∨ t'.pc.handle = t.pc.handle)
    (hret : ∀ r, t'.method = .Shutdown → t'.pc = .returned r →
      r = some .providerClosed ∨ t'.Closer)
    (hcl : t'.Closer ↔ t.Closer)
    (hdr : t'.method = .Shutdown → t'.pc = .returned none → w.joe.phase.isExited) :
    WorldInv cfg (w.setThread i t') := by
  have hb := backs_update ht hown hcl
  refine ⟨hw.engine, hw.spawned_update ht, hw.fresh, fun i₁ t₁ h₁ => ?_,
    fun _ _ _ _ _ h₁ h₂ hh₁ hh₂ => hw.owner_of_backs hb h₁ h₂ hh₁ hh₂, fun i₁ t₁ r h₁ => ?_,
    by rw [World.setThread_joe, hw.closer, World.setThread_threads, closer_update ht hcl],
    fun _ _ _ _ h₁ h₂ c₁ c₂ => hw.closerOnce_of_backs hb h₁ h₂ c₁ c₂, fun i₁ t₁ h₁ => ?_⟩
  · rcases thread_update h₁ with ⟨-, rfl⟩ | ⟨-, h₁⟩
    · exact hholds
    · exact hw.holds i₁ t₁ h₁
  · rcases thread_update h₁ with ⟨-, rfl⟩ | ⟨-, h₁⟩
    · exact hret r
    · exact hw.returns i₁ t₁ r h₁
  · rcases thread_update h₁ with ⟨-, rfl⟩ | ⟨-, h₁⟩
    · exact hdr
    · exact hw.drained i₁ t₁ h₁

/-- A change of the engine alone, with no case taken, keeps the invariant when it keeps the
    engine's, `j.done`, and an exited engine exited. -/
theorem WorldInv.setJoe (hw : WorldInv cfg w) {j : Joe} (he : EngineInv cfg j w.hist)
    (hd : j.done = w.joe.done) (hx : w.joe.phase.isExited → j.phase.isExited) :
    WorldInv cfg (w.setJoe j) :=
  ⟨he, hw.spawned, hw.fresh, hw.holds, hw.owner, hw.returns, by rw [World.setJoe_joe, hd]; exact hw.closer,
    hw.closerOnce, fun i t h₁ hm hp => hx (hw.drained i t h₁ hm hp)⟩

/-- No `Shutdown` has returned nil while the loop runs. -/
theorem WorldInv.not_drained (hw : WorldInv cfg w) (hl : w.joe.phase.inLoop) {i : Nat}
    {t : Thread} (h₁ : w.threads i = some t) (hm : t.method = .Shutdown) :
    t.pc ≠ .returned none := fun hp => by
  have := hw.drained i t h₁ hm hp
  rw [Phase.isExited_of_inLoop hl] at this
  cases this

/-- **A case of the engine that takes no handle** keeps the invariant. -/
theorem WorldInv.engineStep {ev : Event} {a : Answers} (hw : WorldInv cfg w)
    (hr : w.joe.phase = .running ∨ (w.joe.phase = .collecting ∧ ev = .collected))
    (hadm : ev.Admissible w.hist) (ha : a.Valid cfg ev)
    (htick : ev = .gcSignal → w.joe.gcTick = true) (hsub : ∀ x s, ev ≠ .subscription x s) :
    WorldInv cfg (w.engine cfg a ev) := by
  have hl : w.joe.phase.inLoop := by rcases hr with hr | ⟨hr, -⟩ <;> rw [hr] <;> rfl
  have hacc : ∀ h, Accepted (w.hist ++ [(ev, a)]) h ↔ Accepted w.hist h := fun h =>
    accepted_append_of_ne (hsub h)
  refine ⟨hw.engine.step hr hadm ha htick, hw.spawned, fun h hh => by rw [World.engine_hist, hacc]; exact hw.fresh h hh,
    fun i t h₁ h hh => ?_, hw.owner, hw.returns, by rw [World.engine_joe, Joe.done_step]; exact hw.closer,
    hw.closerOnce, fun i t h₁ hm hp => absurd hp (hw.not_drained hl h₁ hm)⟩
  rw [World.engine_hist, hacc]
  exact hw.holds i t h₁ h hh

/-- **The subscribe case**: the call's handle is taken, and its goroutine waits on it. -/
theorem WorldInv.subscribeSend {i : Nat} {t : Thread} {sub : Subscription} {h : Subscriber}
    {a : Answers} (hw : WorldInv cfg w) (ht : w.threads i = some t) (hpc : t.pc = .subscribing h)
    (hr : w.joe.phase = .running) (ha : a.Valid cfg (.subscription h sub)) :
    WorldInv cfg ((w.engine cfg a (.subscription h sub)).setThread i { t with pc := .waiting h }) := by
  obtain ⟨hlt, hfr⟩ := hw.holds i t ht h (by rw [hpc]; rfl)
  have hna : ¬Accepted w.hist h := hfr.1 hpc
  have hl : w.joe.phase.inLoop := by rw [hr]; rfl
  have hacc : ∀ h', h' ≠ h → (Accepted (w.hist ++ [(.subscription h sub, a)]) h' ↔
      Accepted w.hist h') := fun h' hne =>
    accepted_append_of_ne fun s hs => hne (Event.subscription.inj hs).1.symm
  have hcl : Thread.Closer { t with pc := .waiting h } ↔ t.Closer := by
    simp [Thread.Closer, hpc]
  have hb : w.Backs (Function.update w.threads i (some { t with pc := .waiting h })) :=
    backs_update ht (.inr (by rw [hpc]; rfl)) hcl
  refine ⟨hw.engine.step (.inl hr) hna ha nofun, hw.spawned_update ht, fun h' hh => ?_,
    fun i₁ t₁ h₁ => ?_, fun _ _ _ _ _ h₁ h₂ hh₁ hh₂ => hw.owner_of_backs hb h₁ h₂ hh₁ hh₂,
    fun i₁ t₁ r h₁ hm hp => ?_, ?_, fun _ _ _ _ h₁ h₂ c₁ c₂ => hw.closerOnce_of_backs hb h₁ h₂ c₁ c₂,
    fun i₁ t₁ h₁ hm hp => ?_⟩
  · -- a handle made after every call's is still untaken
    have hh' : w.next ≤ h' := hh
    simp only [World.setThread_hist, World.engine_hist]
    rw [hacc h' (Nat.ne_of_gt (Nat.lt_of_lt_of_le hlt hh'))]
    exact hw.fresh h' hh'
  · simp only [World.setThread_threads, World.engine_threads] at h₁
    rcases thread_update h₁ with ⟨-, rfl⟩ | ⟨hne, h₁⟩
    · -- the caller waits on its handle, now taken
      intro h' hh
      cases hh
      exact ⟨hlt, by simp [accepted_append]⟩
    · -- every other call holds another handle
      intro h' hh
      have hne' : h' ≠ h := fun he =>
        hne (hw.owner i₁ i t₁ t h' h₁ ht hh (by rw [hpc, he]; rfl))
      simp only [World.setThread_hist, World.engine_hist, World.setThread_next, World.engine_next]
      rw [hacc h' hne']
      exact hw.holds i₁ t₁ h₁ h' hh
  · simp only [World.setThread_threads, World.engine_threads] at h₁
    rcases thread_update h₁ with ⟨-, rfl⟩ | ⟨-, h₁⟩
    · cases hp
    · exact hw.returns i₁ t₁ r h₁ hm hp
  · rw [World.setThread_joe, World.engine_joe, Joe.done_step, hw.closer, World.setThread_threads,
      World.engine_threads, closer_update ht hcl]
  · simp only [World.setThread_threads, World.engine_threads] at h₁
    rcases thread_update h₁ with ⟨-, rfl⟩ | ⟨-, h₁⟩
    · cases hp
    · exact absurd hp (hw.not_drained hl h₁ hm)

theorem isExited_init {j : Joe} : (j.init cfg).phase.isExited = j.phase.isExited := by
  unfold Joe.init
  split <;> simp_all [Phase.isExited]

/-- `Subscribe`'s `j.init()` and `make(chan error, 1)`: the call holds a handle no one has. -/
theorem WorldInv.subscribeInit {i : Nat} {t : Thread} {sub : Subscription} (hw : WorldInv cfg w)
    (ht : w.threads i = some t) (hm : t.method = .Subscribe sub) :
    WorldInv cfg { (w.setJoe (w.joe.init cfg)).setThread i { t with pc := .subscribing w.next }
      with next := w.next + 1 } := by
  have hcl : Thread.Closer { t with pc := .subscribing w.next } ↔ t.Closer := by
    simp [Thread.Closer, hm]
  have hnc : ¬t.Closer := fun ⟨hs, _⟩ => by rw [hm] at hs; cases hs
  refine ⟨hw.engine.init, hw.spawned_update ht, fun h hh => hw.fresh h (Nat.le_of_succ_le hh),
    fun i₁ t₁ h₁ => ?_, fun i₁ i₂ t₁ t₂ h h₁ h₂ hh₁ hh₂ => ?_, fun i₁ t₁ r h₁ hm' hp => ?_,
    ?_, fun i₁ i₂ t₁ t₂ h₁ h₂ c₁ c₂ => ?_, fun i₁ t₁ h₁ hm' hp => ?_⟩
  · simp only [World.setThread_threads, World.setJoe_threads] at h₁
    rcases thread_update h₁ with ⟨-, rfl⟩ | ⟨-, h₁⟩
    · intro h hh
      cases hh
      exact ⟨Nat.lt_succ_self _, by simpa using hw.fresh w.next le_rfl⟩
    · intro h hh
      obtain ⟨hlt, hs⟩ := hw.holds i₁ t₁ h₁ h hh
      exact ⟨Nat.lt_succ_of_lt hlt, hs⟩
  · -- the new handle is above every handle a call held
    simp only [World.setThread_threads, World.setJoe_threads] at h₁ h₂
    rcases thread_update h₁ with ⟨e₁, rfl⟩ | ⟨-, h₁⟩ <;>
      rcases thread_update h₂ with ⟨e₂, rfl⟩ | ⟨-, h₂⟩
    · exact e₁.trans e₂.symm
    · cases hh₁; exact absurd (hw.holds i₂ t₂ h₂ _ hh₂).1 (Nat.lt_irrefl _)
    · cases hh₂; exact absurd (hw.holds i₁ t₁ h₁ _ hh₁).1 (Nat.lt_irrefl _)
    · exact hw.owner i₁ i₂ t₁ t₂ h h₁ h₂ hh₁ hh₂
  · simp only [World.setThread_threads, World.setJoe_threads] at h₁
    rcases thread_update h₁ with ⟨-, rfl⟩ | ⟨-, h₁⟩
    · cases hp
    · exact hw.returns i₁ t₁ r h₁ hm' hp
  · simp only [World.setThread_joe, World.setJoe_joe, Joe.done_init, World.setThread_threads,
      World.setJoe_threads]
    rw [hw.closer, closer_update ht hcl]
  · simp only [World.setThread_threads, World.setJoe_threads] at h₁ h₂
    rcases thread_update h₁ with ⟨-, rfl⟩ | ⟨-, h₁⟩
    · exact absurd (hcl.1 c₁) hnc
    rcases thread_update h₂ with ⟨-, rfl⟩ | ⟨-, h₂⟩
    · exact absurd (hcl.1 c₂) hnc
    exact hw.closerOnce i₁ i₂ t₁ t₂ h₁ h₂ c₁ c₂
  · simp only [World.setThread_threads, World.setJoe_threads] at h₁
    rcases thread_update h₁ with ⟨-, rfl⟩ | ⟨-, h₁⟩
    · cases hp
    · simp only [World.setThread_joe, World.setJoe_joe, isExited_init]
      exact hw.drained i₁ t₁ h₁ hm' hp

/-- `Shutdown`'s `close(j.done)`: the caller is the one closer. -/
theorem WorldInv.shutdownClose {i : Nat} {t : Thread} (hw : WorldInv cfg w)
    (ht : w.threads i = some t) (hm : t.method = .Shutdown) (hd : w.joe.done = false) :
    WorldInv cfg ((w.setJoe { w.joe with done := true }).setThread i { t with pc := .draining }) := by
  have hnone : ∀ i₁ t₁, w.threads i₁ = some t₁ → ¬t₁.Closer := fun i₁ t₁ h₁ c₁ => by
    have := hw.closer.2 ⟨i₁, t₁, h₁, c₁⟩
    rw [hd] at this; cases this
  have hc' : Thread.Closer { t with pc := .draining } := ⟨hm, .inl rfl⟩
  refine ⟨hw.engine.of_view (fun _ => rfl) rfl id, hw.spawned_update ht, hw.fresh,
    fun i₁ t₁ h₁ => ?_, fun i₁ i₂ t₁ t₂ h h₁ h₂ hh₁ hh₂ => ?_, fun i₁ t₁ r h₁ hm' hp => ?_,
    ⟨fun _ => ⟨i, _, by simp, hc'⟩, fun _ => rfl⟩, fun i₁ i₂ t₁ t₂ h₁ h₂ c₁ c₂ => ?_,
    fun i₁ t₁ h₁ hm' hp => ?_⟩
  all_goals simp only [World.setThread_threads, World.setJoe_threads] at *
  · rcases thread_update h₁ with ⟨-, rfl⟩ | ⟨-, h₁⟩
    · intro h hh; cases hh
    · exact hw.holds i₁ t₁ h₁
  · rcases thread_update h₁ with ⟨-, rfl⟩ | ⟨-, h₁⟩
    · cases hh₁
    rcases thread_update h₂ with ⟨-, rfl⟩ | ⟨-, h₂⟩
    · cases hh₂
    exact hw.owner i₁ i₂ t₁ t₂ h h₁ h₂ hh₁ hh₂
  · rcases thread_update h₁ with ⟨-, rfl⟩ | ⟨-, h₁⟩
    · cases hp
    · exact hw.returns i₁ t₁ r h₁ hm' hp
  · -- before this call, no call was past its `close`
    rcases thread_update h₁ with ⟨e₁, -⟩ | ⟨-, h₁⟩
    · rcases thread_update h₂ with ⟨e₂, -⟩ | ⟨-, h₂⟩
      · exact e₁.trans e₂.symm
      · exact absurd c₂ (hnone i₂ t₂ h₂)
    · exact absurd c₁ (hnone i₁ t₁ h₁)
  · rcases thread_update h₁ with ⟨-, rfl⟩ | ⟨-, h₁⟩
    · cases hp
    · exact hw.drained i₁ t₁ h₁ hm' hp

/-- A new call of a method. -/
theorem WorldInv.spawn (hw : WorldInv cfg w) (m : Method) : WorldInv cfg (w.spawn m) := by
  have hnew : w.threads w.spawned = none := hw.spawned _ le_rfl
  have back : ∀ i₁ t₁, (w.spawn m).threads i₁ = some t₁ →
      (i₁ = w.spawned ∧ t₁ = ⟨m, false, .start⟩) ∨ (i₁ ≠ w.spawned ∧ w.threads i₁ = some t₁) :=
    fun _ _ h₁ => thread_update h₁
  have hnc : ¬Thread.Closer ⟨m, false, .start⟩ := fun ⟨_, hp⟩ => by
    rcases hp with hp | hp | hp <;> cases hp
  refine ⟨hw.engine, fun i₁ h₁ => ?_, hw.fresh, fun i₁ t₁ h₁ => ?_,
    fun i₁ i₂ t₁ t₂ h h₁ h₂ hh₁ hh₂ => ?_, fun i₁ t₁ r h₁ hm' hp => ?_, ?_,
    fun i₁ i₂ t₁ t₂ h₁ h₂ c₁ c₂ => ?_, fun i₁ t₁ h₁ hm' hp => ?_⟩
  · simp only [World.spawn_spawned] at h₁
    simp [Function.update_noteq (show i₁ ≠ w.spawned by omega), hw.spawned i₁ (by omega)]
  · rcases back i₁ t₁ h₁ with ⟨-, rfl⟩ | ⟨-, h₁⟩
    · intro h hh; cases hh
    · exact hw.holds i₁ t₁ h₁
  · rcases back i₁ t₁ h₁ with ⟨-, rfl⟩ | ⟨-, h₁⟩
    · cases hh₁
    rcases back i₂ t₂ h₂ with ⟨-, rfl⟩ | ⟨-, h₂⟩
    · cases hh₂
    exact hw.owner i₁ i₂ t₁ t₂ h h₁ h₂ hh₁ hh₂
  · rcases back i₁ t₁ h₁ with ⟨-, rfl⟩ | ⟨-, h₁⟩
    · cases hp
    · exact hw.returns i₁ t₁ r h₁ hm' hp
  · rw [World.spawn_joe, hw.closer]
    constructor
    · rintro ⟨i₁, t₁, h₁, c₁⟩
      have hne : i₁ ≠ w.spawned := fun e => by rw [e, hnew] at h₁; cases h₁
      exact ⟨i₁, t₁, by rw [World.spawn_threads, Function.update_noteq hne]; exact h₁, c₁⟩
    · rintro ⟨i₁, t₁, h₁, c₁⟩
      rcases back i₁ t₁ h₁ with ⟨-, rfl⟩ | ⟨-, h₁⟩
      · exact absurd c₁ hnc
      · exact ⟨i₁, t₁, h₁, c₁⟩
  · rcases back i₁ t₁ h₁ with ⟨-, rfl⟩ | ⟨-, h₁⟩
    · exact absurd c₁ hnc
    rcases back i₂ t₂ h₂ with ⟨-, rfl⟩ | ⟨-, h₂⟩
    · exact absurd c₂ hnc
    exact hw.closerOnce i₁ i₂ t₁ t₂ h₁ h₂ c₁ c₂
  · rcases back i₁ t₁ h₁ with ⟨-, rfl⟩ | ⟨-, h₁⟩
    · cases hp
    · exact hw.drained i₁ t₁ h₁ hm' hp

/-- A call other than `Shutdown` moving on, holding its handle or none. -/
theorem WorldInv.moveCall (hw : WorldInv cfg w) {i : Nat} {t : Thread} (ht : w.threads i = some t)
    (hm : t.method ≠ .Shutdown) (p : Pc) (hholds : Thread.Holds w.hist w.next { t with pc := p })
    (hown : p.handle = none ∨ p.handle = t.pc.handle) : WorldInv cfg (w.setThread i { t with pc := p }) :=
  hw.setThread ht _ hholds hown (fun _ hm' => absurd hm' hm)
    ⟨fun ⟨hm', _⟩ => absurd hm' hm, fun ⟨hm', _⟩ => absurd hm' hm⟩ (fun hm' => absurd hm' hm)

theorem Thread.holds_of_handle {hist : List (Event × Answers)} {next : Subscriber} {t : Thread}
    (h : t.pc.handle = none) : t.Holds hist next := fun _ hh => by rw [h] at hh; cases hh

theorem Thread.not_closer_of_pc {t : Thread}
    (hp : t.pc ≠ .draining ∧ t.pc ≠ .returned none ∧ t.pc ≠ .returned (some .contextDone)) :
    ¬t.Closer := fun ⟨_, h⟩ => by
  rcases h with h | h | h
  · exact hp.1 h
  · exact hp.2.1 h
  · exact hp.2.2 h

/-- **Every rule of the program keeps the invariant.** -/
theorem WorldInv.step {w w' : World} (hw : WorldInv cfg w) (hs : Step cfg w w') :
    WorldInv cfg w' := by
  have hinit : WorldInv cfg (w.setJoe (w.joe.init cfg)) :=
    hw.setJoe hw.engine.init Joe.done_init fun h => isExited_init.trans h
  cases hs with
  | spawn m => exact hw.spawn m
  | @cancel i t ht =>
    exact hw.setThread ht _ (fun h hh => hw.holds i t ht h hh) (.inr rfl)
      (fun r hm hp => hw.returns i t r ht hm hp) Iff.rfl (fun hm hp => hw.drained i t ht hm hp)
  | tick hon => exact hw.setJoe (hw.engine.of_view (fun _ => rfl) rfl fun _ => .inl hon) rfl id
  | publishNoTopic ht hm _ =>
    exact hw.moveCall ht (by rw [hm]; nofun) _ (Thread.holds_of_handle rfl) (.inl rfl)
  | publishInit ht hm _ _ =>
    exact hinit.moveCall ht (by rw [hm]; nofun) _ (Thread.holds_of_handle rfl) (.inl rfl)
  | publishSend ht hm _ hr ha =>
    exact (hw.engineStep (.inl hr) (by trivial) ha nofun nofun).moveCall ht (by rw [hm]; nofun) _
      (Thread.holds_of_handle rfl) (.inl rfl)
  | publishClosed ht hm _ _ =>
    exact hw.moveCall ht (by rw [hm]; nofun) _ (Thread.holds_of_handle rfl) (.inl rfl)
  | subscribeInit ht hm _ => exact hw.subscribeInit ht hm
  | subscribeClosed ht hm _ _ =>
    exact hw.moveCall ht (by rw [hm]; nofun) _ (Thread.holds_of_handle rfl) (.inl rfl)
  | subscribeSend ht _ hpc hr ha => exact hw.subscribeSend ht hpc hr ha
  | @subscribeRecv i t _ h _ _ ht hm hpc hrecv =>
    -- the caller waits on its handle, so a subscribe case has taken it
    have hacc : Accepted w.hist h := by
      have hh : t.pc.handle = some h := by rcases hpc with hpc | hpc <;> rw [hpc] <;> rfl
      refine not_not.1 fun hn => ?_
      have := (hw.holds i t ht h hh).2.2 hn
      rcases hpc with hpc | hpc <;> rw [hpc] at this <;> cases this
    exact (hw.setJoe (hw.engine.recv hacc hrecv) rfl id).moveCall ht (by rw [hm]; nofun) _
      (Thread.holds_of_handle rfl) (.inl rfl)
  | @subscribeCancel i t _ h ht hm hpc _ =>
    refine hw.moveCall ht (by rw [hm]; nofun) _ (fun h' hh => ?_) (.inr (by rw [hpc]; rfl))
    cases hh
    have := hw.holds i t ht h (by rw [hpc]; rfl)
    rw [hpc] at this
    exact ⟨this.1, by simpa using this.2⟩
  | @unsubscribeSend i t _ h _ ht hm hpc hr ha =>
    have hacc : Accepted w.hist h := by
      have := (hw.holds i t ht h (by rw [hpc]; rfl)).2
      rw [hpc] at this
      simpa using this
    exact (hw.engineStep (.inl hr) (by exact hacc) ha nofun nofun).moveCall ht (by rw [hm]; nofun) _
      (Thread.holds_of_handle rfl) (.inl rfl)
  | shutdownInit ht _ hpc =>
    exact hinit.setThread ht _ (Thread.holds_of_handle rfl) (.inl rfl) (fun _ _ hp => by cases hp)
      (iff_of_false (Thread.not_closer_of_pc ⟨nofun, nofun, nofun⟩)
        (Thread.not_closer_of_pc (by rw [hpc]; exact ⟨nofun, nofun, nofun⟩)))
      (fun _ hp => by cases hp)
  | shutdownClose ht hm _ hd => exact hw.shutdownClose ht hm hd
  | shutdownRecover ht _ hpc _ =>
    exact hw.setThread ht _ (Thread.holds_of_handle rfl) (.inl rfl)
      (fun r _ hp => .inl (Pc.returned.inj hp).symm)
      (iff_of_false (Thread.not_closer_of_pc ⟨nofun, nofun, nofun⟩)
        (Thread.not_closer_of_pc (by rw [hpc]; exact ⟨nofun, nofun, nofun⟩)))
      (fun _ hp => by cases hp)
  | @shutdownClosed i t f ht hm hpc hx =>
    exact hw.setThread ht _ (Thread.holds_of_handle rfl) (.inl rfl)
      (fun _ _ _ => .inr ⟨hm, .inr (.inl rfl)⟩) (iff_of_true ⟨hm, .inr (.inl rfl)⟩ ⟨hm, .inl hpc⟩)
      (fun _ _ => by rw [hx]; rfl)
  | @shutdownCtx i t ht hm hpc _ =>
    exact hw.setThread ht _ (Thread.holds_of_handle rfl) (.inl rfl)
      (fun _ _ _ => .inr ⟨hm, .inr (.inr rfl)⟩) (iff_of_true ⟨hm, .inr (.inr rfl)⟩ ⟨hm, .inl hpc⟩)
      (fun _ hp => by cases hp)
  | gcSignal hr htk ha => exact hw.engineStep (.inl hr) (by trivial) ha (fun _ => htk) nofun
  | collected hc ha => exact hw.engineStep (.inr ⟨hc, rfl⟩) (by trivial) ha nofun nofun
  | stop hr _ ha => exact hw.engineStep (.inl hr) (by trivial) ha nofun nofun

/-- **The invariant holds of every reachable world.** -/
theorem worldInv_reachable {w : World} (hr : Reachable cfg w) : WorldInv cfg w := by
  induction hr with
  | refl => exact worldInv_init
  | tail _ hs ih => exact ih.step hs

end GoSse
