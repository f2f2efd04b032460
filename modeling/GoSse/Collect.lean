import GoSse.Reach

/-!
# The ticker and `GC`

`init` gives the loop a `gcFn` and a ticker only for a provider that implements
`ReplayProviderWithGC`, and the ticker only for a positive interval; the `gcSignal` case calls
`gcFn` and, when it returns an error, calls `stopGCSignal`. Over every run:

* `gc_only_with_interval` -- the ticker runs, a tick waits, or `GC` was called only for a
  provider with `GC` and a positive `ReplayGCInterval`; the nil `gcFn` is never called;
* `gc_error_at_most_once` -- once `GC` returned an error the ticker is off for good, and at most
  one more `GC` call follows, for a tick that already waited in the ticker's buffer;
* `gc_called_after_error` -- and that one call happens: `Stop` of a Go ticker sends no more ticks
  but leaves a waiting one in the channel, so a tick sent while `GC` ran is taken by the next
  `select` and `GC` runs again after its error.

The ticker is Go's before 1.23 (`Provider.lean`): the module declares Go 1.19 as the oldest it
supports, and a module below 1.23 keeps the buffered ticker channel.
-/

namespace GoSse

variable {cfg : Config} {w w' : World}

/-- **`GC` only with a provider that has it and a positive interval.** In every reachable world,
    the ticker runs, a tick waits or `GC` was called only when `ReplayProvider` implements
    `ReplayProviderWithGC` and `ReplayGCInterval` is positive; and the loop never called the nil
    `gcFn`. -/
theorem gc_only_with_interval (hw : Reachable cfg w) :
    (w.joe.GcActive → cfg.hasGC ∧ 0 < cfg.ReplayGCInterval) ∧
      w.joe.phase ≠ .exited (some .nilGC) :=
  let hi := (worldInv_reachable hw).engine
  ⟨hi.gc, hi.noNilGC⟩

/-! ## The ticker stopped -/

namespace Joe

variable {a : Answers} {j : Joe} {gcFn : Bool} {ev : Event}

/-- The `GC` calls made, and one for a tick waiting in the ticker's buffer: with the ticker
    stopped, no run makes more `GC` calls than this. -/
def gcBudget (j : Joe) : Nat := j.log.count .gc + j.gcTick.toNat

theorem gcOff_of_frame {j' : Joe} (hf : j'.frame = j.frame) (hoff : j.gcOn = false) :
    j'.gcOn = false ∧ j'.gcBudget ≤ j.gcBudget := by
  simp only [frame, Prod.mk.injEq] at hf
  obtain ⟨-, h1, h2, h3⟩ := hf
  exact ⟨h1.trans hoff, by simp only [gcBudget, h2, h3, le_refl]⟩

/-- The deferred calls stop the ticker and call nothing. -/
theorem gcOff_finish (hoff : j.gcOn = false) :
    (finish a j).gcOn = false ∧ (finish a j).gcBudget ≤ j.gcBudget := by
  unfold finish
  split
  · exact ⟨rfl, le_refl _⟩
  · exact ⟨hoff, le_refl _⟩

/-- **A case with the ticker stopped keeps it stopped**, and calls `GC` only for the tick it
    takes. -/
theorem gcOff_case (hoff : j.gcOn = false) (htick : ev = .gcSignal → j.gcTick = true) :
    (case gcFn a ev j).gcOn = false ∧ (case gcFn a ev j).gcBudget ≤ j.gcBudget := by
  cases ev with
  | message m ts => exact gcOff_of_frame (frame_publish ts) hoff
  | subscription x s => exact gcOff_of_frame frame_subscribe hoff
  | unsubscription x => exact gcOff_of_frame frame_removeSubscriber hoff
  | gcSignal =>
    have ht := htick rfl
    simp only [case, gcSignal]
    split
    · simp [gcBudget, call, ht, hoff, List.count_singleton']
    · simp [gcBudget, unwind, ht, hoff]
  | collected =>
    simp only [case, collected]
    split <;> simp [unwind, hoff, gcBudget]
  | done => exact ⟨hoff, le_refl _⟩

theorem gcOff_step (hoff : j.gcOn = false) (htick : ev = .gcSignal → j.gcTick = true) :
    (j.step gcFn a ev).gcOn = false ∧ (j.step gcFn a ev).gcBudget ≤ j.gcBudget :=
  have h : (case gcFn a ev j).gcOn = false ∧ (case gcFn a ev j).gcBudget ≤ j.gcBudget :=
    gcOff_case hoff htick
  have h' : (j.step gcFn a ev).gcOn = false ∧ (j.step gcFn a ev).gcBudget ≤ _ := gcOff_finish h.1
  ⟨h'.1, h'.2.trans h.2⟩

end Joe

/-- **The program once the ticker is stopped for good**: the engine started (so `init` starts no
    ticker), the ticker is off, and `n` bounds the `GC` calls made and the tick waiting. -/
structure GcStopped (n : Nat) (w : World) : Prop where
  started : w.hist ≠ []
  off : w.joe.gcOn = false
  budget : w.joe.gcBudget ≤ n

variable {n : Nat}

theorem GcStopped.setThread (hg : GcStopped n w) {i : Nat} {t : Thread} :
    GcStopped n (w.setThread i t) :=
  ⟨hg.started, hg.off, hg.budget⟩

/-- `j.init()` does nothing once a case was taken. -/
theorem GcStopped.init (hg : GcStopped n w) (hi : WorldInv cfg w) : w.joe.init cfg = w.joe :=
  Joe.init_of_started fun hu => hg.started (hi.engine.unstarted hu)

theorem GcStopped.engine (hg : GcStopped n w) {a : Answers} {ev : Event}
    (htick : ev = .gcSignal → w.joe.gcTick = true) : GcStopped n (w.engine cfg a ev) :=
  have h : (w.joe.step cfg.hasGC a ev).gcOn = false ∧ _ := Joe.gcOff_step hg.off htick
  ⟨by simp, h.1, h.2.trans hg.budget⟩

/-- **Every rule keeps the ticker stopped and the bound on `GC` calls.** -/
theorem GcStopped.step (hg : GcStopped n w) (hi : WorldInv cfg w) (hs : Step cfg w w') :
    GcStopped n w' := by
  cases hs with
  | spawn m => exact ⟨hg.started, hg.off, hg.budget⟩
  | tick hon => exact absurd hon (by rw [hg.off]; nofun)
  | publishInit | subscribeInit | shutdownInit =>
    exact ⟨hg.started, by rw [hg.init hi]; exact hg.off, by rw [hg.init hi]; exact hg.budget⟩
  | publishSend | subscribeSend | unsubscribeSend => exact GcStopped.setThread (hg.engine (by nofun))
  | subscribeRecv | shutdownClose => exact ⟨hg.started, hg.off, hg.budget⟩
  | gcSignal _ htk _ => exact hg.engine fun _ => htk
  | collected | stop => exact hg.engine nofun
  | cancel | publishNoTopic | publishClosed | subscribeClosed | subscribeCancel | shutdownRecover
    | shutdownClosed | shutdownCtx => exact hg.setThread

theorem GcStopped.run (hg : GcStopped n w) (hw : Reachable cfg w)
    (hr : Relation.ReflTransGen (Step cfg) w w') : GcStopped n w' := by
  induction hr with
  | refl => exact hg
  | tail hr' hs ih => exact ih.step (worldInv_reachable (hw.trans hr')) hs

/-- **After `GC` returns an error, at most one more `GC` call.** From a reachable world where a
    `GC` call runs, its return with an error is a step, and every run on from there keeps the
    ticker off and calls `GC` at most once more, and not at all unless a tick waited in the
    ticker's buffer when `GC` returned. -/
theorem gc_error_at_most_once (hw : Reachable cfg w) (hc : w.joe.phase = .collecting)
    {a : Answers} {e : Error} (ha : a.Valid cfg .collected) (he : a.gc = .returns (some e)) :
    Step cfg w (w.engine cfg a .collected) ∧
      ∀ w', Relation.ReflTransGen (Step cfg) (w.engine cfg a .collected) w' →
        w'.joe.gcOn = false ∧ w'.joe.log.count .gc ≤ w.joe.log.count .gc + w.joe.gcTick.toNat := by
  have hs : Step cfg w (w.engine cfg a .collected) := .collected hc ha
  have hg : GcStopped w.joe.gcBudget (w.engine cfg a .collected) := by
    refine ⟨by simp, ?_, ?_⟩ <;>
      simp [Joe.step, Joe.case, Joe.collected, Joe.finish, he, Joe.gcBudget]
  refine ⟨hs, fun w' hr => ?_⟩
  have hg' := hg.run (hw.tail hs) hr
  have hb : w'.joe.log.count .gc ≤ w'.joe.gcBudget := Nat.le_add_right _ _
  exact ⟨hg'.off, hb.trans hg'.budget⟩

/-! ## The tick left in the buffer -/

/-- A `Joe` whose provider has `GC`, with a positive interval. -/
def gcConfig : Config := ⟨.provider true, 1⟩

/-- `GC` returns an error. -/
def Answers.gcFails (e : Error) : Answers := { Answers.quiet 0 with gc := .returns (some e) }

/-- A run of a `Joe` with `GC`: a `Publish` starts the engine and the ticker, a tick, the
    `gcSignal` case calls `GC`, and a second tick waits while it runs; from there `GC` returns an
    error, and the loop's next `select` takes the waiting tick. -/
theorem gcRun : ∃ w₀ w, Reachable gcConfig w₀ ∧ w₀.joe.phase = .collecting ∧
    w₀.joe.gcTick = true ∧ w₀.joe.log = [.gc] ∧
    Reachable gcConfig w ∧ w.hist = [(.gcSignal, Answers.quiet 0),
      (.collected, Answers.gcFails (.other 1)), (.gcSignal, Answers.quiet 0)] ∧
    w.joe.log = [.gc, .gc] := by
  have hv : ∀ ev, (Answers.quiet 0).Valid gcConfig ev :=
    fun _ => Answers.valid_listed nofun (fun _ _ => rfl) (fun _ => rfl) (fun _ _ => rfl)
  have r0 : Reachable gcConfig World.init := .refl
  have r1 := r0.tail (Step.spawn _ (.Publish 5 ["a"]))
  have r2 := r1.tail (@Step.publishInit gcConfig _ 0 _ 5 ["a"] rfl rfl rfl nofun)
  have r3 := r2.tail (@Step.tick gcConfig _ rfl)
  have r4 := r3.tail (@Step.gcSignal gcConfig _ _ rfl rfl (hv _))
  have r5 := r4.tail (@Step.tick gcConfig _ rfl)
  have r6 := r5.tail (@Step.collected gcConfig _ (Answers.gcFails (.other 1)) rfl
    (Answers.valid_listed nofun (fun _ _ => rfl) (fun _ => rfl) (fun _ _ => rfl)))
  have r7 := r6.tail (@Step.gcSignal gcConfig _ _ rfl rfl (hv _))
  exact ⟨_, _, r5, rfl, rfl, rfl, r7, rfl, rfl⟩

/-- A run of a `Joe` with `GC` where `GC` returns an error and is then called again. -/
theorem gc_called_after_error : ∃ w, Reachable gcConfig w ∧
    w.hist.map Prod.fst = [.gcSignal, .collected, .gcSignal] ∧
    (Event.collected, Answers.gcFails (.other 1)) ∈ w.hist ∧
    (Answers.gcFails (.other 1)).gc = .returns (some (.other 1)) ∧ w.joe.log = [.gc, .gc] := by
  obtain ⟨-, w, -, -, -, -, hw, hh, hl⟩ := gcRun
  exact ⟨w, hw, by rw [hh]; rfl, by simp [hh], rfl, hl⟩

theorem gc_only_with_interval_gcRun : ∃ w, Reachable gcConfig w ∧ Call.gc ∈ w.joe.log ∧
    ((w.joe.GcActive → gcConfig.hasGC ∧ 0 < gcConfig.ReplayGCInterval) ∧
      w.joe.phase ≠ .exited (some .nilGC)) := by
  obtain ⟨-, w, -, -, -, -, hw, -, hl⟩ := gcRun
  exact ⟨w, hw, by simp [hl], gc_only_with_interval hw⟩

theorem gc_error_at_most_once_gcRun : ∃ w, Reachable gcConfig w ∧ w.joe.phase = .collecting ∧
    (Answers.gcFails (.other 1)).Valid gcConfig .collected ∧
    (Answers.gcFails (.other 1)).gc = .returns (some (.other 1)) ∧
    (Step gcConfig w (w.engine gcConfig (Answers.gcFails (.other 1)) .collected) ∧
      ∀ w', Relation.ReflTransGen (Step gcConfig)
          (w.engine gcConfig (Answers.gcFails (.other 1)) .collected) w' →
        w'.joe.gcOn = false ∧ w'.joe.log.count .gc ≤ w.joe.log.count .gc + w.joe.gcTick.toNat) := by
  obtain ⟨w, -, hw, hc, -, -, -, -, -⟩ := gcRun
  have ha : (Answers.gcFails (.other 1)).Valid gcConfig .collected :=
    Answers.valid_listed nofun (fun _ _ => rfl) (fun _ => rfl) (fun _ _ => rfl)
  exact ⟨w, hw, hc, ha, rfl, gc_error_at_most_once hw hc ha rfl⟩

end GoSse
