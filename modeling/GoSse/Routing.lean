import GoSse.AfterReturn
import GoSse.Calls

/-!
# Which sink each call reaches, and what the sinks got at a normal exit

`callsTo` keeps, of each call on a sink, the handle it was made for; the call itself also names
the sink (`Call.send y c m`, `Call.flush y c`): the value the table lists for the handle, read
in the publish case's `range`. Over every run:

* `Joe.RoutesBy` -- a table that lists, and a log that called, only sinks a relation allows for
  each handle; every function of a case keeps it, a subscribe case allowing its request's
  `Client` once `Replay` returned nil (`RoutesBy.case`);
* `sink_calls_routed` -- every `Send` and `Flush` the engine made for a handle went to the
  `Client` of that handle's one request, whose `Replay` returned nil;
* `owed_at_normal_exit` -- once the loop returned from `case <-j.done` and ran its deferred
  calls, every sink got exactly the calls it was owed and the table held exactly the live
  subscriptions, whatever a sink no case called would have answered.
-/

namespace GoSse

/-! ## 1. Routed logs -/

/-- The handle and the sink of a call on a sink. -/
def Call.sink : Call → Option (Subscriber × MessageWriter)
  | .send y c _ | .flush y c => some (y, c)
  | _ => none

/-- Every call on a sink in `log` goes, for its handle `y`, to a sink `c` with `R y c`. -/
def Routed (R : Subscriber → MessageWriter → Prop) (log : List Call) : Prop :=
  ∀ call ∈ log, ∀ y c, call.sink = some (y, c) → R y c

section Routed

variable {R R' : Subscriber → MessageWriter → Prop} {l l' : List Call}

theorem Routed.append (hl : Routed R l) (hl' : Routed R l') : Routed R (l ++ l') :=
  fun call hc => (List.mem_append.1 hc).elim (hl call) (hl' call)

theorem routed_single {call : Call} (hc : ∀ y c, call.sink = some (y, c) → R y c) :
    Routed R [call] :=
  fun _ hm => List.mem_singleton.1 hm ▸ hc

theorem Routed.mono (hl : Routed R l) (hR : ∀ y c, R y c → R' y c) : Routed R' l :=
  fun call hc y c hs => hR y c (hl call hc y c hs)

end Routed

/-! ## 2. Every function of a case keeps its calls routed -/

namespace Joe

/-- The table lists, and the log called, for each handle `y`, only sinks `c` with `R y c`. -/
structure RoutesBy (R : Subscriber → MessageWriter → Prop) (j : Joe) : Prop where
  table : ∀ t y c, entry j.topics t y = some c → R y c
  log : Routed R j.log

variable {R R' : Subscriber → MessageWriter → Prop} {a : Answers} {j : Joe} {x : Subscriber}
  {m : Message} {t : Topic} {st : Joe × List Subscriber}

theorem RoutesBy.mono (hr : j.RoutesBy R) (hR : ∀ y c, R y c → R' y c) : j.RoutesBy R' :=
  ⟨fun t y c he => hR y c (hr.table t y c he), hr.log.mono hR⟩

/-- A write that keeps the table and the log. -/
theorem RoutesBy.of_eq {j' : Joe} (hr : j.RoutesBy R) (ht : j'.topics = j.topics)
    (hl : j'.log = j.log) : j'.RoutesBy R :=
  ⟨fun t y c he => hr.table t y c (ht ▸ he), hl ▸ hr.log⟩

/-- A call of `Put`, `Replay` or `GC`: no sink is called. -/
theorem RoutesBy.call (hr : j.RoutesBy R) {c : Call} (hc : c.sink = none) : (j.call c).RoutesBy R :=
  ⟨hr.table, hr.log.append (routed_single fun _ _ h => by rw [hc] at h; cases h)⟩

theorem RoutesBy.close (hr : j.RoutesBy R) : (j.close x).RoutesBy R := by
  unfold Joe.close
  split <;> exact ⟨hr.table, hr.log⟩

theorem RoutesBy.sendErr (hr : j.RoutesBy R) (err : Error) {k : Joe → Joe}
    (hk : ∀ j' : Joe, j'.RoutesBy R → (k j').RoutesBy R) : (j.sendErr x err k).RoutesBy R := by
  unfold Joe.sendErr
  split
  · exact hk _ ⟨hr.table, hr.log⟩
  · exact ⟨hr.table, hr.log⟩
  · exact ⟨hr.table, hr.log⟩

/-- `removeSubscriber` only deletes entries of the table. -/
theorem RoutesBy.removeSubscriber (hr : j.RoutesBy R) : (j.removeSubscriber x).RoutesBy R :=
  RoutesBy.close ⟨fun t y c he => by
    by_cases hy : y = x
    · simp [hy] at he
    · exact hr.table t y c (by simpa [hy] using he), hr.log⟩

/-- `Send` and `Flush` go to the sink `c` the caller read for `x`. -/
theorem RoutesBy.sendFlush (hr : j.RoutesBy R) {c : MessageWriter} (hc : R x c) :
    (Joe.sendFlush a x c m j).1.RoutesBy R := by
  have hsend : (j.call (.send x c m)).RoutesBy R :=
    ⟨hr.table, hr.log.append (routed_single fun _ _ h => by cases h; exact hc)⟩
  unfold Joe.sendFlush
  split
  · exact ⟨hsend.table, hsend.log.append (routed_single fun _ _ h => by cases h; exact hc)⟩
  · exact hsend

/-- The body of the inner `range` sends to the sink the table lists for the key. -/
theorem RoutesBy.dispatch (hr : st.1.RoutesBy R) (y : Subscriber) :
    (Joe.dispatch a m t st y).1.RoutesBy R := by
  obtain ⟨j, seen⟩ := st
  simp only [Joe.dispatch]
  split
  · exact hr
  · split
    · exact hr
    · rename_i c hc
      have hs : (Joe.sendFlush a y c m j).1.RoutesBy R := hr.sendFlush (hr.table _ _ _ hc)
      rcases hsf : Joe.sendFlush a y c m j with ⟨j', (_ | err) | _⟩ <;> rw [hsf] at hs
      · exact hs
      · exact hs.sendErr err fun _ h => h.removeSubscriber
      · exact ⟨hs.table, hs.log⟩

theorem RoutesBy.rangeTopic (keys : List Subscriber) (hr : st.1.RoutesBy R) :
    (Joe.rangeTopic a m t keys st).1.RoutesBy R := by
  induction keys generalizing st with
  | nil => exact hr
  | cons y keys ih =>
    simp only [Joe.rangeTopic]
    split
    · exact ih (hr.dispatch y)
    · exact hr

theorem RoutesBy.rangeTopics (st : Joe × List Subscriber) (i : Nat) (ts : List Topic)
    (hr : st.1.RoutesBy R) : (Joe.rangeTopics a m i ts st).1.RoutesBy R := by
  induction ts generalizing i st with
  | nil => exact hr
  | cons t ts ih => exact ih _ _ (RoutesBy.rangeTopic _ hr)

theorem RoutesBy.publish (hr : j.RoutesBy R) (ts : List Topic) :
    (Joe.publish a m ts j).RoutesBy R := by
  have hput : (j.call (.put m ts)).RoutesBy R := hr.call rfl
  unfold Joe.publish
  split
  · exact RoutesBy.rangeTopics (j.call (.put m ts), []) 0 ts hput
  · exact ⟨hput.table, hput.log⟩

/-- The subscribe case lists its request's `Client` under each of its topics. -/
theorem RoutesBy.subscribe (hr : j.RoutesBy R) {s : Subscription}
    (hc : a.replay = .returns none → R x s.Client) : (Joe.subscribe a x s j).RoutesBy R := by
  have hrep : (j.call (.replay x)).RoutesBy R := hr.call rfl
  unfold Joe.subscribe
  split
  · rename_i hn
    refine ⟨fun t y c he => ?_, hrep.log⟩
    rw [entry_registerAll] at he
    split at he
    · rename_i hy
      cases he
      exact hy.1 ▸ hc hn
    · exact hrep.table t y c he
  · exact hrep.sendErr _ fun _ h => h.close
  · exact ⟨hrep.table, hrep.log⟩

/-- **Every case keeps the calls routed**, a subscribe case allowing its request's `Client` once
    `Replay` returned nil. -/
theorem RoutesBy.case {gcFn : Bool} {ev : Event} (hr : j.RoutesBy R)
    (hsub : ∀ x s, ev = .subscription x s → a.replay = .returns none → R x s.Client) :
    (Joe.case gcFn a ev j).RoutesBy R := by
  cases ev with
  | message m ts => exact hr.publish ts
  | subscription x s => exact hr.subscribe (hsub x s rfl)
  | unsubscription x => exact hr.removeSubscriber
  | gcSignal =>
    show (gcSignal gcFn j).RoutesBy R
    unfold gcSignal
    split
    · have hj : ({ j with gcTick := false } : Joe).RoutesBy R := ⟨hr.table, hr.log⟩
      have hg := hj.call (rfl : Call.gc.sink = none)
      exact ⟨hg.table, hg.log⟩
    · exact ⟨hr.table, hr.log⟩
  | collected =>
    show (collected a j).RoutesBy R
    unfold collected
    split <;> exact ⟨hr.table, hr.log⟩
  | done => exact ⟨hr.table, hr.log⟩

/-- The deferred calls close handles, and touch neither the table nor the log. -/
theorem RoutesBy.finish (hr : j.RoutesBy R) : (Joe.finish a j).RoutesBy R := by
  unfold Joe.finish
  split <;> exact ⟨hr.table, hr.log⟩

end Joe

/-! ## 3. Every call on a sink goes to its request's `Client` -/

/-- The sinks the history lets the engine call for `y`: the `Client` of a request of `y` whose
    `Replay` returned nil. -/
def Requested (hist : List (Event × Answers)) (y : Subscriber) (c : MessageWriter) : Prop :=
  ∃ s a, (Event.subscription y s, a) ∈ hist ∧ a.replay = .returns none ∧ c = s.Client

variable {cfg : Config} {w w' : World}

theorem Requested.append {hist : List (Event × Answers)} {y : Subscriber} {c : MessageWriter}
    (hq : Requested hist y c) (more : List (Event × Answers)) : Requested (hist ++ more) y c :=
  let ⟨s, a, hm, hr, hc⟩ := hq
  ⟨s, a, List.mem_append_left _ hm, hr, hc⟩

/-- A case of the engine keeps the calls routed by the history it extends. -/
theorem routesBy_engine (hr : w.joe.RoutesBy (Requested w.hist)) (a : Answers) (ev : Event) :
    (w.engine cfg a ev).joe.RoutesBy (Requested (w.engine cfg a ev).hist) :=
  ((hr.mono fun _ _ hq => hq.append [(ev, a)]).case fun _ s he hn =>
    ⟨s, a, List.mem_append_right _ (List.mem_singleton.2 (he ▸ rfl)), hn, rfl⟩).finish

theorem Step.routesBy (hs : Step cfg w w') (hr : w.joe.RoutesBy (Requested w.hist)) :
    w'.joe.RoutesBy (Requested w'.hist) := by
  cases hs with
  | publishSend | subscribeSend | unsubscribeSend | gcSignal | collected | stop =>
    exact routesBy_engine hr _ _
  | publishInit | subscribeInit | shutdownInit => exact hr.of_eq Joe.topics_init Joe.log_init
  | _ => exact ⟨hr.table, hr.log⟩

theorem routesBy_reachable (hw : Reachable cfg w) : w.joe.RoutesBy (Requested w.hist) := by
  induction hw with
  | refl => exact ⟨fun _ _ _ h => (by cases h), fun _ h => (by cases h)⟩
  | tail _ hs ih => exact hs.routesBy ih

/-- **Every call on a sink goes to its subscriber's `Client`.** In every reachable world, each
    `Send` and each `Flush` the engine made for the handle `y` went to the `Client` of `y`'s
    request, whose `Replay` returned nil -- the one request of `y` the history holds. -/
theorem sink_calls_routed (hw : Reachable cfg w) {call : Call} {y : Subscriber}
    {c : MessageWriter} (hc : call ∈ w.joe.log) (hs : call.sink = some (y, c)) :
    ∃ s a, (Event.subscription y s, a) ∈ w.hist ∧ a.replay = .returns none ∧ c = s.Client ∧
      ∀ s' a', (Event.subscription y s', a') ∈ w.hist → s' = s := by
  obtain ⟨s, a, hm, hn, rfl⟩ := (routesBy_reachable hw).log call hc y c hs
  exact ⟨s, a, hm, hn, rfl, fun s' a' hm' => (worldInv_reachable hw).engine.once y s' s a' a hm' hm⟩

/-- A `Joe{}`: a `Subscribe` of sink 7 to `"a"`, then a `Publish` of message 5 to `"a"`. The
    `Send` for handle 0 went to sink 7, the `Client` of its request. -/
theorem sink_calls_routed_publishRun : ∃ w, Reachable plainConfig w ∧ Call.send 0 7 5 ∈ w.joe.log ∧
    ∃ s a, (Event.subscription 0 s, a) ∈ w.hist ∧ a.replay = .returns none ∧
      (7 : MessageWriter) = s.Client ∧ ∀ s' a', (Event.subscription 0 s', a') ∈ w.hist → s' = s := by
  have r0 : Reachable plainConfig World.init := .refl
  have r1 := r0.tail (Step.spawn _ (.Subscribe ⟨7, ["a"]⟩))
  have r2 := r1.tail (@Step.subscribeInit plainConfig _ 0 _ ⟨7, ["a"]⟩ rfl rfl rfl)
  have r3 := r2.tail (@Step.subscribeSend plainConfig _ 0 _ ⟨7, ["a"]⟩ 0 (Answers.quiet 0)
    rfl rfl rfl rfl (Answers.valid_quiet _ 0 nofun))
  have r4 := r3.tail (Step.spawn _ (.Publish 5 ["a"]))
  have r5 := r4.tail (@Step.publishInit plainConfig _ 1 _ 5 ["a"] rfl rfl rfl nofun)
  have r6 := r5.tail (@Step.publishSend plainConfig _ 1 _ 5 ["a"] (Answers.quiet 5) rfl rfl rfl
    rfl (Answers.valid_quiet _ _ fun _ _ he => (Event.message.inj he).1.symm))
  suffices hrun : ∀ w, Reachable plainConfig w →
      w.joe.log = [.replay 0, .put 5 ["a"], .send 0 7 5, .flush 0 7] → _ from hrun _ r6 rfl
  intro w hw hl
  have hc : Call.send 0 7 5 ∈ w.joe.log := by rw [hl]; simp
  exact ⟨w, hw, hc, sink_calls_routed hw hc rfl⟩

/-! ## 4. What the sinks got at a normal exit -/

/-- What a normal exit leaves: the table holds exactly the live subscriptions, and each sink got
    exactly the calls it is owed. -/
def NormalExit (w : World) : Prop :=
  w.joe.phase = .exited none →
    Refines w.joe.topics (liveOf w.hist) ∧ ∀ h, callsTo h w.joe.log = owed h w.hist

/-- **Every rule keeps what a normal exit leaves**: once the engine exited nothing moves; a case
    other than `case <-j.done` never exits normally; and that case, from the loop, adds no call
    and changes neither the table nor what is live or owed. -/
theorem NormalExit.step (hn : NormalExit w) (hw : WorldInv cfg w) (hs : Step cfg w w') :
    NormalExit w' := by
  by_cases hx : w.joe.phase.isExited
  · obtain ⟨ht, hl, hp, hh⟩ := hs.exited_frame hx
    intro hx'
    rw [ht, hl, hh]
    exact hn (hp ▸ hx')
  have hto : TableOpen w.joe := tableOpen_of_inv hw.engine.handle (by simpa using hx)
  -- a case other than `case <-j.done` does not exit normally
  have hcase : ∀ {a : Answers} {ev : Event},
      (w.joe.phase = .running ∨ (w.joe.phase = .collecting ∧ ev = .collected)) →
      (∀ x s, ev = .subscription x s → w.joe.handles x = .make) → ev ≠ .done →
      NormalExit (w.engine cfg a ev) := fun hr hm hev hx' =>
    absurd hx' (Joe.step_ne_exited_none hto hr hm hev)
  cases hs with
  | publishSend _ _ _ hr | unsubscribeSend _ _ _ hr | gcSignal hr =>
    exact hcase (.inl hr) nofun nofun
  | collected hc => exact hcase (.inr ⟨hc, rfl⟩) nofun nofun
  | @subscribeSend i t sub h₀ _ ht _ hpc hr =>
    have hmake : w.joe.handles h₀ = .make :=
      ((hw.engine.handle h₀).fresh (((hw.holds i t ht h₀ (by rw [hpc]; rfl)).2).1 hpc)).1
    exact hcase (.inl hr) (fun x s he => by cases he; exact hmake) nofun
  | publishInit | subscribeInit | shutdownInit =>
    intro hx'
    have hie : (w.joe.init cfg).phase.isExited = true := congrArg Phase.isExited hx'
    exact absurd (isExited_init.symm.trans hie) hx
  | @stop a hr _ _ =>
    -- `case <-j.done` from the `select`: the deferred calls keep the table and the log
    have hl : w.joe.phase.inLoop := by rw [hr]; rfl
    intro _
    refine ⟨fun t h => ?_, fun h => ?_⟩
    · show entry w.joe.topics t h = regEntry (liveOf (w.hist ++ [(.done, a)]) h) t
      rw [liveOf_append]
      exact (hw.engine.handle h).table (.inl hl) t
    · have hc : callsTo h w.joe.log = owed h w.hist := (hw.engine.handle h).callsEq (.inl hl)
      show callsTo h w.joe.log = owed h (w.hist ++ [(.done, a)])
      rw [owed_append, ← hc]
      rcases liveOf w.hist h with _ | _ <;> exact (List.append_nil _).symm
  | _ => exact hn

theorem normalExit_reachable (hw : Reachable cfg w) : NormalExit w := by
  induction hw with
  | refl => exact fun h => by cases h
  | tail hr hs ih => exact ih.step (worldInv_reachable hr) hs

/-- **At a normal exit every sink got what it was owed.** Once the loop returned from
    `case <-j.done` and its deferred calls ran, the table holds exactly the live subscriptions
    and each handle's sink got exactly the calls it is owed: one `Send` of what `Put` returned for
    each publish case that met its live subscription, a `Flush` after each nil `Send` -- whatever
    a sink that no case called would have answered. -/
theorem owed_at_normal_exit (hw : Reachable cfg w) (hx : w.joe.phase = .exited none) :
    Refines w.joe.topics (liveOf w.hist) ∧ ∀ h, callsTo h w.joe.log = owed h w.hist :=
  normalExit_reachable hw hx

/-- A `Joe{}`: a `Subscribe` of sink 7 to `"a"`, a `Publish` of message 5 to `"a"`, then a
    `Shutdown`: the loop exited normally, and the sink had its `Send` and its `Flush`. -/
theorem owed_at_normal_exit_run : ∃ w, Reachable plainConfig w ∧ w.joe.phase = .exited none ∧
    callsTo 0 w.joe.log = [.send 5, .flush] ∧
    (Refines w.joe.topics (liveOf w.hist) ∧ ∀ h, callsTo h w.joe.log = owed h w.hist) := by
  have r0 : Reachable plainConfig World.init := .refl
  have r1 := r0.tail (Step.spawn _ (.Subscribe ⟨7, ["a"]⟩))
  have r2 := r1.tail (@Step.subscribeInit plainConfig _ 0 _ ⟨7, ["a"]⟩ rfl rfl rfl)
  have r3 := r2.tail (@Step.subscribeSend plainConfig _ 0 _ ⟨7, ["a"]⟩ 0 (Answers.quiet 0)
    rfl rfl rfl rfl (Answers.valid_quiet _ 0 nofun))
  have r4 := r3.tail (Step.spawn _ (.Publish 5 ["a"]))
  have r5 := r4.tail (@Step.publishInit plainConfig _ 1 _ 5 ["a"] rfl rfl rfl nofun)
  have r6 := r5.tail (@Step.publishSend plainConfig _ 1 _ 5 ["a"] (Answers.quiet 5) rfl rfl rfl
    rfl (Answers.valid_quiet _ _ fun _ _ he => (Event.message.inj he).1.symm))
  have r7 := r6.tail (Step.spawn _ .Shutdown)
  have r8 := r7.tail (@Step.shutdownInit plainConfig _ 2 _ rfl rfl rfl)
  have r9 := r8.tail (@Step.shutdownClose plainConfig _ 2 _ rfl rfl rfl rfl)
  have r10 := r9.tail (@Step.stop plainConfig _ (Answers.quiet 0) rfl rfl
    (Answers.valid_quiet _ 0 nofun))
  exact ⟨_, r10, rfl, rfl, owed_at_normal_exit r10 rfl⟩

end GoSse
