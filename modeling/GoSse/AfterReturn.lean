import GoSse.Errors

/-!
# No call on a sink after its `Subscribe` returned

A `Subscribe` call made by `Server.ServeHTTP` hands the engine the session as its sink; once the
call returns, the handler returns and the session is gone. The engine must then never call the
sink's `Send` or `Flush` again. Over every run:

* `log_step` -- the engine only appends to its log of calls;
* `DoneWith` -- the engine is done with a handle: it exited; or it took the handle and the
  subscription is no longer live, and (each `Subscribe` making its own handle) no subscribe case
  takes it again; or no subscribe case ever takes it;
* `calls_fixed` -- from a world where the engine is done with a handle, no run adds a call on
  its sink: the calls it was owed (`owed`) are all made, and it is owed no more;
* `no_sink_call_after_return` -- a `Subscribe` call that returns leaves the engine done with its
  handle, however it returns: `ErrProviderClosed` for a request never taken, an error that ended
  the subscription, nil after the deferred calls closed the handle, or nil from the
  unsubscription.
-/

namespace GoSse

/-! ## 1. The engine only appends to its log -/

namespace Joe

variable {a : Answers} {j : Joe} {x : Subscriber} {m : Message} {t : Topic} {gcFn : Bool}
  {ev : Event} {st : Joe × List Subscriber}

theorem log_close : (j.close x).log = j.log := by
  unfold close
  split <;> rfl

theorem log_sendErr (err : Error) {k : Joe → Joe} (hk : ∀ j' : Joe, (k j').log = j'.log) :
    (j.sendErr x err k).log = j.log := by
  unfold sendErr
  split
  · exact hk _
  · rfl
  · rfl

theorem log_removeSubscriber : (j.removeSubscriber x).log = j.log := log_close

theorem log_sendFlush (c : MessageWriter) : j.log <+: (sendFlush a x c m j).1.log := by
  unfold sendFlush
  split <;> simp [call]

theorem log_dispatch (y : Subscriber) : st.1.log <+: (dispatch a m t st y).1.log := by
  obtain ⟨j, seen⟩ := st
  simp only [dispatch]
  split
  · exact List.prefix_refl _
  · split
    · exact List.prefix_refl _
    · rename_i c _
      have hs : j.log <+: (sendFlush a y c m j).1.log := log_sendFlush c
      rcases hsf : sendFlush a y c m j with ⟨j', (_ | err) | _⟩ <;> rw [hsf] at hs
      · exact hs
      · show j.log <+: (j'.sendErr y err (removeSubscriber y)).log
        exact (log_sendErr err fun _ => log_removeSubscriber).symm ▸ hs
      · exact hs

theorem log_rangeTopic (keys : List Subscriber) :
    st.1.log <+: (rangeTopic a m t keys st).1.log := by
  induction keys generalizing st with
  | nil => exact List.prefix_refl _
  | cons y keys ih =>
    simp only [rangeTopic]
    split
    · exact (log_dispatch y).trans ih
    · exact List.prefix_refl _

theorem log_rangeTopics (st : Joe × List Subscriber) (i : Nat) (ts : List Topic) :
    st.1.log <+: (rangeTopics a m i ts st).1.log := by
  induction ts generalizing i st with
  | nil => exact List.prefix_refl _
  | cons t ts ih => exact (log_rangeTopic _).trans (ih _ _)

theorem log_case : j.log <+: (case gcFn a ev j).log := by
  have hcall : ∀ c : Call, j.log <+: (j.call c).log := fun _ => List.prefix_append _ _
  cases ev with
  | message m ts =>
    show j.log <+: (publish a m ts j).log
    unfold publish
    split
    · exact (hcall (.put m ts)).trans (log_rangeTopics (j.call (.put m ts), []) 0 ts)
    · exact hcall _
  | subscription x s =>
    show j.log <+: (subscribe a x s j).log
    unfold subscribe
    split
    · exact hcall _
    · exact (log_sendErr _ fun _ => log_close).symm ▸ hcall _
    · exact hcall _
  | unsubscription x =>
    show j.log <+: (j.removeSubscriber x).log
    exact log_removeSubscriber.symm ▸ List.prefix_refl _
  | gcSignal =>
    show j.log <+: (gcSignal gcFn j).log
    unfold gcSignal
    split
    · exact hcall _
    · exact List.prefix_refl _
  | collected =>
    show j.log <+: (collected a j).log
    unfold collected
    split <;> exact List.prefix_refl _
  | done => exact List.prefix_refl _

/-- **The engine only appends to its log**: no case and no deferred call takes a call back. -/
theorem log_step : j.log <+: (j.step gcFn a ev).log := by
  unfold step finish
  split
  · exact log_case
  · exact log_case

end Joe

variable {cfg : Config} {w w' w'' : World} {h : Subscriber}

theorem Step.log_prefix (hs : Step cfg w w') : w.joe.log <+: w'.joe.log := by
  cases hs with
  | publishSend | subscribeSend | unsubscribeSend | gcSignal | collected | stop =>
    exact Joe.log_step
  | publishInit | subscribeInit | shutdownInit => exact Joe.log_init.symm ▸ List.prefix_refl _
  | _ => exact List.prefix_refl _

theorem log_prefix_of_run (hr : Relation.ReflTransGen (Step cfg) w w') :
    w.joe.log <+: w'.joe.log := by
  induction hr with
  | refl => exact List.prefix_refl _
  | tail _ hs ih => exact ih.trans hs.log_prefix

/-- Once the engine exited, no rule takes a case: its table, its log, its phase and the history
    stay as they are. -/
theorem Step.exited_frame (hx : w.joe.phase.isExited) (hs : Step cfg w w') :
    w'.joe.topics = w.joe.topics ∧ w'.joe.log = w.joe.log ∧ w'.joe.phase = w.joe.phase ∧
      w'.hist = w.hist := by
  have hu : w.joe.phase ≠ .unstarted := fun hu => by rw [hu] at hx; cases hx
  cases hs with
  | publishSend _ _ _ hr | subscribeSend _ _ _ hr | unsubscribeSend _ _ _ hr | gcSignal hr
    | stop hr => rw [hr] at hx; cases hx
  | collected hc => rw [hc] at hx; cases hx
  | publishInit | subscribeInit | shutdownInit =>
    exact ⟨Joe.topics_init, Joe.log_init, congrArg Joe.phase (Joe.init_of_started hu), rfl⟩
  | _ => exact ⟨rfl, rfl, rfl, rfl⟩

/-- Once the engine exited, no rule calls anything. -/
theorem Step.log_of_exited (hx : w.joe.phase.isExited) (hs : Step cfg w w') :
    w'.joe.log = w.joe.log ∧ w'.joe.phase.isExited := by
  obtain ⟨-, hl, hp, -⟩ := hs.exited_frame hx
  rw [hp]
  exact ⟨hl, hx⟩

theorem log_of_exited_run (hx : w.joe.phase.isExited) (hr : Relation.ReflTransGen (Step cfg) w w') :
    w'.joe.log = w.joe.log ∧ w'.joe.phase.isExited := by
  induction hr with
  | refl => exact ⟨rfl, hx⟩
  | tail _ hs ih =>
    have hx' := hs.log_of_exited ih.2
    exact ⟨hx'.1.trans ih.1, hx'.2⟩

/-! ## 2. A handle the engine is done with -/

section Gone

variable {hist more : List (Event × Answers)}

/-- A handle no longer live, and taken by no later subscribe case, stays so and is owed no more
    calls. -/
theorem owed_of_gone (hl : liveOf hist h = none) (hm : ¬Accepted more h) :
    liveOf (hist ++ more) h = none ∧ owed h (hist ++ more) = owed h hist := by
  induction more using List.reverseRecOn with
  | nil => simp [hl]
  | append_singleton more x ih =>
    obtain ⟨hl', ho⟩ := ih fun ha => hm (accepted_append.2 (.inl ha))
    rw [← List.append_assoc, liveOf_append, owed_append, hl', ho]
    refine ⟨?_, List.append_nil _⟩
    cases hc : (liveOf (hist ++ more)).step x h with
    | none => rfl
    | some s =>
      rcases Live.step_some hc with hs | ⟨hs, -⟩
      · rw [hl'] at hs; cases hs
      · exact absurd (accepted_append.2 (.inr ⟨s, hs⟩)) hm

/-- A handle no subscribe case took is owed nothing. -/
theorem owed_of_not_accepted (ha : ¬Accepted hist h) : owed h hist = [] :=
  (owed_of_gone (show liveOf [] h = none from rfl) ha).2

/-- Once a subscribe case took `h`, no later one does. -/
theorem SubOnce.not_accepted_after (hs : SubOnce (hist ++ more)) (ha : Accepted hist h) :
    ¬Accepted more h := by
  rintro ⟨s, a, hm⟩
  obtain ⟨pre, post, rfl⟩ := List.append_of_mem hm
  obtain ⟨s', a', hm'⟩ := ha
  exact hs (hist ++ pre) _ post (List.append_assoc _ _ _).symm h s rfl
    ⟨s', a', List.mem_append_left _ hm'⟩

end Gone

/-- A settled engine that took a case is in its loop, or exited. -/
theorem EngineInv.inLoop_or_isExited {j : Joe} {hist : List (Event × Answers)}
    (hi : EngineInv cfg j hist) (hne : hist ≠ []) : j.phase.inLoop ∨ j.phase.isExited := by
  have hs := hi.settled
  cases hp : j.phase with
  | unstarted => exact absurd (hi.unstarted hp) hne
  | running | collecting => exact .inl rfl
  | exited => exact .inr rfl
  | leaving | blocked => rw [hp] at hs; exact hs.elim

/-- **The engine is done with the handle `h`**: it exited; or a subscribe case took `h` and its
    subscription is no longer live; or `h` is out of every call's hands and was never taken. -/
def DoneWith (w : World) (h : Subscriber) : Prop :=
  w.joe.phase.isExited ∨ (liveOf w.hist h = none ∧ Accepted w.hist h) ∨ Released h w

/-- A reachable world whose history never took `h` has made no call on its sink. -/
theorem calls_of_not_accepted (hw : Reachable cfg w) (ha : ¬Accepted w.hist h) :
    callsTo h w.joe.log = [] :=
  List.eq_nil_of_prefix_nil
    (owed_of_not_accepted ha ▸ ((worldInv_reachable hw).engine.handle h).calls)

/-- **No call on a sink the engine is done with**: from a reachable world where the engine is
    done with `h`, no run adds a call on the sink of `h`. Taken and no longer live, `h` got every
    call it was owed while the loop ran, and it is owed no more; never taken, it is owed
    nothing. -/
theorem calls_fixed (hw : Reachable cfg w) (hd : DoneWith w h)
    (hr : Relation.ReflTransGen (Step cfg) w w') : callsTo h w'.joe.log = callsTo h w.joe.log := by
  have hw' : Reachable cfg w' := hw.trans hr
  by_cases hx : w.joe.phase.isExited
  · exact congrArg (callsTo h) (log_of_exited_run hx hr).1
  rcases hd.resolve_left hx with ⟨hl, ha⟩ | hrel
  · have hi := (worldInv_reachable hw).engine
    have hloop : w.joe.phase.inLoop :=
      (hi.inLoop_or_isExited (let ⟨_, _, hm⟩ := ha; List.ne_nil_of_mem hm)).resolve_right hx
    obtain ⟨more, hmore⟩ := hist_append_of_run hr
    have hm : ¬Accepted more h :=
      (hmore ▸ (errInv_reachable hw').once : SubOnce (w.hist ++ more)).not_accepted_after ha
    -- what `h` got by `w` is all it is owed, and all it is ever owed
    have hnow : callsTo h w.joe.log = owed h w.hist := (hi.handle h).callsEq (.inl hloop)
    have hlater : callsTo h w'.joe.log <+: owed h w.hist := by
      rw [← (owed_of_gone hl hm).2, ← hmore]
      exact ((worldInv_reachable hw').engine.handle h).calls
    obtain ⟨l, hl'⟩ := log_prefix_of_run hr
    have hgrow : callsTo h w.joe.log <+: callsTo h w'.joe.log :=
      ⟨callsTo h l, by rw [← hl', callsTo_append]⟩
    exact (hgrow.eq_of_length_le (hnow ▸ hlater).length_le).symm
  · rw [calls_of_not_accepted hw' (hrel.run hr).unaccepted,
      calls_of_not_accepted hw hrel.unaccepted]

/-! ## 3. After a `Subscribe` call returns -/

/-- A `Subscribe` call that returns from its first `select` releases its handle: no subscribe
    case took it, and no other call holds it. -/
theorem released_of_subscribing (hw : Reachable cfg w) {i : Nat} {t : Thread}
    (ht : w.threads i = some t) (hp : t.pc = .subscribing h) (r : Option Error) :
    Released h (w.setThread i { t with pc := .returned r }) := by
  have hi := worldInv_reachable hw
  have hh : t.pc.handle = some h := by rw [hp]; rfl
  have hholds := hi.holds i t ht h hh
  refine ⟨hholds.1, hholds.2.1 hp, fun i' t' ht' => ?_⟩
  rcases thread_update ht' with ⟨-, rfl⟩ | ⟨hne, ht'⟩
  · nofun
  · exact fun hh' => hne (hi.owner i' i t' t h ht' ht hh' hh)

/-- **No call on a sink after its `Subscribe` returned.** A step of any run that ends a
    `Subscribe` call leaves the engine done with the call's handle, however the call returns; in
    no run on does the engine call that handle's sink again. -/
theorem no_sink_call_after_return (hw : Reachable cfg w) (hs : Step cfg w w') {i : Nat}
    {t t' : Thread} {sub : Subscription} {r : Option Error} (ht : w.threads i = some t)
    (hm : t.method = .Subscribe sub) (ht' : w'.threads i = some t') (hr : t'.pc = .returned r)
    (hpc : t.pc ≠ .returned r) :
    ∃ h, t.pc.handle = some h ∧ ∀ w'', Relation.ReflTransGen (Step cfg) w' w'' →
      callsTo h w''.joe.log = callsTo h w'.joe.log := by
  -- done with `h` before the step, the engine adds no call on its sink over it nor after
  have hbefore : ∀ {h}, DoneWith w h → ∀ w'', Relation.ReflTransGen (Step cfg) w' w'' →
      callsTo h w''.joe.log = callsTo h w'.joe.log := fun hd w'' hr'' =>
    (calls_fixed hw hd (.head hs hr'')).trans (calls_fixed hw hd (.single hs)).symm
  rcases hs.subscribe_returns ht hm ht' hr hpc with
    ⟨h, hp, -, rfl⟩ | ⟨h, ch, hp, hrecv⟩ | ⟨h, a, hp, -, hhist⟩
  · -- `ErrProviderClosed` from the first `select`: the request was never taken
    exact ⟨h, by rw [hp]; rfl, fun w'' hr'' =>
      calls_fixed (hw.tail hs) (.inr (.inr (released_of_subscribing hw ht hp r))) hr''⟩
  · refine ⟨h, Pc.handle_of_waits hp, hbefore ?_⟩
    cases r with
    | some e =>
      -- an error the history owes `h`: its subscription ended
      have hown : ErrFor w.hist h e := (errInv_reachable hw).owed h e (Chan.recv?_some hrecv)
      exact .inr (.inl (hown.settled (errInv_reachable hw).once))
    | none =>
      -- nil from a closed, drained handle: the engine exited
      obtain ⟨hc, hb⟩ := Chan.recv?_none hrecv
      rcases (nilInv_reachable hw).kept i t h ht hp hc with hk | hx
      · rw [hb] at hk; cases hk
      · exact .inl hx
  · -- the unsubscription case took the handle, which a subscribe case had taken
    have hh : t.pc.handle = some h := by rw [hp]; rfl
    have ha : Accepted w.hist h := by
      by_contra hna
      rw [((worldInv_reachable hw).holds i t ht h hh).2.2 hna] at hp
      cases hp
    have hl : liveOf w'.hist h = none := by
      rw [hhist, liveOf_append]
      exact Function.update_same _ _ _
    exact ⟨h, hh, fun w'' hr'' => calls_fixed (hw.tail hs)
      (.inr (.inl ⟨hl, hhist ▸ accepted_append.2 (.inl ha)⟩)) hr''⟩

/-- A `Joe{}`: a `Subscribe` of sink 7 to `"a"`, a `Publish` of message 5 to `"a"` that sends
    to and flushes the sink, then the call's context is cancelled and the engine takes its
    unsubscription. The sink got its two calls before the call returned nil. -/
theorem no_sink_call_after_unsubscription : ∃ w w', Reachable plainConfig w ∧
    Step plainConfig w w' ∧
    w.threads 0 = some ⟨.Subscribe ⟨7, ["a"]⟩, true, .unsubscribing 0⟩ ∧
    w'.threads 0 = some ⟨.Subscribe ⟨7, ["a"]⟩, true, .returned none⟩ ∧
    callsTo 0 w.joe.log = [.send 5, .flush] ∧
    ∃ h, (Pc.unsubscribing 0).handle = some h ∧
      ∀ w'', Relation.ReflTransGen (Step plainConfig) w' w'' →
        callsTo h w''.joe.log = callsTo h w'.joe.log := by
  have r0 : Reachable plainConfig World.init := .refl
  have r1 := r0.tail (Step.spawn _ (.Subscribe ⟨7, ["a"]⟩))
  have r2 := r1.tail (@Step.subscribeInit plainConfig _ 0 _ ⟨7, ["a"]⟩ rfl rfl rfl)
  have r3 := r2.tail (@Step.subscribeSend plainConfig _ 0 _ ⟨7, ["a"]⟩ 0 (Answers.quiet 0)
    rfl rfl rfl rfl (Answers.valid_quiet _ 0 nofun))
  have r4 := r3.tail (Step.spawn _ (.Publish 5 ["a"]))
  have r5 := r4.tail (@Step.publishInit plainConfig _ 1 _ 5 ["a"] rfl rfl rfl nofun)
  have r6 := r5.tail (@Step.publishSend plainConfig _ 1 _ 5 ["a"] (Answers.quiet 5) rfl rfl rfl
    rfl (Answers.valid_quiet _ _ fun _ _ he => (Event.message.inj he).1.symm))
  have r7 := r6.tail (@Step.cancel plainConfig _ 0 _ rfl)
  have r8 := r7.tail (@Step.subscribeCancel plainConfig _ 0 _ ⟨7, ["a"]⟩ 0 rfl rfl rfl rfl)
  suffices hrun : ∀ w, Reachable plainConfig w →
      w.threads 0 = some ⟨.Subscribe ⟨7, ["a"]⟩, true, .unsubscribing 0⟩ →
      w.joe.phase = .running → callsTo 0 w.joe.log = [.send 5, .flush] → _
    from hrun _ r8 rfl rfl rfl
  intro w hw ht hr hc
  have s9 : Step plainConfig w _ :=
    Step.unsubscribeSend ht rfl rfl hr (Answers.valid_quiet _ 0 nofun)
  exact ⟨w, _, hw, s9, ht, World.setThread_self _ _ _, hc,
    no_sink_call_after_return hw s9 ht rfl (World.setThread_self _ _ _) rfl nofun⟩

end GoSse
