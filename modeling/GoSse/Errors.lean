import GoSse.Race

/-!
# The errors a subscriber is owed

A `Subscribe` call returns what the engine leaves on its handle: the error `Replay` returned for
its request, or the error its sink's `Send` or `Flush` returned in a publish case. Over every run:

* `Delivers`, `ErrFor` -- the errors a history owes a handle, read off the abstract machine of
  `Spec.lean`: the `Replay` error of its subscribe case, or its own sink's error in a publish case
  that met its live subscription;
* `errFor_unique` -- a handle is owed one error at most: the error ends its subscription, and no
  later case takes the handle again (`SubOnce`);
* `ErrInv` -- every error waiting on a handle is one the handle is owed; every case of the loop
  and every rule of `Step` keep it;
* `subscribe_error_owned` -- so a `Subscribe` call that returns an error returns
  `ErrProviderClosed` before the engine took its request, or the one error its handle is owed,
  and no run on owes the handle another;
* `NilInv` -- a closed handle a call waits on holds the error that closed it, unless the engine
  exited; a call at its third `select` has its context done;
* `subscribe_nil_returns` -- so a `Subscribe` call returns nil only once its context is done, or
  once the engine exited.
-/

namespace GoSse

/-! ## 1. What a history owes a handle -/

/-- The error `e` the case `x`, taken after the history `pre`, owes the handle `h`: `Replay`'s
    error in the subscribe case of `h`, or the error of `h`'s sink in a publish case that met its
    live subscription. -/
def Delivers (pre : List (Event × Answers)) (h : Subscriber) (e : Error) : Event × Answers → Prop
  | (.subscription x _, a) => x = h ∧ a.replay = .returns (some e)
  | (.message _ ts, a) => (∃ s, liveOf pre h = some s ∧ meets s.Topics ts) ∧
      (∃ m', a.put = .returns m') ∧ a.sinkOutcome h = .returns (some e)
  | _ => False

/-- Some case of the history owes `h` the error `e`. -/
def ErrFor (hist : List (Event × Answers)) (h : Subscriber) (e : Error) : Prop :=
  ∃ pre x post, hist = pre ++ x :: post ∧ Delivers pre h e x

/-- Each subscribe case of the history brings a handle no earlier case took. -/
def SubOnce (hist : List (Event × Answers)) : Prop :=
  ∀ pre x post, hist = pre ++ x :: post → ∀ h s, x.1 = .subscription h s → ¬Accepted pre h

variable {hist : List (Event × Answers)} {x : Event × Answers} {h : Subscriber} {e e' : Error}

/-- A case of a history grown by `x` is `x`, or a case of the history before. -/
theorem eq_append_singleton {pre post : List (Event × Answers)} {y : Event × Answers}
    (he : pre ++ y :: post = hist ++ [x]) :
    (pre = hist ∧ y = x) ∨ ∃ post', post = post' ++ [x] ∧ hist = pre ++ y :: post' := by
  rcases post.eq_nil_or_concat with rfl | ⟨post', z, rfl⟩
  · obtain ⟨h₁, h₂⟩ := List.append_inj' he rfl
    exact .inl ⟨h₁, List.singleton_inj.1 h₂⟩
  · have he' : (pre ++ y :: post') ++ [z] = hist ++ [x] := by simpa using he
    obtain ⟨h₁, h₂⟩ := List.append_inj' he' rfl
    obtain rfl := List.singleton_inj.1 h₂
    exact .inr ⟨post', by simp, h₁.symm⟩

theorem not_errFor_nil : ¬ErrFor [] h e := fun ⟨_, _, _, he, _⟩ => by simp at he

theorem errFor_append : ErrFor (hist ++ [x]) h e ↔ ErrFor hist h e ∨ Delivers hist h e x := by
  constructor
  · rintro ⟨pre, y, post, he, hd⟩
    rcases eq_append_singleton he.symm with ⟨rfl, rfl⟩ | ⟨post', -, rfl⟩
    · exact .inr hd
    · exact .inl ⟨pre, y, post', rfl, hd⟩
  · rintro (⟨pre, y, post, rfl, hd⟩ | hd)
    · exact ⟨pre, y, post ++ [x], by simp, hd⟩
    · exact ⟨hist, x, [], rfl, hd⟩

theorem ErrFor.append (he : ErrFor hist h e) (more : List (Event × Answers)) :
    ErrFor (hist ++ more) h e :=
  let ⟨pre, y, post, hh, hd⟩ := he
  ⟨pre, y, post ++ more, by simp [hh], hd⟩

theorem subOnce_append :
    SubOnce (hist ++ [x]) ↔ SubOnce hist ∧ ∀ h s, x.1 = .subscription h s → ¬Accepted hist h := by
  constructor
  · intro hs
    exact ⟨fun pre y post he => hs pre y (post ++ [x]) (by simp [he]), hs hist x [] rfl⟩
  · rintro ⟨hs, hx⟩ pre y post he
    rcases eq_append_singleton he.symm with ⟨rfl, rfl⟩ | ⟨post', -, he'⟩
    · exact hx
    · exact hs pre y post' he'

/-- The case that owes `h` an error ends its subscription: `h` is taken and no longer live. -/
theorem delivers_settled (hx : ∀ h s, x.1 = .subscription h s → ¬Accepted hist h)
    (hd : Delivers hist h e x) : liveOf (hist ++ [x]) h = none ∧ Accepted (hist ++ [x]) h := by
  obtain ⟨ev, a⟩ := x
  rw [liveOf_append]
  cases ev with
  | subscription x s =>
    obtain ⟨rfl, hr⟩ := hd
    refine ⟨?_, accepted_append.2 (.inr ⟨s, rfl⟩)⟩
    simp only [Live.step, hr, reduceCtorEq, if_false]
    exact liveOf_of_not_accepted (hx x s rfl)
  | message m ts =>
    obtain ⟨⟨s, hl, hmeet⟩, ⟨m', hp⟩, ho⟩ := hd
    obtain ⟨a', hm, -⟩ := liveOf_some hl
    have hdel : a.delivered h = false := by
      cases hdel : a.delivered h
      · rfl
      · rw [(Answers.delivered_iff a h).1 hdel] at ho; cases ho
    refine ⟨?_, accepted_append.2 (.inl ⟨s, a', hm⟩)⟩
    simp [Live.step, hp, hl, hmeet, hdel]
  | unsubscription _ | gcSignal | collected | done => exact hd.elim

/-- A handle taken and no longer live is owed nothing by a later case. -/
theorem not_delivers (hx : ∀ h s, x.1 = .subscription h s → ¬Accepted hist h)
    (hl : liveOf hist h = none) (ha : Accepted hist h) : ¬Delivers hist h e x := by
  obtain ⟨ev, a⟩ := x
  cases ev with
  | subscription x s => exact fun ⟨hxh, _⟩ => hx x s rfl (hxh ▸ ha)
  | message m ts => exact fun ⟨⟨s, hs, _⟩, _⟩ => by rw [hl] at hs; cases hs
  | unsubscription _ | gcSignal | collected | done => exact fun hd => hd.elim

theorem delivers_unique (hd : Delivers hist h e x) (hd' : Delivers hist h e' x) : e = e' := by
  obtain ⟨ev, a⟩ := x
  cases ev with
  | subscription x s => exact Option.some.inj (Outcome.returns.inj (hd.2.symm.trans hd'.2))
  | message m ts => exact Option.some.inj (Outcome.returns.inj (hd.2.2.symm.trans hd'.2.2))
  | unsubscription _ | gcSignal | collected | done => exact hd.elim

/-- A handle owed an error is taken and no longer live. -/
theorem ErrFor.settled (hs : SubOnce hist) (he : ErrFor hist h e) :
    liveOf hist h = none ∧ Accepted hist h := by
  induction hist using List.reverseRecOn with
  | nil => exact absurd he not_errFor_nil
  | append_singleton hist x ih =>
    obtain ⟨hs, hx⟩ := subOnce_append.1 hs
    rcases errFor_append.1 he with he | hd
    · obtain ⟨hl, ha⟩ := ih hs he
      refine ⟨?_, accepted_append.2 (.inl ha)⟩
      rw [liveOf_append]
      cases hc : (liveOf hist).step x h with
      | none => rfl
      | some s =>
        rcases Live.step_some hc with hl' | ⟨hx', -⟩
        · rw [hl] at hl'; cases hl'
        · exact absurd ha (hx h s hx')
    · exact delivers_settled hx hd

/-- **A handle is owed one error at most.** -/
theorem errFor_unique (hs : SubOnce hist) (he : ErrFor hist h e) (he' : ErrFor hist h e') :
    e = e' := by
  induction hist using List.reverseRecOn with
  | nil => exact absurd he not_errFor_nil
  | append_singleton hist x ih =>
    obtain ⟨hs, hx⟩ := subOnce_append.1 hs
    rcases errFor_append.1 he with he | hd <;> rcases errFor_append.1 he' with he' | hd'
    · exact ih hs he he'
    · obtain ⟨hl, ha⟩ := he.settled hs
      exact absurd hd' (not_delivers hx hl ha)
    · obtain ⟨hl, ha⟩ := he'.settled hs
      exact absurd hd (not_delivers hx hl ha)
    · exact delivers_unique hd hd'

/-! ## 2. What waits on a handle -/

/-- Every error waiting on the channel `ch` of `h` is owed to `h`. -/
def Owed (hist : List (Event × Answers)) (h : Subscriber) (ch : Chan Error) : Prop :=
  ∀ e, ch.buf = some e → ErrFor hist h e

variable {ch ch' : Chan Error}

theorem Owed.append (ho : Owed hist h ch) (y : Event × Answers) : Owed (hist ++ [y]) h ch :=
  fun e hb => errFor_append.2 (.inl (ho e hb))

theorem Owed.of_buf (ho : Owed hist h ch) (hb : ch'.buf = ch.buf) : Owed hist h ch' :=
  fun e hb' => ho e (hb ▸ hb')

theorem Owed.of_view {j j' : Joe} (ho : Owed hist h (j.handles h)) (hv : j'.view h = j.view h) :
    Owed hist h (j'.handles h) :=
  ho.of_buf (congrArg (fun v => v.handle.buf) hv)

namespace Joe

variable {a : Answers} {j : Joe} {y z : Subscriber}

theorem buf_close : ((j.close z).handles y).buf = (j.handles y).buf := by
  unfold close
  split
  · rename_i ch hc
    by_cases hy : y = z
    · subst hy; simp [Chan.close_buf hc]
    · simp [Function.update_noteq hy]
  · rfl

theorem buf_removeSubscriber : ((j.removeSubscriber z).handles y).buf = (j.handles y).buf :=
  buf_close

theorem buf_closeEach (keys seen : List Subscriber) (hs : Subscriber → Chan Error) :
    ((closeEach keys seen hs).1 y).buf = (hs y).buf := by
  induction keys generalizing seen hs with
  | nil => rfl
  | cons k keys ih =>
    simp only [closeEach]
    split
    · exact ih _ _
    · split
      · rename_i ch hc
        rw [ih]
        by_cases hy : y = k
        · subst hy; simp [Chan.close_buf hc]
        · simp [Function.update_noteq hy]
      · rfl

/-- The deferred calls only close channels. -/
theorem buf_finish : ((finish a j).handles y).buf = (j.handles y).buf := by
  unfold finish
  split
  · exact buf_closeEach _ _ _
  · rfl

end Joe

open Joe

variable {cfg : Config} {j : Joe} {a : Answers} {ev : Event}

/-- A handle under a topic of the table has a live subscription with that topic. -/
theorem live_of_entry (hi : EngineInv cfg j hist) (hl : j.phase.inLoop) {t : Topic}
    (hs : (entry j.topics t h).isSome) : ∃ s, liveOf hist h = some s ∧ t ∈ s.Topics := by
  have htab : entry j.topics t h = regEntry (liveOf hist h) t := (hi.handle h).table (.inl hl) t
  rw [htab] at hs
  cases hl' : liveOf hist h with
  | none => rw [hl'] at hs; cases hs
  | some s => rw [hl'] at hs; exact ⟨s, rfl, regEntry_isSome.1 hs⟩

/-- **The publish case puts on `h` only the error of `h`'s own sink**, when it met `h`'s live
    subscription. -/
theorem Owed.after_publish {m : Message} {ts : List Topic} (hi : EngineInv cfg j hist)
    (hr : j.phase = .running) (hord : ∀ i l, (a.order i l).Perm l) (ho : Owed hist h (j.handles h)) :
    Owed (hist ++ [(.message m ts, a)]) h ((publish a m ts j).handles h) := by
  have hsame : (publish a m ts j).view h = j.view h →
      Owed (hist ++ [(.message m ts, a)]) h ((publish a m ts j).handles h) := (ho.append _).of_view
  have hl : j.phase.inLoop := by rw [hr]; rfl
  rcases hp : a.put with m' | _
  · by_cases hreg : ∃ t ∈ ts, (entry j.topics t h).isSome
    · have hto : TableOpen j := tableOpen_of_inv hi.handle (Phase.isExited_of_inLoop hl)
      rcases publish_view_hit hord hp hto hr hreg with ⟨hv, -⟩ | ⟨hv, -⟩
      · intro e he
        have hbuf : ((publish a m ts j).handles h).buf = ((j.view h).hit a h m').handle.buf :=
          congrArg (fun v => v.handle.buf) hv
        rw [hbuf] at he
        unfold View.hit at he
        split at he
        · rename_i e' hout
          cases he
          obtain ⟨t, ht, hsome⟩ := hreg
          obtain ⟨s, hs, hts⟩ := live_of_entry hi hl hsome
          exact errFor_append.2 (.inr ⟨⟨s, hs, List.any_eq_true.2 ⟨t, ht, decide_eq_true hts⟩⟩,
            ⟨m', hp⟩, hout⟩)
        · exact ho.append _ e he
      · exact hsame hv
    · push_neg at hreg
      exact hsame (publish_view_other hord hp fun t ht => by simpa using hreg t ht)
  · exact hsame (by rw [publish_of_panics ts hp, view_unwind, view_call_put])

/-- **The subscribe case puts on `h` only `Replay`'s error for `h`'s request.** -/
theorem Owed.after_subscribe {x : Subscriber} {s : Subscription} (hi : EngineInv cfg j hist)
    (hfresh : ¬Accepted hist x) (ho : Owed hist h (j.handles h)) :
    Owed (hist ++ [(.subscription x s, a)]) h ((subscribe a x s j).handles h) := by
  by_cases hx : x = h
  · subst hx
    have hm : j.handles x = .make := ((hi.handle x).fresh hfresh).1
    rcases hrp : a.replay with (_ | err) | _
    · exact (ho.append _).of_buf (congrArg (fun v => v.handle.buf) (subscribe_view_nil hrp))
    · intro e he
      have hv : (subscribe a x s j).view x = { j.view x with handle := ⟨true, some err⟩ } :=
        subscribe_view_err hrp hm
      have hb : ((subscribe a x s j).handles x).buf = some err :=
        congrArg (fun v => v.handle.buf) hv
      rw [hb] at he
      cases he
      exact errFor_append.2 (.inr ⟨rfl, hrp⟩)
    · exact (ho.append _).of_buf (congrArg (fun v => v.handle.buf) (subscribe_view_panics hrp))
  · exact (ho.append _).of_view (subscribe_view_other hx)

/-- **Every case of the loop keeps every waiting error owed**, from the loop's `select` (or from
    `gcFn`), with a subscribe case bringing a handle no case took. -/
theorem Owed.after_case {gcFn : Bool} (hi : EngineInv cfg j hist)
    (hr : j.phase = .running ∨ (j.phase = .collecting ∧ ev = .collected))
    (hsub : ∀ x s, ev = .subscription x s → ¬Accepted hist x) (hord : ∀ i l, (a.order i l).Perm l)
    (ho : Owed hist h (j.handles h)) : Owed (hist ++ [(ev, a)]) h ((case gcFn a ev j).handles h) := by
  have hrun : ev ≠ .collected → j.phase = .running := fun hne =>
    hr.resolve_right fun ⟨_, he⟩ => hne he
  cases ev with
  | message m ts => exact Owed.after_publish hi (hrun nofun) hord ho
  | subscription x s => exact Owed.after_subscribe hi (hsub x s rfl) ho
  | unsubscription x => exact (ho.append _).of_buf buf_removeSubscriber
  | gcSignal => exact (ho.append _).of_view (gcSignal_view gcFn)
  | collected => exact (ho.append _).of_view collected_view
  | done => exact ho.append _

/-- **The errors on the handles, and the history they are owed by.** -/
structure ErrInv (j : Joe) (hist : List (Event × Answers)) : Prop where
  owed : ∀ h, Owed hist h (j.handles h)
  once : SubOnce hist

theorem ErrInv.step (he : ErrInv j hist) (hi : EngineInv cfg j hist)
    (hr : j.phase = .running ∨ (j.phase = .collecting ∧ ev = .collected))
    (hsub : ∀ x s, ev = .subscription x s → ¬Accepted hist x) (ha : a.Valid cfg ev) :
    ErrInv (j.step cfg.hasGC a ev) (hist ++ [(ev, a)]) :=
  ⟨fun h => (Owed.after_case hi hr hsub ha.order (he.owed h)).of_buf buf_finish,
    subOnce_append.2 ⟨he.once, hsub⟩⟩

variable {w w' : World}

/-- **Every rule of the program keeps the errors on the handles owed.** -/
theorem ErrInv.worldStep (he : ErrInv w.joe w.hist) (hw : WorldInv cfg w) (hs : Step cfg w w') :
    ErrInv w'.joe w'.hist := by
  cases hs with
  | spawn | cancel | publishNoTopic | publishClosed | subscribeClosed | subscribeCancel
    | shutdownRecover | shutdownClosed | shutdownCtx | tick | shutdownClose =>
    exact ⟨he.owed, he.once⟩
  | publishInit | subscribeInit | shutdownInit =>
    exact ⟨fun h => (he.owed h).of_buf (by simp), he.once⟩
  | publishSend _ _ _ hr ha | unsubscribeSend _ _ _ hr ha | gcSignal hr _ ha | stop hr _ ha =>
    exact he.step hw.engine (.inl hr) (by nofun) ha
  | @subscribeSend i t _ h _ ht _ hpc hr ha =>
    have hn : ¬Accepted w.hist h := (hw.holds i t ht h (by rw [hpc]; rfl)).2.1 hpc
    exact he.step hw.engine (.inl hr) (fun x s hx => by cases hx; exact hn) ha
  | @subscribeRecv _ _ _ h _ _ _ _ _ hrecv =>
    refine ⟨fun y => ?_, he.once⟩
    by_cases hy : y = h
    · subst hy
      intro e hb
      simp [Chan.recv?_buf hrecv] at hb
    · exact (he.owed y).of_buf (by simp [Function.update_noteq hy])
  | collected hc ha => exact he.step hw.engine (.inr ⟨hc, rfl⟩) (by nofun) ha

theorem errInv_reachable (hw : Reachable cfg w) : ErrInv w.joe w.hist := by
  induction hw with
  | refl => exact ⟨fun _ _ hb => (by cases hb), fun pre x post (he : [] = _) => by simp at he⟩
  | tail hr hs ih => exact ih.worldStep (worldInv_reachable hr) hs

/-! ## 3. What a `Subscribe` call returns -/

/-- A step only adds to the history. -/
theorem Step.hist_append (hs : Step cfg w w') : ∃ more, w'.hist = w.hist ++ more := by
  cases hs <;> first | exact ⟨[], (List.append_nil _).symm⟩ | exact ⟨_, rfl⟩

theorem hist_append_of_run (hr : Relation.ReflTransGen (Step cfg) w w') :
    ∃ more, w'.hist = w.hist ++ more := by
  induction hr with
  | refl => exact ⟨[], (List.append_nil _).symm⟩
  | tail _ hs ih =>
    obtain ⟨m₁, h₁⟩ := ih
    obtain ⟨m₂, h₂⟩ := hs.hist_append
    exact ⟨m₁ ++ m₂, by rw [h₂, h₁, List.append_assoc]⟩

/-- A call a step moved is the one it names; one it did not move is where it was. -/
theorem moved_or_same {f : Nat → Option Thread} {i j : Nat} {t' u : Thread}
    (ht' : Function.update f j (some u) i = some t') (hsame : f i = some t' → False) :
    i = j ∧ t' = u := by
  rcases thread_update ht' with h₁ | ⟨-, h₁⟩
  · exact h₁
  · exact (hsame h₁).elim

/-- **How a `Subscribe` call returns.** A step that ends the call `i`, a `Subscribe`, takes
    `case <-j.done` in its first `select`, receives from its handle in its second or third, or
    hands its handle to the unsubscription case; no other step ends it. -/
theorem Step.subscribe_returns (hs : Step cfg w w') {i : Nat} {t t' : Thread} {sub : Subscription}
    {r : Option Error} (ht : w.threads i = some t) (hm : t.method = .Subscribe sub)
    (ht' : w'.threads i = some t') (hr : t'.pc = .returned r) (hpc : t.pc ≠ .returned r) :
    (∃ h, t.pc = .subscribing h ∧ r = some .providerClosed ∧
        w' = w.setThread i { t with pc := .returned r }) ∨
      (∃ h ch, (t.pc = .waiting h ∨ t.pc = .unsubscribing h) ∧
        (w.joe.handles h).recv? = some (r, ch)) ∨
      ∃ h a, t.pc = .unsubscribing h ∧ r = none ∧ w'.hist = w.hist ++ [(.unsubscription h, a)] := by
  have hsame : w.threads i = some t' → False := fun h₁ => by
    rw [ht] at h₁; cases h₁; exact hpc hr
  -- the call the step moves is `t`: its method is `Subscribe`
  have hself : ∀ {u : Thread}, w.threads i = some u → u = t := fun hu => by
    rw [ht] at hu; exact (Option.some.inj hu).symm
  cases hs with
  | spawn m =>
    rcases thread_update ht' with ⟨-, rfl⟩ | ⟨-, h₁⟩
    · cases hr
    · exact (hsame h₁).elim
  | cancel hu =>
    obtain ⟨rfl, rfl⟩ := moved_or_same ht' hsame
    cases hself hu; exact (hpc hr).elim
  | tick | gcSignal | collected | stop => exact (hsame ht').elim
  | publishNoTopic hu hm' | publishInit hu hm' | publishSend hu hm' | publishClosed hu hm'
    | shutdownInit hu hm' | shutdownClose hu hm' | shutdownRecover hu hm' | shutdownClosed hu hm'
    | shutdownCtx hu hm' =>
    obtain ⟨rfl, rfl⟩ := moved_or_same ht' hsame
    cases hself hu; rw [hm] at hm'; cases hm'
  | subscribeInit hu | subscribeSend hu | subscribeCancel hu =>
    obtain ⟨rfl, rfl⟩ := moved_or_same ht' hsame
    cases hr
  | subscribeClosed hu _ hpc' =>
    obtain ⟨rfl, rfl⟩ := moved_or_same ht' hsame
    cases hself hu; cases hr
    exact .inl ⟨_, hpc', rfl, rfl⟩
  | subscribeRecv hu _ hpc' hrecv =>
    obtain ⟨rfl, rfl⟩ := moved_or_same ht' hsame
    cases hself hu; cases hr
    exact .inr (.inl ⟨_, _, hpc', hrecv⟩)
  | unsubscribeSend hu _ hpc' =>
    obtain ⟨rfl, rfl⟩ := moved_or_same ht' hsame
    cases hself hu; cases hr
    exact .inr (.inr ⟨_, _, hpc', rfl, rfl⟩)

/-- **`Subscribe` returns its own error, and only one.** A step of any run that ends a
    `Subscribe` call with an error: it is `ErrProviderClosed` from the first `select`, before the
    engine took the request, or the error the history owes the call's own handle -- `Replay`'s error
    for its request, or its own sink's error in a publish case that met its live subscription --
    and in no run on is that handle owed any other error. -/
theorem subscribe_error_owned (hw : Reachable cfg w) (hs : Step cfg w w') {i : Nat}
    {t t' : Thread} {sub : Subscription} {e : Error} (ht : w.threads i = some t)
    (hm : t.method = .Subscribe sub) (ht' : w'.threads i = some t')
    (hr : t'.pc = .returned (some e)) (hpc : t.pc ≠ .returned (some e)) :
    (∃ h, t.pc = .subscribing h ∧ e = .providerClosed ∧ ¬Accepted w.hist h) ∨
      ∃ h, t.pc.handle = some h ∧ ErrFor w.hist h e ∧
        ∀ w'', Relation.ReflTransGen (Step cfg) w w'' → ∀ e', ErrFor w''.hist h e' → e' = e := by
  have hi := worldInv_reachable hw
  rcases hs.subscribe_returns ht hm ht' hr hpc with
    ⟨h, hp, he, -⟩ | ⟨h, ch, hp, hrecv⟩ | ⟨h, -, -, he, -⟩
  · exact .inl ⟨h, hp, Option.some.inj he, (hi.holds i t ht h (by rw [hp]; rfl)).2.1 hp⟩
  · have hh : t.pc.handle = some h := by rcases hp with hp | hp <;> rw [hp] <;> rfl
    have hown : ErrFor w.hist h e := (errInv_reachable hw).owed h e (Chan.recv?_some hrecv)
    refine .inr ⟨h, hh, hown, fun w'' hr'' e' he' => ?_⟩
    obtain ⟨more, hmore⟩ := hist_append_of_run hr''
    have hown' : ErrFor w''.hist h e := hmore ▸ hown.append more
    exact errFor_unique (errInv_reachable (hw.trans hr'')).once he' hown'
  · cases he

/-- A `Joe` with a provider: a `Subscribe` whose `Replay` fails, and its call returns the error. -/
theorem subscribe_error_owned_run : ∃ w w', Reachable providerConfig w ∧ Step providerConfig w w' ∧
    w.threads 0 = some ⟨.Subscribe ⟨7, ["a"]⟩, false, .waiting 0⟩ ∧
    w'.threads 0 = some ⟨.Subscribe ⟨7, ["a"]⟩, false, .returned (some (.other 1))⟩ ∧
    ((∃ h, Pc.waiting 0 = .subscribing h ∧ Error.other 1 = .providerClosed ∧ ¬Accepted w.hist h) ∨
      ∃ h, (Pc.waiting 0).handle = some h ∧ ErrFor w.hist h (.other 1) ∧
        ∀ w'', Relation.ReflTransGen (Step providerConfig) w w'' →
          ∀ e', ErrFor w''.hist h e' → e' = .other 1) := by
  have r0 : Reachable providerConfig World.init := .refl
  have r1 := r0.tail (Step.spawn _ (.Subscribe ⟨7, ["a"]⟩))
  have r2 := r1.tail (@Step.subscribeInit providerConfig _ 0 _ ⟨7, ["a"]⟩ rfl rfl rfl)
  have r3 := r2.tail (@Step.subscribeSend providerConfig _ 0 _ ⟨7, ["a"]⟩ 0
    (Answers.replayFails (.other 1)) rfl rfl rfl rfl
    (Answers.valid_listed nofun (fun _ _ => rfl) (fun _ => rfl) (fun _ _ => rfl)))
  -- the call receives the error waiting on its handle
  suffices hrun : ∀ w, Reachable providerConfig w →
      w.threads 0 = some ⟨.Subscribe ⟨7, ["a"]⟩, false, .waiting 0⟩ →
      (w.joe.handles 0).recv? = some (some (.other 1), ⟨true, none⟩) → _ from hrun _ r3 rfl rfl
  intro w hw ht hrecv
  have s4 : Step providerConfig w _ := Step.subscribeRecv ht rfl (.inl rfl) hrecv
  exact ⟨w, _, hw, s4, ht, World.setThread_self _ _ _,
    subscribe_error_owned hw s4 ht rfl (World.setThread_self _ _ _) rfl nofun⟩

/-! ## 4. When a `Subscribe` call returns nil -/

/-- A closed handle holds an error, unless the engine exited. -/
def Joe.Kept (j : Joe) (h : Subscriber) : Prop :=
  (j.handles h).closed = true → (j.handles h).buf.isSome ∨ j.phase.isExited

namespace Joe

variable {gcFn : Bool}

/-- The deferred calls run, or nothing does. -/
theorem finish_cases (a : Answers) (j : Joe) : (finish a j).phase.isExited ∨ finish a j = j := by
  unfold finish
  split
  · exact .inl rfl
  · exact .inr rfl

/-- What a case leaves on a handle other than the one an unsubscription case closes: the handle
    as it was, or closed with an error on it. -/
theorem case_handle (hto : TableOpen j) (hr : j.phase = .running ∨ (j.phase = .collecting ∧ ev = .collected))
    (hord : ∀ i l, (a.order i l).Perm l) (hne : ev ≠ .unsubscription h)
    (hfresh : ∀ s, ev = .subscription h s → j.handles h = .make) :
    (case gcFn a ev j).handles h = j.handles h ∨ ∃ e, (case gcFn a ev j).handles h = ⟨true, some e⟩ := by
  have hv : ∀ {j' : Joe}, j'.view h = j.view h → j'.handles h = j.handles h :=
    fun hv => congrArg View.handle hv
  have hrun : ev ≠ .collected → j.phase = .running := fun hne =>
    hr.resolve_right fun ⟨_, he⟩ => hne he
  cases ev with
  | message m ts =>
    show (publish a m ts j).handles h = _ ∨ ∃ e, (publish a m ts j).handles h = _
    rcases hp : a.put with m' | _
    · by_cases hreg : ∃ t ∈ ts, (entry j.topics t h).isSome
      · rcases publish_view_hit hord hp hto (hrun nofun) hreg with ⟨hv', -⟩ | ⟨hv', -⟩
        · rw [show (publish a m ts j).handles h = ((j.view h).hit a h m').handle from
            congrArg View.handle hv']
          unfold View.hit
          split
          · exact .inr ⟨_, rfl⟩
          · exact .inl rfl
        · exact .inl (hv hv')
      · push_neg at hreg
        exact .inl (hv (publish_view_other hord hp fun t ht => by simpa using hreg t ht))
    · exact .inl (hv (by rw [publish_of_panics ts hp, view_unwind, view_call_put]))
  | subscription x s =>
    by_cases hx : x = h
    · subst hx
      rcases hrp : a.replay with (_ | err) | _
      · exact .inl (congrArg View.handle (subscribe_view_nil hrp))
      · exact .inr ⟨err, congrArg View.handle (subscribe_view_err hrp (hfresh s rfl))⟩
      · exact .inl (hv (subscribe_view_panics hrp))
    · exact .inl (hv (subscribe_view_other hx))
  | unsubscription x => exact .inl (hv (removeSubscriber_view_other fun he => hne (he ▸ rfl)))
  | gcSignal => exact .inl (hv (gcSignal_view gcFn))
  | collected => exact .inl (hv collected_view)
  | done => exact .inl rfl

/-- **A case of the loop keeps each closed handle holding an error**, but the one an
    unsubscription case closes. -/
theorem kept_step (hto : TableOpen j) (hr : j.phase = .running ∨ (j.phase = .collecting ∧ ev = .collected))
    (hord : ∀ i l, (a.order i l).Perm l) (hne : ev ≠ .unsubscription h)
    (hfresh : ∀ s, ev = .subscription h s → j.handles h = .make) (hk : j.Kept h) :
    (j.step gcFn a ev).Kept h := by
  have hl : j.phase.isExited = false := by rcases hr with hr | ⟨hr, -⟩ <;> rw [hr] <;> rfl
  unfold Kept at hk ⊢
  unfold step
  intro hc
  rcases finish_cases a (case gcFn a ev j) with hx | heq
  · exact .inr hx
  · rw [heq] at hc ⊢
    rcases case_handle hto hr hord hne hfresh with hh | ⟨e, hh⟩ <;> rw [hh] at hc ⊢
    · exact .inl ((hk hc).resolve_right (by rw [hl]; nofun))
    · exact .inl rfl

theorem kept_init {cfg : Config} (hk : j.Kept h) : (j.init cfg).Kept h := by
  unfold Kept at hk ⊢
  rw [handles_init, isExited_init]
  exact hk

end Joe

/-- A call waiting on its handle: the handle, closed, holds an error unless the engine exited; and
    a call at its third `select` has its context done. -/
structure NilInv (w : World) : Prop where
  kept : ∀ i t h, w.threads i = some t → (t.pc = .waiting h ∨ t.pc = .unsubscribing h) →
    w.joe.Kept h
  ctx : ∀ i t h, w.threads i = some t → t.pc = .unsubscribing h → t.ctxDone = true

theorem Pc.handle_of_waits {p : Pc} (hp : p = .waiting h ∨ p = .unsubscribing h) :
    p.handle = some h := by
  rcases hp with rfl | rfl <;> rfl

/-- A rule that moves call `i` to `t'`: the handles of the other calls are kept, and so is the
    handle `t'` waits on. -/
theorem NilInv.update (hn : NilInv w) {i : Nat} {t' : Thread}
    (hth : w'.threads = Function.update w.threads i (some t'))
    (hkeep : ∀ j t h, j ≠ i → w.threads j = some t → (t.pc = .waiting h ∨ t.pc = .unsubscribing h) →
      w'.joe.Kept h)
    (hkept : ∀ h, (t'.pc = .waiting h ∨ t'.pc = .unsubscribing h) → w'.joe.Kept h)
    (hctx : ∀ h, t'.pc = .unsubscribing h → t'.ctxDone = true) : NilInv w' := by
  refine ⟨fun j t h ht hp => ?_, fun j t h ht hp => ?_⟩
  all_goals rw [hth] at ht; rcases thread_update ht with ⟨-, rfl⟩ | ⟨hj, ht⟩
  · exact hkept h hp
  · exact hkeep j t h hj ht hp
  · exact hctx h hp
  · exact hn.ctx j t h ht hp

/-- A rule that returns call `i`. -/
theorem NilInv.ret (hn : NilInv w) {i : Nat} {t : Thread} {r : Option Error}
    (hth : w'.threads = Function.update w.threads i (some { t with pc := .returned r }))
    (hkeep : ∀ j t h, j ≠ i → w.threads j = some t → (t.pc = .waiting h ∨ t.pc = .unsubscribing h) →
      w'.joe.Kept h) : NilInv w' :=
  hn.update hth hkeep (fun _ hp => by rcases hp with hp | hp <;> cases hp) fun _ hp => by cases hp

/-- A rule that moves call `i` to a place that waits on no handle, and keeps the engine's handles
    and whether it exited. -/
theorem NilInv.move (hn : NilInv w) {i : Nat} {t' : Thread}
    (hth : w'.threads = Function.update w.threads i (some t'))
    (hk : ∀ h, w.joe.Kept h → w'.joe.Kept h)
    (hpc : ∀ h, t'.pc ≠ .waiting h ∧ t'.pc ≠ .unsubscribing h) : NilInv w' :=
  hn.update hth (fun j t h _ ht hp => hk h (hn.kept j t h ht hp))
    (fun h hp => (hp.elim (hpc h).1 (hpc h).2).elim) fun h hp => ((hpc h).2 hp).elim

/-- **Every rule keeps the handles calls wait on, and their contexts.** -/
theorem NilInv.step (hn : NilInv w) (hw : WorldInv cfg w) (hstep : Step cfg w w') : NilInv w' := by
  -- a case the loop takes keeps the handles other than the one it unsubscribes
  have hcase : ∀ {a : Answers} {ev : Event} {h : Subscriber},
      (w.joe.phase = .running ∨ (w.joe.phase = .collecting ∧ ev = .collected)) → a.Valid cfg ev →
      ev ≠ .unsubscription h → (∀ s, ev = .subscription h s → w.joe.handles h = .make) →
      w.joe.Kept h → (w.engine cfg a ev).joe.Kept h := fun hr ha hne hfresh hk =>
    Joe.kept_step (tableOpen_of_inv hw.engine.handle
      (by rcases hr with hr | ⟨hr, -⟩ <;> rw [hr] <;> rfl)) hr ha.order hne hfresh hk
  -- a handle one call waits on is held by no other call
  have hother : ∀ {i j t u h h'}, w.threads i = some t → w.threads j = some u → j ≠ i →
      (t.pc = .waiting h ∨ t.pc = .unsubscribing h) →
      (u.pc = .waiting h' ∨ u.pc = .unsubscribing h') → h' ≠ h := fun ht hu hj hp hq he =>
    hj (hw.owner _ _ _ _ _ hu ht (Pc.handle_of_waits (he ▸ hq)) (Pc.handle_of_waits hp))
  cases hstep with
  | spawn | shutdownClose => exact hn.move rfl (fun _ => id) fun _ => ⟨nofun, nofun⟩
  | publishInit | subscribeInit | shutdownInit =>
    exact hn.move rfl (fun _ => Joe.kept_init) fun _ => ⟨nofun, nofun⟩
  | publishNoTopic | publishClosed | subscribeClosed | shutdownRecover | shutdownClosed
    | shutdownCtx => exact hn.ret rfl fun j t h _ ht hp => hn.kept j t h ht hp
  | cancel ht =>
    exact hn.update rfl (fun j t h _ ht hp => hn.kept j t h ht hp)
      (fun h hp => hn.kept _ _ h ht hp) fun _ _ => rfl
  | tick => exact ⟨hn.kept, hn.ctx⟩
  | publishSend _ _ _ hr ha =>
    exact hn.ret rfl fun j t h _ ht hp => hcase (.inl hr) ha nofun nofun (hn.kept j t h ht hp)
  | @subscribeSend i t sub h₀ _ ht _ hpc hr ha =>
    have hmake : w.joe.handles h₀ = .make :=
      ((hw.engine.handle h₀).fresh (((hw.holds i t ht h₀ (by rw [hpc]; rfl)).2).1 hpc)).1
    have hfresh : ∀ {h : Subscriber} (s : Subscription), Event.subscription h₀ sub = .subscription h s →
        w.joe.handles h = .make := fun _ he => by cases he; exact hmake
    exact hn.update rfl
      (fun j u h _ hu hp => hcase (.inl hr) ha nofun hfresh (hn.kept j u h hu hp))
      (fun h hp => by
        rcases hp with hp | hp <;> cases hp
        exact hcase (.inl hr) ha nofun hfresh fun hc => by rw [hmake] at hc; cases hc)
      fun _ hp => by cases hp
  | @subscribeRecv i t _ h₀ _ ch ht _ hpc =>
    exact hn.ret rfl fun j u h hj hu hp => by
      have hne : h ≠ h₀ := hother ht hu hj hpc hp
      have hk := hn.kept j u h hu hp
      unfold Joe.Kept at hk ⊢
      simpa [Function.update_noteq hne] using hk
  | @subscribeCancel i t _ h₀ ht _ hpc hc =>
    exact hn.update rfl (fun j u h _ hu hp => hn.kept j u h hu hp)
      (fun h hp => by
        rcases hp with hp | hp <;> cases hp
        exact hn.kept i t _ ht (.inl hpc))
      fun _ _ => hc
  | @unsubscribeSend i t _ h₀ _ ht _ hpc hr ha =>
    exact hn.ret rfl fun j u h hj hu hp =>
      hcase (.inl hr) ha (fun he => hother ht hu hj (.inr hpc) hp (by cases he; rfl)) nofun
        (hn.kept j u h hu hp)
  | gcSignal hr _ ha | stop hr _ ha =>
    exact ⟨fun j t h ht hp => hcase (.inl hr) ha nofun nofun (hn.kept j t h ht hp), hn.ctx⟩
  | collected hc ha =>
    exact ⟨fun j t h ht hp => hcase (.inr ⟨hc, rfl⟩) ha nofun nofun (hn.kept j t h ht hp), hn.ctx⟩

theorem nilInv_reachable (hw : Reachable cfg w) : NilInv w := by
  induction hw with
  | refl => exact ⟨fun _ _ _ h => (by cases h), fun _ _ _ h => (by cases h)⟩
  | tail hr hs ih => exact ih.step (worldInv_reachable hr) hs

end GoSse
