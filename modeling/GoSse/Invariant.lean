import GoSse.Cases
import GoSse.Provider

/-!
# The invariant of one handle, and why every case of the loop keeps it

`HandleInv hist h p v` says what a handle `h` must see of the engine (`v`, its `View`) when the
loop has taken the cases `hist` and stands in phase `p`, in the spec's words of `Spec.lean`:

* `table` -- its entries are those its live subscription asks for (`regEntry (liveOf hist h)`),
  while the loop runs or if no sink has panicked;
* `calls` -- the calls on its sink are a prefix of what it is owed (`owed h hist`), and all of it
  while the loop runs or if no sink has panicked;
* `listedOpen` -- a handle in the table is open and empty until the deferred calls run;
* `listed`, `exit` -- a handle whose subscribe case completed with a topic is in the table or
  closed, and closed once the deferred calls ran;
* `fresh` -- a handle no subscribe case has taken is untouched.

The invariant is over the view, so a case that leaves `h`'s view alone keeps it with no look at
the engine (`HandleInv.same`). `handleInv_case` goes through the cases of the loop, each with the
lemmas of `Cases.lean`; `HandleInv.deferred` adds the deferred calls; `handleInv_step` is one
step of the engine's goroutine.
-/

namespace GoSse

/-- The loop runs: at its `select`, in a case, or in the `gcFn` a tick started. -/
def Phase.inLoop : Phase → Bool
  | .running | .collecting => true
  | _ => false

/-- The deferred calls have run. -/
def Phase.isExited : Phase → Bool
  | .exited _ => true
  | _ => false

theorem Phase.isExited_of_inLoop {p : Phase} (hp : p.inLoop) : p.isExited = false := by
  cases p <;> simp_all [inLoop, isExited]

/-- **The invariant of one handle**: what `h` sees of the engine, `v`, after the cases `hist`,
    in phase `p`. -/
structure HandleInv (hist : List (Event × Answers)) (h : Subscriber) (p : Phase) (v : View) :
    Prop where
  fresh : ¬Accepted hist h → v.handle = .make ∧ ∀ t, v.entry t = none
  table : p.inLoop ∨ NoSinkPanic hist → ∀ t, v.entry t = regEntry (liveOf hist h) t
  listedOpen : p.isExited = false → ∀ t c, v.entry t = some c → v.handle = .make
  listed : Registered hist h → v.handle.closed ∨ ∃ t, (v.entry t).isSome
  exit : p.isExited → Registered hist h → v.handle.closed
  calls : v.calls <+: owed h hist
  callsEq : p.inLoop ∨ NoSinkPanic hist → v.calls = owed h hist

/-- Whether the engine may take the case `ev` after `hist`: a subscription brings a handle no
    subscribe case has taken (each `Subscribe` makes its own), an unsubscription one that was
    taken. -/
def Event.Admissible (hist : List (Event × Answers)) : Event → Prop
  | .subscription x _ => ¬Accepted hist x
  | .unsubscription x => Accepted hist x
  | _ => True

/-- Every handle in the table is open and empty, by `listedOpen`. -/
theorem tableOpen_of_inv {hist : List (Event × Answers)} {j : Joe}
    (hall : ∀ y, HandleInv hist y j.phase (j.view y)) (hx : j.phase.isExited = false) :
    TableOpen j :=
  fun y t c he => (hall y).listedOpen hx t c he

/-- Before any case, every handle sees an empty table, an unused channel and no call. -/
theorem handleInv_nil {h : Subscriber} {p : Phase} {v : View} (hm : v.handle = .make)
    (he : ∀ t, v.entry t = none) (hc : v.calls = []) : HandleInv [] h p v where
  fresh _ := ⟨hm, he⟩
  table _ t := he t
  listedOpen _ t c hs := by simp [he t] at hs
  listed := by rintro ⟨_, _, hm, -⟩; cases hm
  exit _ := by rintro ⟨_, _, hm, -⟩; cases hm
  calls := by simp [hc, owed, owedFrom]
  callsEq _ := by simp [hc, owed, owedFrom]

section Same

variable {hist : List (Event × Answers)} {x : Event × Answers} {h : Subscriber} {p p' : Phase}
  {v : View}

/-- **A case that leaves `h`'s view as it was**, and whose event changes nothing the spec says of
    `h`, keeps `h`'s invariant, in whatever phase it ends short of the deferred calls. -/
theorem HandleInv.same (hi : HandleInv hist h p v) (hp : p.inLoop) (hx : p'.isExited = false)
    (hL : liveOf (hist ++ [x]) h = liveOf hist h) (ho : owed h (hist ++ [x]) = owed h hist)
    (hr : Registered (hist ++ [x]) h → Registered hist h) :
    HandleInv (hist ++ [x]) h p' v where
  fresh hn := hi.fresh fun hacc => hn (accepted_append.2 (.inl hacc))
  table _ := hL ▸ hi.table (.inl hp)
  listedOpen _ := hi.listedOpen (Phase.isExited_of_inLoop hp)
  listed hreg := hi.listed (hr hreg)
  exit he := by simp [hx] at he
  calls := ho ▸ hi.calls
  callsEq _ := ho ▸ hi.callsEq (.inl hp)

/-- A case of another event than a subscription of `h` does not register `h`. -/
theorem registered_of_append (hist : List (Event × Answers)) (x : Event × Answers) (h : Subscriber)
    (hx : ∀ s, x.1 ≠ .subscription h s) : Registered (hist ++ [x]) h → Registered hist h :=
  fun hr => (registered_append.1 hr).resolve_right fun ⟨s, hs, _⟩ => hx s hs

/-- A case other than a publish owes nothing. -/
theorem owed_append_quiet (hx : ∀ m ts, x.1 ≠ .message m ts) :
    owed h (hist ++ [x]) = owed h hist := by
  obtain ⟨ev, a⟩ := x
  rw [owed_append]
  cases ev <;> first | exact absurd rfl (hx _ _) | cases liveOf hist h <;> simp [owedBy]

/-- **A case that touches no handle and no subscription** (a tick, `gcFn`'s return, `j.done`),
    seen from any handle. -/
theorem HandleInv.quiet (hi : HandleInv hist h p v) (hp : p.inLoop) (hx : p'.isExited = false)
    (hL : ∀ L : Live, L.step x = L) (hm : ∀ m ts, x.1 ≠ .message m ts)
    (hs : ∀ h s, x.1 ≠ .subscription h s) : HandleInv (hist ++ [x]) h p' v :=
  hi.same hp hx (by rw [liveOf_append, hL]) (owed_append_quiet hm)
    (registered_of_append hist x h (hs h))

end Same

/-! ## The publish case -/

section Publish

variable {hist : List (Event × Answers)} {h : Subscriber} {m m' : Message} {ts : List Topic}
  {a : Answers}

theorem liveOf_publish (hist : List (Event × Answers)) (h : Subscriber) (m : Message)
    (ts : List Topic) (hp : a.put = .returns m') :
    liveOf (hist ++ [(.message m ts, a)]) h =
      (liveOf hist h).filter fun s => !meets s.Topics ts || a.delivered h := by
  simp [liveOf_append, Live.step, hp]

theorem owed_publish (m : Message) (ts : List Topic) {s : Subscription} (hp : a.put = .returns m') (hs : liveOf hist h = some s) :
    owed h (hist ++ [(.message m ts, a)]) =
      owed h hist ++ if meets s.Topics ts then a.sinkCalls h m' else [] := by
  simp [owed_append, hs, owedBy, hp]

/-- The entries of a live subscription are those of its topics. -/
theorem regEntry_isSome {s : Subscription} {t : Topic} :
    (regEntry (some s) t).isSome ↔ t ∈ s.Topics := by
  simp [regEntry]

/-- **`h` hit by a publish case** from a running loop, its live subscription `s` meeting the
    message's topics: the invariant holds of `View.hit`, whatever its sink did, in whatever phase
    the case ends (the loop leaves it only by a panic, and a panic of `h`'s own sink leaves it). -/
theorem HandleInv.hit {s : Subscription} {p' : Phase} {v : View}
    (hi : HandleInv hist h .running v) (hs : liveOf hist h = some s) (hmeet : meets s.Topics ts)
    (hp : a.put = .returns m') (hx : p'.isExited = false)
    (hpan : a.sinkOutcome h = .panics → p'.inLoop = false) :
    HandleInv (hist ++ [(.message m ts, a)]) h p' (v.hit a h m') := by
  have hacc : Accepted hist h := let ⟨a', hm, _⟩ := liveOf_some hs; ⟨s, a', hm⟩
  have hreg := registered_of_append hist (.message m ts, a) h fun _ => nofun
  have hcalls : v.calls = owed h hist := hi.callsEq (.inl rfl)
  have ho := owed_publish m ts hp hs
  simp only [hmeet, if_true] at ho
  have hL := liveOf_publish hist h m ts hp
  have hpre : v.calls ++ a.sinkCalls h m' <+: owed h (hist ++ [(.message m ts, a)]) :=
    ho ▸ hcalls ▸ List.prefix_refl _
  rcases hout : a.sinkOutcome h with (_ | e) | _
  · -- both calls returned nil: `h` stays, with its entries
    have hdel : a.delivered h = true := (Answers.delivered_iff a h).2 hout
    simp only [hs, Option.filter_some, hdel, Bool.or_true, if_true] at hL
    simp only [View.hit, hout]
    exact ⟨fun hn => absurd (accepted_append.2 (.inl hacc)) hn,
      fun _ => by rw [hL, ← hs]; exact hi.table (.inl rfl), fun _ => hi.listedOpen rfl,
      fun hr => hi.listed (hreg hr), fun he => by simp [hx] at he,
      hpre, fun _ => by rw [ho, hcalls]⟩
  · -- one returned an error: `h` has it, closed, and is gone from the table
    have hdel : a.delivered h = false := by
      rw [← Bool.not_eq_true, Answers.delivered_iff, hout]; simp
    simp only [hs, Option.filter_some, hdel, hmeet, Bool.not_true, Bool.or_false] at hL
    simp only [View.hit, hout]
    exact ⟨fun hn => absurd (accepted_append.2 (.inl hacc)) hn, fun _ _ => by simp [hL, regEntry],
      fun _ _ _ he => Option.noConfusion he, fun _ => .inl rfl, fun _ _ => rfl,
      hpre, fun _ => by rw [ho, hcalls]⟩
  · -- `h`'s own sink panicked: the loop leaves, and the history has a sink panic
    have hn : ¬NoSinkPanic (hist ++ [(.message m ts, a)]) := not_noSinkPanic hout
    have hl : p'.inLoop = false := hpan hout
    simp only [View.hit, hout]
    exact ⟨fun hn => absurd (accepted_append.2 (.inl hacc)) hn,
      fun hc => by simp [hl, hn] at hc, fun _ => hi.listedOpen rfl,
      fun hr => hi.listed (hreg hr), fun he => by simp [hx] at he,
      hpre, fun hc => by simp [hl, hn] at hc⟩

/-- `h`, in the table under a topic of the message, left untouched because another sink panicked
    first: only the prefix of its calls is left to say. -/
theorem HandleInv.cut {s : Subscription} {p' : Phase} {v : View}
    (hi : HandleInv hist h .running v) (hs : liveOf hist h = some s) (hp : a.put = .returns m')
    (hx : p'.isExited = false) (hl : p'.inLoop = false)
    (hn : ¬NoSinkPanic (hist ++ [(.message m ts, a)])) :
    HandleInv (hist ++ [(.message m ts, a)]) h p' v := by
  have hacc : Accepted hist h := let ⟨a', hm, _⟩ := liveOf_some hs; ⟨s, a', hm⟩
  have hreg := registered_of_append hist (.message m ts, a) h fun _ => nofun
  exact ⟨fun hn => absurd (accepted_append.2 (.inl hacc)) hn, fun hc => by simp [hl, hn] at hc,
    fun _ => hi.listedOpen rfl, fun hr => hi.listed (hreg hr), fun he => by simp [hx] at he,
    by rw [owed_publish m ts hp hs, hi.callsEq (.inl rfl)]; exact List.prefix_append _ _,
    fun hc => by simp [hl, hn] at hc⟩

variable {j : Joe}

open Joe in
/-- **The publish case keeps every handle's invariant.** -/
theorem handleInv_publish (hall : ∀ y, HandleInv hist y j.phase (j.view y))
    (hr : j.phase = .running) (hord : ∀ i l, (a.order i l).Perm l) (h : Subscriber) :
    HandleInv (hist ++ [(.message m ts, a)]) h (publish a m ts j).phase
      ((publish a m ts j).view h) := by
  have hi : HandleInv hist h .running (j.view h) := hr ▸ hall h
  have hto : TableOpen j := tableOpen_of_inv hall (by rw [hr]; rfl)
  obtain ⟨-, hph⟩ : TableOpen (publish a m ts j) ∧ _ := publish_open ts hto hr
  have hx : (publish a m ts j).phase.isExited = false := by
    rcases hph with hph | ⟨hph, -⟩ <;> rw [hph] <;> rfl
  have hn := registered_of_append hist (.message m ts, a) h fun _ => nofun
  rcases hp : a.put with m' | _
  · by_cases hreg : ∃ t ∈ ts, (entry j.topics t h).isSome
    · -- `h` is under a topic of the message: its live subscription meets them
      obtain ⟨t, ht, hsome⟩ := hreg
      have he : entry j.topics t h = regEntry (liveOf hist h) t := hi.table (.inl rfl) t
      obtain ⟨s, hs⟩ : ∃ s, liveOf hist h = some s := by
        cases hl : liveOf hist h with
        | none => simp [he, hl, regEntry] at hsome
        | some s => exact ⟨s, rfl⟩
      have hmeet : meets s.Topics ts := List.any_eq_true.2
        ⟨t, ht, decide_eq_true (regEntry_isSome.1 (by rwa [he, hs] at hsome))⟩
      have hleave : (publish a m ts j).phase ≠ .running → (publish a m ts j).phase.inLoop = false ∧
          ¬NoSinkPanic (hist ++ [(.message m ts, a)]) := fun hne => by
        rcases hph with hph | ⟨hph, hpan | ⟨y, hy⟩⟩
        · exact absurd hph hne
        · simp [hp] at hpan
        · exact ⟨by rw [hph]; rfl, not_noSinkPanic hy⟩
      rcases publish_view_hit hord hp hto hr ⟨t, ht, hsome⟩ with ⟨hv, hpan⟩ | ⟨hv, hne⟩
      · rw [hv]
        exact hi.hit hs hmeet hp hx fun ho => (hleave (hpan ho)).1
      · rw [hv]
        exact hi.cut hs hp hx (hleave hne).1 (hleave hne).2
    · -- `h` is under none of them: its live subscription, if any, does not meet them
      push_neg at hreg
      have hnone : ∀ t ∈ ts, entry j.topics t h = none := fun t ht => by
        simpa using hreg t ht
      rw [publish_view_other hord hp hnone]
      have hdis : ∀ s, liveOf hist h = some s → meets s.Topics ts = false := fun s hs => by
        simp only [meets, List.any_eq_false, decide_eq_true_eq]
        intro t ht hts
        have he : entry j.topics t h = regEntry (liveOf hist h) t := hi.table (.inl rfl) t
        rw [hnone t ht, hs] at he
        simp [regEntry, hts] at he
      refine hi.same rfl hx ?_ ?_ hn
      · rw [liveOf_publish hist h m ts hp]
        cases hl : liveOf hist h with
        | none => rfl
        | some s => simp [hdis s hl]
      · rw [owed_append]
        cases hl : liveOf hist h with
        | none => simp
        | some s => simp [owedBy, hp, hdis s hl]
  · -- `Put` panicked
    have hv : (publish a m ts j).view h = j.view h := by
      rw [publish_of_panics ts hp, view_unwind, view_call_put]
    rw [hv]
    exact hi.same rfl hx (by simp [liveOf_append, Live.step, hp])
      (by rw [owed_append]; cases liveOf hist h <;> simp [owedBy, hp]) hn

end Publish

/-! ## The subscribe and unsubscription cases -/

section Handles

variable {hist : List (Event × Answers)} {a : Answers} {j : Joe} {x : Subscriber}

open Joe in
/-- **The subscribe case keeps every handle's invariant**, when it brings a handle no subscribe
    case has taken. -/
theorem handleInv_subscribe {s : Subscription} (hall : ∀ y, HandleInv hist y j.phase (j.view y))
    (hr : j.phase = .running) (hfresh : ¬Accepted hist x) (h : Subscriber) :
    HandleInv (hist ++ [(.subscription x s, a)]) h (subscribe a x s j).phase
      ((subscribe a x s j).view h) := by
  have hi : HandleInv hist h .running (j.view h) := hr ▸ hall h
  have ho : owed h (hist ++ [(.subscription x s, a)]) = owed h hist :=
    owed_append_quiet fun _ _ => nofun
  obtain ⟨hm, he⟩ := (hall x).fresh hfresh
  have hx : (subscribe a x s j).phase.isExited = false := by
    have hph : (subscribe a x s j).phase = j.phase ∨
        (subscribe a x s j).phase = .leaving (some .panic) := subscribe_phase hm
    rcases hph with hp | hp <;> simp [hp, hr, Phase.isExited]
  by_cases hxh : x = h
  · subst hxh
    have hL0 : liveOf hist x = none := liveOf_of_not_accepted hfresh
    have hcalls : (j.view x).calls = owed x (hist ++ [(.subscription x s, a)]) :=
      (hi.callsEq (.inl rfl)).trans ho.symm
    have hacc : Accepted (hist ++ [(.subscription x s, a)]) x := accepted_append.2 (.inr ⟨s, rfl⟩)
    have hL : liveOf (hist ++ [(.subscription x s, a)]) x =
        if a.replay = .returns none then some s else none := by
      simp [liveOf_append, Live.step, hL0]; split <;> simp [hL0]
    rcases hrp : a.replay with (_ | err) | _
    · -- `Replay` returned nil: `x` is under each of its topics
      rw [subscribe_view_nil hrp]
      simp only [hrp, if_true] at hL
      refine ⟨fun hn => absurd hacc hn, fun _ t => ?_, fun _ _ _ _ => hm, fun hreg => .inr ?_,
        fun he' => by simp [hx] at he', hcalls ▸ List.prefix_refl _, fun _ => hcalls⟩
      · simp only [hL, regEntry, Option.some_bind]
        split
        · rfl
        · exact he t
      · rcases registered_append.1 hreg with hr' | ⟨s', hs', -, hne⟩
        · exact absurd hr'.accepted hfresh
        · obtain rfl := (Event.subscription.inj hs').2
          obtain ⟨t, ht⟩ := List.exists_mem_of_ne_nil _ hne
          exact ⟨t, by simp [ht]⟩
    · -- `Replay` returned an error: it waits on `x`'s closed channel
      rw [subscribe_view_err hrp hm]
      simp only [hrp, reduceCtorEq, if_false] at hL
      exact ⟨fun hn => absurd hacc hn, fun _ t => by simp [hL, regEntry, he t],
        fun _ t c he' => by simp [he t] at he', fun _ => .inl rfl, fun _ _ => rfl,
        hcalls ▸ List.prefix_refl _, fun _ => hcalls⟩
    · -- `Replay` panicked: `x` is neither in the table nor registered
      rw [subscribe_view_panics hrp]
      simp only [hrp, reduceCtorEq, if_false] at hL
      refine ⟨fun hn => absurd hacc hn, fun _ t => by simp [hL, regEntry, he t],
        fun _ t c he' => by simp [he t] at he', fun hreg => ?_, fun he' => by simp [hx] at he',
        hcalls ▸ List.prefix_refl _, fun _ => hcalls⟩
      rcases registered_append.1 hreg with hr' | ⟨_, -, hpan, -⟩
      · exact absurd hr'.accepted hfresh
      · exact absurd hrp hpan
  · rw [subscribe_view_other hxh]
    exact hi.same rfl hx (by simp [liveOf_append, Live.step]; split <;> simp [Function.update_noteq (Ne.symm hxh)])
      ho (registered_of_append hist _ h fun _ hc => hxh (Event.subscription.inj hc).1)

open Joe in
/-- **The unsubscription case keeps every handle's invariant**, when it brings a handle a
    subscribe case has taken. -/
theorem handleInv_unsubscribe (hall : ∀ y, HandleInv hist y j.phase (j.view y))
    (hr : j.phase = .running) (hacc : Accepted hist x) (h : Subscriber) :
    HandleInv (hist ++ [(.unsubscription x, a)]) h (removeSubscriber x j).phase
      ((removeSubscriber x j).view h) := by
  have hi : HandleInv hist h .running (j.view h) := hr ▸ hall h
  have ho : owed h (hist ++ [(.unsubscription x, a)]) = owed h hist :=
    owed_append_quiet fun _ _ => nofun
  have hreg := registered_of_append hist (.unsubscription x, a) h fun _ => nofun
  have hx : (removeSubscriber x j).phase.isExited = false := by
    have hph : (removeSubscriber x j).phase = j.phase ∨
        (removeSubscriber x j).phase = .leaving (some .closeOfClosed) := removeSubscriber_phase
    rcases hph with hp | hp <;> simp [hp, hr, Phase.isExited]
  by_cases hxh : x = h
  · -- `x` itself: out of the table, closed
    subst hxh
    obtain ⟨he, hc, hcalls⟩ : ((removeSubscriber x j).view x).entry = (fun _ => none) ∧
        ((removeSubscriber x j).view x).handle.closed = true ∧
        ((removeSubscriber x j).view x).calls = (j.view x).calls := removeSubscriber_view_self
    have hL : liveOf (hist ++ [(.unsubscription x, a)]) x = none := by
      simp [liveOf_append, Live.step]
    exact ⟨fun hn => absurd (accepted_append.2 (.inl hacc)) hn,
      fun _ t => by simp [he, hL, regEntry], fun _ t c he' => by simp [he] at he',
      fun _ => .inl hc, fun _ _ => hc, by rw [hcalls, ho]; exact hi.calls,
      fun _ => by rw [hcalls, ho]; exact hi.callsEq (.inl rfl)⟩
  · rw [removeSubscriber_view_other hxh]
    exact hi.same rfl hx (by simp [liveOf_append, Live.step, Function.update_noteq (Ne.symm hxh)])
      ho hreg

end Handles

/-! ## A step of the engine -/

section Step

variable {hist : List (Event × Answers)} {a : Answers} {j : Joe} {cfg : Config} {gcFn : Bool}
  {ev : Event}

open Joe in
/-- **Every case of the loop keeps every handle's invariant**, from the loop's `select` (or from
    `gcFn`, for its return), the engine taking what the facade may send it. -/
theorem handleInv_case (hall : ∀ y, HandleInv hist y j.phase (j.view y))
    (hr : j.phase = .running ∨ (j.phase = .collecting ∧ ev = .collected))
    (hadm : ev.Admissible hist) (hord : ∀ i l, (a.order i l).Perm l) (h : Subscriber) :
    HandleInv (hist ++ [(ev, a)]) h (case gcFn a ev j).phase ((case gcFn a ev j).view h) := by
  have hloop : j.phase.inLoop := by rcases hr with hr | ⟨hr, -⟩ <;> rw [hr] <;> rfl
  have hrun : ev ≠ .collected → j.phase = .running := fun hne =>
    hr.resolve_right fun ⟨_, he⟩ => hne he
  cases ev with
  | message m ts => exact handleInv_publish hall (hrun nofun) hord h
  | subscription x s => exact handleInv_subscribe hall (hrun nofun) hadm h
  | unsubscription x => exact handleInv_unsubscribe hall (hrun nofun) hadm h
  | gcSignal =>
    rw [case, gcSignal_view]
    refine (hall h).quiet hloop ?_ (fun _ => rfl) (fun _ _ => nofun) fun _ _ => nofun
    unfold gcSignal; split <;> rfl
  | collected =>
    rw [case, collected_view]
    refine (hall h).quiet hloop ?_ (fun _ => rfl) (fun _ _ => nofun) fun _ _ => nofun
    unfold collected; split <;> rfl
  | done => exact (hall h).quiet hloop rfl (fun _ => rfl) (fun _ _ => nofun) fun _ _ => nofun

/-- **The deferred calls keep a handle's invariant**: its entries and calls as they were, its
    channel closed if it is in the table and as it was if not. -/
theorem HandleInv.deferred {h : Subscriber} {f : Option Fault} {v v' : View}
    (hi : HandleInv hist h (.leaving f) v) (he : v'.entry = v.entry) (hc : v'.calls = v.calls)
    (hin : (∃ t, (v.entry t).isSome) → v'.handle = { v.handle with closed := true })
    (hout : (¬∃ t, (v.entry t).isSome) → v'.handle = v.handle) :
    HandleInv hist h (.exited f) v' := by
  have hclosed : v.handle.closed ∨ (∃ t, (v.entry t).isSome) → v'.handle.closed := by
    rintro (hcl | hl)
    · by_cases hl : ∃ t, (v.entry t).isSome
      · rw [hin hl]
      · rw [hout hl, hcl]
    · rw [hin hl]
  refine ⟨fun hn => ?_, fun hn => he ▸ hi.table hn, fun hx => by simp [Phase.isExited] at hx, fun hr => ?_,
    fun _ hr => hclosed (hi.listed hr), hc ▸ hi.calls, fun hn => hc ▸ hi.callsEq hn⟩
  · obtain ⟨hm, hnone⟩ := hi.fresh hn
    rw [he, hout fun ⟨t, ht⟩ => by simp [hnone t] at ht]
    exact ⟨hm, hnone⟩
  · rw [he]
    exact (hi.listed hr).imp_left fun hcl => hclosed (.inl hcl)

open Joe in
/-- **One step of the engine's goroutine keeps every handle's invariant**: the case, then the
    deferred calls if it left the loop. -/
theorem handleInv_step (hall : ∀ y, HandleInv hist y j.phase (j.view y))
    (hr : j.phase = .running ∨ (j.phase = .collecting ∧ ev = .collected))
    (hadm : ev.Admissible hist) (ha : a.Valid cfg ev) (h : Subscriber) :
    HandleInv (hist ++ [(ev, a)]) h (j.step gcFn a ev).phase ((j.step gcFn a ev).view h) := by
  have hc : ∀ y, HandleInv (hist ++ [(ev, a)]) y (case gcFn a ev j).phase
      ((case gcFn a ev j).view y) := handleInv_case hall hr hadm ha.order
  unfold step finish
  split
  · rename_i f hf
    have hto : TableOpen (case gcFn a ev j) := tableOpen_of_inv hc (by rw [hf]; rfl)
    obtain ⟨hph, htop, hlog, hin, hout⟩ := deferred_of_open ⟨ha.closeOrder, ha.topicOrder⟩ hto f
    rw [hph]
    exact (hf ▸ hc h).deferred (by simp [view, htop]) (by simp [view, hlog]) (hin h) (hout h)
  · exact hc h

/-- The phases the program is seen in between two steps: never inside a case, never parked on a
    full handle, never unwound by an error send on a closed one. -/
def Phase.Settled : Phase → Prop
  | .leaving _ | .blocked => False
  | .exited f => f ≠ some .sendOnClosed
  | _ => True

/-- Why a case of the loop may unwind: never an error send on a closed handle, and a call of
    the nil `gcFn` only in the `gcSignal` case of a loop with no `gcFn`. -/
def Unwinds (gcFn : Bool) (ev : Event) (f : Option Fault) : Prop :=
  f ≠ some .sendOnClosed ∧ (f = some .nilGC → ev = .gcSignal ∧ gcFn = false)

open Joe in
/-- Where a case ends: back in the loop, or unwinding, but never from an error send. -/
theorem case_phase (hall : ∀ y, HandleInv hist y j.phase (j.view y))
    (hr : j.phase = .running ∨ (j.phase = .collecting ∧ ev = .collected))
    (hadm : ev.Admissible hist) :
    (case gcFn a ev j).phase.inLoop ∨
      ∃ f, (case gcFn a ev j).phase = .leaving f ∧ Unwinds gcFn ev f := by
  have hrun : ev ≠ .collected → j.phase = .running := fun hne =>
    hr.resolve_right fun ⟨_, he⟩ => hne he
  cases ev with
  | message m ts =>
    have hto : TableOpen j := tableOpen_of_inv hall (by rw [hrun nofun]; rfl)
    obtain ⟨-, hph | ⟨hph, -⟩⟩ : TableOpen (publish a m ts j) ∧ _ := publish_open ts hto (hrun nofun)
    · exact .inl (by simp only [case, hph]; rfl)
    · exact .inr ⟨_, hph, nofun, nofun⟩
  | subscription x s =>
    have hph : (subscribe a x s j).phase = j.phase ∨
        (subscribe a x s j).phase = .leaving (some .panic) :=
      subscribe_phase ((hall x).fresh hadm).1
    rcases hph with hph | hph
    · exact .inl (by simp only [case, hph, hrun nofun]; rfl)
    · exact .inr ⟨_, hph, nofun, nofun⟩
  | unsubscription x =>
    have hph : (removeSubscriber x j).phase = j.phase ∨
        (removeSubscriber x j).phase = .leaving (some .closeOfClosed) := removeSubscriber_phase
    rcases hph with hph | hph
    · exact .inl (by simp only [case, hph, hrun nofun]; rfl)
    · exact .inr ⟨_, hph, nofun, nofun⟩
  | gcSignal =>
    simp only [case, gcSignal]
    split
    · exact .inl rfl
    · exact .inr ⟨_, rfl, nofun, fun _ => ⟨rfl, by simpa using ‹¬gcFn = true›⟩⟩
  | collected =>
    simp only [case, collected]
    split
    · exact .inl rfl
    · exact .inl rfl
    · exact .inr ⟨_, rfl, nofun, nofun⟩
  | done => exact .inr ⟨none, rfl, nofun, nofun⟩

open Joe in
/-- **Where a step of the engine ends**: in the loop, or exited for a cause a case may unwind
    for. -/
theorem step_phase (hall : ∀ y, HandleInv hist y j.phase (j.view y))
    (hr : j.phase = .running ∨ (j.phase = .collecting ∧ ev = .collected))
    (hadm : ev.Admissible hist) (ha : a.Valid cfg ev) :
    (j.step gcFn a ev).phase.inLoop ∨
      ∃ f, (j.step gcFn a ev).phase = .exited f ∧ Unwinds gcFn ev f := by
  have hc : ∀ y, HandleInv (hist ++ [(ev, a)]) y (case gcFn a ev j).phase
      ((case gcFn a ev j).view y) := handleInv_case hall hr hadm ha.order
  have hcp : (case gcFn a ev j).phase.inLoop ∨
      ∃ f, (case gcFn a ev j).phase = .leaving f ∧ Unwinds gcFn ev f := case_phase hall hr hadm
  unfold step finish
  split
  · rename_i f hf
    have hto : TableOpen (case gcFn a ev j) := tableOpen_of_inv hc (by rw [hf]; rfl)
    have hne : Unwinds gcFn ev f := by
      rcases hcp with hl | ⟨f', hf', hne⟩
      · rw [hf] at hl; cases hl
      · rw [hf] at hf'; cases hf'; exact hne
    exact .inr ⟨f, (deferred_of_open ⟨ha.closeOrder, ha.topicOrder⟩ hto f).1, hne⟩
  · rename_i hnl
    rcases hcp with hl | ⟨f', hf', -⟩
    · exact .inl hl
    · exact absurd hf' (hnl f')

end Step

end GoSse
