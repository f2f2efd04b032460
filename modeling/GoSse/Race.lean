import GoSse.Handles

/-!
# The cancellation race of `Subscribe`

`Subscribe`'s third `select` offers the engine its handle for removal while the handle may
already hold an error and be closed: when the engine's error and the caller's context meet, Go's
`select` in the second `select` may take `ctx.Done()` though `<-done` is ready, and the third one
may then take `j.unsubscription <- done`. The engine's unsubscription case closes the handle a
second time, and the call returns nil.

`raceRun` is that schedule, with a `Replay` error (a failed `Send` or `Flush` leads to the same
end): `unsubscribe_closes_twice` is the close of a closed channel, which panics the engine,
and `subscribe_loses_error` the nil the call returns with the error still in its handle.
Each needs only the rules of `Step`: no order or answer outside what Go allows.

What does hold of `Subscribe`'s first `select` is `subscribe_closed_never_accepted`: when it
returns `ErrProviderClosed` there, no subscribe case took its request, and none ever will
(`Released`). The call can still return the value `ErrProviderClosed` later, if `Replay` or its
sink returns that error.
-/

namespace GoSse

/-- `Replay` returns an error: the subscribe case puts it on the handle and closes it. -/
def Answers.replayFails (e : Error) : Answers := { Answers.quiet 0 with replay := .returns (some e) }

/-- The race: a `Subscribe` whose `Replay` fails while its context is cancelled, then takes the
    cancellation in its second `select` and the unsubscription in its third. -/
theorem raceRun : ∃ w, Reachable providerConfig w ∧
    w.hist.map Prod.fst = [.subscription 0 ⟨7, ["a"]⟩, .unsubscription 0] ∧
    (Event.subscription 0 ⟨7, ["a"]⟩, Answers.replayFails (.other 1)) ∈ w.hist ∧
    w.threads 0 = some ⟨.Subscribe ⟨7, ["a"]⟩, true, .returned none⟩ ∧
    w.joe.phase = .exited (some .closeOfClosed) ∧ w.joe.handles 0 = ⟨true, some (.other 1)⟩ := by
  have hv : ∀ a : Answers, (∀ i l, a.order i l = l) → (∀ l, a.topicOrder l = l) →
      (∀ i l, a.closeOrder i l = l) → ∀ ev, a.Valid providerConfig ev :=
    fun _ ho ht hc _ => Answers.valid_listed nofun ho ht hc
  have r0 : Reachable providerConfig World.init := .refl
  have r1 := r0.tail (Step.spawn _ (.Subscribe ⟨7, ["a"]⟩))
  have r2 := r1.tail (@Step.subscribeInit providerConfig _ 0 _ ⟨7, ["a"]⟩ rfl rfl rfl)
  have r3 := r2.tail (@Step.subscribeSend providerConfig _ 0 _ ⟨7, ["a"]⟩ 0
    (Answers.replayFails (.other 1)) rfl rfl rfl rfl
    (hv _ (fun _ _ => rfl) (fun _ => rfl) (fun _ _ => rfl) _))
  have r4 := r3.tail (@Step.cancel providerConfig _ 0 _ rfl)
  have r5 := r4.tail (@Step.subscribeCancel providerConfig _ 0 _ ⟨7, ["a"]⟩ 0 rfl rfl rfl rfl)
  have r6 := r5.tail (@Step.unsubscribeSend providerConfig _ 0 _ ⟨7, ["a"]⟩ 0 (Answers.quiet 0)
    rfl rfl rfl rfl (hv _ (fun _ _ => rfl) (fun _ => rfl) (fun _ _ => rfl) _))
  exact ⟨_, r6, rfl, List.mem_append_left _ (List.mem_singleton_self _), rfl, rfl, rfl⟩

/-- **The unsubscription closes a closed handle.** A run where the engine closes a handle in the
    subscribe case and again in the unsubscription case, and panics. -/
theorem unsubscribe_closes_twice : ∃ w, Reachable providerConfig w ∧
    w.hist.map Prod.fst = [.subscription 0 ⟨7, ["a"]⟩, .unsubscription 0] ∧
    (∃ a, (Event.subscription 0 ⟨7, ["a"]⟩, a) ∈ w.hist ∧ a.replay = .returns (some (.other 1))) ∧
    w.joe.phase = .exited (some .closeOfClosed) := by
  obtain ⟨w, hw, hh, hm, -, hp, -⟩ := raceRun
  exact ⟨w, hw, hh, ⟨_, hm, rfl⟩, hp⟩

/-- **`Subscribe` turns a delivered error into nil.** A run where the engine put the error
    `other 1` on the handle of a `Subscribe` call, and the call returned nil, the error still
    waiting in its handle. -/
theorem subscribe_loses_error : ∃ w, Reachable providerConfig w ∧
    (∃ a, (Event.subscription 0 ⟨7, ["a"]⟩, a) ∈ w.hist ∧ a.replay = .returns (some (.other 1))) ∧
    w.threads 0 = some ⟨.Subscribe ⟨7, ["a"]⟩, true, .returned none⟩ ∧
    (w.joe.handles 0).buf = some (.other 1) := by
  obtain ⟨w, hw, -, hm, ht, -, hh⟩ := raceRun
  exact ⟨w, hw, ⟨_, hm, rfl⟩, ht, by rw [hh]⟩

/-! ## A request the engine never took -/

/-- **The handle `h` is out of every call's hands and was never taken**: it was made, no call
    holds it, and no subscribe case took it. -/
structure Released (h : Subscriber) (w : World) : Prop where
  made : h < w.next
  unaccepted : ¬Accepted w.hist h
  unheld : ∀ i t, w.threads i = some t → t.pc.handle ≠ some h

variable {cfg : Config} {w w' : World} {h : Subscriber}

theorem Released.setThread (hr : Released h w) {i : Nat} {t : Thread} (hh : t.pc.handle ≠ some h) :
    Released h (w.setThread i t) := by
  refine ⟨hr.made, hr.unaccepted, fun i' t' ht' => ?_⟩
  rcases thread_update ht' with ⟨-, rfl⟩ | ⟨-, ht'⟩
  · exact hh
  · exact hr.unheld i' t' ht'

theorem Released.setJoe (hr : Released h w) (j : Joe) : Released h (w.setJoe j) :=
  ⟨hr.made, hr.unaccepted, hr.unheld⟩

/-- A case of the engine that is not the subscribe case of `h`. -/
theorem Released.engine (hr : Released h w) {a : Answers} {ev : Event}
    (hev : ∀ s, ev ≠ .subscription h s) : Released h (w.engine cfg a ev) :=
  ⟨hr.made, fun hacc => hr.unaccepted ((accepted_append_of_ne hev).1 hacc), hr.unheld⟩

/-- **Every rule keeps a released handle released**: a subscribe case takes only the handle its
    caller sends, and `make` hands out a new one. -/
theorem Released.step (hr : Released h w) (hs : Step cfg w w') : Released h w' := by
  cases hs with
  | spawn m =>
    refine ⟨hr.made, hr.unaccepted, fun i t ht => ?_⟩
    rcases thread_update ht with ⟨-, rfl⟩ | ⟨-, ht⟩
    · nofun
    · exact hr.unheld i t ht
  | @cancel i t ht => exact hr.setThread (hr.unheld i t ht)
  | tick => exact hr.setJoe _
  | subscribeRecv | shutdownClose | publishInit | shutdownInit =>
    exact (hr.setJoe _).setThread nofun
  | @subscribeInit i t _ _ _ _ =>
    have hr' : Released h ((w.setJoe (w.joe.init cfg)).setThread i { t with pc := .subscribing w.next }) :=
      (hr.setJoe _).setThread fun he : some w.next = some h => by
        cases he; exact Nat.lt_irrefl _ hr.made
    exact ⟨Nat.lt_succ_of_lt hr.made, hr'.unaccepted, hr'.unheld⟩
  | @subscribeSend i t _ h' _ ht _ hpc _ _ =>
    have hne : h' ≠ h := fun he => hr.unheld i t ht (by rw [hpc, he]; rfl)
    exact (hr.engine fun _ he => hne (Event.subscription.inj he).1).setThread
      fun he : some h' = some h => hne (Option.some.inj he)
  | @subscribeCancel i t _ h' ht _ hpc _ =>
    exact hr.setThread fun he : some h' = some h => hr.unheld i t ht (by rw [hpc]; exact he)
  | publishSend | unsubscribeSend => exact GoSse.Released.setThread (hr.engine (by nofun)) nofun
  | publishNoTopic | publishClosed | subscribeClosed | shutdownRecover | shutdownClosed
    | shutdownCtx => exact hr.setThread nofun
  | gcSignal | collected | stop => exact hr.engine (by nofun)

theorem Released.run (hr : Released h w) (hrun : Relation.ReflTransGen (Step cfg) w w') :
    Released h w' := by
  induction hrun with
  | refl => exact hr
  | tail _ hs ih => exact ih.step hs

end GoSse
