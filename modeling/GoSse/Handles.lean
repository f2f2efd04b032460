import GoSse.Refinement

/-!
# What becomes of a subscriber's handle

The channel each `Subscribe` call makes is the engine's to fill and to close. Over every
reachable world (`registered_handles_closed`):

* a handle in the table is open and empty until the deferred calls run, so the error send
  `done <- err` of a publish case never waits and never panics: the loop is never parked on it,
  nor unwound by it;
* a handle whose subscribe case completed for a request with a topic (`Registered`) is in the
  table or closed, and closed once the deferred calls ran; the deferred calls close each handle
  of the table once, however many topics it is under, and no other.

Two runs show where this stops:

* `empty_topics_open_after_shutdown` -- a request with no topic is registered nowhere, so the
  deferred calls of a `Shutdown` do not close its handle (the unsubscription case would, had
  the engine taken it first); the `Subscribe` doc comment asks for a topic, which is why
  `Registered` does;
* `replay_panic_leaves_handle_open` -- a `Replay` that panics unwinds the subscribe case after
  the engine took the request and before the handle is in the table: the deferred calls never
  see it, and the call waits on a handle no one will close, where `joe.go` says a panic removes
  all subscribers "so requests don't hang".
-/

namespace GoSse

variable {cfg : Config} {w : World}

/-- **The handles of a registered subscription.** In every reachable world: a handle in the table
    is open and empty until the deferred calls run; a registered handle is in the table or closed,
    and closed once they ran; the loop is never parked on an error send nor unwound by one on a
    closed handle; and the deferred calls, from the loop and in any order of their `range`s, close
    each handle of the table once and touch no other. -/
theorem registered_handles_closed (hw : Reachable cfg w) :
    (w.joe.phase.isExited = false → TableOpen w.joe) ∧
      (∀ h, Registered w.hist h → (w.joe.handles h).closed ∨ ∃ t, (entry w.joe.topics t h).isSome) ∧
      (w.joe.phase.isExited → ∀ h, Registered w.hist h → (w.joe.handles h).closed) ∧
      w.joe.phase ≠ .blocked ∧ w.joe.phase ≠ .exited (some .sendOnClosed) ∧
      (w.joe.phase.inLoop → ∀ (a : Answers) (f : Option Fault), (∀ i l, (a.closeOrder i l).Perm l) →
        (∀ l, (a.topicOrder l).Perm l) → (Joe.deferred a f w.joe).phase = .exited f ∧
          (∀ y, (∃ t, (entry w.joe.topics t y).isSome) →
            (Joe.deferred a f w.joe).handles y = ⟨true, none⟩) ∧
          ∀ y, (¬∃ t, (entry w.joe.topics t y).isSome) →
            (Joe.deferred a f w.joe).handles y = w.joe.handles y) := by
  have hi := (worldInv_reachable hw).engine
  have hs : w.joe.phase.Settled := hi.settled
  refine ⟨tableOpen_of_inv hi.handle, fun h => (hi.handle h).listed,
    fun hx h => (hi.handle h).exit hx, fun hb => by rw [hb] at hs; exact hs,
    fun hx => by rw [hx] at hs; exact hs rfl, fun hl a f hco hto => ?_⟩
  have ht := tableOpen_of_inv hi.handle (Phase.isExited_of_inLoop hl)
  obtain ⟨hph, -, -, hin, hout⟩ := Joe.deferred_of_open ⟨hco, hto⟩ ht f
  refine ⟨hph, fun y hy => ?_, hout⟩
  obtain ⟨t, hsome⟩ := hy
  obtain ⟨c, hc⟩ := Option.isSome_iff_exists.1 hsome
  rw [hin y ⟨t, hsome⟩, ht y t c hc]
  rfl

theorem registered_handles_closed_publishRun : ∃ w, Reachable plainConfig w ∧
    entry w.joe.topics "a" 0 = some 7 ∧
    ((w.joe.phase.isExited = false → TableOpen w.joe) ∧
      (∀ h, Registered w.hist h → (w.joe.handles h).closed ∨ ∃ t, (entry w.joe.topics t h).isSome) ∧
      (w.joe.phase.isExited → ∀ h, Registered w.hist h → (w.joe.handles h).closed) ∧
      w.joe.phase ≠ .blocked ∧ w.joe.phase ≠ .exited (some .sendOnClosed) ∧
      (w.joe.phase.inLoop → ∀ (a : Answers) (f : Option Fault), (∀ i l, (a.closeOrder i l).Perm l) →
        (∀ l, (a.topicOrder l).Perm l) → (Joe.deferred a f w.joe).phase = .exited f ∧
          (∀ y, (∃ t, (entry w.joe.topics t y).isSome) →
            (Joe.deferred a f w.joe).handles y = ⟨true, none⟩) ∧
          ∀ y, (¬∃ t, (entry w.joe.topics t y).isSome) →
            (Joe.deferred a f w.joe).handles y = w.joe.handles y)) := by
  obtain ⟨w, hw, -, he, -⟩ := publishRun
  exact ⟨w, hw, he, registered_handles_closed hw⟩

/-- A `Joe{}`: a `Subscribe` of sink 7 to no topic, then a `Shutdown` that returns nil. The
    handle was taken and registered nowhere; the engine exited, and its deferred calls left the
    handle open. -/
theorem empty_topics_open_after_shutdown : ∃ w, Reachable plainConfig w ∧
    (Event.subscription 0 ⟨7, []⟩, Answers.quiet 0) ∈ w.hist ∧
    (Answers.quiet 0).replay = .returns none ∧ (∀ t, entry w.joe.topics t 0 = none) ∧
    w.joe.phase = .exited none ∧ w.joe.handles 0 = .make := by
  have r0 : Reachable plainConfig World.init := .refl
  have r1 := r0.tail (Step.spawn _ (.Subscribe ⟨7, []⟩))
  have r2 := r1.tail (@Step.subscribeInit plainConfig _ 0 _ ⟨7, []⟩ rfl rfl rfl)
  have r3 := r2.tail (@Step.subscribeSend plainConfig _ 0 _ ⟨7, []⟩ 0 (Answers.quiet 0) rfl rfl
    rfl rfl (Answers.valid_quiet _ _ nofun))
  have r4 := r3.tail (Step.spawn _ .Shutdown)
  have r5 := r4.tail (@Step.shutdownInit plainConfig _ 1 _ rfl rfl rfl)
  have r6 := r5.tail (@Step.shutdownClose plainConfig _ 1 _ rfl rfl rfl rfl)
  have r7 := r6.tail (@Step.stop plainConfig _ (Answers.quiet 0) rfl rfl
    (Answers.valid_quiet _ _ nofun))
  have r8 := r7.tail (@Step.shutdownClosed plainConfig _ 1 _ none rfl rfl rfl rfl)
  exact ⟨_, r8, List.mem_append_left _ (List.mem_singleton_self _), rfl, fun _ => rfl, rfl, rfl⟩

/-- A `Joe` with a replay provider without `GC`. -/
def providerConfig : Config := ⟨.provider false, 0⟩

/-- A `Joe` with a provider: a `Subscribe` whose `Replay` panics. The engine took the request,
    unwound and ran its deferred calls, and the handle is still open and empty, its call waiting
    on it. -/
theorem replay_panic_leaves_handle_open : ∃ w, Reachable providerConfig w ∧ Accepted w.hist 0 ∧
    w.joe.phase = .exited (some .panic) ∧ w.joe.handles 0 = .make ∧
    ∃ t, w.threads 0 = some t ∧ t.pc = .waiting 0 := by
  have r0 : Reachable providerConfig World.init := .refl
  have r1 := r0.tail (Step.spawn _ (.Subscribe ⟨7, ["a"]⟩))
  have r2 := r1.tail (@Step.subscribeInit providerConfig _ 0 _ ⟨7, ["a"]⟩ rfl rfl rfl)
  have r3 := r2.tail (@Step.subscribeSend providerConfig _ 0 _ ⟨7, ["a"]⟩ 0
    { Answers.quiet 0 with replay := .panics } rfl rfl rfl rfl
    (Answers.valid_listed nofun (fun _ _ => rfl) (fun _ => rfl) (fun _ _ => rfl)))
  exact ⟨_, r3, ⟨_, _, List.mem_singleton_self _⟩, rfl, rfl, _, rfl, rfl⟩

end GoSse
