import GoSse.Reach

/-!
# The engine refines the spec: its table and its sink calls

The two faces of the loop a subscriber sees, each against `Spec.lean`, over every reachable world
(every interleaving of the calls, every answer of the provider and of the sinks, every order of
every `range`):

* `table_refines` -- the table holds exactly the live subscriptions of the abstract machine
  `Live.step` (`Refines`), and each live subscription is the request of the one subscribe case of
  its handle. The abstract machine says how a case changes the set: a subscribe case adds its
  request when `Replay` returned nil, an unsubscription drops its handle, a publish drops the
  handles whose `Send` or `Flush` failed, nothing else changes it; so the table changes so too;
* `sink_calls_owed` -- the `Send` and `Flush` calls on a handle's sink are what it is owed
  (`owed`): one `Send` of what `Put` returned for each publish meeting its live subscription, one
  `Flush` after each `Send` that returned nil. All of it while the loop runs or when no sink
  panicked; a prefix of it otherwise, the case a sink's panic cut short being unfinished.

Both read off the invariant of `Reach.lean`; `publishRun` is a run where they can be seen at work.
-/

namespace GoSse

variable {cfg : Config} {w : World}

/-- **The table refines the live subscriptions.** While the loop runs, or when no sink has
    panicked, the table holds exactly the live subscriptions; and a live subscription of `h` is
    the request of the one subscribe case of `h`, whose `Replay` returned nil. -/
theorem table_refines (hw : Reachable cfg w) (hl : w.joe.phase.inLoop ∨ NoSinkPanic w.hist) :
    Refines w.joe.topics (liveOf w.hist) ∧
      ∀ h s, liveOf w.hist h = some s → ∃ a, (Event.subscription h s, a) ∈ w.hist ∧
        a.replay = .returns none ∧ ∀ s' a', (Event.subscription h s', a') ∈ w.hist → s' = s := by
  have hi := (worldInv_reachable hw).engine
  refine ⟨fun t h => (hi.handle h).table hl t, fun h s hs => ?_⟩
  obtain ⟨a, hm, hr⟩ := liveOf_some hs
  exact ⟨a, hm, hr, fun s' a' hm' => hi.once h s' s a' a hm' hm⟩

/-- **Every sink gets what it is owed.** The calls the engine made on the sink of `h` are a
    prefix of what `h` is owed, and all of it while the loop runs or when no sink has panicked. -/
theorem sink_calls_owed (hw : Reachable cfg w) (h : Subscriber) :
    callsTo h w.joe.log <+: owed h w.hist ∧
      (w.joe.phase.inLoop ∨ NoSinkPanic w.hist → callsTo h w.joe.log = owed h w.hist) :=
  let hi := (worldInv_reachable hw).engine.handle h
  ⟨hi.calls, hi.callsEq⟩

/-- A `Joe{}` with no provider, as `Server` makes it. -/
def plainConfig : Config := ⟨.nil, 0⟩

/-- A run of a `Joe{}`: a `Subscribe` of sink 7 to topic `"a"`, then a `Publish` of message 5 to
    `"a"` twice. The sink gets one `Send` and one `Flush`. -/
theorem publishRun : ∃ w, Reachable plainConfig w ∧ w.joe.phase = .running ∧
    entry w.joe.topics "a" 0 = some 7 ∧ callsTo 0 w.joe.log = [.send 5, .flush] := by
  have r0 : Reachable plainConfig World.init := .refl
  have r1 := r0.tail (Step.spawn _ (.Subscribe ⟨7, ["a"]⟩))
  have r2 := r1.tail (@Step.subscribeInit plainConfig _ 0 _ ⟨7, ["a"]⟩ rfl rfl rfl)
  have r3 := r2.tail (@Step.subscribeSend plainConfig _ 0 _ ⟨7, ["a"]⟩ 0 (Answers.quiet 0) rfl rfl
    rfl rfl (Answers.valid_quiet _ _ nofun))
  have r4 := r3.tail (Step.spawn _ (.Publish 5 ["a", "a"]))
  have r5 := r4.tail (@Step.publishInit plainConfig _ 1 _ 5 ["a", "a"] rfl rfl rfl nofun)
  have r6 := r5.tail (@Step.publishSend plainConfig _ 1 _ 5 ["a", "a"] (Answers.quiet 5) rfl rfl rfl
    rfl (Answers.valid_quiet _ _ fun _ _ he => (Event.message.inj he).1.symm))
  exact ⟨_, r6, rfl, rfl, rfl⟩

theorem table_refines_publishRun : ∃ w, Reachable plainConfig w ∧ entry w.joe.topics "a" 0 = some 7 ∧
    (Refines w.joe.topics (liveOf w.hist) ∧
      ∀ h s, liveOf w.hist h = some s → ∃ a, (Event.subscription h s, a) ∈ w.hist ∧
        a.replay = .returns none ∧ ∀ s' a', (Event.subscription h s', a') ∈ w.hist → s' = s) := by
  obtain ⟨w, hw, hr, he, -⟩ := publishRun
  exact ⟨w, hw, he, table_refines hw (.inl (by rw [hr]; rfl))⟩

theorem sink_calls_owed_publishRun : ∃ w, Reachable plainConfig w ∧
    callsTo 0 w.joe.log = [.send 5, .flush] ∧ (callsTo 0 w.joe.log <+: owed 0 w.hist ∧
      (w.joe.phase.inLoop ∨ NoSinkPanic w.hist → callsTo 0 w.joe.log = owed 0 w.hist)) := by
  obtain ⟨w, hw, -, -, hc⟩ := publishRun
  exact ⟨w, hw, hc, sink_calls_owed hw 0⟩

end GoSse
