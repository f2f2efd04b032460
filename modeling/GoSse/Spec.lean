import GoSse.Joe

/-!
# What the engine is for: the live subscriptions, and what each sink is owed

This file says what the engine loop should do, in our own words and over the loop's history
alone (the cases it took and their answers), without its table or its maps:

* `Live`, `Live.step`, `liveOf` -- the abstract machine: the set of live subscriptions, by
  handle. A subscribe case whose `Replay` returned nil adds its subscription; an unsubscription
  drops its handle; a publish whose `Put` returned drops exactly the subscriptions it meets whose
  `Send` or `Flush` did not return nil (`Answers.delivered`); nothing else changes it;
* `owed` -- the sink calls one handle is owed over a history: for every publish case that meets
  its live subscription, one `Send` of what `Put` returned, then one `Flush` if that `Send`
  returned nil;
* `callsTo` -- the calls the engine's ghost `log` shows on one handle's sink, to compare with
  `owed`.

`Refinement.lean` connects the engine's table to `liveOf` (`Refines`), and its `log` to `owed`.
-/

namespace GoSse

/-- `ts` shares a topic with `T`. -/
def meets (T ts : List Topic) : Bool := ts.any (· ∈ T)

/-- In a publish case, the `Send` and the `Flush` on `h`'s sink both returned nil. -/
def Answers.delivered (a : Answers) (h : Subscriber) : Bool :=
  a.send h = .returns none && a.flush h = .returns none

/-- What the sink of `h` did in a publish case: both calls returned nil, one returned an error,
    or one panicked. -/
def Answers.sinkOutcome (a : Answers) (h : Subscriber) : Outcome (Option Error) :=
  match a.send h with
  | .returns none => a.flush h
  | r => r

/-! ## 1. The live subscriptions -/

/-- The live subscriptions, by handle. -/
abbrev Live := Subscriber → Option Subscription

/-- How one case of the loop changes the live subscriptions. -/
def Live.step (L : Live) : Event × Answers → Live
  | (.subscription h s, a) => if a.replay = .returns none then Function.update L h (some s) else L
  | (.unsubscription h, _) => Function.update L h none
  | (.message _ ts, a) =>
    match a.put with
    | .returns _ => fun h => (L h).filter fun s => !meets s.Topics ts || a.delivered h
    | .panics => L
  | (.gcSignal, _) | (.collected, _) | (.done, _) => L

/-- The live subscriptions after a history. -/
def liveOf (hist : List (Event × Answers)) : Live := hist.foldl Live.step fun _ => none

@[simp] theorem liveOf_nil : liveOf [] = fun _ => none := rfl

theorem liveOf_append (hist : List (Event × Answers)) (x : Event × Answers) :
    liveOf (hist ++ [x]) = (liveOf hist).step x := by
  simp [liveOf, List.foldl_append]

/-! ## 2. What a sink is owed -/

/-- A call on a sink, of the kind a subscriber's client sees. -/
inductive SinkCall where
  | send (m : Message)
  | flush
  deriving DecidableEq, Repr

/-- The call `c` as seen by the sink of `h`. -/
def Call.onSink (h : Subscriber) : Call → Option SinkCall
  | .send h' _ m => if h' = h then some (.send m) else none
  | .flush h' _ => if h' = h then some .flush else none
  | _ => none

/-- The calls a log shows on the sink of `h`, in order. Which sink value each call went to is
    dropped here; `sink_calls_routed` shows it is the `Client` of `h`'s request. -/
def callsTo (h : Subscriber) (log : List Call) : List SinkCall := log.filterMap (Call.onSink h)

/-- A `Send` of `m` on the sink of `h`, then a `Flush` if that `Send` returned nil. -/
def Answers.sinkCalls (a : Answers) (h : Subscriber) (m : Message) : List SinkCall :=
  .send m :: if a.send h = .returns none then [.flush] else []

/-- The calls one case owes the live subscription `s` of `h`: for a publish whose topics meet
    `s.Topics`, a `Send` of what `Put` returned, then a `Flush` if that `Send` returned nil. -/
def owedBy (h : Subscriber) (s : Subscription) : Event × Answers → List SinkCall
  | (.message _ ts, a) =>
    match a.put with
    | .returns m => if meets s.Topics ts then a.sinkCalls h m else []
    | .panics => []
  | _ => []

/-- The calls `h` is owed over the history `hist`, when `L` is live before it. -/
def owedFrom (h : Subscriber) : Live → List (Event × Answers) → List SinkCall
  | _, [] => []
  | L, x :: xs => ((L h).elim [] fun s => owedBy h s x) ++ owedFrom h (L.step x) xs

/-- The calls `h` is owed over a history of the loop. -/
def owed (h : Subscriber) (hist : List (Event × Answers)) : List SinkCall :=
  owedFrom h (fun _ => none) hist

theorem owedFrom_append (h : Subscriber) (L : Live) (xs : List (Event × Answers))
    (x : Event × Answers) :
    owedFrom h L (xs ++ [x]) =
      owedFrom h L xs ++ ((xs.foldl Live.step L h).elim [] fun s => owedBy h s x) := by
  induction xs generalizing L with
  | nil => simp [owedFrom]
  | cons y ys ih => simp [owedFrom, ih]

theorem owed_append (h : Subscriber) (hist : List (Event × Answers)) (x : Event × Answers) :
    owed h (hist ++ [x]) = owed h hist ++ ((liveOf hist h).elim [] fun s => owedBy h s x) :=
  owedFrom_append h _ hist x

@[simp] theorem callsTo_append (h : Subscriber) (l l' : List Call) :
    callsTo h (l ++ l') = callsTo h l ++ callsTo h l' := by
  simp [callsTo]

/-! ## 3. What the history says of one handle -/

/-- The engine took a subscribe case for `h`. -/
def Accepted (hist : List (Event × Answers)) (h : Subscriber) : Prop :=
  ∃ s a, (Event.subscription h s, a) ∈ hist

/-- The subscribe case of `h` completed -- its `Replay` returned -- for a request with a topic. -/
def Registered (hist : List (Event × Answers)) (h : Subscriber) : Prop :=
  ∃ s a, (Event.subscription h s, a) ∈ hist ∧ a.replay ≠ .panics ∧ s.Topics ≠ []

/-- No sink panicked in a publish case of the history. It reads every handle's answer, also of
    sinks no case called; after a normal exit `owed_at_normal_exit` needs no such condition. -/
def NoSinkPanic (hist : List (Event × Answers)) : Prop :=
  ∀ m ts a, (Event.message m ts, a) ∈ hist → ∀ y, a.sinkOutcome y ≠ .panics

/-- The sink the live subscription `o` of a handle asks for under the topic `t`. -/
def regEntry (o : Option Subscription) (t : Topic) : Option MessageWriter :=
  o.bind fun s => if t ∈ s.Topics then some s.Client else none

/-- The table `tbl` holds exactly the live subscriptions `L`: each handle's `Client` under each of
    its `Topics`, and nothing else. -/
def Refines (tbl : Topics) (L : Live) : Prop := ∀ t h, entry tbl t h = regEntry (L h) t

variable {hist : List (Event × Answers)} {h : Subscriber} {x : Event × Answers}

theorem accepted_append :
    Accepted (hist ++ [x]) h ↔ Accepted hist h ∨ ∃ s, x.1 = .subscription h s := by
  obtain ⟨ev, a⟩ := x
  simp only [Accepted, List.mem_append, List.mem_singleton, Prod.mk.injEq]
  constructor
  · rintro ⟨s, a', hm | ⟨rfl, rfl⟩⟩
    · exact .inl ⟨s, a', hm⟩
    · exact .inr ⟨s, rfl⟩
  · rintro (⟨s, a', hm⟩ | ⟨s, rfl⟩)
    · exact ⟨s, a', .inl hm⟩
    · exact ⟨s, a, .inr ⟨rfl, rfl⟩⟩

theorem registered_append :
    Registered (hist ++ [x]) h ↔ Registered hist h ∨
      ∃ s, x.1 = .subscription h s ∧ x.2.replay ≠ .panics ∧ s.Topics ≠ [] := by
  obtain ⟨ev, a⟩ := x
  simp only [Registered, List.mem_append, List.mem_singleton, Prod.mk.injEq]
  constructor
  · rintro ⟨s, a', hm | ⟨rfl, rfl⟩, hr, ht⟩
    · exact .inl ⟨s, a', hm, hr, ht⟩
    · exact .inr ⟨s, rfl, hr, ht⟩
  · rintro (⟨s, a', hm, hr, ht⟩ | ⟨s, rfl, hr, ht⟩)
    · exact ⟨s, a', .inl hm, hr, ht⟩
    · exact ⟨s, a, .inr ⟨rfl, rfl⟩, hr, ht⟩

theorem Registered.accepted (hr : Registered hist h) : Accepted hist h :=
  let ⟨s, a, hm, _⟩ := hr; ⟨s, a, hm⟩

theorem NoSinkPanic.of_append (hn : NoSinkPanic (hist ++ [x])) : NoSinkPanic hist :=
  fun m ts a hm => hn m ts a (List.mem_append_left _ hm)

/-- A panic at a sink in the last publish case breaks `NoSinkPanic`. -/
theorem not_noSinkPanic {m : Message} {ts : List Topic} {a : Answers} {y : Subscriber}
    (hy : a.sinkOutcome y = .panics) : ¬NoSinkPanic (hist ++ [(.message m ts, a)]) :=
  fun hn => hn m ts a (List.mem_append_right _ (List.mem_singleton_self _)) y hy

/-- A subscription live after a case was live before it, or the case is its handle's subscribe
    case and `Replay` returned nil. -/
theorem Live.step_some {L : Live} {x : Event × Answers} {s : Subscription} (hl : L.step x h = some s) :
    L h = some s ∨ (x.1 = .subscription h s ∧ x.2.replay = .returns none) := by
  obtain ⟨ev, a⟩ := x
  cases ev with
  | subscription h' s' =>
    simp only [Live.step] at hl
    split at hl
    · by_cases hh : h = h'
      · subst hh
        simp only [Function.update_same, Option.some.injEq] at hl
        exact .inr ⟨by rw [hl], ‹_›⟩
      · exact .inl (by rwa [Function.update_noteq hh] at hl)
    · exact .inl hl
  | unsubscription h' =>
    simp only [Live.step] at hl
    by_cases hh : h = h'
    · subst hh; simp at hl
    · exact .inl (by rwa [Function.update_noteq hh] at hl)
  | message m ts =>
    rcases hp : a.put with _ | _ <;> simp only [Live.step, hp] at hl
    · exact .inl (Option.filter_eq_some.1 hl).1
    · exact .inl hl
  | gcSignal | collected | done => exact .inl hl

/-- A live subscription was added by a subscribe case of its handle whose `Replay` returned nil. -/
theorem liveOf_some {s : Subscription} (hl : liveOf hist h = some s) :
    ∃ a, (Event.subscription h s, a) ∈ hist ∧ a.replay = .returns none := by
  induction hist using List.reverseRecOn with
  | nil => cases hl
  | append_singleton hist x ih =>
    rw [liveOf_append] at hl
    rcases Live.step_some hl with hl | ⟨he, hr⟩
    · obtain ⟨a, hm, hr⟩ := ih hl
      exact ⟨a, List.mem_append_left _ hm, hr⟩
    · exact ⟨x.2, List.mem_append_right _ (List.mem_singleton.2 (Prod.ext he.symm rfl)), hr⟩

theorem liveOf_of_not_accepted (ha : ¬Accepted hist h) : liveOf hist h = none := by
  cases hl : liveOf hist h with
  | none => rfl
  | some s =>
    obtain ⟨a, hm, -⟩ := liveOf_some hl
    exact absurd ⟨s, a, hm⟩ ha

end GoSse
