import GoSse.Spec

/-!
# The cases of the loop, one handle at a time

Every case of `Joe.start` acts on the handles it names and on no other, and that is how this file
reads each case: through the `View` one handle `h` has of the engine -- its entry under every
topic, its channel, the calls on its sink. For each piece of the loop:

* a piece aimed at another handle leaves `h`'s view as it was (`dispatch_other`,
  `removeSubscriber_view_other`, ...);
* the publish case meets `h` at most once, however the topics repeat and whatever order each
  `range` takes (`rangeTopic_hit`, `rangeTopics_view`), and there its view becomes `View.hit`:
  the `Send` (and `Flush`) recorded, and, when one of them failed, the error on the channel, the
  channel closed, and every entry gone;
* `TableOpen` -- every handle in the table is open with an empty buffer -- is what keeps the
  error send `done <- err` from waiting or panicking; each case keeps it.
-/

namespace GoSse

/-- What handle `h` sees of the engine. -/
structure View where
  entry : Topic → Option MessageWriter
  handle : Chan Error
  calls : List SinkCall

/-- The view of `h` once a publish case of message `m` reached it, from an open, empty channel. -/
def View.hit (a : Answers) (h : Subscriber) (m : Message) (v : View) : View :=
  match a.sinkOutcome h with
  | .returns (some e) => ⟨fun _ => none, ⟨true, some e⟩, v.calls ++ a.sinkCalls h m⟩
  | _ => { v with calls := v.calls ++ a.sinkCalls h m }

theorem Answers.delivered_iff (a : Answers) (h : Subscriber) :
    a.delivered h = true ↔ a.sinkOutcome h = .returns none := by
  unfold delivered sinkOutcome
  rcases a.send h with (_ | e) | _ <;> simp

/-- Every handle in the table is open, with an empty buffer. -/
def TableOpen (j : Joe) : Prop := ∀ x t c, entry j.topics t x = some c → j.handles x = .make

theorem TableOpen.of_eq {j j' : Joe} (hto : TableOpen j) (ht : j'.topics = j.topics)
    (hh : j'.handles = j.handles) : TableOpen j' := by
  intro y u c he
  rw [hh]
  exact hto y u c (ht ▸ he)

/-- The phase after a piece of the publish case: as before, or unwinding from a sink's panic. -/
def PhaseAfter (a : Answers) (p p' : Phase) : Prop :=
  p' = p ∨ (p' = .leaving (some .panic) ∧ ∃ y, a.sinkOutcome y = .panics)

theorem PhaseAfter.trans {a : Answers} {p p' p'' : Phase} (h₁ : PhaseAfter a p p')
    (h₂ : PhaseAfter a p' p'') : PhaseAfter a p p'' := by
  rcases h₂ with rfl | h₂
  · exact h₁
  · exact .inr h₂

namespace Joe

/-- What `h` sees of `j`. -/
def view (h : Subscriber) (j : Joe) : View :=
  ⟨fun t => entry j.topics t h, j.handles h, callsTo h j.log⟩

variable {a : Answers} {h x : Subscriber} {j : Joe}

/-! ## 1. The pieces -/

@[simp] theorem view_unwind (f : Fault) : (j.unwind f).view h = j.view h := rfl

@[simp] theorem phase_unwind (f : Fault) : (j.unwind f).phase = .leaving (some f) := rfl

@[simp] theorem topics_unwind (f : Fault) : (j.unwind f).topics = j.topics := rfl

@[simp] theorem handles_unwind (f : Fault) : (j.unwind f).handles = j.handles := rfl

@[simp] theorem log_unwind (f : Fault) : (j.unwind f).log = j.log := rfl

@[simp] theorem topics_call (c : Call) : (j.call c).topics = j.topics := rfl

@[simp] theorem handles_call (c : Call) : (j.call c).handles = j.handles := rfl

@[simp] theorem phase_call (c : Call) : (j.call c).phase = j.phase := rfl

theorem view_call_other (c : Call) (hc : c.onSink h = none) : (j.call c).view h = j.view h := by
  simp [view, call, callsTo, hc]

theorem close_view_other (hx : x ≠ h) : (j.close x).view h = j.view h := by
  unfold close
  split <;> simp [view, Function.update_noteq (Ne.symm hx)]

theorem removeSubscriber_view_other (hx : x ≠ h) :
    (j.removeSubscriber x).view h = j.view h := by
  rw [removeSubscriber, close_view_other hx]
  simp [view, Ne.symm hx]

/-- The error send on another handle, then `k`, which does not touch `h`, seen from `h`. -/
theorem sendErr_view_other (hx : x ≠ h) (err : Error) {k : Joe → Joe}
    (hk : ∀ j' : Joe, (k j').view h = j'.view h) : (j.sendErr x err k).view h = j.view h := by
  unfold sendErr
  split
  · rw [hk]
    simp [view, Function.update_noteq (Ne.symm hx)]
  · rfl
  · rfl

/-- The error send and the leave of a failed subscriber, seen from another handle. -/
theorem evict_view_other (hx : x ≠ h) (err : Error) :
    (j.sendErr x err (removeSubscriber x)).view h = j.view h :=
  sendErr_view_other hx err fun _ => removeSubscriber_view_other hx

theorem sendErr_of_make (err : Error) (k : Joe → Joe) (hm : j.handles x = .make) :
    j.sendErr x err k = k { j with handles := Function.update j.handles x ⟨false, some err⟩ } := by
  simp [sendErr, hm]

/-- `done <- err; j.removeSubscriber(done)` on an open, empty handle: the error waits on the
    closed channel, and the handle is in no topic. -/
theorem evict_of_make (err : Error) (hm : j.handles x = .make) :
    j.sendErr x err (removeSubscriber x) =
      { j with topics := j.topics.mapVal (·.delete x),
               handles := Function.update j.handles x ⟨true, some err⟩ } := by
  rw [sendErr_of_make err _ hm]
  simp [removeSubscriber, close, Function.update_idem]

/-! ## 2. `dispatch`: one key of the inner range -/

variable {m : Message} {t : Topic} {st : Joe × List Subscriber}

theorem sendFlush_snd (c : MessageWriter) : (sendFlush a x c m j).2 = a.sinkOutcome x := by
  unfold sendFlush Answers.sinkOutcome
  split <;> simp_all

@[simp] theorem topics_sendFlush (c : MessageWriter) : (sendFlush a x c m j).1.topics = j.topics := by
  unfold sendFlush; split <;> rfl

@[simp] theorem handles_sendFlush (c : MessageWriter) :
    (sendFlush a x c m j).1.handles = j.handles := by
  unfold sendFlush; split <;> rfl

@[simp] theorem phase_sendFlush (c : MessageWriter) : (sendFlush a x c m j).1.phase = j.phase := by
  unfold sendFlush; split <;> rfl

theorem dispatch_seen (hx : x ∈ st.2) : dispatch a m t st x = st := by
  obtain ⟨j, seen⟩ := st
  simp [dispatch, hx]

theorem dispatch_absent (he : entry st.1.topics t x = none) : dispatch a m t st x = st := by
  obtain ⟨j, seen⟩ := st
  simp only [dispatch]
  split <;> simp_all

theorem sendFlush_view_other (hx : x ≠ h) (c : MessageWriter) :
    (sendFlush a x c m j).1.view h = j.view h := by
  have hs : (Call.send x c m).onSink h = none := by simp [Call.onSink, hx]
  have hf : (Call.flush x c).onSink h = none := by simp [Call.onSink, hx]
  unfold sendFlush
  split <;> simp only [view_call_other _ hs, view_call_other _ hf]

/-- A key other than `h` leaves `h`'s view, and whether `h` is `seen`, as they were. -/
theorem dispatch_other (a : Answers) (m : Message) (t : Topic) (st : Joe × List Subscriber)
    (hx : x ≠ h) :
    (dispatch a m t st x).1.view h = st.1.view h ∧ (h ∈ (dispatch a m t st x).2 ↔ h ∈ st.2) := by
  obtain ⟨j, seen⟩ := st
  simp only [dispatch]
  split
  · simp
  · split
    · simp
    · rename_i c _
      have hv : (sendFlush a x c m j).1.view h = j.view h := sendFlush_view_other hx c
      split <;> simp_all [evict_view_other, Ne.symm hx]

/-- The key `h` itself, reached with its entry `c` and an open, empty channel: the calls on its
    sink are recorded; it is `seen` when they returned nil, gone from the table when one failed,
    and the case unwinds when one panicked. -/
theorem dispatch_hit (a : Answers) (m : Message) {seen : List Subscriber} {c : MessageWriter} (hs : h ∉ seen)
    (he : entry j.topics t h = some c) (hm : j.handles h = .make) :
    (dispatch a m t (j, seen) h).1.view h = (j.view h).hit a h m ∧
      (h ∈ (dispatch a m t (j, seen) h).2 ↔ a.delivered h = true) ∧
      (dispatch a m t (j, seen) h).1.phase =
        if a.sinkOutcome h = .panics then .leaving (some .panic) else j.phase := by
  have hm' : ∀ l : List Call, ({ j with log := l } : Joe).handles h = .make := fun _ => hm
  simp only [dispatch, hs, he, if_false]
  rcases hsnd : a.send h with (_ | e) | _
  · rcases hfl : a.flush h with (_ | e) | _ <;>
      simp [sendFlush, hsnd, hfl, View.hit, Answers.sinkOutcome, Answers.sinkCalls,
        Answers.delivered, view, callsTo, Call.onSink, call, evict_of_make _ (hm' _), hs]
  · simp [sendFlush, hsnd, View.hit, Answers.sinkOutcome, Answers.sinkCalls,
      Answers.delivered, view, callsTo, Call.onSink, call, evict_of_make _ (hm' _), hs]
  · simp [sendFlush, hsnd, View.hit, Answers.sinkOutcome, Answers.sinkCalls,
      Answers.delivered, view, callsTo, Call.onSink, call, hs]

/-- The key `x`, not yet `seen` and still in the table: `sendFlush`, then the branch its
    outcome picks. -/
theorem dispatch_reach {seen : List Subscriber} {c : MessageWriter} (hs : x ∉ seen)
    (he : entry j.topics t x = some c) :
    dispatch a m t (j, seen) x =
      match a.sinkOutcome x with
      | .returns none => ((sendFlush a x c m j).1, x :: seen)
      | .returns (some err) => ((sendFlush a x c m j).1.sendErr x err (removeSubscriber x), seen)
      | .panics => ((sendFlush a x c m j).1.unwind .panic, seen) := by
  simp only [dispatch, hs, he, if_false]
  have hr : (sendFlush a x c m j).2 = a.sinkOutcome x := sendFlush_snd c
  generalize sendFlush a x c m j = p at hr ⊢
  obtain ⟨j', r⟩ := p
  subst hr
  rcases a.sinkOutcome x with (_ | err) | _ <;> rfl

/-- Over a table of open handles, a key of the inner range keeps it so, and the only way it
    leaves the loop is a sink's panic. -/
theorem dispatch_open (hto : TableOpen st.1) :
    TableOpen (dispatch a m t st x).1 ∧ PhaseAfter a st.1.phase (dispatch a m t st x).1.phase := by
  obtain ⟨j, seen⟩ := st
  by_cases hs : x ∈ seen
  · rw [dispatch_seen hs]; exact ⟨hto, .inl rfl⟩
  cases he : entry j.topics t x with
  | none => rw [dispatch_absent he]; exact ⟨hto, .inl rfl⟩
  | some c =>
    have hm : (sendFlush a x c m j).1.handles x = .make := by simpa using hto x t c he
    rw [dispatch_reach hs he]
    rcases ho : a.sinkOutcome x with (_ | err) | _
    · exact ⟨hto.of_eq (by simp) (by simp), .inl (by simp)⟩
    · refine ⟨fun y u c' hy => ?_, .inl (by simp [evict_of_make err hm])⟩
      simp only [evict_of_make err hm, entry_mapVal_delete, topics_sendFlush] at hy ⊢
      split at hy
      · cases hy
      · rename_i hyx
        simpa [Function.update_noteq hyx] using hto y u c' hy
    · exact ⟨hto.of_eq (by simp) (by simp), .inr ⟨by simp, x, ho⟩⟩

/-! ## 3. The inner range: `h` is met once, if it is a key -/

theorem rangeTopic_stopped (keys : List Subscriber) (hp : st.1.phase ≠ .running) :
    rangeTopic a m t keys st = st := by
  cases keys <;> simp [rangeTopic, hp]

theorem rangeTopic_other (a : Answers) (m : Message) (t : Topic) (st : Joe × List Subscriber)
    {keys : List Subscriber} (hk : h ∉ keys) :
    (rangeTopic a m t keys st).1.view h = st.1.view h ∧
      (h ∈ (rangeTopic a m t keys st).2 ↔ h ∈ st.2) := by
  induction keys generalizing st with
  | nil => simp [rangeTopic]
  | cons x keys ih =>
    simp only [List.mem_cons, not_or] at hk
    simp only [rangeTopic]
    split
    · rw [(ih _ hk.2).1, (ih _ hk.2).2, (dispatch_other a m t st (Ne.symm hk.1)).1,
        (dispatch_other a m t st (Ne.symm hk.1)).2]
      simp
    · simp

theorem rangeTopic_seen (a : Answers) (m : Message) (t : Topic) (keys : List Subscriber)
    (hs : h ∈ st.2) :
    (rangeTopic a m t keys st).1.view h = st.1.view h ∧ h ∈ (rangeTopic a m t keys st).2 := by
  induction keys generalizing st with
  | nil => exact ⟨rfl, hs⟩
  | cons x keys ih =>
    simp only [rangeTopic]
    split
    · by_cases hx : x = h
      · subst hx; rw [dispatch_seen hs]; exact ih hs
      · have hd : (dispatch a m t st x).1.view h = st.1.view h ∧
            (h ∈ (dispatch a m t st x).2 ↔ h ∈ st.2) := dispatch_other a m t st hx
        rw [(ih (hd.2.2 hs)).1, hd.1]
        exact ⟨rfl, (ih (hd.2.2 hs)).2⟩
    · exact ⟨rfl, hs⟩

theorem rangeTopic_open (a : Answers) (m : Message) (t : Topic) (keys : List Subscriber)
    (hto : TableOpen st.1) :
    TableOpen (rangeTopic a m t keys st).1 ∧
      PhaseAfter a st.1.phase (rangeTopic a m t keys st).1.phase := by
  induction keys generalizing st with
  | nil => exact ⟨hto, .inl rfl⟩
  | cons x keys ih =>
    simp only [rangeTopic]
    split
    · obtain ⟨hto', hp⟩ : TableOpen (dispatch a m t st x).1 ∧ _ := dispatch_open hto
      obtain ⟨hto'', hp'⟩ := ih hto'
      exact ⟨hto'', hp.trans hp'⟩
    · exact ⟨hto, .inl rfl⟩

/-- **The inner range meets `h` once.** With `h` a key (each key once), not yet `seen`, in the
    table with an open, empty channel, and the loop running: either another key's sink panics
    first and `h` is untouched, or `h` is hit, and the case goes on unless its own sink panicked. -/
theorem rangeTopic_hit (a : Answers) (m : Message) {keys : List Subscriber} {c : MessageWriter} (hk : h ∈ keys)
    (hnd : keys.Nodup) (hs : h ∉ st.2) (he : entry st.1.topics t h = some c)
    (hm : st.1.handles h = .make) (hr : st.1.phase = .running) :
    ((rangeTopic a m t keys st).1.view h = st.1.view h ∧ h ∉ (rangeTopic a m t keys st).2 ∧
        (rangeTopic a m t keys st).1.phase ≠ .running) ∨
      ((rangeTopic a m t keys st).1.view h = (st.1.view h).hit a h m ∧
        (h ∈ (rangeTopic a m t keys st).2 ↔ a.delivered h = true) ∧
        (a.sinkOutcome h = .panics → (rangeTopic a m t keys st).1.phase ≠ .running)) := by
  induction keys generalizing st with
  | nil => cases hk
  | cons x keys ih =>
    obtain ⟨hxk, hnd⟩ := List.nodup_cons.1 hnd
    simp only [rangeTopic, hr, if_true]
    by_cases hx : x = h
    · subst hx
      obtain ⟨j, seen⟩ := st
      obtain ⟨hv, hsn, hp⟩ := dispatch_hit a m hs he hm
      obtain ⟨ov, os⟩ := rangeTopic_other a m t (dispatch a m t (j, seen) x) hxk
      refine .inr ⟨ov.trans hv, os.trans hsn, fun hpan => ?_⟩
      rw [rangeTopic_stopped _ (by simp [hp, hpan])]
      simp [hp, hpan]
    · have hk' : h ∈ keys := (List.mem_cons.1 hk).resolve_left (Ne.symm hx)
      obtain ⟨hv, hsn⟩ := dispatch_other a m t st hx
      by_cases hp : (dispatch a m t st x).1.phase = .running
      · rw [← hv]
        exact @ih (dispatch a m t st x) hk' hnd (by rwa [hsn]) (by rw [← he]; exact congrFun (congrArg View.entry hv) t)
          (by rw [← hm]; exact congrArg View.handle hv) hp
      · rw [rangeTopic_stopped _ hp]
        exact .inl ⟨hv, by rwa [hsn], hp⟩

/-! ## 4. The outer range: over the message's topics -/

/-- `h` was hit by the publish of `m`, from the view `v0`: the view `View.hit`, `seen` exactly when
    its sink took the message, and the case stopped if its sink panicked. -/
def Hit (a : Answers) (h : Subscriber) (m : Message) (v0 : View) (st : Joe × List Subscriber) :
    Prop :=
  st.1.view h = v0.hit a h m ∧ (h ∈ st.2 ↔ a.delivered h = true) ∧
    (a.sinkOutcome h = .panics → st.1.phase ≠ .running)

section Outer

variable (hord : ∀ i l, (a.order i l).Perm l)
include hord

theorem mem_order {i : Nat} {tbl : Topics} :
    h ∈ a.order i (subsKeys tbl t) ↔ (entry tbl t h).isSome :=
  (hord i _).mem_iff.trans mem_subsKeys

theorem order_nodup (i : Nat) (tbl : Topics) : (a.order i (subsKeys tbl t)).Nodup :=
  (hord i _).nodup_iff.2 (subsKeys_nodup tbl t)

omit hord in
theorem rangeTopics_stopped (i : Nat) (ts : List Topic) (hp : st.1.phase ≠ .running) :
    rangeTopics a m i ts st = st := by
  induction ts generalizing i with
  | nil => rfl
  | cons t ts ih => simp only [rangeTopics, rangeTopic_stopped _ hp, ih]

omit hord in
theorem rangeTopics_open (a : Answers) (m : Message) (i : Nat) (ts : List Topic)
    (st : Joe × List Subscriber) (hto : TableOpen st.1) :
    TableOpen (rangeTopics a m i ts st).1 ∧
      PhaseAfter a st.1.phase (rangeTopics a m i ts st).1.phase := by
  induction ts generalizing i st with
  | nil => exact ⟨hto, .inl rfl⟩
  | cons t ts ih =>
    obtain ⟨hto', hp⟩ := rangeTopic_open a m t (a.order i (subsKeys st.1.topics t)) hto
    obtain ⟨hto'', hp'⟩ := ih (i + 1) _ hto'
    exact ⟨hto'', hp.trans hp'⟩

/-- A handle under none of the message's topics is not met. -/
theorem rangeTopics_other (i : Nat) (ts : List Topic)
    (hn : ∀ t ∈ ts, entry st.1.topics t h = none) :
    (rangeTopics a m i ts st).1.view h = st.1.view h ∧
      (h ∈ (rangeTopics a m i ts st).2 ↔ h ∈ st.2) := by
  induction ts generalizing i st with
  | nil => exact ⟨rfl, Iff.rfl⟩
  | cons t ts ih =>
    have hk : h ∉ a.order i (subsKeys st.1.topics t) := by
      rw [mem_order hord, hn t (List.mem_cons_self _ _)]; simp
    obtain ⟨hv, hs⟩ := rangeTopic_other a m t st hk
    obtain ⟨hv', hs'⟩ := @ih (rangeTopic a m t (a.order i (subsKeys st.1.topics t)) st) (i + 1)
      fun t' ht' => (congrFun (congrArg View.entry hv) t').trans (hn t' (List.mem_cons_of_mem _ ht'))
    exact ⟨hv'.trans hv, hs'.trans hs⟩

/-- Once hit, `h` stays as the hit left it, whatever the remaining topics. -/
theorem rangeTopics_hitStable {v0 : View} (i : Nat) (ts : List Topic) (hh : Hit a h m v0 st) :
    Hit a h m v0 (rangeTopics a m i ts st) := by
  induction ts generalizing i st with
  | nil => exact hh
  | cons t ts ih =>
    apply ih
    obtain ⟨hv, hs, hp⟩ := hh
    rcases ho : a.sinkOutcome h with (_ | e) | _
    · have hsn : h ∈ st.2 := hs.2 ((Answers.delivered_iff a h).2 ho)
      obtain ⟨hv', hs'⟩ := rangeTopic_seen a m t (a.order i (subsKeys st.1.topics t)) hsn
      exact ⟨hv'.trans hv, by simp [hs', (Answers.delivered_iff a h).2 ho], by simp [ho]⟩
    · have hk : h ∉ a.order i (subsKeys st.1.topics t) := by
        rw [mem_order hord, show entry st.1.topics t h = none from
          (congrFun (congrArg View.entry hv) t).trans (by simp [View.hit, ho])]
        simp
      obtain ⟨hv', hs'⟩ := rangeTopic_other a m t st hk
      exact ⟨hv'.trans hv, hs'.trans hs, by simp [ho]⟩
    · rw [rangeTopic_stopped _ (hp ho)]
      exact ⟨hv, hs, hp⟩

/-- **The outer range meets `h` once.** Under some topic of the message, not yet `seen`, the
    table open and the loop running: `h` is hit, or a panic at another sink came first. -/
theorem rangeTopics_hit (i : Nat) (ts : List Topic) (hto : TableOpen st.1) (hs : h ∉ st.2)
    (hr : st.1.phase = .running) (hreg : ∃ t ∈ ts, (entry st.1.topics t h).isSome) :
    Hit a h m (st.1.view h) (rangeTopics a m i ts st) ∨
      ((rangeTopics a m i ts st).1.view h = st.1.view h ∧
        (rangeTopics a m i ts st).1.phase ≠ .running) := by
  induction ts generalizing i st with
  | nil => simp at hreg
  | cons t ts ih =>
    simp only [rangeTopics]
    cases he : entry st.1.topics t h with
    | some c =>
      have hk : h ∈ a.order i (subsKeys st.1.topics t) := by rw [mem_order hord, he]; rfl
      rcases rangeTopic_hit a m hk (order_nodup hord i _) hs he (hto h t c he) hr with
        ⟨hv, -, hp⟩ | hh
      · rw [rangeTopics_stopped _ _ hp]; exact .inr ⟨hv, hp⟩
      · exact .inl (rangeTopics_hitStable hord _ _ hh)
    | none =>
      have hk : h ∉ a.order i (subsKeys st.1.topics t) := by rw [mem_order hord, he]; simp
      obtain ⟨hv, hsn⟩ := rangeTopic_other a m t st hk
      have hto' := (rangeTopic_open a m t (a.order i (subsKeys st.1.topics t)) hto).1
      by_cases hr' : (rangeTopic a m t (a.order i (subsKeys st.1.topics t)) st).1.phase = .running
      · obtain ⟨t', ht', hsome⟩ := hreg
        have ht'' : t' ∈ ts := (List.mem_cons.1 ht').resolve_left (by rintro rfl; simp [he] at hsome)
        rw [← hv]
        exact ih (i + 1) hto' (by rwa [hsn]) hr'
          ⟨t', ht'', by rwa [show entry _ t' h = entry st.1.topics t' h from
            congrFun (congrArg View.entry hv) t']⟩
      · rw [rangeTopics_stopped _ _ hr']; exact .inr ⟨hv, hr'⟩

end Outer

/-! ## 5. The publish case -/

theorem publish_of_returns {m' : Message} (ts : List Topic) (hp : a.put = .returns m') :
    publish a m ts j = (rangeTopics a m' 0 ts (j.call (.put m ts), [])).1 := by
  simp [publish, hp]

theorem publish_of_panics (ts : List Topic) (hp : a.put = .panics) :
    publish a m ts j = (j.call (.put m ts)).unwind .panic := by
  simp [publish, hp]

theorem view_call_put (ts : List Topic) : (j.call (.put m ts)).view h = j.view h :=
  view_call_other _ rfl

/-- Over a table of open handles, the publish case keeps it so, and it leaves the loop only by a
    panic of `Put` or of a sink. -/
theorem publish_open (ts : List Topic) (hto : TableOpen j) (hr : j.phase = .running) :
    TableOpen (publish a m ts j) ∧
      ((publish a m ts j).phase = .running ∨ ((publish a m ts j).phase = .leaving (some .panic) ∧
        (a.put = .panics ∨ ∃ y, a.sinkOutcome y = .panics))) := by
  rcases hp : a.put with m' | _
  · rw [publish_of_returns ts hp]
    obtain ⟨hto', hph⟩ := rangeTopics_open a m' 0 ts (j.call (.put m ts), []) (hto.of_eq rfl rfl)
    refine ⟨hto', ?_⟩
    rcases hph with hph | ⟨hph, hy⟩
    · exact .inl (hph.trans hr)
    · exact .inr ⟨hph, .inr hy⟩
  · rw [publish_of_panics ts hp]
    exact ⟨hto.of_eq rfl rfl, .inr ⟨rfl, .inl rfl⟩⟩

/-! ## 6. The subscribe and unsubscription cases -/

theorem entry_register (tbl : Topics) (t t' : Topic) (x h : Subscriber) (c : MessageWriter) :
    entry (register tbl t x c) t' h = if t' = t ∧ h = x then some c else entry tbl t' h := by
  unfold register entry
  by_cases ht : t' = t
  · subst ht
    by_cases hh : h = x
    · simp [hh]
    · cases tbl.get t' <;> simp [hh, GoMap.get_empty]
  · simp [ht]

/-- `for _, topic := range sub.Topics { j.topic(topic)[sub.done] = sub.Client }`. -/
theorem entry_registerAll (T : List Topic) (tbl : Topics) (t : Topic) (x h : Subscriber)
    (c : MessageWriter) :
    entry (T.foldl (fun tbl t => register tbl t x c) tbl) t h =
      if h = x ∧ t ∈ T then some c else entry tbl t h := by
  induction T generalizing tbl with
  | nil => simp
  | cons t' T ih =>
    simp only [List.foldl, ih, entry_register, List.mem_cons]
    by_cases hh : h = x <;> by_cases ht : t = t' <;> simp [hh, ht]

variable {s : Subscription}

theorem subscribe_of_nil (hr : a.replay = .returns none) :
    subscribe a x s j =
      { j.call (.replay x) with
        topics := s.Topics.foldl (fun tbl t => register tbl t x s.Client) j.topics } := by
  simp [subscribe, hr]

theorem subscribe_of_err {err : Error} (hr : a.replay = .returns (some err))
    (hm : j.handles x = .make) :
    subscribe a x s j =
      { j.call (.replay x) with handles := Function.update j.handles x ⟨true, some err⟩ } := by
  simp [subscribe, hr, sendErr, close, hm, Function.update_idem]

theorem subscribe_of_panics (hr : a.replay = .panics) :
    subscribe a x s j = (j.call (.replay x)).unwind .panic := by
  simp [subscribe, hr]

theorem removeSubscriber_of_open {b : Option Error} (hb : j.handles x = ⟨false, b⟩) :
    j.removeSubscriber x =
      { j with topics := j.topics.mapVal (·.delete x),
               handles := Function.update j.handles x ⟨true, b⟩ } := by
  simp [removeSubscriber, close, hb]

theorem removeSubscriber_of_closed (hc : (j.handles x).closed = true) :
    j.removeSubscriber x = ({ j with topics := j.topics.mapVal (·.delete x) } : Joe).unwind
      .closeOfClosed := by
  simp [removeSubscriber, close, Chan.close, hc]

/-- The subscribe case of another handle leaves `h`'s view as it was. -/
theorem subscribe_view_other (hx : x ≠ h) : (subscribe a x s j).view h = j.view h := by
  have hc : (j.call (.replay x)).view h = j.view h := view_call_other _ rfl
  unfold subscribe
  split
  · rw [← hc]
    simp [view, entry_registerAll, Ne.symm hx]
  · rw [sendErr_view_other hx _ fun _ => close_view_other hx, hc]
  · rw [view_unwind, hc]

/-- The subscribe case of `x` whose `Replay` returned nil, from `x`: an entry under each of the
    request's topics. -/
theorem subscribe_view_nil (hr : a.replay = .returns none) :
    (subscribe a x s j).view x = { j.view x with
      entry := fun t => if t ∈ s.Topics then some s.Client else entry j.topics t x } := by
  rw [subscribe_of_nil hr]
  simp [view, entry_registerAll, call, callsTo, Call.onSink, and_comm]

/-- The subscribe case of `x` whose `Replay` returned `err`, from `x`: the error on its closed
    channel. -/
theorem subscribe_view_err {err : Error} (hr : a.replay = .returns (some err))
    (hm : j.handles x = .make) :
    (subscribe a x s j).view x = { j.view x with handle := ⟨true, some err⟩ } := by
  rw [subscribe_of_err hr hm]
  simp [view, call, callsTo, Call.onSink]

theorem subscribe_view_panics (hr : a.replay = .panics) : (subscribe a x s j).view x = j.view x := by
  rw [subscribe_of_panics hr, view_unwind]
  exact view_call_other _ rfl

/-- The subscribe case ends at the `select` or unwinding, when the handle is unused. -/
theorem subscribe_phase (hm : j.handles x = .make) :
    (subscribe a x s j).phase = j.phase ∨ (subscribe a x s j).phase = .leaving (some .panic) := by
  rcases hr : a.replay with (_ | err) | _
  · simp [subscribe_of_nil hr]
  · simp [subscribe_of_err hr hm]
  · simp [subscribe_of_panics hr]

/-- The unsubscription case ends at the `select`, or unwinding from the close of a closed
    channel. -/
theorem removeSubscriber_phase :
    (j.removeSubscriber x).phase = j.phase ∨
      (j.removeSubscriber x).phase = .leaving (some .closeOfClosed) := by
  cases hc : (j.handles x).closed
  · rw [removeSubscriber_of_open (show j.handles x = ⟨false, (j.handles x).buf⟩ by
      rw [← hc])]
    exact .inl rfl
  · rw [removeSubscriber_of_closed hc]
    exact .inr rfl

/-- The unsubscription of `x`, from `x`: every entry gone, the channel closed (by this case, or
    before it, and then the case panics), no call made. -/
theorem removeSubscriber_view_self :
    ((j.removeSubscriber x).view x).entry = (fun _ => none) ∧
      ((j.removeSubscriber x).view x).handle.closed = true ∧
      ((j.removeSubscriber x).view x).calls = (j.view x).calls := by
  cases hc : (j.handles x).closed
  · rw [removeSubscriber_of_open (show j.handles x = ⟨false, (j.handles x).buf⟩ by
      rw [← hc])]
    simp [view]
  · rw [removeSubscriber_of_closed hc]
    simp [view, hc]

/-- The cases of a tick, of `gcFn`'s return and of `j.done` touch no handle. -/
theorem gcSignal_view (gcFn : Bool) : (gcSignal gcFn j).view h = j.view h := by
  unfold gcSignal
  split
  · simp [view, call, callsTo, Call.onSink]
  · rfl

theorem collected_view : (collected a j).view h = j.view h := by
  unfold collected
  split <;> rfl

/-! ## 7. What the publish, subscribe and unsubscription cases leave alone -/

/-- The part of the state only the ticker, `Shutdown` and the `gcSignal` case write: `j.done`,
    the ticker, and how many times `GC` was called. -/
def frame (j : Joe) : Bool × Bool × Bool × Nat := (j.done, j.gcOn, j.gcTick, j.log.count .gc)

theorem frame_call (c : Call) (hc : c ≠ .gc) : (j.call c).frame = j.frame := by
  simp [frame, call, List.count_singleton', hc]

@[simp] theorem frame_unwind (f : Fault) : (j.unwind f).frame = j.frame := rfl

theorem frame_close : (j.close x).frame = j.frame := by
  unfold close; split <;> rfl

theorem frame_removeSubscriber : (j.removeSubscriber x).frame = j.frame := frame_close

theorem frame_sendErr (err : Error) {k : Joe → Joe} (hk : ∀ j' : Joe, (k j').frame = j'.frame) :
    (j.sendErr x err k).frame = j.frame := by
  unfold sendErr; split
  · exact hk _
  · rfl
  · rfl

theorem frame_sendFlush (c : MessageWriter) : (sendFlush a x c m j).1.frame = j.frame := by
  unfold sendFlush
  split <;> simp [frame_call]

theorem frame_dispatch (a : Answers) (m : Message) (t : Topic) (st : Joe × List Subscriber)
    (x : Subscriber) : (dispatch a m t st x).1.frame = st.1.frame := by
  obtain ⟨j, seen⟩ := st
  simp only [dispatch]
  split
  · rfl
  · split
    · rfl
    · rename_i c _
      have hf : (sendFlush a x c m j).1.frame = j.frame := frame_sendFlush c
      split <;> simp_all [frame_sendErr _ fun _ => frame_removeSubscriber]

theorem frame_rangeTopic (keys : List Subscriber) :
    (rangeTopic a m t keys st).1.frame = st.1.frame := by
  induction keys generalizing st with
  | nil => rfl
  | cons x keys ih =>
    simp only [rangeTopic]
    split
    · rw [ih, frame_dispatch]
    · rfl

theorem frame_rangeTopics (i : Nat) (ts : List Topic) :
    (rangeTopics a m i ts st).1.frame = st.1.frame := by
  induction ts generalizing i st with
  | nil => rfl
  | cons t ts ih => simp only [rangeTopics, ih, frame_rangeTopic]

theorem frame_publish (ts : List Topic) : (publish a m ts j).frame = j.frame := by
  unfold publish
  split
  · rw [frame_rangeTopics]; simp [frame_call]
  · simp [frame_call]

theorem frame_subscribe : (subscribe a x s j).frame = j.frame := by
  unfold subscribe
  split
  · simp [frame, call, List.count_singleton']
  · rw [frame_sendErr _ fun _ => frame_close]; simp [frame_call]
  · simp [frame_call]

/-! ## 8. The deferred calls -/

/-- `closeSubscribers`' loop over open handles closes each key once, the `seen` ones apart, and
    never panics. -/
theorem closeEach_open (keys seen : List Subscriber) (hs : Subscriber → Chan Error)
    (hopen : ∀ y ∈ keys, y ∉ seen → (hs y).closed = false) :
    closeEach keys seen hs =
      (fun y => if y ∈ keys ∧ y ∉ seen then { hs y with closed := true } else hs y, true) := by
  induction keys generalizing seen hs with
  | nil => simp [closeEach]
  | cons y keys ih =>
    by_cases hy : y ∈ seen
    · rw [closeEach, if_pos hy, ih seen hs fun z hz => hopen z (List.mem_cons_of_mem _ hz)]
      congr 2; funext z
      by_cases hz : z = y <;> simp [hz, hy]
    · have hc : (hs y).closed = false := hopen y (List.mem_cons_self _ _) hy
      rw [closeEach, if_neg hy, show (hs y).close = .done { hs y with closed := true } by
        simp [Chan.close, hc]]
      dsimp only
      rw [ih]
      · congr 2; funext z
        by_cases hz : z = y
        · subst hz; simp [hy]
        · simp [hz]
      · intro z hz hzs
        rw [Function.update_noteq (by rintro rfl; simp at hzs)]
        exact hopen z (List.mem_cons_of_mem _ hz) fun h' => hzs (List.mem_cons_of_mem _ h')

theorem mem_closeKeys (hco : ∀ i l, (a.closeOrder i l).Perm l) (tbl : Topics) (i : Nat)
    (ts : List Topic) : x ∈ closeKeys a tbl i ts ↔ ∃ t ∈ ts, (entry tbl t x).isSome := by
  induction ts generalizing i with
  | nil => simp [closeKeys]
  | cons t ts ih =>
    simp [closeKeys, ih, (hco i _).mem_iff, mem_subsKeys]

/-- The handles `closeSubscribers` meets are exactly the handles in the table. -/
theorem mem_closeKeys_table (hv : (∀ i l, (a.closeOrder i l).Perm l) ∧ ∀ l, (a.topicOrder l).Perm l)
    (tbl : Topics) :
    x ∈ closeKeys a tbl 0 (a.topicOrder tbl.keys) ↔ ∃ t, (entry tbl t x).isSome := by
  rw [mem_closeKeys hv.1]
  refine ⟨fun ⟨t, _, ht⟩ => ⟨t, ht⟩, fun ⟨t, ht⟩ => ⟨t, ?_, ht⟩⟩
  rw [(hv.2 _).mem_iff, tbl.mem_keys]
  unfold entry at ht
  cases h' : tbl.get t <;> simp_all

/-- **The deferred calls over an open table**: every handle in the table is closed, once; no
    other handle is touched; `j.closed` is closed. -/
theorem deferred_of_open (hv : (∀ i l, (a.closeOrder i l).Perm l) ∧ ∀ l, (a.topicOrder l).Perm l)
    (hto : TableOpen j) (f : Option Fault) :
    (deferred a f j).phase = .exited f ∧ (deferred a f j).topics = j.topics ∧
      (deferred a f j).log = j.log ∧
      (∀ y, (∃ t, (entry j.topics t y).isSome) →
        (deferred a f j).handles y = { j.handles y with closed := true }) ∧
      ∀ y, (¬∃ t, (entry j.topics t y).isSome) → (deferred a f j).handles y = j.handles y := by
  have hopen : ∀ y ∈ closeKeys a j.topics 0 (a.topicOrder j.topics.keys), y ∉ ([] : List Subscriber) →
      (j.handles y).closed = false := fun y hy _ => by
    obtain ⟨t, ht⟩ := (mem_closeKeys_table hv j.topics).1 hy
    obtain ⟨c, hc⟩ := Option.isSome_iff_exists.1 ht
    simp [hto y t c hc]
  simp only [deferred, closeSubscribers, closeEach_open _ _ _ hopen, if_true, true_and,
    List.not_mem_nil, not_false_eq_true, and_true]
  exact ⟨fun y hy => by simp [(mem_closeKeys_table hv j.topics).2 hy],
    fun y hy => by simp [mt (mem_closeKeys_table hv j.topics).1 hy]⟩

/-! ## 9. The publish case from one handle -/

section Publish

variable {m' : Message} {ts : List Topic} (hord : ∀ i l, (a.order i l).Perm l)
include hord

/-- A handle under none of the message's topics is untouched by the publish case. -/
theorem publish_view_other (hp : a.put = .returns m') (hn : ∀ t ∈ ts, entry j.topics t h = none) :
    (publish a m ts j).view h = j.view h := by
  rw [publish_of_returns ts hp, (rangeTopics_other hord 0 ts hn).1, view_call_put]

/-- **The publish case from one handle under some topic of the message**: it is hit, or a panic
    at another sink came first and it is untouched. -/
theorem publish_view_hit (hp : a.put = .returns m') (hto : TableOpen j) (hr : j.phase = .running)
    (hreg : ∃ t ∈ ts, (entry j.topics t h).isSome) :
    ((publish a m ts j).view h = (j.view h).hit a h m' ∧
        (a.sinkOutcome h = .panics → (publish a m ts j).phase ≠ .running)) ∨
      ((publish a m ts j).view h = j.view h ∧ (publish a m ts j).phase ≠ .running) := by
  have hv0 : (j.call (.put m ts)).view h = j.view h := view_call_put ts
  rw [publish_of_returns ts hp, ← hv0]
  rcases rangeTopics_hit hord 0 ts (hto.of_eq rfl rfl) (List.not_mem_nil h)
    (show (j.call (.put m ts), ([] : List Subscriber)).1.phase = .running from hr) hreg with
    ⟨hv, -, hph⟩ | hh
  · exact .inl ⟨hv, hph⟩
  · exact .inr hh

end Publish

end Joe

end GoSse
