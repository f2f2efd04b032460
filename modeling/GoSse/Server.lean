import GoSse.Calls

/-!
# The `Server`: the topics it adds, and the topics it logs

`Server` wraps a `Provider` -- a `Joe{}` when none is set -- and adds a topic where a call
brings none. Its own logic is three functions:

* `getTopics` -- a `Publish` with no topic goes to `DefaultTopic`; so the `Joe.Publish` call a
  `Server.Publish` makes never returns `ErrNoTopic` (`server_publish_has_topic`);
* `Server.getSubscription` -- without `OnSession`, a session subscribes to `DefaultTopic`; with
  `OnSession`, to the topics it returns, as they are: none if it returns none, although the
  `Subscription.Topics` doc comment says the `Server` adds the default topic then;
* `getTopicsLog` -- the topics of a session as logged. Its loop keeps a `seen` set and writes a
  comma before every topic but the one at index 0; `getTopicsLog_eq` says what it writes: each
  distinct topic once, where it first appears, joined by commas, the default topic as
  `<sse:default>`.

A `*Session` is modelled by the sink it is, the `MessageWriter` the engine sends to; its
`LastEventID`, which `getSubscription` copies and the engine never reads, is left out with
`Subscription.LastEventID`.
-/

namespace GoSse

/-! ## 1. The functions -/

/-- `DefaultTopic`. -/
def DefaultTopic : Topic := ""

/-- `defaultTopicSlice`. -/
def defaultTopicSlice : List Topic := [DefaultTopic]

/-- `getTopics`. -/
def getTopics (initial : List Topic) : List Topic :=
  if initial.length = 0 then defaultTopicSlice else initial

/-- A `*Session`, by the sink it is. -/
abbrev Session := MessageWriter

/-- `Server.getSubscription`; `OnSession` is `none` when the field is nil. -/
def Server.getSubscription (OnSession : Option (Session → Subscription × Bool)) (sess : Session) :
    Subscription × Bool :=
  match OnSession with
  | some f => f sess
  | none => (⟨sess, defaultTopicSlice⟩, true)

/-- The call `Server.Publish(e, topics...)` makes of its provider. -/
def Server.publishCall (e : Message) (topics : List Topic) : Method := .Publish e (getTopics topics)

/-- The loop of `getTopicsLog`, from the topic at index `i`, with its `seen` and `ret`. -/
def getTopicsLog.loop : Nat → List Topic → GoMap Topic Unit → String → String
  | _, [], _, ret => ret
  | i, t :: ts, seen, ret =>
    match seen.get t with
    | some _ => loop (i + 1) ts seen ret
    | none =>
      let ret := if i > 0 then ret ++ "," else ret
      let ret := if t = DefaultTopic then ret ++ "<sse:default>" else ret ++ t
      loop (i + 1) ts (seen.set t ()) ret

/-- `getTopicsLog`. -/
def getTopicsLog (topics : List Topic) : String := getTopicsLog.loop 0 topics ∅ ""

/-! ## 2. What `Server.Publish` publishes -/

theorem getTopics_ne_nil (initial : List Topic) : getTopics initial ≠ [] := by
  unfold getTopics
  split
  · nofun
  · rename_i h
    exact fun he => h (by rw [he]; rfl)

/-- **`Server.Publish` never returns `ErrNoTopic`**: over every run, the `Joe.Publish` call it
    makes has a topic. -/
theorem server_publish_has_topic {cfg : Config} {w : World} (hr : Reachable cfg w) {i : Nat}
    {t : Thread} {e : Message} {topics : List Topic} {r : Option Error}
    (ht : w.threads i = some t) (hm : t.method = Server.publishCall e topics)
    (hpc : t.pc = .returned r) : r ≠ some .noTopic := by
  have h := (callInv_reachable hr).publish i t ht _ _ hm
  rw [hpc] at h
  rintro rfl
  exact getTopics_ne_nil topics h

/-! ## 3. What `getTopicsLog` writes -/

/-- The distinct topics of a list, each where it first appears. -/
def firstOccurrences : List Topic → List Topic
  | [] => []
  | t :: ts => t :: (firstOccurrences ts).filter fun x => x ≠ t

/-- How `getTopicsLog` writes a topic. -/
def topicLabel (t : Topic) : String := if t = DefaultTopic then "<sse:default>" else t

theorem mem_firstOccurrences {x : Topic} : ∀ {ts : List Topic}, x ∈ firstOccurrences ts ↔ x ∈ ts
  | [] => Iff.rfl
  | t :: ts => by
    by_cases hx : x = t
    · simp [firstOccurrences, hx]
    · simp [firstOccurrences, hx, mem_firstOccurrences]

theorem nodup_firstOccurrences : ∀ ts : List Topic, (firstOccurrences ts).Nodup
  | [] => List.nodup_nil
  | t :: ts => List.nodup_cons.2 ⟨by simp, (nodup_firstOccurrences ts).filter _⟩

theorem firstOccurrences_sublist : ∀ ts : List Topic, (firstOccurrences ts).Sublist ts
  | [] => List.Sublist.slnil
  | t :: ts => ((List.filter_sublist _).trans (firstOccurrences_sublist ts)).cons₂ t

/-- The loop writes a new topic as `topicLabel` says. -/
theorem label_step (ret : String) (t : Topic) :
    (if t = DefaultTopic then ret ++ "<sse:default>" else ret ++ t) = ret ++ topicLabel t := by
  unfold topicLabel
  split <;> rfl

/-- From index `i > 0` on, the loop appends, after what it wrote, a comma and the label of each
    topic not seen before, at its first occurrence. -/
theorem getTopicsLog.loop_eq {i : Nat} (hi : 0 < i) (ts : List Topic) (seen : GoMap Topic Unit)
    (ret : String) : getTopicsLog.loop i ts seen ret = String.intercalate.go ret ","
      (((firstOccurrences ts).filter fun x => (seen.get x).isNone).map topicLabel) := by
  induction ts generalizing i seen ret with
  | nil => rfl
  | cons t ts ih =>
    rw [firstOccurrences]
    cases hs : seen.get t with
    | some u =>
      -- a topic seen before is skipped: it is not among the topics still to write
      have hskip : (firstOccurrences ts).filter (fun x => (seen.get x).isNone && decide (x ≠ t)) =
          (firstOccurrences ts).filter fun x => (seen.get x).isNone :=
        List.filter_congr fun x _ => by by_cases hx : x = t <;> simp [hx, hs]
      rw [List.filter_cons_of_neg (by simp [hs]), List.filter_filter, hskip]
      simp only [loop, hs]
      exact ih (Nat.succ_pos i) seen ret
    | none =>
      -- a new topic is written, and seen
      have hnew : (firstOccurrences ts).filter (fun x => (seen.get x).isNone && decide (x ≠ t)) =
          (firstOccurrences ts).filter fun x => ((seen.set t ()).get x).isNone :=
        List.filter_congr fun x _ => by by_cases hx : x = t <;> simp [hx]
      rw [List.filter_cons_of_pos (by simp [hs]), List.filter_filter, hnew]
      simp only [loop, hs, if_pos hi, label_step, List.map_cons]
      exact ih (Nat.succ_pos i) _ _

/-- **What `getTopicsLog` writes**: each distinct topic once, where it first appears, joined by
    commas, the default topic as `<sse:default>`. -/
theorem getTopicsLog_eq (topics : List Topic) :
    getTopicsLog topics = ",".intercalate ((firstOccurrences topics).map topicLabel) := by
  cases topics with
  | nil => rfl
  | cons t ts =>
    have hfirst : (firstOccurrences ts).filter (fun x => decide (x ≠ t)) =
        (firstOccurrences ts).filter fun x => (((∅ : GoMap Topic Unit).set t ()).get x).isNone :=
      List.filter_congr fun x _ => by by_cases hx : x = t <;> simp [hx]
    simp only [getTopicsLog, getTopicsLog.loop, GoMap.get_empty, label_step, firstOccurrences,
      List.map_cons, hfirst]
    exact getTopicsLog.loop_eq Nat.one_pos _ _ _

-- a repeated topic is logged once, the default topic by its label
example : getTopicsLog ["a", "", "a", "b"] = "a,<sse:default>,b" := by decide

end GoSse
