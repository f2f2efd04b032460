import Mathlib.Logic.Function.Basic
import Mathlib.Data.List.Basic

/-!
# The Go runtime objects `joe.go` is built from

`Joe` keeps its state in Go maps and channels and calls into code it does not own. This file
models those three things as the Go specification describes them, and nothing of `Joe` yet:

* `GoMap K V` -- a `map[K]V`: what each key maps to, and the keys present, each once. A `range`
  over a map visits the keys in an order the runtime picks; the model never fixes that order
  (the engine takes every order from its answers), so the order of `keys` means nothing;
* `Chan α` -- a `chan α` of capacity one, the subscriber handle `make(chan error, 1)`: closed or
  not, and the value waiting in its buffer. `Chan.recv?` is a receive as a `select` sees it,
  `Chan.send` and `Chan.close` say what the runtime does to the channel: complete, make the
  sender wait, or panic;
* `Outcome α` -- what a call into code `Joe` does not own does: it returns, or it panics.
-/

namespace GoSse

/-! ## 1. Maps -/

/-- A Go map `map[K]V`: `get k` is `m[k]` with its `ok`, `keys` the keys present, each once. -/
structure GoMap (K V : Type) where
  get : K → Option V
  keys : List K
  nodup : keys.Nodup
  mem_keys : ∀ k, k ∈ keys ↔ (get k).isSome

namespace GoMap

variable {K V W : Type}

/-- `map[K]V{}`; a nil map reads the same. -/
def empty : GoMap K V where
  get _ := none
  keys := []
  nodup := List.nodup_nil
  mem_keys _ := by simp

instance : EmptyCollection (GoMap K V) := ⟨empty⟩

/-- Every value of `m` changed in place by `f`: a `range` over a map of maps that writes into
    each inner map, which Go holds by reference. The order of the range does not matter, each
    inner map being written alone. -/
def mapVal (f : V → W) (m : GoMap K V) : GoMap K W where
  get k := (m.get k).map f
  keys := m.keys
  nodup := m.nodup
  mem_keys k := by rw [m.mem_keys]; simp

@[simp] theorem get_empty (k : K) : (∅ : GoMap K V).get k = none := rfl

@[simp] theorem keys_empty : (∅ : GoMap K V).keys = [] := rfl

@[simp] theorem get_mapVal (f : V → W) (m : GoMap K V) (k : K) :
    (m.mapVal f).get k = (m.get k).map f := rfl

@[simp] theorem keys_mapVal (f : V → W) (m : GoMap K V) : (m.mapVal f).keys = m.keys := rfl

variable [DecidableEq K]

/-- `m[k] = v`. -/
def set (m : GoMap K V) (k : K) (v : V) : GoMap K V where
  get k' := if k' = k then some v else m.get k'
  keys := if k ∈ m.keys then m.keys else k :: m.keys
  nodup := by
    split
    · exact m.nodup
    · exact List.nodup_cons.2 ⟨‹_›, m.nodup⟩
  mem_keys k' := by
    have := m.mem_keys k'
    by_cases h : k' = k
    · subst h
      simp only [ite_true, Option.isSome_some, iff_true]
      split
      · assumption
      · exact List.mem_cons_self _ _
    · split <;> simp [h, this]

/-- `delete(m, k)`. -/
def delete (m : GoMap K V) (k : K) : GoMap K V where
  get k' := if k' = k then none else m.get k'
  keys := m.keys.erase k
  nodup := m.nodup.erase k
  mem_keys k' := by
    rw [m.nodup.mem_erase_iff, m.mem_keys]
    by_cases h : k' = k <;> simp [h]

@[simp] theorem get_set (m : GoMap K V) (k k' : K) (v : V) :
    (m.set k v).get k' = if k' = k then some v else m.get k' := rfl

@[simp] theorem get_delete (m : GoMap K V) (k k' : K) :
    (m.delete k).get k' = if k' = k then none else m.get k' := rfl

end GoMap

/-! ## 2. Channels -/

/-- A `chan α` of capacity one: closed or not, and the value waiting in its buffer. -/
structure Chan (α : Type) where
  closed : Bool
  buf : Option α
  deriving DecidableEq, Repr

/-- What a send or a close does: it completes, leaving the channel `ch`; the sender waits on a
    full buffer; or the runtime panics (a send on, or a close of, a closed channel). -/
inductive ChanOp (α : Type) where
  | done (ch : Chan α)
  | waits
  | panics
  deriving DecidableEq, Repr

namespace Chan

variable {α : Type}

/-- `make(chan α, 1)`. -/
def make : Chan α := ⟨false, none⟩

/-- `x := <-ch` as a `select` case: a waiting value first; once the channel is closed and
    drained, the zero value `none` (a nil `error`); an open, empty channel is not ready. -/
def recv? (ch : Chan α) : Option (Option α × Chan α) :=
  match ch.buf with
  | some x => some (some x, { ch with buf := none })
  | none => if ch.closed then some (none, ch) else none

/-- `ch <- x`. -/
def send (ch : Chan α) (x : α) : ChanOp α :=
  if ch.closed then .panics
  else match ch.buf with
    | some _ => .waits
    | none => .done { ch with buf := some x }

/-- `close(ch)`. -/
def close (ch : Chan α) : ChanOp α :=
  if ch.closed then .panics else .done { ch with closed := true }

@[simp] theorem make_closed : (make : Chan α).closed = false := rfl

@[simp] theorem make_buf : (make : Chan α).buf = none := rfl

@[simp] theorem send_make (x : α) : (make : Chan α).send x = .done ⟨false, some x⟩ := rfl

@[simp] theorem close_open (b : Option α) : (⟨false, b⟩ : Chan α).close = .done ⟨true, b⟩ := rfl

@[simp] theorem close_closed (b : Option α) : (⟨true, b⟩ : Chan α).close = .panics := rfl

@[simp] theorem recv?_make : (make : Chan α).recv? = none := rfl

/-- A receive never opens a channel: it only takes the waiting value. -/
theorem recv?_closed {ch ch' : Chan α} {r : Option α} (h : ch.recv? = some (r, ch')) :
    ch'.closed = ch.closed := by
  unfold recv? at h
  split at h
  · cases h; rfl
  · split at h
    · cases h; rfl
    · cases h

/-- A receive leaves the buffer empty. -/
theorem recv?_buf {ch ch' : Chan α} {r : Option α} (h : ch.recv? = some (r, ch')) :
    ch'.buf = none := by
  unfold recv? at h
  split at h
  · cases h; rfl
  · split at h
    · cases h; assumption
    · cases h

/-- A receive that gets a value takes it from the buffer. -/
theorem recv?_some {ch ch' : Chan α} {x : α} (h : ch.recv? = some (some x, ch')) :
    ch.buf = some x := by
  unfold recv? at h
  split at h
  · cases h; assumption
  · split at h <;> cases h

/-- A receive that gets the zero value is from a closed, drained channel. -/
theorem recv?_none {ch ch' : Chan α} (h : ch.recv? = some (none, ch')) :
    ch.closed = true ∧ ch.buf = none := by
  unfold recv? at h
  split at h
  · cases h
  · rename_i hb
    split at h
    · exact ⟨‹_›, hb⟩
    · cases h

/-- A closed channel can always be received from. -/
theorem recv?_isSome_of_closed {ch : Chan α} (h : ch.closed = true) : ch.recv?.isSome := by
  unfold recv?
  split
  · rfl
  · simp [h]

/-- A close keeps the buffer. -/
theorem close_buf {ch ch' : Chan α} (h : ch.close = .done ch') : ch'.buf = ch.buf := by
  unfold close at h
  split at h
  · cases h
  · cases h; rfl

end Chan

/-! ## 3. Calls into code `Joe` does not own -/

/-- What a call of a replay provider's or a sink's method does: it returns `a`, or it panics. -/
inductive Outcome (α : Type) where
  | returns (a : α)
  | panics
  deriving DecidableEq, Repr

end GoSse
