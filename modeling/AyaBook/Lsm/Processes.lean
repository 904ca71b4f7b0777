import AyaBook.Lsm.TaskAlloc

/-!
# What `PROCESSES` records

The map is meant to hold the pids of the processes whose creation was let through. The hook
inserts before it looks at the verdict of the programs before, so a creation they have denied is
recorded too, unless there is no room for it.

* `records`: what holds in every run: an entry maps a pid to itself, and no creation that was let
  through is missing.
* `recordsAllowed_iff`: **when no other pid is recorded**: when every denied creation finds its
  pid already there or the map full.
-/

namespace AyaBook.Myapp

open AyaBook.Lib

/-- After the calls `ms`, every entry maps a pid to itself and every pid let through is there. -/
structure Records (ms : List (Move Processes TaskAlloc Int32)) (processes : Processes) : Prop where
  value_eq : ∀ k v, processes.get? k = some v → v = k
  size_le : processes.size ≤ 32768
  recorded : ∀ m ∈ ms, m.out = 0 → m.act.pid ∈ processes

/-- **The purpose of `PROCESSES`**: besides, every pid there was let through. -/
structure RecordsAllowed (ms : List (Move Processes TaskAlloc Int32)) (processes : Processes) :
    Prop extends Records ms processes where
  origin : ∀ k ∈ processes, ∃ m ∈ ms, m.act.pid = k ∧ m.out = 0

variable {ms : List (Move Processes TaskAlloc Int32)} {processes : Processes}

theorem Records.empty : Records [] .empty where
  value_eq k v h := by
    rw [BoundedMap.get?_empty] at h
    exact nomatch h
  size_le := Nat.zero_le _
  recorded m hm := absurd hm List.not_mem_nil

theorem RecordsAllowed.empty : RecordsAllowed [] .empty where
  toRecords := Records.empty
  origin k hk := absurd hk (BoundedMap.not_mem_empty k)

/-! ## One call -/

/-- The pids there after a call. -/
theorem mem_next {ctx : TaskAlloc} {k : Int32} :
    k ∈ machine.next processes ctx ↔ k ∈ processes ∨ (k = ctx.pid ∧ processes.Fits ctx.pid) := by
  rw [next_eq, BoundedMap.mem_put]

/-- **A call keeps the entries and adds the pid it lets through.** -/
theorem Records.next (h : Records ms processes) (ctx : TaskAlloc) :
    Records (ms ++ [machine.move processes ctx]) (machine.next processes ctx) where
  value_eq k v hv := by
    rw [next_eq, BoundedMap.get?_put] at hv
    split at hv
    · rename_i hk
      rw [hk.1, ← Option.some.inj hv]
    · exact h.value_eq k v hv
  size_le := (machine.next processes ctx).size_le
  recorded m hm hout := by
    rw [mem_next]
    rcases List.mem_append.mp hm with hm | hm
    · exact Or.inl (h.recorded m hm hout)
    · obtain rfl := List.mem_singleton.mp hm
      exact Or.inr ⟨rfl, (move_out_eq_zero.mp hout).1⟩

/-- **A call adds a pid that was not let through** exactly when it is for a denied creation with
a new pid and there is room. -/
theorem RecordsAllowed.next_iff (h : RecordsAllowed ms processes) (ctx : TaskAlloc) :
    RecordsAllowed (ms ++ [machine.move processes ctx]) (machine.next processes ctx) ↔
      ctx.retval = 0 ∨ ctx.pid ∈ processes ∨ 32768 ≤ processes.size := by
  constructor
  · intro hnext
    by_contra hghost
    rw [not_or, not_or, Nat.not_le] at hghost
    obtain ⟨hret, hnew, hroom⟩ := hghost
    have hmem : ctx.pid ∈ machine.next processes ctx := mem_next.mpr (Or.inr ⟨rfl, Or.inr hroom⟩)
    obtain ⟨m, hm, hpid, hout⟩ := hnext.origin ctx.pid hmem
    rcases List.mem_append.mp hm with hm | hm
    · exact hnew (hpid ▸ h.recorded m hm hout)
    · obtain rfl := List.mem_singleton.mp hm
      exact hret (move_out_eq_zero.mp hout).2
  · intro hcond
    refine ⟨h.toRecords.next ctx, fun k hk => ?_⟩
    have hold : k ∈ processes →
        ∃ m ∈ ms ++ [machine.move processes ctx], m.act.pid = k ∧ m.out = 0 := by
      intro hk
      obtain ⟨m, hm, hpid, hout⟩ := h.origin k hk
      exact ⟨m, List.mem_append_left _ hm, hpid, hout⟩
    rcases mem_next.mp hk with hk | ⟨rfl, hfits⟩
    · exact hold hk
    · rcases hcond with hret | hpid | hfull
      · exact ⟨_, List.mem_append_right _ List.mem_cons_self, rfl,
          move_out_eq_zero.mpr ⟨hfits, hret⟩⟩
      · exact hold hpid
      · exact hold (hfits.resolve_right (Nat.not_lt.mpr hfull))

/-! ## Runs -/

/-- **No creation that was let through is missing**, after any calls. -/
theorem records (evs : List TaskAlloc) :
    Records (machine.moves .empty evs) (machine.last .empty evs) :=
  Machine.history_induction (P := Records) Records.empty (fun _ _ ctx h => h.next ctx) evs

/-- **When `PROCESSES` records only what was let through**: at every point of a run from the empty
map, iff every call is for a creation the programs before have allowed, or its pid is already
recorded, or the map is full. -/
theorem recordsAllowed_iff (evs : List TaskAlloc) :
    (∀ bs, bs <+: evs → RecordsAllowed (machine.moves .empty bs) (machine.last .empty bs)) ↔
      ∀ m ∈ machine.moves .empty evs,
        m.act.retval = 0 ∨ m.act.pid ∈ m.pre ∨ 32768 ≤ m.pre.size :=
  Machine.forall_prefix_iff RecordsAllowed.empty (fun _ _ ctx h => h.next_iff ctx) evs

/-- **A ghost**: the creation of process 1 is denied with `EPERM`, and 1 is recorded. -/
theorem records_denied_task :
    ¬ ∀ evs : List TaskAlloc,
      RecordsAllowed (machine.moves .empty evs) (machine.last .empty evs) := by
  intro h
  obtain ⟨m, hm, -, hout⟩ := (h [⟨1, 0, -1, e2big⟩]).origin 1 (by decide)
  obtain rfl := List.mem_singleton.mp hm
  exact absurd hout (by decide)

/-! ## The first 32768 pids -/

/-- The pids recorded by a run. -/
theorem mem_last {evs : List TaskAlloc} {k : Int32} :
    k ∈ machine.last .empty evs ↔ k ∈ BoundedMap.firstKeys 32768 (evs.map TaskAlloc.pid) := by
  rw [last_eq_load, BoundedMap.mem_load_empty]

/-- The next call finds room iff its pid is among the first 32768. -/
theorem fits_last (evs : List TaskAlloc) (ctx : TaskAlloc) :
    (machine.last .empty evs).Fits ctx.pid ↔
      ctx.pid ∈ BoundedMap.firstKeys 32768 ((evs ++ [ctx]).map TaskAlloc.pid) := by
  rw [last_eq_load]
  exact BoundedMap.fits_load_empty

/-- **A run in closed form.** `PROCESSES` ends up with the first 32768 distinct pids of the run,
each mapped to itself; a call for one of these returns the verdict it received, and a call for any
other pid the kernel's error. -/
theorem first_pids (evs : List TaskAlloc) :
    (∀ k, (machine.last .empty evs).get? k =
      if k ∈ BoundedMap.firstKeys 32768 (evs.map TaskAlloc.pid) then some k else none) ∧
    ∀ m ∈ machine.moves .empty evs,
      m.out = if m.act.pid ∈ BoundedMap.firstKeys 32768 (evs.map TaskAlloc.pid) then
        m.act.retval else m.act.errno.asI32 := by
  constructor
  · intro k
    split
    · rename_i hk
      have hsome := BoundedMap.get?_isSome.mpr (mem_last.mpr hk)
      obtain ⟨v, hv⟩ := Option.isSome_iff_exists.mp hsome
      rw [hv, (records evs).value_eq k v hv]
    · rename_i hk
      refine Option.not_isSome_iff_eq_none.mp fun hsome => hk ?_
      exact mem_last.mp (BoundedMap.get?_isSome.mp hsome)
  · intro m hm
    obtain ⟨before, ctx, after, rfl, rfl⟩ := Machine.mem_moves.mp hm
    -- whether the pid is among the first is settled by the calls up to this one
    have hsplit : (before ++ ctx :: after).map TaskAlloc.pid =
        (before ++ [ctx]).map TaskAlloc.pid ++ after.map TaskAlloc.pid := by
      rw [← List.map_append, List.append_assoc, List.singleton_append]
    have hmem : ctx.pid ∈ (before ++ [ctx]).map TaskAlloc.pid :=
      List.mem_map_of_mem (List.mem_append_right _ List.mem_cons_self)
    have hfirst : ctx.pid ∈ BoundedMap.firstKeys 32768
        ((before ++ ctx :: after).map TaskAlloc.pid) ↔
          (machine.last .empty before).Fits ctx.pid := by
      rw [hsplit, BoundedMap.mem_firstKeys_append _ hmem, fits_last]
    show (machine.move _ ctx).out = if ctx.pid ∈ _ then ctx.retval else ctx.errno.asI32
    rw [move_out]
    simp only [hfirst]

end AyaBook.Myapp
