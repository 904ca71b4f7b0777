import Mathlib.Data.List.AList
import Mathlib.Data.List.Induction

/-!
# Maps of bounded size

A finite map that holds at most `cap` keys. The bound is a field, so a map over its capacity
cannot be built. `insert` adds or overwrites; a new key on a full map is refused (`none`).
`put` is the caller that carries on with the old map after a refusal, and `load` a sequence of
them, with the key `f a` and the value `v a` for each input `a`.

Results:
* `insert_isSome`: an insert succeeds iff the key is present or there is room (`Fits`).
* `mem_load`: **a loaded map holds exactly what it held before and what was accepted**.
* `accepted_congr`: which inputs are accepted does not depend on how their keys are written.
* `load_nodup`: distinct new keys up to the capacity are all accepted.
* `mem_load_empty`: **a map loaded from empty holds exactly the first `cap` distinct keys**.
-/

namespace AyaBook.Lib

/-- A map from `K` to `V` with at most `cap` keys. -/
structure BoundedMap (K V : Type) (cap : Nat) where
  entries : AList fun _ : K => V
  size_le : entries.keys.length ≤ cap

namespace BoundedMap

variable {K V : Type} {cap : Nat}

instance : Membership K (BoundedMap K V cap) := ⟨fun m k => k ∈ m.entries⟩

/-- The number of keys. -/
def size (m : BoundedMap K V cap) : Nat := m.entries.keys.length

/-- The map without keys. -/
def empty : BoundedMap K V cap := ⟨∅, Nat.zero_le _⟩

/-- An insert of `k` is not refused. -/
def Fits (m : BoundedMap K V cap) (k : K) : Prop := k ∈ m ∨ m.size < cap

theorem not_mem_empty (k : K) : k ∉ (empty : BoundedMap K V cap) := AList.notMem_empty k

@[simp] theorem size_empty : (empty : BoundedMap K V cap).size = 0 := rfl

variable [DecidableEq K]

instance (m : BoundedMap K V cap) (k : K) : Decidable (k ∈ m) :=
  inferInstanceAs (Decidable (k ∈ m.entries))

instance (m : BoundedMap K V cap) (k : K) : Decidable (m.Fits k) :=
  inferInstanceAs (Decidable (k ∈ m ∨ m.size < cap))

/-- The value of `k`. -/
def get? (m : BoundedMap K V cap) (k : K) : Option V := m.entries.lookup k

theorem length_insert (s : AList fun _ : K => V) (k : K) (v : V) :
    (s.insert k v).keys.length = if k ∈ s then s.keys.length else s.keys.length + 1 := by
  rw [AList.keys_insert, List.length_cons]
  split
  · rename_i hk
    have hpos := List.length_pos_of_mem hk
    rw [List.length_erase_of_mem hk]
    omega
  · rename_i hk
    rw [List.erase_of_not_mem hk]

/-- Add or overwrite `k`; `none` when `k` is new and the map is full. -/
def insert (m : BoundedMap K V cap) (k : K) (v : V) : Option (BoundedMap K V cap) :=
  if h : m.Fits k then
    some ⟨m.entries.insert k v, by
      rw [length_insert]
      split
      · exact m.size_le
      · rename_i hk
        exact h.resolve_left hk⟩
  else none

/-- `insert`, keeping the old map after a refusal. -/
def put (m : BoundedMap K V cap) (k : K) (v : V) : BoundedMap K V cap := (m.insert k v).getD m

/-! ## One insert -/

@[simp] theorem get?_empty (k : K) : (empty : BoundedMap K V cap).get? k = none :=
  AList.lookup_empty k

theorem get?_isSome {m : BoundedMap K V cap} {k : K} : (m.get? k).isSome ↔ k ∈ m :=
  AList.lookup_isSome

theorem insert_isSome {m : BoundedMap K V cap} {k : K} {v : V} :
    (m.insert k v).isSome ↔ m.Fits k := by
  unfold insert
  split
  · rename_i h; exact ⟨fun _ => h, fun _ => rfl⟩
  · rename_i h; exact ⟨fun hs => absurd hs Bool.false_ne_true, fun hf => absurd hf h⟩

theorem insert_eq_none {m : BoundedMap K V cap} {k : K} {v : V} :
    m.insert k v = none ↔ ¬ m.Fits k := by
  rw [← insert_isSome (v := v), Option.not_isSome_iff_eq_none]

/-- What a successful insert leaves. -/
theorem entries_of_insert {m m' : BoundedMap K V cap} {k : K} {v : V}
    (h : m.insert k v = some m') : m'.entries = m.entries.insert k v := by
  unfold insert at h
  split at h
  · rw [← Option.some.inj h]
  · exact absurd h (by simp)

theorem mem_insert {m m' : BoundedMap K V cap} {k : K} {v : V} (h : m.insert k v = some m')
    (q : K) : q ∈ m' ↔ q = k ∨ q ∈ m := by
  show q ∈ m'.entries ↔ _
  rw [entries_of_insert h, AList.mem_insert]
  exact Iff.rfl

theorem get?_insert {m m' : BoundedMap K V cap} {k : K} {v : V} (h : m.insert k v = some m')
    (q : K) : m'.get? q = if q = k then some v else m.get? q := by
  unfold get?
  rw [entries_of_insert h]
  split
  · rename_i hq; rw [hq, AList.lookup_insert]
  · rename_i hq; exact AList.lookup_insert_ne hq

theorem size_insert {m m' : BoundedMap K V cap} {k : K} {v : V} (h : m.insert k v = some m') :
    m'.size = if k ∈ m then m.size else m.size + 1 := by
  unfold size
  rw [entries_of_insert h, length_insert]
  rfl

/-! ## Inserts that may be refused -/

theorem put_of_not_fits {m : BoundedMap K V cap} {k : K} (v : V) (h : ¬ m.Fits k) :
    m.put k v = m := by
  unfold put
  rw [insert_eq_none.mpr h]
  rfl

theorem insert_of_fits {m : BoundedMap K V cap} {k : K} (v : V) (h : m.Fits k) :
    m.insert k v = some (m.put k v) := by
  obtain ⟨m', hm'⟩ := Option.isSome_iff_exists.mp (insert_isSome (v := v) |>.mpr h)
  unfold put
  rw [hm']
  rfl

theorem mem_put {m : BoundedMap K V cap} {k : K} {v : V} {q : K} :
    q ∈ m.put k v ↔ q ∈ m ∨ (q = k ∧ m.Fits k) := by
  by_cases h : m.Fits k
  · rw [mem_insert (insert_of_fits v h)]
    tauto
  · rw [put_of_not_fits v h]
    tauto

theorem get?_put (m : BoundedMap K V cap) (k : K) (v : V) (q : K) :
    (m.put k v).get? q = if q = k ∧ m.Fits k then some v else m.get? q := by
  by_cases h : m.Fits k
  · rw [get?_insert (insert_of_fits v h)]
    simp only [h, and_true]
  · rw [put_of_not_fits v h, if_neg fun hq => h hq.2]

theorem size_put (m : BoundedMap K V cap) (k : K) (v : V) :
    (m.put k v).size = if k ∉ m ∧ m.size < cap then m.size + 1 else m.size := by
  by_cases h : m.Fits k
  · rw [size_insert (insert_of_fits v h)]
    by_cases hk : k ∈ m
    · rw [if_pos hk, if_neg fun hn => hn.1 hk]
    · rw [if_neg hk, if_pos ⟨hk, h.resolve_left hk⟩]
  · rw [put_of_not_fits v h, if_neg fun hn => h (Or.inr hn.2)]

/-! ## Loading a list -/

variable {A : Type} (f : A → K) (v : A → V)

/-- The map after one insert per input, refusals ignored. -/
def load (m : BoundedMap K V cap) (as : List A) : BoundedMap K V cap :=
  as.foldl (fun m a => m.put (f a) (v a)) m

/-- The inputs whose insert succeeded. -/
def accepted : BoundedMap K V cap → List A → List A
  | _, [] => []
  | m, a :: as =>
    if m.Fits (f a) then a :: accepted (m.put (f a) (v a)) as else accepted (m.put (f a) (v a)) as

variable {f v}

/-- **A loaded map** holds what it held before and the accepted inputs' keys, nothing else. -/
theorem mem_load {as : List A} : ∀ {m : BoundedMap K V cap} {q : K},
    q ∈ m.load f v as ↔ q ∈ m ∨ ∃ a ∈ accepted f v m as, f a = q := by
  induction as with
  | nil => intro m q; simp [load, accepted]
  | cons a as ih =>
    intro m q
    have hstep : m.load f v (a :: as) = (m.put (f a) (v a)).load f v as := rfl
    rw [hstep, ih, mem_put, accepted]
    by_cases hf : m.Fits (f a)
    · simp only [hf, if_true, and_true, List.mem_cons, exists_eq_or_imp, or_assoc,
        eq_comm (a := q)]
    · simp only [hf, if_false, and_false, or_false]

/-- With distinct keys for distinct inputs, an input's key is in the loaded map iff it was
there before or the input was accepted. -/
theorem key_mem_load (hf : Function.Injective f) {m : BoundedMap K V cap} {as : List A} {a : A} :
    f a ∈ m.load f v as ↔ f a ∈ m ∨ a ∈ accepted f v m as := by
  rw [mem_load]
  refine or_congr Iff.rfl ⟨?_, fun h => ⟨a, h, rfl⟩⟩
  rintro ⟨b, hb, he⟩
  exact hf he ▸ hb

/-- **Acceptance does not depend on the key encoding**: two maps of one size that agree on the
inputs' keys accept the same inputs. -/
theorem accepted_congr {K' V' : Type} [DecidableEq K'] {g : A → K'} {v' : A → V'}
    (hf : Function.Injective f) (hg : Function.Injective g) : ∀ (as : List A)
    {m : BoundedMap K V cap} {m' : BoundedMap K' V' cap}, (∀ a, f a ∈ m ↔ g a ∈ m') →
      m.size = m'.size → accepted f v m as = accepted g v' m' as
  | [], _, _, _, _ => rfl
  | a :: as, m, m', hmem, hsize => by
    have hfits : m.Fits (f a) ↔ m'.Fits (g a) := by unfold Fits; rw [hmem a, hsize]
    have hmem' : ∀ b, f b ∈ m.put (f a) (v a) ↔ g b ∈ m'.put (g a) (v' a) := by
      intro b
      rw [mem_put, mem_put, hmem b, hf.eq_iff, hg.eq_iff, hfits]
    have hsize' : (m.put (f a) (v a)).size = (m'.put (g a) (v' a)).size := by
      simp only [size_put, hmem a, hsize]
    have ih : accepted f v (m.put (f a) (v a)) as = accepted g v' (m'.put (g a) (v' a)) as :=
      accepted_congr hf hg as hmem' hsize'
    simp only [accepted, ih, hfits]

/-- **Distinct new keys up to the capacity all fit**, and each takes one place. -/
theorem load_nodup : ∀ (as : List A) {m : BoundedMap K V cap}, (as.map f).Nodup →
    (∀ a ∈ as, f a ∉ m) → m.size + as.length ≤ cap →
      (m.load f v as).size = m.size + as.length ∧ accepted f v m as = as
  | [], _, _, _, _ => ⟨rfl, rfl⟩
  | a :: as, m, hn, hnew, hroom => by
    rw [List.map_cons, List.nodup_cons] at hn
    rw [List.length_cons] at hroom ⊢
    have hlt : m.size < cap := by omega
    have ha : f a ∉ m := hnew a List.mem_cons_self
    have hsize : (m.put (f a) (v a)).size = m.size + 1 := by rw [size_put, if_pos ⟨ha, hlt⟩]
    have hnew' : ∀ b ∈ as, f b ∉ m.put (f a) (v a) := by
      intro b hb hmem
      rcases mem_put.mp hmem with h | ⟨h, _⟩
      · exact hnew b (List.mem_cons_of_mem a hb) h
      · exact hn.1 (h ▸ List.mem_map_of_mem hb)
    obtain ⟨hs, hacc⟩ := load_nodup as hn.2 hnew' (by omega)
    have hstep : m.load f v (a :: as) = (m.put (f a) (v a)).load f v as := rfl
    have hfits : m.Fits (f a) := Or.inr hlt
    refine ⟨by rw [hstep, hs, hsize]; omega, ?_⟩
    rw [accepted, if_pos hfits, hacc]

/-! ## The first distinct keys -/

/-- The first `n` distinct keys of a sequence. -/
def firstKeys (n : Nat) (ks : List K) : List K := ks.eraseDups.take n

/-- Only a new key appears at the end. -/
theorem eraseDups_concat (ks : List K) (k : K) :
    (ks ++ [k]).eraseDups = if k ∈ ks then ks.eraseDups else ks.eraseDups ++ [k] := by
  rw [List.eraseDups_append]
  split
  · rename_i hk
    simp [List.removeAll, hk]
  · rename_i hk
    simp [List.removeAll, hk, List.eraseDups_cons]

theorem firstKeys_concat_of_mem {ks : List K} {k : K} (n : Nat) (h : k ∈ ks) :
    firstKeys n (ks ++ [k]) = firstKeys n ks := by
  rw [firstKeys, eraseDups_concat, if_pos h, firstKeys]

/-- A new key is among the first `n` iff fewer than `n` came before it. -/
theorem mem_firstKeys_concat {ks : List K} {k q : K} {n : Nat} (h : k ∉ ks) :
    q ∈ firstKeys n (ks ++ [k]) ↔ q ∈ firstKeys n ks ∨ (q = k ∧ ks.eraseDups.length < n) := by
  rw [firstKeys, eraseDups_concat, if_neg h, List.take_append, List.mem_append, firstKeys]
  refine or_congr Iff.rfl ?_
  by_cases hlt : ks.eraseDups.length < n
  · rw [List.take_of_length_le (by rw [List.length_singleton]; omega), List.mem_singleton]
    exact (and_iff_left hlt).symm
  · rw [Nat.sub_eq_zero_of_le (Nat.le_of_not_lt hlt), List.take_zero]
    exact iff_of_false List.not_mem_nil fun hq => hlt hq.2

/-- Whether a key is among the first `n` is settled when it first appears. -/
theorem mem_firstKeys_append {ks ks' : List K} {k : K} (n : Nat) (h : k ∈ ks) :
    k ∈ firstKeys n (ks ++ ks') ↔ k ∈ firstKeys n ks := by
  rw [firstKeys, List.eraseDups_append, List.take_append, List.mem_append, firstKeys]
  refine or_iff_left fun hk => ?_
  have hrest : k ∈ ks'.removeAll ks := List.mem_eraseDups.mp (List.mem_of_mem_take hk)
  rw [List.removeAll, List.mem_filter] at hrest
  exact absurd (List.elem_iff.mpr h) (by simpa using hrest.2)

theorem load_concat (m : BoundedMap K V cap) (as : List A) (a : A) :
    m.load f v (as ++ [a]) = (m.load f v as).put (f a) (v a) :=
  List.foldl_concat ..

/-- **A map loaded from empty holds the first `cap` distinct keys**, and its size says how many
there were. -/
theorem load_empty (as : List A) :
    (∀ q, q ∈ (empty : BoundedMap K V cap).load f v as ↔ q ∈ firstKeys cap (as.map f)) ∧
      ((empty : BoundedMap K V cap).load f v as).size = min cap (as.map f).eraseDups.length := by
  induction as using List.reverseRecOn with
  | nil => exact ⟨fun q => iff_of_false (not_mem_empty q) (by simp [firstKeys]), by simp [load]⟩
  | append_singleton as a ih =>
    obtain ⟨hmem, hsize⟩ := ih
    rw [load_concat, List.map_append, List.map_singleton]
    by_cases hk : f a ∈ as.map f
    · -- the key is not new: it is held, or the map is full
      have hfits : ((empty : BoundedMap K V cap).load f v as).Fits (f a) →
          f a ∈ (empty : BoundedMap K V cap).load f v as := by
        rintro (h | h)
        · exact h
        · rw [hmem, firstKeys, List.take_of_length_le (by omega)]
          exact List.mem_eraseDups.mpr hk
      refine ⟨fun q => ?_, ?_⟩
      · rw [mem_put, firstKeys_concat_of_mem cap hk, hmem]
        exact or_iff_left_of_imp fun ⟨hq, h⟩ => hq ▸ (hmem _).mp (hfits h)
      · rw [size_put, eraseDups_concat, if_pos hk,
          if_neg fun h => h.1 (hfits (Or.inr h.2)), hsize]
    · have hnew : f a ∉ (empty : BoundedMap K V cap).load f v as := fun h =>
        hk (List.mem_eraseDups.mp (List.mem_of_mem_take ((hmem _).mp h)))
      have hroom : ((empty : BoundedMap K V cap).load f v as).size < cap ↔
          (as.map f).eraseDups.length < cap := by omega
      refine ⟨fun q => ?_, ?_⟩
      · rw [mem_put, mem_firstKeys_concat hk, hmem, Fits, hroom, or_iff_right hnew]
      · rw [size_put, eraseDups_concat, if_neg hk, List.length_append, List.length_singleton,
          hsize]
        simp only [hnew, not_false_eq_true, true_and]
        split <;> omega

theorem mem_load_empty {as : List A} {q : K} :
    q ∈ (empty : BoundedMap K V cap).load f v as ↔ q ∈ firstKeys cap (as.map f) :=
  (load_empty as).1 q

/-- The next key fits iff it is among the first `cap` distinct keys with it. -/
theorem fits_load_empty {as : List A} {a : A} :
    ((empty : BoundedMap K V cap).load f v as).Fits (f a) ↔
      f a ∈ firstKeys cap ((as ++ [a]).map f) := by
  rw [← mem_load_empty (v := v), load_concat, mem_put]
  exact ⟨fun h => Or.inr ⟨rfl, h⟩, fun h => h.elim Or.inl And.right⟩

end BoundedMap

end AyaBook.Lib
