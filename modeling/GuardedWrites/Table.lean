/-!
# Finite maps

A `Table` is a list of entries with distinct keys, in the order in which the keys were first stored.

* `Table.get?_insert`, `Table.get?_erase`, `Table.get?_filter` — what a look-up finds after a
  change;
* `Table.size_insert` — how storing a value changes the number of entries.
-/

namespace GuardedWrites

namespace Entries

variable {κ α : Type} [DecidableEq κ]

/-- The value under a key. -/
def get? (k : κ) : List (κ × α) → Option α
  | [] => none
  | (k', a) :: rest => if k' = k then some a else get? k rest

/-- Stores a value under a key, in place of an older one or at the end. -/
def insert (k : κ) (a : α) : List (κ × α) → List (κ × α)
  | [] => [(k, a)]
  | (k', b) :: rest => if k' = k then (k, a) :: rest else (k', b) :: insert k a rest

theorem get?_eq_none_iff (k : κ) (es : List (κ × α)) : get? k es = none ↔ k ∉ es.map Prod.fst := by
  induction es with
  | nil => simp [get?]
  | cons e rest ih =>
    obtain ⟨k', a⟩ := e
    by_cases h : k' = k
    · subst h; simp [get?]
    · simp only [get?, h, if_false, ih, List.map_cons, List.mem_cons, not_or]
      exact ⟨fun m => ⟨fun e => h e.symm, m⟩, fun m => m.2⟩

theorem map_fst_insert (k : κ) (a : α) (es : List (κ × α)) :
    (insert k a es).map Prod.fst =
      if k ∈ es.map Prod.fst then es.map Prod.fst else es.map Prod.fst ++ [k] := by
  induction es with
  | nil => simp [insert]
  | cons e rest ih =>
    obtain ⟨k', b⟩ := e
    by_cases h : k' = k
    · subst h; simp [insert]
    · have h' : ¬ k = k' := fun e => h e.symm
      simp only [insert, h, if_false, List.map_cons, ih, List.mem_cons, h', false_or]
      split <;> simp

theorem nodup_insert (k : κ) (a : α) {es : List (κ × α)} (h : (es.map Prod.fst).Nodup) :
    ((insert k a es).map Prod.fst).Nodup := by
  rw [map_fst_insert]
  split
  · exact h
  · rename_i hk
    rw [List.nodup_append]
    refine ⟨h, by simp, ?_⟩
    intro x hx y hy
    simp only [List.mem_singleton] at hy
    subst hy
    exact fun e => hk (e ▸ hx)

theorem get?_insert (k k' : κ) (a : α) (es : List (κ × α)) :
    get? k' (insert k a es) = if k = k' then some a else get? k' es := by
  induction es with
  | nil => simp [insert, get?]
  | cons e rest ih =>
    obtain ⟨j, b⟩ := e
    by_cases h : j = k
    · subst h
      simp only [insert, if_true, get?]
      split <;> rfl
    · simp only [insert, h, if_false, get?, ih]
      by_cases hk : k = k'
      · subst hk; simp [h]
      · simp [hk]

theorem get?_filter (p : κ × α → Bool) (k : κ) {es : List (κ × α)} (h : (es.map Prod.fst).Nodup) :
    get? k (es.filter p) = (get? k es).filter fun a => p (k, a) := by
  induction es with
  | nil => simp [get?]
  | cons e rest ih =>
    obtain ⟨j, b⟩ := e
    have hj : j ∉ rest.map Prod.fst := (List.nodup_cons.1 h).1
    have hr : (rest.map Prod.fst).Nodup := (List.nodup_cons.1 h).2
    by_cases hk : j = k
    · subst hk
      have hn : get? j rest = none := (get?_eq_none_iff j rest).2 hj
      by_cases hp : p (j, b) = true
      · simp [get?, hp, Option.filter]
      · simp [get?, hp, ih hr, hn, Option.filter]
    · by_cases hp : p (j, b) = true
      · simp [get?, hp, hk, ih hr]
      · simp [get?, hp, hk, ih hr]

theorem get?_eq_some_iff {es : List (κ × α)} (h : (es.map Prod.fst).Nodup) (k : κ) (a : α) :
    get? k es = some a ↔ (k, a) ∈ es := by
  induction es with
  | nil => simp [get?]
  | cons e rest ih =>
    obtain ⟨j, b⟩ := e
    have hj : j ∉ rest.map Prod.fst := (List.nodup_cons.1 h).1
    have hr : (rest.map Prod.fst).Nodup := (List.nodup_cons.1 h).2
    by_cases hk : j = k
    · subst hk
      have hn : (j, a) ∉ rest := fun m => hj (List.mem_map.2 ⟨_, m, rfl⟩)
      simp [get?, hn, eq_comm]
    · have hk' : ¬ k = j := fun e => hk e.symm
      simp [get?, hk, hk', ih hr]

end Entries

/-- A finite map. -/
structure Table (κ α : Type) where
  entries : List (κ × α)
  distinct : (entries.map Prod.fst).Nodup

namespace Table

variable {κ α : Type} [DecidableEq κ]

/-- The map without entries. -/
def empty : Table κ α := ⟨[], by simp⟩

/-- The value under a key. -/
def get? (t : Table κ α) (k : κ) : Option α := Entries.get? k t.entries

/-- Whether a key has a value. -/
def has (t : Table κ α) (k : κ) : Bool := (t.get? k).isSome

/-- Stores a value under a key. -/
def insert (t : Table κ α) (k : κ) (a : α) : Table κ α :=
  ⟨Entries.insert k a t.entries, Entries.nodup_insert k a t.distinct⟩

/-- Keeps the entries that pass a test. -/
def filter (t : Table κ α) (p : κ → α → Bool) : Table κ α :=
  ⟨t.entries.filter fun e => p e.1 e.2, t.distinct.sublist (List.filter_sublist.map _)⟩

/-- Removes the value under a key. -/
def erase (t : Table κ α) (k : κ) : Table κ α := t.filter fun k' _ => k' ≠ k

/-- The number of entries. -/
def size (t : Table κ α) : Nat := t.entries.length

@[simp] theorem get?_empty (k : κ) : (empty : Table κ α).get? k = none := rfl

theorem get?_insert (t : Table κ α) (k k' : κ) (a : α) :
    (t.insert k a).get? k' = if k = k' then some a else t.get? k' :=
  Entries.get?_insert k k' a t.entries

theorem get?_filter (t : Table κ α) (p : κ → α → Bool) (k : κ) :
    (t.filter p).get? k = (t.get? k).filter (p k) :=
  Entries.get?_filter _ k t.distinct

theorem get?_erase (t : Table κ α) (k k' : κ) :
    (t.erase k).get? k' = if k = k' then none else t.get? k' := by
  simp only [erase, get?_filter]
  by_cases h : k = k'
  · subst h
    cases t.get? k <;> simp
  · have h' : k' ≠ k := fun e => h e.symm
    cases t.get? k' <;> simp [h, h']

theorem get?_eq_some_iff (t : Table κ α) (k : κ) (a : α) : t.get? k = some a ↔ (k, a) ∈ t.entries :=
  Entries.get?_eq_some_iff t.distinct k a

theorem size_insert (t : Table κ α) (k : κ) (a : α) :
    (t.insert k a).size = if t.has k then t.size else t.size + 1 := by
  have h := congrArg List.length (Entries.map_fst_insert k a t.entries)
  simp only [List.length_map] at h
  simp only [size, insert, has, get?]
  by_cases hk : k ∈ t.entries.map Prod.fst
  · have hs : (Entries.get? k t.entries).isSome = true := by
      rw [Option.isSome_iff_ne_none, ne_eq, Entries.get?_eq_none_iff]
      exact fun n => n hk
    simp [h, hk, hs]
  · have hs : Entries.get? k t.entries = none := (Entries.get?_eq_none_iff k _).2 hk
    simp [h, hk, hs]

end Table

end GuardedWrites
