import GuardedWrites.Idempotency.Records
import GuardedWrites.Proofs.Time.Elapsed

/-!
# One key of a store of records

What the requests to a store of records do to the record of one key. Sweeps and the removal of what
is past its time make no difference to a record that is alive.

* `Records.step_keeps` — a record that is alive stays unless it is overwritten or removed;
* `Records.step_present` — a record that is there was there before, or has just been stored;
* `Records.step_get`, `Records.step_putIfAbsent_of_free`, `Records.step_putIfAbsent_of_taken` — what
  a look-up and a claim are told.
-/

namespace GuardedWrites

/-- The key that a request is about. -/
def RecordStore.Request.key : RecordStore.Request → String
  | .get key => key
  | .put record _ => record.key
  | .putIfAbsent record _ => record.key
  | .remove key => key

/-- A request that replaces or removes the record of a key, whatever it is. -/
def RecordStore.Request.Displaces (key : String) : RecordStore.Request → Prop
  | .put record _ => record.key = key
  | .remove k => k = key
  | _ => False

theorem RecordStore.Request.not_displaces_of_key_ne {key : String} {r : RecordStore.Request}
    (h : r.key ≠ key) : ¬ r.Displaces key := by
  cases r with
  | get k => exact fun h => h
  | put record ttl => exact h
  | putIfAbsent record ttl => exact fun h => h
  | remove k => exact h

theorem StoredRecord.isExpired_eq_false {x : StoredRecord} {now : Moment} :
    x.isExpired now = false ↔ x.record.storedAt.elapsed now < x.ttl := by
  simp [isExpired, Span.not_le]

namespace Records

variable {s : Records} {now : Moment} {key : String} {x : StoredRecord}

theorem live?_eq_some :
    s.live? now key = some x ↔ s.table.get? key = some x ∧ x.isExpired now = false := by
  simp [live?, Option.filter_eq_some_iff]

theorem noteWrite_keeps (h : s.table.get? key = some x) (hx : x.isExpired now = false) :
    (s.noteWrite now).table.get? key = some x := by
  unfold noteWrite
  dsimp only
  split
  · simp [purge, Table.get?_filter, h, hx]
  · exact h

theorem noteWrite_present (h : (s.noteWrite now).table.get? key = some x) :
    s.table.get? key = some x := by
  unfold noteWrite at h
  dsimp only at h
  split at h
  · simp only [purge, Table.get?_filter, Option.filter_eq_some_iff] at h
    exact h.1
  · exact h

/-- A record is there after it was stored, unless it was past its time at once. -/
theorem put_stores (s : Records) {record : IdempotencyRecord} {ttl : Span}
    (h : record.storedAt.elapsed now < ttl) :
    (s.put now record ttl).table.get? record.key = some ⟨record, ttl⟩ := by
  apply noteWrite_keeps
  · simp [Table.get?_insert]
  · exact StoredRecord.isExpired_eq_false.2 h

/-- Nothing but the record that was stored is there after it was stored. -/
theorem put_replaces {record : IdempotencyRecord} {ttl : Span}
    (h : (s.put now record ttl).table.get? record.key = some x) : x = ⟨record, ttl⟩ := by
  have h := noteWrite_present h
  simpa [Table.get?_insert, eq_comm] using h

theorem put_keeps {record : IdempotencyRecord} {ttl : Span} (h : s.table.get? key = some x)
    (hx : x.isExpired now = false) (hk : record.key ≠ key) :
    (s.put now record ttl).table.get? key = some x := by
  apply noteWrite_keeps _ hx
  simp [Table.get?_insert, hk, h]

theorem put_present {record : IdempotencyRecord} {ttl : Span}
    (h : (s.put now record ttl).table.get? key = some x) :
    s.table.get? key = some x ∨ record.key = key ∧ x = ⟨record, ttl⟩ := by
  have h := noteWrite_present h
  simp only [Table.get?_insert] at h
  split at h
  · exact .inr ⟨‹_›, by simpa using h.symm⟩
  · exact .inl h

theorem remove_absent (s : Records) (key : String) : (s.remove key).table.get? key = none := by
  simp [remove, Table.get?_erase]

/-- A look-up answers with the record that is alive. -/
theorem step_get (s : Records) (now : Moment) (key : String) :
    (s.step now (.get key)).1 = (s.live? now key).map (·.record) := by
  simp only [step, get, live?]
  cases h : s.table.get? key with
  | none => rfl
  | some x => cases hx : x.isExpired now <;> simp [Option.filter, hx]

theorem step_get_of_alive (h : s.live? now key = some x) :
    s.step now (.get key) = (some x.record, s) := by
  obtain ⟨ht, hx⟩ := live?_eq_some.1 h
  simp [step, get, ht, hx]

theorem step_get_of_absent (h : s.table.get? key = none) : s.step now (.get key) = (none, s) := by
  simp [step, get, h]

theorem step_putIfAbsent_of_free {record : IdempotencyRecord} {ttl : Span}
    (h : s.live? now record.key = none) :
    s.step now (.putIfAbsent record ttl) = (true, s.put now record ttl) := by
  simp [step, putIfAbsent, h]

theorem step_putIfAbsent_of_taken {record : IdempotencyRecord} {ttl : Span}
    (h : s.live? now record.key = some x) :
    s.step now (.putIfAbsent record ttl) = (false, s) := by
  simp [step, putIfAbsent, h]

/-- A record that is alive stays unless it is replaced or removed. -/
theorem step_keeps {r : RecordStore.Request} (h : s.table.get? key = some x)
    (hx : x.isExpired now = false) (hr : ¬ r.Displaces key) :
    (s.step now r).2.table.get? key = some x := by
  have hl := live?_eq_some.2 ⟨h, hx⟩
  cases r with
  | get k =>
    simp only [step, get]
    cases hk : s.table.get? k with
    | none => exact h
    | some y =>
      dsimp only
      split
      · have hne : k ≠ key := by
          rintro rfl
          simp_all
        simp [Table.get?_erase, hne, h]
      · exact h
  | put record ttl => exact put_keeps h hx hr
  | putIfAbsent record ttl =>
    simp only [step, putIfAbsent]
    cases hk : s.live? now record.key with
    | some y => exact h
    | none =>
      refine put_keeps h hx ?_
      rintro rfl
      simp [hk] at hl
  | remove k =>
    have hr : k ≠ key := hr
    simp [step, remove, Table.get?_erase, hr, h]

/-- A record that is there after a request was there before, or the request stored it. -/
theorem step_present {r : RecordStore.Request} (h : (s.step now r).2.table.get? key = some x) :
    s.table.get? key = some x ∨
      ∃ record ttl, (r = .put record ttl ∨ r = .putIfAbsent record ttl ∧
        s.live? now record.key = none) ∧
        record.key = key ∧ x = ⟨record, ttl⟩ := by
  cases r with
  | get k =>
    simp only [step, get] at h
    cases hk : s.table.get? k with
    | none => simp_all
    | some y =>
      simp only [hk] at h
      split at h
      · simp only [Table.get?_erase] at h
        split at h
        · simp at h
        · exact .inl h
      · exact .inl h
  | put record ttl =>
    rcases put_present h with h | ⟨hk, hx⟩
    · exact .inl h
    · exact .inr ⟨record, ttl, .inl rfl, hk, hx⟩
  | putIfAbsent record ttl =>
    simp only [step, putIfAbsent] at h
    cases hl : s.live? now record.key with
    | some y =>
      simp only [hl] at h
      exact .inl h
    | none =>
      simp only [hl] at h
      rcases put_present h with h | ⟨hk, hx⟩
      · exact .inl h
      · exact .inr ⟨record, ttl, .inr ⟨rfl, hl⟩, hk, hx⟩
  | remove k =>
    simp only [step, remove, Table.get?_erase] at h
    split at h
    · simp at h
    · exact .inl h

end Records

end GuardedWrites
