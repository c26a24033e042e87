import Replica.Proofs.SortedMap
import Replica.Store.Basic
/-! What conditional writes do to the records of a store. A write either leaves the records alone or
puts its record in place of an older one or of none, so records only ever advance: none is removed,
and none is replaced but by a newer one. -/
namespace Replica

namespace Stamp

variable {a b c : Stamp}

theorem le_refl (a : Stamp) : a ≤ a := Int.le_refl a.micros

theorem le_trans (first : a ≤ b) (second : b ≤ c) : a ≤ c := Int.le_trans first second

theorem le_of_lt (h : a < b) : a ≤ b := Int.le_of_lt h

theorem lt_trans (first : a < b) (second : b < c) : a < c := Int.lt_trans first second

theorem not_le : ¬ a ≤ b ↔ b < a := Int.not_le

/-- Only the count distinguishes stamps, so neither of two stamps exceeding the other makes them one. -/
theorem le_antisymm (first : a ≤ b) (second : b ≤ a) : a = b :=
  ext_micros (Int.le_antisymm first second)

end Stamp

instance : Std.LawfulEqOrd EntityKey where
  compare_self := Std.ReflCmp.compare_self
  eq_of_compare {a b} same := by
    have parts : compare a.kind b.kind = .eq ∧ compare a.id b.id = .eq := compareLex_eq_eq.1 same
    cases a
    cases b
    simpa [Std.LawfulEqOrd.compare_eq_iff_eq] using parts

namespace Records

variable {records : Records} {record : Record}

/-- The record is newer than the one of its entity, if there is one. -/
def IsNewer (records : Records) (record : Record) : Prop :=
  ∀ current, SortedMap.get? records record.key = some current →
    current.lastSyncedAt < record.lastSyncedAt

/-- A write in time puts its record there. One that comes too late finds a record as new or newer, says
so and does nothing. -/
theorem upsert_cases (records : Records) (record : Record) :
    (IsNewer records record ∧ (records.upsert record).1.isWritten = true ∧
      (records.upsert record).2 = SortedMap.insert records record.key record) ∨
    ∃ current, SortedMap.get? records record.key = some current ∧
      record.lastSyncedAt ≤ current.lastSyncedAt ∧
      records.upsert record = (.stale current.lastSyncedAt, records) := by
  cases found : SortedMap.get? records record.key with
  | none => exact .inl (by simp [IsNewer, upsert, found, Upsert.isWritten])
  | some current =>
    by_cases late : record.lastSyncedAt ≤ current.lastSyncedAt
    · exact .inr ⟨current, rfl, late, by simp [upsert, found, late]⟩
    · have newer := Stamp.not_le.1 late
      exact .inl (by simp [IsNewer, upsert, found, late, newer, Upsert.isWritten])

/-- Every record is still there, as it was or in a newer version. -/
def Advances (before after : Records) : Prop :=
  ∀ key record, SortedMap.get? before key = some record →
    ∃ later, SortedMap.get? after key = some later ∧
      (later = record ∨ record.lastSyncedAt < later.lastSyncedAt)

theorem Advances.refl (records : Records) : Advances records records :=
  fun _ record found => ⟨record, found, .inl rfl⟩

theorem Advances.trans {first second third : Records} (early : Advances first second)
    (late : Advances second third) : Advances first third := by
  intro key record found
  obtain ⟨middle, there, same | newer⟩ := early key record found
  · exact same ▸ late key middle there
  · obtain ⟨last, still, same | newest⟩ := late key middle there
    · exact ⟨last, still, .inr (same ▸ newer)⟩
    · exact ⟨last, still, .inr (Stamp.lt_trans newer newest)⟩

/-- A write only advances the records. -/
theorem advances_upsert (records : Records) (record : Record) :
    Advances records (records.upsert record).2 := by
  rcases upsert_cases records record with ⟨newer, -, inserted⟩ | ⟨current, -, -, late⟩
  · rw [inserted]
    intro key old found
    by_cases same : key = record.key
    · subst key
      exact ⟨record, SortedMap.get?_insert_self .., .inr (newer old found)⟩
    · exact ⟨old, by rw [SortedMap.get?_insert_of_ne _ _ same, found], .inl rfl⟩
  · rw [late]
    exact Advances.refl records

/-- A write concerns the entity of its record alone. -/
theorem get?_upsert_of_ne (records : Records) (record : Record) {key : EntityKey}
    (other : key ≠ record.key) :
    SortedMap.get? (records.upsert record).2 key = SortedMap.get? records key := by
  rcases upsert_cases records record with ⟨-, -, inserted⟩ | ⟨current, -, -, late⟩
  · rw [inserted, SortedMap.get?_insert_of_ne _ _ other]
  · rw [late]

/-- The entity of a message has a record that is as new as the message or newer. -/
def Covers (records : Records) (m : Message) : Prop :=
  ∃ record, SortedMap.get? records m.key = some record ∧ m.emittedAt ≤ record.lastSyncedAt

/-- What is covered stays covered. -/
theorem Covers.advance {before after : Records} {m : Message} (covers : Covers before m)
    (advances : Advances before after) : Covers after m := by
  obtain ⟨record, found, asNew⟩ := covers
  obtain ⟨later, still, same | newer⟩ := advances m.key record found
  · exact ⟨later, still, same ▸ asNew⟩
  · exact ⟨later, still, Stamp.le_trans asNew (Stamp.le_of_lt newer)⟩

/-- However a write ends, its entity has a record as new as the one to be written. -/
theorem covers_upsert (records : Records) (record : Record) {m : Message}
    (key : record.key = m.key) (stamp : record.lastSyncedAt = m.emittedAt) :
    Covers (records.upsert record).2 m := by
  unfold Covers
  rw [← key, ← stamp]
  rcases upsert_cases records record with ⟨-, -, inserted⟩ | ⟨current, found, asNew, late⟩
  · rw [inserted]
    exact ⟨record, SortedMap.get?_insert_self .., Stamp.le_refl _⟩
  · rw [late]
    exact ⟨current, found, asNew⟩

end Records

namespace Store

/-- A write fails and leaves the records alone, or does what it does to the records. -/
theorem upsertIfNewer_cases (store : Store) (record : Record) :
    (store.upsertIfNewer record).1 = .error injectedFailure ∧
        (store.upsertIfNewer record).2.records = store.records ∨
      (store.upsertIfNewer record).1 = .ok (store.records.upsert record).1 ∧
        (store.upsertIfNewer record).2.records = (store.records.upsert record).2 := by
  cases failing : store.failingWrites with
  | zero => exact .inr (by simp [upsertIfNewer, failing])
  | succ left => exact .inl (by simp [upsertIfNewer, failing])

end Store

end Replica
