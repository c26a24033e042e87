import Replica.SortedMap
import Mathlib.Data.List.Induction
/-! What look-ups see of sorted maps. Because keys rise strictly, a look-up finds exactly the entries of
the map, an insertion changes the answer for its own key only, and two maps that answer every look-up
alike are the same map. -/
namespace Replica

namespace Entries

variable {κ α : Type} [Ord κ] [Std.TransOrd κ]

theorem insert_of_forall_lt {key : κ} (value : α) {entries : List (κ × α)}
    (below : ∀ entry ∈ entries, compare entry.1 key = .lt) :
    insert key value entries = entries ++ [(key, value)] := by
  induction entries with
  | nil => rfl
  | cons head rest ih =>
    obtain ⟨first, later⟩ := List.forall_mem_cons.1 below
    simp only [insert, Std.OrientedCmp.gt_of_lt first, ih later, List.cons_append]

/-- Entries in order stay as they are. -/
theorem arrange_of_ascending {entries : List (κ × α)} (ascending : Ascending entries) :
    arrange entries = entries := by
  suffices ∀ done : List (κ × α), Ascending (done ++ entries) →
      entries.foldl (fun arranged pair => insert pair.1 pair.2 arranged) done = done ++ entries from
    this [] ascending
  clear ascending
  induction entries with
  | nil => exact fun done _ => (List.append_nil done).symm
  | cons pair rest ih =>
    intro done ascending
    obtain ⟨-, -, below⟩ := List.pairwise_append.1 ascending
    rw [List.foldl_cons, insert_of_forall_lt pair.2 fun entry there => below entry there pair List.mem_cons_self]
    rw [ih _ (by simpa using ascending), List.append_assoc, List.singleton_append]

/-- There is one list of these members in which their keys rise. -/
theorem eq_of_mem_iff {β : Type} (key : β → κ) {a b : List β}
    (first : a.Pairwise fun x y => compare (key x) (key y) = .lt)
    (second : b.Pairwise fun x y => compare (key x) (key y) = .lt) (same : ∀ x, x ∈ a ↔ x ∈ b) : a = b := by
  have nodup {list : List β} (rising : list.Pairwise fun x y => compare (key x) (key y) = .lt) : list.Nodup := by
    apply rising.imp
    rintro x y less rfl
    simp [Std.ReflOrd.compare_self] at less
  have members : a.Perm b := (List.perm_ext_iff_of_nodup (nodup first) (nodup second)).2 same
  refine members.eq_of_pairwise (fun x y _ _ less greater => ?_) first second
  simp [Std.OrientedCmp.gt_of_lt less] at greater

variable [Std.LawfulEqOrd κ]

/-- A look-up finds exactly the value that stands beside the key. The look-up gives up at the first
greater key, and the order of the entries is what makes this right. -/
theorem find?_eq_some_iff {key : κ} {value : α} {entries : List (κ × α)}
    (ascending : Ascending entries) :
    find? key entries = some value ↔ (key, value) ∈ entries := by
  induction entries with
  | nil => simp [find?]
  | cons head rest ih =>
    obtain ⟨below, tail⟩ := List.pairwise_cons.1 ascending
    unfold find?
    split
    · rename_i less
      have absent : (key, value) ∉ head :: rest := by
        intro member
        rcases List.mem_cons.1 member with rfl | later
        · simp [Std.ReflOrd.compare_self] at less
        · have greater := Std.OrientedCmp.gt_of_lt (below _ later)
          simp [less] at greater
      simpa using absent
    · rename_i same
      obtain rfl := Std.LawfulEqOrd.eq_of_compare same
      constructor
      · rintro ⟨⟩
        exact List.mem_cons_self
      · intro member
        rcases List.mem_cons.1 member with first | later
        · rw [← first]
        · have less := below _ later
          simp [Std.ReflOrd.compare_self] at less
    · rename_i greater
      rw [ih tail, List.mem_cons]
      have different : (key, value) ≠ head := by
        rintro rfl
        simp [Std.ReflOrd.compare_self] at greater
      simp [different]

/-- An insertion puts its pair there and takes away what stood under the key, nothing else. -/
theorem mem_insert_iff {key : κ} {value : α} {entries : List (κ × α)} (ascending : Ascending entries)
    (entry : κ × α) :
    entry ∈ insert key value entries ↔
      entry = (key, value) ∨ (entry ∈ entries ∧ entry.1 ≠ key) := by
  induction entries with
  | nil => simp [insert]
  | cons head rest ih =>
    obtain ⟨below, tail⟩ := List.pairwise_cons.1 ascending
    -- the key of a later entry is greater than the key of the head
    have beyond : ∀ later ∈ rest, later.1 ≠ head.1 := by
      intro later member equal
      have less := below later member
      simp [equal, Std.ReflOrd.compare_self] at less
    unfold insert
    split
    · rename_i less
      have smaller : ∀ old ∈ head :: rest, old.1 ≠ key := by
        rintro old member rfl
        rcases List.mem_cons.1 member with rfl | later
        · simp [Std.ReflOrd.compare_self] at less
        · have greater := Std.TransCmp.lt_trans less (below _ later)
          simp [Std.ReflOrd.compare_self] at greater
      rw [List.mem_cons]
      constructor
      · rintro (rfl | old)
        · exact .inl rfl
        · exact .inr ⟨old, smaller _ old⟩
      · rintro (rfl | ⟨old, -⟩)
        · exact .inl rfl
        · exact .inr old
    · rename_i same
      obtain rfl := Std.LawfulEqOrd.eq_of_compare same
      simp only [List.mem_cons]
      constructor
      · rintro (rfl | later)
        · exact .inl rfl
        · exact .inr ⟨.inr later, beyond _ later⟩
      · rintro (rfl | ⟨rfl | later, different⟩)
        · exact .inl rfl
        · exact absurd rfl different
        · exact .inr later
    · rename_i greater
      have different : head.1 ≠ key := by
        intro equal
        simp [equal, Std.ReflOrd.compare_self] at greater
      rw [List.mem_cons, List.mem_cons, ih tail]
      constructor
      · rintro (rfl | rfl | ⟨later, other⟩)
        · exact .inr ⟨.inl rfl, different⟩
        · exact .inl rfl
        · exact .inr ⟨.inr later, other⟩
      · rintro (rfl | ⟨rfl | later, other⟩)
        · exact .inr (.inl rfl)
        · exact .inl rfl
        · exact .inr (.inr ⟨later, other⟩)

end Entries

namespace SortedMap

variable {κ α : Type} [Ord κ]

@[simp]
theorem get?_empty (key : κ) : (∅ : SortedMap κ α).get? key = none := rfl

/-- No key stands there twice. -/
theorem nodup_keys [Std.ReflOrd κ] (map : SortedMap κ α) : map.keys.Nodup := by
  rw [keys, List.Nodup, List.pairwise_map]
  apply map.ascending.imp
  intro a b less same
  simp [same, Std.ReflOrd.compare_self] at less

theorem nodup_entries [Std.ReflOrd κ] (map : SortedMap κ α) : map.entries.Nodup :=
  List.Pairwise.of_map Prod.fst (fun _ _ different same => different (congrArg Prod.fst same)) map.nodup_keys

variable [Std.TransOrd κ]

/-- A map is what its entries make. -/
@[simp]
theorem ofPairs_entries (map : SortedMap κ α) : ofPairs map.entries = map :=
  ext_entries (Entries.arrange_of_ascending map.ascending)

/-- A pair that comes after others is inserted into what they make. -/
theorem ofPairs_append (pairs : List (κ × α)) (pair : κ × α) :
    ofPairs (pairs ++ [pair]) = (ofPairs pairs).insert pair.1 pair.2 := by
  apply ext_entries
  exact List.foldl_append

/-- Which keys there are says in which order they stand. -/
theorem keys_eq_of_mem_iff {a b : SortedMap κ α} (same : ∀ key, key ∈ a.keys ↔ key ∈ b.keys) : a.keys = b.keys :=
  Entries.eq_of_mem_iff id (List.pairwise_map.2 a.ascending) (List.pairwise_map.2 b.ascending) same

variable [Std.LawfulEqOrd κ]

theorem get?_eq_some_iff {map : SortedMap κ α} {key : κ} {value : α} :
    map.get? key = some value ↔ (key, value) ∈ map.entries :=
  Entries.find?_eq_some_iff map.ascending

theorem mem_keys_iff {map : SortedMap κ α} {key : κ} : key ∈ map.keys ↔ ∃ value, map.get? key = some value := by
  simp [keys, get?_eq_some_iff]

theorem mem_values_iff {map : SortedMap κ α} {value : α} :
    value ∈ map.values ↔ ∃ key, map.get? key = some value := by
  simp [values, get?_eq_some_iff]

@[simp]
theorem get?_insert_self (map : SortedMap κ α) (key : κ) (value : α) :
    (map.insert key value).get? key = some value := by
  rw [get?_eq_some_iff]
  exact (Entries.mem_insert_iff map.ascending _).2 (.inl rfl)

theorem get?_insert_of_ne (map : SortedMap κ α) {key other : κ} (value : α) (different : other ≠ key) :
    (map.insert key value).get? other = map.get? other := by
  apply Option.ext
  intro found
  rw [get?_eq_some_iff, get?_eq_some_iff]
  change _ ∈ Entries.insert key value map.entries ↔ _
  rw [Entries.mem_insert_iff map.ascending]
  simp [different]

theorem get?_insert [DecidableEq κ] (map : SortedMap κ α) (key other : κ) (value : α) :
    (map.insert key value).get? other = if other = key then some value else map.get? other := by
  split
  · subst other
    exact get?_insert_self map key value
  · exact get?_insert_of_ne map value ‹_›

/-- After insertions one after another, what their pairs make is looked up first. -/
theorem get?_foldl_insert [DecidableEq κ] (map : SortedMap κ α) (pairs : List (κ × α)) (key : κ) :
    (pairs.foldl (fun map pair => map.insert pair.1 pair.2) map).get? key =
      ((ofPairs pairs).get? key).or (map.get? key) := by
  induction pairs using List.reverseRec with
  | nil => rfl
  | append_singleton pairs pair ih =>
    rw [List.foldl_append, List.foldl_cons, List.foldl_nil, ofPairs_append, get?_insert, get?_insert, ih]
    split
    · rfl
    · rfl

/-- Two maps that answer every look-up alike are the same map. -/
theorem ext_get? {a b : SortedMap κ α} (h : ∀ key, a.get? key = b.get? key) : a = b := by
  apply ext_entries
  apply Entries.eq_of_mem_iff Prod.fst a.ascending b.ascending
  rintro ⟨key, value⟩
  rw [← get?_eq_some_iff, ← get?_eq_some_iff, h key]

/-- Up to their order the entries after an insertion are the new one and those of all other keys. -/
theorem entries_insert_perm [DecidableEq κ] (map : SortedMap κ α) (key : κ) (value : α) :
    (map.insert key value).entries.Perm ((key, value) :: map.entries.filter (·.1 ≠ key)) := by
  rw [List.perm_ext_iff_of_nodup (nodup_entries _)]
  · intro entry
    change entry ∈ Entries.insert key value map.entries ↔ _
    rw [Entries.mem_insert_iff map.ascending, List.mem_cons, List.mem_filter, decide_eq_true_eq]
  · exact List.nodup_cons.2 ⟨by simp, map.nodup_entries.filter _⟩

theorem entries_insert_perm_of_none [DecidableEq κ] {map : SortedMap κ α} {key : κ}
    (free : map.get? key = none) (value : α) :
    (map.insert key value).entries.Perm ((key, value) :: map.entries) := by
  have others : map.entries.filter (·.1 ≠ key) = map.entries := by
    refine List.filter_eq_self.2 fun entry there => decide_eq_true ?_
    rintro rfl
    simp [get?_eq_some_iff.2 there] at free
  simpa only [others] using map.entries_insert_perm key value

/-- An insertion under a key that is there replaces one entry. -/
theorem exists_entries_insert_perm [DecidableEq κ] {map : SortedMap κ α} {key : κ} {old : α}
    (found : map.get? key = some old) :
    ∃ others, map.entries.Perm ((key, old) :: others) ∧
      ∀ value, (map.insert key value).entries.Perm ((key, value) :: others) := by
  refine ⟨map.entries.filter (·.1 ≠ key), ?_, map.entries_insert_perm key⟩
  rw [List.perm_ext_iff_of_nodup map.nodup_entries]
  · intro entry
    rw [List.mem_cons, List.mem_filter, decide_eq_true_eq]
    have own : entry.1 = key → (entry ∈ map.entries ↔ entry = (key, old)) := by
      obtain ⟨other, value⟩ := entry
      rintro rfl
      rw [← get?_eq_some_iff, found]
      simp [eq_comm]
    by_cases same : entry.1 = key
    · simp [own same, same]
    · have different : entry ≠ (key, old) := fun equal => same (congrArg Prod.fst equal)
      simp [same, different]
  · exact List.nodup_cons.2 ⟨by simp, map.nodup_entries.filter _⟩

theorem countP_values_insert_of_none [DecidableEq κ] {map : SortedMap κ α} {key : κ}
    (free : map.get? key = none) (p : α → Bool) (value : α) :
    (map.insert key value).values.countP p = map.values.countP p + (p value).toNat := by
  rw [values, ((entries_insert_perm_of_none free value).map _).countP_eq, List.map_cons,
    List.countP_cons, values]
  cases p value <;> rfl

/-- Replacing a value takes what it counted for and adds what the new one counts for. -/
theorem countP_values_insert_of_some [DecidableEq κ] {map : SortedMap κ α} {key : κ} {old : α}
    (found : map.get? key = some old) (p : α → Bool) (value : α) :
    (map.insert key value).values.countP p + (p old).toNat = map.values.countP p + (p value).toNat := by
  obtain ⟨others, before, after⟩ := exists_entries_insert_perm found
  rw [values, values, ((after value).map _).countP_eq, (before.map _).countP_eq]
  simp only [List.map_cons, List.countP_cons]
  cases p value <;> cases p old <;> simp

end SortedMap

end Replica
