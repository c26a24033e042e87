/-! Finite maps held as their entries in strictly ascending key order. The order is part of the
value, so two maps that answer every look-up alike are the same value, and iteration needs no
sorting. Inserting replaces, so the last value given for a key is the one found. -/
namespace Replica

/-- Keys rise strictly from each entry to all later ones. -/
abbrev Ascending {κ α : Type} [Ord κ] (entries : List (κ × α)) : Prop :=
  entries.Pairwise fun a b => compare a.1 b.1 = .lt

namespace Entries

variable {κ α : Type} [Ord κ]

/-- Puts a value at its place among ascending entries, over any value of the same key. -/
def insert (key : κ) (value : α) : List (κ × α) → List (κ × α)
  | [] => [(key, value)]
  | entry :: rest =>
    match compare key entry.1 with
    | .lt => (key, value) :: entry :: rest
    | .eq => (key, value) :: rest
    | .gt => entry :: insert key value rest

/-- The value held under a key. -/
def find? (key : κ) : List (κ × α) → Option α
  | [] => none
  | entry :: rest =>
    match compare key entry.1 with
    | .lt => none
    | .eq => some entry.2
    | .gt => find? key rest

/-- Arranges pairs in any order, the last of several with one key winning. -/
def arrange (pairs : List (κ × α)) : List (κ × α) :=
  pairs.foldl (fun entries pair => insert pair.1 pair.2 entries) []

theorem fst_of_mem_insert {key : κ} {value : α} {entries : List (κ × α)} {entry : κ × α}
    (member : entry ∈ insert key value entries) :
    entry = (key, value) ∨ entry ∈ entries := by
  induction entries with
  | nil => simpa [insert] using member
  | cons head rest ih =>
    unfold insert at member
    split at member
    · simpa using member
    · rcases List.mem_cons.1 member with h | h
      · exact .inl h
      · exact .inr (List.mem_cons_of_mem _ h)
    · rcases List.mem_cons.1 member with h | h
      · exact .inr (h ▸ List.mem_cons_self)
      · rcases ih h with h | h
        · exact .inl h
        · exact .inr (List.mem_cons_of_mem _ h)

variable [Std.TransOrd κ]

/-- Inserting keeps the order. -/
theorem ascending_insert (key : κ) (value : α) {entries : List (κ × α)}
    (ascending : Ascending entries) : Ascending (insert key value entries) := by
  induction entries with
  | nil => simp [insert]
  | cons head rest ih =>
    obtain ⟨below, tail⟩ := List.pairwise_cons.1 ascending
    unfold insert
    split
    · rename_i less
      refine List.pairwise_cons.2 ⟨fun entry member => ?_, ascending⟩
      rcases List.mem_cons.1 member with rfl | h
      · exact less
      · exact Std.TransCmp.lt_trans less (below _ h)
    · rename_i same
      refine List.pairwise_cons.2 ⟨fun entry member => ?_, tail⟩
      exact Std.TransCmp.lt_of_eq_of_lt same (below _ member)
    · rename_i greater
      refine List.pairwise_cons.2 ⟨fun entry member => ?_, ih tail⟩
      rcases fst_of_mem_insert member with rfl | h
      · exact Std.OrientedCmp.lt_of_gt greater
      · exact below _ h

/-- Arranged pairs are in order. -/
theorem ascending_arrange (pairs : List (κ × α)) : Ascending (arrange pairs) := by
  suffices ∀ entries : List (κ × α), Ascending entries →
      Ascending (pairs.foldl (fun entries pair => insert pair.1 pair.2 entries) entries) from
    this [] List.Pairwise.nil
  induction pairs with
  | nil => exact fun _ h => h
  | cons pair rest ih => exact fun entries h => ih _ (ascending_insert _ _ h)

end Entries

/-- A finite map from `κ` to `α`, as its entries in ascending key order. -/
structure SortedMap (κ α : Type) [Ord κ] where
  /-- The pairs of key and value. -/
  entries : List (κ × α)
  /-- Keys rise strictly. -/
  ascending : Ascending entries

namespace SortedMap

variable {κ α : Type} [Ord κ]

@[ext]
theorem ext_entries {a b : SortedMap κ α} (h : a.entries = b.entries) : a = b := by
  cases a; cases b; simpa using h

instance [DecidableEq κ] [DecidableEq α] : DecidableEq (SortedMap κ α) := fun a b =>
  decidable_of_iff (a.entries = b.entries) ⟨ext_entries, fun h => h ▸ rfl⟩

/-- The map without entries. -/
def empty : SortedMap κ α := ⟨[], List.Pairwise.nil⟩

instance : EmptyCollection (SortedMap κ α) := ⟨empty⟩
instance : Inhabited (SortedMap κ α) := ⟨empty⟩

/-- The value under a key, if there is one. -/
def get? (map : SortedMap κ α) (key : κ) : Option α := Entries.find? key map.entries

/-- Whether the key has a value. -/
def contains (map : SortedMap κ α) (key : κ) : Bool := (map.get? key).isSome

/-- The keys, ascending. -/
def keys (map : SortedMap κ α) : List κ := map.entries.map (·.1)

/-- The values, by ascending key. -/
def values (map : SortedMap κ α) : List α := map.entries.map (·.2)

/-- The number of keys. -/
def size (map : SortedMap κ α) : Nat := map.entries.length

/-- Whether there is no key. -/
def isEmpty (map : SortedMap κ α) : Bool := map.entries.isEmpty

variable [Std.TransOrd κ]

/-- Sets the value of a key. -/
def insert (map : SortedMap κ α) (key : κ) (value : α) : SortedMap κ α :=
  ⟨Entries.insert key value map.entries, Entries.ascending_insert key value map.ascending⟩

/-- Collects pairs, the last of several with one key winning. -/
def ofPairs (pairs : List (κ × α)) : SortedMap κ α :=
  ⟨Entries.arrange pairs, Entries.ascending_arrange pairs⟩

end SortedMap

end Replica
