import Replica.Message.Cbor
import Replica.Proofs.Bytes
import Replica.Proofs.Merge
import Replica.Proofs.Sample
import Mathlib.Data.List.Forall2
import Mathlib.Data.List.Induction
/-! Snapshots, however they were built. Fields are set, left out and collected in any order, and what comes of it
is a finite map in the one form it has: its fields by rising bytes of their names, under each name the value that
was written there last. So two snapshots that answer every look-up alike are one snapshot, and messages that differ
in nothing but how their snapshots were built are written alike. -/
namespace Replica

/-- One of the steps made it so, and all later ones left it so. -/
def Persists {α : Type} (makes leaves : α → Prop) (steps : List α) : Prop :=
  ∃ before step after, steps = before ++ step :: after ∧ makes step ∧ ∀ later ∈ after, leaves later

theorem not_persists_nil {α : Type} {makes leaves : α → Prop} : ¬ Persists makes leaves [] := by
  rintro ⟨before, step, after, split, -⟩
  simp at split

/-- After one more step it is so if that step makes it so, or leaves it so. -/
theorem persists_append {α : Type} {makes leaves : α → Prop} {steps : List α} {last : α} :
    Persists makes leaves (steps ++ [last]) ↔ makes last ∨ Persists makes leaves steps ∧ leaves last := by
  constructor
  · rintro ⟨before, step, after, split, made, left⟩
    cases after using List.reverseRec with
    | nil =>
      obtain ⟨-, same⟩ := List.append_inj' split rfl
      obtain rfl := List.singleton_inj.1 same
      exact .inl made
    | append_singleton after final _ =>
      rw [← List.cons_append, ← List.append_assoc] at split
      obtain ⟨rfl, same⟩ := List.append_inj' split rfl
      obtain rfl := List.singleton_inj.1 same
      simp only [List.mem_append, List.mem_singleton, or_imp, forall_and, forall_eq] at left
      exact .inr ⟨⟨before, step, after, rfl, made, left.1⟩, left.2⟩
  · rintro (made | ⟨⟨before, step, after, rfl, made, left⟩, leaves⟩)
    · exact ⟨steps, last, [], rfl, made, by simp⟩
    · refine ⟨before, step, after ++ [last], by simp, made, ?_⟩
      simpa [or_imp, forall_and] using ⟨left, leaves⟩

namespace SortedMap

variable {κ α : Type} [Ord κ] [Std.TransOrd κ] [Std.LawfulEqOrd κ]

/-- Of several pairs with one key the last is kept. -/
theorem get?_ofPairs_eq_some_iff [DecidableEq κ] {pairs : List (κ × α)} {key : κ} {value : α} :
    (ofPairs pairs).get? key = some value ↔
      Persists (fun pair => pair = (key, value)) (fun pair => pair.1 ≠ key) pairs := by
  induction pairs using List.reverseRec with
  | nil => exact iff_of_false nofun not_persists_nil
  | append_singleton pairs pair ih =>
    obtain ⟨other, given⟩ := pair
    rw [ofPairs_append, get?_insert, persists_append, ← ih, Prod.mk.injEq]
    by_cases same : key = other
    · simp [same]
    · simp [same, Ne.symm same]

/-- Two maps in which what is found is alike under every key, whatever counts as alike, have the same keys with
values that are alike. -/
theorem forall₂_entries {alike : α → α → Prop} {a b : SortedMap κ α}
    (agree : ∀ key, Option.Rel alike (a.get? key) (b.get? key)) :
    List.Forall₂ (fun x y => x.1 = y.1 ∧ alike x.2 y.2) a.entries b.entries := by
  have keys : a.keys = b.keys := by
    apply keys_eq_of_mem_iff
    intro key
    have related := agree key
    rw [mem_keys_iff, mem_keys_iff]
    generalize a.get? key = found, b.get? key = other at related
    cases related <;> simp
  have paired : List.Forall₂ (fun x y => x.1 = y.1) a.entries b.entries := by
    have same : List.Forall₂ Eq (a.entries.map Prod.fst) (b.entries.map Prod.fst) := by
      rw [List.forall₂_eq_eq_eq]
      exact keys
    rwa [List.forall₂_map_left_iff, List.forall₂_map_right_iff] at same
  -- what stands side by side has one key, so that one look-up in each map finds both values
  obtain ⟨length, paired⟩ := List.forall₂_iff_zip.1 paired
  refine List.forall₂_iff_zip.2 ⟨length, fun {x y} beside => ?_⟩
  have same := paired beside
  obtain ⟨inFirst, inSecond⟩ := List.of_mem_zip beside
  have related := agree x.1
  rw [get?_eq_some_iff.2 inFirst, same, get?_eq_some_iff.2 inSecond] at related
  cases related with
  | some related => exact ⟨same, related⟩

end SortedMap

namespace Snapshot

/-- A step in building a snapshot. -/
inductive Edit where
  /-- Sets a field, over any value that it had. -/
  | insert (name : String) (value : Value)
  /-- Leaves out all fields but those with the given names. -/
  | project (names : List String)
  /-- Begins a snapshot with these pairs, in their order. -/
  | collect (pairs : List (String × Value))

namespace Edit

/-- The snapshot after a step. -/
def apply (s : Snapshot) : Edit → Snapshot
  | insert name value => SortedMap.insert s name value
  | project names => Snapshot.project s names
  | collect pairs => SortedMap.ofPairs pairs

/-- The step writes the value under the name. -/
def Writes (name : String) (value : Value) : Edit → Prop
  | insert other given => other = name ∧ given = value
  | project _ => False
  | collect pairs => Persists (fun pair => pair = (name, value)) (fun pair => pair.1 ≠ name) pairs

/-- The step leaves what stands under the name. A snapshot that is begun anew has nothing of an earlier one. -/
def Leaves (name : String) : Edit → Prop
  | insert other _ => other ≠ name
  | project names => name ∈ names
  | collect _ => False

/-- What is found after a step was written by it, or was found before and left there. -/
theorem get?_apply (s : Snapshot) (edit : Edit) (name : String) (value : Value) :
    (edit.apply s).get? name = some value ↔
      edit.Writes name value ∨ s.get? name = some value ∧ edit.Leaves name := by
  cases edit with
  | insert other given =>
    rw [apply, SortedMap.get?_insert]
    by_cases same : name = other
    · simp [Writes, Leaves, same]
    · simp [Writes, Leaves, same, Ne.symm same]
  | project names =>
    rw [apply, get?_project]
    by_cases kept : name ∈ names
    · simp [Writes, Leaves, kept]
    · simp [Writes, Leaves, kept]
  | collect pairs =>
    rw [apply, SortedMap.get?_ofPairs_eq_some_iff]
    simp [Writes, Leaves]

end Edit

/-- The snapshot that is built by these steps. -/
def built (edits : List Edit) : Snapshot := edits.foldl Edit.apply ∅

/-- The value was the last to be written under the name, and no later step took it away. -/
def LastWritten (edits : List Edit) (name : String) (value : Value) : Prop :=
  Persists (Edit.Writes name value) (Edit.Leaves name) edits

/-- One more field of a snapshot beside those gathered, if it has the field. -/
def pick (s gathered : Snapshot) (name : String) : Snapshot :=
  match s.get? name with
  | some value => SortedMap.insert gathered name value
  | none => gathered

/-- The fields with the given names, picked in their order. -/
def gather (s : Snapshot) (names : List String) : Snapshot := names.foldl (pick s) ∅

/-- What a snapshot shows of the steps that built it. -/
structure Shows (s : Snapshot) (edits : List Edit) : Prop where
  /-- The fields come by strictly rising bytes of their names. -/
  rising : s.entries.Pairwise fun a b => Text.utf8 a.1 < Text.utf8 b.1
  /-- No name comes twice. -/
  once : (s.entries.map (·.1)).Nodup
  /-- What comes is what is found. -/
  mem_iff : ∀ name value, (name, value) ∈ s.entries ↔ s.get? name = some value
  /-- What is found is what was written last. -/
  get?_iff : ∀ name value, s.get? name = some value ↔ LastWritten edits name value
  /-- As many fields are counted as come. -/
  size_eq : SortedMap.size s = s.entries.length
  /-- These are as many as there are names under which something is found. -/
  length_eq : ∀ names : List String, names.Nodup → (∀ name, name ∈ names ↔ ∃ value, s.get? name = some value) →
    s.entries.length = names.length

/-- Projections of a snapshot go by nothing but which names they are made for. -/
structure ProjectsByName (s : Snapshot) : Prop where
  /-- The fields may be picked one by one. -/
  gather_eq : ∀ names, gather s names = project s names
  /-- Order and repetition of the names do not matter. -/
  congr : ∀ names others : List String, (∀ name, name ∈ names ↔ name ∈ others) → project s names = project s others
  /-- Two projections leave the fields that have their names in both. -/
  twice : ∀ names others both : List String, (∀ name, name ∈ both ↔ name ∈ names ∧ name ∈ others) →
    project (project s names) others = project s both
  /-- What was projected once stays as it is. -/
  again : ∀ names, project (project s names) names = project s names

@[simp]
theorem built_append (edits : List Edit) (edit : Edit) : built (edits ++ [edit]) = edit.apply (built edits) :=
  List.foldl_append

theorem lastWritten_append {edits : List Edit} {edit : Edit} {name : String} {value : Value} :
    LastWritten (edits ++ [edit]) name value ↔
      edit.Writes name value ∨ LastWritten edits name value ∧ edit.Leaves name :=
  persists_append

/-- What is found is what was written last. The induction takes the steps from the end, since the last one that
concerns the name decides. -/
theorem get?_built (edits : List Edit) (name : String) (value : Value) :
    (built edits).get? name = some value ↔ LastWritten edits name value := by
  induction edits using List.reverseRec with
  | nil => exact iff_of_false nofun not_persists_nil
  | append_singleton edits edit ih => rw [built_append, Edit.get?_apply, lastWritten_append, ih]

theorem shows_built (edits : List Edit) : (built edits).Shows edits where
  rising := (built edits).ascending.imp Text.compare_eq_lt_iff.1
  once := (built edits).nodup_keys
  mem_iff _ _ := SortedMap.get?_eq_some_iff.symm
  get?_iff := get?_built edits
  size_eq := rfl
  length_eq names nodup there := by
    have members : names.Perm (built edits).keys := by
      rw [List.perm_ext_iff_of_nodup nodup (built edits).nodup_keys]
      simpa only [SortedMap.mem_keys_iff] using there
    rw [members.length_eq, SortedMap.keys, List.length_map]

/-- Laying one snapshot over another is setting its fields one by one. -/
theorem overlay_built (edits : List Edit) (newer : Snapshot) :
    overlay (built edits) newer = built (edits ++ newer.entries.map fun field => .insert field.1 field.2) := by
  simp only [built, List.foldl_append, List.foldl_map]
  rfl

/-- Two projections leave the fields that have their names in both. -/
theorem project_project (s : Snapshot) {names others both : List String}
    (inBoth : ∀ name, name ∈ both ↔ name ∈ names ∧ name ∈ others) :
    project (project s names) others = project s both := by
  apply SortedMap.ext_get?
  intro name
  by_cases first : name ∈ names
  · simp [get?_project, inBoth, first]
  · simp [get?_project, inBoth, first]

theorem get?_pick (s gathered : Snapshot) (name other : String) :
    (pick s gathered other).get? name =
      if name = other then (s.get? name).or (gathered.get? name) else gathered.get? name := by
  by_cases same : name = other
  · subst other
    cases found : s.get? name with
    | none => simp [pick, found]
    | some value => simp [pick, found]
  · cases found : s.get? other with
    | none => simp [pick, found, same]
    | some value => simp [pick, found, same, SortedMap.get?_insert]

/-- A field that is picked again is the same. -/
theorem get?_foldl_pick (s gathered : Snapshot) (names : List String) (name : String) :
    SortedMap.get? (names.foldl (pick s) gathered) name =
      if name ∈ names then (s.get? name).or (gathered.get? name) else gathered.get? name := by
  induction names generalizing gathered with
  | nil => rfl
  | cons first rest ih =>
    rw [List.foldl_cons, ih, get?_pick]
    by_cases same : name = first
    · simp [same, ← Option.or_assoc]
    · simp [same]

/-- Picking field by field comes to the projection. -/
theorem gather_eq_project (s : Snapshot) (names : List String) : gather s names = project s names := by
  apply SortedMap.ext_get?
  intro name
  rw [gather, get?_foldl_pick, get?_project, SortedMap.get?_empty, Option.or_none]

theorem projectsByName (s : Snapshot) : s.ProjectsByName where
  gather_eq := gather_eq_project s
  congr names others same := by
    apply SortedMap.ext_get?
    intro name
    simp only [get?_project, same]
  twice names others both inBoth := project_project s inBoth
  again names := project_project s fun name => (and_self_iff).symm

/-- Snapshots are finite maps in canonical form. Whatever steps built one, it lists its fields by strictly rising
bytes of their names, and finds under each name the value that was written there last unless a later projection left
the name out. Projections go by which names they are made for, and laying a snapshot over another is setting its
fields one by one. Two snapshots, built in whatever ways, in which the values found under each name are alike, in any
sense of the word, list the same names with values that are alike; and if the same values are found they are the same
snapshot, and a message is written with the one as it is with the other. -/
theorem built_canonical (edits others : List Edit) :
    (built edits).Shows edits ∧ (built edits).ProjectsByName ∧
    (∀ newer, overlay (built edits) newer =
      built (edits ++ newer.entries.map fun field => .insert field.1 field.2)) ∧
    (∀ alike : Value → Value → Prop,
      (∀ name, Option.Rel alike ((built edits).get? name) ((built others).get? name)) →
      List.Forall₂ (fun a b => a.1 = b.1 ∧ alike a.2 b.2) (built edits).entries (built others).entries) ∧
    ((∀ name, (built edits).get? name = (built others).get? name) →
      built edits = built others ∧
      ∀ m : Message,
        { m with snapshot := built edits }.encode = { m with snapshot := built others }.encode ∧
        { m with snapshot := built edits }.toJson = { m with snapshot := built others }.toJson) := by
  refine ⟨shows_built edits, projectsByName _, overlay_built edits, fun alike => SortedMap.forall₂_entries, ?_⟩
  intro agree
  have same : built edits = built others := SortedMap.ext_get? agree
  refine ⟨same, fun m => ?_⟩
  rw [same]
  exact ⟨rfl, rfl⟩

section Samples

open Fixtures

/-- Fields are set one by one, one of them anew after it was left out. One name begins another, and one has a letter
beyond ASCII. -/
def piecemeal : List Edit :=
  [.insert "état" (.str "offen"), .insert "zip" (.str "1010"), .insert "name" (.str "Acme"),
    .project ["name", "état", "absent", "name"], .insert "zip" (.str "2020"), .insert "na" .null]

/-- The same fields at one time, one of them twice. -/
def atOnce : List Edit :=
  [.collect [("zip", .str "1010"), ("na", .null), ("zip", .str "2020"), ("name", .str "Acme"), ("état", .str "offen")]]

theorem built_canonical_piecemeal :
    (∀ name, (built piecemeal).get? name = (built atOnce).get? name) ∧
    (built piecemeal).entries.map (·.1) = ["na", "name", "zip", "état"] ∧
    LastWritten piecemeal "zip" (.str "2020") ∧ ¬ LastWritten piecemeal "zip" (.str "1010") ∧
    project (project (built piecemeal) ["état", "zip", "na"]) ["name", "zip", "zip", "état"] =
      project (built piecemeal) ["zip", "état"] ∧
    (acmeUpdated (built piecemeal) (stamp 2)).encode = (acmeUpdated (built atOnce) (stamp 2)).encode ∧
    (acmeUpdated (built piecemeal) (stamp 2)).toJson = (acmeUpdated (built atOnce) (stamp 2)).toJson := by
  have agree : ∀ name, (built piecemeal).get? name = (built atOnce).get? name := by
    intro name
    have listed : (built piecemeal).entries = (built atOnce).entries := rfl
    exact congrArg (Entries.find? name) listed
  obtain ⟨shows, projects, -, -, same⟩ := built_canonical piecemeal atOnce
  have zip : (built piecemeal).get? "zip" = some (.str "2020") := rfl
  refine ⟨agree, rfl, (shows.get?_iff _ _).1 zip, ?_, ?_, (same agree).2 (acmeUpdated ∅ (stamp 2))⟩
  · intro written
    rw [(shows.get?_iff _ _).2 written] at zip
    exact absurd (Option.some.inj zip) (by decide)
  · apply projects.twice
    intro name
    simp only [List.mem_cons, List.not_mem_nil, or_false]
    grind

end Samples

end Snapshot

end Replica
