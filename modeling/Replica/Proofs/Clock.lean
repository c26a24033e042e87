import Replica.Proofs.Sample
import Mathlib.Data.List.Induction
/-! Stamps rise, however many ask for them at once. A call reads the wall clock, looks at the stamp issued last
and then tries to issue the one due after it, which fails if another call was faster. Whatever calls do in
between, the stamps issued, in the order in which they were, are those of a clock that is asked by one after
another: each is due after the one before. So they rise strictly until the greatest stamp is reached, and from
then on the clock issues the greatest stamp. -/
namespace Replica

namespace StampClock

theorem micros_due (wall last : Stamp) :
    (due wall last).micros = max wall.micros (min (last.micros + 1) Stamp.greatest.micros) := by
  have bound := last.inRange
  have next : last.next.micros = min (last.micros + 1) Stamp.greatest.micros := by
    unfold Stamp.next Stamp.greatest
    split <;> simp only <;> omega
  rw [← next]
  unfold due Stamp.later
  split
  · rename_i later
    replace later : wall.micros < last.next.micros := later
    omega
  · rename_i later
    replace later : ¬wall.micros < last.next.micros := later
    omega

theorem last_le_due (wall last : Stamp) : last ≤ due wall last := by
  have bound : last.micros ≤ Stamp.greatest.micros := Int.le_of_lt_add_one last.inRange.2
  show last.micros ≤ (due wall last).micros
  rw [micros_due]
  omega

/-- Only the greatest stamp can be issued twice. -/
theorem last_lt_due (wall : Stamp) {last : Stamp} (below : last < .greatest) : last < due wall last := by
  replace below : last.micros < Stamp.greatest.micros := below
  show last.micros < (due wall last).micros
  rw [micros_due]
  omega

/-- A later stamp is greater than an earlier one, or both are the greatest. -/
def Rises (early late : Stamp) : Prop := early < late ∨ early = .greatest ∧ late = .greatest

theorem le_greatest (s : Stamp) : s ≤ .greatest := Int.le_of_lt_add_one s.inRange.2

theorem rises_due (wall last : Stamp) : Rises last (due wall last) := by
  by_cases below : last < .greatest
  · exact .inl (last_lt_due wall below)
  · have reached : last = .greatest := Stamp.le_antisymm (le_greatest last) (Int.not_lt.1 below)
    subst reached
    exact .inr ⟨rfl, Stamp.le_antisymm (le_greatest _) (last_le_due wall _)⟩

theorem Rises.of_le {early middle late : Stamp} (first : early ≤ middle) (then_ : Rises middle late) :
    Rises early late := by
  rcases then_ with less | ⟨rfl, rfl⟩
  · exact .inl (Int.lt_of_le_of_lt first less)
  · by_cases below : early < .greatest
    · exact .inl below
    · exact .inr ⟨Stamp.le_antisymm first (Int.not_lt.1 below), rfl⟩

theorem Rises.lt {early late : Stamp} (rises : Rises early late) (below : late < .greatest) :
    early < late := by
  rcases rises with less | ⟨-, rfl⟩
  · exact less
  · exact absurd below (Int.lt_irrefl _)

theorem Rises.le {early late : Stamp} (rises : Rises early late) : early ≤ late := by
  rcases rises with less | ⟨rfl, rfl⟩
  · exact Stamp.le_of_lt less
  · exact Stamp.le_refl _

/-- What rises over a bound can be put behind stamps that rise up to it, and is the bound then. -/
theorem Rises.pairwise_append {α : Type} (stampOf : α → Stamp) {before : List α} {bound : Stamp} {new : α}
    (rises : Rises bound (stampOf new)) (rising : before.Pairwise fun a b => Rises (stampOf a) (stampOf b))
    (top : ∀ a ∈ before, stampOf a ≤ bound) :
    (before ++ [new]).Pairwise (fun a b => Rises (stampOf a) (stampOf b)) ∧
      ∀ a ∈ before ++ [new], stampOf a ≤ stampOf new := by
  constructor
  · refine List.pairwise_append.2 ⟨rising, List.pairwise_singleton _ _, fun a there b now => ?_⟩
    rw [List.mem_singleton.1 now]
    exact rises.of_le (top a there)
  · intro a there
    rcases List.mem_append.1 there with earlier | now
    · exact Stamp.le_trans (top a earlier) rises.le
    · rw [List.mem_singleton.1 now]
      exact Stamp.le_refl _

/-! ### One call after another -/

/-- The stamp issued last, or the floor while there is none. -/
def lastOf (floor : Stamp) (issued : List (Nat × Stamp)) : Stamp := (issued.getLast?.map (·.2)).getD floor

/-- A clock that was asked by one call after another, each at one of its readings of the wall clock, has issued
these stamps and now `last`. -/
inductive Sequential (asked : Nat → Stamp → Prop) (floor : Stamp) : List (Nat × Stamp) → Stamp → Prop where
  | nil : Sequential asked floor [] floor
  | snoc {issued : List (Nat × Stamp)} {last : Stamp} {id : Nat} {wall : Stamp}
      (before : Sequential asked floor issued last) (reading : asked id wall) :
      Sequential asked floor (issued ++ [(id, due wall last)]) (due wall last)

namespace Sequential

variable {asked more : Nat → Stamp → Prop} {floor last : Stamp} {issued : List (Nat × Stamp)}

theorem mono (sequential : Sequential asked floor issued last)
    (still : ∀ id wall, asked id wall → more id wall) : Sequential more floor issued last := by
  induction sequential with
  | nil => exact .nil
  | snoc _ reading ih => exact ih.snoc (still _ _ reading)

theorem last_eq (sequential : Sequential asked floor issued last) : last = lastOf floor issued := by
  cases sequential <;> simp [lastOf]

theorem floor_le (sequential : Sequential asked floor issued last) : floor ≤ last := by
  induction sequential with
  | nil => exact Stamp.le_refl _
  | snoc _ _ ih => exact Stamp.le_trans ih (last_le_due _ _)

/-- Later stamps are greater, and none exceeds the last. -/
theorem rises (sequential : Sequential asked floor issued last) :
    issued.Pairwise (fun a b => Rises a.2 b.2) ∧ ∀ e ∈ issued, e.2 ≤ last := by
  induction sequential with
  | nil => simp
  | snoc _ _ ih => exact (rises_due _ _).pairwise_append Prod.snd ih.1 ih.2

/-- All stamps exceed the floor. -/
theorem floor_rises (sequential : Sequential asked floor issued last) : ∀ e ∈ issued, Rises floor e.2 := by
  induction sequential with
  | nil => simp
  | snoc before _ ih =>
    intro e there
    rcases List.mem_append.1 there with earlier | now
    · exact ih e earlier
    · rw [List.mem_singleton.1 now]
      exact (rises_due _ _).of_le before.floor_le

/-- Each stamp is due at the reading of its own call after the one issued before. -/
theorem due_of_split (sequential : Sequential asked floor issued last) {earlier later : List (Nat × Stamp)}
    {id : Nat} {stamp : Stamp} (split : issued = earlier ++ (id, stamp) :: later) :
    ∃ wall, asked id wall ∧ stamp = due wall (lastOf floor earlier) := by
  induction sequential generalizing later with
  | nil => simp at split
  | @snoc issued last n wall before reading ih =>
    cases later using List.reverseRecOn with
    | nil =>
      obtain ⟨rfl, same⟩ := List.append_inj' split rfl
      obtain ⟨rfl, rfl⟩ : n = id ∧ due wall last = stamp := by simpa using same
      exact ⟨wall, reading, by rw [← before.last_eq]⟩
    | append_singleton later final =>
      rw [← List.cons_append, ← List.append_assoc] at split
      exact ih (List.append_inj' split rfl).1

end Sequential

/-! ### Many calls at once -/

/-- The stamp that a call was issued, if it was. -/
def Call.stamp? : Call → Option Stamp
  | issued stamp => some stamp
  | _ => none

/-- A clock and the calls made to it, each under a number of its own. -/
structure Office where
  /-- The clock. -/
  clock : StampClock
  /-- The calls by number. -/
  calls : SortedMap Nat Call := ∅
  /-- The stamps issued, in the order of issue, each with the number of its call. -/
  issued : List (Nat × Stamp) := []

namespace Office

/-- What can happen next. -/
inductive Move where
  /-- A call, under a number that is free, reads the wall clock. -/
  | ask (id : Nat) (wall : Stamp)
  /-- A call that has no stamp yet makes its next atomic step. -/
  | step (id : Nat)

/-- A clock without calls, whose stamps have to exceed a floor. -/
def opened (floor : Stamp) : Office := { clock := ⟨floor⟩ }

/-- Makes a move. -/
def next (office : Office) : Move → Office
  | .ask id wall =>
    match office.calls.get? id with
    | none => { office with calls := office.calls.insert id (.asking wall) }
    | some _ => office
  | .step id =>
    match office.calls.get? id with
    | none => office
    | some (.issued _) => office
    | some call =>
      let (clock, call) := call.step office.clock
      { clock, calls := office.calls.insert id call
        issued := office.issued ++ (call.stamp?.map (id, ·)).toList }

/-- Makes moves one after another. -/
def run (moves : List Move) (office : Office) : Office := moves.foldl next office

@[simp]
theorem run_append (first second : List Move) (office : Office) :
    run (first ++ second) office = run second (run first office) :=
  List.foldl_append

@[simp]
theorem run_singleton (move : Move) (office : Office) : run [move] office = office.next move := rfl

/-- Everything that a move can do. -/
theorem next_cases (office : Office) (move : Move) :
    office.next move = office ∨
    (∃ id wall, move = .ask id wall ∧ office.calls.get? id = none ∧
      office.next move = { office with calls := office.calls.insert id (.asking wall) }) ∨
    (∃ id wall, move = .step id ∧ (office.calls.get? id = some (.asking wall) ∨
        ∃ seen, office.calls.get? id = some (.trying wall seen) ∧ office.clock.last ≠ seen) ∧
      office.next move =
        { office with calls := office.calls.insert id (.trying wall office.clock.last) }) ∨
    (∃ id wall, move = .step id ∧
      office.calls.get? id = some (.trying wall office.clock.last) ∧
      office.next move =
        { clock := ⟨due wall office.clock.last⟩
          calls := office.calls.insert id (.issued (due wall office.clock.last))
          issued := office.issued ++ [(id, due wall office.clock.last)] }) := by
  cases move with
  | ask id wall =>
    cases found : office.calls.get? id with
    | none => exact .inr (.inl ⟨id, wall, rfl, found, by simp [next, found]⟩)
    | some call => exact .inl (by simp [next, found])
  | step id =>
    cases found : office.calls.get? id with
    | none => exact .inl (by simp [next, found])
    | some call =>
      cases call with
      | asking wall =>
        exact .inr (.inr (.inl ⟨id, wall, rfl, .inl found,
          by simp [next, found, Call.step, Call.stamp?]⟩))
      | trying wall seen =>
        by_cases same : office.clock.last = seen
        · subst same
          exact .inr (.inr (.inr ⟨id, wall, rfl, found, by simp [next, found, Call.step, Call.stamp?]⟩))
        · exact .inr (.inr (.inl ⟨id, wall, rfl, .inr ⟨seen, found, same⟩,
            by simp [next, found, Call.step, Call.stamp?, same]⟩))
      | issued stamp => exact .inl (by simp [next, found])

/-- A move issues at most one stamp more, which is no smaller than the last, and takes none back. -/
theorem exists_issued_next (office : Office) (move : Move) :
    office.clock.last ≤ (office.next move).clock.last ∧
    ∃ later, (office.next move).issued = office.issued ++ later ∧
      ∀ e ∈ later, office.clock.last ≤ e.2 := by
  have unchanged {calls : SortedMap Nat Call} (same : office.next move = { office with calls }) :
      office.clock.last ≤ (office.next move).clock.last ∧
      ∃ later, (office.next move).issued = office.issued ++ later ∧ ∀ e ∈ later, office.clock.last ≤ e.2 := by
    rw [same]
    exact ⟨Stamp.le_refl _, [], by simp, by simp⟩
  rcases office.next_cases move with same | ⟨id, wall, -, -, made⟩ | ⟨id, wall, -, -, made⟩ |
    ⟨id, wall, -, -, made⟩
  · exact unchanged same
  · exact unchanged made
  · exact unchanged made
  · rw [made]
    have on := last_le_due wall office.clock.last
    exact ⟨on, [(id, due wall office.clock.last)], rfl, by simpa using on⟩

/-- What was issued stays, and what is issued later is no smaller. -/
theorem exists_issued_run (moves : List Move) (office : Office) :
    office.clock.last ≤ (run moves office).clock.last ∧
    ∃ later, (run moves office).issued = office.issued ++ later ∧
      ∀ e ∈ later, office.clock.last ≤ e.2 := by
  induction moves generalizing office with
  | nil => exact ⟨Stamp.le_refl _, [], by simp [run], by simp⟩
  | cons move moves ih =>
    obtain ⟨first, now, issued, above⟩ := office.exists_issued_next move
    obtain ⟨further, later, issuedLater, aboveLater⟩ := ih (office.next move)
    refine ⟨Stamp.le_trans first further, now ++ later, ?_, fun e there => ?_⟩
    · rw [← List.append_assoc, ← issued]
      exact issuedLater
    · rcases List.mem_append.1 there with early | late
      · exact above e early
      · exact Stamp.le_trans first (aboveLater e late)

/-- The call under this number began with this reading of the wall clock. -/
def Asked (floor : Stamp) (moves : List Move) (id : Nat) (wall : Stamp) : Prop :=
  ∃ before rest, moves = before ++ .ask id wall :: rest ∧
    (run before (opened floor)).calls.get? id = none

theorem Asked.append {floor : Stamp} {moves : List Move} {id : Nat} {wall : Stamp}
    (asked : Asked floor moves id wall) (more : List Move) : Asked floor (moves ++ more) id wall := by
  obtain ⟨before, rest, rfl, free⟩ := asked
  exact ⟨before, rest ++ more, by simp, free⟩

/-- The stamps issued are those of a clock asked by one call after another, and belong to the calls that have
theirs; the others still go by the reading they began with. -/
structure Orderly (floor : Stamp) (moves : List Move) (office : Office) : Prop where
  sequential : Sequential (Asked floor moves) floor office.issued office.clock.last
  issued_iff : ∀ id stamp, (id, stamp) ∈ office.issued ↔ office.calls.get? id = some (.issued stamp)
  nodup : (office.issued.map (·.1)).Nodup
  asking : ∀ id wall, office.calls.get? id = some (.asking wall) → Asked floor moves id wall
  trying : ∀ id wall seen, office.calls.get? id = some (.trying wall seen) → Asked floor moves id wall

namespace Orderly

variable {floor : Stamp} {moves : List Move} {office : Office}

theorem append (orderly : Orderly floor moves office) (more : List Move) :
    Orderly floor (moves ++ more) office where
  sequential := orderly.sequential.mono fun _ _ asked => asked.append more
  issued_iff := orderly.issued_iff
  nodup := orderly.nodup
  asking id wall found := (orderly.asking id wall found).append more
  trying id wall seen found := (orderly.trying id wall seen found).append more

/-- A call that is going on, or new, has no stamp, and with it nothing is issued. -/
theorem insert_going (orderly : Orderly floor moves office) {id : Nat} {call : Call} {wall : Stamp}
    (going : ∀ stamp, office.calls.get? id ≠ some (.issued stamp))
    (still : call = .asking wall ∨ ∃ seen, call = .trying wall seen) (asked : Asked floor moves id wall) :
    Orderly floor moves { office with calls := office.calls.insert id call } where
  sequential := orderly.sequential
  issued_iff n stamp := by
    rw [orderly.issued_iff, SortedMap.get?_insert]
    split
    · subst n
      rcases still with rfl | ⟨seen, rfl⟩ <;> simp [going]
    · rfl
  nodup := orderly.nodup
  asking n other found := by
    rw [SortedMap.get?_insert] at found
    split at found
    · subst n
      rcases still with rfl | ⟨seen, rfl⟩
      · cases found
        exact asked
      · cases found
    · exact orderly.asking n other found
  trying n other seen found := by
    rw [SortedMap.get?_insert] at found
    split at found
    · subst n
      rcases still with rfl | ⟨seen, rfl⟩
      · cases found
      · cases found
        exact asked
    · exact orderly.trying n other seen found

/-- A call that issues its stamp had none before. -/
theorem insert_issued (orderly : Orderly floor moves office) {id : Nat} {wall : Stamp}
    (found : office.calls.get? id = some (.trying wall office.clock.last)) :
    Orderly floor moves
      { clock := ⟨due wall office.clock.last⟩
        calls := office.calls.insert id (.issued (due wall office.clock.last))
        issued := office.issued ++ [(id, due wall office.clock.last)] } := by
  have new (stamp : Stamp) : (id, stamp) ∉ office.issued := by
    rw [orderly.issued_iff, found]
    simp
  constructor
  · exact .snoc orderly.sequential (orderly.trying id wall _ found)
  · intro n stamp
    rw [List.mem_append, List.mem_singleton, SortedMap.get?_insert]
    split
    · subst n
      simp [new, eq_comm]
    · simp [orderly.issued_iff, *]
  · rw [List.map_append, List.nodup_append]
    refine ⟨orderly.nodup, by simp, fun n there last now => ?_⟩
    obtain ⟨⟨_, stamp⟩, among, rfl⟩ := List.mem_map.1 there
    obtain rfl : last = id := by simpa using now
    rintro rfl
    exact new stamp among
  · intro n other there
    rw [SortedMap.get?_insert] at there
    split at there
    · cases there
    · exact orderly.asking n other there
  · intro n other seen there
    rw [SortedMap.get?_insert] at there
    split at there
    · cases there
    · exact orderly.trying n other seen there

end Orderly

/-- However calls are interleaved, stamps are issued as to one call after another. -/
theorem orderly_run (floor : Stamp) (moves : List Move) :
    Orderly floor moves (run moves (opened floor)) := by
  induction moves using List.reverseRec with
  | nil => constructor <;> simp [run, opened, Sequential.nil]
  | append_singleton moves move ih =>
    rw [run_append, run_singleton]
    have before := ih.append [move]
    rcases (run moves (opened floor)).next_cases move with same | ⟨id, wall, rfl, free, made⟩ |
      ⟨id, wall, rfl, going, made⟩ | ⟨id, wall, rfl, found, made⟩
    · rw [same]
      exact before
    · rw [made]
      exact before.insert_going (by simp [free]) (.inl rfl) ⟨moves, [], by simp, free⟩
    · rw [made]
      rcases going with asking | ⟨seen, trying, -⟩
      · exact before.insert_going (by simp [asking]) (.inr ⟨_, rfl⟩) (before.asking id wall asking)
      · exact before.insert_going (by simp [trying]) (.inr ⟨_, rfl⟩) (before.trying id wall seen trying)
    · rw [made]
      exact before.insert_issued found

/-- A call that nobody comes before in its next two steps has its stamp then. -/
theorem exists_issued_of_alone {office : Office} {id : Nat} {call : Call}
    (found : office.calls.get? id = some call) :
    ∃ stamp, (run [.step id, .step id] office).calls.get? id = some (.issued stamp) := by
  change ∃ stamp, ((office.next (.step id)).next (.step id)).calls.get? id = some (.issued stamp)
  cases call with
  | issued stamp => exact ⟨stamp, by simp [next, found]⟩
  | asking wall =>
    exact ⟨due wall office.clock.last, by simp [next, found, Call.step, SortedMap.get?_insert_self]⟩
  | trying wall seen =>
    refine ⟨due wall office.clock.last, ?_⟩
    by_cases same : office.clock.last = seen
    · simp [next, found, same, Call.step, SortedMap.get?_insert_self]
    · simp [next, found, same, Call.step, SortedMap.get?_insert_self]

/-- A call that begins when another one has its stamp gets a greater one. -/
theorem rises_of_begun_after {floor : Stamp} {before rest : List Move} {id other : Nat} {wall early late : Stamp}
    (free : (run before (opened floor)).calls.get? id = none)
    (earlier : (run before (opened floor)).calls.get? other = some (.issued early))
    (later : (run (before ++ .ask id wall :: rest) (opened floor)).calls.get? id = some (.issued late)) :
    Rises early late := by
  have first := (orderly_run floor before).issued_iff
  have last := orderly_run floor (before ++ .ask id wall :: rest)
  obtain ⟨-, after, issued, -⟩ := exists_issued_run (.ask id wall :: rest) (run before (opened floor))
  rw [← run_append] at issued
  have rising := last.sequential.rises.1
  rw [issued, List.pairwise_append] at rising
  have among := (last.issued_iff id late).2 later
  rw [issued, List.mem_append, first, free] at among
  exact rising.2.2 (other, early) ((first other early).2 earlier) (id, late) (by simpa using among)

/-- Let any number of calls ask a clock, each reading the wall clock, looking at the stamp issued last and trying
to issue its own, in whatever order these steps are made. Every call that has a stamp issued it once, and it is
the greater of its own reading of the wall clock and of the stamp issued before it plus one, which stops at
the greatest. The clock remembers the stamp issued last, which no other exceeds. In the order of issue each stamp
is greater than those before, and all exceed the floor, while the greatest is not reached; then no two are the
same, and a call that began when another had its stamp gets a greater one. Once the clock has reached the
greatest stamp it stays there and issues nothing else. And a call that is left alone for two steps has its
stamp. -/
theorem stamps_rise_strictly {floor : Stamp} {moves : List Move} {office : Office}
    (reached : run moves (opened floor) = office) :
    (∀ id stamp, (id, stamp) ∈ office.issued ↔ office.calls.get? id = some (.issued stamp)) ∧
    (office.issued.map (·.1)).Nodup ∧
    (∀ earlier id stamp later, office.issued = earlier ++ (id, stamp) :: later →
      ∃ wall, Asked floor moves id wall ∧
        stamp.micros =
          max wall.micros (min ((lastOf floor earlier).micros + 1) Stamp.greatest.micros)) ∧
    office.clock.last = lastOf floor office.issued ∧
    (∀ e ∈ office.issued, e.2 ≤ office.clock.last) ∧
    office.issued.Pairwise (fun a b => a.2 < b.2 ∨ a.2 = .greatest ∧ b.2 = .greatest) ∧
    (office.clock.last < .greatest →
      office.issued.Pairwise (fun a b => a.2 < b.2) ∧
      (office.issued.map (·.2)).Nodup ∧
      (∀ e ∈ office.issued, floor < e.2) ∧
      ∀ before id wall rest other early late, moves = before ++ .ask id wall :: rest →
        (run before (opened floor)).calls.get? id = none →
        (run before (opened floor)).calls.get? other = some (.issued early) →
        office.calls.get? id = some (.issued late) → early < late) ∧
    (∀ before rest, moves = before ++ rest →
      (run before (opened floor)).clock.last = .greatest →
      office.clock.last = .greatest ∧
      ∃ later, office.issued = (run before (opened floor)).issued ++ later ∧
        ∀ e ∈ later, e.2 = .greatest) ∧
    (∀ id call, office.calls.get? id = some call →
      ∃ stamp, (run [.step id, .step id] office).calls.get? id = some (.issued stamp)) := by
  subst reached
  have orderly := orderly_run floor moves
  obtain ⟨rising, top⟩ := orderly.sequential.rises
  have above := orderly.sequential.floor_rises
  refine ⟨orderly.issued_iff, orderly.nodup, ?_, orderly.sequential.last_eq, top, rising, ?_, ?_,
    fun id call found => exists_issued_of_alone found⟩
  · intro earlier id stamp later split
    obtain ⟨wall, asked, rfl⟩ := orderly.sequential.due_of_split split
    exact ⟨wall, asked, micros_due wall _⟩
  · intro below
    have under (e : Nat × Stamp) (there : e ∈ (run moves (opened floor)).issued) : e.2 < .greatest :=
      Int.lt_of_le_of_lt (top e there) below
    have strict : (run moves (opened floor)).issued.Pairwise (fun a b => a.2 < b.2) :=
      rising.imp_of_mem fun _ there rises => Rises.lt rises (under _ there)
    refine ⟨strict, ?_, fun e there => (above e there).lt (under e there), ?_⟩
    · rw [List.Nodup, List.pairwise_map]
      refine strict.imp fun {a b} less same => ?_
      rw [same] at less
      exact Int.lt_irrefl _ less
    · rintro before id wall rest other early late rfl free earlier later
      exact (rises_of_begun_after free earlier later).lt (under _ ((orderly.issued_iff id late).2 later))
  · rintro before rest rfl full
    obtain ⟨further, later, issued, least⟩ := exists_issued_run rest (run before (opened floor))
    rw [run_append]
    rw [full] at further least
    exact ⟨Stamp.le_antisymm (le_greatest _) further, later, issued,
      fun e there => Stamp.le_antisymm (le_greatest _) (least e there)⟩

section Samples

open Fixtures

/-- Three calls, of which the second reads an earlier wall clock than the first and is faster; the third begins
when the second has its stamp. -/
def overtaken : List Move :=
  [ .ask 1 (stamp 9), .step 1, .ask 2 (stamp 4), .step 2, .step 2, .ask 3 (stamp 2), .step 1, .step 3,
    .step 1, .step 3, .step 3 ]

theorem stamps_rise_strictly_overtaken :
    (run overtaken (opened (stamp 5)) =
        { clock := ⟨stamp 10⟩
          calls := SortedMap.ofPairs
            [(1, .issued (stamp 9)), (2, .issued (stamp 6)), (3, .issued (stamp 10))]
          issued := [(2, stamp 6), (1, stamp 9), (3, stamp 10)] } ∧
      stamp 10 < .greatest) ∧
    (∃ wall, Asked (stamp 5) overtaken 1 wall ∧
      (stamp 9).micros = max wall.micros (min ((stamp 6).micros + 1) Stamp.greatest.micros)) ∧
    stamp 6 < stamp 10 ∧
    ((run overtaken (opened .greatest)).clock.last = .greatest ∧
      ∀ e ∈ (run overtaken (opened .greatest)).issued, e.2 = .greatest) := by
  have reached : run overtaken (opened (stamp 5)) =
      { clock := ⟨stamp 10⟩
        calls := SortedMap.ofPairs
          [(1, .issued (stamp 9)), (2, .issued (stamp 6)), (3, .issued (stamp 10))]
        issued := [(2, stamp 6), (1, stamp 9), (3, stamp 10)] } := by rfl
  have below : stamp 10 < .greatest := by decide
  obtain ⟨-, -, dues, -, -, -, strict, -, -⟩ := stamps_rise_strictly reached
  obtain ⟨-, -, -, begun⟩ := strict below
  have again : run overtaken (opened .greatest) = run overtaken (opened .greatest) := rfl
  obtain ⟨-, -, -, -, -, -, -, full, -⟩ := stamps_rise_strictly again
  obtain ⟨stays, later, issued, greatest⟩ := full [] overtaken rfl rfl
  refine ⟨⟨reached, below⟩, dues [(2, stamp 6)] 1 _ [(3, stamp 10)] rfl, ?_, stays, ?_⟩
  · exact begun (overtaken.take 5) 3 (stamp 2) (overtaken.drop 6) 2 _ _ rfl rfl rfl rfl
  · rw [issued]
    exact greatest

end Samples

end Office

end StampClock

end Replica
