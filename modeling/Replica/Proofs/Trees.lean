import Replica.Cbor.Reader
import Replica.Proofs.Floats
/-! Trees as bytes, and read back. A tree comes back as it was if its containers do not nest deeper than the
reader goes and its names are not longer than names may be; whatever follows it stays as it is. -/
namespace Replica

namespace Json

mutual

/-- How deep containers nest. -/
def depth : Json → Nat
  | arr items => depthItems items + 1
  | obj members => depthMembers members + 1
  | _ => 0

/-- How deep containers nest in any tree of a list. -/
def depthItems : List Json → Nat
  | [] => 0
  | item :: rest => max (depth item) (depthItems rest)

/-- How deep containers nest in any member's tree. -/
def depthMembers : List (String × Json) → Nat
  | [] => 0
  | (_, item) :: rest => max (depth item) (depthMembers rest)

end

mutual

/-- Whether all names of members are at most as long as names may be. -/
def hasShortNames : Json → Bool
  | arr items => hasShortNamesItems items
  | obj members => hasShortNamesMembers members
  | _ => true

/-- Whether all names in all trees of a list are short. -/
def hasShortNamesItems : List Json → Bool
  | [] => true
  | item :: rest => hasShortNames item && hasShortNamesItems rest

/-- Whether the names of some members and all names in their trees are short. -/
def hasShortNamesMembers : List (String × Json) → Bool
  | [] => true
  | (name, item) :: rest =>
    decide ((Text.utf8 name).length ≤ Cbor.nameLimit) && hasShortNames item && hasShortNamesMembers rest

end

end Json

namespace Cbor

/-! ### Texts -/

theorem typedHeader_of_header {bs rest : List UInt8} {h : Header} (read : header bs = .ok (h, rest))
    (bare : ∀ n, h ≠ .tag n) : typedHeader bs = .ok (h, rest) := by
  unfold typedHeader untagged
  simp only [read, bind, Except.bind]
  cases h with
  | tag n => exact absurd rfl (bare n)
  | _ => rfl

theorem typedHeader_head {major n : Nat} (kind : major < 6) (fits : n < 2 ^ 64) (rest : List UInt8) :
    typedHeader (head major n ++ rest) = .ok (.plain major n, rest) := by
  refine typedHeader_of_header (header_head kind fits rest) fun k => ?_
  match major, kind with
  | 0, _ | 1, _ | 2, _ | 3, _ | 4, _ | 5, _ => simp [Header.plain]

theorem definiteText_utf8 (s : String) (rest : List UInt8) :
    definiteText (Text.utf8 s).length (Text.utf8 s ++ rest) = .ok (s, rest) := by
  unfold definiteText
  rw [take_append]
  simp [bind, Except.bind, pure, Except.pure]

section Texts

variable {s : String} (fits : (Text.utf8 s).length < 2 ^ 64) (rest : List UInt8)

include fits

theorem typedHeader_ofText :
    typedHeader (ofText s ++ rest) = .ok (.text (some (Text.utf8 s).length), Text.utf8 s ++ rest) := by
  rw [ofText, List.append_assoc]
  exact typedHeader_head (by decide) fits _

theorem typedText_ofText (expected : String) : typedText expected (ofText s ++ rest) = .ok (s, rest) := by
  unfold typedText
  rw [typedHeader_ofText fits]
  exact definiteText_utf8 s rest

end Texts

section Names

variable {s : String} (short : (Text.utf8 s).length ≤ nameLimit) (rest : List UInt8)

include short

theorem lt_of_short : (Text.utf8 s).length < 2 ^ 64 := by
  unfold nameLimit at short
  omega

theorem shortText_ofText (expected : String) : shortText expected (ofText s ++ rest) = .ok (s, rest) := by
  unfold shortText
  rw [typedHeader_ofText (lt_of_short short)]
  simp only [bind, Except.bind, short, if_true]
  exact definiteText_utf8 s rest

theorem name_ofText : name (ofText s ++ rest) = .ok (.text s, rest) := by
  unfold name
  rw [typedHeader_ofText (lt_of_short short)]
  simp only [bind, Except.bind, short, if_true, definiteText_utf8]
  rfl

theorem memberName_ofText (first : Bool) : memberName first (ofText s ++ rest) = .ok (s, rest) := by
  unfold memberName
  cases first with
  | true => exact shortText_ofText short rest _
  | false => exact typedText_ofText (lt_of_short short) rest _

/-- One of a few names is picked by its text. -/
theorem choice_ofText {α : Type} {depth : Nat} (room : depth ≠ 0) {options : List (String × α)} {a : α}
    (found : options.find? (fun option => s == option.1) = some (s, a)) :
    choice depth options (ofText s ++ rest) = .ok (a, rest) := by
  unfold choice
  rw [typedHeader_ofText (lt_of_short short)]
  simp only [bind, Except.bind, short, if_true, definiteText_utf8, room, if_false, Name.is, found]

end Names

/-! ### Rows -/

theorem length_head_pos (major n : Nat) : 0 < (head major n).length := by
  unfold head
  split
  · exact Nat.one_pos
  split
  · exact Nat.succ_pos _
  split
  · exact Nat.succ_pos _
  split <;> exact Nat.succ_pos _

theorem length_ofTree_pos (item : Json) : 0 < (ofTree item).length := by
  have headed (major n : Nat) (bs : List UInt8) : 0 < (head major n ++ bs).length := by
    have some_ := length_head_pos major n
    simp only [List.length_append]
    omega
  unfold ofTree
  split
  · exact Nat.one_pos
  · exact Nat.one_pos
  · unfold ofInt
    split <;> exact length_head_pos _ _
  · unfold ofFloat
    split
    · exact Nat.succ_pos _
    split <;> exact Nat.succ_pos _
  · exact headed ..
  · exact headed ..
  · exact headed ..

theorem length_le_ofTrees (items : List Json) : items.length ≤ (ofTrees items).length := by
  induction items with
  | nil => exact Nat.zero_le _
  | cons item rest ih =>
    have some_ := length_ofTree_pos item
    simp only [ofTrees, List.length_cons, List.length_append]
    omega

theorem length_le_ofMembers (members : List (String × Json)) :
    members.length ≤ (ofMembers members).length := by
  induction members with
  | nil => exact Nat.zero_le _
  | cons member rest ih =>
    obtain ⟨name, item⟩ := member
    have some_ := length_ofTree_pos item
    simp only [ofMembers, List.length_cons, List.length_append]
    omega

theorem length_le_of_mem_ofMembers {member : String × Json} {members : List (String × Json)}
    (there : member ∈ members) :
    (Text.utf8 member.1).length + (ofTree member.2).length ≤ (ofMembers members).length := by
  induction members with
  | nil => exact absurd there List.not_mem_nil
  | cons first rest ih =>
    simp only [ofMembers, ofText, List.length_append]
    rcases List.mem_cons.1 there with rfl | later
    · omega
    · have within := ih later
      omega

theorem ofTrees_eq_flatMap (items : List Json) : ofTrees items = items.flatMap ofTree := by
  induction items with
  | nil => rfl
  | cons item items ih => rw [ofTrees, ih, List.flatMap_cons]

theorem ofMembers_eq_flatMap (members : List (String × Json)) :
    ofMembers members = members.flatMap fun member => ofText member.1 ++ ofTree member.2 := by
  induction members with
  | nil => rfl
  | cons member members ih => rw [ofMembers, ih, List.flatMap_cons]

/-- Trees in a row are read one after another. -/
theorem times_ofTrees {read : Reader Json} {items : List Json}
    (reads : ∀ item ∈ items, ∀ rest, read (ofTree item ++ rest) = .ok (item, rest)) (rest : List UInt8) :
    times read items.length (ofTrees items ++ rest) = .ok (items, rest) := by
  induction items with
  | nil => rfl
  | cons item items ih =>
    obtain ⟨first, later⟩ := List.forall_mem_cons.1 reads
    simp only [List.length_cons, times, ofTrees, List.append_assoc, first, bind, Except.bind, ih later]
    rfl

/-- Reads one member. -/
def memberWith (name : Reader String) (read : Reader Json) : Reader (String × Json) := fun bs => do
  let (name, bs) ← name bs
  let (item, bs) ← read bs
  return ((name, item), bs)

/-- Members in a row are read one after another. -/
theorem members_ofMembers {name : (first : Bool) → Reader String} {read : Reader Json}
    {row : List (String × Json)}
    (names : ∀ member ∈ row, ∀ first rest, name first (ofText member.1 ++ rest) = .ok (member.1, rest))
    (reads : ∀ member ∈ row, ∀ rest, read (ofTree member.2 ++ rest) = .ok (member.2, rest))
    (rest : List UInt8) :
    members name read (some row.length) (ofMembers row ++ rest) = .ok (row, rest) := by
  have one (member : String × Json) (there : member ∈ row) (first : Bool) (rest : List UInt8) :
      memberWith (name first) read (ofText member.1 ++ (ofTree member.2 ++ rest)) = .ok (member, rest) := by
    simp only [memberWith, names member there, reads member there, bind, Except.bind]
    rfl
  have more (later : List (String × Json)) (among : ∀ member ∈ later, member ∈ row) :
      times (memberWith (name false) read) later.length (ofMembers later ++ rest) = .ok (later, rest) := by
    induction later with
    | nil => rfl
    | cons member later ih =>
      obtain ⟨first, others⟩ := List.forall_mem_cons.1 among
      have taken := one member first false (ofMembers later ++ rest)
      simp only [List.length_cons, times, ofMembers, List.append_assoc, taken, bind, Except.bind,
        ih others]
      rfl
  cases row with
  | nil => rfl
  | cons member later =>
    have taken := one member List.mem_cons_self true (ofMembers later ++ rest)
    have others := more later fun _ => List.mem_cons_of_mem _
    change (memberWith (name true) read (ofMembers (member :: later) ++ rest) >>= fun head =>
      times (memberWith (name false) read) later.length head.2 >>= fun others =>
        pure (head.1 :: others.1, others.2)) = _
    simp only [ofMembers, List.append_assoc, taken, bind, Except.bind, others]
    rfl

/-! ### Trees -/

theorem header_ofInt {n : Int} (fits : -9223372036854775808 ≤ n ∧ n < 18446744073709551616)
    (rest : List UInt8) :
    header (ofInt n ++ rest) = .ok (if 0 ≤ n then .positive n.toNat else .negative (-1 - n).toNat, rest) := by
  unfold ofInt
  split
  · exact header_head (by decide) (by omega) rest
  · exact header_head (by decide) (by omega) rest

theorem header_ofBool (b : Bool) (rest : List UInt8) :
    header (ofBool b ++ rest) = .ok (.simple (if b then 21 else 20), rest) := by
  have made (first : UInt8) (short : argumentWidth (first.toNat % 32) = some 0) :=
    header_cons first [] short rest
  cases b with
  | true => exact made 0xf5 rfl
  | false => exact made 0xf4 rfl

section Scalars

variable (inner : Option (Reader Json)) (rest : List UInt8)

theorem treeWith_null : treeWith inner (ofTree .null ++ rest) = .ok (.null, rest) := by
  have read : header ([0xf6] ++ rest) = .ok (.simple 22, rest) :=
    header_cons 0xf6 [] rfl rest
  unfold treeWith
  rw [ofTree, read]
  rfl

theorem treeWith_bool (b : Bool) : treeWith inner (ofTree (.bool b) ++ rest) = .ok (.bool b, rest) := by
  unfold treeWith
  rw [ofTree, header_ofBool]
  cases b <;> rfl

theorem intTree_of_inRange {n : Int} (inRange : -9223372036854775808 ≤ n ∧ n < 18446744073709551616) :
    intTree n = .ok (.num (.int n inRange)) := by
  unfold intTree Json.ofInt?
  rw [dif_pos inRange]

theorem bind_pair {ε α β : Type} (made : Except ε α) (rest : β) :
    (do return (← made, rest) : Except ε (α × β)) = made.map (·, rest) := by
  cases made <;> rfl

/-- The value of a whole number, from its head on. -/
theorem treeWith_whole {bs : List UInt8} (n : Nat) :
    (header bs = .ok (.positive n, rest) → treeWith inner bs = (intTree n).map (·, rest)) ∧
      (header bs = .ok (.negative n, rest) → treeWith inner bs = (intTree (-1 - n)).map (·, rest)) := by
  -- the bounds of whole numbers are too great to be unfolded, so they are put out of sight
  obtain ⟨whole, same⟩ : ∃ whole, whole = intTree := ⟨_, rfl⟩
  unfold treeWith
  rw [← same]
  constructor <;> intro read <;> rw [read] <;> exact bind_pair (whole _) rest

theorem treeWith_num (n : Json.Number) : treeWith inner (ofTree (.num n) ++ rest) = .ok (.num n, rest) := by
  cases n with
  | int n inRange =>
    have read := header_ofInt inRange rest
    rw [ofTree]
    by_cases positive : 0 ≤ n
    · rw [if_pos positive] at read
      rw [(treeWith_whole inner rest _).1 read, Int.toNat_of_nonneg positive, intTree_of_inRange inRange]
      rfl
    · have same : -1 - (((-1 - n).toNat : Nat) : Int) = n := by omega
      rw [if_neg positive] at read
      rw [(treeWith_whole inner rest _).2 read, same, intTree_of_inRange inRange]
      rfl
  | float x =>
    unfold treeWith
    rw [ofTree, header_ofFloat]
    rfl

theorem treeWith_str {s : String} (fits : (Text.utf8 s).length < 2 ^ 64) :
    treeWith inner (ofTree (.str s) ++ rest) = .ok (.str s, rest) := by
  unfold treeWith
  rw [ofTree, ofText, List.append_assoc, header_head (by decide) fits]
  simp only [Header.plain, bind, Except.bind, textBody, definiteText_utf8]
  rfl

end Scalars

mutual

/-- A tree comes back as it was. -/
theorem tree_ofTree (item : Json) {depth : Nat} (fits : (ofTree item).length < 2 ^ 64)
    (shallow : item.depth ≤ depth) (short : item.hasShortNames = true) (rest : List UInt8) :
    tree depth (ofTree item ++ rest) = .ok (item, rest) := by
  obtain ⟨inner, scalar⟩ : ∃ inner, tree depth = treeWith inner := by
    cases depth <;> exact ⟨_, rfl⟩
  match item with
  | .null => rw [scalar, treeWith_null]
  | .bool b => rw [scalar, treeWith_bool]
  | .num n => rw [scalar, treeWith_num]
  | .str s =>
    rw [scalar, treeWith_str]
    simp only [ofTree, ofText, List.length_append] at fits
    omega
  | .arr items =>
    simp only [Json.depth] at shallow
    simp only [ofTree, List.length_append] at fits
    have count := length_le_ofTrees items
    obtain ⟨depth, rfl⟩ : ∃ inside, depth = inside + 1 := ⟨depth - 1, by omega⟩
    have read := times_ofTrees (tree_ofItems items (by omega) (Nat.le_of_succ_le_succ shallow) short) rest
    unfold tree treeWith
    rw [ofTree, List.append_assoc, header_head (by decide) (by omega)]
    simp only [Header.plain, bind, Except.bind, row, read]
    rfl
  | .obj members =>
    simp only [Json.depth] at shallow
    simp only [ofTree, List.length_append] at fits
    have count := length_le_ofMembers members
    obtain ⟨depth, rfl⟩ : ∃ inside, depth = inside + 1 := ⟨depth - 1, by omega⟩
    have all := tree_ofMembers members (by omega) (Nat.le_of_succ_le_succ shallow) short
    have read := members_ofMembers (fun member there => (all member there).1)
      (fun member there => (all member there).2) rest
    unfold tree treeWith
    rw [ofTree, List.append_assoc, header_head (by decide) (by omega)]
    simp only [Header.plain, bind, Except.bind, read]
    rfl

theorem tree_ofItems (items : List Json) {depth : Nat} (fits : (ofTrees items).length < 2 ^ 64)
    (shallow : Json.depthItems items ≤ depth) (short : Json.hasShortNamesItems items = true) :
    ∀ item ∈ items, ∀ rest, tree depth (ofTree item ++ rest) = .ok (item, rest) := by
  match items with
  | [] => simp
  | item :: items =>
    simp only [ofTrees, List.length_append] at fits
    simp only [Json.depthItems] at shallow
    simp only [Json.hasShortNamesItems, Bool.and_eq_true] at short
    exact List.forall_mem_cons.2
      ⟨tree_ofTree item (by omega) (by omega) short.1, tree_ofItems items (by omega) (by omega) short.2⟩

theorem tree_ofMembers (members : List (String × Json)) {depth : Nat}
    (fits : (ofMembers members).length < 2 ^ 64) (shallow : Json.depthMembers members ≤ depth)
    (short : Json.hasShortNamesMembers members = true) :
    ∀ member ∈ members, (∀ first rest, memberName first (ofText member.1 ++ rest) = .ok (member.1, rest)) ∧
      ∀ rest, tree depth (ofTree member.2 ++ rest) = .ok (member.2, rest) := by
  match members with
  | [] => simp
  | (name, item) :: members =>
    simp only [ofMembers, List.length_append] at fits
    simp only [Json.depthMembers] at shallow
    simp only [Json.hasShortNamesMembers, Bool.and_eq_true, decide_eq_true_eq] at short
    exact List.forall_mem_cons.2
      ⟨⟨fun first rest => memberName_ofText short.1.1 rest first,
        tree_ofTree item (by omega) (by omega) short.1.2⟩,
        tree_ofMembers members (by omega) (by omega) short.2⟩

end

end Cbor

end Replica
