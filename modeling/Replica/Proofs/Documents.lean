import Replica.Proofs.Numerals
import Replica.Proofs.Trees
/-! JSON texts of trees, read back and skipped. A compact text is taken up to its end and no further,
whatever stands in its strings; a tree of whole numbers comes back as it was, if its containers do not nest
deeper than the reader goes. -/
namespace Replica.Json

/-! ### Strings -/

/-- Reads one more character before the rest of a string. -/
def prepend (c : Char) (read : Except Fault (List Char × List Char)) : Except Fault (List Char × List Char) := do
  let (text, rest) ← read
  return (c :: text, rest)

theorem hex4?_hexDigit : ∀ n < 32, hex4? '0' '0' (Text.hexDigit (n / 16)) (Text.hexDigit (n % 16)) = some n := by
  decide

/-- A character that needs no escape is read as it is. -/
theorem stringTail_visible {c : Char} (mark : c ≠ '"') (stroke : c ≠ '\\') (visible : ¬ c.toNat < 32)
    (cs : List Char) : stringTail (c :: cs) = prepend c (stringTail cs) := by
  rw [stringTail, if_neg visible]
  · rfl
  · exact mark
  -- what else is read in a special way begins with a stroke
  · exact fun _ _ _ _ _ same _ => stroke same
  · exact fun _ same _ => stroke same
  · exact fun same _ => stroke same
  · exact fun _ _ same _ => stroke same

theorem skipString_visible {c : Char} (mark : c ≠ '"') (stroke : c ≠ '\\') (visible : ¬ c.toNat < 32)
    (cs : List Char) : skipString (c :: cs) = skipString cs := by
  rw [skipString, if_neg visible]
  · exact mark
  · exact fun _ _ _ _ _ same _ => stroke same
  · exact fun _ same _ => stroke same
  · exact fun same _ => stroke same
  · exact fun _ _ same _ => stroke same

/-- An escaped character is read as the character, and it can be skipped. -/
theorem stringTail_escapeChar (c : Char) (cs : List Char) :
    stringTail (escapeChar c ++ cs) = prepend c (stringTail cs) ∧
      skipString (escapeChar c ++ cs) = skipString cs := by
  unfold escapeChar
  split
  · subst c
    exact ⟨rfl, rfl⟩
  split
  · subst c
    exact ⟨rfl, rfl⟩
  split
  · subst c
    exact ⟨rfl, rfl⟩
  split
  · subst c
    exact ⟨rfl, rfl⟩
  split
  · subst c
    exact ⟨rfl, rfl⟩
  split
  · subst c
    exact ⟨rfl, rfl⟩
  split
  · subst c
    exact ⟨rfl, rfl⟩
  split
  · rename_i control
    have code := hex4?_hexDigit c.toNat control
    have trailing : isTrailing c.toNat = false := by simp [isTrailing]; omega
    have leading : isLeading c.toNat = false := by simp [isLeading]; omega
    constructor
    · simp [stringTail, code, trailing, leading, prepend, Char.ofNat_toNat]
    · simp [skipString, code]
  · rename_i mark stroke _ _ _ _ _ visible
    exact ⟨stringTail_visible mark stroke visible cs, skipString_visible mark stroke visible cs⟩

/-- The characters of a string come back from between the marks. -/
theorem stringTail_quoted (s rest : List Char) :
    stringTail (s.flatMap escapeChar ++ ['"'] ++ rest) = .ok (s, rest) := by
  induction s with
  | nil => rfl
  | cons c s ih =>
    rw [List.flatMap_cons, List.append_assoc, List.append_assoc, (stringTail_escapeChar c _).1,
      ← List.append_assoc, ih]
    rfl

theorem skipString_quoted (s rest : List Char) :
    skipString (s.flatMap escapeChar ++ ['"'] ++ rest) = .ok rest := by
  induction s with
  | nil => rfl
  | cons c s ih =>
    rw [List.flatMap_cons, List.append_assoc, List.append_assoc, (stringTail_escapeChar c _).2,
      ← List.append_assoc, ih]

/-! ### Where texts begin and go on -/

/-- What of an array is left to read: after its bracket, or after some items. -/
def itemsText (first : Bool) : List Json → List Char
  | [] => [']']
  | item :: rest => (if first then [] else [',']) ++ (chars item ++ itemsTail rest)

/-- What of an object is left to read: after its brace, or after some members. -/
def membersText (first : Bool) : List (String × Json) → List Char
  | [] => ['\x7d']
  | (name, item) :: rest =>
    (if first then [] else [',']) ++ (quote name ++ ':' :: (chars item ++ membersTail rest))

theorem chars_arr (items : List Json) : chars (.arr items) = '[' :: itemsText true items := by
  cases items <;> rfl

theorem itemsTail_eq (items : List Json) : itemsTail items = itemsText false items := by
  cases items <;> rfl

theorem chars_obj (members : List (String × Json)) : chars (.obj members) = '\x7b' :: membersText true members := by
  cases members <;> rfl

theorem membersTail_eq (members : List (String × Json)) : membersTail members = membersText false members := by
  cases members <;> rfl

theorem endsNumber_itemsText (items : List Json) (rest : List Char) :
    EndsNumber (itemsText false items ++ rest) := by
  cases items <;> exact ⟨rfl, by decide, by decide, by decide⟩

theorem endsNumber_membersText (members : List (String × Json)) (rest : List Char) :
    EndsNumber (membersText false members ++ rest) := by
  cases members <;> exact ⟨rfl, by decide, by decide, by decide⟩

/-- A value may begin with the character. -/
def StartsValue (c : Char) : Prop := isSpace c = false ∧ c ≠ ',' ∧ c ≠ ']' ∧ c ≠ '\x7d'

theorem ne_of_isDigit {c d : Char} (digit : isDigit c = true) (mark : isDigit d = false) : c ≠ d := by
  rintro rfl
  simp [mark] at digit

theorem startsValue_of_number {c : Char} (number : c = '-' ∨ isDigit c = true) : StartsValue c := by
  rcases number with rfl | digit
  · exact ⟨rfl, by decide, by decide, by decide⟩
  · have other {d : Char} (mark : isDigit d = false) : c ≠ d := ne_of_isDigit digit mark
    refine ⟨?_, other rfl, other rfl, other rfl⟩
    simp [isSpace, other (d := ' ') rfl, other (d := '\n') rfl, other (d := '\t') rfl, other (d := '\r') rfl]

theorem exists_chars_eq_cons (item : Json) : ∃ c more, chars item = c :: more ∧ StartsValue c := by
  have plain {c : Char} (space : isSpace c = false) (comma : c ≠ ',') (bracket : c ≠ ']') (brace : c ≠ '\x7d') :
      StartsValue c := ⟨space, comma, bracket, brace⟩
  cases item with
  | null => exact ⟨'n', _, rfl, plain rfl (by decide) (by decide) (by decide)⟩
  | bool b =>
    cases b with
    | true => exact ⟨'t', _, rfl, plain rfl (by decide) (by decide) (by decide)⟩
    | false => exact ⟨'f', _, rfl, plain rfl (by decide) (by decide) (by decide)⟩
  | num n =>
    obtain ⟨c, more, made, number⟩ := (isNumeral_text n).exists_cons
    exact ⟨c, more, made, startsValue_of_number number⟩
  | str s => exact ⟨'"', _, rfl, plain rfl (by decide) (by decide) (by decide)⟩
  | arr items => exact ⟨'[', _, chars_arr items, plain rfl (by decide) (by decide) (by decide)⟩
  | obj members => exact ⟨'\x7b', _, chars_obj members, plain rfl (by decide) (by decide) (by decide)⟩

theorem skipSpace_cons {c : Char} {cs : List Char} (mark : isSpace c = false) : skipSpace (c :: cs) = c :: cs :=
  List.dropWhile_cons_of_neg (by simp [mark])

theorem skipSpace_append {blanks cs : List Char} (blank : ∀ c ∈ blanks, isSpace c = true) :
    skipSpace (blanks ++ cs) = skipSpace cs :=
  List.dropWhile_append_of_pos blank

/-! ### Rows -/

section Rows

variable {read : Reader Json} {skip : List Char → Except Fault (List Char)} {c : Char} {cs rest : List Char}
  {fuel : Nat}

/-- The next item is where a value begins, after a comma unless it is the first. -/
theorem items_value (starts : StartsValue c) (first : Bool) :
    items read (fuel + 1) first ((if first then [] else [',']) ++ c :: cs) = (do
      let (item, cs) ← read (c :: cs)
      let (rest, cs) ← items read fuel false cs
      return (item :: rest, cs)) := by
  obtain ⟨mark, comma, bracket, -⟩ := starts
  have there : skipSpace (c :: cs) = c :: cs := skipSpace_cons mark
  cases first with
  | true =>
    simp only [if_true, List.nil_append, items, there]
    split <;> simp_all
  | false =>
    have next : skipSpace (',' :: c :: cs) = ',' :: c :: cs := rfl
    simp only [Bool.false_eq_true, if_false, List.singleton_append, items, next, there]
    split <;> simp_all

theorem skipItems_value (starts : StartsValue c) (first : Bool) :
    skipItems skip (fuel + 1) first ((if first then [] else [',']) ++ c :: cs) =
      skip (c :: cs) >>= skipItems skip fuel false := by
  obtain ⟨mark, comma, bracket, -⟩ := starts
  have there : skipSpace (c :: cs) = c :: cs := skipSpace_cons mark
  cases first with
  | true =>
    simp only [if_true, List.nil_append, skipItems, there]
    split <;> simp_all
  | false => rfl

/-- Items are read up to the closing bracket, if each is read up to where it ends. -/
theorem items_itemsText {row : List Json}
    (reads : ∀ item ∈ row, ∀ rest, EndsNumber rest → read (chars item ++ rest) = .ok (item, rest))
    (enough : row.length < fuel) (first : Bool) (rest : List Char) :
    items read fuel first (itemsText first row ++ rest) = .ok (row, rest) := by
  obtain ⟨fuel, rfl⟩ : ∃ less, fuel = less + 1 := ⟨fuel - 1, by omega⟩
  induction row generalizing first fuel with
  | nil => rfl
  | cons item row ih =>
    obtain ⟨one, others⟩ := List.forall_mem_cons.1 reads
    obtain ⟨c, more, made, starts⟩ := exists_chars_eq_cons item
    have taken := one (itemsText false row ++ rest) (endsNumber_itemsText row rest)
    rw [made] at taken
    rw [List.length_cons] at enough
    obtain ⟨fuel, rfl⟩ : ∃ less, fuel = less + 1 := ⟨fuel - 1, by omega⟩
    rw [itemsText, made, itemsTail_eq, List.append_assoc, List.append_assoc, List.cons_append,
      items_value starts first, ← List.cons_append, taken]
    simp only [bind, Except.bind, ih others false fuel (by omega)]
    rfl

theorem skipItems_itemsText {row : List Json}
    (skips : ∀ item ∈ row, ∀ rest, EndsNumber rest → skip (chars item ++ rest) = .ok rest)
    (enough : row.length < fuel) (first : Bool) (rest : List Char) :
    skipItems skip fuel first (itemsText first row ++ rest) = .ok rest := by
  obtain ⟨fuel, rfl⟩ : ∃ less, fuel = less + 1 := ⟨fuel - 1, by omega⟩
  induction row generalizing first fuel with
  | nil => rfl
  | cons item row ih =>
    obtain ⟨one, others⟩ := List.forall_mem_cons.1 skips
    obtain ⟨c, more, made, starts⟩ := exists_chars_eq_cons item
    have taken := one (itemsText false row ++ rest) (endsNumber_itemsText row rest)
    rw [made] at taken
    rw [List.length_cons] at enough
    obtain ⟨fuel, rfl⟩ : ∃ less, fuel = less + 1 := ⟨fuel - 1, by omega⟩
    rw [itemsText, made, itemsTail_eq, List.append_assoc, List.append_assoc, List.cons_append,
      skipItems_value starts first, ← List.cons_append, taken]
    exact ih others false fuel (by omega)

/-- The next name is found, after a comma unless it is the first. -/
theorem nextName_quote (first : Bool) (name : String) (cs : List Char) :
    nextName first ((if first then [] else [',']) ++ (quote name ++ cs)) = .ok (some name, cs) := by
  have text := stringTail_quoted name.toList cs
  have mark : skipSpace (quote name ++ cs) = '"' :: (name.toList.flatMap escapeChar ++ ['"'] ++ cs) := rfl
  have named : String.ofList name.toList = name := String.ofList_toList
  unfold nextName
  cases first with
  | true =>
    simp only [if_true, List.nil_append, mark, text, bind, Except.bind, named]
    rfl
  | false =>
    have next : skipSpace (',' :: (quote name ++ cs)) = ',' :: (quote name ++ cs) := rfl
    simp only [Bool.false_eq_true, if_false, List.singleton_append, next, mark, text, bind, Except.bind, named]
    rfl

theorem members_membersText {row : List (String × Json)}
    (reads : ∀ member ∈ row, ∀ rest, EndsNumber rest → read (chars member.2 ++ rest) = .ok (member.2, rest))
    (enough : row.length < fuel) (first : Bool) (rest : List Char) :
    members read fuel first (membersText first row ++ rest) = .ok (row, rest) := by
  obtain ⟨fuel, rfl⟩ : ∃ less, fuel = less + 1 := ⟨fuel - 1, by omega⟩
  induction row generalizing first fuel with
  | nil => rfl
  | cons member row ih =>
    obtain ⟨name, item⟩ := member
    obtain ⟨one, others⟩ := List.forall_mem_cons.1 reads
    have taken := one (membersText false row ++ rest) (endsNumber_membersText row rest)
    rw [List.length_cons] at enough
    obtain ⟨fuel, rfl⟩ : ∃ less, fuel = less + 1 := ⟨fuel - 1, by omega⟩
    have later := ih others false fuel (by omega)
    rw [membersText, membersTail_eq, List.append_assoc, List.append_assoc, List.cons_append, List.append_assoc,
      members, nextName_quote]
    have point (cs : List Char) : colon (':' :: cs) = .ok cs := rfl
    simp only [bind, Except.bind, point, taken, later]
    rfl

theorem skipMember_quote {item : Json}
    (skips : ∀ rest, EndsNumber rest → skip (chars item ++ rest) = .ok rest) (name : String)
    (ends : EndsNumber rest) : skipMember skip (quote name ++ ':' :: (chars item ++ rest)) = .ok rest := by
  have text := skipString_quoted name.toList (':' :: (chars item ++ rest))
  have mark (cs : List Char) : skipSpace (quote name ++ cs) = '"' :: (name.toList.flatMap escapeChar ++ ['"'] ++ cs) :=
    rfl
  have point (cs : List Char) : colon (':' :: cs) = .ok cs := rfl
  simp only [skipMember, mark, text, bind, Except.bind, point, skips rest ends]

theorem skipMembers_membersText {row : List (String × Json)}
    (skips : ∀ member ∈ row, ∀ rest, EndsNumber rest → skip (chars member.2 ++ rest) = .ok rest)
    (enough : row.length < fuel) (first : Bool) (rest : List Char) :
    skipMembers skip fuel first (membersText first row ++ rest) = .ok rest := by
  obtain ⟨fuel, rfl⟩ : ∃ less, fuel = less + 1 := ⟨fuel - 1, by omega⟩
  induction row generalizing first fuel with
  | nil => rfl
  | cons member row ih =>
    obtain ⟨name, item⟩ := member
    obtain ⟨one, others⟩ := List.forall_mem_cons.1 skips
    have taken := skipMember_quote one name (endsNumber_membersText row rest)
    rw [List.length_cons] at enough
    obtain ⟨fuel, rfl⟩ : ∃ less, fuel = less + 1 := ⟨fuel - 1, by omega⟩
    have later := ih others false fuel (by omega)
    have next : skipMembers skip (fuel + 2) first ((if first then [] else [',']) ++
        (quote name ++ ':' :: (chars item ++ (membersText false row ++ rest)))) =
      skipMember skip (quote name ++ ':' :: (chars item ++ (membersText false row ++ rest))) >>=
        skipMembers skip (fuel + 1) false := by
      cases first <;> rfl
    rw [membersText, membersTail_eq, List.append_assoc, List.append_assoc, List.cons_append, List.append_assoc,
      next, taken]
    exact later

end Rows

/-! ### Trees -/

theorem length_le_itemsText (first : Bool) (row : List Json) : row.length ≤ (itemsText first row).length := by
  induction row generalizing first with
  | nil => exact Nat.zero_le _
  | cons item row ih =>
    obtain ⟨c, more, made, -⟩ := exists_chars_eq_cons item
    have later := ih false
    rw [itemsText, itemsTail_eq, made]
    simp only [List.length_append, List.length_cons]
    omega

theorem length_le_membersText (first : Bool) (row : List (String × Json)) :
    row.length ≤ (membersText first row).length := by
  induction row generalizing first with
  | nil => exact Nat.zero_le _
  | cons member row ih =>
    obtain ⟨name, item⟩ := member
    have later := ih false
    rw [membersText, membersTail_eq]
    simp only [List.length_append, List.length_cons]
    omega

/-- As many rounds as characters are enough for the items of an array. -/
theorem length_lt_itemsText (row : List Json) (rest : List Char) :
    row.length < (itemsText true row ++ rest).length + 1 := by
  have some_ := length_le_itemsText true row
  rw [List.length_append]
  omega

/-- They are enough for the members of an object too. -/
theorem length_lt_membersText (row : List (String × Json)) (rest : List Char) :
    row.length < (membersText true row ++ rest).length + 1 := by
  have some_ := length_le_membersText true row
  rw [List.length_append]
  omega

mutual

/-- Whether all numbers are whole. -/
def hasWholeNumbers : Json → Bool
  | num (.float _) => false
  | arr items => hasWholeNumbersItems items
  | obj members => hasWholeNumbersMembers members
  | _ => true

/-- Whether all numbers in all trees of a list are whole. -/
def hasWholeNumbersItems : List Json → Bool
  | [] => true
  | item :: rest => hasWholeNumbers item && hasWholeNumbersItems rest

/-- Whether all numbers in the trees of some members are whole. -/
def hasWholeNumbersMembers : List (String × Json) → Bool
  | [] => true
  | (_, item) :: rest => hasWholeNumbers item && hasWholeNumbersMembers rest

end

section Scalars

variable {rest : List Char}

/-- A value that begins like a number is read as a number. -/
theorem treeWith_number (inner : Option (Reader Json)) {c : Char} (cs : List Char)
    (first : c = '-' ∨ isDigit c = true) :
    treeWith inner (c :: cs) = (do
      let (n, cs) ← number (c :: cs)
      return (.num n, cs)) := by
  have other {d : Char} (minus : '-' ≠ d) (mark : isDigit d = false) : c ≠ d := by
    rcases first with rfl | digit
    · exact minus
    · exact ne_of_isDigit digit mark
  unfold treeWith
  rw [skipSpace_cons (startsValue_of_number first).1]
  split
  · contradiction
  · exact absurd (List.cons.inj ‹_›).1 (other (by decide) rfl)
  · exact absurd (List.cons.inj ‹_›).1 (other (by decide) rfl)
  · exact absurd (List.cons.inj ‹_›).1 (other (by decide) rfl)
  · exact absurd (List.cons.inj ‹_›).1 (other (by decide) rfl)
  · exact absurd (List.cons.inj ‹_›).1 (other (by decide) rfl)
  · exact absurd (List.cons.inj ‹_›).1 (other (by decide) rfl)
  · rename_i same
    obtain ⟨rfl, rfl⟩ := List.cons.inj same
    rw [if_pos first]

theorem skipTree_digit (depth : Nat) {c : Char} (cs : List Char) (digit : isDigit c = true) :
    skipTree depth (c :: cs) = skipNumber (c :: cs) := by
  have other {d : Char} (mark : isDigit d = false) : c ≠ d := ne_of_isDigit digit mark
  unfold skipTree
  rw [skipSpace_cons (startsValue_of_number (.inr digit)).1]
  split
  · contradiction
  · exact absurd (List.cons.inj ‹_›).1 (other rfl)
  · exact absurd (List.cons.inj ‹_›).1 (other rfl)
  · exact absurd (List.cons.inj ‹_›).1 (other rfl)
  · exact absurd (List.cons.inj ‹_›).1 (other rfl)
  · exact absurd (List.cons.inj ‹_›).1 (other rfl)
  · exact absurd (List.cons.inj ‹_›).1 (other rfl)
  · exact absurd (List.cons.inj ‹_›).1 (other rfl)
  · exact if_pos digit

/-- Every number is skipped to its end, whatever it would be read as. -/
theorem skipTree_num (depth : Nat) (n : Number) (ends : EndsNumber rest) :
    skipTree depth (chars (.num n) ++ rest) = .ok rest := by
  rw [chars]
  rcases isNumeral_text n with unsigned | ⟨magnitude, made, unsigned⟩
  · obtain ⟨c, more, made, digit⟩ := unsigned.exists_cons
    have skipped := skipNumber_unsigned unsigned ends
    rw [made, List.cons_append] at skipped ⊢
    rw [skipTree_digit depth _ digit, skipped]
  · have minus : skipTree depth ('-' :: (magnitude ++ rest)) = skipNumber (magnitude ++ rest) := by
      cases depth <;> rfl
    rw [made, List.cons_append, minus, skipNumber_unsigned unsigned ends]

/-- A whole number comes back as it was. -/
theorem treeWith_int (inner : Option (Reader Json)) {n : Int}
    (inRange : -9223372036854775808 ≤ n ∧ n < 18446744073709551616) (ends : EndsNumber rest) :
    treeWith inner (chars (.num (.int n inRange)) ++ rest) = .ok (.num (.int n inRange), rest) := by
  obtain ⟨c, more, made, first⟩ := (isNumeral_text (.int n inRange)).exists_cons
  have read := number_text_int inRange ends
  rw [chars, made, List.cons_append] at *
  rw [treeWith_number inner _ first, read]
  rfl

theorem treeWith_quote (inner : Option (Reader Json)) (s : String) (rest : List Char) :
    treeWith inner (chars (.str s) ++ rest) = .ok (.str s, rest) := by
  change (stringTail (s.toList.flatMap escapeChar ++ ['"'] ++ rest) >>= fun read =>
    pure (str (String.ofList read.1), read.2)) = _
  rw [stringTail_quoted]
  simp [bind, Except.bind, pure, Except.pure]

theorem skipTree_quote (depth : Nat) (s : String) (rest : List Char) :
    skipTree depth (chars (.str s) ++ rest) = .ok rest := by
  cases depth <;> exact skipString_quoted s.toList rest

end Scalars

mutual

/-- A tree of whole numbers comes back as it was. -/
theorem tree_chars (item : Json) {depth : Nat} (shallow : item.depth ≤ depth)
    (whole : item.hasWholeNumbers = true) (rest : List Char) (ends : EndsNumber rest) :
    tree depth (chars item ++ rest) = .ok (item, rest) := by
  obtain ⟨inner, scalar⟩ : ∃ inner, tree depth = treeWith inner := by
    cases depth <;> exact ⟨_, rfl⟩
  match item with
  | .null => cases depth <;> rfl
  | .bool true => cases depth <;> rfl
  | .bool false => cases depth <;> rfl
  | .num (.int n inRange) => rw [scalar, treeWith_int inner inRange ends]
  | .num (.float x) => simp [hasWholeNumbers] at whole
  | .str s => rw [scalar, treeWith_quote]
  | .arr items =>
    simp only [Json.depth] at shallow
    obtain ⟨depth, rfl⟩ : ∃ inside, depth = inside + 1 := ⟨depth - 1, by omega⟩
    have all := tree_charsItems items (Nat.le_of_succ_le_succ shallow) whole
    have room := length_lt_itemsText items rest
    rw [chars_arr, List.cons_append]
    change (Json.items (tree depth) ((itemsText true items ++ rest).length + 1) true
      (itemsText true items ++ rest) >>= fun read => pure (arr read.1, read.2)) = _
    rw [items_itemsText all room true rest]
    rfl
  | .obj members =>
    simp only [Json.depth] at shallow
    obtain ⟨depth, rfl⟩ : ∃ inside, depth = inside + 1 := ⟨depth - 1, by omega⟩
    have all := tree_charsMembers members (Nat.le_of_succ_le_succ shallow) whole
    have room := length_lt_membersText members rest
    rw [chars_obj, List.cons_append]
    change (Json.members (tree depth) ((membersText true members ++ rest).length + 1) true
      (membersText true members ++ rest) >>= fun read => pure (obj read.1, read.2)) = _
    rw [members_membersText all room true rest]
    rfl

theorem tree_charsItems (items : List Json) {depth : Nat} (shallow : depthItems items ≤ depth)
    (whole : hasWholeNumbersItems items = true) :
    ∀ item ∈ items, ∀ rest, EndsNumber rest → tree depth (chars item ++ rest) = .ok (item, rest) := by
  match items with
  | [] => simp
  | item :: items =>
    simp only [depthItems] at shallow
    simp only [hasWholeNumbersItems, Bool.and_eq_true] at whole
    exact List.forall_mem_cons.2
      ⟨tree_chars item (by omega) whole.1, tree_charsItems items (by omega) whole.2⟩

theorem tree_charsMembers (members : List (String × Json)) {depth : Nat}
    (shallow : depthMembers members ≤ depth) (whole : hasWholeNumbersMembers members = true) :
    ∀ member ∈ members, ∀ rest, EndsNumber rest →
      tree depth (chars member.2 ++ rest) = .ok (member.2, rest) := by
  match members with
  | [] => simp
  | (name, item) :: members =>
    simp only [depthMembers] at shallow
    simp only [hasWholeNumbersMembers, Bool.and_eq_true] at whole
    exact List.forall_mem_cons.2
      ⟨tree_chars item (by omega) whole.1, tree_charsMembers members (by omega) whole.2⟩

end

mutual

/-- Every tree is skipped to its end. -/
theorem skipTree_chars (item : Json) {depth : Nat} (shallow : item.depth ≤ depth) (rest : List Char)
    (ends : EndsNumber rest) : skipTree depth (chars item ++ rest) = .ok rest := by
  match item with
  | .null => cases depth <;> rfl
  | .bool true => cases depth <;> rfl
  | .bool false => cases depth <;> rfl
  | .num n => exact skipTree_num depth n ends
  | .str s => exact skipTree_quote depth s rest
  | .arr items =>
    simp only [Json.depth] at shallow
    obtain ⟨depth, rfl⟩ : ∃ inside, depth = inside + 1 := ⟨depth - 1, by omega⟩
    have all := skipTree_charsItems items (Nat.le_of_succ_le_succ shallow)
    have room := length_lt_itemsText items rest
    rw [chars_arr, List.cons_append]
    exact skipItems_itemsText all room true rest
  | .obj members =>
    simp only [Json.depth] at shallow
    obtain ⟨depth, rfl⟩ : ∃ inside, depth = inside + 1 := ⟨depth - 1, by omega⟩
    have all := skipTree_charsMembers members (Nat.le_of_succ_le_succ shallow)
    have room := length_lt_membersText members rest
    rw [chars_obj, List.cons_append]
    exact skipMembers_membersText all room true rest

theorem skipTree_charsItems (items : List Json) {depth : Nat} (shallow : depthItems items ≤ depth) :
    ∀ item ∈ items, ∀ rest, EndsNumber rest → skipTree depth (chars item ++ rest) = .ok rest := by
  match items with
  | [] => simp
  | item :: items =>
    simp only [depthItems] at shallow
    exact List.forall_mem_cons.2 ⟨skipTree_chars item (by omega), skipTree_charsItems items (by omega)⟩

theorem skipTree_charsMembers (members : List (String × Json)) {depth : Nat}
    (shallow : depthMembers members ≤ depth) :
    ∀ member ∈ members, ∀ rest, EndsNumber rest → skipTree depth (chars member.2 ++ rest) = .ok rest := by
  match members with
  | [] => simp
  | (name, item) :: members =>
    simp only [depthMembers] at shallow
    exact List.forall_mem_cons.2 ⟨skipTree_chars item (by omega), skipTree_charsMembers members (by omega)⟩

end

mutual

/-- A text is at least as long as its containers nest deep. -/
theorem depth_le_length_chars (item : Json) : item.depth ≤ (chars item).length := by
  match item with
  | .null => exact Nat.zero_le _
  | .bool _ => exact Nat.zero_le _
  | .num _ => exact Nat.zero_le _
  | .str _ => exact Nat.zero_le _
  | .arr items =>
    rw [depth, chars_arr, List.length_cons]
    exact Nat.succ_le_succ (depth_le_length_itemsText true items)
  | .obj members =>
    rw [depth, chars_obj, List.length_cons]
    exact Nat.succ_le_succ (depth_le_length_membersText true members)

theorem depth_le_length_itemsText (first : Bool) (items : List Json) :
    depthItems items ≤ (itemsText first items).length := by
  match items with
  | [] => exact Nat.zero_le _
  | item :: items =>
    have one := depth_le_length_chars item
    have others := depth_le_length_itemsText false items
    rw [depthItems, itemsText, itemsTail_eq]
    simp only [List.length_append]
    omega

theorem depth_le_length_membersText (first : Bool) (members : List (String × Json)) :
    depthMembers members ≤ (membersText first members).length := by
  match members with
  | [] => exact Nat.zero_le _
  | (name, item) :: members =>
    have one := depth_le_length_chars item
    have others := depth_le_length_membersText false members
    rw [depthMembers, membersText, membersTail_eq]
    simp only [List.length_append, List.length_cons]
    omega

end

/-- A value of any depth is skipped to its end. -/
theorem skipValue_chars (item : Json) {rest : List Char} (ends : EndsNumber rest) :
    skipValue (chars item ++ rest) = .ok rest := by
  refine skipTree_chars item ?_ rest ends
  have deep := depth_le_length_chars item
  rw [List.length_append]
  omega

end Replica.Json
