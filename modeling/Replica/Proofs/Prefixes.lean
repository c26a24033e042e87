import Replica.Proofs.Documents
/-! Texts and bytes of trees, cut short. What a reader makes of the start of a text is either nothing, or it had the
whole text before it: so no part of a tree is taken for a tree, however deep it nests, however long its names are,
and whatever its numbers. -/
namespace Replica

/-- Of whatever begins like a text, as far as it goes, a reader takes the whole text, and what it reads is as told;
or it fails. -/
def Takes {σ ε α : Type} (read : List σ → Except ε (α × List σ)) (text : List σ) (told : α → Prop) : Prop :=
  ∀ more cs a rest, cs <+: text ++ more → read cs = .ok (a, rest) → cs = text ++ rest ∧ told a

section Takes

variable {σ ε α β : Type} {read : List σ → Except ε (α × List σ)} {text : List σ} {told : α → Prop}

/-- Where several readers come one after another and all succeed, each does. -/
theorem exists_of_bind {first : Except ε (α × List σ)} {next : α × List σ → Except ε β} {b : β}
    (both : (first >>= next) = .ok b) : ∃ a rest, first = .ok (a, rest) ∧ next (a, rest) = .ok b := by
  cases first with
  | error fault => cases both
  | ok pair => exact ⟨pair.1, pair.2, rfl, both⟩

/-- A reader that makes nothing of nothing makes something only of what begins as the text does. -/
theorem exists_cons_of_read (read : List σ → Except ε β) {b : β} {c : σ} {cs more : List σ}
    (agrees : cs <+: c :: more) (got : read cs = .ok b) (nothing : ∃ fault, read [] = .error fault) :
    ∃ t, cs = c :: t ∧ t <+: more := by
  cases cs with
  | nil =>
    obtain ⟨fault, failed⟩ := nothing
    rw [failed] at got
    cases got
  | cons d t =>
    obtain ⟨rfl, inside⟩ := List.cons_prefix_cons.1 agrees
    exact ⟨t, rfl, inside⟩

/-- What follows a text that was taken begins like what should follow. -/
theorem Takes.step (takes : Takes read text told) {after more cs rest : List σ} {a : α}
    (agrees : cs <+: text ++ after ++ more) (taken : read cs = .ok (a, rest)) :
    cs = text ++ rest ∧ rest <+: after ++ more ∧ told a := by
  rw [List.append_assoc] at agrees
  obtain ⟨rfl, as⟩ := takes _ _ _ _ agrees taken
  exact ⟨rfl, (List.prefix_append_right_inj text).1 agrees, as⟩

/-- A reader that reads a text as something, and that goes on alike whatever follows, takes the whole text. -/
theorem Takes.of_extends {a : α} (reads : ∀ rest, read (text ++ rest) = .ok (a, rest))
    (extends_ : ∀ cs b rest more, read cs = .ok (b, rest) → read (cs ++ more) = .ok (b, rest ++ more)) :
    Takes read text (· = a) := by
  intro more cs b rest ⟨cut, made⟩ taken
  have longer := extends_ cs b rest cut taken
  rw [made, reads] at longer
  obtain ⟨rfl, rfl⟩ := Prod.mk.inj (Except.ok.inj longer)
  rw [← List.append_assoc] at made
  exact ⟨List.append_cancel_right made, rfl⟩

/-- So it fails on a text that was cut short. -/
theorem Takes.error_of_cut (takes : Takes read text told) {cut : List σ} (agrees : cut <+: text)
    (short : cut ≠ text) : ∃ fault, read cut = .error fault := by
  cases taken : read cut with
  | error fault => exact ⟨fault, rfl⟩
  | ok pair =>
    obtain ⟨whole, -⟩ := takes [] cut pair.1 pair.2 (by rwa [List.append_nil]) taken
    have longer : text <+: cut := ⟨pair.2, whole.symm⟩
    exact absurd (agrees.eq_of_length_le longer.length_le) short

end Takes

namespace Cbor

/-! ### Heads and texts -/

theorem take_extends (n : Nat) (bs taken rest more : List UInt8) (read : take n bs = .ok (taken, rest)) :
    take n (bs ++ more) = .ok (taken, rest ++ more) := by
  unfold take at *
  split at read
  · cases read
  · rename_i enough
    obtain ⟨rfl, rfl⟩ := Prod.mk.inj (Except.ok.inj read)
    have long : n ≤ bs.length := Nat.le_of_not_lt enough
    rw [if_neg (by rw [List.length_append]; omega), List.take_append_of_le_length long,
      List.drop_append_of_le_length long]

theorem header_extends (bs : List UInt8) (h : Header) (rest more : List UInt8) (read : header bs = .ok (h, rest)) :
    header (bs ++ more) = .ok (h, rest ++ more) := by
  cases bs with
  | nil => cases read
  | cons b bs =>
    rw [List.cons_append]
    unfold header at *
    cases announced : argumentWidth (b.toNat % 32) with
    | none =>
      simp only [announced] at read
      cases read
    | some width =>
      simp only [announced] at read ⊢
      obtain ⟨argument, after, taken, read⟩ := exists_of_bind read
      simp only [take_extends _ _ _ _ more taken, bind, Except.bind] at read ⊢
      cases made : headerOf (b.toNat / 32) (b.toNat % 32) (bigEndian argument) with
      | error fault =>
        rw [made] at read
        cases read
      | ok head =>
        rw [made] at read
        cases read
        rfl

theorem takes_header {bs : List UInt8} {h : Header} (reads : ∀ rest, header (bs ++ rest) = .ok (h, rest)) :
    Takes header bs (· = h) :=
  Takes.of_extends reads header_extends

theorem takes_head {major n : Nat} (kind : major < 6) (fits : n < 2 ^ 64) :
    Takes header (head major n) (· = .plain major n) :=
  takes_header (header_head kind fits)

/-- What is no tag is a head by itself. -/
theorem takes_typedHeader {bs : List UInt8} {h : Header} (takes : Takes header bs (· = h))
    (bare : ∀ n, h ≠ .tag n) : Takes typedHeader bs (· = h) := by
  intro more cs a rest agrees read
  unfold typedHeader untagged at read
  obtain ⟨head, after, first, read⟩ := exists_of_bind read
  obtain ⟨rfl, rfl⟩ := takes _ _ _ _ agrees first
  cases head with
  | tag n => exact absurd rfl (bare n)
  | _ =>
    cases read
    exact ⟨rfl, rfl⟩

theorem takes_typedHead {major n : Nat} (kind : major < 6) (fits : n < 2 ^ 64) :
    Takes typedHeader (head major n) (· = .plain major n) := by
  refine takes_typedHeader (takes_head kind fits) fun k => ?_
  match major, kind with
  | 0, _ | 1, _ | 2, _ | 3, _ | 4, _ | 5, _ => simp [Header.plain]

theorem takes_definiteText (s : String) :
    Takes (definiteText (Text.utf8 s).length) (Text.utf8 s) (· = s) := by
  refine Takes.of_extends (definiteText_utf8 s) fun bs t rest more read => ?_
  unfold definiteText at *
  obtain ⟨taken, after, first, read⟩ := exists_of_bind read
  simp only [take_extends _ _ _ _ more first, bind, Except.bind]
  cases made : Text.ofUtf8? taken with
  | none =>
    simp only [made] at read
    cases read
  | some t =>
    simp only [made] at read
    cases read
    rfl

section Texts

variable {s : String} (fits : (Text.utf8 s).length < 2 ^ 64)

include fits

theorem takes_typedText (expected : String) : Takes (typedText expected) (ofText s) (· = s) := by
  intro more cs a rest agrees read
  obtain ⟨h, after, first, read⟩ := exists_of_bind read
  obtain ⟨rfl, agrees, rfl⟩ := (takes_typedHead (by decide) fits).step agrees first
  obtain ⟨rfl, rfl⟩ := takes_definiteText s _ _ _ _ agrees read
  exact ⟨by rw [ofText, List.append_assoc], rfl⟩

theorem takes_shortText (expected : String) : Takes (shortText expected) (ofText s) (· = s) := by
  intro more cs a rest agrees read
  obtain ⟨h, after, first, read⟩ := exists_of_bind read
  obtain ⟨rfl, agrees, rfl⟩ := (takes_typedHead (by decide) fits).step agrees first
  simp only [Header.plain] at read
  split at read
  · obtain ⟨rfl, rfl⟩ := takes_definiteText s _ _ _ _ agrees read
    exact ⟨by rw [ofText, List.append_assoc], rfl⟩
  · cases read

theorem takes_memberName (first : Bool) : Takes (memberName first) (ofText s) (· = s) := by
  cases first with
  | true => exact takes_shortText fits _
  | false => exact takes_typedText fits _

end Texts

/-! ### Rows -/

/-- Pieces in a row are taken one after another. -/
theorem takes_times {α β : Type} {read : Reader β} {piece : α → List UInt8} {row : List α}
    (takes : ∀ a ∈ row, Takes read (piece a) fun _ => True) :
    Takes (times read row.length) (row.flatMap piece) fun _ => True := by
  induction row with
  | nil =>
    intro more cs a rest _ read
    cases read
    exact ⟨rfl, trivial⟩
  | cons a row ih =>
    obtain ⟨one, others⟩ := List.forall_mem_cons.1 takes
    intro more cs all rest agrees read
    obtain ⟨got, after, first, read⟩ := exists_of_bind read
    obtain ⟨row, end_, later, read⟩ := exists_of_bind read
    cases read
    rw [List.flatMap_cons] at agrees ⊢
    obtain ⟨rfl, agrees, -⟩ := one.step agrees first
    obtain ⟨rfl, -⟩ := ih others _ _ _ _ agrees later
    exact ⟨by rw [List.append_assoc], trivial⟩

theorem takes_memberWith {name : Reader String} {read : Reader Json} {member : String × Json}
    (names : Takes name (ofText member.1) (· = member.1)) (takes : Takes read (ofTree member.2) fun _ => True) :
    Takes (memberWith name read) (ofText member.1 ++ ofTree member.2) fun _ => True := by
  intro more cs a rest agrees read
  obtain ⟨named, after, first, read⟩ := exists_of_bind read
  obtain ⟨value, end_, later, read⟩ := exists_of_bind read
  cases read
  obtain ⟨rfl, agrees, -⟩ := names.step agrees first
  obtain ⟨rfl, -⟩ := takes _ _ _ _ agrees later
  exact ⟨by rw [List.append_assoc], trivial⟩

/-- Members in a row are taken one after another, as many as were announced. -/
theorem takes_members {name : (first : Bool) → Reader String} {read : Reader Json} {row : List (String × Json)}
    (names : ∀ member ∈ row, ∀ first, Takes (name first) (ofText member.1) (· = member.1))
    (takes : ∀ member ∈ row, Takes read (ofTree member.2) fun _ => True) :
    Takes (members name read (some row.length)) (ofMembers row) fun _ => True := by
  have one (member : String × Json) (there : member ∈ row) (first : Bool) :=
    takes_memberWith (names member there first) (takes member there)
  rw [ofMembers_eq_flatMap]
  cases row with
  | nil =>
    intro more cs a rest _ read
    cases read
    exact ⟨rfl, trivial⟩
  | cons member row =>
    have others := takes_times fun member there => one member (List.mem_cons_of_mem _ there) false
    intro more cs a rest agrees read
    obtain ⟨head, after, first, read⟩ := exists_of_bind read
    obtain ⟨tail, end_, later, read⟩ := exists_of_bind read
    cases read
    rw [List.flatMap_cons] at agrees ⊢
    obtain ⟨rfl, agrees, -⟩ := (one member List.mem_cons_self true).step agrees first
    obtain ⟨rfl, -⟩ := others _ _ _ _ agrees later
    exact ⟨(List.append_assoc ..).symm, trivial⟩

/-! ### Trees -/

section Scalars

variable (inner : Option (Reader Json))

theorem takes_null : Takes (treeWith inner) (ofTree .null) fun _ => True := by
  have reads (rest : List UInt8) : header ([0xf6] ++ rest) = .ok (.simple 22, rest) := header_cons 0xf6 [] rfl rest
  intro more cs a rest agrees read
  obtain ⟨h, after, first, read⟩ := exists_of_bind read
  obtain ⟨rfl, rfl⟩ := takes_header reads _ _ _ _ agrees first
  cases read
  exact ⟨rfl, trivial⟩

theorem takes_bool (b : Bool) : Takes (treeWith inner) (ofTree (.bool b)) fun _ => True := by
  intro more cs a rest agrees read
  obtain ⟨h, after, first, read⟩ := exists_of_bind read
  obtain ⟨rfl, rfl⟩ := takes_header (header_ofBool b) _ _ _ _ agrees first
  cases b <;>
  · cases read
    exact ⟨rfl, trivial⟩

theorem takes_num (n : Json.Number) : Takes (treeWith inner) (ofTree (.num n)) fun _ => True := by
  intro more cs a rest agrees read
  obtain ⟨h, after, first, read⟩ := exists_of_bind read
  -- whether the number is in range plays no part: what it is, is said by its head alone
  have given {made : Except Fault Json} (read : (do return (← made, after) : Except Fault (Json × List UInt8)) =
      .ok (a, rest)) : after = rest := by
    cases made with
    | error fault => cases read
    | ok value =>
      cases read
      rfl
  cases n with
  | int n inRange =>
    obtain ⟨rfl, rfl⟩ := takes_header (header_ofInt inRange) _ _ _ _ agrees first
    by_cases positive : 0 ≤ n
    · rw [if_pos positive] at read
      exact ⟨congrArg _ (given read), trivial⟩
    · rw [if_neg positive] at read
      exact ⟨congrArg _ (given read), trivial⟩
  | float x =>
    obtain ⟨rfl, rfl⟩ := takes_header (header_ofFloat x) _ _ _ _ agrees first
    cases read
    exact ⟨rfl, trivial⟩

theorem takes_str {s : String} (fits : (Text.utf8 s).length < 2 ^ 64) :
    Takes (treeWith inner) (ofTree (.str s)) fun _ => True := by
  intro more cs a rest agrees read
  obtain ⟨h, after, first, read⟩ := exists_of_bind read
  obtain ⟨rfl, agrees, rfl⟩ := (takes_head (by decide) fits).step agrees first
  obtain ⟨t, end_, later, given⟩ := exists_of_bind read
  obtain ⟨rfl, rfl⟩ := takes_definiteText s _ _ _ _ agrees later
  cases given
  exact ⟨by rw [ofTree, ofText, List.append_assoc], trivial⟩

end Scalars

mutual

/-- A tree is taken whole, whatever the reader makes of its depth and its names. -/
theorem takes_tree (item : Json) (depth : Nat) (fits : (ofTree item).length < 2 ^ 64) :
    Takes (tree depth) (ofTree item) fun _ => True := by
  obtain ⟨inner, scalar⟩ : ∃ inner, tree depth = treeWith inner := by
    cases depth <;> exact ⟨_, rfl⟩
  match item with
  | .null => exact scalar ▸ takes_null inner
  | .bool b => exact scalar ▸ takes_bool inner b
  | .num n => exact scalar ▸ takes_num inner n
  | .str s =>
    simp only [ofTree, ofText, List.length_append] at fits
    exact scalar ▸ takes_str inner (by omega)
  | .arr items =>
    simp only [ofTree, List.length_append] at fits
    have count := length_le_ofTrees items
    intro more cs a rest agrees read
    cases depth with
    | zero =>
      obtain ⟨h, after, first, read⟩ := exists_of_bind read
      obtain ⟨rfl, agrees, rfl⟩ := (takes_head (by decide) (by omega)).step agrees first
      cases read
    | succ depth =>
      have row := takes_times (takes_items items depth (by omega))
      rw [← ofTrees_eq_flatMap] at row
      obtain ⟨h, after, first, read⟩ := exists_of_bind read
      obtain ⟨rfl, agrees, rfl⟩ := (takes_head (by decide) (by omega)).step agrees first
      obtain ⟨list, end_, later, given⟩ := exists_of_bind read
      obtain ⟨rfl, -⟩ := row _ _ _ _ agrees later
      cases given
      exact ⟨by rw [ofTree, List.append_assoc], trivial⟩
  | .obj members =>
    simp only [ofTree, List.length_append] at fits
    have count := length_le_ofMembers members
    intro more cs a rest agrees read
    cases depth with
    | zero =>
      obtain ⟨h, after, first, read⟩ := exists_of_bind read
      obtain ⟨rfl, agrees, rfl⟩ := (takes_head (by decide) (by omega)).step agrees first
      cases read
    | succ depth =>
      have all := takes_inMembers members depth (by omega)
      have row := takes_members (fun member there => (all member there).1) fun member there => (all member there).2
      obtain ⟨h, after, first, read⟩ := exists_of_bind read
      obtain ⟨rfl, agrees, rfl⟩ := (takes_head (by decide) (by omega)).step agrees first
      obtain ⟨list, end_, later, given⟩ := exists_of_bind read
      obtain ⟨rfl, -⟩ := row _ _ _ _ agrees later
      cases given
      exact ⟨by rw [ofTree, List.append_assoc], trivial⟩

theorem takes_items (items : List Json) (depth : Nat) (fits : (ofTrees items).length < 2 ^ 64) :
    ∀ item ∈ items, Takes (tree depth) (ofTree item) fun _ => True := by
  match items with
  | [] => simp
  | item :: items =>
    simp only [ofTrees, List.length_append] at fits
    exact List.forall_mem_cons.2 ⟨takes_tree item depth (by omega), takes_items items depth (by omega)⟩

theorem takes_inMembers (members : List (String × Json)) (depth : Nat)
    (fits : (ofMembers members).length < 2 ^ 64) :
    ∀ member ∈ members, (∀ first, Takes (memberName first) (ofText member.1) (· = member.1)) ∧
      Takes (tree depth) (ofTree member.2) fun _ => True := by
  match members with
  | [] => simp
  | (name, item) :: members =>
    simp only [ofMembers, ofText, List.length_append] at fits
    have short : (Text.utf8 name).length < 2 ^ 64 := by omega
    exact List.forall_mem_cons.2
      ⟨⟨takes_memberName short, takes_tree item depth (by omega)⟩,
        takes_inMembers members depth (by omega)⟩

end

end Cbor

namespace Json

/-! ### Strings -/

theorem trailingHalf_extends {cs : List Char} {n : Nat} (more : List Char) (read : trailingHalf cs = .ok n) :
    trailingHalf (cs ++ more) = .ok n := by
  fun_cases trailingHalf cs <;> simp_all [trailingHalf]

theorem prepend_extends {c : Char} {cs text rest more : List Char}
    (later : ∀ text, stringTail cs = .ok (text, rest) → stringTail (cs ++ more) = .ok (text, rest ++ more))
    (read : prepend c (stringTail cs) = .ok (text, rest)) :
    prepend c (stringTail (cs ++ more)) = .ok (text, rest ++ more) := by
  obtain ⟨tail, after, inner, given⟩ := exists_of_bind read
  cases given
  rw [later tail inner]
  rfl

/-- A character that stands for another after a stroke is read as that other. -/
theorem stringTail_simple {c e : Char} (unicode : c ≠ 'u') (simple : simpleEscape? c = some e) (cs : List Char) :
    stringTail ('\\' :: c :: cs) = prepend e (stringTail cs) := by
  rw [stringTail, simple]
  · rfl
  · exact fun _ _ _ _ _ same _ => unicode same
  · exact fun same => unicode same

theorem stringTail_extends (cs text rest more : List Char) (read : stringTail cs = .ok (text, rest)) :
    stringTail (cs ++ more) = .ok (text, rest ++ more) := by
  fun_induction stringTail cs generalizing text with
  | case2 =>
    cases read
    rfl
  | case6 a b c d n code trailing leading m _ _ _ _ _ _ cs half ih =>
    have longer := trailingHalf_extends more half
    simp only [List.cons_append, stringTail, code, trailing, leading] at longer ⊢
    simp only [longer]
    exact prepend_extends ih read
  | case8 a b c d cs n code trailing leading ih =>
    simp only [List.cons_append, stringTail, code, trailing, leading]
    exact prepend_extends ih read
  | case12 c cs _ unicode e simple ih =>
    rw [List.cons_append, List.cons_append, stringTail_simple unicode simple]
    exact prepend_extends ih read
  | case14 c cs quote _ _ alone mark visible ih =>
    have stroke : c ≠ '\\' := by
      rintro rfl
      cases cs with
      | nil => exact alone rfl rfl
      | cons next cs => exact mark next cs rfl rfl
    rw [List.cons_append, stringTail_visible quote stroke visible]
    exact prepend_extends ih read
  | _ => cases read

/-- A string is taken with its closing mark. -/
theorem takes_stringTail (s : List Char) : Takes stringTail (s.flatMap escapeChar ++ ['"']) (· = s) :=
  Takes.of_extends (stringTail_quoted s) stringTail_extends

/-! ### Values -/

/-- The text goes on with something that is no part of a number. -/
def LeavesNumber : List Char → Prop
  | [] => True
  | c :: _ => isNumeric c = false

/-- The text ends here, or goes on with part of a number: so nothing can follow a value. -/
def IsStuck : List Char → Prop
  | [] => True
  | c :: _ => isNumeric c = true

/-- Of whatever begins like a value, as far as it goes, a reader takes the whole value, or it gets stuck: a number
that was cut short may still be one. -/
def TakesValue {α : Type} (read : Reader α) (text : List Char) : Prop :=
  ∀ more cs a rest, LeavesNumber more → cs <+: text ++ more → read cs = .ok (a, rest) →
    cs = text ++ rest ∨ IsStuck rest

section Values

variable {α : Type} {read : Reader α} {text : List Char} {told : α → Prop}

theorem takesValue_of_takes (takes : Takes read text told) : TakesValue read text :=
  fun more cs a rest _ agrees taken => .inl (takes more cs a rest agrees taken).1

/-- What follows a value begins like what should follow, unless the reader got stuck. -/
theorem TakesValue.step (takes : TakesValue read text) {after more cs rest : List Char} {a : α}
    (leaves : LeavesNumber (after ++ more)) (agrees : cs <+: text ++ after ++ more)
    (taken : read cs = .ok (a, rest)) : (cs = text ++ rest ∧ rest <+: after ++ more) ∨ IsStuck rest := by
  rw [List.append_assoc] at agrees
  rcases takes _ _ _ _ leaves agrees taken with rfl | stuck
  · exact .inl ⟨rfl, (List.prefix_append_right_inj text).1 agrees⟩
  · exact .inr stuck

/-- A number that was cut short leaves the reader stuck, if it can be read at all. -/
theorem takesValue_number (n : Number) : TakesValue number n.text.toList := by
  intro more cs x rest leaves ⟨cut, made⟩ read
  obtain ⟨eaten, rfl, numeric⟩ := eats_number read
  rw [List.append_assoc] at made
  rcases List.append_eq_append_iff.1 made with ⟨left, text, beyond⟩ | ⟨beyond, rfl, after⟩
  · cases left with
    | nil =>
      rw [List.append_nil] at text
      exact .inl (congrArg (· ++ rest) text.symm)
    | cons c left =>
      have part : isNumeric c = true := isNumeric_text n c (by simp [text])
      cases rest with
      | nil => exact .inr trivial
      | cons d rest =>
        obtain ⟨rfl, -⟩ := List.cons.inj beyond
        exact .inr part
  · cases beyond with
    | nil => exact .inl (by rw [List.append_nil])
    | cons c beyond =>
      rw [after] at leaves
      have part : isNumeric c = true := numeric c (by simp)
      exact absurd (part.symm.trans leaves) (by decide)

end Values

/-! ### Rows -/

section Rows

variable {read : Reader Json}

theorem skipSpace_of_isStuck {cs : List Char} (stuck : IsStuck cs) : skipSpace cs = cs := by
  cases cs with
  | nil => rfl
  | cons c cs =>
    refine skipSpace_cons ?_
    have numeric : isNumeric c = true := stuck
    simp only [isNumeric, Bool.or_eq_true, decide_eq_true_eq] at numeric
    rcases numeric with ((((digit | rfl) | rfl) | rfl) | rfl) | rfl
    · exact (startsValue_of_number (.inr digit)).1
    all_goals rfl

/-- Whoever is stuck finds no comma and no bracket. -/
theorem ne_of_isStuck {c d : Char} {cs : List Char} (stuck : IsStuck (c :: cs)) (mark : isNumeric d = false) :
    c ≠ d := by
  rintro rfl
  exact absurd (stuck.symm.trans mark) (by decide)

theorem items_of_isStuck (read : Reader Json) {cs : List Char} (stuck : IsStuck cs) (fuel : Nat) :
    items read fuel false cs = .error .endInList ∨ items read fuel false cs = .error .listEndExpected := by
  cases fuel with
  | zero => exact .inl rfl
  | succ fuel =>
    cases cs with
    | nil => exact .inl rfl
    | cons c cs =>
      right
      unfold items
      rw [skipSpace_of_isStuck stuck]
      split
      · contradiction
      · exact absurd (List.cons.inj ‹_›).1 (ne_of_isStuck stuck rfl)
      · exact absurd (List.cons.inj ‹_›).1 (ne_of_isStuck stuck rfl)
      · rfl

theorem leavesNumber_itemsText (row : List Json) (more : List Char) :
    LeavesNumber (itemsText false row ++ more) := by
  cases row <;> exact rfl

/-- No item is read before the place where it begins. -/
theorem items_begins {c : Char} {cs more rest : List Char} {first : Bool} {fuel : Nat} {list : List Json}
    (agrees : cs <+: (if first then [] else [',']) ++ c :: more)
    (got : items read fuel first cs = .ok (list, rest)) :
    ∃ less t, fuel = less + 1 ∧ cs = (if first then [] else [',']) ++ c :: t := by
  cases fuel with
  | zero => cases got
  | succ fuel =>
    refine ⟨fuel, ?_⟩
    cases first with
    | true =>
      obtain ⟨t, rfl, -⟩ := exists_cons_of_read _ agrees got ⟨_, rfl⟩
      exact ⟨t, rfl, rfl⟩
    | false =>
      obtain ⟨cs, rfl, inside⟩ := exists_cons_of_read _ agrees got ⟨_, rfl⟩
      obtain ⟨t, rfl, -⟩ :=
        exists_cons_of_read (fun cs => items read (fuel + 1) false (',' :: cs)) inside got ⟨_, rfl⟩
      exact ⟨t, rfl, rfl⟩

/-- Items are taken up to the closing bracket. -/
theorem takes_items {row : List Json} (takes : ∀ item ∈ row, TakesValue read (chars item)) (fuel : Nat)
    (first : Bool) : Takes (items read fuel first) (itemsText first row) fun _ => True := by
  induction row generalizing fuel first with
  | nil =>
    intro more cs a rest agrees got
    cases fuel with
    | zero => cases got
    | succ fuel =>
      obtain ⟨cs, rfl, -⟩ := exists_cons_of_read _ agrees got ⟨_, rfl⟩
      cases got
      exact ⟨rfl, trivial⟩
  | cons item row ih =>
    obtain ⟨one, others⟩ := List.forall_mem_cons.1 takes
    obtain ⟨c, text, made, starts⟩ := exists_chars_eq_cons item
    intro more cs a rest agrees got
    rw [itemsText, itemsTail_eq, made, List.append_assoc] at agrees
    obtain ⟨fuel, t, rfl, rfl⟩ := items_begins agrees got
    rw [List.prefix_append_right_inj, ← made] at agrees
    rw [items_value starts first] at got
    obtain ⟨value, after, taken, got⟩ := exists_of_bind got
    obtain ⟨list, end_, later, given⟩ := exists_of_bind got
    cases given
    rcases one.step (leavesNumber_itemsText row more) agrees taken with ⟨whole, agrees⟩ | stuck
    · obtain ⟨rfl, -⟩ := ih others fuel false _ _ _ _ agrees later
      rw [itemsText, itemsTail_eq, whole, List.append_assoc, List.append_assoc]
      exact ⟨rfl, trivial⟩
    · rcases items_of_isStuck read stuck fuel with fault | fault <;>
      · rw [fault] at later
        cases later

/-- A name is taken with the comma before it. -/
theorem takes_nextName (first : Bool) (name : String) :
    Takes (nextName first) ((if first then [] else [',']) ++ quote name) (· = some name) := by
  have quoted (t more : List Char) (a : Option String) (rest : List Char)
      (agrees : t <+: name.toList.flatMap escapeChar ++ ['"'] ++ more)
      (got : (stringTail t >>= fun read => pure (some (String.ofList read.1), read.2)) = .ok (a, rest)) :
      '"' :: t = quote name ++ rest ∧ a = some name := by
    obtain ⟨s, after, taken, given⟩ := exists_of_bind got
    obtain ⟨rfl, rfl⟩ := takes_stringTail name.toList _ _ _ _ agrees taken
    cases given
    exact ⟨rfl, congrArg some String.ofList_toList⟩
  intro more cs a rest agrees got
  cases first with
  | true =>
    obtain ⟨t, rfl, inside⟩ := exists_cons_of_read _ agrees got ⟨_, rfl⟩
    exact quoted t more a rest inside got
  | false =>
    obtain ⟨cs, rfl, marked⟩ := exists_cons_of_read _ agrees got ⟨_, rfl⟩
    obtain ⟨t, rfl, inside⟩ := exists_cons_of_read (fun cs => nextName false (',' :: cs)) marked got ⟨_, rfl⟩
    obtain ⟨same, named⟩ := quoted t more a rest inside got
    rw [same]
    exact ⟨rfl, named⟩

theorem nextName_of_isStuck {cs : List Char} (stuck : IsStuck cs) :
    nextName false cs = .error .endInObject ∨ nextName false cs = .error .objectEndExpected := by
  cases cs with
  | nil => exact .inl rfl
  | cons c cs =>
    have other {d : Char} (mark : isNumeric d = false) : c ≠ d := ne_of_isStuck stuck mark
    right
    unfold nextName
    rw [skipSpace_of_isStuck stuck]
    simp only []
    split
    · contradiction
    · exact absurd (List.cons.inj ‹_›).1 (other rfl)
    · exact absurd (List.cons.inj ‹_›).1 (other rfl)
    · exact absurd (List.cons.inj ‹_›).1 (other rfl)
    · rfl

theorem leavesNumber_membersText (row : List (String × Json)) (more : List Char) :
    LeavesNumber (membersText false row ++ more) := by
  cases row <;> exact rfl

/-- Members are taken up to the closing brace. -/
theorem takes_members {row : List (String × Json)} (takes : ∀ member ∈ row, TakesValue read (chars member.2))
    (fuel : Nat) (first : Bool) : Takes (members read fuel first) (membersText first row) fun _ => True := by
  induction row generalizing fuel first with
  | nil =>
    intro more cs a rest agrees got
    cases fuel with
    | zero => cases got
    | succ fuel =>
      obtain ⟨cs, rfl, -⟩ := exists_cons_of_read _ agrees got ⟨_, rfl⟩
      cases first <;>
      · cases got
        exact ⟨rfl, trivial⟩
  | cons member row ih =>
    obtain ⟨name, item⟩ := member
    obtain ⟨one, others⟩ := List.forall_mem_cons.1 takes
    intro more cs a rest agrees got
    cases fuel with
    | zero => cases got
    | succ fuel =>
      have text : membersText first ((name, item) :: row) =
          (if first then [] else [',']) ++ quote name ++ ([':'] ++ (chars item ++ membersText false row)) := by
        rw [membersText, membersTail_eq, List.append_assoc]
        rfl
      rw [text] at agrees ⊢
      obtain ⟨found, after, named, got⟩ := exists_of_bind got
      obtain ⟨rfl, agrees, rfl⟩ := (takes_nextName first name).step agrees named
      obtain ⟨t, rfl, inside⟩ := exists_cons_of_read (fun cs => colon cs >>= _) agrees got ⟨_, rfl⟩
      obtain ⟨value, after, taken, got⟩ := exists_of_bind got
      obtain ⟨list, end_, later, given⟩ := exists_of_bind got
      cases given
      rcases one.step (leavesNumber_membersText row more) inside taken with ⟨rfl, beyond⟩ | stuck
      · obtain ⟨rfl, -⟩ := ih others fuel false _ _ _ _ beyond later
        simp [List.append_assoc]
      · cases fuel with
        | zero => cases later
        | succ fuel =>
          obtain ⟨none_, after, named, -⟩ := exists_of_bind later
          rcases nextName_of_isStuck stuck with fault | fault <;>
          · rw [fault] at named
            cases named

end Rows

/-! ### Trees -/

theorem word_taken {letters cs rest : List Char} (taken : word letters cs = .ok rest) : cs = letters ++ rest := by
  induction letters generalizing cs with
  | nil =>
    cases taken
    rfl
  | cons letter letters ih =>
    cases cs with
    | nil => cases taken
    | cons c cs =>
      rw [word] at taken
      split at taken
      · rename_i same
        rw [same, ih taken]
        rfl
      · cases taken

/-- A word that stands for a value is taken with its first letter. -/
theorem takes_word {α : Type} {read : Reader α} {c : Char} {letters : List Char} {a : α}
    (nothing : ∃ fault, read [] = .error fault)
    (reads : ∀ cs, read (c :: cs) = (do return (a, ← word letters cs))) :
    Takes read (c :: letters) (· = a) := by
  intro more cs b rest agrees got
  obtain ⟨cs, rfl, -⟩ := exists_cons_of_read _ agrees got nothing
  rw [reads] at got
  cases taken : word letters cs with
  | error fault =>
    rw [taken] at got
    cases got
  | ok after =>
    rw [taken] at got
    cases got
    exact ⟨congrArg _ (word_taken taken), rfl⟩

section Scalars

variable (inner : Option (Reader Json))

theorem takesValue_null : TakesValue (treeWith inner) (chars .null) :=
  have word : Takes (treeWith inner) ['n', 'u', 'l', 'l'] (· = .null) := takes_word ⟨_, rfl⟩ fun _ => rfl
  takesValue_of_takes word

theorem takesValue_bool (b : Bool) : TakesValue (treeWith inner) (chars (.bool b)) := by
  cases b with
  | true =>
    have word : Takes (treeWith inner) ['t', 'r', 'u', 'e'] (· = .bool true) := takes_word ⟨_, rfl⟩ fun _ => rfl
    exact takesValue_of_takes word
  | false =>
    have word : Takes (treeWith inner) ['f', 'a', 'l', 's', 'e'] (· = .bool false) :=
      takes_word ⟨_, rfl⟩ fun _ => rfl
    exact takesValue_of_takes word

theorem takesValue_str (s : String) : TakesValue (treeWith inner) (chars (.str s)) := by
  intro more cs a rest _ agrees got
  obtain ⟨t, rfl, inside⟩ := exists_cons_of_read _ agrees got ⟨_, rfl⟩
  obtain ⟨text, after, taken, given⟩ := exists_of_bind got
  obtain ⟨rfl, -⟩ := takes_stringTail s.toList _ _ _ _ inside taken
  cases given
  exact .inl rfl

theorem takesValue_num (n : Number) : TakesValue (treeWith inner) (chars (.num n)) := by
  obtain ⟨c, text, made, first⟩ := (isNumeral_text n).exists_cons
  intro more cs a rest leaves agrees got
  rw [chars] at agrees ⊢
  cases cs with
  | nil => cases got
  | cons d t =>
    have same : d = c := by
      rw [made] at agrees
      exact (List.cons_prefix_cons.1 agrees).1
    rw [same, treeWith_number inner t first, ← same] at got
    obtain ⟨x, after, read, given⟩ := exists_of_bind got
    cases given
    exact takesValue_number n _ _ _ _ leaves agrees read

end Scalars

mutual

/-- A tree is taken whole, whatever the reader makes of its depth and its numbers. -/
theorem takesValue_tree (item : Json) (depth : Nat) : TakesValue (tree depth) (chars item) := by
  obtain ⟨inner, scalar⟩ : ∃ inner, tree depth = treeWith inner := by
    cases depth <;> exact ⟨_, rfl⟩
  match item with
  | .null => exact scalar ▸ takesValue_null inner
  | .bool b => exact scalar ▸ takesValue_bool inner b
  | .num n => exact scalar ▸ takesValue_num inner n
  | .str s => exact scalar ▸ takesValue_str inner s
  | .arr items =>
    rw [chars_arr]
    intro more cs a rest _ agrees got
    obtain ⟨t, rfl, inside⟩ := exists_cons_of_read _ agrees got (scalar ▸ ⟨_, rfl⟩)
    cases depth with
    | zero => cases got
    | succ depth =>
      obtain ⟨list, after, taken, given⟩ := exists_of_bind got
      obtain ⟨rfl, -⟩ := takes_items (takesValue_items items depth) _ _ _ _ _ _ inside taken
      cases given
      exact .inl rfl
  | .obj members =>
    rw [chars_obj]
    intro more cs a rest _ agrees got
    obtain ⟨t, rfl, inside⟩ := exists_cons_of_read _ agrees got (scalar ▸ ⟨_, rfl⟩)
    cases depth with
    | zero => cases got
    | succ depth =>
      obtain ⟨list, after, taken, given⟩ := exists_of_bind got
      obtain ⟨rfl, -⟩ := takes_members (takesValue_members members depth) _ _ _ _ _ _ inside taken
      cases given
      exact .inl rfl

theorem takesValue_items (items : List Json) (depth : Nat) :
    ∀ item ∈ items, TakesValue (tree depth) (chars item) := by
  match items with
  | [] => simp
  | item :: items => exact List.forall_mem_cons.2 ⟨takesValue_tree item depth, takesValue_items items depth⟩

theorem takesValue_members (members : List (String × Json)) (depth : Nat) :
    ∀ member ∈ members, TakesValue (tree depth) (chars member.2) := by
  match members with
  | [] => simp
  | (name, item) :: members =>
    exact List.forall_mem_cons.2 ⟨takesValue_tree item depth, takesValue_members members depth⟩

end

end Json

end Replica
