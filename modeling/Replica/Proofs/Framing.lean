import Replica.MessageFile
import Replica.Proofs.Documents
/-! Message files, line by line. A file can be cut at any line break: what stands before it is read as it
would be alone, and what stands after it only has its lines counted on from there. A message that is
written as compact JSON takes one line, whatever its texts hold, and the line is read as that message
alone, with any white space around it; blank lines and comments between messages are only counted. -/
namespace Replica

/-! ### Compact JSON takes one line -/

namespace Json

theorem space_le_of_isNumeric {c : Char} (numeric : isNumeric c = true) : 0x20 ≤ c.toNat := by
  simp only [isNumeric, isDigit, Bool.or_eq_true, Bool.and_eq_true, decide_eq_true_eq] at numeric
  rcases numeric with ((((digit | plus) | minus) | point) | small) | capital
  · exact Nat.le_trans (by decide) digit.1
  · exact plus ▸ by decide
  · exact minus ▸ by decide
  · exact point ▸ by decide
  · exact small ▸ by decide
  · exact capital ▸ by decide

theorem space_le_of_all {cs : List Char} (all : cs.all (0x20 ≤ ·.toNat) = true) : ∀ c ∈ cs, 0x20 ≤ c.toNat := by
  simpa using all

theorem space_le_hexDigit : ∀ n < 16, 0x20 ≤ (Text.hexDigit n).toNat := by
  decide

/-- An escaped character is not a control character, and neither are the characters that escape one. -/
theorem space_le_escapeChar (c : Char) : ∀ d ∈ escapeChar c, 0x20 ≤ d.toNat := by
  apply space_le_of_all
  unfold escapeChar
  split
  · rfl
  split
  · rfl
  split
  · rfl
  split
  · rfl
  split
  · rfl
  split
  · rfl
  split
  · rfl
  split
  · rename_i control
    have high := space_le_hexDigit (c.toNat / 16) (by omega)
    have low := space_le_hexDigit (c.toNat % 16) (by omega)
    simp [high, low]
  · rename_i visible
    simp [Nat.not_lt.1 visible]

theorem space_le_quote (s : String) : ∀ c ∈ quote s, 0x20 ≤ c.toNat := by
  intro c among
  simp only [quote, List.mem_cons, List.mem_append, List.mem_flatMap, List.not_mem_nil, or_false] at among
  rcases among with rfl | ⟨d, -, among⟩ | rfl
  · decide
  · exact space_le_escapeChar d c among
  · decide

mutual

/-- Compact text has no control characters, so no line break either. -/
theorem space_le_chars (item : Json) : ∀ c ∈ chars item, 0x20 ≤ c.toNat := by
  match item with
  | .null => exact space_le_of_all rfl
  | .bool true => exact space_le_of_all rfl
  | .bool false => exact space_le_of_all rfl
  | .num n => exact fun c among => space_le_of_isNumeric (isNumeric_text n c among)
  | .str s => exact space_le_quote s
  | .arr items =>
    rw [chars_arr]
    exact List.forall_mem_cons.2 ⟨by decide, space_le_itemsText true items⟩
  | .obj members =>
    rw [chars_obj]
    exact List.forall_mem_cons.2 ⟨by decide, space_le_membersText true members⟩

theorem space_le_itemsText (first : Bool) (items : List Json) :
    ∀ c ∈ itemsText first items, 0x20 ≤ c.toNat := by
  match items with
  | [] => exact space_le_of_all rfl
  | item :: items =>
    have comma : ∀ c ∈ if first then [] else [','], 0x20 ≤ c.toNat := by
      cases first <;> exact space_le_of_all rfl
    rw [itemsText, itemsTail_eq]
    exact List.forall_mem_append.2 ⟨comma, List.forall_mem_append.2
      ⟨space_le_chars item, space_le_itemsText false items⟩⟩

theorem space_le_membersText (first : Bool) (members : List (String × Json)) :
    ∀ c ∈ membersText first members, 0x20 ≤ c.toNat := by
  match members with
  | [] => exact space_le_of_all rfl
  | (name, item) :: members =>
    have comma : ∀ c ∈ if first then [] else [','], 0x20 ≤ c.toNat := by
      cases first <;> exact space_le_of_all rfl
    rw [membersText, membersTail_eq]
    exact List.forall_mem_append.2 ⟨comma, List.forall_mem_append.2 ⟨space_le_quote name,
      List.forall_mem_cons.2 ⟨by decide, List.forall_mem_append.2
        ⟨space_le_chars item, space_le_membersText false members⟩⟩⟩⟩

end

/-- The members of an object end with its brace. -/
theorem exists_membersText_eq_append (first : Bool) (members : List (String × Json)) :
    ∃ body, membersText first members = body ++ ['\x7d'] := by
  induction members generalizing first with
  | nil => exact ⟨[], rfl⟩
  | cons member members ih =>
    obtain ⟨body, ends⟩ := ih false
    rw [membersText, membersTail_eq, ends, ← List.append_assoc, ← List.cons_append, ← List.append_assoc,
      ← List.append_assoc]
    exact ⟨_, rfl⟩

end Json

namespace Message

theorem newline_not_mem_toJson (m : Message) : '\n' ∉ m.toJson.toList := by
  intro among
  rw [toJson, Json.compact, String.toList_ofList] at among
  have visible := Json.space_le_chars m.json _ among
  revert visible
  decide

/-- A message is written between braces. -/
theorem exists_toJson_eq (m : Message) : ∃ body, m.toJson.toList = '\x7b' :: (body ++ ['\x7d']) := by
  rw [toJson, Json.compact, String.toList_ofList, json, Json.chars_obj]
  obtain ⟨body, ends⟩ := Json.exists_membersText_eq_append true _
  exact ⟨body, by rw [ends]⟩

end Message

/-! ### White space at the ends -/

namespace Text

theorem trimChars_eq_nil {margin : List Char} (blank : ∀ c ∈ margin, isBlank c = true) :
    trimChars margin = [] := by
  have gone : (margin ++ []).dropWhile isBlank = [] := List.dropWhile_append_of_pos blank
  rw [List.append_nil] at gone
  rw [trimChars, gone]
  rfl

/-- What comes before the first visible character is dropped, and the character stays. -/
theorem trimChars_cons {margin cs : List Char} {c : Char} (blank : ∀ c ∈ margin, isBlank c = true)
    (mark : isBlank c = false) :
    trimChars (margin ++ c :: cs) = c :: (cs.reverse.dropWhile isBlank).reverse := by
  have stays : [c].dropWhile isBlank = [c] := List.dropWhile_cons_of_neg (by simp [mark])
  rw [trimChars, List.dropWhile_append_of_pos blank, List.dropWhile_cons_of_neg (by simp [mark]),
    List.reverse_cons, List.dropWhile_append, stays]
  split
  · rename_i gone
    rw [List.isEmpty_iff.1 gone]
    rfl
  · rw [List.reverse_append]
    rfl

/-- What stands between two visible characters stays as it is. -/
theorem trimChars_between {before after body : List Char} {c d : Char}
    (blankBefore : ∀ c ∈ before, isBlank c = true) (blankAfter : ∀ c ∈ after, isBlank c = true)
    (first : isBlank c = false) (last : isBlank d = false) :
    trimChars (before ++ c :: (body ++ [d]) ++ after) = c :: (body ++ [d]) := by
  have blank : ∀ c ∈ after.reverse, isBlank c = true := fun c among =>
    blankAfter c (List.mem_reverse.1 among)
  rw [List.append_assoc, List.cons_append, trimChars_cons blankBefore first, List.reverse_append,
    List.dropWhile_append_of_pos blank, List.reverse_append, List.reverse_singleton, List.singleton_append,
    List.dropWhile_cons_of_neg (by simp [last]), List.reverse_cons, List.reverse_reverse]

end Text

/-- The same message, so many lines further down. -/
def MessageLine.lower (line : MessageLine) (lines : Nat) : MessageLine :=
  { line with number := line.number + lines }

namespace MessageFile

/-! ### Lines of a text -/

theorem splitLines_cons {c : Char} (cs : List Char) (plain : c ≠ '\n') :
    ∃ line lines, splitLines cs = line :: lines ∧ splitLines (c :: cs) = (c :: line) :: lines := by
  induction cs generalizing c with
  | nil => exact ⟨[], [], rfl, by simp [splitLines]⟩
  | cons d cs ih =>
    by_cases ends : d = '\n'
    · subst d
      exact ⟨[], splitLines cs, by simp [splitLines], by simp [splitLines]⟩
    · obtain ⟨line, lines, -, made⟩ := ih ends
      exact ⟨d :: line, lines, made, by simp [splitLines, made]⟩

/-- The lines before a line break and those after it are all the lines. -/
theorem splitLines_append (before after : List Char) :
    splitLines (before ++ '\n' :: after) = splitLines before ++ splitLines after := by
  induction before with
  | nil => rfl
  | cons c before ih =>
    by_cases ends : c = '\n'
    · subst c
      simp [splitLines, ih]
    · obtain ⟨line, lines, cut, made⟩ := splitLines_cons before ends
      obtain ⟨line', lines', cut', made'⟩ := splitLines_cons (before ++ '\n' :: after) ends
      rw [ih, cut, List.cons_append] at cut'
      obtain ⟨rfl, rfl⟩ := List.cons.inj cut'
      rw [List.cons_append, made', made, List.cons_append]

theorem length_splitLines (cs : List Char) : (splitLines cs).length = cs.count '\n' + 1 := by
  induction cs with
  | nil => rfl
  | cons c cs ih =>
    by_cases ends : c = '\n'
    · subst c
      simp [splitLines, ih]
    · obtain ⟨line, lines, cut, made⟩ := splitLines_cons cs ends
      rw [cut, List.length_cons] at ih
      rw [made, List.length_cons, ih, List.count_cons_of_ne ends]

theorem splitLines_of_not_mem {cs : List Char} (single : '\n' ∉ cs) : splitLines cs = [cs] := by
  induction cs with
  | nil => rfl
  | cons c cs ih =>
    rw [List.mem_cons, not_or] at single
    obtain ⟨plain, single⟩ := single
    obtain ⟨line, lines, cut, made⟩ := splitLines_cons cs (Ne.symm plain)
    rw [ih single] at cut
    obtain ⟨rfl, rfl⟩ := List.cons.inj cut
    exact made

theorem readLines_append (number : Nat) (before after : List (List Char)) :
    readLines number (before ++ after) = readLines number before ++ readLines (number + before.length) after := by
  induction before generalizing number with
  | nil => rfl
  | cons line before ih =>
    rw [List.cons_append, readLines, readLines, ih, List.append_assoc, List.length_cons,
      Nat.add_right_comm, Nat.add_assoc]

theorem readLine_lower (number lines : Nat) (line : List Char) :
    readLine (number + lines) line = (readLine number line).map (·.lower lines) := by
  unfold readLine
  dsimp only
  split <;> rfl

/-- Lines that are counted from further on hold the same messages further down. -/
theorem readLines_lower (number lines : Nat) (texts : List (List Char)) :
    readLines (number + lines) texts = (readLines number texts).map (·.lower lines) := by
  induction texts generalizing number with
  | nil => rfl
  | cons line texts ih =>
    rw [readLines, readLines, List.map_append, ← ih, readLine_lower, Nat.add_right_comm]
    cases readLine number line <;> rfl

theorem parse_newline (before after : String) :
    parse (before ++ "\n" ++ after) =
      parse before ++ (parse after).map (·.lower (before.toList.count '\n' + 1)) := by
  have text : (before ++ "\n" ++ after).toList = before.toList ++ '\n' :: after.toList := by
    rw [String.toList_append, String.toList_append, List.append_assoc]
    rfl
  rw [parse, text, splitLines_append, readLines_append, length_splitLines, readLines_lower]
  rfl

/-! ### Layouts -/

/-- White space within a line. -/
structure Margin where
  /-- The white space. -/
  chars : List Char
  /-- It is white space. -/
  blank : ∀ c ∈ chars, Text.isBlank c = true
  /-- It does not end the line. -/
  single : '\n' ∉ chars

/-- What a comment says. -/
structure Remark where
  /-- The text after the number sign. -/
  chars : List Char
  /-- It does not end the line. -/
  single : '\n' ∉ chars

/-- A line of a message file. -/
inductive Line where
  /-- White space only. -/
  | blank (margin : Margin)
  /-- A comment, possibly indented. -/
  | comment (margin : Margin) (remark : Remark)
  /-- A message, with white space around it. -/
  | message (before : Margin) (m : Message) (after : Margin)

/-- How a line ends. -/
inductive LineBreak where
  /-- With a line feed. -/
  | lf
  /-- With a carriage return before it. -/
  | crlf

/-- What comes before the line feed. -/
def LineBreak.carriage : LineBreak → List Char
  | lf => []
  | crlf => ['\r']

namespace Line

/-- The characters of the line, without its end. -/
def chars : Line → List Char
  | blank margin => margin.chars
  | comment margin remark => margin.chars ++ '#' :: remark.chars
  | message before m after => before.chars ++ m.toJson.toList ++ after.chars

/-- What a reader is to find in the line. -/
def entry (number : Nat) : Line → Option MessageLine
  | blank _ => none
  | comment _ _ => none
  | message _ m _ => some ⟨number, Message.ofJson m.toJson⟩

theorem newline_not_mem_chars (line : Line) : '\n' ∉ line.chars := by
  cases line with
  | blank margin => exact margin.single
  | comment margin remark => simp [chars, margin.single, remark.single]
  | message before m after => simp [chars, before.single, m.newline_not_mem_toJson, after.single]

/-- A line is read alike with white space after it. -/
theorem readLine_chars (number : Nat) (line : Line) {rest : List Char}
    (blank : ∀ c ∈ rest, Text.isBlank c = true) : readLine number (line.chars ++ rest) = line.entry number := by
  unfold readLine
  cases line with
  | blank margin =>
    rw [chars, Text.trimChars_eq_nil (List.forall_mem_append.2 ⟨margin.blank, blank⟩)]
    rfl
  | comment margin remark =>
    rw [chars, List.append_assoc, List.cons_append, Text.trimChars_cons margin.blank (by decide)]
    rfl
  | message before m after =>
    obtain ⟨body, braces⟩ := m.exists_toJson_eq
    have content : Text.trimChars (before.chars ++ m.toJson.toList ++ (after.chars ++ rest)) = m.toJson.toList := by
      rw [braces]
      exact Text.trimChars_between before.blank (List.forall_mem_append.2 ⟨after.blank, blank⟩)
        (by decide) (by decide)
    have isMessage : isMessage m.toJson.toList = true := by
      rw [braces]
      rfl
    rw [chars, List.append_assoc, content]
    simp only [isMessage, if_true, String.ofList_toList]
    rfl

end Line

/-- How messages are laid out in a file: any lines in any order, and what stands after the last line
break. -/
structure Layout where
  /-- The lines that are ended. -/
  ended : List (Line × LineBreak)
  /-- The line after them. -/
  last : Line

namespace Layout

/-- The text of a line and its end. -/
def endedChars (line : Line × LineBreak) : List Char := line.1.chars ++ line.2.carriage ++ ['\n']

/-- The text. -/
def text (layout : Layout) : String :=
  String.ofList (layout.ended.flatMap endedChars ++ layout.last.chars)

/-- The lines, without how they end. -/
def lines (layout : Layout) : List Line := layout.ended.map Prod.fst ++ [layout.last]

/-- Each message with the number of its line, in order. -/
def entries (layout : Layout) : List MessageLine :=
  (layout.lines.zipIdx 1).filterMap fun numbered => numbered.1.entry numbered.2

theorem blank_carriage (ending : LineBreak) : ∀ c ∈ ending.carriage, Text.isBlank c = true := by
  cases ending with
  | lf => exact List.forall_mem_nil _
  | crlf => exact List.forall_mem_singleton.2 rfl

theorem newline_not_mem_carriage (ending : LineBreak) : '\n' ∉ ending.carriage := by
  cases ending <;> decide

theorem readLines_chars (number : Nat) (ended : List (Line × LineBreak)) (last : Line) :
    readLines number (splitLines (ended.flatMap endedChars ++ last.chars)) =
      ((ended.map Prod.fst ++ [last]).zipIdx number).filterMap fun numbered => numbered.1.entry numbered.2 := by
  induction ended generalizing number with
  | nil =>
    have alone : readLine number (last.chars ++ []) = last.entry number :=
      last.readLine_chars number (List.forall_mem_nil _)
    rw [List.append_nil] at alone
    rw [List.flatMap_nil, List.nil_append, splitLines_of_not_mem last.newline_not_mem_chars]
    simp only [readLines, alone, List.map_nil, List.nil_append, List.zipIdx_cons, List.zipIdx_nil,
      List.filterMap_cons, List.filterMap_nil]
    cases last.entry number <;> rfl
  | cons first ended ih =>
    obtain ⟨line, ending⟩ := first
    have single : '\n' ∉ line.chars ++ ending.carriage := by
      simp [line.newline_not_mem_chars, newline_not_mem_carriage ending]
    have cut : splitLines (((line, ending) :: ended).flatMap endedChars ++ last.chars) =
        (line.chars ++ ending.carriage) :: splitLines (ended.flatMap endedChars ++ last.chars) := by
      rw [List.flatMap_cons, endedChars, List.append_assoc, List.append_assoc, List.singleton_append,
        splitLines_append, splitLines_of_not_mem single, List.singleton_append]
    rw [cut, readLines, ih, line.readLine_chars number (blank_carriage ending), List.map_cons, List.cons_append,
      List.zipIdx_cons, List.filterMap_cons]
    cases line.entry number <;> rfl

end Layout

/-- Messages are found where they stand. Two texts with a line break between them are read as the first,
and then the second with its lines counted on from there. And in a file of messages as they are written,
with blank lines and comments anywhere between them, each message is found once, in order, under the number
of its line, and is read as its text alone is. -/
theorem parse_framed :
    (∀ before after : String,
      parse (before ++ "\n" ++ after) =
        parse before ++ (parse after).map (·.lower (before.toList.count '\n' + 1))) ∧
    ∀ layout : Layout, parse layout.text = layout.entries := by
  constructor
  · exact parse_newline
  · intro layout
    rw [parse, Layout.text, String.toList_ofList]
    exact Layout.readLines_chars 1 layout.ended layout.last

end MessageFile

end Replica
