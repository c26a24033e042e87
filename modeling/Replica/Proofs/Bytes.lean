import Replica.Proofs.Heads
import Replica.Proofs.Records
import Mathlib.Data.String.Basic
import Mathlib.Tactic.SplitIfs
/-! The order of texts is the order of their bytes. In UTF-8 a greater character has more bytes, and then a
greater first one, or as many and a greater byte at the first difference; so texts compare alike character
by character and byte by byte, and keys by the bytes of their parts. -/
namespace Replica

namespace Text

/-- Bytes compare by the first of them, unless those are equal. -/
theorem cons_ofNat_lt {a b : Nat} {x y : List UInt8} (le : a ≤ b) (fits : b < 256) (later : a = b → x < y) :
    UInt8.ofNat a :: x < UInt8.ofNat b :: y := by
  rcases Nat.lt_or_eq_of_le le with less | rfl
  · exact .rel ((UInt8.ofNat_lt_iff_lt (Nat.lt_trans less fits) fits).2 less)
  · exact .cons (later rfl)

/-- The bytes of a lesser character come first, whatever follows. -/
theorem utf8EncodeChar_append_lt {c d : Char} (less : c < d) (x y : List UInt8) :
    String.utf8EncodeChar c ++ x < String.utf8EncodeChar d ++ y := by
  have less : c.val.toNat < d.val.toNat := less
  have bound : d.val.toNat < 0x110000 := by
    rcases d.valid with low | ⟨-, high⟩
    · exact Nat.lt_trans low (by decide)
    · exact high
  unfold String.utf8EncodeChar
  generalize c.val.toNat = v at less
  generalize d.val.toNat = w at less bound
  dsimp only
  split_ifs <;> simp only [List.cons_append, List.nil_append]
  -- byte by byte: where the numbers of bytes differ the first ones do, and else some byte does
  all_goals refine cons_ofNat_lt (by omega) (by omega) fun first => ?_
  all_goals try omega
  all_goals refine cons_ofNat_lt (by omega) (by omega) fun second => ?_
  all_goals try omega
  all_goals refine cons_ofNat_lt (by omega) (by omega) fun third => ?_
  all_goals try omega
  exact cons_ofNat_lt (by omega) (by omega) fun fourth => by omega

theorem utf8_eq (s : String) : utf8 s = s.toList.flatMap String.utf8EncodeChar := by
  rw [utf8, ByteArray.toList, toList_loop, String.toUTF8, ← String.utf8Encode_toList, List.utf8Encode]
  simp

theorem utf8_lt_of_lt {a b : String} (less : a < b) : utf8 a < utf8 b := by
  have less : List.Lex (· < ·) a.toList b.toList := less
  rw [utf8_eq, utf8_eq]
  generalize a.toList = cs, b.toList = ds at less
  induction less with
  | @nil c rest =>
    obtain ⟨byte, more, made⟩ := List.exists_cons_of_ne_nil (String.utf8EncodeChar_ne_nil (c := c))
    rw [List.flatMap_cons, made]
    exact .nil
  | rel first => exact utf8EncodeChar_append_lt first ..
  | cons later ih => exact List.append_left_lt ih

/-- Texts stand in the order of their bytes. -/
theorem utf8_lt_iff {a b : String} : utf8 a < utf8 b ↔ a < b := by
  constructor
  · intro less
    rcases lt_trichotomy a b with before | rfl | after
    · exact before
    · exact absurd less (List.lt_irrefl _)
    · exact absurd less (List.lt_asymm (utf8_lt_of_lt after))
  · exact utf8_lt_of_lt

theorem compare_eq_lt_iff {a b : String} : compare a b = .lt ↔ utf8 a < utf8 b := by
  rw [utf8_lt_iff]
  exact compareOfLessAndEq_eq_lt

end Text

/-- Keys rise by the bytes of the kind, and within a kind by the bytes of the id. -/
theorem EntityKey.compare_eq_lt_iff {a b : EntityKey} :
    compare a b = .lt ↔
      Text.utf8 a.kind < Text.utf8 b.kind ∨ a.kind = b.kind ∧ Text.utf8 a.id < Text.utf8 b.id := by
  rw [← Text.compare_eq_lt_iff, ← Text.compare_eq_lt_iff, ← Std.LawfulEqOrd.compare_eq_iff_eq (a := a.kind)]
  exact Ordering.then_eq_lt

end Replica
