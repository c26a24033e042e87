import Replica.Cbor.Header
import Replica.Text.Utf8
import Mathlib.Algebra.GroupWithZero.Nat
/-! Numbers, heads and texts as bytes, and read back. Whatever follows them stays as it is. -/
namespace Replica

namespace Text

theorem toList_loop (bytes : ByteArray) (i : Nat) (done : List UInt8) :
    ByteArray.toList.loop bytes i done = done.reverse ++ bytes.data.toList.drop i := by
  fun_induction ByteArray.toList.loop bytes i done with
  | case1 i done inside ih =>
    have there : i < bytes.data.toList.length := inside
    have same : bytes.get! i = bytes.data.toList[i] := getElem!_pos bytes.data i inside
    rw [ih, List.drop_eq_getElem_cons there, same]
    simp
  | case2 i done outside =>
    have beyond : bytes.data.toList.length ≤ i := Nat.le_of_not_lt outside
    rw [List.drop_eq_nil_of_le beyond, List.append_nil]

/-- A text is what its bytes spell. -/
@[simp]
theorem ofUtf8?_utf8 (s : String) : ofUtf8? (utf8 s) = some s := by
  have bytes : ByteArray.mk (utf8 s).toArray = s.toUTF8 := by
    rw [utf8, ByteArray.toList, toList_loop]
    simp
  rw [ofUtf8?, bytes]
  exact dif_pos s.isValidUTF8

end Text

namespace Cbor

theorem take_append (bs rest : List UInt8) : take bs.length (bs ++ rest) = .ok (bs, rest) := by
  simp [take]

@[simp]
theorem length_bigEndianBytes (width n : Nat) : (bigEndianBytes width n).length = width := by
  induction width generalizing n with
  | zero => rfl
  | succ width ih => simp [bigEndianBytes, ih]

theorem bigEndian_append (bs : List UInt8) (b : UInt8) :
    bigEndian (bs ++ [b]) = bigEndian bs * 256 + b.toNat := by
  simp [bigEndian]

/-- A number is what its bytes spell, if they are enough for it. -/
theorem bigEndian_bigEndianBytes {width n : Nat} (fits : n < 256 ^ width) :
    bigEndian (bigEndianBytes width n) = n := by
  induction width generalizing n with
  | zero =>
    obtain rfl : n = 0 := by simpa using fits
    rfl
  | succ width ih =>
    have most : n / 256 < 256 ^ width := by
      rw [Nat.pow_succ] at fits
      omega
    rw [bigEndianBytes, bigEndian_append, ih most, UInt8.toNat_ofNat']
    omega

/-- The head of an item that is no tag, no simple value and no float. -/
def Header.plain (major n : Nat) : Header :=
  match major with
  | 0 => .positive n
  | 1 => .negative n
  | 2 => .bytes (some n)
  | 3 => .text (some n)
  | 4 => .array (some n)
  | _ => .map (some n)

theorem headerOf_plain {major info : Nat} (kind : major < 6) (definite : info < 28) (n argument : Nat)
    (number : (if info < 24 then info else argument) = n) :
    headerOf major info argument = .ok (.plain major n) := by
  have some_ : info ≠ 31 := by omega
  unfold headerOf
  rw [number]
  match major, kind with
  | 0, _ | 1, _ | 2, _ | 3, _ | 4, _ | 5, _ => simp [some_, Header.plain]

/-- A head is read from its first byte and from as many bytes as that announces. -/
theorem header_cons (b : UInt8) (argument : List UInt8)
    (announces : argumentWidth (b.toNat % 32) = some argument.length) (rest : List UInt8) :
    header (b :: (argument ++ rest)) =
      (headerOf (b.toNat / 32) (b.toNat % 32) (bigEndian argument)).map (·, rest) := by
  unfold header
  simp only [announces]
  rw [take_append]
  cases made : headerOf (b.toNat / 32) (b.toNat % 32) (bigEndian argument) <;>
    simp [bind, Except.bind, made, Except.map, pure, Except.pure]

theorem header_wide {major info width n : Nat} (kind : major < 6) (long : 24 ≤ info) (definite : info < 28)
    (announces : argumentWidth info = some width) (fits : n < 256 ^ width) (rest : List UInt8) :
    header (UInt8.ofNat (major * 32 + info) :: bigEndianBytes width n ++ rest) =
      .ok (.plain major n, rest) := by
  have first : (UInt8.ofNat (major * 32 + info)).toNat = major * 32 + info := by
    rw [UInt8.toNat_ofNat']
    omega
  have low : (major * 32 + info) % 32 = info := by omega
  have high : (major * 32 + info) / 32 = major := by omega
  rw [List.cons_append, header_cons _ _ (by rw [first, low, announces, length_bigEndianBytes]), first, low, high,
    bigEndian_bigEndianBytes fits, headerOf_plain kind definite n n (if_neg (by omega))]
  rfl

/-- The head of a number below 2^64 reads as what it is. -/
theorem header_head {major n : Nat} (kind : major < 6) (fits : n < 2 ^ 64) (rest : List UInt8) :
    header (head major n ++ rest) = .ok (.plain major n, rest) := by
  unfold head
  split
  · have first : (UInt8.ofNat (major * 32 + n)).toNat = major * 32 + n := by
      rw [UInt8.toNat_ofNat']
      omega
    have low : (major * 32 + n) % 32 = n := by omega
    have high : (major * 32 + n) / 32 = major := by omega
    have read : header (UInt8.ofNat (major * 32 + n) :: ([] ++ rest)) = _ :=
      header_cons _ _ (by rw [first, low]; exact if_pos ‹_›) rest
    rw [first, low, high, headerOf_plain kind (by omega) n _ (if_pos ‹_›)] at read
    exact read
  split
  · exact header_wide kind (by decide) (by decide) rfl (by simpa using ‹_›) rest
  split
  · exact header_wide kind (by decide) (by decide) rfl (by simpa using ‹_›) rest
  split
  · exact header_wide kind (by decide) (by decide) rfl (by simpa using ‹_›) rest
  · exact header_wide kind (by decide) (by decide) rfl fits rest

end Cbor

end Replica
