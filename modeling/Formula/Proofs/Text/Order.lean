import Formula.Proofs.Calendar.Order
import Formula.Proofs.Timestamp.Bytes
import Formula.Value

/-! Texts are in the order of their bytes, which is that of their code points. -/

namespace Formula

def leadByte (n : Nat) : Nat :=
  if n ≤ 0x7f then n
  else if n ≤ 0x7ff then n / 64 + 0xc0
  else if n ≤ 0xffff then n / 4096 + 0xe0
  else n / 262144 + 0xf0

def trailBytes (n : Nat) : List Nat :=
  if n ≤ 0x7f then []
  else if n ≤ 0x7ff then [n % 64 + 0x80]
  else if n ≤ 0xffff then [n / 64 % 64 + 0x80, n % 64 + 0x80]
  else [n / 4096 % 64 + 0x80, n / 64 % 64 + 0x80, n % 64 + 0x80]

variable {m n : Nat}

theorem toNat_lt (c : Char) : c.toNat < 0x110000 := by
  obtain low | ⟨-, high⟩ := c.valid
  · exact Nat.lt_trans low (by decide)
  · exact high

theorem utf8EncodeChar_eq (c : Char) :
    String.utf8EncodeChar c = (leadByte c.toNat :: trailBytes c.toNat).map UInt8.ofNat := by
  have bound := toNat_lt c
  have same : c.val.toNat = c.toNat := rfl
  simp only [String.utf8EncodeChar, leadByte, trailBytes, same]
  split
  · rfl
  · split
    · rw [Nat.mod_eq_of_lt (a := c.toNat / 64) (by omega)]
      rfl
    · split
      · rw [Nat.mod_eq_of_lt (a := c.toNat / 4096) (by omega)]
        rfl
      · rw [Nat.mod_eq_of_lt (a := c.toNat / 262144) (by omega)]
        rfl

theorem compare_ofNat (short : m < 256) (short' : n < 256) :
    compare (UInt8.ofNat m) (UInt8.ofNat n) = compare (m : Int) n := by
  change compareOfLessAndEq (UInt8.ofNat m) (UInt8.ofNat n) = compareOfLessAndEq (m : Int) n
  simp only [compareOfLessAndEq, UInt8.lt_iff_toNat_lt, ← UInt8.toNat_inj, UInt8.toNat_ofNat',
    Int.ofNat_lt, Int.ofNat_inj]
  rw [Nat.mod_eq_of_lt short, Nat.mod_eq_of_lt short']

theorem leadByte_lt (bound : n < 0x110000) : leadByte n < 256 := by
  unfold leadByte
  split_ifs <;> omega

theorem lt_of_leadByte_lt (less : leadByte m < leadByte n) (bound : n < 0x110000) : m < n := by
  unfold leadByte at less
  split_ifs at less <;> omega

theorem compare_trailBytes (same : leadByte m = leadByte n) (bound : m < 0x110000)
    (bound' : n < 0x110000) (rest rest' : List UInt8) :
    compare ((trailBytes m).map UInt8.ofNat ++ rest) ((trailBytes n).map UInt8.ofNat ++ rest') =
      (compare (m : Int) n).then (compare rest rest') := by
  unfold leadByte at same
  unfold trailBytes
  have byte (k : Nat) : k % 64 + 0x80 < 256 := by omega
  split_ifs at same ⊢
  any_goals omega
  all_goals simp only [List.map_cons, List.map_nil, List.cons_append, List.nil_append,
    List.compare_cons_cons, compare_ofNat (byte _) (byte _), ← Ordering.then_assoc]
  · rw [Int.compare_eq_eq.mpr (by omega)]
    rfl
  · have value : compare (m : Int) n =
        compare ((m % 64 + 0x80 : Nat) : Int) (n % 64 + 0x80 : Nat) :=
      compare_eq_compare (by omega) (by omega) (by omega)
    rw [value]
  · have value : compare (m : Int) n =
        (compare ((m / 64 % 64 + 0x80 : Nat) : Int) (n / 64 % 64 + 0x80 : Nat)).then
          (compare ((m % 64 + 0x80 : Nat) : Int) (n % 64 + 0x80 : Nat)) := by
      refine compare_eq_then (by omega) (by omega) fun _ => ?_
      exact compare_eq_compare (by omega) (by omega) (by omega)
    rw [value]
  · have value : compare (m : Int) n =
        ((compare ((m / 4096 % 64 + 0x80 : Nat) : Int) (n / 4096 % 64 + 0x80 : Nat)).then
          (compare ((m / 64 % 64 + 0x80 : Nat) : Int) (n / 64 % 64 + 0x80 : Nat))).then
          (compare ((m % 64 + 0x80 : Nat) : Int) (n % 64 + 0x80 : Nat)) := by
      rw [Ordering.then_assoc]
      refine compare_eq_then (by omega) (by omega) fun _ => ?_
      refine compare_eq_then (by omega) (by omega) fun _ => ?_
      exact compare_eq_compare (by omega) (by omega) (by omega)
    rw [value]

/-- Characters are told apart within their own bytes, and in the order of their code points. -/
theorem compare_utf8EncodeChar_append (c d : Char) (rest rest' : List UInt8) :
    compare (String.utf8EncodeChar c ++ rest) (String.utf8EncodeChar d ++ rest') =
      (compare c.toNat d.toNat).then (compare rest rest') := by
  have bound := toNat_lt c
  have bound' := toNat_lt d
  simp only [utf8EncodeChar_eq, List.map_cons, List.cons_append, List.compare_cons_cons,
    compare_ofNat (leadByte_lt bound) (leadByte_lt bound'), ← compare_natCast]
  obtain before | same | after := Nat.lt_trichotomy (leadByte c.toNat) (leadByte d.toNat)
  · have less := lt_of_leadByte_lt before bound'
    rw [Int.compare_eq_lt.mpr (Int.ofNat_lt.mpr before),
      Int.compare_eq_lt.mpr (Int.ofNat_lt.mpr less)]
    rfl
  · rw [Int.compare_eq_eq.mpr (Int.ofNat_inj.mpr same), compare_trailBytes same bound bound']
    rfl
  · have greater := lt_of_leadByte_lt after bound
    rw [Int.compare_eq_gt.mpr (Int.ofNat_lt.mpr after),
      Int.compare_eq_gt.mpr (Int.ofNat_lt.mpr greater)]
    rfl

def codePoints (text : String) : List Nat := text.toList.map Char.toNat

theorem compare_bytes_eq_codePoints (a b : String) :
    compare (bytes a) (bytes b) = compare (codePoints a) (codePoints b) := by
  rw [bytes_eq_flatMap, bytes_eq_flatMap, codePoints, codePoints]
  generalize a.toList = chars
  generalize b.toList = chars'
  induction chars generalizing chars' with
  | nil =>
    cases chars' with
    | nil => rfl
    | cons d chars' =>
      obtain ⟨byte, more, shape⟩ := List.exists_cons_of_ne_nil (@String.utf8EncodeChar_ne_nil d)
      rw [List.flatMap_cons, shape]
      rfl
  | cons c chars ih =>
    cases chars' with
    | nil =>
      obtain ⟨byte, more, shape⟩ := List.exists_cons_of_ne_nil (@String.utf8EncodeChar_ne_nil c)
      rw [List.flatMap_cons, shape]
      rfl
    | cons d chars' =>
      rw [List.flatMap_cons, List.flatMap_cons, compare_utf8EncodeChar_append, ih, List.map_cons,
        List.map_cons, List.compare_cons_cons]

theorem compareOfLessAndEq_cons (c d : Char) (chars chars' : List Char) :
    compareOfLessAndEq (c :: chars) (d :: chars') =
      (compare c.toNat d.toNat).then (compareOfLessAndEq chars chars') := by
  have inOrder : c < d ↔ c.toNat < d.toNat := Iff.rfl
  simp only [compareOfLessAndEq, List.cons_lt_cons_iff, List.cons.injEq, inOrder, ← Char.toNat_inj]
  obtain before | same | after := Nat.lt_trichotomy c.toNat d.toNat
  · rw [Nat.compare_eq_lt.mpr before]
    simp [before]
  · rw [Nat.compare_eq_eq.mpr same]
    simp [same]
  · rw [Nat.compare_eq_gt.mpr after]
    simp [Nat.ne_of_gt after, Nat.lt_asymm after]

theorem Ordered.compare_string_eq (a b : String) :
    Ordered.compare .string a b = some (Ord.compare (codePoints a) (codePoints b)) := by
  have chars : Ordered.compare .string a b = some (compareOfLessAndEq a.toList b.toList) := by
    simp only [Ordered.compare, compareOfLessAndEq, String.toList_inj]
    rfl
  rw [chars, codePoints, codePoints]
  generalize a.toList = chars
  generalize b.toList = chars'
  congr 1
  induction chars generalizing chars' with
  | nil => cases chars' <;> rfl
  | cons c chars ih =>
    cases chars' with
    | nil => rfl
    | cons d chars' =>
      rw [compareOfLessAndEq_cons, ih, List.map_cons, List.map_cons, List.compare_cons_cons]

end Formula
