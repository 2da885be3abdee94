import Formula.Proofs.Timestamp.Form
import Mathlib.Data.List.Forall2

/-! The written form as bytes: digits in the fields, and a mark behind each of them. -/

namespace Formula

attribute [local instance (high)] instPowNat

def bytes (text : String) : List UInt8 := text.toUTF8.data.toList

theorem bytes_eq_flatMap (text : String) : bytes text = text.toList.flatMap String.utf8EncodeChar :=
  calc
    bytes text = (String.ofList text.toList).toByteArray.data.toList := by
      rw [String.ofList_toList]
      rfl
    _ = text.toList.flatMap String.utf8EncodeChar := by
      rw [String.toByteArray_ofList, List.utf8Encode, List.toList_data_toByteArray]

theorem utf8EncodeChar_of_le {c : Char} (ascii : c.toNat ≤ 127) :
    String.utf8EncodeChar c = [c.toUInt8] := by
  have short : c.val ≤ 127 := UInt32.le_iff_toNat_le.mpr ascii
  exact String.utf8EncodeChar_eq_singleton (Char.utf8Size_eq_one_iff.mpr short)

theorem utf8EncodeChar_of_lt {c : Char} (beyond : 127 < c.toNat) :
    ∃ byte more, String.utf8EncodeChar c = byte :: more ∧ 127 < byte.toNat := by
  have long : ¬ c.val.toNat ≤ 127 := Nat.not_le.mpr beyond
  simp only [String.utf8EncodeChar, if_neg long]
  split
  · exact ⟨_, _, rfl, by simp only [UInt8.toNat_ofNat']; omega⟩
  · split
    · exact ⟨_, _, rfl, by simp only [UInt8.toNat_ofNat']; omega⟩
    · exact ⟨_, _, rfl, by simp only [UInt8.toNat_ofNat']; omega⟩

theorem bytes_eq_map {text : String} (ascii : ∀ c ∈ text.toList, c.toNat ≤ 127) :
    bytes text = text.toList.map Char.toUInt8 := by
  rw [bytes_eq_flatMap, List.map_eq_flatMap]
  exact List.flatMap_congr fun c present => utf8EncodeChar_of_le (ascii c present)

theorem toNat_toUInt8 {c : Char} (ascii : c.toNat ≤ 127) : c.toUInt8.toNat = c.toNat := by
  rw [Char.toUInt8, UInt32.toNat_toUInt8]
  exact Nat.mod_eq_of_lt (by change c.toNat < 256; omega)

namespace Timestamp

/-- The form of a timestamp, with `d` for a digit. -/
def form : List Char := "dddd-dd-ddTdd:dd:dd.dddZ".toList

/-- The byte is a digit where the form has one, and elsewhere the mark of the form. -/
def Fills (mark : Char) (byte : UInt8) : Prop :=
  if mark = 'd' then '0'.toUInt8 ≤ byte ∧ byte ≤ '9'.toUInt8 else byte = mark.toUInt8

def HasForm (text : String) : Prop := List.Forall₂ Fills form (bytes text)

def field (text : List UInt8) (start width : Nat) : Nat :=
  ((text.drop start).take width).foldl (fun n byte => 10 * n + (byte.toNat - '0'.toNat)) 0

def written (text : String) : Timestamp where
  year := field (bytes text) 0 4
  month := field (bytes text) 5 2
  day := field (bytes text) 8 2
  hour := field (bytes text) 11 2
  minute := field (bytes text) 14 2
  second := field (bytes text) 17 2
  millisecond := field (bytes text) 20 3

def Suits (mark c : Char) : Prop := if mark = 'd' then c.isDigit = true else c = mark

variable {mark c : Char} {marks chars : List Char} {byte : UInt8} {rest : List UInt8}

theorem Suits.ascii (suits : Suits mark c) (ascii : mark.toNat ≤ 127) : c.toNat ≤ 127 := by
  unfold Suits at suits
  split at suits
  · have digit := (Char.isDigit_iff_toNat.mp suits).2
    simp only [Char.reduceToNat] at digit
    omega
  · rwa [suits]

theorem ascii_of_suits (ascii : ∀ mark ∈ marks, mark.toNat ≤ 127)
    (suits : List.Forall₂ Suits marks chars) : ∀ c ∈ chars, c.toNat ≤ 127 := by
  induction suits with
  | nil => exact nofun
  | cons first _ ih =>
    obtain ⟨mark, others⟩ := List.forall_mem_cons.mp ascii
    exact List.forall_mem_cons.mpr ⟨first.ascii mark, ih others⟩

theorem Fills.ascii (fills : Fills mark byte) (ascii : mark.toNat ≤ 127) : byte.toNat ≤ 127 := by
  unfold Fills at fills
  split at fills
  · exact Nat.le_trans (UInt8.le_iff_toNat_le.mp fills.2) (by decide)
  · rwa [fills, toNat_toUInt8 ascii]

theorem fills_toUInt8_iff (markAscii : mark.toNat ≤ 127) (ascii : c.toNat ≤ 127) :
    Fills mark c.toUInt8 ↔ Suits mark c := by
  unfold Fills Suits
  split
  · rw [Char.isDigit_iff_toNat, UInt8.le_iff_toNat_le, UInt8.le_iff_toNat_le, toNat_toUInt8 ascii]
    rfl
  · rw [← Char.toNat_inj, ← UInt8.toNat_inj, toNat_toUInt8 ascii, toNat_toUInt8 markAscii]

/-- Bytes that fill the form are characters of their own, as every mark is in ASCII. -/
theorem forall₂_fills_utf8EncodeChar_iff (ascii : mark.toNat ≤ 127) :
    List.Forall₂ Fills (mark :: marks) (String.utf8EncodeChar c ++ rest) ↔
      Suits mark c ∧ List.Forall₂ Fills marks rest := by
  obtain beyond | short := Nat.lt_or_ge 127 c.toNat
  · obtain ⟨byte, more, shape, high⟩ := utf8EncodeChar_of_lt beyond
    rw [shape, List.cons_append, List.forall₂_cons]
    constructor
    · intro fills
      exact absurd (fills.1.ascii ascii) (Nat.not_le.mpr high)
    · intro suits
      exact absurd (suits.1.ascii ascii) (Nat.not_le.mpr beyond)
  · rw [utf8EncodeChar_of_le short, List.singleton_append, List.forall₂_cons,
      fills_toUInt8_iff ascii short]

theorem forall₂_fills_iff (ascii : ∀ mark ∈ marks, mark.toNat ≤ 127) :
    List.Forall₂ Fills marks (chars.flatMap String.utf8EncodeChar) ↔
      List.Forall₂ Suits marks chars := by
  induction chars generalizing marks with
  | nil => simp
  | cons c chars ih =>
    rw [List.flatMap_cons]
    cases marks with
    | nil => simp [String.utf8EncodeChar_ne_nil]
    | cons mark marks =>
      obtain ⟨first, others⟩ := List.forall_mem_cons.mp ascii
      rw [forall₂_fills_utf8EncodeChar_iff first, List.forall₂_cons, ih others]

theorem ascii_form : ∀ mark ∈ form, mark.toNat ≤ 127 := by
  have all : form.all fun mark => decide (mark.toNat ≤ 127) := rfl
  intro mark listed
  exact of_decide_eq_true (List.all_eq_true.mp all mark listed)

theorem hasForm_iff {text : String} : HasForm text ↔ List.Forall₂ Suits form text.toList := by
  rw [HasForm, bytes_eq_flatMap, forall₂_fills_iff ascii_form]

theorem forall₂_suits_digits {width : Nat} {digits : List Char} (plain : ∀ c ∈ digits, c.isDigit)
    (length : digits.length = width) (others : List.Forall₂ Suits marks chars) :
    List.Forall₂ Suits (List.replicate width 'd' ++ marks) (digits ++ chars) := by
  subst length
  induction digits with
  | nil => exact others
  | cons c digits ih =>
    obtain ⟨first, plain⟩ := List.forall_mem_cons.mp plain
    exact .cons first (ih plain)

theorem exists_of_forall₂_suits {width : Nat}
    (suits : List.Forall₂ Suits (List.replicate width 'd' ++ marks) chars) :
    ∃ digits others, chars = digits ++ others ∧ digits.length = width ∧
      (∀ c ∈ digits, c.isDigit) ∧ List.Forall₂ Suits marks others := by
  induction width generalizing chars with
  | zero => exact ⟨[], chars, rfl, rfl, nofun, suits⟩
  | succ width ih =>
    rw [List.replicate_succ, List.cons_append, List.forall₂_cons_left_iff] at suits
    obtain ⟨c, chars, first, suits, rfl⟩ := suits
    obtain ⟨digits, others, rfl, rfl, plain, suits⟩ := ih suits
    exact ⟨c :: digits, others, rfl, rfl, List.forall_mem_cons.mpr ⟨first, plain⟩, suits⟩

theorem readNumber_of_suits (width : Nat)
    (suits : List.Forall₂ Suits (List.replicate width 'd' ++ marks) chars) :
    readNumber width chars = some (Nat.ofDigitChars 10 (chars.take width) 0, chars.drop width) ∧
      List.Forall₂ Suits marks (chars.drop width) := by
  obtain ⟨digits, others, rfl, length, plain, suits⟩ := exists_of_forall₂_suits suits
  rw [List.take_left' length, List.drop_left' length]
  exact ⟨readNumber_eq_some plain length others, suits⟩

theorem readMark_of_suits (plain : mark ≠ 'd') (suits : List.Forall₂ Suits (mark :: marks) chars) :
    readMark mark chars = some (chars.drop 1) ∧ List.Forall₂ Suits marks (chars.drop 1) := by
  obtain ⟨c, others, first, suits', rfl⟩ := List.forall₂_cons_left_iff.mp suits
  rw [Suits, if_neg plain] at first
  rw [first]
  exact ⟨readMark_cons mark others, suits'⟩

theorem form_eq : form =
    List.replicate 4 'd' ++ '-' :: (List.replicate 2 'd' ++ '-' :: (List.replicate 2 'd' ++ 'T' ::
      (List.replicate 2 'd' ++ ':' :: (List.replicate 2 'd' ++ ':' :: (List.replicate 2 'd' ++
        '.' :: (List.replicate 3 'd' ++ ['Z'])))))) := by decide

theorem suits_text {t : Timestamp} (fits : t.FitsForm) :
    List.Forall₂ Suits form t.text.toList := by
  have digits {width n : Nat} (positive : 0 < width) (short : n < 10 ^ width)
      {marks chars : List Char} (others : List.Forall₂ Suits marks chars) :
      List.Forall₂ Suits (List.replicate width 'd' ++ marks) (paddedDigits width n ++ chars) :=
    forall₂_suits_digits (fun _ => isDigit_of_mem_paddedDigits)
      (length_paddedDigits positive short) others
  have suits (mark : Char) (plain : mark ≠ 'd') : Suits mark mark := (if_neg plain).mpr rfl
  rw [form_eq, toList_text fits]
  exact digits (by decide) fits.natAbs_year_lt <| .cons (suits _ (by decide)) <|
    digits (by decide) fits.month <| .cons (suits _ (by decide)) <|
    digits (by decide) fits.day <| .cons (suits _ (by decide)) <|
    digits (by decide) fits.hour <| .cons (suits _ (by decide)) <|
    digits (by decide) fits.minute <| .cons (suits _ (by decide)) <|
    digits (by decide) fits.second <| .cons (suits _ (by decide)) <|
    digits (by decide) fits.millisecond <| .cons (suits _ (by decide)) .nil

def number (chars : List Char) (start width : Nat) : Nat :=
  Nat.ofDigitChars 10 ((chars.drop start).take width) 0

theorem field_map (ascii : ∀ c ∈ chars, c.toNat ≤ 127) (start width : Nat) :
    field (chars.map Char.toUInt8) start width = number chars start width := by
  rw [field, number, ← List.map_drop, ← List.map_take, List.foldl_map, Nat.ofDigitChars]
  apply List.foldl_ext
  intro n c present
  rw [toNat_toUInt8 (ascii c (List.mem_of_mem_drop (List.mem_of_mem_take present)))]

theorem read_of_suits (suits : List.Forall₂ Suits form chars) :
    read chars = some ({
      year := number chars 0 4, month := number chars 5 2, day := number chars 8 2
      hour := number chars 11 2, minute := number chars 14 2, second := number chars 17 2
      millisecond := number chars 20 3 }, []) := by
  rw [form_eq] at suits
  obtain ⟨year, suits⟩ := readNumber_of_suits 4 suits
  obtain ⟨mark, suits⟩ := readMark_of_suits (by decide) suits
  obtain ⟨month, suits⟩ := readNumber_of_suits 2 suits
  obtain ⟨mark', suits⟩ := readMark_of_suits (by decide) suits
  obtain ⟨day, suits⟩ := readNumber_of_suits 2 suits
  obtain ⟨time, suits⟩ := readMark_of_suits (by decide) suits
  obtain ⟨hour, suits⟩ := readNumber_of_suits 2 suits
  obtain ⟨colon, suits⟩ := readMark_of_suits (by decide) suits
  obtain ⟨minute, suits⟩ := readNumber_of_suits 2 suits
  obtain ⟨colon', suits⟩ := readMark_of_suits (by decide) suits
  obtain ⟨second, suits⟩ := readNumber_of_suits 2 suits
  obtain ⟨point, suits⟩ := readMark_of_suits (by decide) suits
  obtain ⟨millisecond, suits⟩ := readNumber_of_suits 3 suits
  obtain ⟨zone, suits⟩ := readMark_of_suits (by decide) suits
  simp only [read, Option.bind_eq_bind, Option.bind_some, year, mark, month, mark', day, time, hour,
    colon, minute, colon', second, point, millisecond, zone, List.forall₂_nil_left_iff.mp suits]
  simp only [List.drop_drop, Nat.reduceAdd]
  rfl

theorem HasForm.ascii {text : String} (hasForm : HasForm text) :
    ∀ c ∈ text.toList, c.toNat ≤ 127 :=
  ascii_of_suits ascii_form (hasForm_iff.mp hasForm)

theorem HasForm.read {text : String} (hasForm : HasForm text) :
    read text.toList = some (written text, []) := by
  rw [read_of_suits (hasForm_iff.mp hasForm), written, bytes_eq_map hasForm.ascii]
  simp only [field_map hasForm.ascii]

theorem HasForm.fitsForm {text : String} (hasForm : HasForm text) : (written text).FitsForm :=
  (read_eq_some_iff.mp hasForm.read).1

/-- A text is read if its bytes have the form, and as what is written in its fields. -/
theorem read_eq_some_iff_hasForm {text : String} {t : Timestamp} :
    read text.toList = some (t, []) ↔ HasForm text ∧ written text = t := by
  constructor
  · intro found
    obtain ⟨fits, same⟩ := read_eq_some_iff.mp found
    rw [List.append_nil] at same
    have hasForm : HasForm text := by
      rw [hasForm_iff, same]
      exact suits_text fits
    rw [hasForm.read] at found
    cases found
    exact ⟨hasForm, rfl⟩
  · intro form
    rw [form.1.read, form.2]

end Timestamp

end Formula
