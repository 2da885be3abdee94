import Formula.Proofs.Token.Lexeme
import Formula.Text.WhiteSpace
import Mathlib.Data.List.DropRight

/-! What is left of a text without the white space at its ends. -/

namespace Formula.Text

def IsTight (text : String) : Prop :=
  (∀ c, text.toList.head? = some c → isWhiteSpace c = false) ∧
    ∀ c, text.toList.getLast? = some c → isWhiteSpace c = false

theorem isTight_of_forall {text : String} (solid : ∀ c ∈ text.toList, isWhiteSpace c = false) :
    IsTight text :=
  ⟨fun c first => solid c (List.mem_of_mem_head? first),
    fun c last => solid c (List.mem_of_mem_getLast? last)⟩

theorem not_isWhiteSpace_of_toNat {c : Char} (above : 0x20 < c.toNat) (below : c.toNat < 0x7f) :
    isWhiteSpace c = false := by
  simp only [isWhiteSpace, whiteSpaceRanges, List.any_cons, List.any_nil, Bool.or_false,
    Bool.or_eq_false_iff, Bool.and_eq_false_iff, decide_eq_false_iff_not]
  omega

theorem not_isWhiteSpace_of_isDigit {c : Char} (digit : c.isDigit) : isWhiteSpace c = false := by
  have bounds := Char.isDigit_iff_toNat.mp digit
  simp only [Char.reduceToNat] at bounds
  exact not_isWhiteSpace_of_toNat (by omega) (by omega)

structure Framed (text before core after : String) : Prop where
  split : text = before ++ core ++ after
  before : ∀ c ∈ before.toList, isWhiteSpace c
  tight : IsTight core
  after : ∀ c ∈ after.toList, isWhiteSpace c

variable {text before core after : String}

theorem toList_trim (text : String) :
    (trim text).toList = (text.toList.dropWhile isWhiteSpace).rdropWhile isWhiteSpace :=
  String.toList_ofList

theorem isTight_trim (text : String) : IsTight (trim text) := by
  have start := List.head?_dropWhile_not isWhiteSpace text.toList
  have stop := List.rdropWhile_last_not isWhiteSpace (text.toList.dropWhile isWhiteSpace)
  obtain ⟨tail, split⟩ := List.rdropWhile_prefix isWhiteSpace (text.toList.dropWhile isWhiteSpace)
  rw [← toList_trim] at stop split
  refine ⟨fun c first => ?_, fun c last => ?_⟩
  · rwa [← split, List.head?_append, first] at start
  · obtain ⟨present, rfl⟩ := List.mem_getLast?_eq_getLast last
    simpa using stop present

theorem exists_framed_trim (text : String) :
    ∃ before after, Framed text before (trim text) after := by
  refine ⟨.ofList (text.toList.takeWhile isWhiteSpace),
    .ofList ((text.toList.dropWhile isWhiteSpace).rtakeWhile isWhiteSpace), ?_, ?_,
    isTight_trim text, ?_⟩
  · apply String.toList_inj.mp
    rw [String.toList_append, String.toList_append, toList_trim, String.toList_ofList,
      String.toList_ofList, List.append_assoc, List.rdropWhile_append_rtakeWhile,
      List.takeWhile_append_dropWhile]
  · simpa using fun c => List.mem_takeWhile_imp
  · simpa using fun c => List.mem_rtakeWhile_imp

theorem rdropWhile_append_eq {α : Type} {p : α → Bool} {front tail : List α}
    (all : ∀ a ∈ tail, p a) (stop : ∀ a, front.getLast? = some a → p a = false) :
    (front ++ tail).rdropWhile p = front := by
  have back : ∀ a ∈ tail.reverse, p a := by simpa using all
  rw [List.rdropWhile, List.reverse_append, dropWhile_append_eq back, List.reverse_reverse]
  intro a first
  rw [List.head?_reverse] at first
  exact stop a first

theorem Framed.trim_eq (framed : Framed text before core after) : trim text = core := by
  obtain ⟨split, blank, tight, blank'⟩ := framed
  apply String.toList_inj.mp
  rw [toList_trim, split, String.toList_append, String.toList_append, List.append_assoc,
    List.dropWhile_append_of_pos blank]
  cases chars : core.toList with
  | nil =>
    rw [List.nil_append, List.dropWhile_eq_nil_iff.mpr blank', List.rdropWhile_nil]
  | cons c rest =>
    have start : isWhiteSpace c = false := tight.1 c (by rw [chars]; rfl)
    rw [List.cons_append, List.dropWhile_cons_of_neg (by simp [start]), ← List.cons_append]
    exact rdropWhile_append_eq blank' (chars ▸ tight.2)

theorem Framed.toList_before (framed : Framed text before core after) (present : core ≠ "") :
    before.toList = text.toList.takeWhile isWhiteSpace := by
  obtain ⟨c, rest, chars⟩ := List.exists_cons_of_ne_nil (String.toList_eq_nil_iff.not.mpr present)
  have start : isWhiteSpace c = false := framed.tight.1 c (by rw [chars]; rfl)
  rw [framed.split, String.toList_append, String.toList_append, List.append_assoc,
    List.takeWhile_append_of_pos framed.before, chars, List.cons_append,
    List.takeWhile_cons_of_neg (by simp [start]), List.append_nil]

theorem trim_eq_self (tight : IsTight text) : trim text = text := by
  have alone : Framed text "" text "" := ⟨by simp, by simp, tight, by simp⟩
  exact alone.trim_eq

end Formula.Text
