import Formula.Name
import Formula.Proofs.Grammar
import Formula.Proofs.Source.Spelling

/-! Dotted names as texts, as segments and as rows of tokens. -/

namespace Formula

namespace Name

theorem split_cons (c : Char) (chars : List Char) :
    split (c :: chars) =
      if c = '.' then ([], (split chars).1 :: (split chars).2)
      else (c :: (split chars).1, (split chars).2) :=
  rfl

theorem intercalate_split (chars : List Char) :
    String.intercalate "."
        (String.ofList (split chars).1 :: (split chars).2.map String.ofList) =
      String.ofList chars := by
  induction chars with
  | nil => rfl
  | cons c chars ih =>
    rw [split_cons]
    by_cases dot : c = '.'
    · rw [if_pos dot, dot, List.map_cons]
      calc
        String.intercalate "." (String.ofList [] :: String.ofList (split chars).1 ::
            (split chars).2.map String.ofList) =
            String.ofList [] ++ "." ++ String.ofList chars := by
          rw [String.intercalate_cons_cons, ih]
        _ = String.ofList ('.' :: chars) := by simp
    · have first : String.ofList (c :: (split chars).1) =
          String.ofList [c] ++ String.ofList (split chars).1 := by simp
      rw [if_neg dot, first]
      calc
        String.intercalate "." ((String.ofList [c] ++ String.ofList (split chars).1) ::
            (split chars).2.map String.ofList) = String.ofList [c] ++ String.ofList chars := by
          rw [String.intercalate_cons_append, ih]
        _ = String.ofList (c :: chars) := by rw [← String.ofList_append, List.singleton_append]

theorem text_ofText (text : String) : (ofText text).text = text :=
  (intercalate_split text.toList).trans String.ofList_toList

theorem split_of_not_mem {chars : List Char} (plain : '.' ∉ chars) : split chars = (chars, []) := by
  induction chars with
  | nil => rfl
  | cons c chars ih =>
    rw [List.mem_cons, not_or] at plain
    rw [split_cons, ih plain.2]
    exact if_neg (Ne.symm plain.1)

theorem split_append_dot (chars : List Char) {piece : List Char} (plain : '.' ∉ piece) :
    split (chars ++ '.' :: piece) = ((split chars).1, (split chars).2 ++ [piece]) := by
  induction chars with
  | nil => simp [split, split_of_not_mem plain]
  | cons c chars ih =>
    rw [List.cons_append, split_cons, ih, split_cons]
    by_cases dot : c = '.'
    · rw [if_pos dot, if_pos dot, List.cons_append]
    · rw [if_neg dot, if_neg dot]

theorem split_append_dot_of_not_mem {piece : List Char} (plain : '.' ∉ piece) (chars : List Char) :
    split (piece ++ '.' :: chars) = (piece, (split chars).1 :: (split chars).2) := by
  induction piece with
  | nil => rw [List.nil_append, split_cons, if_pos rfl]
  | cons c piece ih =>
    rw [List.mem_cons, not_or] at plain
    rw [List.cons_append, split_cons, ih plain.2]
    exact if_neg (Ne.symm plain.1)

theorem ofText_of_not_mem {text : String} (plain : '.' ∉ text.toList) :
    ofText text = ⟨text, []⟩ := by
  simp [ofText, split_of_not_mem plain]

theorem ofText_append_dot {first : String} (plain : '.' ∉ first.toList) (text : String) :
    ofText (first ++ "." ++ text) = ⟨first, (ofText text).segments⟩ := by
  have shape : (first ++ "." ++ text).toList = first.toList ++ '.' :: text.toList := by simp
  simp [ofText, segments, shape, split_append_dot_of_not_mem plain]

theorem segments_ofText_of_not_mem {text : String} (plain : '.' ∉ text.toList) :
    (ofText text).segments = [text] := by
  simp [ofText, segments, split_of_not_mem plain]

theorem segments_ofText_append_dot (front : String) {text : String} (plain : '.' ∉ text.toList) :
    (ofText (front ++ "." ++ text)).segments = (ofText front).segments ++ [text] := by
  have shape : (front ++ "." ++ text).toList = front.toList ++ '.' :: text.toList := by simp
  simp [ofText, segments, shape, split_append_dot front.toList plain]

theorem dot_not_mem_of_mem_split {chars piece : List Char}
    (present : piece ∈ (split chars).1 :: (split chars).2) : '.' ∉ piece := by
  induction chars generalizing piece with
  | nil =>
    rw [split, List.mem_singleton] at present
    rw [present]
    exact List.not_mem_nil
  | cons c chars ih =>
    rw [split_cons] at present
    split at present
    · obtain rfl | within := List.mem_cons.mp present
      · exact List.not_mem_nil
      · exact ih within
    · rename_i other
      obtain rfl | within := List.mem_cons.mp present
      · rw [List.mem_cons, not_or]
        exact ⟨Ne.symm other, ih (List.mem_cons_self ..)⟩
      · exact ih (.tail _ within)

theorem dot_not_mem_of_mem_segments {text segment : String}
    (present : segment ∈ (ofText text).segments) : '.' ∉ segment.toList := by
  have shape : (ofText text).segments =
      ((split text.toList).1 :: (split text.toList).2).map String.ofList := rfl
  rw [shape] at present
  obtain ⟨piece, within, rfl⟩ := List.mem_map.mp present
  rw [String.toList_ofList]
  exact dot_not_mem_of_mem_split within

theorem ofText_intercalate {first : String} {rest : List String}
    (plain : ∀ segment ∈ first :: rest, '.' ∉ segment.toList) :
    ofText (String.intercalate "." (first :: rest)) = ⟨first, rest⟩ := by
  induction rest generalizing first with
  | nil =>
    rw [String.intercalate_singleton]
    exact ofText_of_not_mem (plain first (by simp))
  | cons next rest ih =>
    obtain ⟨head, others⟩ := List.forall_mem_cons.mp plain
    rw [String.intercalate_cons_cons, ofText_append_dot head, ih others, segments]

theorem eq_of_segments_eq {text text' : String}
    (same : (ofText text).segments = (ofText text').segments) : text = text' := by
  rw [← text_ofText text, ← text_ofText text', Name.text, Name.text, same]

theorem not_mem_or_exists_last (text : String) :
    '.' ∉ text.toList ∨
      ∃ front last, '.' ∉ last.toList ∧ text = front ++ "." ++ last := by
  have plain : ∀ segment ∈ (ofText text).segments, '.' ∉ segment.toList :=
    fun _ => dot_not_mem_of_mem_segments
  obtain none | ⟨init, last, cut⟩ := List.eq_nil_or_concat (ofText text).rest
  · have whole : text = (ofText text).first := by
      apply eq_of_segments_eq
      rw [segments_ofText_of_not_mem (plain _ (.head _)), segments, none]
    rw [whole]
    exact .inl (plain _ (.head _))
  · rw [List.concat_eq_append] at cut
    rw [segments, cut, ← List.cons_append, List.forall_mem_append] at plain
    obtain ⟨before, behind⟩ := plain
    have behind : '.' ∉ last.toList := behind last (.head _)
    refine .inr ⟨String.intercalate "." ((ofText text).first :: init), last, behind, ?_⟩
    apply eq_of_segments_eq
    rw [segments_ofText_append_dot _ behind, ofText_intercalate before, segments, cut]
    rfl

def tokens (name : Name) : List Token :=
  .identifier name.first :: name.rest.flatMap fun segment => [.dot, .identifier segment]

theorem readsName_append_segments (rest : List String) {ts : List Token} {front : String}
    (reads : ReadsName ts front) :
    ReadsName (ts ++ rest.flatMap fun segment => [.dot, .identifier segment])
      (String.intercalate "." (front :: rest)) := by
  induction rest generalizing ts front with
  | nil => simpa using reads
  | cons segment rest ih =>
    rw [List.flatMap_cons, ← List.append_assoc, String.intercalate_cons_cons,
      ← String.intercalate_cons_append]
    exact ih (.dotted segment reads)

theorem readsName_tokens (name : Name) : ReadsName name.tokens name.text :=
  readsName_append_segments name.rest (.identifier name.first)

end Name

def IsName (text : String) : Prop :=
  ∀ segment ∈ (Name.ofText text).segments, Lexeme.IsIdentifier segment

instance (text : String) : Decidable (IsName text) := inferInstanceAs (Decidable (∀ _ ∈ _, _))

theorem Lexeme.IsIdentifier.dot_not_mem {text : String} (identifier : IsIdentifier text) :
    '.' ∉ text.toList := by
  intro present
  cases isWordChar_of_isWord identifier.1 '.' present

theorem ReadsName.isName {ts : List Token} {name : String} (reads : ReadsName ts name)
    (identifiers : ∀ text, .identifier text ∈ ts → Lexeme.IsIdentifier text) : IsName name := by
  induction reads with
  | identifier text =>
    have identifier := identifiers text (by simp)
    intro segment present
    rw [Name.segments_ofText_of_not_mem identifier.dot_not_mem, List.mem_singleton] at present
    rwa [present]
  | @dotted ts name text _ ih =>
    have identifier := identifiers text (by simp)
    intro segment present
    rw [Name.segments_ofText_append_dot name identifier.dot_not_mem] at present
    rcases List.mem_append.1 present with present | present
    · exact ih (fun text present => identifiers text (by simp [present])) segment present
    · rw [List.mem_singleton] at present
      rwa [present]

theorem Delimits.not_isWordChar {tail : List Char} (delimits : Delimits tail) {c : Char}
    (next : tail.head? = some c) : Lexeme.isWordChar c = false := by
  rcases delimits c next with rfl | rfl <;> rfl

theorem Name.spells {name : Name}
    (identifiers : ∀ segment ∈ name.segments, Lexeme.IsIdentifier segment) {tail : List Char}
    {ts : List Token} (delimits : Delimits tail) (spells : Spells tail ts) :
    Spells (name.text.toList ++ tail) (name.tokens ++ ts) := by
  rcases name with ⟨first, rest⟩
  induction rest generalizing first with
  | nil =>
    have identifier := identifiers first (by simp [segments])
    simpa [text, segments, tokens] using
      spells.identifier identifier fun c next => delimits.not_isWordChar next
  | cons second rest ih =>
    have identifier := identifiers first (by simp [segments])
    have step := ih second fun segment present => identifiers segment (.tail _ present)
    have spelled := step.dot.identifier identifier (by simp [Lexeme.isWordChar])
    simpa [text, segments, tokens] using spelled

theorem IsName.spells {text : String} (written : IsName text) {tail : List Char} {ts : List Token}
    (delimits : Delimits tail) (spells : Spells tail ts) :
    Spells (text.toList ++ tail) ((Name.ofText text).tokens ++ ts) := by
  have spelled := Name.spells written delimits spells
  rwa [Name.text_ofText] at spelled

end Formula
