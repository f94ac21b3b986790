import StyledEffects.Text.Lines

/-! Texts and their lines. Each line has its line feed at its end only, and lines that are
put together are cut again in the same places. -/

namespace StyledEffects.Text

theorem cutAfter_of_notMem {α : Type} [DecidableEq α] {sep : α} {xs : List α} (h : sep ∉ xs)
    (hx : xs ≠ []) : cutAfter sep xs = [xs] := by
  induction xs with
  | nil => exact absurd rfl hx
  | cons a rest ih =>
    obtain ⟨ha, hr⟩ := not_or.1 (mt List.mem_cons.2 h)
    rw [cutAfter, if_neg (Ne.symm ha)]
    by_cases he : rest = []
    · subst he; rfl
    · rw [ih hr he]

theorem cutAfter_append {α : Type} [DecidableEq α] {sep : α} {xs : List α} (h : sep ∉ xs)
    (rest : List α) : cutAfter sep (xs ++ sep :: rest) = (xs ++ [sep]) :: cutAfter sep rest := by
  induction xs with
  | nil => simp [cutAfter]
  | cons a xs ih =>
    obtain ⟨ha, hr⟩ := not_or.1 (mt List.mem_cons.2 h)
    rw [List.cons_append, cutAfter, if_neg (Ne.symm ha), ih hr]
    rfl

theorem mem_cutAfter {α : Type} [DecidableEq α] {sep : α} {xs piece : List α}
    (h : piece ∈ cutAfter sep xs) : ∃ p, sep ∉ p ∧ (piece = p ∨ piece = p ++ [sep]) := by
  induction xs generalizing piece with
  | nil => simp [cutAfter] at h
  | cons a rest ih =>
    by_cases ha : a = sep
    · rw [cutAfter, if_pos ha] at h
      rcases List.mem_cons.1 h with rfl | h
      · exact ⟨[], List.not_mem_nil, Or.inr (by rw [ha]; rfl)⟩
      · exact ih h
    · rw [cutAfter, if_neg ha] at h
      cases hc : cutAfter sep rest with
      | nil =>
        rw [hc] at h
        obtain rfl := List.mem_singleton.1 h
        exact ⟨[a], by simpa using Ne.symm ha, Or.inl rfl⟩
      | cons first pieces =>
        rw [hc] at h ih
        rcases List.mem_cons.1 h with rfl | h
        · obtain ⟨p, hp, he⟩ := ih List.mem_cons_self
          refine ⟨a :: p, by simpa using ⟨Ne.symm ha, hp⟩, ?_⟩
          rcases he with rfl | rfl
          · exact Or.inl rfl
          · exact Or.inr rfl
        · exact ih (List.mem_cons_of_mem _ h)

theorem exists_getLast?_cutAfter {α : Type} [DecidableEq α] {sep a : α} (ha : a ≠ sep)
    (xs : List α) :
    (∃ piece ∈ cutAfter sep xs, piece.getLast? = some a) ↔ xs.getLast? = some a := by
  induction xs with
  | nil => simp [cutAfter]
  | cons x rest ih =>
    by_cases hx : x = sep
    · rw [cutAfter, if_pos hx]
      cases rest with
      | nil => simp [cutAfter]
      | cons y rest =>
        rw [List.getLast?_cons_cons, ← ih]
        simp [hx, Ne.symm ha]
    · rw [cutAfter, if_neg hx]
      cases rest with
      | nil => simp [cutAfter]
      | cons y rest =>
        rw [List.getLast?_cons_cons, ← ih]
        cases hc : cutAfter sep (y :: rest) with
        | nil =>
          have := flatten_cutAfter sep (y :: rest)
          simp [hc] at this
        | cons first pieces =>
          have hf : first ≠ [] := ne_nil_of_mem_cutAfter sep (by rw [hc]; exact List.mem_cons_self)
          obtain ⟨z, zs, rfl⟩ := List.exists_cons_of_ne_nil hf
          simp [List.getLast?_cons_cons]

theorem length_cutAfter {α : Type} [DecidableEq α] {sep : α} (xs : List α) :
    (cutAfter sep (xs ++ [sep])).length = xs.count sep + 1 := by
  induction xs with
  | nil => simp [cutAfter]
  | cons a rest ih =>
    rw [List.cons_append, cutAfter]
    by_cases ha : a = sep
    · rw [if_pos ha, List.length_cons, ih, ha, List.count_cons_self]
    · rw [if_neg ha, List.count_cons_of_ne ha, ← ih]
      cases hc : cutAfter sep (rest ++ [sep]) with
      | nil => simp [hc] at ih
      | cons first pieces => rfl

theorem getLast?_of_mem_dropLast {α : Type} [DecidableEq α] {sep : α} {xs piece : List α}
    (h : piece ∈ (cutAfter sep xs).dropLast) : piece.getLast? = some sep := by
  induction xs generalizing piece with
  | nil => simp [cutAfter] at h
  | cons a rest ih =>
    rw [cutAfter] at h
    cases hc : cutAfter sep rest with
    | nil => by_cases ha : a = sep <;> simp [ha, hc] at h
    | cons first pieces =>
      rw [hc] at h ih
      by_cases ha : a = sep
      · rw [if_pos ha, List.dropLast_cons_of_ne_nil (List.cons_ne_nil first pieces)] at h
        rcases List.mem_cons.1 h with rfl | h
        · rw [ha]
          rfl
        · exact ih h
      · rw [if_neg ha] at h
        cases pieces with
        | nil => simp at h
        | cons second pieces =>
          rw [List.dropLast_cons_of_ne_nil (List.cons_ne_nil second pieces)] at h ih
          rcases List.mem_cons.1 h with rfl | h
          · have last := ih List.mem_cons_self
            rw [List.getLast?_cons, last]
            rfl
          · exact ih (List.mem_cons_of_mem _ h)

def IsPiece (text : String) : Prop :=
  ∃ p : String, '\n' ∉ p.toList ∧ (text = p ∨ text = p ++ "\n")

theorem isPiece_of_mem_lines {text piece : String} (h : piece ∈ lines text) :
    IsPiece piece := by
  obtain ⟨cs, hc, rfl⟩ := List.mem_map.1 h
  obtain ⟨p, hp, rfl | rfl⟩ := mem_cutAfter hc
  · exact ⟨.ofList cs, by simpa using hp, Or.inl rfl⟩
  · exact ⟨.ofList p, by simpa using hp, Or.inr (by simp [String.ofList_append])⟩

theorem lines_of_notMem {text : String} (h : '\n' ∉ text.toList) (ht : text ≠ "") :
    lines text = [text] := by
  rw [lines, cutAfter_of_notMem h (by simpa using ht)]
  simp

theorem lines_append {line : String} (h : '\n' ∉ line.toList) (rest : String) :
    lines (line ++ "\n" ++ rest) = (line ++ "\n") :: lines rest := by
  have : (line ++ "\n" ++ rest).toList = line.toList ++ '\n' :: rest.toList := by simp
  rw [lines, this, cutAfter_append h]
  simp [lines, String.ofList_append]

/-- The pieces are the lines of the text: each has its line feed, but for the last one, which
may be the rest after the last line feed, and none is empty. -/
structure Cuts (text : String) (pieces : List String) : Prop where
  join : String.join pieces = text
  isPiece : ∀ piece ∈ pieces, IsPiece piece ∧ piece ≠ ""
  ended : ∀ piece ∈ pieces.dropLast, piece.toList.getLast? = some '\n'

theorem length_lines (text : String) :
    (lines (text ++ "\n")).length = text.toList.count '\n' + 1 := by
  have : (text ++ "\n").toList = text.toList ++ ['\n'] := by simp
  rw [lines, List.length_map, this, length_cutAfter]

theorem join_lines (text : String) : String.join (lines text) = text := by
  apply String.toList_inj.1
  rw [lines, String.toList_join, List.flatMap_map]
  simp [flatten_cutAfter]

theorem cuts_lines (text : String) : Cuts text (lines text) := by
  refine ⟨join_lines text, ?_, ?_⟩
  · intro piece hm
    refine ⟨isPiece_of_mem_lines hm, ?_⟩
    obtain ⟨cs, hc, rfl⟩ := List.mem_map.1 hm
    simpa using ne_nil_of_mem_cutAfter '\n' hc
  · intro piece hm
    rw [lines, ← List.map_dropLast] at hm
    obtain ⟨cs, hc, rfl⟩ := List.mem_map.1 hm
    rw [String.toList_ofList]
    exact getLast?_of_mem_dropLast hc

end StyledEffects.Text
