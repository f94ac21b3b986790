/-! Cutting text into lines. Every line keeps the separator that ends it, so the
pieces put together again are the text, and no piece is empty. -/

namespace StyledEffects.Text

/-- Cuts after every `sep`; what follows the last one is a piece of its own unless it is empty. -/
def cutAfter {α : Type} [DecidableEq α] (sep : α) : List α → List (List α)
  | [] => []
  | a :: rest =>
    if a = sep then [a] :: cutAfter sep rest
    else match cutAfter sep rest with
      | [] => [[a]]
      | piece :: pieces => (a :: piece) :: pieces

theorem flatten_cutAfter {α : Type} [DecidableEq α] (sep : α) (xs : List α) :
    (cutAfter sep xs).flatten = xs := by
  induction xs with
  | nil => rfl
  | cons a rest ih =>
    unfold cutAfter
    split
    · simp [ih]
    · split <;> simp_all

theorem ne_nil_of_mem_cutAfter {α : Type} [DecidableEq α] (sep : α) {xs piece : List α}
    (h : piece ∈ cutAfter sep xs) : piece ≠ [] := by
  induction xs generalizing piece with
  | nil => simp [cutAfter] at h
  | cons a rest ih =>
    unfold cutAfter at h
    split at h
    · rcases List.mem_cons.1 h with rfl | h
      · simp
      · exact ih h
    · split at h
      · simp_all
      · rename_i p ps hp
        rcases List.mem_cons.1 h with rfl | h
        · simp
        · exact ih (by simp [hp, h])

def lines (text : String) : List String :=
  (cutAfter '\n' text.toList).map String.ofList

end StyledEffects.Text
