import Mathlib.Data.List.Basic
import StyledEffects.Json.Printer

/-! The compact text of a value has no control characters, and so no line break: those of strings
and keys are escaped, and nothing else writes any. -/

namespace StyledEffects

/-- No character of the text is below the space. -/
def Printable (text : String) : Prop := ∀ c ∈ text.toList, 0x20 ≤ c.toNat

namespace Printable

instance (text : String) : Decidable (Printable text) :=
  show Decidable (∀ c ∈ text.toList, 0x20 ≤ c.toNat) from List.decidableBAll _ _

@[simp] theorem append {a b : String} : Printable (a ++ b) ↔ Printable a ∧ Printable b := by
  simp [Printable, or_imp, forall_and]

theorem join {texts : List String} (h : ∀ text ∈ texts, Printable text) :
    Printable (String.join texts) := by
  intro c hc
  rw [String.toList_join] at hc
  obtain ⟨text, ht, hc⟩ := List.mem_flatMap.1 hc
  exact h text ht c hc

theorem ofList {chars : List Char} (h : ∀ c ∈ chars, 0x20 ≤ c.toNat) :
    Printable (String.ofList chars) := by
  rwa [Printable, String.toList_ofList]

theorem notMem {text : String} (h : Printable text) {c : Char} (hc : c.toNat < 0x20) :
    c ∉ text.toList :=
  fun hm => absurd (h c hm) (Nat.not_le.2 hc)

theorem natural (n : Nat) : Printable (toString n) := by
  intro c hc
  have hc : c ∈ Nat.toDigits 10 n := by simpa [Nat.toString_eq_repr, Nat.repr] using hc
  have digit := Nat.isDigit_of_mem_toDigits (by decide) (by decide) hc
  simp only [Char.isDigit, Bool.and_eq_true, decide_eq_true_eq, UInt32.le_iff_toNat_le] at digit
  have low : 0x30 ≤ c.toNat := digit.1
  omega

theorem integer (n : Int) : Printable (toString n) := by
  cases n with
  | ofNat n => exact natural n
  | negSucc n => exact append.2 ⟨by decide, natural (n + 1)⟩

end Printable

namespace Decimal

open Printable

theorem printable_positional {digits : String} (h : Printable digits) (order : Int) :
    Printable (positional digits order) := by
  have zeros (n : Nat) : Printable (String.ofList (List.replicate n '0')) := by
    refine ofList fun c hc => ?_
    rw [List.eq_of_mem_replicate hc]
    decide
  have point : Printable "." := by decide
  have least : Printable "0." := by decide
  have half : Printable ".0" := by decide
  unfold positional
  simp only
  split
  · exact append.2 ⟨append.2 ⟨least, zeros _⟩, h⟩
  split
  · exact append.2 ⟨append.2 ⟨h, zeros _⟩, half⟩
  · exact append.2 ⟨append.2 ⟨ofList fun c hc => h c (List.mem_of_mem_take hc), point⟩,
      ofList fun c hc => h c (List.mem_of_mem_drop hc)⟩

theorem printable_scientific {layout : Layout} (hm : Printable layout.exponentMark)
    (hs : Printable layout.positiveSign) {digits : String} (h : Printable digits) (order : Int) :
    Printable (scientific layout digits order) := by
  unfold scientific
  refine append.2 ⟨append.2 ⟨?_, hm⟩, ?_⟩
  · split
    · decide
    · next d hd => exact ofList fun c hc => h c (hd ▸ hc)
    · next d rest _ hd =>
      refine ofList fun c hc => ?_
      rcases List.mem_cons.1 hc with rfl | hc
      · exact h c (by simp [hd])
      · rcases List.mem_cons.1 hc with rfl | hc
        · decide
        · exact h c (by simp [hd, hc])
  · split
    · exact integer order
    · exact append.2 ⟨hs, integer order⟩

theorem printable_write {layout : Layout} (hm : Printable layout.exponentMark)
    (hs : Printable layout.positiveSign) (x : Binary64) : Printable (layout.write x) := by
  unfold Layout.write
  have sign : Printable (if x.negative then "-" else "") := by split <;> decide
  simp only
  split
  · exact append.2 ⟨sign, by decide⟩
  · refine append.2 ⟨sign, ?_⟩
    split
    · exact printable_positional (natural _) _
    · exact printable_scientific hm hs (natural _) _

end Decimal

namespace Json

open Printable

theorem printable_escape (c : Char) : Printable (escape c) := by
  unfold escape
  repeat' split
  all_goals try decide
  · refine append.2 ⟨by decide, ofList fun d hd => ?_⟩
    obtain ⟨i, -, rfl⟩ := List.mem_map.1 hd
    have digits : ∀ n < 16, 0x20 ≤ (Text.hexDigit n).toNat := by decide
    exact digits _ (Nat.mod_lt _ (by decide))
  · next h =>
    intro d hd
    obtain rfl : d = c := by simpa using hd
    omega

theorem printable_stringText (s : String) : Printable (stringText s) := by
  refine append.2 ⟨append.2 ⟨by decide, join fun text ht => ?_⟩, by decide⟩
  obtain ⟨c, -, rfl⟩ := List.mem_map.1 ht
  exact printable_escape c

theorem Number.printable_text (n : Number) : Printable n.text := by
  cases n with
  | integer value inRange => exact Printable.integer value
  | float value => exact Decimal.printable_write (by decide) (by decide) value

mutual

theorem Value.printable_text : (v : Value) → Printable v.text
  | .null => by decide
  | .bool true => by decide
  | .bool false => by decide
  | .number n => n.printable_text
  | .string s => printable_stringText s
  | .array [] => by decide
  | .array (v :: vs) => by
    simp only [Value.text, Printable.append]
    exact ⟨⟨⟨by decide, Value.printable_text v⟩, printable_itemsText vs⟩, by decide⟩
  | .object [] => by decide
  | .object ((k, v) :: fields) => by
    simp only [Value.text, Printable.append]
    exact ⟨⟨⟨⟨⟨by decide, printable_stringText k⟩, by decide⟩, Value.printable_text v⟩,
      printable_fieldsText fields⟩, by decide⟩

theorem printable_itemsText : (vs : List Value) → Printable (itemsText vs)
  | [] => by decide
  | v :: vs => by
    simp only [itemsText, Printable.append]
    exact ⟨⟨by decide, v.printable_text⟩, printable_itemsText vs⟩

theorem printable_fieldsText : (fields : List (String × Value)) → Printable (fieldsText fields)
  | [] => by decide
  | (k, v) :: fields => by
    simp only [fieldsText, Printable.append]
    exact ⟨⟨⟨⟨by decide, printable_stringText k⟩, by decide⟩, v.printable_text⟩,
      printable_fieldsText fields⟩

end

end Json

end StyledEffects
