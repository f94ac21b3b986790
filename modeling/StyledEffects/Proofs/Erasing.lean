import StyledEffects.Proofs.Utf8
import StyledEffects.Style.Sgr

/-! Erasing the sequences that set the rendition from a stream of bytes. What is left of text
without escape characters and complete settings, in any order, is the text: no sequence
begins in one part and ends in another. -/

namespace StyledEffects.Style

open Text

def escByte : UInt8 := 0x1B

def isParameter (b : UInt8) : Bool := (0x30 ≤ b && b ≤ 0x39) || b = 0x3B

/-- What follows after an escape character and a bracket, digits and semicolons, and the
letter m. -/
def afterSetting? : List UInt8 → Option (List UInt8)
  | 0x1B :: 0x5B :: rest =>
    match rest.dropWhile isParameter with
    | 0x6D :: rest => some rest
    | _ => none
  | _ => none

theorem length_afterSetting? {bytes rest : List UInt8} (h : afterSetting? bytes = some rest) :
    rest.length < bytes.length := by
  unfold afterSetting? at h
  split at h
  · rename_i tail
    split at h
    · rename_i letter heq
      obtain rfl : letter = rest := by simpa using h
      have := (tail.dropWhile_sublist isParameter).length_le
      rw [heq] at this
      simp only [List.length_cons] at this ⊢
      omega
    · simp at h
  · simp at h

/-- The bytes without the sequences that set the rendition. -/
def erase (bytes : List UInt8) : List UInt8 :=
  match _h : afterSetting? bytes with
  | some rest => erase rest
  | none =>
    match bytes with
    | [] => []
    | b :: rest => b :: erase rest
termination_by bytes.length
decreasing_by
  · exact length_afterSetting? _h
  · simp

theorem erase_of_some {bytes rest : List UInt8} (h : afterSetting? bytes = some rest) :
    erase bytes = erase rest := by
  rw [erase]
  split
  · rename_i heq
    rw [h] at heq
    rw [Option.some.inj heq]
  · rename_i heq
    simp [h] at heq

theorem erase_cons_of_none {b : UInt8} {rest : List UInt8}
    (h : afterSetting? (b :: rest) = none) : erase (b :: rest) = b :: erase rest := by
  rw [erase]
  split
  · rename_i heq
    simp [h] at heq
  · rfl

theorem erase_nil : erase [] = [] := by
  rw [erase]
  rfl

theorem erase_append {bytes : List UInt8} (h : escByte ∉ bytes) (rest : List UInt8) :
    erase (bytes ++ rest) = bytes ++ erase rest := by
  induction bytes with
  | nil => rfl
  | cons b bytes ih =>
    obtain ⟨hb, hr⟩ := not_or.1 (mt List.mem_cons.2 h)
    have hn : afterSetting? (b :: (bytes ++ rest)) = none := by
      unfold afterSetting?
      split
      · rename_i heq
        exact absurd (List.cons.inj heq).1.symm hb
      · rfl
    rw [List.cons_append, erase_cons_of_none hn, ih hr, List.cons_append]

theorem erase_setting {parameters : List UInt8} (h : ∀ b ∈ parameters, isParameter b)
    (rest : List UInt8) : erase (0x1B :: 0x5B :: (parameters ++ 0x6D :: rest)) = erase rest := by
  apply erase_of_some
  have hd : (parameters ++ 0x6D :: rest).dropWhile isParameter = 0x6D :: rest := by
    rw [List.dropWhile_append_of_pos h]
    rfl
  simp [afterSetting?, hd]

theorem escByte_notMem_encode {c : Char} (h : c ≠ esc) : escByte ∉ String.utf8EncodeChar c :=
  fun hm => h (eq_of_mem_utf8EncodeChar (by decide) hm)

theorem escByte_notMem_utf8 {text : String} (h : esc ∉ text.toList) : escByte ∉ utf8 text := by
  intro hm
  obtain ⟨c, hc, hb⟩ := List.mem_flatMap.1 hm
  exact escByte_notMem_encode (fun he => h (he ▸ hc)) hb

theorem isParameter_of_mem_utf8 {text : String}
    (h : ∀ c ∈ text.toList, c.isDigit ∨ c = ';') {b : UInt8} (hb : b ∈ utf8 text) :
    isParameter b := by
  obtain ⟨c, hc, hb⟩ := List.mem_flatMap.1 hb
  have hv : (0x30 ≤ c.toNat ∧ c.toNat ≤ 0x39) ∨ c.toNat = 0x3B := by
    rcases h c hc with hd | rfl
    · left
      simpa [Char.isDigit, UInt32.le_iff_toNat_le] using hd
    · right
      rfl
  have hs : String.utf8EncodeChar c = [UInt8.ofNat c.toNat] := by
    unfold String.utf8EncodeChar
    rw [Char.toNat_val, if_pos (by omega)]
  rw [hs] at hb
  obtain rfl := List.mem_singleton.1 hb
  simp [isParameter, UInt8.le_iff_toNat_le, ← UInt8.toNat_inj]
  omega

theorem isDigit_or_semicolon (numbers : List Nat) :
    ∀ c ∈ (String.intercalate ";" (numbers.map toString)).toList, c.isDigit ∨ c = ';' := by
  have digits (n : Nat) : ∀ c ∈ (toString n).toList, c.isDigit ∨ c = ';' := by
    intro c hc
    rw [Nat.toString_eq_ofList_toDigits, String.toList_ofList] at hc
    exact Or.inl (Nat.isDigit_of_mem_toDigits (by decide) (by decide) hc)
  induction numbers with
  | nil => simp
  | cons n rest ih =>
    cases rest with
    | nil => simpa using digits n
    | cons m rest =>
      intro c hc
      rw [List.map_cons, List.map_cons, String.intercalate_cons_cons, String.toList_append,
        String.toList_append, List.mem_append, List.mem_append] at hc
      rcases hc with (hc | hc) | hc
      · exact digits n c hc
      · exact Or.inr (by simpa using hc)
      · exact ih c hc

theorem erase_sgr (s : Sgr) (rest : List UInt8) : erase (utf8 s.text ++ rest) = erase rest := by
  have := erase_setting (fun b hb => isParameter_of_mem_utf8 (isDigit_or_semicolon s.parameters) hb)
    rest
  rw [← this, Sgr.text, utf8_append, utf8_append, List.append_assoc, List.append_assoc]
  rfl

theorem erase_settings (settings : List Sgr) (rest : List UInt8) :
    erase (utf8 (String.join (settings.map Sgr.text)) ++ rest) = erase rest := by
  induction settings with
  | nil => rfl
  | cons s settings ih =>
    rw [List.map_cons, String.join_cons, utf8_append, List.append_assoc, erase_sgr, ih]

end StyledEffects.Style
