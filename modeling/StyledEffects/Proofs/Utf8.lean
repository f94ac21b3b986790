import StyledEffects.Text.Utf8

/-! Reading undoes writing in UTF-8: bytes are read as a text exactly if they are that text in
UTF-8. A character is written with as many bytes as its number needs, and the sequences that are
read are just these. -/

namespace StyledEffects.Text

/-- Two bytes that open a sequence, by the number of bytes that come after them. Together they
have the upper bits of a number that needs a sequence of this length and is no surrogate. -/
def Opens (lead b : UInt8) : Nat → Prop
  | 0 => 0xC2 ≤ lead.toNat ∧ lead.toNat ≤ 0xDF ∧ 0x80 ≤ b.toNat ∧ b.toNat ≤ 0xBF
  | 1 => 0xE0 ≤ lead.toNat ∧ lead.toNat ≤ 0xEF ∧ 0x80 ≤ b.toNat ∧ b.toNat ≤ 0xBF ∧
    (lead.toNat = 0xE0 → 0xA0 ≤ b.toNat) ∧ (lead.toNat = 0xED → b.toNat ≤ 0x9F)
  | 2 => 0xF0 ≤ lead.toNat ∧ lead.toNat ≤ 0xF4 ∧ 0x80 ≤ b.toNat ∧ b.toNat ≤ 0xBF ∧
    (lead.toNat = 0xF0 → 0x90 ≤ b.toNat) ∧ (lead.toNat = 0xF4 → b.toNat ≤ 0x8F)
  | _ => False

theorem opens_of_secondByte {lead b low high : UInt8} {after : Nat}
    (h : secondByte lead = some (low, high, after)) (hb : low ≤ b ∧ b ≤ high) :
    Opens lead b after := by
  unfold secondByte at h
  simp only [UInt8.le_iff_toNat_le, ← UInt8.toNat_inj] at h hb
  -- one case for each range of the lead byte
  repeat' split at h
  all_goals
    cases h
    try simp only [Opens, UInt8.reduceToNat] at *
    try omega

theorem exists_secondByte {lead b : UInt8} {after : Nat} (h : Opens lead b after) :
    ∃ low high, secondByte lead = some (low, high, after) ∧ low ≤ b ∧ b ≤ high := by
  unfold secondByte
  simp only [UInt8.le_iff_toNat_le, ← UInt8.toNat_inj]
  match after, h with
  | 0, h | 1, h | 2, h =>
    repeat' split
    all_goals
      simp only [Opens, UInt8.reduceToNat] at *
      try omega
    all_goals
      refine ⟨_, _, rfl, ?_⟩
      simp only [UInt8.reduceToNat]
      omega

theorem isContinuation_iff {b : UInt8} :
    isContinuation b = true ↔ 0x80 ≤ b.toNat ∧ b.toNat ≤ 0xBF := by
  simp [isContinuation, UInt8.le_iff_toNat_le]

theorem scalar_two (lead b : UInt8) :
    scalar lead [b] = Char.ofNat (lead.toNat % 0x20 * 0x40 + b.toNat % 0x40) := rfl

theorem scalar_three (lead b c : UInt8) : scalar lead [b, c] =
    Char.ofNat ((lead.toNat % 0x10 * 0x40 + b.toNat % 0x40) * 0x40 + c.toNat % 0x40) := rfl

theorem scalar_four (lead b c d : UInt8) : scalar lead [b, c, d] =
    Char.ofNat (((lead.toNat % 0x08 * 0x40 + b.toNat % 0x40) * 0x40 + c.toNat % 0x40) * 0x40 +
      d.toNat % 0x40) := rfl

inductive Sequence : Char → List UInt8 → Prop
  | one {lead} (h : lead < 0x80) : Sequence (Char.ofNat lead.toNat) [lead]
  | two {lead b} (h : Opens lead b 0) : Sequence (scalar lead [b]) [lead, b]
  | three {lead b c} (h : Opens lead b 1) (hc : isContinuation c) :
    Sequence (scalar lead [b, c]) [lead, b, c]
  | four {lead b c d} (h : Opens lead b 2) (hc : isContinuation c) (hd : isContinuation d) :
    Sequence (scalar lead [b, c, d]) [lead, b, c, d]

theorem utf8EncodeChar_ofNat {n : Nat} (h : n.isValidChar) :
    String.utf8EncodeChar (Char.ofNat n) =
      if n ≤ 0x7F then [.ofNat n]
      else if n ≤ 0x7FF then [.ofNat (n / 64 % 0x20 + 0xC0), .ofNat (n % 0x40 + 0x80)]
      else if n ≤ 0xFFFF then
        [.ofNat (n / 4096 % 0x10 + 0xE0), .ofNat (n / 64 % 0x40 + 0x80), .ofNat (n % 0x40 + 0x80)]
      else
        [.ofNat (n / 262144 % 0x08 + 0xF0), .ofNat (n / 4096 % 0x40 + 0x80),
          .ofNat (n / 64 % 0x40 + 0x80), .ofNat (n % 0x40 + 0x80)] := by
  have number : (Char.ofNat n).val.toNat = n := by
    rw [Char.ofNat, dif_pos h]
    rfl
  rw [String.utf8EncodeChar, number]

theorem ofNat_eq {b : UInt8} {n : Nat} (h : n = b.toNat) : UInt8.ofNat n = b := by
  rw [h, UInt8.ofNat_toNat]

theorem utf8EncodeChar_of_sequence {c : Char} {bytes : List UInt8} (h : Sequence c bytes) :
    String.utf8EncodeChar c = bytes := by
  cases h with
  | @one lead h =>
    have low : lead.toNat < 0x80 := UInt8.lt_iff_toNat_lt.1 h
    have valid : lead.toNat.isValidChar := .inl (by omega)
    rw [utf8EncodeChar_ofNat valid, if_pos (by omega), UInt8.ofNat_toNat]
  | @two lead b h =>
    obtain ⟨h₁, h₂, h₃, h₄⟩ := h
    have valid : (lead.toNat % 0x20 * 0x40 + b.toNat % 0x40).isValidChar := .inl (by omega)
    rw [scalar_two, utf8EncodeChar_ofNat valid, if_neg (by omega), if_pos (by omega),
      ofNat_eq (b := lead) (by omega), ofNat_eq (b := b) (by omega)]
  | @three lead b c h hc =>
    obtain ⟨h₁, h₂, h₃, h₄, h₅, h₆⟩ := h
    obtain ⟨c₁, c₂⟩ := isContinuation_iff.1 hc
    have valid : ((lead.toNat % 0x10 * 0x40 + b.toNat % 0x40) * 0x40 +
        c.toNat % 0x40).isValidChar := by
      unfold Nat.isValidChar
      omega
    rw [scalar_three, utf8EncodeChar_ofNat valid, if_neg (by omega), if_neg (by omega),
      if_pos (by omega), ofNat_eq (b := lead) (by omega), ofNat_eq (b := b) (by omega),
      ofNat_eq (b := c) (by omega)]
  | @four lead b c d h hc hd =>
    obtain ⟨h₁, h₂, h₃, h₄, h₅, h₆⟩ := h
    obtain ⟨c₁, c₂⟩ := isContinuation_iff.1 hc
    obtain ⟨d₁, d₂⟩ := isContinuation_iff.1 hd
    have valid : (((lead.toNat % 0x08 * 0x40 + b.toNat % 0x40) * 0x40 + c.toNat % 0x40) * 0x40 +
        d.toNat % 0x40).isValidChar := .inr (by omega)
    rw [scalar_four, utf8EncodeChar_ofNat valid, if_neg (by omega), if_neg (by omega),
      if_neg (by omega), ofNat_eq (b := lead) (by omega), ofNat_eq (b := b) (by omega),
      ofNat_eq (b := c) (by omega), ofNat_eq (b := d) (by omega)]

theorem isContinuation_ofNat (n : Nat) : isContinuation (.ofNat (n % 0x40 + 0x80)) = true := by
  rw [isContinuation_iff, UInt8.toNat_ofNat']
  omega

theorem Sequence.of_eq {c : Char} {bytes : List UInt8} {n : Nat} (h : Sequence c bytes)
    (hc : c = Char.ofNat n) : Sequence (Char.ofNat n) bytes := hc ▸ h

theorem sequence_utf8EncodeChar (c : Char) : Sequence c (String.utf8EncodeChar c) := by
  obtain ⟨n, valid, rfl⟩ : ∃ n, n.isValidChar ∧ c = Char.ofNat n :=
    ⟨c.toNat, c.valid, c.ofNat_toNat.symm⟩
  rw [utf8EncodeChar_ofNat valid]
  unfold Nat.isValidChar at valid
  split
  · refine (Sequence.one ?_).of_eq (congrArg Char.ofNat ?_)
    · simp only [UInt8.lt_iff_toNat_lt, UInt8.toNat_ofNat', UInt8.reduceToNat]
      omega
    · rw [UInt8.toNat_ofNat', Nat.mod_eq_of_lt (by omega)]
  split
  · refine (Sequence.two ?_).of_eq ?_
    · simp only [Opens, UInt8.toNat_ofNat']
      omega
    · refine (scalar_two ..).trans (congrArg Char.ofNat ?_)
      simp only [UInt8.toNat_ofNat']
      omega
  split
  · refine (Sequence.three ?_ (isContinuation_ofNat n)).of_eq ?_
    · simp only [Opens, UInt8.toNat_ofNat']
      omega
    · refine (scalar_three ..).trans (congrArg Char.ofNat ?_)
      simp only [UInt8.toNat_ofNat']
      omega
  · refine (Sequence.four ?_ (isContinuation_ofNat (n / 64)) (isContinuation_ofNat n)).of_eq ?_
    · simp only [Opens, UInt8.toNat_ofNat']
      omega
    · refine (scalar_four ..).trans (congrArg Char.ofNat ?_)
      simp only [UInt8.toNat_ofNat']
      omega

theorem not_lt_of_opens {lead b : UInt8} {after : Nat} (h : Opens lead b after) :
    ¬ lead < 0x80 := by
  simp only [UInt8.lt_iff_toNat_lt, UInt8.reduceToNat]
  match after, h with
  | 0, h | 1, h | 2, h =>
    have := h.1
    omega

theorem readUtf8From_sequence {c : Char} {bytes : List UInt8} (h : Sequence c bytes)
    (index : Nat) (rest : List UInt8) : readUtf8From index (bytes ++ rest) =
      (readUtf8From (index + bytes.length) rest).map (c :: ·) := by
  cases h with
  | one h => simp [readUtf8From, h]
  | two h =>
    obtain ⟨low, high, hs, hb⟩ := exists_secondByte h
    simp [readUtf8From, not_lt_of_opens h, hs, hb]
  | three h hc =>
    obtain ⟨low, high, hs, hb⟩ := exists_secondByte h
    simp [readUtf8From, not_lt_of_opens h, hs, hb, hc]
  | four h hc hd =>
    obtain ⟨low, high, hs, hb⟩ := exists_secondByte h
    simp [readUtf8From, not_lt_of_opens h, hs, hb, hc, hd]

theorem readUtf8From_utf8 (index : Nat) (chars : List Char) :
    readUtf8From index (chars.flatMap String.utf8EncodeChar) = .ok chars := by
  induction chars generalizing index with
  | nil => rfl
  | cons c chars ih =>
    rw [List.flatMap_cons, readUtf8From_sequence (sequence_utf8EncodeChar c), ih]
    rfl

theorem flatMap_of_map {c : Char} {bytes rest : List UInt8} {chars : List Char}
    {read : Except Utf8Fault (List Char)} (hs : Sequence c bytes)
    (ih : ∀ {chars}, read = .ok chars → chars.flatMap String.utf8EncodeChar = rest)
    (h : read.map (c :: ·) = .ok chars) :
    chars.flatMap String.utf8EncodeChar = bytes ++ rest := by
  cases read with
  | error fault => cases h
  | ok later =>
    obtain rfl : c :: later = chars := Except.ok.inj h
    rw [List.flatMap_cons, utf8EncodeChar_of_sequence hs, ih rfl]

theorem flatMap_of_readUtf8From {index : Nat} {bytes : List UInt8} {chars : List Char}
    (h : readUtf8From index bytes = .ok chars) :
    chars.flatMap String.utf8EncodeChar = bytes := by
  fun_induction readUtf8From index bytes generalizing chars with
  | case1 =>
    obtain rfl : [] = chars := Except.ok.inj h
    rfl
  | case2 index lead rest low ih => exact flatMap_of_map (.one low) ih h
  | case6 index lead _ low high b hb rest hs ih =>
    exact flatMap_of_map (.two (opens_of_secondByte hs (Decidable.not_not.1 hb))) ih h
  | case9 index lead _ low high b hb c rest hc hs ih =>
    have opens := opens_of_secondByte hs (Decidable.not_not.1 hb)
    exact flatMap_of_map (.three opens (Decidable.not_not.1 hc)) ih h
  | case13 index lead _ low high after hs b hb c hc d rest hd h₀ h₁ ih =>
    have opens := opens_of_secondByte hs (Decidable.not_not.1 hb)
    obtain rfl : after = 2 := by
      match after, opens with
      | 0, _ => exact absurd rfl h₀
      | 1, _ => exact absurd rfl h₁
      | 2, _ => rfl
    exact flatMap_of_map (.four opens (Decidable.not_not.1 hc) (Decidable.not_not.1 hd)) ih h
  | _ => cases h

/-- Bytes are read as a text exactly if they are that text in UTF-8. -/
theorem readUtf8_eq_ok_iff {bytes : List UInt8} {text : String} :
    readUtf8 bytes = .ok text ↔ utf8 text = bytes := by
  constructor
  · intro h
    unfold readUtf8 at h
    cases hr : readUtf8From 0 bytes with
    | error fault => rw [hr] at h; cases h
    | ok chars =>
      rw [hr] at h
      obtain rfl : String.ofList chars = text := Except.ok.inj h
      rw [utf8, String.toList_ofList]
      exact flatMap_of_readUtf8From hr
  · rintro rfl
    rw [readUtf8, utf8, readUtf8From_utf8]
    simp [Except.map]

/-- A byte below 0x80 is a character of its own and is in no longer sequence. -/
theorem eq_of_mem_sequence {c : Char} {bytes : List UInt8} (h : Sequence c bytes) {b : UInt8}
    (hb : b < 0x80) (hm : b ∈ bytes) : c = Char.ofNat b.toNat := by
  have high : ∀ {more : UInt8}, isContinuation more → more ≠ b := by
    rintro more hc rfl
    have := isContinuation_iff.1 hc
    simp only [UInt8.lt_iff_toNat_lt, UInt8.reduceToNat] at hb
    omega
  have second : ∀ {lead more : UInt8} {after : Nat}, Opens lead more after →
      isContinuation more := by
    intro lead more after h
    rw [isContinuation_iff]
    match after, h with
    | 0, h => exact ⟨h.2.2.1, h.2.2.2⟩
    | 1, h | 2, h => exact ⟨h.2.2.1, h.2.2.2.1⟩
  have first : ∀ {lead more : UInt8} {after : Nat}, Opens lead more after → lead ≠ b :=
    fun h he => not_lt_of_opens h (he ▸ hb)
  cases h with
  | one h =>
    obtain rfl := List.mem_singleton.1 hm
    rfl
  | two h => simp [(first h).symm, (high (second h)).symm] at hm
  | three h hc => simp [(first h).symm, (high (second h)).symm, (high hc).symm] at hm
  | four h hc hd =>
    simp [(first h).symm, (high (second h)).symm, (high hc).symm, (high hd).symm] at hm

theorem eq_of_mem_utf8EncodeChar {c : Char} {b : UInt8} (hb : b < 0x80)
    (hm : b ∈ String.utf8EncodeChar c) : c = Char.ofNat b.toNat :=
  eq_of_mem_sequence (sequence_utf8EncodeChar c) hb hm

end StyledEffects.Text
