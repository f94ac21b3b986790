import StyledEffects.Proofs.Canonical
import StyledEffects.Proofs.Doubles

/-! Stream selectors. A selector is compared with 1 and 2 in doubles and to within `2 ^ -52`, which
takes in one number besides 1 and 2: the double just below 1 counts as 1. -/

namespace StyledEffects

open Json Decimal

namespace Json.Number

def value : Number → ℚ
  | integer n _ => n
  | float x => x.value

def double? : Number → Option Binary64
  | integer n _ => Binary64.ofRat? n
  | float x => some x

/-- The comparison of a number with a whole number in doubles: the number is made a double first,
and the difference is a rounded one. -/
def CloseInDoubles (n : Number) (k : Int) : Prop :=
  ∃ x d, n.double? = some x ∧ x.minus? k = some d ∧ |d.value| < 1 / 2 ^ 52

/-- For 1 and 2 it makes no difference that two things are rounded. -/
theorem isNear_iff_in_doubles (n : Number) {k : Int} (hk : k = 1 ∨ k = 2) :
    n.isNear k = true ↔ n.CloseInDoubles k := by
  have difference : (∃ x d, n.double? = some x ∧ x.minus? k = some d ∧ |d.value| < 1 / 2 ^ 52) ↔
      ∃ x, n.double? = some x ∧ |x.value - k| < 1 / 2 ^ 52 := by
    simp only [← Binary64.abs_minus?_lt_iff hk, exists_and_left]
  rw [CloseInDoubles, difference]
  cases n with
  | float x => simp [double?, isNear, x.isNear_iff]
  | integer m h => exact decide_eq_true_iff.trans (Binary64.abs_ofRat?_sub_lt_iff hk).symm

theorem isNear_one_iff (n : Number) :
    n.isNear 1 = true ↔ n.value = 1 ∨ n = .float .belowOne := by
  cases n with
  | float x =>
    rw [isNear, x.isNear_iff, Int.cast_one, Binary64.abs_sub_one_lt_iff,
      Binary64.value_eq_iff_eq_belowOne]
    simp [value]
  | integer m h => simp [isNear, value]

theorem isNear_two_iff (n : Number) : n.isNear 2 = true ↔ n.value = 2 := by
  cases n with
  | float x =>
    rw [isNear, x.isNear_iff, Int.cast_ofNat, Binary64.abs_sub_two_lt_iff]
    rfl
  | integer m h =>
    simp [isNear, value]
    norm_cast

theorem isNear_one_of_isNear_two {n : Number} (h : n.isNear 2 = true) : n.isNear 1 = false := by
  have two := n.isNear_two_iff.1 h
  refine Bool.eq_false_iff.2 fun h1 => ?_
  rcases n.isNear_one_iff.1 h1 with one | rfl
  · norm_num [two] at one
  · have below : Binary64.belowOne.value = 2 := two
    norm_num [Binary64.value_belowOne] at below

end Json.Number

namespace Wire

/-- A write of `text` that is well-formed but perhaps for its selector, which may be missing. -/
inductive Writes (v : Value) (text : String) : Option Value → Prop
  | bare {body p inner} (hw : Wraps v body) (ha : Asks body .write (some p)) (he : Embeds p inner)
    (ht : inner.get? "text" = some (.string text)) (ho : Absent (inner.get? "options")) :
    Writes v text none
  | optioned {body p inner o options} (hw : Wraps v body) (ha : Asks body .write (some p))
    (he : Embeds p inner) (ht : inner.get? "text" = some (.string text))
    (ho : inner.get? "options" = some o) (hu : Embeds o options) :
    Writes v text (options.get? "stream")

def chosen (selector : Option Value) : Except EffectError Channel :=
  match selector.bind Value.present? with
  | none => .ok .primary
  | some selector => Channel.ofValue selector

theorem decode_of_writes {v : Value} {text : String} {selector : Option Value}
    (h : Writes v text selector) : decode v = (chosen selector).map (.write text) := by
  cases h with
  | bare hw ha he ht ho => exact decode_of_encodes ⟨_, _, _, hw, ha, .write he ht (.unasked ho)⟩
  | @optioned body p inner o options hw ha he ht ho hu =>
    rcases absent_or_exists (options.get? "stream") with hs | ⟨s, hs, hn⟩
    · rw [chosen, hs.bind_present?]
      exact decode_of_encodes ⟨_, _, _, hw, ha, .write he ht (.unselected ho hu hs)⟩
    · have present : (options.get? "stream").bind Value.present? = some s := by
        rw [hs]
        exact present?_of_ne hn
      rw [chosen, present]
      dsimp only
      by_cases hc : ∃ channel, Channel.ofValue s = .ok channel
      · obtain ⟨channel, hc⟩ := hc
        rw [hc]
        exact decode_of_encodes ⟨_, _, _, hw, ha, .write he ht (.selected ho hu hs hn hc)⟩
      · rw [ofValue_of_not (not_exists.1 hc)]
        exact decode_of_faulty (.payload hw ha (.selector he ht ho hu hs hn (not_exists.1 hc)))

theorem ofValue_number_eq_iff (n : Number) :
    (Channel.ofValue (.number n) = .ok .primary ↔ n.isNear 1 = true) ∧
    (Channel.ofValue (.number n) = .ok .secondary ↔ n.isNear 2 = true) := by
  simp only [Channel.ofValue]
  cases h : n.isNear 2 with
  | true => simp [Number.isNear_one_of_isNear_two h]
  | false => cases n.isNear 1 <;> simp

theorem ofValue_eq_primary_iff {selector : Value} : Channel.ofValue selector = .ok .primary ↔
    ∃ n : Number, selector = .number n ∧ (n.value = 1 ∨ n = .float .belowOne) := by
  cases selector with
  | number n =>
    rw [(ofValue_number_eq_iff n).1, n.isNear_one_iff]
    simp
  | _ => simp [Channel.ofValue]

theorem ofValue_eq_secondary_iff {selector : Value} : Channel.ofValue selector = .ok .secondary ↔
    ∃ n : Number, selector = .number n ∧ n.value = 2 := by
  cases selector with
  | number n =>
    rw [(ofValue_number_eq_iff n).2, n.isNear_two_iff]
    simp
  | _ => simp [Channel.ofValue]

theorem ofValue_cases (selector : Value) : Channel.ofValue selector = .ok .primary ∨
    Channel.ofValue selector = .ok .secondary ∨
      Channel.ofValue selector = .error (.invalidStream selector.text) := by
  by_cases h : ∃ channel, Channel.ofValue selector = .ok channel
  · obtain ⟨_ | _, h⟩ := h
    · exact Or.inl h
    · exact Or.inr (Or.inl h)
  · exact Or.inr (Or.inr (ofValue_of_not (not_exists.1 h)))

/-- Which selectors a write is accepted with. None and `null` mean the primary channel; so does a
number that is 1, and one other, the double just below 1. A number that is 2 means the secondary
channel. With anything else the write is refused, and the error quotes the selector. Of numbers
these are the ones that the comparison in doubles lets through. -/
theorem write_accepted_iff {v : Value} {text : String} {selector : Option Value}
    (h : Writes v text selector) :
    (decode v = .ok (.write text .primary) ↔ Absent selector ∨
      ∃ n : Number, selector = some (.number n) ∧ (n.value = 1 ∨ n = .float .belowOne)) ∧
    (decode v = .ok (.write text .secondary) ↔
      ∃ n : Number, selector = some (.number n) ∧ n.value = 2) ∧
    (decode v = .ok (.write text .primary) ∨ decode v = .ok (.write text .secondary) ∨
      ∃ s, selector = some s ∧ decode v = .error (.invalidStream s.text)) ∧
    ∀ n : Number, selector = some (.number n) →
      (decode v = .ok (.write text .primary) ↔ n.CloseInDoubles 1) ∧
      (decode v = .ok (.write text .secondary) ↔ n.CloseInDoubles 2) := by
  rw [decode_of_writes h]
  rcases absent_or_exists selector with absent | ⟨s, rfl, hn⟩
  · have primary : chosen selector = .ok .primary := by rw [chosen, absent.bind_present?]
    rw [primary]
    refine ⟨by simp [absent, Except.map], ?_, Or.inl rfl, ?_⟩
    · rcases absent with rfl | rfl <;> simp [Except.map]
    · rintro n rfl
      rcases absent with absent | absent <;> cases absent
  · have present : chosen (some s) = Channel.ofValue s := by
      simp [chosen, present?_of_ne hn]
    have notAbsent : ¬ Absent (some s) := by simp [Absent, hn]
    have ok (channel : Channel) : (Channel.ofValue s).map (Effect.write text) =
        .ok (.write text channel) ↔ Channel.ofValue s = .ok channel := by
      cases Channel.ofValue s <;> simp [Except.map]
    rw [present, ok, ok]
    refine ⟨by simp [notAbsent, ofValue_eq_primary_iff], by simp [ofValue_eq_secondary_iff], ?_, ?_⟩
    · rcases ofValue_cases s with hc | hc | hc
      · exact Or.inl hc
      · exact Or.inr (Or.inl hc)
      · exact Or.inr (Or.inr ⟨s, rfl, by rw [hc]; rfl⟩)
    · intro n hs
      obtain rfl : s = .number n := Option.some.inj hs
      obtain ⟨one, two⟩ := ofValue_number_eq_iff n
      rw [one, two, n.isNear_iff_in_doubles (Or.inl rfl), n.isNear_iff_in_doubles (Or.inr rfl)]
      exact ⟨Iff.rfl, Iff.rfl⟩

def writeSelecting (text : String) (selector : Value) : Value :=
  Instruction.ofPayload .write
    (.object [("options", embed (.object [("stream", selector)])), ("text", .string text)])

theorem writes_writeSelecting (text : String) (selector : Value) :
    Writes (writeSelecting text selector) text (some selector) := by
  have found : (Value.object [("stream", selector)]).get? "stream" = some selector := rfl
  rw [← found]
  exact .optioned (wraps_ofPayload _ _) (asks_bodyOf _ _) (embeds_embed _) rfl rfl (embeds_embed _)

/-- A number that is not 1 selects the primary channel. -/
theorem belowOne_accepted :
    decode (writeSelecting "t" (.number (.float .belowOne))) = .ok (.write "t" .primary) ∧
      (Number.float .belowOne).value = 1 - 1 / 2 ^ 53 :=
  ⟨(write_accepted_iff (writes_writeSelecting "t" (.number (.float .belowOne)))).1.2
    (Or.inr ⟨_, rfl, Or.inr rfl⟩), Binary64.value_belowOne⟩

end Wire

end StyledEffects
