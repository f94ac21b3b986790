import Mathlib.Data.List.Forall2
import StyledEffects.Wire.Decode

/-! The grammar of instructions. `Encodes` says which values are instructions and for which
effects, `Faulty` what is the first thing wrong with any other value. Every value is one or the
other, and decoding tells which. -/

namespace StyledEffects.Style

def spanWords : List (String × Span) :=
  [("reset", .reset), ("bold", .bold), ("dim", .dim), ("italic", .italic),
   ("underline", .underline), ("overline", .overline), ("inverse", .inverse),
   ("hidden", .hidden), ("strikethrough", .strikethrough),
   ("black", .black), ("red", .red), ("green", .green), ("yellow", .yellow), ("blue", .blue),
   ("magenta", .magenta), ("cyan", .cyan), ("white", .white),
   ("blackBright", .blackBright), ("gray", .blackBright), ("grey", .blackBright),
   ("redBright", .redBright), ("greenBright", .greenBright), ("yellowBright", .yellowBright),
   ("blueBright", .blueBright), ("magentaBright", .magentaBright),
   ("cyanBright", .cyanBright), ("whiteBright", .whiteBright), ("orange", .orange),
   ("bgBlack", .bgBlack), ("bgRed", .bgRed), ("bgGreen", .bgGreen), ("bgYellow", .bgYellow),
   ("bgBlue", .bgBlue), ("bgMagenta", .bgMagenta), ("bgCyan", .bgCyan), ("bgWhite", .bgWhite),
   ("bgBlackBright", .bgBlackBright), ("bgGray", .bgBlackBright), ("bgGrey", .bgBlackBright),
   ("bgRedBright", .bgRedBright), ("bgGreenBright", .bgGreenBright),
   ("bgYellowBright", .bgYellowBright), ("bgBlueBright", .bgBlueBright),
   ("bgMagentaBright", .bgMagentaBright), ("bgCyanBright", .bgCyanBright),
   ("bgWhiteBright", .bgWhiteBright)]

theorem mem_spanWords {name : String} {span : Span} :
    (name, span) ∈ spanWords ↔ name ∈ span.spellings := by
  have all : spanWords = Span.all.flatMap fun span => span.spellings.map (·, span) := rfl
  have listed : span ∈ Span.all := by cases span <;> decide
  rw [all, List.mem_flatMap]
  constructor
  · rintro ⟨span', -, h⟩
    obtain ⟨name', hn, h⟩ := List.mem_map.1 h
    obtain ⟨rfl, rfl⟩ := Prod.mk.inj h
    exact hn
  · intro h
    exact ⟨span, listed, List.mem_map.2 ⟨name, h, rfl⟩⟩

theorem Span.ofName?_eq_some_iff {name : String} {span : Span} :
    Span.ofName? name = some span ↔ (name, span) ∈ spanWords := by
  have spelled : ∀ span ∈ Span.all, ∀ name ∈ span.spellings, Span.ofName? name = some span := by
    decide +kernel
  rw [mem_spanWords]
  constructor
  · intro h
    simpa using List.find?_some h
  · intro h
    exact spelled span (by cases span <;> decide) name h

end StyledEffects.Style

namespace StyledEffects.Wire

open Json Style

def verbWords : List (String × Verb) :=
  [("write", .write), ("ansi-push", .push), ("push", .push), ("ansi-pop", .pop), ("pop", .pop)]

theorem Verb.ofName?_eq_some_iff {name : String} {verb : Verb} :
    Verb.ofName? name = some verb ↔ (name, verb) ∈ verbWords := by
  have worded : ∀ word ∈ verbWords, Verb.ofName? word.1 = some word.2 := by decide
  constructor
  · intro h
    have spelled : name ∈ verb.spellings := by simpa using List.find?_some h
    cases verb <;> simpa [Verb.spellings, verbWords] using spelled
  · exact worded (name, verb)

/-! ## Records and wrappings -/

/-- What stands under a key counts as missing if it is `null`. -/
def Absent (v : Option Value) : Prop := v = none ∨ v = some .null

/-- A value read as a record with these two keys, and what it has under them. -/
inductive IsRecord (first second : String) : Value → Option Value → Option Value → Prop
  | object {fields : Fields} :
    IsRecord first second (.object fields) (fields.get? first) (fields.get? second)
  | array {a b : Value} : IsRecord first second (.array [a, b]) (some a) (some b)

def Embeds (v inner : Value) : Prop :=
  v.get? "type" = some (.string "EmbeddedExpression") ∧ v.get? "value" = some inner

/-! ## Instructions -/

def Wraps (v body : Value) : Prop :=
  ∃ embedded, IsRecord "type" "value" v (some (.string "Effect")) (some embedded) ∧
    Embeds embedded body

def Asks (body : Value) (verb : Verb) (payload : Option Value) : Prop :=
  ∃ name, (name, verb) ∈ verbWords ∧
    IsRecord "verb" "value" body (some (.string name)) payload

/-- The options of a write, with the channel they select. -/
inductive Selects (options : Option Value) : Channel → Prop
  | unasked (h : Absent options) : Selects options .primary
  | unselected {o inner} (ho : options = some o) (he : Embeds o inner)
      (hs : Absent (inner.get? "stream")) : Selects options .primary
  | selected {o inner selector channel} (ho : options = some o) (he : Embeds o inner)
      (hs : inner.get? "stream" = some selector) (hn : selector ≠ .null)
      (hc : Channel.ofValue selector = .ok channel) : Selects options channel

def Names (item : Value) (span : Span) : Prop :=
  ∃ name, (name, span) ∈ spanWords ∧ item = .string name

/-- The payload of a verb, with the effect that the two make. -/
inductive Fills : Verb → Option Value → Effect → Prop
  | write {p inner text channel} (he : Embeds p inner)
      (ht : inner.get? "text" = some (.string text))
      (hc : Selects (inner.get? "options") channel) :
    Fills .write (some p) (.write text channel)
  | pushBare {payload} (h : Absent payload) : Fills .push payload (.push none)
  | pushEcho {p inner} (he : Embeds p inner) (hs : Absent (inner.get? "spans")) :
    Fills .push (some p) (.push none)
  | push {p inner items spans} (he : Embeds p inner)
      (hs : inner.get? "spans" = some (.array items)) (hn : List.Forall₂ Names items spans) :
    Fills .push (some p) (.push (if spans = [] then none else some spans))
  | pop {payload} : Fills .pop payload .pop

/-- An instruction, with the effect it asks for. -/
def Encodes (v : Value) (effect : Effect) : Prop :=
  ∃ body verb payload, Wraps v body ∧ Asks body verb payload ∧ Fills verb payload effect

/-! ## Faults -/

inductive Misnames : Value → EffectError → Prop
  | kind {item : Value} (h : ∀ s, item ≠ .string s) :
    Misnames item (.invalidField "spans" ("expected span names, found " ++ item.text))
  | unknown {name} (h : ∀ span : Span, (name, span) ∉ spanWords) :
    Misnames (.string name) (.unknownSpan name)

/-- The first thing wrong with the payload of a verb. -/
inductive Misfills : Verb → Option Value → EffectError → Prop
  | writeBare {payload} (h : Absent payload) : Misfills .write payload (.missingField "value")
  | writeEmbedding {p} (hn : p ≠ .null) (he : ∀ inner, ¬ Embeds p inner) :
    Misfills .write (some p) (.malformedEmbedding "write payload")
  | textMissing {p inner} (he : Embeds p inner) (ht : inner.get? "text" = none) :
    Misfills .write (some p) (.missingField "text")
  | textKind {p inner other} (he : Embeds p inner) (ht : inner.get? "text" = some other)
      (hs : ∀ s, other ≠ .string s) :
    Misfills .write (some p) (.invalidField "text" ("expected a string, found " ++ other.text))
  | optionsEmbedding {p inner text o} (he : Embeds p inner)
      (ht : inner.get? "text" = some (.string text)) (ho : inner.get? "options" = some o)
      (hn : o ≠ .null) (hu : ∀ options, ¬ Embeds o options) :
    Misfills .write (some p) (.malformedEmbedding "write options")
  | selector {p inner text o options selector} (he : Embeds p inner)
      (ht : inner.get? "text" = some (.string text)) (ho : inner.get? "options" = some o)
      (hu : Embeds o options) (hs : options.get? "stream" = some selector)
      (hn : selector ≠ .null) (hc : ∀ channel, Channel.ofValue selector ≠ .ok channel) :
    Misfills .write (some p) (.invalidStream selector.text)
  | pushEmbedding {p} (hn : p ≠ .null) (he : ∀ inner, ¬ Embeds p inner) :
    Misfills .push (some p) (.malformedEmbedding "ansi-push payload")
  | spansKind {p inner other} (he : Embeds p inner) (hs : inner.get? "spans" = some other)
      (hn : other ≠ .null) (ha : ∀ items, other ≠ .array items) :
    Misfills .push (some p) (.invalidField "spans" ("expected an array, found " ++ other.text))
  | span {p inner known spans bad rest e} (he : Embeds p inner)
      (hs : inner.get? "spans" = some (.array (known ++ bad :: rest)))
      (hk : List.Forall₂ Names known spans) (hb : Misnames bad e) :
    Misfills .push (some p) e

/-- The first thing wrong with a value that is no instruction, from the outside inwards. -/
inductive Faulty (v : Value) : EffectError → Prop
  | shape (h : ∀ type value, ¬ IsRecord "type" "value" v type value) :
    Faulty v (.unexpectedInstruction v.text)
  | typeKind {type value} (hr : IsRecord "type" "value" v (some type) value)
      (hn : type ≠ .null) (hs : ∀ s, type ≠ .string s) : Faulty v (.unexpectedInstruction v.text)
  | untyped {type value} (hr : IsRecord "type" "value" v type value) (ha : Absent type) :
    Faulty v (.unexpectedInstruction "nothing")
  | otherType {type value} (hr : IsRecord "type" "value" v (some (.string type)) value)
      (ht : type ≠ "Effect") : Faulty v (.unexpectedInstruction (Text.quoted type))
  | embedding {value} (hr : IsRecord "type" "value" v (some (.string "Effect")) value)
      (he : ∀ embedded body, value = some embedded → ¬ Embeds embedded body) :
    Faulty v (.malformedEmbedding "instruction")
  | bodyLength {items} (hw : Wraps v (.array items)) (hl : items.length ≠ 2) :
    Faulty v (.invalidField "value" (RecordFault.length items.length).message)
  | bodyKind {body} (hw : Wraps v body) (ho : ∀ fields, body ≠ .object fields)
      (ha : ∀ items, body ≠ .array items) :
    Faulty v (.invalidField "value" (RecordFault.kind body).message)
  | verbless {body verb payload} (hw : Wraps v body)
      (hr : IsRecord "verb" "value" body verb payload) (ha : Absent verb) :
    Faulty v (.missingField "verb")
  | verbKind {body verb payload} (hw : Wraps v body)
      (hr : IsRecord "verb" "value" body (some verb) payload) (hn : verb ≠ .null)
      (hs : ∀ s, verb ≠ .string s) : Faulty v (.unknownVerb verb.text)
  | verb {body name payload} (hw : Wraps v body)
      (hr : IsRecord "verb" "value" body (some (.string name)) payload)
      (hn : ∀ verb : Verb, (name, verb) ∉ verbWords) : Faulty v (.unknownVerb name)
  | payload {body verb payload e} (hw : Wraps v body) (ha : Asks body verb payload)
      (hp : Misfills verb payload e) : Faulty v e

/-! ## Decoding by the grammar -/

theorem Absent.bind_present? {v : Option Value} (h : Absent v) : v.bind Value.present? = none := by
  rcases h with rfl | rfl <;> rfl

@[simp] theorem present?_string (s : String) : (Value.string s).present? = some (.string s) := rfl

@[simp] theorem present?_array (items : List Value) :
    (Value.array items).present? = some (.array items) := rfl

theorem present?_of_ne {v : Value} (h : v ≠ .null) : v.present? = some v := by
  cases v with
  | null => exact absurd rfl h
  | _ => rfl

theorem absent_or_exists (v : Option Value) : Absent v ∨ ∃ w, v = some w ∧ w ≠ .null := by
  cases v with
  | none => exact Or.inl (Or.inl rfl)
  | some w =>
    by_cases h : w = .null
    · exact Or.inl (Or.inr (by rw [h]))
    · exact Or.inr ⟨w, rfl, h⟩

theorem IsRecord.record_eq {first second : String} {v : Value} {a b : Option Value}
    (h : IsRecord first second v a b) :
    record first second v = .ok (a.bind Value.present?, b.bind Value.present?) := by
  cases h <;> rfl

theorem unwrap_of_embeds {v inner : Value} (h : Embeds v inner) (context : String) :
    unwrap v context = .ok inner := by
  simp [unwrap, h.1, h.2, Value.string?, embeddedType]

theorem Embeds.ne_null {v inner : Value} (h : Embeds v inner) : v ≠ .null := by
  rintro rfl
  cases h.1

theorem unwrap_of_not_embeds {v : Value} (h : ∀ inner, ¬ Embeds v inner) (context : String) :
    unwrap v context = .error (.malformedEmbedding context) := by
  unfold unwrap
  split
  · rename_i type inner ht hv
    split
    · rename_i he
      refine absurd ⟨?_, hv⟩ (h inner)
      subst he
      obtain ⟨w, hw, hs⟩ := Option.bind_eq_some_iff.1 ht
      cases w <;> simp_all [Value.string?, embeddedType]
    · rfl
  · rfl

def decodePayload : Verb → Option Value → Except EffectError Effect
  | .write, payload => decodeWrite payload
  | .push, payload => decodePush payload
  | .pop, _ => .ok .pop

theorem decode_of_wraps {v body : Value} (h : Wraps v body) :
    decode v = (readBody body).bind fun (verb, payload) => decodePayload verb payload := by
  obtain ⟨embedded, hr, he⟩ := h
  have opened : openEnvelope v = .ok embedded := by
    simp [openEnvelope, effectType, hr.record_eq, present?_of_ne he.ne_null]
  unfold decode
  rw [opened]
  simp only [bind, Except.bind, unwrap_of_embeds he]
  cases readBody body with
  | error e => rfl
  | ok r => rcases r with ⟨_ | _ | _, payload⟩ <;> rfl

theorem decode_of_asks {v body : Value} {verb : Verb} {payload : Option Value}
    (hw : Wraps v body) (ha : Asks body verb payload) :
    decode v = decodePayload verb (payload.bind Value.present?) := by
  obtain ⟨name, hn, hr⟩ := ha
  have read : readBody body = .ok (verb, payload.bind Value.present?) := by
    simp [readBody, hr.record_eq, Verb.ofName?_eq_some_iff.2 hn]
  rw [decode_of_wraps hw, read]
  rfl

theorem channelOf_of_selects {options : Option Value} {channel : Channel}
    (h : Selects options channel) : channelOf (options.bind Value.present?) = .ok channel := by
  cases h with
  | unasked h => rw [h.bind_present?]; rfl
  | unselected ho he hs =>
    subst ho
    simp [channelOf, present?_of_ne he.ne_null, unwrap_of_embeds he, Value.field?,
      hs.bind_present?, bind, Except.bind]
  | selected ho he hs hn hc =>
    subst ho
    simp [channelOf, present?_of_ne he.ne_null, unwrap_of_embeds he, Value.field?, hs,
      present?_of_ne hn, hc, bind, Except.bind]

theorem spanOf_of_names {item : Value} {span : Span} (h : Names item span) :
    spanOf item = .ok span := by
  obtain ⟨name, hn, rfl⟩ := h
  simp [spanOf, lookupSpan, Span.ofName?_eq_some_iff.2 hn]

theorem mapM_spanOf_of_names {items : List Value} {spans : List Span}
    (h : List.Forall₂ Names items spans) : items.mapM spanOf = .ok spans := by
  induction h with
  | nil => rfl
  | cons hn _ ih =>
    simp [List.mapM_cons, spanOf_of_names hn, ih, bind, Except.bind, pure, Except.pure]

theorem decodePayload_of_fills {verb : Verb} {payload : Option Value} {effect : Effect}
    (h : Fills verb payload effect) :
    decodePayload verb (payload.bind Value.present?) = .ok effect := by
  cases h with
  | write he ht hc =>
    simp [decodePayload, decodeWrite, present?_of_ne he.ne_null, unwrap_of_embeds he, ht,
      Value.field?, channelOf_of_selects hc, bind, Except.bind]
  | pushBare h => rw [h.bind_present?]; rfl
  | pushEcho he hs =>
    simp [decodePayload, decodePush, present?_of_ne he.ne_null, unwrap_of_embeds he,
      Value.field?, hs.bind_present?, bind, Except.bind]
  | push he hs hn =>
    simp [decodePayload, decodePush, present?_of_ne he.ne_null, unwrap_of_embeds he,
      Value.field?, hs, mapM_spanOf_of_names hn, bind, Except.bind]
  | pop => rfl

theorem spanOf_of_misnames {item : Value} {e : EffectError} (h : Misnames item e) :
    spanOf item = .error e := by
  cases h with
  | kind h =>
    cases item with
    | string s => exact absurd rfl (h s)
    | _ => rfl
  | @unknown name h =>
    have none : Span.ofName? name = none := by
      rw [Option.eq_none_iff_forall_ne_some]
      exact fun span hs => h span (Span.ofName?_eq_some_iff.1 hs)
    simp [spanOf, lookupSpan, none]

theorem mapM_spanOf_of_misnames {known : List Value} {spans : List Span} {bad : Value}
    {e : EffectError} (hk : List.Forall₂ Names known spans) (hb : Misnames bad e)
    (rest : List Value) : (known ++ bad :: rest).mapM spanOf = .error e := by
  induction hk with
  | nil => simp [List.mapM_cons, spanOf_of_misnames hb, bind, Except.bind]
  | cons hn _ ih => simp [List.mapM_cons, spanOf_of_names hn, ih, bind, Except.bind]

theorem ofValue_of_not {selector : Value} (h : ∀ channel, Channel.ofValue selector ≠ .ok channel) :
    Channel.ofValue selector = .error (.invalidStream selector.text) := by
  unfold Channel.ofValue at h ⊢
  split
  · split
    · simp_all
    · split
      · simp_all
      · rfl
  · rfl

theorem decodePayload_of_misfills {verb : Verb} {payload : Option Value} {e : EffectError}
    (h : Misfills verb payload e) :
    decodePayload verb (payload.bind Value.present?) = .error e := by
  cases h with
  | writeBare h => rw [h.bind_present?]; rfl
  | writeEmbedding hn he =>
    simp [decodePayload, decodeWrite, present?_of_ne hn, unwrap_of_not_embeds he, bind,
      Except.bind]
  | textMissing he ht =>
    simp [decodePayload, decodeWrite, present?_of_ne he.ne_null, unwrap_of_embeds he, ht, bind,
      Except.bind]
  | @textKind p inner other he ht hs =>
    cases other with
    | string s => exact absurd rfl (hs s)
    | _ =>
      simp [decodePayload, decodeWrite, present?_of_ne he.ne_null, unwrap_of_embeds he, ht, bind,
        Except.bind]
  | optionsEmbedding he ht ho hn hu =>
    simp [decodePayload, decodeWrite, present?_of_ne he.ne_null, unwrap_of_embeds he, ht,
      Value.field?, ho, present?_of_ne hn, channelOf, unwrap_of_not_embeds hu, bind, Except.bind]
  | selector he ht ho hu hs hn hc =>
    simp [decodePayload, decodeWrite, present?_of_ne he.ne_null, unwrap_of_embeds he, ht,
      Value.field?, ho, present?_of_ne hu.ne_null, channelOf, unwrap_of_embeds hu, hs,
      present?_of_ne hn, ofValue_of_not hc, bind, Except.bind]
  | pushEmbedding hn he =>
    simp [decodePayload, decodePush, present?_of_ne hn, unwrap_of_not_embeds he, bind,
      Except.bind]
  | @spansKind p inner other he hs hn ha =>
    have present := present?_of_ne hn
    cases other with
    | array items => exact absurd rfl (ha items)
    | null => exact absurd rfl hn
    | _ =>
      simp [decodePayload, decodePush, present?_of_ne he.ne_null, unwrap_of_embeds he,
        Value.field?, hs, present, bind, Except.bind]
  | span he hs hk hb =>
    simp [decodePayload, decodePush, present?_of_ne he.ne_null, unwrap_of_embeds he,
      Value.field?, hs, mapM_spanOf_of_misnames hk hb, bind, Except.bind]

theorem decode_of_encodes {v : Value} {effect : Effect} (h : Encodes v effect) :
    decode v = .ok effect := by
  obtain ⟨body, verb, payload, hw, ha, hf⟩ := h
  rw [decode_of_asks hw ha, decodePayload_of_fills hf]

theorem record_of_length {items : List Value} (h : items.length ≠ 2) (first second : String) :
    record first second (.array items) = .error (.length items.length) := by
  match items, h with
  | [], _ => rfl
  | [_], _ => rfl
  | [_, _], h => exact absurd rfl h
  | _ :: _ :: _ :: _, _ => rfl

theorem record_of_kind {v : Value} (ho : ∀ fields, v ≠ .object fields)
    (ha : ∀ items, v ≠ .array items) (first second : String) :
    record first second v = .error (.kind v) := by
  cases v with
  | object fields => exact absurd rfl (ho fields)
  | array items => exact absurd rfl (ha items)
  | _ => rfl

/-- What is no record is an array of another length or of another kind altogether. -/
theorem not_isRecord {first second : String} {v : Value}
    (h : ∀ a b, ¬ IsRecord first second v a b) :
    (∃ items, v = .array items ∧ items.length ≠ 2) ∨
      ((∀ fields, v ≠ .object fields) ∧ ∀ items, v ≠ .array items) := by
  cases v with
  | object fields => exact absurd .object (h _ _)
  | array items =>
    refine Or.inl ⟨items, rfl, fun hl => ?_⟩
    obtain ⟨a, b, rfl⟩ := List.length_eq_two.1 hl
    exact h _ _ .array
  | _ => exact Or.inr ⟨by simp, by simp⟩

theorem decode_of_faulty {v : Value} {e : EffectError} (h : Faulty v e) : decode v = .error e := by
  cases h with
  | shape h =>
    rcases not_isRecord h with ⟨items, rfl, hl⟩ | ⟨ho, ha⟩
    · simp [decode, openEnvelope, record_of_length hl, bind, Except.bind]
    · simp [decode, openEnvelope, record_of_kind ho ha, bind, Except.bind]
  | @typeKind type value hr hn hs =>
    have present := present?_of_ne hn
    cases type with
    | string s => exact absurd rfl (hs s)
    | _ => simp [decode, openEnvelope, hr.record_eq, present, bind, Except.bind]
  | untyped hr ha =>
    simp [decode, openEnvelope, hr.record_eq, ha.bind_present?, bind, Except.bind]
  | otherType hr ht =>
    simp [decode, openEnvelope, effectType, hr.record_eq, ht, bind, Except.bind]
  | @embedding value hr he =>
    rcases absent_or_exists value with ha | ⟨embedded, rfl, hn⟩
    · simp [decode, openEnvelope, effectType, hr.record_eq, ha.bind_present?, bind, Except.bind]
    · have unwrapped := unwrap_of_not_embeds (he embedded · rfl) "instruction"
      simp [decode, openEnvelope, effectType, hr.record_eq, present?_of_ne hn, unwrapped, bind,
        Except.bind]
  | bodyLength hw hl =>
    rw [decode_of_wraps hw]
    simp [readBody, record_of_length hl, Except.bind]
  | bodyKind hw ho ha =>
    rw [decode_of_wraps hw]
    simp [readBody, record_of_kind ho ha, Except.bind]
  | verbless hw hr ha =>
    rw [decode_of_wraps hw]
    simp [readBody, hr.record_eq, ha.bind_present?, Except.bind]
  | @verbKind body verb payload hw hr hn hs =>
    rw [decode_of_wraps hw]
    have present := present?_of_ne hn
    cases verb with
    | string s => exact absurd rfl (hs s)
    | _ => simp [readBody, hr.record_eq, present, Except.bind]
  | @verb body name payload hw hr hn =>
    rw [decode_of_wraps hw]
    have none : Verb.ofName? name = none := by
      rw [Option.eq_none_iff_forall_ne_some]
      exact fun verb hs => hn verb (Verb.ofName?_eq_some_iff.1 hs)
    simp [readBody, hr.record_eq, none, Except.bind]
  | payload hw ha hp => rw [decode_of_asks hw ha, decodePayload_of_misfills hp]

/-! ## Every value is an instruction or has a fault -/

theorem names_or_misnames (item : Value) :
    (∃ span, Names item span) ∨ ∃ e, Misnames item e := by
  by_cases hs : ∃ s, item = .string s
  · obtain ⟨name, rfl⟩ := hs
    by_cases hn : ∃ span : Span, (name, span) ∈ spanWords
    · obtain ⟨span, hn⟩ := hn
      exact Or.inl ⟨span, name, hn, rfl⟩
    · exact Or.inr ⟨_, .unknown (not_exists.1 hn)⟩
  · exact Or.inr ⟨_, .kind (not_exists.1 hs)⟩

theorem forall_names_or_misnames (items : List Value) :
    (∃ spans, List.Forall₂ Names items spans) ∨
      ∃ known spans bad rest e, items = known ++ bad :: rest ∧
        List.Forall₂ Names known spans ∧ Misnames bad e := by
  induction items with
  | nil => exact Or.inl ⟨[], .nil⟩
  | cons item items ih =>
    rcases names_or_misnames item with ⟨span, hn⟩ | ⟨e, he⟩
    · rcases ih with ⟨spans, hs⟩ | ⟨known, spans, bad, rest, e, rfl, hk, hb⟩
      · exact Or.inl ⟨span :: spans, .cons hn hs⟩
      · exact Or.inr ⟨item :: known, span :: spans, bad, rest, e, rfl, .cons hn hk, hb⟩
    · exact Or.inr ⟨[], [], item, items, e, rfl, .nil, he⟩

theorem embeds_or_not (v : Value) : (∃ inner, Embeds v inner) ∨ ∀ inner, ¬ Embeds v inner := by
  by_cases h : ∃ inner, Embeds v inner
  · exact Or.inl h
  · exact Or.inr (not_exists.1 h)

/-- A write that has a text fails only because of its options. -/
theorem write_fills_or_misfills {p inner : Value} {text : String} (he : Embeds p inner)
    (ht : inner.get? "text" = some (.string text)) :
    (∃ effect, Fills .write (some p) effect) ∨ ∃ e, Misfills .write (some p) e := by
  rcases absent_or_exists (inner.get? "options") with ha | ⟨o, ho, hn⟩
  · exact Or.inl ⟨_, .write he ht (.unasked ha)⟩
  · rcases embeds_or_not o with ⟨options, hu⟩ | hu
    · rcases absent_or_exists (options.get? "stream") with ha | ⟨selector, hs, hn⟩
      · exact Or.inl ⟨_, .write he ht (.unselected ho hu ha)⟩
      · by_cases hc : ∃ channel, Channel.ofValue selector = .ok channel
        · obtain ⟨channel, hc⟩ := hc
          exact Or.inl ⟨_, .write he ht (.selected ho hu hs hn hc)⟩
        · exact Or.inr ⟨_, .selector he ht ho hu hs hn (not_exists.1 hc)⟩
    · exact Or.inr ⟨_, .optionsEmbedding he ht ho hn hu⟩

theorem fills_or_misfills (verb : Verb) (payload : Option Value) :
    (∃ effect, Fills verb payload effect) ∨ ∃ e, Misfills verb payload e := by
  cases verb with
  | pop => exact Or.inl ⟨_, .pop⟩
  | write =>
    rcases absent_or_exists payload with ha | ⟨p, rfl, hn⟩
    · exact Or.inr ⟨_, .writeBare ha⟩
    · rcases embeds_or_not p with ⟨inner, he⟩ | he
      · cases ht : inner.get? "text" with
        | none => exact Or.inr ⟨_, .textMissing he ht⟩
        | some other =>
          by_cases hs : ∃ s, other = .string s
          · obtain ⟨text, rfl⟩ := hs
            exact write_fills_or_misfills he ht
          · exact Or.inr ⟨_, .textKind he ht (not_exists.1 hs)⟩
      · exact Or.inr ⟨_, .writeEmbedding hn he⟩
  | push =>
    rcases absent_or_exists payload with ha | ⟨p, rfl, hn⟩
    · exact Or.inl ⟨_, .pushBare ha⟩
    · rcases embeds_or_not p with ⟨inner, he⟩ | he
      · rcases absent_or_exists (inner.get? "spans") with ha | ⟨other, hs, hn⟩
        · exact Or.inl ⟨_, .pushEcho he ha⟩
        · by_cases hi : ∃ items, other = .array items
          · obtain ⟨items, rfl⟩ := hi
            rcases forall_names_or_misnames items with
              ⟨spans, hf⟩ | ⟨known, spans, bad, rest, e, rfl, hk, hb⟩
            · exact Or.inl ⟨_, .push he hs hf⟩
            · exact Or.inr ⟨_, .span he hs hk hb⟩
          · exact Or.inr ⟨_, .spansKind he hs hn (not_exists.1 hi)⟩
      · exact Or.inr ⟨_, .pushEmbedding hn he⟩

theorem encodes_or_faulty_of_wraps {v body : Value} (hw : Wraps v body) :
    (∃ effect, Encodes v effect) ∨ ∃ e, Faulty v e := by
  by_cases hr : ∃ a b, IsRecord "verb" "value" body a b
  · obtain ⟨verb, payload, hr⟩ := hr
    rcases absent_or_exists verb with ha | ⟨verb, rfl, hn⟩
    · exact Or.inr ⟨_, .verbless hw hr ha⟩
    · by_cases hs : ∃ s, verb = .string s
      · obtain ⟨name, rfl⟩ := hs
        by_cases hv : ∃ verb : Verb, (name, verb) ∈ verbWords
        · obtain ⟨verb, hv⟩ := hv
          have ha : Asks body verb payload := ⟨name, hv, hr⟩
          rcases fills_or_misfills verb payload with ⟨effect, hf⟩ | ⟨e, hm⟩
          · exact Or.inl ⟨effect, body, verb, payload, hw, ha, hf⟩
          · exact Or.inr ⟨e, .payload hw ha hm⟩
        · exact Or.inr ⟨_, .verb hw hr (not_exists.1 hv)⟩
      · exact Or.inr ⟨_, .verbKind hw hr hn (not_exists.1 hs)⟩
  · have none : ∀ a b, ¬ IsRecord "verb" "value" body a b := fun a b h => hr ⟨a, b, h⟩
    rcases not_isRecord none with ⟨items, rfl, hl⟩ | ⟨ho, ha⟩
    · exact Or.inr ⟨_, .bodyLength hw hl⟩
    · exact Or.inr ⟨_, .bodyKind hw ho ha⟩

theorem encodes_or_faulty (v : Value) : (∃ effect, Encodes v effect) ∨ ∃ e, Faulty v e := by
  by_cases hr : ∃ a b, IsRecord "type" "value" v a b
  · obtain ⟨type, value, hr⟩ := hr
    rcases absent_or_exists type with ha | ⟨type, rfl, hn⟩
    · exact Or.inr ⟨_, .untyped hr ha⟩
    · by_cases hs : ∃ s, type = .string s
      · obtain ⟨type, rfl⟩ := hs
        by_cases ht : type = "Effect"
        · subst ht
          by_cases hb : ∃ embedded body, value = some embedded ∧ Embeds embedded body
          · obtain ⟨embedded, body, rfl, he⟩ := hb
            exact encodes_or_faulty_of_wraps ⟨embedded, hr, he⟩
          · exact Or.inr ⟨_, .embedding hr fun embedded body hv he => hb ⟨embedded, body, hv, he⟩⟩
        · exact Or.inr ⟨_, .otherType hr ht⟩
      · exact Or.inr ⟨_, .typeKind hr hn (not_exists.1 hs)⟩
  · exact Or.inr ⟨_, .shape fun a b h => hr ⟨a, b, h⟩⟩

theorem encodes_of_decode {v : Value} {effect : Effect} (h : decode v = .ok effect) :
    Encodes v effect := by
  rcases encodes_or_faulty v with ⟨effect', he⟩ | ⟨e, hf⟩
  · obtain rfl : effect' = effect := by simpa [h] using (decode_of_encodes he).symm
    exact he
  · have := decode_of_faulty hf
    simp [h] at this

theorem faulty_of_decode {v : Value} {e : EffectError} (h : decode v = .error e) :
    Faulty v e := by
  rcases encodes_or_faulty v with ⟨effect, he⟩ | ⟨e', hf⟩
  · have := decode_of_encodes he
    simp [h] at this
  · obtain rfl : e' = e := by simpa [h] using (decode_of_faulty hf).symm
    exact hf

/-- Decoding accepts what the grammar calls an instruction, as the effect that it asks for, and
reports of any other value the first thing wrong with it. -/
theorem decode_by_grammar (v : Value) :
    (∀ effect, decode v = .ok effect ↔ Encodes v effect) ∧
      ∀ e, decode v = .error e ↔ Faulty v e :=
  ⟨fun _ => ⟨encodes_of_decode, decode_of_encodes⟩, fun _ => ⟨faulty_of_decode, decode_of_faulty⟩⟩

def hiOnSecond : Value :=
  .object [("type", .string "Effect"), ("value", .object [("type", .string "EmbeddedExpression"),
    ("value", .object [("value", .object [("type", .string "EmbeddedExpression"),
      ("value", .object [("options", .object [("type", .string "EmbeddedExpression"),
        ("value", .object [("stream", .number (.natural 2))])]), ("text", .string "hi")])]),
      ("verb", .string "write")])])]

def pushedInArrays (verb : String) : Value :=
  .array [.string "Effect", .object [("type", .string "EmbeddedExpression"),
    ("value", .array [.string verb, .object [("type", .string "EmbeddedExpression"),
      ("value", .object [("spans", .array [.string "bold", .string "gray"])])]])]]

theorem hiOnSecond_decoded :
    decode hiOnSecond = .ok (.write "hi" .secondary) ∧
    decode (pushedInArrays "push") = .ok (.push (some [.bold, .blackBright])) ∧
    decode (pushedInArrays "Push") = .error (.unknownVerb "Push") := by
  refine ⟨?_, ?_, ?_⟩
  · have second : Channel.ofValue (.number (.natural 2)) = .ok .secondary := rfl
    exact ((decode_by_grammar _).1 _).2 ⟨_, .write, _, ⟨_, .object, rfl, rfl⟩,
      ⟨"write", by decide, .object⟩,
      .write ⟨rfl, rfl⟩ rfl (.selected rfl ⟨rfl, rfl⟩ rfl (by simp) second)⟩
  · have named : List.Forall₂ Names [.string "bold", .string "gray"] [.bold, .blackBright] :=
      .cons ⟨"bold", by decide, rfl⟩ (.cons ⟨"gray", by decide, rfl⟩ .nil)
    exact ((decode_by_grammar _).1 _).2 ⟨_, .push, _, ⟨_, .array, rfl, rfl⟩,
      ⟨"push", by decide, .array⟩, .push ⟨rfl, rfl⟩ rfl named⟩
  · have unknown : ∀ verb, ("Push", verb) ∉ verbWords := by
      intro verb
      cases verb <;> decide
    exact ((decode_by_grammar _).2 _).2 (.verb ⟨_, .array, rfl, rfl⟩ .array unknown)

end StyledEffects.Wire
