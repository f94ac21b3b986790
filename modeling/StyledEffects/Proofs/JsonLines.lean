import StyledEffects.Instructions
import StyledEffects.Proofs.Compact
import StyledEffects.Proofs.Lines
import StyledEffects.Proofs.Rounds
import StyledEffects.Proofs.Utf8

/-! Instructions in a file, line by line. A file is cut into physical lines, whose ends are left
out; each one is blank, holds a value or ends the file. Values that are written on lines are read
back, however the lines end and whatever blank lines there are. -/

namespace StyledEffects.Text

/-- A list cut into its physical lines, each without its end. A line ends with a line feed, and a
carriage return right before that is part of the end. What follows the last line feed is a line
of its own unless it is empty. -/
inductive PhysicalLines {α : Type} (lf cr : α) : List α → List (List α) → Prop
  | none : PhysicalLines lf cr [] []
  | rest {line} (h : lf ∉ line) (hn : line ≠ []) : PhysicalLines lf cr line [line]
  | lf {line rest lines} (h : lf ∉ line) (hc : line.getLast? ≠ some cr)
      (hr : PhysicalLines lf cr rest lines) :
    PhysicalLines lf cr (line ++ lf :: rest) (line :: lines)
  | crlf {line rest lines} (h : lf ∉ line) (hr : PhysicalLines lf cr rest lines) :
    PhysicalLines lf cr (line ++ cr :: lf :: rest) (line :: lines)

namespace PhysicalLines

variable {α : Type} {lf cr : α}

theorem cons [DecidableEq α] {line rest : List α} {lines : List (List α)} (h : lf ∉ line)
    (hr : PhysicalLines lf cr rest lines) :
    ∃ l, (line = l ∨ line = l ++ [cr]) ∧
      PhysicalLines lf cr (line ++ lf :: rest) (l :: lines) := by
  by_cases hc : line.getLast? = some cr
  · obtain ⟨l, rfl⟩ := List.getLast?_eq_some_iff.1 hc
    have without : lf ∉ l := fun hm => h (List.mem_append_left _ hm)
    exact ⟨l, .inr rfl, by simpa using crlf without hr⟩
  · exact ⟨line, .inl rfl, .lf h hc hr⟩

theorem exists_lines [DecidableEq α] (lf cr : α) (xs : List α) :
    ∃ lines, PhysicalLines lf cr xs lines := by
  induction h : xs.length using Nat.strongRecOn generalizing xs with
  | ind n ih =>
    by_cases hm : lf ∈ xs
    · obtain ⟨line, rest, rfl, hl⟩ := List.eq_append_cons_of_mem hm
      obtain ⟨lines, hr⟩ := ih rest.length (by simp [← h]; omega) rest rfl
      obtain ⟨l, -, cut⟩ := hr.cons hl
      exact ⟨_, cut⟩
    · by_cases hn : xs = []
      · subst hn
        exact ⟨[], .none⟩
      · exact ⟨[xs], .rest hm hn⟩

end PhysicalLines

theorem utf8EncodeChar_ne_nil (c : Char) : String.utf8EncodeChar c ≠ [] :=
  List.ne_nil_of_length_pos (by rw [String.length_utf8EncodeChar]; exact c.utf8Size_pos)

theorem feed_notMem_encoded {line : List Char} (h : '\n' ∉ line) :
    10 ∉ line.flatMap String.utf8EncodeChar := by
  intro hm
  obtain ⟨c, hc, hb⟩ := List.mem_flatMap.1 hm
  obtain rfl := eq_of_mem_utf8EncodeChar (by decide) hb
  exact h hc

/-- Only a carriage return is encoded with the byte of one at the end. -/
theorem return_of_encoded {line : List Char}
    (h : (line.flatMap String.utf8EncodeChar).getLast? = some 13) : line.getLast? = some '\r' := by
  rcases List.eq_nil_or_concat line with rfl | ⟨l, c, rfl⟩
  · cases h
  · rw [List.concat_eq_append] at h ⊢
    rw [List.flatMap_append, List.flatMap_singleton,
      List.getLast?_append_of_ne_nil _ (utf8EncodeChar_ne_nil c)] at h
    obtain rfl := eq_of_mem_utf8EncodeChar (by decide) (List.mem_of_getLast? h)
    exact List.getLast?_concat

theorem PhysicalLines.encoded {chars : List Char} {lines : List (List Char)}
    (h : PhysicalLines '\n' '\r' chars lines) :
    PhysicalLines 10 13 (chars.flatMap String.utf8EncodeChar)
      (lines.map (·.flatMap String.utf8EncodeChar)) := by
  induction h with
  | none => exact .none
  | @rest line h hn =>
    refine .rest (feed_notMem_encoded h) fun empty => hn ?_
    refine List.eq_nil_iff_forall_not_mem.2 fun c hc => ?_
    exact utf8EncodeChar_ne_nil c (List.flatMap_eq_nil_iff.1 empty c hc)
  | lf h hc hr ih =>
    rw [List.flatMap_append, List.flatMap_cons]
    exact .lf (feed_notMem_encoded h) (fun ends => hc (return_of_encoded ends)) ih
  | crlf h hr ih =>
    rw [List.flatMap_append, List.flatMap_cons, List.flatMap_cons]
    exact .crlf (feed_notMem_encoded h) ih

theorem physicalLines_utf8 {text : String} {lines : List String}
    (h : PhysicalLines '\n' '\r' text.toList (lines.map String.toList)) :
    PhysicalLines 10 13 (utf8 text) (lines.map utf8) := by
  have encoded := h.encoded
  rwa [List.map_map] at encoded

end StyledEffects.Text

namespace StyledEffects.Json

open Text

theorem isDigit_of_isBlank {c : Char} (h : isBlank c = true) : c.isDigit = false := by
  rw [Bool.eq_false_iff]
  intro hd
  simp only [Char.isDigit, Bool.and_eq_true, decide_eq_true_eq, UInt32.le_iff_toNat_le] at hd
  obtain ⟨low, high⟩ : 48 ≤ c.toNat ∧ c.toNat ≤ 57 := hd
  simp only [isBlank, Bool.or_eq_true, Bool.and_eq_true, decide_eq_true_eq, beq_iff_eq] at h
  omega

/-- No value begins with white space that is not skipped. -/
theorem value_of_blank {s : List Char} (h : ∀ c ∈ s, isBlank c) (fuel depth : Nat) :
    ∃ stop, Reader.value (fuel + 1) depth s = .error stop := by
  have blank : ∀ c ∈ Reader.skip s, isBlank c := fun c hc =>
    h c ((List.dropWhile_suffix _).subset hc)
  unfold Reader.value
  split
  · exact ⟨_, rfl⟩
  -- each of the characters that a value begins with
  all_goals try
    next hs => exact absurd (blank _ (by rw [hs]; exact List.mem_cons_self)) (by decide)
  · next c _ _ _ _ _ _ _ _ hs =>
    rw [isDigit_of_isBlank (blank c (by rw [hs]; exact List.mem_cons_self))]
    exact ⟨_, rfl⟩

theorem read_ne_of_allBlank {text : String} (h : allBlank text = true) (v : Value) :
    read text ≠ .ok v := by
  obtain ⟨stop, hs⟩ := value_of_blank (s := text.toList) (by simpa [allBlank] using h)
    (4 * text.toList.length + 3) 127
  simp [read, readWithin, Reader.document, hs, bind, Except.bind, Except.mapError]

end StyledEffects.Json

namespace StyledEffects.Instructions

open Json Text

theorem chomp_of_notMem {line : List UInt8} (h : 10 ∉ line) : chomp line = line := by
  unfold chomp
  split
  · next hr => exact absurd (List.mem_reverse.1 (by rw [hr]; exact List.mem_cons_self)) h
  · next hr => exact absurd (List.mem_reverse.1 (by rw [hr]; exact List.mem_cons_self)) h
  · rfl

theorem chomp_crlf (line : List UInt8) : chomp (line ++ [13, 10]) = line := by
  simp [chomp]

theorem chomp_lf {line : List UInt8} (h : line.getLast? ≠ some 13) :
    chomp (line ++ [10]) = line := by
  rcases List.eq_nil_or_concat line with rfl | ⟨l, b, rfl⟩
  · rfl
  · have other : b ≠ 13 := fun hb => h (by rw [hb, List.concat_eq_append, List.getLast?_concat])
    simp [chomp, other]

theorem eq_map_chomp {bytes : List UInt8} {lines : List (List UInt8)}
    (h : PhysicalLines 10 13 bytes lines) : lines = (cutAfter 10 bytes).map chomp := by
  induction h with
  | none => rfl
  | rest h hn => rw [cutAfter_of_notMem h hn, List.map_singleton, chomp_of_notMem h]
  | lf h hc hr ih => rw [cutAfter_append h, List.map_cons, chomp_lf hc, ih]
  | @crlf line rest lines h hr ih =>
    have whole : 10 ∉ line ++ [13] := by simp [h]
    have cut := cutAfter_append whole rest
    rw [List.append_assoc, List.append_assoc] at cut
    have ends : chomp (line ++ ([13] ++ [10])) = line := chomp_crlf line
    have apart : line ++ 13 :: 10 :: rest = line ++ ([13] ++ 10 :: rest) := rfl
    rw [apart, cut, List.map_cons, ends, ih]

/-- What is on lines that are read to the end: nothing on a blank one, and one value on any
other. -/
inductive Holds (parse : String → Except String Value) : List (List UInt8) → List Value → Prop
  | nil : Holds parse [] []
  | blank {text lines values} (h : allBlank text = true) (hr : Holds parse lines values) :
    Holds parse (utf8 text :: lines) values
  | value {text v lines values} (h : allBlank text = false) (hv : parse text = .ok v)
      (hr : Holds parse lines values) : Holds parse (utf8 text :: lines) (v :: values)

/-- A line that ends the file, by its number, with the error that is reported. -/
inductive Stops (parse : String → Except String Value) (number : Nat) :
    List UInt8 → EffectError → Prop
  | malformed {text message} (h : allBlank text = false) (hr : parse text = .error message) :
    Stops parse number (utf8 text) (lineError number message)
  | notText {line fault} (h : ∀ text, utf8 text ≠ line) (hf : readUtf8 line = .error fault) :
    Stops parse number line (utf8Error fault)

section

variable {parse : String → Except String Value}

theorem ofLinesFrom_of_holds {pieces : List (List UInt8)} {values : List Value}
    (h : Holds parse (pieces.map chomp) values) (number : Nat) (rest : List (List UInt8)) :
    ofLinesFrom parse number (pieces ++ rest) =
      values.map .ok ++ ofLinesFrom parse (number + pieces.length) rest := by
  generalize hl : pieces.map chomp = lines at h
  induction h generalizing pieces number with
  | nil =>
    obtain rfl := List.map_eq_nil_iff.1 hl
    rfl
  | blank h hr ih =>
    obtain ⟨piece, later, rfl, hp, hl⟩ := List.map_eq_cons_iff.1 hl
    have text := readUtf8_eq_ok_iff.2 hp.symm
    rw [List.cons_append, ofLinesFrom, text]
    simp only [h, if_true]
    rw [ih (number + 1) hl, List.length_cons, Nat.add_right_comm, Nat.add_assoc]
  | @value _ v _ values h hv hr ih =>
    obtain ⟨piece, later, rfl, hp, hl⟩ := List.map_eq_cons_iff.1 hl
    have text := readUtf8_eq_ok_iff.2 hp.symm
    rw [List.cons_append, ofLinesFrom, text]
    simp only [h, hv, Bool.false_eq_true, if_false]
    rw [ih (number + 1) hl, List.length_cons, Nat.add_right_comm, Nat.add_assoc]
    rfl

theorem ofLinesFrom_of_stops {piece : List UInt8} {e : EffectError} {number : Nat}
    (h : Stops parse number (chomp piece) e) (rest : List (List UInt8)) :
    ofLinesFrom parse number (piece :: rest) = [.error e] := by
  generalize hl : chomp piece = line at h
  cases h with
  | malformed h hr =>
    have text := readUtf8_eq_ok_iff.2 hl.symm
    simp [ofLinesFrom, text, h, hr]
  | notText h hf => simp [ofLinesFrom, hl, hf]

theorem holds_or_stops (parse : String → Except String Value) (line : List UInt8) :
    (∃ values, Holds parse [line] values) ∨ ∀ number, ∃ e, Stops parse number line e := by
  cases hr : readUtf8 line with
  | error fault =>
    refine .inr fun number => ⟨_, .notText (fun text ht => ?_) hr⟩
    rw [readUtf8_eq_ok_iff.2 ht] at hr
    cases hr
  | ok text =>
    obtain rfl := readUtf8_eq_ok_iff.1 hr
    cases hb : allBlank text with
    | true => exact .inl ⟨[], .blank hb .nil⟩
    | false =>
      cases hv : parse text with
      | error e => exact .inr fun number => ⟨_, .malformed hb hv⟩
      | ok v => exact .inl ⟨[v], .value hb hv .nil⟩

theorem Holds.cons {line : List UInt8} {lines : List (List UInt8)} {first values : List Value}
    (h : Holds parse [line] first) (hr : Holds parse lines values) :
    Holds parse (line :: lines) (first ++ values) := by
  cases h with
  | blank h hn =>
    cases hn
    exact .blank h hr
  | value h hv hn =>
    cases hn
    exact .value h hv hr

theorem exists_holds (parse : String → Except String Value) (lines : List (List UInt8)) :
    (∃ values, Holds parse lines values) ∨ ∃ before line after values,
      lines = before ++ line :: after ∧ Holds parse before values ∧
        ∀ number, ∃ e, Stops parse number line e := by
  induction lines with
  | nil => exact .inl ⟨[], .nil⟩
  | cons line lines ih =>
    rcases holds_or_stops parse line with ⟨first, held⟩ | stops
    · rcases ih with ⟨values, rest⟩ | ⟨before, last, after, values, rfl, rest, stops⟩
      · exact .inl ⟨_, held.cons rest⟩
      · exact .inr ⟨line :: before, last, after, _, rfl, held.cons rest, stops⟩
    · exact .inr ⟨[], line, lines, [], rfl, .nil, stops⟩

theorem ofBytesBy_of_holds {bytes : List UInt8} {lines : List (List UInt8)}
    (h : PhysicalLines 10 13 bytes lines) {values : List Value} (held : Holds parse lines values) :
    ofBytesBy parse bytes = values.map .ok := by
  obtain rfl := eq_map_chomp h
  have read := ofLinesFrom_of_holds held 1 []
  rw [List.append_nil] at read
  rw [ofBytesBy, read, ofLinesFrom, List.append_nil]

theorem ofBytesBy_of_stops {bytes : List UInt8} {lines before after : List (List UInt8)}
    {line : List UInt8} {values : List Value} {e : EffectError}
    (h : PhysicalLines 10 13 bytes lines) (split : lines = before ++ line :: after)
    (held : Holds parse before values) (stops : Stops parse (before.length + 1) line e) :
    ofBytesBy parse bytes = values.map .ok ++ [.error e] := by
  rw [eq_map_chomp h] at split
  obtain ⟨pieces, rest, cut, rfl, hr⟩ := List.map_eq_append_iff.1 split
  obtain ⟨piece, later, rfl, rfl, -⟩ := List.map_eq_cons_iff.1 hr
  rw [List.length_map, Nat.add_comm] at stops
  rw [ofBytesBy, cut, ofLinesFrom_of_holds held, ofLinesFrom_of_stops stops]

/-- Values written on lines of their own, with any blank lines between them. Each line ends with
a line feed or with a carriage return and a line feed, and the last one may have no end. -/
inductive Written (print : Value → String) : List Value → String → Prop
  | blankRest {pad} (h : allBlank pad = true) (hn : '\n' ∉ pad.toList) : Written print [] pad
  | rest {v : Value} : Written print [v] (print v)
  | blank {values pad ending text} (h : allBlank pad = true) (hn : '\n' ∉ pad.toList)
      (he : ending = "\n" ∨ ending = "\r\n") (hr : Written print values text) :
    Written print values (pad ++ ending ++ text)
  | value {values ending text} {v : Value} (he : ending = "\n" ∨ ending = "\r\n")
      (hr : Written print values text) :
    Written print (v :: values) (print v ++ ending ++ text)

/-- What is asked of a printer and a parser: the parser undoes the printer, and what is printed is
not blank and has no raw line break. -/
structure ReadBack (parse : String → Except String Value) (print : Value → String) (v : Value) :
    Prop where
  undone : parse (print v) = .ok v
  filled : allBlank (print v) = false
  noFeed : '\n' ∉ (print v).toList
  noReturn : '\r' ∉ (print v).toList

/-- The compact printer asks of the parser no more than that it undoes it. -/
theorem readBack_of_read {v : Value} (h : read v.text = .ok v) :
    ReadBack Instructions.parse Value.text v where
  undone := by rw [Instructions.parse, h]; rfl
  filled := Bool.eq_false_iff.2 fun blank => read_ne_of_allBlank blank v h
  noFeed := v.printable_text.notMem (by decide)
  noReturn := v.printable_text.notMem (by decide)

theorem allBlank_of_subset {a b : String} (h : allBlank b = true)
    (hs : ∀ c ∈ a.toList, c ∈ b.toList) : allBlank a = true := by
  simp only [allBlank, List.all_eq_true] at h ⊢
  exact fun c hc => h c (hs c hc)

theorem exists_blank {pad ending text : String} {lines : List String} (h : allBlank pad = true)
    (hn : '\n' ∉ pad.toList) (he : ending = "\n" ∨ ending = "\r\n")
    (hr : PhysicalLines '\n' '\r' text.toList (lines.map String.toList)) :
    ∃ line, allBlank line = true ∧ PhysicalLines '\n' '\r' (pad ++ ending ++ text).toList
      ((line :: lines).map String.toList) := by
  rcases he with rfl | rfl
  · obtain ⟨l, hl, cut⟩ := hr.cons hn
    refine ⟨.ofList l, allBlank_of_subset h fun c hc => ?_, by simpa using cut⟩
    rw [String.toList_ofList] at hc
    rcases hl with same | same <;> simp [same, hc]
  · exact ⟨pad, h, by simpa using PhysicalLines.crlf hn hr⟩

theorem physicalLines_value {print : Value → String} {ending text : String} {lines : List String}
    {v : Value} (back : ReadBack parse print v) (he : ending = "\n" ∨ ending = "\r\n")
    (hr : PhysicalLines '\n' '\r' text.toList (lines.map String.toList)) :
    PhysicalLines '\n' '\r' (print v ++ ending ++ text).toList
      ((print v :: lines).map String.toList) := by
  rcases he with rfl | rfl
  · have bare : (print v).toList.getLast? ≠ some '\r' := fun h =>
      back.noReturn (List.mem_of_getLast? h)
    simpa using PhysicalLines.lf back.noFeed bare hr
  · simpa using PhysicalLines.crlf back.noFeed hr

theorem Written.holds {print : Value → String} {values : List Value} {text : String}
    (h : Written print values text) (back : ∀ v ∈ values, ReadBack parse print v) :
    ∃ lines : List String, PhysicalLines '\n' '\r' text.toList (lines.map String.toList) ∧
      Holds parse (lines.map utf8) values := by
  induction h with
  | @blankRest pad h hn =>
    by_cases hp : pad = ""
    · subst hp
      exact ⟨[], .none, .nil⟩
    · exact ⟨[pad], .rest hn (by simpa using hp), .blank h .nil⟩
  | @rest v =>
    have hv := back v (by simp)
    have some_text : print v ≠ "" := fun empty => by
      have := hv.filled
      rw [empty] at this
      cases this
    exact ⟨[print v], .rest hv.noFeed (by simpa using some_text), .value hv.filled hv.undone .nil⟩
  | blank h hn he hr ih =>
    obtain ⟨lines, cut, held⟩ := ih back
    obtain ⟨line, blank, cut⟩ := exists_blank h hn he cut
    exact ⟨line :: lines, cut, .blank blank held⟩
  | @value values ending text v he hr ih =>
    obtain ⟨lines, cut, held⟩ := ih fun w hw => back w (List.mem_cons_of_mem _ hw)
    have hv := back v List.mem_cons_self
    exact ⟨print v :: lines, physicalLines_value hv he cut, .value hv.filled hv.undone held⟩

theorem Written.ofBytesBy {print : Value → String} {values : List Value} {text : String}
    (h : Written print values text) (back : ∀ v ∈ values, ReadBack parse print v) :
    Instructions.ofBytesBy parse (utf8 text) = values.map .ok := by
  obtain ⟨lines, cut, held⟩ := h.holds back
  exact ofBytesBy_of_holds (physicalLines_utf8 cut) held

end

section Runs

variable {σ τ : Type} [OutputStream σ] [OutputStream τ]

/-- Bytes have physical lines in one way, and those of a text are its lines. The file has the
values on the lines that are not blank, up to the first line that is no text or does not parse,
whatever comes after it; that line's error, with the line's number, ends the file. Values that are
written one on a line and are read back from their texts are those in the file, and a run over the
file does what a run over the values does. -/
theorem one_value_on_each_line (parse : String → Except String Value) :
    (∀ bytes : List UInt8, ∃ lines, PhysicalLines 10 13 bytes lines ∧
      ∀ others, PhysicalLines 10 13 bytes others → others = lines) ∧
    (∀ text : String,
      (∃ lines : List String, PhysicalLines '\n' '\r' text.toList (lines.map String.toList)) ∧
      ∀ lines : List String, PhysicalLines '\n' '\r' text.toList (lines.map String.toList) →
        PhysicalLines 10 13 (utf8 text) (lines.map utf8)) ∧
    (∀ (bytes : List UInt8) lines, PhysicalLines 10 13 bytes lines →
      (∀ values, Holds parse lines values → ofBytesBy parse bytes = values.map .ok) ∧
      (∀ before line after values e, lines = before ++ line :: after →
        Holds parse before values → Stops parse (before.length + 1) line e →
          ofBytesBy parse bytes = values.map .ok ++ [.error e]) ∧
      ((∃ values, Holds parse lines values) ∨ ∃ before line after values e,
        lines = before ++ line :: after ∧ Holds parse before values ∧
          Stops parse (before.length + 1) line e)) ∧
    ∀ print values text, Written print values text → (∀ v ∈ values, ReadBack parse print v) →
      ofBytesBy parse (utf8 text) = values.map .ok ∧
      (∀ pause limit table, values.length ≤ limit →
        PureRun.evaluate (Source.stream pause) limit table (ofBytesBy parse (utf8 text)) =
          PureRun.evaluate Source.items limit table (values.map .ok)) ∧
      ∀ pause table (primary : σ) (secondary : τ),
        let file := IoRun.new table (ofBytesBy parse (utf8 text)) (Watched.new primary)
          (Watched.new secondary)
        let list := IoRun.new table (values.map .ok) (Watched.new primary) (Watched.new secondary)
        (∃ budget, file.Ends (Source.stream pause) budget ∧ list.Ends Source.items budget) ∧
        (Stream.NeverFails primary → Stream.NeverFails secondary → ∀ moves r moves' r',
          file.after (Source.stream pause) moves = some r →
          list.after Source.items moves' = some r' →
          r.result?.isSome → r'.result?.isSome → r.result? = r'.result? ∧
            r.sink.primary.stream.writes = r'.sink.primary.stream.writes ∧
            r.sink.secondary.stream.writes = r'.sink.secondary.stream.writes) := by
  refine ⟨fun bytes => ?_, fun text => ⟨?_, fun lines => physicalLines_utf8⟩,
    fun bytes lines h => ⟨fun values => ofBytesBy_of_holds h,
      fun before line after values e => ofBytesBy_of_stops h, ?_⟩, ?_⟩
  · obtain ⟨lines, h⟩ := PhysicalLines.exists_lines 10 13 bytes
    exact ⟨lines, h, fun others ho => (eq_map_chomp ho).trans (eq_map_chomp h).symm⟩
  · obtain ⟨lines, h⟩ := PhysicalLines.exists_lines '\n' '\r' text.toList
    exact ⟨lines.map String.ofList, by simpa [Function.comp_def] using h⟩
  · rcases exists_holds parse lines with held | ⟨before, line, after, values, split, held, stops⟩
    · exact .inl held
    · obtain ⟨e, stop⟩ := stops (before.length + 1)
      exact .inr ⟨before, line, after, values, e, split, held, stop⟩
  · intro print values text written back
    have file := written.ofBytesBy back
    rw [file]
    have streamed (pause : Bool) (table : Style.Table) :=
      (Source.yields_stream pause (values.map .ok)).plays (.new table)
    have listed (table : Style.Table) := (Source.yields_items (values.map .ok)).plays (.new table)
    refine ⟨rfl, ?_, ?_⟩
    · intro pause limit table hl
      have enough := Nat.le_trans (Transcript.length_stages_of_le (.new table) (values.map .ok))
        (by simpa using hl)
      rw [PureRun.evaluate_of_plays (streamed pause table) enough,
        PureRun.evaluate_of_plays (listed table) enough]
    · intro pause table primary secondary file list
      constructor
      · exact IoRun.exists_ends_and (IoRun.ends_of_plays (streamed pause table) primary secondary)
          (IoRun.ends_of_plays (listed table) primary secondary)
      · intro hp hs moves r moves' r' hr hr' hres hres'
        obtain ⟨result, h⟩ := Option.isSome_iff_exists.1 hres
        obtain ⟨result', h'⟩ := Option.isSome_iff_exists.1 hres'
        obtain ⟨rfl, first, second⟩ := IoRun.written_of_plays (streamed pause table) hp hs hr h
        obtain ⟨rfl, first', second'⟩ := IoRun.written_of_plays (listed table) hp hs hr' h'
        exact ⟨h.trans h'.symm, first.trans first'.symm, second.trans second'.symm⟩

end Runs

def mixedLines : String := "true\r\n \n[]\nnope\nnull\n"

theorem mixedLines_cut : PhysicalLines '\n' '\r' mixedLines.toList
    (["true", " ", "[]", "nope", "null"].map String.toList) := by
  have malformed : PhysicalLines '\n' '\r'
      (['n', 'o', 'p', 'e'] ++ '\n' :: (['n', 'u', 'l', 'l'] ++ '\n' :: []))
      [['n', 'o', 'p', 'e'], ['n', 'u', 'l', 'l']] :=
    .lf (by decide) (by decide) (.lf (by decide) (by decide) .none)
  have blank : PhysicalLines '\n' '\r' ([' '] ++ '\n' :: (['[', ']'] ++ '\n' :: _)) _ :=
    .lf (by decide) (by decide) (.lf (by decide) (by decide) malformed)
  have first : '\n' ∉ ['t', 'r', 'u', 'e'] := by decide
  exact .crlf first blank

def writtenA : Value :=
  .array [.string "Effect", .object [("type", .string "EmbeddedExpression"), ("value", .array
    [.string "write", .object [("type", .string "EmbeddedExpression"),
      ("value", .object [("text", .string "a")])]])]]

theorem text_writtenA : writtenA.text =
    "[\"Effect\",\x7b\"type\":\"EmbeddedExpression\",\"value\":[\"write\",\x7b\"type\":" ++
      "\"EmbeddedExpression\",\"value\":\x7b\"text\":\"a\"\x7d\x7d]\x7d]" := by
  decide +kernel

set_option maxRecDepth 20000 in
theorem read_writtenA : read writtenA.text = .ok writtenA := by
  rw [text_writtenA]
  cbv

/-- The line that is no JSON is the fourth one. With no such line all values are read, and a run
over the file writes what is asked for. -/
theorem mixedLines_read :
    ofBytes (utf8 mixedLines) = [.ok (.bool true), .ok (.array []),
      .error (.source "line 4: expected ident at line 1 column 2")] ∧
    let text := (Value.bool true).text ++ "\r\n" ++ ("\t" ++ "\n" ++ (Value.array []).text)
    ofBytes (utf8 text) = [.ok (.bool true), .ok (.array [])] ∧
    let file := IoRun.new .plain (ofBytes (utf8 ("\t" ++ "\n" ++ writtenA.text)))
      (Watched.new (Recorder.new none false)) (Watched.new (Recorder.new none false))
    ∃ moves r, file.after (Source.stream true) moves = some r ∧ r.result? = some (.ok ()) ∧
      r.sink.primary.stream.writes = ["a"] := by
  obtain ⟨-, ofText, ofLines, back⟩ := one_value_on_each_line (σ := Recorder) (τ := Recorder) parse
  have read_true : read "true" = .ok (.bool true) := by cbv
  have read_array : read "[]" = .ok (.array []) := by cbv
  have cut := (ofText mixedLines).2 _ mixedLines_cut
  refine ⟨?_, ?_, ?_⟩
  · have parse_true : parse "true" = .ok (.bool true) := by rw [parse, read_true]; rfl
    have parse_array : parse "[]" = .ok (.array []) := by rw [parse, read_array]; rfl
    have parse_nope : parse "nope" = .error "expected ident at line 1 column 2" := by
      have told : (parse "nope").map (fun _ => ()) =
          .error "expected ident at line 1 column 2" := by decide +kernel
      cases h : parse "nope" with
      | ok v => simp [h, Except.map] at told
      | error message => simpa [h, Except.map] using told
    have held : Holds parse [utf8 "true", utf8 " ", utf8 "[]"] [.bool true, .array []] :=
      .value (by decide) parse_true (.blank (by decide) (.value (by decide) parse_array .nil))
    have stops : Stops parse 4 (utf8 "nope") (lineError 4 "expected ident at line 1 column 2") :=
      .malformed (by decide) parse_nope
    exact (ofLines _ _ cut).2.1 _ _ [utf8 "null"] _ _ rfl held stops
  · have rest : Written Value.text [.array []] ("\t" ++ "\n" ++ (Value.array []).text) :=
      .blank (by decide) (by decide) (.inl rfl) .rest
    refine (back _ _ _ (.value (v := .bool true) (.inr rfl) rest) ?_).1
    have first : ReadBack parse Value.text (.bool true) := readBack_of_read read_true
    have second : ReadBack parse Value.text (.array []) := readBack_of_read read_array
    exact List.forall_mem_cons.2 ⟨first, List.forall_mem_singleton.2 second⟩
  · have written : Written Value.text [writtenA] ("\t" ++ "\n" ++ writtenA.text) :=
      .blank (by decide) (by decide) (.inl rfl) .rest
    have never := Stream.neverFails_recorder (r := Recorder.new none false) rfl
    have undone : ∀ v ∈ [writtenA], ReadBack parse Value.text v :=
      List.forall_mem_singleton.2 (readBack_of_read read_writtenA)
    obtain ⟨-, -, onStreams⟩ := back _ _ _ written undone
    obtain ⟨⟨budget, ⟨-, -, moves, r, hr, h⟩, -, -, moves', r', hr', h'⟩, same⟩ :=
      onStreams true .plain (Recorder.new none false) (Recorder.new none false)
    obtain ⟨result, first, -⟩ := same never never moves r moves' r' hr hr' h h'
    obtain ⟨verdict, hv⟩ := Option.isSome_iff_exists.1 h'
    have listed := (Source.yields_items [.ok writtenA]).plays (.new .plain)
    obtain ⟨rfl, first', -⟩ := IoRun.written_of_plays listed never never hr' hv
    exact ⟨moves, r, hr, result.trans hv, first.trans first'⟩

end StyledEffects.Instructions
