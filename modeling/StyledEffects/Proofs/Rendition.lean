import StyledEffects.Style.Frame
import StyledEffects.Style.Terminal

/-! What a terminal makes of the escapes of a change of style. Whatever a span turns on, its
own end turns off again, so a frame that is closed leaves nothing behind, although spans
share their ends and some end more than they have begun. -/

namespace StyledEffects.Style

namespace Terminal

theorem shown_feedAll (text : String) (t : Terminal) :
    t.shown <:+ (t.feedAll text).shown := by
  unfold feedAll
  induction text.toList generalizing t with
  | nil => exact List.suffix_rfl
  | cons c rest ih =>
    refine List.IsSuffix.trans ?_ (ih (t.feed c))
    unfold feed
    split
    · split
      · exact List.suffix_rfl
      · exact List.suffix_cons _ _
    · exact List.suffix_rfl
    · repeat' split
      all_goals exact List.suffix_rfl

theorem feedAll_plain {text : String} (h : esc ∉ text.toList) (r : Rendition)
    (shown : List (Char × Rendition)) :
    feedAll text ⟨r, .text, shown⟩ = ⟨r, .text, (text.toList.map (·, r)).reverse ++ shown⟩ := by
  unfold feedAll
  generalize text.toList = chars at h ⊢
  induction chars generalizing shown with
  | nil => rfl
  | cons c rest ih =>
    obtain ⟨hc, hr⟩ : ¬ esc = c ∧ esc ∉ rest := by simpa using h
    rw [List.foldl_cons, show feed c ⟨r, .text, shown⟩ = ⟨r, .text, (c, r) :: shown⟩ by
      simp [feed, Ne.symm hc], ih _ hr]
    simp

theorem feed_digits {digits : List Char} (h : ∀ c ∈ digits, c.isDigit) (r : Rendition)
    (shown : List (Char × Rendition)) (complete : List Nat) (n : Nat) :
    digits.foldl (fun t c => feed c t) ⟨r, .parameters complete n, shown⟩ =
      ⟨r, .parameters complete (Nat.ofDigitChars 10 digits n), shown⟩ := by
  induction digits generalizing n with
  | nil => rfl
  | cons c rest ih =>
    obtain ⟨hc, hr⟩ := List.forall_mem_cons.1 h
    rw [List.foldl_cons, Nat.ofDigitChars_cons, ← ih hr]
    simp [feed, hc, Nat.mul_comm]

theorem feedAll_number (n : Nat) (r : Rendition) (shown : List (Char × Rendition))
    (complete : List Nat) :
    feedAll (toString n) ⟨r, .parameters complete 0, shown⟩ =
      ⟨r, .parameters complete n, shown⟩ := by
  have hd : ∀ c ∈ Nat.toDigits 10 n, c.isDigit :=
    fun c hc => Nat.isDigit_of_mem_toDigits (by decide) (by decide) hc
  rw [feedAll, Nat.toString_eq_ofList_toDigits, String.toList_ofList, feed_digits hd,
    Nat.ofDigitChars_ten_toDigits]

theorem feedAll_parameters (n : Nat) (rest : List Nat) (r : Rendition)
    (shown : List (Char × Rendition)) (complete : List Nat) :
    feedAll (String.intercalate ";" ((n :: rest).map toString) ++ "m")
        ⟨r, .parameters complete 0, shown⟩ =
      ⟨r.obey (complete.reverse ++ n :: rest), .text, shown⟩ := by
  induction rest generalizing n complete with
  | nil =>
    rw [List.map_singleton, String.intercalate_singleton, feedAll_append, feedAll_number]
    simp [feedAll, feed]
  | cons m rest ih =>
    have next : feedAll ";" ⟨r, .parameters complete n, shown⟩ =
        ⟨r, .parameters (n :: complete) 0, shown⟩ := by
      simp [feedAll, feed]
    have := ih m (n :: complete)
    rw [List.map_cons] at this
    rw [List.map_cons, List.map_cons, String.intercalate_cons_cons, String.append_assoc,
      String.append_assoc, feedAll_append, feedAll_number, feedAll_append, next, this]
    simp

theorem feedAll_sgr (s : Sgr) (r : Rendition) (shown : List (Char × Rendition)) :
    feedAll s.text ⟨r, .text, shown⟩ = ⟨r.obey s.parameters, .text, shown⟩ := by
  obtain ⟨n, rest, hp⟩ : ∃ n rest, s.parameters = n :: rest := by
    cases s <;> exact ⟨_, _, rfl⟩
  have start : feedAll "\x1b[" ⟨r, .text, shown⟩ = ⟨r, .parameters [] 0, shown⟩ := by
    simp [feedAll, feed, esc]
  rw [Sgr.text, hp, String.append_assoc, feedAll_append, start, feedAll_parameters]
  rfl

theorem feedAll_settings (settings : List Sgr) (r : Rendition) (shown : List (Char × Rendition)) :
    feedAll (String.join (settings.map Sgr.text)) ⟨r, .text, shown⟩ =
      ⟨settings.foldl (fun r s => r.obey s.parameters) r, .text, shown⟩ := by
  induction settings generalizing r with
  | nil => rfl
  | cons s rest ih =>
    rw [List.map_cons, String.join_cons, feedAll_append, feedAll_sgr, ih, List.foldl_cons]

end Terminal

namespace Span

def begun (s : Span) (r : Rendition) : Rendition := r.obey s.codes.1.parameters

def ended (s : Span) (r : Rendition) : Rendition := r.obey s.codes.2.parameters

theorem ended_begun (s : Span) (r : Rendition) : s.ended (s.begun r) = s.ended r := by
  cases s <;> rfl

theorem ended_default (s : Span) : s.ended .default = .default := by
  cases s <;> rfl

/-- The settings that end spans, some of them several kinds. -/
theorem codes_end (s : Span) :
    s.codes.2 ∈ [.reset, .normalIntensity, .notItalic, .notUnderline, .notOverline, .notInvert,
      .notHidden, .notStrikethrough, .foregroundDefault, .backgroundDefault] := by
  cases s <;> decide

theorem ended_comm (a b : Span) (r : Rendition) : a.ended (b.ended r) = b.ended (a.ended r) := by
  unfold ended
  have ha := a.codes_end
  have hb := b.codes_end
  generalize a.codes.2 = x at ha ⊢
  generalize b.codes.2 = y at hb ⊢
  simp only [List.mem_cons, List.not_mem_nil, or_false] at ha hb
  rcases ha with rfl | rfl | rfl | rfl | rfl | rfl | rfl | rfl | rfl | rfl <;>
    rcases hb with rfl | rfl | rfl | rfl | rfl | rfl | rfl | rfl | rfl | rfl <;> rfl

theorem ended_foldl (s : Span) (spans : List Span) (r : Rendition) :
    spans.foldl (fun r span => span.ended r) (s.ended r) =
      s.ended (spans.foldl (fun r span => span.ended r) r) := by
  induction spans generalizing r with
  | nil => rfl
  | cons span rest ih => rw [List.foldl_cons, List.foldl_cons, ended_comm, ih]

end Span

namespace Frame

/-- The style of a frame: its spans begun one after another, from the default on. -/
def rendition (f : Frame) : Rendition := f.spans.foldl (fun r span => span.begun r) .default

/-- Spans that end leave nothing of what they have begun. -/
theorem ended_after_begun (spans : List Span) (r : Rendition) :
    spans.reverse.foldl (fun r span => span.ended r)
        (spans.foldl (fun r span => span.begun r) r) =
      spans.reverse.foldl (fun r span => span.ended r) r := by
  induction spans generalizing r with
  | nil => rfl
  | cons span rest ih =>
    -- the first span begun is the last to end; its end commutes with those of the others
    rw [List.reverse_cons, List.foldl_append, List.foldl_append]
    simp only [List.foldl_cons, List.foldl_nil]
    rw [ih, ← Span.ended_foldl, Span.ended_begun, Span.ended_foldl]

/-- Closing a frame takes its style back to the default. -/
theorem closed_rendition (f : Frame) :
    f.spans.reverse.foldl (fun r span => span.ended r) f.rendition = .default := by
  rw [rendition, ended_after_begun]
  induction f.spans.reverse with
  | nil => rfl
  | cons span rest ih => rw [List.foldl_cons, Span.ended_default, ih]

theorem feedAll_opening (f : Frame) (shown : List (Char × Rendition)) :
    Terminal.feedAll (f.opening .ansi) ⟨.default, .text, shown⟩ =
      ⟨f.rendition, .text, shown⟩ := by
  rw [opening_ansi, Terminal.feedAll_settings, List.foldl_map]
  rfl

theorem feedAll_closing (f : Frame) (shown : List (Char × Rendition)) :
    Terminal.feedAll (f.closing .ansi) ⟨f.rendition, .text, shown⟩ =
      ⟨.default, .text, shown⟩ := by
  rw [← f.closed_rendition, closing_ansi, Terminal.feedAll_settings, List.foldl_map]
  rfl

end Frame

namespace Transition

theorem join_bursts (table : Table) (old new : Frame) :
    String.join (between table old new).bursts = old.closing table ++ new.opening table := by
  have part (s : String) : String.join (nonEmpty s).toList = s := by
    by_cases h : s = "" <;> simp [nonEmpty, h]
  rw [bursts, String.join_append, between, part, part]

/-- The escapes from one style to another do what they say. -/
theorem feedAll_between (old new : Frame) (shown : List (Char × Rendition)) :
    Terminal.feedAll (String.join (between .ansi old new).bursts) ⟨old.rendition, .text, shown⟩ =
      ⟨new.rendition, .text, shown⟩ := by
  rw [join_bursts, Terminal.feedAll_append, Frame.feedAll_closing, Frame.feedAll_opening]

end Transition

end StyledEffects.Style
