import StyledEffects.Proofs.Agreement
import StyledEffects.Proofs.Interleaving

/-! Two streams on one terminal. The line feeds that are put before texts keep the channels on
lines of their own as long as all is written in the order of the loop. But nothing ties the
tasks of the writers to that order. As soon as one channel has a text that does not end its
line and the other one has a text to show, there is a schedule on which they share a line. -/

namespace StyledEffects

open Json Style Wire Output

/-- A character on a terminal, with the channel that it came from. Escapes are not text. -/
structure Mark where
  char : Char
  channel : Channel
  isText : Bool

/-- Some stretch of a line has text of both channels. -/
def SharesLine (screen : List Mark) : Prop :=
  ∃ part, part <:+: screen ∧ (∀ m ∈ part, m.char ≠ '\n') ∧
    (∃ m ∈ part, m.isText = true ∧ m.channel = .primary) ∧
    ∃ m ∈ part, m.isText = true ∧ m.channel = .secondary

/-- One write on a stream: a line of a text or of a burst of escapes. -/
structure Piece where
  channel : Channel
  isText : Bool
  line : String
  deriving DecidableEq, Repr

namespace Piece

def write (p : Piece) : Channel × String := (p.channel, p.line)

def marks (p : Piece) : List Mark := p.line.toList.map fun char => ⟨char, p.channel, p.isText⟩

end Piece

def screen (order : List Piece) : List Mark := order.flatMap Piece.marks

def pieces (sent : List Sent) : List Piece :=
  sent.flatMap fun s =>
    (Text.lines s.output.content).map fun line => ⟨s.output.channel, s.output.isText, line⟩

/-- Another order of the same writes, with those on each stream in their own order. -/
def KeepsOrder (order calls : List Piece) : Prop :=
  ∀ channel, order.filter (·.channel = channel) = calls.filter (·.channel = channel)

/-- After the text the terminal goes on in the same line. -/
def LeavesLineOpen (text : String) : Prop := ∃ c, text.toList.getLast? = some c ∧ c ≠ '\n'

/-- The text has more than line feeds. -/
def Shows (text : String) : Prop := ∃ c ∈ text.toList, c ≠ '\n'

/-! ## Lines with text of one channel -/

/-- A screen on which no line is shared and the last line, if it has text, has that of one
channel. -/
structure Tidy (own : Option Channel) (screen : List Mark) : Prop where
  apart : ¬ SharesLine screen
  last : ∀ part, part <:+ screen → (∀ m ∈ part, m.char ≠ '\n') →
    ∀ m ∈ part, m.isText = true → some m.channel = own

theorem tidy_nil : Tidy none [] :=
  ⟨by rintro ⟨part, hi, -, ⟨m, hm, -⟩, -⟩; simp_all, by simp⟩

section Tidy

variable {own own' : Option Channel} {screen block : List Mark}

/-- The stretch of a line that goes across a block with text of one channel, if the text
before it is of the same one or there is none, or if the block starts with a line feed. -/
theorem Tidy.across (h : Tidy own screen)
    (texts : ∀ m ∈ block, m.isText = true → some m.channel = own')
    (keep : own = none ∨ own = own' ∨ ∃ m rest, block = m :: rest ∧ m.char = '\n')
    {before after : List Mark} (hb : before <:+ screen) (ha : after <+: block)
    (hne : after = [] → block = []) (line : ∀ m ∈ before ++ after, m.char ≠ '\n') :
    ∀ m ∈ before ++ after, m.isText = true → some m.channel = own' := by
  intro m hm ht
  rcases List.mem_append.1 hm with hm | hm
  · have old : some m.channel = own :=
      h.last before hb (fun x hx => line x (List.mem_append_left _ hx)) m hm ht
    rcases keep with rfl | rfl | ⟨x, rest, rfl, hx⟩
    · cases old
    · exact old
    · obtain ⟨y, after, rfl⟩ := List.exists_cons_of_ne_nil (fun he => by simpa using hne he)
      obtain ⟨rfl, -⟩ := List.cons_prefix_cons.1 ha
      exact absurd hx (line y (by simp))
  · exact texts m (ha.subset hm) ht

theorem Tidy.append (h : Tidy own screen)
    (texts : ∀ m ∈ block, m.isText = true → some m.channel = own')
    (keep : own = none ∨ own = own' ∨ ∃ m rest, block = m :: rest ∧ m.char = '\n') :
    Tidy own' (screen ++ block) := by
  constructor
  · rintro ⟨part, hi, line, ⟨x, hx, hxt, hxc⟩, y, hy, hyt, hyc⟩
    have alone (one : ∀ m ∈ part, m.isText = true → some m.channel = own') : False := by
      have := (one x hx hxt).trans (one y hy hyt).symm
      simp [hxc, hyc] at this
    rcases List.infix_append_iff.1 hi with hi | hi | ⟨before, after, rfl, hb, ha⟩
    · exact h.apart ⟨part, hi, line, ⟨x, hx, hxt, hxc⟩, y, hy, hyt, hyc⟩
    · exact alone fun m hm => texts m (hi.subset hm)
    · by_cases he : after = []
      · subst he
        rw [List.append_nil] at line hx hy
        exact h.apart ⟨before, hb.isInfix, line, ⟨x, hx, hxt, hxc⟩, y, hy, hyt, hyc⟩
      · exact alone (h.across texts keep hb ha (fun hn => absurd hn he) line)
  · intro part hs line
    rcases List.suffix_or_suffix_of_suffix hs (List.suffix_append screen block) with
      hb | ⟨before, rfl⟩
    · exact fun m hm => texts m (hb.subset hm)
    · exact h.across texts keep ((List.suffix_append_inj_of_length_eq rfl).1 hs).1
        (List.prefix_refl block) id line

theorem Tidy.ended (h : Tidy own screen) {m : Mark} (hm : screen.getLast? = some m)
    (hc : m.char = '\n') : Tidy none screen := by
  refine ⟨h.apart, fun part hs line x hx => ?_⟩
  obtain ⟨before, rfl⟩ := hs
  have same : part.getLast? = some m := by
    rw [List.getLast?_append, Option.or_eq_some_iff] at hm
    exact hm.resolve_right fun h => List.ne_nil_of_mem hx (List.getLast?_eq_none_iff.1 h.1)
  exact absurd hc (line m (List.mem_of_getLast? same))

end Tidy

/-! ## The order of the loop -/

theorem screen_append (a b : List Piece) : screen (a ++ b) = screen a ++ screen b := by
  simp [screen]

theorem pieces_cons (s : Sent) (sent : List Sent) :
    pieces (s :: sent) = pieces [s] ++ pieces sent := by
  simp [pieces]

theorem mem_pieces_singleton {s : Sent} {p : Piece} : p ∈ pieces [s] ↔
    ∃ line ∈ Text.lines s.output.content, ⟨s.output.channel, s.output.isText, line⟩ = p := by
  simp [pieces]

theorem screen_pieces_singleton (s : Sent) : screen (pieces [s]) =
    s.output.content.toList.map fun char => ⟨char, s.output.channel, s.output.isText⟩ := by
  have cut (text : String) (f : Char → Mark) :
      ((Text.lines text).flatMap fun line => line.toList.map f) = text.toList.map f := by
    rw [← List.map_flatMap, ← String.toList_join, Text.join_lines]
  rw [← cut]
  simp [screen, pieces, List.flatMap_map, Piece.marks]

/-- After a text on the other channel a text starts with a line feed. -/
theorem lead_append_of_other {last : Option Channel} {channel : Channel} (text : String)
    (hn : last ≠ none) (hc : last ≠ some channel) :
    ∃ rest, (lead last channel text ++ text).toList = '\n' :: rest := by
  unfold lead
  split
  · exact ⟨text.toList, by simp⟩
  · rename_i h
    have : text.toList.head? = some '\n' := by simpa [hn, hc] using h
    obtain ⟨rest, hr⟩ := List.head?_eq_some_iff.1 this
    exact ⟨rest, by simpa using hr⟩

/-- In the order of the loop the channels keep to lines of their own. -/
theorem tidy_sendings {last : Option Channel} {before : List Mark} (h : Tidy last before)
    (outputs : List Output) :
    ∃ own, Tidy own (before ++ screen (pieces (sendings last outputs))) := by
  induction outputs generalizing last before with
  | nil => exact ⟨last, by simpa [sendings, pieces, screen] using h⟩
  | cons output rest ih =>
    rw [sendings, pieces_cons, screen_append, ← List.append_assoc]
    apply ih
    rw [screen_pieces_singleton]
    cases output with
    | control escapes =>
      exact h.append (by simp [sending, isText]) (Or.inr (Or.inl rfl))
    | text channel t =>
      apply h.append
      · intro m hm _
        obtain ⟨c, -, rfl⟩ := List.mem_map.1 hm
        rfl
      · by_cases hn : last = none
        · exact Or.inl hn
        · by_cases hc : last = some channel
          · exact Or.inr (Or.inl hc)
          · obtain ⟨rest, hr⟩ := lead_append_of_other t hn hc
            have content : (sending last (.text channel t)).output.content.toList =
              '\n' :: rest := hr
            exact Or.inr (Or.inr ⟨_, _, by rw [content]; rfl, rfl⟩)

/-! ## Other orders -/

theorem tidy_of_ended {before : List Mark} (h : Tidy none before) {order : List Piece}
    (ended : ∀ p ∈ order, p.isText = true → ¬ LeavesLineOpen p.line) :
    Tidy none (before ++ screen order) := by
  induction order generalizing before with
  | nil => simpa [screen] using h
  | cons p rest ih =>
    obtain ⟨hp, hr⟩ := List.forall_mem_cons.1 ended
    rw [show screen (p :: rest) = p.marks ++ screen rest by simp [screen], ← List.append_assoc]
    refine ih ?_ hr
    cases ht : p.isText with
    | false => exact h.append (by simp [Piece.marks, ht]) (Or.inl rfl)
    | true =>
      cases hl : p.line.toList.getLast? with
      | none =>
        rw [Piece.marks, List.getLast?_eq_none_iff.1 hl]
        simpa using h
      | some c =>
        have hc : c = '\n' := Classical.byContradiction fun hc => hp ht ⟨c, hl, hc⟩
        have text : Tidy (some p.channel) (before ++ p.marks) :=
          h.append (by simp [Piece.marks]) (Or.inl rfl)
        refine text.ended (m := ⟨c, p.channel, p.isText⟩) ?_ hc
        rw [List.getLast?_append, Piece.marks, List.getLast?_map, hl]
        rfl

theorem KeepsOrder.mem_iff {order calls : List Piece} (h : KeepsOrder order calls) (p : Piece) :
    p ∈ order ↔ p ∈ calls := by
  have mem (l : List Piece) : p ∈ l ↔ p ∈ l.filter (·.channel = p.channel) := by simp
  rw [mem order, mem calls, h p.channel]

theorem filter_channel {own : Channel} {l : List Piece} (h : ∀ x ∈ l, x.channel = own)
    (channel : Channel) :
    l.filter (·.channel = channel) = if own = channel then l else [] := by
  split
  · exact List.filter_eq_self.2 fun x hx => by simp_all
  · exact List.filter_eq_nil_iff.2 fun x hx => by simp_all

/-- Any two writes on different streams can come right after each other. -/
theorem exists_adjacent {calls : List Piece} {p q : Piece} (hp : p ∈ calls) (hq : q ∈ calls)
    (hc : p.channel ≠ q.channel) :
    ∃ before after, KeepsOrder (before ++ p :: q :: after) calls := by
  obtain ⟨a, b, hab⟩ := List.append_of_mem
    (show p ∈ calls.filter (·.channel = p.channel) by simpa using hp)
  obtain ⟨a', b', hab'⟩ := List.append_of_mem
    (show q ∈ calls.filter (·.channel = q.channel) by simpa using hq)
  have own : ∀ x ∈ a ++ p :: b, x.channel = p.channel := by
    rw [← hab]
    simp
  have own' : ∀ x ∈ a' ++ q :: b', x.channel = q.channel := by
    rw [← hab']
    simp
  obtain ⟨ha, hb⟩ := List.forall_mem_append.1 own
  obtain ⟨ha', hb'⟩ := List.forall_mem_append.1 own'
  have first := filter_channel (List.forall_mem_cons.1 hb).2
  have second := filter_channel (List.forall_mem_cons.1 hb').2
  refine ⟨a ++ a', b ++ b', fun channel => ?_⟩
  have either : channel = p.channel ∨ channel = q.channel := by
    revert hc
    cases channel <;> cases p.channel <;> cases q.channel <;> decide
  rcases either with rfl | rfl
  · simp [hab, filter_channel ha, filter_channel ha', first, second, hc.symm]
  · simp [hab', filter_channel ha, filter_channel ha', first, second, hc]

theorem head_of_shows {line : String} (hl : Text.IsPiece line) (hs : Shows line) :
    ∃ c rest, line.toList = c :: rest ∧ c ≠ '\n' := by
  obtain ⟨p, hp, he⟩ := hl
  obtain ⟨c, hc, hn⟩ := hs
  cases h : p.toList with
  | nil => rcases he with rfl | rfl <;> simp [h, hn] at hc
  | cons d rest =>
    have hd : d ≠ '\n' := fun hd => hp (by simp [h, hd])
    rcases he with rfl | rfl
    · exact ⟨d, rest, h, hd⟩
    · exact ⟨d, rest ++ ['\n'], by simp [h], hd⟩

theorem sharesLine_of_adjacent {p q : Piece} (hp : p.isText = true) (hq : q.isText = true)
    (hc : p.channel ≠ q.channel) (hopen : LeavesLineOpen p.line) (hl : Text.IsPiece q.line)
    (hs : Shows q.line) (before after : List Piece) :
    SharesLine (screen (before ++ p :: q :: after)) := by
  obtain ⟨c, hlast, hcn⟩ := hopen
  obtain ⟨init, hinit⟩ := List.getLast?_eq_some_iff.1 hlast
  obtain ⟨d, rest, hd, hdn⟩ := head_of_shows hl hs
  refine ⟨[⟨c, p.channel, true⟩, ⟨d, q.channel, true⟩], ?_, by simp [hcn, hdn], ?_, ?_⟩
  · have all : screen (before ++ p :: q :: after) =
        (screen before ++ init.map fun char => ⟨char, p.channel, true⟩) ++
          [⟨c, p.channel, true⟩, ⟨d, q.channel, true⟩] ++
          ((rest.map fun char => ⟨char, q.channel, true⟩) ++ screen after) := by
      simp [screen, Piece.marks, hinit, hd, hp, hq]
    rw [all]
    exact List.infix_append _ _ _
  · revert hc
    cases p.channel <;> cases q.channel <;> simp
  · revert hc
    cases p.channel <;> cases q.channel <;> simp

theorem exists_piece_of_mark {order : List Piece} {m : Mark} (hm : m ∈ screen order)
    (ht : m.isText = true) (hc : m.char ≠ '\n') :
    ∃ p ∈ order, p.isText = true ∧ p.channel = m.channel ∧ Shows p.line := by
  obtain ⟨p, hp, hm⟩ := List.mem_flatMap.1 hm
  obtain ⟨c, hcp, rfl⟩ := List.mem_map.1 hm
  exact ⟨p, hp, ht, rfl, c, hcp, hc⟩

/-- Some order of the writes shares a line exactly when one of them leaves its line open and one
on the other stream has something to show. -/
theorem exists_order_iff {calls : List Piece} (hl : ∀ p ∈ calls, Text.IsPiece p.line) :
    (∃ order, KeepsOrder order calls ∧ SharesLine (screen order)) ↔
      ∃ p ∈ calls, ∃ q ∈ calls, p.isText = true ∧ q.isText = true ∧ p.channel ≠ q.channel ∧
        LeavesLineOpen p.line ∧ Shows q.line := by
  constructor
  · rintro ⟨order, keeps, part, hpart, line, ⟨x, hx, hxt, hxc⟩, y, hy, hyt, hyc⟩
    obtain ⟨p, hp, hpt, hpc, hps⟩ := exists_piece_of_mark (hpart.subset hx) hxt (line x hx)
    obtain ⟨q, hq, hqt, hqc, hqs⟩ := exists_piece_of_mark (hpart.subset hy) hyt (line y hy)
    rw [hxc] at hpc
    rw [hyc] at hqc
    -- were there no text that leaves its line open, no line would be shared
    obtain ⟨o, ho, hot, hopen⟩ : ∃ o ∈ order, o.isText = true ∧ LeavesLineOpen o.line := by
      refine Classical.byContradiction fun h => ?_
      have tidy : Tidy none ([] ++ screen order) :=
        tidy_of_ended tidy_nil fun o ho hot hopen => h ⟨o, ho, hot, hopen⟩
      exact tidy.apart ⟨part, hpart, line, ⟨x, hx, hxt, hxc⟩, y, hy, hyt, hyc⟩
    rw [keeps.mem_iff] at hp hq ho
    cases hoc : o.channel with
    | primary => exact ⟨o, ho, q, hq, hot, hqt, by simp [hoc, hqc], hopen, hqs⟩
    | secondary => exact ⟨o, ho, p, hp, hot, hpt, by simp [hoc, hpc], hopen, hps⟩
  · rintro ⟨p, hp, q, hq, hpt, hqt, hc, hopen, hs⟩
    obtain ⟨before, after, keeps⟩ := exists_adjacent hp hq hc
    exact ⟨_, keeps, sharesLine_of_adjacent hpt hqt hc hopen (hl q hq) hs before after⟩

/-! ## The texts of a run -/

theorem leavesLineOpen_lines (text : String) :
    (∃ line ∈ Text.lines text, LeavesLineOpen line) ↔ LeavesLineOpen text := by
  constructor
  · rintro ⟨line, hl, c, hlast, hc⟩
    obtain ⟨piece, hp, rfl⟩ := List.mem_map.1 hl
    rw [String.toList_ofList] at hlast
    exact ⟨c, (Text.exists_getLast?_cutAfter hc _).1 ⟨piece, hp, hlast⟩, hc⟩
  · rintro ⟨c, hlast, hc⟩
    obtain ⟨piece, hp, hlast⟩ := (Text.exists_getLast?_cutAfter hc _).2 hlast
    exact ⟨_, List.mem_map_of_mem hp, c, by rwa [String.toList_ofList], hc⟩

theorem shows_lines (text : String) :
    (∃ line ∈ Text.lines text, Shows line) ↔ Shows text := by
  have all : text.toList = (Text.lines text).flatMap String.toList := by
    rw [← String.toList_join, Text.join_lines]
  unfold Shows
  rw [all]
  simp only [List.mem_flatMap]
  constructor
  · rintro ⟨line, hl, c, hc, hn⟩
    exact ⟨c, ⟨line, hl, hc⟩, hn⟩
  · rintro ⟨c, ⟨line, hl, hc⟩, hn⟩
    exact ⟨line, hl, c, hc, hn⟩

theorem leavesLineOpen_lead (last : Option Channel) (channel : Channel) (text : String) :
    LeavesLineOpen (lead last channel text ++ text) ↔ LeavesLineOpen text := by
  unfold lead
  split
  · cases h : text.toList <;> simp [LeavesLineOpen, h]
  · simp

theorem shows_lead (last : Option Channel) (channel : Channel) (text : String) :
    Shows (lead last channel text ++ text) ↔ Shows text := by
  unfold lead
  split <;> simp [Shows]

/-- What some line of a text written on a channel is like, for a property that a text has if a
line of it has, and that a line feed before it does not change. -/
theorem exists_piece_iff {Q : String → Prop}
    (lines : ∀ text, (∃ line ∈ Text.lines text, Q line) ↔ Q text)
    (lead : ∀ last channel text, Q (lead last channel text ++ text) ↔ Q text)
    (channel : Channel) (last : Option Channel) (outputs : List Output) :
    (∃ p ∈ pieces (sendings last outputs),
        p.isText = true ∧ p.channel = channel ∧ Q p.line) ↔
      ∃ text, .text channel text ∈ outputs ∧ Q text := by
  induction outputs generalizing last with
  | nil => simp [sendings, pieces]
  | cons output rest ih =>
    rw [sendings, pieces_cons]
    simp only [List.mem_append, or_and_right, exists_or, ih, List.mem_cons]
    refine or_congr ?_ Iff.rfl
    cases output with
    | control escapes => simp [pieces, sending, isText]
    | text c t =>
      have content : (∃ line ∈ Text.lines (Output.lead last c t ++ t), Q line) ↔ Q t :=
        (lines _).trans (lead last c t)
      constructor
      · rintro ⟨p, hp, -, hc, hq⟩
        obtain ⟨line, hl, rfl⟩ := mem_pieces_singleton.1 hp
        obtain rfl : c = channel := hc
        exact ⟨t, rfl, content.1 ⟨line, hl, hq⟩⟩
      · rintro ⟨u, he, hq⟩
        obtain ⟨rfl, rfl⟩ := Output.text.inj he
        obtain ⟨line, hl, hq⟩ := content.2 hq
        exact ⟨_, mem_pieces_singleton.2 ⟨line, hl, rfl⟩, rfl, rfl, hq⟩

theorem lines_pieces (channel : Channel) (last : Option Channel) (outputs : List Output) :
    ((pieces (sendings last outputs)).filter (·.channel = channel)).map Piece.line =
      linesOn channel (routes last outputs) := by
  induction outputs generalizing last with
  | nil => rfl
  | cons output rest ih =>
    have own : ∀ p ∈ pieces [output.sending last],
        p.channel = (output.sending last).output.channel := by
      intro p hp
      obtain ⟨line, -, rfl⟩ := mem_pieces_singleton.1 hp
      rfl
    have lines : (pieces [output.sending last]).map Piece.line =
        Text.lines (output.sending last).output.content := by
      simp [pieces, Function.comp_def]
    rw [sendings, pieces_cons, List.filter_append, List.map_append, ih, routes, linesOn_cons,
      route_eq, filter_channel own]
    split
    · rw [lines]
    · rfl

theorem isPiece_of_mem_pieces {sent : List Sent} {p : Piece} (h : p ∈ pieces sent) :
    Text.IsPiece p.line := by
  obtain ⟨s, -, hp⟩ := List.mem_flatMap.1 h
  obtain ⟨line, hl, rfl⟩ := List.mem_map.1 hp
  exact Text.isPiece_of_mem_lines hl

theorem along_map_write (channel : Channel) (order : List Piece) :
    along channel (order.map Piece.write) =
      (order.filter (·.channel = channel)).map Piece.line := by
  induction order with
  | nil => rfl
  | cons p rest ih =>
    by_cases h : p.channel = channel <;> simp_all [along, Piece.write]

section Runs

variable {S σ τ : Type} [OutputStream σ] [OutputStream τ]

/-- Two streams that never fail, on one terminal. Every order of the writes that keeps those on
each stream in their own order comes about on some schedule. In the order of the loop no line is
shared. On some schedule a line is shared, exactly if a text leaves its line open and the other
channel has a text with something to show. -/
theorem line_shared_iff (source : Source S) (state : S) (table : Table) (t : Transcript)
    (primary : σ) (secondary : τ) (plays : source.Plays none state (.new table) t)
    (hp : Stream.NeverFails primary) (hs : Stream.NeverFails secondary) :
    let start := IoRun.new table state (Watched.new primary) (Watched.new secondary)
    let calls := pieces (sendings none t.outputs)
    (∀ order, KeepsOrder order calls → ∃ moves r, start.after source moves = some r ∧
      r.result? = some t.verdict ∧ start.writes source moves = order.map Piece.write) ∧
    ¬ SharesLine (screen calls) ∧
    ((∃ moves r order, start.after source moves = some r ∧ r.result? = some t.verdict ∧
        KeepsOrder order calls ∧ start.writes source moves = order.map Piece.write ∧
        SharesLine (screen order)) ↔
      ∃ channel other text shown, channel ≠ other ∧
        .text channel text ∈ t.outputs ∧ LeavesLineOpen text ∧
        .text other shown ∈ t.outputs ∧ Shows shown) := by
  intro start calls
  have comes_about : ∀ order, KeepsOrder order calls → ∃ moves r,
      start.after source moves = some r ∧ r.result? = some t.verdict ∧
        start.writes source moves = order.map Piece.write := by
    intro order keeps
    obtain ⟨moves, r, hr, h, writes⟩ :=
      (IoRun.exists_writes_iff plays hp hs (order.map Piece.write)).2 fun channel => by
        rw [along_map_write, keeps channel, lines_pieces]
    obtain ⟨result, hres⟩ := Option.isSome_iff_exists.1 h
    obtain ⟨rfl, -, -⟩ := IoRun.written_of_plays plays hp hs hr hres
    exact ⟨moves, r, hr, hres, writes⟩
  refine ⟨comes_about, ?_, ?_⟩
  · obtain ⟨own, tidy⟩ := tidy_sendings tidy_nil t.outputs
    exact tidy.apart
  have texts := exists_order_iff fun p (hp : p ∈ calls) => isPiece_of_mem_pieces hp
  constructor
  · rintro ⟨moves, r, order, -, -, keeps, -, shared⟩
    obtain ⟨p, hp, q, hq, hpt, hqt, hc, hopen, hshow⟩ := texts.1 ⟨order, keeps, shared⟩
    obtain ⟨text, ht, hopen⟩ := (exists_piece_iff leavesLineOpen_lines leavesLineOpen_lead
      p.channel none t.outputs).1 ⟨p, hp, hpt, rfl, hopen⟩
    obtain ⟨shown, hs, hshow⟩ := (exists_piece_iff shows_lines shows_lead
      q.channel none t.outputs).1 ⟨q, hq, hqt, rfl, hshow⟩
    exact ⟨_, _, text, shown, hc, ht, hopen, hs, hshow⟩
  · rintro ⟨channel, other, text, shown, hc, ht, hopen, hs, hshow⟩
    obtain ⟨p, hp, hpt, rfl, hopen⟩ := (exists_piece_iff leavesLineOpen_lines leavesLineOpen_lead
      channel none t.outputs).2 ⟨text, ht, hopen⟩
    obtain ⟨q, hq, hqt, rfl, hshow⟩ := (exists_piece_iff shows_lines shows_lead
      other none t.outputs).2 ⟨shown, hs, hshow⟩
    obtain ⟨order, keeps, shared⟩ := texts.2 ⟨p, hp, q, hq, hpt, hqt, hc, hopen, hshow⟩
    obtain ⟨moves, r, hr, hres, writes⟩ := comes_about order keeps
    exact ⟨moves, r, order, hr, hres, keeps, writes, shared⟩

def openAndShown : List Item :=
  [.ok (Instruction.write "aaa" 2), .ok (Instruction.write "b" 1)]

/-- The line feed that the second text starts with is written before the first text, which then
shares its line with the second. -/
theorem openAndShown_share_line :
    let start := IoRun.new .plain openAndShown (Watched.new (Recorder.new (some 1) false))
      (Watched.new (Recorder.new (some 1) false))
    ∃ moves r, start.after Source.items moves = some r ∧ r.result? = some (.ok ()) ∧
      start.writes Source.items moves =
        [(.primary, "\n"), (.primary, "b"), (.secondary, "aaa")] ∧
      SharesLine (screen
        [⟨.primary, true, "\n"⟩, ⟨.primary, true, "b"⟩, ⟨.secondary, true, "aaa"⟩]) := by
  intro start
  have never := Stream.neverFails_recorder (r := Recorder.new (some 1) false) rfl
  obtain ⟨comes_about, -, -⟩ := line_shared_iff Source.items openAndShown .plain _ _ _
    ((Source.yields_items openAndShown).plays (.new .plain)) never never
  obtain ⟨moves, r, hr, hres, writes⟩ := comes_about
    [⟨.primary, true, "\n"⟩, ⟨.primary, true, "b"⟩, ⟨.secondary, true, "aaa"⟩]
    fun channel => by cases channel <;> decide
  refine ⟨moves, r, hr, hres, writes, ?_⟩
  exact sharesLine_of_adjacent (p := ⟨.primary, true, "b"⟩) (q := ⟨.secondary, true, "aaa"⟩) rfl rfl
    (by decide) ⟨'b', rfl, by decide⟩ ⟨"aaa", by decide, Or.inl rfl⟩ ⟨'a', by decide, by decide⟩
    [⟨.primary, true, "\n"⟩] []

end Runs

end StyledEffects
