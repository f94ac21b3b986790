import StyledEffects.Log.Config

/-! Adding up log configurations. However the sum is bracketed, the most verbose filter holds, and
for the display and for the file the last one named. The layers of a sum can be read off its
terms. -/

namespace StyledEffects.Log

namespace Filter

theorem eq_of_verbosity {a b : Filter} (h : a.verbosity = b.verbosity) : a = b := by
  rcases a with _ | (_ | _ | _ | _ | _) <;> rcases b with _ | (_ | _ | _ | _ | _) <;>
    first | rfl | exact absurd h (by decide)

theorem verbosity_mostVerbose (a b : Filter) :
    (a.mostVerbose b).verbosity = max a.verbosity b.verbosity := by
  unfold mostVerbose
  split <;> omega

theorem mostVerbose_assoc (a b c : Filter) :
    (a.mostVerbose b).mostVerbose c = a.mostVerbose (b.mostVerbose c) := by
  apply eq_of_verbosity
  simp only [verbosity_mostVerbose, Nat.max_assoc]

theorem mostVerbose_eq_or (a b : Filter) : a.mostVerbose b = a ∨ a.mostVerbose b = b := by
  unfold mostVerbose
  split
  · exact .inr rfl
  · exact .inl rfl

end Filter

namespace Target

theorem eq_of_parts {a b : Target} (display : a.display = b.display) (file : a.file = b.file) :
    a = b := by
  cases a
  cases b
  exact congr (congrArg Target.mk display) file

theorem add_assoc (a b c : Target) : a + b + c = a + (b + c) := by
  apply eq_of_parts
  · simp only [display_add, Option.or_assoc]
  · simp only [file_add, Option.or_assoc]

theorem add_self (a : Target) : a + a = a :=
  eq_of_parts ((display_add a a).trans Option.or_self) ((file_add a a).trans Option.or_self)

theorem add_none (a : Target) : a + none = a :=
  eq_of_parts ((display_add a none).trans Option.none_or) ((file_add a none).trans Option.none_or)

theorem none_add (a : Target) : none + a = a :=
  eq_of_parts ((display_add none a).trans Option.or_none) ((file_add none a).trans Option.or_none)

end Target

namespace Config

theorem add_assoc (a b c : Config) : a + b + c = a + (b + c) := by
  change Config.mk _ _ = Config.mk _ _
  congr 1
  · exact Filter.mostVerbose_assoc a.filter b.filter c.filter
  · exact Target.add_assoc a.target b.target c.target

def layersWith (c : Config) (path : Option FilePath) : List Layer :=
  .filter c.filter :: (c.target.display.toList.map (.display · c.filter) ++
    path.toList.map (.file · c.filter))

theorem layers_of_no_file {c : Config} (h : c.target.file = none) :
    c.layers = .ok (c.layersWith none) := by
  rcases c with ⟨filter, _ | display, _ | file⟩
  · rfl
  · cases h
  · rfl
  · cases h

theorem layers_of_file {c : Config} {file : String} (h : c.target.file = some file) :
    c.layers = (FilePath.parse file).map fun path => c.layersWith (some path) := by
  obtain ⟨filter, display, named⟩ := c
  obtain rfl : named = some file := h
  cases hp : FilePath.parse file <;> cases display <;>
    simp only [layers, fileLayer?, displayLayer?, hp] <;> rfl

theorem layers_eq_error_iff {c : Config} {fault : PathFault} :
    c.layers = .error fault ↔ ∃ file, c.target.file = some file ∧
      FilePath.parse file = .error fault := by
  cases h : c.target.file with
  | none => simp [layers_of_no_file h]
  | some file => cases hp : FilePath.parse file <;> simp [layers_of_file h, hp, Except.map]

theorem layers_eq_ok_iff {c : Config} {layers : List Layer} :
    c.layers = .ok layers ↔ ∃ path : Option FilePath,
      c.target.file.map FilePath.parse = path.map .ok ∧ layers = c.layersWith path := by
  cases h : c.target.file with
  | none => simp [layers_of_no_file h, eq_comm]
  | some file =>
    cases hp : FilePath.parse file <;> simp [layers_of_file h, hp, Except.map, eq_comm]

end Config

inductive Bracketing where
  | term (config : Config)
  | plus (first second : Bracketing)

namespace Bracketing

def total : Bracketing → Config
  | term config => config
  | plus first second => first.total + second.total

def terms : Bracketing → List Config
  | term config => [config]
  | plus first second => first.terms ++ second.terms

theorem filter_mem (s : Bracketing) : ∃ t ∈ s.terms, t.filter = s.total.filter := by
  induction s with
  | term config => exact ⟨config, List.mem_singleton_self _, rfl⟩
  | plus first second ih ih' =>
    rcases Filter.mostVerbose_eq_or first.total.filter second.total.filter with same | same
    · obtain ⟨t, ht, filter⟩ := ih
      exact ⟨t, List.mem_append_left _ ht, filter.trans same.symm⟩
    · obtain ⟨t, ht, filter⟩ := ih'
      exact ⟨t, List.mem_append_right _ ht, filter.trans same.symm⟩

theorem verbosity_le (s : Bracketing) :
    ∀ t ∈ s.terms, t.filter.verbosity ≤ s.total.filter.verbosity := by
  induction s with
  | term config => exact fun t ht => Nat.le_of_eq (by rw [List.mem_singleton.1 ht, total])
  | plus first second ih ih' =>
    have most : (first.plus second).total.filter.verbosity = _ :=
      Filter.verbosity_mostVerbose first.total.filter second.total.filter
    intro t ht
    rcases List.mem_append.1 ht with ht | ht
    · have := ih t ht
      omega
    · have := ih' t ht
      omega

/-- A setting that is merged so that the second one holds is that of the last term that makes
it. -/
theorem setting_total {α : Type} (setting : Config → Option α)
    (h : ∀ a b : Config, setting (a + b) = (setting b).or (setting a)) (s : Bracketing) :
    setting s.total = (s.terms.filterMap setting).getLast? := by
  induction s with
  | term config => cases hs : setting config <;> simp [total, terms, hs]
  | plus first second ih ih' =>
    rw [total, h, ih, ih', terms, List.filterMap_append, List.getLast?_append]

theorem display_total (s : Bracketing) :
    s.total.target.display = (s.terms.filterMap fun t => t.target.display).getLast? :=
  setting_total (fun t => t.target.display) (fun a b => Target.display_add a.target b.target) s

theorem file_total (s : Bracketing) :
    s.total.target.file = (s.terms.filterMap fun t => t.target.file).getLast? :=
  setting_total (fun t => t.target.file) (fun a b => Target.file_add a.target b.target) s

theorem total_eq_of_terms {s s' : Bracketing} (h : s.terms = s'.terms) : s.total = s'.total := by
  have filter : s.total.filter = s'.total.filter := by
    obtain ⟨t, ht, ft⟩ := s.filter_mem
    obtain ⟨t', ht', ft'⟩ := s'.filter_mem
    apply Filter.eq_of_verbosity
    apply Nat.le_antisymm
    · rw [← ft]
      exact s'.verbosity_le t (h ▸ ht)
    · rw [← ft']
      exact s.verbosity_le t' (h ▸ ht')
  have target : s.total.target = s'.total.target := by
    apply Target.eq_of_parts
    · rw [display_total, display_total, h]
    · rw [file_total, file_total, h]
  exact (Config.mk.injEq ..).mpr ⟨filter, target⟩

end Bracketing

theorem isSome_last_iff {α β : Type} {f : α → Option β} {xs : List α} :
    (xs.filterMap f).getLast?.isSome ↔ ∃ x ∈ xs, (f x).isSome := by
  rw [Option.isSome_iff_ne_none, Ne, List.getLast?_eq_none_iff, List.filterMap_eq_nil_iff]
  simp [Option.isSome_iff_ne_none]

/-- Adding up is associative, for targets also idempotent, and where nothing is named nothing is
changed. A sum of any number of configurations, however bracketed, has the most verbose of their
filters, the last display that is named and the last file, if any is. Its layers are the filter,
then the display if one is named, then the file if one is named, and nothing goes wrong unless the
path of that file is refused. -/
theorem later_settings_win :
    (∀ a b c : Config, a + b + c = a + (b + c)) ∧
    (∀ a b c : Target, a + b + c = a + (b + c)) ∧
    (∀ a : Target, a + a = a ∧ a + .none = a ∧ .none + a = a) ∧
    ∀ s : Bracketing,
      let display := (s.terms.filterMap fun t => t.target.display).getLast?
      let file := (s.terms.filterMap fun t => t.target.file).getLast?
      (∀ s' : Bracketing, s'.terms = s.terms → s'.total = s.total) ∧
      (∃ t ∈ s.terms, t.filter = s.total.filter) ∧
      (∀ t ∈ s.terms, t.filter.verbosity ≤ s.total.filter.verbosity) ∧
      s.total.target = ⟨display, file⟩ ∧
      (display.isSome ↔ ∃ t ∈ s.terms, t.target.display.isSome) ∧
      (file.isSome ↔ ∃ t ∈ s.terms, t.target.file.isSome) ∧
      (∀ layers, s.total.layers = .ok layers ↔ ∃ path : Option FilePath,
        file.map FilePath.parse = path.map .ok ∧
        layers = .filter s.total.filter ::
          (display.toList.map (.display · s.total.filter) ++
            path.toList.map (.file · s.total.filter))) ∧
      ∀ fault, s.total.layers = .error fault ↔
        ∃ path, file = some path ∧ FilePath.parse path = .error fault := by
  refine ⟨Config.add_assoc, Target.add_assoc,
    fun a => ⟨a.add_self, a.add_none, a.none_add⟩, fun s => ?_⟩
  intro display file
  have shown : s.total.target.display = display := s.display_total
  have filed : s.total.target.file = file := s.file_total
  refine ⟨fun s' => Bracketing.total_eq_of_terms, s.filter_mem, s.verbosity_le,
    Target.eq_of_parts shown filed, isSome_last_iff, isSome_last_iff, fun layers => ?_,
    fun fault => ?_⟩
  · simp only [Config.layers_eq_ok_iff, Config.layersWith, filed, shown]
  · rw [Config.layers_eq_error_iff, filed]

def twoFiles : Bracketing :=
  .plus (.plus (.term (.ofTarget (.filed "a.log"))) (.term (.ofDisplay .stderr)))
    (.term (.ofFilter (.upTo .trace)))

def twoFilesRight : Bracketing :=
  .plus (.term (.ofTarget (.filed "a.log")))
    (.plus (.term (.ofDisplay .stderr)) (.term (.ofFilter (.upTo .trace))))

/-- The display stays, and the later of the files is opened. -/
theorem twoFiles_layers :
    twoFilesRight.total = twoFiles.total ∧ twoFiles.total.layers =
      .ok [.filter (.upTo .trace), .display .stderr (.upTo .trace),
        .file ⟨"", "effect_render.log"⟩ (.upTo .trace)] := by
  obtain ⟨-, -, -, sums⟩ := later_settings_win
  obtain ⟨brackets, -, -, -, -, -, layers, -⟩ := sums twoFiles
  have path : FilePath.parse Config.defaultFile = .ok ⟨"", "effect_render.log"⟩ := rfl
  refine ⟨brackets twoFilesRight rfl, (layers _).2 ⟨some ⟨"", "effect_render.log"⟩, ?_, rfl⟩⟩
  exact congrArg some path

end StyledEffects.Log
