import Intake.Settings
import Intake.Proofs.Number.Digits

/-!
# Loaded configurations

What is loaded from an environment and from overrides can be worked with, or
it is refused by name. The one value that is never refused is the name of the
provider.

There are four groups.

* Results.  `bind_eq_ok` and `bind_eq_error` take a chain of readings apart.
* Reasons.  `Refusal.Just` says what may be refused; `Refusal.fault_of_just`
  words it.
* Readings.  Each reader has one lemma that says when it refuses; what it
  accepts is in `Settings.Valid`.
* Loading.  `Configuration.valid_or_refused` goes through the whole chain of
  overrides; `Configuration.provider_accepted` is the name that gets through.
-/

namespace Intake

open Text Number

/-! ## Results -/

section Results

variable {ε α β : Type} {x : Except ε α} {f : α → Except ε β} {b : β} {e : ε}

theorem bind_eq_ok : x >>= f = .ok b ↔ ∃ a, x = .ok a ∧ f a = .ok b := by
  cases x with
  | error e => simp [bind, Except.bind]
  | ok a => simp [bind, Except.bind]

theorem bind_eq_error : x >>= f = .error e ↔ x = .error e ∨ ∃ a, x = .ok a ∧ f a = .error e := by
  cases x with
  | error e => simp [bind, Except.bind]
  | ok a => simp [bind, Except.bind]

end Results

namespace Settings

variable {env : Environment} {changes : List Overrides} {label value model : String}
  {s next : Settings} {o : Overrides} {r : Refusal}

/-! ## Reasons -/

/-- Settings that can be worked with. -/
structure Valid (s : Settings) : Prop where
  maxPages : 1 ≤ s.maxPages
  textTimeout : s.textTimeout > 0
  model : s.model ≠ ""

/-- Overrides as a command line makes them. Their page cap has no more digits
than are read, and their time bound was read from a text. -/
structure Overrides.Readable (o : Overrides) : Prop where
  maxPages : ∀ pages, o.maxPages = some pages → (digits pages.natAbs).length ≤ maxDigitsRead
  textTimeout : ∀ x, o.textTimeout = some x → ∃ name value, seconds name value = .ok x

namespace Refusal

/-- The name of the setting whose value is refused. -/
def name : Refusal → String
  | duration name _ => name
  | notPositive name _ => name
  | boolean name _ => name
  | integer name _ => name
  | negative name _ => name

/-- The refused value as it is shown. -/
def shown : Refusal → String
  | duration _ value => quoted value
  | notPositive _ value => quoted value
  | boolean _ value => quoted value
  | integer _ value => quoted value
  | negative _ pages => intText pages

/-- A message names the setting and shows the value. -/
theorem exists_message_eq (r : Refusal) :
    ∃ between rest, r.message = r.name ++ between ++ r.shown ++ rest := by
  cases r with
  | duration name value => exact ⟨_, _, rfl⟩
  | notPositive name value => exact ⟨_, "", String.append_empty.symm⟩
  | boolean name value => exact ⟨_, "", String.append_empty.symm⟩
  | integer name value => exact ⟨_, "", String.append_empty.symm⟩
  | negative name pages => exact ⟨_, "", String.append_empty.symm⟩

/-- A refusal with a reason in the environment or in some overrides. -/
inductive Just (env : Environment) (changes : List Overrides) : Refusal → Prop
  | duration {value : String} (hset : present? env textTimeoutVariable = some value)
      (hread : durationSeconds? value.toList = none) :
      Just env changes (.duration textTimeoutVariable value)
  | notPositive {value : String} {x : Float} (hset : present? env textTimeoutVariable = some value)
      (hread : durationSeconds? value.toList = some x) (hx : ¬ x > 0) :
      Just env changes (.notPositive textTimeoutVariable value)
  | boolean {value : String} (hset : present? env modelEnabledVariable = some value)
      (hword : ∀ word ∈ trueWords ++ falseWords, word.toList ≠ lowered (trim value.toList)) :
      Just env changes (.boolean modelEnabledVariable value)
  | integer {value : String} (hset : present? env maxPagesVariable = some value)
      (hread : readInt? value.toList = none) :
      Just env changes (.integer maxPagesVariable value)
  | negative {value : String} {pages : Int} (hset : present? env maxPagesVariable = some value)
      (hread : readInt? value.toList = some pages) (hpages : pages < 0) :
      Just env changes (.negative maxPagesVariable pages)
  | override {o : Overrides} {pages : Int} (ho : o ∈ changes) (hset : o.maxPages = some pages)
      (hpages : pages < 0) : Just env changes (.negative "max_ocr_pages" pages)

theorem fault_negative {pages : Int} (h : (digits pages.natAbs).length ≤ maxDigitsRead) :
    (negative label pages).fault = .config (negative label pages).message := by
  simp only [fault]
  rw [if_pos h]

theorem fault_of_just (h : r.Just env changes) (hreadable : ∀ o ∈ changes, o.Readable) :
    r.fault = .config r.message := by
  cases h with
  | duration hset hread => rfl
  | notPositive hset hread hx => rfl
  | boolean hset hword => rfl
  | integer hset hread => rfl
  | negative hset hread hpages =>
    exact fault_negative (length_digits_le (by decide) (natAbs_lt_of_readInt? hread))
  | override ho hset hpages => exact fault_negative ((hreadable _ ho).maxPages _ hset)

end Refusal

/-! ## Readings -/

theorem seconds_eq_error (h : seconds label value = .error r) :
    r = .duration label value ∧ durationSeconds? value.toList = none ∨
      r = .notPositive label value ∧ ∃ x, durationSeconds? value.toList = some x ∧ ¬ x > 0 := by
  unfold seconds at h
  split at h
  · rename_i hread
    exact .inl ⟨(Except.error.inj h).symm, hread⟩
  · rename_i x hread
    split at h
    · cases h
    · rename_i hx
      exact .inr ⟨(Except.error.inj h).symm, x, hread, hx⟩

theorem flag_eq_error (h : flag label value = .error r) :
    r = .boolean label value ∧
      ∀ word ∈ trueWords ++ falseWords, word.toList ≠ lowered (trim value.toList) := by
  simp only [flag] at h
  split at h
  · cases h
  · rename_i htrue
    split at h
    · cases h
    · rename_i hfalse
      refine ⟨(Except.error.inj h).symm, fun word hword heq => ?_⟩
      have hbeq : (word.toList == lowered (trim value.toList)) = true := beq_iff_eq.2 heq
      rcases List.mem_append.1 hword with hword | hword
      · exact htrue (List.any_eq_true.2 ⟨word, hword, hbeq⟩)
      · exact hfalse (List.any_eq_true.2 ⟨word, hword, hbeq⟩)

theorem pageCap_eq_error {pages : Int} :
    pageCap label pages = .error r ↔ r = .negative label pages ∧ pages < 0 := by
  unfold pageCap
  split
  · rename_i hpages
    simp [hpages, eq_comm]
  · rename_i hpages
    simp [hpages]

theorem pageCapText_eq_error (h : pageCapText label value = .error r) :
    r = .integer label value ∧ readInt? value.toList = none ∨
      ∃ pages, r = .negative label pages ∧ readInt? value.toList = some pages ∧ pages < 0 := by
  unfold pageCapText at h
  split at h
  · rename_i pages hread
    obtain ⟨hr, hpages⟩ := pageCap_eq_error.1 h
    exact .inr ⟨pages, hr, hread, hpages⟩
  · rename_i hread
    exact .inl ⟨(Except.error.inj h).symm, hread⟩

theorem orDefault_eq_error {α : Type} {d : α} {read : String → String → Except Refusal α}
    (h : orDefault env label d read = .error r) :
    ∃ value, present? env label = some value ∧ read label value = .error r := by
  unfold orDefault at h
  split at h
  · rename_i value hset
    exact ⟨value, hset, h⟩
  · cases h

theorem orDefault_eq_ok {α : Type} {d a : α} {read : String → String → Except Refusal α}
    (h : orDefault env label d read = .ok a) :
    present? env label = none ∧ a = d ∨
      ∃ value, present? env label = some value ∧ read label value = .ok a := by
  unfold orDefault at h
  split at h
  · rename_i value hset
    exact .inr ⟨value, hset, h⟩
  · rename_i hset
    exact .inl ⟨hset, (Except.ok.inj h).symm⟩

theorem override_eq_error :
    override s o = .error r ↔
      ∃ pages, o.maxPages = some pages ∧ r = .negative "max_ocr_pages" pages ∧ pages < 0 := by
  cases hcap : o.maxPages with
  | none => simp [override, hcap, bind, Except.bind, pure, Except.pure]
  | some pages => simp [override, hcap, bind_eq_error, pageCap_eq_error, pure, Except.pure]

/-! ## Loading -/

theorem just_of_ofEnvironment (h : ofEnvironment env model = .error r) : r.Just env changes := by
  simp only [ofEnvironment, bind_eq_error] at h
  rcases h with hcap | ⟨maxPages, -, htimeout | ⟨textTimeout, -, hflag | ⟨enabled, -, hrest⟩⟩⟩
  · obtain ⟨value, hset, hread⟩ := orDefault_eq_error hcap
    rcases pageCapText_eq_error hread with ⟨rfl, hnone⟩ | ⟨pages, rfl, hsome, hpages⟩
    · exact .integer hset hnone
    · exact .negative hset hsome hpages
  · obtain ⟨value, hset, hread⟩ := orDefault_eq_error htimeout
    rcases seconds_eq_error hread with ⟨rfl, hnone⟩ | ⟨rfl, x, hsome, hx⟩
    · exact .duration hset hnone
    · exact .notPositive hset hsome hx
  · obtain ⟨value, hset, hread⟩ := orDefault_eq_error hflag
    obtain ⟨rfl, hword⟩ := flag_eq_error hread
    exact .boolean hset hword
  · cases hrest

theorem valid_ofEnvironment (h : ofEnvironment env model = .ok s) (hmodel : model ≠ "") :
    s.Valid := by
  simp only [ofEnvironment, bind_eq_ok] at h
  obtain ⟨maxPages, hcap, textTimeout, htimeout, enabled, -, hs⟩ := h
  obtain rfl := Except.ok.inj hs
  refine ⟨?_, ?_, ?_⟩
  · rcases orDefault_eq_ok hcap with ⟨-, rfl⟩ | ⟨value, -, hread⟩
    · show 1 ≤ defaultMaxPages
      decide
    · unfold pageCapText at hread
      split at hread
      · exact pageCap_pos hread
      · cases hread
  · rcases orDefault_eq_ok htimeout with ⟨-, rfl⟩ | ⟨value, -, hread⟩
    · show defaultTextTimeout > 0
      decide
    · exact seconds_pos hread
  · dsimp only
    split
    · exact hmodel
    · rename_i hset
      exact fun hempty => hset (String.isEmpty_iff.2 hempty)

/-- Overrides keep what they do not replace, and an empty model replaces
nothing. -/
theorem override_eq_ok (h : override s o = .ok next) :
    (next.maxPages = s.maxPages ∨ ∃ pages, pageCap "max_ocr_pages" pages = .ok next.maxPages) ∧
      (next.textTimeout = s.textTimeout ∨ o.textTimeout = some next.textTimeout) ∧
      (next.model = s.model ∨ next.model.isEmpty = false) := by
  -- A cap that is accepted counts as one that was there before.
  obtain ⟨maxPages, hcap, hrest⟩ : ∃ maxPages,
      (maxPages = s.maxPages ∨ ∃ pages, pageCap "max_ocr_pages" pages = .ok maxPages) ∧
        override { s with maxPages := maxPages } { o with maxPages := none } = .ok next := by
    cases hset : o.maxPages with
    | none =>
      simp only [override, hset] at h
      exact ⟨s.maxPages, .inl rfl, h⟩
    | some pages =>
      simp only [override, hset] at h
      obtain ⟨maxPages, hcap, hnext⟩ := bind_eq_ok.1 h
      exact ⟨maxPages, .inr ⟨pages, hcap⟩, hnext⟩
  obtain rfl := Except.ok.inj hrest
  refine ⟨hcap, ?_, ?_⟩
  · cases htimeout : o.textTimeout with
    | none => exact .inl rfl
    | some x => exact .inr rfl
  · cases hmodel : o.model with
    | none => exact .inl rfl
    | some m =>
      cases hempty : m.isEmpty with
      | true => exact .inl (if_pos hempty)
      | false =>
        right
        simp [hempty]

theorem valid_override (h : override s o = .ok next) (hs : s.Valid) (ho : o.Readable) :
    next.Valid := by
  obtain ⟨hcap, htimeout, hmodel⟩ := override_eq_ok h
  refine ⟨?_, ?_, ?_⟩
  · rcases hcap with hcap | ⟨pages, hcap⟩
    · rw [hcap]
      exact hs.maxPages
    · exact pageCap_pos hcap
  · rcases htimeout with htimeout | htimeout
    · rw [htimeout]
      exact hs.textTimeout
    · obtain ⟨name, value, hread⟩ := ho.textTimeout _ htimeout
      exact seconds_pos hread
  · rcases hmodel with hmodel | hmodel
    · rw [hmodel]
      exact hs.model
    · intro hempty
      rw [hempty] at hmodel
      cases hmodel

/-- One override that is refused refuses the whole chain. -/
theorem foldlM_override_eq_error :
    changes.foldlM override s = .error r →
      ∃ o ∈ changes, ∃ pages, o.maxPages = some pages ∧ r = .negative "max_ocr_pages" pages ∧
        pages < 0 := by
  induction changes generalizing s with
  | nil => exact nofun
  | cons o changes ih =>
    rw [List.foldlM_cons, bind_eq_error]
    rintro (hfirst | ⟨next, -, hrest⟩)
    · exact ⟨o, List.mem_cons_self, override_eq_error.1 hfirst⟩
    · obtain ⟨o', ho', hpages⟩ := ih hrest
      exact ⟨o', List.mem_cons_of_mem o ho', hpages⟩

theorem foldlM_override_eq_ok (h : changes.foldlM override s = .ok next) (hs : s.Valid)
    (hreadable : ∀ o ∈ changes, o.Readable) :
    next.Valid ∧ ∀ o ∈ changes, ∀ pages, o.maxPages = some pages → ¬ pages < 0 := by
  induction changes generalizing s with
  | nil =>
    obtain rfl := Except.ok.inj h
    exact ⟨hs, nofun⟩
  | cons o changes ih =>
    rw [List.foldlM_cons, bind_eq_ok] at h
    obtain ⟨middle, hfirst, hrest⟩ := h
    have hmiddle := valid_override hfirst hs (hreadable o List.mem_cons_self)
    obtain ⟨hnext, hlater⟩ :=
      ih hrest hmiddle fun o' ho' => hreadable o' (List.mem_cons_of_mem o ho')
    refine ⟨hnext, fun o' ho' pages hset hpages => ?_⟩
    rcases List.mem_cons.1 ho' with rfl | ho'
    · have hrefused : override s o' = .error (.negative "max_ocr_pages" pages) :=
        override_eq_error.2 ⟨pages, hset, rfl, hpages⟩
      exact absurd (hfirst.symm.trans hrefused) nofun
    · exact hlater o' ho' pages hset hpages

/-- Settings are made only where there is no reason to refuse. -/
theorem not_just_of_ofEnvironment (h : ofEnvironment env model = .ok s)
    (hchanges : ∀ o ∈ changes, ∀ pages, o.maxPages = some pages → ¬ pages < 0) (r : Refusal) :
    ¬ r.Just env changes := by
  simp only [ofEnvironment, bind_eq_ok] at h
  obtain ⟨maxPages, hcap, textTimeout, htimeout, enabled, hflag, -⟩ := h
  intro hjust
  cases hjust with
  | duration hset hread =>
    simp [orDefault, hset, seconds, hread] at htimeout
  | notPositive hset hread hx =>
    simp only [orDefault, hset, seconds, hread, if_neg hx] at htimeout
    cases htimeout
  | @boolean value hset hword =>
    have hnone : ∀ words ⊆ trueWords ++ falseWords,
        words.any (·.toList == lowered (trim value.toList)) = false := by
      intro words hwords
      refine List.any_eq_false.2 fun word hmem => ?_
      simpa using hword word (hwords hmem)
    simp [orDefault, hset, flag, hnone trueWords (List.subset_append_left _ _),
      hnone falseWords (List.subset_append_right _ _)] at hflag
  | integer hset hread =>
    simp [orDefault, hset, pageCapText, hread] at hcap
  | negative hset hread hpages =>
    simp [orDefault, hset, pageCapText, hread, pageCap, hpages] at hcap
  | override ho hset hpages => exact hchanges _ ho _ hset hpages

end Settings

namespace Provider

/-- The providers that are known. -/
def known : List Provider := [gateway, azure, ollama]

/-- A provider is known or keeps a name that is not known. -/
theorem ofName_known_or (name : String) :
    ofName name ∈ known ∨ name ∉ known.map Provider.name ∧ ofName name = .unknown name := by
  unfold ofName
  by_cases hgateway : name = "openrouter"
  · simp [hgateway, known]
  by_cases hazure : name = "azure"
  · simp [hazure, known]
  by_cases hollama : name = "ollama"
  · simp [hollama, known]
  right
  simp [hgateway, hazure, hollama, known, Provider.name]

theorem ofEnvironment_known_or (env : Environment) :
    ofEnvironment env ∈ known ∨ ∃ name, env.get? "LLM_PROVIDER" = some name ∧
      name ∉ known.map Provider.name ∧ ofEnvironment env = .unknown name := by
  unfold ofEnvironment
  split
  · rename_i name hset
    rcases ofName_known_or name with hknown | ⟨hname, hunknown⟩
    · exact .inl hknown
    · exact .inr ⟨name, hset, hname, hunknown⟩
  · left
    decide

/-- A model's name says where it runs. -/
theorem qualify_ne_empty (env : Environment) (p : Provider) (model : String) :
    p.qualify env model ≠ "" := by
  intro h
  have hlength := congrArg String.length h
  unfold qualify at hlength
  split at hlength <;> simp [String.length_append] at hlength

end Provider

namespace Configuration

open Settings

/-- What an environment and overrides say is refused by the name and the value
of a setting, for a reason, or it can be worked with; then nothing gave a
reason. A provider that is not known is kept by its name. -/
theorem valid_or_refused (env : Environment) (changes : List Overrides)
    (hreadable : ∀ o ∈ changes, o.Readable) :
    (∃ r between rest, load env changes = .error r ∧ r.Just env changes ∧
        r.fault = .config (r.name ++ between ++ r.shown ++ rest)) ∨
      ∃ c, load env changes = .ok c ∧ c.settings.Valid ∧ (∀ r, ¬ Refusal.Just env changes r) ∧
        (c.provider ∈ Provider.known ∨ ∃ name, env.get? "LLM_PROVIDER" = some name ∧
          name ∉ Provider.known.map Provider.name ∧ c.provider = .unknown name) := by
  cases hload : load env changes with
  | error r =>
    left
    have hjust : r.Just env changes := by
      unfold load at hload
      rcases bind_eq_error.1 hload with hfirst | ⟨first, -, hlater⟩
      · exact just_of_ofEnvironment hfirst
      · rcases bind_eq_error.1 hlater with hchain | ⟨last, -, hlast⟩
        · obtain ⟨o, ho, pages, hset, rfl, hpages⟩ := foldlM_override_eq_error hchain
          exact .override ho hset hpages
        · cases hlast
    obtain ⟨between, rest, hmessage⟩ := r.exists_message_eq
    refine ⟨r, between, rest, rfl, hjust, ?_⟩
    rw [Refusal.fault_of_just hjust hreadable, hmessage]
  | ok c =>
    right
    unfold load at hload
    obtain ⟨first, hfirst, hlater⟩ := bind_eq_ok.1 hload
    obtain ⟨last, hchain, hlast⟩ := bind_eq_ok.1 hlater
    obtain rfl := Except.ok.inj hlast
    have hvalid := valid_ofEnvironment hfirst (Provider.qualify_ne_empty env _ _)
    obtain ⟨hlast, hchanges⟩ := foldlM_override_eq_ok hchain hvalid hreadable
    exact ⟨_, rfl, hlast, not_just_of_ofEnvironment hfirst hchanges,
      Provider.ofEnvironment_known_or env⟩

/-- The second of two caps is refused. -/
theorem refused_second_cap :
    let changes : List Overrides := [{ maxPages := some 5 }, { maxPages := some (-3) }]
    (∀ o ∈ changes, o.Readable) ∧
      ∃ r between rest, load [("LLM_PROVIDER", "azure")] changes = .error r ∧
        r.fault = .config ("max_ocr_pages" ++ between ++ "-3" ++ rest) := by
  intro changes
  have hreadable : ∀ o ∈ changes, o.Readable := by
    intro o ho
    rcases List.mem_pair.1 ho with rfl | rfl
    · exact ⟨fun pages hset => Option.some.inj hset ▸ by decide, nofun⟩
    · exact ⟨fun pages hset => Option.some.inj hset ▸ by decide, nofun⟩
  refine ⟨hreadable, ?_⟩
  rcases valid_or_refused [("LLM_PROVIDER", "azure")] changes hreadable with
    ⟨r, between, rest, hload, -, hfault⟩ | ⟨c, hload, -⟩
  · have hr : r = .negative "max_ocr_pages" (-3) := (Except.error.inj hload).symm
    have hshown : intText (-3) = "-3" := by decide
    subst hr
    refine ⟨_, between, rest, hload, ?_⟩
    rw [← hshown]
    exact hfault
  · cases hload

/-- The name of the provider is not checked. -/
theorem provider_accepted :
    ¬ ∀ (env : Environment) (changes : List Overrides), (∀ o ∈ changes, o.Readable) →
      (∃ r text, load env changes = .error r ∧ r.fault = .config text) ∨
        ∃ c, load env changes = .ok c ∧ c.settings.Valid ∧ c.provider ∈ Provider.known := by
  intro h
  rcases h [("LLM_PROVIDER", "foo")] [] nofun with ⟨r, text, hload, -⟩ | ⟨c, hload, -, hknown⟩
  · cases hload
  · obtain rfl := Except.ok.inj hload
    exact absurd hknown (by decide)

end Configuration
end Intake
