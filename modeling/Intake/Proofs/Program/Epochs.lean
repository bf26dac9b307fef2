import Intake.Session.Workshop

/-!
# Epochs of answers about tools

What is installed may change at any time, and the answers about the tools may
be forgotten.  From one forgetting to the next every tool is looked up at most
once, and all answers are those of that one look-up, in whatever order the
questions come.

There are three groups.

* Questions.  `Question` lists what may be asked, `Question.reply` is the reply
  where it is known which tools are there, and `Question.rests` lists the tools
  that the reply rests on.
* Look-ups.  `Grows` says how a question adds to what is known;
  `reply_of_known` says that its reply is what is known then.
* Histories.  `known_after` is the invariant of an epoch: what is known is what
  was looked up in it.  `consistent_of_epoch` is the result.

`Question.ask_ofPages` and `asked_survey` say which questions a batch run and a
workshop ask.
-/

namespace Intake.Tools

variable {t t' : Tools} {α β : Type}

/-! ## Questions -/

/-- What may be asked about the tools. -/
inductive Question where
  | has (tool : Tool)
  | pdfOcr
  | imageOcr
  | capabilities
  deriving DecidableEq, Repr

/-- A reply: yes or no, or the record of all tools. -/
inductive Reply where
  | answer (yes : Bool)
  | record (c : Capabilities)
  deriving DecidableEq, Repr

/-- The record of tools of which it is known whether they are there. -/
def recordOf (present : Tool → Bool) : Capabilities :=
  ⟨present .textExtractor, present .rasterizer, present .ocrEngine⟩

theorem eq_recordOf {present : Tool → Bool} {c : Capabilities}
    (h : ∀ tool, c.has tool = present tool) : c = recordOf present := by
  have htext := h .textExtractor
  have hraster := h .rasterizer
  have hengine := h .ocrEngine
  cases c
  simp only [Capabilities.has] at htext hraster hengine
  simp [recordOf, htext, hraster, hengine]

namespace Question

/-- Asks a question. -/
def ask : Question → StateM Tools Reply
  | has tool => Reply.answer <$> Tools.has tool
  | pdfOcr => Reply.answer <$> pdfOcrAvailable
  | imageOcr => Reply.answer <$> imageOcrAvailable
  | capabilities => Reply.record <$> Tools.capabilities

/-- The reply where these tools are there. -/
def reply (present : Tool → Bool) : Question → Reply
  | has tool => .answer (present tool)
  | pdfOcr => .answer (present .ocrEngine && present .rasterizer)
  | imageOcr => .answer (present .ocrEngine)
  | capabilities => .record (recordOf present)

/-- The tools that the reply rests on.  Without the engine nobody looks for the
rasterizer. -/
def rests (present : Tool → Bool) : Question → List Tool
  | has tool => [tool]
  | pdfOcr => if present .ocrEngine then [.ocrEngine, .rasterizer] else [.ocrEngine]
  | imageOcr => [.ocrEngine]
  | capabilities => [.textExtractor, .rasterizer, .ocrEngine]

/-- What a batch run asks before it reads the pages of a document. -/
def ofPages (mime : String) : Question := if Mime.isPdf mime then pdfOcr else imageOcr

theorem ask_ofPages (mime : String) : (ofPages mime).ask =
    Reply.answer <$> (if Mime.isPdf mime then pdfOcrAvailable else imageOcrAvailable) := by
  unfold ofPages
  split
  · rfl
  · rfl

end Question

/-! ## Look-ups -/

/-- What a question adds: the tools it looked up, each once and only if nothing
was known of it, with what was installed then. -/
structure Grows (t : Tools) (found : List Tool) (t' : Tools) : Prop where
  installed : t'.installed = t.installed
  known : t'.known = t.known ++ found.map fun tool => (tool, t.installed.contains tool.name)
  lookups : t'.lookups = t.lookups ++ found
  nodup : found.Nodup
  unknown : ∀ tool ∈ found, t.known.lookup tool = none

theorem grows_nil (h : t'.known = t.known) (hlookups : t'.lookups = t.lookups)
    (hinstalled : t'.installed = t.installed) : t.Grows [] t' :=
  ⟨hinstalled, by simp [h], by simp [hlookups], List.nodup_nil, by simp⟩

/-- A tool that was looked up is known, so it is not looked up again. -/
theorem Grows.trans {t'' : Tools} {found found' : List Tool} (h : t.Grows found t')
    (h' : t'.Grows found' t'') : t.Grows (found ++ found') t'' := by
  have hnew : ∀ tool ∈ found', t.known.lookup tool = none ∧ tool ∉ found := by
    intro tool hmem
    have hnone := h'.unknown tool hmem
    rw [h.known, List.lookup_append, Option.or_eq_none_iff] at hnone
    refine ⟨hnone.1, fun hfound => ?_⟩
    have hne := List.lookup_eq_none_iff.1 hnone.2 _ (List.mem_map.2 ⟨tool, hfound, rfl⟩)
    simp at hne
  refine ⟨h'.installed.trans h.installed, ?_, ?_, ?_, ?_⟩
  · rw [h'.known, h.known, h.installed, List.map_append, List.append_assoc]
  · rw [h'.lookups, h.lookups, List.append_assoc]
  · rw [List.nodup_append]
    refine ⟨h.nodup, h'.nodup, ?_⟩
    intro a ha b hb hab
    exact (hnew b hb).2 (hab ▸ ha)
  · intro tool hmem
    rcases List.mem_append.1 hmem with hfound | hfound'
    · exact h.unknown tool hfound
    · exact (hnew tool hfound').1

theorem Grows.lookup {found : List Tool} (h : t.Grows found t') {tool : Tool} {answer : Bool}
    (hknown : t.known.lookup tool = some answer) : t'.known.lookup tool = some answer := by
  rw [h.known, List.lookup_append, hknown, Option.some_or]

/-- A question that looks up nothing that is known. -/
def Looks (question : StateM Tools α) : Prop :=
  ∀ t : Tools, ∃ found, t.Grows found (question t).2

theorem looks_pure (a : α) : Looks (pure a) := fun _ => ⟨[], grows_nil rfl rfl rfl⟩

theorem Looks.bind {question : StateM Tools α} {next : α → StateM Tools β} (h : Looks question)
    (hnext : ∀ a, Looks (next a)) : Looks (question >>= next) := by
  intro t
  obtain ⟨found, hfound⟩ := h t
  obtain ⟨found', hfound'⟩ := hnext (question t).1 (question t).2
  exact ⟨found ++ found', hfound.trans hfound'⟩

theorem Looks.map {question : StateM Tools α} (h : Looks question) (f : α → β) :
    Looks (f <$> question) := h

theorem looks_has (tool : Tool) : Looks (has tool) := by
  intro t
  cases hknown : t.known.lookup tool with
  | some answer =>
    rw [lookups_has_of_known hknown]
    exact ⟨[], grows_nil rfl rfl rfl⟩
  | none =>
    refine ⟨[tool], ?_⟩
    simp only [has, hknown]
    refine ⟨rfl, rfl, rfl, by simp, ?_⟩
    intro other hmem
    rw [List.mem_singleton.1 hmem]
    exact hknown

theorem pdfOcrAvailable_eq (t : Tools) : pdfOcrAvailable t =
    if (has .ocrEngine t).1 then has .rasterizer (has .ocrEngine t).2
    else (false, (has .ocrEngine t).2) := by
  show (if (has .ocrEngine t).1 then has .rasterizer else pure false :
    StateM Tools Bool) (has .ocrEngine t).2 = _
  split
  · rfl
  · rfl

theorem looks_pdfOcrAvailable : Looks pdfOcrAvailable := by
  refine (looks_has .ocrEngine).bind fun engine => ?_
  cases engine with
  | true => exact looks_has .rasterizer
  | false => exact looks_pure false

theorem looks_survey : Looks survey := by
  refine (looks_has .textExtractor).bind fun text => ?_
  refine (looks_has .rasterizer).bind fun raster => ?_
  exact (looks_has .ocrEngine).bind fun engine => looks_pure _

theorem looks_capabilities : Looks capabilities := by
  intro t
  unfold capabilities
  cases t.record.all with
  | some c => exact ⟨[], grows_nil rfl rfl rfl⟩
  | none =>
    obtain ⟨found, hfound⟩ := looks_survey t
    exact ⟨found, hfound.installed, hfound.known, hfound.lookups, hfound.nodup, hfound.unknown⟩

theorem looks_ask (q : Question) : Looks q.ask := by
  cases q with
  | has tool => exact (looks_has tool).map Reply.answer
  | pdfOcr => exact looks_pdfOcrAvailable.map Reply.answer
  | imageOcr => exact (looks_has .ocrEngine).map Reply.answer
  | capabilities => exact looks_capabilities.map Reply.record

/-- The record says what is known of each tool, whether it is new or not. -/
theorem lookup_capabilities (t : Tools) (tool : Tool) :
    (capabilities t).2.known.lookup tool = some ((capabilities t).1.has tool) := by
  unfold capabilities
  cases hrecord : t.record.all with
  | some c => exact t.record.lookup_all c hrecord tool
  | none => exact lookup_survey t tool

/-- A reply is what is known afterwards. -/
theorem reply_of_known {present : Tool → Bool} (q : Question)
    (h : ∀ tool answer, (q.ask t).2.known.lookup tool = some answer → answer = present tool) :
    (q.ask t).1 = q.reply present ∧
      ∀ tool ∈ q.rests present, (q.ask t).2.known.lookup tool = some (present tool) := by
  have hfound : ∀ tool answer, (q.ask t).2.known.lookup tool = some answer →
      (q.ask t).2.known.lookup tool = some (present tool) := by
    intro tool answer hanswer
    rw [hanswer, h tool answer hanswer]
  cases q with
  | has tool =>
    have hanswer : ((Question.has tool).ask t).2.known.lookup tool = some (has tool t).1 :=
      lookup_has tool t
    refine ⟨congrArg Reply.answer (h tool _ hanswer), ?_⟩
    simpa [Question.rests] using hfound tool _ hanswer
  | imageOcr =>
    have hanswer : (Question.imageOcr.ask t).2.known.lookup .ocrEngine =
        some (has .ocrEngine t).1 := lookup_has .ocrEngine t
    refine ⟨congrArg Reply.answer (h .ocrEngine _ hanswer), ?_⟩
    simpa [Question.rests] using hfound .ocrEngine _ hanswer
  | capabilities =>
    have hanswer : ∀ tool, (Question.capabilities.ask t).2.known.lookup tool =
        some ((capabilities t).1.has tool) := lookup_capabilities t
    refine ⟨congrArg Reply.record (eq_recordOf fun tool => h tool _ (hanswer tool)), ?_⟩
    intro tool _
    exact hfound tool _ (hanswer tool)
  | pdfOcr =>
    have hask : ((Question.pdfOcr.ask t).1, (Question.pdfOcr.ask t).2) =
        (Reply.answer (pdfOcrAvailable t).1, (pdfOcrAvailable t).2) := rfl
    obtain ⟨hreply, hafter⟩ := Prod.mk.inj hask
    have hengine := lookup_has .ocrEngine t
    rw [hafter] at h hfound
    rw [hreply, hafter]
    cases hcase : (has .ocrEngine t).1 with
    | false =>
      rw [hcase] at hengine
      rw [pdfOcrAvailable_eq, hcase, if_neg Bool.false_ne_true] at h hfound ⊢
      have hpresent := h .ocrEngine _ hengine
      simp [Question.reply, Question.rests, ← hpresent, hengine]
    | true =>
      rw [hcase] at hengine
      rw [pdfOcrAvailable_eq, hcase, if_pos rfl] at h hfound ⊢
      have hraster := lookup_has .rasterizer (has .ocrEngine t).2
      have hengine' := lookup_has_of_known hengine .rasterizer
      have hpresent := h .ocrEngine _ hengine'
      have hpresent' := h .rasterizer _ hraster
      simp [Question.reply, Question.rests, ← hpresent, ← hpresent', hengine', hraster]

/-! ## Histories -/

/-- What may happen to the tools and to what is known about them. -/
inductive Event where
  | asked (q : Question)
  /-- From now on these programs are installed. -/
  | installed (names : List String)
  | forgotten
  deriving DecidableEq, Repr

/-- The tools after an event. -/
def Event.after (t : Tools) : Event → Tools
  | asked q => (q.ask t).2
  | installed names => { t with installed := names }
  | forgotten => t.forget

/-- The look-ups of an event, with whether the tool was installed then. -/
def Event.seen (t : Tools) (e : Event) : List (Tool × Bool) :=
  ((e.after t).lookups.drop t.lookups.length).map fun tool =>
    (tool, t.installed.contains tool.name)

/-- The reply to an event that is a question. -/
def Event.told (t : Tools) : Event → List (Question × Reply)
  | asked q => [(q, (q.ask t).1)]
  | installed _ => []
  | forgotten => []

/-- The tools after a history. -/
def after (t : Tools) (history : List Event) : Tools := history.foldl Event.after t

/-- The look-ups of a history, in order. -/
def seen (t : Tools) : List Event → List (Tool × Bool)
  | [] => []
  | e :: rest => e.seen t ++ seen (e.after t) rest

/-- The replies of a history, in order. -/
def told (t : Tools) : List Event → List (Question × Reply)
  | [] => []
  | e :: rest => e.told t ++ told (e.after t) rest

/-- An event that forgets nothing adds its look-ups to what is known. -/
theorem known_event {e : Event} (he : e ≠ .forgotten) :
    (e.after t).known = t.known ++ e.seen t ∧
      (e.after t).lookups = t.lookups ++ (e.seen t).map Prod.fst ∧
      ((t.known.map Prod.fst).Nodup → ((e.after t).known.map Prod.fst).Nodup) := by
  cases e with
  | forgotten => exact absurd rfl he
  | installed names => simp [Event.after, Event.seen]
  | asked q =>
    obtain ⟨found, hfound⟩ := looks_ask q t
    have hseen : (Event.asked q).seen t =
        found.map fun tool => (tool, t.installed.contains tool.name) := by
      unfold Event.seen Event.after
      rw [hfound.lookups, List.drop_left]
    have hnames : ((Event.asked q).seen t).map Prod.fst = found := by
      rw [hseen, List.map_map]
      exact List.map_id found
    refine ⟨hseen ▸ hfound.known, hnames.symm ▸ hfound.lookups, fun hnodup => ?_⟩
    show ((q.ask t).2.known.map Prod.fst).Nodup
    rw [hfound.known, ← hseen, List.map_append, hnames, List.nodup_append]
    refine ⟨hnodup, hfound.nodup, ?_⟩
    intro a ha b hb hab
    obtain ⟨entry, hentry, rfl⟩ := List.mem_map.1 ha
    have hne := List.lookup_eq_none_iff.1 (hfound.unknown b hb) entry hentry
    simp [hab] at hne

/-- In an epoch what is known is what was known before it and what was looked
up in it. -/
theorem known_after {epoch : List Event} (h : .forgotten ∉ epoch) :
    (t.after epoch).known = t.known ++ t.seen epoch ∧
      (t.after epoch).lookups = t.lookups ++ (t.seen epoch).map Prod.fst ∧
      ((t.known.map Prod.fst).Nodup → ((t.after epoch).known.map Prod.fst).Nodup) := by
  induction epoch generalizing t with
  | nil => simp [after, seen]
  | cons e rest ih =>
    rw [List.mem_cons, not_or] at h
    obtain ⟨hknown, hlookups, hnodup⟩ := known_event (t := t) (Ne.symm h.1)
    obtain ⟨hknown', hlookups', hnodup'⟩ := ih (t := e.after t) h.2
    refine ⟨?_, ?_, fun hstart => hnodup' (hnodup hstart)⟩
    · show ((e.after t).after rest).known = _
      rw [hknown', hknown, seen, List.append_assoc]
    · show ((e.after t).after rest).lookups = _
      rw [hlookups', hlookups, seen, List.map_append, List.append_assoc]

/-- In an epoch every reply is what is known at its end. -/
theorem told_after {epoch : List Event} (h : .forgotten ∉ epoch) {present : Tool → Bool}
    (hpresent : ∀ tool answer, (t.after epoch).known.lookup tool = some answer →
      answer = present tool) :
    ∀ a ∈ t.told epoch, a.2 = a.1.reply present ∧
      ∀ tool ∈ a.1.rests present, (t.after epoch).known.lookup tool = some (present tool) := by
  induction epoch generalizing t with
  | nil => simp [told]
  | cons e rest ih =>
    rw [List.mem_cons, not_or] at h
    intro a ha
    rw [told, List.mem_append] at ha
    rcases ha with hhere | hlater
    · -- What is known after the question is still known at the end.
      have hlater : ∀ tool answer, (e.after t).known.lookup tool = some answer →
          (t.after (e :: rest)).known.lookup tool = some answer := by
        intro tool answer hanswer
        show ((e.after t).after rest).known.lookup tool = some answer
        rw [(known_after h.2).1, List.lookup_append, hanswer, Option.some_or]
      cases e with
      | installed names => simp [Event.told] at hhere
      | forgotten => simp [Event.told] at hhere
      | asked q =>
        obtain rfl := List.mem_singleton.1 hhere
        obtain ⟨hreply, hrests⟩ := reply_of_known (t := t) q fun tool answer hanswer =>
          hpresent tool answer (hlater tool answer hanswer)
        exact ⟨hreply, fun tool htool => hlater tool _ (hrests tool htool)⟩
    · exact ih (t := e.after t) h.2 hpresent a hlater

/-- Where no tool is listed twice, a tool is known as it is listed. -/
theorem lookup_of_mem {known : List (Tool × Bool)} (h : (known.map Prod.fst).Nodup) {tool : Tool}
    {answer : Bool} (hmem : (tool, answer) ∈ known) : known.lookup tool = some answer := by
  induction known with
  | nil => simp at hmem
  | cons entry rest ih =>
    rw [List.map_cons, List.nodup_cons] at h
    rcases List.mem_cons.1 hmem with rfl | hrest
    · simp
    · have hne : tool ≠ entry.1 := by
        rintro rfl
        exact h.1 (List.mem_map.2 ⟨_, hrest, rfl⟩)
      rw [List.lookup_cons, beq_false_of_ne hne]
      exact ih h.2 hrest

theorem mem_of_lookup {known : List (Tool × Bool)} {tool : Tool} {answer : Bool}
    (h : known.lookup tool = some answer) : (tool, answer) ∈ known := by
  obtain ⟨before, after, rfl, -⟩ := List.lookup_eq_some_iff.1 h
  simp

/-- Nothing is known at the start and after a forgetting. -/
theorem known_of_begins {names : List String} {before : List Event}
    (h : before = [] ∨ before.getLast? = some .forgotten) :
    (Tools.after { installed := names } before).known = [] := by
  rcases h with rfl | hlast
  · rfl
  · obtain ⟨rest, rfl⟩ := List.getLast?_eq_some_iff.1 hlast
    unfold after
    rw [List.foldl_append]
    rfl

/-- The look of a workshop at its tools is a question for the record. -/
theorem asked_survey {s : Workshop} (hfirst : s.surveyed = false) {mime : String}
    (hmime : (Mime.isPdf mime || Mime.isImage mime) = true) :
    (Workshop.survey mime s).2.site.tools = (Event.asked .capabilities).after s.site.tools ∧
      (Event.asked .capabilities).told s.site.tools =
        [(.capabilities, .record (Workshop.survey mime s).2.bench.capabilities)] := by
  unfold Workshop.survey
  rw [hfirst, hmime]
  exact ⟨rfl, rfl⟩

/-- The pages of a document can be read by a workbench with a record exactly if
a batch run is told so. -/
theorem canReadPages_of_reply {present : Tool → Bool} {w : Workbench}
    (hw : w.capabilities = recordOf present) {mime : String}
    (hmime : Mime.isPdf mime = true ∨ Mime.isImage mime = true) :
    (Question.ofPages mime).reply present = .answer (w.canReadPages mime) := by
  unfold Workbench.canReadPages Question.ofPages
  rw [hw]
  cases hpdf : Mime.isPdf mime with
  | true =>
    have himage := Mime.isImage_eq_false_of_isPdf hpdf
    simp [himage, recordOf, Capabilities.readsPdf, Question.reply]
  | false =>
    have himage := hmime.resolve_left (by simp [hpdf])
    simp [himage, recordOf, Capabilities.readsImages, Question.reply]

/-- A record agrees with the replies to all other questions, and a workbench
that works with it reads the pages of a document exactly if a batch run does. -/
structure Agrees (replies : List (Question × Reply)) (c : Capabilities) : Prop where
  has : ∀ tool yes, (.has tool, .answer yes) ∈ replies → yes = c.has tool
  pdfOcr : ∀ yes, (.pdfOcr, .answer yes) ∈ replies → yes = c.readsPdf
  imageOcr : ∀ yes, (.imageOcr, .answer yes) ∈ replies → yes = c.readsImages
  record : ∀ c', (.capabilities, .record c') ∈ replies → c' = c
  workbench : ∀ (w : Workbench) mime yes, w.capabilities = c →
    (Mime.isPdf mime = true ∨ Mime.isImage mime = true) →
      (.ofPages mime, .answer yes) ∈ replies → w.canReadPages mime = yes

theorem agrees_of_replies {replies : List (Question × Reply)} {present : Tool → Bool}
    (h : ∀ a ∈ replies, a.2 = a.1.reply present) : Agrees replies (recordOf present) := by
  refine ⟨?_, ?_, ?_, ?_, ?_⟩
  · intro tool yes hmem
    have hyes := Reply.answer.inj (h _ hmem)
    cases tool <;> exact hyes
  · intro yes hmem
    exact Reply.answer.inj (h _ hmem)
  · intro yes hmem
    exact Reply.answer.inj (h _ hmem)
  · intro c hmem
    exact Reply.record.inj (h _ hmem)
  · intro w mime yes hw hmime hmem
    have hreply := (h _ hmem).trans (canReadPages_of_reply hw hmime)
    exact (Reply.answer.inj hreply).symm

/-- From the start or a forgetting to the next one every tool is looked up at
most once, every reply is what its look-ups have seen, and the record of all
tools agrees with every other reply. -/
theorem consistent_of_epoch (names : List String) {before epoch : List Event}
    (hbefore : before = [] ∨ before.getLast? = some .forgotten) (hepoch : .forgotten ∉ epoch) :
    let t := Tools.after { installed := names } before
    (t.after epoch).lookups = t.lookups ++ (t.seen epoch).map Prod.fst ∧
      ((t.seen epoch).map Prod.fst).Nodup ∧
      (∃ present : Tool → Bool, (∀ look ∈ t.seen epoch, look.2 = present look.1) ∧
        ∀ a ∈ t.told epoch, a.2 = a.1.reply present ∧
          ∀ tool ∈ a.1.rests present, (tool, present tool) ∈ t.seen epoch) ∧
      ∀ c, (.capabilities, .record c) ∈ t.told epoch → Agrees (t.told epoch) c := by
  intro t
  have hstart : t.known = [] := known_of_begins hbefore
  obtain ⟨hknown, hlookups, hnodup⟩ := known_after (t := t) hepoch
  rw [hstart] at hknown hnodup
  rw [List.nil_append] at hknown
  have honce : ((t.seen epoch).map Prod.fst).Nodup := hknown ▸ hnodup List.nodup_nil
  -- What is known at the end stands for what is there.
  let present (tool : Tool) : Bool := ((t.after epoch).known.lookup tool).getD false
  have hpresent : ∀ tool answer, (t.after epoch).known.lookup tool = some answer →
      answer = present tool := by
    intro tool answer hanswer
    show answer = ((t.after epoch).known.lookup tool).getD false
    rw [hanswer, Option.getD_some]
  have htold := told_after hepoch hpresent
  refine ⟨hlookups, honce, ⟨present, ?_, ?_⟩, ?_⟩
  · rintro ⟨tool, answer⟩ hmem
    exact hpresent tool answer (hknown ▸ lookup_of_mem honce hmem)
  · intro a ha
    refine ⟨(htold a ha).1, fun tool htool => ?_⟩
    exact hknown ▸ mem_of_lookup ((htold a ha).2 tool htool)
  · intro c hc
    obtain rfl := Reply.record.inj (htold _ hc).1
    exact agrees_of_replies fun a ha => (htold a ha).1

/-- The engine comes and goes while the tools are asked about. -/
def turbulent : List Event :=
  [.asked .pdfOcr, .installed ["tesseract"], .asked .capabilities, .installed ["pdftoppm"],
    .asked .imageOcr, .asked .pdfOcr, .asked (.has .ocrEngine)]

theorem consistent_of_turbulent :
    [Event.asked .imageOcr, .forgotten].getLast? = some .forgotten ∧ .forgotten ∉ turbulent ∧
      let t := Tools.after { installed := ["pdftotext"] } [.asked .imageOcr, .forgotten]
      t.seen turbulent = [(.ocrEngine, false), (.textExtractor, false), (.rasterizer, false)] ∧
        (.capabilities, .record ⟨false, false, false⟩) ∈ t.told turbulent ∧
        Agrees (t.told turbulent) ⟨false, false, false⟩ := by
  have hbefore : [Event.asked .imageOcr, .forgotten].getLast? = some .forgotten := by decide
  have hepoch : .forgotten ∉ turbulent := by decide
  obtain ⟨-, -, -, hagrees⟩ := consistent_of_epoch ["pdftotext"] (.inr hbefore) hepoch
  exact ⟨hbefore, hepoch, by decide, by decide, hagrees _ (by decide)⟩

end Intake.Tools
