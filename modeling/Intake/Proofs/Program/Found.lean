import Intake.Proofs.Program.Courses
import Intake.Proofs.Program.Toolset

/-!
# Tools that are found

A program is started only when a look-up has found it.  A look-up answers as
it would have answered before, whatever was looked up since.

There are three groups.

* Look-ups.  `Tools.finds` is the answer of a look-up; `Tools.Steady` says
  that a question about tools changes no such answer.
* Starts.  `Site.StartsFound` says that nothing but found tools was started;
  `Shell.keepsFound_run` is the rule for a program.
* Layers.  `keepsFound_extract` and `keepsFound_read` are the results.  They
  also say which tools a layer that fails has found.
-/

namespace Intake

/-! ## Look-ups -/

namespace Tools

variable {α β : Type} {t : Tools}

/-- A look-up finds a tool. -/
def finds (t : Tools) (tool : Tool) : Bool := (has tool t).1

theorem finds_of_honest (h : t.Honest) (tool : Tool) :
    t.finds tool = t.installed.contains tool.name := (answers_has tool t h).1

/-- A question changes no answer of a look-up. -/
def Steady (question : StateM Tools α) : Prop :=
  ∀ t tool, (question t).2.finds tool = t.finds tool

theorem steady_pure (a : α) : Steady (pure a) := fun _ _ => rfl

theorem Steady.bind {question : StateM Tools α} {next : α → StateM Tools β}
    (h : Steady question) (hnext : ∀ a, Steady (next a)) : Steady (question >>= next) :=
  fun t tool => (hnext _ _ tool).trans (h t tool)

theorem steady_has (other : Tool) : Steady (has other) := by
  intro t tool
  cases hknown : t.known.lookup other with
  | some answer => rw [has, hknown]
  | none =>
    rw [finds, finds, has, has, has, hknown]
    dsimp only
    rw [List.lookup_append]
    cases hfound : t.known.lookup tool with
    | some answer => rfl
    | none =>
      rw [Option.none_or, List.lookup_cons]
      by_cases heq : tool = other
      · rw [heq, beq_self_eq_true]
      · rw [beq_false_of_ne heq]
        rfl

theorem steady_pdfOcrAvailable : Steady pdfOcrAvailable := by
  refine (steady_has .ocrEngine).bind fun engine => ?_
  cases engine with
  | true => exact steady_has .rasterizer
  | false => exact steady_pure false

/-- The tools that reading the pages of a document takes. -/
def FindsReaders (finds : Tool → Bool) (mime : String) : Prop :=
  finds .ocrEngine = true ∧ (Mime.isPdf mime = true → finds .rasterizer = true)

/-- The pages of a document are read only with the tools for it. -/
theorem findsReaders_of_available (t : Tools) (mime : String)
    (h : ((if Mime.isPdf mime then pdfOcrAvailable else imageOcrAvailable) t).1 = true) :
    FindsReaders t.finds mime := by
  cases hpdf : Mime.isPdf mime with
  | false =>
    rw [hpdf, if_neg Bool.false_ne_true] at h
    exact ⟨h, fun hpdf' => Bool.noConfusion (hpdf.symm.trans hpdf')⟩
  | true =>
    rw [hpdf, if_pos rfl] at h
    cases hengine : t.finds .ocrEngine with
    | false =>
      have hno : (pdfOcrAvailable t).1 = false := by
        show ((if (has .ocrEngine t).1 then has .rasterizer else pure false :
          StateM Tools Bool) (has .ocrEngine t).2).1 = false
        rw [show (has .ocrEngine t).1 = false from hengine]
        rfl
      exact Bool.noConfusion (hno.symm.trans h)
    | true =>
      have hraster : (pdfOcrAvailable t).1 = ((has .ocrEngine t).2).finds .rasterizer := by
        show ((if (has .ocrEngine t).1 then has .rasterizer else pure false :
          StateM Tools Bool) (has .ocrEngine t).2).1 = _
        rw [show (has .ocrEngine t).1 = true from hengine]
        rfl
      rw [hraster, steady_has] at h
      exact ⟨hengine, fun _ => h⟩

end Tools

/-! ## Starts -/

namespace Site

/-- Look-ups answer as they do here, and nothing but tools that they find was
started since these calls. -/
structure StartsFound (finds : Tool → Bool) (before : List (List String)) (s : Site) : Prop where
  answers : ∀ tool, s.tools.finds tool = finds tool
  started : ∃ later, s.calls.map Call.arguments = before ++ later ∧
    ∀ words ∈ later, ∃ tool : Tool, words.head? = some tool.name ∧ finds tool = true

variable {finds : Tool → Bool} {before : List (List String)} {s t : Site}

theorem startsFound_self (s : Site) :
    s.StartsFound s.tools.finds (s.calls.map Call.arguments) :=
  ⟨fun _ => rfl, [], (List.append_nil _).symm, fun _ h => by cases h⟩

theorem StartsFound.congr (h : s.StartsFound finds before) (htools : t.tools = s.tools)
    (hcalls : t.calls.map Call.arguments = s.calls.map Call.arguments) :
    t.StartsFound finds before := by
  refine ⟨?_, ?_⟩
  · rw [htools]
    exact h.answers
  · rw [hcalls]
    exact h.started

theorem StartsFound.ask (h : s.StartsFound finds before) {α : Type} {question : StateM Tools α}
    (hquestion : Tools.Steady question) : (s.ask question).2.StartsFound finds before := by
  refine ⟨fun tool => (hquestion s.tools tool).trans (h.answers tool), ?_⟩
  rw [(rests_ask question).calls]
  exact h.started

/-- One more call, of a tool that is found. -/
theorem StartsFound.call (h : s.StartsFound finds before) {r : Request} {tool : Tool}
    (hprogram : r.program = tool.name) (hfound : finds tool = true) (htools : t.tools = s.tools)
    {stops : Nat} (hcalls : t.calls = s.calls ++ [⟨r.words, stops⟩]) :
    t.StartsFound finds before := by
  refine ⟨by rw [htools]; exact h.answers, ?_⟩
  obtain ⟨later, hlater, hstarted⟩ := h.started
  refine ⟨later ++ [r.words], ?_, fun words hwords => ?_⟩
  · rw [hcalls, List.map_append, hlater, List.append_assoc]
    rfl
  · rcases List.mem_append.1 hwords with hwords | hwords
    · exact hstarted words hwords
    · obtain rfl := List.mem_singleton.1 hwords
      exact ⟨tool, by rw [Request.words, hprogram]; rfl, hfound⟩

theorem arguments_stopLatest (s : Site) :
    s.stopLatest.calls.map Call.arguments = s.calls.map Call.arguments := by
  rw [stopLatest, stopCall]
  refine List.ext_getElem? fun i => ?_
  rw [List.getElem?_map, List.getElem?_map, List.getElem?_modify]
  split <;> cases s.calls[i]? <;> rfl

end Site

namespace Shell

variable {finds : Tool → Bool} {before : List (List String)} {E : Fault → Prop}

theorem keepsFound_ask {α : Type} {question : StateM Tools α} (h : Tools.Steady question) :
    Keeps (Site.StartsFound finds before) E (ask question) := fun _ hs =>
  ⟨hs.ask h, fun _ he => by cases he⟩

theorem keepsFound_check : Keeps (Site.StartsFound finds before) (fun _ => True) check :=
  fun _ hs => ⟨hs, fun _ _ => trivial⟩

/-- A tool that is found may be run. -/
theorem keepsFound_run {r : Request} {tool : Tool} (hprogram : r.program = tool.name)
    (hfound : finds tool = true) :
    Keeps (Site.StartsFound finds before) (fun _ => True) (run r) := by
  have hlaunch : Keeps (Site.StartsFound finds before) (fun _ => True) (launch r) := by
    refine fun s hs => ⟨?_, fun _ _ => trivial⟩
    rw [launch]
    dsimp only
    split
    · exact hs.call hprogram hfound rfl rfl
    · exact hs.call hprogram hfound rfl rfl
  refine keepsFound_check.bind fun _ => hlaunch.bind fun script => ?_
  refine fun s hs => ⟨?_, fun _ _ => trivial⟩
  rw [await_eq]
  cases courseOf s r script with
  | ended => exact hs.congr rfl rfl
  | cancelled => exact hs.congr rfl (Site.arguments_stopLatest _)
  | timedOut => exact hs.congr rfl (Site.arguments_stopLatest _)
  | waiting => exact hs.congr rfl (Site.arguments_stopLatest _)

/-- A call of a model starts no program. -/
theorem startsFound_complete {s : Site} (h : s.StartsFound finds before) (client : ChatClient)
    (messages : List Message) :
    (complete client messages s).2.StartsFound finds before := by
  rw [complete]
  rcases s.desk.complete client.model messages with ⟨answer, seconds, desk⟩
  cases answer with
  | ok reply => exact h.congr rfl rfl
  | error e => exact h.congr rfl rfl

theorem keepsFound_note (source : Source) (level : Level) (text : String) :
    Keeps (Site.StartsFound finds before) E (note source level text) :=
  Keeps.change fun _ hs => hs.congr rfl rfl

end Shell

/-! ## Layers -/

section Layers

variable {finds : Tool → Bool} {before : List (List String)}

/-- The text layer starts its program only when it is found, and it fails only
for a document that it starts it for. -/
theorem keepsFound_extract (data : Text.Utf8.Bytes) (mime : String) (bound : Option Float) :
    Shell.Keeps (Site.StartsFound finds before)
      (fun _ => Mime.isPdf mime = true ∧ finds .textExtractor = true)
      (TextLayer.extract data mime bound) := by
  rw [TextLayer.extract]
  refine .ite (.pure _) ?_
  cases hpdf : Mime.isPdf mime with
  | false =>
    rw [if_neg Bool.false_ne_true]
    exact .ite (.pure _) (.pure _)
  | true =>
    rw [if_pos rfl]
    refine (Shell.keepsFound_ask (Tools.steady_has _)).bind_of fun s available t hs hasked => ?_
    have ht : t.StartsFound finds before := by
      have hkept := hs.ask (Tools.steady_has .textExtractor)
      rwa [show (s.ask (Tools.has .textExtractor)).2 = t from congrArg Prod.snd hasked] at hkept
    cases available with
    | false => exact Shell.Keeps.pure "" t ht
    | true =>
      have hfound : finds .textExtractor = true := by
        rw [← hs.answers]
        exact Except.ok.inj (congrArg Prod.fst hasked)
      refine Shell.Keeps.mono (E := fun _ => True) ?_ (fun _ _ => ⟨rfl, hfound⟩) t ht
      refine Shell.Keeps.get.bind fun site => (Shell.keepsFound_run rfl hfound).bind fun made => ?_
      exact (Shell.keepsFound_note _ _ _).bind fun _ => .pure _

theorem keepsFound_readImage (hfound : finds .ocrEngine = true) (image : String) :
    Shell.Keeps (Site.StartsFound finds before) (fun _ => True) (PageReading.readImage image) := by
  refine (Shell.keepsFound_run rfl hfound).bind fun made => ?_
  cases PageReading.pageOf made.output with
  | ok page => exact .pure page
  | error e => exact .throw trivial

theorem keepsFound_readImages (hfound : finds .ocrEngine = true) (total page : Nat)
    (images : List String) :
    Shell.Keeps (Site.StartsFound finds before) (fun _ => True)
      (PageReading.readImages total page images) := by
  induction images generalizing page with
  | nil => exact .pure _
  | cons image rest ih =>
    have hread : Shell.Keeps (Site.StartsFound finds before) (fun _ => True)
        (PageReading.readOrSkip page total image) := by
      refine (keepsFound_readImage hfound image).map.tryCatch fun e _ => .ite ?_ (.throw trivial)
      exact (Shell.keepsFound_note _ _ _).bind fun _ => .pure _
    refine Shell.keepsFound_check.bind fun _ => hread.bind fun read => ?_
    exact (ih (page + 1)).bind fun later => .pure _

/-- With the tools for it, pages are read with nothing but found tools. -/
theorem keepsFound_read {mime : String} (hfinds : Tools.FindsReaders finds mime)
    (data : Text.Utf8.Bytes) (cap : Int) :
    Shell.Keeps (Site.StartsFound finds before) (fun _ => True)
      (PageReading.read data mime cap) := by
  obtain ⟨hengine, hraster⟩ := hfinds
  rw [PageReading.read]
  refine .ite (.pure _) ?_
  cases hpdf : Mime.isPdf mime with
  | false =>
    rw [if_neg Bool.false_ne_true]
    refine .ite ?_ (.pure _)
    exact Shell.Keeps.get.bind fun site => (keepsFound_readImage hengine _).map
  | true =>
    rw [if_pos rfl]
    have hrender : Shell.Keeps (Site.StartsFound finds before) (fun _ => True)
        (PageReading.render (PageReading.capInForce cap)) := by
      refine Shell.Keeps.get.bind fun site => ?_
      exact (Shell.keepsFound_run rfl (hraster hpdf)).bind fun made => .pure _
    refine hrender.bind fun found => .ite (.pure _) ?_
    exact (keepsFound_readImages hengine _ _ _).bind fun pages => .pure _

end Layers
end Intake
