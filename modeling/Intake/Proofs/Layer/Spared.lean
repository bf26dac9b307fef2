import Intake.Proofs.Layer.Agreement

/-!
# Pages that are spared

What the pages of a PDF come to when some of them cannot be read.  A page
whose program ends with an error is left out and the others are kept.  A
page whose program cannot be started, or whose table holds a number too long
to be read, ends the whole reading.

There are three groups.

* Starts.  `Site.starts` lists what the next starts of a program will do, and
  `starts_launched` takes one of them off.
* Pages.  `Script.page?` is the page that a start of the engine gives, and
  `Script.fatal?` is the fault for which it ends the reading.
* Documents.  `readImages_eq` is the induction over the pages, and
  `read_of_rendered` is the result.
-/

namespace Intake

open Text

/-! ## Starts -/

namespace Site

variable {s : Site}

/-- What the starts of a program will do, as far as it is known. -/
def queue (s : Site) (program : String) : List Script := (s.scripts.lookup program).getD []

/-- What the next starts of a program will do. -/
def starts (s : Site) (program : String) (n : Nat) : List Script :=
  (List.range n).map fun i => (s.queue program)[i]?.getD {}

theorem takeScript_eq_head (s : Site) (program : String) :
    (s.takeScript program).1 = (s.queue program)[0]?.getD {} := by
  rw [takeScript, queue]
  cases s.scripts.lookup program with
  | none => rfl
  | some scripts => cases scripts <;> rfl

theorem lookup_map {α β : Type} (f : String → α → β) (name : String) (entries : List (String × α)) :
    (entries.map fun p => (p.1, f p.1 p.2)).lookup name = (entries.lookup name).map (f name) := by
  induction entries with
  | nil => rfl
  | cons p rest ih =>
    rw [List.map_cons, List.lookup_cons, List.lookup_cons]
    cases hname : name == p.1 with
    | true =>
      rw [beq_iff_eq] at hname
      rw [hname]
      rfl
    | false => exact ih

theorem queue_launched {program : String} {r : Request} (h : r.program = program) :
    (s.launched r).queue program = (s.queue program).tail := by
  have hlookup := lookup_map
    (fun name scripts => if name == r.program then scripts.tail else scripts) program s.scripts
  rw [queue, launched_eq]
  show ((s.scripts.map fun p =>
    (p.1, if p.1 == r.program then p.2.tail else p.2)).lookup program).getD [] = _
  rw [hlookup, h, queue]
  simp only [beq_self_eq_true, if_true]
  cases s.scripts.lookup program <;> rfl

/-- Starting a program takes its next start off. -/
theorem starts_succ {program : String} {r : Request} (h : r.program = program) (n : Nat) :
    s.starts program (n + 1) =
      (s.takeScript program).1 :: (s.launched r).starts program n := by
  rw [starts, List.range_succ_eq_map, List.map_cons, List.map_map, takeScript_eq_head, starts,
    queue_launched h]
  refine congrArg _ (List.map_congr_left fun i _ => ?_)
  rw [List.getElem?_tail]
  rfl

theorem starts_note (source : Source) (level : Level) (text program : String) (n : Nat) :
    (s.note source level text).starts program n = s.starts program n := rfl

end Site

/-! ## Pages -/

namespace Script

/-- The page that a start of the engine gives. -/
def page? (script : Script) : Option Page :=
  if script.startFault.isNone ∧ script.status = 0 then
    (Page.ofTable (Utf8.decodeString script.output)).toOption
  else none

/-- The fault for which a start of the engine ends the reading of all pages:
it fails, and not as a program that ended with an error, or the program ends
well with a table that holds a number too long to be read. -/
def fatal? (script : Script) : Option Fault :=
  match script.startFault with
  | some e => if e.isTool then none else some e
  | none =>
    if script.status = 0 then
      match Page.ofTable (Utf8.decodeString script.output) with
      | .ok _ => none
      | .error e => some (.plain .value e.message)
    else none

end Script

namespace PageReading

/-- Reading an image gives the page, fails with the fatal fault, or fails with
the fault of a program. -/
theorem pageGiven_cases (script : Script) :
    (∃ page, pageGiven script = .ok page ∧ script.page? = some page ∧ script.fatal? = none) ∨
      (∃ e, pageGiven script = .error e ∧ e.isTool = false ∧ script.fatal? = some e) ∨
        ∃ e, pageGiven script = .error e ∧ e.isTool = true ∧ script.page? = none ∧
          script.fatal? = none := by
  rw [pageGiven, Script.given, Script.page?, Script.fatal?]
  cases hstart : script.startFault with
  | some e =>
    cases he : e.isTool with
    | true => exact Or.inr (Or.inr ⟨e, rfl, he, rfl, by simp [he]⟩)
    | false => exact Or.inr (Or.inl ⟨e, rfl, he, by simp [he]⟩)
  | none =>
    by_cases hstatus : script.status = 0
    · simp only [Script.result, if_pos hstatus, Except.bind, pageOf]
      cases Page.ofTable (Utf8.decodeString script.output) with
      | ok page => exact Or.inl ⟨page, rfl, by simp [hstatus, Except.toOption], rfl⟩
      | error e => exact Or.inr (Or.inl ⟨_, rfl, rfl, rfl⟩)
    · simp only [Script.result, if_neg hstatus]
      exact Or.inr (Or.inr ⟨_, rfl, rfl, by simp [hstatus], trivial⟩)

/-! ## Documents -/

/-- The pages that are read, or the first fault that ends the reading. -/
def sifted (scripts : List Script) : Except Fault (List Page) :=
  match scripts.findSome? Script.fatal? with
  | some e => .error e
  | none => .ok (scripts.filterMap Script.page?)

theorem sifted_cons_of_fatal {script : Script} {e : Fault} (h : script.fatal? = some e)
    (rest : List Script) : sifted (script :: rest) = .error e := by
  rw [sifted, List.findSome?_cons, h]

theorem sifted_cons {script : Script} (h : script.fatal? = none) (rest : List Script) :
    sifted (script :: rest) = (sifted rest).map (script.page?.toList ++ ·) := by
  rw [sifted, List.findSome?_cons, h, sifted]
  cases rest.findSome? Script.fatal? with
  | some e => rfl
  | none =>
    rw [List.filterMap_cons]
    cases script.page? <;> rfl

/-- The engine's next script is the one for the next image. -/
theorem starts_readRequest (s : Site) (image : String) (n : Nat) :
    s.starts Tool.ocrEngine.name (n + 1) =
      nextScript s :: (s.launched (readRequest image)).starts Tool.ocrEngine.name n :=
  Site.starts_succ (r := readRequest image) rfl n

theorem readImages_eq (total : Nat) (images : List String) : ∀ (page : Nat) {s : Site}, s.Steady →
    (readImages total page images s).1 =
      sifted (s.starts Tool.ocrEngine.name images.length) := by
  induction images with
  | nil => exact fun page s h => rfl
  | cons image rest ih =>
    intro page s h
    have hnext := h.launched (readRequest image)
    rw [List.length_cons, starts_readRequest]
    -- An image is read, or is fatal, or is skipped with a note; only a fatal one ends the loop.
    rcases pageGiven_cases (nextScript s) with
      ⟨p, hgiven, hpage, hfatal⟩ | ⟨e, hgiven, htool, hfatal⟩ | ⟨e, hgiven, htool, hpage, hfatal⟩
    · have hread := readOrSkip_of_ok page total image h hgiven
      rw [readImages_cons_of_ok page total image h.unfired hread, ih (page + 1) hnext,
        sifted_cons hfatal, hpage]
    · have hread := readOrSkip_of_not_tool page total image h hgiven htool
      rw [readImages_cons_of_error page total image h.unfired hread, sifted_cons_of_fatal hfatal]
    · have hread := readOrSkip_of_tool page total image h hgiven htool
      have hnoted : ((s.launched (readRequest image)).note .pages .warning
          (skipText page total e)).Steady := hnext.congr rfl rfl rfl
      rw [readImages_cons_of_ok page total image h.unfired hread, ih (page + 1) hnoted,
        Site.starts_note, sifted_cons hfatal, hpage]

/-- The start of the engine for an image. -/
def readCall (image : String) : Call := ⟨(readRequest image).words, 0⟩

/-- Without a fatal fault every image is handed to the engine once, in order. -/
theorem calls_readImages (total : Nat) (images : List String) : ∀ (page : Nat) {s : Site},
    s.Steady → (s.starts Tool.ocrEngine.name images.length).findSome? Script.fatal? = none →
      (readImages total page images s).2.calls = s.calls ++ images.map readCall := by
  induction images with
  | nil => exact fun page s h _ => (List.append_nil _).symm
  | cons image rest ih =>
    intro page s h hfatal
    have hnext := h.launched (readRequest image)
    have hcalls : (s.launched (readRequest image)).calls = s.calls ++ [readCall image] := by
      rw [Site.launched_eq, readCall]
    rw [List.length_cons, starts_readRequest, List.findSome?_cons] at hfatal
    rcases pageGiven_cases (nextScript s) with
      ⟨p, hgiven, -, hnone⟩ | ⟨e, -, -, hsome⟩ | ⟨e, hgiven, htool, -, hnone⟩
    · rw [hnone] at hfatal
      have hread := readOrSkip_of_ok page total image h hgiven
      rw [readImages_cons_of_ok page total image h.unfired hread, ih (page + 1) hnext hfatal,
        hcalls, List.append_assoc, List.map_cons]
      rfl
    · rw [hsome] at hfatal
      cases hfatal
    · rw [hnone] at hfatal
      have hnoted : ((s.launched (readRequest image)).note .pages .warning
          (skipText page total e)).Steady := hnext.congr rfl rfl rfl
      have hrest := ih (page + 1) hnoted hfatal
      rw [readImages_cons_of_ok page total image h.unfired
        (readOrSkip_of_tool page total image h hgiven htool), hrest]
      show (s.launched (readRequest image)).calls ++ _ = _
      rw [hcalls, List.append_assoc, List.map_cons]
      rfl

theorem steady_of_render {s t : Site} (h : s.Steady) {cap : Int} {found : List String}
    (hrender : render cap s = (.ok found, t)) : t.Steady := by
  have hsite := congrArg Prod.snd (hrender.symm.trans (render_of_steady h cap))
  have hlaunched : t = s.launched (renderRequest s.scratch cap) := hsite
  rw [hlaunched]
  exact h.launched _

/-- The pages of a rendered PDF come to what the starts of the engine for them
come to. -/
theorem readPdf_eq {s t : Site} (h : s.Steady) {cap : Int} {found : List String}
    (hrender : render cap s = (.ok found, t)) :
    readPdf cap s = ((sifted (t.starts Tool.ocrEngine.name found.length)).map Pages.merge,
      (readImages found.length 1 found t).2) := by
  rw [readPdf, Shell.bind_of_ok hrender]
  cases found with
  | nil =>
    have hmerge : Pages.merge [] = {} := by decide +kernel
    show (Except.ok ({} : Page), t) = (.ok (Pages.merge []), t)
    rw [hmerge]
  | cons image rest =>
    rw [List.isEmpty_cons, if_neg Bool.false_ne_true, Shell.bind_pure_eq,
      readImages_eq _ _ _ (steady_of_render h hrender)]

theorem read_pdf {data : Utf8.Bytes} (hdata : data ≠ []) {mime : String}
    (hmime : Mime.isPdf mime = true) (cap : Int) :
    read data mime cap = readPdf (capInForce cap) := by
  have hempty : data.isEmpty = false := List.isEmpty_eq_false_iff.2 hdata
  rw [read, hempty, if_neg Bool.false_ne_true, if_pos hmime]

/-- The reading of a PDF that was rendered at a steady site.  If no page has a
fatal fault, the pages of which the engine ends with an error are left out and
the others are merged in page order; every image is handed to the engine once.
Otherwise the reading ends with the first fatal fault. -/
theorem read_of_rendered {s t : Site} (h : s.Steady) {data : Utf8.Bytes} (hdata : data ≠ [])
    {mime : String} (hmime : Mime.isPdf mime = true) {cap : Int} {found : List String}
    (hrender : render (capInForce cap) s = (.ok found, t)) :
    match (t.starts Tool.ocrEngine.name found.length).findSome? Script.fatal? with
    | none =>
      (read data mime cap s).1 = .ok (Pages.merge
          ((t.starts Tool.ocrEngine.name found.length).filterMap Script.page?)) ∧
        (read data mime cap s).2.calls = t.calls ++ found.map readCall
    | some e => (read data mime cap s).1 = .error e := by
  have hcalls := calls_readImages found.length found 1 (steady_of_render h hrender)
  rw [read_pdf hdata hmime, readPdf_eq h hrender, sifted]
  cases hfatal : (t.starts Tool.ocrEngine.name found.length).findSome? Script.fatal? with
  | some e => rfl
  | none => exact ⟨rfl, hcalls hfatal⟩

/-- A token table with one word. -/
def wordTable : String := "level\n\t\t1\t1\t1\t\t\t\t\t\t\tHi"

/-- A site at which two pages are rendered.  The second of them holds a word. -/
def rendered (first : Script) : Site where
  scratch := "/scratch"
  scripts := [(Tool.rasterizer.name, [{ pages := some 2 }]),
    (Tool.ocrEngine.name, [first, { output := Utf8.encode wordTable }])]

theorem steady_rendered {first : Script} (h : first.IsCalm false) : (rendered first).Steady := by
  refine ⟨rfl, rfl, ?_⟩
  intro p hp script hscript
  rcases List.mem_cons.1 hp with rfl | hp
  · obtain rfl := List.mem_singleton.1 hscript
    exact ⟨Ending.noConfusion, nofun⟩
  · obtain rfl := List.mem_singleton.1 hp
    rcases List.mem_cons.1 hscript with rfl | hscript
    · exact h
    · obtain rfl := List.mem_singleton.1 hscript
      exact ⟨Ending.noConfusion, nofun⟩

/-- Two images are found there, and the engine is to be started for both. -/
theorem render_rendered {first : Script} (h : first.IsCalm false) : ∃ found t,
    render (capInForce 0) (rendered first) = (.ok found, t) ∧
      t.starts Tool.ocrEngine.name found.length =
        [first, { output := Utf8.encode wordTable }] := by
  have hrender := render_of_steady (steady_rendered h) (capInForce 0)
  have hlength : (images "/scratch" (Script.files { pages := some 2 }
      (renderRequest "/scratch" (capInForce 0)))).length = 2 :=
    (images_perm _ _).length_eq.trans (by decide +kernel)
  refine ⟨images "/scratch" (Script.files { pages := some 2 }
    (renderRequest "/scratch" (capInForce 0))), _, hrender, ?_⟩
  rw [hlength]
  rfl

theorem fatal?_word : Script.fatal? { output := Utf8.encode wordTable } = none :=
  Option.isNone_iff_eq_none.1 (by decide +kernel)

theorem page?_word :
    Script.page? { output := Utf8.encode wordTable } = some ⟨"Hi", wordTable⟩ := by
  decide +kernel

/-- The engine ends with an error on the first page.  The second one is kept. -/
theorem read_rendered_failed :
    (read [37] "application/pdf" 0 (rendered { status := 1 })).1 = .ok ⟨"Hi", wordTable⟩ := by
  have hcalm : Script.IsCalm { status := 1 } false := ⟨Ending.noConfusion, nofun⟩
  have hdata : ([37] : Utf8.Bytes) ≠ [] := by decide
  have hmime : Mime.isPdf "application/pdf" = true := by decide
  have hmerge : Pages.merge [⟨"Hi", wordTable⟩] = ⟨"Hi", wordTable⟩ := by decide +kernel
  obtain ⟨found, t, hrender, hstarts⟩ := render_rendered hcalm
  have hread := read_of_rendered (steady_rendered hcalm) hdata hmime hrender
  have hfirst : Script.fatal? { status := 1 } = none := rfl
  have hpage : Script.page? { status := 1 } = none := rfl
  simp only [hstarts, List.findSome?_cons, hfirst, fatal?_word, List.findSome?_nil,
    List.filterMap_cons, hpage, page?_word, List.filterMap_nil, hmerge] at hread
  exact hread.1

/-- The engine cannot be started for the first page.  The second one is lost. -/
theorem not_read_isOk_of_rendered :
    ¬ ∀ (data : Utf8.Bytes) (mime : String) (cap : Int) (s t : Site) (found : List String),
      data ≠ [] → Mime.isPdf mime = true → s.Steady →
        render (capInForce cap) s = (.ok found, t) →
          ∃ page, (read data mime cap s).1 = .ok page := by
  intro hspared
  have hcalm : Script.IsCalm { startFault := some (.plain .os "exec failed") } false :=
    ⟨Ending.noConfusion, nofun⟩
  have hdata : ([37] : Utf8.Bytes) ≠ [] := by decide
  have hmime : Mime.isPdf "application/pdf" = true := by decide
  obtain ⟨found, t, hrender, hstarts⟩ := render_rendered hcalm
  obtain ⟨page, hpage⟩ := hspared [37] "application/pdf" 0 _ t found hdata hmime
    (steady_rendered hcalm) hrender
  have hfatal : Script.fatal? { startFault := some (.plain .os "exec failed") } =
      some (.plain .os "exec failed") := rfl
  rw [read_pdf hdata hmime, readPdf_eq (steady_rendered hcalm) hrender, hstarts,
    sifted_cons_of_fatal hfatal] at hpage
  cases hpage

end PageReading
end Intake
