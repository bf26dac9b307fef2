import Intake.Hints.Basic
import Intake.Text.Blank

/-!
# Prompts

What a model is told: a system message that fixes the form of the reply
and names the records it should reuse, and a user message with the
document's particulars and its text.

* `Prompt.system` and `Prompt.user` are the two messages.
* `Prompt.build` makes both for one document.
* `Prompt.tells_build` says that nothing the model is to be told is left out.
-/

namespace Intake

/-- Who speaks in a message. -/
inductive Role where
  | system
  | user
  deriving DecidableEq, Repr

/-- The name of a role. -/
def Role.name : Role → String
  | system => "system"
  | user => "user"

/-- A message to a model. -/
structure Message where
  role : Role
  content : String
  deriving DecidableEq, Repr

/-- The two messages of one request. -/
structure Prompt where
  system : String
  user : String
  deriving DecidableEq, Repr

/-- A document's particulars and the texts found in it. -/
structure DocumentSource where
  filename : String
  mime : String
  size : Nat
  /-- The text layer of a PDF. -/
  pdfText : String := ""
  /-- The text read from page images. -/
  ocrText : String := ""
  /-- The text to fall back on. -/
  text : String := ""
  deriving DecidableEq, Repr

namespace Prompt

/-! ## The system message -/

/-- Lines as one text. -/
def ofLines (ls : List String) : String := "\n".intercalate ls

/-- Sections as one text, with a blank line between them. -/
def ofSections (sections : List String) : String := "\n\n".intercalate sections

/-- What the model is there for. -/
def preamble : String :=
  "You are a document extraction assistant for a home management application. Given a " ++
    "document's metadata and extracted text, return a JSON object with structured fields. " ++
    "Fill only the fields you can confidently extract. Omit or null fields you cannot " ++
    "determine."

/-- The form of the reply. -/
def schema : String := ofLines
  ["## Output schema",
   "",
   "Return ONLY a JSON object with these fields (all optional):",
   "",
   "\x7b",
   "  \"document_type\": " ++
     "\"quote|invoice|receipt|manual|warranty|permit|inspection|contract|other\",",
   "  \"title_suggestion\": \"short descriptive title for the document\",",
   "  \"summary\": \"one-line summary for table display\",",
   "  \"vendor_hint\": \"vendor or company name, matched against existing vendors if possible\",",
   "  \"currency_unit\": \"cents\",",
   "  \"total_cents\": 150000,",
   "  \"labor_cents\": 80000,",
   "  \"materials_cents\": 70000,",
   "  \"date\": \"2025-01-15\",",
   "  \"warranty_expiry\": \"2027-01-15\",",
   "  \"entity_kind_hint\": \"project|appliance|vendor|maintenance|quote|service_log\",",
   "  \"entity_name_hint\": \"name of the related entity, matched against existing names if " ++
     "possible\",",
   "  \"maintenance_items\": [",
   "    \x7b\"name\": \"Replace filter\", \"interval_months\": 3\x7d",
   "  ],",
   "  \"notes\": \"anything else worth capturing\"",
   "\x7d"]

/-- The rules of the reply. -/
def rules : String := ofLines
  ["## Rules",
   "",
   "1. Return ONLY valid JSON. No markdown fences, no commentary, no explanation.",
   "2. All fields are optional. Omit fields you cannot determine. Do not guess.",
   "3. Money values are integers. Set currency_unit to \"cents\" or \"dollars\" to say " ++
     "which unit they use. $1,500.00 = 150000 cents. Never use floats.",
   "4. Dates are ISO 8601: YYYY-MM-DD.",
   "5. For vendor_hint and entity_name_hint, prefer exact matches from the existing entities list.",
   "6. document_type must be one of: " ++
     ", ".intercalate (DocumentType.all.map DocumentType.name) ++ ".",
   "7. entity_kind_hint must be one of: " ++
     ", ".intercalate (EntityKind.all.map EntityKind.name) ++ ".",
   "8. maintenance_items: extract maintenance schedules from manuals (e.g. \"replace filter " ++
     "every 3 months\").",
   "9. Keep title_suggestion concise (under 60 characters).",
   "10. Keep summary to one sentence."]

/-- A line that lists names, none when there is no name. -/
def nameLine (label : String) (names : List String) : List String :=
  if names.isEmpty then [] else [label ++ ": " ++ ", ".intercalate names]

/-- Lists the names a model should reuse, empty when none is known. -/
def entitySection (e : KnownEntities) : String :=
  if e.isEmpty then ""
  else
    ofLines
      (["## Existing entities in the database", "",
        "Match extracted names against these when possible.", ""]
        ++ nameLine "Vendors" e.vendors ++ nameLine "Projects" e.projects
        ++ nameLine "Appliances" e.appliances)

/-- The part of the system message that never changes. -/
def systemHead : String := ofSections [preamble, schema, rules]

/-- The system message. -/
def systemMessage (e : KnownEntities) : String :=
  let names := entitySection e
  ofSections ([preamble, schema, rules] ++ if names.isEmpty then [] else [names])

/-! ## The user message -/

/-- How two texts of one document are to be weighed. -/
def sourcePreference : String := ofLines
  ["Two text sources are provided for this document.",
   "- Prefer the PDF text layer for pages where it has content; it is exact.",
   "- Prefer the OCR text for scanned pages the text layer missed.",
   "- When the two disagree, use the reading that is more plausible for the document."]

/-- Stands above the text layer when there are two texts. -/
def pdfLabel : String := "## Source: PDF text layer"

/-- Stands above the text read from page images. -/
def ocrLabel : String := "## Source: OCR (tesseract)"

/-- The text a model reads: both sources under labels when both hold
something, else the one that does, else the text to fall back on. -/
def userBody (d : DocumentSource) : String :=
  let blank (s : String) := Text.allBlank s.toList
  match blank d.pdfText, blank d.ocrText with
  | false, false => ofSections [sourcePreference, pdfLabel, d.pdfText, ocrLabel, d.ocrText]
  | false, true => d.pdfText
  | true, false => d.ocrText
  | true, true => d.text

/-- The user message. -/
def userMessage (d : DocumentSource) : String :=
  ofLines
    ["Filename: " ++ d.filename, "MIME: " ++ d.mime, "Size: " ++ toString d.size ++ " bytes",
     "", "---", "", userBody d]

/-! ## Prompts -/

/-- The prompt for a document. -/
def build (e : KnownEntities) (d : DocumentSource) : Prompt := ⟨systemMessage e, userMessage d⟩

/-- A prompt as messages. -/
def messages (p : Prompt) : List Message := [⟨.system, p.system⟩, ⟨.user, p.user⟩]

/-! ## What a prompt tells -/

/-- A text stands in another. -/
def Holds (text part : String) : Prop := part.toList <:+: text.toList

theorem Holds.refl (text : String) : Holds text text := List.infix_rfl

theorem Holds.trans {text part piece : String} (h : Holds text part) (h' : Holds part piece) :
    Holds text piece := List.IsInfix.trans h' h

theorem holds_append_left (text tail : String) : Holds (text ++ tail) text := by
  rw [Holds, String.toList_append]
  exact (List.prefix_append _ _).isInfix

theorem holds_append_right (head text : String) : Holds (head ++ text) text := by
  rw [Holds, String.toList_append]
  exact (List.suffix_append _ _).isInfix

theorem isEmpty_eq_false_of_holds {text part : String} (h : Holds text part) (hpart : part ≠ "") :
    text.isEmpty = false := by
  refine Bool.eq_false_iff.2 fun hempty => hpart ?_
  rw [String.isEmpty_iff.1 hempty, Holds] at h
  exact String.toList_eq_nil_iff.1 (List.infix_nil.1 h)

theorem infix_intercalate {sep l : List Char} {ls : List (List Char)} (h : l ∈ ls) :
    l <:+: sep.intercalate ls := by
  induction ls with
  | nil => cases h
  | cons first rest ih =>
    rcases List.mem_cons.1 h with rfl | hrest
    · cases rest with
      | nil => exact List.intercalate_singleton ▸ List.infix_rfl
      | cons second rest =>
        rw [List.intercalate_cons_cons, List.append_assoc]
        exact (List.prefix_append _ _).isInfix
    · rw [List.intercalate_cons_of_ne_nil (List.ne_nil_of_mem hrest)]
      exact (ih hrest).trans (List.suffix_append _ _).isInfix

theorem holds_intercalate {sep line : String} {lines : List String} (h : line ∈ lines) :
    Holds (sep.intercalate lines) line := by
  rw [Holds, String.toList_intercalate]
  exact infix_intercalate (List.mem_map_of_mem h)

/-- A line that lists names holds them all. -/
theorem holds_nameLine (label : String) {name : String} {names : List String} (h : name ∈ names) :
    ∃ line ∈ nameLine label names, Holds line name := by
  have hsome : ¬ names.isEmpty = true := fun hempty =>
    List.ne_nil_of_mem h (List.isEmpty_iff.1 hempty)
  refine ⟨label ++ ": " ++ ", ".intercalate names, ?_,
    (holds_append_right _ _).trans (holds_intercalate h)⟩
  rw [nameLine, if_neg hsome]
  exact List.mem_singleton_self _

/-- The names that a model should reuse stand in their section, which is then
there. -/
theorem holds_entitySection {e : KnownEntities} {name : String}
    (h : name ∈ e.vendors ∨ name ∈ e.projects ∨ name ∈ e.appliances) :
    Holds (entitySection e) name ∧ (entitySection e).isEmpty = false := by
  have hknown : ¬ e.isEmpty = true := by
    rw [KnownEntities.isEmpty, Bool.and_eq_true, Bool.and_eq_true, List.isEmpty_iff,
      List.isEmpty_iff, List.isEmpty_iff]
    rintro ⟨⟨hvendors, hprojects⟩, happliances⟩
    rw [hvendors, hprojects, happliances] at h
    simp at h
  rw [entitySection, if_neg hknown]
  constructor
  · rcases h with hvendor | hproject | happliance
    · obtain ⟨line, hline, hname⟩ := holds_nameLine "Vendors" hvendor
      exact (holds_intercalate (by simp [hline])).trans hname
    · obtain ⟨line, hline, hname⟩ := holds_nameLine "Projects" hproject
      exact (holds_intercalate (by simp [hline])).trans hname
    · obtain ⟨line, hline, hname⟩ := holds_nameLine "Appliances" happliance
      exact (holds_intercalate (by simp [hline])).trans hname
  · exact isEmpty_eq_false_of_holds (holds_intercalate List.mem_cons_self) (by decide)

/-- The model is told what the document is called and of what type and size it
is, all the names that it should reuse, and the texts that were found: each of
the two sources that holds something, or the text to fall back on when neither
does. -/
theorem tells_build (e : KnownEntities) (d : DocumentSource) :
    (Holds (build e d).user d.filename ∧ Holds (build e d).user d.mime ∧
      Holds (build e d).user (toString d.size)) ∧
    (∀ name, name ∈ e.vendors ∨ name ∈ e.projects ∨ name ∈ e.appliances →
      Holds (build e d).system name) ∧
    (Text.allBlank d.pdfText.toList = false → Holds (build e d).user d.pdfText) ∧
    (Text.allBlank d.ocrText.toList = false → Holds (build e d).user d.ocrText) ∧
    (Text.allBlank d.pdfText.toList = true → Text.allBlank d.ocrText.toList = true →
      Holds (build e d).user d.text) := by
  have hline : ∀ {line part : String}, line ∈ ["Filename: " ++ d.filename, "MIME: " ++ d.mime,
      "Size: " ++ toString d.size ++ " bytes", "", "---", "", userBody d] → Holds line part →
      Holds (build e d).user part := fun hmem hpart => (holds_intercalate hmem).trans hpart
  have hbody : ∀ {part : String}, Holds (userBody d) part → Holds (build e d).user part :=
    hline (by simp)
  refine ⟨⟨hline (.head _) (holds_append_right _ _),
      hline (.tail _ (.head _)) (holds_append_right _ _),
      hline (.tail _ (.tail _ (.head _)))
        ((holds_append_left _ _).trans (holds_append_right _ _))⟩,
    fun name hname => ?_, fun hpdf => hbody ?_, fun hocr => hbody ?_, fun hpdf hocr => hbody ?_⟩
  · obtain ⟨hsection, hthere⟩ := holds_entitySection hname
    have hsystem : systemMessage e = ofSections [preamble, schema, rules, entitySection e] := by
      rw [systemMessage, hthere]
      rfl
    have hheld : Holds (ofSections [preamble, schema, rules, entitySection e]) (entitySection e) :=
      holds_intercalate (.tail _ (.tail _ (.tail _ (.head _))))
    rw [build, hsystem]
    exact hheld.trans hsection
  · cases hocr : Text.allBlank d.ocrText.toList with
    | false =>
      simp only [userBody, hpdf, hocr]
      exact holds_intercalate (.tail _ (.tail _ (.head _)))
    | true =>
      simp only [userBody, hpdf, hocr]
      exact .refl _
  · cases hpdf : Text.allBlank d.pdfText.toList with
    | false =>
      simp only [userBody, hpdf, hocr]
      exact holds_intercalate (.tail _ (.tail _ (.tail _ (.tail _ (.head _)))))
    | true =>
      simp only [userBody, hpdf, hocr]
      exact .refl _
  · simp only [userBody, hpdf, hocr]
    exact .refl _

end Prompt
end Intake
