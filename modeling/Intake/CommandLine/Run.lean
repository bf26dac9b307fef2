import Intake.Batch
import Intake.CommandLine.Arguments
import Intake.CommandLine.Sitting
import Intake.Json.Writer

/-!
# Runs from the command line

One document is extracted, in one go or in a sitting, and the outcome is
written as JSON. What is reported goes to the console of the site's
journal.

* `CommandLine.run` is a whole run, `Ended` what comes of it.
* `settings` and `client` say what a run works with.
-/

namespace Intake.CommandLine

open Text

/-- What a run is given. -/
structure Invocation where
  words : List String
  environment : Environment := []
  provider : Provider := .gateway
  /-- The model when none is named. -/
  defaultModel : String
  /-- The files there are, by their paths. -/
  files : List (String × Utf8.Bytes) := []
  /-- The lines typed at the console. -/
  lines : List String := []
  site : Site := {}

/-- What comes of a run. -/
structure Ended where
  status : Nat
  output : String := ""
  /-- The files written, by their paths. -/
  written : List (String × String) := []
  site : Site
  /-- The fault that broke the run off. -/
  fault : Option Fault := none

/-- What is reported when the words make no sense. -/
def usage : String :=
  "usage: [-h] [--mime MIME] [--no-llm] [--model MODEL] [--max-ocr-pages N] [--text-timeout D] "
    ++ "[-i] [-v] [--log-dir DIR] [-o OUTPUT] file"

/-! ## Consoles -/

/-- Writes a line to the console. -/
def print (s : Site) (line : String) : Site :=
  { s with book := { s.book with journal := s.book.journal.print line } }

/-- Writes lines to the console. -/
def printAll (s : Site) (lines : List String) : Site := lines.foldl print s

/-- Ends a run that cannot begin, with its reason. -/
def refuse (s : Site) (reason : String) : Ended := { status := 1, site := print s ("Error: " ++ reason) }

/-! ## What a run works with -/

/-- A text that says something. -/
def given (s : Option String) : Option String := s.filter (! ·.isEmpty)

/-- The settings of a run: those of the environment, replaced by what the
words say. -/
def settings (i : Invocation) (a : Arguments) : Except Settings.Refusal Settings := do
  let base ← Settings.ofEnvironment i.environment i.defaultModel
  let timeout ← match given a.textTimeout with
    | some text => some <$> Settings.seconds "--text-timeout" text
    | none => pure none
  base.override
    { maxPages := a.maxPages, textTimeout := timeout, model := a.model
      modelEnabled := if a.noModel then some false else none }

/-- What is reported when the key of a provider is missing. -/
def missingKeyLines (p : Provider) : List String :=
  ("Warning: " ++ p.keyVariable ++ " not set, skipping model extraction") ::
    if p = .azure then ["For Azure, set: AZURE_API_KEY, AZURE_API_BASE, AZURE_API_VERSION"] else []

/-- The client of a run, and what is reported when there is none although
the model is enabled. -/
def client (i : Invocation) (s : Settings) : Option ChatClient × List String :=
  let key := i.provider.keyVariable
  if ! s.modelEnabled then (none, [])
  else if key.isEmpty || (given (i.environment.get? key)).isSome then (some ⟨s.model, false⟩, [])
  else (none, missingKeyLines i.provider)

/-- What a run is about. -/
structure Subject where
  path : String
  mime : String
  data : Utf8.Bytes
  settings : Settings
  verbose : Bool
  logFolder : Option String

/-- The name of the file. -/
def Subject.name (d : Subject) : String := FileName.lastName d.path

/-- Hands the recorder of a run out. -/
def record (s : Site) (d : Subject) : Site :=
  { s with book := s.book.obtain d.verbose d.logFolder }

/-! ## Runs in one go -/

/-- Runs every layer; the outcome names the file and its type first. -/
def batch (i : Invocation) (d : Subject) : Except Fault Json × Site :=
  let (client, warnings) := client i d.settings
  let site := record (printAll i.site warnings) d
  let job : Job :=
    { data := d.data, filename := d.name, mime := d.mime, settings := d.settings, client := client }
  let (report, site) := Batch.run job site
  (report.map fun r =>
    .object ([("file", .text d.path), ("mime", .text d.mime)] ++ r.members), site)

/-! ## Sittings -/

/-- What is reported when a sitting has nothing to do. -/
def nothingToDo : String := "Nothing to extract: no OCR tools and no model configured."

/-- Names the keys. -/
def keysHelp : String := "keys: j/k move, enter expand, r rerun, a accept, esc discard"

/-- Ends the run of a recorder. -/
def finish (s : Site) (success : Bool) : Site := { s with book := s.book.endRun success [] }

/-- The stored document as the outcome. -/
def outcome (w : Workbench) (id : Int) : Except Fault Json :=
  match w.store with
  | some store => (store.get id).map Document.toJson
  | none => .ok .null

/-- A sitting over a session that is open. -/
def sit (i : Invocation) (id : Int) (shop : Workshop) (c : Option Command) : Except Fault Json × Site :=
  let shop := { shop with site := print shop.site keysHelp }
  let s := Sitting.run
    { shop := shop, lines := i.lines, loop := ({} : Loop Delivery Task).dispatch (c.map .fresh) }
  let bench := s.shop.bench
  let site := finish s.shop.site bench.statusError.isEmpty
  (match s.fault with
    | some e => .error e
    | none => outcome bench id, site)

/-- Stores the document and opens a session for it. The outcome is the
stored document, whether its results were accepted or not. -/
def interactive (i : Invocation) (d : Subject) : Except Fault Json × Site :=
  let site := record i.site d
  let site := { site with book := site.book.startRun d.name }
  let (doc, store) := ({} : Store).add d.name d.data d.mime none
  let (client, warnings) := client i d.settings
  let shop : Workshop :=
    { bench := { store := some store, client := client, settings := d.settings }
      site := printAll site warnings, stepwise := true }
  match Workshop.openDocument doc.id shop with
  | (.error e, shop) => (.error e, shop.site)
  | (.ok c, shop) =>
    if shop.bench.session.isSome then sit i doc.id shop c
    else (outcome shop.bench doc.id, finish (print shop.site nothingToDo) true)

/-! ## Whole runs -/

/-- Writes the outcome of a run to the file that was named or puts it out. -/
def deliver (a : Arguments) (outcome : Json) (site : Site) : Ended :=
  let text := outcome.written .indented ++ "\n"
  let logs := site.book.journal.files
  match given a.output with
  | none => { status := 0, output := text, written := logs, site := site }
  | some path =>
    { status := 0, written := logs ++ [(FileName.render path, text)]
      site := print site ("[OUTPUT] " ++ path) }

/-- Runs what the arguments ask for on a file that is there. -/
def runOn (i : Invocation) (a : Arguments) (path : String) (data : Utf8.Bytes) : Ended :=
  match settings i a with
  | .error r => refuse i.site r.message
  | .ok settings =>
    let d : Subject :=
      { path := path, mime := (given a.mime).getD (Mime.guess (FileName.lastName path)), data := data
        settings := settings, verbose := a.verbose, logFolder := (given a.logFolder).map FileName.render }
    match if a.interactive then interactive i d else batch i d with
    | (.ok outcome, site) => deliver a outcome site
    | (.error e, site) =>
      { status := 1, written := site.book.journal.files, site := print site (Logbook.faultText e)
        fault := some e }

/-- A whole run. -/
def run (i : Invocation) : Ended :=
  match Arguments.read i.words with
  | .error .help => { status := 0, output := usage ++ "\n", site := i.site }
  | .error .misuse => { status := 2, site := print i.site usage }
  | .ok a =>
    let path := FileName.render a.file
    match i.files.lookup path with
    | none => refuse i.site ("File not found: " ++ path)
    | some data => runOn i a path data

end Intake.CommandLine
